import Libssh2.Import.Request
import Libssh2.Derive

namespace Libssh2

open Asn1

section Unwrap

variable {K β : Type} {P : Platform K} {w : World}

-- `key`'s CSSM key is the raw key `raw`, or a reference the CSP wraps in `format` to it.
def UnwrapsTo (P : Platform K) (key : K) (format : BlobFormat) (raw : CssmKey) : Prop :=
  ∃ k, P.cssmKey key = some k ∧
    (k.keyHeader.blobType = .raw ∧ k = raw ∨
      k.keyHeader.blobType = .reference ∧ P.wrapKey k format = some raw)

-- A raw key goes to the block as it is.
theorem convertPrivateKeyToRawKey_of_raw {key : Ref K} {format : BlobFormat} {raw : CssmKey}
    (hk : P.cssmKey key.val = some raw) (hraw : raw.keyHeader.blobType = .raw)
    (convert : CssmKey → β → SecM K β) (captured : β) :
    convertPrivateKeyToRawKey key format convert captured P w = convert raw captured P w := by
  simp [convertPrivateKeyToRawKey, secKeyGetCSSMKey, hk, hraw]

-- A reference key is wrapped to its raw form in a CSSM context, which is deleted after the block;
-- the wrapped key is not freed.
theorem convertPrivateKeyToRawKey_of_reference (hP : P.Reliable) {key : Ref K}
    {format : BlobFormat} {k raw : CssmKey} (hk : P.cssmKey key.val = some k)
    (href : k.keyHeader.blobType = .reference) (hwrap : P.wrapKey k format = some raw)
    (convert : CssmKey → β → SecM K β) (captured : β) {c : β} {w₁ : World}
    (hconvert : convert raw captured P { w with
      ledger := (w.fresh + 1) ::ₘ w.fresh ::ₘ w.ledger, fresh := w.fresh + 2,
      calls := w.calls + 3 } = .ok (c, w₁))
    (hmem : w.fresh ∈ w₁.ledger) :
    convertPrivateKeyToRawKey key format convert captured P w =
      .ok (c, { w₁ with ledger := w₁.ledger.erase w.fresh }) := by
  simp [convertPrivateKeyToRawKey, secKeyGetCSSMKey, hk, href, secKeyGetCSPHandle_of_reliable hP,
    cssmCspCreateSymmetricContext_of_reliable hP, cssmUpdateContextAttributes_of_reliable hP, cssmWrapKey,
    hwrap, cssmDeleteContext, hconvert, hmem]

-- When the key unwraps, its raw form goes to the block, and what the block gives back is the
-- result. The holds the block adds are still there at the end.
theorem convertPrivateKeyToRawKey_of_unwrapsTo (hP : P.Reliable) {key : Ref K}
    {format : BlobFormat} {raw : CssmKey} (hu : UnwrapsTo P key.val format raw)
    (convert : CssmKey → β → SecM K β) (captured : β) {Q : β → Prop} (added : β → Multiset Nat)
    (hconvert : ∀ w, ∃ c w', convert raw captured P w = .ok (c, w') ∧ Q c ∧
      w'.ledger = added c + w.ledger) :
    ∃ c w', convertPrivateKeyToRawKey key format convert captured P w = .ok (c, w') ∧ Q c ∧
      added c + w.ledger ≤ w'.ledger := by
  obtain ⟨k, hk, ⟨hraw, rfl⟩ | ⟨href, hwrap⟩⟩ := hu
  · obtain ⟨c, w', hc, hQ, hl⟩ := hconvert w
    exact ⟨c, w', (convertPrivateKeyToRawKey_of_raw hk hraw convert captured).trans hc, hQ, hl.ge⟩
  · obtain ⟨c, w', hc, hQ, hl⟩ := hconvert
      { w with ledger := (w.fresh + 1) ::ₘ w.fresh ::ₘ w.ledger, fresh := w.fresh + 2, calls := w.calls + 3 }
    refine ⟨c, _, convertPrivateKeyToRawKey_of_reference hP hk href hwrap convert captured hc
      (by simp [hl]), hQ, ?_⟩
    simpa [hl, Multiset.erase_add_right_pos _ (show w.fresh ∈ (w.fresh + 1) ::ₘ w.fresh ::ₘ w.ledger by simp)]
      using Multiset.le_cons_self _ _

-- When the key has no CSSM key, or one that is neither raw nor a reference, the block is never
-- invoked, and the uninitialised `publicKey` is what the conversion returns.
theorem convertToPublicKey_without_raw_key (format : BlobFormat) (algorithm : Algorithm)
    (convertPrivate : CssmKey → SecM K (Option (Ref K))) (key : Ref K)
    (hnone : ∀ k, P.cssmKey key.val = some k →
      k.keyHeader.blobType ≠ .raw ∧ k.keyHeader.blobType ≠ .reference) :
    convertToPublicKey format algorithm convertPrivate key P w = .ok (P.uninitializedKey, w) := by
  cases h : P.cssmKey key.val with
  | none => simp [convertToPublicKey, uninitializedKey, convertPrivateKeyToRawKey, secKeyGetCSSMKey, h]
  | some k =>
    simp [convertToPublicKey, uninitializedKey, convertPrivateKeyToRawKey, secKeyGetCSSMKey, h,
      hnone k h]

-- A platform whose keys have no CSSM key, on which an uninitialised SecKeyRef holds `junk`.
def junkPlatform (junk : Option (Ref Unit)) : Platform Unit where
  itemImport _ := .error 0
  cssmKey _ := none
  wrapKey _ _ := none
  execute _ := none
  readFile _ := none
  fails _ := false
  uninitializedKey := junk
  cryptorCreate _ := false
  cryptorUpdate _ _ := none

-- The RSA conversion hands back an object it never made: the indeterminate value 7.
theorem convertRsaPrivateKeyToPublicKey_junk :
    (∀ k, (junkPlatform (some ⟨7, ()⟩)).cssmKey () = some k →
        k.keyHeader.blobType ≠ .raw ∧ k.keyHeader.blobType ≠ .reference) ∧
      convertRsaPrivateKeyToPublicKey ⟨0, ()⟩ (junkPlatform (some ⟨7, ()⟩)) World.initial =
        .ok (some ⟨7, ()⟩, World.initial) :=
  ⟨fun _ h => (nomatch h), convertToPublicKey_without_raw_key .pkcs1 .rsa convertRsaPrivateKey
    ⟨0, ()⟩ fun _ h => (nomatch h)⟩

end Unwrap

section NewKey

variable {K R : Type} {P : Platform K} {w : World}

-- When the coder is made and the record encodes, the DER is imported under the class's type, and
-- the coder and the DER's CFData are released.
theorem newFromBinaryTemplate_of_succeeds {keyClass : KeyClass} {type : ItemType}
    (htype : keyClass.itemType = some type) (hcoder : P.fails w.calls = false)
    (hencode : P.fails (w.calls + 1) = false) {l : Layout R} {r : R} {der : Bytes}
    (henc : l.encode r = some der) (hne : P.itemImport ⟨der, none, type, none⟩ ≠ .ok []) :
    ∃ id w', newFromBinaryTemplate keyClass l r P w =
        .ok (importOutcome (P.itemImport ⟨der, none, type, none⟩) id, w') ∧
      w'.ledger = held (importOutcome (P.itemImport ⟨der, none, type, none⟩) id).2 + w.ledger := by
  obtain ⟨fresh, himport⟩ := importKeyData_without_filename (P := P)
    (w := { w with ledger := (w.fresh + 1) ::ₘ w.ledger, fresh := w.fresh + 2, calls := w.calls + 2 })
    ⟨w.fresh + 1, der⟩ type none
  obtain ⟨w', hrun, hledger⟩ := keyNewFromData_of_secItemImport himport hne
  simp only [importPassphrase, Option.bind] at hrun hledger
  refine ⟨fresh + 1, { w' with ledger := w'.ledger.erase (w.fresh + 1) }, ?_, ?_⟩
  · simp [newFromBinaryTemplate, htype, secAsn1CoderCreate, hcoder, secAsn1EncodeItem, hencode, henc,
      cfDataCreate, secAsn1CoderRelease, cfRelease, hrun, hledger]
  · simp [hledger]

theorem newFromBinaryTemplate_of_encode (hP : P.Reliable) {keyClass : KeyClass} {type : ItemType}
    (htype : keyClass.itemType = some type) {l : Layout R} {r : R} {der : Bytes}
    (henc : l.encode r = some der) (hne : P.itemImport ⟨der, none, type, none⟩ ≠ .ok []) :
    ∃ id w', newFromBinaryTemplate keyClass l r P w =
        .ok (importOutcome (P.itemImport ⟨der, none, type, none⟩) id, w') ∧
      w'.ledger = held (importOutcome (P.itemImport ⟨der, none, type, none⟩) id).2 + w.ledger :=
  newFromBinaryTemplate_of_succeeds htype (hP.fails_false _) (hP.fails_false _) henc hne

-- Failing calls included, the template path returns 1 with nothing held or the import's outcome
-- holding only the returned key.
theorem newFromBinaryTemplate_ledger {keyClass : KeyClass} {type : ItemType}
    (htype : keyClass.itemType = some type) {l : Layout R} {r : R} {der : Bytes}
    (henc : l.encode r = some der) (hne : P.itemImport ⟨der, none, type, none⟩ ≠ .ok []) :
    ∃ res w', newFromBinaryTemplate keyClass l r P w = .ok (res, w') ∧
      (res = (1, none) ∨ ∃ id, res = importOutcome (P.itemImport ⟨der, none, type, none⟩) id) ∧
      w'.ledger = held res.2 + w.ledger := by
  cases hcoder : P.fails w.calls
  case true =>
    exact ⟨_, { w with calls := w.calls + 1 }, by
      simp [newFromBinaryTemplate, htype, secAsn1CoderCreate, hcoder], .inl rfl, by simp⟩
  cases hencode : P.fails (w.calls + 1)
  case true =>
    exact ⟨_, { w with fresh := w.fresh + 1, calls := w.calls + 2 }, by
      simp [newFromBinaryTemplate, htype, secAsn1CoderCreate, hcoder, secAsn1EncodeItem, hencode,
        secAsn1CoderRelease], .inl rfl, by simp⟩
  obtain ⟨id, w', hrun, hledger⟩ := newFromBinaryTemplate_of_succeeds htype hcoder hencode henc hne
  exact ⟨_, w', hrun, .inr ⟨id, rfl⟩, hledger⟩

-- The importer keeps the DER it is given, and the CSP unwraps every key it made back to that DER
-- under a raw header of the algorithm and format.
structure KeepsDer (P : Platform K) (key : ItemType → Bytes → K) (algorithm : Algorithm)
    (format : BlobFormat) : Prop where
  itemImport_eq : ∀ type der, P.itemImport ⟨der, none, type, none⟩ = .ok [.secKey (key type der)]
  unwraps_private : ∀ der,
    UnwrapsTo P (key .privateKey der) format ⟨⟨.raw, format, algorithm, .privateKey⟩, der⟩
  unwraps_public : ∀ der,
    UnwrapsTo P (key .publicKey der) format ⟨⟨.raw, format, algorithm, .publicKey⟩, der⟩

-- The platform of that model: a key is its import request's type and DER, and the CSP hands
-- every key back raw, under a header of `algorithm` and `format`.
def derPlatform (algorithm : Algorithm) (format : BlobFormat) : Platform (ItemType × Bytes) where
  itemImport request := .ok [.secKey (request.inputType, request.importedData)]
  cssmKey key := some ⟨⟨.raw, format, algorithm,
    if key.1 = .privateKey then .privateKey else .publicKey⟩, key.2⟩
  wrapKey _ _ := none
  execute _ := none
  readFile _ := none
  fails _ := false
  uninitializedKey := none
  cryptorCreate _ := false
  cryptorUpdate _ _ := none

theorem derPlatform_keepsDer (algorithm : Algorithm) (format : BlobFormat) :
    KeepsDer (derPlatform algorithm format) Prod.mk algorithm format where
  itemImport_eq _ _ := rfl
  unwraps_private _ := ⟨_, rfl, .inl ⟨rfl, rfl⟩⟩
  unwraps_public _ := ⟨_, rfl, .inl ⟨rfl, rfl⟩⟩

theorem newFromBinaryTemplate_keepsDer (hP : P.Reliable) {key : ItemType → Bytes → K}
    {algorithm : Algorithm} {format : BlobFormat} (hder : KeepsDer P key algorithm format)
    {keyClass : KeyClass} {type : ItemType} (htype : keyClass.itemType = some type) {l : Layout R}
    {r : R} {der : Bytes} (henc : l.encode r = some der) (w : World) :
    ∃ k w', newFromBinaryTemplate keyClass l r P w = .ok ((0, some k), w') ∧ k.val = key type der ∧
      w'.ledger = k.id ::ₘ w.ledger := by
  obtain ⟨id, w', hrun, hledger⟩ :=
    newFromBinaryTemplate_of_encode (w := w) hP htype henc (by simp [hder.itemImport_eq])
  simp only [hder.itemImport_eq, importOutcome] at hrun hledger
  exact ⟨⟨id, key type der⟩, w', hrun, rfl, by simpa using hledger⟩

theorem convertPrivateKey_of_decode (hP : P.Reliable) {algorithm : Algorithm} {format : BlobFormat}
    {layout : Layout R} {newPublicKey : R → SecM K (Int × Option (Ref K))} (keyRef : CssmKey)
    (halg : keyRef.keyHeader.algorithmId = algorithm) (hformat : keyRef.keyHeader.format = format)
    (hclass : keyRef.keyHeader.keyClass = .privateKey) {r : R}
    (hdec : layout.decode keyRef.keyData = some r) {v : K}
    (hnew : ∀ w, ∃ k w', newPublicKey r P w = .ok ((0, some k), w') ∧ k.val = v ∧
      w'.ledger = k.id ::ₘ w.ledger) (w : World) :
    ∃ k w', convertPrivateKey algorithm format layout newPublicKey keyRef P w = .ok (some k, w') ∧
      k.val = v ∧ w'.ledger = k.id ::ₘ w.ledger := by
  obtain ⟨k, w', hk, hv, hl⟩ :=
    hnew { w with ledger := w.fresh ::ₘ w.ledger, fresh := w.fresh + 1, calls := w.calls + 2 }
  refine ⟨k, { w' with ledger := w'.ledger.erase w.fresh }, ?_, hv, by simp [hl]⟩
  simp [convertPrivateKey, halg, hformat, hclass, secAsn1CoderCreate_of_reliable hP,
    secAsn1Decode_of_reliable hP, hdec, hk, secAsn1CoderRelease, hl]


end NewKey

section ToPublic

variable {K : Type} {P : Platform K} {w : World}

variable {format : BlobFormat} {algorithm : Algorithm}
  {convertPrivate : CssmKey → SecM K (Option (Ref K))}

-- A key whose raw form is a public key of the algorithm is returned itself, retained.
theorem convertToPublicKey_of_public (hP : P.Reliable) {key : Ref K} {raw : CssmKey}
    (hu : UnwrapsTo P key.val format raw) (halg : raw.keyHeader.algorithmId = algorithm)
    (hclass : raw.keyHeader.keyClass = .publicKey) (w : World) :
    ∃ w', convertToPublicKey format algorithm convertPrivate key P w = .ok (some key, w') := by
  obtain ⟨c, w', hrun, rfl, -⟩ := convertPrivateKeyToRawKey_of_unwrapsTo (w := w)
    (Q := (· = some key)) hP hu
    (fun keyRef _ => do
      if keyRef.keyHeader.algorithmId = algorithm ∧ keyRef.keyHeader.keyClass = .publicKey then
        return some (← cfRetain key)
      else convertPrivate keyRef)
    P.uninitializedKey held
    (fun w => ⟨some key, { w with ledger := key.id ::ₘ w.ledger }, by simp [halg, hclass, cfRetain],
      rfl, by simp⟩)
  exact ⟨w', by simpa [convertToPublicKey, uninitializedKey] using hrun⟩

-- A key whose raw form is a private key is converted.
theorem convertToPublicKey_of_private (hP : P.Reliable) {key : Ref K} {raw : CssmKey}
    (hu : UnwrapsTo P key.val format raw) (hclass : raw.keyHeader.keyClass = .privateKey) {v : K}
    (hconvert : ∀ w, ∃ k w', convertPrivate raw P w = .ok (some k, w') ∧ k.val = v ∧
      w'.ledger = k.id ::ₘ w.ledger) (w : World) :
    ∃ k w', convertToPublicKey format algorithm convertPrivate key P w = .ok (some k, w') ∧
      k.val = v := by
  obtain ⟨c, w', hrun, ⟨k, rfl, hv⟩, -⟩ := convertPrivateKeyToRawKey_of_unwrapsTo (w := w)
    (Q := fun c => ∃ k, c = some k ∧ k.val = v) hP hu
    (fun keyRef _ => do
      if keyRef.keyHeader.algorithmId = algorithm ∧ keyRef.keyHeader.keyClass = .publicKey then
        return some (← cfRetain key)
      else convertPrivate keyRef)
    P.uninitializedKey held
    (fun w => by
      obtain ⟨k, w', hk, hv, hl⟩ := hconvert w
      exact ⟨some k, w', by simp [hclass, hk], ⟨k, rfl, hv⟩, by simp [hl]⟩)
  exact ⟨k, w', by simpa [convertToPublicKey, uninitializedKey] using hrun, hv⟩

end ToPublic

theorem integerSequenceDer_stripLeadingZeros (fields : List Bytes) :
    integerSequenceDer (fields.map stripLeadingZeros) = integerSequenceDer fields := by
  simp [integerSequenceDer, List.flatMap, Function.comp_def]

section Rsa

variable {K : Type} {P : Platform K} {w : World}

variable {key : ItemType → Bytes → K}

theorem rsaNew_public (hP : P.Reliable) {algorithm : Algorithm} {format : BlobFormat}
    (hder : KeepsDer P key algorithm format) (e n : Bytes) (w : World) :
    ∃ k w', rsaNew e n none P w = .ok ((0, some k), w') ∧
      k.val = key .publicKey (integerSequenceDer [n, e]) ∧ w'.ledger = k.id ::ₘ w.ledger :=
  newFromBinaryTemplate_keepsDer hP hder (show KeyClass.publicKey.itemType = some .publicKey from rfl)
    (pkcs1RsaPublicKeyLayout_encode _) w

theorem rsaNew_private (hP : P.Reliable) {algorithm : Algorithm} {format : BlobFormat}
    (hder : KeepsDer P key algorithm format) (e n : Bytes) (priv : RsaPrivateData) (w : World) :
    ∃ k w', rsaNew e n (some priv) P w = .ok ((0, some k), w') ∧
      k.val = key .privateKey (integerSequenceDer [[rsaVersionTwoPrime], n, e, priv.d, priv.p,
        priv.q, priv.e1, priv.e2, priv.coeff]) ∧ w'.ledger = k.id ::ₘ w.ledger :=
  newFromBinaryTemplate_keepsDer hP hder (show KeyClass.privateKey.itemType = some .privateKey from rfl)
    (pkcs1RsaPrivateKeyLayout_encode _) w

-- The request _libssh2_rsa_new hands SecItemImport: the PKCS#1 DER of the private key when the
-- private components are given, of the public key otherwise.
def rsaNewRequest (e n : Bytes) : Option RsaPrivateData → ImportRequest
  | some priv => ⟨integerSequenceDer [[rsaVersionTwoPrime], n, e, priv.d, priv.p, priv.q, priv.e1,
      priv.e2, priv.coeff], none, .privateKey, none⟩
  | none => ⟨integerSequenceDer [n, e], none, .publicKey, none⟩

-- Whatever the importer answers but an empty array, _libssh2_rsa_new returns the answer's key
-- and ends holding exactly that key beyond what it held.
theorem rsaNew_outcome (hP : P.Reliable) (e n : Bytes) (priv : Option RsaPrivateData)
    (hne : P.itemImport (rsaNewRequest e n priv) ≠ .ok []) :
    ∃ id w', rsaNew e n priv P w = .ok (importOutcome (P.itemImport (rsaNewRequest e n priv)) id, w') ∧
      w'.ledger = held (importOutcome (P.itemImport (rsaNewRequest e n priv)) id).2 + w.ledger := by
  cases priv with
  | some priv =>
    exact newFromBinaryTemplate_of_encode hP
      (show KeyClass.privateKey.itemType = some .privateKey from rfl)
      (pkcs1RsaPrivateKeyLayout_encode
        ⟨[rsaVersionTwoPrime], n, e, priv.d, priv.p, priv.q, priv.e1, priv.e2, priv.coeff⟩) hne
  | none =>
    exact newFromBinaryTemplate_of_encode hP
      (show KeyClass.publicKey.itemType = some .publicKey from rfl)
      (pkcs1RsaPublicKeyLayout_encode ⟨n, e⟩) hne

theorem rsaNew_outcome_one_key :
    (answeringPlatform [] (.ok [.secKey ()])).Reliable ∧
      (answeringPlatform [] (.ok [.secKey ()])).itemImport (rsaNewRequest [3] [0xC5] none) ≠ .ok [] ∧
      ∃ id w', rsaNew [3] [0xC5] none (answeringPlatform [] (.ok [.secKey ()])) World.initial =
          .ok ((0, some ⟨id, ()⟩), w') ∧ w'.ledger = {id} :=
  ⟨fun _ => rfl, by simp [answeringPlatform], by
    simpa [answeringPlatform, importOutcome, World.initial] using
      rsaNew_outcome (P := answeringPlatform [] (.ok [.secKey ()])) (w := World.initial)
        (fun _ => rfl) [3] [0xC5] none (by simp [answeringPlatform])⟩

-- On any platform, failing calls included, _libssh2_rsa_new returns 1 with nothing held, or the
-- importer's answer holding only the returned key.
theorem rsaNew_ledger (e n : Bytes) (priv : Option RsaPrivateData)
    (hne : P.itemImport (rsaNewRequest e n priv) ≠ .ok []) :
    ∃ res w', rsaNew e n priv P w = .ok (res, w') ∧
      (res = (1, none) ∨ ∃ id, res = importOutcome (P.itemImport (rsaNewRequest e n priv)) id) ∧
      w'.ledger = held res.2 + w.ledger := by
  cases priv with
  | some priv =>
    exact newFromBinaryTemplate_ledger (show KeyClass.privateKey.itemType = some .privateKey from rfl)
      (pkcs1RsaPrivateKeyLayout_encode
        ⟨[rsaVersionTwoPrime], n, e, priv.d, priv.p, priv.q, priv.e1, priv.e2, priv.coeff⟩) hne
  | none =>
    exact newFromBinaryTemplate_ledger (show KeyClass.publicKey.itemType = some .publicKey from rfl)
      (pkcs1RsaPublicKeyLayout_encode ⟨n, e⟩) hne

-- A platform whose second fallible call fails: the encoder's.
def encoderFailingPlatform : Platform Unit :=
  { answeringPlatform [] (.ok [.secKey ()]) with fails := fun n => n = 1 }

theorem rsaNew_ledger_encoderFailing :
    encoderFailingPlatform.itemImport (rsaNewRequest [3] [0xC5] none) ≠ .ok [] ∧
      ∃ res w', rsaNew [3] [0xC5] none encoderFailingPlatform World.initial = .ok (res, w') ∧
        (res = (1, none) ∨
          ∃ id, res = importOutcome (encoderFailingPlatform.itemImport (rsaNewRequest [3] [0xC5] none)) id) ∧
        w'.ledger = held res.2 + World.initial.ledger :=
  ⟨by simp [encoderFailingPlatform, answeringPlatform],
    rsaNew_ledger [3] [0xC5] none (by simp [encoderFailingPlatform, answeringPlatform])⟩

-- convert_rsa_private_key makes the public key of the record's modulus and exponent, whatever
-- leading zeros the decoder took off them.
theorem convertRsaPrivateKey_of_der (hP : P.Reliable) {algorithm : Algorithm} {format : BlobFormat}
    (hder : KeepsDer P key algorithm format) (k : Pkcs1RsaPrivateKey)
    (hsize : ∀ f ∈ k.integers, f.length < 2 ^ 64) (w : World) :
    ∃ pub w', convertRsaPrivateKey ⟨⟨.raw, .pkcs1, .rsa, .privateKey⟩, integerSequenceDer k.integers⟩
        P w = .ok (some pub, w') ∧
      pub.val = key .publicKey (integerSequenceDer [k.modulus, k.publicExponent]) ∧
      w'.ledger = pub.id ::ₘ w.ledger := by
  refine convertPrivateKey_of_decode hP ⟨⟨.raw, .pkcs1, .rsa, .privateKey⟩, integerSequenceDer k.integers⟩
    rfl rfl rfl (pkcs1RsaPrivateKeyLayout_decode k hsize) ?_ w
  intro w
  obtain ⟨pub, w', hrun, hval, hledger⟩ :=
    rsaNew_public hP hder (stripLeadingZeros k.publicExponent) (stripLeadingZeros k.modulus) w
  refine ⟨pub, w', hrun, ?_, hledger⟩
  rw [hval, ← integerSequenceDer_stripLeadingZeros [k.modulus, k.publicExponent]]
  rfl

-- The public key derived from a private key made by _libssh2_rsa_new is the key
-- _libssh2_rsa_new makes from the same modulus and exponent, and deriving again returns it.
theorem convertRsaPrivateKeyToPublicKey_rsaNew (hP : P.Reliable) (hder : KeepsDer P key .rsa .pkcs1)
    (e n : Bytes) (priv : RsaPrivateData)
    (hsize : ∀ f ∈ [e, n, priv.d, priv.p, priv.q, priv.e1, priv.e2, priv.coeff], f.length < 2 ^ 64) :
    ∃ privateKey w₁, rsaNew e n (some priv) P w = .ok ((0, some privateKey), w₁) ∧
      ∃ publicKey w₂, convertRsaPrivateKeyToPublicKey privateKey P w₁ = .ok (some publicKey, w₂) ∧
        publicKey.val = key .publicKey (integerSequenceDer [n, e]) ∧
        (∀ w₃, ∃ created w₄, rsaNew e n none P w₃ = .ok ((0, some created), w₄) ∧
          created.val = publicKey.val) ∧
        ∃ w₃, convertRsaPrivateKeyToPublicKey publicKey P w₂ = .ok (some publicKey, w₃) := by
  obtain ⟨privateKey, w₁, hnew, hval, -⟩ := rsaNew_private hP hder e n priv w
  let k : Pkcs1RsaPrivateKey :=
    ⟨[rsaVersionTwoPrime], n, e, priv.d, priv.p, priv.q, priv.e1, priv.e2, priv.coeff⟩
  have hu : UnwrapsTo P privateKey.val .pkcs1
      ⟨⟨.raw, .pkcs1, .rsa, .privateKey⟩, integerSequenceDer k.integers⟩ := by
    rw [hval]
    exact hder.unwraps_private _
  have hk : ∀ f ∈ k.integers, f.length < 2 ^ 64 := by
    simp only [k, Pkcs1RsaPrivateKey.integers, List.forall_mem_cons, List.forall_mem_nil,
      and_true] at hsize ⊢
    exact ⟨by simp, hsize.2.1, hsize.1, hsize.2.2⟩
  obtain ⟨publicKey, w₂, hconv, hpub⟩ :=
    convertToPublicKey_of_private (w := w₁) hP hu rfl (convertRsaPrivateKey_of_der hP hder k hk)
  refine ⟨privateKey, w₁, hnew, publicKey, w₂, hconv, hpub, fun w₃ => ?_, ?_⟩
  · obtain ⟨created, w₄, hcreated, hcval, -⟩ := rsaNew_public hP hder e n w₃
    exact ⟨created, w₄, hcreated, hcval.trans hpub.symm⟩
  · have hu : UnwrapsTo P publicKey.val .pkcs1
        ⟨⟨.raw, .pkcs1, .rsa, .publicKey⟩, integerSequenceDer [n, e]⟩ := by
      rw [hpub]
      exact hder.unwraps_public _
    exact convertToPublicKey_of_public hP hu rfl rfl w₂

theorem convertRsaPrivateKeyToPublicKey_rsaNew_derPlatform :
    (derPlatform .rsa .pkcs1).Reliable ∧ KeepsDer (derPlatform .rsa .pkcs1) Prod.mk .rsa .pkcs1 ∧
      (∀ f ∈ [[3], [0xC5], [0x29], [11], [19], [9], [11], [10]], f.length < 2 ^ 64) ∧
      ∃ privateKey w₁, rsaNew [3] [0xC5] (some ⟨[0x29], [11], [19], [9], [11], [10]⟩)
          (derPlatform .rsa .pkcs1) World.initial = .ok ((0, some privateKey), w₁) ∧
        ∃ publicKey w₂, convertRsaPrivateKeyToPublicKey privateKey (derPlatform .rsa .pkcs1) w₁ =
            .ok (some publicKey, w₂) ∧
          publicKey.val = (.publicKey, integerSequenceDer [[0xC5], [3]]) ∧
          (∀ w₃, ∃ created w₄, rsaNew [3] [0xC5] none (derPlatform .rsa .pkcs1) w₃ =
              .ok ((0, some created), w₄) ∧ created.val = publicKey.val) ∧
          ∃ w₃, convertRsaPrivateKeyToPublicKey publicKey (derPlatform .rsa .pkcs1) w₂ =
            .ok (some publicKey, w₃) :=
  ⟨fun _ => rfl, derPlatform_keepsDer .rsa .pkcs1, by decide,
    convertRsaPrivateKeyToPublicKey_rsaNew (fun _ => rfl) (derPlatform_keepsDer .rsa .pkcs1) [3]
      [0xC5] ⟨[0x29], [11], [19], [9], [11], [10]⟩ (by decide)⟩

end Rsa

section Dsa

variable {K : Type} {P : Platform K} {w : World}

variable {key : ItemType → Bytes → K}

-- The SubjectPublicKeyInfo of a DSA public key: the id-dsa algorithm with its parameters, and a
-- BIT STRING whose bits are exactly the DER INTEGER y.
def dsaPublicKeyDer (p q g y : Bytes) : Bytes :=
  encodeTlv sequenceTag
    (encodeTlv sequenceTag (encodeTlv objectIdTag cssmoidDsaCms ++ integerSequenceDer [p, q, g]) ++
      encodeTlv bitStringTag (0 :: encodeTlv integerTag (integerContents y)))

-- A bit length of eight times the byte count leaves no unused bits.
theorem bitStringContents_whole (data : Bytes) :
    bitStringContents data (data.length * 8) = 0 :: data := by
  simp [bitStringContents, Nat.mul_mod_left, show (data.length * 8 + 7) / 8 = data.length by omega]

-- The record _libssh2_dsa_new encodes for a public key: the BIT STRING holds the encoded y, with
-- eight bits to each of its bytes.
def dsaPublicKeyRecord (p q g y : Bytes) : OpensslDsaPublicKey :=
  let pub := encodeTlv integerTag (integerContents y)
  ⟨⟨cssmoidDsaCms, ⟨p, q, g⟩⟩, ⟨pub, pub.length * 8⟩⟩

theorem opensslDsaPublicKeyLayout_encode_record (p q g y : Bytes) :
    opensslDsaPublicKeyLayout.encode (dsaPublicKeyRecord p q g y) = some (dsaPublicKeyDer p q g y) := by
  rw [dsaPublicKeyRecord, opensslDsaPublicKeyLayout_encode, bitStringContents_whole]
  rfl

-- Without x, _libssh2_dsa_new encodes y with a coder of its own, which it releases after the
-- binary template import.
theorem dsaNew_none_eq (hcoder : P.fails w.calls = false) (hencode : P.fails (w.calls + 1) = false)
    (p q g y : Bytes) {res : Int × Option (Ref K)} {w₁ : World}
    (hrun : newFromBinaryTemplate .publicKey opensslDsaPublicKeyLayout (dsaPublicKeyRecord p q g y) P
      { w with ledger := w.fresh ::ₘ w.ledger, fresh := w.fresh + 1, calls := w.calls + 1 + 1 } =
        .ok (res, w₁))
    (hmem : w.fresh ∈ w₁.ledger) :
    dsaNew p q g y none P w = .ok (res, { w₁ with ledger := w₁.ledger.erase w.fresh }) := by
  simp only [dsaPublicKeyRecord] at hrun
  simp [dsaNew, secAsn1CoderCreate, hcoder, secAsn1EncodeItem, hencode, Layout.encode,
    unsignedIntegerLayout, encodeItem, hrun, secAsn1CoderRelease, hmem]

theorem dsaNew_public (hP : P.Reliable) {algorithm : Algorithm} {format : BlobFormat}
    (hder : KeepsDer P key algorithm format) (p q g y : Bytes) (w : World) :
    ∃ k w', dsaNew p q g y none P w = .ok ((0, some k), w') ∧
      k.val = key .publicKey (dsaPublicKeyDer p q g y) ∧ w'.ledger = k.id ::ₘ w.ledger := by
  obtain ⟨k, w', hrun, hval, hledger⟩ := newFromBinaryTemplate_keepsDer hP hder
    (show KeyClass.publicKey.itemType = some .publicKey from rfl)
    (opensslDsaPublicKeyLayout_encode_record p q g y)
    { w with ledger := w.fresh ::ₘ w.ledger, fresh := w.fresh + 1, calls := w.calls + 1 + 1 }
  exact ⟨k, _, dsaNew_none_eq (hP.fails_false _) (hP.fails_false _) p q g y hrun (by simp [hledger]),
    hval, by simp [hledger]⟩

theorem dsaNew_private (hP : P.Reliable) {algorithm : Algorithm} {format : BlobFormat}
    (hder : KeepsDer P key algorithm format) (p q g y x : Bytes) (w : World) :
    ∃ k w', dsaNew p q g y (some x) P w = .ok ((0, some k), w') ∧
      k.val = key .privateKey (integerSequenceDer [[1], p, q, g, y, x]) ∧
      w'.ledger = k.id ::ₘ w.ledger :=
  newFromBinaryTemplate_keepsDer hP hder (show KeyClass.privateKey.itemType = some .privateKey from rfl)
    (opensslDsaPrivateKeyLayout_encode _) w

-- The request _libssh2_dsa_new hands SecItemImport.
def dsaNewRequest (p q g y : Bytes) : Option Bytes → ImportRequest
  | some x => ⟨integerSequenceDer [[1], p, q, g, y, x], none, .privateKey, none⟩
  | none => ⟨dsaPublicKeyDer p q g y, none, .publicKey, none⟩

-- Whatever the importer answers but an empty array, _libssh2_dsa_new returns the answer's key
-- and ends holding exactly that key beyond what it held: the coder it uses for y is released.
theorem dsaNew_outcome (hP : P.Reliable) (p q g y : Bytes) (x : Option Bytes)
    (hne : P.itemImport (dsaNewRequest p q g y x) ≠ .ok []) :
    ∃ id w', dsaNew p q g y x P w =
        .ok (importOutcome (P.itemImport (dsaNewRequest p q g y x)) id, w') ∧
      w'.ledger = held (importOutcome (P.itemImport (dsaNewRequest p q g y x)) id).2 + w.ledger := by
  cases x with
  | some x =>
    exact newFromBinaryTemplate_of_encode hP
      (show KeyClass.privateKey.itemType = some .privateKey from rfl)
      (opensslDsaPrivateKeyLayout_encode ⟨[1], ⟨p, q, g⟩, y, x⟩) hne
  | none =>
    obtain ⟨id, w', hrun, hledger⟩ := newFromBinaryTemplate_of_encode
      (w := { w with ledger := w.fresh ::ₘ w.ledger, fresh := w.fresh + 1, calls := w.calls + 1 + 1 })
      hP (show KeyClass.publicKey.itemType = some .publicKey from rfl)
      (opensslDsaPublicKeyLayout_encode_record p q g y) hne
    exact ⟨id, _, dsaNew_none_eq (hP.fails_false _) (hP.fails_false _) p q g y hrun
      (by simp [hledger]), by simp [hledger, dsaNewRequest]⟩

theorem dsaNew_outcome_one_key :
    (answeringPlatform [] (.ok [.secKey ()])).Reliable ∧
      (answeringPlatform [] (.ok [.secKey ()])).itemImport (dsaNewRequest [23] [11] [4] [0x8D] none) ≠
        .ok [] ∧
      ∃ id w', dsaNew [23] [11] [4] [0x8D] none (answeringPlatform [] (.ok [.secKey ()]))
          World.initial = .ok ((0, some ⟨id, ()⟩), w') ∧ w'.ledger = {id} :=
  ⟨fun _ => rfl, by simp [answeringPlatform], by
    simpa [answeringPlatform, importOutcome, World.initial] using
      dsaNew_outcome (P := answeringPlatform [] (.ok [.secKey ()])) (w := World.initial)
        (fun _ => rfl) [23] [11] [4] [0x8D] none (by simp [answeringPlatform])⟩

-- On any platform, failing calls included, _libssh2_dsa_new returns 1 with nothing held, or the
-- importer's answer holding only the returned key: the coder it makes for y is released on every
-- path.
theorem dsaNew_ledger (p q g y : Bytes) (x : Option Bytes)
    (hne : P.itemImport (dsaNewRequest p q g y x) ≠ .ok []) :
    ∃ res w', dsaNew p q g y x P w = .ok (res, w') ∧
      (res = (1, none) ∨ ∃ id, res = importOutcome (P.itemImport (dsaNewRequest p q g y x)) id) ∧
      w'.ledger = held res.2 + w.ledger := by
  cases x with
  | some x =>
    exact newFromBinaryTemplate_ledger (show KeyClass.privateKey.itemType = some .privateKey from rfl)
      (opensslDsaPrivateKeyLayout_encode ⟨[1], ⟨p, q, g⟩, y, x⟩) hne
  | none =>
    cases hcoder : P.fails w.calls
    case true =>
      exact ⟨_, { w with calls := w.calls + 1 }, by simp [dsaNew, secAsn1CoderCreate, hcoder],
        .inl rfl, by simp⟩
    cases hencode : P.fails (w.calls + 1)
    case true =>
      exact ⟨_, { w with fresh := w.fresh + 1, calls := w.calls + 2 }, by
        simp [dsaNew, secAsn1CoderCreate, hcoder, secAsn1EncodeItem, hencode, secAsn1CoderRelease],
        .inl rfl, by simp⟩
    obtain ⟨res, w₁, hrun, hres, hledger⟩ := newFromBinaryTemplate_ledger
      (w := { w with ledger := w.fresh ::ₘ w.ledger, fresh := w.fresh + 1, calls := w.calls + 1 + 1 })
      (show KeyClass.publicKey.itemType = some .publicKey from rfl)
      (opensslDsaPublicKeyLayout_encode_record p q g y) hne
    exact ⟨res, _, dsaNew_none_eq hcoder hencode p q g y hrun (by simp [hledger]), hres,
      by simp [hledger]⟩

theorem dsaNew_ledger_encoderFailing :
    encoderFailingPlatform.itemImport (dsaNewRequest [23] [11] [4] [0x8D] none) ≠ .ok [] ∧
      ∃ res w', dsaNew [23] [11] [4] [0x8D] none encoderFailingPlatform World.initial = .ok (res, w') ∧
        (res = (1, none) ∨ ∃ id, res =
          importOutcome (encoderFailingPlatform.itemImport (dsaNewRequest [23] [11] [4] [0x8D] none)) id) ∧
        w'.ledger = held res.2 + World.initial.ledger :=
  ⟨by simp [encoderFailingPlatform, answeringPlatform],
    dsaNew_ledger [23] [11] [4] [0x8D] none (by simp [encoderFailingPlatform, answeringPlatform])⟩

theorem dsaPublicKeyDer_stripLeadingZeros (p q g y : Bytes) :
    dsaPublicKeyDer (stripLeadingZeros p) (stripLeadingZeros q) (stripLeadingZeros g)
      (stripLeadingZeros y) = dsaPublicKeyDer p q g y := by
  simp [dsaPublicKeyDer, integerSequenceDer]

theorem convertDsaPrivateKey_of_der (hP : P.Reliable) {algorithm : Algorithm} {format : BlobFormat}
    (hder : KeepsDer P key algorithm format) (k : OpensslDsaPrivateKey)
    (hsize : ∀ f ∈ k.integers, f.length < 2 ^ 64) (w : World) :
    ∃ pub w', convertDsaPrivateKey ⟨⟨.raw, .openssl, .dsa, .privateKey⟩, integerSequenceDer k.integers⟩
        P w = .ok (some pub, w') ∧
      pub.val = key .publicKey (dsaPublicKeyDer k.params.p k.params.q k.params.g k.pub) ∧
      w'.ledger = pub.id ::ₘ w.ledger := by
  refine convertPrivateKey_of_decode hP
    ⟨⟨.raw, .openssl, .dsa, .privateKey⟩, integerSequenceDer k.integers⟩
    rfl rfl rfl (opensslDsaPrivateKeyLayout_decode k hsize) ?_ w
  intro w
  obtain ⟨pub, w', hrun, hval, hledger⟩ := dsaNew_public hP hder (stripLeadingZeros k.params.p)
    (stripLeadingZeros k.params.q) (stripLeadingZeros k.params.g) (stripLeadingZeros k.pub) w
  exact ⟨pub, w', hrun, by rw [hval, dsaPublicKeyDer_stripLeadingZeros], hledger⟩

-- The public key derived from a private key made by _libssh2_dsa_new is the key
-- _libssh2_dsa_new makes from the same p, q, g and y, and deriving again returns it.
theorem convertDsaPrivateKeyToPublicKey_dsaNew (hP : P.Reliable) (hder : KeepsDer P key .dsa .openssl)
    (p q g y x : Bytes) (hsize : ∀ f ∈ [p, q, g, y, x], f.length < 2 ^ 64) :
    ∃ privateKey w₁, dsaNew p q g y (some x) P w = .ok ((0, some privateKey), w₁) ∧
      ∃ publicKey w₂, convertDsaPrivateKeyToPublicKey privateKey P w₁ = .ok (some publicKey, w₂) ∧
        publicKey.val = key .publicKey (dsaPublicKeyDer p q g y) ∧
        (∀ w₃, ∃ created w₄, dsaNew p q g y none P w₃ = .ok ((0, some created), w₄) ∧
          created.val = publicKey.val) ∧
        ∃ w₃, convertDsaPrivateKeyToPublicKey publicKey P w₂ = .ok (some publicKey, w₃) := by
  obtain ⟨privateKey, w₁, hnew, hval, -⟩ := dsaNew_private hP hder p q g y x w
  let k : OpensslDsaPrivateKey := ⟨[1], ⟨p, q, g⟩, y, x⟩
  have hu : UnwrapsTo P privateKey.val .openssl
      ⟨⟨.raw, .openssl, .dsa, .privateKey⟩, integerSequenceDer k.integers⟩ := by
    rw [hval]
    exact hder.unwraps_private _
  have hk : ∀ f ∈ k.integers, f.length < 2 ^ 64 := by
    simp only [k, OpensslDsaPrivateKey.integers, List.forall_mem_cons, List.forall_mem_nil,
      and_true] at hsize ⊢
    exact ⟨by simp, hsize⟩
  obtain ⟨publicKey, w₂, hconv, hpub⟩ :=
    convertToPublicKey_of_private (w := w₁) hP hu rfl (convertDsaPrivateKey_of_der hP hder k hk)
  refine ⟨privateKey, w₁, hnew, publicKey, w₂, hconv, hpub, fun w₃ => ?_, ?_⟩
  · obtain ⟨created, w₄, hcreated, hcval, -⟩ := dsaNew_public hP hder p q g y w₃
    exact ⟨created, w₄, hcreated, hcval.trans hpub.symm⟩
  · have hu : UnwrapsTo P publicKey.val .openssl
        ⟨⟨.raw, .openssl, .dsa, .publicKey⟩, dsaPublicKeyDer p q g y⟩ := by
      rw [hpub]
      exact hder.unwraps_public _
    exact convertToPublicKey_of_public hP hu rfl rfl w₂

theorem convertDsaPrivateKeyToPublicKey_dsaNew_derPlatform :
    (derPlatform .dsa .openssl).Reliable ∧
      KeepsDer (derPlatform .dsa .openssl) Prod.mk .dsa .openssl ∧
      (∀ f ∈ [[23], [11], [4], [0x8D], [7]], f.length < 2 ^ 64) ∧
      ∃ privateKey w₁, dsaNew [23] [11] [4] [0x8D] (some [7]) (derPlatform .dsa .openssl)
          World.initial = .ok ((0, some privateKey), w₁) ∧
        ∃ publicKey w₂, convertDsaPrivateKeyToPublicKey privateKey (derPlatform .dsa .openssl) w₁ =
            .ok (some publicKey, w₂) ∧
          publicKey.val = (.publicKey, dsaPublicKeyDer [23] [11] [4] [0x8D]) ∧
          (∀ w₃, ∃ created w₄, dsaNew [23] [11] [4] [0x8D] none (derPlatform .dsa .openssl) w₃ =
              .ok ((0, some created), w₄) ∧ created.val = publicKey.val) ∧
          ∃ w₃, convertDsaPrivateKeyToPublicKey publicKey (derPlatform .dsa .openssl) w₂ =
            .ok (some publicKey, w₃) :=
  ⟨fun _ => rfl, derPlatform_keepsDer .dsa .openssl, by decide,
    convertDsaPrivateKeyToPublicKey_dsaNew (fun _ => rfl) (derPlatform_keepsDer .dsa .openssl) [23]
      [11] [4] [0x8D] [7] (by decide)⟩

end Dsa

end Libssh2
