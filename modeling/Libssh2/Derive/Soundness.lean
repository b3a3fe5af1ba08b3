import Libssh2.Import.Paths
import Libssh2.Derive.Conversion

namespace Libssh2

open Asn1

section Unwrap

variable {K β : Type} {P : Platform K} {w : World}

-- The raw key convert_private_key_to_raw_key has CSSM_WrapKey make, run from `w`: only for a key the
-- CSP holds by reference, once SecKeyGetCSPHandle, CSSM_CSP_CreateSymmetricContext and
-- CSSM_UpdateContextAttributes, the run's three fallible calls, have succeeded. It is the second
-- object the run makes, after the context.
def wrappedRawKey (P : Platform K) (key : K) (format : BlobFormat) (w : World) : Option (Ref CssmKey) :=
  match P.cssmKey key with
  | some k =>
    if k.keyHeader.blobType = .reference ∧ P.fails w.calls = false ∧ P.fails (w.calls + 1) = false ∧
        P.fails (w.calls + 2) = false then
      (P.wrapKey k format).map (⟨w.fresh + 1, ·⟩)
    else none
  | none => none

-- It reads only the identities and the calls, not what is held.
@[simp] theorem wrappedRawKey_ledger (key : K) (format : BlobFormat) (L : Multiset Nat) :
    wrappedRawKey P key format { w with ledger := L } = wrappedRawKey P key format w := rfl

-- convert_private_key_to_raw_key on any platform: the captured values come back untouched, with
-- nothing more held and no raw key made, or the block ran on the raw key the CSP unwrapped the key
-- to, and what it made stays held beside the wrapped raw key, which is never freed. The context is
-- deleted on every path after it is made.
theorem convertPrivateKeyToRawKey_cases {key : Ref K} {format : BlobFormat}
    {convert : CssmKey → β → SecM K β} {captured c : β} {w' : World}
    (h : convertPrivateKeyToRawKey key format convert captured P w = .ok (c, w')) :
    c = captured ∧ w'.ledger = w.ledger ∧ wrappedRawKey P key.val format w = none ∨
      ∃ raw w₁ w₂, UnwrapsTo P key.val format raw ∧ convert raw captured P w₁ = .ok (c, w₂) ∧
        ∀ N, w₂.ledger = N + w₁.ledger →
          w'.ledger = N + held (wrappedRawKey P key.val format w) + w.ledger := by
  obtain ⟨k, w₁, hk, h⟩ := SecM.bind_eq_ok.mp h
  simp only [secKeyGetCSSMKey, SecM.bind_apply, platform_apply, SecM.pure_apply, Except.ok.injEq,
    Prod.mk.injEq] at hk
  obtain ⟨hk, rfl⟩ := hk
  rcases k with _ | k
  · simp only [SecM.pure_apply, Except.ok.injEq, Prod.mk.injEq] at h
    obtain ⟨rfl, rfl⟩ := h
    exact .inl ⟨rfl, rfl, by simp [wrappedRawKey, hk]⟩
  by_cases hraw : k.keyHeader.blobType = .raw
  · simp only [hraw, if_true] at h
    obtain ⟨c', w₂, hc, h⟩ := SecM.bind_eq_ok.mp h
    simp only [SecM.pure_apply, Except.ok.injEq, Prod.mk.injEq] at h
    obtain ⟨rfl, rfl⟩ := h
    exact .inr ⟨k, _, _, ⟨k, hk, .inl ⟨hraw, rfl⟩⟩, hc, fun N hN => by
      simp [hN, wrappedRawKey, hk, hraw]⟩
  simp only [hraw, if_false, pure_bind] at h
  by_cases href : k.keyHeader.blobType = .reference
  swap
  · simp only [href, ne_eq, not_false_eq_true, if_true, SecM.pure_apply, Except.ok.injEq,
      Prod.mk.injEq] at h
    obtain ⟨rfl, rfl⟩ := h
    exact .inl ⟨rfl, rfl, by simp [wrappedRawKey, hk, href]⟩
  simp only [href, ne_eq, not_true_eq_false, if_false, pure_bind] at h
  -- the reference path makes the context, object w.fresh, then the raw key, object w.fresh + 1
  have hwrapped : wrappedRawKey P key.val format w =
      if P.fails w.calls = false ∧ P.fails (w.calls + 1) = false ∧ P.fails (w.calls + 2) = false then
        (P.wrapKey k format).map (⟨w.fresh + 1, ·⟩)
      else none := by
    simp [wrappedRawKey, hk, href]
  rw [hwrapped]
  obtain ⟨csp, w₂, hcsp, h⟩ := SecM.bind_eq_ok.mp h
  simp only [secKeyGetCSPHandle, succeeds_apply, Except.ok.injEq, Prod.mk.injEq] at hcsp
  obtain ⟨rfl, rfl⟩ := hcsp
  cases hf0 : P.fails w.calls
  swap
  · simp only [hf0, Bool.not_true, Bool.not_false, if_true, SecM.pure_apply, Except.ok.injEq,
      Prod.mk.injEq] at h
    obtain ⟨rfl, rfl⟩ := h
    exact .inl ⟨rfl, rfl, by simp⟩
  simp only [hf0, Bool.not_false, Bool.not_true, Bool.false_eq_true, if_false, pure_bind] at h
  obtain ⟨context, w₃, hctx, h⟩ := SecM.bind_eq_ok.mp h
  rw [cssmCspCreateSymmetricContext_eq] at hctx
  split_ifs at hctx with hf1 <;> cases hctx
  · simp only [SecM.pure_apply, Except.ok.injEq, Prod.mk.injEq] at h
    obtain ⟨rfl, rfl⟩ := h
    simp only at hf1
    exact .inl ⟨rfl, rfl, by simp [hf1]⟩
  obtain ⟨⟨updated, context'⟩, w₄, hupd, h⟩ := SecM.bind_eq_ok.mp h
  obtain ⟨rfl, hid, hformat, rfl⟩ := cssmUpdateContextAttributes_ok hupd
  cases hf2 : P.fails (w.calls + 2)
  swap
  · simp only [hf2, Bool.not_true, Bool.not_false, if_true] at h
    obtain ⟨_, w₅, hdel, h⟩ := SecM.bind_eq_ok.mp h
    obtain rfl := release_world hdel
    simp only [SecM.pure_apply, Except.ok.injEq, Prod.mk.injEq] at h
    obtain ⟨rfl, rfl⟩ := h
    exact .inl ⟨rfl, by simp [hid], by simp [hf2]⟩
  simp only [hf2, Bool.not_false, Bool.not_true, Bool.false_eq_true, if_false] at h
  replace hformat := hformat (by simp [hf2])
  obtain ⟨rawKey, w₅, hwrap, h⟩ := SecM.bind_eq_ok.mp h
  rcases cssmWrapKey_ok hwrap with ⟨hnone, rfl, rfl⟩ | ⟨raw, hraw', rfl, rfl⟩
  · obtain ⟨_, w₆, hdel, h⟩ := SecM.bind_eq_ok.mp h
    obtain rfl := release_world hdel
    simp only [SecM.pure_apply, Except.ok.injEq, Prod.mk.injEq] at h
    obtain ⟨rfl, rfl⟩ := h
    rw [hformat] at hnone
    exact .inl ⟨rfl, by simp [hid], by simp [hf1, hf2, hnone]⟩
  obtain ⟨c', w₆, hc, h⟩ := SecM.bind_eq_ok.mp h
  obtain ⟨_, w₇, hdel, h⟩ := SecM.bind_eq_ok.mp h
  obtain rfl := release_world hdel
  simp only [SecM.pure_apply, Except.ok.injEq, Prod.mk.injEq] at h
  obtain ⟨rfl, rfl⟩ := h
  rw [hformat] at hraw'
  refine .inr ⟨raw, _, _, ⟨k, hk, .inr ⟨href, hraw'⟩⟩, hc, fun N hN => ?_⟩
  rw [if_pos ⟨rfl, by simpa using hf1, rfl⟩, hraw']
  simp [hN, hid, Multiset.erase_add_right_pos, Multiset.add_cons, add_assoc, Multiset.singleton_add]

end Unwrap

section NewKey

variable {K R : Type} {P : Platform K} {w : World}

-- _libssh2_new_from_binary_template on any platform: a key comes back only with error 0, as the
-- importer's answer to the record's DER under the class's type, and it is all the run leaves held:
-- the coder and the DER's CFData are released on every path.
theorem newFromBinaryTemplate_cases {keyClass : KeyClass} {type : ItemType} {l : Layout R} {r : R}
    {der : Bytes} (htype : keyClass.itemType = some type) (henc : l.encode r = some der) {e : Int}
    {key : Option (Ref K)} {w' : World}
    (h : newFromBinaryTemplate keyClass l r P w = .ok ((e, key), w')) :
    w'.ledger = held key + w.ledger ∧ (e ≠ 0 → key = none) ∧
      ∀ k ∈ key, P.itemImport ⟨der, none, type, none⟩ = .ok [.secKey k.val] := by
  unfold newFromBinaryTemplate at h
  simp only [htype] at h
  obtain ⟨coder, w₁, hcoder, h⟩ := SecM.bind_eq_ok.mp h
  have hl1 := secAsn1CoderCreate_ledger hcoder
  rcases coder with _ | coder
  · simp only [SecM.pure_apply, Except.ok.injEq, Prod.mk.injEq] at h
    obtain ⟨⟨rfl, rfl⟩, rfl⟩ := h
    simp [hl1]
  obtain ⟨encoded, w₂, hder, h⟩ := SecM.bind_eq_ok.mp h
  obtain ⟨hder, hl2⟩ := secAsn1EncodeItem_ok hder
  rcases encoded with _ | encoded
  · obtain ⟨_, w₃, hrel, h⟩ := SecM.bind_eq_ok.mp h
    simp only [SecM.pure_apply, Except.ok.injEq, Prod.mk.injEq] at h
    obtain ⟨⟨rfl, rfl⟩, rfl⟩ := h
    simp [(release_eq_ok hrel).2, hl2, hl1]
  obtain rfl : encoded = der := Option.some.inj ((hder encoded rfl).symm.trans henc)
  obtain ⟨data, w₃, hdata, h⟩ := SecM.bind_eq_ok.mp h
  simp only [cfDataCreate, acquire_apply, Except.ok.injEq, Prod.mk.injEq] at hdata
  obtain ⟨rfl, rfl⟩ := hdata
  obtain ⟨_, w₄, hrel, h⟩ := SecM.bind_eq_ok.mp h
  obtain ⟨res, w₅, hkey, h⟩ := SecM.bind_eq_ok.mp h
  obtain ⟨_, w₆, hrel', h⟩ := SecM.bind_eq_ok.mp h
  simp only [SecM.pure_apply, Except.ok.injEq, Prod.mk.injEq] at h
  obtain ⟨rfl, rfl⟩ := h
  obtain ⟨hl5, hkeys, herr⟩ := keyNewFromData_ok hkey
  refine ⟨?_, herr, fun k hk => ?_⟩
  · rw [(release_eq_ok hrel').2, hl5, (release_eq_ok hrel).2, hl2, hl1]
    simp [Multiset.erase_add_right_pos]
  · obtain ⟨request, hreq, himport⟩ := hkeys k hk
    rwa [importRequestOf_without_filename hreq] at himport

-- _libssh2_rsa_new on any platform: a key comes back only with error 0, as the importer's answer
-- to the PKCS#1 request of the components, and it is all the run leaves held.
theorem rsaNew_cases {e n : Bytes} {priv : Option RsaPrivateData} {err : Int} {key : Option (Ref K)}
    {w' : World} (h : rsaNew e n priv P w = .ok ((err, key), w')) :
    w'.ledger = held key + w.ledger ∧ (err ≠ 0 → key = none) ∧
      ∀ k ∈ key, P.itemImport (rsaNewRequest e n priv) = .ok [.secKey k.val] := by
  cases priv with
  | some priv =>
    exact newFromBinaryTemplate_cases (show KeyClass.privateKey.itemType = some .privateKey from rfl)
      (pkcs1RsaPrivateKeyLayout_encode
        ⟨[rsaVersionTwoPrime], n, e, priv.d, priv.p, priv.q, priv.e1, priv.e2, priv.coeff⟩) h
  | none =>
    exact newFromBinaryTemplate_cases (show KeyClass.publicKey.itemType = some .publicKey from rfl)
      (pkcs1RsaPublicKeyLayout_encode ⟨n, e⟩) h

-- _libssh2_dsa_new on any platform, likewise; without x, the coder it makes to encode y is released
-- on every path.
theorem dsaNew_cases {p q g y : Bytes} {x : Option Bytes} {err : Int} {key : Option (Ref K)}
    {w' : World} (h : dsaNew p q g y x P w = .ok ((err, key), w')) :
    w'.ledger = held key + w.ledger ∧ (err ≠ 0 → key = none) ∧
      ∀ k ∈ key, P.itemImport (dsaNewRequest p q g y x) = .ok [.secKey k.val] := by
  cases x with
  | some x =>
    exact newFromBinaryTemplate_cases (show KeyClass.privateKey.itemType = some .privateKey from rfl)
      (opensslDsaPrivateKeyLayout_encode ⟨[1], ⟨p, q, g⟩, y, x⟩) h
  | none =>
    unfold dsaNew at h
    obtain ⟨coder, w₁, hcoder, h⟩ := SecM.bind_eq_ok.mp h
    have hl1 := secAsn1CoderCreate_ledger hcoder
    rcases coder with _ | coder
    · simp only [SecM.pure_apply, Except.ok.injEq, Prod.mk.injEq] at h
      obtain ⟨⟨rfl, rfl⟩, rfl⟩ := h
      simp [hl1]
    obtain ⟨pub, w₂, hpub, h⟩ := SecM.bind_eq_ok.mp h
    obtain ⟨hpub, hl2⟩ := secAsn1EncodeItem_ok hpub
    rcases pub with _ | pub
    · obtain ⟨_, w₃, hrel, h⟩ := SecM.bind_eq_ok.mp h
      simp only [SecM.pure_apply, Except.ok.injEq, Prod.mk.injEq] at h
      obtain ⟨⟨rfl, rfl⟩, rfl⟩ := h
      simp [(release_eq_ok hrel).2, hl2, hl1]
    obtain rfl : pub = encodeTlv integerTag (integerContents y) := by
      simpa [Layout.encode, unsignedIntegerLayout, encodeItem] using (hpub pub rfl).symm
    obtain ⟨res, w₃, hkey, h⟩ := SecM.bind_eq_ok.mp h
    obtain ⟨_, w₄, hrel, h⟩ := SecM.bind_eq_ok.mp h
    simp only [SecM.pure_apply, Except.ok.injEq, Prod.mk.injEq] at h
    obtain ⟨rfl, rfl⟩ := h
    obtain ⟨hl3, herr, hkeys⟩ :=
      newFromBinaryTemplate_cases (show KeyClass.publicKey.itemType = some .publicKey from rfl)
        (opensslDsaPublicKeyLayout_encode_record p q g y) hkey
    refine ⟨?_, herr, hkeys⟩
    rw [(release_eq_ok hrel).2, hl3, hl2, hl1]
    simp [Multiset.erase_add_right_pos]

end NewKey

section Convert

variable {K R : Type} {P : Platform K} {w : World}

-- What convert_rsa_private_key and convert_dsa_private_key can make of a raw key: from a private
-- key of the algorithm and format whose data the layout decodes, the importer's answer to the
-- public key request of the decoded record.
def DerivedPublicKey (P : Platform K) (algorithm : Algorithm) (format : BlobFormat) (layout : Layout R)
    (request : R → ImportRequest) (raw : CssmKey) (key : Ref K) : Prop :=
  raw.keyHeader.algorithmId = algorithm ∧ raw.keyHeader.format = format ∧
    raw.keyHeader.keyClass = .privateKey ∧
    ∃ r, layout.decode raw.keyData = some r ∧ P.itemImport (request r) = .ok [.secKey key.val]

-- The private key conversion on any platform, given what its key maker can do: a key comes back
-- only as derived above, and it is all the run leaves held; the coder is released on every path,
-- and a key the maker returns with an error code cannot be there to leak.
theorem convertPrivateKey_cases {algorithm : Algorithm} {format : BlobFormat} {layout : Layout R}
    {newPublicKey : R → SecM K (Int × Option (Ref K))} {request : R → ImportRequest}
    (hnew : ∀ {r : R} {w w' : World} {e : Int} {key : Option (Ref K)},
      newPublicKey r P w = .ok ((e, key), w') → w'.ledger = held key + w.ledger ∧
        (e ≠ 0 → key = none) ∧ ∀ k ∈ key, P.itemImport (request r) = .ok [.secKey k.val])
    {keyRef : CssmKey} {pk : Option (Ref K)} {w' : World}
    (h : convertPrivateKey algorithm format layout newPublicKey keyRef P w = .ok (pk, w')) :
    w'.ledger = held pk + w.ledger ∧
      ∀ k ∈ pk, DerivedPublicKey P algorithm format layout request keyRef k := by
  unfold convertPrivateKey at h
  by_cases hguard : keyRef.keyHeader.algorithmId = algorithm ∧ keyRef.keyHeader.format = format ∧
      keyRef.keyHeader.keyClass = .privateKey
  swap
  · obtain ⟨rfl, rfl⟩ : pk = none ∧ w' = w := by
      rw [not_and_or, not_and_or] at hguard
      rcases hguard with hfail | hfail | hfail <;> simp [hfail] at h <;> exact ⟨h.1.symm, h.2.symm⟩
    simp
  obtain ⟨halg, hfmt, hcls⟩ := hguard
  simp only [halg, hfmt, hcls, ne_eq, not_true_eq_false, if_false, pure_bind] at h
  obtain ⟨coder, w₁, hcoder, h⟩ := SecM.bind_eq_ok.mp h
  have hl1 := secAsn1CoderCreate_ledger hcoder
  rcases coder with _ | coder
  · simp only [SecM.pure_apply, Except.ok.injEq, Prod.mk.injEq] at h
    obtain ⟨rfl, rfl⟩ := h
    simp [hl1]
  obtain ⟨decoded, w₂, hdec, h⟩ := SecM.bind_eq_ok.mp h
  obtain ⟨hdec, hl2⟩ := secAsn1Decode_ok hdec
  rcases decoded with _ | r
  · obtain ⟨_, w₃, hrel, h⟩ := SecM.bind_eq_ok.mp h
    simp only [SecM.pure_apply, Except.ok.injEq, Prod.mk.injEq] at h
    obtain ⟨rfl, rfl⟩ := h
    simp [(release_eq_ok hrel).2, hl2, hl1]
  obtain ⟨⟨e, key⟩, w₃, hkey, h⟩ := SecM.bind_eq_ok.mp h
  obtain ⟨hl3, herr, hkeys⟩ := hnew hkey
  obtain ⟨_, w₄, hrel, h⟩ := SecM.bind_eq_ok.mp h
  have hl4 : w₄.ledger = held key + w.ledger := by
    rw [(release_eq_ok hrel).2, hl3, hl2, hl1]
    simp [Multiset.erase_add_right_pos]
  simp only at h
  split_ifs at h with he
  · simp only [SecM.pure_apply, Except.ok.injEq, Prod.mk.injEq] at h
    obtain ⟨rfl, rfl⟩ := h
    exact ⟨hl4, fun k hk => ⟨halg, hfmt, hcls, r, hdec r rfl, hkeys k hk⟩⟩
  · simp only [SecM.pure_apply, Except.ok.injEq, Prod.mk.injEq] at h
    obtain ⟨rfl, rfl⟩ := h
    simp [hl4, herr he]

-- The public key conversions on any platform, given what the private key conversion can do: the
-- uninitialised SecKeyRef, with nothing more held and no raw key made, or, once the key unwrapped
-- to a raw key, the key itself retained when the raw key is a public key of the algorithm, and
-- what the private key conversion derived otherwise. The key handed back is held beside the
-- wrapped raw key, when the conversion made one.
theorem convertToPublicKey_cases {format : BlobFormat} {algorithm : Algorithm}
    {convertPrivate : CssmKey → SecM K (Option (Ref K))} {Derived : CssmKey → Ref K → Prop}
    (hconvert : ∀ {raw : CssmKey} {w w' : World} {pk : Option (Ref K)},
      convertPrivate raw P w = .ok (pk, w') → w'.ledger = held pk + w.ledger ∧ ∀ k ∈ pk, Derived raw k)
    {key : Ref K} {pk : Option (Ref K)} {w' : World}
    (h : convertToPublicKey format algorithm convertPrivate key P w = .ok (pk, w')) :
    pk = P.uninitializedKey ∧ wrappedRawKey P key.val format w = none ∧ w'.ledger = w.ledger ∨
      ∃ raw, UnwrapsTo P key.val format raw ∧
        w'.ledger = held pk + held (wrappedRawKey P key.val format w) + w.ledger ∧
        ∀ k ∈ pk, raw.keyHeader.algorithmId = algorithm ∧ raw.keyHeader.keyClass = .publicKey ∧ k = key ∨
          Derived raw k := by
  obtain ⟨junk, w₁, hjunk, h⟩ := SecM.bind_eq_ok.mp h
  simp only [uninitializedKey, SecM.bind_apply, platform_apply, SecM.pure_apply, Except.ok.injEq,
    Prod.mk.injEq] at hjunk
  obtain ⟨rfl, rfl⟩ := hjunk
  rcases convertPrivateKeyToRawKey_cases h with ⟨rfl, hl, hnone⟩ | ⟨raw, w₁, w₂, hu, hc, hl⟩
  · exact .inl ⟨rfl, hnone, hl⟩
  refine .inr ⟨raw, hu, ?_⟩
  split_ifs at hc with hpub
  · obtain ⟨k, w₃, hret, hc⟩ := SecM.bind_eq_ok.mp hc
    simp only [cfRetain, Except.ok.injEq, Prod.mk.injEq] at hret
    obtain ⟨rfl, rfl⟩ := hret
    simp only [SecM.pure_apply, Except.ok.injEq, Prod.mk.injEq] at hc
    obtain ⟨rfl, rfl⟩ := hc
    exact ⟨hl {key.id} (by simp), fun k hk => .inl ⟨hpub.1, hpub.2, (Option.some.inj hk).symm⟩⟩
  · obtain ⟨hl', hderived⟩ := hconvert hc
    exact ⟨hl _ hl', fun k hk => .inr (hderived k hk)⟩

-- convert_rsa_private_key on any platform.
theorem convertRsaPrivateKey_cases {raw : CssmKey} {pk : Option (Ref K)} {w' : World}
    (h : convertRsaPrivateKey raw P w = .ok (pk, w')) :
    w'.ledger = held pk + w.ledger ∧ ∀ k ∈ pk, DerivedPublicKey P .rsa .pkcs1 pkcs1RsaPrivateKeyLayout
      (fun r => rsaNewRequest r.publicExponent r.modulus none) raw k :=
  convertPrivateKey_cases (fun hn => rsaNew_cases hn) h

-- convert_dsa_private_key on any platform.
theorem convertDsaPrivateKey_cases {raw : CssmKey} {pk : Option (Ref K)} {w' : World}
    (h : convertDsaPrivateKey raw P w = .ok (pk, w')) :
    w'.ledger = held pk + w.ledger ∧ ∀ k ∈ pk, DerivedPublicKey P .dsa .openssl opensslDsaPrivateKeyLayout
      (fun r => dsaNewRequest r.params.p r.params.q r.params.g r.pub none) raw k :=
  convertPrivateKey_cases (fun hn => dsaNew_cases hn) h

end Convert

section ToPublic

variable {K : Type} {P : Platform K} {w : World}

-- convert_rsa_private_key_to_public_key on any platform: the uninitialised SecKeyRef, with nothing
-- more held and no raw key made, or, once the key unwrapped to a raw key, the key itself retained
-- when that raw key is an RSA public key, or else the importer's answer to the PKCS#1 public key of
-- the modulus and public exponent of the RSA private key it decodes to. The run then holds the key
-- it hands back and the raw key CSSM_WrapKey made, when it made one; every other object it made is
-- released.
theorem convertRsaPrivateKeyToPublicKey_cases {key : Ref K} {pk : Option (Ref K)} {w' : World}
    (h : convertRsaPrivateKeyToPublicKey key P w = .ok (pk, w')) :
    pk = P.uninitializedKey ∧ wrappedRawKey P key.val .pkcs1 w = none ∧ w'.ledger = w.ledger ∨
      ∃ raw, UnwrapsTo P key.val .pkcs1 raw ∧
        w'.ledger = held pk + held (wrappedRawKey P key.val .pkcs1 w) + w.ledger ∧
        ∀ k ∈ pk, raw.keyHeader.algorithmId = .rsa ∧ raw.keyHeader.keyClass = .publicKey ∧ k = key ∨
          DerivedPublicKey P .rsa .pkcs1 pkcs1RsaPrivateKeyLayout
            (fun r => rsaNewRequest r.publicExponent r.modulus none) raw k :=
  convertToPublicKey_cases convertRsaPrivateKey_cases h

theorem convertRsaPrivateKeyToPublicKey_cases_publicKey :
    ∃ pk w', convertRsaPrivateKeyToPublicKey ⟨0, (.publicKey, [])⟩ (derPlatform .rsa .pkcs1)
        ⟨{0}, 1, 0, []⟩ = .ok (pk, w') ∧
      (pk = (derPlatform .rsa .pkcs1).uninitializedKey ∧
          wrappedRawKey (derPlatform .rsa .pkcs1) (.publicKey, []) .pkcs1 ⟨{0}, 1, 0, []⟩ = none ∧
          w'.ledger = {0} ∨
        ∃ raw, UnwrapsTo (derPlatform .rsa .pkcs1) (.publicKey, []) .pkcs1 raw ∧
          w'.ledger = held pk +
            held (wrappedRawKey (derPlatform .rsa .pkcs1) (.publicKey, []) .pkcs1 ⟨{0}, 1, 0, []⟩) + {0} ∧
          ∀ k ∈ pk, raw.keyHeader.algorithmId = .rsa ∧ raw.keyHeader.keyClass = .publicKey ∧
              k = ⟨0, (.publicKey, [])⟩ ∨
            DerivedPublicKey (derPlatform .rsa .pkcs1) .rsa .pkcs1 pkcs1RsaPrivateKeyLayout
              (fun r => rsaNewRequest r.publicExponent r.modulus none) raw k) := by
  obtain ⟨pk, w', h⟩ : ∃ pk w', convertRsaPrivateKeyToPublicKey ⟨0, (.publicKey, [])⟩
      (derPlatform .rsa .pkcs1) ⟨{0}, 1, 0, []⟩ = .ok (pk, w') := ⟨_, _, rfl⟩
  exact ⟨pk, w', h, convertRsaPrivateKeyToPublicKey_cases h⟩

-- convert_dsa_private_key_to_public_key on any platform, likewise: the key itself when it unwraps
-- to a DSA public key, or else the importer's answer to the DSA public key of p, q, g and y of the
-- DSA private key it decodes to. The coder made to encode y is released on every path.
theorem convertDsaPrivateKeyToPublicKey_cases {key : Ref K} {pk : Option (Ref K)} {w' : World}
    (h : convertDsaPrivateKeyToPublicKey key P w = .ok (pk, w')) :
    pk = P.uninitializedKey ∧ wrappedRawKey P key.val .openssl w = none ∧ w'.ledger = w.ledger ∨
      ∃ raw, UnwrapsTo P key.val .openssl raw ∧
        w'.ledger = held pk + held (wrappedRawKey P key.val .openssl w) + w.ledger ∧
        ∀ k ∈ pk, raw.keyHeader.algorithmId = .dsa ∧ raw.keyHeader.keyClass = .publicKey ∧ k = key ∨
          DerivedPublicKey P .dsa .openssl opensslDsaPrivateKeyLayout
            (fun r => dsaNewRequest r.params.p r.params.q r.params.g r.pub none) raw k :=
  convertToPublicKey_cases convertDsaPrivateKey_cases h

theorem convertDsaPrivateKeyToPublicKey_cases_publicKey :
    ∃ pk w', convertDsaPrivateKeyToPublicKey ⟨0, (.publicKey, [])⟩ (derPlatform .dsa .openssl)
        ⟨{0}, 1, 0, []⟩ = .ok (pk, w') ∧
      (pk = (derPlatform .dsa .openssl).uninitializedKey ∧
          wrappedRawKey (derPlatform .dsa .openssl) (.publicKey, []) .openssl ⟨{0}, 1, 0, []⟩ = none ∧
          w'.ledger = {0} ∨
        ∃ raw, UnwrapsTo (derPlatform .dsa .openssl) (.publicKey, []) .openssl raw ∧
          w'.ledger = held pk +
            held (wrappedRawKey (derPlatform .dsa .openssl) (.publicKey, []) .openssl ⟨{0}, 1, 0, []⟩) + {0} ∧
          ∀ k ∈ pk, raw.keyHeader.algorithmId = .dsa ∧ raw.keyHeader.keyClass = .publicKey ∧
              k = ⟨0, (.publicKey, [])⟩ ∨
            DerivedPublicKey (derPlatform .dsa .openssl) .dsa .openssl opensslDsaPrivateKeyLayout
              (fun r => dsaNewRequest r.params.p r.params.q r.params.g r.pub none) raw k) := by
  obtain ⟨pk, w', h⟩ : ∃ pk w', convertDsaPrivateKeyToPublicKey ⟨0, (.publicKey, [])⟩
      (derPlatform .dsa .openssl) ⟨{0}, 1, 0, []⟩ = .ok (pk, w') := ⟨_, _, rfl⟩
  exact ⟨pk, w', h, convertDsaPrivateKeyToPublicKey_cases h⟩

end ToPublic

end Libssh2
