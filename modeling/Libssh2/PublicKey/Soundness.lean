import Libssh2.Derive.Soundness
import Libssh2.PublicKey.Extraction

namespace Libssh2

open Asn1

section Frame

variable {K : Type} {P : Platform K} {w : World}

-- The bytes the appendBigEndianInteger block appends for a field: the field as an SSH string,
-- with a zero byte in front when the top bit of its first byte is set.
def integerFrame (data : Bytes) : Bytes :=
  if data.head?.any (· &&& 0x80 = 0x80) then sshString (0 :: data) else sshString data

-- On any platform the block appends the frame of a non-empty field and leaves the world as it was.
theorem appendBigEndianInteger_of_ne_nil (pubData data : Ref Bytes) (hne : data.val ≠ []) :
    appendBigEndianInteger (K := K) pubData data P w =
      .ok (cfDataAppendBytes pubData (integerFrame data.val), w) := by
  obtain ⟨b, bs, hdata⟩ := List.exists_cons_of_ne_nil hne
  have hlen : u32be (((b :: bs).length % 2 ^ 32 + 1) % 2 ^ 32) = u32be ((b :: bs).length + 1) := by
    rw [← u32be_mod ((b :: bs).length + 1), Nat.add_mod, Nat.mod_mod, Nat.add_mod _ 1]
    simp
  by_cases ht : b &&& 0x80 = 0x80 <;>
    simp [appendBigEndianInteger, hdata, ht, integerFrame, sshString, cfDataAppendBytes, hlen]

theorem appendBigEndianInteger_nil (pubData data : Ref Bytes) (hnil : data.val = []) :
    appendBigEndianInteger (K := K) pubData data P w = .error .indexOutOfBounds := by
  simp [appendBigEndianInteger, hnil]

-- A run of the block over the copies that returns: no copy was empty, and the blob grew by the
-- frame of each copy in turn.
theorem foldlM_appendBigEndianInteger_ok {copies : List (Ref Bytes)} {pubData r : Ref Bytes} {w' : World}
    (h : copies.foldlM appendBigEndianInteger pubData P w = .ok (r, w')) :
    (∀ c ∈ copies, c.val ≠ []) ∧ r = cfDataAppendBytes pubData (copies.flatMap (integerFrame ·.val)) ∧
      w' = w := by
  induction copies generalizing pubData with
  | nil =>
    simp only [List.foldlM_nil, SecM.pure_apply, Except.ok.injEq, Prod.mk.injEq] at h
    obtain ⟨rfl, rfl⟩ := h
    simp [cfDataAppendBytes]
  | cons c cs ih =>
    rw [List.foldlM_cons] at h
    obtain ⟨p, w₁, hc, h⟩ := SecM.bind_eq_ok.mp h
    by_cases hne : c.val = []
    · simp [appendBigEndianInteger_nil pubData c hne] at hc
    rw [appendBigEndianInteger_of_ne_nil pubData c hne] at hc
    simp only [Except.ok.injEq, Prod.mk.injEq] at hc
    obtain ⟨rfl, rfl⟩ := hc
    obtain ⟨hall, rfl, rfl⟩ := ih h
    refine ⟨?_, by simp [cfDataAppendBytes], rfl⟩
    simpa [hne] using hall

end Frame

section Reader

-- A frame of a field short enough for its length is read back as the field's value.
theorem readMpint_integerFrame {data : Bytes} (hne : data ≠ []) (hlen : data.length + 1 < 2 ^ 32)
    (rest : Bytes) : readMpint (integerFrame data ++ rest) = some (bytesToNat data, rest) := by
  obtain ⟨b, bs, rfl⟩ := List.exists_cons_of_ne_nil hne
  by_cases ht : b &&& 0x80 = 0x80
  · have hzero : ¬((0 : UInt8) &&& 0x80 = 0x80) := by decide
    simp [integerFrame, ht, readMpint, hzero,
      readString_sshString (show (0 :: b :: bs).length < 2 ^ 32 by simpa using hlen)]
  · simp [integerFrame, ht, readMpint,
      readString_sshString (show (b :: bs).length < 2 ^ 32 by simp at hlen ⊢; omega)]

-- The frames of the fields, one after the other, are read back as the fields' values.
theorem readMpints_integerFrames (fields : List Bytes)
    (hfields : ∀ f ∈ fields, f ≠ [] ∧ f.length + 1 < 2 ^ 32) (rest : Bytes) :
    readMpints fields.length (fields.flatMap integerFrame ++ rest) = some (fields.map bytesToNat, rest) := by
  induction fields with
  | nil => rfl
  | cons f fs ih =>
    obtain ⟨hne, hlen⟩ := hfields f (List.mem_cons_self f fs)
    simp [readMpints, List.append_assoc, readMpint_integerFrame hne hlen,
      ih fun g hg => hfields g (List.mem_cons_of_mem f hg)]

-- A blob of a method name and as many framed fields as the method takes reads back as the
-- name and the fields' values.
theorem readPublicKeyBlob_integerFrames {method : Bytes} (hmethod : method.length < 2 ^ 32)
    (fields : List Bytes) (hcount : integerCount method = some fields.length)
    (hfields : ∀ f ∈ fields, f ≠ [] ∧ f.length + 1 < 2 ^ 32) :
    readPublicKeyBlob (sshString method ++ fields.flatMap integerFrame) =
      some (method, fields.map bytesToNat) := by
  have h := readMpints_integerFrames fields hfields []
  simp only [List.append_nil] at h
  simp [readPublicKeyBlob, readString_sshString hmethod, hcount, h]

end Reader

section Branch

variable {K R : Type} {P : Platform K} {w : World}

-- The block of a branch on any platform: the captured values untouched with nothing more held,
-- or one copy of each public field of the structure the layout decoded, the copies held.
theorem copyPublicFields_cases {layout : Layout R} {fields : R → List Bytes} {keyRef : CssmKey}
    {captured c : List (Option (Ref Bytes))} {w' : World}
    (h : copyPublicFields layout fields keyRef captured P w = .ok (c, w')) :
    c = captured ∧ w'.ledger = w.ledger ∨
      ∃ r, ∃ copies : List (Ref Bytes), layout.decode keyRef.keyData = some r ∧
        c = copies.map some ∧ copies.map (·.val) = fields r ∧
        w'.ledger = (copies.map (·.id) : Multiset Nat) + w.ledger := by
  obtain ⟨coder, w₁, hcoder, h⟩ := SecM.bind_eq_ok.mp h
  have hl1 := secAsn1CoderCreate_ledger hcoder
  rcases coder with _ | coder
  · simp only [SecM.pure_apply, Except.ok.injEq, Prod.mk.injEq] at h
    obtain ⟨rfl, rfl⟩ := h
    exact .inl ⟨rfl, by simpa using hl1⟩
  obtain ⟨r, w₂, hdec, h⟩ := SecM.bind_eq_ok.mp h
  rw [secAsn1Decode_eq] at hdec
  simp only [Except.ok.injEq, Prod.mk.injEq] at hdec
  obtain ⟨hr, rfl⟩ := hdec
  rcases r with _ | r
  · obtain ⟨_, w₃, hrel, h⟩ := SecM.bind_eq_ok.mp h
    simp only [SecM.pure_apply, Except.ok.injEq, Prod.mk.injEq] at h
    obtain ⟨rfl, rfl⟩ := h
    exact .inl ⟨rfl, by simp [(release_eq_ok hrel).2, hl1]⟩
  have hdecoded : layout.decode keyRef.keyData = some r := by
    split_ifs at hr
    exact hr
  obtain ⟨copies, w₃, hcopies, h⟩ := SecM.bind_eq_ok.mp h
  obtain ⟨_, w₄, hrel, h⟩ := SecM.bind_eq_ok.mp h
  simp only [SecM.pure_apply, Except.ok.injEq, Prod.mk.injEq] at h
  obtain ⟨rfl, rfl⟩ := h
  obtain ⟨copies', w₃', hcopies', hv, hl3, -⟩ := mapM_cfDataCreate (P := P) (fields r)
    { w₁ with calls := w₁.calls + 1 }
  have heq := hcopies.symm.trans hcopies'
  simp only [Except.ok.injEq, Prod.mk.injEq] at heq
  obtain ⟨rfl, rfl⟩ := heq
  refine .inr ⟨r, copies, hdecoded, rfl, hv, ?_⟩
  rw [(release_eq_ok hrel).2, hl3, hl1]
  simp [Multiset.erase_add_right_pos]

theorem releaseFields_replicate_none (n : Nat) :
    releaseFields (K := K) (List.replicate n none) P w = .ok ((), w) := by
  induction n with
  | zero => rfl
  | succ n ih => simpa only [List.replicate_succ, releaseFields] using ih

-- What a result of _libssh2_pub_priv_keyfilememory holds: the method name and the blob.
def heldPublicKey : Option PublicKeyOut → Multiset Nat
  | some out => {out.method.id, out.pubkeydata.id}
  | none => 0

@[simp] theorem heldPublicKey_none : heldPublicKey none = 0 := rfl

-- A branch of _libssh2_pub_priv_keyfilememory on any platform. It gives up its hold on the key and
-- ends holding what it returns and the raw key CSSM_WrapKey made, when the conversion made one; the
-- coder and the copies of the fields are released. It returns 0 only when the key unwrapped to a
-- raw key the layout decodes and no public field is empty, with the blob of the method name
-- followed by the frame of each field.
theorem publicKeyBranch_cases {key : Ref K} {format : BlobFormat} {layout : Layout R}
    {fields : R → List Bytes} {count : Nat} {methodName : String} {e : Int}
    {out : Option PublicKeyOut} {w' : World} (hcount : 0 < count) (hkey : key.id ∈ w.ledger)
    (h : publicKeyBranch key format layout fields count methodName P w = .ok ((e, out), w')) :
    w'.ledger = heldPublicKey out + held (wrappedRawKey P key.val format w) + w.ledger.erase key.id ∧
    (e = 0 → ∃ o raw r, out = some o ∧ UnwrapsTo P key.val format raw ∧
      layout.decode raw.keyData = some r ∧ o.method.val = asciiBytes methodName ∧
      (∀ f ∈ fields r, f ≠ []) ∧
      o.pubkeydata.val = sshString (asciiBytes methodName) ++ (fields r).flatMap integerFrame) := by
  obtain ⟨captured, w₁, hconv, h⟩ := SecM.bind_eq_ok.mp h
  -- the conversion copied nothing, or one copy of each public field of a raw key
  obtain ⟨rfl, hl1⟩ | ⟨raw, r, copies, hu, hdec, rfl, hv, hl1⟩ :
      captured = List.replicate count none ∧
          w₁.ledger = held (wrappedRawKey P key.val format w) + w.ledger ∨
        ∃ raw r, ∃ copies : List (Ref Bytes), UnwrapsTo P key.val format raw ∧
          layout.decode raw.keyData = some r ∧ captured = copies.map some ∧
          copies.map (·.val) = fields r ∧ w₁.ledger =
            (copies.map (·.id) : Multiset Nat) + held (wrappedRawKey P key.val format w) + w.ledger := by
    rcases convertPrivateKeyToRawKey_cases hconv with ⟨rfl, hl, hnone⟩ | ⟨raw, w₂, w₃, hu, hcopy, hframe⟩
    · exact .inl ⟨rfl, by simp [hl, hnone]⟩
    rcases copyPublicFields_cases hcopy with ⟨rfl, hl⟩ | ⟨r, copies, hdec, rfl, hv, hl⟩
    · exact .inl ⟨rfl, by simpa using hframe 0 (by simp [hl])⟩
    · exact .inr ⟨raw, r, copies, hu, hdec, rfl, hv, hframe _ hl⟩
  · have hnone : (List.replicate count (none : Option (Ref Bytes))).mapM id = none := by
      obtain ⟨n, rfl⟩ := Nat.exists_eq_succ_of_ne_zero hcount.ne'
      rw [List.replicate_succ, List.mapM_cons]
      rfl
    simp only [hnone] at h
    obtain ⟨_, w₂, hrel, h⟩ := SecM.bind_eq_ok.mp h
    rw [releaseFields_replicate_none] at hrel
    obtain ⟨-, rfl⟩ := Prod.mk.inj (Except.ok.inj hrel)
    obtain ⟨_, w₃, hkrel, h⟩ := SecM.bind_eq_ok.mp h
    simp only [SecM.pure_apply, Except.ok.injEq, Prod.mk.injEq] at h
    obtain ⟨⟨rfl, rfl⟩, rfl⟩ := h
    refine ⟨?_, fun h10 => absurd h10 (by decide)⟩
    rw [(release_eq_ok hkrel).2, hl1, Multiset.erase_add_right_pos _ hkey]
    simp
  rw [mapM_id_map_some] at h
  obtain ⟨methodRef, w₂, hm, h⟩ := SecM.bind_eq_ok.mp h
  obtain ⟨pubData, w₃, hp, h⟩ := SecM.bind_eq_ok.mp h
  obtain ⟨pubData', w₄, hfold, h⟩ := SecM.bind_eq_ok.mp h
  obtain ⟨pk, w₅, hpk, h⟩ := SecM.bind_eq_ok.mp h
  obtain ⟨_, w₆, hdrel, h⟩ := SecM.bind_eq_ok.mp h
  obtain ⟨_, w₇, hcrel, h⟩ := SecM.bind_eq_ok.mp h
  obtain ⟨_, w₈, hkrel, h⟩ := SecM.bind_eq_ok.mp h
  simp only [SecM.pure_apply, Except.ok.injEq, Prod.mk.injEq] at h
  obtain ⟨⟨rfl, rfl⟩, rfl⟩ := h
  obtain ⟨hne, rfl, rfl⟩ := foldlM_appendBigEndianInteger_ok hfold
  simp only [alloc, acquire, cfDataCreateMutable, Except.ok.injEq, Prod.mk.injEq] at hm hp hpk
  obtain ⟨rfl, rfl⟩ := hm
  obtain ⟨rfl, rfl⟩ := hp
  obtain ⟨rfl, rfl⟩ := hpk
  refine ⟨?_, fun _ => ⟨_, raw, r, rfl, hu, hdec, rfl, ?_, ?_⟩⟩
  · have hheld : w₆.ledger = (copies.map (·.id) : Multiset Nat) +
        (w₁.fresh + 2) ::ₘ w₁.fresh ::ₘ (held (wrappedRawKey P key.val format w) + w.ledger) := by
      rw [(release_eq_ok hdrel).2]
      simp [cfDataAppendBytes, hl1, Multiset.add_cons, add_assoc]
    rw [releaseAll_of_le copies (hheld ▸ Multiset.le_add_right _ _), hheld, add_tsub_cancel_left] at hcrel
    obtain ⟨-, rfl⟩ := Prod.mk.inj (Except.ok.inj hcrel)
    rw [(release_eq_ok hkrel).2]
    simp [heldPublicKey, hkey, Multiset.erase_add_right_pos]
    exact Multiset.cons_swap _ _ _
  · rw [← hv]
    simpa using hne
  · simp [cfDataAppendBytes, sshString, ← hv, List.flatMap_map]

end Branch

section Extraction

variable {K : Type} {P : Platform K} {w : World}

-- The raw key the branch of _libssh2_pub_priv_keyfilememory for the key's algorithm has
-- CSSM_WrapKey make, run from `w`: in PKCS#1 for RSA, in OpenSSL's format for DSA, and none for any
-- other algorithm.
def branchRawKey (P : Platform K) (key : K) (w : World) : Option (Ref CssmKey) :=
  match P.cssmKey key with
  | some k =>
    if k.keyHeader.algorithmId = .rsa then wrappedRawKey P key .pkcs1 w
    else if k.keyHeader.algorithmId = .dsa then wrappedRawKey P key .openssl w
    else none
  | none => none

@[simp] theorem branchRawKey_ledger (key : K) (L : Multiset Nat) :
    branchRawKey P key { w with ledger := L } = branchRawKey P key w := rfl

-- The algorithm switch of _libssh2_pub_priv_keyfilememory on any platform: it gives up its hold on
-- the key and ends holding what it returns and the raw key its branch had CSSM_WrapKey make, and it
-- returns 0 only from its RSA or its DSA branch.
theorem publicKeyOfKey_cases {key : Ref K} {e : Int} {out : Option PublicKeyOut} {w' : World}
    (hkey : key.id ∈ w.ledger) (h : publicKeyOfKey key P w = .ok ((e, out), w')) :
    w'.ledger = heldPublicKey out + held (branchRawKey P key.val w) + w.ledger.erase key.id ∧
    (e = 0 → ∃ o, out = some o ∧
      ((∃ raw r, UnwrapsTo P key.val .pkcs1 raw ∧ pkcs1RsaPrivateKeyLayout.decode raw.keyData = some r ∧
        o.method.val = asciiBytes "ssh-rsa" ∧ (∀ f ∈ [r.publicExponent, r.modulus], f ≠ []) ∧
        o.pubkeydata.val = sshString (asciiBytes "ssh-rsa") ++
          [r.publicExponent, r.modulus].flatMap integerFrame) ∨
      (∃ raw r, UnwrapsTo P key.val .openssl raw ∧ opensslDsaPrivateKeyLayout.decode raw.keyData = some r ∧
        o.method.val = asciiBytes "ssh-dss" ∧ (∀ f ∈ [r.params.p, r.params.q, r.params.g, r.pub], f ≠ []) ∧
        o.pubkeydata.val = sshString (asciiBytes "ssh-dss") ++
          [r.params.p, r.params.q, r.params.g, r.pub].flatMap integerFrame))) := by
  obtain ⟨k, w₁, hk, h⟩ := SecM.bind_eq_ok.mp h
  simp only [secKeyGetCSSMKey, SecM.bind_apply, platform_apply, SecM.pure_apply, Except.ok.injEq,
    Prod.mk.injEq] at hk
  obtain ⟨hk, rfl⟩ := hk
  rcases k with _ | k
  · obtain ⟨_, w₂, hrel, h⟩ := SecM.bind_eq_ok.mp h
    simp only [SecM.pure_apply, Except.ok.injEq, Prod.mk.injEq] at h
    obtain ⟨⟨rfl, rfl⟩, rfl⟩ := h
    exact ⟨by simp [(release_eq_ok hrel).2, branchRawKey, hk], fun h10 => absurd h10 (by decide)⟩
  by_cases hrsa : k.keyHeader.algorithmId = .rsa
  · simp only [hrsa, if_true] at h
    obtain ⟨res, w₂, hbranch, h⟩ := SecM.bind_eq_ok.mp h
    simp only [SecM.pure_apply, Except.ok.injEq, Prod.mk.injEq] at h
    obtain ⟨rfl, rfl⟩ := h
    obtain ⟨hl, hzero⟩ := publicKeyBranch_cases (by decide) hkey hbranch
    refine ⟨by simpa [branchRawKey, hk, hrsa] using hl, fun h0 => ?_⟩
    obtain ⟨o, raw, r, ho, hrest⟩ := hzero h0
    exact ⟨o, ho, .inl ⟨raw, r, hrest⟩⟩
  by_cases hdsa : k.keyHeader.algorithmId = .dsa
  · simp only [hrsa, hdsa, if_true, if_false, pure_bind] at h
    obtain ⟨res, w₂, hbranch, h⟩ := SecM.bind_eq_ok.mp h
    simp only [SecM.pure_apply, Except.ok.injEq, Prod.mk.injEq] at h
    obtain ⟨rfl, rfl⟩ := h
    obtain ⟨hl, hzero⟩ := publicKeyBranch_cases (by decide) hkey hbranch
    refine ⟨by simpa [branchRawKey, hk, hdsa] using hl, fun h0 => ?_⟩
    obtain ⟨o, raw, r, ho, hrest⟩ := hzero h0
    exact ⟨o, ho, .inr ⟨raw, r, hrest⟩⟩
  simp only [hrsa, hdsa, if_false, pure_bind] at h
  obtain ⟨_, w₂, hrel, h⟩ := SecM.bind_eq_ok.mp h
  simp only [SecM.pure_apply, Except.ok.injEq, Prod.mk.injEq] at h
  obtain ⟨⟨rfl, rfl⟩, rfl⟩ := h
  exact ⟨by simp [(release_eq_ok hrel).2, branchRawKey, hk, hrsa, hdsa],
    fun h10 => absurd h10 (by decide)⟩

-- The steps of _libssh2_pub_priv_keyfilememory before the switch, on any platform: the import of
-- the key data's CFData, the first object the run makes, and then no result with nothing more held,
-- or, when the importer answered the key data with one key, the switch on that key from the world
-- the import left, with the CFData released.
theorem pubPrivKeyfilememory_cases {privatekeydata : Bytes} {passphrase : Option Bytes} {e : Int}
    {out : Option PublicKeyOut} {w' : World}
    (h : pubPrivKeyfilememory privatekeydata passphrase P w = .ok ((e, out), w')) :
    ∃ res w₁, keyNewFromData ⟨w.fresh, privatekeydata⟩ .privateKey none passphrase P
        { w with ledger := w.fresh ::ₘ w.ledger, fresh := w.fresh + 1 } = .ok (res, w₁) ∧
      (res.2 = none ∧ out = none ∧ w'.ledger = w.ledger ∨
        ∃ key : Ref K, res = (0, some key) ∧
          P.itemImport ⟨privatekeydata, none, .privateKey, importPassphrase passphrase⟩ =
            .ok [.secKey key.val] ∧
          w₁.ledger.erase w.fresh = key.id ::ₘ w.ledger ∧
          publicKeyOfKey key P { w₁ with ledger := w₁.ledger.erase w.fresh } = .ok ((e, out), w')) := by
  obtain ⟨data, w₀, hdata, h⟩ := SecM.bind_eq_ok.mp h
  simp only [cfDataCreate, acquire_apply, Except.ok.injEq, Prod.mk.injEq] at hdata
  obtain ⟨rfl, rfl⟩ := hdata
  obtain ⟨⟨error, key⟩, w₁, hkey, h⟩ := SecM.bind_eq_ok.mp h
  refine ⟨(error, key), w₁, hkey, ?_⟩
  obtain ⟨hl₁, hkeys, herr⟩ := keyNewFromData_ok hkey
  simp only at h
  obtain ⟨_, w₂, hrel, hrun⟩ := SecM.bind_eq_ok.mp h
  obtain rfl := release_world hrel
  rcases key with _ | key
  · simp only [SecM.pure_apply, Except.ok.injEq, Prod.mk.injEq] at hrun
    obtain ⟨⟨-, rfl⟩, rfl⟩ := hrun
    exact .inl ⟨rfl, rfl, by simp [hl₁]⟩
  obtain ⟨request, hreq, himport⟩ := hkeys key rfl
  rw [importRequestOf_without_filename hreq] at himport
  obtain rfl : error = 0 := by
    by_contra he
    cases herr he
  exact .inr ⟨key, rfl, himport, by simp [hl₁], hrun⟩

-- _libssh2_pub_priv_keyfilememory on any platform: 0 comes only when the importer answered the
-- key data with one key, which unwraps to a raw RSA or DSA private key the code's template
-- decodes. The method is then "ssh-rsa" or "ssh-dss", and the blob is the method name followed by
-- the frames of the key's public fields: e and n, or p, q, g and y. When every field is shorter
-- than 2 ^ 32 - 1 bytes, an SSH reader reads the blob back as the method and the fields' values.
theorem pubPrivKeyfilememory_zero {privatekeydata : Bytes} {passphrase : Option Bytes}
    {out : PublicKeyOut} {w' : World}
    (h : pubPrivKeyfilememory privatekeydata passphrase P w = .ok ((0, some out), w')) :
    ∃ key raw, ∃ fields : List Bytes,
      P.itemImport ⟨privatekeydata, none, .privateKey, importPassphrase passphrase⟩ =
        .ok [.secKey key] ∧
      ((out.method.val = asciiBytes "ssh-rsa" ∧ ∃ r, UnwrapsTo P key .pkcs1 raw ∧
          pkcs1RsaPrivateKeyLayout.decode raw.keyData = some r ∧ fields = [r.publicExponent, r.modulus]) ∨
        (out.method.val = asciiBytes "ssh-dss" ∧ ∃ r, UnwrapsTo P key .openssl raw ∧
          opensslDsaPrivateKeyLayout.decode raw.keyData = some r ∧
          fields = [r.params.p, r.params.q, r.params.g, r.pub])) ∧
      out.pubkeydata.val = sshString out.method.val ++ fields.flatMap integerFrame ∧
      ((∀ f ∈ fields, f.length + 1 < 2 ^ 32) →
        readPublicKeyBlob out.pubkeydata.val = some (out.method.val, fields.map bytesToNat)) := by
  obtain ⟨res, w₁, -, ⟨-, hnone, -⟩ | ⟨key, -, himport, hl, hrun⟩⟩ := pubPrivKeyfilememory_cases h
  · cases hnone
  obtain ⟨-, hzero⟩ := publicKeyOfKey_cases (by simp [hl]) hrun
  obtain ⟨o, ho, hbranch⟩ := hzero rfl
  cases ho
  rcases hbranch with ⟨raw, r, hu, hdec, hm, hne, hb⟩ | ⟨raw, r, hu, hdec, hm, hne, hb⟩
  · refine ⟨key.val, raw, _, himport, .inl ⟨hm, r, hu, hdec, rfl⟩, by rw [hb, hm], fun hlen => ?_⟩
    rw [hb, hm]
    exact readPublicKeyBlob_integerFrames (by decide) _ (by simp [integerCount])
      fun f hf => ⟨hne f hf, hlen f hf⟩
  · refine ⟨key.val, raw, _, himport, .inr ⟨hm, r, hu, hdec, rfl⟩, by rw [hb, hm], fun hlen => ?_⟩
    rw [hb, hm]
    exact readPublicKeyBlob_integerFrames (by decide) _ (by simp [integerCount]; decide)
      fun f hf => ⟨hne f hf, hlen f hf⟩

-- The run on the small RSA key returns 0.
theorem pubPrivKeyfilememory_smallRsaKey :
    ∃ out w', pubPrivKeyfilememory (integerSequenceDer smallRsaKey.integers) none
      (derPlatform .rsa .pkcs1) World.initial = .ok ((0, some out), w') := by
  obtain ⟨id, w₁, hledger, hrun⟩ := pubPrivKeyfilememory_of_import (P := derPlatform .rsa .pkcs1)
    (integerSequenceDer smallRsaKey.integers) none rfl World.initial
  obtain ⟨R, layout, fields, count, r, hdec, hfields, hbranch⟩ :=
    publicKeyOfKey_branch (P := derPlatform .rsa .pkcs1) ⟨id, _⟩ rfl smallRsaKey rfl (by decide)
  obtain ⟨out, w', hout, -, -⟩ := publicKeyBranch_of_decode (P := derPlatform .rsa .pkcs1) (w := w₁)
    (fun _ => rfl) ⟨id, (.privateKey, integerSequenceDer smallRsaKey.integers)⟩
    (hledger ▸ Multiset.mem_cons_self _ _) ⟨_, rfl, .inl ⟨rfl, rfl⟩⟩ fields hdec count
    (hfields ▸ publicFields_minimal smallRsaKey (by decide)) _
  exact ⟨out, w', hrun.trans ((hbranch w₁).trans hout)⟩

theorem pubPrivKeyfilememory_zero_derPlatform :
    ∃ out w', pubPrivKeyfilememory (integerSequenceDer smallRsaKey.integers) none
        (derPlatform .rsa .pkcs1) World.initial = .ok ((0, some out), w') ∧
      ∃ key raw, ∃ fields : List Bytes,
        (derPlatform .rsa .pkcs1).itemImport
            ⟨integerSequenceDer smallRsaKey.integers, none, .privateKey, importPassphrase none⟩ =
          .ok [.secKey key] ∧
        ((out.method.val = asciiBytes "ssh-rsa" ∧ ∃ r, UnwrapsTo (derPlatform .rsa .pkcs1) key .pkcs1 raw ∧
            pkcs1RsaPrivateKeyLayout.decode raw.keyData = some r ∧ fields = [r.publicExponent, r.modulus]) ∨
          (out.method.val = asciiBytes "ssh-dss" ∧ ∃ r, UnwrapsTo (derPlatform .rsa .pkcs1) key .openssl raw ∧
            opensslDsaPrivateKeyLayout.decode raw.keyData = some r ∧
            fields = [r.params.p, r.params.q, r.params.g, r.pub])) ∧
        out.pubkeydata.val = sshString out.method.val ++ fields.flatMap integerFrame ∧
        ((∀ f ∈ fields, f.length + 1 < 2 ^ 32) →
          readPublicKeyBlob out.pubkeydata.val = some (out.method.val, fields.map bytesToNat)) := by
  obtain ⟨out, w', h⟩ := pubPrivKeyfilememory_smallRsaKey
  exact ⟨out, w', h, pubPrivKeyfilememory_zero h⟩

-- _libssh2_pub_priv_keyfilememory on any platform, on every path that returns: when the importer
-- gave no key, the run ends holding what it held; otherwise it ends holding that, the method name
-- and the blob it hands back, and the raw key the branch had CSSM_WrapKey make, when it made one.
-- Everything else it made, the key data's CFData and the imported key included, is released.
theorem pubPrivKeyfilememory_ledger {privatekeydata : Bytes} {passphrase : Option Bytes} {e : Int}
    {out : Option PublicKeyOut} {w' : World}
    (h : pubPrivKeyfilememory privatekeydata passphrase P w = .ok ((e, out), w')) :
    ∃ res w₁, keyNewFromData ⟨w.fresh, privatekeydata⟩ .privateKey none passphrase P
        { w with ledger := w.fresh ::ₘ w.ledger, fresh := w.fresh + 1 } = .ok (res, w₁) ∧
      (res.2 = none ∧ out = none ∧ w'.ledger = w.ledger ∨
        ∃ key : Ref K, res = (0, some key) ∧
          w'.ledger = heldPublicKey out + held (branchRawKey P key.val w₁) + w.ledger) := by
  obtain ⟨res, w₁, himp, hnone | ⟨key, rfl, -, hl, hrun⟩⟩ := pubPrivKeyfilememory_cases h
  · exact ⟨res, w₁, himp, .inl hnone⟩
  obtain ⟨hl', -⟩ := publicKeyOfKey_cases (by simp [hl]) hrun
  exact ⟨_, w₁, himp, .inr ⟨key, rfl, by simpa [hl] using hl'⟩⟩

theorem pubPrivKeyfilememory_ledger_derPlatform :
    ∃ out w', pubPrivKeyfilememory (integerSequenceDer smallRsaKey.integers) none
        (derPlatform .rsa .pkcs1) World.initial = .ok ((0, some out), w') ∧
      ∃ res w₁, keyNewFromData ⟨0, integerSequenceDer smallRsaKey.integers⟩ .privateKey none none
          (derPlatform .rsa .pkcs1) ⟨{0}, 1, 0, []⟩ = .ok (res, w₁) ∧
        (res.2 = none ∧ some out = none ∧ w'.ledger = World.initial.ledger ∨
          ∃ key : Ref (ItemType × Bytes), res = (0, some key) ∧
            w'.ledger = heldPublicKey (some out) + held (branchRawKey (derPlatform .rsa .pkcs1) key.val w₁) +
              World.initial.ledger) := by
  obtain ⟨out, w', h⟩ := pubPrivKeyfilememory_smallRsaKey
  exact ⟨out, w', h, pubPrivKeyfilememory_ledger h⟩

-- _libssh2_pub_priv_keyfile on any platform, on every path that returns: 1 with nothing more held
-- when the file does not read; otherwise the file's CFData is released, and the run ends as
-- _libssh2_pub_priv_keyfilememory does on the file's bytes, handed to the importer without the
-- file's path: holding what it held when the importer gave no key, and otherwise that, the method
-- name and the blob it hands back, and the raw key the branch had CSSM_WrapKey make, if any.
theorem pubPrivKeyfile_cases {privatekeypath : String} {passphrase : Option Bytes} {e : Int}
    {out : Option PublicKeyOut} {w' : World}
    (h : pubPrivKeyfile privatekeypath passphrase P w = .ok ((e, out), w')) :
    (P.readFile privatekeypath).bind bytesRead = none ∧ out = none ∧ w'.ledger = w.ledger ∨
      ∃ bytes data w₀ res w₁, (P.readFile privatekeypath).bind bytesRead = some bytes ∧
        createDataFromFile privatekeypath P w = .ok (some ⟨data, bytes⟩, w₀) ∧
        keyNewFromData ⟨w₀.fresh, bytes⟩ .privateKey none passphrase P
          { w₀ with ledger := w₀.fresh ::ₘ w₀.ledger, fresh := w₀.fresh + 1 } = .ok (res, w₁) ∧
        (res.2 = none ∧ out = none ∧ w'.ledger = w.ledger ∨
          ∃ key : Ref K, res = (0, some key) ∧
            P.itemImport ⟨bytes, none, .privateKey, importPassphrase passphrase⟩ = .ok [.secKey key.val] ∧
            w'.ledger = heldPublicKey out + held (branchRawKey P key.val w₁) + w.ledger) := by
  obtain ⟨data, w₀, hdata, h⟩ := SecM.bind_eq_ok.mp h
  cases hread : (P.readFile privatekeypath).bind bytesRead with
  | none =>
    obtain ⟨w₂, hrun, hl⟩ := createDataFromFile_of_unreadable (P := P) (w := w) privatekeypath hread
    rw [hrun] at hdata
    cases hdata
    simp only [SecM.pure_apply, Except.ok.injEq, Prod.mk.injEq] at h
    obtain ⟨⟨-, rfl⟩, rfl⟩ := h
    exact .inl ⟨rfl, rfl, hl⟩
  | some bytes =>
    obtain ⟨id, w₂, hrun, hl⟩ := createDataFromFile_of_read (P := P) (w := w) privatekeypath hread
    rw [hrun] at hdata
    cases hdata
    obtain ⟨res', w₃, hmem, h⟩ := SecM.bind_eq_ok.mp h
    obtain ⟨_, w₄, hrel, h⟩ := SecM.bind_eq_ok.mp h
    simp only [SecM.pure_apply, Except.ok.injEq, Prod.mk.injEq] at h
    obtain ⟨rfl, rfl⟩ := h
    obtain ⟨res, w₅, himp, hcases⟩ := pubPrivKeyfilememory_cases hmem
    refine .inr ⟨bytes, id, _, res, w₅, rfl, hrun, himp, ?_⟩
    rw [(release_eq_ok hrel).2]
    rcases hcases with ⟨hres, rfl, hl₃⟩ | ⟨key, rfl, himport, hl₅, hkey⟩
    · exact .inl ⟨hres, rfl, by simp [hl₃, hl]⟩
    obtain ⟨hl₃, -⟩ := publicKeyOfKey_cases (by simp [hl₅]) hkey
    refine .inr ⟨key, rfl, himport, ?_⟩
    simp [hl₃, hl₅, hl, Multiset.erase_add_right_pos]

theorem pubPrivKeyfile_cases_keyFile :
    ∃ e out w', pubPrivKeyfile "key.pem" none keyFilePlatform World.initial = .ok ((e, out), w') ∧
      ((keyFilePlatform.readFile "key.pem").bind bytesRead = none ∧ out = none ∧
          w'.ledger = World.initial.ledger ∨
        ∃ bytes data w₀ res w₁, (keyFilePlatform.readFile "key.pem").bind bytesRead = some bytes ∧
          createDataFromFile "key.pem" keyFilePlatform World.initial = .ok (some ⟨data, bytes⟩, w₀) ∧
          keyNewFromData ⟨w₀.fresh, bytes⟩ .privateKey none none keyFilePlatform
            { w₀ with ledger := w₀.fresh ::ₘ w₀.ledger, fresh := w₀.fresh + 1 } = .ok (res, w₁) ∧
          (res.2 = none ∧ out = none ∧ w'.ledger = World.initial.ledger ∨
            ∃ key : Ref Unit, res = (0, some key) ∧
              keyFilePlatform.itemImport ⟨bytes, none, .privateKey, importPassphrase none⟩ =
                .ok [.secKey key.val] ∧
              w'.ledger = heldPublicKey out + held (branchRawKey keyFilePlatform key.val w₁) +
                World.initial.ledger)) := by
  -- the file is read on its own first: in one piece the run's terms grow too large to check quickly
  have hfile : createDataFromFile "key.pem" keyFilePlatform World.initial =
      .ok (some ⟨3, [0x30]⟩, ⟨{3}, 4, 0, []⟩) := rfl
  obtain ⟨e, out, w', h⟩ : ∃ e out w', pubPrivKeyfile "key.pem" none keyFilePlatform World.initial =
      .ok ((e, out), w') := by
    simp only [pubPrivKeyfile, SecM.bind_apply, hfile]
    exact ⟨_, _, _, rfl⟩
  exact ⟨e, out, w', h, pubPrivKeyfile_cases h⟩

end Extraction

end Libssh2
