import Libssh2.Derive.Conversion
import Libssh2.PublicKey
import Libssh2.PublicKey.Wire

namespace Libssh2

open Asn1

section Fields

variable {K R : Type} {P : Platform K} {w : World}

theorem mapM_cfDataCreate (fs : List Bytes) (w : World) :
    ∃ copies : List (Ref Bytes), ∃ w', fs.mapM cfDataCreate P w = .ok (copies, w') ∧
      copies.map (·.val) = fs ∧ w'.ledger = (copies.map (·.id) : Multiset Nat) + w.ledger ∧
      w'.calls = w.calls := by
  induction fs generalizing w with
  | nil => exact ⟨[], w, rfl, rfl, by simp, rfl⟩
  | cons f fs ih =>
    obtain ⟨copies, w', h, hv, hl, hc⟩ :=
      ih { w with ledger := w.fresh ::ₘ w.ledger, fresh := w.fresh + 1 }
    refine ⟨⟨w.fresh, f⟩ :: copies, w', ?_, by simp [hv], by simp [hl, ← Multiset.cons_coe], hc⟩
    rw [List.mapM_cons]
    simp only [cfDataCreate, acquire_apply, SecM.bind_apply, h, SecM.pure_apply]

theorem copyPublicFields_of_decode (hP : P.Reliable) {layout : Layout R} (fields : R → List Bytes)
    {raw : CssmKey} {r : R} (hdec : layout.decode raw.keyData = some r)
    (captured : List (Option (Ref Bytes))) (w : World) :
    ∃ copies : List (Ref Bytes), ∃ w', copyPublicFields layout fields raw captured P w =
        .ok (copies.map some, w') ∧ copies.map (·.val) = fields r ∧
      w'.ledger = (copies.map (·.id) : Multiset Nat) + w.ledger := by
  obtain ⟨copies, w', hcopies, hv, hl, -⟩ := mapM_cfDataCreate (P := P) (fields r)
    { w with ledger := w.fresh ::ₘ w.ledger, fresh := w.fresh + 1, calls := w.calls + 2 }
  refine ⟨copies, { w' with ledger := w'.ledger.erase w.fresh }, ?_, hv, ?_⟩
  · simp only [List.mapM] at hcopies
    simp [copyPublicFields, secAsn1CoderCreate_of_reliable hP, secAsn1Decode_of_reliable hP, hdec,
      hcopies, secAsn1CoderRelease, hl]
  · simp [hl, Multiset.erase_add_right_pos _ (Multiset.mem_cons_self w.fresh w.ledger)]

theorem releaseAll_of_le (copies : List (Ref Bytes))
    (h : (copies.map (·.id) : Multiset Nat) ≤ w.ledger) :
    releaseAll (K := K) copies P w =
      .ok ((), { w with ledger := w.ledger - (copies.map (·.id) : Multiset Nat) }) := by
  induction copies generalizing w with
  | nil => simp [releaseAll]
  | cons c cs ih =>
    rw [List.map_cons, ← Multiset.cons_coe] at h
    have hmem : c.id ∈ w.ledger := Multiset.mem_of_le h (Multiset.mem_cons_self _ _)
    have hle : (cs.map (·.id) : Multiset Nat) ≤ w.ledger.erase c.id := by
      simpa using Multiset.erase_le_erase c.id h
    simp [releaseAll, cfRelease, hmem, ih (w := { w with ledger := w.ledger.erase c.id }) hle,
      ← Multiset.cons_coe, Multiset.sub_cons]

theorem mapM_id_map_some (copies : List (Ref Bytes)) : (copies.map some).mapM id = some copies := by
  induction copies with
  | nil => rfl
  | cons c cs ih =>
    rw [List.map_cons, List.mapM_cons, ih]
    rfl

-- The block appends the mpint of a positive integer given as its minimal bytes.
theorem appendBigEndianInteger_natToBytes (pubData : Ref Bytes) {data : Ref Bytes} {v : Nat}
    (hv : 0 < v) (hdata : data.val = natToBytes v) :
    appendBigEndianInteger (K := K) pubData data P w =
      .ok (cfDataAppendBytes pubData (mpint v), w) := by
  obtain ⟨b, bs, hb, hbs⟩ := natToBytes_cons hv
  rw [hbs] at hdata
  have htwos : twosComplementBytes v = if b &&& 0x80 = 0x80 then 0 :: b :: bs else b :: bs := by
    simp [twosComplementBytes, hbs]
  by_cases ht : b &&& 0x80 = 0x80 <;>
    simp [appendBigEndianInteger, hdata, ht, mpint, hv.ne', sshString, htwos, cfDataAppendBytes]

theorem foldlM_appendBigEndianInteger (copies : List (Ref Bytes)) (pubData : Ref Bytes)
    (hcopies : ∀ c ∈ copies, 0 < bytesToNat c.val ∧ c.val = natToBytes (bytesToNat c.val)) :
    copies.foldlM appendBigEndianInteger pubData P w =
      .ok (cfDataAppendBytes pubData (copies.flatMap fun c => mpint (bytesToNat c.val)), w) := by
  induction copies generalizing pubData with
  | nil => simp [cfDataAppendBytes]
  | cons c cs ih =>
    obtain ⟨hpos, hc⟩ := hcopies c (by simp)
    simp [appendBigEndianInteger_natToBytes _ hpos hc, ih _ (fun c hc => hcopies c (by simp [hc])),
      cfDataAppendBytes]

end Fields

section Branch

variable {K R : Type} {P : Platform K} {w : World}

-- Once the public fields are copied, the branch frames them into the blob, releases the copies
-- and the key, and hands back the method name and the blob.
theorem publicKeyBranch_of_convert (key : Ref K) {format : BlobFormat} {layout : Layout R}
    {fields : R → List Bytes} {count : Nat} {copies : List (Ref Bytes)} {w₁ : World}
    {L : Multiset Nat}
    (hconv : convertPrivateKeyToRawKey key format (copyPublicFields layout fields)
      (List.replicate count none) P w = .ok (copies.map some, w₁))
    (hledger : w₁.ledger = (copies.map (·.id) : Multiset Nat) + L) (hkey : key.id ∈ L)
    (hcopies : ∀ f ∈ copies.map (·.val), 0 < bytesToNat f ∧ f = natToBytes (bytesToNat f))
    (methodName : String) :
    publicKeyBranch key format layout fields count methodName P w =
      .ok ((0, some ⟨⟨w₁.fresh, asciiBytes methodName⟩, ⟨w₁.fresh + 2, sshString (asciiBytes methodName) ++
          copies.flatMap fun c => mpint (bytesToNat c.val)⟩⟩),
        { w₁ with ledger := (w₁.fresh + 2) ::ₘ w₁.fresh ::ₘ L.erase key.id, fresh := w₁.fresh + 3 }) := by
  have hheld : (w₁.fresh + 2) ::ₘ w₁.fresh ::ₘ w₁.ledger =
      (copies.map (·.id) : Multiset Nat) + (w₁.fresh + 2) ::ₘ w₁.fresh ::ₘ L := by
    simp [hledger, Multiset.add_cons]
  have hrelease : releaseAll copies P
      { w₁ with ledger := (w₁.fresh + 2) ::ₘ w₁.fresh ::ₘ w₁.ledger, fresh := w₁.fresh + 3 } =
      .ok ((), { w₁ with ledger := (w₁.fresh + 2) ::ₘ w₁.fresh ::ₘ L, fresh := w₁.fresh + 3 }) := by
    rw [releaseAll_of_le copies (by rw [hheld]; exact Multiset.le_add_right _ _), hheld,
      add_tsub_cancel_left]
  simp only [publicKeyBranch, SecM.bind_apply, hconv]
  rw [mapM_id_map_some]
  simp [alloc, cfDataCreateMutable, cfRelease, sshString, cfDataAppendBytes, add_assoc, hkey, hrelease,
    foldlM_appendBigEndianInteger _ _ fun c hc => hcopies c.val (List.mem_map_of_mem _ hc)]

-- A branch whose key unwraps to a raw key the layout decodes: it returns 0, the method name and
-- the blob of the method name followed by the mpint of each public field.
theorem publicKeyBranch_of_decode (hP : P.Reliable) (key : Ref K) (hkey : key.id ∈ w.ledger)
    {format : BlobFormat} {raw : CssmKey} (hu : UnwrapsTo P key.val format raw) {layout : Layout R}
    (fields : R → List Bytes) {r : R} (hdec : layout.decode raw.keyData = some r) (count : Nat)
    (hpos : ∀ f ∈ fields r, 0 < bytesToNat f ∧ f = natToBytes (bytesToNat f)) (methodName : String) :
    ∃ out w', publicKeyBranch key format layout fields count methodName P w = .ok ((0, some out), w') ∧
      out.method.val = asciiBytes methodName ∧
      out.pubkeydata.val = sshString (asciiBytes methodName) ++
        (fields r).flatMap fun f => mpint (bytesToNat f) := by
  obtain ⟨c, w₁, hconv, ⟨copies, rfl, hv⟩, hle⟩ := convertPrivateKeyToRawKey_of_unwrapsTo (w := w)
    (Q := fun c => ∃ copies : List (Ref Bytes), c = copies.map some ∧ copies.map (·.val) = fields r)
    hP hu (copyPublicFields layout fields) (List.replicate count none)
    (fun c => ((c.filterMap id).map (·.id) : Multiset Nat))
    (fun w => by
      obtain ⟨copies, w', h, hv, hl⟩ := copyPublicFields_of_decode hP fields hdec (List.replicate count none) w
      exact ⟨copies.map some, w', h, ⟨copies, rfl, hv⟩, by simpa [List.filterMap_map] using hl⟩)
  simp only [List.filterMap_map, Function.comp_def, id, List.filterMap_some] at hle
  -- what the conversion holds besides the copies, the key among it
  have hsplit : w₁.ledger = (copies.map (·.id) : Multiset Nat) +
      (w₁.ledger - (copies.map (·.id) : Multiset Nat)) :=
    (add_tsub_cancel_of_le ((Multiset.le_add_right _ _).trans hle)).symm
  have hkey' : key.id ∈ w₁.ledger - (copies.map (·.id) : Multiset Nat) :=
    Multiset.mem_of_le (le_tsub_of_add_le_left hle) hkey
  refine ⟨_, _, publicKeyBranch_of_convert key hconv hsplit hkey' (hv ▸ hpos) methodName, rfl, ?_⟩
  rw [← hv]
  simp [List.flatMap_map]

-- The import of the key data's CFData, the first object the run makes, answered with one key: the
-- switch gets the key, from the world the import left with that CFData released.
theorem pubPrivKeyfilememory_import_run (privatekeydata : Bytes) (passphrase : Option Bytes)
    {key : K} (himport : P.itemImport ⟨privatekeydata, none, .privateKey, importPassphrase passphrase⟩ =
      .ok [.secKey key]) (w : World) :
    ∃ id w₁, keyNewFromData ⟨w.fresh, privatekeydata⟩ .privateKey none passphrase P
        { w with ledger := w.fresh ::ₘ w.ledger, fresh := w.fresh + 1 } = .ok ((0, some ⟨id, key⟩), w₁) ∧
      w₁.ledger.erase w.fresh = id ::ₘ w.ledger ∧
      pubPrivKeyfilememory privatekeydata passphrase P w =
        publicKeyOfKey ⟨id, key⟩ P { w₁ with ledger := w₁.ledger.erase w.fresh } := by
  obtain ⟨fresh, himp⟩ := importKeyData_without_filename (P := P)
    (w := { w with ledger := w.fresh ::ₘ w.ledger, fresh := w.fresh + 1 }) ⟨w.fresh, privatekeydata⟩
    .privateKey passphrase
  obtain ⟨w', hrun, hledger⟩ := keyNewFromData_of_secItemImport himp (by simp [himport])
  simp only [himport, importOutcome, held_some] at hrun hledger
  have hmem : w.fresh ∈ w'.ledger := by simp [hledger]
  refine ⟨fresh + 1, w', hrun, by simp [hledger], ?_⟩
  simp [pubPrivKeyfilememory, cfDataCreate, hrun, cfRelease, hmem]

theorem pubPrivKeyfilememory_of_import (privatekeydata : Bytes)
    (passphrase : Option Bytes) {key : K}
    (himport : P.itemImport ⟨privatekeydata, none, .privateKey, importPassphrase passphrase⟩ =
      .ok [.secKey key]) (w : World) :
    ∃ id w₁, w₁.ledger = id ::ₘ w.ledger ∧
      pubPrivKeyfilememory privatekeydata passphrase P w = publicKeyOfKey ⟨id, key⟩ P w₁ := by
  obtain ⟨id, w₁, -, hl, hrun⟩ := pubPrivKeyfilememory_import_run privatekeydata passphrase himport w
  exact ⟨id, _, hl, hrun⟩

end Branch

section RawKey

variable {K : Type} {P : Platform K}

-- A private key in the raw form the CSP unwraps it to for this file: PKCS#1 for RSA, OpenSSL's
-- for DSA.
inductive RawPrivateKey
  | rsa (k : Pkcs1RsaPrivateKey)
  | dsa (k : OpensslDsaPrivateKey)

def RawPrivateKey.algorithm : RawPrivateKey → Algorithm
  | .rsa _ => .rsa
  | .dsa _ => .dsa

def RawPrivateKey.format : RawPrivateKey → BlobFormat
  | .rsa _ => .pkcs1
  | .dsa _ => .openssl

def RawPrivateKey.integers : RawPrivateKey → List Bytes
  | .rsa k => k.integers
  | .dsa k => k.integers

-- The fields the blob is made of, in the order the code copies them.
def RawPrivateKey.publicFields : RawPrivateKey → List Bytes
  | .rsa k => [k.publicExponent, k.modulus]
  | .dsa k => [k.params.p, k.params.q, k.params.g, k.pub]

def RawPrivateKey.publicKey : RawPrivateKey → SshPublicKey
  | .rsa k => .rsa (bytesToNat k.publicExponent) (bytesToNat k.modulus)
  | .dsa k => .dss (bytesToNat k.params.p) (bytesToNat k.params.q) (bytesToNat k.params.g)
    (bytesToNat k.pub)

-- The decoder hands a positive field back as the minimal bytes of its value.
theorem stripLeadingZeros_minimal {f : Bytes} (h : 0 < bytesToNat f) :
    0 < bytesToNat (stripLeadingZeros f) ∧
      stripLeadingZeros f = natToBytes (bytesToNat (stripLeadingZeros f)) := by
  rw [stripLeadingZeros_eq h, bytesToNat_natToBytes]
  exact ⟨h, rfl⟩

-- The method name and the mpints of the decoded public fields are the key's public blob.
theorem publicFields_blob (raw : RawPrivateKey) (hpos : ∀ f ∈ raw.publicFields, 0 < bytesToNat f) :
    sshString (asciiBytes raw.publicKey.method) ++
        (raw.publicFields.map stripLeadingZeros).flatMap (fun f => mpint (bytesToNat f)) =
      raw.publicKey.blob := by
  have hval : ∀ f ∈ raw.publicFields, bytesToNat (stripLeadingZeros f) = bytesToNat f := fun f hf => by
    rw [stripLeadingZeros_eq (hpos f hf), bytesToNat_natToBytes]
  cases raw <;>
    simp_all [RawPrivateKey.publicFields, RawPrivateKey.publicKey, SshPublicKey.blob,
      SshPublicKey.integers, SshPublicKey.method]

theorem publicFields_minimal (raw : RawPrivateKey) (hpos : ∀ f ∈ raw.publicFields, 0 < bytesToNat f) :
    ∀ f ∈ raw.publicFields.map stripLeadingZeros, 0 < bytesToNat f ∧ f = natToBytes (bytesToNat f) := by
  simp only [List.mem_map]
  rintro _ ⟨f, hf, rfl⟩
  exact stripLeadingZeros_minimal (hpos f hf)

-- The branch _libssh2_pub_priv_keyfilememory takes for the key's algorithm: its layout decodes the
-- raw key, and the fields it copies are the key's public fields as the decoder stores them.
theorem publicKeyOfKey_branch (key : Ref K) {cssmKey : CssmKey} (hcssm : P.cssmKey key.val = some cssmKey)
    (raw : RawPrivateKey) (halg : cssmKey.keyHeader.algorithmId = raw.algorithm)
    (hsize : ∀ f ∈ raw.integers, f.length < 2 ^ 64) :
    ∃ (R : Type) (layout : Layout R) (fields : R → List Bytes) (count : Nat) (r : R),
      layout.decode (integerSequenceDer raw.integers) = some r ∧
      fields r = raw.publicFields.map stripLeadingZeros ∧
      ∀ w, publicKeyOfKey key P w =
        publicKeyBranch key raw.format layout fields count raw.publicKey.method P w := by
  cases raw with
  | rsa k =>
    refine ⟨_, _, fun r : Pkcs1RsaPrivateKey => [r.publicExponent, r.modulus], 2, _,
      pkcs1RsaPrivateKeyLayout_decode k hsize, rfl, fun w => ?_⟩
    simp [publicKeyOfKey, secKeyGetCSSMKey, hcssm, halg, RawPrivateKey.algorithm, RawPrivateKey.format,
      RawPrivateKey.publicKey, SshPublicKey.method]
  | dsa k =>
    refine ⟨_, _, fun r : OpensslDsaPrivateKey => [r.params.p, r.params.q, r.params.g, r.pub], 4, _,
      opensslDsaPrivateKeyLayout_decode k hsize, rfl, fun w => ?_⟩
    simp [publicKeyOfKey, secKeyGetCSSMKey, hcssm, halg, RawPrivateKey.algorithm, RawPrivateKey.format,
      RawPrivateKey.publicKey, SshPublicKey.method]

theorem pubPrivKeyfilememory_blob (hP : P.Reliable) (privatekeydata : Bytes)
    (passphrase : Option Bytes) {key : K}
    (himport : P.itemImport ⟨privatekeydata, none, .privateKey, importPassphrase passphrase⟩ =
      .ok [.secKey key])
    {cssmKey : CssmKey} (hcssm : P.cssmKey key = some cssmKey) (raw : RawPrivateKey)
    (halg : cssmKey.keyHeader.algorithmId = raw.algorithm) {header : KeyHeader}
    (hu : UnwrapsTo P key raw.format ⟨header, integerSequenceDer raw.integers⟩)
    (hsize : ∀ f ∈ raw.integers, f.length < 2 ^ 64)
    (hpos : ∀ f ∈ raw.publicFields, 0 < bytesToNat f) (w : World) :
    ∃ out w', pubPrivKeyfilememory privatekeydata passphrase P w = .ok ((0, some out), w') ∧
      out.method.val = asciiBytes raw.publicKey.method ∧ out.pubkeydata.val = raw.publicKey.blob ∧
      ((∀ v ∈ raw.publicKey.integers, (twosComplementBytes v).length < 2 ^ 32) →
        readPublicKeyBlob out.pubkeydata.val = some (out.method.val, raw.publicKey.integers)) := by
  obtain ⟨id, w₁, hledger, hrun⟩ := pubPrivKeyfilememory_of_import (P := P) privatekeydata passphrase himport w
  obtain ⟨R, layout, fields, count, r, hdec, hfields, hbranch⟩ :=
    publicKeyOfKey_branch ⟨id, key⟩ hcssm raw halg hsize
  obtain ⟨out, w', hout, hm, hb⟩ := publicKeyBranch_of_decode (w := w₁) hP ⟨id, key⟩
    (hledger ▸ Multiset.mem_cons_self _ _) hu fields hdec count
    (hfields ▸ publicFields_minimal raw hpos) raw.publicKey.method
  rw [hfields, publicFields_blob raw hpos] at hb
  refine ⟨out, w', hrun.trans ((hbranch w₁).trans hout), hm, hb, fun h => ?_⟩
  rw [hb, hm]
  exact readPublicKeyBlob_blob _ h

theorem pubPrivKeyfilememory_blob_derPlatform :
    (derPlatform .rsa .pkcs1).Reliable ∧
      (derPlatform .rsa .pkcs1).itemImport ⟨integerSequenceDer
          (RawPrivateKey.rsa ⟨[0], [0xC5], [3], [0x29], [11], [19], [9], [11], [10]⟩).integers, none,
          .privateKey, importPassphrase none⟩ =
        .ok [.secKey (.privateKey, integerSequenceDer
          (RawPrivateKey.rsa ⟨[0], [0xC5], [3], [0x29], [11], [19], [9], [11], [10]⟩).integers)] ∧
      (derPlatform .rsa .pkcs1).cssmKey (.privateKey, integerSequenceDer
          (RawPrivateKey.rsa ⟨[0], [0xC5], [3], [0x29], [11], [19], [9], [11], [10]⟩).integers) =
        some ⟨⟨.raw, .pkcs1, .rsa, .privateKey⟩, integerSequenceDer
          (RawPrivateKey.rsa ⟨[0], [0xC5], [3], [0x29], [11], [19], [9], [11], [10]⟩).integers⟩ ∧
      Algorithm.rsa = (RawPrivateKey.rsa ⟨[0], [0xC5], [3], [0x29], [11], [19], [9], [11], [10]⟩).algorithm ∧
      UnwrapsTo (derPlatform .rsa .pkcs1) (.privateKey, integerSequenceDer
          (RawPrivateKey.rsa ⟨[0], [0xC5], [3], [0x29], [11], [19], [9], [11], [10]⟩).integers)
        (RawPrivateKey.rsa ⟨[0], [0xC5], [3], [0x29], [11], [19], [9], [11], [10]⟩).format
        ⟨⟨.raw, .pkcs1, .rsa, .privateKey⟩, integerSequenceDer
          (RawPrivateKey.rsa ⟨[0], [0xC5], [3], [0x29], [11], [19], [9], [11], [10]⟩).integers⟩ ∧
      (∀ f ∈ (RawPrivateKey.rsa ⟨[0], [0xC5], [3], [0x29], [11], [19], [9], [11], [10]⟩).integers,
        f.length < 2 ^ 64) ∧
      (∀ f ∈ (RawPrivateKey.rsa ⟨[0], [0xC5], [3], [0x29], [11], [19], [9], [11], [10]⟩).publicFields,
        0 < bytesToNat f) ∧
      ∃ out w', pubPrivKeyfilememory (integerSequenceDer
          (RawPrivateKey.rsa ⟨[0], [0xC5], [3], [0x29], [11], [19], [9], [11], [10]⟩).integers) none
          (derPlatform .rsa .pkcs1) World.initial = .ok ((0, some out), w') ∧
        out.method.val = asciiBytes (RawPrivateKey.rsa
          ⟨[0], [0xC5], [3], [0x29], [11], [19], [9], [11], [10]⟩).publicKey.method ∧
        out.pubkeydata.val = (RawPrivateKey.rsa
          ⟨[0], [0xC5], [3], [0x29], [11], [19], [9], [11], [10]⟩).publicKey.blob ∧
        ((∀ v ∈ (RawPrivateKey.rsa
            ⟨[0], [0xC5], [3], [0x29], [11], [19], [9], [11], [10]⟩).publicKey.integers,
            (twosComplementBytes v).length < 2 ^ 32) →
          readPublicKeyBlob out.pubkeydata.val = some (out.method.val, (RawPrivateKey.rsa
            ⟨[0], [0xC5], [3], [0x29], [11], [19], [9], [11], [10]⟩).publicKey.integers)) :=
  ⟨fun _ => rfl, rfl, rfl, rfl, ⟨_, rfl, .inl ⟨rfl, rfl⟩⟩, by decide, by decide,
    pubPrivKeyfilememory_blob (fun _ => rfl) _ none rfl rfl _ rfl ⟨_, rfl, .inl ⟨rfl, rfl⟩⟩
      (by decide) (by decide) World.initial⟩

-- For a key the CSP holds in raw form, the run ends holding exactly the method name and the blob it
-- hands back: everything else it made is released.
theorem pubPrivKeyfilememory_raw_ledger (hP : P.Reliable) (privatekeydata : Bytes)
    (passphrase : Option Bytes) {key : K}
    (himport : P.itemImport ⟨privatekeydata, none, .privateKey, importPassphrase passphrase⟩ =
      .ok [.secKey key])
    (raw : RawPrivateKey) {header : KeyHeader}
    (hcssm : P.cssmKey key = some ⟨header, integerSequenceDer raw.integers⟩)
    (hraw : header.blobType = .raw) (halg : header.algorithmId = raw.algorithm)
    (hsize : ∀ f ∈ raw.integers, f.length < 2 ^ 64)
    (hpos : ∀ f ∈ raw.publicFields, 0 < bytesToNat f) (w : World) :
    ∃ out w', pubPrivKeyfilememory privatekeydata passphrase P w = .ok ((0, some out), w') ∧
      w'.ledger = out.pubkeydata.id ::ₘ out.method.id ::ₘ w.ledger := by
  obtain ⟨id, w₁, hledger, hrun⟩ := pubPrivKeyfilememory_of_import (P := P) privatekeydata passphrase himport w
  obtain ⟨R, layout, fields, count, r, hdec, hfields, hbranch⟩ :=
    publicKeyOfKey_branch ⟨id, key⟩ hcssm raw halg hsize
  obtain ⟨copies, w₂, hcopy, hv, hl⟩ := copyPublicFields_of_decode hP fields
    (show layout.decode (CssmKey.keyData ⟨header, _⟩) = some r from hdec) (List.replicate count none) w₁
  have hconv : convertPrivateKeyToRawKey ⟨id, key⟩ raw.format (copyPublicFields layout fields)
      (List.replicate count none) P w₁ = .ok (copies.map some, w₂) :=
    (convertPrivateKeyToRawKey_of_raw hcssm hraw _ _).trans hcopy
  refine ⟨_, _, hrun.trans ((hbranch w₁).trans (publicKeyBranch_of_convert ⟨id, key⟩ hconv hl
    (by simp [hledger]) (hv ▸ hfields ▸ publicFields_minimal raw hpos) _)), ?_⟩
  simp [hledger]

-- The RSA key n = 209 = 11 * 19, e = 7, d = 13.
def smallRsaKey : RawPrivateKey := .rsa ⟨[0], [0xD1], [7], [13], [11], [19], [3], [13], [7]⟩

theorem pubPrivKeyfilememory_raw_ledger_derPlatform :
    (derPlatform .rsa .pkcs1).Reliable ∧
      (derPlatform .rsa .pkcs1).itemImport ⟨integerSequenceDer smallRsaKey.integers, none, .privateKey,
          importPassphrase none⟩ = .ok [.secKey (.privateKey, integerSequenceDer smallRsaKey.integers)] ∧
      (derPlatform .rsa .pkcs1).cssmKey (.privateKey, integerSequenceDer smallRsaKey.integers) =
        some ⟨⟨.raw, .pkcs1, .rsa, .privateKey⟩, integerSequenceDer smallRsaKey.integers⟩ ∧
      KeyHeader.blobType ⟨.raw, .pkcs1, .rsa, .privateKey⟩ = .raw ∧
      KeyHeader.algorithmId ⟨.raw, .pkcs1, .rsa, .privateKey⟩ = smallRsaKey.algorithm ∧
      (∀ f ∈ smallRsaKey.integers, f.length < 2 ^ 64) ∧
      (∀ f ∈ smallRsaKey.publicFields, 0 < bytesToNat f) ∧
      ∃ out w', pubPrivKeyfilememory (integerSequenceDer smallRsaKey.integers) none
          (derPlatform .rsa .pkcs1) World.initial = .ok ((0, some out), w') ∧
        w'.ledger = out.pubkeydata.id ::ₘ out.method.id ::ₘ World.initial.ledger :=
  ⟨fun _ => rfl, rfl, rfl, rfl, rfl, by decide, by decide,
    pubPrivKeyfilememory_raw_ledger (fun _ => rfl) _ none rfl smallRsaKey rfl rfl rfl (by decide)
      (by decide) World.initial⟩

-- For a key the CSP holds by reference, the raw key CSSM_WrapKey made for it is never freed: the run
-- ends holding, besides the method name and the blob, the second object it made after the import,
-- right after the CSSM context.
theorem pubPrivKeyfilememory_reference_ledger (hP : P.Reliable) (privatekeydata : Bytes)
    (passphrase : Option Bytes) {key : K}
    (himport : P.itemImport ⟨privatekeydata, none, .privateKey, importPassphrase passphrase⟩ =
      .ok [.secKey key])
    {cssmKey : CssmKey} (hcssm : P.cssmKey key = some cssmKey)
    (href : cssmKey.keyHeader.blobType = .reference) (raw : RawPrivateKey)
    (halg : cssmKey.keyHeader.algorithmId = raw.algorithm) {header : KeyHeader}
    (hwrap : P.wrapKey cssmKey raw.format = some ⟨header, integerSequenceDer raw.integers⟩)
    (hsize : ∀ f ∈ raw.integers, f.length < 2 ^ 64)
    (hpos : ∀ f ∈ raw.publicFields, 0 < bytesToNat f) (w : World) :
    ∃ imported w₁ out w', keyNewFromData ⟨w.fresh, privatekeydata⟩ .privateKey none passphrase P
        { w with ledger := w.fresh ::ₘ w.ledger, fresh := w.fresh + 1 } =
          .ok ((0, some imported), w₁) ∧
      pubPrivKeyfilememory privatekeydata passphrase P w = .ok ((0, some out), w') ∧
      w'.ledger = out.pubkeydata.id ::ₘ out.method.id ::ₘ (w₁.fresh + 1) ::ₘ w.ledger := by
  obtain ⟨id, w₁, himp, hledger, hrun⟩ :=
    pubPrivKeyfilememory_import_run (P := P) privatekeydata passphrase himport w
  generalize hw₂ : { w₁ with ledger := w₁.ledger.erase w.fresh } = w₂ at hrun
  obtain ⟨hledger₂, hfresh⟩ : w₂.ledger = id ::ₘ w.ledger ∧ w₂.fresh = w₁.fresh := by
    rw [← hw₂]
    exact ⟨hledger, rfl⟩
  obtain ⟨R, layout, fields, count, r, hdec, hfields, hbranch⟩ :=
    publicKeyOfKey_branch ⟨id, key⟩ hcssm raw halg hsize
  obtain ⟨copies, w₃, hcopy, hv, hl⟩ := copyPublicFields_of_decode hP fields
    (show layout.decode (CssmKey.keyData ⟨header, _⟩) = some r from hdec) (List.replicate count none)
    { w₂ with
      ledger := (w₂.fresh + 1) ::ₘ w₂.fresh ::ₘ w₂.ledger, fresh := w₂.fresh + 2,
      calls := w₂.calls + 3 }
  have hconv : convertPrivateKeyToRawKey ⟨id, key⟩ raw.format (copyPublicFields layout fields)
      (List.replicate count none) P w₂ = .ok (copies.map some, _) :=
    convertPrivateKeyToRawKey_of_reference hP hcssm href hwrap _ _ hcopy (by simp [hl])
  -- the context is deleted; the wrapped key stays beside the imported one
  have hheld : w₃.ledger.erase w₂.fresh =
      (copies.map (·.id) : Multiset Nat) + (w₂.fresh + 1) ::ₘ id ::ₘ w.ledger := by
    rw [hl, Multiset.erase_add_right_pos _ (by simp), Multiset.cons_swap, Multiset.erase_cons_head,
      hledger₂]
  refine ⟨_, w₁, _, _, himp, hrun.trans ((hbranch w₂).trans (publicKeyBranch_of_convert ⟨id, key⟩
    hconv hheld (by simp) (hv ▸ hfields ▸ publicFields_minimal raw hpos) _)), ?_⟩
  simp [Multiset.cons_swap (w₂.fresh + 1) id, hfresh]

-- A keychain that holds every imported key by reference; CSSM_WrapKey gives back the key's DER in the
-- format asked for.
def referencePlatform (algorithm : Algorithm) : Platform (ItemType × Bytes) :=
  { derPlatform algorithm .none with
    cssmKey := fun key => some ⟨⟨.reference, .none, algorithm, .privateKey⟩, key.2⟩
    wrapKey := fun k format => some ⟨{ k.keyHeader with blobType := .raw, format := format }, k.keyData⟩ }

theorem pubPrivKeyfilememory_reference_ledger_referencePlatform :
    (referencePlatform .rsa).Reliable ∧
      (referencePlatform .rsa).itemImport ⟨integerSequenceDer smallRsaKey.integers, none, .privateKey,
          importPassphrase none⟩ = .ok [.secKey (.privateKey, integerSequenceDer smallRsaKey.integers)] ∧
      (referencePlatform .rsa).cssmKey (.privateKey, integerSequenceDer smallRsaKey.integers) =
        some ⟨⟨.reference, .none, .rsa, .privateKey⟩, integerSequenceDer smallRsaKey.integers⟩ ∧
      KeyHeader.blobType ⟨.reference, .none, .rsa, .privateKey⟩ = .reference ∧
      KeyHeader.algorithmId ⟨.reference, .none, .rsa, .privateKey⟩ = smallRsaKey.algorithm ∧
      (referencePlatform .rsa).wrapKey
          ⟨⟨.reference, .none, .rsa, .privateKey⟩, integerSequenceDer smallRsaKey.integers⟩
          smallRsaKey.format =
        some ⟨⟨.raw, .pkcs1, .rsa, .privateKey⟩, integerSequenceDer smallRsaKey.integers⟩ ∧
      (∀ f ∈ smallRsaKey.integers, f.length < 2 ^ 64) ∧
      (∀ f ∈ smallRsaKey.publicFields, 0 < bytesToNat f) ∧
      ∃ imported w₁ out w', keyNewFromData ⟨0, integerSequenceDer smallRsaKey.integers⟩ .privateKey none
          none (referencePlatform .rsa) ⟨{0}, 1, 0, []⟩ = .ok ((0, some imported), w₁) ∧
        pubPrivKeyfilememory (integerSequenceDer smallRsaKey.integers) none
          (referencePlatform .rsa) World.initial = .ok ((0, some out), w') ∧
        w'.ledger = out.pubkeydata.id ::ₘ out.method.id ::ₘ (w₁.fresh + 1) ::ₘ World.initial.ledger :=
  ⟨fun _ => rfl, rfl, rfl, rfl, rfl, rfl, by decide, by decide,
    pubPrivKeyfilememory_reference_ledger (fun _ => rfl) _ none rfl rfl rfl smallRsaKey rfl rfl
      (by decide) (by decide) World.initial⟩

end RawKey

section PathHint

-- An importer that, as the source's comment says of impExpPkcs8Import, rejects the unencrypted
-- PKCS#8 DER [0x30] and accepts it wrapped in PEM; its base64 encoder turns [0x30] into "MA==".
def pkcs8DerPlatform : Platform Unit where
  itemImport request :=
    if request.importedData = privateKeyPemHeader ++ asciiBytes "MA==" ++ privateKeyPemFooter then
      .ok [.secKey ()]
    else .error (-25257)
  cssmKey _ := none
  wrapKey _ _ := none
  execute _ := some (.data (asciiBytes "MA=="))
  readFile _ := some [some [0x30], some []]
  fails _ := false
  uninitializedKey := none
  cryptorCreate _ := false
  cryptorUpdate _ _ := none

-- Loading "key.p8" hands the importer the PEM wrapping under "key.pem" and succeeds; extracting
-- the public key from the same file hands it the DER without a path, which it rejects.
theorem pubPrivKeyfile_p8_without_path_hint :
    (rsaNewPrivate "key.p8" none pkcs8DerPlatform World.initial).map (fun r => (r.1.1, r.2.imports)) =
        .ok (0, [⟨privateKeyPemHeader ++ asciiBytes "MA==" ++ privateKeyPemFooter, some "key.pem",
          .privateKey, none⟩]) ∧
      (pubPrivKeyfile "key.p8" none pkcs8DerPlatform World.initial).map (fun r => (r.1.1, r.2.imports)) =
        .ok (1, [⟨[0x30], none, .privateKey, none⟩]) := by
  -- the run is evaluated a call at a time: in one piece its terms grow too large to check quickly
  have hfile : createDataFromFile "key.p8" pkcs8DerPlatform World.initial =
      .ok (some ⟨3, [0x30]⟩, ⟨{3}, 4, 0, []⟩) := rfl
  have hload : keyNewFromData ⟨3, [0x30]⟩ .privateKey (some "key.p8") none pkcs8DerPlatform
      ⟨{3}, 4, 0, []⟩ = .ok ((0, some ⟨13, ()⟩), ⟨{13, 3}, 14, 2,
        [⟨privateKeyPemHeader ++ asciiBytes "MA==" ++ privateKeyPemFooter, some "key.pem",
          .privateKey, none⟩]⟩) := rfl
  have hextract : pubPrivKeyfilememory [0x30] none pkcs8DerPlatform ⟨{3}, 4, 0, []⟩ =
      .ok ((1, none), ⟨{3}, 6, 0, [⟨[0x30], none, .privateKey, none⟩]⟩) := rfl
  constructor <;>
    simp only [rsaNewPrivate, keyNewFromPath, pubPrivKeyfile, SecM.bind_apply, hfile, hload, hextract] <;>
    rfl

end PathHint

end Libssh2
