import Libssh2.Derive.Conversion
import Libssh2.Signature

namespace Libssh2

open Asn1

section Sign

variable {K : Type} {P : Platform K} {w : World}

-- The signature transform is created, given its three attributes and executed; its output is
-- copied into a new block and never released.
theorem keySignHash_of_execute (hP : P.Reliable) (key : Ref K) (hash : Bytes) {out : TransformOutput}
    (hexec : P.execute ⟨.sign key.val, [.inputIs .digest, .digestSha1, .input hash]⟩ = some out) :
    keySignHash key hash P w =
      .ok (some ⟨w.fresh + 3, out.bytes⟩,
        { w with
          ledger := (w.fresh + 3) ::ₘ (w.fresh + 2) ::ₘ w.ledger, fresh := w.fresh + 4,
          calls := w.calls + 4 }) := by
  simp [keySignHash, secSignTransformCreate_of_reliable hP, secTransformSetAttribute_of_reliable hP,
    cfDataCreate, secTransformExecute, hexec, cfRelease, alloc]

-- The signature handed back is the signer's output, and the run ends holding that output too:
-- SecTransformExecute's CFData is never released.
theorem rsaSha1Sign_keeps_signatureData (hP : P.Reliable) (rsa : Ref K) (hash : Bytes)
    {out : TransformOutput}
    (hexec : P.execute ⟨.sign rsa.val, [.inputIs .digest, .digestSha1, .input hash]⟩ = some out) :
    rsaSha1Sign rsa hash P w =
      .ok ((0, some ⟨w.fresh + 3, out.bytes⟩),
        { w with
          ledger := (w.fresh + 3) ::ₘ (w.fresh + 2) ::ₘ w.ledger, fresh := w.fresh + 4,
          calls := w.calls + 4 }) := by
  simp [rsaSha1Sign, keySignHash_of_execute hP rsa hash hexec]

theorem rsaSha1Sign_keeps_signatureData_answering :
    (answeringPlatform [7] (.error 0)).Reliable ∧
      (answeringPlatform [7] (.error 0)).execute
        ⟨.sign (), [.inputIs .digest, .digestSha1, .input [1]]⟩ = some (.data [7]) ∧
      rsaSha1Sign ⟨0, ()⟩ [1] (answeringPlatform [7] (.error 0)) ⟨{0}, 1, 0, []⟩ =
        .ok ((0, some ⟨4, [7]⟩), ⟨4 ::ₘ 3 ::ₘ {0}, 5, 4, []⟩) :=
  ⟨fun _ => rfl, rfl, rsaSha1Sign_keeps_signatureData (fun _ => rfl) ⟨0, ()⟩ [1]
    (show _ = some (.data [7]) from rfl)⟩

end Sign

section Dsa

variable {K : Type} {P : Platform K} {w : World}

-- The DER Dss-Sig-Value SEQUENCE { r INTEGER, s INTEGER } a DSA signer hands back.
def dssSigValueDer (r s : Nat) : Bytes :=
  encodeTlv sequenceTag
    (encodeTlv integerTag (twosComplementBytes r) ++ encodeTlv integerTag (twosComplementBytes s))

theorem dssSigValueDer_eq (r s : Nat) :
    dssSigValueDer r s = integerSequenceDer [twosComplementBytes r, twosComplementBytes s] := by
  simp [dssSigValueDer, integerSequenceDer]

-- What the decoder stores for the INTEGER v: its minimal bytes, or a single zero byte.
theorem stripLeadingZeros_twosComplementBytes (v : Nat) :
    stripLeadingZeros (twosComplementBytes v) = if v = 0 then [0] else natToBytes v := by
  split
  next h => simp [h, twosComplementBytes, natToBytes_zero, stripLeadingZeros]
  next h => simpa using stripLeadingZeros_eq (show 0 < bytesToNat (twosComplementBytes v) by simp; omega)

-- A DSA-160 integer has 20 significant bytes exactly when it is at least 2 ^ 152.
theorem natToBytes_length_eq_twenty_iff {v : Nat} (hv : v < 2 ^ 160) :
    (natToBytes v).length = 20 ↔ 2 ^ 152 ≤ v := by
  have h20 := (natToBytes_length_le_iff v 20).mpr (by omega)
  have h19 := natToBytes_length_le_iff v 19
  omega

-- What the decoder stores for such an integer is 20 bytes long exactly then.
theorem stripLeadingZeros_twosComplementBytes_length {v : Nat} (hv : v < 2 ^ 160) :
    (stripLeadingZeros (twosComplementBytes v)).length = 20 ↔ 2 ^ 152 ≤ v := by
  rw [stripLeadingZeros_twosComplementBytes]
  split_ifs with h
  · simp [h]
  · exact natToBytes_length_eq_twenty_iff hv

theorem twosComplementBytes_length_lt {v : Nat} (hv : v < 2 ^ 160) :
    (twosComplementBytes v).length < 2 ^ 64 := by
  have := (natToBytes_length_le_iff v 20).mpr (by omega)
  have := twosComplementBytes_length_le v
  omega

-- The decoded Dss-Sig-Value a signer's DER gives: the stored r and s.
theorem dsaSha1Sign_of_signature (hP : P.Reliable) (dsa : Ref K) (hash : Bytes) {r s : Nat}
    (hr : r < 2 ^ 160) (hs : s < 2 ^ 160)
    (hsig : P.execute ⟨.sign dsa.val, [.inputIs .digest, .digestSha1, .input hash]⟩ =
      some (.data (dssSigValueDer r s))) :
    ∃ w', dsaSha1Sign dsa hash P w =
      .ok (if (stripLeadingZeros (twosComplementBytes r)).length ≠ 20 ∨
            (stripLeadingZeros (twosComplementBytes s)).length ≠ 20 then (1, none)
          else (0, some ((stripLeadingZeros (twosComplementBytes r)).take 20 ++
            (stripLeadingZeros (twosComplementBytes s)).take 20)), w') := by
  have hdec := dsaSignatureLayout_decode ⟨twosComplementBytes r, twosComplementBytes s⟩
    (by
      intro f hf
      rcases List.mem_pair.mp hf with rfl | rfl
      exacts [twosComplementBytes_length_lt hr, twosComplementBytes_length_lt hs])
  refine ⟨{ w with ledger := (w.fresh + 2) ::ₘ w.ledger, fresh := w.fresh + 5, calls := w.calls + 6 }, ?_⟩
  simp only at hdec
  simp [dsaSha1Sign, keySignHash_of_execute hP dsa hash hsig, secAsn1CoderCreate_of_reliable hP,
    secAsn1Decode_of_reliable hP, TransformOutput.bytes, dssSigValueDer_eq, hdec]
  split_ifs <;> simp [secAsn1CoderRelease, free]

theorem natToFixedBytes_of_length {k v : Nat} (h : (natToBytes v).length = k) :
    natToFixedBytes k v = natToBytes v := by
  simp [natToFixedBytes, h]

-- On the signer's Dss-Sig-Value of r and s, the conversion writes be20(r) || be20(s) when both
-- have 20 significant bytes, and rejects the signature otherwise.
theorem dsaSha1Sign_of_dssSigValue (hP : P.Reliable) (dsa : Ref K) (hash : Bytes) {r s : Nat}
    (hr : r < 2 ^ 160) (hs : s < 2 ^ 160)
    (hsig : P.execute ⟨.sign dsa.val, [.inputIs .digest, .digestSha1, .input hash]⟩ =
      some (.data (dssSigValueDer r s))) :
    ∃ w', dsaSha1Sign dsa hash P w =
      .ok (if 2 ^ 152 ≤ r ∧ 2 ^ 152 ≤ s then (0, some (natToFixedBytes 20 r ++ natToFixedBytes 20 s))
        else (1, none), w') := by
  obtain ⟨w', h⟩ := dsaSha1Sign_of_signature (w := w) hP dsa hash hr hs hsig
  refine ⟨w', h.trans ?_⟩
  simp only [ne_eq, stripLeadingZeros_twosComplementBytes_length hr,
    stripLeadingZeros_twosComplementBytes_length hs]
  by_cases hrs : 2 ^ 152 ≤ r ∧ 2 ^ 152 ≤ s
  · have hlr := (natToBytes_length_eq_twenty_iff hr).mpr hrs.1
    have hls := (natToBytes_length_eq_twenty_iff hs).mpr hrs.2
    rw [if_neg (by omega), if_pos hrs, stripLeadingZeros_twosComplementBytes,
      stripLeadingZeros_twosComplementBytes, if_neg (by omega), if_neg (by omega),
      natToFixedBytes_of_length hlr, natToFixedBytes_of_length hls, List.take_of_length_le hlr.le,
      List.take_of_length_le hls.le]
  · rw [if_pos (by omega), if_neg hrs]

-- A signature whose r is 1 is rejected.
theorem dsaSha1Sign_of_dssSigValue_short_r :
    (answeringPlatform (dssSigValueDer 1 (2 ^ 152)) (.error 0)).Reliable ∧ 1 < 2 ^ 160 ∧
      2 ^ 152 < 2 ^ 160 ∧
      (answeringPlatform (dssSigValueDer 1 (2 ^ 152)) (.error 0)).execute
          ⟨.sign (), [.inputIs .digest, .digestSha1, .input [0]]⟩ =
        some (.data (dssSigValueDer 1 (2 ^ 152))) ∧
      ∃ w', dsaSha1Sign ⟨0, ()⟩ [0] (answeringPlatform (dssSigValueDer 1 (2 ^ 152)) (.error 0))
        World.initial = .ok ((1, none), w') := by
  refine ⟨fun _ => rfl, by norm_num, by norm_num, rfl, ?_⟩
  obtain ⟨w', h⟩ := dsaSha1Sign_of_dssSigValue
    (P := answeringPlatform (dssSigValueDer 1 (2 ^ 152)) (.error 0)) (w := World.initial)
    (fun _ => rfl) ⟨0, ()⟩ [0] (by norm_num) (by norm_num) rfl
  exact ⟨w', by rw [h, if_neg (by norm_num)]⟩

end Dsa

section Verify

variable {K : Type} {P : Platform K} {w : World}

-- The verify transform is created with its three attributes and executed: the answer is the
-- verifier's. The run keeps every hold it had.
theorem keyVerifyHash_of_reliable (hP : P.Reliable) (key : Ref K) (sig m : Bytes) :
    ∃ w', keyVerifyHash key sig m P w =
        .ok ((P.execute ⟨.verify key.val sig, [.inputIs .plainText, .digestSha1, .input m]⟩).any
          TransformOutput.bool, w') ∧ w.ledger ≤ w'.ledger := by
  simp only [keyVerifyHash, cfDataCreate, SecM.bind_apply, acquire_apply,
    secVerifyTransformCreate_of_reliable hP, secTransformSetAttribute_of_reliable hP]
  cases h : P.execute ⟨.verify key.val sig, [.inputIs .plainText, .digestSha1, .input m]⟩ with
  | none =>
    exact ⟨{ w with fresh := w.fresh + 4, calls := w.calls + 4 }, by
      simp [secTransformSetAttribute_of_reliable hP, secTransformExecuteWithError, h, cfRelease], le_rfl⟩
  | some out =>
    exact ⟨{ w with ledger := (w.fresh + 3) ::ₘ w.ledger, fresh := w.fresh + 4, calls := w.calls + 4 },
      by simp [secTransformSetAttribute_of_reliable hP, secTransformExecuteWithError, h, cfRelease],
      Multiset.le_cons_self _ _⟩

theorem integerContents_natToFixedBytes {v : Nat} (hv : v < 2 ^ 160) :
    integerContents (natToFixedBytes 20 v) = twosComplementBytes v := by
  rw [integerContents_eq _ (List.ne_nil_of_length_pos (by rw [natToFixedBytes_length (by omega)]; omega)),
    bytesToNat_natToFixedBytes]

-- The verifier is handed the DER Dss-Sig-Value of r and s for be20(r) || be20(s), and its answer
-- is the result.
theorem dsaSha1Verify_der (hP : P.Reliable) {dsa pk : Ref K} {w₁ : World}
    (hpub : convertDsaPrivateKeyToPublicKey dsa P w = .ok (some pk, w₁)) (hheld : pk.id ∈ w₁.ledger)
    (m : Bytes) {r s : Nat} (hr : r < 2 ^ 160) (hs : s < 2 ^ 160) :
    ∃ w', dsaSha1Verify dsa (natToFixedBytes 20 r ++ natToFixedBytes 20 s) m P w =
      .ok (if (P.execute ⟨.verify pk.val (dssSigValueDer r s),
          [.inputIs .plainText, .digestSha1, .input m]⟩).any TransformOutput.bool then 0 else 1, w') := by
  have hlr := natToFixedBytes_length (k := 20) (n := r) (by omega)
  have hls := natToFixedBytes_length (k := 20) (n := s) (by omega)
  have henc : dsaSignatureLayout.encode ⟨(natToFixedBytes 20 r ++ natToFixedBytes 20 s).take 20,
      ((natToFixedBytes 20 r ++ natToFixedBytes 20 s).drop 20).take 20⟩ = some (dssSigValueDer r s) := by
    rw [dsaSignatureLayout_encode]
    simp [List.take_left' hlr, List.drop_left' hlr, List.take_of_length_le hls.le, integerSequenceDer,
      dssSigValueDer, integerContents_natToFixedBytes hr, integerContents_natToFixedBytes hs]
  obtain ⟨w₂, hverify, hle⟩ := keyVerifyHash_of_reliable (P := P)
    (w := { w₁ with ledger := w₁.fresh ::ₘ w₁.ledger, fresh := w₁.fresh + 1, calls := w₁.calls + 2 })
    hP pk (dssSigValueDer r s) m
  have hcoder : w₁.fresh ∈ w₂.ledger := Multiset.mem_of_le hle (by simp)
  have hmem : pk.id ∈ w₂.ledger.erase w₁.fresh :=
    Multiset.mem_of_le (by simpa using Multiset.erase_le_erase w₁.fresh hle) hheld
  refine ⟨{ w₂ with ledger := (w₂.ledger.erase w₁.fresh).erase pk.id }, ?_⟩
  simp [dsaSha1Verify, hpub, secAsn1CoderCreate_of_reliable hP, secAsn1EncodeItem_of_reliable hP, henc, hverify,
    secAsn1CoderRelease, cfRelease, hcoder, hmem]

theorem dsaSha1Verify_der_publicKey :
    (derPlatform .dsa .openssl).Reliable ∧
      convertDsaPrivateKeyToPublicKey ⟨0, (.publicKey, [])⟩ (derPlatform .dsa .openssl)
          ⟨{0}, 1, 0, []⟩ = .ok (some ⟨0, (.publicKey, [])⟩, ⟨0 ::ₘ {0}, 1, 0, []⟩) ∧
      0 ∈ (0 ::ₘ {0} : Multiset Nat) ∧ 1 < 2 ^ 160 ∧ 2 < 2 ^ 160 ∧
      ∃ w', dsaSha1Verify ⟨0, (.publicKey, [])⟩ (natToFixedBytes 20 1 ++ natToFixedBytes 20 2) [5]
          (derPlatform .dsa .openssl) ⟨{0}, 1, 0, []⟩ =
        .ok (if ((derPlatform .dsa .openssl).execute ⟨.verify (.publicKey, []) (dssSigValueDer 1 2),
            [.inputIs .plainText, .digestSha1, .input [5]]⟩).any TransformOutput.bool then 0 else 1,
          w') := by
  have hpub : convertDsaPrivateKeyToPublicKey ⟨0, (.publicKey, [])⟩ (derPlatform .dsa .openssl)
      ⟨{0}, 1, 0, []⟩ = .ok (some ⟨0, (.publicKey, [])⟩, ⟨0 ::ₘ {0}, 1, 0, []⟩) := rfl
  exact ⟨fun _ => rfl, hpub, by simp, by norm_num, by norm_num,
    dsaSha1Verify_der (fun _ => rfl) hpub (by simp) [5] (by norm_num) (by norm_num)⟩

-- The verifier is handed the signature as it came, and its answer is the result.
theorem rsaSha1Verify_of_publicKey (hP : P.Reliable) {rsa pk : Ref K} {w₁ : World}
    (hpub : convertRsaPrivateKeyToPublicKey rsa P w = .ok (some pk, w₁)) (hheld : pk.id ∈ w₁.ledger)
    (sig m : Bytes) :
    ∃ w', rsaSha1Verify rsa sig m P w =
      .ok (if (P.execute ⟨.verify pk.val sig, [.inputIs .plainText, .digestSha1, .input m]⟩).any
          TransformOutput.bool then 0 else 1, w') := by
  obtain ⟨w₂, hverify, hle⟩ := keyVerifyHash_of_reliable (w := w₁) hP pk sig m
  exact ⟨{ w₂ with ledger := w₂.ledger.erase pk.id }, by
    simp [rsaSha1Verify, hpub, hverify, cfRelease, Multiset.mem_of_le hle hheld]⟩

theorem rsaSha1Verify_of_publicKey_derPlatform :
    (derPlatform .rsa .pkcs1).Reliable ∧
      convertRsaPrivateKeyToPublicKey ⟨0, (.publicKey, [])⟩ (derPlatform .rsa .pkcs1)
          ⟨{0}, 1, 0, []⟩ = .ok (some ⟨0, (.publicKey, [])⟩, ⟨0 ::ₘ {0}, 1, 0, []⟩) ∧
      0 ∈ (0 ::ₘ {0} : Multiset Nat) ∧
      ∃ w', rsaSha1Verify ⟨0, (.publicKey, [])⟩ [7] [5] (derPlatform .rsa .pkcs1) ⟨{0}, 1, 0, []⟩ =
        .ok (if ((derPlatform .rsa .pkcs1).execute ⟨.verify (.publicKey, []) [7],
            [.inputIs .plainText, .digestSha1, .input [5]]⟩).any TransformOutput.bool then 0 else 1,
          w') := by
  have hpub : convertRsaPrivateKeyToPublicKey ⟨0, (.publicKey, [])⟩ (derPlatform .rsa .pkcs1)
      ⟨{0}, 1, 0, []⟩ = .ok (some ⟨0, (.publicKey, [])⟩, ⟨0 ::ₘ {0}, 1, 0, []⟩) := rfl
  exact ⟨fun _ => rfl, hpub, by simp, rsaSha1Verify_of_publicKey (fun _ => rfl) hpub (by simp) [7] [5]⟩

-- When SecVerifyTransformCreate fails, the NULL transform is handed to SecTransformSetAttribute.
theorem keyVerifyHash_null_transform (key : Ref K) (sig m : Bytes) (hfail : P.fails w.calls = true) :
    keyVerifyHash key sig m P w = .error .nullArgument := by
  simp [keyVerifyHash, cfDataCreate, secVerifyTransformCreate, hfail, cfRelease,
    secTransformSetAttribute]

end Verify

end Libssh2
