import Libssh2.Derive.Soundness
import Libssh2.Signature.Theorems

namespace Libssh2

open Asn1

section Sign

variable {K : Type} {P : Platform K} {w : World}

-- _libssh2_key_sign_hash on any platform: nothing comes back and nothing more is held, or the
-- signature, the fourth object the run makes, holds the signer's output for the digest, and the
-- run holds it and, never released, the CFData SecTransformExecute returned, the third. The
-- transform and the digest's CFData, the first two, are released on every path.
theorem keySignHash_cases {key : Ref K} {hash : Bytes} {sig : Option (Ref Bytes)} {w' : World}
    (h : keySignHash key hash P w = .ok (sig, w')) :
    sig = none ∧ w'.ledger = w.ledger ∨
      ∃ out, P.execute ⟨.sign key.val, [.inputIs .digest, .digestSha1, .input hash]⟩ = some out ∧
        sig = some ⟨w.fresh + 3, out.bytes⟩ ∧
        w'.ledger = (w.fresh + 3) ::ₘ (w.fresh + 2) ::ₘ w.ledger := by
  obtain ⟨t, w₁, ht, h⟩ := SecM.bind_eq_ok.mp h
  rw [secSignTransformCreate_eq] at ht
  split_ifs at ht <;> cases ht
  · simp only [SecM.pure_apply, Except.ok.injEq, Prod.mk.injEq] at h
    obtain ⟨rfl, rfl⟩ := h
    exact .inl ⟨rfl, rfl⟩
  obtain ⟨⟨set1, t1⟩, w₂, hs1, h⟩ := SecM.bind_eq_ok.mp h
  obtain ⟨⟨set2, t2⟩, w₃, hs2, h⟩ := SecM.bind_eq_ok.mp h
  obtain ⟨data, w₄, hdata, h⟩ := SecM.bind_eq_ok.mp h
  obtain ⟨⟨set3, t3⟩, w₅, hs3, h⟩ := SecM.bind_eq_ok.mp h
  obtain ⟨-, hid1, hv1, rfl⟩ := secTransformSetAttribute_ok hs1
  obtain ⟨-, hid2, hv2, rfl⟩ := secTransformSetAttribute_ok hs2
  simp only [cfDataCreate, acquire_apply, Except.ok.injEq, Prod.mk.injEq] at hdata
  obtain ⟨rfl, rfl⟩ := hdata
  obtain ⟨-, hid3, hv3, rfl⟩ := secTransformSetAttribute_ok hs3
  simp only at hid1 hid2 hid3 hv1 hv2 hv3 h
  cases hset : set1 && set2 && set3
  · simp only [hset, Bool.not_false, ite_true] at h
    obtain ⟨_, w₆, hr1, h⟩ := SecM.bind_eq_ok.mp h
    obtain rfl := release_world hr1
    obtain ⟨_, w₇, hr2, h⟩ := SecM.bind_eq_ok.mp h
    obtain rfl := release_world hr2
    simp only [SecM.pure_apply, Except.ok.injEq, Prod.mk.injEq] at h
    obtain ⟨rfl, rfl⟩ := h
    exact .inl ⟨rfl, by simp [hid3, hid2, hid1]⟩
  simp only [Bool.and_eq_true] at hset
  obtain ⟨⟨rfl, rfl⟩, rfl⟩ := hset
  have ht3 : t3.val = ⟨.sign key.val, [.inputIs .digest, .digestSha1, .input hash]⟩ := by
    simp [hv3 rfl, hv2 rfl, hv1 rfl]
  simp only [Bool.and_self, Bool.not_true, Bool.false_eq_true, ite_false, pure_bind] at h
  obtain ⟨sd, w₆, hexec, h⟩ := SecM.bind_eq_ok.mp h
  obtain ⟨_, w₇, hr1, h⟩ := SecM.bind_eq_ok.mp h
  obtain ⟨_, w₈, hr2, h⟩ := SecM.bind_eq_ok.mp h
  rcases secTransformExecute_ok hexec with ⟨-, rfl, rfl⟩ | ⟨out, hout, rfl, rfl⟩
  · obtain rfl := release_world hr1
    obtain rfl := release_world hr2
    simp only [SecM.pure_apply, Except.ok.injEq, Prod.mk.injEq] at h
    obtain ⟨rfl, rfl⟩ := h
    exact .inl ⟨rfl, by simp [hid3, hid2, hid1]⟩
  obtain rfl := release_world hr1
  obtain rfl := release_world hr2
  simp only [alloc, acquire_apply, SecM.bind_apply, SecM.pure_apply, Except.ok.injEq,
    Prod.mk.injEq] at h
  obtain ⟨rfl, rfl⟩ := h
  exact .inr ⟨out, ht3 ▸ hout, rfl, by simp [hid3, hid2, hid1]⟩

-- _libssh2_rsa_sha1_sign on any platform: 1 with no signature and nothing more held, or 0 with a
-- signature, the fourth object the run makes, that holds the signer's output for the digest. The
-- run then holds the signature and, never released, the CFData SecTransformExecute returned, the
-- third object it made.
theorem rsaSha1Sign_cases {rsa : Ref K} {hash : Bytes} {e : Int} {sig : Option (Ref Bytes)}
    {w' : World} (h : rsaSha1Sign rsa hash P w = .ok ((e, sig), w')) :
    e = 1 ∧ sig = none ∧ w'.ledger = w.ledger ∨
      e = 0 ∧ ∃ out, P.execute ⟨.sign rsa.val, [.inputIs .digest, .digestSha1, .input hash]⟩ = some out ∧
        sig = some ⟨w.fresh + 3, out.bytes⟩ ∧
        w'.ledger = (w.fresh + 3) ::ₘ (w.fresh + 2) ::ₘ w.ledger := by
  obtain ⟨signature, w₁, hsign, h⟩ := SecM.bind_eq_ok.mp h
  simp only [SecM.pure_apply, Except.ok.injEq, Prod.mk.injEq] at h
  obtain ⟨⟨rfl, rfl⟩, rfl⟩ := h
  rcases keySignHash_cases hsign with ⟨rfl, hl⟩ | ⟨out, hout, rfl, hl⟩
  · exact .inl ⟨rfl, rfl, hl⟩
  · exact .inr ⟨rfl, out, hout, rfl, hl⟩

theorem rsaSha1Sign_cases_answering :
    ∃ e sig w', rsaSha1Sign ⟨0, ()⟩ [1] (answeringPlatform [7] (.error 0)) World.initial =
        .ok ((e, sig), w') ∧
      (e = 1 ∧ sig = none ∧ w'.ledger = World.initial.ledger ∨
        e = 0 ∧ ∃ out, (answeringPlatform [7] (.error 0)).execute
            ⟨.sign (), [.inputIs .digest, .digestSha1, .input [1]]⟩ = some out ∧
          sig = some ⟨World.initial.fresh + 3, out.bytes⟩ ∧
          w'.ledger = (World.initial.fresh + 3) ::ₘ (World.initial.fresh + 2) ::ₘ World.initial.ledger) := by
  obtain ⟨e, sig, w', h⟩ : ∃ e sig w', rsaSha1Sign ⟨0, ()⟩ [1] (answeringPlatform [7] (.error 0))
      World.initial = .ok ((e, sig), w') := ⟨_, _, _, rfl⟩
  exact ⟨e, sig, w', h, rsaSha1Sign_cases h⟩

-- _libssh2_dsa_sha1_sign on any platform, after _libssh2_key_sign_hash: 1 with nothing more held
-- when it gave no signature; otherwise the coder and the malloced signature are released on every
-- path, and the run ends holding, besides what it held, only the CFData SecTransformExecute
-- returned, the third object it made. It returns 0 only with the two 20-byte integers of the
-- Dss-Sig-Value the decoder read from the signer's output.
theorem dsaSha1Sign_cases {dsa : Ref K} {hash : Bytes} {e : Int} {sigOut : Option Bytes}
    {w' : World} (h : dsaSha1Sign dsa hash P w = .ok ((e, sigOut), w')) :
    ∃ sig w₁, keySignHash dsa hash P w = .ok (sig, w₁) ∧
      (sig = none ∧ e = 1 ∧ w'.ledger = w.ledger ∨
        ∃ out, P.execute ⟨.sign dsa.val, [.inputIs .digest, .digestSha1, .input hash]⟩ = some out ∧
          sig = some ⟨w.fresh + 3, out.bytes⟩ ∧ w'.ledger = (w.fresh + 2) ::ₘ w.ledger ∧
          (e = 0 → ∃ d, dsaSignatureLayout.decode out.bytes = some d ∧ d.r.length = 20 ∧
            d.s.length = 20 ∧ sigOut = some (d.r ++ d.s))) := by
  obtain ⟨sig, w₁, hsign, h⟩ := SecM.bind_eq_ok.mp h
  refine ⟨sig, w₁, hsign, ?_⟩
  rcases keySignHash_cases hsign with ⟨rfl, hl⟩ | ⟨out, hout, rfl, hl⟩
  · simp only [SecM.pure_apply, Except.ok.injEq, Prod.mk.injEq] at h
    obtain ⟨⟨rfl, -⟩, rfl⟩ := h
    exact .inl ⟨rfl, rfl, hl⟩
  refine .inr ⟨out, hout, rfl, ?_⟩
  obtain ⟨coder, w₂, hcoder, h⟩ := SecM.bind_eq_ok.mp h
  have hl2 := secAsn1CoderCreate_ledger hcoder
  rcases coder with _ | coder
  · obtain ⟨_, w₃, hfree, h⟩ := SecM.bind_eq_ok.mp h
    simp only [SecM.pure_apply, Except.ok.injEq, Prod.mk.injEq] at h
    obtain ⟨⟨rfl, -⟩, rfl⟩ := h
    refine ⟨?_, fun h10 => absurd h10 (by decide)⟩
    rw [(release_eq_ok hfree).2, hl2, hl]
    simp
  -- every path from here releases the coder, frees the signature and returns
  have hclose : ∀ {w₃ w₄ w₅ : World}, secAsn1CoderRelease coder P w₃ = .ok ((), w₄) →
      free ⟨w.fresh + 3, out.bytes⟩ P w₄ = .ok ((), w₅) → w₃.ledger = w₂.ledger →
      w₅.ledger = (w.fresh + 2) ::ₘ w.ledger := by
    intro w₃ w₄ w₅ hr hf hl3
    rw [(release_eq_ok hf).2, (release_eq_ok hr).2, hl3, hl2, hl]
    simp
  obtain ⟨d, w₃, hdec, h⟩ := SecM.bind_eq_ok.mp h
  rw [secAsn1Decode_eq] at hdec
  obtain ⟨hd, rfl⟩ := Prod.mk.inj (Except.ok.inj hdec)
  rcases d with _ | d
  · obtain ⟨_, w₄, hr, h⟩ := SecM.bind_eq_ok.mp h
    obtain ⟨_, w₅, hf, h⟩ := SecM.bind_eq_ok.mp h
    simp only [SecM.pure_apply, Except.ok.injEq, Prod.mk.injEq] at h
    obtain ⟨⟨rfl, -⟩, rfl⟩ := h
    exact ⟨hclose hr hf rfl, fun h10 => absurd h10 (by decide)⟩
  have hdecoded : dsaSignatureLayout.decode out.bytes = some d := by
    split_ifs at hd
    exact hd
  simp only at h
  split_ifs at h with hlen
  · obtain ⟨_, w₄, hr, h⟩ := SecM.bind_eq_ok.mp h
    obtain ⟨_, w₅, hf, h⟩ := SecM.bind_eq_ok.mp h
    simp only [SecM.pure_apply, Except.ok.injEq, Prod.mk.injEq] at h
    obtain ⟨⟨rfl, -⟩, rfl⟩ := h
    exact ⟨hclose hr hf rfl, fun h10 => absurd h10 (by decide)⟩
  simp only [not_or, not_not] at hlen
  simp only [pure_bind] at h
  obtain ⟨_, w₄, hr, h⟩ := SecM.bind_eq_ok.mp h
  obtain ⟨_, w₅, hf, h⟩ := SecM.bind_eq_ok.mp h
  simp only [SecM.pure_apply, Except.ok.injEq, Prod.mk.injEq] at h
  obtain ⟨⟨-, rfl⟩, rfl⟩ := h
  refine ⟨hclose hr hf rfl, fun _ => ⟨d, hdecoded, hlen.1, hlen.2, ?_⟩⟩
  rw [List.take_of_length_le hlen.1.le, List.take_of_length_le hlen.2.le]

-- _libssh2_dsa_sha1_sign on any platform: the run ends holding what it held when
-- _libssh2_key_sign_hash gave no signature, and otherwise that and, never released, the CFData
-- SecTransformExecute returned, the third object it made; the malloced signature and the coder are
-- freed on every path.
theorem dsaSha1Sign_ledger {dsa : Ref K} {hash : Bytes} {e : Int} {sigOut : Option Bytes}
    {w' : World} (h : dsaSha1Sign dsa hash P w = .ok ((e, sigOut), w')) :
    ∃ sig w₁, keySignHash dsa hash P w = .ok (sig, w₁) ∧
      (sig = none ∧ e = 1 ∧ w'.ledger = w.ledger ∨
        ∃ s, sig = some s ∧ w'.ledger = (w.fresh + 2) ::ₘ w.ledger) := by
  obtain ⟨sig, w₁, hsign, hnone | ⟨_, -, rfl, hl, -⟩⟩ := dsaSha1Sign_cases h
  · exact ⟨sig, w₁, hsign, .inl hnone⟩
  · exact ⟨_, w₁, hsign, .inr ⟨_, rfl, hl⟩⟩

-- A signer whose output does not decode: 1, and the output stays held.
theorem dsaSha1Sign_ledger_answering :
    ∃ e sigOut w', dsaSha1Sign ⟨0, ()⟩ [1] (answeringPlatform [7] (.error 0)) World.initial =
        .ok ((e, sigOut), w') ∧
      ∃ sig w₁, keySignHash ⟨0, ()⟩ [1] (answeringPlatform [7] (.error 0)) World.initial =
          .ok (sig, w₁) ∧
        (sig = none ∧ e = 1 ∧ w'.ledger = World.initial.ledger ∨
          ∃ s, sig = some s ∧ w'.ledger = (World.initial.fresh + 2) ::ₘ World.initial.ledger) := by
  obtain ⟨e, sigOut, w', h⟩ : ∃ e sigOut w', dsaSha1Sign ⟨0, ()⟩ [1]
      (answeringPlatform [7] (.error 0)) World.initial = .ok ((e, sigOut), w') := ⟨_, _, _, rfl⟩
  exact ⟨e, sigOut, w', h, dsaSha1Sign_ledger h⟩

end Sign

section Verify

variable {K : Type} {P : Platform K} {w : World}

-- What SecTransformExecute hands _libssh2_key_verify_hash when the run starts from `w`: the
-- verifier's answer on the signature and the message, once SecVerifyTransformCreate and the three
-- SecTransformSetAttribute calls, the run's four fallible calls, have succeeded. It is the fourth
-- object the run makes, after the signature's CFData, the transform and the message's CFData.
def keyVerifyHashOutput (P : Platform K) (key : K) (sig m : Bytes) (w : World) :
    Option (Ref TransformOutput) :=
  if P.fails w.calls = false ∧ P.fails (w.calls + 1) = false ∧ P.fails (w.calls + 2) = false ∧
      P.fails (w.calls + 3) = false then
    (P.execute ⟨.verify key sig, [.inputIs .plainText, .digestSha1, .input m]⟩).map (⟨w.fresh + 3, ·⟩)
  else none

theorem keyVerifyHashOutput_eq_some {key : K} {sig m : Bytes} {o : Ref TransformOutput}
    (h : keyVerifyHashOutput P key sig m w = some o) :
    P.execute ⟨.verify key sig, [.inputIs .plainText, .digestSha1, .input m]⟩ = some o.val ∧
      o.id = w.fresh + 3 := by
  unfold keyVerifyHashOutput at h
  split_ifs at h
  obtain ⟨out, hout, rfl⟩ := Option.map_eq_some'.mp h
  exact ⟨hout, rfl⟩

-- _libssh2_key_verify_hash on any platform, on every path that returns (a NULL transform faults):
-- the verifier's answer, and the run ends holding the output object SecTransformExecute made,
-- which is never released; the signature's CFData, the transform, the message's CFData and a
-- CFError are released.
theorem keyVerifyHash_cases {key : Ref K} {sig m : Bytes} {b : Bool} {w' : World}
    (h : keyVerifyHash key sig m P w = .ok (b, w')) :
    b = (keyVerifyHashOutput P key.val sig m w).any (·.val.bool) ∧
      w'.ledger = held (keyVerifyHashOutput P key.val sig m w) + w.ledger := by
  cases hf0 : P.fails w.calls
  swap
  · rw [keyVerifyHash_null_transform key sig m hf0] at h
    cases h
  obtain ⟨sigData, w₁, hsd, h⟩ := SecM.bind_eq_ok.mp h
  simp only [cfDataCreate, acquire_apply, Except.ok.injEq, Prod.mk.injEq] at hsd
  obtain ⟨rfl, rfl⟩ := hsd
  obtain ⟨t, w₂, ht, h⟩ := SecM.bind_eq_ok.mp h
  rw [secVerifyTransformCreate_eq] at ht
  simp only [hf0, Bool.false_eq_true, ite_false] at ht
  cases ht
  simp only [Option.isNone_some, Bool.false_eq_true, ite_false, pure_bind] at h
  obtain ⟨⟨set1, t1⟩, w₃, hs1, h⟩ := SecM.bind_eq_ok.mp h
  obtain ⟨⟨set2, t2⟩, w₄, hs2, h⟩ := SecM.bind_eq_ok.mp h
  obtain ⟨message, w₅, hmessage, h⟩ := SecM.bind_eq_ok.mp h
  obtain ⟨⟨set3, t3⟩, w₆, hs3, h⟩ := SecM.bind_eq_ok.mp h
  obtain ⟨rfl, hid1, hv1, rfl⟩ := secTransformSetAttribute_ok hs1
  obtain ⟨rfl, hid2, hv2, rfl⟩ := secTransformSetAttribute_ok hs2
  simp only [cfDataCreate, acquire_apply, Except.ok.injEq, Prod.mk.injEq] at hmessage
  obtain ⟨rfl, rfl⟩ := hmessage
  obtain ⟨rfl, hid3, hv3, rfl⟩ := secTransformSetAttribute_ok hs3
  simp only at hid1 hid2 hid3 hv1 hv2 hv3 h
  cases hset : !P.fails (w.calls + 1) && !P.fails (w.calls + 2) && !P.fails (w.calls + 3)
  · simp only [hset, Bool.not_false, ite_true] at h
    obtain ⟨_, w₇, hr1, h⟩ := SecM.bind_eq_ok.mp h
    obtain rfl := release_world hr1
    obtain ⟨_, w₈, hr2, h⟩ := SecM.bind_eq_ok.mp h
    obtain rfl := release_world hr2
    obtain ⟨_, w₉, hr3, h⟩ := SecM.bind_eq_ok.mp h
    obtain rfl := release_world hr3
    simp only [SecM.pure_apply, Except.ok.injEq, Prod.mk.injEq] at h
    obtain ⟨rfl, rfl⟩ := h
    have hnone : keyVerifyHashOutput P key.val sig m w = none := by
      rw [keyVerifyHashOutput, if_neg]
      rintro ⟨-, h1, h2, h3⟩
      simp [h1, h2, h3] at hset
    simp [hnone, hid3, hid2, hid1]
  simp only [hset, Bool.not_true, Bool.false_eq_true, ite_false, pure_bind] at h
  simp only [Bool.and_eq_true, Bool.not_eq_true'] at hset
  obtain ⟨⟨h1, h2⟩, h3⟩ := hset
  have ht3 : t3.val = ⟨.verify key.val sig, [.inputIs .plainText, .digestSha1, .input m]⟩ := by
    simp [hv3 (by simp [h3]), hv2 (by simp [h2]), hv1 (by simp [h1])]
  have houtput : keyVerifyHashOutput P key.val sig m w =
      (P.execute t3.val).map (⟨w.fresh + 3, ·⟩) := by
    rw [keyVerifyHashOutput, if_pos ⟨hf0, h1, h2, h3⟩, ht3]
  obtain ⟨output, w₇, hexec, h⟩ := SecM.bind_eq_ok.mp h
  obtain ⟨rfl, hout⟩ := secTransformExecuteWithError_ok hexec
  obtain ⟨_, w₈, hr1, h⟩ := SecM.bind_eq_ok.mp h
  obtain rfl := release_world hr1
  obtain ⟨_, w₉, hr2, h⟩ := SecM.bind_eq_ok.mp h
  obtain rfl := release_world hr2
  obtain ⟨_, w₁₀, hr3, h⟩ := SecM.bind_eq_ok.mp h
  obtain rfl := release_world hr3
  rcases hout with ⟨hnone, rfl⟩ | ⟨o, hsome, rfl⟩
  · obtain ⟨_, w₁₁, hr4, h⟩ := SecM.bind_eq_ok.mp h
    obtain rfl := release_world hr4
    simp only [SecM.pure_apply, Except.ok.injEq, Prod.mk.injEq] at h
    obtain ⟨rfl, rfl⟩ := h
    simp [houtput, hnone, hid3, hid2, hid1]
  · simp only [SecM.pure_apply, Except.ok.injEq, Prod.mk.injEq] at h
    obtain ⟨rfl, rfl⟩ := h
    simp [houtput, hsome, hid3, hid2, hid1]

-- A verifier that accepts every signature, over the keys of derPlatform.
def acceptingPlatform (algorithm : Algorithm) (format : BlobFormat) : Platform (ItemType × Bytes) :=
  { derPlatform algorithm format with execute := fun _ => some (.boolean true) }

-- _libssh2_rsa_sha1_verify on any platform, after the key conversion: 1 when it gave no key, and
-- otherwise 0 exactly when the verifier's output accepts, with that output held and the public key
-- released.
theorem rsaSha1Verify_cases {rsa : Ref K} {sig m : Bytes} {e : Int} {w' : World}
    (h : rsaSha1Verify rsa sig m P w = .ok (e, w')) :
    ∃ pk w₁, convertRsaPrivateKeyToPublicKey rsa P w = .ok (pk, w₁) ∧
      (pk = none ∧ e = 1 ∧ w' = w₁ ∨
        ∃ k, pk = some k ∧ (e = 0 ↔ (keyVerifyHashOutput P k.val sig m w₁).any (·.val.bool)) ∧
          w'.ledger = (held (keyVerifyHashOutput P k.val sig m w₁) + w₁.ledger).erase k.id) := by
  obtain ⟨pk, w₁, hpub, h⟩ := SecM.bind_eq_ok.mp h
  refine ⟨pk, w₁, hpub, ?_⟩
  rcases pk with _ | k
  · simp only [SecM.pure_apply, Except.ok.injEq, Prod.mk.injEq] at h
    exact .inl ⟨rfl, h.1.symm, h.2.symm⟩
  obtain ⟨verify, w₂, hverify, h⟩ := SecM.bind_eq_ok.mp h
  obtain ⟨_, w₃, hrel, h⟩ := SecM.bind_eq_ok.mp h
  simp only [SecM.pure_apply, Except.ok.injEq, Prod.mk.injEq] at h
  obtain ⟨rfl, rfl⟩ := h
  obtain ⟨rfl, hl⟩ := keyVerifyHash_cases hverify
  refine .inr ⟨k, rfl, ?_, by rw [(release_eq_ok hrel).2, hl]⟩
  split_ifs with hb <;> simp [hb]

-- _libssh2_rsa_sha1_verify on any platform: 0 only when a public key came out of the conversion
-- and the verifier accepted the signature, as given, for the message under it. The run then gives
-- up the public key and keeps the verifier's output, the fourth object it made after the
-- conversion.
theorem rsaSha1Verify_zero {rsa : Ref K} {sig m : Bytes} {w' : World}
    (h : rsaSha1Verify rsa sig m P w = .ok (0, w')) :
    ∃ pk w₁, convertRsaPrivateKeyToPublicKey rsa P w = .ok (some pk, w₁) ∧
      ∃ out, P.execute ⟨.verify pk.val sig, [.inputIs .plainText, .digestSha1, .input m]⟩ =
          some out ∧ out.bool = true ∧ w'.ledger = ((w₁.fresh + 3) ::ₘ w₁.ledger).erase pk.id := by
  obtain ⟨pk, w₁, hpub, ⟨-, h10, -⟩ | ⟨k, rfl, hcode, hl⟩⟩ := rsaSha1Verify_cases h
  · cases h10
  cases ho : keyVerifyHashOutput P k.val sig m w₁ with
  | none => simp [ho] at hcode
  | some o =>
    obtain ⟨hout, hid⟩ := keyVerifyHashOutput_eq_some ho
    refine ⟨k, w₁, hpub, o.val, hout, by simpa [ho] using hcode, ?_⟩
    rw [hl, ho, held_some, hid]
    rfl

theorem rsaSha1Verify_zero_accepting :
    ∃ w', rsaSha1Verify ⟨0, (.publicKey, [])⟩ [7] [5] (acceptingPlatform .rsa .pkcs1) ⟨{0}, 1, 0, []⟩ =
        .ok (0, w') ∧
      ∃ pk w₁, convertRsaPrivateKeyToPublicKey ⟨0, (.publicKey, [])⟩ (acceptingPlatform .rsa .pkcs1)
          ⟨{0}, 1, 0, []⟩ = .ok (some pk, w₁) ∧
        ∃ out, (acceptingPlatform .rsa .pkcs1).execute
            ⟨.verify pk.val [7], [.inputIs .plainText, .digestSha1, .input [5]]⟩ = some out ∧
          out.bool = true ∧ w'.ledger = ((w₁.fresh + 3) ::ₘ w₁.ledger).erase pk.id := by
  obtain ⟨w', h⟩ : ∃ w', rsaSha1Verify ⟨0, (.publicKey, [])⟩ [7] [5] (acceptingPlatform .rsa .pkcs1)
      ⟨{0}, 1, 0, []⟩ = .ok (0, w') := ⟨_, rfl⟩
  exact ⟨w', h, rsaSha1Verify_zero h⟩

-- _libssh2_rsa_sha1_verify on any platform, on every path that returns: once the conversion has
-- run, the run ends holding what the conversion left, less the public key, and the verifier's
-- output when SecTransformExecute made one. The signature's and the message's CFData and the
-- transform are released.
theorem rsaSha1Verify_ledger {rsa : Ref K} {sig m : Bytes} {e : Int} {w' : World}
    (h : rsaSha1Verify rsa sig m P w = .ok (e, w')) :
    ∃ pk w₁, convertRsaPrivateKeyToPublicKey rsa P w = .ok (pk, w₁) ∧
      (pk = none ∧ w' = w₁ ∨
        ∃ k, pk = some k ∧
          w'.ledger = (held (keyVerifyHashOutput P k.val sig m w₁) + w₁.ledger).erase k.id) := by
  obtain ⟨pk, w₁, hpub, ⟨rfl, -, rfl⟩ | ⟨k, rfl, -, hl⟩⟩ := rsaSha1Verify_cases h
  · exact ⟨none, w', hpub, .inl ⟨rfl, rfl⟩⟩
  · exact ⟨some k, w₁, hpub, .inr ⟨k, rfl, hl⟩⟩

theorem rsaSha1Verify_ledger_accepting :
    ∃ e w', rsaSha1Verify ⟨0, (.publicKey, [])⟩ [7] [5] (acceptingPlatform .rsa .pkcs1) ⟨{0}, 1, 0, []⟩ =
        .ok (e, w') ∧
      ∃ pk w₁, convertRsaPrivateKeyToPublicKey ⟨0, (.publicKey, [])⟩ (acceptingPlatform .rsa .pkcs1)
          ⟨{0}, 1, 0, []⟩ = .ok (pk, w₁) ∧
        (pk = none ∧ w' = w₁ ∨ ∃ k, pk = some k ∧
          w'.ledger = (held (keyVerifyHashOutput (acceptingPlatform .rsa .pkcs1) k.val [7] [5] w₁) +
            w₁.ledger).erase k.id) := by
  obtain ⟨e, w', h⟩ : ∃ e w', rsaSha1Verify ⟨0, (.publicKey, [])⟩ [7] [5] (acceptingPlatform .rsa .pkcs1)
      ⟨{0}, 1, 0, []⟩ = .ok (e, w') := ⟨_, _, rfl⟩
  exact ⟨e, w', h, rsaSha1Verify_ledger h⟩

-- What the verifier's work in _libssh2_dsa_sha1_verify leaves held, once the key is converted and
-- the run goes on from `w`: nothing when SecAsn1CoderCreate or SecAsn1EncodeItem fails, and
-- otherwise what _libssh2_key_verify_hash leaves of its run on the DER Dss-Sig-Value of the
-- signature's two 20-byte blocks, one object (the coder) and two calls on.
def dsaSha1VerifyOutput (P : Platform K) (key : K) (sig m : Bytes) (w : World) :
    Option (Ref TransformOutput) :=
  if P.fails w.calls = false ∧ P.fails (w.calls + 1) = false then
    keyVerifyHashOutput P key (integerSequenceDer [sig.take 20, (sig.drop 20).take 20]) m
      { w with fresh := w.fresh + 1, calls := w.calls + 2 }
  else none

-- _libssh2_dsa_sha1_verify on any platform, after the key conversion: 1 when it gave no key, and
-- otherwise 0 exactly when the verifier's output accepts, with that output held and the coder and
-- the public key released.
theorem dsaSha1Verify_cases {dsa : Ref K} {sig m : Bytes} {e : Int} {w' : World}
    (h : dsaSha1Verify dsa sig m P w = .ok (e, w')) :
    ∃ pk w₁, convertDsaPrivateKeyToPublicKey dsa P w = .ok (pk, w₁) ∧
      (pk = none ∧ e = 1 ∧ w' = w₁ ∨
        ∃ k, pk = some k ∧ (e = 0 ↔ (dsaSha1VerifyOutput P k.val sig m w₁).any (·.val.bool)) ∧
          w'.ledger = (held (dsaSha1VerifyOutput P k.val sig m w₁) + w₁.ledger).erase k.id) := by
  obtain ⟨pk, w₁, hpub, h⟩ := SecM.bind_eq_ok.mp h
  refine ⟨pk, w₁, hpub, ?_⟩
  rcases pk with _ | k
  · simp only [SecM.pure_apply, Except.ok.injEq, Prod.mk.injEq] at h
    exact .inl ⟨rfl, h.1.symm, h.2.symm⟩
  refine .inr ⟨k, rfl, ?_⟩
  obtain ⟨coder, w₂, hcoder, h⟩ := SecM.bind_eq_ok.mp h
  rw [secAsn1CoderCreate_eq] at hcoder
  split_ifs at hcoder with hf0 <;> cases hcoder
  · obtain ⟨_, w₃, hrel, h⟩ := SecM.bind_eq_ok.mp h
    obtain rfl := release_world hrel
    simp only [SecM.pure_apply, Except.ok.injEq, Prod.mk.injEq] at h
    obtain ⟨rfl, rfl⟩ := h
    simp [dsaSha1VerifyOutput, hf0]
  obtain ⟨der, w₃, hder, h⟩ := SecM.bind_eq_ok.mp h
  simp only [secAsn1EncodeItem_eq, dsaSignatureLayout_encode] at hder
  split_ifs at hder with hf1 <;> cases hder
  · obtain ⟨_, w₄, hcrel, h⟩ := SecM.bind_eq_ok.mp h
    obtain rfl := release_world hcrel
    obtain ⟨_, w₅, hrel, h⟩ := SecM.bind_eq_ok.mp h
    obtain rfl := release_world hrel
    simp only [SecM.pure_apply, Except.ok.injEq, Prod.mk.injEq] at h
    obtain ⟨rfl, rfl⟩ := h
    have hnone : dsaSha1VerifyOutput P k.val sig m w₁ = none := by
      simp only at hf1
      simp [dsaSha1VerifyOutput, hf1]
    simp [hnone]
  obtain ⟨verify, w₄, hverify, h⟩ := SecM.bind_eq_ok.mp h
  obtain ⟨_, w₅, hcrel, h⟩ := SecM.bind_eq_ok.mp h
  obtain rfl := release_world hcrel
  obtain ⟨_, w₆, hrel, h⟩ := SecM.bind_eq_ok.mp h
  obtain rfl := release_world hrel
  simp only [SecM.pure_apply, Except.ok.injEq, Prod.mk.injEq] at h
  obtain ⟨rfl, rfl⟩ := h
  obtain ⟨rfl, hl⟩ := keyVerifyHash_cases hverify
  have houtput : dsaSha1VerifyOutput P k.val sig m w₁ =
      keyVerifyHashOutput P k.val (integerSequenceDer [sig.take 20, (sig.drop 20).take 20]) m
        { w₁ with ledger := w₁.fresh ::ₘ w₁.ledger, fresh := w₁.fresh + 1, calls := w₁.calls + 2 } := by
    rw [dsaSha1VerifyOutput, if_pos ⟨by simpa using hf0, by simpa using hf1⟩]
    rfl
  rw [houtput]
  refine ⟨by split_ifs with hb <;> simp [hb], ?_⟩
  simp [hl, Multiset.erase_add_right_pos]

-- _libssh2_dsa_sha1_verify on any platform: 0 only when a public key came out of the conversion
-- and the verifier accepted, for the message under it, the DER Dss-Sig-Value of the first two
-- 20-byte blocks of the signature. The run then gives up the public key and the coder, and keeps
-- the verifier's output, the fifth object it made after the conversion.
theorem dsaSha1Verify_zero {dsa : Ref K} {sig m : Bytes} {w' : World}
    (h : dsaSha1Verify dsa sig m P w = .ok (0, w')) :
    ∃ pk w₁, convertDsaPrivateKeyToPublicKey dsa P w = .ok (some pk, w₁) ∧
      ∃ out, P.execute ⟨.verify pk.val (integerSequenceDer [sig.take 20, (sig.drop 20).take 20]),
          [.inputIs .plainText, .digestSha1, .input m]⟩ = some out ∧ out.bool = true ∧
        w'.ledger = ((w₁.fresh + 4) ::ₘ w₁.ledger).erase pk.id := by
  obtain ⟨pk, w₁, hpub, ⟨-, h10, -⟩ | ⟨k, rfl, hcode, hl⟩⟩ := dsaSha1Verify_cases h
  · cases h10
  cases ho : dsaSha1VerifyOutput P k.val sig m w₁ with
  | none => simp [ho] at hcode
  | some o =>
    have ho' := ho
    unfold dsaSha1VerifyOutput at ho'
    split_ifs at ho'
    obtain ⟨hout, hid⟩ := keyVerifyHashOutput_eq_some ho'
    refine ⟨k, w₁, hpub, o.val, hout, by simpa [ho] using hcode, ?_⟩
    rw [hl, ho, held_some, hid]
    rfl

theorem dsaSha1Verify_zero_accepting :
    ∃ w', dsaSha1Verify ⟨0, (.publicKey, [])⟩ [7] [5] (acceptingPlatform .dsa .openssl) ⟨{0}, 1, 0, []⟩ =
        .ok (0, w') ∧
      ∃ pk w₁, convertDsaPrivateKeyToPublicKey ⟨0, (.publicKey, [])⟩ (acceptingPlatform .dsa .openssl)
          ⟨{0}, 1, 0, []⟩ = .ok (some pk, w₁) ∧
        ∃ out, (acceptingPlatform .dsa .openssl).execute
            ⟨.verify pk.val (integerSequenceDer [[7].take 20, ([7].drop 20).take 20]),
              [.inputIs .plainText, .digestSha1, .input [5]]⟩ = some out ∧ out.bool = true ∧
          w'.ledger = ((w₁.fresh + 4) ::ₘ w₁.ledger).erase pk.id := by
  obtain ⟨w', h⟩ : ∃ w', dsaSha1Verify ⟨0, (.publicKey, [])⟩ [7] [5] (acceptingPlatform .dsa .openssl)
      ⟨{0}, 1, 0, []⟩ = .ok (0, w') := ⟨_, rfl⟩
  exact ⟨w', h, dsaSha1Verify_zero h⟩

-- _libssh2_dsa_sha1_verify on any platform, on every path that returns: once the conversion has
-- run, the run ends holding what the conversion left, less the public key, and the verifier's
-- output when SecTransformExecute made one. The coder is released on every path after it is made.
theorem dsaSha1Verify_ledger {dsa : Ref K} {sig m : Bytes} {e : Int} {w' : World}
    (h : dsaSha1Verify dsa sig m P w = .ok (e, w')) :
    ∃ pk w₁, convertDsaPrivateKeyToPublicKey dsa P w = .ok (pk, w₁) ∧
      (pk = none ∧ w' = w₁ ∨
        ∃ k, pk = some k ∧
          w'.ledger = (held (dsaSha1VerifyOutput P k.val sig m w₁) + w₁.ledger).erase k.id) := by
  obtain ⟨pk, w₁, hpub, ⟨rfl, -, rfl⟩ | ⟨k, rfl, -, hl⟩⟩ := dsaSha1Verify_cases h
  · exact ⟨none, w', hpub, .inl ⟨rfl, rfl⟩⟩
  · exact ⟨some k, w₁, hpub, .inr ⟨k, rfl, hl⟩⟩

theorem dsaSha1Verify_ledger_accepting :
    ∃ e w', dsaSha1Verify ⟨0, (.publicKey, [])⟩ [7] [5] (acceptingPlatform .dsa .openssl)
        ⟨{0}, 1, 0, []⟩ = .ok (e, w') ∧
      ∃ pk w₁, convertDsaPrivateKeyToPublicKey ⟨0, (.publicKey, [])⟩ (acceptingPlatform .dsa .openssl)
          ⟨{0}, 1, 0, []⟩ = .ok (pk, w₁) ∧
        (pk = none ∧ w' = w₁ ∨ ∃ k, pk = some k ∧
          w'.ledger = (held (dsaSha1VerifyOutput (acceptingPlatform .dsa .openssl) k.val [7] [5] w₁) +
            w₁.ledger).erase k.id) := by
  obtain ⟨e, w', h⟩ : ∃ e w', dsaSha1Verify ⟨0, (.publicKey, [])⟩ [7] [5] (acceptingPlatform .dsa .openssl)
      ⟨{0}, 1, 0, []⟩ = .ok (e, w') := ⟨_, _, rfl⟩
  exact ⟨e, w', h, dsaSha1Verify_ledger h⟩

end Verify

section RoundTrip

variable {K : Type} {P : Platform K} {w : World}

-- _libssh2_dsa_sha1_sign then _libssh2_dsa_sha1_verify, on any platform: the signature written is
-- 40 bytes, and whenever _libssh2_dsa_sha1_verify returns 0 on it, for any key, message and world,
-- the DER it handed the verifier decodes to the Dss-Sig-Value the signer's output decodes to, and
-- the verifier accepted that DER.
theorem dsaSha1Sign_verify_roundTrip {dsa : Ref K} {hash sigOut : Bytes} {w' : World}
    (h : dsaSha1Sign dsa hash P w = .ok ((0, some sigOut), w')) :
    sigOut.length = 40 ∧
      ∃ out d, P.execute ⟨.sign dsa.val, [.inputIs .digest, .digestSha1, .input hash]⟩ = some out ∧
        dsaSignatureLayout.decode out.bytes = some d ∧
        ∀ (key : Ref K) (m : Bytes) (v v' : World), dsaSha1Verify key sigOut m P v = .ok (0, v') →
          ∃ pk v₁ der ans, convertDsaPrivateKeyToPublicKey key P v = .ok (some pk, v₁) ∧
            dsaSignatureLayout.decode der = some d ∧
            P.execute ⟨.verify pk.val der, [.inputIs .plainText, .digestSha1, .input m]⟩ = some ans ∧
            ans.bool = true := by
  obtain ⟨sig, w₁, -, ⟨-, h10, -⟩ | ⟨out, hout, -, -, hzero⟩⟩ := dsaSha1Sign_cases h
  · cases h10
  obtain ⟨d, hdec, hr, hs, hsig⟩ := hzero rfl
  cases hsig
  refine ⟨by simp [hr, hs], out, d, hout, hdec, fun key m v v' hv => ?_⟩
  -- the verifier side cuts the signature back into r and s
  have hder : dsaSignatureLayout.decode
      (integerSequenceDer [(d.r ++ d.s).take 20, ((d.r ++ d.s).drop 20).take 20]) = some d := by
    rw [List.take_left' hr, List.drop_left' hr, List.take_of_length_le hs.le]
    exact dsaSignatureLayout.decode_encode_of_decode dsaSignatureLayout_readsBack hdec
      (dsaSignatureLayout_encode d) (integerSequenceDer_length_lt _ (by simp) (by simp [hr, hs]))
  obtain ⟨pk, v₁, hpub, ⟨-, h10, -⟩ | ⟨k, rfl, hcode, -⟩⟩ := dsaSha1Verify_cases hv
  · cases h10
  cases ho : dsaSha1VerifyOutput P k.val (d.r ++ d.s) m v₁ with
  | none => simp [ho] at hcode
  | some o =>
    have ho' := ho
    unfold dsaSha1VerifyOutput at ho'
    split_ifs at ho'
    exact ⟨k, v₁, _, o.val, hpub, hder, (keyVerifyHashOutput_eq_some ho').1,
      by simpa [ho] using hcode⟩

-- A signer whose Dss-Sig-Value has two different integers of 20 significant bytes.
def dsaSignerPlatform : Platform Unit :=
  answeringPlatform (dssSigValueDer (2 ^ 152) (2 ^ 153)) (.error 0)

theorem dsaSha1Sign_verify_roundTrip_signer :
    ∃ w', dsaSha1Sign ⟨0, ()⟩ [0] dsaSignerPlatform World.initial =
        .ok ((0, some (natToBytes (2 ^ 152) ++ natToBytes (2 ^ 153))), w') ∧
      (natToBytes (2 ^ 152) ++ natToBytes (2 ^ 153)).length = 40 ∧
      ∃ out d, dsaSignerPlatform.execute ⟨.sign (), [.inputIs .digest, .digestSha1, .input [0]]⟩ =
          some out ∧
        dsaSignatureLayout.decode out.bytes = some d ∧
        ∀ (key : Ref Unit) (m : Bytes) (v v' : World),
          dsaSha1Verify key (natToBytes (2 ^ 152) ++ natToBytes (2 ^ 153)) m dsaSignerPlatform v =
            .ok (0, v') →
          ∃ pk v₁ der ans, convertDsaPrivateKeyToPublicKey key dsaSignerPlatform v = .ok (some pk, v₁) ∧
            dsaSignatureLayout.decode der = some d ∧
            dsaSignerPlatform.execute ⟨.verify pk.val der, [.inputIs .plainText, .digestSha1, .input m]⟩ =
              some ans ∧
            ans.bool = true := by
  obtain ⟨w', h⟩ := dsaSha1Sign_of_signature (P := dsaSignerPlatform) (w := World.initial)
    (fun _ => rfl) ⟨0, ()⟩ [0] (r := 2 ^ 152) (s := 2 ^ 153) (by norm_num) (by norm_num) rfl
  have hr : (natToBytes (2 ^ 152)).length = 20 :=
    (natToBytes_length_eq_twenty_iff (by norm_num)).mpr le_rfl
  have hs : (natToBytes (2 ^ 153)).length = 20 :=
    (natToBytes_length_eq_twenty_iff (by norm_num)).mpr (by norm_num)
  have hpos : (2 : Nat) ^ 152 ≠ 0 ∧ (2 : Nat) ^ 153 ≠ 0 := ⟨by positivity, by positivity⟩
  simp only [stripLeadingZeros_twosComplementBytes, hpos.1, hpos.2, ite_false, hr, hs, ne_eq,
    not_true_eq_false, or_self, List.take_of_length_le hr.le, List.take_of_length_le hs.le] at h
  exact ⟨w', h, dsaSha1Sign_verify_roundTrip h⟩

end RoundTrip

end Libssh2
