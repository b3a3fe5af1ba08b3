import Libssh2.Derive

namespace Libssh2

open Asn1

section Transforms

variable {K : Type}

-- _libssh2_key_sign_hash: the signature in a new malloced block, or none. The three attribute
-- calls are all made before their results are looked at.
def keySignHash (key : Ref K) (hash : Bytes) : SecM K (Option (Ref Bytes)) := do
  let some transform ← secSignTransformCreate key | return none
  let (set1, transform) ← secTransformSetAttribute (some transform) (.inputIs .digest)
  let (set2, transform) ← secTransformSetAttribute (some transform) .digestSha1
  let inputData ← cfDataCreate hash
  let (set3, transform) ← secTransformSetAttribute (some transform) (.input inputData.val)
  if !(set1 && set2 && set3) then
    cfRelease inputData
    cfRelease transform
    return none
  let signatureData ← secTransformExecute transform
  cfRelease inputData
  cfRelease transform
  let some signatureData := signatureData | return none
  let signature ← alloc signatureData.val.bytes
  return some signature

-- _libssh2_key_verify_hash. A NULL transform releases the signature data and carries on.
def keyVerifyHash (key : Ref K) (sig m : Bytes) : SecM K Bool := do
  let signatureData ← cfDataCreate sig
  let transform ← secVerifyTransformCreate key signatureData
  if transform.isNone then cfRelease signatureData
  let (set1, transform) ← secTransformSetAttribute transform (.inputIs .plainText)
  let (set2, transform) ← secTransformSetAttribute (some transform) .digestSha1
  let message ← cfDataCreate m
  let (set3, transform) ← secTransformSetAttribute (some transform) (.input message.val)
  if !(set1 && set2 && set3) then
    cfRelease message
    cfRelease transform
    cfRelease signatureData
    return false
  let output ← secTransformExecuteWithError transform
  cfRelease message
  cfRelease transform
  cfRelease signatureData
  match output with
  | .error error =>
    cfRelease error
    return false
  | .ok output => return output.val.bool

end Transforms

section Rsa

variable {K : Type}

-- _libssh2_rsa_free
def rsaFree (rsa : Ref K) : SecM K Int := do
  cfRelease rsa
  return 0

-- _libssh2_rsa_sha1_verify
def rsaSha1Verify (rsa : Ref K) (sig m : Bytes) : SecM K Int := do
  let some publicKey ← convertRsaPrivateKeyToPublicKey rsa | return 1
  let verify ← keyVerifyHash publicKey sig m
  cfRelease publicKey
  return if verify then 0 else 1

-- _libssh2_rsa_sha1_sign: the return code and the malloced signature.
def rsaSha1Sign (rsa : Ref K) (hash : Bytes) : SecM K (Int × Option (Ref Bytes)) := do
  let signature ← keySignHash rsa hash
  return (if signature.isSome then 0 else 1, signature)

end Rsa

section Dsa

variable {K : Type}

-- _libssh2_dsa_free
def dsaFree (dsa : Ref K) : SecM K Int := do
  cfRelease dsa
  return 0

-- _libssh2_dsa_sha1_verify: the two 20-byte integers of `sig` go back into a Dss-Sig-Value.
def dsaSha1Verify (dsa : Ref K) (sig m : Bytes) : SecM K Int := do
  let some publicKey ← convertDsaPrivateKeyToPublicKey dsa | return 1
  let some coder ← secAsn1CoderCreate | do
    cfRelease publicKey
    return 1
  let dsaSignature : DsaSignature := { r := sig.take 20, s := (sig.drop 20).take 20 }
  let some encodedSignature ← secAsn1EncodeItem coder dsaSignatureLayout dsaSignature | do
    secAsn1CoderRelease coder
    cfRelease publicKey
    return 1
  let verify ← keyVerifyHash publicKey encodedSignature m
  secAsn1CoderRelease coder
  cfRelease publicKey
  return if verify then 0 else 1

-- _libssh2_dsa_sha1_sign: the return code and what was written to `sig_out`. The signer's
-- Dss-Sig-Value is decoded and its two integers copied out, 20 bytes each.
def dsaSha1Sign (dsa : Ref K) (hash : Bytes) : SecM K (Int × Option Bytes) := do
  let some sig ← keySignHash dsa hash | return (1, none)
  let some coder ← secAsn1CoderCreate | do
    free sig
    return (1, none)
  let dsaSignature ← secAsn1Decode coder sig.val dsaSignatureLayout
  match dsaSignature with
  | some dsaSignature =>
    if dsaSignature.r.length ≠ 20 ∨ dsaSignature.s.length ≠ 20 then
      secAsn1CoderRelease coder
      free sig
      return (1, none)
    let sigOut := dsaSignature.r.take 20 ++ dsaSignature.s.take 20
    secAsn1CoderRelease coder
    free sig
    return (0, some sigOut)
  | none =>
    secAsn1CoderRelease coder
    free sig
    return (1, none)

end Dsa

end Libssh2
