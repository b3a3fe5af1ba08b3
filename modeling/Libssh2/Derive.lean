import Libssh2.Import

namespace Libssh2

open Asn1

section Unwrap

variable {K β : Type}

-- convert_private_key_to_raw_key. The block gets the raw key and the values of the caller's
-- __block variables and gives back their new values; when it is not invoked, they keep theirs.
def convertPrivateKeyToRawKey (privateKey : Ref K) (privateFormat : BlobFormat)
    (convert : CssmKey → β → SecM K β) (captured : β) : SecM K β := do
  let some keyRef ← secKeyGetCSSMKey privateKey | return captured
  if keyRef.keyHeader.blobType = .raw then
    return (← convert keyRef captured)
  if keyRef.keyHeader.blobType ≠ .reference then return captured
  if !(← secKeyGetCSPHandle privateKey) then return captured
  let some context ← cssmCspCreateSymmetricContext | return captured
  let (updated, context) ← cssmUpdateContextAttributes context privateFormat
  if !updated then
    cssmDeleteContext context
    return captured
  let some rawKey ← cssmWrapKey context keyRef | do
    cssmDeleteContext context
    return captured
  let captured ← convert rawKey.val captured
  cssmDeleteContext context
  return captured

end Unwrap

section NewKey

variable {K : Type}

-- The private components of _libssh2_rsa_new, all given when `ddata` is not NULL.
structure RsaPrivateData where
  d : Bytes
  p : Bytes
  q : Bytes
  e1 : Bytes
  e2 : Bytes
  coeff : Bytes

-- _libssh2_rsa_new: a private key when the private components are given, a public key
-- otherwise.
def rsaNew (e n : Bytes) (priv : Option RsaPrivateData) : SecM K (Int × Option (Ref K)) :=
  match priv with
  | some priv =>
    newFromBinaryTemplate .privateKey pkcs1RsaPrivateKeyLayout
      { version := [rsaVersionTwoPrime], modulus := n, publicExponent := e,
        privateExponent := priv.d, prime1 := priv.p, prime2 := priv.q, exponent1 := priv.e1,
        exponent2 := priv.e2, coefficient := priv.coeff }
  | none =>
    newFromBinaryTemplate .publicKey pkcs1RsaPublicKeyLayout
      { modulus := n, publicExponent := e }

-- CSSMOID_DSA_CMS: id-dsa (1.2.840.10040.4.1), as the contents of its OBJECT IDENTIFIER.
def cssmoidDsaCms : Bytes := [0x2A, 0x86, 0x48, 0xCE, 0x38, 0x04, 0x01]

-- _libssh2_dsa_new: a private key when `x` is given, a public key otherwise.
def dsaNew (p q g y : Bytes) (x : Option Bytes) : SecM K (Int × Option (Ref K)) := do
  let params : DsaParams := { p := p, q := q, g := g }
  match x with
  | some x =>
    newFromBinaryTemplate .privateKey opensslDsaPrivateKeyLayout
      { version := [1], params := params, pub := y, priv := x }
  | none =>
    let some coder ← secAsn1CoderCreate | return (1, none)
    let some pub ← secAsn1EncodeItem coder unsignedIntegerLayout y | do
      secAsn1CoderRelease coder
      return (1, none)
    let publicKeyData : OpensslDsaPublicKey :=
      { alg := { oid := cssmoidDsaCms, params := params }, pub := { data := pub, length := pub.length } }
    let publicKeyData :=
      { publicKeyData with pub := { publicKeyData.pub with length := publicKeyData.pub.length * 8 } }
    let keyError ← newFromBinaryTemplate .publicKey opensslDsaPublicKeyLayout publicKeyData
    secAsn1CoderRelease coder
    return keyError

end NewKey

section Convert

variable {K R : Type}

-- convert_rsa_private_key and convert_dsa_private_key: a raw private key of the algorithm and
-- format is decoded with the layout, and its public fields are made into a new public key.
def convertPrivateKey (algorithm : Algorithm) (format : BlobFormat) (layout : Layout R)
    (newPublicKey : R → SecM K (Int × Option (Ref K))) (keyRef : CssmKey) :
    SecM K (Option (Ref K)) := do
  if keyRef.keyHeader.algorithmId ≠ algorithm then return none
  if keyRef.keyHeader.format ≠ format then return none
  if keyRef.keyHeader.keyClass ≠ .privateKey then return none
  let some coder ← secAsn1CoderCreate | return none
  let some privateKeyData ← secAsn1Decode coder keyRef.keyData layout | do
    secAsn1CoderRelease coder
    return none
  let (keyError, publicKey) ← newPublicKey privateKeyData
  secAsn1CoderRelease coder
  if keyError ≠ 0 then return none
  return publicKey

-- convert_rsa_private_key
def convertRsaPrivateKey : CssmKey → SecM K (Option (Ref K)) :=
  convertPrivateKey .rsa .pkcs1 pkcs1RsaPrivateKeyLayout fun privateKeyData =>
    rsaNew privateKeyData.publicExponent privateKeyData.modulus none

-- convert_dsa_private_key
def convertDsaPrivateKey : CssmKey → SecM K (Option (Ref K)) :=
  convertPrivateKey .dsa .openssl opensslDsaPrivateKeyLayout fun privateKeyData =>
    dsaNew privateKeyData.params.p privateKeyData.params.q privateKeyData.params.g
      privateKeyData.pub none

-- The value of an uninitialised automatic `SecKeyRef`.
def uninitializedKey : SecM K (Option (Ref K)) := do
  return (← platform).uninitializedKey

-- convert_rsa_private_key_to_public_key and convert_dsa_private_key_to_public_key: a public key
-- is returned retained, a private one converted. `__block SecKeyRef publicKey;` is not
-- initialised.
def convertToPublicKey (format : BlobFormat) (algorithm : Algorithm)
    (convertPrivate : CssmKey → SecM K (Option (Ref K))) (key : Ref K) :
    SecM K (Option (Ref K)) := do
  let publicKey ← uninitializedKey
  convertPrivateKeyToRawKey key format (fun keyRef _ => do
    if keyRef.keyHeader.algorithmId = algorithm ∧ keyRef.keyHeader.keyClass = .publicKey then
      return some (← cfRetain key)
    else convertPrivate keyRef) publicKey

-- convert_rsa_private_key_to_public_key
def convertRsaPrivateKeyToPublicKey : Ref K → SecM K (Option (Ref K)) :=
  convertToPublicKey .pkcs1 .rsa convertRsaPrivateKey

-- convert_dsa_private_key_to_public_key
def convertDsaPrivateKeyToPublicKey : Ref K → SecM K (Option (Ref K)) :=
  convertToPublicKey .openssl .dsa convertDsaPrivateKey

end Convert

end Libssh2
