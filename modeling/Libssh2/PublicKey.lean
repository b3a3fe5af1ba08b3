import Libssh2.Signature

namespace Libssh2

open Asn1

section Blob

variable {K R : Type}

-- The block appendBigEndianInteger of _libssh2_pub_priv_keyfilememory: the field's length as a
-- uint32 in network byte order, one more with a zero byte in front when the field's first byte
-- has its top bit set, then the field. An empty field has no first byte to read.
def appendBigEndianInteger (pubData data : Ref Bytes) : SecM K (Ref Bytes) := do
  let some first := data.val.head? | fault .indexOutOfBounds
  let length := data.val.length % 2 ^ 32
  let prependZero := first &&& 0x80 = 0x80
  let length := if prependZero then (length + 1) % 2 ^ 32 else length
  let pubData := cfDataAppendBytes pubData (u32be length)
  let pubData := if prependZero then cfDataAppendBytes pubData [0] else pubData
  return cfDataAppendBytes pubData data.val

-- The block of a branch of _libssh2_pub_priv_keyfilememory: the raw key is decoded and the
-- public fields are copied into new CFData objects, which the __block variables then hold.
def copyPublicFields (layout : Layout R) (fields : R → List Bytes) (keyRef : CssmKey)
    (captured : List (Option (Ref Bytes))) : SecM K (List (Option (Ref Bytes))) := do
  let some coder ← secAsn1CoderCreate | return captured
  let some privateKeyData ← secAsn1Decode coder keyRef.keyData layout | do
    secAsn1CoderRelease coder
    return captured
  let copies ← (fields privateKeyData).mapM cfDataCreate
  secAsn1CoderRelease coder
  return copies.map some

-- `if (x != NULL) CFRelease(x);` for each field in turn.
def releaseFields : List (Option (Ref Bytes)) → SecM K Unit
  | [] => pure ()
  | some field :: rest => do
    cfRelease field
    releaseFields rest
  | none :: rest => releaseFields rest

def releaseAll : List (Ref Bytes) → SecM K Unit
  | [] => pure ()
  | field :: rest => do
    cfRelease field
    releaseAll rest

-- What _libssh2_pub_priv_keyfilememory hands back on success: the malloced method name and the
-- malloced public key blob, whose lengths are the two length out-parameters.
structure PublicKeyOut where
  method : Ref Bytes
  pubkeydata : Ref Bytes

-- The RSA and DSA branches of _libssh2_pub_priv_keyfilememory: the key is unwrapped to the raw
-- format, its `count` public fields are copied out, and the blob is the method name followed by
-- each field, every one framed by its length.
def publicKeyBranch (key : Ref K) (format : BlobFormat) (layout : Layout R)
    (fields : R → List Bytes) (count : Nat) (methodName : String) :
    SecM K (Int × Option PublicKeyOut) := do
  let captured ← convertPrivateKeyToRawKey key format (copyPublicFields layout fields)
    (List.replicate count none)
  let some copies := captured.mapM id | do
    releaseFields captured
    cfRelease key
    return (1, none)
  let method := asciiBytes methodName
  let methodRef ← alloc method
  let pubData ← cfDataCreateMutable
  let pubData := cfDataAppendBytes pubData (u32be method.length)
  let pubData := cfDataAppendBytes pubData method
  let pubData ← copies.foldlM appendBigEndianInteger pubData
  let pubkeydata ← alloc pubData.val
  cfRelease pubData
  releaseAll copies
  cfRelease key
  return (0, some ⟨methodRef, pubkeydata⟩)

-- What _libssh2_pub_priv_keyfilememory does with the imported key: the branch of its algorithm.
def publicKeyOfKey (key : Ref K) : SecM K (Int × Option PublicKeyOut) := do
  let some cssmKey ← secKeyGetCSSMKey key | do
    cfRelease key
    return (1, none)
  let algorithm := cssmKey.keyHeader.algorithmId
  if algorithm = .rsa then
    return (← publicKeyBranch key .pkcs1 pkcs1RsaPrivateKeyLayout
      (fun k => [k.publicExponent, k.modulus]) 2 "ssh-rsa")
  if algorithm = .dsa then
    return (← publicKeyBranch key .openssl opensslDsaPrivateKeyLayout
      (fun k => [k.params.p, k.params.q, k.params.g, k.pub]) 4 "ssh-dss")
  cfRelease key
  return (1, none)

-- _libssh2_pub_priv_keyfilememory. A key is stored exactly when the import returns 0.
def pubPrivKeyfilememory (privatekeydata : Bytes) (passphrase : Option Bytes) :
    SecM K (Int × Option PublicKeyOut) := do
  let privatekeycfdata ← cfDataCreate privatekeydata
  let (error, key) ← keyNewFromData privatekeycfdata .privateKey none passphrase
  cfRelease privatekeycfdata
  let some key := key | return (error, none)
  publicKeyOfKey key

-- _libssh2_pub_priv_keyfile
def pubPrivKeyfile (privatekeypath : String) (passphrase : Option Bytes) :
    SecM K (Int × Option PublicKeyOut) := do
  let some privatekeydata ← createDataFromFile privatekeypath | return (1, none)
  let error ← pubPrivKeyfilememory privatekeydata.val passphrase
  cfRelease privatekeydata
  return error

end Blob

end Libssh2
