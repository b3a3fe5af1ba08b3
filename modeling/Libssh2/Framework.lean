import Mathlib.Data.Multiset.Basic
import Libssh2.Asn1.Templates

namespace Libssh2

open Asn1

-- Every CoreFoundation, Security or CSSM object the code holds: the identity of the object and
-- what it holds. CFRetain hands back the same identity.
structure Ref (α : Type) where
  id : Nat
  val : α

-- What stops a run: a release of an object the run does not hold, CFRelease(NULL), a NULL
-- object passed to a framework call, or a read outside an array or buffer.
inductive Fault
  | overRelease (id : Nat)
  | releaseNull
  | nullArgument
  | indexOutOfBounds
  deriving DecidableEq, Repr

-- SecExternalItemType
inductive ItemType
  | unknown
  | privateKey
  | publicKey
  | sessionKey
  | certificate
  | aggregate
  deriving DecidableEq, Repr

-- CSSM_KEYCLASS
inductive KeyClass
  | publicKey
  | privateKey
  | sessionKey
  | secretPart
  | other
  deriving DecidableEq, Repr

-- CSSM_KEYBLOB_TYPE
inductive BlobType
  | raw
  | reference
  | wrapped
  | other
  deriving DecidableEq, Repr

-- CSSM_KEYBLOB_FORMAT, with the two raw formats this file asks CSSM_WrapKey for.
inductive BlobFormat
  | none
  | pkcs1
  | openssl
  | other
  deriving DecidableEq, Repr

-- CSSM_ALGORITHMS
inductive Algorithm
  | rsa
  | dsa
  | other
  deriving DecidableEq, Repr

structure KeyHeader where
  blobType : BlobType
  format : BlobFormat
  algorithmId : Algorithm
  keyClass : KeyClass
  deriving DecidableEq, Repr

-- CSSM_KEY: the header and the key's bytes in the header's format.
structure CssmKey where
  keyHeader : KeyHeader
  keyData : Bytes
  deriving DecidableEq, Repr

-- What SecItemImport is asked: the bytes, the path hint (`fileNameOrExtension`), the type hint
-- and the passphrase of the key parameters. The format hint (kSecFormatUnknown), the flags (0)
-- and the key attributes ([kSecAttrIsExtractable]) are the same in every request.
structure ImportRequest where
  importedData : Bytes
  fileNameOrExtension : Option String
  inputType : ItemType
  passphrase : Option String
  deriving DecidableEq, Repr

-- An element of SecItemImport's result array: a SecKey, or an item of another type.
inductive ImportedItem (K : Type)
  | secKey (key : K)
  | other

-- kSecInputIsAttributeName's values
inductive InputIs
  | plainText
  | digest
  | raw
  deriving DecidableEq, Repr

-- The attributes this file sets on a transform.
inductive TransformAttribute
  | inputIs (value : InputIs)
  | digestSha1
  | input (data : Bytes)
  deriving DecidableEq, Repr

inductive TransformKind (K : Type)
  | sign (key : K)
  | verify (key : K) (signature : Bytes)
  | base64Encode

-- A SecTransform: what it was created to do and the attributes set on it so far.
structure Transform (K : Type) where
  kind : TransformKind K
  attributes : List TransformAttribute

-- What SecTransformExecute hands back: a CFData, or the CFBoolean of a verify transform.
inductive TransformOutput
  | data (bytes : Bytes)
  | boolean (value : Bool)

def TransformOutput.bytes : TransformOutput → Bytes
  | .data bytes => bytes
  | .boolean _ => []

def TransformOutput.bool : TransformOutput → Bool
  | .data _ => false
  | .boolean value => value

-- CCOperation
inductive CCOperation
  | encrypt
  | decrypt
  deriving DecidableEq, Repr

-- CCAlgorithm
inductive CCAlgorithm
  | aes
  | des
  | «3des»
  | cast
  | rc4
  | rc2
  | blowfish
  deriving DecidableEq, Repr

-- CCMode
inductive CCMode
  | ecb
  | cbc
  | cfb
  | ctr
  | ofb
  | rc4
  | cfb8
  deriving DecidableEq, Repr

-- What CCCryptorCreateWithMode is asked: the operation, mode and algorithm, the IV and the key
-- bytes. The padding (ccNoPadding), tweak, rounds and options are the same in every request.
structure CryptorRequest where
  op : CCOperation
  mode : CCMode
  alg : CCAlgorithm
  iv : Bytes
  key : Bytes
  deriving DecidableEq, Repr

-- A CCCryptorRef: the request it was made for and the blocks it has processed so far.
structure Cryptor where
  request : CryptorRequest
  processed : List Bytes

-- The frameworks the file calls, with `K` their opaque key. `fails n` says whether the n-th
-- fallible call of a run fails for a reason outside this model (an allocation, a CSP error);
-- `uninitializedKey` is what an uninitialised automatic `SecKeyRef` holds. `cryptorCreate` says
-- whether CommonCrypto accepts a request, and `cryptorUpdate` is what a cryptor makes of a block
-- after the blocks it has already processed.
structure Platform (K : Type) where
  itemImport : ImportRequest → Except Int (List (ImportedItem K))
  cssmKey : K → Option CssmKey
  wrapKey : CssmKey → BlobFormat → Option CssmKey
  execute : Transform K → Option TransformOutput
  readFile : String → Option (List (Option Bytes))
  fails : Nat → Bool
  uninitializedKey : Option (Ref K)
  cryptorCreate : CryptorRequest → Bool
  cryptorUpdate : Cryptor → Bytes → Option Bytes

-- No call fails for a reason outside the model.
def Platform.Reliable {K : Type} (P : Platform K) : Prop := ∀ n, P.fails n = false

-- The objects a run holds, one entry per acquisition not yet released; the identity of the next
-- new object; the count of fallible calls made; and the requests SecItemImport received.
structure World where
  ledger : Multiset Nat
  fresh : Nat
  calls : Nat
  imports : List ImportRequest

-- A world in which nothing is held yet.
def World.initial : World := ⟨0, 0, 0, []⟩

end Libssh2
