import Libssh2.SecM

namespace Libssh2

section Cipher

variable {K : Type}

-- The values of _libssh2_cipher_type, as the switches of _libssh2_cipher_init name them.
inductive CipherType
  | aes256
  | aes192
  | aes128
  | aes256ctr
  | aes192ctr
  | aes128ctr
  | blowfish
  | arcfour
  | cast5
  | «3des»
  deriving DecidableEq, Repr

-- The first switch of _libssh2_cipher_init: the algorithm, and the mode, CBC unless the cipher
-- is a counter mode one.
def CipherType.algMode : CipherType → CCAlgorithm × CCMode
  | .aes256 | .aes192 | .aes128 => (.aes, .cbc)
  | .aes256ctr | .aes192ctr | .aes128ctr => (.aes, .ctr)
  | .blowfish => (.blowfish, .cbc)
  | .arcfour => (.rc4, .cbc)
  | .cast5 => (.cast, .cbc)
  | .«3des» => (.«3des», .cbc)

-- The second switch: the key length in bytes.
def CipherType.keyLength : CipherType → Nat
  | .aes256 | .aes256ctr => 32
  | .aes192 | .aes192ctr => 24
  | .aes128 | .aes128ctr => 16
  | .blowfish => 16
  | .arcfour => 16
  | .cast5 => 16
  | .«3des» => 24

-- The request _libssh2_cipher_init hands CCCryptorCreateWithMode; CommonCrypto reads the first
-- keyLength bytes of `secret`.
def cipherRequest (algo : CipherType) (iv secret : Bytes) (encrypt : Int) : CryptorRequest :=
  { op := if encrypt = 1 then .encrypt else .decrypt,
    mode := algo.algMode.2,
    alg := algo.algMode.1,
    iv := iv,
    key := secret.take algo.keyLength }

-- _libssh2_cipher_init: the return code and the cryptor stored in `*ctx`.
def cipherInit (algo : CipherType) (iv secret : Bytes) (encrypt : Int) :
    SecM K (Int × Option (Ref Cryptor)) := do
  let some ctx ← ccCryptorCreateWithMode (cipherRequest algo iv secret encrypt) | return (1, none)
  return (0, some ctx)

-- _libssh2_cipher_crypt: the return code, the cryptor, and the block, which is overwritten in
-- place when the update succeeds.
def cipherCrypt (ctx : Ref Cryptor) (_algo : CipherType) (_encrypt : Int) (block : Bytes) :
    SecM K (Int × Ref Cryptor × Bytes) := do
  let some (out, ctx) ← ccCryptorUpdate ctx block | return (1, ctx, block)
  return (0, ctx, out)

-- _libssh2_cipher_dtor
def cipherDtor (ctx : Ref Cryptor) : SecM K Unit := ccCryptorRelease ctx

-- _libssh2_init_aes_ctr, which is unimplemented.
def initAesCtr : SecM K Unit := pure ()

end Cipher

end Libssh2
