import Libssh2.Asn1.Templates

namespace Libssh2

open Asn1

section Write

-- A string of the SSH wire format (RFC 4251, section 5): a uint32 length, then the bytes.
def sshString (s : Bytes) : Bytes := u32be s.length ++ s

-- An mpint: the string of the integer's minimal two's-complement bytes, so a 0x00 comes first
-- exactly when the top bit of the first byte is set. Zero is the empty string.
def mpint (v : Nat) : Bytes := sshString (if v = 0 then [] else twosComplementBytes v)

-- The public part of a key of the two kinds the file handles.
inductive SshPublicKey
  | rsa (e n : Nat)
  | dss (p q g y : Nat)
  deriving DecidableEq, Repr

def SshPublicKey.method : SshPublicKey → String
  | .rsa .. => "ssh-rsa"
  | .dss .. => "ssh-dss"

def SshPublicKey.integers : SshPublicKey → List Nat
  | .rsa e n => [e, n]
  | .dss p q g y => [p, q, g, y]

-- The public key blob (RFC 4253, section 6.6): the method name, then the key's integers.
def SshPublicKey.blob (k : SshPublicKey) : Bytes :=
  sshString (asciiBytes k.method) ++ k.integers.flatMap mpint

end Write

section Read

-- A uint32 in network byte order.
def readUint32 : Bytes → Option (Nat × Bytes)
  | a :: b :: c :: d :: rest => some (bytesToNat [a, b, c, d], rest)
  | _ => none

def readString (bs : Bytes) : Option (Bytes × Bytes) := do
  let (n, rest) ← readUint32 bs
  if n ≤ rest.length then some (rest.take n, rest.drop n) else none

-- An mpint the reader accepts as a natural number: a set top bit would make it negative.
def readMpint (bs : Bytes) : Option (Nat × Bytes) := do
  let (s, rest) ← readString bs
  match s with
  | [] => some (0, rest)
  | b :: _ => if b &&& 0x80 = 0x80 then none else some (bytesToNat s, rest)

def readMpints : Nat → Bytes → Option (List Nat × Bytes)
  | 0, bs => some ([], bs)
  | n + 1, bs => do
    let (v, rest) ← readMpint bs
    let (vs, rest) ← readMpints n rest
    some (v :: vs, rest)

-- How many integers follow the method name in a key blob of that method.
def integerCount (method : Bytes) : Option Nat :=
  if method = asciiBytes "ssh-rsa" then some 2
  else if method = asciiBytes "ssh-dss" then some 4
  else none

-- A reader of public key blobs: the method name, then its integers, and nothing after them.
def readPublicKeyBlob (blob : Bytes) : Option (Bytes × List Nat) := do
  let (method, rest) ← readString blob
  let count ← integerCount method
  let (values, rest) ← readMpints count rest
  if rest = [] then some (method, values) else none

end Read

section RoundTrip

theorem readUint32_u32be {n : Nat} (h : n < 2 ^ 32) (rest : Bytes) :
    readUint32 (u32be n ++ rest) = some (n, rest) := by
  conv_rhs => rw [← bytesToNat_u32be h]
  rfl

theorem readString_sshString {s : Bytes} (h : s.length < 2 ^ 32) (rest : Bytes) :
    readString (sshString s ++ rest) = some (s, rest) := by
  simp [readString, sshString, readUint32_u32be h]

-- The first byte of an integer's two's-complement bytes never has its top bit set.
theorem twosComplementBytes_head (v : Nat) :
    ∃ b bs, twosComplementBytes v = b :: bs ∧ ¬ b &&& 0x80 = 0x80 := by
  unfold twosComplementBytes
  split
  · exact ⟨0, [], rfl, by decide⟩
  · next b bs _ =>
    split
    · exact ⟨0, _, rfl, by decide⟩
    · exact ⟨b, bs, rfl, ‹_›⟩

theorem readMpint_mpint {v : Nat} (h : (twosComplementBytes v).length < 2 ^ 32) (rest : Bytes) :
    readMpint (mpint v ++ rest) = some (v, rest) := by
  by_cases hv : v = 0
  · simp [readMpint, mpint, hv, readString_sshString]
  · obtain ⟨b, bs, hbs, hb⟩ := twosComplementBytes_head v
    rw [hbs] at h
    have := bytesToNat_twosComplementBytes v
    rw [hbs] at this
    simp [readMpint, mpint, hv, hbs, readString_sshString h, hb, this]

theorem readMpints_flatMap (vs : List Nat)
    (h : ∀ v ∈ vs, (twosComplementBytes v).length < 2 ^ 32) (rest : Bytes) :
    readMpints vs.length (vs.flatMap mpint ++ rest) = some (vs, rest) := by
  induction vs with
  | nil => rfl
  | cons v vs ih =>
    simp [readMpints, readMpint_mpint (h v (by simp)), ih fun v hv => h v (by simp [hv])]

-- The reader gives back the method name and the integers of every blob whose integers' lengths
-- fit their uint32.
theorem readPublicKeyBlob_blob (k : SshPublicKey)
    (h : ∀ v ∈ k.integers, (twosComplementBytes v).length < 2 ^ 32) :
    readPublicKeyBlob k.blob = some (asciiBytes k.method, k.integers) := by
  have hcount : integerCount (asciiBytes k.method) = some k.integers.length := by
    cases k <;> rfl
  have hmethod : (asciiBytes k.method).length < 2 ^ 32 := by
    rw [show (asciiBytes k.method).length = 7 by cases k <;> rfl]
    norm_num
  have hvalues := readMpints_flatMap k.integers h []
  rw [List.append_nil] at hvalues
  simp [readPublicKeyBlob, SshPublicKey.blob, readString_sshString hmethod, hcount,
    hvalues]

end RoundTrip

end Libssh2
