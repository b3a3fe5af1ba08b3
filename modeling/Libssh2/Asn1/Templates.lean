import Libssh2.Asn1.Der

namespace Libssh2.Asn1

-- A C structure together with the template SecAsn1 reads and writes it with: the template's
-- entries name the structure's fields in order, as the `offsetof` entries do in the source.
structure Layout (R : Type) where
  template : Template
  toValue : R → Value
  ofValue : Value → Option R

namespace Layout

variable {R : Type}

-- SecAsn1EncodeItem of a structure with its template.
def encode (l : Layout R) (r : R) : Option Bytes := encodeItem l.template (l.toValue r)

-- SecAsn1Decode of a buffer into a structure of the template.
def decode (l : Layout R) (bs : Bytes) : Option R := (Asn1.decode l.template bs).bind l.ofValue

-- Decoding what was encoded reads the structure back in canonical form.
theorem decode_encode (l : Layout R) (r : R) {bs : Bytes} (h : l.encode r = some bs)
    (hlen : bs.length < 256 ^ 127) :
    l.decode bs = l.ofValue (canonical l.template (l.toValue r)) := by
  have := decodeItem_encodeItem l.template (l.toValue r) bs [] h hlen
  simp only [List.append_nil] at this
  simp [decode, Asn1.decode, this]

-- A layout reads back, as a value, exactly the structure it writes.
def ReadsBack (l : Layout R) : Prop := ∀ v r, l.ofValue v = some r → l.toValue r = v

-- Re-encoding a decoded structure and decoding again gives the same structure.
theorem decode_encode_of_decode (l : Layout R) (hl : l.ReadsBack) {bs bs' : Bytes} {r : R}
    (hdec : l.decode bs = some r) (henc : l.encode r = some bs') (hlen : bs'.length < 256 ^ 127) :
    l.decode bs' = some r := by
  simp only [decode, Option.bind_eq_some] at hdec
  obtain ⟨v, hv, hr⟩ := hdec
  rw [decode_encode l r henc hlen, hl v r hr, canonical_of_decode hv, hr]

end Layout

-- The X.690 contents of an INTEGER: the minimal two's-complement big-endian bytes.
def twosComplementBytes (v : Nat) : Bytes :=
  match natToBytes v with
  | [] => [0]
  | b :: bs => if b &&& 0x80 = 0x80 then 0 :: b :: bs else b :: bs

theorem twosComplementBytes_of_ne {b : UInt8} (hb : b ≠ 0) (bs : Bytes) :
    twosComplementBytes (bytesToNat (b :: bs)) =
      if b &&& 0x80 = 0x80 then 0 :: b :: bs else b :: bs := by
  simp [twosComplementBytes, natToBytes_bytesToNat hb]

theorem twosComplementBytes_ne_nil (v : Nat) : twosComplementBytes v ≠ [] := by
  unfold twosComplementBytes
  split
  · simp
  · split <;> simp

@[simp] theorem bytesToNat_twosComplementBytes (v : Nat) : bytesToNat (twosComplementBytes v) = v := by
  unfold twosComplementBytes
  split
  next h => simpa [h, eq_comm] using bytesToNat_natToBytes v
  next b bs h => split <;> simp [← h]

theorem twosComplementBytes_length_le (v : Nat) :
    (twosComplementBytes v).length ≤ (natToBytes v).length + 1 := by
  unfold twosComplementBytes
  split
  next h => simp [h]
  next b bs h => split <;> simp [h]

-- The encoder writes every nonempty INTEGER as the DER contents of its value.
theorem integerContents_eq (data : Bytes) (h : data ≠ []) :
    integerContents data = twosComplementBytes (bytesToNat data) := by
  induction data with
  | nil => exact absurd rfl h
  | cons b rest ih =>
    by_cases hb : b = 0
    · subst hb
      cases rest with
      | nil => simp [integerContents, twosComplementBytes, natToBytes_zero]
      | cons c rest =>
        by_cases hc : c &&& 0x80 = 0x80
        · simp [integerContents, hc, twosComplementBytes_of_ne (ne_zero_of_topBit hc)]
        · simpa [integerContents, hc] using ih (List.cons_ne_nil _ _)
    · simp [integerContents, hb, twosComplementBytes_of_ne hb]

-- The encoder leaves the DER contents of an INTEGER as they are.
@[simp] theorem integerContents_twosComplementBytes (v : Nat) :
    integerContents (twosComplementBytes v) = twosComplementBytes v := by
  rw [integerContents_eq _ (twosComplementBytes_ne_nil v), bytesToNat_twosComplementBytes]

-- The decoder leaves a positive INTEGER as the minimal bytes of its value.
theorem stripLeadingZeros_eq {data : Bytes} (h : 0 < bytesToNat data) :
    stripLeadingZeros data = natToBytes (bytesToNat data) := by
  induction data with
  | nil => simp at h
  | cons b rest ih =>
    by_cases hb : b = 0
    · subst hb
      cases rest with
      | nil => simp at h
      | cons c rest => simpa [stripLeadingZeros] using ih (by simpa using h)
    · rw [stripLeadingZeros_of_ne hb, natToBytes_bytesToNat hb]

section Pkcs1

-- <http://tools.ietf.org/html/rfc3447#appendix-A.1.2>
structure Pkcs1RsaPrivateKey where
  version : Bytes
  modulus : Bytes
  publicExponent : Bytes
  privateExponent : Bytes
  prime1 : Bytes
  prime2 : Bytes
  exponent1 : Bytes
  exponent2 : Bytes
  coefficient : Bytes

-- RSA_Version_TwoPrime
def rsaVersionTwoPrime : UInt8 := 0

def pkcs1RsaPrivateKeyTemplate : Template :=
  .sequence [.integer, .integer, .integer, .integer, .integer, .integer, .integer, .integer,
    .integer]

def pkcs1RsaPrivateKeyLayout : Layout Pkcs1RsaPrivateKey where
  template := pkcs1RsaPrivateKeyTemplate
  toValue k := .fields [.item k.version, .item k.modulus, .item k.publicExponent,
    .item k.privateExponent, .item k.prime1, .item k.prime2, .item k.exponent1, .item k.exponent2,
    .item k.coefficient]
  ofValue
    | .fields [.item version, .item modulus, .item publicExponent, .item privateExponent,
        .item prime1, .item prime2, .item exponent1, .item exponent2, .item coefficient] =>
      some ⟨version, modulus, publicExponent, privateExponent, prime1, prime2, exponent1,
        exponent2, coefficient⟩
    | _ => none

-- The structure's INTEGERs in template order.
def Pkcs1RsaPrivateKey.integers (k : Pkcs1RsaPrivateKey) : List Bytes :=
  [k.version, k.modulus, k.publicExponent, k.privateExponent, k.prime1, k.prime2, k.exponent1,
    k.exponent2, k.coefficient]

theorem pkcs1RsaPrivateKeyLayout_encode (k : Pkcs1RsaPrivateKey) :
    pkcs1RsaPrivateKeyLayout.encode k = some (integerSequenceDer k.integers) :=
  encodeItem_integerSequence k.integers

theorem pkcs1RsaPrivateKeyLayout_decode (k : Pkcs1RsaPrivateKey)
    (hsize : ∀ f ∈ k.integers, f.length < 2 ^ 64) :
    pkcs1RsaPrivateKeyLayout.decode (integerSequenceDer k.integers) =
      some ⟨stripLeadingZeros k.version, stripLeadingZeros k.modulus,
        stripLeadingZeros k.publicExponent, stripLeadingZeros k.privateExponent,
        stripLeadingZeros k.prime1, stripLeadingZeros k.prime2, stripLeadingZeros k.exponent1,
        stripLeadingZeros k.exponent2, stripLeadingZeros k.coefficient⟩ := by
  have h := decode_integerSequenceDer k.integers (by simp [Pkcs1RsaPrivateKey.integers]) hsize
  simp only [Layout.decode]
  erw [h]
  rfl

structure Pkcs1RsaPublicKey where
  modulus : Bytes
  publicExponent : Bytes

def pkcs1RsaPublicKeyTemplate : Template := .sequence [.integer, .integer]

def pkcs1RsaPublicKeyLayout : Layout Pkcs1RsaPublicKey where
  template := pkcs1RsaPublicKeyTemplate
  toValue k := .fields [.item k.modulus, .item k.publicExponent]
  ofValue
    | .fields [.item modulus, .item publicExponent] => some ⟨modulus, publicExponent⟩
    | _ => none

theorem pkcs1RsaPublicKeyLayout_encode (k : Pkcs1RsaPublicKey) :
    pkcs1RsaPublicKeyLayout.encode k = some (integerSequenceDer [k.modulus, k.publicExponent]) :=
  encodeItem_integerSequence [k.modulus, k.publicExponent]

end Pkcs1

section Dsa

structure DsaParams where
  p : Bytes
  q : Bytes
  g : Bytes

structure OpensslDsaPrivateKey where
  version : Bytes
  params : DsaParams
  pub : Bytes
  priv : Bytes

def opensslDsaPrivateKeyTemplate : Template :=
  .sequence [.integer, .integer, .integer, .integer, .integer, .integer]

def opensslDsaPrivateKeyLayout : Layout OpensslDsaPrivateKey where
  template := opensslDsaPrivateKeyTemplate
  toValue k := .fields [.item k.version, .item k.params.p, .item k.params.q, .item k.params.g,
    .item k.pub, .item k.priv]
  ofValue
    | .fields [.item version, .item p, .item q, .item g, .item pub, .item priv] =>
      some ⟨version, ⟨p, q, g⟩, pub, priv⟩
    | _ => none

def OpensslDsaPrivateKey.integers (k : OpensslDsaPrivateKey) : List Bytes :=
  [k.version, k.params.p, k.params.q, k.params.g, k.pub, k.priv]

theorem opensslDsaPrivateKeyLayout_encode (k : OpensslDsaPrivateKey) :
    opensslDsaPrivateKeyLayout.encode k = some (integerSequenceDer k.integers) :=
  encodeItem_integerSequence k.integers

theorem opensslDsaPrivateKeyLayout_decode (k : OpensslDsaPrivateKey)
    (hsize : ∀ f ∈ k.integers, f.length < 2 ^ 64) :
    opensslDsaPrivateKeyLayout.decode (integerSequenceDer k.integers) =
      some ⟨stripLeadingZeros k.version, ⟨stripLeadingZeros k.params.p,
        stripLeadingZeros k.params.q, stripLeadingZeros k.params.g⟩, stripLeadingZeros k.pub,
        stripLeadingZeros k.priv⟩ := by
  have h := decode_integerSequenceDer k.integers (by simp [OpensslDsaPrivateKey.integers]) hsize
  simp only [Layout.decode]
  erw [h]
  rfl

-- A CSSM_DATA whose Length is not its byte count: the BIT STRING of a DSA public key, whose
-- Length counts bits.
structure CssmData where
  data : Bytes
  length : Nat

structure DsaAlg where
  oid : Bytes
  params : DsaParams

structure OpensslDsaPublicKey where
  alg : DsaAlg
  pub : CssmData

def dsaParamsTemplate : Template := .sequence [.integer, .integer, .integer]

def dsaAlgTemplate : Template := .sequence [.objectId, dsaParamsTemplate]

def opensslDsaPublicKeyTemplate : Template := .sequence [dsaAlgTemplate, .bitString]

def opensslDsaPublicKeyLayout : Layout OpensslDsaPublicKey where
  template := opensslDsaPublicKeyTemplate
  toValue k := .fields [.fields [.item k.alg.oid,
    .fields [.item k.alg.params.p, .item k.alg.params.q, .item k.alg.params.g]],
    .bits k.pub.data k.pub.length]
  ofValue
    | .fields [.fields [.item oid, .fields [.item p, .item q, .item g]], .bits data length] =>
      some ⟨⟨oid, ⟨p, q, g⟩⟩, ⟨data, length⟩⟩
    | _ => none

-- The SubjectPublicKeyInfo of a DSA key.
theorem opensslDsaPublicKeyLayout_encode (k : OpensslDsaPublicKey) :
    opensslDsaPublicKeyLayout.encode k =
      some (encodeTlv sequenceTag
        (encodeTlv sequenceTag (encodeTlv objectIdTag k.alg.oid ++
            integerSequenceDer [k.alg.params.p, k.alg.params.q, k.alg.params.g]) ++
          encodeTlv bitStringTag (bitStringContents k.pub.data k.pub.length))) := by
  simp [Layout.encode, opensslDsaPublicKeyLayout, opensslDsaPublicKeyTemplate, dsaAlgTemplate,
    dsaParamsTemplate, encodeItem, encodeFields, integerSequenceDer]

-- kSecAsn1UnsignedIntegerTemplate, on a bare CSSM_DATA.
def unsignedIntegerLayout : Layout Bytes where
  template := .integer
  toValue d := .item d
  ofValue
    | .item d => some d
    | _ => none

structure DsaSignature where
  r : Bytes
  s : Bytes

def dsaSignatureTemplate : Template := .sequence [.integer, .integer]

def dsaSignatureLayout : Layout DsaSignature where
  template := dsaSignatureTemplate
  toValue sig := .fields [.item sig.r, .item sig.s]
  ofValue
    | .fields [.item r, .item s] => some ⟨r, s⟩
    | _ => none

theorem dsaSignatureLayout_encode (sig : DsaSignature) :
    dsaSignatureLayout.encode sig = some (integerSequenceDer [sig.r, sig.s]) :=
  encodeItem_integerSequence [sig.r, sig.s]

theorem dsaSignatureLayout_decode (sig : DsaSignature)
    (hsize : ∀ f ∈ [sig.r, sig.s], f.length < 2 ^ 64) :
    dsaSignatureLayout.decode (integerSequenceDer [sig.r, sig.s]) =
      some ⟨stripLeadingZeros sig.r, stripLeadingZeros sig.s⟩ := by
  have h := decode_integerSequenceDer [sig.r, sig.s] (by simp) hsize
  simp only [Layout.decode]
  erw [h]
  rfl

theorem dsaSignatureLayout_readsBack : dsaSignatureLayout.ReadsBack := by
  intro v r h
  simp only [dsaSignatureLayout] at h ⊢
  split at h
  · cases h
    rfl
  · cases h

end Dsa

end Libssh2.Asn1
