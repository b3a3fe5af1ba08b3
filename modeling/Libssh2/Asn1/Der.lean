import Libssh2.Bytes

namespace Libssh2.Asn1

-- The template entries this file's schemas are made of: SEC_ASN1_INTEGER, SEC_ASN1_BIT_STRING,
-- SEC_ASN1_OBJECT_ID, and SEC_ASN1_SEQUENCE followed by its entries. A SEC_ASN1_INLINE of a
-- sequence template is that sequence written in place.
inductive Template
  | integer
  | bitString
  | objectId
  | sequence (fields : List Template)

-- What a template reads or fills in the C structure: a CSSM_DATA for an INTEGER or an OBJECT
-- IDENTIFIER, a CSSM_DATA whose Length counts bits for a BIT STRING, and the fields of a
-- nested structure.
inductive Value
  | item (data : Bytes)
  | bits (data : Bytes) (length : Nat)
  | fields (values : List Value)

def integerTag : UInt8 := 0x02
def bitStringTag : UInt8 := 0x03
def objectIdTag : UInt8 := 0x06
def sequenceTag : UInt8 := 0x30

section Encode

-- Length octets: the short form below 128, otherwise 0x80 plus the count of the big-endian
-- length bytes that follow.
def encodeLength (n : Nat) : Bytes :=
  if n < 128 then [UInt8.ofNat n]
  else UInt8.ofNat (0x80 + (natToBytes n).length) :: natToBytes n

def encodeTlv (tag : UInt8) (contents : Bytes) : Bytes :=
  tag :: (encodeLength contents.length ++ contents)

-- The contents of an unsigned INTEGER as the encoder writes them: extraneous leading zeros are
-- skipped, and a zero byte goes in front of a first significant byte whose top bit is set.
def integerContents : Bytes → Bytes
  | [] => []
  | b :: rest =>
    if b ≠ 0 then (if b &&& 0x80 = 0x80 then 0 :: b :: rest else b :: rest)
    else match rest with
      | [] => [b]
      | c :: _ => if c &&& 0x80 = 0x80 then b :: rest else integerContents rest

-- A BIT STRING's contents: the count of unused bits in the last byte, then the bytes that hold
-- `length` bits.
def bitStringContents (data : Bytes) (length : Nat) : Bytes :=
  UInt8.ofNat ((8 - length % 8) % 8) :: data.take ((length + 7) / 8)

mutual

-- SecAsn1EncodeItem: `none` when the structure does not have the template's shape.
def encodeItem : Template → Value → Option Bytes
  | .integer, .item data => some (encodeTlv integerTag (integerContents data))
  | .bitString, .bits data length => some (encodeTlv bitStringTag (bitStringContents data length))
  | .objectId, .item data => some (encodeTlv objectIdTag data)
  | .sequence fields, .fields values => (encodeFields fields values).map (encodeTlv sequenceTag)
  | _, _ => none

def encodeFields : List Template → List Value → Option Bytes
  | [], [] => some []
  | t :: ts, v :: vs => do
    let head ← encodeItem t v
    let rest ← encodeFields ts vs
    some (head ++ rest)
  | _, _ => none

end

end Encode

section Decode

-- Length octets: the short form, or 0x80 + k followed by k big-endian bytes. The indefinite
-- form 0x80 is not DER.
def decodeLength : Bytes → Option (Nat × Bytes)
  | [] => none
  | b :: rest =>
    if b.toNat < 0x80 then some (b.toNat, rest)
    else if b.toNat = 0x80 ∨ rest.length < b.toNat - 0x80 then none
    else some (bytesToNat (rest.take (b.toNat - 0x80)), rest.drop (b.toNat - 0x80))

def decodeTlv (tag : UInt8) : Bytes → Option (Bytes × Bytes)
  | [] => none
  | t :: rest =>
    if t ≠ tag then none
    else match decodeLength rest with
      | none => none
      | some (n, rest) => if rest.length < n then none else some (rest.take n, rest.drop n)

-- An unsigned INTEGER as the decoder stores it: leading zeros stripped, down to one byte.
def stripLeadingZeros : Bytes → Bytes
  | b :: c :: rest => if b = 0 then stripLeadingZeros (c :: rest) else b :: c :: rest
  | bs => bs

def decodeBitString : Bytes → Option Value
  | [] => none
  | unused :: data =>
    if unused.toNat < 8 then some (.bits data (8 * data.length - unused.toNat)) else none

mutual

def decodeItem : Template → Bytes → Option (Value × Bytes)
  | .integer, bs => (decodeTlv integerTag bs).map fun (c, rest) => (.item (stripLeadingZeros c), rest)
  | .bitString, bs => do
    let (c, rest) ← decodeTlv bitStringTag bs
    let v ← decodeBitString c
    some (v, rest)
  | .objectId, bs => (decodeTlv objectIdTag bs).map fun (c, rest) => (.item c, rest)
  | .sequence fields, bs => do
    let (c, rest) ← decodeTlv sequenceTag bs
    let (values, extra) ← decodeFields fields c
    if extra = [] then some (.fields values, rest) else none

def decodeFields : List Template → Bytes → Option (List Value × Bytes)
  | [], bs => some ([], bs)
  | t :: ts, bs => do
    let (v, rest) ← decodeItem t bs
    let (vs, rest) ← decodeFields ts rest
    some (v :: vs, rest)

end

-- SecAsn1Decode: the whole buffer must be one item of the template.
def decode (t : Template) (bs : Bytes) : Option Value := do
  let (v, rest) ← decodeItem t bs
  if rest = [] then some v else none

end Decode

section RoundTrip

mutual

-- What decoding gives back for an encoded structure: integers lose their redundant leading
-- zeros, and a bit string keeps only the bytes its length covers.
def canonical : Template → Value → Value
  | .integer, .item data => .item (stripLeadingZeros data)
  | .bitString, .bits data length =>
    .bits (data.take ((length + 7) / 8))
      (8 * (data.take ((length + 7) / 8)).length - (8 - length % 8) % 8)
  | .sequence fields, .fields values => .fields (canonicalFields fields values)
  | _, v => v

def canonicalFields : List Template → List Value → List Value
  | t :: ts, v :: vs => canonical t v :: canonicalFields ts vs
  | _, vs => vs

end

theorem decodeLength_encodeLength {n : Nat} (rest : Bytes) (h : n < 256 ^ 127) :
    decodeLength (encodeLength n ++ rest) = some (n, rest) := by
  unfold encodeLength
  split
  · simp [decodeLength, UInt8.toNat_ofNat_of_lt (show n < 256 by omega), *]
  · have hk : (natToBytes n).length ≤ 127 := (natToBytes_length_le_iff n 127).mpr h
    obtain ⟨b, bs, -, hbs⟩ := natToBytes_cons (show 0 < n by omega)
    have hpos : 0 < (natToBytes n).length := by simp [hbs]
    have hbyte : (UInt8.ofNat (0x80 + (natToBytes n).length)).toNat = 0x80 + (natToBytes n).length :=
      UInt8.toNat_ofNat_of_lt (by simp only [UInt8.size]; omega)
    simp only [List.cons_append, decodeLength, hbyte, List.length_append]
    rw [if_neg (by omega), if_neg (by omega), Nat.add_sub_cancel_left, List.take_left,
      List.drop_left, bytesToNat_natToBytes]

theorem decodeTlv_encodeTlv (tag : UInt8) (contents rest : Bytes)
    (h : (encodeTlv tag contents).length < 256 ^ 127) :
    decodeTlv tag (encodeTlv tag contents ++ rest) = some (contents, rest) := by
  have hc : contents.length < 256 ^ 127 := by simp [encodeTlv] at h; omega
  simp [encodeTlv, decodeTlv, List.append_assoc, decodeLength_encodeLength _ hc]

theorem stripLeadingZeros_of_ne {b : UInt8} (hb : b ≠ 0) (rest : Bytes) :
    stripLeadingZeros (b :: rest) = b :: rest := by
  cases rest <;> simp [stripLeadingZeros, hb]

theorem ne_zero_of_topBit {b : UInt8} (h : b &&& 0x80 = 0x80) : b ≠ 0 := by
  rintro rfl
  exact absurd h (by decide)

-- Decoding an encoded INTEGER gives the stripped bytes, whatever zeros the encoder kept.
@[simp] theorem stripLeadingZeros_integerContents (data : Bytes) :
    stripLeadingZeros (integerContents data) = stripLeadingZeros data := by
  induction data with
  | nil => rfl
  | cons b rest ih =>
    by_cases hb : b = 0
    · subst hb
      cases rest with
      | nil => rfl
      | cons c rest =>
        by_cases hc : c &&& 0x80 = 0x80
        · simp [integerContents, hc]
        · simpa [integerContents, hc, stripLeadingZeros] using ih
    · by_cases ht : b &&& 0x80 = 0x80
      · simp [integerContents, hb, ht, stripLeadingZeros, stripLeadingZeros_of_ne hb]
      · simp [integerContents, hb, ht]

-- The encoder ignores redundant leading zeros.
@[simp] theorem integerContents_stripLeadingZeros (data : Bytes) :
    integerContents (stripLeadingZeros data) = integerContents data := by
  induction data with
  | nil => rfl
  | cons b rest ih =>
    cases rest with
    | nil => rfl
    | cons c rest =>
      by_cases hb : b = 0
      · subst hb
        by_cases hc : c &&& 0x80 = 0x80
        · simpa [stripLeadingZeros, integerContents, hc, ne_zero_of_topBit hc] using ih
        · simpa [stripLeadingZeros, integerContents, hc] using ih
      · simp [stripLeadingZeros, hb]

theorem decodeBitString_bitStringContents (data : Bytes) (length : Nat) :
    decodeBitString (bitStringContents data length) = some (canonical .bitString (.bits data length)) := by
  have hu : (UInt8.ofNat ((8 - length % 8) % 8)).toNat = (8 - length % 8) % 8 :=
    UInt8.toNat_ofNat_of_lt (by simp only [UInt8.size]; omega)
  simp only [bitStringContents, decodeBitString, hu, canonical]
  rw [if_pos (by omega)]

mutual

-- The decoder reads back the canonical form of every structure the encoder writes, as long as
-- every length fits the 127 length bytes of the long form.
theorem decodeItem_encodeItem : ∀ (t : Template) (v : Value) (bs rest : Bytes),
    encodeItem t v = some bs → bs.length < 256 ^ 127 →
      decodeItem t (bs ++ rest) = some (canonical t v, rest)
  | .integer, .item data, bs, rest, h, hlen => by
    simp only [encodeItem, Option.some.injEq] at h
    subst h
    simp [decodeItem, canonical, decodeTlv_encodeTlv _ _ _ hlen]
  | .bitString, .bits data length, bs, rest, h, hlen => by
    simp only [encodeItem, Option.some.injEq] at h
    subst h
    simp [decodeItem, decodeTlv_encodeTlv _ _ _ hlen, decodeBitString_bitStringContents]
  | .objectId, .item data, bs, rest, h, hlen => by
    simp only [encodeItem, Option.some.injEq] at h
    subst h
    simp [decodeItem, canonical, decodeTlv_encodeTlv _ _ _ hlen]
  | .sequence fields, .fields values, bs, rest, h, hlen => by
    simp only [encodeItem, Option.map_eq_some'] at h
    obtain ⟨c, hc, rfl⟩ := h
    have hclen : c.length < 256 ^ 127 := by simp [encodeTlv] at hlen; omega
    have hfields := decodeFields_encodeFields fields values c [] hc hclen
    simp only [List.append_nil] at hfields
    simp [decodeItem, canonical, decodeTlv_encodeTlv _ _ _ hlen, hfields]
  | .integer, .bits _ _, _, _, h, _ | .integer, .fields _, _, _, h, _
  | .bitString, .item _, _, _, h, _ | .bitString, .fields _, _, _, h, _
  | .objectId, .bits _ _, _, _, h, _ | .objectId, .fields _, _, _, h, _
  | .sequence _, .item _, _, _, h, _ | .sequence _, .bits _ _, _, _, h, _ => by
    simp [encodeItem] at h

theorem decodeFields_encodeFields : ∀ (ts : List Template) (vs : List Value) (bs rest : Bytes),
    encodeFields ts vs = some bs → bs.length < 256 ^ 127 →
      decodeFields ts (bs ++ rest) = some (canonicalFields ts vs, rest)
  | [], [], bs, rest, h, _ => by
    simp only [encodeFields, Option.some.injEq] at h
    subst h
    simp [decodeFields, canonicalFields]
  | t :: ts, v :: vs, bs, rest, h, hlen => by
    simp only [encodeFields, Option.bind_eq_bind, Option.bind_eq_some, Option.some.injEq] at h
    obtain ⟨head, hhead, tail, htail, rfl⟩ := h
    simp only [List.length_append] at hlen
    have h1 := decodeItem_encodeItem t v head (tail ++ rest) hhead (by omega)
    have h2 := decodeFields_encodeFields ts vs tail rest htail (by omega)
    simp [decodeFields, List.append_assoc, h1, h2, canonicalFields]
  | [], _ :: _, _, _, h, _ | _ :: _, [], _, _, h, _ => by
    simp [encodeFields] at h

end

theorem stripLeadingZeros_idem :
    ∀ bs : Bytes, stripLeadingZeros (stripLeadingZeros bs) = stripLeadingZeros bs
  | [] | [_] => rfl
  | b :: c :: rest => by
    by_cases hb : b = 0
    · rw [stripLeadingZeros, if_pos hb, stripLeadingZeros_idem (c :: rest)]
    · rw [stripLeadingZeros, if_neg hb, stripLeadingZeros, if_neg hb]

-- A BIT STRING as the decoder reads it: the length covers the last byte, less its unused bits.
theorem canonical_of_decodeBitString {c : Bytes} {v : Value} (h : decodeBitString c = some v) :
    canonical .bitString v = v := by
  cases c with
  | nil => simp [decodeBitString] at h
  | cons unused data =>
    simp only [decodeBitString] at h
    split_ifs at h with hu
    cases h
    cases data with
    | nil => simp [canonical]
    | cons b bs =>
      have h1 : (8 * (b :: bs).length - unused.toNat + 7) / 8 = (b :: bs).length := by
        simp only [List.length_cons]; omega
      have h2 : (8 - (8 * (b :: bs).length - unused.toNat) % 8) % 8 = unused.toNat := by
        simp only [List.length_cons]; omega
      simp only [canonical, h1, List.take_length, h2]

mutual

-- Whatever the decoder reads is already in canonical form, so encoding it and decoding again
-- reads it back unchanged.
theorem canonical_of_decodeItem : ∀ (t : Template) (bs : Bytes) (v : Value) (rest : Bytes),
    decodeItem t bs = some (v, rest) → canonical t v = v
  | .integer, bs, v, rest, h => by
    simp only [decodeItem, Option.map_eq_some', Prod.mk.injEq] at h
    obtain ⟨⟨c, _⟩, -, rfl, -⟩ := h
    simp [canonical, stripLeadingZeros_idem]
  | .bitString, bs, v, rest, h => by
    simp only [decodeItem, Option.bind_eq_bind, Option.bind_eq_some, Option.some.injEq] at h
    obtain ⟨⟨c, _⟩, -, v', hv, h⟩ := h
    cases h
    exact canonical_of_decodeBitString hv
  | .objectId, bs, v, rest, h => by
    simp only [decodeItem, Option.map_eq_some', Prod.mk.injEq] at h
    obtain ⟨⟨c, _⟩, -, rfl, -⟩ := h
    rfl
  | .sequence fields, bs, v, rest, h => by
    simp only [decodeItem, Option.bind_eq_bind, Option.bind_eq_some] at h
    obtain ⟨⟨c, _⟩, -, ⟨values, extra⟩, hfields, h⟩ := h
    split_ifs at h
    cases h
    simp [canonical, canonicalFields_of_decodeFields fields c values extra hfields]

theorem canonicalFields_of_decodeFields :
    ∀ (ts : List Template) (bs : Bytes) (vs : List Value) (rest : Bytes),
      decodeFields ts bs = some (vs, rest) → canonicalFields ts vs = vs
  | [], bs, vs, rest, h => by
    simp only [decodeFields, Option.some.injEq, Prod.mk.injEq] at h
    obtain ⟨rfl, -⟩ := h
    rfl
  | t :: ts, bs, vs, rest, h => by
    simp only [decodeFields, Option.bind_eq_bind, Option.bind_eq_some, Option.some.injEq] at h
    obtain ⟨⟨v, r1⟩, hv, ⟨vs', r2⟩, hvs, h⟩ := h
    cases h
    simp [canonicalFields, canonical_of_decodeItem t bs v r1 hv,
      canonicalFields_of_decodeFields ts r1 vs' r2 hvs]

end

theorem canonical_of_decode {t : Template} {bs : Bytes} {v : Value} (h : decode t bs = some v) :
    canonical t v = v := by
  simp only [decode, Option.bind_eq_bind, Option.bind_eq_some] at h
  obtain ⟨⟨v', rest⟩, hv, h⟩ := h
  split_ifs at h
  cases h
  exact canonical_of_decodeItem t bs _ rest hv

end RoundTrip

section IntegerSequence

-- The DER of a SEQUENCE of unsigned INTEGERs: the form of every private key and signature of
-- the file.
def integerSequenceDer (fields : List Bytes) : Bytes :=
  encodeTlv sequenceTag (fields.flatMap fun f => encodeTlv integerTag (integerContents f))

theorem encodeLength_length_le {n k : Nat} (h : n < 256 ^ k) : (encodeLength n).length ≤ k + 1 := by
  unfold encodeLength
  split
  · simp
  · simpa using (natToBytes_length_le_iff n k).mpr h

theorem encodeTlv_length_le {c : Bytes} {k : Nat} (tag : UInt8) (h : c.length < 256 ^ k) :
    (encodeTlv tag c).length ≤ c.length + k + 2 := by
  have := encodeLength_length_le h
  simp only [encodeTlv, List.length_cons, List.length_append]
  omega

theorem integerContents_length_le (data : Bytes) : (integerContents data).length ≤ data.length + 1 := by
  induction data with
  | nil => simp [integerContents]
  | cons b rest ih =>
    unfold integerContents
    split_ifs
    · simp
    · simp
    · split
      · simp
      · split_ifs
        · simp
        · simp only [List.length_cons] at ih ⊢
          omega

theorem encodeFields_integers (fields : List Bytes) :
    encodeFields (List.replicate fields.length .integer) (fields.map .item) =
      some (fields.flatMap fun f => encodeTlv integerTag (integerContents f)) := by
  induction fields with
  | nil => rfl
  | cons f fs ih => simp [List.replicate_succ, encodeFields, encodeItem, ih]

theorem encodeItem_integerSequence (fields : List Bytes) :
    encodeItem (.sequence (List.replicate fields.length .integer)) (.fields (fields.map .item)) =
      some (integerSequenceDer fields) := by
  simp [encodeItem, encodeFields_integers, integerSequenceDer]

-- A SEQUENCE of at most nine INTEGERs of fewer than 2^64 bytes each is within the lengths the
-- decoder reads.
theorem integerSequenceDer_length_lt (fields : List Bytes) (hn : fields.length ≤ 9)
    (hf : ∀ f ∈ fields, f.length < 2 ^ 64) :
    (integerSequenceDer fields).length < 256 ^ 127 := by
  have hsum : (fields.flatMap fun f => encodeTlv integerTag (integerContents f)).length ≤
      fields.length * (2 ^ 64 + 11) := by
    induction fields with
    | nil => simp
    | cons f fs ih =>
      have hfl := hf f (by simp)
      have hc := integerContents_length_le f
      have htlv := encodeTlv_length_le integerTag (k := 9) (c := integerContents f) (by omega)
      simp only [List.flatMap_cons, List.length_append, List.length_cons]
      have := ih (by simp at hn; omega) (fun g hg => hf g (by simp [hg]))
      omega
  have := encodeTlv_length_le sequenceTag (k := 9)
    (c := fields.flatMap fun f => encodeTlv integerTag (integerContents f)) (by omega)
  calc _ ≤ _ := this
    _ < 256 ^ 127 := by omega

-- Decoding such a SEQUENCE gives its INTEGERs back without their redundant leading zeros.
theorem decode_integerSequenceDer (fields : List Bytes) (hn : fields.length ≤ 9)
    (hf : ∀ f ∈ fields, f.length < 2 ^ 64) :
    decode (.sequence (List.replicate fields.length .integer)) (integerSequenceDer fields) =
      some (.fields (fields.map fun f => .item (stripLeadingZeros f))) := by
  have h := decodeItem_encodeItem _ _ _ [] (encodeItem_integerSequence fields)
    (integerSequenceDer_length_lt fields hn hf)
  simp only [List.append_nil] at h
  have hc : ∀ fs : List Bytes, canonicalFields (List.replicate fs.length .integer) (fs.map .item) =
      fs.map fun f => .item (stripLeadingZeros f) := by
    intro fs
    induction fs with
    | nil => rfl
    | cons f fs ih => simp [List.replicate_succ, canonicalFields, canonical, ih]
  simp [decode, h, canonical, hc]

end IntegerSequence

end Libssh2.Asn1
