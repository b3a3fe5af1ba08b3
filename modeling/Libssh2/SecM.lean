import Libssh2.Framework

namespace Libssh2

open Asn1

-- A run of the file's code against the frameworks: it changes the world, or stops on a fault.
def SecM (K α : Type) : Type := Platform K → World → Except Fault (α × World)

namespace SecM

variable {K α β : Type}

protected def pure (a : α) : SecM K α := fun _ w => .ok (a, w)

protected def bind (x : SecM K α) (f : α → SecM K β) : SecM K β := fun P w =>
  match x P w with
  | .ok (a, w') => f a P w'
  | .error e => .error e

instance : Monad (SecM K) where
  pure := SecM.pure
  bind := SecM.bind

@[simp] theorem pure_apply (a : α) (P : Platform K) (w : World) :
    (pure a : SecM K α) P w = .ok (a, w) := rfl

@[simp] theorem bind_apply (x : SecM K α) (f : α → SecM K β) (P : Platform K) (w : World) :
    (x >>= f) P w = match x P w with
      | .ok (a, w') => f a P w'
      | .error e => .error e := rfl

@[simp] theorem map_apply (f : α → β) (x : SecM K α) (P : Platform K) (w : World) :
    (f <$> x) P w = match x P w with
      | .ok (a, w') => .ok (f a, w')
      | .error e => .error e := rfl

theorem bind_of_ok {x : SecM K α} {P : Platform K} {w w' : World} {a : α} (f : α → SecM K β)
    (h : x P w = .ok (a, w')) : (x >>= f) P w = f a P w' := by
  simp [h]

theorem bind_of_error {x : SecM K α} {P : Platform K} {w : World} {e : Fault} (f : α → SecM K β)
    (h : x P w = .error e) : (x >>= f) P w = .error e := by
  simp [h]

-- A run of `x >>= f` that ends is a run of `x` followed by one of `f`.
theorem bind_eq_ok {x : SecM K α} {f : α → SecM K β} {P : Platform K} {w : World} {r : β × World} :
    (x >>= f) P w = .ok r ↔ ∃ a w₁, x P w = .ok (a, w₁) ∧ f a P w₁ = .ok r := by
  rw [bind_apply]
  constructor
  · intro h
    split at h
    · exact ⟨_, _, ‹_›, h⟩
    · cases h
  · rintro ⟨a, w₁, hx, hf⟩
    simpa [hx] using hf

-- The monad laws, so that the library's lemmas on `mapM` and `foldlM` apply to runs.
instance : LawfulMonad (SecM K) :=
  LawfulMonad.mk' (SecM K)
    (fun x => by
      funext P w
      show (match x P w with | .ok (a, w') => Except.ok (id a, w') | .error e => .error e) = x P w
      cases x P w <;> rfl)
    (fun _ _ => rfl)
    (fun x f g => by
      funext P w
      show (match (match x P w with | .ok (a, w') => f a P w' | .error e => .error e) with
          | .ok (b, w'') => g b P w'' | .error e => .error e) =
        (match x P w with | .ok (a, w') => (f a >>= g) P w' | .error e => .error e)
      cases x P w <;> rfl)
end SecM

section Ledger

variable {K α : Type}

-- The run holds a new object.
def acquire (val : α) : SecM K (Ref α) := fun _ w =>
  .ok (⟨w.fresh, val⟩, { w with ledger := w.fresh ::ₘ w.ledger, fresh := w.fresh + 1 })

-- The run gives up one hold on an object; giving up one it does not have is a fault.
def release (id : Nat) : SecM K Unit := fun _ w =>
  if id ∈ w.ledger then .ok ((), { w with ledger := w.ledger.erase id })
  else .error (.overRelease id)

-- A fallible call is made, and either succeeds or fails.
def succeeds : SecM K Bool := fun P w => .ok (!P.fails w.calls, { w with calls := w.calls + 1 })

def fault (f : Fault) : SecM K α := fun _ _ => .error f

def platform : SecM K (Platform K) := fun P w => .ok (P, w)

@[simp] theorem acquire_apply (val : α) (P : Platform K) (w : World) :
    acquire val P w =
      .ok (⟨w.fresh, val⟩, { w with ledger := w.fresh ::ₘ w.ledger, fresh := w.fresh + 1 }) := rfl

@[simp] theorem release_apply (id : Nat) (P : Platform K) (w : World) :
    release id P w = if id ∈ w.ledger then .ok ((), { w with ledger := w.ledger.erase id })
      else .error (.overRelease id) := rfl

@[simp] theorem succeeds_apply (P : Platform K) (w : World) :
    succeeds P w = .ok (!P.fails w.calls, { w with calls := w.calls + 1 }) := rfl

@[simp] theorem fault_apply (f : Fault) (P : Platform K) (w : World) :
    (fault f : SecM K α) P w = .error f := rfl

@[simp] theorem platform_apply (P : Platform K) (w : World) : platform P w = .ok (P, w) := rfl

-- A release that returns gave up a hold the run had.
theorem release_eq_ok {id : Nat} {P : Platform K} {w w' : World} {u : Unit}
    (h : release id P w = .ok (u, w')) : id ∈ w.ledger ∧ w'.ledger = w.ledger.erase id := by
  rw [release_apply] at h
  split_ifs at h with hmem
  cases h
  exact ⟨hmem, rfl⟩

-- ... and changed nothing else in the world.
theorem release_world {id : Nat} {P : Platform K} {w w' : World} {u : Unit}
    (h : release id P w = .ok (u, w')) : w' = { w with ledger := w.ledger.erase id } := by
  rw [release_apply] at h
  split_ifs at h
  cases h
  rfl

-- Releasing a hold the run has: which copy goes does not matter to the ledger.
attribute [simp] Multiset.erase_cons_tail_of_mem

-- The hold a result gives its holder: one for an object, none for NULL.
def held : Option (Ref α) → Multiset Nat
  | some r => {r.id}
  | none => 0

@[simp] theorem held_some (r : Ref α) : held (some r) = {r.id} := rfl

@[simp] theorem held_none : held (none : Option (Ref α)) = 0 := rfl

theorem Platform.Reliable.fails_false {P : Platform K} (hP : P.Reliable) (n : Nat) :
    P.fails n = false :=
  hP n

-- A platform that fails a call is not reliable.
theorem not_reliable_of_fails {P : Platform K} {n : Nat} (h : P.fails n = true) : ¬ P.Reliable :=
  fun hP => by simp [hP n] at h

end Ledger

section CoreFoundation

variable {K α : Type}

-- CFDataCreate, CFDataCreateWithBytesNoCopy and CreateDataFromAsn1Item: a new CFData.
def cfDataCreate (bytes : Bytes) : SecM K (Ref Bytes) := acquire bytes

-- CFDataCreateMutable
def cfDataCreateMutable : SecM K (Ref Bytes) := acquire []

-- CFDataAppendBytes changes the buffer in place.
def cfDataAppendBytes (data : Ref Bytes) (bytes : Bytes) : Ref Bytes :=
  { data with val := data.val ++ bytes }

def cfRetain (r : Ref α) : SecM K (Ref α) := fun _ w =>
  .ok (r, { w with ledger := r.id ::ₘ w.ledger })

def cfRelease (r : Ref α) : SecM K Unit := release r.id

-- The characters of an ASCII byte string.
def asciiString (bytes : Bytes) : String := String.mk (bytes.map fun b => Char.ofNat b.toNat)

-- CFStringCreateWithBytes with kCFStringEncodingASCII: NULL when a byte is not ASCII.
def cfStringCreateWithBytes (bytes : Bytes) : SecM K (Option (Ref String)) := do
  if bytes.all (fun b => b.toNat < 0x80) then return some (← acquire (asciiString bytes))
  else return none

theorem cfStringCreateWithBytes_of_ascii {bytes : Bytes} {P : Platform K} {w : World}
    (ha : bytes.all (fun b => b.toNat < 0x80) = true) :
    cfStringCreateWithBytes bytes P w =
      .ok (some ⟨w.fresh, asciiString bytes⟩,
        { w with ledger := w.fresh ::ₘ w.ledger, fresh := w.fresh + 1 }) := by
  simp only [cfStringCreateWithBytes, ha]
  rfl

theorem cfStringCreateWithBytes_of_not_ascii {bytes : Bytes} {P : Platform K} {w : World}
    (ha : bytes.all (fun b => b.toNat < 0x80) = false) :
    cfStringCreateWithBytes bytes P w = .ok (none, w) := by
  simp only [cfStringCreateWithBytes, ha]
  rfl

-- A CFURL is modelled by its path; CFURLGetString gives that path back.
def cfUrlCreateFromFileSystemRepresentation (path : String) : SecM K (Ref String) := acquire path

-- The text after the last '.' of the last path component, when there is one.
def pathExtensionOf : List Char → Option (List Char) → Option (List Char)
  | [], ext => ext
  | c :: rest, ext =>
    pathExtensionOf rest (if c = '/' then none else if c = '.' then some [] else ext.map (· ++ [c]))

def pathExtension (path : String) : Option String :=
  (pathExtensionOf path.toList none).map String.mk

-- CFURLCopyPathExtension: a new CFString, or NULL when the path has no extension.
def cfUrlCopyPathExtension (url : Ref String) : SecM K (Option (Ref String)) := do
  match pathExtension url.val with
  | some ext => return some (← acquire ext)
  | none => return none

-- The path without its extension and the '.' before it.
def deletingPathExtension (path : String) : String :=
  match pathExtension path with
  | some ext => String.mk (path.toList.take (path.length - ext.length - 1))
  | none => path

-- CFURLCreateCopyDeletingPathExtension
def cfUrlCreateCopyDeletingPathExtension (url : Ref String) : SecM K (Ref String) :=
  acquire (deletingPathExtension url.val)

-- CFURLCreateCopyAppendingPathExtension
def cfUrlCreateCopyAppendingPathExtension (url : Ref String) (ext : String) :
    SecM K (Ref String) :=
  acquire (url.val ++ "." ++ ext)

-- CFStringFind with kCFCompareCaseInsensitive: where `pattern` first occurs in `s`, or
-- kCFNotFound.
def cfStringFind (s pattern : List Char) : Option Nat :=
  if (pattern.map Char.toLower).isPrefixOf (s.map Char.toLower) then some 0
  else match s with
    | [] => none
    | _ :: rest => (cfStringFind rest pattern).map (· + 1)

-- CFArrayCreate of the key attributes.
def cfArrayCreate : SecM K (Ref Unit) := acquire ()

-- CFArrayGetValueAtIndex: reading outside the array is a fault.
def cfArrayGetValueAtIndex (array : Ref (List α)) (i : Nat) : SecM K α :=
  match array.val[i]? with
  | some a => pure a
  | none => fault .indexOutOfBounds

-- CFStringCreateWithCString, CFURLCreateWithFileSystemPath and CFReadStreamCreateWithFile:
-- each a new object naming the same file.
def cfStringCreateWithCString (path : String) : SecM K (Ref String) := acquire path

def cfUrlCreateWithFileSystemPath (path : Ref String) : SecM K (Ref String) := acquire path.val

def cfReadStreamCreateWithFile (location : Ref String) : SecM K (Ref String) := acquire location.val

-- CFReadStreamOpen and the reads that follow: for a file that opens, the results of the
-- successive CFReadStreamRead calls up to the one returning 0 (a chunk, or an error).
def cfReadStreamOpen (stream : Ref String) : SecM K (Option (List (Option Bytes))) := do
  return (← platform).readFile stream.val

-- malloc or LIBSSH2_ALLOC of a block, which the code then fills with `contents`.
def alloc (contents : Bytes) : SecM K (Ref Bytes) := acquire contents

def free (block : Ref Bytes) : SecM K Unit := release block.id

end CoreFoundation

section Security

variable {K R : Type}

-- SecItemImport: the result array is a new object; its items belong to it.
def secItemImport (request : ImportRequest) :
    SecM K (Except Int (Ref (List (Ref (ImportedItem K))))) := fun P w =>
  let w := { w with imports := w.imports ++ [request] }
  match P.itemImport request with
  | .error status => .ok (.error status, w)
  | .ok items =>
    .ok (.ok ⟨w.fresh, items.mapIdx fun i item => ⟨w.fresh + 1 + i, item⟩⟩,
      { w with ledger := w.fresh ::ₘ w.ledger, fresh := w.fresh + 1 + items.length })

def secSignTransformCreate (key : Ref K) : SecM K (Option (Ref (Transform K))) := do
  if ← succeeds then return some (← acquire ⟨.sign key.val, []⟩) else return none

def secVerifyTransformCreate (key : Ref K) (signature : Ref Bytes) :
    SecM K (Option (Ref (Transform K))) := do
  if ← succeeds then return some (← acquire ⟨.verify key.val signature.val, []⟩)
  else return none

def secEncodeTransformCreate : SecM K (Option (Ref (Transform K))) := do
  if ← succeeds then return some (← acquire ⟨.base64Encode, []⟩) else return none

-- SecTransformSetAttribute: the transform holds the attribute when the call succeeds.
def secTransformSetAttribute (transform : Option (Ref (Transform K)))
    (attr : TransformAttribute) : SecM K (Bool × Ref (Transform K)) := do
  let some t := transform | fault .nullArgument
  if ← succeeds then
    return (true, { t with val := { t.val with attributes := t.val.attributes ++ [attr] } })
  else return (false, t)

-- SecTransformExecute with a NULL error argument: the output is a new object.
def secTransformExecute (transform : Ref (Transform K)) : SecM K (Option (Ref TransformOutput)) := do
  match (← platform).execute transform.val with
  | some output => return some (← acquire output)
  | none => return none

-- SecTransformExecute with an error argument: a failure hands back a new CFError.
def secTransformExecuteWithError (transform : Ref (Transform K)) :
    SecM K (Except (Ref Unit) (Ref TransformOutput)) := do
  match (← platform).execute transform.val with
  | some output => return .ok (← acquire output)
  | none => return .error (← acquire ())

def secAsn1CoderCreate : SecM K (Option (Ref Unit)) := do
  if ← succeeds then return some (← acquire ()) else return none

def secAsn1CoderRelease (coder : Ref Unit) : SecM K Unit := release coder.id

-- SecAsn1EncodeItem: the encoding belongs to the coder.
def secAsn1EncodeItem (_coder : Ref Unit) (l : Layout R) (r : R) : SecM K (Option Bytes) := do
  if ← succeeds then return l.encode r else return none

-- SecAsn1Decode: the decoded fields belong to the coder.
def secAsn1Decode (_coder : Ref Unit) (bs : Bytes) (l : Layout R) : SecM K (Option R) := do
  if ← succeeds then return l.decode bs else return none

def secKeyGetCSSMKey (key : Ref K) : SecM K (Option CssmKey) := do
  return (← platform).cssmKey key.val

def secKeyGetCSPHandle (_key : Ref K) : SecM K Bool := succeeds

-- A CSSM context, with its private key format attribute once that is set.
def cssmCspCreateSymmetricContext : SecM K (Option (Ref BlobFormat)) := do
  if ← succeeds then return some (← acquire .none) else return none

def cssmUpdateContextAttributes (context : Ref BlobFormat) (format : BlobFormat) :
    SecM K (Bool × Ref BlobFormat) := do
  if ← succeeds then return (true, { context with val := format }) else return (false, context)

-- CSSM_WrapKey: the raw key is a new object, freed by CSSM_FreeKey.
def cssmWrapKey (context : Ref BlobFormat) (key : CssmKey) : SecM K (Option (Ref CssmKey)) := do
  match (← platform).wrapKey key context.val with
  | some raw => return some (← acquire raw)
  | none => return none

def cssmDeleteContext (context : Ref BlobFormat) : SecM K Unit := release context.id

end Security

section Calls

variable {K R : Type} {P : Platform K} {w : World}

-- What each fallible call does on any platform: the call the platform fails makes nothing.
theorem secSignTransformCreate_eq (key : Ref K) :
    secSignTransformCreate key P w =
      if P.fails w.calls then .ok (none, { w with calls := w.calls + 1 })
      else .ok (some ⟨w.fresh, ⟨.sign key.val, []⟩⟩,
        { w with ledger := w.fresh ::ₘ w.ledger, fresh := w.fresh + 1, calls := w.calls + 1 }) := by
  cases h : P.fails w.calls <;> simp [secSignTransformCreate, h]

theorem secVerifyTransformCreate_eq (key : Ref K) (signature : Ref Bytes) :
    secVerifyTransformCreate key signature P w =
      if P.fails w.calls then .ok (none, { w with calls := w.calls + 1 })
      else .ok (some ⟨w.fresh, ⟨.verify key.val signature.val, []⟩⟩,
        { w with ledger := w.fresh ::ₘ w.ledger, fresh := w.fresh + 1, calls := w.calls + 1 }) := by
  cases h : P.fails w.calls <;> simp [secVerifyTransformCreate, h]

theorem secEncodeTransformCreate_eq :
    secEncodeTransformCreate P w =
      if P.fails w.calls then .ok (none, { w with calls := w.calls + 1 })
      else .ok (some ⟨w.fresh, ⟨.base64Encode, []⟩⟩,
        { w with ledger := w.fresh ::ₘ w.ledger, fresh := w.fresh + 1, calls := w.calls + 1 }) := by
  cases h : P.fails w.calls <;> simp [secEncodeTransformCreate, h]

-- A failed SecTransformSetAttribute leaves the transform as it was.
theorem secTransformSetAttribute_some (t : Ref (Transform K)) (attr : TransformAttribute) :
    secTransformSetAttribute (some t) attr P w =
      .ok (if P.fails w.calls then (false, t)
        else (true, { t with val := { t.val with attributes := t.val.attributes ++ [attr] } }),
        { w with calls := w.calls + 1 }) := by
  cases h : P.fails w.calls <;> simp [secTransformSetAttribute, h]

theorem secAsn1CoderCreate_eq :
    secAsn1CoderCreate P w =
      if P.fails w.calls then .ok (none, { w with calls := w.calls + 1 })
      else .ok (some ⟨w.fresh, ()⟩,
        { w with ledger := w.fresh ::ₘ w.ledger, fresh := w.fresh + 1, calls := w.calls + 1 }) := by
  cases h : P.fails w.calls <;> simp [secAsn1CoderCreate, h]

theorem secAsn1EncodeItem_eq (coder : Ref Unit) (l : Layout R) (r : R) :
    secAsn1EncodeItem coder l r P w =
      .ok (if P.fails w.calls then none else l.encode r, { w with calls := w.calls + 1 }) := by
  cases h : P.fails w.calls <;> simp [secAsn1EncodeItem, h]

theorem secAsn1Decode_eq (coder : Ref Unit) (bs : Bytes) (l : Layout R) :
    secAsn1Decode coder bs l P w =
      .ok (if P.fails w.calls then none else l.decode bs, { w with calls := w.calls + 1 }) := by
  cases h : P.fails w.calls <;> simp [secAsn1Decode, h]

-- SecTransformSetAttribute on any platform: it reports whether the call succeeded, keeps the
-- transform's handle, appends its attribute when it succeeds, and only counts the call.
theorem secTransformSetAttribute_ok {t t' : Ref (Transform K)} {attr : TransformAttribute}
    {set : Bool} {w' : World} (h : secTransformSetAttribute (some t) attr P w = .ok ((set, t'), w')) :
    set = !P.fails w.calls ∧ t'.id = t.id ∧
      (set = true → t'.val = { t.val with attributes := t.val.attributes ++ [attr] }) ∧
      w' = { w with calls := w.calls + 1 } := by
  rw [secTransformSetAttribute_some] at h
  split_ifs at h with hf <;> cases h <;> simp [hf]

-- SecTransformExecute makes the output object, numbered with the next free identity, when the
-- transform gives one.
theorem secTransformExecute_ok {t : Ref (Transform K)} {out : Option (Ref TransformOutput)}
    {w' : World} (h : secTransformExecute t P w = .ok (out, w')) :
    P.execute t.val = none ∧ out = none ∧ w' = w ∨
      ∃ o, P.execute t.val = some o ∧ out = some ⟨w.fresh, o⟩ ∧
        w' = { w with ledger := w.fresh ::ₘ w.ledger, fresh := w.fresh + 1 } := by
  cases hx : P.execute t.val <;> simp [secTransformExecute, hx] at h <;>
    obtain ⟨rfl, rfl⟩ := h <;> simp

-- SecTransformExecute with an error argument: the output, or a CFError, is the next new object.
theorem secTransformExecuteWithError_ok {t : Ref (Transform K)}
    {out : Except (Ref Unit) (Ref TransformOutput)} {w' : World}
    (h : secTransformExecuteWithError t P w = .ok (out, w')) :
    w' = { w with ledger := w.fresh ::ₘ w.ledger, fresh := w.fresh + 1 } ∧
      (P.execute t.val = none ∧ out = .error ⟨w.fresh, ()⟩ ∨
        ∃ o, P.execute t.val = some o ∧ out = .ok ⟨w.fresh, o⟩) := by
  cases hx : P.execute t.val <;> simp [secTransformExecuteWithError, hx] at h <;>
    obtain ⟨rfl, rfl⟩ := h <;> simp

theorem secAsn1CoderCreate_ledger {coder : Option (Ref Unit)} {w' : World}
    (h : secAsn1CoderCreate P w = .ok (coder, w')) : w'.ledger = held coder + w.ledger := by
  rw [secAsn1CoderCreate_eq] at h
  split_ifs at h <;> cases h <;> simp

-- The coder's encoder and decoder give the layout's answer or nothing, and make no object.
theorem secAsn1EncodeItem_ok {coder : Ref Unit} {l : Layout R} {r : R} {out : Option Bytes}
    {w' : World} (h : secAsn1EncodeItem coder l r P w = .ok (out, w')) :
    (∀ der ∈ out, l.encode r = some der) ∧ w'.ledger = w.ledger := by
  rw [secAsn1EncodeItem_eq] at h
  cases h
  split_ifs <;> simp

theorem secAsn1Decode_ok {coder : Ref Unit} {bs : Bytes} {l : Layout R} {out : Option R}
    {w' : World} (h : secAsn1Decode coder bs l P w = .ok (out, w')) :
    (∀ r ∈ out, l.decode bs = some r) ∧ w'.ledger = w.ledger := by
  rw [secAsn1Decode_eq] at h
  cases h
  split_ifs <;> simp

theorem cssmCspCreateSymmetricContext_eq :
    cssmCspCreateSymmetricContext P w =
      if P.fails w.calls then .ok (none, { w with calls := w.calls + 1 })
      else .ok (some ⟨w.fresh, .none⟩,
        { w with ledger := w.fresh ::ₘ w.ledger, fresh := w.fresh + 1, calls := w.calls + 1 }) := by
  cases h : P.fails w.calls <;> simp [cssmCspCreateSymmetricContext, h]

-- CSSM_UpdateContextAttributes reports whether the call succeeded, keeps the context's handle,
-- and sets the format when it succeeds.
theorem cssmUpdateContextAttributes_ok {context context' : Ref BlobFormat} {format : BlobFormat}
    {updated : Bool} {w' : World}
    (h : cssmUpdateContextAttributes context format P w = .ok ((updated, context'), w')) :
    updated = !P.fails w.calls ∧ context'.id = context.id ∧ (updated = true → context'.val = format) ∧
      w' = { w with calls := w.calls + 1 } := by
  cases hs : P.fails w.calls <;> simp [cssmUpdateContextAttributes, hs] at h <;>
    obtain ⟨⟨rfl, rfl⟩, rfl⟩ := h <;> simp

-- CSSM_WrapKey makes the raw key, numbered with the next free identity, when the CSP gives one.
theorem cssmWrapKey_ok {context : Ref BlobFormat} {key : CssmKey} {rawKey : Option (Ref CssmKey)}
    {w' : World} (h : cssmWrapKey context key P w = .ok (rawKey, w')) :
    P.wrapKey key context.val = none ∧ rawKey = none ∧ w' = w ∨
      ∃ raw, P.wrapKey key context.val = some raw ∧ rawKey = some ⟨w.fresh, raw⟩ ∧
        w' = { w with ledger := w.fresh ::ₘ w.ledger, fresh := w.fresh + 1 } := by
  cases hw : P.wrapKey key context.val <;> simp [cssmWrapKey, hw] at h <;>
    obtain ⟨rfl, rfl⟩ := h <;> simp

end Calls

section Reliable

variable {K R : Type} {P : Platform K} {w : World}

-- On a reliable platform each fallible call succeeds: one equation per call, so that proofs about
-- the code never unfold the calls again.
theorem succeeds_of_reliable (hP : P.Reliable) :
    succeeds P w = .ok (true, { w with calls := w.calls + 1 }) := by
  simp [hP.fails_false]

theorem secSignTransformCreate_of_reliable (hP : P.Reliable) (key : Ref K) :
    secSignTransformCreate key P w = .ok (some ⟨w.fresh, ⟨.sign key.val, []⟩⟩,
      { w with ledger := w.fresh ::ₘ w.ledger, fresh := w.fresh + 1, calls := w.calls + 1 }) := by
  simp [secSignTransformCreate, hP.fails_false]

theorem secVerifyTransformCreate_of_reliable (hP : P.Reliable) (key : Ref K) (signature : Ref Bytes) :
    secVerifyTransformCreate key signature P w = .ok (some ⟨w.fresh, ⟨.verify key.val signature.val, []⟩⟩,
      { w with ledger := w.fresh ::ₘ w.ledger, fresh := w.fresh + 1, calls := w.calls + 1 }) := by
  simp [secVerifyTransformCreate, hP.fails_false]

theorem secEncodeTransformCreate_of_reliable (hP : P.Reliable) :
    secEncodeTransformCreate P w = .ok (some ⟨w.fresh, ⟨.base64Encode, []⟩⟩,
      { w with ledger := w.fresh ::ₘ w.ledger, fresh := w.fresh + 1, calls := w.calls + 1 }) := by
  simp [secEncodeTransformCreate, hP.fails_false]

theorem secTransformSetAttribute_of_reliable (hP : P.Reliable) (t : Ref (Transform K))
    (attr : TransformAttribute) :
    secTransformSetAttribute (some t) attr P w =
      .ok ((true, { t with val := { t.val with attributes := t.val.attributes ++ [attr] } }),
        { w with calls := w.calls + 1 }) := by
  simp [secTransformSetAttribute, hP.fails_false]

theorem secAsn1CoderCreate_of_reliable (hP : P.Reliable) :
    secAsn1CoderCreate P w = .ok (some ⟨w.fresh, ()⟩,
      { w with ledger := w.fresh ::ₘ w.ledger, fresh := w.fresh + 1, calls := w.calls + 1 }) := by
  simp [secAsn1CoderCreate, hP.fails_false]

theorem secAsn1EncodeItem_of_reliable (hP : P.Reliable) (coder : Ref Unit) (l : Layout R) (r : R) :
    secAsn1EncodeItem coder l r P w = .ok (l.encode r, { w with calls := w.calls + 1 }) := by
  simp [secAsn1EncodeItem, hP.fails_false]

theorem secAsn1Decode_of_reliable (hP : P.Reliable) (coder : Ref Unit) (bs : Bytes) (l : Layout R) :
    secAsn1Decode coder bs l P w = .ok (l.decode bs, { w with calls := w.calls + 1 }) := by
  simp [secAsn1Decode, hP.fails_false]

theorem secKeyGetCSPHandle_of_reliable (hP : P.Reliable) (key : Ref K) :
    secKeyGetCSPHandle key P w = .ok (true, { w with calls := w.calls + 1 }) := by
  simp [secKeyGetCSPHandle, hP.fails_false]

theorem cssmCspCreateSymmetricContext_of_reliable (hP : P.Reliable) :
    cssmCspCreateSymmetricContext P w = .ok (some ⟨w.fresh, .none⟩,
      { w with ledger := w.fresh ::ₘ w.ledger, fresh := w.fresh + 1, calls := w.calls + 1 }) := by
  simp [cssmCspCreateSymmetricContext, hP.fails_false]

theorem cssmUpdateContextAttributes_of_reliable (hP : P.Reliable) (context : Ref BlobFormat)
    (format : BlobFormat) :
    cssmUpdateContextAttributes context format P w =
      .ok ((true, { context with val := format }), { w with calls := w.calls + 1 }) := by
  simp [cssmUpdateContextAttributes, hP.fails_false]

end Reliable

section CommonCrypto

variable {K : Type}

-- CCCryptorCreateWithMode: a new cryptor when CommonCrypto accepts the request.
def ccCryptorCreateWithMode (request : CryptorRequest) : SecM K (Option (Ref Cryptor)) := do
  if (← platform).cryptorCreate request then return some (← acquire ⟨request, []⟩)
  else return none

-- CCCryptorUpdate: what the cryptor makes of the block, and the cryptor after it.
def ccCryptorUpdate (cryptor : Ref Cryptor) (block : Bytes) :
    SecM K (Option (Bytes × Ref Cryptor)) := do
  match (← platform).cryptorUpdate cryptor.val block with
  | some out =>
    return some (out, { cryptor with val := { cryptor.val with
      processed := cryptor.val.processed ++ [block] } })
  | none => return none

def ccCryptorRelease (cryptor : Ref Cryptor) : SecM K Unit := release cryptor.id

end CommonCrypto

end Libssh2
