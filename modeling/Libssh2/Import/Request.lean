import Libssh2.Import

namespace Libssh2

open Asn1

section DecisionTable

-- The passphrase the request carries: the caller's bytes as a string, when they are all ASCII.
def importPassphrase (passphrase : Option Bytes) : Option String :=
  passphrase.bind fun p => if p.all (fun b => b.toNat < 0x80) then some (asciiString p) else none

-- The code's test for a PKCS#8 file: its extension starts with "p8", in any case.
def hasP8Extension (path : String) : Bool :=
  match pathExtension path with
  | some ext => cfStringFind ext.toList "p8".toList = some 0
  | none => false

-- When the do-while block wraps the key: a path, no passphrase string, a private key and a
-- PKCS#8 extension.
def wrapsInPem (type : ItemType) (filename passphrase : Option String) : Bool :=
  match filename with
  | some path => passphrase.isNone && type = .privateKey && hasP8Extension path
  | none => false

-- The path the wrapped key is presented under: its extension replaced by "pem".
def pemPath (path : String) : String := deletingPathExtension path ++ "." ++ "pem"

-- The request SecItemImport is handed, when the base64 encoder gives `encoded` for the key.
def importRequest (data encoded : Bytes) (type : ItemType) (filename : Option String)
    (passphrase : Option Bytes) : ImportRequest :=
  let wraps := wrapsInPem type filename (importPassphrase passphrase)
  { importedData := if wraps then privateKeyPemHeader ++ encoded ++ privateKeyPemFooter else data,
    fileNameOrExtension := if wraps then filename.map pemPath else filename,
    inputType := type,
    passphrase := importPassphrase passphrase }

end DecisionTable

section Steps

variable {K : Type} {P : Platform K} {w : World}

theorem importParameters_spec (keyData : Ref Bytes) (filename : Option String)
    (passphrase : Option Bytes) :
    ∃ cfLocation cfPassphrase attributes fresh,
      importParameters keyData filename passphrase P w =
        .ok ((cfLocation, cfPassphrase, attributes, keyData),
          { w with
            ledger := keyData.id ::ₘ attributes.id ::ₘ (held cfPassphrase + (held cfLocation + w.ledger)),
            fresh := fresh }) ∧
      cfLocation.map (·.val) = filename ∧ cfPassphrase.map (·.val) = importPassphrase passphrase := by
  have hpass : ∀ {p : Bytes} {b : Bool}, p.all (fun b => b.toNat < 0x80) = b →
      importPassphrase (some p) = if b then some (asciiString p) else none := by
    rintro p b rfl
    rfl
  rcases filename with _ | path <;> rcases passphrase with _ | passphrase
  · exact ⟨none, none, ⟨w.fresh, ()⟩, w.fresh + 1,
      by simp [importParameters, cfArrayCreate, cfRetain, Option.mapM], rfl, rfl⟩
  · cases ha : passphrase.all (fun b => b.toNat < 0x80)
    · refine ⟨none, none, ⟨w.fresh, ()⟩, w.fresh + 1, ?_, rfl, (hpass ha).symm⟩
      simp [importParameters, cfStringCreateWithBytes_of_not_ascii ha, cfArrayCreate, cfRetain,
        Option.mapM]
    · refine ⟨none, some ⟨w.fresh, asciiString passphrase⟩, ⟨w.fresh + 1, ()⟩, w.fresh + 2, ?_, rfl,
        (hpass ha).symm⟩
      simp [importParameters, cfStringCreateWithBytes_of_ascii ha, cfArrayCreate, cfRetain,
        Option.mapM]
  · exact ⟨some ⟨w.fresh, path⟩, none, ⟨w.fresh + 1, ()⟩, w.fresh + 2,
      by simp [importParameters, cfUrlCreateFromFileSystemRepresentation, cfArrayCreate, cfRetain,
        Option.mapM], rfl, rfl⟩
  · cases ha : passphrase.all (fun b => b.toNat < 0x80)
    · refine ⟨some ⟨w.fresh, path⟩, none, ⟨w.fresh + 1, ()⟩, w.fresh + 2, ?_, rfl, (hpass ha).symm⟩
      simp [importParameters, cfUrlCreateFromFileSystemRepresentation,
        cfStringCreateWithBytes_of_not_ascii ha, cfArrayCreate, cfRetain, Option.mapM]
    · refine ⟨some ⟨w.fresh, path⟩, some ⟨w.fresh + 1, asciiString passphrase⟩, ⟨w.fresh + 2, ()⟩,
        w.fresh + 3, ?_, rfl, (hpass ha).symm⟩
      simp [importParameters, cfUrlCreateFromFileSystemRepresentation,
        cfStringCreateWithBytes_of_ascii ha, cfArrayCreate, cfRetain, Option.mapM, Multiset.cons_swap]

-- Outside the wrapping case the block gives back what it was given; the extension string it may
-- copy is released.
theorem wrapPkcs8InPem_keep (keyData newKeyData : Ref Bytes) (type : ItemType)
    (cfPassphrase cfLocation : Option (Ref String))
    (hkeep : wrapsInPem type (cfLocation.map (·.val)) (cfPassphrase.map (·.val)) = false) :
    ∃ fresh, wrapPkcs8InPem keyData type cfPassphrase newKeyData cfLocation P w =
      .ok ((newKeyData, cfLocation), { w with fresh := fresh }) := by
  rcases cfLocation with _ | location
  · exact ⟨w.fresh, by simp [wrapPkcs8InPem]⟩
  rcases cfPassphrase with _ | passphrase
  · by_cases htype : type = .privateKey
    · subst htype
      rcases hext : pathExtension location.val with _ | ext
      · exact ⟨w.fresh, by simp [wrapPkcs8InPem, cfUrlCopyPathExtension, hext]⟩
      · have hfind : cfStringFind ext.data ['p', '8'] ≠ some 0 := by
          simpa [wrapsInPem, hasP8Extension, hext] using hkeep
        exact ⟨w.fresh + 1, by simp [wrapPkcs8InPem, cfUrlCopyPathExtension, cfRelease, hext, hfind]⟩
    · exact ⟨w.fresh, by simp [wrapPkcs8InPem, htype]⟩
  · exact ⟨w.fresh, by simp [wrapPkcs8InPem]⟩

-- The import and the releases after it: the request is made of the objects' values, and the
-- objects' holds are given up.
theorem importAndRelease_eq {type : ItemType} {newKeyData : Ref Bytes} {attributes : Ref Unit}
    {cfLocation cfPassphrase : Option (Ref String)} {L : Multiset Nat}
    (hledger : w.ledger =
      newKeyData.id ::ₘ attributes.id ::ₘ (held cfPassphrase + (held cfLocation + L))) :
    importAndRelease (K := K) type newKeyData attributes cfLocation cfPassphrase P w =
      secItemImport ⟨newKeyData.val, cfLocation.map (·.val), type, cfPassphrase.map (·.val)⟩ P
        { w with ledger := L } := by
  rcases cfLocation with _ | location <;> rcases cfPassphrase with _ | cfPassphrase <;>
    simp only [importAndRelease, secItemImport] <;> split <;>
    simp_all [cfRelease, secItemImport, Multiset.cons_swap]

end Steps

section Wrap

variable {K : Type} {P : Platform K} {w : World}

-- _libssh2_wrap_data_in_pem on any platform: NULL with nothing made, which a reliable platform whose
-- encoder answers never gives, or the PEM data around what the base64 encoder gave for the data,
-- with only that data held.
theorem wrapDataInPem_cases (data : Ref Bytes) (header footer : Bytes) :
    ∃ pemData w', wrapDataInPem data header footer P w = .ok (pemData, w') ∧
      w'.ledger = held pemData + w.ledger ∧ w'.imports = w.imports ∧
      (∀ pem ∈ pemData, ∃ out, P.execute ⟨.base64Encode, [.input data.val]⟩ = some out ∧
        pem.val = header ++ out.bytes ++ footer) ∧
      (pemData = none → ¬ P.Reliable ∨ P.execute ⟨.base64Encode, [.input data.val]⟩ = none) := by
  cases hcreate : P.fails w.calls
  case true =>
    exact ⟨none, { w with calls := w.calls + 1 }, by
      simp [wrapDataInPem, secEncodeTransformCreate_eq, hcreate], by simp, rfl, by simp,
      fun _ => .inl (not_reliable_of_fails hcreate)⟩
  cases hset : P.fails (w.calls + 1)
  case true =>
    exact ⟨none, { w with fresh := w.fresh + 1, calls := w.calls + 2 }, by
      simp [wrapDataInPem, secEncodeTransformCreate_eq, hcreate, secTransformSetAttribute_some, hset,
        cfRelease], by simp, rfl, by simp, fun _ => .inl (not_reliable_of_fails hset)⟩
  cases hexec : P.execute ⟨.base64Encode, [.input data.val]⟩ with
  | none =>
    exact ⟨none, { w with fresh := w.fresh + 1, calls := w.calls + 2 }, by
      simp [wrapDataInPem, secEncodeTransformCreate_eq, hcreate, secTransformSetAttribute_some, hset,
        secTransformExecute, hexec, cfRelease], by simp, rfl, by simp, fun _ => .inr rfl⟩
  | some out =>
    exact ⟨some ⟨w.fresh + 2, header ++ out.bytes ++ footer⟩,
      { w with ledger := (w.fresh + 2) ::ₘ w.ledger, fresh := w.fresh + 3, calls := w.calls + 2 }, by
      simp [wrapDataInPem, secEncodeTransformCreate_eq, hcreate, secTransformSetAttribute_some, hset,
        secTransformExecute, hexec, cfRelease, cfDataCreateMutable, cfDataAppendBytes],
      by simp, rfl, by simp, by simp⟩

-- The do-while block of _libssh2_key_new_from_data on any platform: the key data and location it
-- was given, with nothing more held, outside the wrapping case or when the wrapping fails, or, only
-- in the wrapping case, the PEM envelope of what the encoder gave and the ".pem" location in place
-- of the key data and the old location.
theorem wrapPkcs8InPem_cases (keyData newKeyData : Ref Bytes) (type : ItemType)
    (cfPassphrase cfLocation : Option (Ref String)) (hnew : newKeyData.id ∈ w.ledger)
    (hloc : ∀ location ∈ cfLocation, location.id ∈ w.ledger.erase newKeyData.id) :
    ∃ w', w'.imports = w.imports ∧
      ((wrapPkcs8InPem keyData type cfPassphrase newKeyData cfLocation P w =
          .ok ((newKeyData, cfLocation), w') ∧ w'.ledger = w.ledger ∧
          (wrapsInPem type (cfLocation.map (·.val)) (cfPassphrase.map (·.val)) = false ∨
            ¬ P.Reliable ∨ P.execute ⟨.base64Encode, [.input keyData.val]⟩ = none)) ∨
        wrapsInPem type (cfLocation.map (·.val)) (cfPassphrase.map (·.val)) = true ∧
          ∃ old out pem location, cfLocation = some old ∧
            P.execute ⟨.base64Encode, [.input keyData.val]⟩ = some out ∧
            pem.val = privateKeyPemHeader ++ out.bytes ++ privateKeyPemFooter ∧
            location.val = pemPath old.val ∧
            wrapPkcs8InPem keyData type cfPassphrase newKeyData cfLocation P w =
              .ok ((pem, some location), w') ∧
            w'.ledger = location.id ::ₘ pem.id ::ₘ (w.ledger.erase newKeyData.id).erase old.id) := by
  cases hwraps : wrapsInPem type (cfLocation.map (·.val)) (cfPassphrase.map (·.val))
  case false =>
    obtain ⟨fresh, hkeep⟩ := wrapPkcs8InPem_keep (P := P) (w := w) keyData newKeyData type
      cfPassphrase cfLocation hwraps
    exact ⟨{ w with fresh := fresh }, rfl, .inl ⟨hkeep, rfl, .inl rfl⟩⟩
  obtain ⟨old, rfl, rfl, rfl, hp8⟩ : ∃ old, cfLocation = some old ∧ cfPassphrase = none ∧
      type = .privateKey ∧ hasP8Extension old.val := by
    rcases cfLocation with _ | old <;> rcases cfPassphrase with _ | _ <;> simp_all [wrapsInPem]
  obtain ⟨ext, hext, hfind⟩ : ∃ ext, pathExtension old.val = some ext ∧
      cfStringFind ext.data ['p', '8'] = some 0 := by
    cases h : pathExtension old.val <;> simp_all [hasP8Extension]
  have hold : old.id ∈ w.ledger.erase newKeyData.id := hloc old rfl
  obtain ⟨pemData, w₁, hwrap, hl, himports, hpem, hfail⟩ := wrapDataInPem_cases (P := P)
    (w := { w with fresh := w.fresh + 1 }) keyData privateKeyPemHeader privateKeyPemFooter
  cases pemData with
  | none =>
    refine ⟨w₁, himports, .inl ⟨?_, by simpa using hl, .inr (hfail rfl)⟩⟩
    simp [wrapPkcs8InPem, cfUrlCopyPathExtension, cfRelease, hext, hfind, hwrap]
  | some pem =>
    obtain ⟨out, hout, hval⟩ := hpem pem rfl
    simp only [held_some, Multiset.singleton_add] at hl
    refine ⟨{ w₁ with
        ledger := (w₁.fresh + 1) ::ₘ pem.id ::ₘ (w.ledger.erase newKeyData.id).erase old.id,
        fresh := w₁.fresh + 2 }, himports,
      .inr ⟨rfl, old, out, pem, ⟨w₁.fresh + 1, pemPath old.val⟩, rfl, hout, hval, rfl, ?_, rfl⟩⟩
    simp [wrapPkcs8InPem, cfUrlCopyPathExtension, cfRelease, hext, hfind, hwrap, hl, hnew, hold,
      cfUrlCreateCopyDeletingPathExtension, cfUrlCreateCopyAppendingPathExtension, pemPath]

end Wrap

section Resolver

variable {K : Type} {P : Platform K} {w : World}

-- The two requests _libssh2_key_new_from_data can hand SecItemImport: the caller's bytes under the
-- caller's path, or, in the wrapping case, the PEM envelope of what the encoder gave under the
-- ".pem" path.
def ImportRequestOf (P : Platform K) (data : Bytes) (type : ItemType) (filename : Option String)
    (passphrase : Option Bytes) (request : ImportRequest) : Prop :=
  request = ⟨data, filename, type, importPassphrase passphrase⟩ ∨
    wrapsInPem type filename (importPassphrase passphrase) = true ∧
      ∃ out, P.execute ⟨.base64Encode, [.input data]⟩ = some out ∧
        request = ⟨privateKeyPemHeader ++ out.bytes ++ privateKeyPemFooter, filename.map pemPath, type,
          importPassphrase passphrase⟩

-- Without a filename nothing is wrapped: the request is the caller's bytes as they are.
theorem importRequestOf_without_filename {data : Bytes} {type : ItemType} {passphrase : Option Bytes}
    {request : ImportRequest} (h : ImportRequestOf P data type none passphrase request) :
    request = ⟨data, none, type, importPassphrase passphrase⟩ := by
  rcases h with h | ⟨hwraps, -⟩
  · exact h
  · simp [wrapsInPem] at hwraps

-- On any platform the request is one of the two, and everything made for it is released once the
-- import returns. On a reliable platform whose encoder answers, it is the one the decision table
-- gives.
theorem importKeyData_cases (keyData : Ref Bytes) (type : ItemType) (filename : Option String)
    (passphrase : Option Bytes) :
    ∃ request w₀, ImportRequestOf P keyData.val type filename passphrase request ∧
      w₀.ledger = w.ledger ∧
      importKeyData keyData type filename passphrase P w = secItemImport request P w₀ ∧
      w₀.imports = w.imports ∧
      (P.Reliable → ∀ encoded, P.execute ⟨.base64Encode, [.input keyData.val]⟩ = some (.data encoded) →
        request = importRequest keyData.val encoded type filename passphrase) := by
  obtain ⟨cfLocation, cfPassphrase, attributes, fresh, hparams, hloc, hpass⟩ :=
    importParameters_spec (P := P) (w := w) keyData filename passphrase
  obtain ⟨w₁, himports, ⟨hkeep, hl, hfail⟩ | ⟨hwraps, old, out, pem, location, rfl, hout, hpem,
      hlocation, hwrap, hl⟩⟩ :=
    wrapPkcs8InPem_cases (P := P) (w := { w with
        ledger := keyData.id ::ₘ attributes.id ::ₘ (held cfPassphrase + (held cfLocation + w.ledger)),
        fresh := fresh })
      keyData keyData type cfPassphrase cfLocation (by simp) (by rintro l rfl; simp)
  · refine ⟨_, { w₁ with ledger := w.ledger }, .inl rfl, rfl, ?_, himports, fun hP encoded henc => ?_⟩
    · unfold importKeyData
      rw [SecM.bind_of_ok _ hparams]
      simp only [SecM.bind_apply, hkeep]
      rw [importAndRelease_eq hl]
      simp [hloc, hpass]
    · rw [hloc, hpass] at hfail
      rcases hfail with hkeep | hunreliable | hnone
      · simp [importRequest, hkeep]
      · exact absurd hP hunreliable
      · simp [hnone] at henc
  · obtain rfl : cfPassphrase = none := by
      cases cfPassphrase with
      | none => rfl
      | some _ => simp [wrapsInPem] at hwraps
    have hnone : importPassphrase passphrase = none := by simpa using hpass.symm
    replace hwraps : wrapsInPem type filename (importPassphrase passphrase) = true := by
      rw [← hloc, hnone]
      exact hwraps
    refine ⟨_, { w₁ with ledger := w.ledger }, .inr ⟨hwraps, out, hout, rfl⟩, rfl, ?_, himports,
      fun _ encoded henc => ?_⟩
    · unfold importKeyData
      rw [SecM.bind_of_ok _ hparams]
      simp only [SecM.bind_apply, hwrap]
      rw [importAndRelease_eq (L := w.ledger) (by simp [hl, Multiset.cons_swap])]
      simp [← hloc, hpem, hlocation, hnone]
    · obtain rfl : out = .data encoded := Option.some.inj (hout.symm.trans henc)
      simp [importRequest, hwraps, TransformOutput.bytes]

end Resolver

section Request

variable {K : Type} {P : Platform K} {w : World}

-- _libssh2_key_new_from_data hands SecItemImport the request of the decision table, and when the
-- import returns every object it made is released.
theorem importKeyData_request (hP : P.Reliable) (keyData : Ref Bytes) (type : ItemType)
    (filename : Option String) (passphrase : Option Bytes) {encoded : Bytes}
    (henc : P.execute ⟨.base64Encode, [.input keyData.val]⟩ = some (.data encoded)) :
    ∃ fresh calls, importKeyData keyData type filename passphrase P w =
      secItemImport (importRequest keyData.val encoded type filename passphrase) P
        { w with fresh := fresh, calls := calls } := by
  obtain ⟨request, ⟨ledger, fresh, calls, imports⟩, -, hl, himport, himports, hreq⟩ :=
    importKeyData_cases (P := P) (w := w) keyData type filename passphrase
  dsimp only at hl himports
  subst hl himports
  exact ⟨fresh, calls, by rw [himport, hreq hP encoded henc]⟩

-- A platform on which every call succeeds, the encoder gives `encoded` and the importer answers
-- `answer`, whatever it is asked.
def answeringPlatform (encoded : Bytes) (answer : Except Int (List (ImportedItem Unit))) :
    Platform Unit where
  itemImport _ := answer
  cssmKey _ := none
  wrapKey _ _ := none
  execute _ := some (.data encoded)
  readFile _ := none
  fails _ := false
  uninitializedKey := none
  cryptorCreate _ := false
  cryptorUpdate _ _ := none

-- A key read from "key.p8x" is wrapped and presented as "key.pem".
theorem importKeyData_request_p8x :
    (answeringPlatform [0x4D] (.error 0)).Reliable ∧
      (answeringPlatform [0x4D] (.error 0)).execute ⟨.base64Encode, [.input [0x30]]⟩ =
        some (.data [0x4D]) ∧
      ∃ fresh calls, importKeyData ⟨0, [0x30]⟩ .privateKey (some "key.p8x") none
          (answeringPlatform [0x4D] (.error 0)) World.initial =
        secItemImport ⟨privateKeyPemHeader ++ [0x4D] ++ privateKeyPemFooter, some "key.pem",
          .privateKey, none⟩ (answeringPlatform [0x4D] (.error 0))
          { World.initial with fresh := fresh, calls := calls } := by
  have hwraps : wrapsInPem .privateKey (some "key.p8x") none = true := by decide
  have hpath : pemPath "key.p8x" = "key.pem" := by decide
  refine ⟨fun _ => rfl, rfl, ?_⟩
  simpa [importRequest, importPassphrase, hwraps, hpath] using
    importKeyData_request (P := answeringPlatform [0x4D] (.error 0)) (w := World.initial)
      (fun _ => rfl) ⟨0, [0x30]⟩ .privateKey (some "key.p8x") none rfl

end Request

section Outcome

variable {K : Type} {P : Platform K} {w : World}

-- Without a path the request is the caller's bytes, on any platform.
theorem importKeyData_without_filename (keyData : Ref Bytes) (type : ItemType)
    (passphrase : Option Bytes) :
    ∃ fresh, importKeyData keyData type none passphrase P w =
      secItemImport ⟨keyData.val, none, type, importPassphrase passphrase⟩ P { w with fresh := fresh } := by
  obtain ⟨cfLocation, cfPassphrase, attributes, fresh, hparams, hloc, hpass⟩ :=
    importParameters_spec (P := P) (w := w) keyData none passphrase
  obtain rfl : cfLocation = none := by simpa using hloc
  obtain ⟨fresh', hkeep⟩ := wrapPkcs8InPem_keep (P := P) keyData keyData type cfPassphrase none
    (w := { w with
      ledger := keyData.id ::ₘ attributes.id ::ₘ
        (held cfPassphrase + (held (none : Option (Ref String)) + w.ledger)),
      fresh := fresh }) rfl
  refine ⟨fresh', ?_⟩
  unfold importKeyData
  rw [SecM.bind_of_ok _ hparams]
  simp only [SecM.bind_apply, hkeep]
  rw [importAndRelease_eq rfl]
  simp [hpass]

-- What the code makes of the importer's answer: the key of a one-key array, stored under the
-- identity the array gave it, and 1 for anything else.
def importOutcome : Except Int (List (ImportedItem K)) → Nat → Int × Option (Ref K)
  | .ok [.secKey key], id => (0, some ⟨id, key⟩)
  | _, _ => (1, none)

theorem keyNewFromData_of_secItemImport {keyData : Ref Bytes} {type : ItemType}
    {filename : Option String} {passphrase : Option Bytes} {request : ImportRequest} {w₀ : World}
    (himport : importKeyData keyData type filename passphrase P w = secItemImport request P w₀)
    (hne : P.itemImport request ≠ .ok []) :
    ∃ w', keyNewFromData keyData type filename passphrase P w =
        .ok (importOutcome (P.itemImport request) (w₀.fresh + 1), w') ∧
      w'.ledger = held (importOutcome (P.itemImport request) (w₀.fresh + 1)).2 + w₀.ledger := by
  unfold keyNewFromData
  rw [SecM.bind_apply, himport]
  rcases h : P.itemImport request with status | _ | ⟨item, rest⟩
  · simp [secItemImport, h, importOutcome]
  · exact absurd h hne
  · cases rest <;> cases item <;>
      simp [secItemImport, h, importOutcome, keyFromImportedItems, cfArrayGetValueAtIndex, cfRetain,
        cfRelease]

-- An import that succeeds with an empty array makes the code read its item 0.
theorem keyNewFromData_empty_array (keyData : Ref Bytes) (type : ItemType)
    (passphrase : Option Bytes)
    (hempty : P.itemImport ⟨keyData.val, none, type, importPassphrase passphrase⟩ = .ok []) :
    keyNewFromData keyData type none passphrase P w = .error .indexOutOfBounds := by
  obtain ⟨fresh, himport⟩ := importKeyData_without_filename (P := P) (w := w) keyData type passphrase
  unfold keyNewFromData
  simp [himport, secItemImport, hempty, keyFromImportedItems, cfArrayGetValueAtIndex]

theorem keyNewFromData_empty_array_fault :
    (answeringPlatform [] (.ok [])).itemImport ⟨[0x30], none, .privateKey, importPassphrase none⟩ =
        .ok [] ∧
      keyNewFromData ⟨0, [0x30]⟩ .privateKey none none (answeringPlatform [] (.ok []))
        World.initial = .error .indexOutOfBounds :=
  ⟨rfl, keyNewFromData_empty_array ⟨0, [0x30]⟩ .privateKey none rfl⟩

-- Every other answer: 0 and the retained key exactly for an array of one key, 1 otherwise, and
-- the run ends holding only what it hands back.
theorem keyNewFromData_outcome (keyData : Ref Bytes) (type : ItemType) (passphrase : Option Bytes)
    (hne : P.itemImport ⟨keyData.val, none, type, importPassphrase passphrase⟩ ≠ .ok []) :
    ∃ id w', keyNewFromData keyData type none passphrase P w =
        .ok (importOutcome (P.itemImport ⟨keyData.val, none, type, importPassphrase passphrase⟩) id,
          w') ∧
      w'.ledger = held (importOutcome
        (P.itemImport ⟨keyData.val, none, type, importPassphrase passphrase⟩) id).2 + w.ledger := by
  obtain ⟨fresh, himport⟩ := importKeyData_without_filename (P := P) (w := w) keyData type passphrase
  exact ⟨fresh + 1, keyNewFromData_of_secItemImport himport hne⟩

theorem keyNewFromData_outcome_one_key :
    (answeringPlatform [] (.ok [.secKey ()])).itemImport
        ⟨[0x30], none, .privateKey, importPassphrase none⟩ ≠ .ok [] ∧
      ∃ id w', keyNewFromData ⟨0, [0x30]⟩ .privateKey none none
          (answeringPlatform [] (.ok [.secKey ()])) World.initial = .ok ((0, some ⟨id, ()⟩), w') ∧
        w'.ledger = {id} :=
  ⟨by simp [answeringPlatform], by
    simpa [answeringPlatform, importOutcome, World.initial] using
      keyNewFromData_outcome (P := answeringPlatform [] (.ok [.secKey ()])) (w := World.initial)
        ⟨0, [0x30]⟩ .privateKey none (by simp [answeringPlatform])⟩

end Outcome

end Libssh2
