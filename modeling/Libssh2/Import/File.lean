import Libssh2.Import.Request

namespace Libssh2

section Read

variable {K : Type} {P : Platform K} {w : World}

-- What the reads of CreateDataFromFile deliver: the chunks up to the first read of 0 bytes, or
-- nothing when a read fails first.
def bytesRead : List (Option Bytes) → Option Bytes
  | [] => some []
  | none :: _ => none
  | some chunk :: rest => if chunk = [] then some [] else (bytesRead rest).map (chunk ++ ·)

-- The read loop appends each chunk to the data it holds, and releases the data when a read fails.
theorem readChunks_eq (keyData : Ref Bytes) (reads : List (Option Bytes))
    (hheld : keyData.id ∈ w.ledger) :
    readChunks keyData reads P w =
      .ok ((bytesRead reads).map fun bs => ⟨keyData.id, keyData.val ++ bs⟩,
        if (bytesRead reads).isSome then w else { w with ledger := w.ledger.erase keyData.id }) := by
  induction reads generalizing keyData with
  | nil => simp [readChunks, bytesRead]
  | cons read rest ih =>
    cases read with
    | none => simp [readChunks, bytesRead, cfRelease, hheld]
    | some chunk =>
      by_cases hempty : chunk = []
      · simp [readChunks, bytesRead, hempty]
      · have hrest := ih (cfDataAppendBytes keyData chunk) hheld
        simp only [cfDataAppendBytes] at hrest
        simp [readChunks, bytesRead, hempty, hrest, cfDataAppendBytes, Option.map_map,
          Function.comp_def]

-- A file whose reads deliver bytes: CreateDataFromFile holds them in a new CFData, and nothing else.
theorem createDataFromFile_of_read (path : String) {bytes : Bytes}
    (hread : (P.readFile path).bind bytesRead = some bytes) :
    ∃ id w', createDataFromFile path P w = .ok (some ⟨id, bytes⟩, w') ∧ w'.ledger = id ::ₘ w.ledger := by
  cases hfile : P.readFile path with
  | none => simp [hfile] at hread
  | some reads =>
    simp only [hfile, Option.some_bind] at hread
    exact ⟨w.fresh + 3, { w with ledger := (w.fresh + 3) ::ₘ w.ledger, fresh := w.fresh + 4 },
      by simp [createDataFromFile, cfStringCreateWithCString, cfUrlCreateWithFileSystemPath,
        cfReadStreamCreateWithFile, cfReadStreamOpen, cfDataCreateMutable, cfRelease, hfile,
        readChunks_eq, hread], rfl⟩

-- A file that does not open, or whose read fails: nothing, and nothing more held.
theorem createDataFromFile_of_unreadable (path : String)
    (hread : (P.readFile path).bind bytesRead = none) :
    ∃ w', createDataFromFile path P w = .ok (none, w') ∧ w'.ledger = w.ledger := by
  simp only [createDataFromFile, cfStringCreateWithCString, cfUrlCreateWithFileSystemPath,
    cfReadStreamCreateWithFile, cfReadStreamOpen, cfDataCreateMutable, cfRelease]
  cases hfile : P.readFile path with
  | none => exact ⟨{ w with fresh := w.fresh + 3 }, by simp [hfile], rfl⟩
  | some reads =>
    simp only [hfile, Option.some_bind] at hread
    exact ⟨{ w with fresh := w.fresh + 4 }, by simp [hfile, readChunks_eq, hread], rfl⟩

-- CreateDataFromFile gives the bytes the file's reads deliver, and nothing when the file does not
-- open or a read fails. It ends holding only the data it returns.
theorem createDataFromFile_eq (path : String) :
    ∃ keyData w', createDataFromFile path P w = .ok (keyData, w') ∧
      keyData.map (·.val) = (P.readFile path).bind bytesRead ∧ w'.ledger = held keyData + w.ledger := by
  cases hread : (P.readFile path).bind bytesRead with
  | none =>
    obtain ⟨w', hrun, hl⟩ := createDataFromFile_of_unreadable (P := P) (w := w) path hread
    exact ⟨none, w', hrun, rfl, by simpa using hl⟩
  | some bytes =>
    obtain ⟨id, w', hrun, hl⟩ := createDataFromFile_of_read (P := P) (w := w) path hread
    exact ⟨_, w', hrun, rfl, by simpa using hl⟩

end Read

section Path

variable {K : Type} {P : Platform K} {w : World}

-- A key file that reads: _libssh2_key_new_from_path returns what _libssh2_key_new_from_data makes
-- of the importer's answer to the file's request, and ends holding only the key it returns.
theorem keyNewFromPath_outcome (hP : P.Reliable) (type : ItemType) (filename : String)
    (passphrase : Option Bytes) {contents encoded : Bytes}
    (hread : (P.readFile filename).bind bytesRead = some contents)
    (henc : P.execute ⟨.base64Encode, [.input contents]⟩ = some (.data encoded))
    (hne : P.itemImport (importRequest contents encoded type (some filename) passphrase) ≠ .ok []) :
    ∃ id w', keyNewFromPath type filename passphrase P w =
        .ok (importOutcome (P.itemImport (importRequest contents encoded type (some filename) passphrase))
          id, w') ∧
      w'.ledger = held (importOutcome
        (P.itemImport (importRequest contents encoded type (some filename) passphrase)) id).2 + w.ledger := by
  obtain ⟨id, w₁, hfile, hledger⟩ := createDataFromFile_of_read (P := P) (w := w) filename hread
  obtain ⟨request, w₀, -, hl₀, himport, -, hreq⟩ := importKeyData_cases (P := P) (w := w₁)
    ⟨id, contents⟩ type (some filename) passphrase
  rw [hreq hP encoded henc] at himport
  obtain ⟨w₂, hrun, hl⟩ := keyNewFromData_of_secItemImport himport hne
  have hmem : id ∈ w₂.ledger := by simp [hl, hl₀, hledger]
  refine ⟨w₀.fresh + 1, { w₂ with ledger := w₂.ledger.erase id }, ?_, ?_⟩
  · simp [keyNewFromPath, hfile, hrun, cfRelease, hmem]
  · simp [hl, hl₀, hledger, Multiset.erase_add_right_pos]

-- A key file that does not open, or whose read fails: 1 and no key, and nothing more is held, on
-- every platform.
theorem keyNewFromPath_unreadable (type : ItemType) (filename : String) (passphrase : Option Bytes)
    (hread : (P.readFile filename).bind bytesRead = none) :
    ∃ w', keyNewFromPath type filename passphrase P w = .ok ((1, none), w') ∧ w'.ledger = w.ledger := by
  obtain ⟨w₁, hfile, hledger⟩ := createDataFromFile_of_unreadable (P := P) (w := w) filename hread
  exact ⟨w₁, by simp [keyNewFromPath, hfile], hledger⟩

theorem keyNewFromPath_unreadable_answering :
    ((answeringPlatform [] (.ok [.secKey ()])).readFile "key.pem").bind bytesRead = none ∧
      ∃ w', keyNewFromPath .privateKey "key.pem" none (answeringPlatform [] (.ok [.secKey ()]))
          World.initial = .ok ((1, none), w') ∧ w'.ledger = World.initial.ledger :=
  ⟨rfl, keyNewFromPath_unreadable .privateKey "key.pem" none rfl⟩

-- A one-byte key file, read in one chunk; the importer takes it.
def keyFilePlatform : Platform Unit :=
  { answeringPlatform [0x4D] (.ok [.secKey ()]) with readFile := fun _ => some [some [0x30], some []] }

theorem keyNewFromPath_outcome_keyFile :
    keyFilePlatform.Reliable ∧
      (keyFilePlatform.readFile "key.pem").bind bytesRead = some [0x30] ∧
      keyFilePlatform.execute ⟨.base64Encode, [.input [0x30]]⟩ = some (.data [0x4D]) ∧
      keyFilePlatform.itemImport (importRequest [0x30] [0x4D] .privateKey (some "key.pem") none) ≠
        .ok [] ∧
      ∃ id w', keyNewFromPath .privateKey "key.pem" none keyFilePlatform World.initial =
          .ok (importOutcome (keyFilePlatform.itemImport
            (importRequest [0x30] [0x4D] .privateKey (some "key.pem") none)) id, w') ∧
        w'.ledger = held (importOutcome (keyFilePlatform.itemImport
          (importRequest [0x30] [0x4D] .privateKey (some "key.pem") none)) id).2 + World.initial.ledger :=
  ⟨fun _ => rfl, by decide, rfl, by simp [keyFilePlatform, answeringPlatform],
    keyNewFromPath_outcome (fun _ => rfl) .privateKey "key.pem" none (by decide) rfl
      (by simp [keyFilePlatform, answeringPlatform])⟩

-- A key from memory: _libssh2_rsa_new_private_frommemory, and _libssh2_dsa_new_private_frommemory
-- with it, returns what _libssh2_key_new_from_data makes of the importer's answer to the caller's
-- bytes, and ends holding only the key it returns, on every platform.
theorem rsaNewPrivateFrommemory_outcome (filedata : Bytes) (passphrase : Option Bytes)
    (hne : P.itemImport ⟨filedata, none, .privateKey, importPassphrase passphrase⟩ ≠ .ok []) :
    ∃ id w', rsaNewPrivateFrommemory filedata passphrase P w =
        .ok (importOutcome (P.itemImport ⟨filedata, none, .privateKey, importPassphrase passphrase⟩) id,
          w') ∧
      w'.ledger = held (importOutcome
        (P.itemImport ⟨filedata, none, .privateKey, importPassphrase passphrase⟩) id).2 + w.ledger := by
  obtain ⟨fresh, himport⟩ := importKeyData_without_filename (P := P)
    (w := { w with ledger := w.fresh ::ₘ w.ledger, fresh := w.fresh + 1 }) ⟨w.fresh, filedata⟩
    .privateKey passphrase
  obtain ⟨w', hrun, hledger⟩ := keyNewFromData_of_secItemImport himport hne
  have hmem : w.fresh ∈ w'.ledger := by simp [hledger]
  refine ⟨fresh + 1, { w' with ledger := w'.ledger.erase w.fresh }, ?_, ?_⟩
  · simp [rsaNewPrivateFrommemory, cfDataCreate, hrun, cfRelease, hmem]
  · simp [hledger, Multiset.erase_add_right_pos]

theorem rsaNewPrivateFrommemory_outcome_one_key :
    (answeringPlatform [] (.ok [.secKey ()])).itemImport
        ⟨[0x30], none, .privateKey, importPassphrase none⟩ ≠ .ok [] ∧
      ∃ id w', rsaNewPrivateFrommemory [0x30] none (answeringPlatform [] (.ok [.secKey ()]))
          World.initial =
          .ok (importOutcome ((answeringPlatform [] (.ok [.secKey ()])).itemImport
            ⟨[0x30], none, .privateKey, importPassphrase none⟩) id, w') ∧
        w'.ledger = held (importOutcome ((answeringPlatform [] (.ok [.secKey ()])).itemImport
          ⟨[0x30], none, .privateKey, importPassphrase none⟩) id).2 + World.initial.ledger :=
  ⟨by simp [answeringPlatform],
    rsaNewPrivateFrommemory_outcome [0x30] none (by simp [answeringPlatform])⟩

end Path

end Libssh2
