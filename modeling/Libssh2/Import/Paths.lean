import Libssh2.Import.File
import Libssh2.Import.Request

namespace Libssh2

open Asn1

section Resolver

variable {K : Type} {P : Platform K} {w : World}

-- _libssh2_key_new_from_data on any platform, for every key, type, filename and passphrase: it hands
-- SecItemImport one of the two requests; when the importer answers it with an empty array the
-- code reads past the array, and otherwise it returns what the answer gives and ends holding only
-- the key it returns.
theorem keyNewFromData_cases (keyData : Ref Bytes) (type : ItemType) (filename : Option String)
    (passphrase : Option Bytes) :
    ∃ request, ImportRequestOf P keyData.val type filename passphrase request ∧
      (P.itemImport request = .ok [] →
        keyNewFromData keyData type filename passphrase P w = .error .indexOutOfBounds) ∧
      (P.itemImport request ≠ .ok [] → ∃ id w',
        keyNewFromData keyData type filename passphrase P w =
          .ok (importOutcome (P.itemImport request) id, w') ∧
        w'.ledger = held (importOutcome (P.itemImport request) id).2 + w.ledger) := by
  obtain ⟨request, w₀, hreq, hl, himport, -⟩ := importKeyData_cases (P := P) (w := w) keyData type
    filename passphrase
  refine ⟨request, hreq, fun hempty => ?_, fun hne => ?_⟩
  · unfold keyNewFromData
    simp [himport, secItemImport, hempty, keyFromImportedItems, cfArrayGetValueAtIndex]
  · obtain ⟨w', hrun, hledger⟩ := keyNewFromData_of_secItemImport himport hne
    exact ⟨_, w', hrun, hl ▸ hledger⟩

theorem importOutcome_eq_some {answer : Except Int (List (ImportedItem K))} {id : Nat} {e : Int}
    {key : Ref K} (h : importOutcome answer id = (e, some key)) : answer = .ok [.secKey key.val] := by
  unfold importOutcome at h
  split at h
  · simp only [Prod.mk.injEq, Option.some.injEq] at h
    rw [← h.2]
  · simp at h

-- A run of _libssh2_key_new_from_data that returns, on any platform: it holds the key it returns
-- beside what it held, a key comes back only as the importer's answer to one of the two requests,
-- and never with an error code.
theorem keyNewFromData_ok {keyData : Ref Bytes} {type : ItemType} {filename : Option String}
    {passphrase : Option Bytes} {e : Int} {key : Option (Ref K)} {w' : World}
    (h : keyNewFromData keyData type filename passphrase P w = .ok ((e, key), w')) :
    w'.ledger = held key + w.ledger ∧
      (∀ k ∈ key, ∃ request, ImportRequestOf P keyData.val type filename passphrase request ∧
        P.itemImport request = .ok [.secKey k.val]) ∧ (e ≠ 0 → key = none) := by
  obtain ⟨request, w₀, hreq, hl, himport, -⟩ := importKeyData_cases (P := P) (w := w) keyData type
    filename passphrase
  by_cases hempty : P.itemImport request = .ok []
  · unfold keyNewFromData at h
    simp [himport, secItemImport, hempty, keyFromImportedItems, cfArrayGetValueAtIndex] at h
  obtain ⟨w₁, hrun, hl₁⟩ := keyNewFromData_of_secItemImport himport hempty
  rw [hrun] at h
  simp only [Except.ok.injEq, Prod.mk.injEq] at h
  obtain ⟨hout, rfl⟩ := h
  rw [hout, hl] at hl₁
  refine ⟨hl₁, fun k hk => ⟨request, hreq, importOutcome_eq_some (hk ▸ hout)⟩, fun he => ?_⟩
  unfold importOutcome at hout
  split at hout <;> simp_all

-- CFStringCreateWithBytes refuses a passphrase with a byte outside ASCII and makes nothing, so the
-- parameters are those of no passphrase at all.
theorem importParameters_non_ascii (keyData : Ref Bytes) (filename : Option String) {passphrase : Bytes}
    (hascii : passphrase.all (fun b => b.toNat < 0x80) = false) :
    (importParameters keyData filename (some passphrase) : SecM K _) =
      importParameters keyData filename none := by
  have hstring : (cfStringCreateWithBytes passphrase : SecM K _) = pure none := by
    funext P w
    exact cfStringCreateWithBytes_of_not_ascii hascii
  simp only [importParameters, hstring]

-- A passphrase with a byte outside ASCII is dropped without a word: on every platform
-- _libssh2_key_new_from_data then runs exactly as it runs with no passphrase, so a key read from a
-- ".p8" file is wrapped in the unencrypted PEM envelope.
theorem keyNewFromData_non_ascii_passphrase (keyData : Ref Bytes) (type : ItemType)
    (filename : Option String) {passphrase : Bytes}
    (hascii : passphrase.all (fun b => b.toNat < 0x80) = false) :
    keyNewFromData keyData type filename (some passphrase) P w =
      keyNewFromData keyData type filename none P w := by
  simp only [keyNewFromData, importKeyData, importParameters_non_ascii keyData filename hascii]

end Resolver

section Path

variable {K : Type} {P : Platform K} {w : World}

-- _libssh2_key_new_from_path on any platform, and _libssh2_rsa_new_private and
-- _libssh2_dsa_new_private with it: a run that returns ends holding only the key it returns, and a
-- key comes back only when the file's reads delivered bytes and the importer answered one of the
-- two requests for them with that one key.
theorem keyNewFromPath_cases {type : ItemType} {filename : String} {passphrase : Option Bytes}
    {e : Int} {key : Option (Ref K)} {w' : World}
    (h : keyNewFromPath type filename passphrase P w = .ok ((e, key), w')) :
    w'.ledger = held key + w.ledger ∧
      ∀ k ∈ key, ∃ contents request, (P.readFile filename).bind bytesRead = some contents ∧
        ImportRequestOf P contents type (some filename) passphrase request ∧
        P.itemImport request = .ok [.secKey k.val] := by
  cases hread : (P.readFile filename).bind bytesRead with
  | none =>
    obtain ⟨w₁, hfile, hl⟩ := createDataFromFile_of_unreadable (P := P) (w := w) filename hread
    simp only [keyNewFromPath, SecM.bind_apply, hfile, SecM.pure_apply, Except.ok.injEq,
      Prod.mk.injEq] at h
    obtain ⟨⟨-, rfl⟩, rfl⟩ := h
    exact ⟨by simpa using hl, by simp⟩
  | some contents =>
    obtain ⟨id, w₁, hfile, hl₁⟩ := createDataFromFile_of_read (P := P) (w := w) filename hread
    unfold keyNewFromPath at h
    rw [SecM.bind_of_ok _ hfile] at h
    obtain ⟨⟨e', key'⟩, w₂, hkey, h⟩ := SecM.bind_eq_ok.mp h
    obtain ⟨_, w₃, hrel, h⟩ := SecM.bind_eq_ok.mp h
    simp only [SecM.pure_apply, Except.ok.injEq, Prod.mk.injEq] at h
    obtain ⟨⟨rfl, rfl⟩, rfl⟩ := h
    obtain ⟨hl₂, hkeys, -⟩ := keyNewFromData_ok hkey
    refine ⟨?_, fun k hk => ?_⟩
    · rw [(release_eq_ok hrel).2, hl₂, hl₁]
      simp [Multiset.erase_add_right_pos]
    · obtain ⟨request, hreq, himport⟩ := hkeys k hk
      exact ⟨contents, request, rfl, hreq, himport⟩

theorem keyNewFromPath_cases_keyFile :
    ∃ e key w', keyNewFromPath .privateKey "key.pem" none keyFilePlatform World.initial =
        .ok ((e, key), w') ∧
      w'.ledger = held key + World.initial.ledger ∧
      ∀ k ∈ key, ∃ contents request, (keyFilePlatform.readFile "key.pem").bind bytesRead = some contents ∧
        ImportRequestOf keyFilePlatform contents .privateKey (some "key.pem") none request ∧
        keyFilePlatform.itemImport request = .ok [.secKey k.val] := by
  -- the file is read on its own first: in one piece the run's terms grow too large to check quickly
  have hfile : createDataFromFile "key.pem" keyFilePlatform World.initial =
      .ok (some ⟨3, [0x30]⟩, ⟨{3}, 4, 0, []⟩) := rfl
  obtain ⟨e, key, w', h⟩ : ∃ e key w', keyNewFromPath .privateKey "key.pem" none keyFilePlatform
      World.initial = .ok ((e, key), w') := by
    simp only [keyNewFromPath, SecM.bind_apply, hfile]
    exact ⟨_, _, _, rfl⟩
  exact ⟨e, key, w', h, keyNewFromPath_cases h⟩

end Path

end Libssh2
