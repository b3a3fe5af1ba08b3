import Libssh2.Cipher

namespace Libssh2

section Session

variable {K : Type} {P : Platform K} {w : World}

-- What a cryptor makes of `blocks`, one after the other, each after the ones before it.
def cryptorOutputs (P : Platform K) (cryptor : Cryptor) : List Bytes → Option (List Bytes)
  | [] => some []
  | block :: rest => do
    let out ← P.cryptorUpdate cryptor block
    let outs ← cryptorOutputs P { cryptor with processed := cryptor.processed ++ [block] } rest
    some (out :: outs)

-- The transport's use of a cipher: _libssh2_cipher_crypt on each block until one fails.
def cryptBlocks (ctx : Ref Cryptor) (algo : CipherType) (encrypt : Int) :
    List Bytes → SecM K (Option (List Bytes) × Ref Cryptor)
  | [] => return (some [], ctx)
  | block :: rest => do
    let (code, ctx, out) ← cipherCrypt ctx algo encrypt block
    if code ≠ 0 then return (none, ctx)
    let (outs, ctx) ← cryptBlocks ctx algo encrypt rest
    return (outs.map (out :: ·), ctx)

-- A whole session: _libssh2_cipher_init, the blocks, then _libssh2_cipher_dtor.
def cipherSession (algo : CipherType) (iv secret : Bytes) (encrypt : Int) (blocks : List Bytes) :
    SecM K (Option (List Bytes)) := do
  let (_, some ctx) ← cipherInit algo iv secret encrypt | return none
  let (outs, ctx) ← cryptBlocks ctx algo encrypt blocks
  cipherDtor ctx
  return outs

theorem cipherInit_of_accepted (algo : CipherType) (iv secret : Bytes) (encrypt : Int)
    (h : P.cryptorCreate (cipherRequest algo iv secret encrypt) = true) :
    cipherInit algo iv secret encrypt P w =
      .ok ((0, some ⟨w.fresh, ⟨cipherRequest algo iv secret encrypt, []⟩⟩),
        { w with ledger := w.fresh ::ₘ w.ledger, fresh := w.fresh + 1 }) := by
  simp [cipherInit, ccCryptorCreateWithMode, h]

theorem cipherInit_of_rejected (algo : CipherType) (iv secret : Bytes) (encrypt : Int)
    (h : P.cryptorCreate (cipherRequest algo iv secret encrypt) = false) :
    cipherInit algo iv secret encrypt P w = .ok ((1, none), w) := by
  simp [cipherInit, ccCryptorCreateWithMode, h]

-- One block: 0 and the cryptor's output, or 1 and the block as it was; the world is untouched.
theorem cipherCrypt_eq (ctx : Ref Cryptor) (algo : CipherType) (encrypt : Int) (block : Bytes) :
    cipherCrypt ctx algo encrypt block P w =
      .ok (match P.cryptorUpdate ctx.val block with
        | some out => (0, { ctx with val := { ctx.val with processed := ctx.val.processed ++ [block] } },
            out)
        | none => (1, ctx, block), w) := by
  cases h : P.cryptorUpdate ctx.val block <;> simp [cipherCrypt, ccCryptorUpdate, h]

-- The blocks come out as the cryptor makes them, the cryptor keeps its identity, and the world
-- is untouched.
theorem cryptBlocks_eq (algo : CipherType) (encrypt : Int) (blocks : List Bytes) (ctx : Ref Cryptor) :
    ∃ ctx', cryptBlocks ctx algo encrypt blocks P w =
      .ok ((cryptorOutputs P ctx.val blocks, ctx'), w) ∧ ctx'.id = ctx.id := by
  induction blocks generalizing ctx with
  | nil => exact ⟨ctx, rfl, rfl⟩
  | cons block rest ih =>
    cases h : P.cryptorUpdate ctx.val block with
    | none => exact ⟨ctx, by simp [cryptBlocks, cipherCrypt_eq, h, cryptorOutputs], rfl⟩
    | some out =>
      obtain ⟨ctx', hrest, hid⟩ := ih ⟨ctx.id, ⟨ctx.val.request, ctx.val.processed ++ [block]⟩⟩
      refine ⟨ctx', ?_, hid⟩
      simp [cryptBlocks, cipherCrypt_eq, h, hrest, cryptorOutputs, Option.map_eq_bind]

-- Every session ends holding what it held at the start, and its blocks are the cryptor's output
-- when CommonCrypto accepts the request.
theorem cipherSession_ledger (algo : CipherType) (iv secret : Bytes) (encrypt : Int)
    (blocks : List Bytes) :
    ∃ w', cipherSession algo iv secret encrypt blocks P w =
        .ok (if P.cryptorCreate (cipherRequest algo iv secret encrypt) then
          cryptorOutputs P ⟨cipherRequest algo iv secret encrypt, []⟩ blocks else none, w') ∧
      w'.ledger = w.ledger := by
  cases h : P.cryptorCreate (cipherRequest algo iv secret encrypt) with
  | false => exact ⟨w, by simp [cipherSession, cipherInit_of_rejected algo iv secret encrypt h], rfl⟩
  | true =>
    obtain ⟨ctx', hblocks, hid⟩ := cryptBlocks_eq (P := P)
      (w := { w with ledger := w.fresh ::ₘ w.ledger, fresh := w.fresh + 1 }) algo encrypt blocks
      ⟨w.fresh, ⟨cipherRequest algo iv secret encrypt, []⟩⟩
    refine ⟨{ w with fresh := w.fresh + 1 }, ?_, rfl⟩
    simp [cipherSession, cipherInit_of_accepted algo iv secret encrypt h, hblocks, cipherDtor,
      ccCryptorRelease, hid]

end Session

end Libssh2
