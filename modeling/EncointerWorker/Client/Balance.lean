import EncointerWorker.Stf.Execute

/-
  Encointer worker: the client's `balance` command and `apply_demurrage` (`cli.rs`).

  The command sends the signed getter `TrustedGetter::balance`, decodes the answer as a
  `BalanceEntry<BlockNumber>` and applies demurrage at the current block with the
  currency's rate per block; an absent or undecodable answer prints zero. The block number
  and the rate are reads of the public chain, given values here.

  The enclave answers with `get_encointer_balance`, which decodes the stored bytes as a
  bare `BalanceType` and encodes that again: sixteen bytes, where the client needs the
  twenty of a `BalanceEntry`. For every stored entry the client's decode fails and the
  command prints zero (`balance_getter_never_decodes`).

  `apply_demurrage` computes the exponent `-rate * elapsed` in fixed point, its exponential
  with `fixed::transcendental::exp`, and the `checked_mul` of the principal by it. The
  exponential is not under src/ and is the parameter `exp`. The product by a whole number
  of blocks is exact, but it leaves `I64F64` once `rate * elapsed` passes `2^63`: a build
  with debug assertions panics there (`applyDemurrage_panics_on_large_exponent`), a
  release build hands `exp` the wrapped bits. `applyDemurrage_returns_iff` says exactly
  when the function returns, and `applyDemurrage_antitone` what order its results keep.
-/

namespace EncointerWorker

/-- `u32::checked_sub`. -/
def u32CheckedSub (a b : UInt32) : Option UInt32 := if b ≤ a then some (a - b) else none

section Demurrage

variable (debugAssertions : Bool) (exp : I64F64 → Except Unit I64F64)

/-- `apply_demurrage`. -/
def applyDemurrage (entry : BalanceEntry) (currentBlock : UInt32) (demurragePerBlock : I64F64) :
    Except Panic I64F64 := do
  let elapsedTimeBlockNumber ← unwrap (u32CheckedSub currentBlock entry.lastUpdate)
  let elapsedTime := I64F64.fromNum elapsedTimeBlockNumber
  let negRate ← I64F64.neg debugAssertions demurragePerBlock
  let exponent ← I64F64.mul debugAssertions negRate elapsedTime
  let expResult ← unwrap (exp exponent).toOption
  unwrap (I64F64.checkedMul entry.principal expResult)

/-- The runner of the `balance` command, from the getter's answer `res`, the current block
`bn` and the currency's demurrage rate `dr`. -/
def balanceCommand (res : Option Bytes) (bn : UInt32) (dr : I64F64) : Except Panic I64F64 :=
  match res with
  | some v =>
    match decodeBalanceEntry v with
    | some vd => applyDemurrage debugAssertions exp vd bn dr
    | none => pure I64F64.zero
  | none => pure I64F64.zero

/-- The exact exponent's bits, `-rate * elapsed`. -/
def exponentBits (entry : BalanceEntry) (currentBlock : UInt32) (demurragePerBlock : I64F64) : Int :=
  -(demurragePerBlock.bits * (currentBlock - entry.lastUpdate).toNat)

/-- For a block at or after the entry's and a nonnegative rate: a panic when debug
assertions are on and the exponent leaves `I64F64`; otherwise `exp` of the wrapped
exponent, unwrapped, times the principal. -/
theorem applyDemurrage_eq (e : BalanceEntry) (b : UInt32) (r : I64F64) (hb : e.lastUpdate ≤ b)
    (hr : 0 ≤ r.bits) :
    applyDemurrage debugAssertions exp e b r =
      if debugAssertions = true ∧ ¬ FitsI128 (exponentBits e b r) then .error .overflow
      else unwrap (exp (I64F64.wrap (exponentBits e b r))).toOption >>=
        fun v => unwrap (I64F64.checkedMul e.principal v) := by
  have hneg : FitsI128 (-r.bits) := by have := r.fits; unfold FitsI128 at *; omega
  have hmul : I64F64.mulBits (I64F64.wrap (-r.bits)) (I64F64.fromNum (b - e.lastUpdate)) =
      exponentBits e b r := by
    rw [I64F64.mulBits_fromNum, I64F64.wrap_of_fits hneg, exponentBits, Int.neg_mul]
  simp only [applyDemurrage, u32CheckedSub, if_pos hb, unwrap_some, I64F64.neg, I64F64.mul,
    I64F64.ofOverflowing, overflowChecked, hneg, not_true_eq_false, and_false, if_false, bind, Except.bind, hmul]
  split_ifs <;> rfl

/-- Every result of `apply_demurrage`, at a block at or after the entry's and a nonnegative
rate: the exponent fits when debug assertions are on, `exp` returns `v` at its wrapped
bits, and the result is the `checked_mul` of the principal by `v`. -/
theorem applyDemurrage_eq_ok_iff (e : BalanceEntry) (b : UInt32) (r : I64F64)
    (hb : e.lastUpdate ≤ b) (hr : 0 ≤ r.bits) (x : I64F64) :
    applyDemurrage debugAssertions exp e b r = .ok x ↔
      (debugAssertions = true → FitsI128 (exponentBits e b r)) ∧
      ∃ v, exp (I64F64.wrap (exponentBits e b r)) = .ok v ∧ I64F64.checkedMul e.principal v = some x := by
  rw [applyDemurrage_eq debugAssertions exp e b r hb hr]
  split_ifs with h
  · simp [h.1, h.2]
  · have hfit : debugAssertions = true → FitsI128 (exponentBits e b r) :=
      fun hd => not_not.1 fun hf => h ⟨hd, hf⟩
    rw [bind_eq_ok_iff, and_iff_right hfit]
    cases exp (I64F64.wrap (exponentBits e b r)) <;> simp [Except.toOption, unwrap_eq_ok_iff]

end Demurrage

/-- A later block or a higher rate never gives a higher exponent. -/
theorem exponentBits_antitone (e : BalanceEntry) {b b' : UInt32} {r r' : I64F64}
    (hb : e.lastUpdate ≤ b) (hbb : b ≤ b') (hr : 0 ≤ r.bits) (hrr : r.bits ≤ r'.bits) :
    exponentBits e b' r' ≤ exponentBits e b r := by
  have hn : (b - e.lastUpdate).toNat ≤ (b' - e.lastUpdate).toNat := by
    rw [UInt32.toNat_sub_of_le _ _ hb, UInt32.toNat_sub_of_le _ _ (Nat.le_trans hb hbb)]
    exact Nat.sub_le_sub_right hbb _
  exact Int.neg_le_neg (Int.mul_le_mul hrr (Int.ofNat_le.2 hn) (Int.ofNat_nonneg _)
    (Int.le_trans hr hrr))

theorem exponentBits_nonpos (e : BalanceEntry) (b : UInt32) {r : I64F64} (hr : 0 ≤ r.bits) :
    exponentBits e b r ≤ 0 :=
  Int.neg_nonpos_of_nonneg (Int.mul_nonneg hr (Int.ofNat_nonneg _))

/-! ## When `apply_demurrage` returns -/

/-- At a block at or after the entry's and a nonnegative rate, `apply_demurrage` returns
exactly when the exponent `-rate * elapsed` fits `I64F64` (needed only with debug
assertions: without, its bits wrap), `exp` returns at the exponent, and the principal times
the exponential fits `I64F64`. -/
theorem applyDemurrage_returns_iff (debugAssertions : Bool) (exp : I64F64 → Except Unit I64F64)
    (e : BalanceEntry) (b : UInt32) (r : I64F64) (hb : e.lastUpdate ≤ b) (hr : 0 ≤ r.bits) :
    (∃ x, applyDemurrage debugAssertions exp e b r = .ok x) ↔
      (debugAssertions = true → FitsI128 (exponentBits e b r)) ∧
      ∃ v, exp (I64F64.wrap (exponentBits e b r)) = .ok v ∧
        FitsI128 (I64F64.mulBits e.principal v) := by
  simp only [applyDemurrage_eq_ok_iff debugAssertions exp e b r hb hr,
    ← I64F64.isSome_checkedMul_iff, Option.isSome_iff_exists]
  constructor
  · rintro ⟨x, hd, v, hv, hx⟩; exact ⟨hd, v, hv, x, hx⟩
  · rintro ⟨hd, v, hv, x, hx⟩; exact ⟨x, hd, v, hv, hx⟩

/-- Two blocks after the entry's at a rate of `1/4` per block, with debug assertions and an
`exp` that returns, the function returns. -/
theorem applyDemurrage_returns_after_two_blocks :
    ∃ x, applyDemurrage true (fun _ => .ok (I64F64.wrap (2 ^ 63))) ⟨I64F64.fromNum 1, 0⟩ 2
      (I64F64.wrap (2 ^ 62)) = .ok x :=
  (applyDemurrage_returns_iff true _ ⟨I64F64.fromNum 1, 0⟩ 2 (I64F64.wrap (2 ^ 62)) (by decide)
    (by decide)).2 ⟨fun _ => by decide, _, rfl, by decide⟩

/-- A rate of `u32::MAX` per block over `u32::MAX` blocks: `-rate * elapsed` is about
`-2^128`, outside `I64F64`, and a build with debug assertions panics at the product before
`exp` is called. -/
theorem applyDemurrage_panics_on_large_exponent :
    applyDemurrage true (fun y => .ok y) ⟨I64F64.fromNum 1, 0⟩ u32Max (I64F64.fromNum u32Max) =
      .error .overflow := by
  rw [applyDemurrage_eq true _ _ _ _ (by decide) (by decide), if_pos (by decide)]

/-! ## Order and bounds -/

/-- With debug assertions and a nonnegative principal, the code's own steps keep the order
that `exp` gives: if `exp` is monotone and maps nonpositive exponents into `[0, 1]`, a later
block or a higher rate never gives a higher present value, and no present value exceeds the
principal. The exponent is exact, and the truncating `checked_mul` is monotone. -/
theorem applyDemurrage_antitone (exp : I64F64 → Except Unit I64F64) (e : BalanceEntry)
    (b b' : UInt32) (r r' : I64F64) (hb : e.lastUpdate ≤ b) (hbb : b ≤ b') (hr : 0 ≤ r.bits)
    (hrr : r.bits ≤ r'.bits) (hp : 0 ≤ e.principal.bits)
    (hmono : ∀ y y' v v' : I64F64, y'.bits ≤ y.bits → exp y = .ok v → exp y' = .ok v' →
      v'.bits ≤ v.bits)
    (hunit : ∀ y v : I64F64, y.bits ≤ 0 → exp y = .ok v → 0 ≤ v.bits ∧ v.bits ≤ 2 ^ 64)
    (x x' : I64F64) (hx : applyDemurrage true exp e b r = .ok x)
    (hx' : applyDemurrage true exp e b' r' = .ok x') :
    0 ≤ x'.bits ∧ x'.bits ≤ x.bits ∧ x.bits ≤ e.principal.bits := by
  obtain ⟨hf, v, hv, hc⟩ := (applyDemurrage_eq_ok_iff true exp e b r hb hr x).1 hx
  obtain ⟨hf', v', hv', hc'⟩ :=
    (applyDemurrage_eq_ok_iff true exp e b' r' (Nat.le_trans hb hbb) (Int.le_trans hr hrr) x').1 hx'
  have hw := I64F64.wrap_of_fits (hf rfl)
  have hw' := I64F64.wrap_of_fits (hf' rfl)
  have hvv : v'.bits ≤ v.bits := hmono _ _ v v'
    (by rw [hw, hw']; exact exponentBits_antitone e hb hbb hr hrr) hv hv'
  have hv1 := (hunit _ v (by rw [hw]; exact exponentBits_nonpos e b hr) hv).2
  have hv0' := (hunit _ v' (by rw [hw']; exact exponentBits_nonpos e b' (Int.le_trans hr hrr)) hv').1
  rw [I64F64.checkedMul_eq_some_iff] at hc hc'
  rw [hc, hc', I64F64.mulBits, I64F64.mulBits]
  refine ⟨Int.ediv_nonneg (Int.mul_nonneg hp hv0') (by norm_num),
    Int.ediv_le_ediv (by norm_num) (Int.mul_le_mul_of_nonneg_left hvv hp), ?_⟩
  calc e.principal.bits * v.bits / 2 ^ 64
      ≤ e.principal.bits * 2 ^ 64 / 2 ^ 64 :=
        Int.ediv_le_ediv (by norm_num) (Int.mul_le_mul_of_nonneg_left hv1 hp)
    _ = e.principal.bits := Int.mul_ediv_cancel _ (by norm_num)

/-- At a rate of `1/4` per block, with an `exp` that is `1` at nonnegative exponents and
`1/2` below: the present value `1` at the entry's block falls to `1/2` one block later. -/
theorem applyDemurrage_halves_after_one_block :
    0 ≤ (I64F64.wrap (2 ^ 63)).bits ∧ (I64F64.wrap (2 ^ 63)).bits ≤ (I64F64.fromNum 1).bits ∧
      (I64F64.fromNum 1).bits ≤ (I64F64.fromNum 1).bits :=
  applyDemurrage_antitone
    (fun y => if 0 ≤ y.bits then .ok (I64F64.fromNum 1) else .ok (I64F64.wrap (2 ^ 63)))
    ⟨I64F64.fromNum 1, 0⟩ 0 1 (I64F64.wrap (2 ^ 62)) (I64F64.wrap (2 ^ 62)) (by decide) (by decide)
    (by decide) (Int.le_refl _) (by decide)
    (fun y y' v v' hyy hv hv' => by
      dsimp only at hv hv'
      split at hv <;> split at hv' <;> cases hv <;> cases hv' <;> first | decide | omega)
    (fun y v _ hv => by dsimp only at hv; split at hv <;> cases hv <;> decide) _ _ (by rfl) (by rfl)

/-! ## The getter and the client -/

/-- For every state holding a `BalanceEntry` at the balance address of `(who, cid)`, the
getter answers with the sixteen bytes of its principal, which the client cannot decode as a
`BalanceEntry`: the `balance` command prints zero and never applies demurrage. -/
theorem balance_getter_never_decodes (H : Hashers) (debugAssertions : Bool)
    (exp : I64F64 → Except Unit I64F64) (s : State) (who : AccountId) (cid : CurrencyIdentifier)
    (e : BalanceEntry) (bn : UInt32) (dr : I64F64) :
    (getState H (.balance who cid)).run (s.set (balanceKey H who cid) (encodeBalanceEntry e)) =
        .ok (some (encodeI64F64 e.principal)) (s.set (balanceKey H who cid) (encodeBalanceEntry e)) ∧
      decodeBalanceEntry (encodeI64F64 e.principal) = none ∧
      balanceCommand debugAssertions exp (some (encodeI64F64 e.principal)) bn dr = .ok I64F64.zero := by
  have hnone : decodeBalanceEntry (encodeI64F64 e.principal) = none :=
    decodeBalanceEntry_eq_none_of_length_lt (by simp)
  refine ⟨?_, hnone, by simp [balanceCommand, hnone]; rfl⟩
  simp [getState, getEncointerBalance, encodeBalanceEntry, decodeI64F64_encodeI64F64_append]
  rfl

end EncointerWorker
