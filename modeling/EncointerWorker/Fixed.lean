import EncointerWorker.Primitives
import Mathlib.Tactic.NormNum

/-
  Encointer worker: `BalanceType`, the `I64F64` fixed-point number of the `fixed` crate,
  and `BalanceEntry<BlockNumber>` of the `encointer_balances` pallet.

  An `I64F64` is an `i128` of bits worth `bits / 2^64`. The structure carries the `i128`
  range (`FitsI128`), so an out-of-range value cannot be built; every operation computes
  the exact result first and `ofOverflowing` decides what the code does with it. The
  crate's `Neg` and `Mul` check for overflow with `debug_assert!` and wrap otherwise;
  `checked_mul` returns `None` in every build. A product is the wide product of the bits
  shifted right by 64, rounding toward minus infinity.

  SCALE encodes an `I64F64` as its `i128` bits, sixteen little-endian bytes in two's
  complement, and a `BalanceEntry` as its principal followed by its `u32` block number:
  twenty bytes (`decodeBalanceEntry_encode`).
-/

namespace EncointerWorker

/-- The range of `i128`. -/
def FitsI128 (x : Int) : Prop := -2 ^ 127 ≤ x ∧ x < 2 ^ 127

instance : DecidablePred FitsI128 := fun _ => inferInstanceAs (Decidable (_ ∧ _))

/-- `I64F64` (`BalanceType`): the bits of an `i128`, worth `bits / 2^64`. -/
@[ext] structure I64F64 where
  bits : Int
  fits : FitsI128 bits
  deriving DecidableEq

namespace I64F64

/-- Two's-complement wrapping into `i128`. -/
def wrap (x : Int) : I64F64 :=
  ⟨(x + 2 ^ 127) % 2 ^ 128 - 2 ^ 127, by
    have h0 := Int.emod_nonneg (x + 2 ^ 127) (b := 2 ^ 128) (by norm_num)
    have h1 := Int.emod_lt_of_pos (x + 2 ^ 127) (b := 2 ^ 128) (by norm_num)
    generalize (x + 2 ^ 127) % 2 ^ 128 = y at *
    constructor <;> omega⟩

/-- What an arithmetic operation with exact result `x` yields: a panic when `x` does not fit
and debug assertions are on, the wrapped bits (`x` itself when it fits) otherwise. -/
def ofOverflowing (debugAssertions : Bool) (x : Int) : Except Panic I64F64 :=
  overflowChecked debugAssertions (¬ FitsI128 x) (wrap x)

/-- `from_num` of a `u32`. -/
def fromNum (n : UInt32) : I64F64 :=
  ⟨n.toNat * 2 ^ 64, by
    have : n.toNat < 2 ^ 32 := n.toNat_lt_size
    constructor <;> omega⟩

/-- `BalanceType::from_num(0)`. -/
def zero : I64F64 := fromNum 0

/-- `-x` (`Neg`). -/
def neg (debugAssertions : Bool) (x : I64F64) : Except Panic I64F64 :=
  ofOverflowing debugAssertions (-x.bits)

/-- The exact bits of `a * b`: the wide product shifted right by 64. -/
def mulBits (a b : I64F64) : Int := a.bits * b.bits / 2 ^ 64

/-- `a * b` (`Mul`). -/
def mul (debugAssertions : Bool) (a b : I64F64) : Except Panic I64F64 :=
  ofOverflowing debugAssertions (mulBits a b)

/-- `checked_mul`. -/
def checkedMul (a b : I64F64) : Option I64F64 :=
  if h : FitsI128 (mulBits a b) then some ⟨_, h⟩ else none

theorem wrap_of_fits {x : Int} (h : FitsI128 x) : (wrap x).bits = x := by
  have := Int.emod_eq_of_lt (a := x + 2 ^ 127) (b := 2 ^ 128) (by unfold FitsI128 at h; omega)
    (by unfold FitsI128 at h; omega)
  simp only [wrap, this, Int.add_sub_cancel]

theorem wrap_emod (x : Int) : wrap (x % 2 ^ 128) = wrap x := by
  simp only [wrap, Int.emod_add_emod]

/-- Wrapping whole units keeps the low 64 bits of the integer part, read signed. -/
theorem wrap_mul_two_pow_64 (a : Int) : (wrap (a * 2 ^ 64)).bits = wrapI64 a * 2 ^ 64 := by
  show (a * 2 ^ 64 + 2 ^ 127) % 2 ^ 128 - 2 ^ 127 = ((a + 2 ^ 63) % 2 ^ 64 - 2 ^ 63) * 2 ^ 64
  omega

/-- A product by a whole number of blocks is exact: no rounding. -/
theorem mulBits_fromNum (a : I64F64) (n : UInt32) : mulBits a (fromNum n) = a.bits * n.toNat := by
  rw [mulBits, fromNum, ← Int.mul_assoc]
  exact Int.mul_ediv_cancel _ (by norm_num)

theorem checkedMul_eq_some_iff (a b c : I64F64) :
    checkedMul a b = some c ↔ c.bits = mulBits a b := by
  unfold checkedMul
  split
  · exact ⟨fun h => by cases h; rfl, fun h => congrArg some (I64F64.ext h.symm)⟩
  · rename_i h; exact ⟨nofun, fun hc => absurd (hc ▸ c.fits) h⟩

theorem isSome_checkedMul_iff (a b : I64F64) : (checkedMul a b).isSome ↔ FitsI128 (mulBits a b) := by
  unfold checkedMul; split_ifs with h <;> simp [h]

end I64F64

/-! ## SCALE encoding -/

/-- `I64F64::encode`: the `i128` bits, sixteen little-endian bytes. -/
def encodeI64F64 (x : I64F64) : Bytes := leBytes (x.bits % 2 ^ 128).toNat 16

/-- `I64F64::decode`. -/
def decodeI64F64 (input : Bytes) : Option I64F64 :=
  (readLE 16 input).map fun v : Nat => I64F64.wrap v

instance : Encode I64F64 := ⟨encodeI64F64⟩

@[simp] theorem encodeI64F64_length (x : I64F64) : (encodeI64F64 x).length = 16 :=
  leBytes_length _ _

theorem decodeI64F64_encodeI64F64_append (x : I64F64) (rest : Bytes) :
    decodeI64F64 (encodeI64F64 x ++ rest) = some x := by
  have h0 : 0 ≤ x.bits % 2 ^ 128 := Int.emod_nonneg _ (by norm_num)
  have h1 : x.bits % 2 ^ 128 < 2 ^ 128 := Int.emod_lt_of_pos _ (by norm_num)
  have hlt : (x.bits % 2 ^ 128).toNat < 256 ^ 16 := by
    rw [show (256 : Nat) ^ 16 = 2 ^ 128 by norm_num]
    generalize x.bits % 2 ^ 128 = y at *
    omega
  rw [decodeI64F64, encodeI64F64, readLE_leBytes_append, Option.map_some', Nat.mod_eq_of_lt hlt,
    Int.toNat_of_nonneg h0, I64F64.wrap_emod]
  exact congrArg some (I64F64.ext (I64F64.wrap_of_fits x.fits))

/-- `BalanceEntry<BlockNumber>`: a principal as of block `last_update`. -/
structure BalanceEntry where
  principal : I64F64
  lastUpdate : UInt32
  deriving DecidableEq

/-- `BalanceEntry::encode`: the principal, then the block number. -/
def encodeBalanceEntry (e : BalanceEntry) : Bytes :=
  encodeI64F64 e.principal ++ encodeU32 e.lastUpdate

/-- `BalanceEntry::<BlockNumber>::decode`. -/
def decodeBalanceEntry (input : Bytes) : Option BalanceEntry := do
  let principal ← decodeI64F64 input
  let lastUpdate ← decodeU32 (input.drop 16)
  pure ⟨principal, lastUpdate⟩

instance : Encode BalanceEntry := ⟨encodeBalanceEntry⟩

theorem decodeBalanceEntry_encode (e : BalanceEntry) :
    decodeBalanceEntry (encodeBalanceEntry e) = some e := by
  simp [decodeBalanceEntry, encodeBalanceEntry, decodeI64F64_encodeI64F64_append]

/-- A `BalanceEntry` needs twenty bytes: sixteen of principal and four of block number. -/
theorem decodeBalanceEntry_eq_none_of_length_lt {input : Bytes} (h : input.length < 20) :
    decodeBalanceEntry input = none := by
  cases hp : decodeI64F64 input with
  | none => simp [decodeBalanceEntry, hp]
  | some p =>
    have : decodeU32 (input.drop 16) = none := by
      rw [decodeU32_eq_none_iff, List.length_drop]; omega
    simp [decodeBalanceEntry, hp, this]

end EncointerWorker
