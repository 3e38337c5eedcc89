import Mathlib.Tactic.NormNum

/-
  Encointer worker: the Rust primitives the modelled code rests on. Byte strings, the
  panics the code can raise, integer arithmetic under the two build profiles, and the SCALE
  codec (`codec::Encode`, `codec::Decode`) of fixed-width integers and 32-byte arrays.

  Overflow. Cargo turns overflow checks and debug assertions on together in the `dev`
  profile and off in `release`. `debugAssertions` is that switch: with it an overflowing
  integer operation panics, without it the result wraps (`overflowChecked`, of which the
  `u32`, `u64` and `i64` operations the code uses are instances).

  A fixed-width SCALE decode reads its bytes from the front of the input and leaves the
  rest unread; it fails only when fewer bytes remain (`readLE_leBytes_append`,
  `readLE_eq_none_iff`).
-/

namespace EncointerWorker

/-- A byte string, `Vec<u8>`. -/
abbrev Bytes := List UInt8

/-- The panics the modelled code can raise. -/
inductive Panic where
  /-- `Option::unwrap` on `None`, or `Result::unwrap` on `Err`. -/
  | unwrap
  /-- `assert_eq!` with unequal sides. -/
  | assertEq
  /-- Arithmetic overflow, caught when overflow checks are on. -/
  | overflow
  /-- A slice index past the end. -/
  | indexOutOfBounds
  /-- An explicit `panic!` with its message. -/
  | explicit (msg : String)
  deriving DecidableEq, Repr

/-- `Option::unwrap`. -/
def unwrap {α : Type} : Option α → Except Panic α
  | some a => .ok a
  | none => .error .unwrap

@[simp] theorem unwrap_some {α : Type} (a : α) : unwrap (some a) = .ok a := rfl

@[simp] theorem unwrap_none {α : Type} : unwrap (none : Option α) = .error .unwrap := rfl

theorem unwrap_eq_ok_iff {α : Type} {o : Option α} {a : α} : unwrap o = .ok a ↔ o = some a := by
  cases o <;> simp [unwrap, eq_comm]

/-- A fallible computation followed by another returns exactly when both steps do. -/
theorem bind_eq_ok_iff {ε α β : Type} {x : Except ε α} {f : α → Except ε β} {b : β} :
    x >>= f = .ok b ↔ ∃ a, x = .ok a ∧ f a = .ok b := by
  cases x <;> simp [bind, Except.bind]

/-- An integer operation whose wrapped result is `result`: a panic when it `overflows` and
debug assertions are on, the wrapped result otherwise. -/
def overflowChecked {α : Type} (debugAssertions : Bool) (overflows : Prop) [Decidable overflows]
    (result : α) : Except Panic α :=
  if debugAssertions = true ∧ overflows then .error .overflow else .ok result

theorem overflowChecked_of_not {α : Type} (debugAssertions : Bool) {overflows : Prop}
    [Decidable overflows] (result : α) (h : ¬ overflows) :
    overflowChecked debugAssertions overflows result = .ok result :=
  if_neg fun hc => h hc.2

/-- `a + b` on `u32`. -/
def u32Add (debugAssertions : Bool) (a b : UInt32) : Except Panic UInt32 :=
  overflowChecked debugAssertions (2 ^ 32 ≤ a.toNat + b.toNat) (a + b)

/-- `a - b` on `u32`. -/
def u32Sub (debugAssertions : Bool) (a b : UInt32) : Except Panic UInt32 :=
  overflowChecked debugAssertions (a.toNat < b.toNat) (a - b)

theorem toNat_ofNat_u8 (n : Nat) : (UInt8.ofNat n).toNat = n % 256 := rfl

theorem toNat_ofNat_u32 (n : Nat) : (UInt32.ofNat n).toNat = n % 2 ^ 32 := rfl

theorem ofNat_toNat_u32 (n : UInt32) : UInt32.ofNat n.toNat = n :=
  UInt32.toNat.inj (by rw [toNat_ofNat_u32]; exact Nat.mod_eq_of_lt n.toNat_lt_size)

theorem toNat_add_u32 (a b : UInt32) : (a + b).toNat = (a.toNat + b.toNat) % 2 ^ 32 := by
  simp [UInt32.add_def, UInt32.toNat, BitVec.toNat_add]

theorem ofNat_add_one_u32 (k : Nat) : UInt32.ofNat k + 1 = UInt32.ofNat (k + 1) :=
  UInt32.toNat.inj (by
    rw [toNat_add_u32, toNat_ofNat_u32, toNat_ofNat_u32, show (1 : UInt32).toNat = 1 from rfl,
      Nat.mod_add_mod])

theorem toNat_ofNat_u64 (n : Nat) : (UInt64.ofNat n).toNat = n % 2 ^ 64 := rfl

theorem ofNat_toNat_u64 (n : UInt64) : UInt64.ofNat n.toNat = n :=
  UInt64.toNat.inj (by rw [toNat_ofNat_u64]; exact Nat.mod_eq_of_lt n.toNat_lt_size)

theorem toNat_add_u64 (a b : UInt64) : (a + b).toNat = (a.toNat + b.toNat) % 2 ^ 64 := by
  simp [UInt64.add_def, UInt64.toNat, BitVec.toNat_add]

/-- `a + b` on `u64`. -/
def u64Add (debugAssertions : Bool) (a b : UInt64) : Except Panic UInt64 :=
  overflowChecked debugAssertions (2 ^ 64 ≤ a.toNat + b.toNat) (a + b)

/-- `a - b` on `u64`. -/
def u64Sub (debugAssertions : Bool) (a b : UInt64) : Except Panic UInt64 :=
  overflowChecked debugAssertions (a.toNat < b.toNat) (a - b)

theorem u64Add_of_lt (debugAssertions : Bool) {a b : UInt64} (h : a.toNat + b.toNat < 2 ^ 64) :
    u64Add debugAssertions a b = .ok (a + b) :=
  overflowChecked_of_not _ _ (Nat.not_le_of_lt h)

theorem u64Sub_add_cancel (debugAssertions : Bool) {a b : UInt64} (h : a.toNat + b.toNat < 2 ^ 64) :
    u64Sub debugAssertions (a + b) b = .ok a := by
  have hab : (a + b).toNat = a.toNat + b.toNat := by rw [toNat_add_u64, Nat.mod_eq_of_lt h]
  rw [u64Sub, overflowChecked_of_not _ _ (by omega)]
  exact congrArg Except.ok (UInt64.toNat.inj (by
    rw [UInt64.toNat_sub_of_le _ _ (show b.toNat ≤ (a + b).toNat by omega), hab, Nat.add_sub_cancel]))

/-- The range of `i64`. -/
def FitsI64 (x : Int) : Prop := -2 ^ 63 ≤ x ∧ x < 2 ^ 63

instance : DecidablePred FitsI64 := fun _ => inferInstanceAs (Decidable (_ ∧ _))

/-- Two's-complement wrapping into `i64`. -/
def wrapI64 (x : Int) : Int := (x + 2 ^ 63) % 2 ^ 64 - 2 ^ 63

theorem wrapI64_of_fits {x : Int} (h : FitsI64 x) : wrapI64 x = x := by
  unfold FitsI64 at h
  rw [wrapI64, Int.emod_eq_of_lt (by omega) (by omega), Int.add_sub_cancel]

/-- `a - b` on `i64`. -/
def i64Sub (debugAssertions : Bool) (a b : Int) : Except Panic Int :=
  overflowChecked debugAssertions (¬ FitsI64 (a - b)) (wrapI64 (a - b))

theorem i64Sub_of_fits (debugAssertions : Bool) {a b : Int} (h : FitsI64 (a - b)) :
    i64Sub debugAssertions a b = .ok (a - b) := by
  rw [i64Sub, overflowChecked_of_not _ _ (not_not.2 h), wrapI64_of_fits h]

/-- `x as i64` for a `u64`: the same bits read in two's complement. -/
def asI64 (x : UInt64) : Int := if x.toNat < 2 ^ 63 then x.toNat else x.toNat - 2 ^ 64

/-- `x as u64` for an `i64`: the same bits read unsigned. -/
def asU64 (x : Int) : UInt64 := UInt64.ofNat (x % 2 ^ 64).toNat

theorem asI64_of_lt {x : UInt64} (h : x.toNat < 2 ^ 63) : asI64 x = x.toNat := if_pos h

/-! The casts and the wrapping keep the residue modulo `2^64`, and `as u64` reads only it. -/

theorem wrapI64_emod (x : Int) : wrapI64 x % 2 ^ 64 = x % 2 ^ 64 := by
  unfold wrapI64; omega

theorem asI64_emod (x : UInt64) : asI64 x % 2 ^ 64 = (x.toNat : Int) % 2 ^ 64 := by
  unfold asI64; split <;> omega

theorem asU64_congr {x y : Int} (h : x % 2 ^ 64 = y % 2 ^ 64) : asU64 x = asU64 y := by
  rw [asU64, asU64, h]

/-- `u32::MAX`. -/
def u32Max : UInt32 := UInt32.ofNat (2 ^ 32 - 1)

theorem succ_overflows_iff (n : UInt32) : 2 ^ 32 ≤ n.toNat + 1 ↔ n = u32Max := by
  have hn : n.toNat < 2 ^ 32 := n.toNat_lt_size
  constructor
  · intro h; rw [← ofNat_toNat_u32 n]; congr 1; omega
  · rintro rfl; decide

theorem ofNat_eq_u32Max_iff {k : Nat} (hk : k < 2 ^ 32) : UInt32.ofNat k = u32Max ↔ k = 2 ^ 32 - 1 := by
  constructor
  · intro h
    have := congrArg UInt32.toNat h
    rwa [toNat_ofNat_u32, Nat.mod_eq_of_lt hk] at this
  · rintro rfl; rfl

/-- The successor of a `u32` overflows only at `u32::MAX`. -/
theorem u32Add_one (debugAssertions : Bool) (n : UInt32) :
    u32Add debugAssertions n 1 =
      if debugAssertions = true ∧ n = u32Max then .error .overflow
      else .ok (n + 1) := by
  simp only [u32Add, overflowChecked, show (1 : UInt32).toNat = 1 from rfl, succ_overflows_iff]

/-! ## Little-endian bytes -/

/-- The `w` little-endian bytes of `x` modulo `256 ^ w`. -/
def leBytes (x : Nat) : Nat → Bytes
  | 0 => []
  | w + 1 => UInt8.ofNat x :: leBytes (x / 256) w

/-- The number little-endian bytes denote. -/
def leValue : Bytes → Nat
  | [] => 0
  | b :: bs => b.toNat + 256 * leValue bs

/-- A fixed-width SCALE decode: the first `w` bytes, `none` when fewer remain. -/
def readLE (w : Nat) (input : Bytes) : Option Nat :=
  if w ≤ input.length then some (leValue (input.take w)) else none

@[simp] theorem leBytes_length (x w : Nat) : (leBytes x w).length = w := by
  induction w generalizing x with
  | zero => rfl
  | succ w ih => simp [leBytes, ih]

theorem leValue_leBytes (x w : Nat) : leValue (leBytes x w) = x % 256 ^ w := by
  induction w generalizing x with
  | zero => simp [leBytes, leValue, Nat.mod_one]
  | succ w ih => rw [leBytes, leValue, ih, toNat_ofNat_u8, Nat.pow_succ', Nat.mod_mul]

theorem readLE_leBytes_append (x w : Nat) (rest : Bytes) :
    readLE w (leBytes x w ++ rest) = some (x % 256 ^ w) := by
  rw [readLE, if_pos (by simp), List.take_left' (leBytes_length x w), leValue_leBytes]

theorem readLE_eq_none_iff (w : Nat) (input : Bytes) : readLE w input = none ↔ input.length < w := by
  unfold readLE; split <;> simp <;> omega

/-! ## SCALE encoding -/

/-- `codec::Encode`. -/
class Encode (α : Type) where
  encode : α → Bytes

export Encode (encode)

/-- `u32`: four little-endian bytes. -/
def encodeU32 (n : UInt32) : Bytes := leBytes n.toNat 4

/-- `u32::decode`. -/
def decodeU32 (input : Bytes) : Option UInt32 := (readLE 4 input).map UInt32.ofNat

instance : Encode UInt32 := ⟨encodeU32⟩

@[simp] theorem encodeU32_length (n : UInt32) : (encodeU32 n).length = 4 := leBytes_length _ _

theorem decodeU32_encodeU32_append (n : UInt32) (rest : Bytes) :
    decodeU32 (encodeU32 n ++ rest) = some n := by
  rw [decodeU32, encodeU32, readLE_leBytes_append, Option.map_some',
    Nat.mod_eq_of_lt (by simpa using n.toNat_lt_size), ofNat_toNat_u32]

@[simp] theorem decodeU32_encodeU32 (n : UInt32) : decodeU32 (encodeU32 n) = some n := by
  simpa using decodeU32_encodeU32_append n []

theorem decodeU32_eq_none_iff (input : Bytes) : decodeU32 input = none ↔ input.length < 4 := by
  rw [decodeU32, Option.map_eq_none', readLE_eq_none_iff]

/-- `u64` (`Moment`, `MeetupIndexType`): eight little-endian bytes. -/
def encodeU64 (n : UInt64) : Bytes := leBytes n.toNat 8

/-- `u64::decode`. -/
def decodeU64 (input : Bytes) : Option UInt64 := (readLE 8 input).map UInt64.ofNat

instance : Encode UInt64 := ⟨encodeU64⟩

theorem decodeU64_encodeU64_append (n : UInt64) (rest : Bytes) :
    decodeU64 (encodeU64 n ++ rest) = some n := by
  rw [decodeU64, encodeU64, readLE_leBytes_append, Option.map_some',
    Nat.mod_eq_of_lt (by simpa using n.toNat_lt_size), ofNat_toNat_u64]

/-- A 32-byte array `[u8; 32]`, SCALE-encoded as its bytes with no length prefix. -/
@[ext] structure Bytes32 where
  bytes : Bytes
  length_eq : bytes.length = 32
  deriving DecidableEq

instance : Encode Bytes32 := ⟨Bytes32.bytes⟩

/-- `[0u8; 32]`. -/
def Bytes32.zero : Bytes32 := ⟨List.replicate 32 0, List.length_replicate _ _⟩

@[simp] theorem encode_bytes32 (x : Bytes32) : encode x = x.bytes := rfl

/-- `[u8; 32]::decode`: the first 32 bytes. -/
def decodeBytes32 (input : Bytes) : Option Bytes32 :=
  if h : 32 ≤ input.length then some ⟨input.take 32, by rw [List.length_take]; omega⟩ else none

theorem decodeBytes32_append (x : Bytes32) (rest : Bytes) : decodeBytes32 (x.bytes ++ rest) = some x := by
  rw [decodeBytes32, dif_pos (by rw [List.length_append, x.length_eq]; omega)]
  exact congrArg some (Bytes32.ext (List.take_left' x.length_eq))

/-! ## The decoder's cursor -/

@[simp] theorem drop_bytes32_append (x : Bytes32) (rest : Bytes) : (x.bytes ++ rest).drop 32 = rest :=
  List.drop_left' x.length_eq

@[simp] theorem drop_encodeU32_append (n : UInt32) (rest : Bytes) : (encodeU32 n ++ rest).drop 4 = rest :=
  List.drop_left' (encodeU32_length n)

@[simp] theorem drop_encodeU64_append (n : UInt64) (rest : Bytes) : (encodeU64 n ++ rest).drop 8 = rest :=
  List.drop_left' (leBytes_length _ _)

/-- `AccountId`: an sr25519 public key. -/
abbrev AccountId := Bytes32

/-- `CurrencyIdentifier`: an `H256`; the CLI uses the shard identifier as the currency. -/
abbrev CurrencyIdentifier := Bytes32

end EncointerWorker
