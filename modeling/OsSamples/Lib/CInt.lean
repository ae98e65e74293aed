import Mathlib.Algebra.Group.Int.Defs
import Mathlib.Algebra.Group.Nat.Defs

/-!
# Integers of C and C#

Values are mathematical integers; what a conversion or an addition that wraps around makes of a
value is a function on them.  An operation on signed integers whose result does not fit is
undefined in C: its result is an `Option`.
-/

namespace CInt

/-- The largest value of `int`. -/
def INT_MAX : ℤ := 2147483647

/-- The smallest value of `int`. -/
def INT_MIN : ℤ := -2147483648

/-- The value of `int` that agrees with `n` modulo `2 ^ 32`. -/
def toInt32 (n : ℤ) : ℤ := Int.bmod n (2 ^ 32)

theorem toInt32_le (n : ℤ) : toInt32 n ≤ INT_MAX := by
  have h := Int.bmod_le (x := n) (m := 2 ^ 32) (by decide)
  unfold toInt32 INT_MAX
  omega

/-- A value of `int` stays as it is. -/
theorem toInt32_of_range {n : ℤ} (hmin : INT_MIN ≤ n) (hmax : n ≤ INT_MAX) : toInt32 n = n := by
  unfold INT_MIN at hmin
  unfold INT_MAX at hmax
  exact Int.bmod_eq_of_le (by omega) (by omega)

/-- `strtol` of a text that denotes `n`: the value has 64 bits and stops at their limits. -/
def strtol (n : ℤ) : ℤ := max (-2 ^ 63) (min n (2 ^ 63 - 1))

/-- `strtol` of a text that denotes a number near zero. -/
theorem strtol_of_range {n : ℤ} (hmin : INT_MIN ≤ n) (hmax : n ≤ INT_MAX) : strtol n = n := by
  unfold INT_MIN at hmin
  unfold INT_MAX at hmax
  unfold strtol
  omega

/-- `atoi` of a text that denotes `n`: the value of `strtol` as an `int`. -/
def atoi (n : ℤ) : ℤ := toInt32 (strtol n)

/-- `atoi` of a text that denotes an `int`. -/
theorem atoi_of_range {n : ℤ} (hmin : INT_MIN ≤ n) (hmax : n ≤ INT_MAX) : atoi n = n := by
  rw [atoi, strtol_of_range hmin hmax, toInt32_of_range hmin hmax]

/-- The value fits into `int`. -/
def FitsInt (n : ℤ) : Prop := INT_MIN ≤ n ∧ n ≤ INT_MAX

/-- The value of `unsigned int` that agrees with `n` modulo `2 ^ 32`. -/
def toUInt32 (n : ℤ) : ℤ := n % 2 ^ 32

/-- A value of `unsigned int` stays as it is, and no other does. -/
theorem toUInt32_eq_self {n : ℤ} : toUInt32 n = n ↔ 0 ≤ n ∧ n < 2 ^ 32 := by
  unfold toUInt32
  omega

/-- The value of `uint8_t` that agrees with `n` modulo `2 ^ 8`. -/
def toUInt8 (n : ℤ) : UInt8 := UInt8.ofInt n

theorem toNat_toUInt8 (n : ℤ) : ((toUInt8 n).toNat : ℤ) = n % 256 := by
  unfold toUInt8 UInt8.ofInt
  rw [UInt8.toNat_ofNat']
  omega

/-- A value of `uint8_t` stays as it is, and no other does. -/
theorem toNat_toUInt8_eq_self {n : ℤ} : ((toUInt8 n).toNat : ℤ) = n ↔ 0 ≤ n ∧ n < 256 := by
  rw [toNat_toUInt8]
  omega

/-- What the compiler makes of a shift of `int` whose value does not fit: nothing, or the bits that
    remain. -/
inductive Dialect
  | iso
  | gnu
  deriving DecidableEq

/-- `a << n` in `int`, which has 32 bits. -/
def shiftLeft (dialect : Dialect) (a : ℤ) (n : ℕ) : Option ℤ :=
  if n ≥ 32 then none
  else match dialect with
    | .iso => if 0 ≤ a ∧ a * 2 ^ n ≤ INT_MAX then some (a * 2 ^ n) else none
    | .gnu => some (toInt32 (a * 2 ^ n))

/-- A bound below `2 ^ 32` that has become an `unsigned int`. -/
theorem toUInt32_natCast {m : ℕ} (h : m < 2 ^ 32) : toUInt32 (m : ℤ) = m := by
  rw [toUInt32_eq_self]
  omega

/-- The value fits into `long long`. -/
def FitsLLong (n : ℤ) : Prop := -2 ^ 63 ≤ n ∧ n < 2 ^ 63

instance (n : ℤ) : Decidable (FitsLLong n) := by unfold FitsLLong; infer_instance

/-- The result of an operation on `long long`. -/
def llong (n : ℤ) : Option ℤ := if FitsLLong n then some n else none

theorem llong_eq_some {n m : ℤ} : llong n = some m ↔ FitsLLong n ∧ n = m := by
  simp only [llong, Option.ite_none_right_eq_some, Option.some.injEq]

end CInt
