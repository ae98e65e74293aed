import Mathlib.Data.List.Basic
import Mathlib.Data.List.Range
import Mathlib.Tactic.Ring

/-!
# Lists in rows

What a flat loop over `k * q` numbers produces, seen as `k` rows of `q`.

## Key results

- `row_div`, `pred_div_row`, `succ_div_row`: which row a number is in
- `flatMap_range_mul`: a flat list as a list of rows
- `flatMap_range_delimited`: a row in which the first element brings a head and the last one a tail
-/

namespace Nat

variable {q r i n : ℕ}

/-- The number `i` of row `r` is in row `r`. -/
theorem row_div (hi : i < q) : (r * q + i) / q = r := by
  rw [Nat.mul_comm, Nat.mul_add_div (by omega), Nat.div_eq_of_lt hi, Nat.add_zero]

theorem row_mod (hi : i < q) : (r * q + i) % q = i := by
  rw [Nat.mul_add_mod_self_right, Nat.mod_eq_of_lt hi]

/-- The next number is in the same row, unless this one is the last one. -/
theorem succ_div_row (h : n % q + 1 < q) : (n + 1) / q = n / q := by
  have hrow := row_div (r := n / q) h
  rwa [← Nat.add_assoc, Nat.div_add_mod'] at hrow

/-- The number before is in the same row, unless this one is the first one. -/
theorem pred_div_row (hq : 0 < q) (h : n % q ≠ 0) : (n - 1) / q = n / q := by
  have hmod := Nat.mod_lt n hq
  have hdiv := Nat.div_add_mod' n q
  have hrow := row_div (r := n / q) (show n % q - 1 < q by omega)
  rwa [show n / q * q + (n % q - 1) = n - 1 by omega] at hrow

end Nat

namespace List

variable {α : Type*}

/-- A flat list of `k * q` pieces is `k` rows of `q` pieces. -/
theorem flatMap_range_mul (f : ℕ → List α) (k q : ℕ) :
    (range (k * q)).flatMap f =
      (range k).flatMap fun r => (range q).flatMap fun i => f (r * q + i) := by
  induction k with
  | zero => simp
  | succ k ih =>
    rw [Nat.succ_mul, range_add, flatMap_append, ih, range_succ, flatMap_append,
      flatMap_singleton, flatMap_map]

/-- A head before the first piece of a row and a tail after the last one. -/
theorem flatMap_range_delimited (a b : List α) (f : ℕ → List α) {q : ℕ} (hq : 0 < q) :
    ((range q).flatMap fun i => (if i = 0 then a else []) ++ f i ++ if i = q - 1 then b else []) =
      a ++ (range q).flatMap f ++ b := by
  -- the tail comes with the last number, so the induction is on the length of a proper prefix
  have hprefix : ∀ m, m < q →
      ((range m).flatMap fun i =>
        (if i = 0 then a else []) ++ f i ++ if i = q - 1 then b else []) =
      (if m = 0 then [] else a) ++ (range m).flatMap f := by
    intro m hm
    induction m with
    | zero => simp
    | succ m ih =>
      rw [range_succ, flatMap_append, flatMap_append, flatMap_singleton, flatMap_singleton,
        ih (by omega), if_neg (show m ≠ q - 1 by omega)]
      cases m <;> simp
  obtain ⟨m, rfl⟩ : ∃ m, q = m + 1 := ⟨q - 1, by omega⟩
  rw [range_succ, flatMap_append, flatMap_append, flatMap_singleton, flatMap_singleton,
    hprefix m (by omega), if_pos (show m = m + 1 - 1 by omega)]
  cases m <;> simp

end List
