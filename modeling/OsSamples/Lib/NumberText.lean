import Mathlib.Data.Nat.Digits.Lemmas

/-!
# Numbers as texts

What `printf` makes of a number with `%x`, and what `strtol` reads of a text when it is to find the
base itself.

## Key results

- `strtol0_printHex`: a number that is printed is read again
- `length_printHex_le`: the length of the text
-/

namespace NumberText

/-- The digits, with their values as indices. -/
def digitChars : List Char :=
  ['0', '1', '2', '3', '4', '5', '6', '7', '8', '9', 'a', 'b', 'c', 'd', 'e', 'f']

/-- A digit as `printf` prints it. -/
def digitChar (d : ℕ) : Char := digitChars.getD d '0'

/-- The value of a digit, of either case. -/
def digitValue (c : Char) : Option ℕ := digitChars.idxOf? c.toLower

/-- `printf` with `%x`. -/
def printHex (n : ℕ) : List Char :=
  if n = 0 then ['0'] else (Nat.digits 16 n).reverse.map digitChar

/-- The number that the digits at the beginning of a text denote, after `n`. -/
def readDigits (base : ℕ) : List Char → ℕ → ℕ
  | [], n => n
  | c :: cs, n =>
    match digitValue c with
    | some d => if d < base then readDigits base cs (n * base + d) else n
    | none => n

/-- `strtol` with base 0, without blanks and signs. -/
def strtol0 : List Char → ℕ
  | '0' :: 'x' :: cs => readDigits 16 cs 0
  | '0' :: 'X' :: cs => readDigits 16 cs 0
  | '0' :: cs => readDigits 8 cs 0
  | cs => readDigits 10 cs 0

theorem digitValue_digitChar {d : ℕ} (h : d < 16) : digitValue (digitChar d) = some d := by
  revert d
  decide

/-- Digits that have been printed. -/
theorem readDigits_map (ds : List ℕ) (n : ℕ) (h : ∀ d ∈ ds, d < 16) :
    readDigits 16 (ds.map digitChar) n = ds.foldl (fun n d => n * 16 + d) n := by
  induction ds generalizing n with
  | nil => rfl
  | cons d ds ih =>
    have hd : d < 16 := h d List.mem_cons_self
    rw [List.map_cons, readDigits, digitValue_digitChar hd]
    simp only [hd, if_true, List.foldl_cons]
    exact ih _ fun x hx => h x (List.mem_cons_of_mem d hx)

/-- The digits from the first one on denote the number. -/
theorem foldl_digits (n : ℕ) :
    (Nat.digits 16 n).reverse.foldl (fun n d => n * 16 + d) 0 = n := by
  conv_rhs => rw [← Nat.ofDigits_digits 16 n]
  rw [List.foldl_reverse, Nat.ofDigits_eq_foldr]
  congr 1
  funext d n
  simp only [Nat.cast_id]
  omega

/-- A number that is printed is read again. -/
theorem strtol0_printHex (n : ℕ) : strtol0 ('0' :: 'x' :: printHex n) = n := by
  unfold printHex
  split
  · subst n
    rfl
  · show readDigits 16 _ 0 = n
    rw [readDigits_map _ 0 fun d hd => Nat.digits_lt_base (by decide) (List.mem_reverse.mp hd),
      foldl_digits]

/-- The text of a number with `k` digits at most. -/
theorem length_printHex_le {n k : ℕ} (hk : 0 < k) (h : n < 16 ^ k) : (printHex n).length ≤ k := by
  unfold printHex
  split
  · exact hk
  · rw [List.length_map, List.length_reverse]
    exact (Nat.digits_length_le_iff (by decide) n).mpr h

end NumberText
