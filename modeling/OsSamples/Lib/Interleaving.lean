import Mathlib.Data.List.Basic

/-!
# Interleavings of two lists

What two parties that take turns in any order bring about, where each one keeps its own order.

## Key results

- `Interleaved.append`: one interleaving after another
- `Interleaved.append_fst`, `Interleaved.append_snd`: one of the parties goes on alone
-/

/-- The list `m` consists of `k` and `l`, each in its own order. -/
inductive Interleaved {α : Type*} : List α → List α → List α → Prop
  | nil : Interleaved [] [] []
  | fst {a : α} {k l m : List α} (h : Interleaved k l m) : Interleaved (a :: k) l (a :: m)
  | snd {a : α} {k l m : List α} (h : Interleaved k l m) : Interleaved k (a :: l) (a :: m)

namespace Interleaved

variable {α : Type*} {k k' l l' m m' : List α}

theorem only_fst (k : List α) : Interleaved k [] k := by
  induction k with
  | nil => exact .nil
  | cons a k ih => exact ih.fst

theorem only_snd (l : List α) : Interleaved [] l l := by
  induction l with
  | nil => exact .nil
  | cons a l ih => exact ih.snd

theorem append (h : Interleaved k l m) (h' : Interleaved k' l' m') :
    Interleaved (k ++ k') (l ++ l') (m ++ m') := by
  induction h with
  | nil => exact h'
  | fst _ ih => exact ih.fst
  | snd _ ih => exact ih.snd

theorem append_fst (h : Interleaved k l m) (k' : List α) : Interleaved (k ++ k') l (m ++ k') := by
  simpa using h.append (only_fst k')

theorem append_snd (h : Interleaved k l m) (l' : List α) : Interleaved k (l ++ l') (m ++ l') := by
  simpa using h.append (only_snd l')

end Interleaved
