import Mathlib.Data.Finset.Basic
import Mathlib.Data.List.Basic

/-!
# Pipes

A pipe with the processes that have its two ends open.  A read takes some of the data, as much as
there is or less; without data it blocks while a process has the write end open, and returns nothing
when none has.  A write breaks the pipe when no process has the read end open.

## Key results

- `read_cases`: what a read takes, and when it takes nothing
- `exists_read`: when a read does not block
-/

/-- What has been written and not read, and the processes that have an end open. -/
structure Pipe (P α : Type*) where
  data : List α
  readers : Finset P
  writers : Finset P

namespace Pipe

variable {P α : Type*} [DecidableEq P] {k : Pipe P α} {p q : P} {size count : ℕ}
  {r : List α × Pipe P α}

/-- `pipe` in process `p`. -/
def make (p : P) : Pipe P α := ⟨[], {p}, {p}⟩

/-- The process `p` forks the process `q`, which has the same ends open. -/
def fork (p q : P) (k : Pipe P α) : Pipe P α where
  data := k.data
  readers := if p ∈ k.readers then insert q k.readers else k.readers
  writers := if p ∈ k.writers then insert q k.writers else k.writers

/-- `close` of the read end. -/
def closeRead (p : P) (k : Pipe P α) : Pipe P α := { k with readers := k.readers.erase p }

/-- `close` of the write end. -/
def closeWrite (p : P) (k : Pipe P α) : Pipe P α := { k with writers := k.writers.erase p }

/-- `write`; `none` where the pipe is broken. -/
def write (bytes : List α) (k : Pipe P α) : Option (Pipe P α) :=
  if k.readers = ∅ then none else some { k with data := k.data ++ bytes }

/-- `read` of `size` bytes or less, of which it takes `count`; `none` where it blocks, or cannot
    take so many. -/
def read (size count : ℕ) (k : Pipe P α) : Option (List α × Pipe P α) :=
  if k.data.isEmpty then if k.writers = ∅ then some ([], k) else none
  else if 0 < count ∧ count ≤ size ∧ count ≤ k.data.length then
    some (k.data.take count, { k with data := k.data.drop count })
  else none

/-! ## What the operations do -/

theorem write_cases {bytes : List α} {k' : Pipe P α} (h : k.write bytes = some k') :
    k.readers ≠ ∅ ∧ k' = { k with data := k.data ++ bytes } := by
  simp only [write, Option.ite_none_left_eq_some, Option.some.injEq] at h
  exact ⟨h.1, h.2.symm⟩

/-- A read takes the first of the data, or it takes nothing since there is no data and there will be
    none. -/
theorem read_cases (h : k.read size count = some r) :
    (r = ([], k) ∧ k.data = [] ∧ k.writers = ∅) ∨
      (r.1 ≠ [] ∧ r.1.length ≤ size ∧ r.1 ++ r.2.data = k.data ∧
        r.2 = { k with data := r.2.data }) := by
  simp only [read] at h
  split at h
  · rename_i hdata
    rw [Option.ite_none_right_eq_some, Option.some.injEq] at h
    exact .inl ⟨h.2.symm, List.isEmpty_iff.mp hdata, h.1⟩
  · rw [Option.ite_none_right_eq_some, Option.some.injEq] at h
    obtain ⟨⟨hpos, hsize, hlength⟩, rfl⟩ := h
    refine .inr ⟨?_, ?_, List.take_append_drop _ _, rfl⟩
    · rw [← List.length_pos_iff, List.length_take]
      omega
    · rw [List.length_take]
      omega

/-- A read does not block while there is data, or when no process has the write end open. -/
theorem exists_read (hsize : 0 < size) (h : k.data ≠ [] ∨ k.writers = ∅) :
    ∃ r, k.read size 1 = some r := by
  simp only [read]
  split
  · rename_i hdata
    have hwriters := h.resolve_left (fun hne => hne (List.isEmpty_iff.mp hdata))
    rw [if_pos hwriters]
    exact ⟨_, rfl⟩
  · rename_i hdata
    have hpos : 0 < k.data.length :=
      List.length_pos_iff.mpr fun hempty => hdata (List.isEmpty_iff.mpr hempty)
    rw [if_pos ⟨Nat.one_pos, hsize, hpos⟩]
    exact ⟨_, rfl⟩

end Pipe
