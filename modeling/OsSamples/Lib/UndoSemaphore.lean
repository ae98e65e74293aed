import OsSamples.Lib.Kernel

/-!
# A System V semaphore as a lock between processes

A semaphore of value 1 whose operations all carry `SEM_UNDO`: the process that has taken it has
the adjustment 1, and every other process has the adjustment 0.  `SysvSem.HeldBy s o` says this of
a set, and each call on the set moves `o` as it moves a lock's holder.

## Key results

- `Kernel.semop_take` / `Kernel.semop_give`: such a `semop` never fails, and takes only the free
  semaphore
- `HeldBy.undoSem`: the end of the holding process frees the semaphore
-/

variable {P : Type*} [DecidableEq P] {s : SysvSem P} {o : Option P} {p : P}

/-- The semaphore is free, or the process in `o` has taken it. -/
structure SysvSem.HeldBy (s : SysvSem P) (o : Option P) : Prop where
  val : s.val = if o = none then 1 else 0
  semadj : ∀ q, s.semadj q = if o = some q then 1 else 0

namespace SysvSem

/-- After `SETVAL` to 1 the semaphore is free, whoever had taken it. -/
theorem HeldBy.setval (s : SysvSem P) :
    HeldBy { s with val := 1, semadj := fun _ => 0 } (none : Option P) :=
  ⟨rfl, fun _ => rfl⟩

/-- The end of a process gives back what it has taken. -/
theorem HeldBy.undoSem (h : s.HeldBy o) (p : P) :
    (Kernel.undoSem p s).HeldBy (if o = some p then none else o) := by
  have hval := h.val
  have hadj := h.semadj p
  by_cases ho : o = some p
  · -- the adjustment of the holder is 1
    subst ho
    simp only [reduceCtorEq, if_false, if_true] at hval hadj ⊢
    refine ⟨?_, fun q => ?_⟩
    · simp only [Kernel.undoSem, hval, hadj]
      rfl
    · by_cases hq : q = p
      · subst hq
        simp [Kernel.undoSem]
      · have hsem := h.semadj q
        simp only [Option.some.injEq, Ne.symm hq, if_false] at hsem
        simp [Kernel.undoSem, hq, hsem]
  · -- the adjustment of any other process is 0
    simp only [ho, if_false] at hadj ⊢
    refine ⟨?_, fun q => ?_⟩
    · simp only [Kernel.undoSem, hadj, hval]
      split <;> rfl
    · by_cases hq : q = p
      · subst hq
        simp [Kernel.undoSem, ho]
      · simpa [Kernel.undoSem, hq] using h.semadj q

end SysvSem

namespace Kernel

open SysvSem

variable {k k' : Kernel P} {id : ℕ} {ok : Bool}

/-- `semop` with -1: it succeeds, or blocks unless the semaphore is free. -/
theorem semop_take (hs : k.semSets id = some s) (h : s.HeldBy o)
    (hop : k.semop p (-1) id = some (ok, k')) :
    ok = true ∧ o = none ∧ ∃ s', k' = k.setSemSet id (some s') ∧ s'.HeldBy (some p) := by
  have hval := h.val
  have hadj := h.semadj p
  rcases semop_cases hop with ⟨-, -, hrange⟩ | ⟨s', hs', rfl, hnonneg, rfl⟩
  · -- value and adjustment stay in their ranges
    have hout := hrange s hs
    simp only [hval, hadj, SEMVMX] at hout
    split at hout <;> split at hout <;> omega
  · obtain rfl : s = s' := by simpa [hs] using hs'
    obtain rfl : o = none := by
      by_contra ho
      rw [if_neg ho] at hval
      omega
    simp only [if_true, reduceCtorEq, if_false] at hval hadj
    refine ⟨rfl, rfl, _, rfl, by simp [hval], fun q => ?_⟩
    by_cases hq : q = p
    · subst hq
      simp [hadj]
    · simpa [hq, Ne.symm hq] using h.semadj q

/-- `semop` with +1 by the process that has taken the semaphore: it succeeds. -/
theorem semop_give (hs : k.semSets id = some s) (h : s.HeldBy (some p))
    (hop : k.semop p 1 id = some (ok, k')) :
    ok = true ∧ ∃ s', k' = k.setSemSet id (some s') ∧ s'.HeldBy none := by
  have hval := h.val
  have hadj := h.semadj p
  simp only [reduceCtorEq, if_false, if_true] at hval hadj
  rcases semop_cases hop with ⟨-, -, hrange⟩ | ⟨s', hs', rfl, -, rfl⟩
  · -- value and adjustment stay in their ranges
    have hout := hrange s hs
    simp only [hval, hadj, SEMVMX] at hout
    omega
  · obtain rfl : s = s' := by simpa [hs] using hs'
    refine ⟨rfl, _, rfl, by simp [hval], fun q => ?_⟩
    by_cases hq : q = p
    · subst hq
      simp [hadj]
    · simpa [hq, Ne.symm hq] using h.semadj q

end Kernel
