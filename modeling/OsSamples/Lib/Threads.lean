import Mathlib.Algebra.BigOperators.Fin
import Mathlib.Algebra.Order.BigOperators.Group.Finset
import Mathlib.Tactic.Abel
import OsSamples.Lib.Machine

/-!
# Threads over a shared state

The interleaving of threads that share a state: a thread's program is a step function on the
shared state and on the thread's own state, and the machine of all threads lets any thread take
its next step at any time.

`total f loc` sums a measure of the threads' own states.  With an indicator for `f` it counts the
threads that are in a region of their program, which is what invariants about tokens talk about.
`Exclusive` relates the owner of a lock to the region of the programs that the lock protects.
-/

/-- The state of threads `T` that share a state `S` and have a state `L` each. -/
structure Config (T S L : Type*) where
  shared : S
  loc : T → L

namespace Threads

variable {T C S L ε : Type*} [DecidableEq T]

/-- Any thread takes its next step; `C` is what the environment chooses for the step. -/
def machine (step : T → C → S → L → Option (Option ε × S × L)) :
    Machine (Config T S L) (T × C) ε where
  step := fun cfg a => (step a.1 a.2 cfg.shared (cfg.loc a.1)).map fun r =>
    (r.1, ⟨r.2.1, Function.update cfg.loc a.1 r.2.2⟩)

/-- Thread `i` running alone. -/
def solo (step : T → C → S → L → Option (Option ε × S × L)) (i : T) :
    Machine (S × L) C ε where
  step := fun s c => step i c s.1 s.2

variable {step : T → C → S → L → Option (Option ε × S × L)}

/-- A step of the machine is a step of one thread, and changes only that thread's own state. -/
theorem machine_step_eq_some {cfg cfg' : Config T S L} {a : T × C} {e : Option ε} :
    (machine step).step cfg a = some (e, cfg') ↔
      ∃ s' l', step a.1 a.2 cfg.shared (cfg.loc a.1) = some (e, s', l') ∧
        cfg' = ⟨s', Function.update cfg.loc a.1 l'⟩ := by
  simp only [machine, Option.map_eq_some_iff, Prod.exists, Prod.mk.injEq]
  constructor
  · rintro ⟨e', s', l', hs, rfl, rfl⟩
    exact ⟨s', l', hs, rfl⟩
  · rintro ⟨s', l', hs, rfl⟩
    exact ⟨e, s', l', hs, rfl, rfl⟩

/-- An invariant of the interleaving: every step of every thread preserves it. -/
theorem reachable_invariant {I : S → (T → L) → Prop}
    (hstep : ∀ i c s loc e s' l', I s loc → step i c s (loc i) = some (e, s', l') →
      I s' (Function.update loc i l'))
    {cfg cfg' : Config T S L} (h : (machine step).Reachable cfg cfg')
    (h₀ : I cfg.shared cfg.loc) : I cfg'.shared cfg'.loc := by
  refine h.invariant (I := fun cfg => I cfg.shared cfg.loc) ?_ h₀
  intro cfg a e cfg' hI hs
  obtain ⟨s', l', hs', rfl⟩ := machine_step_eq_some.mp hs
  exact hstep _ _ _ _ _ _ _ hI hs'

/-- What a thread does alone it can do among the others. -/
theorem run_of_solo {i : T} {s s' : S} {l l' : L} {tr : List ε}
    (h : (solo step i).Run (s, l) tr (s', l')) {loc : T → L} (hl : loc i = l) :
    (machine step).Run ⟨s, loc⟩ tr ⟨s', Function.update loc i l'⟩ := by
  suffices key : ∀ q : S × L, (solo step i).Run (s, l) tr q →
      (machine step).Run ⟨s, loc⟩ tr ⟨q.1, Function.update loc i q.2⟩ from key _ h
  clear h
  intro q hq
  induction hq with
  | nil => subst hl; simpa using Machine.Run.nil
  | @snoc tr q₁ q₂ c e _ hs ih =>
    refine ih.snoc (a := (i, c)) ?_
    refine machine_step_eq_some.mpr ⟨q₂.1, q₂.2, ?_, by simp⟩
    simpa [solo] using hs

/-! ## Counting threads -/

section Total

variable {T L : Type*} [Fintype T] {f : L → ℕ} {loc : T → L}

/-- The sum of a measure over the threads' own states. -/
def total (f : L → ℕ) (loc : T → L) : ℕ := ∑ i, f (loc i)

/-- A step of one thread changes a sum by that thread's share. -/
theorem sum_update [DecidableEq T] {M : Type*} [AddCommMonoid M] (F : T → L → M) (loc : T → L)
    (i : T) (l : L) :
    (∑ j, F j (Function.update loc i l j)) + F i (loc i) = (∑ j, F j (loc j)) + F i l := by
  have hother : ∀ j ∈ Finset.univ.erase i, F j (Function.update loc i l j) = F j (loc j) := by
    intro j hj
    rw [Function.update_of_ne (Finset.ne_of_mem_erase hj)]
  rw [← Finset.add_sum_erase _ _ (Finset.mem_univ i), Finset.sum_congr rfl hother,
    Function.update_self, ← Finset.add_sum_erase _ (fun j => F j (loc j)) (Finset.mem_univ i)]
  abel

theorem total_update [DecidableEq T] (f : L → ℕ) (loc : T → L) (i : T) (l : L) :
    total f (Function.update loc i l) + f (loc i) = total f loc + f l :=
  sum_update (fun _ => f) loc i l

/-- One thread's share is at most the sum. -/
theorem le_total (f : L → ℕ) (loc : T → L) (i : T) : f (loc i) ≤ total f loc :=
  Finset.single_le_sum (f := fun j => f (loc j)) (fun _ _ => Nat.zero_le _) (Finset.mem_univ i)

/-- The sum is zero exactly when every thread's share is. -/
theorem total_eq_zero : total f loc = 0 ↔ ∀ i, f (loc i) = 0 := by
  simp [total, Finset.sum_eq_zero_iff]

/-- Threads that all have the same share. -/
theorem total_const {k : ℕ} (h : ∀ i, f (loc i) = k) : total f loc = Fintype.card T * k := by
  simp [total, h]

/-- One thread with a share of one, and no other thread with any. -/
theorem total_eq_one (i : T) (hi : f (loc i) = 1) (hother : ∀ j, j ≠ i → f (loc j) = 0) :
    total f loc = 1 := by
  rw [total, Finset.sum_eq_single i (fun j _ hj => hother j hj) (by simp), hi]

end Total

/-! ## Mutual exclusion -/

section Exclusive

variable {T L : Type*} {inside : L → Bool} {owner : Option T} {loc : T → L} {i j : T} {l' : L}

/-- The owner of a lock is the one thread that is inside of the section that the lock protects. -/
def Exclusive (inside : L → Bool) (owner : Option T) (loc : T → L) : Prop :=
  ∀ i, owner = some i ↔ inside (loc i) = true

theorem Exclusive.eq (h : Exclusive inside owner loc) (hi : inside (loc i) = true)
    (hj : inside (loc j) = true) : i = j :=
  Option.some.inj (((h i).mpr hi).symm.trans ((h j).mpr hj))

/-- Besides a thread that is inside, or while the lock is free, no thread is inside. -/
theorem Exclusive.outside (h : Exclusive inside owner loc)
    (hj : owner = none ∨ ∃ i ≠ j, inside (loc i) = true) : inside (loc j) = false := by
  apply Bool.eq_false_of_not_eq_true
  intro hin
  cases hj with
  | inl hnone => exact nomatch hnone.symm.trans ((h j).mpr hin)
  | inr hex =>
    obtain ⟨i, hne, hi⟩ := hex
    exact hne (h.eq hi hin)

variable [DecidableEq T]

/-- A thread takes the free lock. -/
theorem Exclusive.enter (h : Exclusive inside none loc) (hl : inside l' = true) :
    Exclusive inside (some i) (Function.update loc i l') := by
  intro j
  by_cases hj : j = i
  · subst hj
    simp [hl]
  · have hout := h.outside (j := j) (.inl rfl)
    simp [hj, hout, Ne.symm hj]

/-- The owner releases the lock. -/
theorem Exclusive.exit (h : Exclusive inside (some i) loc) (hl : inside l' = false) :
    Exclusive inside none (Function.update loc i l') := by
  intro j
  by_cases hj : j = i
  · subst hj
    simp [hl]
  · have hout := h.outside (.inr ⟨i, Ne.symm hj, (h i).mp rfl⟩)
    simp [hj, hout]

/-- A step within the section, or outside of it. -/
theorem Exclusive.stay (h : Exclusive inside owner loc) (hl : inside l' = inside (loc i)) :
    Exclusive inside owner (Function.update loc i l') := by
  intro j
  by_cases hj : j = i
  · subst hj
    rw [Function.update_self, hl]
    exact h j
  · rw [Function.update_of_ne hj]
    exact h j

end Exclusive

end Threads
