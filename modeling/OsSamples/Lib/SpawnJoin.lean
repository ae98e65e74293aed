import Mathlib.Data.Fin.Basic
import Mathlib.Logic.Function.Basic

/-!
# Creating threads and waiting for them

A thread creates other threads one after another, and then waits for each of them.  `Stage.Inv` is
what it knows of them meanwhile: those that it has created, and those that have ended.

## Key results

- `Inv.goto`: a thread that goes on changes nothing of it
- `Inv.create`, `Inv.created`, `Inv.join`, `Inv.joined`: the steps of the creating thread
- `Stage.rest`: the number of steps that the creating thread has still to take, at most
-/

namespace SpawnJoin

/-- Before the thread `t` is created or waited for, after all have been waited for, or elsewhere. -/
inductive Stage
  | create (t : ℕ)
  | join (t : ℕ)
  | joined
  | elsewhere

variable {n k : ℕ} {L : Type*} {fresh : L} {ended : L → Prop} {thread : Fin n → L} {t : Fin n}
  {l : L} {stage : Stage}

/-- What is known of the threads, where `fresh` is a thread that has not been created yet. -/
def Stage.Inv (fresh : L) (ended : L → Prop) (stage : Stage) (thread : Fin n → L) : Prop :=
  match stage with
  | .create t => (∀ i : Fin n, i.val < t → thread i ≠ fresh) ∧
      ∀ i : Fin n, t ≤ i.val → thread i = fresh
  | .join t => (∀ i, thread i ≠ fresh) ∧ ∀ i : Fin n, i.val < t → ended (thread i)
  | .joined => (∀ i, thread i ≠ fresh) ∧ ∀ i, ended (thread i)
  | .elsewhere => True

namespace Stage

theorem inv_init (h : ∀ i, thread i = fresh) : (Stage.create 0).Inv fresh ended thread :=
  ⟨fun _ hi => absurd hi (Nat.not_lt_zero _), fun i _ => h i⟩

/-- A thread that has been created goes on. -/
theorem Inv.goto (h : stage.Inv fresh ended thread) (hfresh : thread t ≠ fresh)
    (hended : ended (thread t) → ended l) (hl : l ≠ fresh) :
    stage.Inv fresh ended (Function.update thread t l) := by
  have hcreated : ∀ i, thread i ≠ fresh → Function.update thread t l i ≠ fresh := by
    intro i hi
    by_cases hit : i = t
    · rwa [hit, Function.update_self]
    · rwa [Function.update_of_ne hit]
  have hended' : ∀ i, ended (thread i) → ended (Function.update thread t l i) := by
    intro i hi
    by_cases hit : i = t
    · subst hit
      rw [Function.update_self]
      exact hended hi
    · rwa [Function.update_of_ne hit]
  cases stage with
  | create k =>
    refine ⟨fun i hi => hcreated i (h.1 i hi), fun i hi => ?_⟩
    have hit : i ≠ t := by
      rintro rfl
      exact hfresh (h.2 i hi)
    rw [Function.update_of_ne hit]
    exact h.2 i hi
  | join k => exact ⟨fun i => hcreated i (h.1 i), fun i hi => hended' i (h.2 i hi)⟩
  | joined => exact ⟨fun i => hcreated i (h.1 i), fun i => hended' i (h.2 i)⟩
  | elsewhere => trivial

/-- One more thread is created. -/
theorem Inv.create (h : (Stage.create k).Inv fresh ended thread) (hk : k < n) (hl : l ≠ fresh) :
    (Stage.create (k + 1)).Inv fresh ended (Function.update thread ⟨k, hk⟩ l) := by
  constructor
  · intro i hi
    by_cases hik : i = ⟨k, hk⟩
    · rwa [hik, Function.update_self]
    · rw [Function.update_of_ne hik]
      exact h.1 i (lt_of_le_of_ne (Nat.le_of_lt_succ hi) fun heq => hik (Fin.ext heq))
  · intro i hi
    have hik : i ≠ ⟨k, hk⟩ := by
      rintro rfl
      exact Nat.not_succ_le_self k hi
    rw [Function.update_of_ne hik]
    exact h.2 i (Nat.le_of_succ_le hi)

/-- All threads have been created. -/
theorem Inv.created (h : (Stage.create k).Inv fresh ended thread) (hk : ¬ k < n) :
    (Stage.join 0).Inv fresh ended thread :=
  ⟨fun i => h.1 i (i.isLt.trans_le (not_lt.mp hk)), fun _ hi => absurd hi (Nat.not_lt_zero _)⟩

/-- One more thread has been waited for. -/
theorem Inv.join (h : (Stage.join k).Inv fresh ended thread) (hk : k < n)
    (hended : ended (thread ⟨k, hk⟩)) : (Stage.join (k + 1)).Inv fresh ended thread := by
  refine ⟨h.1, fun i hi => ?_⟩
  by_cases hik : i = ⟨k, hk⟩
  · rwa [hik]
  · exact h.2 i (lt_of_le_of_ne (Nat.le_of_lt_succ hi) fun heq => hik (Fin.ext heq))

/-- All threads have been waited for. -/
theorem Inv.joined (h : (Stage.join k).Inv fresh ended thread) (hk : ¬ k < n) :
    Stage.joined.Inv fresh ended thread :=
  ⟨h.1, fun i => h.2 i (i.isLt.trans_le (not_lt.mp hk))⟩

/-- The number of steps that the creating thread has still to take, at most. -/
def rest (n : ℕ) : Stage → ℕ
  | .create t => (n - t) + n + 3
  | .join t => (n - t) + 2
  | .joined => 1
  | .elsewhere => 0

theorem rest_create (hk : k < n) : (Stage.create (k + 1)).rest n < (Stage.create k).rest n := by
  simp only [rest]
  omega

theorem rest_created : (Stage.join 0).rest n < (Stage.create k).rest n := by
  simp only [rest]
  omega

theorem rest_join (hk : k < n) : (Stage.join (k + 1)).rest n < (Stage.join k).rest n := by
  simp only [rest]
  omega

theorem rest_joined : Stage.joined.rest n < (Stage.join k).rest n := by
  simp only [rest]
  omega

theorem rest_elsewhere (h : stage ≠ .elsewhere) : Stage.elsewhere.rest n < stage.rest n := by
  cases stage with
  | elsewhere => exact absurd rfl h
  | _ => simp [rest]

end Stage

end SpawnJoin
