import OsSamples.Lib.Machine

/-!
# The abstract binary lock

What a critical-section library is for: a lock that is free or held by one thread, which a thread
acquires only while the lock is free and which only its holder releases.  The state is the holder,
if any.

A machine refines the lock when each of its steps either stutters or is the lock step it emits,
and it allows all that the lock allows when each lock step can be replayed by some of its runs.
-/

/-- The visible events of a lock used by threads `T`. -/
inductive LockEvent (T : Type*)
  | acquire (i : T)
  | release (i : T)
  deriving DecidableEq

namespace BinaryLock

variable {T : Type*} [DecidableEq T]

/-- The lock: `none` is free, `some i` is held by `i`. -/
def machine (T : Type*) [DecidableEq T] : Machine (Option T) (LockEvent T) (LockEvent T) where
  step := fun o a =>
    match a with
    | .acquire i => if o = none then some (some a, some i) else none
    | .release i => if o = some i then some (some a, none) else none

@[simp] theorem step_acquire (o : Option T) (i : T) :
    (machine T).step o (.acquire i) =
      if o = none then some (some (.acquire i), some i) else none := rfl

@[simp] theorem step_release (o : Option T) (i : T) :
    (machine T).step o (.release i) =
      if o = some i then some (some (.release i), none) else none := rfl

/-- The free lock can be acquired by any thread. -/
theorem run_acquire (i : T) : (machine T).Run none [.acquire i] (some i) := by
  have hs : (machine T).step none (.acquire i) = some (some (.acquire i), some i) := by simp
  exact Machine.Run.single hs

/-- The holder can release the lock. -/
theorem run_release (i : T) : (machine T).Run (some i) [.release i] none := by
  have hs : (machine T).step (some i) (.release i) = some (some (.release i), none) := by simp
  exact Machine.Run.single hs

/-- What one lock step can do. -/
theorem step_cases {o o' : Option T} {a : LockEvent T} {e : Option (LockEvent T)}
    (h : (machine T).step o a = some (e, o')) :
    (∃ i, e = some (.acquire i) ∧ o = none ∧ o' = some i) ∨
      (∃ i, e = some (.release i) ∧ o = some i ∧ o' = none) := by
  cases a with
  | acquire i =>
    simp only [step_acquire, Option.ite_none_right_eq_some, Option.some.injEq, Prod.mk.injEq] at h
    obtain ⟨ho, rfl, rfl⟩ := h
    exact .inl ⟨i, rfl, ho, rfl⟩
  | release i =>
    simp only [step_release, Option.ite_none_right_eq_some, Option.some.injEq, Prod.mk.injEq] at h
    obtain ⟨ho, rfl, rfl⟩ := h
    exact .inr ⟨i, rfl, ho, rfl⟩

variable {σ α : Type*} {M : Machine σ α (LockEvent T)} {R : σ → Option T → Prop}

/-- A machine whose steps stutter or are lock steps emits only event sequences of the lock. -/
theorem traces_subset
    (hsim : ∀ s o a e s', R s o → M.step s a = some (e, s') →
      (e = none ∧ R s' o) ∨
      (∃ i, e = some (.acquire i) ∧ o = none ∧ R s' (some i)) ∨
      (∃ i, e = some (.release i) ∧ o = some i ∧ R s' none))
    {s : σ} (h₀ : R s none) : M.traces s ⊆ (machine T).traces none := by
  refine Machine.traces_subset ?_ h₀
  intro s o a e s' hR hs
  rcases hsim s o a e s' hR hs with ⟨rfl, hR'⟩ | ⟨i, rfl, rfl, hR'⟩ | ⟨i, rfl, rfl, hR'⟩
  · exact ⟨o, .nil, hR'⟩
  · exact ⟨some i, run_acquire i, hR'⟩
  · exact ⟨none, run_release i, hR'⟩

/-- A machine that can replay every acquisition and every release emits every event sequence of
    the lock. -/
theorem subset_traces
    (hacq : ∀ s i, R s none → ∃ s', M.Run s [.acquire i] s' ∧ R s' (some i))
    (hrel : ∀ s i, R s (some i) → ∃ s', M.Run s [.release i] s' ∧ R s' none)
    {s : σ} (h₀ : R s none) : (machine T).traces none ⊆ M.traces s := by
  refine Machine.traces_subset (R := fun o s => R s o) ?_ h₀
  intro o s a e o' hR hs
  rcases step_cases hs with ⟨i, rfl, rfl, rfl⟩ | ⟨i, rfl, rfl, rfl⟩
  · exact hacq s i hR
  · exact hrel s i hR

end BinaryLock
