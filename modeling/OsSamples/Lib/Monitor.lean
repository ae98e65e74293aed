import Mathlib.Data.List.Nodup
import Mathlib.Data.List.Perm.Basic
import Mathlib.Tactic.Tauto

/-!
# Monitors with a waiting queue and a ready queue

The monitor of an object in the common language runtime: one thread at most owns the lock, the
threads in `Wait` are in the waiting queue, and `Pulse` moves the first of them to the ready queue.
A thread of the ready queue goes on when it has got the lock again.

An operation that a thread may only perform as the owner is `none` when another thread tries it
(`SynchronizationLockException`); acquiring the lock is `none` while it blocks.

## Key results

- `Wf.enter`, …: no operation puts a thread in two places
- `queued_pulse`, `not_mem_waiting_pulse`, …: who is in which queue after an operation
-/

/-- The owner of the lock, the waiting queue and the ready queue, oldest first. -/
structure Monitor (T : Type*) where
  owner : Option T
  waiting : List T
  ready : List T

namespace Monitor

variable {T : Type*} [DecidableEq T] {m m' : Monitor T} {i j : T}

/-- A monitor that no thread uses. -/
def unused (T : Type*) : Monitor T := ⟨none, [], []⟩

/-- The beginning of `lock`; `none` while the lock is taken. -/
def enter (i : T) (m : Monitor T) : Option (Monitor T) :=
  if m.owner = none then some { m with owner := some i } else none

/-- The end of `lock`. -/
def exit (i : T) (m : Monitor T) : Option (Monitor T) :=
  if m.owner = some i then some { m with owner := none } else none

/-- The first part of `Monitor.Wait`: the lock is released. -/
def wait (i : T) (m : Monitor T) : Option (Monitor T) :=
  if m.owner = some i then some { m with owner := none, waiting := m.waiting ++ [i] } else none

/-- The last part of `Monitor.Wait`: the lock is taken again; `none` while that blocks. -/
def reacquire (i : T) (m : Monitor T) : Option (Monitor T) :=
  if m.owner = none ∧ i ∈ m.ready then some { m with owner := some i, ready := m.ready.erase i }
  else none

/-- `Monitor.Pulse`, which does nothing while no thread waits. -/
def pulse (i : T) (m : Monitor T) : Option (Monitor T) :=
  if m.owner = some i then
    some (match m.waiting with
      | [] => m
      | w :: ws => { m with waiting := ws, ready := m.ready ++ [w] })
  else none

/-- `Thread.Interrupt` of a thread in `Monitor.Wait`. -/
def interrupt (i : T) (m : Monitor T) : Monitor T :=
  if i ∈ m.waiting then { m with waiting := m.waiting.erase i, ready := m.ready ++ [i] } else m

/-- No thread is in two places. -/
structure Wf (m : Monitor T) : Prop where
  nodup : (m.waiting ++ m.ready).Nodup
  owner : ∀ i, m.owner = some i → i ∉ m.waiting ∧ i ∉ m.ready

omit [DecidableEq T] in
theorem wf_unused : Wf (unused T) := ⟨List.nodup_nil, nofun⟩

/-! ## What the operations do -/

omit [DecidableEq T] in
theorem enter_cases (h : m.enter i = some m') :
    m.owner = none ∧ m' = { m with owner := some i } := by
  simp only [enter, Option.ite_none_right_eq_some, Option.some.injEq] at h
  exact ⟨h.1, h.2.symm⟩

theorem exit_cases (h : m.exit i = some m') :
    m.owner = some i ∧ m' = { m with owner := none } := by
  simp only [exit, Option.ite_none_right_eq_some, Option.some.injEq] at h
  exact ⟨h.1, h.2.symm⟩

theorem wait_cases (h : m.wait i = some m') :
    m.owner = some i ∧ m' = { m with owner := none, waiting := m.waiting ++ [i] } := by
  simp only [wait, Option.ite_none_right_eq_some, Option.some.injEq] at h
  exact ⟨h.1, h.2.symm⟩

theorem reacquire_cases (h : m.reacquire i = some m') :
    m.owner = none ∧ i ∈ m.ready ∧ m' = { m with owner := some i, ready := m.ready.erase i } := by
  simp only [reacquire, Option.ite_none_right_eq_some, Option.some.injEq] at h
  exact ⟨h.1.1, h.1.2, h.2.symm⟩

theorem pulse_cases (h : m.pulse i = some m') :
    m.owner = some i ∧
      ((m.waiting = [] ∧ m' = m) ∨
        ∃ w ws, m.waiting = w :: ws ∧ m' = { m with waiting := ws, ready := m.ready ++ [w] }) := by
  simp only [pulse, Option.ite_none_right_eq_some, Option.some.injEq] at h
  refine ⟨h.1, ?_⟩
  split at h
  · rename_i hw
    exact .inl ⟨hw, h.2.symm⟩
  · rename_i w ws hw
    exact .inr ⟨w, ws, hw, h.2.symm⟩

/-! ## Well-formedness -/

omit [DecidableEq T] in
/-- A thread outside of the queues becomes the owner. -/
theorem Wf.setOwner (h : Wf m) (hw : i ∉ m.waiting) (hr : i ∉ m.ready) :
    Wf { m with owner := some i } := by
  refine ⟨h.nodup, fun j hj => ?_⟩
  obtain rfl : i = j := Option.some.inj hj
  exact ⟨hw, hr⟩

omit [DecidableEq T] in
/-- The lock is released. -/
theorem Wf.release (h : Wf m) : Wf { m with owner := none } := ⟨h.nodup, nofun⟩

/-- The owner waits. -/
theorem Wf.wait (h : Wf m) (hs : m.wait i = some m') : Wf m' := by
  obtain ⟨ho, rfl⟩ := wait_cases hs
  obtain ⟨hw, hr⟩ := h.owner i ho
  refine ⟨?_, nofun⟩
  have hperm : (m.waiting ++ [i] ++ m.ready).Perm (i :: (m.waiting ++ m.ready)) := by
    rw [List.append_assoc]
    exact List.perm_middle
  rw [hperm.nodup_iff, List.nodup_cons, List.mem_append, not_or]
  exact ⟨⟨hw, hr⟩, h.nodup⟩

/-- A thread of the ready queue becomes the owner. -/
theorem Wf.reacquire (h : Wf m) (hs : m.reacquire i = some m') : Wf m' := by
  obtain ⟨-, hi, rfl⟩ := reacquire_cases hs
  obtain ⟨hnw, hnr, hdisj⟩ := List.nodup_append.mp h.nodup
  refine ⟨List.nodup_append.mpr ⟨hnw, hnr.erase i, fun a ha b hb => ?_⟩, fun j hj => ?_⟩
  · exact hdisj a ha b (List.mem_of_mem_erase hb)
  · obtain rfl : i = j := Option.some.inj hj
    exact ⟨fun hw => hdisj i hw i hi rfl, hnr.not_mem_erase⟩

/-- The first waiting thread becomes ready. -/
theorem Wf.pulse (h : Wf m) (hs : m.pulse i = some m') : Wf m' := by
  obtain ⟨ho, ⟨-, rfl⟩ | ⟨w, ws, hw, rfl⟩⟩ := pulse_cases hs
  · exact h
  · have hperm : (ws ++ (m.ready ++ [w])).Perm (m.waiting ++ m.ready) := by
      rw [hw, ← List.append_assoc]
      exact List.perm_append_singleton w (ws ++ m.ready)
    refine ⟨hperm.nodup_iff.mpr h.nodup, fun j hj => ?_⟩
    obtain ⟨hjw, hjr⟩ := h.owner j hj
    rw [hw, List.mem_cons, not_or] at hjw
    exact ⟨hjw.2, by simp [hjr, hjw.1]⟩

/-- A waiting thread is interrupted. -/
theorem Wf.interrupt (h : Wf m) (i : T) : Wf (m.interrupt i) := by
  unfold Monitor.interrupt
  split
  · rename_i hi
    have hperm : (m.waiting.erase i ++ (m.ready ++ [i])).Perm (m.waiting ++ m.ready) := by
      rw [← List.append_assoc]
      refine (List.perm_append_singleton i _).trans ?_
      rw [← List.cons_append]
      exact (List.perm_cons_erase hi).symm.append_right m.ready
    refine ⟨hperm.nodup_iff.mpr h.nodup, fun j hj => ?_⟩
    obtain ⟨hjw, hjr⟩ := h.owner j hj
    refine ⟨fun hmem => hjw (List.mem_of_mem_erase hmem), ?_⟩
    rw [List.mem_append, List.mem_singleton, not_or]
    exact ⟨hjr, fun hji => hjw (hji ▸ hi)⟩
  · exact h

/-! ## Who is in the queues -/

@[simp] theorem interrupt_owner (m : Monitor T) (i : T) : (m.interrupt i).owner = m.owner := by
  unfold interrupt
  split <;> rfl

/-- An interrupted thread stays in the queues. -/
theorem queued_interrupt (m : Monitor T) (i j : T) :
    j ∈ (m.interrupt i).waiting ∨ j ∈ (m.interrupt i).ready ↔ j ∈ m.waiting ∨ j ∈ m.ready := by
  unfold interrupt
  split
  · rename_i hi
    by_cases hj : j = i
    · subst hj
      simp [hi]
    · simp [hj, List.mem_erase_of_ne hj]
  · rfl

/-- A thread that waits after an interrupt is another one, which waited before. -/
theorem mem_waiting_interrupt (h : Wf m) (hj : j ∈ (m.interrupt i).waiting) :
    j ∈ m.waiting ∧ j ≠ i := by
  unfold interrupt at hj
  split at hj
  · refine ⟨List.mem_of_mem_erase hj, ?_⟩
    rintro rfl
    exact (List.nodup_append.mp h.nodup).1.not_mem_erase hj
  · rename_i hi
    refine ⟨hj, ?_⟩
    rintro rfl
    exact hi hj

/-- A pulse leaves the owner and moves threads within the queues. -/
theorem pulse_owner (hs : m.pulse i = some m') : m'.owner = m.owner := by
  obtain ⟨-, ⟨-, rfl⟩ | ⟨w, ws, -, rfl⟩⟩ := pulse_cases hs <;> rfl

theorem queued_pulse (hs : m.pulse i = some m') (j : T) :
    j ∈ m'.waiting ∨ j ∈ m'.ready ↔ j ∈ m.waiting ∨ j ∈ m.ready := by
  obtain ⟨-, ⟨-, rfl⟩ | ⟨w, ws, hw, rfl⟩⟩ := pulse_cases hs
  · rfl
  · simp only [hw, List.mem_append, List.mem_cons]
    tauto

/-- A pulse wakes the only thread that waits. -/
theorem not_mem_waiting_pulse (h : Wf m) (hs : m.pulse i = some m')
    (hj : ∀ k, k ∈ m.waiting → k = j) : j ∉ m'.waiting := by
  obtain ⟨-, ⟨hw, rfl⟩ | ⟨w, ws, hw, rfl⟩⟩ := pulse_cases hs
  · simp [hw]
  · obtain rfl : w = j := hj w (by simp [hw])
    have hnodup := (List.nodup_append.mp h.nodup).1
    rw [hw] at hnodup
    exact (List.nodup_cons.mp hnodup).1

end Monitor
