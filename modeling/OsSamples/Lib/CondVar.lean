import Mathlib.Data.Finset.Basic
import Mathlib.Data.Finset.Lattice.Lemmas

/-!
# A mutex with a condition variable

The POSIX mutex and the condition variable that threads use together with it.  A thread that waits
has released the mutex and is blocked until a signal or a spurious wake-up; it is then woken, and
goes on when it has got the mutex again.  A signal wakes one of the blocked threads, and is lost
where there is none.

An operation is `none` where the thread does not hold the mutex that it has to hold, or where it
blocks.

## Key results

- `lock_cases`, `unlock_cases`, …: what the operations do
- `signal_of_subset`: a signal, when one thread at most may be blocked
- `SoleWaiter.wait`, …: one thread at most is blocked or woken, and not both
-/

/-- The owner of the mutex, the blocked threads, and the woken ones that do not have the mutex
    yet. -/
structure CondVar (T : Type*) where
  owner : Option T
  blocked : Finset T
  woken : Finset T

namespace CondVar

variable {T : Type*} [DecidableEq T] {m m' : CondVar T} {i j : T} {w : Option T}

/-- `pthread_mutex_init` and `pthread_cond_init`. -/
def init (T : Type*) : CondVar T := ⟨none, ∅, ∅⟩

/-- `pthread_mutex_lock`; `none` while the mutex is taken. -/
def lock (i : T) (m : CondVar T) : Option (CondVar T) :=
  if m.owner = none then some { m with owner := some i } else none

/-- `pthread_mutex_unlock`. -/
def unlock (i : T) (m : CondVar T) : Option (CondVar T) :=
  if m.owner = some i then some { m with owner := none } else none

/-- The first part of `pthread_cond_wait`: the mutex is released and the thread is blocked. -/
def wait (i : T) (m : CondVar T) : Option (CondVar T) :=
  if m.owner = some i then some { m with owner := none, blocked := insert i m.blocked } else none

/-- A blocked thread is woken. -/
def wake (j : T) (m : CondVar T) : Option (CondVar T) :=
  if j ∈ m.blocked then
    some { m with blocked := m.blocked.erase j, woken := insert j m.woken }
  else none

/-- `pthread_cond_signal`, which wakes the thread `w`, or none if none is blocked. -/
def signal (w : Option T) (m : CondVar T) : Option (CondVar T) :=
  match w with
  | some j => m.wake j
  | none => if m.blocked = ∅ then some m else none

/-- The last part of `pthread_cond_wait`: the mutex is taken again; `none` while that blocks. -/
def relock (i : T) (m : CondVar T) : Option (CondVar T) :=
  if m.owner = none ∧ i ∈ m.woken then some { m with owner := some i, woken := m.woken.erase i }
  else none

/-! ## What the operations do -/

omit [DecidableEq T] in
theorem lock_cases (h : m.lock i = some m') : m.owner = none ∧ m' = { m with owner := some i } := by
  simp only [lock, Option.ite_none_right_eq_some, Option.some.injEq] at h
  exact ⟨h.1, h.2.symm⟩

theorem unlock_cases (h : m.unlock i = some m') :
    m.owner = some i ∧ m' = { m with owner := none } := by
  simp only [unlock, Option.ite_none_right_eq_some, Option.some.injEq] at h
  exact ⟨h.1, h.2.symm⟩

theorem wait_cases (h : m.wait i = some m') :
    m.owner = some i ∧ m' = { m with owner := none, blocked := insert i m.blocked } := by
  simp only [wait, Option.ite_none_right_eq_some, Option.some.injEq] at h
  exact ⟨h.1, h.2.symm⟩

theorem wake_cases (h : m.wake j = some m') :
    j ∈ m.blocked ∧
      m' = { m with blocked := m.blocked.erase j, woken := insert j m.woken } := by
  simp only [wake, Option.ite_none_right_eq_some, Option.some.injEq] at h
  exact ⟨h.1, h.2.symm⟩

theorem relock_cases (h : m.relock i = some m') :
    m.owner = none ∧ i ∈ m.woken ∧ m' = { m with owner := some i, woken := m.woken.erase i } := by
  simp only [relock, Option.ite_none_right_eq_some, Option.some.injEq] at h
  exact ⟨h.1.1, h.1.2, h.2.symm⟩

/-- After a signal no thread is blocked, when only `j` may have been: it has been woken. -/
theorem signal_of_subset (h : m.signal w = some m') (hsub : m.blocked ⊆ {j}) :
    m' = { m with blocked := ∅, woken := m.woken ∪ m.blocked } := by
  cases w with
  | none =>
    simp only [signal, Option.ite_none_right_eq_some, Option.some.injEq] at h
    obtain ⟨hempty, rfl⟩ := h
    rw [hempty, Finset.union_empty, ← hempty]
  | some k =>
    obtain ⟨hk, rfl⟩ := wake_cases h
    obtain rfl : k = j := Finset.mem_singleton.mp (hsub hk)
    have hblocked : m.blocked = {k} := by
      apply Finset.Subset.antisymm hsub
      exact Finset.singleton_subset_iff.mpr hk
    rw [hblocked, Finset.union_comm, ← Finset.insert_eq, Finset.erase_singleton]

/-! ## One thread that waits -/

/-- Only the thread `j` ever waits; it is blocked or woken only while `waits` holds, and never
    both. -/
structure SoleWaiter (j : T) (waits : Prop) (m : CondVar T) : Prop where
  blocked : m.blocked ⊆ {j}
  woken : m.woken ⊆ {j}
  waiting : ¬ waits → m.blocked = ∅ ∧ m.woken = ∅
  disjoint : m.woken ≠ ∅ → m.blocked = ∅

namespace SoleWaiter

variable {p q : Prop} {o : Option T}

omit [DecidableEq T] in
theorem init : SoleWaiter j p (init T) :=
  ⟨Finset.empty_subset _, Finset.empty_subset _, fun _ => ⟨rfl, rfl⟩, fun _ => rfl⟩

omit [DecidableEq T] in
/-- Nothing but the owner changes. -/
theorem frame (h : SoleWaiter j p m) (hblocked : m'.blocked = m.blocked)
    (hwoken : m'.woken = m.woken) (hpq : p → q) : SoleWaiter j q m' where
  blocked := hblocked ▸ h.blocked
  woken := hwoken ▸ h.woken
  waiting := by
    rw [hblocked, hwoken]
    exact fun hq => h.waiting (mt hpq hq)
  disjoint := by
    rw [hblocked, hwoken]
    exact h.disjoint

/-- The thread is blocked. -/
theorem wait (h : SoleWaiter j p m) (hp : ¬ p) (hq : q) :
    SoleWaiter j q { m with owner := o, blocked := insert j m.blocked } := by
  obtain ⟨hblocked, hwoken⟩ := h.waiting hp
  exact ⟨by simp [hblocked], by simp [hwoken], fun hnot => absurd hq hnot, by simp [hwoken]⟩

omit [DecidableEq T] in
/-- The blocked thread is the one that waits. -/
theorem of_mem_blocked (h : SoleWaiter j p m) (hi : i ∈ m.blocked) : i = j ∧ p := by
  refine ⟨Finset.mem_singleton.mp (h.blocked hi), ?_⟩
  by_contra hp
  rw [(h.waiting hp).1] at hi
  exact nomatch hi

theorem erase_blocked (h : SoleWaiter j p m) : m.blocked.erase j = ∅ :=
  (Finset.erase_eq_empty_iff _ _).mpr (Finset.subset_singleton_iff.mp h.blocked)

/-- The blocked thread is woken. -/
theorem wake (h : SoleWaiter j p m) (hj : j ∈ m.blocked) : SoleWaiter j p
    { m with blocked := m.blocked.erase j, woken := insert j m.woken } where
  blocked := by simp [h.erase_blocked]
  woken := Finset.insert_subset (by simp) h.woken
  waiting := fun hnot => absurd (h.of_mem_blocked hj).2 hnot
  disjoint := fun _ => h.erase_blocked

/-- The woken thread goes on. -/
theorem relock (h : SoleWaiter j p m) (hj : j ∈ m.woken) :
    SoleWaiter j q { m with owner := o, woken := m.woken.erase j } := by
  have hblocked := h.disjoint (Finset.ne_empty_of_mem hj)
  have hempty : m.woken.erase j = ∅ :=
    (Finset.erase_eq_empty_iff _ _).mpr (Finset.subset_singleton_iff.mp h.woken)
  exact ⟨by simp [hblocked], by simp [hempty], fun _ => ⟨hblocked, hempty⟩, fun _ => hblocked⟩

/-- A signal, after which no thread is blocked. -/
theorem signal (h : SoleWaiter j p m) (hs : m.signal w = some m') :
    SoleWaiter j p m' ∧ m'.blocked = ∅ ∧ m'.owner = m.owner := by
  obtain rfl := signal_of_subset hs h.blocked
  refine ⟨⟨by simp, Finset.union_subset h.woken h.blocked, fun hnot => ⟨rfl, ?_⟩, fun _ => rfl⟩,
    rfl, rfl⟩
  obtain ⟨hblocked, hwoken⟩ := h.waiting hnot
  show m.woken ∪ m.blocked = ∅
  rw [hblocked, hwoken, Finset.union_empty]

end SoleWaiter

end CondVar
