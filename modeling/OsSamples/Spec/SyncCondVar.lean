import Mathlib.Tactic.Common
import OsSamples.Lib.Threads
import OsSamples.Native.SyncCondVar

/-!
# The watching thread does not miss the threshold

While the watching thread is blocked, it has not added its 100, so that `count` is the number of
increments, and it goes up one by one: it is below the threshold, or it has just reached it, and the
thread that has made the increment holds the mutex until it has sent the signal.

## Key results

- `step_cases`: what a step can do, one constructor of `Step` for each kind
- `Inv.step`: the mutex, the waiting thread, the value of `count`, and the threshold
- `threshold_not_missed`: all runs, for any number of threads, as long as `count` does not overflow
-/

namespace SyncCondVar

open CInt
open Threads (Exclusive total)

variable {k : ℕ} {TCOUNT COUNT_THRESHOLD : ℤ} {s s' : State k} {a : Act k} {e : Option Event}
  {j : Fin k} {l : Inc}

/-! ## Where the threads are -/

/-- The thread holds the mutex. -/
def IncPc.holds : IncPc → Bool
  | .load | .store _ | .test | .printThreshold | .signal | .printSent | .printUnlocking
  | .unlock => true
  | .loop | .lock | .sleep | .done => false

/-- The thread has incremented `count` in this round. -/
def IncPc.counted : IncPc → Bool
  | .test | .printThreshold | .signal | .printSent | .printUnlocking | .unlock | .sleep => true
  | .loop | .lock | .load | .store _ | .done => false

/-- The thread sends a signal if `count` is the threshold. -/
def IncPc.signals : IncPc → Bool
  | .test | .printThreshold | .signal => true
  | .loop | .lock | .load | .store _ | .printSent | .printUnlocking | .unlock | .sleep
  | .done => false

/-- The watching thread holds the mutex. -/
def WatchPc.holds : WatchPc → Bool
  | .test | .printWait | .wait | .printReceived | .load | .store _ | .printNow | .unlock => true
  | .printStarting | .lock | .waiting | .done => false

/-- The watching thread has added 100. -/
def WatchPc.added : WatchPc → Bool
  | .printNow | .unlock | .done => true
  | .printStarting | .lock | .test | .printWait | .wait | .waiting | .printReceived | .load
  | .store _ => false

/-- The watching thread has found `count` below the threshold, and is about to wait. -/
def WatchPc.toWait : WatchPc → Bool
  | .printWait | .wait => true
  | .printStarting | .lock | .test | .waiting | .printReceived | .load | .store _ | .printNow
  | .unlock | .done => false

/-- Who holds the mutex. -/
def State.holds (s : State k) : Thread k → Bool
  | .watch => s.watch.holds
  | .inc j => (s.inc j).pc.holds

theorem holds_setInc (s : State k) (j : Fin k) (l : Inc) :
    (s.setInc j l).holds = Function.update s.holds (.inc j) l.pc.holds := by
  funext t
  cases t with
  | watch => rfl
  | inc j' =>
    by_cases hj : j' = j
    · subst hj
      simp [State.holds, State.setInc]
    · simp [State.holds, State.setInc, hj]

theorem holds_watch (s : State k) (count : ℤ) (cv : CondVar (Thread k)) (pc : WatchPc) :
    State.holds { s with count := count, cv := cv, watch := pc } =
      Function.update s.holds .watch pc.holds := by
  funext t
  cases t with
  | watch => rfl
  | inc j => rfl

/-! ## What a step can do -/

/-- The kinds of steps. -/
inductive Step (TCOUNT COUNT_THRESHOLD : ℤ) (s : State k) : State k → Prop
  | again {j : Fin k} (hpc : (s.inc j).pc = .loop) (hlt : (s.inc j).i < TCOUNT) :
      Step TCOUNT COUNT_THRESHOLD s (s.setInc j { s.inc j with pc := .lock })
  | done {j : Fin k} (hpc : (s.inc j).pc = .loop) (hge : TCOUNT ≤ (s.inc j).i) :
      Step TCOUNT COUNT_THRESHOLD s (s.setInc j { s.inc j with pc := .done })
  | sleep {j : Fin k} (hpc : (s.inc j).pc = .sleep) :
      Step TCOUNT COUNT_THRESHOLD s (s.setInc j ⟨(s.inc j).i + 1, .loop⟩)
  | lock {j : Fin k} (hpc : (s.inc j).pc = .lock) (howner : s.cv.owner = none) :
      Step TCOUNT COUNT_THRESHOLD s (State.setInc { s with
        cv := { s.cv with owner := some (.inc j) } } j { s.inc j with pc := .load })
  | load {j : Fin k} {value : ℤ} (hpc : (s.inc j).pc = .load)
      (hvalue : INT_MIN ≤ s.count + 1 → s.count + 1 ≤ INT_MAX → value = s.count + 1) :
      Step TCOUNT COUNT_THRESHOLD s (s.setInc j { s.inc j with pc := .store value })
  | store {j : Fin k} {value : ℤ} (hpc : (s.inc j).pc = .store value) :
      Step TCOUNT COUNT_THRESHOLD s
        (State.setInc { s with count := value } j { s.inc j with pc := .test })
  | reached {j : Fin k} (hpc : (s.inc j).pc = .test) :
      Step TCOUNT COUNT_THRESHOLD s (s.setInc j { s.inc j with pc := .printThreshold })
  | notReached {j : Fin k} (hpc : (s.inc j).pc = .test) (hne : s.count ≠ COUNT_THRESHOLD) :
      Step TCOUNT COUNT_THRESHOLD s (s.setInc j { s.inc j with pc := .printUnlocking })
  | print {j : Fin k} {pc : IncPc} (hholds : (s.inc j).pc.holds = true) (hholds' : pc.holds = true)
      (hcounted : (s.inc j).pc.counted = true) (hcounted' : pc.counted = true)
      (hsignals : (s.inc j).pc.signals = true → pc.signals = true) :
      Step TCOUNT COUNT_THRESHOLD s (s.setInc j { s.inc j with pc := pc })
  | signal {j : Fin k} {w : Option (Thread k)} {cv : CondVar (Thread k)}
      (hpc : (s.inc j).pc = .signal) (hsignal : s.cv.signal w = some cv) :
      Step TCOUNT COUNT_THRESHOLD s
        (State.setInc { s with cv := cv } j { s.inc j with pc := .printSent })
  | unlock {j : Fin k} (hpc : (s.inc j).pc = .unlock) (howner : s.cv.owner = some (.inc j)) :
      Step TCOUNT COUNT_THRESHOLD s (State.setInc { s with
        cv := { s.cv with owner := none } } j { s.inc j with pc := .sleep })
  | watchStart (hpc : s.watch = .printStarting) :
      Step TCOUNT COUNT_THRESHOLD s { s with watch := .lock }
  | watchLock (hpc : s.watch = .lock) (howner : s.cv.owner = none) :
      Step TCOUNT COUNT_THRESHOLD s
        { s with cv := { s.cv with owner := some .watch }, watch := .test }
  | toWait (hpc : s.watch = .test) (hlt : s.count < COUNT_THRESHOLD) :
      Step TCOUNT COUNT_THRESHOLD s { s with watch := .printWait }
  | printWait (hpc : s.watch = .printWait) :
      Step TCOUNT COUNT_THRESHOLD s { s with watch := .wait }
  | toLoad (hpc : s.watch = .test ∨ s.watch = .printReceived) :
      Step TCOUNT COUNT_THRESHOLD s { s with watch := .load }
  | wait (hpc : s.watch = .wait) (howner : s.cv.owner = some .watch) :
      Step TCOUNT COUNT_THRESHOLD s { s with
        cv := { s.cv with owner := none, blocked := insert .watch s.cv.blocked }
        watch := .waiting }
  | spurious (hblocked : .watch ∈ s.cv.blocked) : Step TCOUNT COUNT_THRESHOLD s { s with
      cv := { s.cv with
        blocked := s.cv.blocked.erase .watch
        woken := insert .watch s.cv.woken } }
  | relock (hpc : s.watch = .waiting) (howner : s.cv.owner = none) (hwoken : .watch ∈ s.cv.woken) :
      Step TCOUNT COUNT_THRESHOLD s { s with
        cv := { s.cv with owner := some .watch, woken := s.cv.woken.erase .watch }
        watch := .printReceived }
  | watchLoad {value : ℤ} (hpc : s.watch = .load)
      (hvalue : INT_MIN ≤ s.count + 100 → s.count + 100 ≤ INT_MAX → value = s.count + 100) :
      Step TCOUNT COUNT_THRESHOLD s { s with watch := .store value }
  | watchStore {value : ℤ} (hpc : s.watch = .store value) :
      Step TCOUNT COUNT_THRESHOLD s { s with count := value, watch := .printNow }
  | printNow (hpc : s.watch = .printNow) : Step TCOUNT COUNT_THRESHOLD s { s with watch := .unlock }
  | watchUnlock (hpc : s.watch = .unlock) (howner : s.cv.owner = some .watch) :
      Step TCOUNT COUNT_THRESHOLD s
        { s with cv := { s.cv with owner := none }, watch := .done }

/-- A sum that fits into `int`. -/
theorem addInt_of_fits {n m overflow value : ℤ} (h : addInt n m overflow = some value)
    (hmin : INT_MIN ≤ n + m) (hmax : n + m ≤ INT_MAX) : value = n + m := by
  rw [addInt, if_pos ⟨hmin, hmax⟩] at h
  exact (Option.some.inj h).symm

/-- The steps of `inc_count`. -/
theorem incCount_cases {overflow : ℤ} {wakes : Option (Thread k)}
    (hs : incCount TCOUNT COUNT_THRESHOLD j overflow wakes s = some (e, s')) :
    Step TCOUNT COUNT_THRESHOLD s s' := by
  cases hpc : (s.inc j).pc <;> simp only [incCount, hpc, Option.map_eq_some_iff, Option.some.injEq,
    Prod.mk.injEq, reduceCtorEq] at hs
  case loop =>
    obtain ⟨-, rfl⟩ := hs
    split
    · exact .again hpc ‹_›
    · exact .done hpc (not_lt.mp ‹_›)
  -- `pthread_mutex_lock` gives no step while the mutex is held
  case lock =>
    obtain ⟨cv, hcv, -, rfl⟩ := hs
    obtain ⟨howner, rfl⟩ := CondVar.lock_cases hcv
    exact .lock hpc howner
  -- an overflow of `count++` would give no step
  case load =>
    obtain ⟨value, hvalue, -, rfl⟩ := hs
    exact .load hpc (addInt_of_fits hvalue)
  case store =>
    obtain ⟨-, rfl⟩ := hs
    exact .store hpc
  case test =>
    obtain ⟨-, rfl⟩ := hs
    split
    · exact .reached hpc
    · exact .notReached hpc ‹_›
  -- output between the accesses
  case printThreshold | printSent | printUnlocking =>
    obtain ⟨-, rfl⟩ := hs
    exact .print (by rw [hpc]; rfl) rfl (by rw [hpc]; rfl) rfl (by rw [hpc]; exact id)
  -- the signal wakes one of the waiting threads, if there is one
  case signal =>
    obtain ⟨cv, hcv, -, rfl⟩ := hs
    exact .signal hpc hcv
  case unlock =>
    obtain ⟨cv, hcv, -, rfl⟩ := hs
    obtain ⟨howner, rfl⟩ := CondVar.unlock_cases hcv
    exact .unlock hpc howner
  case sleep =>
    obtain ⟨-, rfl⟩ := hs
    exact .sleep hpc

/-- The steps of `watch_count`. -/
theorem watchCount_cases {overflow : ℤ}
    (hs : watchCount COUNT_THRESHOLD overflow s = some (e, s')) :
    Step TCOUNT COUNT_THRESHOLD s s' := by
  cases hpc : s.watch <;> simp only [watchCount, hpc, Option.map_eq_some_iff, Option.some.injEq,
    Prod.mk.injEq, reduceCtorEq] at hs
  case printStarting =>
    obtain ⟨-, rfl⟩ := hs
    exact .watchStart hpc
  case lock =>
    obtain ⟨cv, hcv, -, rfl⟩ := hs
    obtain ⟨howner, rfl⟩ := CondVar.lock_cases hcv
    exact .watchLock hpc howner
  -- `if`, not `while`: after a wake-up the condition is not tested again
  case test =>
    obtain ⟨-, rfl⟩ := hs
    split
    · exact .toWait hpc ‹_›
    · exact .toLoad (.inl hpc)
  case printWait =>
    obtain ⟨-, rfl⟩ := hs
    exact .printWait hpc
  case wait =>
    obtain ⟨cv, hcv, -, rfl⟩ := hs
    obtain ⟨howner, rfl⟩ := CondVar.wait_cases hcv
    exact .wait hpc howner
  -- the thread leaves `pthread_cond_wait` with the mutex
  case waiting =>
    obtain ⟨cv, hcv, -, rfl⟩ := hs
    obtain ⟨howner, hwoken, rfl⟩ := CondVar.relock_cases hcv
    exact .relock hpc howner hwoken
  case printReceived =>
    obtain ⟨-, rfl⟩ := hs
    exact .toLoad (.inr hpc)
  case load =>
    obtain ⟨value, hvalue, -, rfl⟩ := hs
    exact .watchLoad hpc (addInt_of_fits hvalue)
  case store =>
    obtain ⟨-, rfl⟩ := hs
    exact .watchStore hpc
  case printNow =>
    obtain ⟨-, rfl⟩ := hs
    exact .printNow hpc
  case unlock =>
    obtain ⟨cv, hcv, -, rfl⟩ := hs
    obtain ⟨howner, rfl⟩ := CondVar.unlock_cases hcv
    exact .watchUnlock hpc howner

/-- Every step is of one of the kinds. -/
theorem step_cases (hs : step TCOUNT COUNT_THRESHOLD s a = some (e, s')) :
    Step TCOUNT COUNT_THRESHOLD s s' := by
  cases a with
  | inc j overflow wakes => exact incCount_cases hs
  | watch overflow => exact watchCount_cases hs
  | spurious =>
    simp only [step, Option.map_eq_some_iff, Prod.mk.injEq] at hs
    obtain ⟨cv, hcv, -, rfl⟩ := hs
    obtain ⟨hblocked, rfl⟩ := CondVar.wake_cases hcv
    exact .spurious hblocked

/-! ## The mutex and the condition variable -/

/-- The mutex is with the thread that is inside. -/
def Held (s : State k) : Prop := Exclusive id s.cv.owner s.holds

/-- Only the watching thread waits. -/
def Waits (s : State k) : Prop := s.cv.SoleWaiter .watch (s.watch = .waiting)

theorem Held.step (h : Held s) (hwaits : Waits s) (hs : Step TCOUNT COUNT_THRESHOLD s s') :
    Held s' := by
  unfold Held at *
  -- a thread holds the mutex as its program counter says
  have hinc : ∀ {j pc}, (s.inc j).pc = pc → s.holds (.inc j) = pc.holds := by
    rintro j _ rfl
    rfl
  have hwatch : ∀ {pc}, s.watch = pc → s.holds .watch = pc.holds := by
    rintro _ rfl
    rfl
  cases hs with
  -- the thread holds the mutex before and after the step, or neither
  | again hpc | done hpc | sleep hpc | load hpc | reached hpc | notReached hpc =>
    rw [holds_setInc]
    exact h.stay (hinc hpc).symm
  | store hpc =>
    rw [holds_setInc]
    exact h.stay (hinc hpc).symm
  | print hholds hholds' =>
    rw [holds_setInc]
    exact h.stay (hholds'.trans hholds.symm)
  -- the signal does not touch the mutex
  | signal hpc hsignal =>
    rw [holds_setInc]
    show Exclusive id (CondVar.owner _) _
    rw [State.setInc, (hwaits.signal hsignal).2.2]
    exact h.stay (hinc hpc).symm
  -- the mutex is free, so that no other thread holds it
  | lock hpc howner =>
    rw [holds_setInc]
    rw [howner] at h
    exact h.enter rfl
  | unlock hpc howner =>
    rw [holds_setInc]
    rw [howner] at h
    exact h.exit rfl
  -- the same for the watching thread
  | watchStart hpc | toWait hpc | printWait hpc | watchLoad hpc | printNow hpc =>
    rw [holds_watch s s.count s.cv]
    exact h.stay (hwatch hpc).symm
  | toLoad hpc =>
    rw [holds_watch s s.count s.cv]
    cases hpc with
    | inl hpc | inr hpc => exact h.stay (hwatch hpc).symm
  | watchStore hpc =>
    rw [holds_watch s _ s.cv]
    exact h.stay (hwatch hpc).symm
  | spurious => exact h
  | watchLock hpc howner | relock hpc howner =>
    rw [holds_watch s s.count]
    rw [howner] at h
    exact h.enter rfl
  -- `pthread_cond_wait` gives the mutex back, as `pthread_mutex_unlock` does
  | wait hpc howner | watchUnlock hpc howner =>
    rw [holds_watch s s.count]
    rw [howner] at h
    exact h.exit rfl

theorem Waits.step (h : Waits s) (hs : Step TCOUNT COUNT_THRESHOLD s s') : Waits s' := by
  cases hs with
  | again | done | sleep | lock | load | store | reached | notReached | print | unlock =>
    exact h.frame rfl rfl id
  | signal hpc hsignal => exact (h.signal hsignal).1
  | watchStart hpc | watchLock hpc | toWait hpc | printWait hpc | watchLoad hpc | watchStore hpc
  | printNow hpc | watchUnlock hpc =>
    exact h.frame rfl rfl fun hwaiting => nomatch hpc.symm.trans hwaiting
  | toLoad hpc =>
    refine h.frame rfl rfl fun hwaiting => ?_
    cases hpc with
    | inl hpc | inr hpc => exact nomatch hpc.symm.trans hwaiting
  | wait hpc => exact h.wait (by rw [hpc]; exact nofun) rfl
  | spurious hblocked => exact h.wake hblocked
  | relock hpc howner hwoken => exact h.relock hwoken

/-- Two threads do not hold the mutex at the same time. -/
theorem Held.eq (h : Held s) {t t' : Thread k} (ht : s.holds t = true) (ht' : s.holds t' = true) :
    t' = t := Exclusive.eq (show Exclusive id s.cv.owner s.holds from h) ht' ht

theorem Held.inc_eq (h : Held s) {j' : Fin k} (hj : (s.inc j).pc.holds = true)
    (hj' : (s.inc j').pc.holds = true) : j' = j :=
  Thread.inc.inj (h.eq (t := .inc j) hj hj')

/-- A counting thread and the watching thread do not hold the mutex at the same time. -/
theorem Held.watch_free (h : Held s) (hj : (s.inc j).pc.holds = true) : s.watch.holds = false := by
  apply Bool.eq_false_of_not_eq_true
  intro hwatch
  exact nomatch h.eq (t := .inc j) hj (show s.holds .watch = true from hwatch)

/-! ## The value of `count` -/

/-- The increments that a thread has made. -/
def Inc.increments (l : Inc) : ℕ := l.i + if l.pc.counted then 1 else 0

/-- The rounds that a thread has begun. -/
def Inc.Ok (TCOUNT : ℤ) (l : Inc) : Prop :=
  match l.pc with
  | .loop => l.i ≤ TCOUNT.toNat
  | .done => l.i = TCOUNT.toNat
  | _ => l.i < TCOUNT.toNat

/-- What the watching thread has added. -/
def State.offset (s : State k) : ℤ := if s.watch.added then 100 else 0

/-- The number of increments. -/
def State.increments (s : State k) : ℕ := total Inc.increments s.inc

/-- No increment so far can have overflown; `limit` is the number of increments when all threads
    have ended. -/
def State.Exact (limit : ℤ) (s : State k) : Prop := s.watch.added = false ∨ limit + 100 ≤ INT_MAX

/-- `count`, and what the threads that add to it are about to store. -/
structure Counted (limit : ℤ) (s : State k) : Prop where
  count : s.Exact limit → s.count = s.increments + s.offset
  store : s.Exact limit → ∀ j value, (s.inc j).pc = .store value → value = s.count + 1
  watchStore : limit + 100 ≤ INT_MAX → ∀ value, s.watch = .store value → value = s.count + 100

theorem increments_le (h : l.Ok TCOUNT) : l.increments ≤ TCOUNT.toNat := by
  unfold Inc.Ok at h
  unfold Inc.increments
  cases hpc : l.pc <;> rw [hpc] at h <;> simp only [IncPc.counted, Bool.false_eq_true, if_true,
    if_false] <;> omega

theorem total_increments_le {inc : Fin k → Inc} (h : ∀ j, (inc j).Ok TCOUNT) :
    total Inc.increments inc ≤ k * TCOUNT.toNat := by
  have hsum : ∑ j, (inc j).increments ≤ ∑ _ : Fin k, TCOUNT.toNat :=
    Finset.sum_le_sum fun j _ => increments_le (h j)
  rwa [Finset.sum_const, Finset.card_univ, Fintype.card_fin, smul_eq_mul] at hsum

theorem increments_setInc (s : State k) (j : Fin k) (l : Inc) :
    (s.setInc j l).increments + (s.inc j).increments = s.increments + l.increments :=
  Threads.total_update Inc.increments s.inc j l

/-! ### The rounds -/

theorem ok_update (h : ∀ j, (s.inc j).Ok TCOUNT) (hinc : s'.inc = Function.update s.inc j l)
    (hl : l.Ok TCOUNT) : ∀ j', (s'.inc j').Ok TCOUNT := by
  rw [hinc]
  exact (Function.forall_update_iff s.inc fun _ l => l.Ok TCOUNT).mpr ⟨hl, fun j' _ => h j'⟩

/-- A thread that holds the mutex is in one of its rounds. -/
theorem ok_of_holds {i : ℕ} {pc : IncPc} (hholds : pc.holds = true) :
    (⟨i, pc⟩ : Inc).Ok TCOUNT ↔ i < TCOUNT.toNat := by
  cases pc <;> first
    | exact Iff.rfl
    | exact nomatch hholds

theorem ok_step (h : ∀ j, (s.inc j).Ok TCOUNT) (hs : Step TCOUNT COUNT_THRESHOLD s s') :
    ∀ j, (s'.inc j).Ok TCOUNT := by
  have hok : ∀ {j pc}, (s.inc j).pc = pc → (⟨(s.inc j).i, pc⟩ : Inc).Ok TCOUNT := by
    rintro j _ rfl
    exact h j
  cases hs with
  -- a next round only below `TCOUNT`
  | @again j hpc hlt =>
    have hle : (s.inc j).i ≤ TCOUNT.toNat := hok hpc
    refine ok_update h rfl ?_
    show (s.inc j).i < TCOUNT.toNat
    omega
  -- the thread ends after exactly `TCOUNT` rounds
  | @done j hpc hge =>
    have hle : (s.inc j).i ≤ TCOUNT.toNat := hok hpc
    refine ok_update h rfl ?_
    show (s.inc j).i = TCOUNT.toNat
    omega
  | @sleep j hpc =>
    have hlt : (s.inc j).i < TCOUNT.toNat := hok hpc
    refine ok_update h rfl ?_
    show (s.inc j).i + 1 ≤ TCOUNT.toNat
    omega
  -- within a round `i` stays
  | lock hpc | load hpc | store hpc | reached hpc | notReached hpc | signal hpc | unlock hpc =>
    have hlt := hok hpc
    refine ok_update h rfl ?_
    exact hlt
  | print hholds hholds' =>
    have hlt := (ok_of_holds hholds).mp (hok rfl)
    exact ok_update h rfl ((ok_of_holds hholds').mpr hlt)
  -- the watching thread does not count rounds
  | watchStart | watchLock | toWait | printWait | toLoad | wait | spurious | relock | watchLoad
  | watchStore | printNow | watchUnlock => exact h

/-- A thread that is about to increment `count` has one increment to come. -/
theorem increments_lt (h : ∀ j, (s.inc j).Ok TCOUNT) (hpc : (s.inc j).pc = .load) :
    s.increments < k * TCOUNT.toNat := by
  have hok := h j
  unfold Inc.Ok at hok
  rw [hpc] at hok
  have hle : (s.setInc j ⟨(s.inc j).i, .test⟩).increments ≤ k * TCOUNT.toNat :=
    total_increments_le (ok_update h rfl hok)
  have hsum := increments_setInc s j ⟨(s.inc j).i, .test⟩
  simp only [Inc.increments, hpc, IncPc.counted, if_true, Bool.false_eq_true, if_false] at hsum
  omega

/-! ### The steps -/

/-- A step of a counting thread that leaves `count` and the number of increments as they are. -/
theorem Counted.inc {limit : ℤ} (h : Counted limit s) (hcount : s'.count = s.count)
    (hwatch : s'.watch = s.watch) (hinc : s'.inc = Function.update s.inc j l)
    (hincrements : l.increments = (s.inc j).increments) (hstore : ∀ value, l.pc ≠ .store value) :
    Counted limit s' where
  count := by
    have hsum : s'.increments + (s.inc j).increments = s.increments + l.increments := by
      unfold State.increments
      rw [hinc]
      exact Threads.total_update Inc.increments s.inc j l
    unfold State.Exact State.offset
    rw [hcount, hwatch]
    intro hexact
    have hbefore := h.count hexact
    unfold State.offset at hbefore
    omega
  store := by
    unfold State.Exact
    rw [hcount, hwatch, hinc]
    intro hexact
    apply (Function.forall_update_iff s.inc fun _ l =>
      ∀ value, l.pc = .store value → value = s.count + 1).mpr
    exact ⟨fun value hpc => absurd hpc (hstore value), fun j' _ => h.store hexact j'⟩
  watchStore := by
    rw [hcount, hwatch]
    exact h.watchStore

/-- A step of the watching thread that leaves `count` as it is. -/
theorem Counted.watch {limit : ℤ} (h : Counted limit s) (hcount : s'.count = s.count)
    (hinc : s'.inc = s.inc) (hadded : s'.watch.added = s.watch.added)
    (hstore : ∀ value, s'.watch ≠ .store value) : Counted limit s' where
  count := by
    unfold State.Exact State.offset State.increments
    rw [hcount, hinc, hadded]
    exact h.count
  store := by
    unfold State.Exact
    rw [hcount, hinc, hadded]
    exact h.store
  watchStore := fun _ value hpc => absurd hpc (hstore value)

/-- A thread increments `count`. -/
theorem Counted.store_inc {limit value : ℤ} (h : Counted limit s) (hheld : Held s)
    (hpc : (s.inc j).pc = .store value) :
    Counted limit (State.setInc { s with count := value } j { s.inc j with pc := .test }) where
  count := by
    intro hexact
    have hvalue := h.store hexact j value hpc
    have hcount := h.count hexact
    have hsum := increments_setInc s j ⟨(s.inc j).i, .test⟩
    simp only [Inc.increments, hpc, IncPc.counted, if_true, Bool.false_eq_true, if_false] at hsum
    show value = ((s.setInc j ⟨(s.inc j).i, .test⟩).increments : ℤ) + s.offset
    omega
  store := by
    intro _
    apply (Function.forall_update_iff s.inc fun _ l =>
      ∀ value', l.pc = .store value' → value' = value + 1).mpr
    -- no other thread is about to store, since this one holds the mutex
    refine ⟨nofun, fun j' hne value' hpc' => absurd ?_ hne⟩
    exact hheld.inc_eq (by rw [hpc]; rfl) (by rw [hpc']; rfl)
  watchStore := by
    intro _ value' hpc'
    have hfree := hheld.watch_free (by rw [hpc]; rfl)
    rw [show s.watch = .store value' from hpc'] at hfree
    exact nomatch hfree

/-- The watching thread adds its 100. -/
theorem Counted.store_watch {limit value : ℤ} (h : Counted limit s) (hheld : Held s)
    (hpc : s.watch = .store value) :
    Counted limit { s with count := value, watch := .printNow } where
  count := by
    intro hexact
    have hlimit : limit + 100 ≤ INT_MAX := hexact.resolve_left nofun
    have hvalue := h.watchStore hlimit value hpc
    have hcount := h.count (.inr hlimit)
    have hoffset : s.offset = 0 := by
      unfold State.offset
      rw [hpc]
      rfl
    show value = (s.increments : ℤ) + 100
    omega
  store := by
    intro _ j value' hpc'
    have hfree := hheld.watch_free (s := s) (j := j) (by rw [hpc']; rfl)
    rw [hpc] at hfree
    exact nomatch hfree
  watchStore := nofun

theorem Counted.step {limit : ℤ} (h : Counted limit s) (hheld : Held s)
    (hok : ∀ j, (s.inc j).Ok TCOUNT) (hlimit : k * TCOUNT.toNat = limit) (hmax : limit ≤ INT_MAX)
    (hs : Step TCOUNT COUNT_THRESHOLD s s') : Counted limit s' := by
  -- a move of a thread within its round, with the same number of increments
  have hmove : ∀ {j pc pc'}, (s.inc j).pc = pc → pc'.counted = pc.counted →
      (⟨(s.inc j).i, pc'⟩ : Inc).increments = (s.inc j).increments := by
    rintro j _ pc' rfl hcounted
    simp only [Inc.increments, hcounted]
  have hle := total_increments_le hok
  cases hs with
  | again hpc | done hpc | lock hpc | reached hpc | notReached hpc | signal hpc | unlock hpc =>
    exact h.inc rfl rfl rfl (hmove hpc rfl) nofun
  | sleep hpc =>
    refine h.inc rfl rfl rfl ?_ nofun
    simp [Inc.increments, hpc, IncPc.counted]
  | @print j pc hholds hholds' hcounted hcounted' =>
    refine h.inc rfl rfl rfl (hmove rfl (hcounted'.trans hcounted.symm)) ?_
    rintro value rfl
    exact nomatch hcounted'
  | @load j value hpc hvalue =>
    have hlt := increments_lt hok hpc
    have hincrements : (⟨(s.inc j).i, .store value⟩ : Inc).increments = (s.inc j).increments :=
      hmove hpc rfl
    have hsame := increments_setInc s j ⟨(s.inc j).i, .store value⟩
    refine ⟨fun hexact => ?_, fun hexact => ?_, h.watchStore⟩
    · have hcount := h.count hexact
      show s.count = ((s.setInc j ⟨(s.inc j).i, .store value⟩).increments : ℤ) + s.offset
      omega
    · apply (Function.forall_update_iff s.inc fun _ l =>
        ∀ value', l.pc = .store value' → value' = s.count + 1).mpr
      refine ⟨fun value' hpc' => ?_, fun j' _ => h.store hexact j'⟩
      -- the sum fits, since this is not the last of all increments
      obtain rfl : value = value' := IncPc.store.inj hpc'
      have hcount := h.count hexact
      have hoffset : 0 ≤ s.offset ∧ limit + s.offset ≤ INT_MAX := by
        unfold State.offset
        cases hexact with
        | inl hadded =>
          rw [show s.watch.added = false from hadded]
          simpa using hmax
        | inr hadded =>
          split <;> omega
      unfold INT_MIN at hvalue
      exact hvalue (by omega) (by omega)
  | store hpc => exact h.store_inc hheld hpc
  | watchStart hpc | toWait hpc | printWait hpc | wait hpc | relock hpc =>
    exact h.watch rfl rfl (by rw [hpc]; rfl) nofun
  | watchLock hpc | printNow hpc | watchUnlock hpc =>
    exact h.watch rfl rfl (by rw [hpc]; rfl) nofun
  | toLoad hpc =>
    cases hpc with
    | inl hpc | inr hpc => exact h.watch rfl rfl (by rw [hpc]; rfl) nofun
  | spurious => exact ⟨h.count, h.store, h.watchStore⟩
  | @watchLoad value hpc hvalue =>
    have hadded : s.watch.added = false := by
      rw [hpc]
      rfl
    have hcount := h.count (.inl hadded)
    have hoffset : s.offset = 0 := by
      unfold State.offset
      rw [hadded]
      rfl
    refine ⟨fun _ => hcount.trans ?_, fun _ => h.store (.inl hadded), fun hfits value' hpc' => ?_⟩
    · rw [hoffset]
      rfl
    · obtain rfl : value = value' := WatchPc.store.inj hpc'
      have hincrements : (s.increments : ℤ) ≤ limit := by
        rw [← hlimit]
        exact_mod_cast hle
      unfold INT_MIN at hvalue
      exact hvalue (by omega) (by omega)
  | watchStore hpc => exact h.store_watch hheld hpc

/-! ## The threshold -/

/-- While the watching thread is blocked, and before, `count` is below the threshold, or has just
    reached it. -/
structure Watched (COUNT_THRESHOLD : ℤ) (s : State k) : Prop where
  blocked : .watch ∈ s.cv.blocked → s.count < COUNT_THRESHOLD ∨
    s.count = COUNT_THRESHOLD ∧ ∃ j, (s.inc j).pc.signals = true
  toWait : s.watch.toWait = true → s.count < COUNT_THRESHOLD

theorem IncPc.holds_of_signals {pc : IncPc} (h : pc.signals = true) : pc.holds = true := by
  cases pc <;> first
    | rfl
    | exact nomatch h

/-- A step of a counting thread that leaves `count` as it is. -/
theorem Watched.inc (h : Watched COUNT_THRESHOLD s) (hcount : s'.count = s.count)
    (hwatch : s'.watch = s.watch) (hblocked : s'.cv.blocked = s.cv.blocked)
    (hinc : s'.inc = Function.update s.inc j l)
    (hsignals : (s.inc j).pc.signals = true → l.pc.signals = true) :
    Watched COUNT_THRESHOLD s' where
  blocked := by
    rw [hcount, hblocked, hinc]
    intro hmem
    refine (h.blocked hmem).imp id fun ⟨heq, j', hj'⟩ => ⟨heq, j', ?_⟩
    by_cases hne : j' = j
    · subst hne
      rw [Function.update_self]
      exact hsignals hj'
    · rwa [Function.update_of_ne hne]
  toWait := by
    rw [hcount, hwatch]
    exact h.toWait

/-- A step of the watching thread that leaves `count` as it is. -/
theorem Watched.watch (h : Watched COUNT_THRESHOLD s) (hcount : s'.count = s.count)
    (hblocked : s'.cv.blocked = s.cv.blocked) (hinc : s'.inc = s.inc)
    (htoWait : s'.watch.toWait = true → s.count < COUNT_THRESHOLD) :
    Watched COUNT_THRESHOLD s' where
  blocked := by
    rw [hcount, hblocked, hinc]
    exact h.blocked
  toWait := by
    rw [hcount]
    exact htoWait

/-- A thread increments `count`, which has not been at the threshold. -/
theorem Watched.store_inc {limit value : ℤ} (h : Watched COUNT_THRESHOLD s) (hheld : Held s)
    (hwaits : Waits s) (hcounted : Counted limit s) (hpc : (s.inc j).pc = .store value) :
    Watched COUNT_THRESHOLD (State.setInc { s with count := value } j { s.inc j with pc := .test })
    where
  blocked := by
    intro hmem
    have hwaiting : s.watch = .waiting := (hwaits.of_mem_blocked hmem).2
    have hvalue := hcounted.store (.inl (by rw [hwaiting]; rfl)) j value hpc
    have hlt : s.count < COUNT_THRESHOLD := by
      cases h.blocked hmem with
      | inl hlt => exact hlt
      | inr hreached =>
        -- the thread that signals would hold the mutex, and be this one
        obtain ⟨-, j', hj'⟩ := hreached
        obtain rfl := hheld.inc_eq (by rw [hpc]; rfl) (IncPc.holds_of_signals hj')
        rw [hpc] at hj'
        exact nomatch hj'
    show value < COUNT_THRESHOLD ∨ value = COUNT_THRESHOLD ∧ _
    cases lt_or_eq_of_le (show value ≤ COUNT_THRESHOLD by omega) with
    | inl hbelow => exact .inl hbelow
    | inr heq => exact .inr ⟨heq, j, by simp [State.setInc, IncPc.signals]⟩
  toWait := by
    intro htoWait
    have hfree := hheld.watch_free (by rw [hpc]; rfl)
    cases hwatch : s.watch <;> simp [hwatch, WatchPc.holds, State.setInc, WatchPc.toWait]
      at hfree htoWait

theorem Watched.step {limit : ℤ} (h : Watched COUNT_THRESHOLD s) (hheld : Held s) (hwaits : Waits s)
    (hcounted : Counted limit s) (hs : Step TCOUNT COUNT_THRESHOLD s s') :
    Watched COUNT_THRESHOLD s' := by
  cases hs with
  | again hpc | done hpc | sleep hpc | lock hpc | load hpc | unlock hpc =>
    exact h.inc rfl rfl rfl rfl (by rw [hpc]; exact nofun)
  | reached hpc => exact h.inc rfl rfl rfl rfl fun _ => rfl
  | print _ _ _ _ hsignals => exact h.inc rfl rfl rfl rfl hsignals
  | notReached hpc hne =>
    refine ⟨fun hmem => ?_, h.toWait⟩
    exact .inl ((h.blocked hmem).resolve_right fun hreached => hne hreached.1)
  | store hpc => exact h.store_inc hheld hwaits hcounted hpc
  | signal hpc hsignal =>
    refine ⟨fun hmem => ?_, h.toWait⟩
    -- the signal has woken the watching thread
    have hnone := (hwaits.signal hsignal).2.1
    rw [State.setInc, hnone] at hmem
    exact nomatch hmem
  | watchStart | watchLock | toLoad | relock | watchLoad | printNow | watchUnlock =>
    exact h.watch rfl rfl rfl nofun
  | toWait hpc hlt => exact h.watch rfl rfl rfl fun _ => hlt
  | printWait hpc => exact h.watch rfl rfl rfl fun _ => h.toWait (by rw [hpc]; rfl)
  | wait hpc => exact ⟨fun _ => .inl (h.toWait (by rw [hpc]; rfl)), nofun⟩
  | spurious hblocked =>
    exact ⟨fun hmem => absurd rfl (Finset.ne_of_mem_erase hmem), h.toWait⟩
  | watchStore hpc =>
    refine ⟨fun hmem => ?_, nofun⟩
    have hwaiting : s.watch = .waiting := (hwaits.of_mem_blocked hmem).2
    exact nomatch hpc.symm.trans hwaiting

/-! ## Main result -/

/-- All the invariants. -/
structure Inv (TCOUNT COUNT_THRESHOLD limit : ℤ) (s : State k) : Prop where
  held : Held s
  waits : Waits s
  ok : ∀ j, (s.inc j).Ok TCOUNT
  counted : Counted limit s
  watched : Watched COUNT_THRESHOLD s

theorem Inv.step {limit : ℤ} (hlimit : k * TCOUNT.toNat = limit) (hmax : limit ≤ INT_MAX)
    (h : Inv TCOUNT COUNT_THRESHOLD limit s) (hs : Step TCOUNT COUNT_THRESHOLD s s') :
    Inv TCOUNT COUNT_THRESHOLD limit s' where
  held := h.held.step h.waits hs
  waits := h.waits.step hs
  ok := ok_step h.ok hs
  counted := h.counted.step h.held h.ok hlimit hmax hs
  watched := h.watched.step h.held h.waits h.counted hs

theorem initial_inv {limit : ℤ} : Inv TCOUNT COUNT_THRESHOLD limit (initial k) where
  held := by
    intro t
    cases t with
    | watch | inc => exact ⟨nofun, nofun⟩
  waits := .init
  ok := fun _ => Nat.zero_le _
  counted := by
    refine ⟨fun _ => ?_, nofun, nofun⟩
    simp [initial, State.increments, State.offset, total, Inc.increments, IncPc.counted,
      WatchPc.added]
  watched := ⟨nofun, nofun⟩

/-- All counting threads have ended. -/
def Ended (s : State k) : Prop := ∀ j, (s.inc j).pc = .done

/-- The watching thread waits for a signal that nobody will send. -/
def Missed (s : State k) : Prop :=
  Ended s ∧ s.watch = .waiting ∧ .watch ∈ s.cv.blocked

/-- When all threads have ended, the number of increments is what it should be. -/
theorem increments_ended (hok : ∀ j, (s.inc j).Ok TCOUNT) (hended : Ended s) :
    s.increments = k * TCOUNT.toNat := by
  have hshare : ∀ j, (s.inc j).increments = TCOUNT.toNat := by
    intro j
    have h := hok j
    unfold Inc.Ok at h
    rw [hended j] at h
    simp [Inc.increments, hended j, IncPc.counted, h]
  unfold State.increments
  rw [Threads.total_const hshare, Fintype.card_fin]

/-- For any number of counting threads, any `TCOUNT`, a negative one being no rounds, and any
    threshold that the increments reach, as long as they fit into `int`: the watching thread is
    never blocked when all counting threads have ended; and when all threads have ended, `count` is
    the number of increments and 100, if that fits as well. -/
theorem threshold_not_missed (k : ℕ) (TCOUNT COUNT_THRESHOLD : ℤ)
    (hthreshold : COUNT_THRESHOLD ≤ k * TCOUNT.toNat) (hmax : k * TCOUNT.toNat ≤ INT_MAX)
    (s : State k) (h : (machine k TCOUNT COUNT_THRESHOLD).Reachable (initial k) s) :
    ¬ Missed s ∧ (k * TCOUNT.toNat + 100 ≤ INT_MAX → Ended s → s.watch = .done →
      s.count = k * TCOUNT.toNat + 100) := by
  have hinv : Inv TCOUNT COUNT_THRESHOLD (k * TCOUNT.toNat) s :=
    h.invariant (fun _ _ _ _ hI hs => hI.step rfl hmax (step_cases hs)) initial_inv
  constructor
  -- all counting threads have ended, and the watching one is blocked for ever
  · rintro ⟨hended, hwaiting, hblocked⟩
    have hadded : s.watch.added = false := by
      rw [hwaiting]
      rfl
    have hcount := hinv.counted.count (.inl hadded)
    have hoffset : s.offset = 0 := by
      unfold State.offset
      rw [hadded]
      rfl
    -- all increments together reach the limit
    rw [increments_ended hinv.ok hended, hoffset] at hcount
    push_cast at hcount
    cases hinv.watched.blocked hblocked with
    | inl hlt => omega
    -- a thread that has reached the limit has not sent its signal, but all have ended
    | inr hreached =>
      obtain ⟨-, j, hj⟩ := hreached
      rw [hended j] at hj
      exact nomatch hj
  -- the watching thread has added its 100
  · intro hfits hended hdone
    have hcount := hinv.counted.count (.inr hfits)
    have hoffset : s.offset = 100 := by
      unfold State.offset
      rw [hdone]
      rfl
    rw [increments_ended hinv.ok hended, hoffset] at hcount
    push_cast at hcount
    exact hcount

/-- The first of two rounds reaches the threshold while the watching thread waits. -/
theorem threshold_not_missed_one :
    ∃ s, (machine 1 2 1).Reachable (initial 1) s ∧ Ended s ∧ s.count = 1 * 2 + 100 := by
  -- the watching thread waits, is woken by the signal of the first round, and ends
  have hexec : ((machine 1 2 1).exec (initial 1) (List.replicate 5 (.watch 0) ++
      List.replicate 6 (.inc 0 0 none) ++ [.inc 0 0 (some .watch)] ++
      List.replicate 4 (.inc 0 0 none) ++ List.replicate 6 (.watch 0) ++
      List.replicate 9 (.inc 0 0 none))).map (fun r => (r.2.watch, (r.2.inc 0).pc)) =
        some (.done, .done) := by
    decide +kernel
  obtain ⟨⟨tr, s⟩, hrun, heq⟩ := Option.map_eq_some_iff.mp hexec
  obtain ⟨hdone, hinc⟩ := Prod.mk.inj heq
  have hended : Ended s := by
    intro j
    rw [Subsingleton.elim j 0]
    exact hinc
  have hreach := Machine.Reachable.of_exec _ hrun
  exact ⟨s, hreach, hended, (threshold_not_missed 1 2 1 (by decide) (by decide) s hreach).2
    (by decide) hended hdone⟩

/-! ## Where `count` overflows -/

/-- What is to hold, whether `count` overflows or not. -/
def NotMissed (k : ℕ) (TCOUNT COUNT_THRESHOLD : ℤ) : Prop :=
  ∀ s, (machine k TCOUNT COUNT_THRESHOLD).Reachable (initial k) s →
    ¬ Missed s ∧ (Ended s → s.watch = .done → s.count = k * TCOUNT + 100)

/-- One counting thread, after the watching thread has ended. -/
def alone (count : ℤ) (owner : Option (Thread 1)) (l : Inc) : State 1 :=
  ⟨count, ⟨owner, ∅, ∅⟩, .done, fun _ => l⟩

theorem setInc_alone (count : ℤ) (owner : Option (Thread 1)) (l l' : Inc) :
    (alone count owner l).setInc 0 l' = alone count owner l' := by
  have hupdate : Function.update (fun _ : Fin 1 => l) 0 l' = fun _ => l' := by
    funext j
    rw [Subsingleton.elim j 0, Function.update_self]
  simp only [State.setInc, alone, hupdate]

/-- A step of the counting thread. -/
theorem reachable_alone {count : ℤ} {owner : Option (Thread 1)} {l : Inc} {s : State 1}
    (h : (machine 1 TCOUNT 0).Reachable s (alone count owner l)) (count' : ℤ)
    (owner' : Option (Thread 1)) (l' : Inc)
    (hs : incCount TCOUNT 0 0 100 none (alone count owner l) =
      some (e, (alone count' owner' l).setInc 0 l')) :
    (machine 1 TCOUNT 0).Reachable s (alone count' owner' l') := by
  rw [setInc_alone] at hs
  exact h.step (a := .inc 0 100 none) hs

/-- An addition that overflows gives 100. -/
theorem addInt_alone {count : ℤ} (hmin : 100 ≤ count) :
    ∃ value, addInt count 1 100 = some value ∧ 100 ≤ value ∧ value ≤ INT_MAX := by
  unfold addInt
  split
  · exact ⟨_, rfl, by omega, by omega⟩
  · exact ⟨100, if_pos (by decide), le_rfl, by decide⟩

/-- A round of the counting thread, above the threshold. -/
theorem alone_round {count : ℤ} {i : ℕ} {s : State 1} (hi : i < TCOUNT) (hmin : 100 ≤ count)
    (h : (machine 1 TCOUNT 0).Reachable s (alone count none ⟨i, .loop⟩)) :
    ∃ value, 100 ≤ value ∧ value ≤ INT_MAX ∧
      (machine 1 TCOUNT 0).Reachable s (alone value none ⟨i + 1, .loop⟩) := by
  obtain ⟨value, hvalue, hvalueMin, hvalueMax⟩ := addInt_alone hmin
  refine ⟨value, hvalueMin, hvalueMax, ?_⟩
  have hne : value ≠ 0 := by omega
  have hloop : incCount TCOUNT 0 0 100 none (alone count none ⟨i, .loop⟩) =
      some (none, (alone count none ⟨i, .loop⟩).setInc 0 ⟨i, .lock⟩) := by
    simp [incCount, alone, hi]
  have hload : incCount TCOUNT 0 0 100 none (alone count (some (.inc 0)) ⟨i, .load⟩) =
      some (none, (alone count (some (.inc 0)) ⟨i, .load⟩).setInc 0 ⟨i, .store value⟩) := by
    simp [incCount, alone, hvalue]
  have htest : incCount TCOUNT 0 0 100 none (alone value (some (.inc 0)) ⟨i, .test⟩) =
      some (none, (alone value (some (.inc 0)) ⟨i, .test⟩).setInc 0 ⟨i, .printUnlocking⟩) := by
    simp [incCount, alone, hne]
  have h₁ := reachable_alone h count none ⟨i, .lock⟩ hloop
  have h₂ := reachable_alone h₁ count (some (.inc 0)) ⟨i, .load⟩ rfl
  have h₃ := reachable_alone h₂ count (some (.inc 0)) ⟨i, .store value⟩ hload
  have h₄ := reachable_alone h₃ value (some (.inc 0)) ⟨i, .test⟩ rfl
  have h₅ := reachable_alone h₄ value (some (.inc 0)) ⟨i, .printUnlocking⟩ htest
  have h₆ := reachable_alone h₅ value (some (.inc 0)) ⟨i, .unlock⟩ rfl
  have h₇ := reachable_alone h₆ value none ⟨i, .sleep⟩ rfl
  exact reachable_alone h₇ value none ⟨i + 1, .loop⟩ rfl

/-- All rounds of the counting thread, above the threshold. -/
theorem alone_rounds {count : ℤ} {s : State 1} (hmin : 100 ≤ count) (hmax : count ≤ INT_MAX)
    (h : (machine 1 TCOUNT 0).Reachable s (alone count none ⟨0, .loop⟩)) (i : ℕ)
    (hi : i ≤ TCOUNT) :
    ∃ value, 100 ≤ value ∧ value ≤ INT_MAX ∧
      (machine 1 TCOUNT 0).Reachable s (alone value none ⟨i, .loop⟩) := by
  induction i with
  | zero => exact ⟨count, hmin, hmax, h⟩
  | succ i ih =>
    obtain ⟨value, hvalueMin, -, hvalue⟩ := ih (by omega)
    exact alone_round (by omega) hvalueMin hvalue

/-- The counting thread ends. -/
theorem alone_done {count : ℤ} {i : ℕ} {s : State 1} (hi : TCOUNT ≤ i)
    (h : (machine 1 TCOUNT 0).Reachable s (alone count none ⟨i, .loop⟩)) :
    (machine 1 TCOUNT 0).Reachable s (alone count none ⟨i, .done⟩) := by
  have hnot : ¬ (i : ℤ) < TCOUNT := not_lt.mpr hi
  have hloop : incCount TCOUNT 0 0 100 none (alone count none ⟨i, .loop⟩) =
      some (none, (alone count none ⟨i, .loop⟩).setInc 0 ⟨i, .done⟩) := by
    simp [incCount, alone, hnot]
  exact reachable_alone h count none ⟨i, .done⟩ hloop

/-- With as many rounds as `int` allows, `count` is not what it should be at the end; nor is it with
    a negative number of rounds. -/
theorem not_notMissed : ((0 : ℤ) ≤ 1 * INT_MAX ∧ ¬ NotMissed 1 INT_MAX 0) ∧
    ((-1 : ℤ) ≤ 1 * -1 ∧ ¬ NotMissed 1 (-1) (-1)) := by
  have hended : ∀ {count : ℤ} {owner : Option (Thread 1)} {i : ℕ},
      Ended (alone count owner ⟨i, .done⟩) := fun _ => rfl
  refine ⟨⟨by decide, fun h => ?_⟩, ⟨by decide, fun h => ?_⟩⟩
  · have hwatched : (machine 1 INT_MAX 0).Reachable (initial 1) (alone 100 none ⟨0, .loop⟩) :=
      .of_exec (M := machine 1 INT_MAX 0) (List.replicate 7 (.watch 0)) rfl
    obtain ⟨value, -, hmax, hrun⟩ := alone_rounds le_rfl (by decide) hwatched INT_MAX.toNat
      (by decide)
    have hdone := alone_done (by decide) hrun
    have hcount : value = (1 : ℕ) * INT_MAX + 100 := (h _ hdone).2 hended rfl
    omega
  · have hrun : (machine 1 (-1) (-1)).Reachable (initial 1) (alone 100 none ⟨0, .loop⟩) :=
      .of_exec (M := machine 1 (-1) (-1)) (List.replicate 7 (.watch 0)) rfl
    have hdone : (machine 1 (-1) (-1)).step (alone 100 none ⟨0, .loop⟩) (.inc 0 0 none) =
        some (none, (alone 100 none ⟨0, .loop⟩).setInc 0 ⟨0, .done⟩) := rfl
    rw [setInc_alone] at hdone
    have hcount : (100 : ℤ) = (1 : ℕ) * -1 + 100 := (h _ (hrun.step hdone)).2 hended rfl
    omega

end SyncCondVar
