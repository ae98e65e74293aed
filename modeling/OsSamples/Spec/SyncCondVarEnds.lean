import OsSamples.Spec.SyncCondVar

/-!
# The counting threads and the watching thread come to their end

Each thread has a bounded number of steps to take.  A thread that holds the mutex can go on, and
when nobody holds it, every thread can that is not blocked; and the watching thread is not blocked
when the others have ended.

## Key results

- `rest_step`: a measure that every step makes smaller
- `exists_step`: some thread can go on
- `inevitable_counted`: all threads end, with the right `count`
-/

namespace SyncCondVar

open CInt Threads

variable {k : ℕ} {TCOUNT COUNT_THRESHOLD limit : ℤ} {s s' : State k} {a : Act k} {j : Fin k}
  {e : Option Event}

/-! ## The steps that are left -/

/-- How many steps are left in a round, and for the next test of the `for` loop. -/
def IncPc.rest : IncPc → ℕ
  | .lock => 12
  | .load => 11
  | .store _ => 10
  | .test => 9
  | .printThreshold => 8
  | .signal => 7
  | .printSent => 6
  | .printUnlocking => 5
  | .unlock => 4
  | .sleep => 3
  | .loop => 1
  | .done => 0

/-- How many steps are left for a counting thread. -/
def Inc.rest (TCOUNT : ℤ) (l : Inc) : ℕ :=
  match l.pc with
  | .loop => 12 * (TCOUNT.toNat - l.i) + 1
  | .done => 0
  | pc => 12 * (TCOUNT.toNat - (l.i + 1)) + pc.rest

/-- How many steps are left for the watching thread. -/
def WatchPc.rest : WatchPc → ℕ
  | .printStarting => 12
  | .lock => 11
  | .test => 10
  | .printWait => 9
  | .wait => 8
  | .waiting => 6
  | .printReceived => 5
  | .load => 4
  | .store _ => 3
  | .printNow => 2
  | .unlock => 1
  | .done => 0

/-- A measure that every step makes smaller; a wake-up is a step of its own. -/
def rest (TCOUNT : ℤ) (s : State k) : ℕ :=
  total (Inc.rest TCOUNT) s.inc + s.watch.rest + s.cv.blocked.card

/-- A counting thread goes on. -/
theorem rest_inc {l : Inc} (hinc : s'.inc = Function.update s.inc j l)
    (hwatch : s'.watch = s.watch) (hblocked : s'.cv.blocked.card ≤ s.cv.blocked.card)
    (hlt : l.rest TCOUNT < (s.inc j).rest TCOUNT) : rest TCOUNT s' < rest TCOUNT s := by
  have hupdate := total_update (Inc.rest TCOUNT) s.inc j l
  simp only [rest, hinc, hwatch]
  omega

theorem incCount_rest (hwaits : Waits s) {overflow : ℤ} {wakes : Option (Thread k)}
    (hs : incCount TCOUNT COUNT_THRESHOLD j overflow wakes s = some (e, s')) :
    rest TCOUNT s' < rest TCOUNT s := by
  rcases hl : s.inc j with ⟨i, pc⟩
  cases pc <;> simp only [incCount, hl, Option.map_eq_some_iff, Option.some.injEq, Prod.mk.injEq,
    reduceCtorEq] at hs
  case loop =>
    -- a next round, or the end of the thread
    obtain ⟨-, rfl⟩ := hs
    refine rest_inc rfl rfl le_rfl ?_
    split
    · rename_i hlt
      simp only [hl, Inc.rest, IncPc.rest]
      omega
    · simp [hl, Inc.rest]
  case lock =>
    obtain ⟨cv, hcv, -, rfl⟩ := hs
    obtain ⟨-, rfl⟩ := CondVar.lock_cases hcv
    exact rest_inc rfl rfl le_rfl (by simp [hl, Inc.rest, IncPc.rest])
  case unlock =>
    obtain ⟨cv, hcv, -, rfl⟩ := hs
    obtain ⟨-, rfl⟩ := CondVar.unlock_cases hcv
    exact rest_inc rfl rfl le_rfl (by simp [hl, Inc.rest, IncPc.rest])
  -- the signal adds no blocked thread
  case signal =>
    obtain ⟨cv, hcv, -, rfl⟩ := hs
    obtain ⟨-, hblocked, -⟩ := hwaits.signal hcv
    exact rest_inc rfl rfl (by simp [State.setInc, hblocked]) (by simp [hl, Inc.rest, IncPc.rest])
  case load =>
    obtain ⟨value, -, -, rfl⟩ := hs
    exact rest_inc rfl rfl le_rfl (by simp [hl, Inc.rest, IncPc.rest])
  case test =>
    obtain ⟨-, rfl⟩ := hs
    refine rest_inc rfl rfl le_rfl ?_
    split <;> simp [hl, Inc.rest, IncPc.rest]
  case sleep =>
    obtain ⟨-, rfl⟩ := hs
    exact rest_inc rfl rfl le_rfl (by simp [hl, Inc.rest, IncPc.rest])
  -- the other steps come nearer to the end of the round
  all_goals
    obtain ⟨-, rfl⟩ := hs
    exact rest_inc rfl rfl le_rfl (by simp [hl, Inc.rest, IncPc.rest])

theorem watchCount_rest {overflow : ℤ}
    (hs : watchCount COUNT_THRESHOLD overflow s = some (e, s')) :
    rest TCOUNT s' < rest TCOUNT s := by
  cases hpc : s.watch <;> simp only [watchCount, hpc, Option.map_eq_some_iff, Option.some.injEq,
    Prod.mk.injEq, reduceCtorEq] at hs
  case lock =>
    obtain ⟨cv, hcv, -, rfl⟩ := hs
    obtain ⟨-, rfl⟩ := CondVar.lock_cases hcv
    simp [rest, hpc, WatchPc.rest]
  case unlock =>
    obtain ⟨cv, hcv, -, rfl⟩ := hs
    obtain ⟨-, rfl⟩ := CondVar.unlock_cases hcv
    simp [rest, hpc, WatchPc.rest]
  -- the thread may be blocked afterwards, which its share allows for
  case wait =>
    obtain ⟨cv, hcv, -, rfl⟩ := hs
    obtain ⟨-, rfl⟩ := CondVar.wait_cases hcv
    have hcard := Finset.card_insert_le Thread.watch s.cv.blocked
    simp only [rest, hpc, WatchPc.rest]
    omega
  case waiting =>
    obtain ⟨cv, hcv, -, rfl⟩ := hs
    obtain ⟨-, -, rfl⟩ := CondVar.relock_cases hcv
    simp [rest, hpc, WatchPc.rest]
  case load =>
    obtain ⟨value, -, -, rfl⟩ := hs
    simp [rest, hpc, WatchPc.rest]
  case test =>
    obtain ⟨-, rfl⟩ := hs
    simp only [rest, hpc]
    split <;> simp [WatchPc.rest]
  -- the other steps come nearer to the end of the thread
  all_goals
    obtain ⟨-, rfl⟩ := hs
    simp [rest, hpc, WatchPc.rest]

theorem rest_step (hwaits : Waits s) (hs : step TCOUNT COUNT_THRESHOLD s a = some (e, s')) :
    rest TCOUNT s' < rest TCOUNT s := by
  cases a with
  | inc j overflow wakes => exact incCount_rest hwaits hs
  | watch overflow => exact watchCount_rest hs
  | spurious =>
    simp only [step, Option.map_eq_some_iff, Prod.mk.injEq] at hs
    obtain ⟨cv, hcv, -, rfl⟩ := hs
    obtain ⟨hblocked, rfl⟩ := CondVar.wake_cases hcv
    have hcard := Finset.card_erase_lt_of_mem hblocked
    simp only [rest]
    omega

/-! ## Who can go on -/

/-- A watching thread that waits is blocked, or it has been woken. -/
def Reached (s : State k) : Prop :=
  s.watch = .waiting → .watch ∈ s.cv.blocked ∨ .watch ∈ s.cv.woken

theorem Reached.step (h : Reached s) (hwaits : Waits s) (hs : Step TCOUNT COUNT_THRESHOLD s s') :
    Reached s' := by
  cases hs with
  | again | done | sleep | lock | load | store | reached | notReached | print | unlock => exact h
  | signal hpc hsignal =>
    intro hwaiting
    obtain rfl := CondVar.signal_of_subset hsignal hwaits.blocked
    right
    exact Finset.mem_union.mpr (h hwaiting).symm
  | wait hpc howner => exact fun _ => .inl (Finset.mem_insert_self _ _)
  | spurious hblocked => exact fun _ => .inr (Finset.mem_insert_self _ _)
  | watchStart | watchLock | toWait | printWait | toLoad | relock | watchLoad | watchStore
  | printNow | watchUnlock =>
    intro hwaiting
    cases hwaiting

/-- An addition has a result. -/
theorem exists_addInt (n m : ℤ) : ∃ overflow value, addInt n m overflow = some value := by
  by_cases hfits : INT_MIN ≤ n + m ∧ n + m ≤ INT_MAX
  · exact ⟨0, _, if_pos hfits⟩
  · exact ⟨0, 0, (if_neg hfits).trans (if_pos (by decide))⟩

/-- A counting thread goes on while it holds the mutex, or nobody does. -/
theorem exists_incCount (TCOUNT COUNT_THRESHOLD : ℤ) (hheld : Held s) (hdone : (s.inc j).pc ≠ .done)
    (hfree : (s.inc j).pc = .lock → s.cv.owner = none) :
    ∃ overflow wakes r, incCount TCOUNT COUNT_THRESHOLD j overflow wakes s = some r := by
  have howner : (s.inc j).pc.holds = true → s.cv.owner = some (.inc j) := fun hholds =>
    (hheld (.inc j)).mpr hholds
  rcases hl : s.inc j with ⟨i, pc⟩
  rw [hl] at hdone hfree howner
  cases pc with
  | done => exact absurd rfl hdone
  | lock => exact ⟨0, none, by simp [incCount, hl, CondVar.lock, hfree]⟩
  | load =>
    obtain ⟨overflow, value, hvalue⟩ := exists_addInt s.count 1
    exact ⟨overflow, none, by simp [incCount, hl, hvalue]⟩
  | signal =>
    obtain hempty | ⟨t, ht⟩ := s.cv.blocked.eq_empty_or_nonempty
    · exact ⟨0, none, by simp [incCount, hl, CondVar.signal, hempty]⟩
    · exact ⟨0, some t, by simp [incCount, hl, CondVar.signal, CondVar.wake, ht]⟩
  | unlock =>
    have howner := howner rfl
    exact ⟨0, none, by simp [incCount, hl, CondVar.unlock, howner]⟩
  | _ => exact ⟨0, none, by simp [incCount, hl]⟩

/-- The watching thread goes on while it holds the mutex, or nobody does, unless it is blocked. -/
theorem exists_watchCount (hheld : Held s) (hdone : s.watch ≠ .done)
    (hfree : s.watch = .lock ∨ s.watch = .waiting → s.cv.owner = none)
    (hwoken : s.watch = .waiting → .watch ∈ s.cv.woken) :
    ∃ overflow r, watchCount COUNT_THRESHOLD overflow s = some r := by
  have howner : s.watch.holds = true → s.cv.owner = some .watch := fun hholds =>
    (hheld .watch).mpr hholds
  cases hpc : s.watch <;> rw [hpc] at hdone hfree hwoken howner
  case done => exact absurd rfl hdone
  case lock => exact ⟨0, by simp [watchCount, hpc, CondVar.lock, hfree]⟩
  case wait =>
    have howner := howner rfl
    exact ⟨0, by simp [watchCount, hpc, CondVar.wait, howner]⟩
  case waiting => exact ⟨0, by simp [watchCount, hpc, CondVar.relock, hfree, hwoken]⟩
  case load =>
    obtain ⟨overflow, value, hvalue⟩ := exists_addInt s.count 100
    exact ⟨overflow, by simp [watchCount, hpc, hvalue]⟩
  case unlock =>
    have howner := howner rfl
    exact ⟨0, by simp [watchCount, hpc, CondVar.unlock, howner]⟩
  all_goals exact ⟨0, by simp [watchCount, hpc]⟩

/-- The watching thread is not blocked when the others have ended. -/
theorem Inv.woken (h : Inv TCOUNT COUNT_THRESHOLD (k * TCOUNT.toNat) s) (hreached : Reached s)
    (hthreshold : COUNT_THRESHOLD ≤ k * TCOUNT.toNat) (hended : Ended s)
    (hwaiting : s.watch = .waiting) : .watch ∈ s.cv.woken := by
  refine (hreached hwaiting).resolve_left fun hblocked => ?_
  have hcount := h.counted.count (.inl (by rw [hwaiting]; rfl))
  have hoffset : s.offset = 0 := by simp [State.offset, hwaiting, WatchPc.added]
  rw [increments_ended h.ok hended, hoffset] at hcount
  push_cast at hcount
  obtain hlt | ⟨-, j, hj⟩ := h.watched.blocked hblocked
  · omega
  · simp [hended j, IncPc.signals] at hj

/-- Some thread can go on, without a spurious wake-up. -/
theorem exists_step (h : Inv TCOUNT COUNT_THRESHOLD (k * TCOUNT.toNat) s) (hreached : Reached s)
    (hthreshold : COUNT_THRESHOLD ≤ k * TCOUNT.toNat) (hend : ¬ (Ended s ∧ s.watch = .done)) :
    ∃ a r, a ≠ .spurious ∧ step TCOUNT COUNT_THRESHOLD s a = some r := by
  have hinc : ∀ j, (s.inc j).pc ≠ .done → ((s.inc j).pc = .lock → s.cv.owner = none) →
      ∃ a r, a ≠ .spurious ∧ step TCOUNT COUNT_THRESHOLD s a = some r := by
    intro j hdone hfree
    obtain ⟨overflow, wakes, r, hr⟩ := exists_incCount TCOUNT COUNT_THRESHOLD h.held hdone hfree
    exact ⟨.inc j overflow wakes, r, by simp, hr⟩
  have hwatch : s.watch ≠ .done → (s.watch = .lock ∨ s.watch = .waiting → s.cv.owner = none) →
      (s.watch = .waiting → .watch ∈ s.cv.woken) →
      ∃ a r, a ≠ .spurious ∧ step TCOUNT COUNT_THRESHOLD s a = some r := by
    intro hdone hfree hwoken
    obtain ⟨overflow, r, hr⟩ := exists_watchCount h.held hdone hfree hwoken
    exact ⟨.watch overflow, r, by simp, hr⟩
  cases howner : s.cv.owner with
  | some t =>
    -- the thread that holds the mutex goes on
    have hholds := (h.held t).mp howner
    cases t with
    | watch =>
      have hwatchHolds : s.watch.holds = true := hholds
      refine hwatch ?_ ?_ ?_
      · rintro hpc
        simp [hpc, WatchPc.holds] at hwatchHolds
      · rintro (hpc | hpc) <;> simp [hpc, WatchPc.holds] at hwatchHolds
      · rintro hpc
        simp [hpc, WatchPc.holds] at hwatchHolds
    | inc j =>
      have hincHolds : (s.inc j).pc.holds = true := hholds
      refine hinc j ?_ ?_ <;> rintro hpc <;> simp [hpc, IncPc.holds] at hincHolds
  | none =>
    by_cases hended : Ended s
    · exact hwatch (fun hdone => hend ⟨hended, hdone⟩) (fun _ => howner)
        (h.woken hreached hthreshold hended)
    · obtain ⟨j, hj⟩ := not_forall.mp hended
      exact hinc j hj fun _ => howner

/-- When the increments reach the threshold and all sums fit into `int`, all threads end from every
    state that the program reaches, with the right `count`, whatever steps other than spurious
    wake-ups are taken; there is always one to take. -/
theorem inevitable_counted (hthreshold : COUNT_THRESHOLD ≤ k * TCOUNT.toNat)
    (hmax : k * TCOUNT.toNat + 100 ≤ INT_MAX)
    (h : (machine k TCOUNT COUNT_THRESHOLD).Reachable (initial k) s) :
    (machine k TCOUNT COUNT_THRESHOLD).Inevitable (fun _ a => a ≠ .spurious)
      (fun s => Ended s ∧ s.watch = .done ∧ s.count = k * TCOUNT.toNat + 100) s := by
  have hlimit : (k * TCOUNT.toNat : ℤ) ≤ INT_MAX := by omega
  have hstep : ∀ s a e s', (Inv TCOUNT COUNT_THRESHOLD (k * TCOUNT.toNat) s ∧ Reached s) →
      (machine k TCOUNT COUNT_THRESHOLD).step s a = some (e, s') →
      Inv TCOUNT COUNT_THRESHOLD (k * TCOUNT.toNat) s' ∧ Reached s' := by
    rintro s a e s' ⟨hinv, hreached⟩ hs
    exact ⟨hinv.step rfl hlimit (step_cases hs), hreached.step hinv.waits (step_cases hs)⟩
  have hinv := h.invariant hstep ⟨initial_inv, fun hwaiting => by simp [initial] at hwaiting⟩
  refine Machine.Inevitable.of_measure (rest TCOUNT)
    (I := fun s => Inv TCOUNT COUNT_THRESHOLD (k * TCOUNT.toNat) s ∧ Reached s) ?_ ?_ hinv
  · rintro s ⟨hinv, hreached⟩ hend
    refine exists_step hinv hreached hthreshold fun hended => hend ⟨hended.1, hended.2, ?_⟩
    have hcount := hinv.counted.count (.inr hmax)
    have hoffset : s.offset = 100 := by simp [State.offset, hended.2, WatchPc.added]
    rw [increments_ended hinv.ok hended.1, hoffset] at hcount
    push_cast at hcount
    exact hcount
  · rintro s a e s' hI - - hs
    exact ⟨hstep s a e s' hI hs, rest_step hI.1.waits hs⟩

/-- The constants of the source, from a state in which the watching thread is blocked. -/
theorem inevitable_counted_blocked : ∃ s, (machine 2 10 12).Reachable (initial 2) s ∧
    .watch ∈ s.cv.blocked ∧ (machine 2 10 12).Inevitable (fun _ a => a ≠ .spurious)
      (fun s => Ended s ∧ s.watch = .done ∧ s.count = 120) s := by
  have hreach := Machine.Reachable.of_exec (M := machine 2 10 12) (s := initial 2)
    (List.replicate 5 (.watch 0)) rfl
  exact ⟨_, hreach, Finset.mem_insert_self _ _, inevitable_counted (by decide) (by decide) hreach⟩

end SyncCondVar
