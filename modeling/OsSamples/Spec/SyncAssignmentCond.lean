import Mathlib.Tactic.Common
import OsSamples.Lib.Trace
import OsSamples.Native.SyncAssignmentCond

/-!
# When 2 is printed after 1

The program remembers nowhere that 1 has been printed.  So a signal that comes before `main` waits
is lost, and after a spurious wake-up `main` prints 2 at once.  `Orderly` is the condition on a step
that rules out both.

## Key results

- `step_cases`: what a step can do, one constructor of `Step` for each kind
- `Inv.step`: the mutex, the condition variable and what has been printed, in all runs
- `Ordered.step`: which thread is where, in the runs whose steps meet the condition
- `Orderly.necessary`: a step that does not meet the condition leads to a state that is not as it
  should be
- `printed_in_order_iff`: the runs whose steps meet the condition
-/

namespace SyncAssignmentCond

variable {s s' : State} {e : Option Event} {tr : List Event} {a : Act}

/-! ## What is to hold -/

/-- 2 is never printed before 1. -/
def InOrder (tr : List Event) : Prop :=
  tr.EachAfter fun tr' e => e = .print "2\n" → .print "1\n" ∈ tr'

/-- The second thread has ended, and `main` waits for a signal. -/
def Stuck (s : State) : Prop := s.second = .ended ∧ s.main = .waiting ∧ .main ∈ s.cv.blocked

/-- What is to hold when the lines `tr` have been printed. -/
structure Good (tr : List Event) (s : State) : Prop where
  inOrder : InOrder tr
  notStuck : ¬ Stuck s

/-- The condition on a step: the second thread takes the mutex only while `main` is in
    `pthread_cond_wait`, and `main` takes the mutex there only after the second thread has released
    it. -/
def Orderly (s : State) : Act → Prop
  | .second _ => s.second = .lock → s.main = .waiting
  | .main => s.main = .waiting → s.second = .ended
  | .createFails | .spurious => True

instance (s : State) (a : Act) : Decidable (Orderly s a) := by
  cases a <;> unfold Orderly <;> infer_instance

/-! ## What a step can do -/

/-- The kinds of steps. -/
inductive Step (s : State) : Act → Option Event → State → Prop
  | create (hpc : s.main = .create) : Step s .main none { s with main := .lock, second := .sleep }
  | createFails (hpc : s.main = .create) : Step s .createFails none { s with main := .failure }
  | mainLock (hpc : s.main = .lock) (howner : s.cv.owner = none) :
      Step s .main none { s with main := .wait, cv := { s.cv with owner := some .main } }
  | wait (hpc : s.main = .wait) (howner : s.cv.owner = some .main) : Step s .main none { s with
      main := .waiting
      cv := { s.cv with owner := none, blocked := insert .main s.cv.blocked } }
  | spurious (hblocked : .main ∈ s.cv.blocked) : Step s .spurious none { s with
      cv := { s.cv with
        blocked := s.cv.blocked.erase .main
        woken := insert .main s.cv.woken } }
  | relock (hpc : s.main = .waiting) (howner : s.cv.owner = none) (hwoken : .main ∈ s.cv.woken) :
      Step s .main none { s with
        main := .print
        cv := { s.cv with owner := some .main, woken := s.cv.woken.erase .main } }
  | printTwo (hpc : s.main = .print) : Step s .main (some (.print "2\n")) { s with main := .unlock }
  | mainUnlock (hpc : s.main = .unlock) (howner : s.cv.owner = some .main) :
      Step s .main none { s with main := .join, cv := { s.cv with owner := none } }
  | join (hpc : s.main = .join) (hended : s.second = .ended) :
      Step s .main none { s with main := .returned }
  | sleep {w : Option Thread} (hpc : s.second = .sleep) :
      Step s (.second w) none { s with second := .lock }
  | secondLock {w : Option Thread} (hpc : s.second = .lock) (howner : s.cv.owner = none) :
      Step s (.second w) none
        { s with second := .print, cv := { s.cv with owner := some .second } }
  | printOne {w : Option Thread} (hpc : s.second = .print) :
      Step s (.second w) (some (.print "1\n")) { s with second := .signal }
  | signal {w : Option Thread} {cv : CondVar Thread} (hpc : s.second = .signal)
      (hsignal : s.cv.signal w = some cv) :
      Step s (.second w) none { s with second := .unlock, cv := cv }
  | secondUnlock {w : Option Thread} (hpc : s.second = .unlock)
      (howner : s.cv.owner = some .second) :
      Step s (.second w) none { s with second := .ended, cv := { s.cv with owner := none } }

/-- The steps of `main`. -/
theorem mainStep_cases (hs : mainStep s = some (e, s')) : Step s .main e s' := by
  cases hpc : s.main <;> simp only [mainStep, hpc, Option.map_eq_some_iff, Option.some.injEq,
    Option.ite_none_right_eq_some, Prod.mk.injEq, reduceCtorEq] at hs
  case create =>
    obtain ⟨rfl, rfl⟩ := hs
    exact .create hpc
  case lock =>
    obtain ⟨cv, hcv, rfl, rfl⟩ := hs
    obtain ⟨howner, rfl⟩ := CondVar.lock_cases hcv
    exact .mainLock hpc howner
  case wait =>
    -- `pthread_cond_wait` gives the mutex back and blocks
    obtain ⟨cv, hcv, rfl, rfl⟩ := hs
    obtain ⟨howner, rfl⟩ := CondVar.wait_cases hcv
    exact .wait hpc howner
  case waiting =>
    -- it returns with the mutex, after a wake-up
    obtain ⟨cv, hcv, rfl, rfl⟩ := hs
    obtain ⟨howner, hwoken, rfl⟩ := CondVar.relock_cases hcv
    exact .relock hpc howner hwoken
  case print =>
    obtain ⟨rfl, rfl⟩ := hs
    exact .printTwo hpc
  case unlock =>
    obtain ⟨cv, hcv, rfl, rfl⟩ := hs
    obtain ⟨howner, rfl⟩ := CondVar.unlock_cases hcv
    exact .mainUnlock hpc howner
  case join =>
    obtain ⟨hended, rfl, rfl⟩ := hs
    exact .join hpc hended

/-- The steps of the second thread. -/
theorem secondStep_cases {w : Option Thread} (hs : secondStep w s = some (e, s')) :
    Step s (.second w) e s' := by
  cases hpc : s.second <;> simp only [secondStep, hpc, Option.map_eq_some_iff, Option.some.injEq,
    Prod.mk.injEq, reduceCtorEq] at hs
  case sleep =>
    obtain ⟨rfl, rfl⟩ := hs
    exact .sleep hpc
  case lock =>
    obtain ⟨cv, hcv, rfl, rfl⟩ := hs
    obtain ⟨howner, rfl⟩ := CondVar.lock_cases hcv
    exact .secondLock hpc howner
  case print =>
    obtain ⟨rfl, rfl⟩ := hs
    exact .printOne hpc
  case signal =>
    obtain ⟨cv, hcv, rfl, rfl⟩ := hs
    exact .signal hpc hcv
  case unlock =>
    obtain ⟨cv, hcv, rfl, rfl⟩ := hs
    obtain ⟨howner, rfl⟩ := CondVar.unlock_cases hcv
    exact .secondUnlock hpc howner

/-- Every step is of one of the kinds. -/
theorem step_cases (hs : step s a = some (e, s')) : Step s a e s' := by
  cases a with
  | main => exact mainStep_cases hs
  | createFails =>
    simp only [step, Option.ite_none_right_eq_some, Option.some.injEq, Prod.mk.injEq] at hs
    obtain ⟨hpc, rfl, rfl⟩ := hs
    exact .createFails hpc
  | spurious =>
    simp only [step, Option.map_eq_some_iff, Prod.mk.injEq] at hs
    obtain ⟨cv, hcv, rfl, rfl⟩ := hs
    obtain ⟨hblocked, rfl⟩ := CondVar.wake_cases hcv
    exact .spurious hblocked
  | second w => exact secondStep_cases hs

/-! ## All runs -/

/-- `main` holds the mutex. -/
def MainPc.holds : MainPc → Bool
  | .wait | .print | .unlock => true
  | .create | .lock | .waiting | .join | .returned | .failure => false

/-- The second thread holds the mutex. -/
def SecondPc.holds : SecondPc → Bool
  | .print | .signal | .unlock => true
  | .notCreated | .sleep | .lock | .ended => false

/-- `main` has printed 2. -/
def MainPc.printed : MainPc → Bool
  | .unlock | .join | .returned => true
  | .create | .lock | .wait | .waiting | .print | .failure => false

/-- The second thread has printed 1. -/
def SecondPc.printed : SecondPc → Bool
  | .signal | .unlock | .ended => true
  | .notCreated | .sleep | .lock | .print => false

/-- `main` alone waits, and only in `pthread_cond_wait`. -/
def Waits (s : State) : Prop := s.cv.SoleWaiter .main (s.main = .waiting)

theorem Waits.step (h : Waits s) (hs : Step s a e s') : Waits s' := by
  cases hs with
  | create hpc | createFails hpc | mainLock hpc | printTwo hpc | mainUnlock hpc | join hpc =>
    exact h.frame rfl rfl fun hwaiting => nomatch hpc.symm.trans hwaiting
  | sleep | secondLock | printOne | secondUnlock => exact h.frame rfl rfl id
  | wait hpc => exact h.wait (by rw [hpc]; exact nofun) rfl
  | spurious hblocked => exact h.wake hblocked
  | relock hpc howner hwoken => exact h.relock hwoken
  | signal hpc hsignal => exact (h.signal hsignal).1

/-- Who holds the mutex, and whether there is a second thread. -/
structure Held (s : State) : Prop where
  main : s.cv.owner = some .main ↔ s.main.holds = true
  second : s.cv.owner = some .second ↔ s.second.holds = true
  created : s.second = .notCreated ↔ s.main = .create ∨ s.main = .failure

/-- A step that leaves the mutex alone. -/
theorem Held.frame (h : Held s) (howner : s'.cv.owner = s.cv.owner)
    (hmain : s'.main.holds = s.main.holds) (hsecond : s'.second.holds = s.second.holds)
    (hcreated : s'.second = .notCreated ↔ s'.main = .create ∨ s'.main = .failure) : Held s' :=
  ⟨by rw [howner, hmain, h.main], by rw [howner, hsecond, h.second], hcreated⟩

/-- While the mutex is free, nobody holds it. -/
theorem Held.free (h : Held s) (howner : s.cv.owner = none) :
    s.main.holds = false ∧ s.second.holds = false := by
  constructor
  · apply Bool.eq_false_of_not_eq_true
    intro hholds
    exact nomatch howner.symm.trans (h.main.mpr hholds)
  · apply Bool.eq_false_of_not_eq_true
    intro hholds
    exact nomatch howner.symm.trans (h.second.mpr hholds)

/-- One of the threads holds the mutex, and so the other one does not. -/
theorem Held.not_both (h : Held s) : ¬ (s.main.holds = true ∧ s.second.holds = true) := by
  intro hboth
  exact nomatch (h.main.mpr hboth.1).symm.trans (h.second.mpr hboth.2)

theorem Held.step (h : Held s) (hwaits : Waits s) (hs : Step s a e s') : Held s' := by
  have hcreated := h.created
  have hnotBoth := h.not_both
  cases hs with
  -- the second thread is created before it does anything
  | create hpc =>
    have hnot := hcreated.mpr (.inl hpc)
    exact h.frame rfl (by rw [hpc]; rfl) (by rw [hnot]; rfl) (by simp)
  | createFails hpc => exact h.frame rfl (by rw [hpc]; rfl) rfl (by simp [hcreated, hpc])
  | printTwo hpc => exact h.frame rfl (by rw [hpc]; rfl) rfl (by simp [hcreated, hpc])
  | join hpc => exact h.frame rfl (by rw [hpc]; rfl) rfl (by simp [hcreated, hpc])
  -- a wake-up does not touch the mutex
  | spurious => exact h.frame rfl rfl rfl hcreated
  | sleep hpc => exact h.frame rfl rfl (by rw [hpc]; rfl) (by simpa [hpc] using hcreated)
  | printOne hpc => exact h.frame rfl rfl (by rw [hpc]; rfl) (by simpa [hpc] using hcreated)
  | signal hpc hsignal =>
    have howner := (hwaits.signal hsignal).2.2
    exact h.frame howner rfl (by rw [hpc]; rfl) (by simpa [hpc] using hcreated)
  -- the mutex was free, so that the second thread does not hold it
  | mainLock hpc howner | relock hpc howner =>
    have hfree := (h.free howner).2
    exact ⟨by simp [MainPc.holds], by simp [hfree], by simp [hcreated, hpc]⟩
  -- `main` held the mutex, so that the second thread does not
  | wait hpc howner | mainUnlock hpc howner =>
    have hfree : s.second.holds = false := by
      apply Bool.eq_false_of_not_eq_true
      exact fun hholds => hnotBoth ⟨h.main.mp howner, hholds⟩
    exact ⟨by simp [MainPc.holds], by simp [hfree], by simp [hcreated, hpc]⟩
  | secondLock hpc howner =>
    have hfree := (h.free howner).1
    exact ⟨by simp [hfree], by simp [SecondPc.holds], by simpa [hpc] using hcreated⟩
  -- the second thread held the mutex, so that `main` does not
  | secondUnlock hpc howner =>
    have hfree : s.main.holds = false := by
      apply Bool.eq_false_of_not_eq_true
      exact fun hholds => hnotBoth ⟨hholds, h.second.mp howner⟩
    exact ⟨by simp [hfree], by simp [SecondPc.holds], by simpa [hpc] using hcreated⟩

/-- What has been printed. -/
structure Printed (tr : List Event) (s : State) : Prop where
  one : .print "1\n" ∈ tr ↔ s.second.printed = true
  two : .print "2\n" ∈ tr ↔ s.main.printed = true

/-- A step that prints nothing. -/
theorem Printed.frame (h : Printed tr s) (hmain : s'.main.printed = s.main.printed)
    (hsecond : s'.second.printed = s.second.printed) :
    Printed (tr ++ (none : Option Event).toList) s' := by
  rw [Option.toList_none, List.append_nil]
  exact ⟨hsecond ▸ h.one, hmain ▸ h.two⟩

theorem Printed.step (h : Printed tr s) (hheld : Held s) (hs : Step s a e s') :
    Printed (tr ++ e.toList) s' := by
  cases hs with
  | create hpc =>
    have hnot := hheld.created.mpr (.inl hpc)
    exact h.frame (by rw [hpc]; rfl) (by rw [hnot]; rfl)
  | createFails hpc | mainLock hpc | wait hpc | relock hpc | mainUnlock hpc | join hpc =>
    exact h.frame (by rw [hpc]; rfl) rfl
  | spurious => exact h.frame rfl rfl
  | sleep hpc | secondLock hpc | signal hpc | secondUnlock hpc =>
    exact h.frame rfl (by rw [hpc]; rfl)
  | printTwo hpc =>
    have hone : Event.print "1\n" ≠ .print "2\n" := by decide
    exact ⟨by simp [h.one, hone], by simp [MainPc.printed]⟩
  | printOne hpc =>
    have htwo : Event.print "2\n" ≠ .print "1\n" := by decide
    exact ⟨by simp [SecondPc.printed], by simp [h.two, htwo]⟩

/-- What holds in all runs. -/
structure Inv (tr : List Event) (s : State) : Prop where
  held : Held s
  waits : Waits s
  printed : Printed tr s

theorem Inv.step (h : Inv tr s) (hs : Step s a e s') : Inv (tr ++ e.toList) s' :=
  ⟨h.held.step h.waits hs, h.waits.step hs, h.printed.step h.held hs⟩

theorem initial_inv : Inv [] initial where
  held := ⟨by decide, by decide, by decide⟩
  waits := .init
  printed := ⟨by decide, by decide⟩

theorem run_inv (h : machine.Run initial tr s) : Inv tr s :=
  h.trace_invariant (fun _ _ _ _ _ hI hs => hI.step (step_cases hs)) initial_inv

/-! ## The runs whose steps meet the condition -/

/-- `main` has not called `pthread_cond_wait`. -/
def MainPc.before : MainPc → Bool
  | .create | .lock | .wait | .failure => true
  | .waiting | .print | .unlock | .join | .returned => false

/-- `main` has returned from `pthread_cond_wait`. -/
def MainPc.after : MainPc → Bool
  | .print | .unlock | .join | .returned => true
  | .create | .lock | .wait | .waiting | .failure => false

/-- The second thread has not taken the mutex. -/
def SecondPc.before : SecondPc → Bool
  | .notCreated | .sleep | .lock => true
  | .print | .signal | .unlock | .ended => false

/-- The second thread has sent its signal. -/
def SecondPc.signalled : SecondPc → Bool
  | .unlock | .ended => true
  | .notCreated | .sleep | .lock | .print | .signal => false

/-- The second thread has the mutex only while `main` waits, and then wakes it. -/
structure Ordered (tr : List Event) (s : State) : Prop where
  inOrder : InOrder tr
  before : s.main.before = true → s.second.before = true
  after : s.main.after = true → s.second = .ended
  signalled : s.second.signalled = true → s.cv.blocked = ∅

/-- While the second thread has the mutex, `main` waits. -/
theorem Ordered.waiting (h : Ordered tr s) (hbefore : s.second.before = false)
    (hended : s.second ≠ .ended) : s.main = .waiting := by
  have hnot : s.main.before ≠ true := by
    intro hmain
    exact nomatch hbefore.symm.trans (h.before hmain)
  have hnot' : s.main.after ≠ true := fun hmain => hended (h.after hmain)
  cases hpc : s.main <;> rw [hpc] at hnot hnot' <;> first
    | rfl
    | exact absurd rfl hnot
    | exact absurd rfl hnot'

/-- A step that prints nothing and leaves the blocked threads as they are. -/
theorem Ordered.frame (h : Ordered tr s) (hbefore : s'.main.before = true → s'.second.before = true)
    (hafter : s'.main.after = true → s'.second = .ended)
    (hsignalled : s'.second.signalled = true → s.second.signalled = true)
    (hblocked : s'.cv.blocked = s.cv.blocked) :
    Ordered (tr ++ (none : Option Event).toList) s' where
  inOrder := by
    rw [Option.toList_none, List.append_nil]
    exact h.inOrder
  before := hbefore
  after := hafter
  signalled := by
    rw [hblocked]
    exact fun hsig => h.signalled (hsignalled hsig)

theorem Ordered.step (h : Ordered tr s) (hinv : Inv tr s) (ha : Orderly s a)
    (hs : Step s a e s') : Ordered (tr ++ e.toList) s' := by
  have hbefore := h.before
  have hafter := h.after
  cases hs with
  | create hpc => exact h.frame (fun _ => rfl) nofun nofun rfl
  | createFails hpc => exact h.frame (fun _ => hbefore (by rw [hpc]; rfl)) nofun id rfl
  | mainLock hpc => exact h.frame (fun _ => hbefore (by rw [hpc]; rfl)) nofun id rfl
  | wait hpc =>
    refine ⟨by simpa using h.inOrder, nofun, nofun, fun hsig => ?_⟩
    -- the second thread has not had the mutex
    have hnot := hbefore (by rw [hpc]; rfl)
    cases hsecond : s.second <;> simp [hsecond, SecondPc.before, SecondPc.signalled] at hnot hsig
  | spurious hblocked =>
    refine ⟨by simpa using h.inOrder, hbefore, hafter, fun hsig => ?_⟩
    rw [h.signalled hsig] at hblocked
    exact nomatch hblocked
  | relock hpc => exact h.frame nofun (fun _ => ha hpc) id rfl
  | mainUnlock hpc => exact h.frame nofun (fun _ => hafter (by rw [hpc]; rfl)) id rfl
  | join hpc => exact h.frame nofun (fun _ => hafter (by rw [hpc]; rfl)) id rfl
  | printTwo hpc =>
    have hended := hafter (by rw [hpc]; rfl)
    refine ⟨List.eachAfter_snoc.mpr ⟨h.inOrder, fun _ => ?_⟩, nofun, fun _ => hended, h.signalled⟩
    exact hinv.printed.one.mpr (by rw [hended]; rfl)
  | sleep hpc =>
    refine h.frame (fun _ => rfl) (fun hmain => ?_) nofun rfl
    exact nomatch hpc.symm.trans (hafter hmain)
  | secondLock hpc =>
    have hmain : s.main = .waiting := ha hpc
    exact h.frame (by simp [hmain, MainPc.before]) (by simp [hmain, MainPc.after]) nofun rfl
  | printOne hpc =>
    have hmain := h.waiting (by rw [hpc]; rfl) (by rw [hpc]; exact nofun)
    exact ⟨List.eachAfter_snoc.mpr ⟨h.inOrder, nofun⟩, by simp [hmain, MainPc.before],
      by simp [hmain, MainPc.after], nofun⟩
  | signal hpc hsignal =>
    have hmain := h.waiting (by rw [hpc]; rfl) (by rw [hpc]; exact nofun)
    have hblocked := (hinv.waits.signal hsignal).2.1
    exact ⟨by simpa using h.inOrder, by simp [hmain, MainPc.before], by simp [hmain, MainPc.after],
      fun _ => hblocked⟩
  | secondUnlock hpc =>
    have hmain := h.waiting (by rw [hpc]; rfl) (by rw [hpc]; exact nofun)
    exact h.frame (by simp [hmain, MainPc.before]) (fun _ => rfl) (fun _ => by rw [hpc]; rfl) rfl

theorem Ordered.good (h : Ordered tr s) : Good tr s := by
  refine ⟨h.inOrder, fun hstuck => ?_⟩
  obtain ⟨hended, -, hblocked⟩ := hstuck
  rw [h.signalled (by rw [hended]; rfl)] at hblocked
  exact nomatch hblocked

theorem initial_ordered : Ordered [] initial :=
  ⟨List.eachAfter_nil, fun _ => rfl, nofun, nofun⟩

/-! ## The other steps -/

/-- Where the order is right, 2 has been printed only together with 1. -/
theorem InOrder.one_mem (h : InOrder tr) (htwo : .print "2\n" ∈ tr) : .print "1\n" ∈ tr := by
  obtain ⟨pre, post, rfl⟩ := List.append_of_mem htwo
  exact List.mem_append_left _ (h pre _ post rfl rfl)

/-- The second thread takes the mutex while `main` is not in `pthread_cond_wait`: its signal is
    lost, or 2 has been printed before. -/
theorem Inv.signal_lost (h : Inv tr s) (hpc : s.second = .lock) (howner : s.cv.owner = none)
    (hmain : s.main ≠ .waiting) : ∃ tr' s'',
      machine.Run { s with second := .print, cv := { s.cv with owner := some .second } } tr' s'' ∧
        ¬ Good (tr ++ tr') s'' := by
  have hone : .print "1\n" ∉ tr := by
    rw [h.printed.one, hpc]
    exact nofun
  have hfree := (h.held.free howner).1
  have hcreated := mt h.held.created.mpr (by rw [hpc]; exact nofun)
  have hwaits := h.waits.waiting hmain
  cases hmainPc : s.main with
  | create => exact absurd (.inl hmainPc) hcreated
  | failure => exact absurd (.inr hmainPc) hcreated
  | waiting => exact absurd hmainPc hmain
  | wait | print | unlock =>
    rw [hmainPc] at hfree
    exact nomatch hfree
  | join | returned =>
    refine ⟨[], _, .nil, fun hgood => hone ?_⟩
    rw [List.append_nil] at hgood
    exact hgood.inOrder.one_mem (h.printed.two.mpr (by rw [hmainPc]; rfl))
  | lock =>
    -- it prints, signals and releases the mutex, and then `main` takes it and waits
    obtain ⟨main, second, owner, blocked, woken⟩ := s
    obtain ⟨rfl, rfl⟩ : blocked = ∅ ∧ woken = ∅ := hwaits
    obtain rfl : main = .lock := hmainPc
    refine ⟨_, _, .of_exec (M := machine)
      [.second none, .second none, .second none, .main, .main] rfl, fun hgood => ?_⟩
    exact hgood.notStuck ⟨rfl, rfl, Finset.mem_insert_self _ _⟩

/-- `main` goes on before the second thread has printed 1. -/
theorem Inv.woken_early (h : Inv tr s) (howner : s.cv.owner = none) (hended : s.second ≠ .ended)
    (woken : Finset Thread) : ∃ tr' s'',
      machine.Run { s with main := .print, cv := { s.cv with owner := some .main, woken := woken } }
        tr' s'' ∧ ¬ Good (tr ++ tr') s'' := by
  refine ⟨_, _, .single (a := .main) rfl, fun hgood => ?_⟩
  have hone := (List.eachAfter_snoc.mp hgood.inOrder).2 rfl
  have hprinted := h.printed.one.mp hone
  have hfree := (h.held.free howner).2
  cases hpc : s.second <;> simp [hpc, SecondPc.printed, SecondPc.holds] at hprinted hfree hended

/-- Every step that does not meet the condition. -/
theorem Orderly.necessary (h : Inv tr s) (ha : ¬ Orderly s a) (hs : step s a = some (e, s')) :
    ∃ tr' s'', machine.Run s' tr' s'' ∧ ¬ Good (tr ++ e.toList ++ tr') s'' := by
  cases a with
  | createFails | spurious => exact absurd trivial ha
  | second w =>
    obtain ⟨hpc, hmain⟩ := Classical.not_imp.mp ha
    cases step_cases hs with
    | secondLock _ howner =>
      rw [Option.toList_none, List.append_nil]
      exact h.signal_lost hpc howner hmain
    | sleep hpc' | printOne hpc' | signal hpc' | secondUnlock hpc' =>
      exact nomatch hpc.symm.trans hpc'
  | main =>
    obtain ⟨hpc, hended⟩ := Classical.not_imp.mp ha
    cases step_cases hs with
    | relock _ howner =>
      rw [Option.toList_none, List.append_nil]
      exact h.woken_early howner hended _
    | create hpc' | mainLock hpc' | wait hpc' | printTwo hpc' | mainUnlock hpc' | join hpc' =>
      exact nomatch hpc.symm.trans hpc'

/-- All runs whose steps meet the condition print 1 before 2 and are never stuck, and every step
    that does not meet it leads to a state that is not as it should be. -/
theorem printed_in_order_iff (tr : List Event) (s : State) :
    ((machine.restrict Orderly).Run initial tr s → Good tr s) ∧
    (machine.Run initial tr s → ∀ a e s', machine.step s a = some (e, s') → ¬ Orderly s a →
      ∃ tr' s'', machine.Run initial (tr ++ e.toList ++ tr') s'' ∧
        ¬ Good (tr ++ e.toList ++ tr') s'') := by
  constructor
  · intro h
    have hinv : Inv tr s ∧ Ordered tr s := by
      refine h.trace_invariant (I := fun tr s => Inv tr s ∧ Ordered tr s) ?_
        ⟨initial_inv, initial_ordered⟩
      intro tr s a e s' hI hs
      obtain ⟨ha, hs⟩ := Machine.restrict_step.mp hs
      exact ⟨hI.1.step (step_cases hs), hI.2.step hI.1 ha (step_cases hs)⟩
    exact hinv.2.good
  · intro hrun a e s' hs ha
    obtain ⟨tr', s'', hrun', hnot⟩ := Orderly.necessary (run_inv hrun) ha hs
    exact ⟨tr', s'', (hrun.snoc hs).append hrun', hnot⟩

/-- A run that is as it should be; and one in which the second thread takes the mutex before `main`
    has come to it, so that not all that follows can be. -/
theorem printed_in_order_iff_runs :
    (∃ s, (machine.restrict Orderly).Run initial [.print "1\n", .print "2\n"] s ∧
      s.main = .returned ∧ Good [.print "1\n", .print "2\n"] s) ∧
    ∃ s, machine.Run initial [] s ∧ s.main = .lock ∧ s.second = .lock ∧
      ∃ tr' s'', machine.Run initial tr' s'' ∧ ¬ Good tr' s'' := by
  constructor
  · have hrun := Machine.Run.of_exec (M := machine.restrict Orderly) (s := initial)
      [.main, .second none, .main, .main, .second none, .second none, .second (some .main),
        .second none, .main, .main, .main, .main] rfl
    exact ⟨_, hrun, rfl, (printed_in_order_iff _ _).1 hrun⟩
  · have hrun := Machine.Run.of_exec (M := machine) (s := initial) [.main, .second none] rfl
    obtain ⟨tr', s'', hrun', hnot⟩ :=
      (printed_in_order_iff _ _).2 hrun (.second none) _ _ rfl (by decide)
    exact ⟨_, hrun, rfl, rfl, _, s'', hrun', hnot⟩

/-- The second thread is faster, and `main` waits for ever; or `main` is woken without a signal, and
    prints 2 first. -/
theorem not_printed_in_order : (∃ tr s, machine.Run initial tr s ∧ Stuck s) ∧
    ∃ tr s, machine.Run initial tr s ∧ ¬ InOrder tr := by
  constructor
  · exact ⟨_, _, .of_exec (M := machine) [.main, .second none, .second none, .second none,
      .second none, .second none, .main, .main] rfl, rfl, rfl, Finset.mem_insert_self _ _⟩
  · exact ⟨[.print "2\n"], _,
      .of_exec (M := machine) [.main, .main, .main, .spurious, .main, .main] rfl,
      fun h => List.not_mem_nil (h [] _ [] rfl rfl)⟩

end SyncAssignmentCond
