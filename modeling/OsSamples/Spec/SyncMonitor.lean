import Mathlib.Tactic.Common
import OsSamples.Native.SyncMonitor

/-!
# 1 before 2, whatever the threads do

`calculated` remembers that the calculation is done, and `GetValue` looks at it in a loop and with
the monitor.  So neither a `notify` that comes too early nor a spurious wake-up does any harm: the
second line comes after the first one and has the new value, and the program always ends.

## Key results

- `step_cases`: what a step can do, one constructor of `Step` for each kind
- `Inv.step`: the monitor, the values and the lines
- `print_run`: what has been printed
- `inevitable_returned`: the program ends
-/

namespace SyncMonitor

variable {s s' : State} {e : Option Event} {tr : List Event} {a : Act}

/-! ## What a step can do -/

/-- The kinds of steps. -/
inductive Step (s : State) : Act → Option Event → State → Prop
  | start {w : Option Thread} (hpc : s.main = .start) :
      Step s (.main w) none { s with main := .println, print := .sleep }
  | printFirst {w : Option Thread} (hpc : s.main = .println) :
      Step s (.main w) (some firstLine) { s with main := .enter }
  | mainEnter {w : Option Thread} (hpc : s.main = .enter) (howner : s.monitor.owner = none) :
      Step s (.main w) none
        { s with main := .incr, monitor := { s.monitor with owner := some .main } }
  | incr {w : Option Thread} (hpc : s.main = .incr) :
      Step s (.main w) none { s with main := .set, val := s.val + 1 }
  | set {w : Option Thread} (hpc : s.main = .set) :
      Step s (.main w) none { s with main := .notify, calculated := true }
  | notify {w : Option Thread} {m : CondVar Thread} (hpc : s.main = .notify)
      (hsignal : s.monitor.signal w = some m) :
      Step s (.main w) none { s with main := .exit, monitor := m }
  | mainExit {w : Option Thread} (hpc : s.main = .exit) (howner : s.monitor.owner = some .main) :
      Step s (.main w) none { s with main := .join, monitor := { s.monitor with owner := none } }
  | join {w : Option Thread} (hpc : s.main = .join) (hended : s.print = .ended) :
      Step s (.main w) none { s with main := .returned }
  | sleep (hpc : s.print = .sleep) : Step s .print none { s with print := .enter }
  | enter (hpc : s.print = .enter) (howner : s.monitor.owner = none) :
      Step s .print none
        { s with print := .test, monitor := { s.monitor with owner := some .print } }
  | test (hpc : s.print = .test) :
      Step s .print none { s with print := if s.calculated then .read else .wait }
  | wait (hpc : s.print = .wait) (howner : s.monitor.owner = some .print) :
      Step s .print none { s with
        print := .waiting
        monitor := { s.monitor with owner := none, blocked := insert .print s.monitor.blocked } }
  | relock (hpc : s.print = .waiting) (howner : s.monitor.owner = none)
      (hwoken : .print ∈ s.monitor.woken) :
      Step s .print none { s with
        print := .test
        monitor := { s.monitor with
          owner := some .print
          woken := s.monitor.woken.erase .print } }
  | read (hpc : s.print = .read) : Step s .print none { s with print := .exit s.val }
  | exit {v : ℤ} (hpc : s.print = .exit v) (howner : s.monitor.owner = some .print) :
      Step s .print none
        { s with print := .println v, monitor := { s.monitor with owner := none } }
  | printSecond {v : ℤ} (hpc : s.print = .println v) :
      Step s .print (some (secondLine v)) { s with print := .ended }
  | spurious (hblocked : .print ∈ s.monitor.blocked) : Step s .spurious none { s with
      monitor := { s.monitor with
        blocked := s.monitor.blocked.erase .print
        woken := insert .print s.monitor.woken } }

/-- The steps of `main`. -/
theorem mainStep_cases {w : Option Thread} (hs : mainStep w s = some (e, s')) :
    Step s (.main w) e s' := by
  cases hpc : s.main <;> simp only [mainStep, hpc, Option.map_eq_some_iff, Option.some.injEq,
    Option.ite_none_right_eq_some, Prod.mk.injEq, reduceCtorEq] at hs
  case start =>
    obtain ⟨rfl, rfl⟩ := hs
    exact .start hpc
  case println =>
    obtain ⟨rfl, rfl⟩ := hs
    exact .printFirst hpc
  -- `synchronized` takes the lock or gives no step
  case enter =>
    obtain ⟨m, hm, rfl, rfl⟩ := hs
    obtain ⟨howner, rfl⟩ := CondVar.lock_cases hm
    exact .mainEnter hpc howner
  case incr =>
    obtain ⟨rfl, rfl⟩ := hs
    exact .incr hpc
  case set =>
    obtain ⟨rfl, rfl⟩ := hs
    exact .set hpc
  case notify =>
    obtain ⟨m, hm, rfl, rfl⟩ := hs
    exact .notify hpc hm
  case exit =>
    obtain ⟨m, hm, rfl, rfl⟩ := hs
    obtain ⟨howner, rfl⟩ := CondVar.unlock_cases hm
    exact .mainExit hpc howner
  -- `join` returns when `PrintThread` has ended
  case join =>
    obtain ⟨hended, rfl, rfl⟩ := hs
    exact .join hpc hended

/-- The steps of `PrintThread`. -/
theorem printStep_cases (hs : printStep s = some (e, s')) : Step s .print e s' := by
  cases hpc : s.print <;> simp only [printStep, hpc, Option.map_eq_some_iff, Option.some.injEq,
    Prod.mk.injEq, reduceCtorEq] at hs
  case sleep =>
    obtain ⟨rfl, rfl⟩ := hs
    exact .sleep hpc
  case enter =>
    obtain ⟨m, hm, rfl, rfl⟩ := hs
    obtain ⟨howner, rfl⟩ := CondVar.lock_cases hm
    exact .enter hpc howner
  case test =>
    obtain ⟨rfl, rfl⟩ := hs
    exact .test hpc
  case wait =>
    obtain ⟨m, hm, rfl, rfl⟩ := hs
    obtain ⟨howner, rfl⟩ := CondVar.wait_cases hm
    exact .wait hpc howner
  -- after `wait` the lock is taken again
  case waiting =>
    obtain ⟨m, hm, rfl, rfl⟩ := hs
    obtain ⟨howner, hwoken, rfl⟩ := CondVar.relock_cases hm
    exact .relock hpc howner hwoken
  case read =>
    obtain ⟨rfl, rfl⟩ := hs
    exact .read hpc
  case exit v =>
    obtain ⟨m, hm, rfl, rfl⟩ := hs
    obtain ⟨howner, rfl⟩ := CondVar.unlock_cases hm
    exact .exit hpc howner
  case println v =>
    obtain ⟨rfl, rfl⟩ := hs
    exact .printSecond hpc

/-- Every step is of one of the kinds. -/
theorem step_cases (hs : machine.step s a = some (e, s')) : Step s a e s' := by
  cases a with
  | main w => exact mainStep_cases hs
  | print => exact printStep_cases hs
  | spurious =>
    simp only [machine, step, Option.map_eq_some_iff, Prod.mk.injEq] at hs
    obtain ⟨m, hm, rfl, rfl⟩ := hs
    obtain ⟨hblocked, rfl⟩ := CondVar.wake_cases hm
    exact .spurious hblocked

/-! ## Who has the monitor -/

/-- `main` is in the monitor. -/
def MainPc.holds : MainPc → Bool
  | .incr | .set | .notify | .exit => true
  | .start | .println | .enter | .join | .returned => false

/-- `PrintThread` is in the monitor. -/
def PrintPc.holds : PrintPc → Bool
  | .test | .wait | .read | .exit _ => true
  | .notStarted | .sleep | .enter | .waiting | .println _ | .ended => false

/-- Who has the monitor, and whether `PrintThread` has been started. -/
structure Held (s : State) : Prop where
  main : s.monitor.owner = some .main ↔ s.main.holds = true
  print : s.monitor.owner = some .print ↔ s.print.holds = true
  started : s.print = .notStarted ↔ s.main = .start

/-- A step that leaves the owner of the monitor alone. -/
theorem Held.frame (h : Held s) (howner : s'.monitor.owner = s.monitor.owner)
    (hmain : s'.main.holds = s.main.holds) (hprint : s'.print.holds = s.print.holds)
    (hstarted : s'.print = .notStarted ↔ s'.main = .start) : Held s' :=
  ⟨by rw [howner, hmain, h.main], by rw [howner, hprint, h.print], hstarted⟩

/-- Only one thread is in the monitor. -/
theorem Held.not_both (h : Held s) : ¬ (s.main.holds = true ∧ s.print.holds = true) := by
  intro hboth
  cases (h.main.mpr hboth.1).symm.trans (h.print.mpr hboth.2)

/-- While the other thread is in the monitor, or none is, `main` is not. -/
theorem Held.main_outside (h : Held s) (howner : s.monitor.owner ≠ some .main) :
    s.main.holds = false :=
  Bool.eq_false_of_not_eq_true (mt h.main.mpr howner)

theorem Held.print_outside (h : Held s) (howner : s.monitor.owner ≠ some .print) :
    s.print.holds = false :=
  Bool.eq_false_of_not_eq_true (mt h.print.mpr howner)

/-- `PrintThread` alone waits, and only in `wait`; it is blocked or woken then. -/
structure Waits (s : State) : Prop where
  sole : s.monitor.SoleWaiter .print (s.print = .waiting)
  queued : s.print = .waiting → .print ∈ s.monitor.blocked ∨ .print ∈ s.monitor.woken

/-- A step that leaves the queues alone. -/
theorem Waits.frame (h : Waits s) (hblocked : s'.monitor.blocked = s.monitor.blocked)
    (hwoken : s'.monitor.woken = s.monitor.woken)
    (hprint : s.print = .waiting ↔ s'.print = .waiting) : Waits s' := by
  refine ⟨h.sole.frame hblocked hwoken hprint.mp, fun hpc => ?_⟩
  rw [hblocked, hwoken]
  exact h.queued (hprint.mpr hpc)

theorem Waits.step (h : Waits s) (hheld : Held s) (hs : Step s a e s') : Waits s' := by
  cases hs with
  | start hpc =>
    have hprint := hheld.started.mpr hpc
    exact h.frame rfl rfl (by simp [hprint])
  | printFirst | mainEnter | incr | set | mainExit | join => exact h.frame rfl rfl Iff.rfl
  | sleep hpc | enter hpc | read hpc | exit hpc | printSecond hpc =>
    exact h.frame rfl rfl (by simp [hpc])
  | test hpc =>
    refine h.frame rfl rfl ?_
    cases s.calculated <;> simp [hpc]
  | wait hpc =>
    exact ⟨h.sole.wait (by simp [hpc]) rfl, fun _ => .inl (Finset.mem_insert_self _ _)⟩
  | relock hpc howner hwoken => exact ⟨h.sole.relock hwoken, by simp⟩
  | notify hpc hsignal =>
    have hblocked := CondVar.signal_of_subset hsignal h.sole.blocked
    refine ⟨(h.sole.signal hsignal).1, fun hwaiting => .inr ?_⟩
    rw [hblocked]
    exact Finset.mem_union.mpr (h.queued hwaiting).symm
  | spurious hblocked =>
    exact ⟨h.sole.wake hblocked, fun _ => .inr (Finset.mem_insert_self _ _)⟩

theorem Held.step (h : Held s) (hwaits : Waits s) (hs : Step s a e s') : Held s' := by
  have hstarted := h.started
  cases hs with
  -- `PrintThread` is started outside of its block
  | start hpc =>
    have hprint := hstarted.mpr hpc
    exact h.frame rfl (by rw [hpc]; rfl) (by rw [hprint]; rfl) (by simp)
  -- steps of `main` that leave the lock alone
  | printFirst hpc | incr hpc | set hpc | join hpc =>
    exact h.frame rfl (by rw [hpc]; rfl) rfl (by simpa [hpc] using hstarted)
  | notify hpc hsignal =>
    have howner := (hwaits.sole.signal hsignal).2.2
    exact h.frame howner (by rw [hpc]; rfl) rfl (by simpa [hpc] using hstarted)
  | spurious => exact h.frame rfl rfl rfl hstarted
  -- steps of `PrintThread` that leave the lock alone
  | sleep hpc | read hpc | printSecond hpc =>
    exact h.frame rfl rfl (by rw [hpc]; rfl) (by simpa [hpc] using hstarted)
  -- both branches of the loop are inside of the block
  | test hpc =>
    refine h.frame rfl rfl ?_ ?_
    · cases s.calculated <;> simp [hpc, PrintPc.holds]
    · cases s.calculated <;> simpa [hpc] using hstarted
  -- the lock is free, so that the other thread is outside of its block
  | mainEnter hpc howner =>
    have hout := h.print_outside (by simp [howner])
    exact ⟨by simp [MainPc.holds], by simp [hout], by simpa [hpc] using hstarted⟩
  | mainExit hpc howner =>
    have hout := h.print_outside (by simp [howner])
    exact ⟨by simp [MainPc.holds], by simp [hout], by simpa [hpc] using hstarted⟩
  | enter hpc howner | relock hpc howner =>
    have hout := h.main_outside (by simp [howner])
    exact ⟨by simp [hout], by simp [PrintPc.holds], by simpa [hpc] using hstarted⟩
  -- `wait` gives the lock back, as the end of the block does
  | wait hpc howner | exit hpc howner =>
    have hout := h.main_outside (by simp [howner])
    exact ⟨by simp [hout], by simp [PrintPc.holds], by simpa [hpc] using hstarted⟩

/-! ## The values and the lines -/

/-- `main` has set `calculated`. -/
def MainPc.calculated : MainPc → Bool
  | .notify | .exit | .join | .returned => true
  | .start | .println | .enter | .incr | .set => false

/-- `main` has called `notify`. -/
def MainPc.notified : MainPc → Bool
  | .exit | .join | .returned => true
  | .start | .println | .enter | .incr | .set | .notify => false

/-- `val`. -/
def MainPc.val : MainPc → ℤ
  | .start | .println | .enter | .incr => Value
  | .set | .notify | .exit | .join | .returned => Value + 1

/-- The lines that `main` has printed. -/
def MainPc.lines : MainPc → List Event
  | .start | .println => []
  | .enter | .incr | .set | .notify | .exit | .join | .returned => [firstLine]

/-- `PrintThread` has left the loop of `GetValue`. -/
def PrintPc.after : PrintPc → Bool
  | .read | .exit _ | .println _ | .ended => true
  | .notStarted | .sleep | .enter | .test | .wait | .waiting => false

/-- The lines that `PrintThread` has printed. -/
def PrintPc.lines : PrintPc → List Event
  | .ended => [secondLine (Value + 1)]
  | .notStarted | .sleep | .enter | .test | .wait | .waiting | .read | .exit _ | .println _ => []

/-- `PrintThread` has got this value from `GetValue`. -/
def PrintPc.Got (v : ℤ) (pc : PrintPc) : Prop := pc = .exit v ∨ pc = .println v

/-- The fields of the `Calculation`, what `PrintThread` knows of them, and the lines. -/
structure Values (tr : List Event) (s : State) : Prop where
  calculated : s.calculated = s.main.calculated
  val : s.val = s.main.val
  after : s.print.after = true → s.main.calculated = true
  got : ∀ v, s.print.Got v → v = Value + 1
  wait : s.print = .wait → s.main.calculated = false
  notified : s.main.notified = true → s.monitor.blocked = ∅
  lines : tr = s.main.lines ++ s.print.lines

theorem MainPc.val_of_calculated {pc : MainPc} (h : pc.calculated = true) : pc.val = Value + 1 := by
  cases pc <;> first | rfl | cases h

theorem MainPc.lines_of_calculated {pc : MainPc} (h : pc.calculated = true) :
    pc.lines = [firstLine] := by
  cases pc <;> first | rfl | cases h

theorem MainPc.calculated_of_notified {pc : MainPc} (h : pc.notified = true) :
    pc.calculated = true := by
  cases pc <;> first | rfl | cases h

theorem PrintPc.lines_of_not_after {pc : PrintPc} (h : pc.after = false) : pc.lines = [] := by
  cases pc <;> first | rfl | cases h

/-- A step of `PrintThread` that prints nothing. -/
theorem Values.print {print : PrintPc} {m : CondVar Thread} (h : Values tr s)
    (hafter : print.after = true → s.main.calculated = true)
    (hgot : ∀ v, print.Got v → v = Value + 1)
    (hwait : print = .wait → s.main.calculated = false)
    (hnotified : s.main.notified = true → m.blocked = ∅) (hlines : print.lines = s.print.lines) :
    Values (tr ++ (none : Option Event).toList) { s with print := print, monitor := m } :=
  ⟨h.calculated, h.val, hafter, hgot, hwait, hnotified, by
    rw [Option.toList_none, List.append_nil, hlines]
    exact h.lines⟩

theorem Values.mainStep {w : Option Thread} (h : Values tr s) (hheld : Held s) (hwaits : Waits s)
    (hs : Step s (.main w) e s') : Values (tr ++ e.toList) s' := by
  obtain ⟨hcalculated, hval, hafter, hgot, hwait, hnotified, hlines⟩ := h
  cases hs with
  -- before the start `PrintThread` has neither read nor printed anything
  | start hpc =>
    have hprint := hheld.started.mpr hpc
    rw [hpc] at hcalculated hval hlines
    rw [hprint] at hlines
    exact ⟨hcalculated, hval, by simp [PrintPc.after], by simp [PrintPc.Got], by simp,
      by simp [MainPc.notified], by rw [Option.toList_none, List.append_nil, hlines]; rfl⟩
  | printFirst hpc =>
    rw [hpc] at hcalculated hval hafter hwait hnotified hlines
    -- `PrintThread` prints only after the value has been set
    have hout : s.print.after = false := Bool.eq_false_of_not_eq_true (mt hafter (by decide))
    rw [PrintPc.lines_of_not_after hout] at hlines
    refine ⟨hcalculated, hval, hafter, hgot, hwait, hnotified, ?_⟩
    rw [hlines, PrintPc.lines_of_not_after hout]
    rfl
  | mainEnter hpc =>
    rw [hpc] at hcalculated hval hafter hwait hnotified hlines
    exact ⟨hcalculated, hval, hafter, hgot, hwait, hnotified, (List.append_nil tr).trans hlines⟩
  -- the value is changed under the lock
  | incr hpc =>
    rw [hpc] at hcalculated hval hafter hwait hnotified hlines
    exact ⟨hcalculated, by rw [hval]; rfl, hafter, hgot, hwait, hnotified,
      (List.append_nil tr).trans hlines⟩
  -- `PrintThread` is not between its test and `wait`, since it does not have the lock
  | set hpc =>
    have hnot := hheld.not_both
    rw [hpc] at hval hnotified hlines hnot
    refine ⟨rfl, hval, fun _ => rfl, hgot, fun hprint => ?_, hnotified,
      (List.append_nil tr).trans hlines⟩
    exact absurd ⟨rfl, by rw [hprint]; rfl⟩ hnot
  -- whoever waits has been woken now
  | notify hpc hsignal =>
    rw [hpc] at hcalculated hval hafter hwait hlines
    exact ⟨hcalculated, hval, hafter, hgot, hwait,
      fun _ => (hwaits.sole.signal hsignal).2.1, (List.append_nil tr).trans hlines⟩
  | mainExit hpc | join hpc =>
    rw [hpc] at hcalculated hval hafter hwait hnotified hlines
    exact ⟨hcalculated, hval, hafter, hgot, hwait, hnotified, (List.append_nil tr).trans hlines⟩

theorem Values.printStep (h : Values tr s) (hs : Step s .print e s') :
    Values (tr ++ e.toList) s' := by
  cases hs with
  | sleep hpc | enter hpc =>
    exact h.print (by simp [PrintPc.after]) (by simp [PrintPc.Got]) (by simp) h.notified
      (by rw [hpc]; rfl)
  | test hpc =>
    have hcalculated := h.calculated
    by_cases hset : s.calculated = true
    · rw [if_pos hset]
      exact h.print (fun _ => hcalculated ▸ hset) (by simp [PrintPc.Got]) (by simp)
        h.notified (by rw [hpc]; rfl)
    · rw [if_neg hset]
      exact h.print (by simp [PrintPc.after]) (by simp [PrintPc.Got])
        (fun _ => hcalculated ▸ Bool.eq_false_of_not_eq_true hset) h.notified (by rw [hpc]; rfl)
  | wait hpc =>
    -- `main` has not called `notify`, which it does later
    refine h.print (by simp [PrintPc.after]) (by simp [PrintPc.Got]) (by simp) (fun hnotified => ?_)
      (by rw [hpc]; rfl)
    have hcalculated := MainPc.calculated_of_notified hnotified
    rw [h.wait hpc] at hcalculated
    cases hcalculated
  | relock hpc =>
    exact h.print (by simp [PrintPc.after]) (by simp [PrintPc.Got]) (by simp) h.notified
      (by rw [hpc]; rfl)
  | read hpc =>
    have hcalculated := h.after (by rw [hpc]; rfl)
    refine h.print (fun _ => hcalculated) (fun v hv => ?_) (by simp) h.notified (by rw [hpc]; rfl)
    have hread : v = s.val := by simpa [PrintPc.Got, eq_comm] using hv
    rw [hread, h.val, MainPc.val_of_calculated hcalculated]
  | @exit v hpc =>
    have hcalculated := h.after (by rw [hpc]; rfl)
    refine h.print (fun _ => hcalculated) (fun v' hv => h.got v' (.inl ?_)) (by simp) h.notified
      (by rw [hpc]; rfl)
    simpa [PrintPc.Got, hpc] using hv
  | @printSecond v hpc =>
    have hcalculated := h.after (by rw [hpc]; rfl)
    have hv := h.got v (.inr hpc)
    refine ⟨h.calculated, h.val, fun _ => hcalculated, by simp [PrintPc.Got], by simp, h.notified,
      ?_⟩
    rw [h.lines, hpc, hv]
    simp [PrintPc.lines]

/-- `main` returns after `PrintThread` has ended. -/
theorem joined_step (h : s.main = .returned → s.print = .ended) (hs : Step s a e s') :
    s'.main = .returned → s'.print = .ended := by
  intro hreturned
  cases hs with
  | start | printFirst | mainEnter | incr | set | notify | mainExit => cases hreturned
  | join hpc hended => exact hended
  | sleep hpc | enter hpc | test hpc | wait hpc | relock hpc | read hpc | exit hpc =>
    have hended := h hreturned
    rw [hpc] at hended
    cases hended
  | printSecond => rfl
  | spurious => exact h hreturned

/-- What holds in all runs. -/
structure Inv (tr : List Event) (s : State) : Prop where
  held : Held s
  waits : Waits s
  values : Values tr s
  joined : s.main = .returned → s.print = .ended

theorem Inv.step (h : Inv tr s) (hs : Step s a e s') : Inv (tr ++ e.toList) s' := by
  refine ⟨h.held.step h.waits hs, h.waits.step h.held hs, ?_, joined_step h.joined hs⟩
  cases a with
  | main w => exact h.values.mainStep h.held h.waits hs
  | print => exact h.values.printStep hs
  | spurious =>
    cases hs with
    | spurious hblocked =>
      refine h.values.print h.values.after h.values.got h.values.wait (fun hnotified => ?_) rfl
      rw [h.values.notified hnotified]
      rfl

theorem initial_inv : Inv [] initial where
  held := ⟨by decide, by decide, by decide⟩
  waits := ⟨.init, by decide⟩
  values := ⟨rfl, rfl, by decide, by simp [initial, PrintPc.Got], by decide, by decide, rfl⟩
  joined := by decide

theorem run_inv (h : machine.Run initial tr s) : Inv tr s :=
  h.trace_invariant (fun _ _ _ _ _ hI hs => hI.step (step_cases hs)) initial_inv

/-- The first line comes before the second one, which has the new value, and both have been printed
    when `PrintThread` has ended, and so when `main` has returned. -/
theorem print_run (h : machine.Run initial tr s) :
    tr <+: [firstLine, secondLine (Value + 1)] ∧
      (s.print = .ended ∨ s.main = .returned → tr = [firstLine, secondLine (Value + 1)]) := by
  have hvalues := (run_inv h).values
  -- `main` has joined `PrintThread` before it returns
  have hjoined : s.print = .ended ∨ s.main = .returned → s.print = .ended := by
    rintro (hpc | hpc)
    · exact hpc
    · exact (run_inv h).joined hpc
  by_cases hended : s.print = .ended
  · have hcalculated := hvalues.after (by rw [hended]; rfl)
    have htr : tr = [firstLine, secondLine (Value + 1)] := by
      rw [hvalues.lines, hended, MainPc.lines_of_calculated hcalculated]
      rfl
    exact ⟨by rw [htr], fun _ => htr⟩
  · refine ⟨?_, fun hpc => absurd (hjoined hpc) hended⟩
    -- only the line of `main` can be there
    have hnone : s.print.lines = [] := by
      cases hpc : s.print <;> first | rfl | exact absurd hpc hended
    rw [hvalues.lines, hnone, List.append_nil]
    cases s.main <;> simp [MainPc.lines]

/-! ## The end -/

/-- The number of steps that `main` has still to take, where `notify` counts as four more since it
    gives `PrintThread` more to do. -/
def MainPc.rest : MainPc → ℕ
  | .start => 12
  | .println => 10
  | .enter => 9
  | .incr => 8
  | .set => 7
  | .notify => 6
  | .exit => 2
  | .join => 1
  | .returned => 0

/-- The number of steps that `PrintThread` has still to take before it ends or is blocked. -/
def PrintPc.rest (woken : Bool) : PrintPc → ℕ
  | .notStarted => 11
  | .sleep => 10
  | .enter => 9
  | .test => 7
  | .wait => 6
  | .waiting => if woken then 8 else 5
  | .read => 4
  | .exit _ => 3
  | .println _ => 2
  | .ended => 0

/-- The number of steps to the end, at most, without spurious wake-ups. -/
def rest (s : State) : ℕ := s.main.rest + s.print.rest (.print ∈ s.monitor.woken)

/-- Every step but a spurious wake-up is one step less to the end. -/
theorem rest_step (h : Inv tr s) (ha : a ≠ .spurious) (hs : Step s a e s') : rest s' < rest s := by
  cases hs with
  | start hpc =>
    have hprint := h.held.started.mpr hpc
    simp [rest, hpc, hprint, MainPc.rest, PrintPc.rest]
  | printFirst hpc | mainEnter hpc | incr hpc | set hpc | mainExit hpc | join hpc =>
    simp [rest, hpc, MainPc.rest]
  | @notify w m hpc hsignal =>
    have hle : ∀ woken, s.print.rest woken ≤ s.print.rest (.print ∈ s.monitor.woken) + 3 := by
      intro woken
      cases s.print <;> simp [PrintPc.rest]
      split <;> split <;> omega
    have hprint := hle (Thread.print ∈ m.woken)
    simp only [rest, hpc, MainPc.rest]
    omega
  | sleep hpc | enter hpc | read hpc | exit hpc | printSecond hpc =>
    simp [rest, hpc, PrintPc.rest]
  | test hpc =>
    cases hs : s.calculated <;> simp [rest, hpc, PrintPc.rest]
  | wait hpc =>
    have hwoken := (h.waits.sole.waiting (by simp [hpc])).2
    simp [rest, hpc, PrintPc.rest, hwoken]
  | relock hpc howner hwoken => simp [rest, hpc, PrintPc.rest, hwoken]
  | spurious => exact absurd rfl ha

/-- `PrintThread` in the monitor has a step. -/
theorem exists_step_of_holds (h : Held s) (hholds : s.print.holds = true) :
    ∃ r, machine.step s .print = some r := by
  have howner := h.print.mpr hholds
  cases hpc : s.print with
  | test | read => simp [machine, step, printStep, hpc]
  | wait => simp [machine, step, printStep, hpc, CondVar.wait, howner]
  | exit => simp [machine, step, printStep, hpc, CondVar.unlock, howner]
  | notStarted | sleep | enter | waiting | println | ended =>
    rw [hpc] at hholds
    cases hholds

/-- While `main` waits for `PrintThread`, that has a step. -/
theorem exists_step_of_join (h : Inv tr s) (hpc : s.main = .join) (hended : s.print ≠ .ended) :
    ∃ r, machine.step s .print = some r := by
  by_cases hholds : s.print.holds = true
  · exact exists_step_of_holds h.held hholds
  · have howner : s.monitor.owner = none := by
      cases howner : s.monitor.owner with
      | none => rfl
      | some t =>
        cases t with
        | main =>
          have hmain := h.held.main.mp howner
          rw [hpc] at hmain
          cases hmain
        | print => exact absurd (h.held.print.mp howner) hholds
    cases hprint : s.print with
    | notStarted =>
      have hstart := h.held.started.mp hprint
      rw [hpc] at hstart
      cases hstart
    | sleep | println => simp [machine, step, printStep, hprint]
    | enter => simp [machine, step, printStep, hprint, CondVar.lock, howner]
    | waiting =>
      -- `main` has called `notify`, after which no thread is blocked
      have hblocked := h.values.notified (by rw [hpc]; rfl)
      have hwoken : .print ∈ s.monitor.woken := by
        have hqueued := h.waits.queued hprint
        rw [hblocked] at hqueued
        exact hqueued.resolve_left (Finset.notMem_empty _)
      simp [machine, step, printStep, hprint, CondVar.relock, howner, hwoken]
    | ended => exact absurd hprint hended
    | test | wait | read | exit =>
      rw [hprint] at hholds
      exact absurd rfl hholds

/-- As long as `main` has not returned, a thread has a step. -/
theorem exists_step (h : Inv tr s) (hend : s.main ≠ .returned) :
    ∃ a r, a ≠ .spurious ∧ machine.step s a = some r := by
  have hmain : ∀ w, (∃ r, machine.step s (.main w) = some r) →
      ∃ a r, a ≠ .spurious ∧ machine.step s a = some r := fun w hw => by
    obtain ⟨r, hr⟩ := hw
    exact ⟨.main w, r, by simp, hr⟩
  cases hpc : s.main with
  | start | println | incr | set => exact hmain none (by simp [machine, step, mainStep, hpc])
  -- `main` gets the lock, or `PrintThread` has it and goes on
  | enter =>
    cases howner : s.monitor.owner with
    | none => exact hmain none (by simp [machine, step, mainStep, hpc, CondVar.lock, howner])
    | some t =>
      have hprint : t = .print := by
        cases t with
        | main =>
          have hholds := h.held.main.mp howner
          rw [hpc] at hholds
          cases hholds
        | print => rfl
      obtain ⟨r, hr⟩ := exists_step_of_holds h.held (h.held.print.mp (hprint ▸ howner))
      exact ⟨.print, r, by simp, hr⟩
  -- `notify` wakes a thread if one waits
  | notify =>
    obtain hempty | ⟨j, hj⟩ := s.monitor.blocked.eq_empty_or_nonempty
    · exact hmain none (by simp [machine, step, mainStep, hpc, CondVar.signal, hempty])
    · exact hmain (some j)
        (by simp [machine, step, mainStep, hpc, CondVar.signal, CondVar.wake, hj])
  | exit =>
    have howner := h.held.main.mpr (by rw [hpc]; rfl)
    exact hmain none (by simp [machine, step, mainStep, hpc, CondVar.unlock, howner])
  -- `main` waits for `PrintThread`, which can go on
  | join =>
    by_cases hended : s.print = .ended
    · exact hmain none (by simp [machine, step, mainStep, hpc, hended])
    · obtain ⟨r, hr⟩ := exists_step_of_join h hpc hended
      exact ⟨.print, r, by simp, hr⟩
  | returned => exact absurd hpc hend

/-- From every state that the program reaches, `main` returns after `PrintThread` has ended,
    whatever steps other than spurious wake-ups are taken; there is always one to take. -/
theorem inevitable_returned (h : machine.Reachable initial s) :
    machine.Inevitable (fun _ a => a ≠ .spurious)
      (fun s => s.main = .returned ∧ s.print = .ended) s := by
  obtain ⟨tr, hrun⟩ := h
  refine Machine.Inevitable.of_measure rest (I := fun s => ∃ tr, Inv tr s) ?_ ?_
    ⟨tr, run_inv hrun⟩
  · rintro s ⟨tr, hI⟩ hend
    exact exists_step hI fun hpc => hend ⟨hpc, hI.joined hpc⟩
  · rintro s a e s' ⟨tr, hI⟩ - ha hs
    exact ⟨⟨_, hI.step (step_cases hs)⟩, rest_step hI ha (step_cases hs)⟩

/-- `PrintThread` waits before `main` does the calculation, and is woken too early once. -/
theorem print_run_spurious : ∃ tr s, machine.Run initial tr s ∧ s.main = .returned ∧
    s.print = .ended ∧ tr = [firstLine, secondLine (Value + 1)] := by
  have hrun := Machine.Run.of_exec (M := machine) (s := initial)
    [.main none, .print, .print, .print, .print, .spurious, .print, .print, .print, .main none,
      .main none, .main none, .main none, .main (some .print), .main none, .print, .print, .print,
      .print, .print, .main none] rfl
  exact ⟨_, _, hrun, rfl, rfl, (print_run hrun).2 (.inr rfl)⟩

/-- From a state in which `PrintThread` is blocked. -/
theorem inevitable_returned_blocked : ∃ s, machine.Reachable initial s ∧
    .print ∈ s.monitor.blocked ∧ machine.Inevitable (fun _ a => a ≠ .spurious)
      (fun s => s.main = .returned ∧ s.print = .ended) s := by
  have hreach := Machine.Reachable.of_exec (M := machine) (s := initial)
    [.main none, .print, .print, .print, .print] rfl
  exact ⟨_, hreach, Finset.mem_insert_self _ _, inevitable_returned hreach⟩

end SyncMonitor
