import Mathlib.Tactic.Common
import OsSamples.Native.ProducerConsumerSimple

/-!
# The cell with a monitor: alternation and progress

`SyncInv` ties the queues of the monitor to where the threads are, and `CountInv` ties the counters
of the two loops to the flag, the cell and the console.

## Key results

- `step_of_threadStep`: what a step can do, one constructor of `Step` for each kind
- `step_syncInv`, `step_countInv`: the invariants
- `cell_alternates`: the lines alternate, and no wake-up is lost
-/

namespace ProducerConsumerSimple

open CInt

variable {q : ℤ} {i : Thread} {s s' : Shared} {l l' : Local} {e : Option ℤ}
  {loc : Thread → Local}

/-! ## What a step can do -/

/-- The value of `readerFlag` that a thread leaves behind, and for whose change it waits. -/
def Thread.flag : Thread → Bool
  | .producer => true
  | .consumer => false

/-- What a thread does after its `while` loop. -/
def Thread.body : Thread → Pc
  | .producer => .write
  | .consumer => .print

/-- The text that a thread prints for the value in the cell. -/
def Thread.text : Thread → ℤ → String
  | .producer, n => "Produce: " ++ toString n
  | .consumer, n => "Consume: " ++ toString n

theorem mustWait_eq (i : Thread) (b : Bool) : i.mustWait b = (b == i.flag) := by
  cases i <;> cases b <;> rfl

/-- The kinds of steps of thread `i`. -/
inductive Step (q : ℤ) (i : Thread) (s : Shared) (l : Local) :
    Option ℤ → Shared → Local → Prop
  | interrupt {b : Bool} (hpc : l.pc = .waiting b) :
      Step q i s l none { s with monitor := s.monitor.interrupt i } { l with pc := .waiting true }
  | next (hpc : l.pc = .loop) (hq : l.looper ≤ q) : Step q i s l none s { l with pc := .lock }
  | finish (hpc : l.pc = .loop) (hq : q < l.looper) : Step q i s l none s { l with pc := .done }
  | lock {m : Monitor Thread} (hpc : l.pc = .lock) (hm : s.monitor.enter i = some m) :
      Step q i s l none { s with monitor := m } { l with pc := .test }
  | test (hpc : l.pc = .test) :
      Step q i s l none s { l with pc := if i.mustWait s.readerFlag then .wait else i.body }
  | noWait (hpc : l.pc = .wait) (hm : s.monitor.wait i = none) :
      Step q i s l none s { l with pc := .caught .synchronizationLock }
  | wait {m : Monitor Thread} (hpc : l.pc = .wait) (hm : s.monitor.wait i = some m) :
      Step q i s l none { s with monitor := m } { l with pc := .waiting false }
  | wake {m : Monitor Thread} {b : Bool} (hpc : l.pc = .waiting b)
      (hm : s.monitor.reacquire i = some m) :
      Step q i s l none { s with monitor := m }
        { l with pc := if b then .caught .threadInterrupted else .test }
  | caught {x : WaitException} (hpc : l.pc = .caught x) :
      Step q i s l none (s.writeLine (.exception x)) { l with pc := .test }
  | write (hi : i = .producer) (hpc : l.pc = .write) :
      Step q i s l none { s with cellContents := l.looper } { l with pc := .print }
  | print (hpc : l.pc = .print) :
      Step q i s l none (s.writeLine (.text (i.text s.cellContents))) { l with pc := .setFlag }
  | setFlag (hpc : l.pc = .setFlag) :
      Step q i s l none { s with readerFlag := i.flag } { l with pc := .pulse }
  | pulse {m : Monitor Thread} (hpc : l.pc = .pulse) (hm : s.monitor.pulse i = some m) :
      Step q i s l none { s with monitor := m } { l with pc := .unlock }
  | unlockProducer {m : Monitor Thread} (hi : i = .producer) (hpc : l.pc = .unlock)
      (hm : s.monitor.exit i = some m) :
      Step q i s l none { s with monitor := m } ⟨toInt32 (l.looper + 1), .loop⟩
  | unlockConsumer {m : Monitor Thread} (hi : i = .consumer) (hpc : l.pc = .unlock)
      (hm : s.monitor.exit i = some m) :
      Step q i s l none { s with monitor := m } { l with pc := .ret }
  | ret (hi : i = .consumer) (hpc : l.pc = .ret) :
      Step q i s l (some s.cellContents) s ⟨toInt32 (l.looper + 1), .loop⟩

/-- The steps that `ReadFromCell` and `WriteToCell` share. -/
theorem step_of_waitLoop {pc' : Pc} (hs : waitLoop i i.body s l.pc = some (s', pc')) :
    Step q i s l none s' { l with pc := pc' } := by
  cases hpc : l.pc <;> simp only [hpc, waitLoop, Option.map_eq_some_iff, Option.some.injEq,
    Prod.mk.injEq, reduceCtorEq] at hs
  case lock =>
    obtain ⟨m, hm, rfl, rfl⟩ := hs
    exact .lock hpc hm
  case test =>
    obtain ⟨rfl, rfl⟩ := hs
    exact .test hpc
  case wait =>
    split at hs <;> rename_i hm <;> simp only [Option.some.injEq, Prod.mk.injEq] at hs <;>
      obtain ⟨rfl, rfl⟩ := hs
    · exact .noWait hpc hm
    · exact .wait hpc hm
  case waiting b =>
    obtain ⟨m, hm, rfl, rfl⟩ := hs
    exact .wake hpc hm
  case caught x =>
    obtain ⟨rfl, rfl⟩ := hs
    exact .caught hpc

/-- The beginning of a round of the `for` loops. -/
theorem step_of_loop (hpc : l.pc = .loop) :
    Step q i s l none s { l with pc := if l.looper ≤ q then .lock else .done } := by
  split
  · exact .next hpc ‹_›
  · exact .finish hpc (by omega)

/-- The steps of `CellProd.ThreadRun`. -/
theorem step_of_cellProd (hs : cellProd q s l = some (e, s', l')) :
    Step q .producer s l e s' l' := by
  cases hpc : l.pc <;> simp only [hpc, cellProd, writeToCell, Option.map_eq_some_iff,
    Option.some.injEq, Prod.mk.injEq, Prod.exists, reduceCtorEq, if_true, if_false] at hs
  case loop =>
    obtain ⟨rfl, rfl, rfl⟩ := hs
    exact step_of_loop hpc
  case write =>
    obtain ⟨s', pc', ⟨rfl, rfl⟩, rfl, rfl, rfl⟩ := hs
    exact .write rfl hpc
  case print =>
    obtain ⟨s', pc', ⟨rfl, rfl⟩, rfl, rfl, rfl⟩ := hs
    exact .print hpc
  case setFlag =>
    obtain ⟨s', pc', ⟨rfl, rfl⟩, rfl, rfl, rfl⟩ := hs
    exact .setFlag hpc
  case pulse =>
    obtain ⟨s', pc', ⟨m, hm, rfl, rfl⟩, rfl, rfl, rfl⟩ := hs
    exact .pulse hpc hm
  case unlock =>
    obtain ⟨s', pc', ⟨m, hm, rfl, rfl⟩, rfl, rfl, rfl⟩ := hs
    exact .unlockProducer rfl hpc hm
  -- the waiting loop is the same for both threads
  case lock | test | wait | waiting | caught | ret | done =>
    obtain ⟨s', pc', hwait, rfl, rfl, rfl⟩ := hs
    rw [← hpc] at hwait
    exact step_of_waitLoop hwait

/-- The steps of `CellCons.ThreadRun`. -/
theorem step_of_cellCons (hs : cellCons q s l = some (e, s', l')) :
    Step q .consumer s l e s' l' := by
  cases hpc : l.pc <;> simp only [hpc, cellCons, readFromCell, Option.map_eq_some_iff,
    Option.some.injEq, Prod.mk.injEq, Prod.exists] at hs
  case loop =>
    obtain ⟨rfl, rfl, rfl⟩ := hs
    exact step_of_loop hpc
  case print =>
    obtain ⟨s', pc', ⟨rfl, rfl⟩, rfl, rfl, rfl⟩ := hs
    exact .print hpc
  case setFlag =>
    obtain ⟨s', pc', ⟨rfl, rfl⟩, rfl, rfl, rfl⟩ := hs
    exact .setFlag hpc
  case pulse =>
    obtain ⟨s', pc', ⟨m, hm, rfl, rfl⟩, rfl, rfl, rfl⟩ := hs
    exact .pulse hpc hm
  case unlock =>
    obtain ⟨s', pc', ⟨m, hm, rfl, rfl⟩, rfl, rfl, rfl⟩ := hs
    exact .unlockConsumer rfl hpc hm
  -- the value is handed over outside of the monitor
  case ret =>
    obtain ⟨rfl, rfl, rfl⟩ := hs
    exact .ret rfl hpc
  case lock | test | wait | waiting | caught | write | done =>
    obtain ⟨s', pc', hwait, rfl, rfl, rfl⟩ := hs
    rw [← hpc] at hwait
    exact step_of_waitLoop hwait

/-- Every step is of one of the kinds. -/
theorem step_of_threadStep {c : Choice} (hs : threadStep q i c s l = some (e, s', l')) :
    Step q i s l e s' l' := by
  cases c with
  | interrupt =>
    simp only [threadStep] at hs
    split at hs
    · rename_i b hpc
      simp only [Option.some.injEq, Prod.mk.injEq] at hs
      obtain ⟨rfl, rfl, rfl⟩ := hs
      exact .interrupt hpc
    · exact nomatch hs
  | next =>
    cases i with
    | producer => exact step_of_cellProd hs
    | consumer => exact step_of_cellCons hs

/-! ## The monitor -/

/-- The thread owns the lock. -/
def Pc.locked : Pc → Bool
  | .test | .wait | .caught _ | .write | .print | .setFlag | .pulse | .unlock => true
  | .loop | .lock | .waiting _ | .ret | .done => false

/-- The thread is in `Monitor.Wait`. -/
def Pc.parked : Pc → Bool
  | .waiting _ => true
  | _ => false

/-- What is known of the condition of the `while` loop: it holds before `Monitor.Wait`, it does not
    after the loop, and it holds again once the flag has been set. -/
def Pc.condition : Pc → Option Bool
  | .wait | .pulse | .unlock => some true
  | .write | .print | .setFlag => some false
  | .loop | .lock | .test | .waiting _ | .caught _ | .ret | .done => none

/-- The owner and the queues of the monitor are where the threads are, and a thread waits only while
    its condition holds or the other one is about to wake it. -/
structure SyncInv (s : Shared) (loc : Thread → Local) : Prop where
  wf : s.monitor.Wf
  owner : ∀ i, s.monitor.owner = some i ↔ (loc i).pc.locked = true
  queued : ∀ i, i ∈ s.monitor.waiting ∨ i ∈ s.monitor.ready ↔ (loc i).pc.parked = true
  condition : ∀ i b, (loc i).pc.condition = some b → i.mustWait s.readerFlag = b
  waiting : ∀ i, i ∈ s.monitor.waiting →
    i.mustWait s.readerFlag = true ∨ (loc i.other).pc = .pulse

theorem Thread.other_ne (i : Thread) : i.other ≠ i := by cases i <;> decide

theorem Thread.eq_other_of_ne {i j : Thread} (h : j ≠ i) : j = i.other := by
  cases i <;> cases j <;> first | rfl | exact absurd rfl h

@[simp] theorem Thread.other_other (i : Thread) : i.other.other = i := by cases i <;> rfl

/-- Only one thread owns the lock. -/
theorem SyncInv.not_locked (h : SyncInv s loc) (hi : (loc i).pc.locked = true) {j : Thread}
    (hj : j ≠ i) : (loc j).pc.locked = false := by
  have ho := (h.owner i).mpr hi
  rw [← Bool.not_eq_true, ← h.owner j, ho]
  exact fun heq => hj (Option.some.inj heq).symm

/-- The thread outside of the queues. -/
theorem SyncInv.not_queued (h : SyncInv s loc) (hi : (loc i).pc.parked = false) :
    i ∉ s.monitor.waiting ∧ i ∉ s.monitor.ready := by
  have hq := (h.queued i).not.mpr (by simp [hi])
  exact not_or.mp hq

/-- A step of thread `i` that leaves the monitor and the flag as they are. -/
theorem SyncInv.local (h : SyncInv s loc) (hm : s'.monitor = s.monitor)
    (hf : s'.readerFlag = s.readerFlag) (hl : l'.pc.locked = (loc i).pc.locked)
    (hp : l'.pc.parked = (loc i).pc.parked)
    (hc : ∀ b, l'.pc.condition = some b → i.mustWait s.readerFlag = b)
    (hpulse : (loc i).pc ≠ .pulse) : SyncInv s' (Function.update loc i l') := by
  refine ⟨hm ▸ h.wf, fun j => ?_, fun j => ?_, fun j b hj => ?_, fun j hj => ?_⟩
  · rw [hm, h.owner j]
    -- only the thread that takes the step could have changed
    by_cases hji : j = i
    · subst hji; rw [Function.update_self, hl]
    · rw [Function.update_of_ne hji]
  · rw [hm, h.queued j]
    by_cases hji : j = i
    · subst hji; rw [Function.update_self, hp]
    · rw [Function.update_of_ne hji]
  · rw [hf]
    by_cases hji : j = i
    · subst hji
      rw [Function.update_self] at hj
      exact hc b hj
    · rw [Function.update_of_ne hji] at hj
      exact h.condition j b hj
  -- a waiting thread is still to be woken, or must still wait
  · rw [hm] at hj
    rw [hf]
    refine (h.waiting j hj).imp id fun hother => ?_
    have hne : j.other ≠ i := by
      rintro rfl
      exact hpulse hother
    rwa [Function.update_of_ne hne]

/-- The owner of the lock is not in the queues. -/
theorem SyncInv.locked_not_queued (h : SyncInv s loc) (hi : (loc i).pc.locked = true) :
    i ∉ s.monitor.waiting ∧ i ∉ s.monitor.ready :=
  h.wf.owner i ((h.owner i).mpr hi)

/-- A step of thread `i` on the monitor, under which the condition of the other thread stays. -/
theorem SyncInv.monitor (h : SyncInv s loc) {m : Monitor Thread} (hwf : m.Wf)
    (howner : m.owner = some i ↔ l'.pc.locked = true)
    (hother : m.owner = some i.other ↔ s.monitor.owner = some i.other)
    (hqueued : i ∈ m.waiting ∨ i ∈ m.ready ↔ l'.pc.parked = true)
    (hqueued' : i.other ∈ m.waiting ∨ i.other ∈ m.ready ↔
      i.other ∈ s.monitor.waiting ∨ i.other ∈ s.monitor.ready)
    (hc : ∀ b, l'.pc.condition = some b → i.mustWait s.readerFlag = b)
    (hwaiting : i ∈ m.waiting → i.mustWait s.readerFlag = true)
    (hwaiting' : i.other ∈ m.waiting → i.other ∈ s.monitor.waiting ∧ (loc i).pc ≠ .pulse) :
    SyncInv { s with monitor := m } (Function.update loc i l') := by
  refine ⟨hwf, fun j => ?_, fun j => ?_, fun j b hj => ?_, fun j hj => ?_⟩
  -- the owner of the monitor
  · by_cases hji : j = i
    · subst hji; rwa [Function.update_self]
    · obtain rfl := Thread.eq_other_of_ne hji
      rw [Function.update_of_ne hji, ← h.owner i.other]
      exact hother
  -- the queues of the monitor
  · by_cases hji : j = i
    · subst hji; rwa [Function.update_self]
    · obtain rfl := Thread.eq_other_of_ne hji
      rw [Function.update_of_ne hji, ← h.queued i.other]
      exact hqueued'
  -- the condition that a thread has tested under the lock
  · by_cases hji : j = i
    · subst hji
      rw [Function.update_self] at hj
      exact hc b hj
    · rw [Function.update_of_ne hji] at hj
      exact h.condition j b hj
  -- a waiting thread must wait, or is woken next
  · by_cases hji : j = i
    · subst hji
      exact .inl (hwaiting hj)
    · obtain rfl := Thread.eq_other_of_ne hji
      obtain ⟨hw, hpulse⟩ := hwaiting' hj
      refine (h.waiting _ hw).imp id fun hp => ?_
      rw [Thread.other_other] at hp
      exact absurd hp hpulse

/-- Something is known of the condition only under the lock. -/
theorem locked_of_condition {pc : Pc} {b : Bool} (h : pc.condition = some b) :
    pc.locked = true := by
  cases pc <;> first | rfl | exact nomatch h

/-- The end of the `lock` block. -/
theorem SyncInv.unlock (h : SyncInv s loc) {m : Monitor Thread} (hm : s.monitor.exit i = some m)
    (hl : l'.pc.locked = false) (hp : l'.pc.parked = false) (hpulse : (loc i).pc ≠ .pulse) :
    SyncInv { s with monitor := m } (Function.update loc i l') := by
  obtain ⟨ho, rfl⟩ := Monitor.exit_cases hm
  obtain ⟨hw, hr⟩ := h.wf.owner i ho
  refine h.monitor h.wf.release ?_ ?_ ?_ ?_ ?_ ?_ ?_
  · simp [hl]
  · simp [ho, i.other_ne.symm]
  · simp [hw, hr, hp]
  · rfl
  · intro b hb
    rw [locked_of_condition hb] at hl
    exact nomatch hl
  · exact fun hi => absurd hi hw
  · exact fun hi => ⟨hi, hpulse⟩

/-- The assignment to the flag, by the owner of the lock. -/
theorem SyncInv.setFlag (h : SyncInv s loc) (hpc : (loc i).pc = .setFlag) :
    SyncInv { s with readerFlag := i.flag }
      (Function.update loc i { loc i with pc := .pulse }) := by
  have howner := h.owner i
  have hlocked : (loc i).pc.locked = true := by rw [hpc]; rfl
  obtain ⟨hw, hr⟩ := h.locked_not_queued hlocked
  refine ⟨h.wf, fun j => ?_, fun j => ?_, fun j b hj => ?_, fun j hj => ?_⟩
  -- the flag is no part of what the monitor knows
  · by_cases hji : j = i
    · subst hji; rw [Function.update_self]; simpa [hpc, Pc.locked] using howner
    · rw [Function.update_of_ne hji]; exact h.owner j
  · by_cases hji : j = i
    · subst hji; rw [Function.update_self]; simp [hw, hr, Pc.parked]
    · rw [Function.update_of_ne hji]; exact h.queued j
  · by_cases hji : j = i
    · -- the thread would have to wait now, which `pulse` relies on
      subst hji
      rw [Function.update_self] at hj
      obtain rfl : true = b := Option.some.inj hj
      simp [mustWait_eq]
    · -- the other thread does not have the lock, so it is outside of the part in which it counts
      rw [Function.update_of_ne hji] at hj
      have hout := h.not_locked hlocked hji
      rw [locked_of_condition hj] at hout
      exact nomatch hout
  · -- the other thread is woken next
    have hji : j ≠ i := by
      rintro rfl
      exact hw hj
    obtain rfl := Thread.eq_other_of_ne hji
    right
    rw [Thread.other_other, Function.update_self]

/-- `Monitor.Pulse` leaves nobody in the waiting queue, as there is no third thread. -/
theorem SyncInv.pulse (h : SyncInv s loc) (hpc : (loc i).pc = .pulse) {m : Monitor Thread}
    (hm : s.monitor.pulse i = some m) :
    SyncInv { s with monitor := m } (Function.update loc i { loc i with pc := .unlock }) := by
  have hwf := h.wf.pulse hm
  have howner := h.owner i
  have ho := Monitor.pulse_owner hm
  have hcond := h.condition i true (by rw [hpc]; rfl)
  have hlocked : (loc i).pc.locked = true := by rw [hpc]; rfl
  obtain ⟨hw, hr⟩ := h.locked_not_queued hlocked
  refine h.monitor hwf ?_ ?_ ?_ ?_ ?_ ?_ ?_
  · rw [ho, howner, hlocked]
    rfl
  · rw [ho]
  · rw [Monitor.queued_pulse hm, h.queued i, hpc]
    rfl
  · exact Monitor.queued_pulse hm _
  · simp [Pc.condition, hcond]
  · exact fun _ => hcond
  · -- the one that is woken is the other thread, and `i` itself does not wait
    intro hi
    refine absurd hi (Monitor.not_mem_waiting_pulse h.wf hm fun k hk => ?_)
    apply Thread.eq_other_of_ne
    rintro rfl
    exact hw hk

/-- Every step keeps the invariant of the monitor. -/
theorem step_syncInv (h : SyncInv s loc) (hs : Step q i s (loc i) e s' l') :
    SyncInv s' (Function.update loc i l') := by
  have hne := i.other_ne
  have howner := h.owner i
  have hqueued := h.queued i
  have hcond := h.condition i
  cases hs with
  | interrupt hpc =>
    -- the thread goes from the waiting queue to the ready queue
    refine h.monitor (h.wf.interrupt i) ?_ ?_ ?_ ?_ ?_ ?_ ?_
    · simpa [hpc, Pc.locked] using howner
    · simp
    · rw [Monitor.queued_interrupt, hqueued]
      simp [hpc, Pc.parked]
    · exact Monitor.queued_interrupt ..
    · simp [Pc.condition]
    · exact fun hi => absurd rfl (Monitor.mem_waiting_interrupt h.wf hi).2
    · exact fun hi => ⟨(Monitor.mem_waiting_interrupt h.wf hi).1, by simp [hpc]⟩
  | next hpc hq =>
    refine h.local rfl rfl ?_ ?_ ?_ ?_ <;> simp [hpc, Pc.locked, Pc.parked, Pc.condition]
  | finish hpc hq =>
    refine h.local rfl rfl ?_ ?_ ?_ ?_ <;> simp [hpc, Pc.locked, Pc.parked, Pc.condition]
  | lock hpc hm =>
    -- a free lock gets an owner that is in neither queue
    obtain ⟨ho, rfl⟩ := Monitor.enter_cases hm
    obtain ⟨hw, hr⟩ := h.not_queued (i := i) (by rw [hpc]; rfl)
    refine h.monitor (h.wf.setOwner hw hr) ?_ ?_ ?_ ?_ ?_ ?_ ?_
    · simp [Pc.locked]
    · simp [ho, hne.symm]
    · simp [hw, hr, Pc.parked]
    · rfl
    · simp [Pc.condition]
    · exact fun hi => absurd hi hw
    · exact fun hi => ⟨hi, by simp [hpc]⟩
  | test hpc =>
    refine h.local rfl rfl ?_ ?_ ?_ ?_
    · simp only [hpc]
      split <;> cases i <;> rfl
    · simp only [hpc]
      split <;> cases i <;> rfl
    · -- under the lock the thread knows what its test has seen
      intro b hb
      simp only at hb
      split at hb
      · simp only [Pc.condition, Option.some.injEq] at hb
        rw [← hb]
        assumption
      · rename_i hf
        cases i <;> simp only [Thread.body, Pc.condition, Option.some.injEq] at hb <;>
          rw [← hb] <;> simpa using hf
    · simp [hpc]
  | noWait hpc hm =>
    refine h.local rfl rfl ?_ ?_ ?_ ?_ <;> simp [hpc, Pc.locked, Pc.parked, Pc.condition]
  | wait hpc hm =>
    -- the thread waits only because its condition is true
    have hwf := h.wf.wait hm
    obtain ⟨ho, rfl⟩ := Monitor.wait_cases hm
    have hwait := hcond true (by rw [hpc]; rfl)
    refine h.monitor hwf ?_ ?_ ?_ ?_ ?_ ?_ ?_
    · simp [Pc.locked]
    · simp [ho, hne.symm]
    · simp [Pc.parked]
    · simp [hne]
    · simp [Pc.condition]
    · exact fun _ => hwait
    · intro hi
      exact ⟨by simpa [hne] using hi, by simp [hpc]⟩
  | @wake m b hpc hm =>
    -- from the ready queue back to the lock; the thread tests its condition again
    have hwf := h.wf.reacquire hm
    obtain ⟨ho, hr, rfl⟩ := Monitor.reacquire_cases hm
    obtain ⟨hw, hr'⟩ := hwf.owner i rfl
    refine h.monitor hwf ?_ ?_ ?_ ?_ ?_ ?_ ?_
    · cases b <;> simp [Pc.locked]
    · simp [ho, hne.symm]
    · cases b <;> simp [hw, hr', Pc.parked]
    · simp [List.mem_erase_of_ne hne]
    · cases b <;> simp [Pc.condition]
    · exact fun hi => absurd hi hw
    · exact fun hi => ⟨hi, by simp [hpc]⟩
  | caught hpc =>
    refine h.local rfl rfl ?_ ?_ ?_ ?_ <;> simp [hpc, Pc.locked, Pc.parked, Pc.condition]
  | write hi hpc =>
    have hgo := hcond false (by rw [hpc]; rfl)
    refine h.local rfl rfl ?_ ?_ ?_ ?_ <;> simp [hpc, Pc.locked, Pc.parked, Pc.condition, hgo]
  | print hpc =>
    have hgo := hcond false (by rw [hpc]; rfl)
    refine h.local rfl rfl ?_ ?_ ?_ ?_ <;> simp [hpc, Pc.locked, Pc.parked, Pc.condition, hgo]
  | setFlag hpc => exact h.setFlag hpc
  | pulse hpc hm => exact h.pulse hpc hm
  | unlockProducer hi hpc hm => exact h.unlock hm rfl rfl (by simp [hpc])
  | unlockConsumer hi hpc hm => exact h.unlock hm rfl rfl (by simp [hpc])
  | ret hi hpc =>
    refine h.local rfl rfl ?_ ?_ ?_ ?_ <;> simp [hpc, Pc.locked, Pc.parked, Pc.condition]

/-! ## The counters -/

/-- The rounds in which the thread has set the flag. -/
def Local.items (l : Local) : ℤ :=
  match l.pc with
  | .pulse | .unlock | .ret => l.looper
  | _ => l.looper - 1

/-- The rounds in which the thread has printed its line. -/
def Local.lines (l : Local) : ℤ :=
  match l.pc with
  | .setFlag | .pulse | .unlock | .ret => l.looper
  | _ => l.looper - 1

/-- The rounds in which the producer has written to the cell. -/
def Local.written (l : Local) : ℤ :=
  match l.pc with
  | .print | .setFlag | .pulse | .unlock | .ret => l.looper
  | _ => l.looper - 1

/-- The texts on the console; exceptions are left out. -/
def Shared.texts (s : Shared) : List String :=
  s.console.filterMap fun
    | .text t => some t
    | .exception _ => none

/-- The lines of `n` rounds: `Produce: 1`, `Consume: 1`, …, `Produce: n`, `Consume: n`. -/
def rounds (n : ℕ) : List String :=
  (List.range n).flatMap fun k =>
    ["Produce: " ++ toString ((k : ℤ) + 1), "Consume: " ++ toString ((k : ℤ) + 1)]

/-- The thread is in a round of its loop. -/
def Pc.busy : Pc → Bool
  | .loop | .done => false
  | _ => true

/-- The counter of a loop from 1 to `q`. -/
structure LoopInv (q : ℤ) (l : Local) : Prop where
  pos : 1 ≤ l.looper
  le : l.looper ≤ max q 0 + 1
  busy : l.pc.busy = true → l.looper ≤ q
  done : l.pc = .done → q < l.looper

/-- The counters, the flag, the cell and the console agree. -/
structure CountInv (q : ℤ) (s : Shared) (loc : Thread → Local) : Prop where
  loop : ∀ i, LoopInv q (loc i)
  flag : (loc .producer).items = (loc .consumer).items + if s.readerFlag then 1 else 0
  contents : s.cellContents = (loc .producer).written
  texts : ∃ n : ℕ, (loc .consumer).lines = n ∧
    (((loc .producer).lines = n ∧ s.texts = rounds n) ∨
      ((loc .producer).lines = n + 1 ∧
        s.texts = rounds n ++ ["Produce: " ++ toString ((n : ℤ) + 1)]))

theorem rounds_succ (n : ℕ) : rounds (n + 1) =
    rounds n ++ ["Produce: " ++ toString ((n : ℤ) + 1)] ++
      ["Consume: " ++ toString ((n : ℤ) + 1)] := by
  simp [rounds, List.range_succ]

/-- The lines of fewer rounds come first. -/
theorem prefix_rounds {n k : ℕ} (h : n ≤ k) : rounds n <+: rounds k := by
  induction h with
  | refl => exact List.prefix_rfl
  | step _ ih =>
    rw [rounds_succ, List.append_assoc]
    exact ih.trans (List.prefix_append _ _)

/-- Outside of the lock, a thread has done all of a round or nothing of it. -/
theorem Local.lines_eq (h : l.pc.locked = false) : l.lines = l.items := by
  obtain ⟨looper, pc⟩ := l
  cases pc <;> first | rfl | exact nomatch h

theorem Local.written_eq (h : l.pc.locked = false) : l.written = l.items := by
  obtain ⟨looper, pc⟩ := l
  cases pc <;> first | rfl | exact nomatch h

/-- A step of thread `i` on its own counter. -/
theorem loopInv_update (h : ∀ j, LoopInv q (loc j)) (hl : LoopInv q l') (j : Thread) :
    LoopInv q (Function.update loc i l' j) := by
  by_cases hj : j = i
  · subst hj; rwa [Function.update_self]
  · rw [Function.update_of_ne hj]; exact h j

/-- `++looper` does not wrap around. -/
theorem LoopInv.next (h : LoopInv q l) (hq : q < INT_MAX) (hbusy : l.pc.busy = true) :
    toInt32 (l.looper + 1) = l.looper + 1 ∧ LoopInv q ⟨l.looper + 1, .loop⟩ := by
  have hpos := h.pos
  have hle := h.busy hbusy
  refine ⟨toInt32_of_range ?_ (by omega), ⟨?_, ?_, nofun, nofun⟩⟩
  · simp only [INT_MIN]
    omega
  · show 1 ≤ l.looper + 1
    omega
  · show l.looper + 1 ≤ max q 0 + 1
    omega

/-- The counter of the thread that takes a step. -/
theorem step_loopInv (hq : q < INT_MAX) (h : LoopInv q l) (hs : Step q i s l e s' l') :
    LoopInv q l' := by
  have hsame : ∀ {pc : Pc}, l.pc.busy = true → pc ≠ .done → LoopInv q { l with pc := pc } :=
    fun hb hd => ⟨h.pos, h.le, fun _ => h.busy hb, fun heq => absurd heq hd⟩
  cases hs with
  | next hpc hle => exact ⟨h.pos, h.le, fun _ => hle, nofun⟩
  | finish hpc hlt => exact ⟨h.pos, h.le, nofun, fun _ => hlt⟩
  | test hpc =>
    refine hsame (by rw [hpc]; rfl) ?_
    split
    · simp
    · cases i <;> simp [Thread.body]
  | @wake m b hpc hm =>
    refine hsame (by rw [hpc]; rfl) ?_
    cases b <;> simp
  | unlockProducer hi hpc hm =>
    obtain ⟨hnext, hinv⟩ := h.next hq (by rw [hpc]; rfl)
    rwa [hnext]
  | ret hi hpc =>
    obtain ⟨hnext, hinv⟩ := h.next hq (by rw [hpc]; rfl)
    rwa [hnext]
  | interrupt hpc | lock hpc | noWait hpc | wait hpc | caught hpc | write _ hpc | print hpc
  | setFlag hpc | pulse hpc | unlockConsumer _ hpc => exact hsame (by rw [hpc]; rfl) (by simp)

/-- A step of thread `i` that changes no count. -/
theorem CountInv.frame (h : CountInv q s loc) (hl : LoopInv q l')
    (hflag : s'.readerFlag = s.readerFlag) (hcontents : s'.cellContents = s.cellContents)
    (htexts : s'.texts = s.texts) (hitems : l'.items = (loc i).items)
    (hlines : l'.lines = (loc i).lines)
    (hwritten : i = .producer → l'.written = (loc i).written) :
    CountInv q s' (Function.update loc i l') := by
  have hsame : ∀ (f : Local → ℤ), f l' = f (loc i) →
      ∀ j, f (Function.update loc i l' j) = f (loc j) := by
    intro f hf j
    by_cases hj : j = i
    · subst hj; rwa [Function.update_self]
    · rw [Function.update_of_ne hj]
  refine ⟨loopInv_update h.loop hl, ?_, ?_, ?_⟩
  · rw [hsame Local.items hitems, hsame Local.items hitems, hflag]
    exact h.flag
  · have hwritten' : (Function.update loc i l' .producer).written = (loc .producer).written := by
      by_cases hi : i = .producer
      · subst hi
        rw [Function.update_self, hwritten rfl]
      · rw [Function.update_of_ne (Ne.symm hi)]
    rw [hwritten', hcontents]
    exact h.contents
  · rw [hsame Local.lines hlines, hsame Local.lines hlines, htexts]
    exact h.texts

/-- A new line. -/
theorem texts_writeLine (s : Shared) (t : String) :
    (s.writeLine (.text t)).texts = s.texts ++ [t] := by
  simp [Shared.texts, Shared.writeLine]

/-- What the lines say of the rounds while both threads are outside of the lock block, or before
    their lines in it. -/
theorem CountInv.texts_eq (h : CountInv q s loc)
    (hp : (loc .producer).lines = (loc .producer).items)
    (hc : (loc .consumer).lines = (loc .consumer).items) :
    ∃ n : ℕ, (loc .consumer).items = n ∧ s.texts = rounds n ++
      if s.readerFlag then ["Produce: " ++ toString ((n : ℤ) + 1)] else [] := by
  have hflag := h.flag
  obtain ⟨n, hn, ⟨hp', htexts⟩ | ⟨hp', htexts⟩⟩ := h.texts
  · have hf : s.readerFlag = false := by
      cases hf : s.readerFlag with
      | false => rfl
      | true =>
        rw [hf, if_pos rfl] at hflag
        omega
    exact ⟨n, by omega, by simp [htexts, hf]⟩
  · have hf : s.readerFlag = true := by
      cases hf : s.readerFlag with
      | true => rfl
      | false =>
        rw [hf, if_neg (by decide)] at hflag
        omega
    exact ⟨n, by omega, by simp [htexts, hf]⟩

/-- `Produce` is printed after complete rounds. -/
theorem CountInv.produce (h : CountInv q s loc) (hsync : SyncInv s loc)
    (hpc : (loc .producer).pc = .print) (hl : LoopInv q { loc .producer with pc := .setFlag }) :
    CountInv q (s.writeLine (.text (Thread.producer.text s.cellContents)))
      (Function.update loc .producer { loc .producer with pc := .setFlag }) := by
  -- the flag is down and the consumer is outside, so the rounds before are complete
  have hflag : s.readerFlag = false := hsync.condition .producer false (by rw [hpc]; rfl)
  have hout := hsync.not_locked (i := .producer) (j := .consumer) (by rw [hpc]; rfl) (by decide)
  have hlines := Local.lines_eq hout
  obtain ⟨n, hn, htexts⟩ := h.texts_eq (by simp [Local.lines, Local.items, hpc]) hlines
  have hitems := h.flag
  have hcontents := h.contents
  simp only [Local.written, hpc] at hcontents
  rw [hn, hflag, if_neg (by decide)] at hitems
  rw [hflag, if_neg (by decide)] at htexts
  simp only [Local.items, hpc] at hitems
  refine ⟨loopInv_update h.loop hl, ?_, ?_, n, ?_, .inr ⟨?_, ?_⟩⟩
  · rw [Function.update_self, Function.update_of_ne (by decide)]
    have hsame : Local.items { loc .producer with pc := .setFlag } = (loc .producer).items := by
      simp only [Local.items, hpc]
    rw [hsame]
    exact h.flag
  · simpa [Shared.writeLine, Local.written] using hcontents
  · simpa [hlines] using hn
  · simp only [Function.update_self, Local.lines]
    omega
  · rw [texts_writeLine, htexts, hcontents, List.append_nil]
    have hlooper : (loc .producer).looper = n + 1 := by omega
    rw [hlooper]
    rfl

/-- `Consume` completes a round. -/
theorem CountInv.consume (h : CountInv q s loc) (hsync : SyncInv s loc)
    (hpc : (loc .consumer).pc = .print) (hl : LoopInv q { loc .consumer with pc := .setFlag }) :
    CountInv q (s.writeLine (.text (Thread.consumer.text s.cellContents)))
      (Function.update loc .consumer { loc .consumer with pc := .setFlag }) := by
  have hflag : s.readerFlag = true := by
    simpa [Thread.mustWait] using hsync.condition .consumer false (by rw [hpc]; rfl)
  -- the producer is outside, so the cell holds the number of its last round
  have hout := hsync.not_locked (i := .consumer) (j := .producer) (by rw [hpc]; rfl) (by decide)
  have hlines := Local.lines_eq hout
  obtain ⟨n, hn, htexts⟩ := h.texts_eq hlines (by simp [Local.lines, Local.items, hpc])
  have hitems := h.flag
  have hcontents := h.contents
  rw [Local.written_eq hout, hitems, hn, hflag, if_pos rfl] at hcontents
  rw [hflag, if_pos rfl] at hitems htexts
  refine ⟨loopInv_update h.loop hl, ?_, ?_, n + 1, ?_, .inl ⟨?_, ?_⟩⟩
  · simpa [Shared.writeLine, hflag, Local.items, hpc] using hitems
  · simpa [Shared.writeLine] using h.contents
  · simp only [Local.items, hpc] at hn
    simp only [Function.update_self, Local.lines]
    omega
  · have hother : Function.update loc .consumer { loc .consumer with pc := .setFlag } .producer =
        loc .producer := Function.update_of_ne (by decide) _ _
    rw [hother, hlines, hitems, hn]
    rfl
  · rw [texts_writeLine, htexts, hcontents, rounds_succ]
    rfl

/-- The assignment to the flag ends a round of the thread. -/
theorem CountInv.setFlag (h : CountInv q s loc) (hsync : SyncInv s loc)
    (hpc : (loc i).pc = .setFlag) (hl : LoopInv q { loc i with pc := .pulse }) :
    CountInv q { s with readerFlag := i.flag }
      (Function.update loc i { loc i with pc := .pulse }) := by
  have hflag := hsync.condition i false (by rw [hpc]; rfl)
  have hitems := h.flag
  have hcontents := h.contents
  obtain ⟨n, htexts⟩ := h.texts
  refine ⟨loopInv_update h.loop hl, ?_, ?_, n, ?_⟩
  · cases i with
    | producer =>
      simp only [Thread.mustWait] at hflag
      simp only [hflag, Local.items, hpc, Bool.false_eq_true, if_false] at hitems
      simp only [Function.update_self, Function.update_of_ne, ne_eq, reduceCtorEq,
        not_false_eq_true, Local.items, Thread.flag, if_true]
      omega
    | consumer =>
      simp only [Thread.mustWait, Bool.not_eq_false'] at hflag
      simp only [hflag, Local.items, hpc, if_true] at hitems
      simp only [Function.update_self, Function.update_of_ne, ne_eq, reduceCtorEq,
        not_false_eq_true, Local.items, Thread.flag, Bool.false_eq_true, if_false]
      omega
  · cases i <;> simpa [Local.written, hpc] using hcontents
  · cases i <;> simpa [Local.lines, hpc, Shared.texts] using htexts

/-- Every step keeps the counts. -/
theorem step_countInv (hq : q < INT_MAX) (h : CountInv q s loc) (hsync : SyncInv s loc)
    (hs : Step q i s (loc i) e s' l') : CountInv q s' (Function.update loc i l') := by
  have hl := step_loopInv hq (h.loop i) hs
  cases hs with
  | write hi hpc =>
    subst hi
    obtain ⟨n, htexts⟩ := h.texts
    refine ⟨loopInv_update h.loop hl, ?_, ?_, n, ?_⟩
    · simpa [Local.items, hpc] using h.flag
    · simp [Local.written]
    · simpa [Local.lines, hpc, Shared.texts] using htexts
  -- the three steps that count
  | print hpc =>
    cases i with
    | producer => exact h.produce hsync hpc hl
    | consumer => exact h.consume hsync hpc hl
  | setFlag hpc => exact h.setFlag hsync hpc hl
  | test hpc =>
    by_cases hwait : i.mustWait s.readerFlag = true
    · rw [if_pos hwait] at hl ⊢
      refine h.frame hl rfl rfl rfl ?_ ?_ fun _ => ?_ <;>
        simp only [Local.items, Local.lines, Local.written, hpc]
    · rw [if_neg hwait] at hl ⊢
      refine h.frame hl rfl rfl rfl ?_ ?_ ?_
      · cases i <;> simp only [Thread.body, Local.items, hpc]
      · cases i <;> simp only [Thread.body, Local.lines, hpc]
      · rintro rfl
        simp only [Thread.body, Local.written, hpc]
  | @wake m b hpc hm =>
    cases b <;> refine h.frame hl rfl rfl rfl ?_ ?_ fun _ => ?_ <;>
      simp [Local.items, Local.lines, Local.written, hpc]
  | caught hpc =>
    refine h.frame hl rfl rfl ?_ ?_ ?_ fun _ => ?_ <;>
      simp [Local.items, Local.lines, Local.written, hpc, Shared.texts, Shared.writeLine]
  | unlockProducer hi hpc hm =>
    obtain ⟨hnext, -⟩ := (h.loop i).next hq (by rw [hpc]; rfl)
    rw [hnext] at hl ⊢
    refine h.frame hl rfl rfl rfl ?_ ?_ fun _ => ?_ <;>
      simp [Local.items, Local.lines, Local.written, hpc]
  | ret hi hpc =>
    obtain ⟨hnext, -⟩ := (h.loop i).next hq (by rw [hpc]; rfl)
    rw [hnext] at hl ⊢
    refine h.frame hl rfl rfl rfl ?_ ?_ fun _ => ?_ <;>
      simp [Local.items, Local.lines, Local.written, hpc]
  | interrupt hpc | next hpc | finish hpc | lock hpc | noWait hpc | wait hpc | pulse hpc
  | unlockConsumer _ hpc =>
    refine h.frame hl rfl rfl rfl ?_ ?_ fun _ => ?_ <;>
      simp only [Local.items, Local.lines, Local.written, hpc]

/-! ## Alternation and progress -/

theorem initial_syncInv : SyncInv initial.shared initial.loc := by
  refine ⟨Monitor.wf_unused, fun i => ?_, fun i => ?_, nofun, nofun⟩
  · simp [initial, Monitor.unused, Pc.locked]
  · simp [initial, Monitor.unused, Pc.parked]

theorem initial_countInv (q : ℤ) : CountInv q initial.shared initial.loc :=
  ⟨fun _ => ⟨le_refl _, by show (1 : ℤ) ≤ max q 0 + 1; omega, nofun, nofun⟩, rfl, rfl, 0, rfl,
    .inl ⟨rfl, rfl⟩⟩

/-- The invariant of the monitor holds in every reachable state. -/
theorem reachable_syncInv {cfg : Config Thread Shared Local}
    (h : (machine q).Reachable initial cfg) : SyncInv cfg.shared cfg.loc :=
  Threads.reachable_invariant (I := SyncInv)
    (fun _ _ _ _ _ _ _ hI hs => step_syncInv hI (step_of_threadStep hs)) h initial_syncInv

/-- The counts agree in every reachable state. -/
theorem reachable_countInv {cfg : Config Thread Shared Local} (hq : q < INT_MAX)
    (h : (machine q).Reachable initial cfg) :
    SyncInv cfg.shared cfg.loc ∧ CountInv q cfg.shared cfg.loc :=
  Threads.reachable_invariant (I := fun s loc => SyncInv s loc ∧ CountInv q s loc)
    (fun _ _ _ _ _ _ _ hI hs =>
      ⟨step_syncInv hI.1 (step_of_threadStep hs),
        step_countInv hq hI.2 hI.1 (step_of_threadStep hs)⟩)
    h ⟨initial_syncInv, initial_countInv q⟩

/-- The lines printed so far begin the rounds. -/
theorem CountInv.prefix_texts (h : CountInv q s loc) : s.texts <+: rounds q.toNat := by
  have hle : ∀ i, (loc i).lines ≤ max q 0 := by
    intro i
    have hl := h.loop i
    have hle := hl.le
    have hbusy := hl.busy
    cases hpc : (loc i).pc <;> simp only [hpc, Pc.busy, forall_const] at hbusy <;>
      simp only [Local.lines, hpc] <;> omega
  have hp := hle .producer
  have hc := hle .consumer
  obtain ⟨n, hn, ⟨-, htexts⟩ | ⟨hlines, htexts⟩⟩ := h.texts
  · rw [htexts]
    exact prefix_rounds (by omega)
  · rw [htexts]
    refine List.IsPrefix.trans ?_ (prefix_rounds (show n + 1 ≤ q.toNat by omega))
    rw [rounds_succ]
    exact List.prefix_append _ _

/-- A thread has not come to its end. -/
def Unfinished (cfg : Config Thread Shared Local) (i : Thread) : Prop := (cfg.loc i).pc ≠ .done

/-- A loop whose bound is the largest `int` never ends. -/
theorem reachable_done {cfg : Config Thread Shared Local}
    (h : (machine q).Reachable initial cfg) :
    ∀ i, (cfg.loc i).looper ≤ INT_MAX ∧ ((cfg.loc i).pc = .done → q < (cfg.loc i).looper) := by
  refine Threads.reachable_invariant (I := fun _ loc => ∀ i, (loc i).looper ≤ INT_MAX ∧
    ((loc i).pc = .done → q < (loc i).looper)) ?_ h ?_
  swap
  · exact fun _ => ⟨(by decide : (1 : ℤ) ≤ INT_MAX), nofun⟩
  intro i c s loc e s' l' hI hs j
  by_cases hj : j = i
  · subst hj
    rw [Function.update_self]
    obtain ⟨hle, -⟩ := hI j
    -- `++looper` yields an `int`, also where it wraps around
    cases step_of_threadStep hs with
    | finish hpc hlt => exact ⟨hle, fun _ => hlt⟩
    | unlockProducer hi hpc hm => exact ⟨toInt32_le _, nofun⟩
    | ret hi hpc => exact ⟨toInt32_le _, nofun⟩
    | test hpc =>
      refine ⟨hle, fun hd => ?_⟩
      cases j <;> cases hf : s.readerFlag <;>
        simp [hf, Thread.mustWait, Thread.body] at hd
    | @wake m b hpc hm =>
      refine ⟨hle, fun hd => ?_⟩
      cases b <;> exact nomatch hd
    | interrupt | next | lock | noWait | wait | caught | write | print | setFlag | pulse
    | unlockConsumer => exact ⟨hle, nofun⟩
  · rw [Function.update_of_ne hj]
    exact hI j

/-- A thread in the waiting queue whose partner cannot wake it next has a true condition. -/
theorem SyncInv.mustWait (h : SyncInv s loc) (hi : i ∈ s.monitor.waiting)
    (hother : (loc i.other).pc.locked = false) : i.mustWait s.readerFlag = true := by
  rcases h.waiting i hi with hw | hp
  · exact hw
  · rw [hp] at hother
    exact nomatch hother

/-- A thread that waits, the other one being at its end, has a round too many to do. -/
theorem CountInv.not_waiting (h : CountInv q s loc) (hsync : SyncInv s loc)
    (hi : i ∈ s.monitor.waiting) (hdone : (loc i.other).pc = .done) : False := by
  have hwait := hsync.mustWait hi (by rw [hdone]; rfl)
  have hparked := (hsync.queued i).mp (.inl hi)
  -- a thread that waits is in a round, and has not finished it
  have hbusy : (loc i).looper ≤ q := by
    apply (h.loop i).busy
    cases hpc : (loc i).pc <;> simp [hpc, Pc.parked] at hparked
    rfl
  have hitems : (loc i).items = (loc i).looper - 1 := by
    cases hpc : (loc i).pc <;> simp [hpc, Pc.parked] at hparked
    simp only [Local.items, hpc]
  have hitems' : (loc i.other).items = (loc i.other).looper - 1 := by
    simp only [Local.items, hdone]
  -- the other thread has done all its rounds, so the numbers of items differ by too much
  have hend := (h.loop i.other).done hdone
  have hflag := h.flag
  cases i with
  | producer =>
    simp only [Thread.mustWait] at hwait
    simp only [Thread.other] at hitems' hend
    rw [hwait, if_pos rfl] at hflag
    omega
  | consumer =>
    simp only [Thread.mustWait, Bool.not_eq_true'] at hwait
    simp only [Thread.other] at hitems' hend
    rw [hwait, if_neg (by decide)] at hflag
    omega

/-- The threads that are not at their end are not all in the waiting queue, if there are any: no
    wake-up is lost. -/
theorem not_all_waiting {cfg : Config Thread Shared Local} (h : (machine q).Reachable initial cfg) :
    ¬ ((∃ i, Unfinished cfg i) ∧ ∀ i, Unfinished cfg i → i ∈ cfg.shared.monitor.waiting) := by
  have hsync := reachable_syncInv h
  rintro ⟨⟨i, hi⟩, hall⟩
  have hwi := hall i hi
  by_cases hother : Unfinished cfg i.other
  · -- both wait, and each of them for another value of the flag
    have hwo := hall i.other hother
    have hparked : ∀ j, j ∈ cfg.shared.monitor.waiting → (cfg.loc j).pc.locked = false := by
      intro j hj
      have hp := (hsync.queued j).mp (.inl hj)
      cases hpc : (cfg.loc j).pc <;> simp [hpc, Pc.parked] at hp
      rfl
    have hi' := hsync.mustWait hwi (hparked _ hwo)
    have ho' := hsync.mustWait hwo (hparked _ (by rwa [Thread.other_other]))
    rw [mustWait_eq] at hi' ho'
    cases i <;> simp_all [Thread.other, Thread.flag]
  · -- the other one is at its end
    have hdone : (cfg.loc i.other).pc = .done := not_not.mp hother
    obtain ⟨hle, hlt⟩ := reachable_done h i.other
    have hq : q < INT_MAX := lt_of_lt_of_le (hlt hdone) hle
    exact (reachable_countInv hq h).2.not_waiting hsync hwi hdone

/-- The producer and the consumer alternate: in every reachable state, with `quantity` below the
    largest `int`, the texts on the console are the beginning of `Produce: 1`, `Consume: 1`, …,
    `Produce: q`, `Consume: q`; and with any `quantity` the threads that are not at their end are
    not all in the waiting queue, if there are any. -/
theorem cell_alternates (q : ℤ) (cfg : Config Thread Shared Local)
    (h : (machine q).Reachable initial cfg) :
    (q < INT_MAX → cfg.shared.texts <+: rounds q.toNat) ∧
      ¬ ((∃ i, Unfinished cfg i) ∧ ∀ i, Unfinished cfg i → i ∈ cfg.shared.monitor.waiting) :=
  ⟨fun hq => (reachable_countInv hq h).2.prefix_texts, not_all_waiting h⟩

/-- One item, produced and consumed, the consumer having waited for it. -/
theorem cell_alternates_one :
    ∃ cfg, (machine 1).Reachable initial cfg ∧ cfg.shared.texts <+: rounds (1 : ℤ).toNat ∧
      cfg.shared.texts = ["Produce: 1", "Consume: 1"] := by
  have hrun := Machine.Reachable.of_exec (M := machine 1) (s := initial)
    ((List.replicate 4 Thread.consumer ++ List.replicate 8 Thread.producer ++
      List.replicate 5 Thread.consumer).map fun i => (i, .next)) rfl
  exact ⟨_, hrun, (cell_alternates 1 _ hrun).1 (by decide), rfl⟩

/-! ## A loop to the largest `int` -/

/-- Both threads before a round, and nobody in the monitor. -/
def atRound (looper contents : ℤ) (console : List Line) : Config Thread Shared Local :=
  ⟨⟨.unused Thread, contents, false, console⟩, fun _ => ⟨looper, .loop⟩⟩

/-- One round, first of the producer and then of the consumer. -/
theorem round_reachable {looper : ℤ} (hq : looper ≤ q) (contents : ℤ) (console : List Line) :
    (machine q).Reachable (atRound looper contents console)
      (atRound (toInt32 (looper + 1)) looper
        (console ++
          [.text (Thread.producer.text looper), .text (Thread.consumer.text looper)])) := by
  -- the producer runs alone from the beginning of its round to the end
  have hprod : (Threads.solo (threadStep q) .producer).Run
      (⟨.unused Thread, contents, false, console⟩, ⟨looper, .loop⟩) []
      (⟨.unused Thread, looper, true, console ++ [.text (Thread.producer.text looper)]⟩,
        ⟨toInt32 (looper + 1), .loop⟩) :=
    .of_exec (List.replicate 8 .next) (by
      simp [Machine.exec, Threads.solo, threadStep, cellProd, writeToCell, waitLoop, hq,
        List.replicate, Monitor.enter, Monitor.pulse, Monitor.exit, Monitor.unused,
        Thread.mustWait, Shared.writeLine, Thread.text])
  -- then the consumer does
  have hcons : (Threads.solo (threadStep q) .consumer).Run
      (⟨.unused Thread, looper, true, console ++ [.text (Thread.producer.text looper)]⟩,
        ⟨looper, .loop⟩) [looper]
      (⟨.unused Thread, looper, false, console ++ [.text (Thread.producer.text looper)] ++
        [.text (Thread.consumer.text looper)]⟩, ⟨toInt32 (looper + 1), .loop⟩) :=
    .of_exec (List.replicate 8 .next) (by
      simp [Machine.exec, Threads.solo, threadStep, cellCons, readFromCell, waitLoop, hq,
        List.replicate, Monitor.enter, Monitor.pulse, Monitor.exit, Monitor.unused,
        Thread.mustWait, Shared.writeLine, Thread.text])
  obtain ⟨loc, hstart⟩ : ∃ loc : Thread → Local, loc = fun _ => ⟨looper, .loop⟩ := ⟨_, rfl⟩
  have hproducer : loc .producer = ⟨looper, .loop⟩ := by rw [hstart]
  have hconsumer : Function.update loc .producer ⟨toInt32 (looper + 1), .loop⟩ .consumer =
      ⟨looper, .loop⟩ := by
    rw [hstart]
    rfl
  have hrun := (Threads.run_of_solo hprod hproducer).append (Threads.run_of_solo hcons hconsumer)
  -- both have one more round behind them
  have hend : Function.update (Function.update loc .producer ⟨toInt32 (looper + 1), .loop⟩)
      Thread.consumer ⟨toInt32 (looper + 1), .loop⟩ = fun _ => ⟨toInt32 (looper + 1), .loop⟩ := by
    funext i
    cases i <;> rfl
  rw [hend, hstart, List.append_assoc] at hrun
  exact ⟨_, hrun⟩

/-- With the largest `int` as the bound there is always another round. -/
theorem rounds_reachable (n : ℕ) : ∃ looper contents console, looper ≤ INT_MAX ∧
    (machine INT_MAX).Reachable initial (atRound looper contents console) ∧
      (atRound looper contents console).shared.texts.length = 2 * n := by
  induction n with
  | zero => exact ⟨1, 0, [], by decide, .refl _, rfl⟩
  | succ n ih =>
    obtain ⟨looper, contents, console, hle, hreach, hlen⟩ := ih
    refine ⟨_, _, _, toInt32_le _, hreach.trans (round_reachable hle contents console), ?_⟩
    simp only [atRound, Shared.texts] at hlen ⊢
    rw [List.filterMap_append, List.length_append, hlen]
    simp
    omega

theorem length_rounds (n : ℕ) : (rounds n).length = 2 * n := by
  simp [rounds, List.length_flatMap]
  omega

/-- Exceptions are printed under the lock as well, and a loop to the largest `int` goes on after
    it. -/
theorem not_alternates :
    (∃ cfg, (machine 1).Reachable initial cfg ∧
      ¬ cfg.shared.console <+: (rounds 1).map Line.text) ∧
    ∃ cfg, (machine INT_MAX).Reachable initial cfg ∧
      ¬ cfg.shared.texts <+: rounds INT_MAX.toNat := by
  constructor
  · have hrun := Machine.Reachable.of_exec (M := machine 1) (s := initial)
      [(.consumer, .next), (.consumer, .next), (.consumer, .next), (.consumer, .next),
        (.consumer, .interrupt), (.consumer, .next), (.consumer, .next)] rfl
    exact ⟨_, hrun, by decide⟩
  · obtain ⟨looper, contents, console, -, hreach, hlen⟩ := rounds_reachable (INT_MAX.toNat + 1)
    refine ⟨_, hreach, fun hprefix => ?_⟩
    have hle := hprefix.length_le
    rw [hlen, length_rounds] at hle
    omega

end ProducerConsumerSimple
