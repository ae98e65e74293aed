import OsSamples.Spec.SyncWorkingThreads

/-!
# Every computation is done once

A computation that has been sent is in the queue, with one working thread, or done, and in one of
these places only; so what a thread writes to `work[w]` no other thread touches.  Every one that the
main thread sends gets done, unless `mq_receive` fails or the main thread cancels the working
threads before; it does not wait for them.

## Key results

- `Placed.step`: where the computations are
- `work_run`: the computations in every run
- `inevitable_done`: all of them are done, if no thread is cancelled
-/

namespace SyncWorkingThreads

open Threads

variable {R : Type}

/-! ## Steps -/

/-- The state of the computation that a thread has taken and not finished. -/
def Pc.stage : Pc → Option WorkState
  | .semPost | .semGetvalue | .readMax | .writeMax | .setBusy => some .idle
  | .doWork | .setDone => some .busy
  | .mqSend | .join | .cancel | .mqReceive | .semWait => none

/-- How many steps are left for a computation that a thread has taken, and for the main thread until
    it cancels the working threads. -/
def Pc.rest : Pc → ℕ
  | .mqSend => 2
  | .join => 1
  | .cancel | .mqReceive => 0
  | .semPost => 9
  | .semGetvalue => 8
  | .readMax => 7
  | .writeMax => 6
  | .setBusy => 5
  | .doWork => 4
  | .setDone => 3
  | .semWait => 2

/-- The kinds of steps of a thread, for the choice `c`. -/
inductive WorkStep {n : ℕ} (numWork : ℕ) (c : Choice R) (s : Shared R) (l : Local) :
    Option (Fin n) → Shared R → Local → Prop
  | send (hpc : l.pc = .mqSend) (hw : l.w < numWork) (hlength : s.workQueue.length < MQ_LEN) :
      WorkStep numWork c s l none { s with workQueue := s.workQueue ++ [l.w] }
        { l with w := l.w + 1 }
  | sent (hpc : l.pc = .mqSend) (hw : numWork ≤ l.w) :
      WorkStep numWork c s l none s { l with pc := .join }
  | join (hpc : l.pc = .join) : WorkStep numWork c s l none s { l with pc := .cancel }
  | cancel (hpc : l.pc = .cancel) :
      WorkStep numWork c s l none { s with cancelled := s.cancelled + 1 } l
  | exit (hpc : l.pc = .cancel) : WorkStep numWork c s l none { s with exited := true } l
  | stop {k : Fin n} (hk : k < s.cancelled) :
      WorkStep numWork c s l (some k) { s with stopped := Function.update s.stopped k true } l
  | fail {k : Fin n} (hpc : l.pc = .mqReceive) (hc : c = .fail) :
      WorkStep numWork c s l (some k) { s with exited := true } l
  | receive {k : Fin n} {w : ℕ} {workQueue : List ℕ} (hpc : l.pc = .mqReceive)
      (hqueue : s.workQueue = w :: workQueue) :
      WorkStep numWork c s l (some k) { s with workQueue := workQueue }
        { l with pc := .semPost, w := w }
  | count {k : Fin n} {s' : Shared R} {l' : Local} (hstage : l.pc.stage = some .idle)
      (hstage' : l'.pc.stage = some .idle) (hw : l'.w = l.w) (hqueue : s'.workQueue = s.workQueue)
      (hwork : s'.work = s.work) (hexited : s'.exited = s.exited)
      (hcancelled : s'.cancelled = s.cancelled) (hstopped : s'.stopped = s.stopped)
      (hrest : l'.pc.rest < l.pc.rest) : WorkStep numWork c s l (some k) s' l'
  | setBusy {k : Fin n} (hpc : l.pc = .setBusy) :
      WorkStep numWork c s l (some k) (s.setWork l.w fun x => { x with state := .busy })
        { l with pc := .doWork }
  | doWork {k : Fin n} {r : R} (hpc : l.pc = .doWork) :
      WorkStep numWork c s l (some k) (s.setWork l.w fun x => { x with result := r })
        { l with pc := .setDone }
  | setDone {k : Fin n} (hpc : l.pc = .setDone) :
      WorkStep numWork c s l (some k) (s.setWork l.w fun x => { x with state := .done })
        { l with pc := .semWait }
  | wait {k : Fin n} (hpc : l.pc = .semWait) :
      WorkStep numWork c s l (some k) { s with threadsUsed := s.threadsUsed - 1 }
        { l with pc := .mqReceive }

variable {numThreads numWork : ℕ} {i : Thread numThreads numWork} {c : Choice R}
  {s s' : Shared R} {l l' : Local} {e : Option Event} {tr : List Event}
  {loc : Thread numThreads numWork → Local} {w : ℕ}

/-- The steps of `do_all`. -/
theorem workStep_of_main {n : ℕ} (hs : mainStep numThreads numWork c s l = some (e, s', l')) :
    WorkStep (n := n) numWork c s l none s' l' := by
  cases hpc : l.pc <;> simp only [mainStep, hpc, reduceCtorEq] at hs
  case mqSend =>
    split at hs
    · rename_i hw
      obtain ⟨hlength, heq⟩ := Option.ite_none_right_eq_some.mp hs
      obtain ⟨-, rfl, rfl⟩ : none = e ∧ _ = s' ∧ _ = l' := by simpa using heq
      have hsend := WorkStep.send (n := n) (c := c) hpc hw hlength
      simpa [hpc] using hsend
    · rename_i hw
      obtain ⟨-, rfl, rfl⟩ : none = e ∧ _ = s' ∧ _ = l' := by simpa using hs
      exact .sent hpc (not_lt.mp hw)
  case join =>
    obtain ⟨-, rfl, rfl⟩ : none = e ∧ _ = s' ∧ _ = l' := by simpa using hs
    exact .join hpc
  case cancel =>
    split at hs
    · cases c <;> obtain ⟨-, rfl, rfl⟩ : none = e ∧ _ = s' ∧ _ = l' := by simpa using hs
      case fail => exact .exit hpc
      all_goals exact .cancel hpc
    · obtain ⟨-, rfl, rfl⟩ : none = e ∧ _ = s' ∧ _ = l' := by simpa using hs
      exact .exit hpc

/-- The steps of a working thread that is not cancelled. -/
theorem workStep_of_worker {n : ℕ} {k : Fin n} (hs : workingThread c s l = some (e, s', l')) :
    WorkStep numWork c s l (some k) s' l' := by
  cases hpc : l.pc <;> simp only [workingThread, hpc, reduceCtorEq, Option.some.injEq,
    Prod.mk.injEq, Option.ite_none_right_eq_some] at hs
  case mqReceive =>
    -- `mq_receive` fails, blocks, or takes the first computation
    split at hs
    · cases hs
    · obtain ⟨-, rfl, rfl⟩ := by simpa using hs
      exact .fail hpc rfl
    · cases hs
    · rename_i hqueue
      obtain ⟨-, rfl, rfl⟩ := by simpa using hs
      exact .receive hpc hqueue
  -- steps that only count the threads
  case semPost | semGetvalue | writeMax =>
    obtain ⟨-, rfl, rfl⟩ := hs
    exact .count (by rw [hpc]; rfl) rfl rfl rfl rfl rfl rfl rfl (by simp [hpc, Pc.rest])
  case readMax =>
    obtain ⟨-, rfl, rfl⟩ := hs
    exact .count (by rw [hpc]; rfl) (by dsimp only; split <;> rfl) rfl rfl rfl rfl rfl rfl
      (by dsimp only; split <;> simp [hpc, Pc.rest])
  -- the steps of a computation
  case setBusy =>
    obtain ⟨-, rfl, rfl⟩ := hs
    exact .setBusy hpc
  case setDone =>
    obtain ⟨-, rfl, rfl⟩ := hs
    exact .setDone hpc
  case doWork =>
    cases c with
    | fail | stop => cases hs
    | result r =>
      obtain ⟨-, rfl, rfl⟩ := by simpa using hs
      exact .doWork hpc
  case semWait =>
    obtain ⟨-, -, rfl, rfl⟩ := hs
    exact .wait hpc

/-- Every step of every thread is one of these. -/
theorem workStep_cases (hs : step i c s l = some (e, s', l')) :
    WorkStep numWork c s l i s' l' := by
  unfold step at hs
  split at hs
  · cases hs
  cases i with
  | none => exact workStep_of_main hs
  | some k =>
    obtain ⟨-, hs⟩ := Option.ite_none_left_eq_some.mp hs
    cases c with
    | stop =>
      obtain ⟨⟨hk, -⟩, heq⟩ := Option.ite_none_right_eq_some.mp hs
      obtain ⟨-, rfl, rfl⟩ : none = e ∧ _ = s' ∧ l = l' := by simpa using heq
      exact .stop hk
    | fail | result => exact workStep_of_worker hs

/-! ## Where the computations are -/

/-- The thread has taken the computation `w` and has not finished it. -/
def Local.holds (w : ℕ) (l : Local) : ℕ := if l.pc.stage.isSome ∧ l.w = w then 1 else 0

/-- Whether the computation `w` is done. -/
def Shared.finished (s : Shared R) (w : ℕ) : ℕ := if (s.work w).state = .done then 1 else 0

/-- A computation that has been sent is in one place, and `work` tells in which one. -/
structure Placed (s : Shared R) (loc : Thread numThreads numWork → Local) : Prop where
  place : ∀ w, s.workQueue.count w + total (Local.holds w) loc + s.finished w =
    if w < (loc none).w then 1 else 0
  stage : ∀ i st, (loc i).pc.stage = some st → (s.work (loc i).w).state = st
  idle : ∀ w, w ∈ s.workQueue ∨ (loc none).w ≤ w → (s.work w).state = .idle
  main : (loc none).pc.ofMain = true ∧ (loc none).w ≤ numWork
  sent : (loc none).pc ≠ .mqSend → numWork ≤ (loc none).w
  worker : ∀ k : Fin (workers numThreads numWork), (loc (some k)).pc.ofMain = false

/-- What a thread has taken is with no other thread, nor in the queue, nor done. -/
theorem Placed.alone (h : Placed s loc) {st : WorkState} (hi : (loc i).pc.stage = some st) :
    s.workQueue.count (loc i).w = 0 ∧ (∀ j ≠ i, (loc j).holds (loc i).w = 0) ∧
      s.finished (loc i).w = 0 ∧ (loc i).w < (loc none).w := by
  have hplace := h.place (loc i).w
  have hone : (loc i).holds (loc i).w = 1 := by simp [Local.holds, hi]
  have hle := le_total (Local.holds (loc i).w) loc i
  have hlt : (loc i).w < (loc none).w := by
    by_contra hge
    rw [if_neg hge] at hplace
    omega
  rw [if_pos hlt] at hplace
  refine ⟨by omega, fun j hj => ?_, by omega, hlt⟩
  -- without the thread `i` no other one has it
  have hupdate := total_update (Local.holds (loc i).w) loc i ⟨.mqReceive, 0, 0⟩
  have hzero : Local.holds (loc i).w ⟨.mqReceive, 0, 0⟩ = 0 := by simp [Local.holds, Pc.stage]
  have hother := le_total (Local.holds (loc i).w) (Function.update loc i ⟨.mqReceive, 0, 0⟩) j
  rw [Function.update_of_ne hj] at hother
  omega

/-- Nobody else has to do with a computation that a thread has taken. -/
theorem Placed.ne_of_holds (h : Placed s loc) {st : WorkState} (hi : (loc i).pc.stage = some st)
    {j : Thread numThreads numWork} (hj : j ≠ i) {st' : WorkState}
    (hstage : (loc j).pc.stage = some st') : (loc j).w ≠ (loc i).w := by
  intro hw
  have hzero := (h.alone hi).2.1 j hj
  simp [Local.holds, hstage, hw] at hzero

theorem Placed.ne_of_idle (h : Placed s loc) {st : WorkState} (hi : (loc i).pc.stage = some st)
    (hw : w ∈ s.workQueue ∨ (loc none).w ≤ w) : w ≠ (loc i).w := by
  rintro rfl
  obtain ⟨hcount, -, -, hlt⟩ := h.alone hi
  obtain hmem | hge := hw
  · exact List.count_eq_zero.mp hcount hmem
  · omega

@[simp] theorem setWork_self (f : Work R → Work R) : (s.setWork w f).work w = f (s.work w) :=
  if_pos rfl

theorem setWork_of_ne {v : ℕ} (f : Work R → Work R) (hv : v ≠ w) :
    (s.setWork w f).work v = s.work v :=
  if_neg hv

theorem holds_of_ne {v : ℕ} (hv : l.w ≠ v) : l.holds v = 0 := if_neg fun h => hv h.2

/-- A working thread goes on with the computation that it has taken. -/
theorem Placed.work (h : Placed s loc) {k : Fin (workers numThreads numWork)} {st : WorkState}
    (hi : (loc (some k)).pc.stage = some st) (hw : l'.w = (loc (some k)).w)
    (hqueue : s'.workQueue = s.workQueue) (hwork : ∀ v, v ≠ l'.w → s'.work v = s.work v)
    (hstage : ∀ st', l'.pc.stage = some st' → (s'.work l'.w).state = st')
    (hplace : l'.holds l'.w + s'.finished l'.w = 1) (hworker : l'.pc.ofMain = false) :
    Placed s' (Function.update loc (some k) l') := by
  obtain ⟨hcount, -, hfinished, hlt⟩ := h.alone hi
  refine ⟨fun v => ?_, fun j st' hj => ?_, fun v hv => ?_, by simpa using h.main,
    by simpa using h.sent, fun k' => ?_⟩
  -- the thread still has its computation, or has finished it
  · have hv := h.place v
    have hupdate := total_update (Local.holds v) loc (some k) l'
    rw [hqueue, Function.update_of_ne (by simp)]
    by_cases heq : v = l'.w
    · rw [heq] at hv hupdate ⊢
      rw [hw] at hv hupdate hplace ⊢
      have hone : (loc (some k)).holds (loc (some k)).w = 1 := by simp [Local.holds, hi]
      omega
    -- other computations are where they were
    · have hnew : l'.holds v = 0 := holds_of_ne (Ne.symm heq)
      have hold : (loc (some k)).holds v = 0 := holds_of_ne (hw ▸ Ne.symm heq)
      have hsame : s'.finished v = s.finished v := by rw [Shared.finished, hwork v heq]; rfl
      omega
  · by_cases hjk : j = some k
    · subst hjk
      rw [Function.update_self] at hj ⊢
      exact hstage st' hj
    -- no other thread has this computation, so that its entry is still right
    · rw [Function.update_of_ne hjk] at hj ⊢
      rw [hwork _ (hw ▸ h.ne_of_holds hi hjk hj)]
      exact h.stage j st' hj
  -- a computation that nobody has taken is not this one
  · rw [hqueue, Function.update_of_ne (by simp)] at hv
    rw [hwork v (hw ▸ h.ne_of_idle hi hv)]
    exact h.idle v hv
  · by_cases hk : k' = k
    · rw [hk, Function.update_self]
      exact hworker
    · rw [Function.update_of_ne (by simpa using hk)]
      exact h.worker k'

theorem holds_of_stage (hstage : l.pc.stage = none) : l.holds w = 0 := by
  simp [Local.holds, hstage]

/-- A thread that has not taken a computation goes on. -/
theorem total_holds_update (hold : (loc i).pc.stage = none) (l' : Local) (w : ℕ) :
    total (Local.holds w) (Function.update loc i l') = total (Local.holds w) loc + l'.holds w := by
  have hupdate := total_update (Local.holds w) loc i l'
  rwa [holds_of_stage hold, Nat.add_zero] at hupdate

/-- A step that leaves the queue, the computations and its thread as they are. -/
theorem Placed.frame (h : Placed s loc) (hqueue : s'.workQueue = s.workQueue)
    (hwork : s'.work = s.work) : Placed s' (Function.update loc i (loc i)) := by
  rw [Function.update_eq_self]
  refine ⟨fun w => ?_, fun j st hj => ?_, fun w hw => ?_, h.main, h.sent, h.worker⟩
  · rw [hqueue, Shared.finished, hwork]
    exact h.place w
  · rw [hwork]
    exact h.stage j st hj
  · rw [hwork]
    exact h.idle w (hqueue ▸ hw)

/-- The main thread goes on, with all computations sent. -/
theorem Placed.goto (h : Placed s loc) {pc : Pc} (hpc : pc.ofMain = true)
    (hsent : numWork ≤ (loc none).w) :
    Placed s (Function.update loc none { loc none with pc := pc }) := by
  have hstage : ∀ {pc : Pc}, pc.ofMain = true → pc.stage = none := by
    intro pc hpc
    cases pc <;> first | rfl | exact nomatch hpc
  refine ⟨fun w => ?_, fun j st hj => ?_, fun w hw => ?_, ⟨by simpa using hpc, ?_⟩, fun _ => ?_,
    by simpa using h.worker⟩
  · rw [total_holds_update (hstage h.main.1), holds_of_stage (hstage hpc), Function.update_self]
    exact h.place w
  · cases j with
    | none =>
      rw [Function.update_self, hstage hpc] at hj
      cases hj
    | some k =>
      rw [Function.update_of_ne (by simp)] at hj ⊢
      exact h.stage (some k) st hj
  · rw [Function.update_self] at hw
    exact h.idle w hw
  · rw [Function.update_self]
    exact h.main.2
  · rw [Function.update_self]
    exact hsent

theorem Placed.step (h : Placed s loc) (hs : WorkStep numWork c s (loc i) i s' l') :
    Placed s' (Function.update loc i l') := by
  cases hs with
  -- steps that touch no computation
  | sent hpc hw => exact h.goto rfl hw
  | join hpc => exact h.goto rfl (h.sent (by simp [hpc]))
  | cancel | exit | stop | fail => exact h.frame rfl rfl
  | send hpc hw hlength =>
    refine ⟨fun v => ?_, fun j st hj => ?_, fun v hv => ?_, ⟨by rw [Function.update_self, hpc]; rfl,
      ?_⟩, by simp [hpc], by simpa using h.worker⟩
    -- the computation goes from those that are not sent to the queue
    · have hv := h.place v
      rw [total_holds_update (by rw [hpc]; rfl), holds_of_stage (by rw [hpc]; rfl),
        Function.update_self, List.count_append, List.count_singleton]
      simp only [Shared.finished, beq_iff_eq] at hv ⊢
      split_ifs at hv ⊢ <;> omega
    · cases j with
      | none => simp [hpc, Pc.stage] at hj
      | some k =>
        rw [Function.update_of_ne (by simp)] at hj ⊢
        exact h.stage (some k) st hj
    -- it has not been touched before
    · rw [Function.update_self] at hv
      refine h.idle v ?_
      obtain hmem | hge := hv
      · obtain hmem | hmem := List.mem_append.mp hmem
        · exact .inl hmem
        · exact .inr (List.mem_singleton.mp hmem).ge
      · exact .inr (Nat.le_of_succ_le hge)
    · rw [Function.update_self]
      exact hw
  | @receive k w workQueue hpc hqueue =>
    refine ⟨fun v => ?_, fun j st hj => ?_, fun v hv => ?_, by simpa using h.main,
      by simpa using h.sent, fun k' => ?_⟩
    -- the computation goes from the queue to the thread
    · have hv := h.place v
      rw [hqueue, List.count_cons] at hv
      rw [total_holds_update (by rw [hpc]; rfl), Function.update_of_ne (by simp)]
      simp only [Shared.finished, Local.holds, Pc.stage, Option.isSome_some, true_and,
        beq_iff_eq] at hv ⊢
      omega
    -- the thread finds it idle
    · have hidle := h.idle w (.inl (by rw [hqueue]; exact List.mem_cons_self))
      by_cases hjk : j = some k
      · subst hjk
        rw [Function.update_self] at hj ⊢
        cases hj
        exact hidle
      · rw [Function.update_of_ne hjk] at hj ⊢
        exact h.stage j st hj
    · rw [Function.update_of_ne (by simp)] at hv
      exact h.idle v (hv.imp (fun hmem => by rw [hqueue]; exact List.mem_cons_of_mem _ hmem) id)
    · by_cases hk : k' = k
      · simp [hk, Pc.ofMain]
      · rw [Function.update_of_ne (by simpa using hk)]
        exact h.worker k'
  -- the steps that count leave the computation with the thread
  | @count k _ _ hstage hstage' hw hqueue hwork =>
    have hstate := h.stage (some k) _ hstage
    refine h.work hstage hw hqueue (fun v _ => by rw [hwork]) ?_ ?_ ?_
    · rw [hstage', hw, hwork]
      rintro st ⟨⟩
      exact hstate
    · simp [Local.holds, hstage', Shared.finished, hwork, hw, hstate]
    · cases hpc : l'.pc <;> first | rfl | simp [hpc, Pc.stage] at hstage'
  -- idle, busy, done: the entry of `work` follows the thread
  | @setBusy k hpc =>
    have hstage : (loc (some k)).pc.stage = some .idle := by rw [hpc]; rfl
    exact h.work hstage rfl rfl (fun v hv => setWork_of_ne _ hv)
      (by simp [Pc.stage]) (by simp [Local.holds, Pc.stage, Shared.finished]) rfl
  | @doWork k r hpc =>
    have hstage : (loc (some k)).pc.stage = some .busy := by rw [hpc]; rfl
    have hstate := h.stage (some k) .busy hstage
    exact h.work hstage rfl rfl (fun v hv => setWork_of_ne _ hv) (by simp [Pc.stage, hstate])
      (by simp [Local.holds, Pc.stage, Shared.finished, hstate]) rfl
  | @setDone k hpc =>
    have hstage : (loc (some k)).pc.stage = some .busy := by rw [hpc]; rfl
    exact h.work hstage rfl rfl (fun v hv => setWork_of_ne _ hv)
      (by simp [Pc.stage]) (by simp [Local.holds, Pc.stage, Shared.finished]) rfl
  -- the thread has no computation any more, and looks for the next one
  | @wait k hpc =>
    refine ⟨fun v => ?_, fun j st hj => ?_, ?_, by simpa using h.main, by simpa using h.sent,
      fun k' => ?_⟩
    · have hv := h.place v
      rw [total_holds_update (by rw [hpc]; rfl), holds_of_stage rfl,
        Function.update_of_ne (by simp)]
      exact hv
    · by_cases hjk : j = some k
      · subst hjk
        simp [Pc.stage] at hj
      · rw [Function.update_of_ne hjk] at hj ⊢
        exact h.stage j st hj
    · rw [Function.update_of_ne (by simp)]
      exact h.idle
    · by_cases hk : k' = k
      · simp [hk, Pc.ofMain]
      · rw [Function.update_of_ne (by simpa using hk)]
        exact h.worker k'

theorem initial_placed (zero : R) : Placed (initial zero numThreads numWork).shared
    (initial zero numThreads numWork).loc where
  place := by
    intro w
    have hzero : total (Local.holds w) (initial zero numThreads numWork).loc = 0 := by
      refine total_eq_zero.mpr fun i => holds_of_stage ?_
      cases i <;> rfl
    rw [hzero]
    simp [initial, Shared.finished]
  stage := by
    intro i st hi
    cases i <;> cases hi
  idle := fun _ _ => rfl
  main := ⟨rfl, Nat.zero_le _⟩
  sent := by simp [initial]
  worker := fun _ => rfl

variable {zero : R} {cfg cfg' : Config (Thread numThreads numWork) (Shared R) Local}

theorem reachable_placed
    (h : (machine R numThreads numWork).Reachable (initial zero numThreads numWork) cfg) :
    Placed cfg.shared cfg.loc := by
  refine reachable_invariant ?_ h (initial_placed zero)
  intro i c s loc e s' l' hI hs
  exact hI.step (workStep_cases hs)

/-- Nobody touches a computation that is done. -/
theorem Placed.done_step (h : Placed s loc) (hs : WorkStep numWork c s (loc i) i s' l')
    (hdone : (s.work w).state = .done) : s'.work w = s.work w := by
  have hne : ∀ {k st}, (loc (some k)).pc.stage = some st → w ≠ (loc (some k)).w := by
    rintro k st hstage rfl
    have hfinished := (h.alone hstage).2.2.1
    simp [Shared.finished, hdone] at hfinished
  cases hs with
  | send | sent | join | cancel | exit | stop | fail | receive | wait => rfl
  | count hstage hstage' hw hqueue hwork => rw [hwork]
  | setBusy hpc => exact setWork_of_ne _ (hne (by rw [hpc]; rfl))
  | doWork hpc => exact setWork_of_ne _ (hne (by rw [hpc]; rfl))
  | setDone hpc => exact setWork_of_ne _ (hne (by rw [hpc]; rfl))

/-- A computation stays as it is when it is done. -/
theorem Placed.done_reachable (h : Placed cfg.shared cfg.loc)
    (hreach : (machine R numThreads numWork).Reachable cfg cfg')
    (hdone : (cfg.shared.work w).state = .done) : cfg'.shared.work w = cfg.shared.work w := by
  have hinv : Placed cfg'.shared cfg'.loc ∧ cfg'.shared.work w = cfg.shared.work w := by
    refine reachable_invariant
      (I := fun s loc => Placed s loc ∧ s.work w = cfg.shared.work w) ?_ hreach ⟨h, rfl⟩
    rintro i c s loc e s' l' ⟨hplaced, hsame⟩ hs
    have hs := workStep_cases hs
    exact ⟨hplaced.step hs, (hplaced.done_step hs (by rw [hsame, hdone])).trans hsame⟩
  exact hinv.2

/-- In every run, whether `mq_receive` fails or not, each computation that the main thread has sent
    is in the queue, once, or with one working thread, or done, and not in two of these places; and
    when it is done, its entry of `work` does not change any more. -/
theorem work_run
    (h : (machine R numThreads numWork).Reachable (initial zero numThreads numWork) cfg) (w : ℕ) :
    cfg.shared.workQueue.count w +
        (Finset.univ.filter fun i => (cfg.loc i).pc.stage.isSome ∧ (cfg.loc i).w = w).card +
        (if (cfg.shared.work w).state = .done then 1 else 0) =
      (if w < (cfg.loc none).w then 1 else 0) ∧
    ((cfg.shared.work w).state = .done → ∀ cfg', (machine R numThreads numWork).Reachable cfg cfg' →
      cfg'.shared.work w = cfg.shared.work w) := by
  have hplaced := reachable_placed h
  refine ⟨?_, fun hdone cfg' hreach => hplaced.done_reachable hreach hdone⟩
  rw [Finset.card_filter]
  exact hplaced.place w

/-! ## Every computation gets done -/

/-- A measure that every step makes smaller. -/
def rest (cfg : Config (Thread numThreads numWork) (Shared R) Local) : ℕ :=
  14 * (numWork - (cfg.loc none).w) + 12 * cfg.shared.workQueue.length +
    total (fun l => l.pc.rest) cfg.loc

theorem rest_step (hc : c ≠ .fail) (hmain : (loc none).pc = .cancel → i ≠ none)
    (hcancelled : s.cancelled = 0) (hs : WorkStep numWork c s (loc i) i s' l') :
    rest ⟨s', Function.update loc i l'⟩ < rest ⟨s, loc⟩ := by
  have hupdate := total_update (fun l => l.pc.rest) loc i l'
  cases hs with
  -- a computation that is not sent yet counts for more than one in the queue
  | send hpc hw hlength =>
    simp only [rest, Function.update_self, List.length_append, List.length_singleton] at hupdate ⊢
    omega
  | sent hpc | join hpc =>
    simp only [rest, hpc, Pc.rest, Function.update_self] at hupdate ⊢
    omega
  -- the thread of `main` takes no step of the loop with `pthread_cancel`
  | cancel hpc | exit hpc => exact absurd rfl (hmain hpc)
  | stop hk =>
    rw [hcancelled] at hk
    exact absurd hk (Nat.not_lt_zero _)
  | fail hpc hfail => exact absurd hfail hc
  -- a computation in the queue counts for more than the steps of the thread that takes it
  | receive hpc hqueue =>
    have hlength := congrArg List.length hqueue
    rw [List.length_cons] at hlength
    simp only [rest, hpc, Pc.rest, Function.update_of_ne (Option.some_ne_none _).symm] at hupdate ⊢
    omega
  | count hstage hstage' hw hqueue hwork hexited hrest =>
    simp only [rest, hqueue, Function.update_of_ne (Option.some_ne_none _).symm] at hupdate ⊢
    omega
  -- within a computation each step comes nearer to its end
  | setBusy hpc | doWork hpc | setDone hpc =>
    have hqueue : ∀ w f, (s.setWork w f).workQueue = s.workQueue := fun _ _ => rfl
    simp only [rest, hpc, Pc.rest, hqueue,
      Function.update_of_ne (Option.some_ne_none _).symm] at hupdate ⊢
    omega
  | wait hpc =>
    simp only [rest, hpc, Pc.rest, Function.update_of_ne (Option.some_ne_none _).symm] at hupdate ⊢
    omega

/-- All computations are done, and the working threads wait for more. -/
def AllDone (cfg : Config (Thread numThreads numWork) (Shared R) Local) : Prop :=
  (∀ w < numWork, (cfg.shared.work w).state = .done) ∧
    ∀ k : Fin (workers numThreads numWork), (cfg.loc (some k)).pc = .mqReceive

/-- A working thread goes on with its computation. -/
theorem exists_working (r : R) {k : Fin (workers numThreads numWork)}
    (hexited : s.exited = false) (hstopped : s.stopped k = false) (hworker : l.pc.ofMain = false)
    (hreceive : l.pc ≠ .mqReceive) (hwait : l.pc = .semWait → 0 < s.threadsUsed) :
    ∃ q, step (some k : Thread numThreads numWork) (.result r) s l = some q := by
  cases hpc : l.pc <;>
    simp [step, hexited, hstopped, workingThread, hpc, Pc.ofMain] at hworker hreceive hwait ⊢
  exact hwait

/-- When nothing is left to send or to take, all computations are done. -/
theorem Placed.allDone (h : Placed s loc) (hqueue : s.workQueue = [])
    (hsent : numWork ≤ (loc none).w)
    (hidle : ∀ k : Fin (workers numThreads numWork), (loc (some k)).pc = .mqReceive) :
    AllDone ⟨s, loc⟩ := by
  refine ⟨fun w hw => ?_, hidle⟩
  have hplace := h.place w
  have hnone : total (Local.holds w) loc = 0 := by
    refine total_eq_zero.mpr fun i => holds_of_stage ?_
    cases i with
    | none =>
      have hmain := h.main.1
      cases hpc : (loc none).pc <;> rw [hpc] at hmain <;> first | rfl | exact nomatch hmain
    | some k => rw [hidle k]; rfl
  rw [hqueue, hnone, if_pos (hw.trans_le hsent), Shared.finished] at hplace
  by_contra hne
  rw [if_neg hne] at hplace
  cases hplace

/-- There is a working thread for a computation in the queue. -/
theorem Placed.workers_pos (h : Placed s loc) (hthreads : 0 < numThreads)
    (hw : w ∈ s.workQueue) : 0 < workers numThreads numWork := by
  have hplace := h.place w
  have hcount := List.count_pos_iff.mpr hw
  have hle := h.main.2
  have hsent : w < (loc none).w := by
    by_contra hge
    rw [if_neg hge] at hplace
    omega
  unfold workers
  split <;> omega

/-- Some thread can go on, and `mq_receive` need not fail for it. -/
theorem exists_step (r : R) (h : Placed s loc) (hcount : CountInv tr s loc)
    (hthreads : 0 < numThreads) (hexited : s.exited = false) (hstopped : ∀ k, s.stopped k = false)
    (hend : ¬ AllDone ⟨s, loc⟩) :
    ∃ i q, ((loc none).pc = .cancel → i ≠ none) ∧ step i (.result r) s (loc i) = some q := by
  by_cases hidle : ∀ k : Fin (workers numThreads numWork), (loc (some k)).pc = .mqReceive
  · cases hqueue : s.workQueue with
    | nil =>
      by_cases hsent : numWork ≤ (loc none).w
      · exact absurd (h.allDone hqueue hsent hidle) hend
      · have hlt : (loc none).w < numWork := not_le.mp hsent
        have hpc : (loc none).pc = .mqSend := by
          by_contra hpc
          exact hsent (h.sent hpc)
        exact ⟨none, _, by simp [hpc],
          by simp [step, hexited, mainStep, hpc, hlt, hqueue, MQ_LEN]; rfl⟩
    | cons w workQueue =>
      have hpos := h.workers_pos hthreads (by rw [hqueue]; exact List.mem_cons_self)
      exact ⟨some ⟨0, hpos⟩, _, by simp,
        by simp [step, hexited, hstopped, workingThread, hidle, hqueue]; rfl⟩
  · obtain ⟨k, hk⟩ := not_forall.mp hidle
    obtain ⟨q, hq⟩ := exists_working (l := loc (some k)) r hexited (hstopped k) (h.worker k) hk
      hcount.pos
    exact ⟨some k, q, by simp, hq⟩

/-- The step is neither a failure nor one of the loop in which `do_all` cancels the threads. -/
def GoesOn (cfg : Config (Thread numThreads numWork) (Shared R) Local)
    (a : Thread numThreads numWork × Choice R) : Prop :=
  a.2 ≠ .fail ∧ ((cfg.loc none).pc = .cancel → a.1 ≠ none)

/-- Only a failure ends the process, and nothing else cancels a thread. -/
theorem exited_step (hc : c ≠ .fail) (hmain : (loc none).pc = .cancel → i ≠ none)
    (hs : WorkStep numWork c s (loc i) i s' l') :
    s'.exited = s.exited ∧ s'.cancelled = s.cancelled := by
  cases hs with
  | send | sent | join | stop | receive | setBusy | doWork | setDone | wait => exact ⟨rfl, rfl⟩
  | cancel hpc | exit hpc => exact absurd rfl (hmain hpc)
  | fail hpc hfail => exact absurd hfail hc
  | count hstage hstage' hw hqueue hwork hexited hcancelled => exact ⟨hexited, hcancelled⟩

/-- Only threads that have been cancelled act on it. -/
theorem reachable_stopped
    (h : (machine R numThreads numWork).Reachable (initial zero numThreads numWork) cfg) :
    ∀ k, cfg.shared.stopped k = true → k < cfg.shared.cancelled := by
  refine reachable_invariant (I := fun s _ => ∀ k, s.stopped k = true → k < s.cancelled) ?_ h nofun
  intro i c s loc e s' l' hI hs k hk
  cases workStep_cases hs with
  | cancel => exact (hI k hk).trans (Nat.lt_succ_self _)
  | @stop j hj =>
    by_cases hkj : k = j
    · rw [hkj]
      exact hj
    · exact hI k ((Function.update_of_ne hkj _ _).symm.trans hk)
  | count hstage hstage' hw hqueue hwork hexited hcancelled hstopped =>
    rw [hcancelled]
    exact hI k (hstopped ▸ hk)
  | send | sent | join | exit | fail | receive | setBusy | doWork | setDone | wait => exact hI k hk

/-- From every state that the program reaches without a failure and before `do_all` has cancelled a
    working thread, all computations get done, whatever steps are taken other than a failure and a
    cancellation; there is always one to take. -/
theorem inevitable_done (hthreads : 0 < numThreads)
    (h : (machine R numThreads numWork).Reachable (initial zero numThreads numWork) cfg)
    (hexited : cfg.shared.exited = false) (hcancelled : cfg.shared.cancelled = 0) :
    (machine R numThreads numWork).Inevitable GoesOn AllDone cfg := by
  obtain ⟨tr, hrun⟩ := h
  refine Machine.Inevitable.of_measure rest
    (I := fun cfg => (cfg.shared.exited = false ∧ cfg.shared.cancelled = 0) ∧
      ∃ tr, (machine R numThreads numWork).Run (initial zero numThreads numWork) tr cfg) ?_ ?_
    ⟨⟨hexited, hcancelled⟩, tr, hrun⟩
  · rintro cfg ⟨⟨hexited, hcancelled⟩, tr, hrun⟩ hend
    have hplaced := reachable_placed ⟨tr, hrun⟩
    -- no thread has been cancelled, so that none has stopped
    have hstopped : ∀ k, cfg.shared.stopped k = false := by
      intro k
      by_contra hk
      have hlt := reachable_stopped ⟨tr, hrun⟩ k (by simpa using hk)
      omega
    obtain ⟨i, q, hi, hq⟩ :=
      exists_step zero hplaced (run_countInv hrun) hthreads hexited hstopped hend
    exact ⟨(i, .result zero), _, ⟨by simp, hi⟩,
      machine_step_eq_some.mpr ⟨q.2.1, q.2.2, hq, rfl⟩⟩
  -- such a step neither ends the program nor cancels a thread, and makes the measure smaller
  · rintro cfg ⟨i, c⟩ e cfg' ⟨⟨hexited, hcancelled⟩, tr, hrun⟩ - ⟨hc, hmain⟩ hs
    obtain ⟨s', l', hs', rfl⟩ := machine_step_eq_some.mp hs
    have hstep := workStep_cases hs'
    obtain ⟨hexited', hcancelled'⟩ := exited_step hc hmain hstep
    exact ⟨⟨⟨hexited'.trans hexited, hcancelled'.trans hcancelled⟩, _, hrun.snoc hs⟩,
      rest_step hc hmain hcancelled hstep⟩

/-- The condition is needed: where `do_all` goes on first, the process ends with nothing done. -/
example : ∃ cfg, (machine Unit 2 2).Reachable (initial () 2 2) cfg ∧ cfg.shared.exited = true ∧
    (cfg.shared.work 0).state = .idle ∧ (cfg.shared.work 1).state = .idle :=
  ⟨_, .of_exec (List.replicate 7 (none, .result ())) rfl, rfl, rfl, rfl⟩

/-- Two computations by two threads, where a thread has taken the first one. -/
theorem work_run_two : ∃ cfg, (machine Unit 2 2).Reachable (initial () 2 2) cfg ∧
    cfg.shared.workQueue = [1] ∧ cfg.shared.workQueue.count 0 +
        (Finset.univ.filter fun i => (cfg.loc i).pc.stage.isSome ∧ (cfg.loc i).w = 0).card +
        (if (cfg.shared.work 0).state = .done then 1 else 0) = 1 := by
  have hreach := Machine.Reachable.of_exec (M := machine Unit 2 2) (s := initial () 2 2)
    (sends ++ steps 0 3) rfl
  exact ⟨_, hreach, rfl, (work_run hreach 0).1.trans rfl⟩

/-- Two computations by two threads, from the same state. -/
theorem inevitable_done_two : ∃ cfg, (machine Unit 2 2).Reachable (initial () 2 2) cfg ∧
    cfg.shared.workQueue = [1] ∧
    (machine Unit 2 2).Inevitable GoesOn AllDone cfg := by
  have hreach := Machine.Reachable.of_exec (M := machine Unit 2 2) (s := initial () 2 2)
    (sends ++ steps 0 3) rfl
  exact ⟨_, hreach, rfl, inevitable_done (by decide) hreach rfl rfl⟩

end SyncWorkingThreads
