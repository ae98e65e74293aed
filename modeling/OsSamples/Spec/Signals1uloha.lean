import OsSamples.Native.Signals1uloha

/-!
# The end of the wait in `signals_1uloha.c`

A handler that runs between `alarm(5)` and `sigsuspend` takes the alarm away from the wait that is
to come; and once the old disposition of SIGINT is restored, another SIGINT may end the process.
`Orderly` is the condition on a step that rules out both.

## Key results

- `KernelOk.delivered`: a signal is delivered only to its handler, and to one at a time
- `Inv.step`: what holds of the signals, of the alarm and of `interrupted`, from step to step
- `sigsuspend_returns`: all runs whose steps meet the condition
-/

namespace Signals1uloha

open Signals

variable {ignored mask : SigSet Signal} {s s' : State} {e : Option Event} {tr : List Event}
  {signo : Signal} {pc : MainPc} {a : Act} {f : Frame}

/-! ## Where `main` is -/

/-- Whether `catch_sig` is the handler of the signal. -/
def MainPc.installed : MainPc → Signal → Bool
  | .sigaction .SIGALRM, .SIGINT | .restore .SIGALRM, .SIGALRM => true
  | .restore .SIGINT, _ | .puts, _ | .alarm, _ | .sigsuspend, _ | .suspended _, _
  | .sigsuspendReturn, _ => true
  | _, _ => false

/-- Whether `alarm(5)` is still to come. -/
def MainPc.unarmed : MainPc → Bool
  | .sigaction _ | .puts | .alarm => true
  | _ => false

/-- Whether `main` is about to wait, or waits. -/
def MainPc.waits : MainPc → Bool
  | .sigsuspend | .suspended _ => true
  | _ => false

/-- The mask while no handler runs. -/
def MainPc.ownMask (mask : SigSet Signal) : MainPc → SigSet Signal
  | .suspended _ => sigs
  | _ => mask

theorem MainPc.unarmed_of_waits (h : pc.waits = true) : pc.unarmed = false := by
  cases pc <;> first
    | rfl
    | exact nomatch h

theorem MainPc.interrupt_unarmed (pc : MainPc) : pc.interrupt.unarmed = pc.unarmed := by
  cases pc <;> rfl

theorem MainPc.interrupt_waits (h : pc ≠ .sigsuspend) : pc.interrupt.waits = false := by
  cases pc with
  | sigsuspend => exact absurd rfl h
  | _ => rfl

theorem MainPc.interrupt_installed (pc : MainPc) : pc.interrupt.installed = pc.installed := by
  cases pc <;> rfl

/-- Whether the call of `catch_sig` has the alarm still to cancel. -/
def Frame.cancels (f : Frame) : Bool :=
  match f.signo, f.pc with
  | .SIGINT, .printCatched | .SIGINT, .cancelAlarm => true
  | _, _ => false

/-- Whether the call of `catch_sig` has `interrupted` still to set. -/
def Frame.sets (f : Frame) : Bool :=
  match f.signo, f.pc with
  | .SIGALRM, _ | _, .printSigno | _, .ret => false
  | _, _ => true

/-- Main is blocked in `sigsuspend`, no signal is pending, and the alarm is not set. -/
def Stuck (s : State) : Prop :=
  (∃ oldMask, s.main = .suspended oldMask) ∧ (∀ signo, s.kernel.pending signo = false) ∧
    s.alarm = false

/-- No signal is generated between `alarm(5)` and `sigsuspend` unless it is blocked there, and no
    SIGINT that would end the process. -/
def Orderly (s : State) : Act → Prop
  | .sigint =>
    s.kernel.action .SIGINT ≠ .dfl ∧ (s.main = .sigsuspend → s.kernel.mask .SIGINT = true)
  | .timer => s.main = .sigsuspend → s.kernel.mask .SIGALRM = true
  | .run | .deliver _ => True

instance (s : State) : (a : Act) → Decidable (Orderly s a)
  | .sigint => inferInstanceAs (Decidable (_ ∧ _))
  | .timer => inferInstanceAs (Decidable (_ → _))
  | .run | .deliver _ => inferInstanceAs (Decidable True)

/-! ## The signals -/

/-- There is at most one call of `catch_sig`, during which all signals are blocked. -/
inductive Calls (mask : SigSet Signal) (s : State) : Prop
  | none : s.handlers = [] → s.kernel.mask = s.main.ownMask mask →
      s.main.oldMask s.kernel.mask = mask → Calls mask s
  | one {f : Frame} : s.handlers = [f] → f.oldMask = mask → (∀ signo, s.kernel.mask signo = true) →
      s.main.waits = false → Calls mask s

/-- What holds of the signals. -/
structure KernelOk (ignored mask : SigSet Signal) (s : State) : Prop where
  action : ∀ signo, s.kernel.action signo =
    if s.main.installed signo then .handler else oldAction ignored signo
  saOld : ∀ signo, s.main.installed signo = true → s.saOld signo = oldAction ignored signo
  pending : ∀ signo, s.kernel.pending signo = true →
    s.main.installed signo = true ∨ mask signo = true
  calls : Calls mask s

theorem MainPc.ownMask_of_waits (mask : SigSet Signal) (h : pc.waits = false) :
    pc.ownMask mask = mask := by
  cases pc with
  | suspended => exact nomatch h
  | _ => rfl

theorem MainPc.oldMask_of_waits (mask : SigSet Signal) (h : pc.waits = false) :
    pc.oldMask mask = mask := by
  cases pc with
  | suspended => exact nomatch h
  | _ => rfl

theorem MainPc.ownMask_eq (mask : SigSet Signal) (pc : MainPc) (signo : Signal) :
    pc.ownMask mask = mask ∨ pc.installed signo = true := by
  cases pc with
  | suspended => exact .inr rfl
  | _ => exact .inl rfl

/-- A signal is delivered to its handler, and when there is no other call. -/
theorem KernelOk.delivered (h : KernelOk ignored mask s)
    (hdeliver : s.kernel.deliverable signo = true) :
    s.main.installed signo = true ∧ s.handlers = [] ∧ s.main.oldMask s.kernel.mask = mask := by
  obtain ⟨hpending, hmask⟩ := SigState.deliverable_eq_true.mp hdeliver
  cases h.calls with
  -- during a call of `catch_sig` everything is blocked
  | one _ _ hall =>
    rw [hall signo] at hmask
    exact nomatch hmask
  | none hnone hmask' hold =>
    refine ⟨?_, hnone, hold⟩
    rcases h.pending signo hpending with hinst | hblocked
    · exact hinst
    -- what is blocked from the start is deliverable in `sigsuspend` only
    rcases s.main.ownMask_eq mask signo with heq | hinst
    · rw [hmask', heq, hblocked] at hmask
      exact nomatch hmask
    · exact hinst

/-- A signal is generated. -/
theorem KernelOk.generate (h : KernelOk ignored mask s) (hdfl : s.kernel.action signo ≠ .dfl)
    (alarm : Bool) :
    KernelOk ignored mask { s with alarm := alarm, kernel := s.kernel.generate signo } where
  action := h.action
  saOld := h.saOld
  pending signo' hpending := by
    rcases SigState.generate_pending.mp hpending with hpending | ⟨rfl, hign⟩
    · exact h.pending signo' hpending
    · refine .inl (Bool.of_not_eq_false fun hinst => ?_)
      have haction := h.action signo'
      simp only [hinst, Bool.false_eq_true, if_false, oldAction] at haction
      split at haction
      · exact hign haction
      · exact hdfl haction
  calls := by
    cases h.calls with
    | none hnone hmask hold => exact .none hnone hmask hold
    | one hone hold hall hwaits => exact .one hone hold hall hwaits

/-- `catch_sig` is called. -/
theorem KernelOk.handle (h : KernelOk ignored mask s)
    (hdeliver : s.kernel.deliverable signo = true) (hmain : s.main ≠ .sigsuspend) :
    KernelOk ignored mask { s with
      main := s.main.interrupt
      handlers := ⟨signo, .printCatched, s.main.oldMask s.kernel.mask⟩ :: s.handlers
      kernel := s.kernel.handle signo saMask } := by
  obtain ⟨-, hnone, hold⟩ := h.delivered hdeliver
  have hinst := s.main.interrupt_installed
  refine ⟨fun signo' => ?_, fun signo' => ?_, fun signo' hpending => ?_, ?_⟩
  · rw [hinst]
    exact h.action signo'
  · rw [hinst]
    exact h.saOld signo'
  · rw [hinst]
    exact h.pending signo' (SigState.handle_pending.mp hpending).1
  -- the handler of the delivered signal is the only one, with both signals blocked
  · refine .one (by rw [hnone]) hold (fun signo' => ?_) ?_
    · rw [SigState.handle_mask]
      exact .inr (.inl (by cases signo' <;> rfl))
    · exact MainPc.interrupt_waits hmain

/-- A step of `main` that leaves the signals as they are. -/
theorem KernelOk.move (h : KernelOk ignored mask s) (hnone : s.handlers = [])
    (hinst : pc.installed = s.main.installed) (hmask : pc.ownMask mask = s.main.ownMask mask)
    (hold : pc.oldMask s.kernel.mask = s.main.oldMask s.kernel.mask) (alarm : Bool) :
    KernelOk ignored mask { s with main := pc, alarm := alarm } := by
  refine ⟨fun signo => ?_, fun signo => ?_, fun signo => ?_, ?_⟩
  · rw [hinst]
    exact h.action signo
  · rw [hinst]
    exact h.saOld signo
  · rw [hinst]
    exact h.pending signo
  · cases h.calls with
    | none _ hmask' hold' => exact .none hnone (hmask'.trans hmask.symm) (hold.trans hold')
    | one hone => exact nomatch hnone.symm.trans hone

/-- A `sigaction` of `main`, after which `catch_sig` is the handler or no longer so. -/
theorem KernelOk.sigaction (h : KernelOk ignored mask s) (hquiet : s.kernel.Quiet)
    (hnone : s.handlers = []) (installed : Bool) {saOld : Signal → Disposition}
    (hinst : pc.installed = Function.update s.main.installed signo installed)
    (hown : s.main.ownMask mask = mask) (hown' : pc.ownMask mask = mask)
    (hold : pc.oldMask s.kernel.mask = s.kernel.mask)
    (hsaOld : ∀ signo, pc.installed signo = true → saOld signo = oldAction ignored signo) :
    KernelOk ignored mask { s with
      main := pc
      kernel := s.kernel.sigaction signo (if installed then .handler else oldAction ignored signo)
      saOld := saOld } := by
  have hmask : s.kernel.mask = mask := by
    cases h.calls with
    | none _ hmask => exact hmask.trans hown
    | one hone => exact nomatch hnone.symm.trans hone
  refine ⟨fun signo' => ?_, hsaOld, fun signo' hpending => .inr ?_, ?_⟩
  · rw [hinst]
    by_cases heq : signo' = signo
    · subst heq
      rw [Function.update_self]
      exact SigState.sigaction_action_self
    · rw [Function.update_of_ne heq]
      exact (SigState.sigaction_action_of_ne heq).trans (h.action signo')
  · -- nothing was to be delivered, so that what is pending is blocked
    exact hmask ▸ hquiet.mask (SigState.sigaction_pending hpending)
  · exact .none hnone (hmask.trans hown'.symm) (hold.trans hmask)

/-- `main` begins to wait. -/
theorem KernelOk.sigsuspend (h : KernelOk ignored mask s) (hnone : s.handlers = [])
    (hpc : s.main = .sigsuspend) : KernelOk ignored mask { s with
      kernel := s.kernel.setMask sigs
      main := .suspended s.kernel.mask } := by
  obtain ⟨haction, hsaOld, hpending, hcalls⟩ := h
  rw [hpc] at haction hsaOld hpending
  refine ⟨haction, hsaOld, hpending, ?_⟩
  cases hcalls with
  | none _ hmask =>
    rw [hpc] at hmask
    exact .none hnone rfl hmask
  | one hone => exact nomatch hnone.symm.trans hone

/-- A step of `catch_sig` in which it does not return. -/
theorem KernelOk.frame (h : KernelOk ignored mask s) (hone : s.handlers = [f]) {f' : Frame}
    (hone' : s'.handlers = [f']) (hold' : f'.oldMask = f.oldMask) (hmain : s'.main = s.main)
    (hkernel : s'.kernel = s.kernel) (hsaOld : s'.saOld = s.saOld) :
    KernelOk ignored mask s' := by
  obtain ⟨haction, hold, hpending, hcalls⟩ := h
  rw [← hkernel, ← hmain] at haction hpending
  rw [← hsaOld, ← hmain] at hold
  refine ⟨haction, hold, hpending, ?_⟩
  cases hcalls with
  | none hnone => exact nomatch hnone.symm.trans hone
  | one hone₀ hold hall hwaits =>
    obtain rfl := List.singleton_inj.mp (hone.symm.trans hone₀)
    exact .one hone' (hold'.trans hold) (hkernel ▸ hall) (hmain ▸ hwaits)

/-- `catch_sig` returns. -/
theorem KernelOk.ret (h : KernelOk ignored mask s) (hone : s.handlers = [f]) :
    KernelOk ignored mask { s with
      kernel := s.kernel.setMask f.oldMask
      handlers := [] } := by
  refine ⟨h.action, h.saOld, h.pending, ?_⟩
  cases h.calls with
  | none hnone => exact nomatch hnone.symm.trans hone
  | one hone₀ hold _ hwaits =>
    obtain rfl := List.singleton_inj.mp (hone.symm.trans hone₀)
    refine .none rfl ?_ ?_
    · exact hold.trans (MainPc.ownMask_of_waits mask hwaits).symm
    · exact (MainPc.oldMask_of_waits f.oldMask hwaits).trans hold

/-- Every step of `catch_sig`. -/
theorem KernelOk.catchSig (h : KernelOk ignored mask s) (hone : s.handlers = [f]) :
    KernelOk ignored mask (catchSig f [] s).2 := by
  unfold Signals1uloha.catchSig
  cases f.pc with
  | printCatched | cancelAlarm | setInterrupted | printSigno =>
    exact h.frame hone rfl rfl rfl rfl rfl
  | printName =>
    cases f.signo with
    | SIGINT | SIGALRM => exact h.frame hone rfl rfl rfl rfl rfl
  | ret => exact h.ret hone

/-- `sigaction` installs `catch_sig` for one signal. -/
theorem installed_sigaction (signo : Signal) :
    (match signo with
      | .SIGINT => MainPc.sigaction .SIGALRM
      | .SIGALRM => .puts).installed =
      Function.update (MainPc.sigaction signo).installed signo true := by
  funext signo'
  cases signo <;> cases signo' <;> rfl

/-- And the later `sigaction` takes it away for one. -/
theorem installed_restore (signo : Signal) :
    (match signo with
      | .SIGINT => MainPc.restore .SIGALRM
      | .SIGALRM => .testInterrupted).installed =
      Function.update (MainPc.restore signo).installed signo false := by
  funext signo'
  cases signo <;> cases signo' <;> rfl

/-- Every step of `main`. -/
theorem KernelOk.mainStep (h : KernelOk ignored mask s) (hquiet : s.kernel.Quiet)
    (hnone : s.handlers = []) (hs : mainStep s = some (e, s')) : KernelOk ignored mask s' := by
  have hsaOld := h.saOld
  have haction := h.action
  unfold Signals1uloha.mainStep at hs
  split at hs <;> simp only [Option.some.injEq, Prod.mk.injEq, reduceCtorEq] at hs <;>
    obtain ⟨rfl, rfl⟩ := hs
  case h_1 signo hpc =>
    rw [hpc] at haction hsaOld
    refine h.sigaction hquiet hnone true (by rw [hpc]; exact installed_sigaction signo)
      (by rw [hpc]; rfl) (by cases signo <;> rfl) (by cases signo <;> rfl) fun signo' hinst => ?_
    replace hinst := (congrFun (installed_sigaction signo) signo').symm.trans hinst
    by_cases heq : signo' = signo
    · -- the disposition that is saved is the one the process was started with
      subst heq
      rw [Function.update_self]
      exact (haction signo').trans (if_neg (by cases signo' <;> decide))
    · rw [Function.update_of_ne heq] at hinst ⊢
      exact hsaOld signo' hinst
  case h_4 hpc => exact h.sigsuspend hnone hpc
  case h_6 signo hpc =>
    rw [hpc] at hsaOld
    rw [hsaOld signo (by cases signo <;> rfl)]
    refine h.sigaction hquiet hnone false (by rw [hpc]; exact installed_restore signo)
      (by rw [hpc]; rfl) (by cases signo <;> rfl) (by cases signo <;> rfl) fun signo' hinst => ?_
    replace hinst := (congrFun (installed_restore signo) signo').symm.trans hinst
    by_cases heq : signo' = signo
    · subst heq
      rw [Function.update_self] at hinst
      exact nomatch hinst
    · rw [Function.update_of_ne heq] at hinst
      exact hsaOld signo' hinst
  -- the steps that leave the signals as they are
  case h_2 | h_3 | h_5 | h_8 | h_9 =>
    rename_i hpc
    exact h.move hnone (by rw [hpc]; rfl) (by rw [hpc]; rfl) (by rw [hpc]; rfl) _
  case h_7 hpc =>
    split
    · exact h.move hnone (by rw [hpc]; rfl) (by rw [hpc]; rfl) (by rw [hpc]; rfl) _
    · exact h.move hnone (by rw [hpc]; rfl) (by rw [hpc]; rfl) (by rw [hpc]; rfl) _

/-! ## The alarm -/

/-- What holds of the alarm. -/
structure AlarmOk (s : State) : Prop where
  unarmed : s.main.unarmed = true → s.kernel.pending .SIGALRM = false
  wait : s.main.waits = true → s.alarm = true ∨ s.kernel.pending .SIGALRM = true
  quiet : s.main = .sigsuspend → s.kernel.Quiet
  alarm : s.alarm = true → s.kernel.pending .SIGALRM = false ∧
    (s.main.waits = true ∨
      s.main = .sigsuspendReturn ∧ ∃ f, s.handlers = [f] ∧ f.cancels = true)

/-- SIGINT is generated. -/
theorem AlarmOk.sigint (h : AlarmOk s)
    (hblocked : s.main = .sigsuspend → s.kernel.mask .SIGINT = true) :
    AlarmOk { s with kernel := s.kernel.generate .SIGINT } := by
  have hpending : (s.kernel.generate .SIGINT).pending .SIGALRM = s.kernel.pending .SIGALRM := by
    rw [Bool.eq_iff_iff, SigState.generate_pending]
    simp
  refine ⟨?_, ?_, fun hpc => ?_, ?_⟩
  · exact hpending ▸ h.unarmed
  · exact hpending ▸ h.wait
  · exact (h.quiet hpc).generate (hblocked hpc)
  · exact hpending ▸ h.alarm

/-- The time of the alarm is up. -/
theorem AlarmOk.timer (h : AlarmOk s) (halarm : s.alarm = true)
    (hblocked : s.main = .sigsuspend → s.kernel.mask .SIGALRM = true)
    (hign : s.kernel.action .SIGALRM ≠ .ign) :
    AlarmOk { s with alarm := false, kernel := s.kernel.generate .SIGALRM } := by
  refine ⟨fun hunarmed => ?_, fun _ => .inr ?_, fun hpc => ?_, nofun⟩
  · rcases (h.alarm halarm).2 with hwaits | ⟨hpc, -⟩
    · exact nomatch (MainPc.unarmed_of_waits hwaits).symm.trans hunarmed
    · rw [hpc] at hunarmed
      exact nomatch hunarmed
  · exact SigState.generate_pending.mpr (.inr ⟨rfl, hign⟩)
  · exact (h.quiet hpc).generate (hblocked hpc)

theorem AlarmOk.not_sigsuspend (h : AlarmOk s) (hdeliver : s.kernel.deliverable signo = true) :
    s.main ≠ .sigsuspend := fun hpc => nomatch (h.quiet hpc signo).symm.trans hdeliver

/-- `catch_sig` is called. -/
theorem AlarmOk.handle (h : AlarmOk s) (hnone : s.handlers = [])
    (hdeliver : s.kernel.deliverable signo = true) (oldMask : SigSet Signal) :
    AlarmOk { s with
      main := s.main.interrupt
      handlers := ⟨signo, .printCatched, oldMask⟩ :: s.handlers
      kernel := s.kernel.handle signo saMask } := by
  have hpending := (SigState.deliverable_eq_true.mp hdeliver).1
  have hmain := h.not_sigsuspend hdeliver
  have hwaits := MainPc.interrupt_waits hmain
  have hkept : s.kernel.pending .SIGALRM = false →
      (s.kernel.handle signo saMask).pending .SIGALRM = false := by
    intro hnot
    rw [← Bool.not_eq_true, SigState.handle_pending, hnot]
    exact fun h => nomatch h.1
  refine ⟨fun hunarmed => ?_, fun hwaits' => ?_, fun hpc => ?_, fun halarm => ?_⟩
  · exact hkept (h.unarmed (s.main.interrupt_unarmed ▸ hunarmed))
  · exact nomatch hwaits.symm.trans hwaits'
  · exact nomatch hwaits.symm.trans (congrArg MainPc.waits hpc)
  · obtain ⟨hnot, hwait⟩ := h.alarm halarm
    -- the alarm is set, so that the signal is SIGINT
    have hsigint : signo = .SIGINT := by
      cases signo with
      | SIGINT => rfl
      | SIGALRM => exact nomatch hnot.symm.trans hpending
    rcases hwait with hwait | ⟨-, f, hone, -⟩
    · refine ⟨hkept hnot, .inr ⟨?_, ⟨signo, .printCatched, oldMask⟩, by rw [hnone], ?_⟩⟩
      · cases hpc : s.main <;> rw [hpc] at hwait
        case sigsuspend => exact absurd hpc hmain
        case suspended => rfl
        all_goals exact nomatch hwait
      · rw [hsigint]
        rfl
    · exact nomatch hnone.symm.trans hone

/-- A step of `main` between two places where it does not wait. -/
theorem AlarmOk.move (h : AlarmOk s) (hnone : s.handlers = []) (hwaits : s.main.waits = false)
    (hwaits' : s'.main.waits = false) (hunarmed : s'.main.unarmed = true → s.main.unarmed = true)
    (halarm : s'.alarm = s.alarm)
    (hkept : s'.kernel.pending .SIGALRM = true → s.kernel.pending .SIGALRM = true) :
    AlarmOk s' := by
  refine ⟨fun hunarmed' => ?_, fun hwaits'' => ?_, fun hpc => ?_, fun halarm' => ?_⟩
  · have hnot := h.unarmed (hunarmed hunarmed')
    rw [← Bool.not_eq_true]
    exact fun hpending => nomatch hnot.symm.trans (hkept hpending)
  · exact nomatch hwaits'.symm.trans hwaits''
  · exact nomatch hwaits'.symm.trans (congrArg MainPc.waits hpc)
  · rcases (h.alarm (halarm.symm.trans halarm')).2 with hwait | ⟨-, f, hone, -⟩
    · exact nomatch hwaits.symm.trans hwait
    · exact nomatch hnone.symm.trans hone

/-- Every step of `main`. -/
theorem AlarmOk.mainStep (h : AlarmOk s) (hquiet : s.kernel.Quiet) (hnone : s.handlers = [])
    (hs : mainStep s = some (e, s')) : AlarmOk s' := by
  unfold Signals1uloha.mainStep at hs
  split at hs <;> simp only [Option.some.injEq, Prod.mk.injEq, reduceCtorEq] at hs <;>
    obtain ⟨rfl, rfl⟩ := hs
  case h_1 signo hpc =>
    cases signo with
    | SIGINT | SIGALRM =>
      exact h.move hnone (by rw [hpc]; rfl) rfl (fun _ => by rw [hpc]; rfl) rfl
        SigState.sigaction_pending
  case h_2 hpc =>
    exact h.move hnone (by rw [hpc]; rfl) rfl (fun _ => by rw [hpc]; rfl) rfl id
  case h_3 hpc =>
    -- `alarm(5)`: from now on the alarm or its signal will end the wait
    have hnot := h.unarmed (by rw [hpc]; rfl)
    exact ⟨nofun, fun _ => .inl rfl, fun _ => hquiet, fun _ => ⟨hnot, .inl rfl⟩⟩
  case h_4 hpc =>
    have hwaits : s.main.waits = true := by rw [hpc]; rfl
    exact ⟨nofun, fun _ => h.wait hwaits, nofun, fun halarm => ⟨(h.alarm halarm).1, .inl rfl⟩⟩
  case h_6 signo hpc =>
    cases signo with
    | SIGINT | SIGALRM =>
      exact h.move hnone (by rw [hpc]; rfl) rfl nofun rfl SigState.sigaction_pending
  case h_5 | h_8 | h_9 =>
    rename_i hpc
    exact h.move hnone (by rw [hpc]; rfl) rfl nofun rfl id
  case h_7 hpc =>
    split
    · exact h.move hnone (by rw [hpc]; rfl) rfl nofun rfl id
    · exact h.move hnone (by rw [hpc]; rfl) rfl nofun rfl id

/-- A step of `catch_sig`, while `main` does not wait. -/
theorem AlarmOk.frame (h : AlarmOk s) (hone : s.handlers = [f]) (hwaits : s.main.waits = false)
    (hmain : s'.main = s.main) (hkept : s'.kernel.pending = s.kernel.pending)
    (halarm : s'.alarm = true → s.alarm = true ∧
      (f.cancels = true → ∃ f', s'.handlers = [f'] ∧ f'.cancels = true)) : AlarmOk s' := by
  refine ⟨?_, fun hwaits' => ?_, fun hpc => ?_, fun halarm' => ?_⟩
  · rw [hmain, hkept]
    exact h.unarmed
  · rw [hmain, hwaits] at hwaits'
    exact nomatch hwaits'
  · exact nomatch hwaits.symm.trans (congrArg MainPc.waits (hmain.symm.trans hpc))
  · obtain ⟨halarm, hcancels⟩ := halarm halarm'
    rw [hmain, hkept]
    obtain ⟨hnot, hwait | ⟨hpc, f₀, hone', hf₀⟩⟩ := h.alarm halarm
    · exact nomatch hwaits.symm.trans hwait
    · obtain rfl := List.singleton_inj.mp (hone.symm.trans hone')
      exact ⟨hnot, .inr ⟨hpc, hcancels hf₀⟩⟩

/-- Every step of `catch_sig`. -/
theorem AlarmOk.catchSig (h : AlarmOk s) (hone : s.handlers = [f]) (hwaits : s.main.waits = false) :
    AlarmOk (catchSig f [] s).2 := by
  unfold Signals1uloha.catchSig
  cases hpc : f.pc with
  | printCatched =>
    refine h.frame hone hwaits rfl rfl fun halarm => ⟨halarm, fun hcancels => ?_⟩
    cases hsigno : f.signo with
    | SIGINT => exact ⟨_, rfl, by simp [Frame.cancels]⟩
    | SIGALRM => simp [Frame.cancels, hsigno] at hcancels
  -- `alarm(0)`, while `main` does not wait any longer
  | cancelAlarm => exact h.frame hone hwaits rfl rfl nofun
  | printName =>
    have hcancels : f.cancels = false := by simp [Frame.cancels, hpc]
    cases f.signo with
    | SIGINT | SIGALRM =>
      exact h.frame hone hwaits rfl rfl fun halarm => ⟨halarm, fun htrue =>
        nomatch hcancels.symm.trans htrue⟩
  | setInterrupted | printSigno | ret =>
    have hcancels : f.cancels = false := by simp [Frame.cancels, hpc]
    exact h.frame hone hwaits rfl rfl fun halarm => ⟨halarm, fun htrue =>
      nomatch hcancels.symm.trans htrue⟩

/-! ## The result -/

/-- What holds of `interrupted` and of the result, after the events `tr`. -/
structure ResultOk (tr : List Event) (s : State) : Prop where
  caught : .caught .SIGINT ∈ tr →
    s.interrupted = true ∨ ∃ f, s.handlers = [f] ∧ f.sets = true
  continued : s.main = .putsContinue ∨ s.main = .returned 0 → .caught .SIGINT ∉ tr
  returned : ∀ code, s.main = .returned code → code = 0 ∨ code = 1
  alive : ∀ signo, s.main ≠ .killed signo

/-- The result, when SIGINT has been caught. -/
theorem ResultOk.ended (h : ResultOk tr s) (hended : s.main.ended = true)
    (hcaught : .caught .SIGINT ∈ tr) : s.main = .returned 1 := by
  cases hpc : s.main <;> rw [hpc] at hended
  case returned code =>
    rcases h.returned code hpc with rfl | rfl
    · exact absurd hcaught (h.continued (.inr hpc))
    · rfl
  case killed signo => exact absurd hpc (h.alive signo)
  all_goals exact nomatch hended

/-- `catch_sig` is called. -/
theorem ResultOk.handle (h : ResultOk tr s) (hnone : s.handlers = [])
    (hinst : s.main.installed signo = true) (oldMask : SigSet Signal) :
    ResultOk (tr ++ [.caught signo]) { s with
      main := s.main.interrupt
      handlers := ⟨signo, .printCatched, oldMask⟩ :: s.handlers
      kernel := s.kernel.handle signo saMask } := by
  -- where `catch_sig` is the handler, `main` has not ended or tested `interrupted` yet
  have hmain : ∀ pc, s.main.interrupt = pc → pc.installed signo = true := fun pc hpc => by
    rw [← hpc, s.main.interrupt_installed, hinst]
  refine ⟨fun hcaught => ?_, fun hpc => ?_, fun code hpc => ?_, fun signo' hpc => ?_⟩
  · cases signo with
    | SIGINT => exact .inr ⟨_, congrArg _ hnone, rfl⟩
    | SIGALRM =>
      rcases h.caught (by simpa using hcaught) with hset | ⟨f, hone, -⟩
      · exact .inl hset
      · exact nomatch hnone.symm.trans hone
  · rcases hpc with hpc | hpc <;> exact nomatch hmain _ hpc
  · exact nomatch hmain _ hpc
  · exact nomatch hmain _ hpc

/-- An event that is no call of `catch_sig`. -/
theorem caught_append (he : ∀ signo, e ≠ some (.caught signo))
    (h : .caught signo ∈ tr ++ e.toList) : .caught signo ∈ tr := by
  rcases List.mem_append.mp h with hmem | hmem
  · exact hmem
  · exact absurd (Option.mem_toList.mp hmem) (he signo)

theorem mainStep_event (hs : mainStep s = some (e, s')) (signo : Signal) :
    e ≠ some (.caught signo) := by
  unfold mainStep at hs
  split at hs <;> simp only [Option.some.injEq, Prod.mk.injEq, reduceCtorEq] at hs <;>
    obtain ⟨rfl, rfl⟩ := hs <;> exact nofun

/-- Every step of `main`. -/
theorem ResultOk.mainStep (h : ResultOk tr s) (hnone : s.handlers = [])
    (hs : mainStep s = some (e, s')) : ResultOk (tr ++ e.toList) s' := by
  have hold : .caught .SIGINT ∈ tr ++ e.toList → .caught .SIGINT ∈ tr :=
    caught_append (mainStep_event hs)
  have hset : .caught .SIGINT ∈ tr ++ e.toList → s.interrupted = true := fun hcaught => by
    rcases h.caught (hold hcaught) with hset | ⟨f, hone, -⟩
    · exact hset
    · exact nomatch hnone.symm.trans hone
  unfold Signals1uloha.mainStep at hs
  split at hs <;> simp only [Option.some.injEq, Prod.mk.injEq, reduceCtorEq] at hs <;>
    obtain ⟨rfl, rfl⟩ := hs
  case h_1 signo _ | h_6 signo _ =>
    cases signo with
    | SIGINT | SIGALRM => exact ⟨fun hcaught => .inl (hset hcaught), nofun, nofun, nofun⟩
  case h_2 | h_3 | h_4 | h_5 => exact ⟨fun hcaught => .inl (hset hcaught), nofun, nofun, nofun⟩
  case h_7 =>
    -- no handler runs, so that it has set `interrupted` if SIGINT was caught
    split
    · exact ⟨fun hcaught => .inl (hset hcaught), nofun, nofun, nofun⟩
    · rename_i hnot
      exact ⟨fun hcaught => .inl (hset hcaught), fun _ hcaught => hnot (hset hcaught), nofun, nofun⟩
  case h_8 =>
    exact ⟨fun hcaught => .inl (hset hcaught), nofun,
      fun code hpc => .inr (MainPc.returned.inj hpc).symm, nofun⟩
  case h_9 hpc =>
    exact ⟨fun hcaught => .inl (hset hcaught),
      fun _ hcaught => h.continued (.inl hpc) (hold hcaught),
      fun code hpc => .inl (MainPc.returned.inj hpc).symm, nofun⟩

/-- A step of `catch_sig`. -/
theorem ResultOk.frame (h : ResultOk tr s) (hone : s.handlers = [f]) (hmain : s'.main = s.main)
    (he : ∀ signo, e ≠ some (.caught signo))
    (hkept : s.interrupted = true → s'.interrupted = true)
    (hsets : f.sets = true → s'.interrupted = true ∨ ∃ f', s'.handlers = [f'] ∧ f'.sets = true) :
    ResultOk (tr ++ e.toList) s' := by
  refine ⟨fun hcaught => ?_, fun hpc hcaught => ?_, hmain ▸ h.returned, hmain ▸ h.alive⟩
  · rcases h.caught (caught_append he hcaught) with hset | ⟨f₀, hone', hf₀⟩
    · exact .inl (hkept hset)
    · obtain rfl := List.singleton_inj.mp (hone.symm.trans hone')
      exact hsets hf₀
  · exact h.continued (hmain ▸ hpc) (caught_append he hcaught)

/-- Every step of `catch_sig`. -/
theorem ResultOk.catchSig (h : ResultOk tr s) (hone : s.handlers = [f]) :
    ResultOk (tr ++ (catchSig f [] s).1.toList) (catchSig f [] s).2 := by
  unfold Signals1uloha.catchSig
  cases hpc : f.pc with
  | printCatched =>
    -- only the handler of `SIGINT` is going to set `interrupted`
    refine h.frame hone rfl nofun id fun hsets => .inr ?_
    cases hsigno : f.signo with
    | SIGINT => exact ⟨_, rfl, by simp [Frame.sets]⟩
    | SIGALRM => simp [Frame.sets, hsigno] at hsets
  | cancelAlarm =>
    refine h.frame hone rfl nofun id fun hsets => .inr ⟨_, rfl, ?_⟩
    cases hsigno : f.signo with
    | SIGINT => simp [Frame.sets]
    | SIGALRM => simp [Frame.sets, hsigno] at hsets
  | printName =>
    cases hsigno : f.signo with
    | SIGINT =>
      exact h.frame hone rfl nofun id fun _ => .inr ⟨_, rfl, by simp [Frame.sets]⟩
    | SIGALRM =>
      refine h.frame hone rfl nofun id fun hsets => ?_
      simp [Frame.sets, hsigno] at hsets
  -- here it is set
  | setInterrupted => exact h.frame hone rfl nofun (fun _ => rfl) fun _ => .inl rfl
  | printSigno | ret =>
    refine h.frame hone rfl nofun id fun hsets => ?_
    cases hsigno : f.signo <;> simp [Frame.sets, hpc, hsigno] at hsets

/-! ## All together -/

/-- What holds after the events `tr`. -/
structure Inv (ignored mask : SigSet Signal) (tr : List Event) (s : State) : Prop where
  kernel : KernelOk ignored mask s
  alarm : AlarmOk s
  result : ResultOk tr s

theorem Inv.initial (ignored mask : SigSet Signal) :
    Inv ignored mask [] (initial ignored mask) where
  kernel := ⟨fun _ => rfl, nofun, nofun, .none rfl rfl rfl⟩
  alarm := ⟨fun _ => rfl, nofun, nofun, nofun⟩
  result := ⟨nofun, fun _ => nofun, nofun, nofun⟩

/-- A step of the program. -/
theorem Inv.run (h : Inv ignored mask tr s) (hquiet : s.kernel.Quiet)
    (hs : (match s.handlers with
      | [] => mainStep s
      | f :: fs => some (catchSig f fs s)) = some (e, s')) :
    Inv ignored mask (tr ++ e.toList) s' := by
  cases h.kernel.calls with
  | none hnone =>
    rw [hnone] at hs
    exact ⟨h.kernel.mainStep hquiet hnone hs, h.alarm.mainStep hquiet hnone hs,
      h.result.mainStep hnone hs⟩
  | @one f hone _ _ hwaits =>
    -- there is one call of `catch_sig`, and `main` does not wait
    rw [hone] at hs
    simp only [Option.some.injEq] at hs
    have halarm := h.alarm.catchSig hone hwaits
    have hresult := h.result.catchSig hone
    have hkernel := h.kernel.catchSig hone
    rw [hs] at hkernel halarm hresult
    exact ⟨hkernel, halarm, hresult⟩

/-- A signal is delivered. -/
theorem Inv.deliver (h : Inv ignored mask tr s) (hdeliver : s.kernel.deliverable signo = true)
    (hs : deliver signo s = (e, s')) : Inv ignored mask (tr ++ e.toList) s' := by
  obtain ⟨hinst, hnone, -⟩ := h.kernel.delivered hdeliver
  have haction := h.kernel.action signo
  rw [hinst, if_pos rfl] at haction
  unfold Signals1uloha.deliver at hs
  rw [haction] at hs
  obtain ⟨rfl, rfl⟩ := Prod.mk.inj hs
  exact ⟨h.kernel.handle hdeliver (h.alarm.not_sigsuspend hdeliver),
    h.alarm.handle hnone hdeliver _, h.result.handle hnone hinst _⟩

/-- The alarm is set only where `catch_sig` is the handler of SIGALRM. -/
theorem Inv.alarm_action (h : Inv ignored mask tr s) (halarm : s.alarm = true) :
    s.kernel.action .SIGALRM = .handler := by
  rw [h.kernel.action .SIGALRM]
  refine if_pos ?_
  rcases (h.alarm.alarm halarm).2 with hwaits | ⟨hpc, -⟩
  · cases hpc : s.main <;> rw [hpc] at hwaits <;> first
      | rfl
      | exact nomatch hwaits
  · rw [hpc]
    rfl

/-- Every step that meets the condition. -/
theorem Inv.step (h : Inv ignored mask tr s) (hok : Orderly s a)
    (hs : step s a = some (e, s')) : Inv ignored mask (tr ++ e.toList) s' := by
  unfold Signals1uloha.step at hs
  rw [Option.ite_none_left_eq_some] at hs
  obtain ⟨-, hs⟩ := hs
  cases a with
  | run =>
    rw [Option.ite_none_right_eq_some] at hs
    exact h.run hs.1 hs.2
  | deliver signo =>
    rw [Option.ite_none_right_eq_some] at hs
    exact h.deliver hs.1 (Option.some.inj hs.2)
  -- the user sends `SIGINT`, or the timer runs out: the signal becomes pending, or is ignored
  | sigint =>
    obtain ⟨rfl, rfl⟩ := Prod.mk.inj (Option.some.inj hs)
    rw [Option.toList_none, List.append_nil]
    exact ⟨h.kernel.generate hok.1 _, h.alarm.sigint hok.2, { h.result with }⟩
  | timer =>
    rw [Option.ite_none_right_eq_some] at hs
    obtain ⟨halarm, hs⟩ := hs
    obtain ⟨rfl, rfl⟩ := Prod.mk.inj (Option.some.inj hs)
    have haction := h.alarm_action halarm
    rw [Option.toList_none, List.append_nil]
    exact ⟨h.kernel.generate (by simp [haction]) _,
      h.alarm.timer halarm hok (by simp [haction]), { h.result with }⟩

/-- Every run whose steps meet the condition. -/
theorem run_inv (h : (machine.restrict Orderly).Run (initial ignored mask) tr s) :
    Inv ignored mask tr s := by
  refine h.trace_invariant (I := Inv ignored mask) (fun tr s a e s' hI hs => ?_) (.initial _ _)
  obtain ⟨hok, hs⟩ := Machine.restrict_step.mp hs
  exact hI.step hok hs

/-- Where a wait has begun, the alarm or a signal ends it. -/
theorem Inv.not_stuck (h : Inv ignored mask tr s) : ¬ Stuck s := by
  rintro ⟨⟨oldMask, hpc⟩, hpending, halarm⟩
  rcases h.alarm.wait (by rw [hpc]; rfl) with hset | halrm
  · exact nomatch halarm.symm.trans hset
  · exact nomatch (hpending .SIGALRM).symm.trans halrm

/-! ## The end of the program -/

/-- How many steps of `main` are still to come, at most. -/
def MainPc.rank : MainPc → ℕ
  | .sigaction .SIGINT => 11
  | .sigaction .SIGALRM => 10
  | .puts => 9
  | .alarm => 8
  | .sigsuspend => 7
  | .suspended _ => 6
  | .sigsuspendReturn => 5
  | .restore .SIGINT => 4
  | .restore .SIGALRM => 3
  | .testInterrupted => 2
  | .putsBreak | .putsContinue => 1
  | .returned _ | .killed _ => 0

/-- How many steps of a call of `catch_sig` are still to come, at most. -/
def HandlerPc.rank : HandlerPc → ℕ
  | .printCatched => 6
  | .cancelAlarm => 5
  | .printName => 4
  | .setInterrupted => 3
  | .printSigno => 2
  | .ret => 1

/-- The same for all calls. -/
def framesRank (fs : List Frame) : ℕ := (fs.map fun f => f.pc.rank).sum

theorem framesRank_cons (f : Frame) (fs : List Frame) :
    framesRank (f :: fs) = f.pc.rank + framesRank fs := List.sum_cons

/-- A pending signal stands for its delivery and the call of `catch_sig`. -/
def pendingRank (k : SigState Signal) : ℕ :=
  (if k.pending .SIGINT then 7 else 0) + (if k.pending .SIGALRM then 7 else 0)

/-- What every step makes smaller, unless it generates SIGINT. -/
def State.rank (s : State) : ℕ :=
  10 * s.main.rank + framesRank s.handlers + pendingRank s.kernel + (if s.alarm then 8 else 0)

theorem pendingRank_sigaction_le (k : SigState Signal) (signo : Signal) (a : Disposition) :
    pendingRank (k.sigaction signo a) ≤ pendingRank k := by
  have hkept : ∀ signo', (if (k.sigaction signo a).pending signo' then 7 else 0) ≤
      (if k.pending signo' then 7 else 0) := by
    intro signo'
    by_cases hpending : (k.sigaction signo a).pending signo' = true
    · rw [if_pos hpending, if_pos (SigState.sigaction_pending hpending)]
    · rw [if_neg hpending]
      exact Nat.zero_le _
  exact Nat.add_le_add (hkept .SIGINT) (hkept .SIGALRM)

theorem pendingRank_sigdelset {k k' : SigState Signal} (h : k.pending signo = true)
    (hk' : k'.pending = sigdelset k.pending signo) : pendingRank k' + 7 = pendingRank k := by
  unfold pendingRank sigdelset at *
  cases signo <;> simp [hk', h]
  omega

theorem pendingRank_generate_le (k : SigState Signal) :
    pendingRank (k.generate .SIGALRM) ≤ pendingRank k + 7 := by
  unfold pendingRank SigState.generate sigaddset
  split
  · exact Nat.le_add_right _ 7
  · simp

/-- Every step of `main`. -/
theorem mainStep_rank (hs : mainStep s = some (e, s')) : s'.rank < s.rank := by
  unfold mainStep at hs
  split at hs <;> simp only [Option.some.injEq, Prod.mk.injEq, reduceCtorEq] at hs <;>
    obtain ⟨rfl, rfl⟩ := hs
  case h_1 signo hpc =>
    have hle := pendingRank_sigaction_le s.kernel signo .handler
    cases signo <;> simp only [State.rank, MainPc.rank, hpc] <;> omega
  case h_6 signo hpc =>
    have hle := pendingRank_sigaction_le s.kernel signo (s.saOld signo)
    cases signo <;> simp only [State.rank, MainPc.rank, hpc] <;> omega
  case h_2 | h_5 | h_8 | h_9 =>
    rename_i hpc
    simp only [State.rank, MainPc.rank, hpc]
    omega
  case h_3 hpc =>
    -- the alarm counts less than a step of `main`
    simp only [State.rank, MainPc.rank, hpc, if_true]
    omega
  case h_4 hpc =>
    have heq : pendingRank (s.kernel.setMask sigs) = pendingRank s.kernel := rfl
    simp only [State.rank, MainPc.rank, hpc, heq]
    omega
  case h_7 hpc =>
    split
    · simp only [State.rank, MainPc.rank, hpc]
      omega
    · simp only [State.rank, MainPc.rank, hpc]
      omega

/-- Every step of `catch_sig`. -/
theorem catchSig_rank {fs : List Frame} (hhandlers : s.handlers = f :: fs) :
    (catchSig f fs s).2.rank < s.rank := by
  have hsum : framesRank s.handlers = f.pc.rank + framesRank fs := by
    rw [hhandlers, framesRank_cons]
  unfold catchSig
  cases hpc : f.pc <;> rw [hpc] at hsum
  case printCatched | printName =>
    cases f.signo with
    | SIGINT | SIGALRM =>
      simp only [State.rank, hsum, framesRank_cons, HandlerPc.rank]
      omega
  case cancelAlarm =>
    simp only [State.rank, hsum, framesRank_cons, HandlerPc.rank, Bool.false_eq_true, if_false]
    omega
  case setInterrupted | printSigno =>
    simp only [State.rank, hsum, framesRank_cons, HandlerPc.rank]
    omega
  case ret =>
    -- the mask is set back, and what is pending stays pending
    have heq : pendingRank (s.kernel.setMask f.oldMask) = pendingRank s.kernel := rfl
    simp only [State.rank, hsum, HandlerPc.rank, heq]
    omega

theorem MainPc.interrupt_rank_le (pc : MainPc) : pc.interrupt.rank ≤ pc.rank := by
  cases pc with
  | suspended => exact Nat.le_succ 5
  | _ => exact Nat.le_refl _

/-- A signal is delivered. -/
theorem deliver_rank (hdeliver : s.kernel.deliverable signo = true)
    (hended : s.main.ended = false) : (deliver signo s).2.rank < s.rank := by
  have hpending := (SigState.deliverable_eq_true.mp hdeliver).1
  unfold deliver
  split
  -- killed: nothing is left for `main`
  · have hpos : 0 < s.main.rank := by
      cases hpc : s.main <;> rw [hpc] at hended
      case sigaction signo | restore signo => cases signo <;> decide
      case returned | killed => exact nomatch hended
      all_goals exact Nat.succ_pos _
    have hzero : (MainPc.killed signo).rank = 0 := rfl
    simp only [State.rank, hzero]
    omega
  -- ignored
  · have htaken := pendingRank_sigdelset hpending (s.kernel.discard_pending signo)
    simp only [State.rank]
    omega
  -- a pending signal counts for more than the steps of its handler
  · have htaken := pendingRank_sigdelset hpending (s.kernel.handle_pending_eq signo saMask)
    have hle := s.main.interrupt_rank_le
    simp only [State.rank, framesRank_cons, HandlerPc.rank]
    omega

/-- Every step but one that generates SIGINT. -/
theorem step_rank (ha : a ≠ .sigint) (hs : step s a = some (e, s')) : s'.rank < s.rank := by
  unfold step at hs
  rw [Option.ite_none_left_eq_some] at hs
  obtain ⟨hended, hs⟩ := hs
  cases a with
  | run =>
    rw [Option.ite_none_right_eq_some] at hs
    obtain ⟨-, hs⟩ := hs
    split at hs
    -- the main program goes on, or the innermost handler
    · exact mainStep_rank hs
    · rename_i hhandlers
      have hlt := catchSig_rank hhandlers
      rw [Option.some.inj hs] at hlt
      exact hlt
  -- a delivered signal is no longer pending
  | deliver signo =>
    rw [Option.ite_none_right_eq_some] at hs
    have hlt := deliver_rank hs.1 (Bool.not_eq_true _ ▸ hended)
    rw [Option.some.inj hs.2] at hlt
    exact hlt
  | sigint => exact absurd rfl ha
  | timer =>
    rw [Option.ite_none_right_eq_some] at hs
    obtain ⟨halarm, hs⟩ := hs
    obtain ⟨-, rfl⟩ := Prod.mk.inj (Option.some.inj hs)
    -- the timer is off now, and adds at most one pending signal
    have hle := pendingRank_generate_le s.kernel
    simp only [State.rank, halarm, if_true, Bool.false_eq_true, if_false]
    omega

/-- Where `main` does not wait, it can go on. -/
theorem exists_mainStep (hended : s.main.ended = false)
    (hsuspended : ∀ oldMask, s.main ≠ .suspended oldMask) : ∃ r, mainStep s = some r := by
  unfold mainStep
  cases hpc : s.main
  case suspended oldMask => exact absurd hpc (hsuspended oldMask)
  case returned | killed =>
    rw [hpc] at hended
    exact nomatch hended
  all_goals exact ⟨_, rfl⟩

theorem step_run (hended : s.main.ended = false) (hquiet : s.kernel.Quiet) :
    step s .run = match s.handlers with
      | [] => mainStep s
      | f :: fs => some (catchSig f fs s) :=
  (if_neg (by simp [hended])).trans (if_pos hquiet)

theorem step_deliver (hended : s.main.ended = false)
    (hdeliver : s.kernel.deliverable signo = true) :
    step s (.deliver signo) = some (deliver signo s) :=
  (if_neg (by simp [hended])).trans (if_pos hdeliver)

theorem step_timer (hended : s.main.ended = false) (halarm : s.alarm = true) : step s .timer =
    some (none, { s with alarm := false, kernel := s.kernel.generate .SIGALRM }) :=
  (if_neg (by simp [hended])).trans (if_pos halarm)

/-- Until it has ended, the process can take a step without a further SIGINT. -/
theorem Inv.progress (h : Inv ignored mask tr s) (hended : s.main.ended = false) :
    ∃ a r, Orderly s a ∧ a ≠ .sigint ∧ machine.step s a = some r := by
  by_cases hquiet : s.kernel.Quiet
  · have hrun := step_run hended hquiet
    cases h.kernel.calls with
    | one hone =>
      rw [hone] at hrun
      exact ⟨.run, _, trivial, nofun, hrun⟩
    | none hnone hmask =>
      by_cases hsuspended : ∃ oldMask, s.main = .suspended oldMask
      · -- no signal is pending, so that the alarm is still set
        obtain ⟨oldMask, hpc⟩ := hsuspended
        rw [hpc] at hmask
        rcases h.alarm.wait (by rw [hpc]; rfl) with halarm | hpending
        · have hpc' : s.main ≠ .sigsuspend := by
            rw [hpc]
            exact nofun
          exact ⟨.timer, _, fun h => absurd h hpc', nofun, step_timer hended halarm⟩
        · have hblocked := hquiet.mask hpending
          rw [hmask] at hblocked
          exact nomatch hblocked
      · obtain ⟨r, hr⟩ := exists_mainStep hended (not_exists.mp hsuspended)
        rw [hnone, hr] at hrun
        exact ⟨.run, r, trivial, nofun, hrun⟩
  · -- a signal is to be delivered
    obtain ⟨signo, hdeliver⟩ := not_forall.mp hquiet
    exact ⟨.deliver signo, _, trivial, nofun,
      step_deliver hended (Bool.of_not_eq_false hdeliver)⟩

/-- For any signals ignored or blocked at the start: in every run whose steps meet the condition,
    `main` is never blocked in `sigsuspend` with no signal pending and no alarm set; and when
    `catch_sig` has been called for SIGINT, then, as soon as no further SIGINT is generated, the
    program ends and returns 1. -/
theorem sigsuspend_returns (ignored mask : SigSet Signal) (tr : List Event) (s : State)
    (h : (machine.restrict Orderly).Run (initial ignored mask) tr s) :
    ¬ Stuck s ∧ (.caught .SIGINT ∈ tr →
      (machine.restrict Orderly).Inevitable (fun _ a => a ≠ .sigint)
        (fun s => s.main = .returned 1) s) := by
  have hinv := run_inv h
  refine ⟨hinv.not_stuck, fun hcaught => ?_⟩
  -- the events so far belong to the invariant, since they say that SIGINT has been caught
  refine Machine.Inevitable.of_measure
    (I := fun s => ∃ tr, Inv ignored mask tr s ∧ .caught .SIGINT ∈ tr) State.rank ?_ ?_
    ⟨tr, hinv, hcaught⟩
  · rintro s ⟨tr, hI, hcaught⟩ hnot
    cases hended : s.main.ended with
    | false =>
      obtain ⟨a, r, hok, ha, hs⟩ := hI.progress hended
      exact ⟨a, r, ha, Machine.restrict_step.mpr ⟨hok, hs⟩⟩
    | true => exact absurd (hI.result.ended hended hcaught) hnot
  · rintro s a e s' ⟨tr, hI, hcaught⟩ - ha hs
    obtain ⟨hok, hs⟩ := Machine.restrict_step.mp hs
    exact ⟨⟨_, hI.step hok hs, List.mem_append_left _ hcaught⟩, step_rank ha hs⟩

/-- `n` steps of the program. -/
def runs (n : ℕ) : List Act := List.replicate n .run

/-- SIGINT comes while `main` waits. -/
theorem sigsuspend_returns_waiting : ∃ tr s,
    (machine.restrict Orderly).Run (initial sigemptyset sigemptyset) tr s ∧
      s.main = .sigsuspendReturn ∧
      (machine.restrict Orderly).Inevitable (fun _ a => a ≠ .sigint)
        (fun s => s.main = .returned 1) s := by
  obtain ⟨tr, s, hrun, hpc, hcaught⟩ : ∃ tr s,
      (machine.restrict Orderly).Run (initial sigemptyset sigemptyset) tr s ∧
      s.main = .sigsuspendReturn ∧ .caught .SIGINT ∈ tr :=
    ⟨_, _, .of_exec (M := machine.restrict Orderly)
      (runs 5 ++ [.sigint, .deliver .SIGINT]) rfl, rfl, by decide⟩
  exact ⟨tr, s, hrun, hpc, (sigsuspend_returns sigemptyset sigemptyset tr s hrun).2 hcaught⟩

/-- SIGINT comes when the alarm has just been set, and `main` waits then without it. -/
theorem sigsuspend_stuck : ∃ tr s,
    machine.Run (initial sigemptyset sigemptyset) tr s ∧ .caught .SIGINT ∈ tr ∧ Stuck s := by
  refine ⟨_, _, .of_exec (M := machine) (runs 4 ++ [.sigint, .deliver .SIGINT] ++ runs 7) rfl,
    by decide, ⟨_, rfl⟩, by decide, rfl⟩

/-- SIGINT comes while `main` waits, and once more after the old disposition is restored. -/
example : ∃ tr s, machine.Run (initial sigemptyset sigemptyset) tr s ∧ .caught .SIGINT ∈ tr ∧
    s.main = .killed .SIGINT :=
  ⟨_, _, .of_exec (M := machine) (runs 5 ++ [.sigint, .deliver .SIGINT] ++ runs 8 ++
    [.sigint, .deliver .SIGINT]) rfl, by decide, rfl⟩

end Signals1uloha
