import Mathlib.Algebra.BigOperators.Fin
import Mathlib.Tactic.Common
import OsSamples.Lib.Threads
import OsSamples.Native.SigUSRwait

/-!
# Every child is reaped once

Several children may terminate while SIGCHLD is pending or blocked, and the process gets one signal
for all of them.  No child is forgotten nevertheless: while there is a zombie, SIGCHLD is pending or
the handler has another call of `waitpid` before it.

## Key results

- `step_cases`: what a step can do, one constructor of `Step` for each kind
- `Inv.step`: the zombies, the pending signal and the handler, and how often a child is reported
- `step_rank`: until the handler has returned and no signal is pending, every step makes `rank`
  smaller
- `children_reaped`: all runs
-/

namespace SigUSRwait

open Signals

variable {n : ℕ} {ignored mask pending : SigSet Signal} {s s' : State n} {e : Option (Event n)}
  {tr : List (Event n)} {a : Act n} {c : Fin n} {f : Frame n} {fs : List (Frame n)}

/-! ## What a step can do -/

/-- The kinds of steps. -/
inductive Step (s : State n) : Act n → Option (Event n) → State n → Prop
  | sigaction {forks : Bool} (hpc : s.main = .sigaction) (hhandlers : s.handlers = []) :
      Step s (.main forks) none
        { s with kernel := s.kernel.sigaction .SIGCHLD .handler, main := .fork 0 }
  | fork {forks : Bool} {c : Fin n} (hpc : s.main = .fork c) (hhandlers : s.handlers = []) :
      Step s (.main forks) none
        { s with child := Function.update s.child c .running, main := .fork (c + 1) }
  | main {forks : Bool} {main : MainPc} (hpc : s.main ≠ .sigaction) (hhandlers : s.handlers = [])
      (hmain : main ≠ .sigaction) (hfork : ∀ j, main = .fork j → ∃ i ≤ j, s.main = .fork i) :
      Step s (.main forks) none { s with main := main }
  | printCatched {reap : Option (Fin n)} {f : Frame n} {fs : List (Frame n)} (text : String)
      (hhandlers : s.handlers = f :: fs) (hpc : f.pc = .printCatched) :
      Step s (.handler reap) (some (.print text))
        { s with handlers := { f with pc := .waitpid } :: fs }
  | reap {f : Frame n} {fs : List (Frame n)} {c : Fin n} {status : Status}
      (hhandlers : s.handlers = f :: fs) (hpc : f.pc = .waitpid)
      (hc : s.child c = .zombie status) :
      Step s (.handler (some c)) (some (.reaped c status)) { s with
        child := Function.update s.child c (.reaped status)
        handlers := { f with pc := .report c status } :: fs }
  | noZombie {f : Frame n} {fs : List (Frame n)} (hhandlers : s.handlers = f :: fs)
      (hpc : f.pc = .waitpid) (hnone : ∀ c, (s.child c).isZombie = false) :
      Step s (.handler none) none { s with handlers := { f with pc := .ret } :: fs }
  | report {reap : Option (Fin n)} {f : Frame n} {fs : List (Frame n)} {c : Fin n} {status : Status}
      (hhandlers : s.handlers = f :: fs) (hpc : f.pc = .report c status) :
      Step s (.handler reap) (some (.report c status.text))
        { s with handlers := { f with pc := .waitpid } :: fs }
  | ret {reap : Option (Fin n)} {f : Frame n} {fs : List (Frame n)}
      (hhandlers : s.handlers = f :: fs) (hpc : f.pc = .ret) : Step s (.handler reap) none
        { s with kernel := s.kernel.setMask f.oldMask, handlers := fs }
  | discard (hdeliver : s.kernel.deliverable .SIGCHLD = true)
      (haction : s.kernel.action .SIGCHLD ≠ .handler) :
      Step s .deliver none { s with kernel := s.kernel.discard .SIGCHLD }
  | call (hdeliver : s.kernel.deliverable .SIGCHLD = true)
      (haction : s.kernel.action .SIGCHLD = .handler) : Step s .deliver none { s with
        handlers := ⟨.printCatched, s.kernel.mask⟩ :: s.handlers
        kernel := s.kernel.handle .SIGCHLD saMask }
  | terminate {c : Fin n} {status : Status} (hc : s.child c = .running) :
      Step s (.terminate c status) none { s with
        child := Function.update s.child c (.zombie status)
        kernel := s.kernel.generate .SIGCHLD }
  | kill : Step s .kill none { s with kernel := s.kernel.generate .SIGCHLD }

/-- The steps of `main`. -/
theorem mainStep_cases {forks : Bool} (hhandlers : s.handlers = [])
    (hs : mainStep forks s = some s') : Step s (.main forks) none s' := by
  unfold mainStep at hs
  split at hs
  case h_1 hpc =>
    obtain rfl := Option.some.inj hs
    exact .sigaction hpc hhandlers
  case h_2 i hpc =>
    split at hs
    · rename_i hi
      obtain rfl := Option.some.inj hs
      cases forks with
      | true => exact .fork (c := ⟨i, hi⟩) hpc hhandlers
      | false =>
        refine .main (by rw [hpc]; exact nofun) hhandlers nofun fun j hj => ⟨i, ?_, hpc⟩
        rw [← MainPc.fork.inj hj]
        exact Nat.le_succ i
    · obtain rfl := Option.some.inj hs
      exact .main (by rw [hpc]; exact nofun) hhandlers nofun nofun
  case h_3 hpc =>
    obtain rfl := Option.some.inj hs
    exact .main (by rw [hpc]; exact nofun) hhandlers nofun nofun
  case h_4 => exact nomatch hs

/-- The steps of `catch_child`. -/
theorem catchChild_cases {reap : Option (Fin n)} (hhandlers : s.handlers = f :: fs)
    (hs : catchChild reap f fs s = some (e, s')) : Step s (.handler reap) e s' := by
  unfold catchChild at hs
  split at hs
  case h_1 hpc =>
    obtain ⟨rfl, rfl⟩ := Prod.mk.inj (Option.some.inj hs)
    exact .printCatched _ hhandlers hpc
  case h_2 hpc =>
    -- `waitpid` finds no zombie, and the handler returns
    cases reap with
    | none =>
      rw [Option.ite_none_right_eq_some] at hs
      obtain ⟨rfl, rfl⟩ := Prod.mk.inj (Option.some.inj hs.2)
      exact .noZombie hhandlers hpc hs.1
    -- only a zombie can be reaped
    | some c =>
      cases hc : s.child c with
      | zombie status =>
        simp only [hc] at hs
        obtain ⟨rfl, rfl⟩ := Prod.mk.inj (Option.some.inj hs)
        exact .reap hhandlers hpc hc
      | notForked | running | reaped =>
        simp only [hc] at hs
        exact nomatch hs
  case h_3 c status hpc =>
    obtain ⟨rfl, rfl⟩ := Prod.mk.inj (Option.some.inj hs)
    exact .report hhandlers hpc
  case h_4 hpc =>
    obtain ⟨rfl, rfl⟩ := Prod.mk.inj (Option.some.inj hs)
    exact .ret hhandlers hpc

/-- The delivery of SIGCHLD. -/
theorem deliver_cases (hdeliver : s.kernel.deliverable .SIGCHLD = true) :
    Step s .deliver none (deliver s) := by
  unfold deliver
  split
  · rename_i haction
    exact .discard hdeliver (by rw [haction]; exact nofun)
  · rename_i haction
    exact .discard hdeliver (by rw [haction]; exact nofun)
  · exact .call hdeliver ‹_›

/-- Every step is of one of the kinds, and the process has not ended. -/
theorem step_cases (hs : step s a = some (e, s')) : s.main ≠ .exited ∧ Step s a e s' := by
  unfold step at hs
  rw [Option.ite_none_left_eq_some] at hs
  obtain ⟨hended, hs⟩ := hs
  refine ⟨hended, ?_⟩
  cases a with
  -- the main program goes on only when no handler is running
  | main forks =>
    cases hhandlers : s.handlers with
    | nil =>
      simp only [hhandlers, Option.map_eq_some_iff, Prod.mk.injEq] at hs
      obtain ⟨s'', hs, rfl, rfl⟩ := hs
      exact mainStep_cases hhandlers hs
    | cons f fs =>
      simp only [hhandlers] at hs
      exact nomatch hs
  -- of the handlers the innermost one goes on
  | handler reap =>
    cases hhandlers : s.handlers with
    | nil =>
      simp only [hhandlers] at hs
      exact nomatch hs
    | cons f fs =>
      simp only [hhandlers] at hs
      exact catchChild_cases hhandlers hs
  | deliver =>
    rw [Option.ite_none_right_eq_some] at hs
    obtain ⟨rfl, rfl⟩ := Prod.mk.inj (Option.some.inj hs.2)
    exact deliver_cases hs.1
  | terminate c status =>
    rw [Option.ite_none_right_eq_some] at hs
    obtain ⟨rfl, rfl⟩ := Prod.mk.inj (Option.some.inj hs.2)
    exact .terminate hs.1
  | kill =>
    obtain ⟨rfl, rfl⟩ := Prod.mk.inj (Option.some.inj hs)
    exact .kill

/-! ## Where the process is -/

/-- The set-up: the handler is installed before the first `fork`. -/
structure SetUp (s : State n) : Prop where
  action : s.kernel.action .SIGCHLD = .handler ↔ s.main ≠ .sigaction
  children : s.main = .sigaction → ∀ c, s.child c = .notForked
  fork : ∀ i, s.main = .fork i → ∀ c : Fin n, i ≤ c → s.child c = .notForked

/-- A step that does not touch `main`, and no child that is not forked. -/
theorem SetUp.frame (h : SetUp s) (hmain : s'.main = s.main)
    (haction : s'.kernel.action = s.kernel.action)
    (hchild : ∀ c, s.child c = .notForked → s'.child c = .notForked) : SetUp s' where
  action := by rw [hmain, haction]; exact h.action
  children := fun hpc c => hchild c (h.children (hmain ▸ hpc) c)
  fork := fun i hpc c hle => hchild c (h.fork i (hmain ▸ hpc) c hle)

theorem SetUp.step (h : SetUp s) (hs : Step s a e s') : SetUp s' := by
  -- a child that has been forked may change
  have hupdate : ∀ c child, s.child c ≠ .notForked → ∀ c', s.child c' = .notForked →
      Function.update s.child c child c' = .notForked := by
    intro c child hc c' hc'
    have hne : c' ≠ c := by
      rintro rfl
      exact hc hc'
    rwa [Function.update_of_ne hne]
  cases hs with
  | sigaction hpc hhandlers =>
    exact ⟨by simp, nofun, fun _ _ c _ => h.children hpc c⟩
  | @fork _ c hpc hhandlers =>
    refine ⟨?_, nofun, fun i hi c' hle => ?_⟩
    · show s.kernel.action .SIGCHLD = .handler ↔ MainPc.fork (c + 1) ≠ .sigaction
      simp [h.action, hpc]
    · rw [← MainPc.fork.inj hi] at hle
      have hne : c' ≠ c := by
        rintro rfl
        omega
      show Function.update s.child c .running c' = .notForked
      rw [Function.update_of_ne hne]
      exact h.fork c hpc c' (by omega)
  | main hpc hhandlers hmain hfork =>
    refine ⟨?_, fun hpc' => absurd hpc' hmain, fun j hj c hle => ?_⟩
    · exact ⟨fun _ => hmain, fun _ => h.action.mpr hpc⟩
    · obtain ⟨i, hij, hi⟩ := hfork j hj
      exact h.fork i hi c (hij.trans hle)
  | reap hhandlers hpc hc =>
    exact h.frame rfl rfl (hupdate _ _ (by rw [hc]; exact nofun))
  | terminate hc =>
    exact h.frame rfl rfl (hupdate _ _ (by rw [hc]; exact nofun))
  | printCatched | noZombie | report | ret | discard | call | kill =>
    exact h.frame rfl rfl fun _ => id

/-- The handler runs at most once at a time, and SIGCHLD is blocked while it runs. -/
inductive HandlersOk (mask : SigSet Signal) (s : State n) : Prop
  | none (hhandlers : s.handlers = []) (hmask : s.kernel.mask = mask)
  | one (f : Frame n) (hhandlers : s.handlers = [f]) (holdMask : f.oldMask = mask)
      (hmask : s.kernel.mask .SIGCHLD = true)

theorem HandlersOk.frame (h : HandlersOk mask s) (hhandlers : s'.handlers = s.handlers)
    (hmask : s'.kernel.mask = s.kernel.mask) : HandlersOk mask s' := by
  cases h with
  | none hnone hm => exact .none (hhandlers.trans hnone) (hmask.trans hm)
  | one f hone hold hm => exact .one f (hhandlers.trans hone) hold (hmask ▸ hm)

/-- The handler that runs is the only one. -/
theorem HandlersOk.cons (h : HandlersOk mask s) (hhandlers : s.handlers = f :: fs) :
    fs = [] ∧ f.oldMask = mask ∧ s.kernel.mask .SIGCHLD = true := by
  cases h with
  | none hnone hm => exact nomatch hhandlers.symm.trans hnone
  | one f' hone hold hm =>
    obtain ⟨rfl, rfl⟩ := List.cons.inj (hhandlers.symm.trans hone)
    exact ⟨rfl, hold, hm⟩

/-- The handler goes on. -/
theorem HandlersOk.goOn (h : HandlersOk mask s) (hhandlers : s.handlers = f :: fs)
    (pc : HandlerPc n) (hhandlers' : s'.handlers = { f with pc := pc } :: fs)
    (hmask : s'.kernel.mask = s.kernel.mask) : HandlersOk mask s' := by
  obtain ⟨rfl, hold, hm⟩ := h.cons hhandlers
  exact .one _ hhandlers' hold (hmask ▸ hm)

theorem HandlersOk.step (h : HandlersOk mask s) (hs : Step s a e s') : HandlersOk mask s' := by
  cases hs with
  | sigaction | fork | main | discard | terminate | kill => exact h.frame rfl rfl
  | printCatched text hhandlers => exact h.goOn hhandlers _ rfl rfl
  | reap hhandlers => exact h.goOn hhandlers _ rfl rfl
  | noZombie hhandlers => exact h.goOn hhandlers _ rfl rfl
  | report hhandlers => exact h.goOn hhandlers _ rfl rfl
  | ret hhandlers =>
    obtain ⟨rfl, hold, -⟩ := h.cons hhandlers
    exact .none rfl hold
  | call hdeliver haction =>
    cases h with
    | none hnone hm => exact .one _ (by rw [hnone]) hm (SigState.handle_mask.mpr (.inr (.inr rfl)))
    | one f hone hold hm =>
      -- SIGCHLD is blocked
      exact absurd (SigState.deliverable_eq_true.mp hdeliver).2 (by rw [hm]; exact nofun)

/-! ## The zombies -/

/-- The handler has another call of `waitpid` before it. -/
def State.waits (s : State n) : Prop := ∃ f ∈ s.handlers, f.pc ≠ .ret

/-- While there is a zombie, SIGCHLD is pending or the handler calls `waitpid` again. -/
def Covered (s : State n) : Prop :=
  ∀ c, (s.child c).isZombie = true → s.kernel.pending .SIGCHLD = true ∨ s.waits

theorem Covered.step (h : Covered s) (hsetUp : SetUp s) (hhandlersOk : HandlersOk mask s)
    (hs : Step s a e s') : Covered s' := by
  cases hs with
  | sigaction hpc hhandlers =>
    intro c hc
    have hnot := hsetUp.children hpc c
    exact absurd hc (by simp [hnot, Child.isZombie])
  | @fork _ c hpc hhandlers =>
    intro c' hc'
    by_cases hne : c' = c
    · subst hne
      simp [Child.isZombie] at hc'
    · exact h c' (by simpa [hne] using hc')
  | main => exact h
  | printCatched text hhandlers hpc => exact fun _ _ => .inr ⟨_, List.mem_cons_self, nofun⟩
  | reap hhandlers hpc hc => exact fun _ _ => .inr ⟨_, List.mem_cons_self, nofun⟩
  | report hhandlers hpc => exact fun _ _ => .inr ⟨_, List.mem_cons_self, nofun⟩
  | call hdeliver haction => exact fun _ _ => .inr ⟨_, List.mem_cons_self, nofun⟩
  | noZombie hhandlers hpc hnone =>
    intro c hc
    exact nomatch (hnone c).symm.trans hc
  | @ret _ f fs hhandlers hpc =>
    -- the zombies there are have terminated since the last `waitpid`
    intro c hc
    cases h c hc with
    | inl hpending => exact .inl hpending
    | inr hwaits =>
      obtain ⟨f', hmem, hf'⟩ := hwaits
      obtain ⟨rfl, -⟩ := hhandlersOk.cons hhandlers
      rw [hhandlers, List.mem_singleton] at hmem
      subst hmem
      exact absurd hpc hf'
  | discard hdeliver haction =>
    -- there are no children yet
    intro c hc
    have hnot := hsetUp.children (not_not.mp (mt hsetUp.action.mpr haction)) c
    exact absurd hc (by simp [hnot, Child.isZombie])
  | @terminate c status hc =>
    -- the handler is installed, so that the signal is not discarded
    have haction : s.kernel.action .SIGCHLD = .handler := by
      apply hsetUp.action.mpr
      intro hpc
      exact nomatch (hsetUp.children hpc c).symm.trans hc
    exact fun _ _ => .inl (SigState.generate_pending.mpr (.inr ⟨rfl, by simp [haction]⟩))
  | kill =>
    intro c hc
    exact (h c hc).imp (fun hpending => SigState.generate_pending.mpr (.inl hpending)) id

/-! ## The reports -/

/-- How often `waitpid` has returned the child. -/
def reaps (c : Fin n) (tr : List (Event n)) : ℕ :=
  tr.countP fun
    | .reaped c' _ => c' = c
    | _ => false

/-- How often the child has been reported. -/
def reports (c : Fin n) (tr : List (Event n)) : ℕ :=
  tr.countP fun
    | .report c' _ => c' = c
    | _ => false

/-- Whether the handler is about to report the child. -/
def HandlerPc.reports (c : Fin n) : HandlerPc n → Bool
  | .report c' _ => c' = c
  | .printCatched | .waitpid | .ret => false

/-- How often the child is still to be reported. -/
def State.toReport (c : Fin n) (s : State n) : ℕ := s.handlers.countP fun f => f.pc.reports c

def Child.isReaped : Child → Bool
  | .reaped _ => true
  | _ => false

theorem reaps_snoc (c : Fin n) (tr : List (Event n)) (e : Event n) :
    reaps c (tr ++ [e]) = reaps c tr + reaps c [e] := List.countP_append

theorem reports_snoc (c : Fin n) (tr : List (Event n)) (e : Event n) :
    reports c (tr ++ [e]) = reports c tr + reports c [e] := List.countP_append

theorem toReport_cons (hhandlers : s.handlers = f :: fs) :
    s.toReport c = (fs.countP fun f => f.pc.reports c) + if f.pc.reports c then 1 else 0 := by
  unfold State.toReport
  rw [hhandlers, List.countP_cons]

/-- How often a child has been reaped and reported, and with which status. -/
structure Counted (tr : List (Event n)) (s : State n) (c : Fin n) : Prop where
  reaps : reaps c tr = (s.child c).isReaped.toNat
  reports : reports c tr + s.toReport c = (s.child c).isReaped.toNat
  status : ∀ text, .report c text ∈ tr → ∃ status, s.child c = .reaped status ∧ text = status.text
  current : ∀ f ∈ s.handlers, ∀ status, f.pc = .report c status → s.child c = .reaped status

/-- The counts depend on the child and on the handlers only. -/
theorem Counted.congr (h : Counted tr s c) (hchild : s'.child c = s.child c)
    (hhandlers : s'.handlers = s.handlers) : Counted tr s' c where
  reaps := hchild ▸ h.reaps
  reports := by
    unfold State.toReport
    rw [hchild, hhandlers]
    exact h.reports
  status := hchild ▸ h.status
  current := by
    rw [hchild, hhandlers]
    exact h.current

/-- A child that has not been reaped changes, and is not reaped either. -/
theorem Counted.update (h : Counted tr s c) {c' : Fin n} {child : Child}
    (hc : (s.child c').isReaped = false) (hchild : child.isReaped = false)
    (hchild' : s'.child = Function.update s.child c' child) (hhandlers : s'.handlers = s.handlers) :
    Counted tr s' c := by
  by_cases hne : c = c'
  · subst hne
    have hsame : (s'.child c).isReaped = (s.child c).isReaped := by
      rw [hchild', Function.update_self, hchild, hc]
    have hnot : ∀ status, s.child c ≠ .reaped status := by
      intro status heq
      rw [heq] at hc
      exact nomatch hc
    refine ⟨hsame ▸ h.reaps, ?_, fun text htext => ?_, fun f hf status hpc => ?_⟩
    · unfold State.toReport
      rw [hsame, hhandlers]
      exact h.reports
    · obtain ⟨status, heq, -⟩ := h.status text htext
      exact absurd heq (hnot status)
    · exact absurd (h.current f (hhandlers ▸ hf) status hpc) (hnot status)
  · exact h.congr (by rw [hchild', Function.update_of_ne hne]) hhandlers

/-- The handler goes on without a report. -/
theorem Counted.goOn (h : Counted tr s c) (hhandlers : s.handlers = f :: fs) {pc : HandlerPc n}
    (hpc : ∀ c, f.pc.reports c = false) (hpc' : ∀ c, pc.reports c = false)
    (hreaps : SigUSRwait.reaps c e.toList = 0)
    (hreports : ∀ text, .report c text ∉ e.toList) :
    Counted (tr ++ e.toList) { s with handlers := { f with pc := pc } :: fs } c where
  -- the step reaps nothing, and the handler has nothing to report before or after it
  reaps := by
    rw [SigUSRwait.reaps, List.countP_append]
    show SigUSRwait.reaps c tr + SigUSRwait.reaps c e.toList = _
    rw [hreaps, Nat.add_zero]
    exact h.reaps
  reports := by
    have hzero : SigUSRwait.reports c e.toList = 0 := by
      unfold SigUSRwait.reports
      apply List.countP_eq_zero.mpr
      intro e' he' hc
      cases e' with
      | report c' text => exact hreports text (of_decide_eq_true hc ▸ he')
      | print | reaped => exact nomatch hc
    have hbefore := h.reports
    rw [toReport_cons hhandlers, hpc c] at hbefore
    rw [SigUSRwait.reports, List.countP_append, toReport_cons rfl, hpc' c]
    show SigUSRwait.reports c tr + SigUSRwait.reports c e.toList + _ = _
    rw [hzero, Nat.add_zero]
    exact hbefore
  -- the reports are those of before
  status := by
    intro text htext
    cases List.mem_append.mp htext with
    | inl hmem => exact h.status text hmem
    | inr hmem => exact absurd hmem (hreports text)
  -- the other handlers wait below this one
  current := by
    intro f' hf' status hstatus
    cases List.mem_cons.mp hf' with
    | inl heq =>
      have hnot := hpc' c
      rw [heq] at hstatus
      simp [show pc = .report c status from hstatus, HandlerPc.reports] at hnot
    | inr hmem => exact h.current f' (hhandlers ▸ List.mem_cons_of_mem f hmem) status hstatus

/-- `waitpid` returns the zombie `c'`. -/
theorem Counted.reap (h : Counted tr s c) (hhandlers : s.handlers = f :: fs)
    (hpc : f.pc = .waitpid) {c' : Fin n} {status : Status} (hc : s.child c' = .zombie status)
    (hchild : s'.child = Function.update s.child c' (.reaped status))
    (hhandlers' : s'.handlers = { f with pc := .report c' status } :: fs) :
    Counted (tr ++ [.reaped c' status]) s' c := by
  have hreports : ∀ text, .report c text ∈ tr ++ [.reaped c' status] → .report c text ∈ tr := by
    intro text htext
    simpa using htext
  have hsum := h.reports
  rw [toReport_cons hhandlers, hpc] at hsum
  -- the child that is reaped, or another one
  by_cases hne : c = c'
  · subst hne
    -- a zombie has not been reaped before
    have hnot : ∀ status', s.child c ≠ .reaped status' := by
      intro status' heq
      rw [hc] at heq
      exact nomatch heq
    have hreaps := h.reaps
    rw [hc] at hreaps hsum
    refine ⟨?_, ?_, fun text htext => ?_, fun f' hf' status' hstatus => ?_⟩
    · rw [reaps_snoc, hreaps, hchild, Function.update_self]
      simp [SigUSRwait.reaps, Child.isReaped]
    -- its report is still to come, from the handler that has reaped it
    · rw [reports_snoc, toReport_cons hhandlers', hchild, Function.update_self]
      have hzero : SigUSRwait.reports c [.reaped c status] = 0 := rfl
      simp only [hzero, HandlerPc.reports, Child.isReaped, decide_true, if_true, Bool.toNat_true,
        Bool.toNat_false, Bool.false_eq_true, if_false] at hsum ⊢
      omega
    · obtain ⟨status', heq, -⟩ := h.status text (hreports text htext)
      exact absurd heq (hnot status')
    · cases List.mem_cons.mp (hhandlers' ▸ hf') with
      | inl heq =>
        rw [heq] at hstatus
        obtain ⟨-, rfl⟩ := HandlerPc.report.inj hstatus
        rw [hchild, Function.update_self]
      | inr hmem =>
        have hbefore := h.current f' (hhandlers ▸ List.mem_cons_of_mem f hmem) status' hstatus
        exact absurd hbefore (hnot status')
  -- another child: its numbers stay
  · refine ⟨?_, ?_, fun text htext => ?_, fun f' hf' status' hstatus => ?_⟩
    · rw [reaps_snoc, h.reaps, hchild, Function.update_of_ne hne]
      simp [SigUSRwait.reaps, Ne.symm hne]
    · rw [reports_snoc, toReport_cons hhandlers', hchild, Function.update_of_ne hne]
      have hzero : SigUSRwait.reports c [.reaped c' status] = 0 := rfl
      simp only [hzero, HandlerPc.reports, decide_eq_true_eq, Ne.symm hne, if_false,
        Bool.false_eq_true] at hsum ⊢
      exact hsum
    · obtain ⟨status', heq, htext'⟩ := h.status text (hreports text htext)
      exact ⟨status', by rwa [hchild, Function.update_of_ne hne], htext'⟩
    · rw [hchild, Function.update_of_ne hne]
      cases List.mem_cons.mp (hhandlers' ▸ hf') with
      | inl heq =>
        rw [heq] at hstatus
        exact absurd (HandlerPc.report.inj hstatus).1.symm hne
      | inr hmem => exact h.current f' (hhandlers ▸ List.mem_cons_of_mem f hmem) status' hstatus

/-- The child `c'` is reported. -/
theorem Counted.report (h : Counted tr s c) (hhandlers : s.handlers = f :: fs) {c' : Fin n}
    {status : Status} (hpc : f.pc = .report c' status) :
    Counted (tr ++ [.report c' status.text]) { s with handlers := { f with pc := .waitpid } :: fs }
      c := by
  have hsum := h.reports
  rw [toReport_cons hhandlers, hpc] at hsum
  refine ⟨?_, ?_, fun text htext => ?_, fun f' hf' status' hstatus => ?_⟩
  · rw [reaps_snoc, h.reaps]
    rfl
  · rw [reports_snoc, toReport_cons rfl]
    -- one that was still to be made
    have hone : SigUSRwait.reports c [.report c' status.text] = if c' = c then 1 else 0 := by
      simp [SigUSRwait.reports, List.countP_cons]
    simp only [hone, HandlerPc.reports, decide_eq_true_eq, Bool.false_eq_true, if_false] at hsum ⊢
    omega
  · cases List.mem_append.mp htext with
    | inl hmem => exact h.status text hmem
    | inr hmem =>
      obtain ⟨rfl, rfl⟩ := Event.report.inj (List.mem_singleton.mp hmem)
      exact ⟨status, h.current f (hhandlers ▸ List.mem_cons_self) status hpc, rfl⟩
  · cases List.mem_cons.mp hf' with
    | inl heq =>
      rw [heq] at hstatus
      exact nomatch hstatus
    | inr hmem => exact h.current f' (hhandlers ▸ List.mem_cons_of_mem f hmem) status' hstatus

theorem Counted.step (h : Counted tr s c) (hsetUp : SetUp s) (hs : Step s a e s') :
    Counted (tr ++ e.toList) s' c := by
  cases hs with
  -- steps outside of the handlers and of the children
  | sigaction | main | discard | kill =>
    rw [Option.toList_none, List.append_nil]
    exact h.congr rfl rfl
  -- a child goes on, and is not reaped by it
  | @fork _ c' hpc hhandlers =>
    rw [Option.toList_none, List.append_nil]
    have hc' := hsetUp.fork c' hpc c' le_rfl
    exact h.update (by rw [hc']; rfl) rfl rfl rfl
  | @terminate c' status hc' =>
    rw [Option.toList_none, List.append_nil]
    exact h.update (by rw [hc']; rfl) rfl rfl rfl
  | printCatched text hhandlers hpc =>
    exact h.goOn hhandlers (fun c => by rw [hpc]; rfl) (fun _ => rfl) rfl (by simp)
  | noZombie hhandlers hpc =>
    exact h.goOn hhandlers (fun c => by rw [hpc]; rfl) (fun _ => rfl) rfl nofun
  | reap hhandlers hpc hc' => exact h.reap hhandlers hpc hc' rfl rfl
  | report hhandlers hpc => exact h.report hhandlers hpc
  -- a handler that returns has nothing left to report
  | ret hhandlers hpc =>
    rw [Option.toList_none, List.append_nil]
    refine ⟨h.reaps, ?_, h.status, fun f' hf' => ?_⟩
    · have hsum := h.reports
      rw [toReport_cons hhandlers, hpc] at hsum
      exact hsum
    · exact h.current f' (hhandlers ▸ List.mem_cons_of_mem _ hf')
  -- a new handler has reaped nothing yet
  | call hdeliver haction =>
    rw [Option.toList_none, List.append_nil]
    refine ⟨h.reaps, ?_, h.status, fun f' hf' status hstatus => ?_⟩
    · rw [toReport_cons rfl]
      exact h.reports
    · cases List.mem_cons.mp hf' with
      | inl heq =>
        rw [heq] at hstatus
        exact nomatch hstatus
      | inr hmem => exact h.current f' hmem status hstatus

/-! ## The whole invariant -/

/-- What holds after the events `tr`, where `mask` was blocked at the start. -/
structure Inv (mask : SigSet Signal) (tr : List (Event n)) (s : State n) : Prop where
  setUp : SetUp s
  handlers : HandlersOk mask s
  covered : Covered s
  counted : ∀ c, Counted tr s c

theorem Inv.step (h : Inv mask tr s) (hs : Step s a e s') : Inv mask (tr ++ e.toList) s' where
  setUp := h.setUp.step hs
  handlers := h.handlers.step hs
  covered := h.covered.step h.setUp h.handlers hs
  counted := fun c => (h.counted c).step h.setUp hs

theorem initial_inv : Inv mask [] (initial n ignored mask pending) where
  setUp := by
    refine ⟨⟨?_, fun h => absurd rfl h⟩, fun _ _ => rfl, nofun⟩
    intro haction
    unfold initial at haction
    dsimp only at haction
    split at haction <;> exact nomatch haction
  handlers := .none rfl rfl
  covered := nofun
  counted := fun _ => ⟨rfl, rfl, nofun, nofun⟩

theorem run_inv (h : (machine n).Run (initial n ignored mask pending) tr s) : Inv mask tr s :=
  h.trace_invariant (fun _ _ _ _ _ hI hs => hI.step (step_cases hs).2) initial_inv

/-! ## The way to the last report -/

/-- The handler does not run, and SIGCHLD is not pending. -/
def Idle (s : State n) : Prop := s.handlers = [] ∧ s.kernel.pending .SIGCHLD = false

/-- The condition on a step: SIGCHLD is delivered before `main` goes on, and nobody but the children
    sends it. -/
def Prompt (s : State n) : Act n → Prop
  | .main _ => s.kernel.deliverable .SIGCHLD = false
  | .kill => False
  | .handler _ | .deliver | .terminate _ _ => True

/-- At most so many steps of the handler follow from the child, those of its call included. -/
def Child.rank : Child → ℕ
  | .running => 7
  | .zombie _ => 2
  | .notForked | .reaped _ => 0

/-- The steps up to the return, if there is no zombie. -/
def HandlerPc.rank : HandlerPc n → ℕ
  | .printCatched | .report _ _ => 3
  | .waitpid => 2
  | .ret => 1

/-- A bound on the number of steps until the handler has returned and SIGCHLD is not pending. -/
def State.rank (s : State n) : ℕ :=
  Threads.total Child.rank s.child + (s.handlers.map fun f => f.pc.rank).sum +
    if s.kernel.pending .SIGCHLD then 4 else 0

theorem pendingRank_le (k : SigState Signal) :
    (if k.pending .SIGCHLD = true then 4 else 0) ≤ 4 := by
  split <;> omega

/-- Every step that meets the condition, where the process is not idle. -/
theorem step_rank (hinv : Inv mask tr s) (hmask : mask .SIGCHLD = false) (hidle : ¬ Idle s)
    (ha : Prompt s a) (hs : Step s a e s') : s'.rank < s.rank ∧ s'.main = s.main := by
  -- while no handler runs, a signal is to be delivered
  have hmain : s.handlers = [] → s.kernel.deliverable .SIGCHLD = false → False := by
    intro hhandlers hquiet
    cases hinv.handlers with
    | none _ hm =>
      refine hidle ⟨hhandlers, ?_⟩
      rwa [SigState.deliverable, hm, hmask, Bool.not_false, Bool.and_true] at hquiet
    | one f hone => cases hhandlers.symm.trans hone
  cases hs with
  | sigaction hpc hhandlers | fork hpc hhandlers | main hpc hhandlers =>
    exact (hmain hhandlers ha).elim
  | kill => exact ha.elim
  | printCatched text hhandlers hpc | noZombie hhandlers hpc | report hhandlers hpc =>
    refine ⟨?_, rfl⟩
    simp only [State.rank, hhandlers, List.map_cons, List.sum_cons, hpc, HandlerPc.rank]
    omega
  | @ret _ f fs hhandlers hpc =>
    refine ⟨?_, rfl⟩
    have hpending : (s.kernel.setMask f.oldMask).pending = s.kernel.pending := rfl
    simp only [State.rank, hhandlers, List.map_cons, List.sum_cons, hpc, HandlerPc.rank, hpending]
    omega
  | @reap f fs c status hhandlers hpc hc =>
    refine ⟨?_, rfl⟩
    have hsum := Threads.total_update Child.rank s.child c (.reaped status)
    rw [hc] at hsum
    simp only [Child.rank] at hsum
    simp only [State.rank, hhandlers, List.map_cons, List.sum_cons, hpc, HandlerPc.rank]
    omega
  | discard hdeliver haction =>
    refine ⟨?_, rfl⟩
    have hpending := (SigState.deliverable_eq_true.mp hdeliver).1
    simp [State.rank, hpending, SigState.discard_pending, sigdelset]
  | call hdeliver haction =>
    refine ⟨?_, rfl⟩
    have hpending := (SigState.deliverable_eq_true.mp hdeliver).1
    simp only [State.rank, hpending, SigState.handle_pending_eq, sigdelset, Function.update_self,
      List.map_cons, List.sum_cons, HandlerPc.rank, if_true, Bool.false_eq_true, if_false]
    omega
  | @terminate c status hc =>
    refine ⟨?_, rfl⟩
    have hsum := Threads.total_update Child.rank s.child c (.zombie status)
    rw [hc] at hsum
    simp only [Child.rank] at hsum
    have hle := pendingRank_le (s.kernel.generate .SIGCHLD)
    simp only [State.rank]
    omega

/-- Until the process is idle, the handler goes on or is called. -/
theorem Inv.progress (hinv : Inv mask tr s) (hmask : mask .SIGCHLD = false)
    (hended : s.main ≠ .exited) (hidle : ¬ Idle s) :
    ∃ a r, Prompt s a ∧ (machine n).step s a = some r := by
  cases hinv.handlers with
  | none hhandlers hm =>
    have hpending : s.kernel.pending .SIGCHLD = true := by
      apply Bool.eq_true_of_not_eq_false
      exact fun hnot => hidle ⟨hhandlers, hnot⟩
    have hdeliver : s.kernel.deliverable .SIGCHLD = true :=
      SigState.deliverable_eq_true.mpr ⟨hpending, by rw [hm, hmask]⟩
    exact ⟨.deliver, _, trivial, (if_neg hended).trans (if_pos hdeliver)⟩
  | one f hhandlers =>
    have hstep : ∀ reap, (machine n).step s (.handler reap) = catchChild reap f [] s := by
      intro reap
      simp only [machine, SigUSRwait.step, hended, hhandlers, if_false]
    -- `waitpid` returns one of the zombies, if there is one
    obtain ⟨reap, r, hr⟩ : ∃ reap r, catchChild reap f [] s = some r := by
      unfold catchChild
      cases hpc : f.pc with
      | printCatched | report | ret => exact ⟨none, _, rfl⟩
      | waitpid =>
        by_cases hnone : ∀ c, (s.child c).isZombie = false
        · exact ⟨none, _, if_pos hnone⟩
        · obtain ⟨c, hc⟩ := not_forall.mp hnone
          cases hchild : s.child c with
          | zombie status => exact ⟨some c, _, by simp only [hchild]; rfl⟩
          | notForked | running | reaped =>
            rw [hchild] at hc
            exact absurd rfl hc
    exact ⟨.handler reap, r, trivial, (hstep reap).trans hr⟩

/-! ## Main result -/

/-- The child has terminated. -/
def Terminated (s : State n) (c : Fin n) : Prop :=
  ∃ status, s.child c = .zombie status ∨ s.child c = .reaped status

/-- For any number of children, and whatever was ignored, blocked or pending at the start, in every
    run: each child is reaped at most once, and reported at most once, with its own status; while
    the handler does not run and SIGCHLD is not pending, every child that has terminated has been
    reaped and reported once; and if SIGCHLD was not blocked at the start, that state is always
    reached again, as long as the process has not ended. -/
theorem children_reaped (n : ℕ) (ignored mask pending : SigSet Signal) (tr : List (Event n))
    (s : State n) (h : (machine n).Run (initial n ignored mask pending) tr s) :
    (∀ c, reaps c tr ≤ 1 ∧ reports c tr ≤ reaps c tr ∧ ∀ text, .report c text ∈ tr →
      ∃ status, s.child c = .reaped status ∧ text = status.text) ∧
    (Idle s → ∀ c, Terminated s c → reaps c tr = 1 ∧ reports c tr = 1 ∧
      (s.child c).isZombie = false) ∧
    (mask .SIGCHLD = false → s.main ≠ .exited → (machine n).Inevitable Prompt Idle s) := by
  have hinv := run_inv h
  refine ⟨fun c => ?_, fun hidle c hc => ?_, fun hmask hended => ?_⟩
  · obtain ⟨hreaps, hreports, hstatus, -⟩ := hinv.counted c
    exact ⟨hreaps ▸ Bool.toNat_le _, by omega, hstatus⟩
  · obtain ⟨hhandlers, hpending⟩ := hidle
    -- a zombie would keep `SIGCHLD` pending or a handler at its `waitpid`
    have hzombie : (s.child c).isZombie = false := by
      apply Bool.eq_false_of_not_eq_true
      intro hz
      cases hinv.covered c hz with
      | inl hp => exact nomatch hpending.symm.trans hp
      | inr hwaits =>
        obtain ⟨f, hf, -⟩ := hwaits
        rw [hhandlers] at hf
        exact nomatch hf
    obtain ⟨hreaps, hreports, -, -⟩ := hinv.counted c
    obtain ⟨status, hz | hreaped⟩ := hc
    · rw [hz] at hzombie
      exact nomatch hzombie
    · unfold State.toReport at hreports
      rw [hreaped] at hreaps hreports
      rw [hhandlers] at hreports
      exact ⟨hreaps, hreports, hzombie⟩
  -- until then there is a handler to run or a signal to deliver, and both get fewer
  · refine Machine.Inevitable.of_measure (I := fun s => ∃ tr, Inv mask tr s ∧ s.main ≠ .exited)
      State.rank ?_ ?_ ⟨tr, hinv, hended⟩
    · rintro s ⟨tr, hI, hended⟩ hidle
      exact hI.progress hmask hended hidle
    · rintro s a e s' ⟨tr, hI, hended⟩ hidle ha hs
      have hstep := (step_cases hs).2
      obtain ⟨hrank, hmain⟩ := step_rank hI hmask hidle ha hstep
      exact ⟨⟨_, hI.step hstep, by rwa [hmain]⟩, hrank⟩

/-- Two children terminate before the handler runs, so that there is one signal for both; it reaps
    the second one first. -/
theorem children_reaped_merged : ∃ tr s,
    (machine 2).Run (initial 2 sigemptyset sigemptyset sigemptyset) tr s ∧ Terminated s 0 ∧
      reaps 0 tr = 1 ∧ reports 0 tr = 1 := by
  obtain ⟨tr, s, hrun, hidle, hterminated⟩ : ∃ tr s,
      (machine 2).Run (initial 2 sigemptyset sigemptyset sigemptyset) tr s ∧ Idle s ∧
        Terminated s 0 :=
    ⟨_, _, .of_exec (M := machine 2) [.main true, .main true, .main true, .main true,
      .terminate 0 (.exited 0), .terminate 1 (.signaled 10), .deliver, .handler none,
      .handler (some 1), .handler none, .handler (some 0), .handler none, .handler none,
      .handler none] rfl, ⟨rfl, rfl⟩, .exited 0, .inr rfl⟩
  obtain ⟨hreaps, hreports, -⟩ :=
    (children_reaped 2 sigemptyset sigemptyset sigemptyset tr s hrun).2.1 hidle 0 hterminated
  exact ⟨tr, s, hrun, hterminated, hreaps, hreports⟩

end SigUSRwait
