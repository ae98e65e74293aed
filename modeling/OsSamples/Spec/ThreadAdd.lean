import Mathlib.Tactic.Common
import OsSamples.Lib.LostUpdates
import OsSamples.Lib.SpawnJoin
import OsSamples.Native.ThreadAdd

/-!
# What the threads may lose without synchronization

Without synchronization the threads of `thread_add.c` are the threads of `LostUpdates`, and what
`main` finds at the end is any number from two to the one that is right.

## Key results

- `step_cases`: what a step can do, one constructor of `Step` for each kind
- `Sim.step`, `Sim.back`: a step of the program is a step of the threads that lose updates or none,
  and the other way round
- `reportable_iff`: what `main` may report
-/

namespace ThreadAdd

open CInt
open LostUpdates (Phase)
open SpawnJoin (Stage)
open Threads (total)

variable {n iterations : ℕ} {p : Program} {s s' : State n} {e : Option Event} {tr : List Event}
  {t u : Fin n} {a : Act n}

/-! ## What a step can do -/

/-- The kinds of steps. -/
inductive Step (p : Program) (iterations : ℕ) (s : State n) :
    Act n → Option Event → State n → Prop
  | create {t : ℕ} (hpc : s.main = .create t) (h : t < n) :
      Step p iterations s .main none { s.goto ⟨t, h⟩ .start with main := .create (t + 1) }
  | created {t : ℕ} (hpc : s.main = .create t) (h : ¬ t < n) :
      Step p iterations s .main none { s with main := .join 0 }
  | join {t : ℕ} (hpc : s.main = .join t) (h : t < n) (hended : s.thread ⟨t, h⟩ = .ended) :
      Step p iterations s .main none { s with main := .join (t + 1) }
  | joined {t : ℕ} (hpc : s.main = .join t) (h : ¬ t < n) :
      Step p iterations s .main none { s with main := .check }
  | check (hpc : s.main = .check) : Step p iterations s .main (some (report n iterations s.count))
      { s with main := .returned (if s.count < n * iterations then 1 else 0) }
  | createFails {t : ℕ} (hpc : s.main = .create t) (h : t < n) :
      Step p iterations s .mainFails (some (.perror "pthread_create failed"))
        { s with main := .returned 1 }
  | joinFails {t : ℕ} (hpc : s.main = .join t) (h : t < n) :
      Step p iterations s .mainFails (some (.perror "pthread_join failed"))
        { s with main := .returned 1 }
  | skip {t one : Fin n} (hpc : s.thread t = .start) (hb : p.barrier = false) :
      Step p iterations s (.thread t one) none (s.goto t (.loop 0))
  | arrive {t one : Fin n} {b : Barrier (Fin n)} (hpc : s.thread t = .start)
      (hb : p.barrier = true) (harrive : s.barrier.arrive n t one = some b) :
      Step p iterations s (.thread t one) none { s.goto t .waiting with barrier := b }
  | depart {t one : Fin n} {r : Bool} {b : Barrier (Fin n)} (hpc : s.thread t = .waiting)
      (hleave : s.barrier.leave t = some (r, b)) : Step p iterations s (.thread t one) none
        { s.goto t (if r then .announce else .loop 0) with barrier := b }
  | announce {t one : Fin n} (hpc : s.thread t = .announce) :
      Step p iterations s (.thread t one) (some .synchronized) (s.goto t (.loop 0))
  | again {t one : Fin n} {i : ℕ} (hpc : s.thread t = .loop i) (h : i < iterations) :
      Step p iterations s (.thread t one) none (s.goto t (.enter i))
  | finish {t one : Fin n} {i : ℕ} (hpc : s.thread t = .loop i) (h : ¬ i < iterations) :
      Step p iterations s (.thread t one) none (s.goto t .ended)
  | enter {t one : Fin n} {i : ℕ} {s₁ : State n} (hpc : s.thread t = .enter i)
      (hentry : entry p.critical t s = some s₁) :
      Step p iterations s (.thread t one) none (s₁.goto t (.load i))
  | load {t one : Fin n} {i : ℕ} (hpc : s.thread t = .load i) :
      Step p iterations s (.thread t one) none (s.goto t (.store i s.count))
  | store {t one : Fin n} {i : ℕ} {reg : ℤ} (hpc : s.thread t = .store i reg)
      (hle : reg + 1 ≤ INT_MAX) : Step p iterations s (.thread t one) none
        { s.goto t (.leave i) with count := reg + 1 }
  | leave {t one : Fin n} {i : ℕ} (hpc : s.thread t = .leave i) :
      Step p iterations s (.thread t one) none ((exit p.critical t s).goto t (.loop (i + 1)))

/-- The steps of `main`. -/
theorem mainStep_cases (hs : mainStep iterations s = some (e, s')) :
    Step p iterations s .main e s' := by
  cases hpc : s.main <;> simp only [mainStep, hpc, Option.some.injEq, Prod.mk.injEq,
    reduceCtorEq] at hs
  case create t =>
    split at hs
    · simp only [Option.some.injEq, Prod.mk.injEq] at hs
      obtain ⟨rfl, rfl⟩ := hs
      exact .create hpc _
    · simp only [Option.some.injEq, Prod.mk.injEq] at hs
      obtain ⟨rfl, rfl⟩ := hs
      exact .created hpc ‹_›
  case join t =>
    split at hs
    · simp only [Option.ite_none_right_eq_some, Option.some.injEq, Prod.mk.injEq] at hs
      obtain ⟨hended, rfl, rfl⟩ := hs
      exact .join hpc _ hended
    · simp only [Option.some.injEq, Prod.mk.injEq] at hs
      obtain ⟨rfl, rfl⟩ := hs
      exact .joined hpc ‹_›
  case check =>
    obtain ⟨rfl, rfl⟩ := hs
    exact .check hpc

/-- The calls of `main` that fail. -/
theorem mainFails_cases (hs : mainFails s = some (e, s')) :
    Step p iterations s .mainFails e s' := by
  cases hpc : s.main <;> simp only [mainFails, hpc, Option.ite_none_right_eq_some,
    Option.some.injEq, Prod.mk.injEq, reduceCtorEq] at hs
  case create t =>
    obtain ⟨h, rfl, rfl⟩ := hs
    exact .createFails hpc h
  case join t =>
    obtain ⟨h, rfl, rfl⟩ := hs
    exact .joinFails hpc h

/-- The steps of a thread. -/
theorem threadAdd_cases {one : Fin n} (hs : threadAdd p iterations t one s = some (e, s')) :
    Step p iterations s (.thread t one) e s' := by
  cases hpc : s.thread t <;> simp only [threadAdd, hpc, Option.map_eq_some_iff, Option.some.injEq,
    Prod.mk.injEq, Option.ite_none_right_eq_some, reduceCtorEq] at hs
  -- without a barrier the thread goes straight to its loop
  case start =>
    split at hs
    · simp only [Option.map_eq_some_iff, Prod.mk.injEq] at hs
      obtain ⟨b, hb, rfl, rfl⟩ := hs
      exact .arrive hpc ‹_› hb
    · simp only [Option.some.injEq, Prod.mk.injEq] at hs
      obtain ⟨rfl, rfl⟩ := hs
      exact .skip hpc (Bool.eq_false_of_not_eq_true ‹_›)
  case waiting =>
    obtain ⟨⟨r, b⟩, hb, rfl, rfl⟩ := hs
    exact .depart hpc hb
  case announce =>
    obtain ⟨rfl, rfl⟩ := hs
    exact .announce hpc
  -- the condition of the `for` loop
  case loop i =>
    obtain ⟨rfl, rfl⟩ := hs
    split
    · exact .again hpc ‹_›
    · exact .finish hpc ‹_›
  case enter i =>
    obtain ⟨s₁, hentry, rfl, rfl⟩ := hs
    exact .enter hpc hentry
  case load i =>
    obtain ⟨rfl, rfl⟩ := hs
    exact .load hpc
  case store i reg =>
    obtain ⟨hle, rfl, rfl⟩ := hs
    exact .store hpc hle
  case leave i =>
    obtain ⟨rfl, rfl⟩ := hs
    exact .leave hpc

/-- Every step is of one of the kinds. -/
theorem step_cases (hs : (machine n p iterations).step s a = some (e, s')) :
    Step p iterations s a e s' := by
  cases a with
  | main => exact mainStep_cases hs
  | mainFails => exact mainFails_cases hs
  | thread t one => exact threadAdd_cases hs

theorem goto_thread (s : State n) (t : Fin n) (pc : Pc) :
    (s.goto t pc).thread = Function.update s.thread t pc := rfl

@[simp] theorem goto_thread_self (s : State n) (t : Fin n) (pc : Pc) :
    (s.goto t pc).thread t = pc := Function.update_self ..

theorem goto_thread_of_ne (s : State n) (pc : Pc) (h : u ≠ t) :
    (s.goto t pc).thread u = s.thread u := Function.update_of_ne h ..

@[simp] theorem goto_goto (s : State n) (t : Fin n) (pc pc' : Pc) :
    (s.goto t pc).goto t pc' = s.goto t pc' := by
  simp [State.goto]

/-! ## Where `main` is -/

/-- What `main` is doing with the threads. -/
def MainPc.stage : MainPc → Stage
  | .create t => .create t
  | .join t => .join t
  | .check => .joined
  | .returned _ => .elsewhere

/-- What `main` knows of the threads. -/
def MainInv (main : MainPc) (thread : Fin n → Pc) : Prop :=
  main.stage.Inv .notCreated (· = .ended) thread

theorem initial_mainInv : MainInv (initial n).main (initial n).thread :=
  Stage.inv_init fun _ => rfl

/-! ## The program and the threads that lose updates -/

/-- Where a thread of the program is in its updates. -/
inductive Matches (iterations : ℕ) : Pc → Phase → Prop
  | notCreated : Matches iterations .notCreated (.idle iterations)
  | start : Matches iterations .start (.idle iterations)
  | loop {i k : ℕ} (h : i + k = iterations) : Matches iterations (.loop i) (.idle k)
  | enter {i k : ℕ} (h : i + k + 1 = iterations) : Matches iterations (.enter i) (.idle (k + 1))
  | load {i k : ℕ} (h : i + k + 1 = iterations) : Matches iterations (.load i) (.idle (k + 1))
  | store {i k v : ℕ} (h : i + k + 1 = iterations) :
      Matches iterations (.store i v) (.loaded v k)
  | leave {i k : ℕ} (h : i + k + 1 = iterations) : Matches iterations (.leave i) (.idle k)
  | ended : Matches iterations .ended (.idle 0)

/-- A state of the program and one of the threads that lose updates. -/
structure Sim (iterations : ℕ) (s : State n) (cfg : Config (Fin n) ℕ Phase) : Prop where
  count : s.count = cfg.shared
  thread : ∀ t, Matches iterations (s.thread t) (cfg.loc t)
  main : MainInv s.main s.thread

variable {cfg cfg' : Config (Fin n) ℕ Phase} {pc : Pc} {phase : Phase}

theorem initial_sim : Sim iterations (initial n) (LostUpdates.start (Fin n) iterations) where
  count := rfl
  thread _ := .notCreated
  main := initial_mainInv

/-- A thread and its updates go on together. -/
theorem Sim.move (h : Sim iterations s cfg) (hpc : s.thread t ≠ .notCreated ∧ s.thread t ≠ .ended)
    (hpc' : pc ≠ .notCreated) (hmatch : Matches iterations pc phase) {count : ℤ} {value : ℕ}
    (hcount : count = value) : Sim iterations { s.goto t pc with count := count }
      ⟨value, Function.update cfg.loc t phase⟩ := by
  refine ⟨hcount, fun u => ?_, h.main.goto hpc.1 (absurd · hpc.2) hpc'⟩
  by_cases hut : u = t
  · subst hut
    simpa [State.goto] using hmatch
  · simpa [State.goto, hut] using h.thread u

/-- A thread goes on between two accesses to the number. -/
theorem Sim.stay (h : Sim iterations s cfg) (hpc : s.thread t ≠ .notCreated ∧ s.thread t ≠ .ended)
    (hpc' : pc ≠ .notCreated) (hmatch : Matches iterations pc (cfg.loc t)) :
    Sim iterations (s.goto t pc) cfg := by
  have hmove := h.move hpc hpc' hmatch h.count
  rwa [Function.update_eq_self] at hmove

/-- The updates of a thread. -/
theorem Sim.updates (h : Sim iterations s cfg) (hpc : s.thread t = pc) :
    ∃ phase, cfg.loc t = phase ∧ Matches iterations pc phase := ⟨_, rfl, hpc ▸ h.thread t⟩

/-- Each step of the program is a read, a write, or nothing. -/
theorem Sim.step (h : Sim iterations s cfg)
    (hs : (machine n thread_add iterations).step s a = some (e, s')) :
    ∃ cfg', (LostUpdates.machine (Fin n)).Reachable cfg cfg' ∧ Sim iterations s' cfg' := by
  cases step_cases hs with
  -- a new thread matches one that has done nothing yet
  | create hpc hlt =>
    have hmain := h.main
    rw [hpc] at hmain
    refine ⟨cfg, .refl _, h.count, fun u => ?_, hmain.create hlt (by simp)⟩
    by_cases hu : u = ⟨_, hlt⟩
    · subst hu
      have hmatch := h.thread ⟨_, hlt⟩
      rw [hmain.2 _ (le_refl _)] at hmatch
      generalize hphase : cfg.loc ⟨_, hlt⟩ = phase at hmatch ⊢
      cases hmatch
      rw [goto_thread_self]
      exact .start
    · rw [goto_thread_of_ne _ _ hu]
      exact h.thread u
  | created hpc hlt =>
    have hmain := h.main
    rw [hpc] at hmain
    exact ⟨cfg, .refl _, h.count, h.thread, hmain.created hlt⟩
  | join hpc hlt hended =>
    have hmain := h.main
    rw [hpc] at hmain
    exact ⟨cfg, .refl _, h.count, h.thread, hmain.join hlt hended⟩
  | joined hpc hlt =>
    have hmain := h.main
    rw [hpc] at hmain
    exact ⟨cfg, .refl _, h.count, h.thread, hmain.joined hlt⟩
  -- from here on `main` has no part in the simulation
  | check | createFails | joinFails => exact ⟨cfg, .refl _, h.count, h.thread, trivial⟩
  -- there is neither a barrier nor a line about it in this program
  | arrive _ hb => cases hb
  | @depart t _ _ _ hpc =>
    have hmatch := h.thread t
    rw [hpc] at hmatch
    cases hmatch
  | @announce t _ hpc =>
    have hmatch := h.thread t
    rw [hpc] at hmatch
    cases hmatch
  | @skip t _ hpc =>
    obtain ⟨phase, hphase, hmatch⟩ := h.updates hpc
    cases hmatch
    exact ⟨cfg, .refl _, h.stay (by simp [hpc]) (by simp) (hphase ▸ .loop (Nat.zero_add _))⟩
  -- the steps of the loop around `count++` have no counterpart
  | @again t _ i hpc hlt =>
    obtain ⟨phase, hphase, hmatch⟩ := h.updates hpc
    cases hmatch with
    | @loop _ k hk =>
      obtain ⟨m, rfl⟩ := Nat.exists_eq_succ_of_ne_zero (show k ≠ 0 by omega)
      exact ⟨cfg, .refl _, h.stay (by simp [hpc]) (by simp) (hphase ▸ .enter (by omega))⟩
  | @finish t _ i hpc hlt =>
    obtain ⟨phase, hphase, hmatch⟩ := h.updates hpc
    cases hmatch with
    | @loop _ k hk =>
      obtain rfl : k = 0 := by omega
      exact ⟨cfg, .refl _, h.stay (by simp [hpc]) (by simp) (hphase ▸ .ended)⟩
  | @enter t _ i s₁ hpc hentry =>
    obtain ⟨phase, hphase, hmatch⟩ := h.updates hpc
    obtain rfl : s = s₁ := Option.some.inj hentry
    cases hmatch with
    | enter hk =>
      exact ⟨cfg, .refl _, h.stay (by simp [hpc]) (by simp) (hphase ▸ .load hk)⟩
  -- the read and the write of `count++` are the two steps of an update
  | @load t _ i hpc =>
    obtain ⟨phase, hphase, hmatch⟩ := h.updates hpc
    cases hmatch with
    | load hk =>
      refine ⟨_, LostUpdates.reachable_load hphase, ?_⟩
      rw [h.count]
      exact h.move (by simp [hpc]) (by simp) (.store hk) h.count
  -- a write that is out of date loses the updates in between
  | @store t _ i reg hpc =>
    obtain ⟨phase, hphase, hmatch⟩ := h.updates hpc
    cases hmatch with
    | store hk =>
      refine ⟨_, LostUpdates.reachable_store hphase, ?_⟩
      exact h.move (by simp [hpc]) (by simp) (.leave hk) (Nat.cast_succ _).symm
  | @leave t _ i hpc =>
    obtain ⟨phase, hphase, hmatch⟩ := h.updates hpc
    cases hmatch with
    | leave hk =>
      exact ⟨cfg, .refl _, h.stay (by simp [hpc]) (by simp) (hphase ▸ .loop (by omega))⟩

/-- A thread that has ended has no update to do. -/
theorem Sim.idle_of_ended (h : Sim iterations s cfg) (hended : s.thread t = .ended) :
    cfg.loc t = .idle 0 := by
  obtain ⟨phase, hphase, hmatch⟩ := h.updates hended
  cases hmatch
  exact hphase

theorem report_inj {count count' : ℤ} (h : report n iterations count = report n iterations count') :
    count = count' := by
  unfold report at h
  split at h <;> split at h <;> cases h <;> rfl

/-- What `main` reports is possible. -/
theorem bounds_of_reported (hn : 0 < n) (hi : 2 ≤ iterations)
    (h : (machine n thread_add iterations).Run (initial n) tr s) {count : ℤ}
    (hcount : report n iterations count ∈ tr) : 2 ≤ count ∧ count ≤ n * iterations := by
  have : Nonempty (Fin n) := ⟨⟨0, hn⟩⟩
  -- the counterpart of the state before each event is a reachable state of the updates
  have hall : ∀ e ∈ tr, ∀ count, e = report n iterations count →
      2 ≤ count ∧ count ≤ n * iterations := by
    refine h.forall_events (I := fun s => ∃ cfg,
      (LostUpdates.machine (Fin n)).Reachable (LostUpdates.start (Fin n) iterations) cfg ∧
        Sim iterations s cfg) ?_ ⟨_, .refl _, initial_sim⟩
    rintro s a e s' ⟨cfg, hreach, hsim⟩ hs
    obtain ⟨cfg', hreach', hsim'⟩ := hsim.step hs
    refine ⟨⟨cfg', hreach.trans hreach', hsim'⟩, fun x hx count hreport => ?_⟩
    subst hreport
    cases step_cases hs with
    | check hpc =>
      -- `main` reports after the join, when all updates are done
      have hmain := hsim.main
      rw [hpc] at hmain
      obtain ⟨h2, hle⟩ := LostUpdates.bounds hi hreach fun i => hsim.idle_of_ended (hmain.2 i)
      rw [Fintype.card_fin] at hle
      rw [← report_inj (Option.some.inj (Option.mem_toList.mp hx)), hsim.count]
      exact_mod_cast And.intro h2 hle
    -- the other events are not reports of a count
    | createFails | joinFails =>
      simp only [Option.toList_some, List.mem_singleton, report] at hx
      split at hx <;> cases hx
    | announce =>
      simp only [Option.toList_some, List.mem_singleton, report] at hx
      split at hx <;> cases hx
    | _ => simp at hx
  exact hall _ hcount _ rfl

/-! ## The other way round -/

/-- A thread goes on. -/
theorem reachable_thread (t : Fin n) (hs : threadAdd p iterations t t s = some (e, s')) :
    (machine n p iterations).Reachable s s' :=
  .step (.refl _) (a := .thread t t) hs

/-- `main` goes on. -/
theorem reachable_main (hs : mainStep iterations s = some (e, s')) :
    (machine n p iterations).Reachable s s' :=
  .step (.refl _) (a := .main) hs

/-- A thread that is done with an update, or has none done, gets to the condition of the loop. -/
theorem reachable_loop {k : ℕ} (hmatch : Matches iterations (s.thread t) (.idle k))
    (hcreated : s.thread t ≠ .notCreated) :
    (∃ i, i + k = iterations ∧
      (machine n thread_add iterations).Reachable s (s.goto t (.loop i))) ∨
    (∃ i m, k = m + 1 ∧ i + m + 1 = iterations ∧ (s.thread t = .enter i ∨ s.thread t = .load i)) ∨
    k = 0 ∧ s.thread t = .ended := by
  generalize hpc : s.thread t = pc at hmatch
  cases hmatch with
  | notCreated => exact absurd hpc hcreated
  | start =>
    refine .inl ⟨0, Nat.zero_add _, reachable_thread t (e := none) ?_⟩
    simp [threadAdd, hpc, thread_add]
  | @loop i _ hk =>
    refine .inl ⟨i, hk, ?_⟩
    rw [State.goto, ← hpc, Function.update_eq_self]
    exact .refl _
  | @enter i m hk => exact .inr (.inl ⟨i, m, rfl, hk, .inl rfl⟩)
  | @load i m hk => exact .inr (.inl ⟨i, m, rfl, hk, .inr rfl⟩)
  | @leave i _ hk =>
    refine .inl ⟨i + 1, by omega, reachable_thread t (e := none) ?_⟩
    simp [threadAdd, hpc, thread_add, exit]
  | ended => exact .inr (.inr ⟨rfl, rfl⟩)

/-- A thread enters the section that is not protected. -/
theorem reachable_enter {i : ℕ} (hpc : s.thread t = .enter i) :
    (machine n thread_add iterations).Reachable s (s.goto t (.load i)) :=
  reachable_thread t (e := none) (by simp [threadAdd, hpc, thread_add, entry])

/-- A thread with an update to do gets to the read. -/
theorem reachable_load {k : ℕ} (hmatch : Matches iterations (s.thread t) (.idle (k + 1)))
    (hcreated : s.thread t ≠ .notCreated) :
    ∃ i, i + k + 1 = iterations ∧
      (machine n thread_add iterations).Reachable s (s.goto t (.load i)) := by
  obtain ⟨i, hi, hreach⟩ | ⟨i, m, hk, hi, hpc | hpc⟩ | ⟨hk, -⟩ := reachable_loop hmatch hcreated
  · have henter : threadAdd thread_add iterations t t (s.goto t (.loop i)) =
        some (none, s.goto t (.enter i)) := by
      simp [threadAdd, show i < iterations by omega]
    refine ⟨i, hi, hreach.trans ((reachable_thread t henter).trans ?_)⟩
    have hload : (machine n thread_add iterations).Reachable (s.goto t (.enter i)) _ :=
      reachable_enter (goto_thread_self s t (.enter i))
    rwa [goto_goto] at hload
  · obtain rfl : k = m := Nat.succ.inj hk
    exact ⟨i, hi, reachable_enter hpc⟩
  · obtain rfl : k = m := Nat.succ.inj hk
    refine ⟨i, hi, ?_⟩
    rw [State.goto, ← hpc, Function.update_eq_self]
    exact .refl _
  · cases hk

/-- A thread with no update to do ends. -/
theorem reachable_ended (hmatch : Matches iterations (s.thread t) (.idle 0))
    (hcreated : s.thread t ≠ .notCreated) :
    (machine n thread_add iterations).Reachable s (s.goto t .ended) := by
  obtain ⟨i, hi, hreach⟩ | ⟨i, m, hk, -⟩ | ⟨-, hpc⟩ := reachable_loop hmatch hcreated
  · refine hreach.trans (reachable_thread t (e := none) ?_)
    simp [threadAdd, show ¬ i < iterations by omega]
  · cases hk
  · rw [State.goto, ← hpc, Function.update_eq_self]
    exact .refl _

/-- While `main` waits for the first thread, the program can follow the threads that lose
    updates. -/
theorem Sim.back (hn : n * iterations ≤ INT_MAX) (h : Sim iterations s cfg)
    (hmain : s.main = .join 0) (hinv : LostUpdates.Inv iterations cfg.shared cfg.loc)
    {b : Fin n × Unit} {x : Option Empty}
    (hs : (LostUpdates.machine (Fin n)).step cfg b = some (x, cfg')) :
    ∃ s', (machine n thread_add iterations).Reachable s s' ∧ Sim iterations s' cfg' ∧
      s'.main = .join 0 := by
  have hmatch := h.thread b.1
  have hinvMain := h.main
  rw [hmain] at hinvMain
  -- a load comes with the steps of the loop before it, a store is one step
  obtain ⟨k, hl, rfl⟩ | ⟨v, k, hl, rfl⟩ := LostUpdates.step_cases hs <;> rw [hl] at hmatch
  · obtain ⟨i, hi, hreach⟩ := reachable_load hmatch (hinvMain.1 b.1)
    have hended : s.thread b.1 ≠ .ended := fun hended => by
      rw [hended] at hmatch
      cases hmatch
    have hload : threadAdd thread_add iterations b.1 b.1 (s.goto b.1 (.load i)) =
        some (none, s.goto b.1 (.store i s.count)) := by simp [threadAdd, State.goto]
    refine ⟨_, hreach.trans (reachable_thread b.1 hload), ?_, hmain⟩
    rw [h.count]
    exact h.move ⟨hinvMain.1 b.1, hended⟩ (by simp) (.store hi) h.count
  · generalize hpc : s.thread b.1 = pc at hmatch
    cases hmatch with
    | @store i _ _ hi =>
      -- an update never gets beyond the number of all updates, so that `count++` does not overflow
      have hle : ((v : ℤ) + 1) ≤ INT_MAX := by
        have hloaded := hinv.loadedLe b.1 v k hl
        have hrest := Threads.le_total Phase.rest cfg.loc b.1
        rw [hl, Phase.rest_loaded] at hrest
        rw [Fintype.card_fin] at hloaded
        refine le_trans ?_ hn
        exact_mod_cast (by omega : v + 1 ≤ n * iterations)
      have hstore : threadAdd thread_add iterations b.1 b.1 s =
          some (none, { s.goto b.1 (.leave i) with count := v + 1 }) := by
        simp [threadAdd, hpc, hle]
      refine ⟨_, reachable_thread b.1 hstore, ?_, hmain⟩
      exact h.move (by simp [hpc]) (by simp) (.leave hi) (Nat.cast_succ _).symm

/-- `main` has created the first `k` threads. -/
theorem reachable_create {k : ℕ} (hk : k ≤ n) :
    (machine n p iterations).Reachable (initial n) { initial n with
      main := .create k
      thread := fun t => if t.val < k then .start else .notCreated } := by
  induction k with
  | zero =>
    simp only [Nat.not_lt_zero, if_false]
    exact .refl _
  | succ k ih =>
    refine (ih (Nat.le_of_succ_le hk)).trans (reachable_main (e := none) ?_)
    have hthread : Function.update (fun t : Fin n => if t.val < k then Pc.start else .notCreated)
        ⟨k, hk⟩ .start = fun t => if t.val < k + 1 then .start else .notCreated := by
      funext t
      by_cases ht : t = ⟨k, hk⟩
      · simp [ht]
      · have hne : t.val ≠ k := fun heq => ht (Fin.ext heq)
        simp [ht, show t.val < k + 1 ↔ t.val < k by omega]
    simp [mainStep, Nat.lt_of_succ_le hk, State.goto, hthread]

/-- `main` has created all threads. -/
theorem reachable_join (p : Program) (iterations : ℕ) : ∃ s : State n,
    (machine n p iterations).Reachable (initial n) s ∧ s.main = .join 0 ∧ s.count = 0 ∧
      ∀ t, s.thread t = .start := by
  refine ⟨{ initial n with main := .join 0, thread := fun _ => .start },
    (reachable_create (le_refl n)).trans (reachable_main (e := none) ?_), rfl, rfl, fun _ => rfl⟩
  simp [mainStep]

/-- The threads of `A`, with no update to do, end. -/
theorem reachable_all_ended (A : Finset (Fin n))
    (h : ∀ t, Matches iterations (s.thread t) (.idle 0) ∧ s.thread t ≠ .notCreated) :
    ∃ s', (machine n thread_add iterations).Reachable s s' ∧ s'.main = s.main ∧
      s'.count = s.count ∧ (∀ t ∈ A, s'.thread t = .ended) ∧
      ∀ t ∉ A, s'.thread t = s.thread t := by
  induction A using Finset.induction_on with
  | empty => exact ⟨s, .refl _, rfl, rfl, by simp, fun _ _ => rfl⟩
  | insert u A hu ih =>
    obtain ⟨s', hreach, hmain, hcount, hended, hother⟩ := ih
    have hreach' : (machine n thread_add iterations).Reachable s' (s'.goto u .ended) :=
      reachable_ended (by rw [hother u hu]; exact (h u).1) (by rw [hother u hu]; exact (h u).2)
    refine ⟨_, hreach.trans hreach', hmain, hcount, fun t ht => ?_, fun t ht => ?_⟩
    · by_cases htu : t = u
      · rw [htu, goto_thread_self]
      · rw [goto_thread_of_ne _ _ htu]
        exact hended t (Finset.mem_of_mem_insert_of_ne ht htu)
    · rw [Finset.mem_insert, not_or] at ht
      rw [goto_thread_of_ne _ _ ht.1, hother t ht.2]

/-- `main` has waited for the first `k` threads. -/
theorem reachable_joined {k : ℕ} (hmain : s.main = .join 0) (hended : ∀ t, s.thread t = .ended)
    (hk : k ≤ n) : (machine n p iterations).Reachable s { s with main := .join k } := by
  induction k with
  | zero =>
    rw [← hmain]
    exact .refl _
  | succ k ih =>
    refine (ih (Nat.le_of_succ_le hk)).trans (reachable_main (e := none) ?_)
    simp [mainStep, Nat.lt_of_succ_le hk, hended]

/-- `main` waits for threads that have ended, and reports the number. -/
theorem exists_run_report (hmain : s.main = .join 0) (hended : ∀ t, s.thread t = .ended) :
    ∃ tr s', (machine n p iterations).Run s tr s' ∧ report n iterations s.count ∈ tr := by
  have hcheck : (machine n p iterations).Reachable s { s with main := .check } :=
    (reachable_joined hmain hended (le_refl n)).trans
      (reachable_main (e := none) (by simp [mainStep]))
  obtain ⟨tr, hrun⟩ := hcheck
  exact ⟨_, _, hrun.snoc (a := .main) rfl, by simp⟩

/-- Whatever number the threads that lose updates can end with, `main` can report. -/
theorem reported_of_reachable (hi : 2 ≤ iterations) (hn : 0 < n)
    (hmax : n * iterations ≤ INT_MAX) {v : ℕ}
    (h : (LostUpdates.machine (Fin n)).Reachable (LostUpdates.start (Fin n) iterations)
      ⟨v, fun _ => .idle 0⟩) :
    ∃ tr s, (machine n thread_add iterations).Run (initial n) tr s ∧
      report n iterations v ∈ tr := by
  have : Nonempty (Fin n) := ⟨⟨0, hn⟩⟩
  -- `main` creates all threads before one of them goes on
  obtain ⟨s₀, hreach₀, hmain₀, hcount₀, hthread₀⟩ := reachable_join (n := n) thread_add iterations
  have hsim₀ : Sim iterations s₀ (LostUpdates.start (Fin n) iterations) := by
    refine ⟨hcount₀, fun t => hthread₀ t ▸ .start, ?_⟩
    rw [hmain₀]
    exact ⟨fun t => by simp [hthread₀], fun _ ht => absurd ht (Nat.not_lt_zero _)⟩
  -- then the threads follow the run of the updates
  obtain ⟨s, hreach, ⟨hsim, hmain⟩, -⟩ := h.simulate (K := machine n thread_add iterations)
    (R := fun cfg s => (Sim iterations s cfg ∧ s.main = .join 0) ∧
      LostUpdates.Inv iterations cfg.shared cfg.loc)
    (by
      rintro cfg s b x cfg' ⟨⟨hsim, hmain⟩, hinv⟩ hs
      obtain ⟨s', hreach, hsim', hmain'⟩ := hsim.back hmax hmain hinv hs
      exact ⟨s', hreach, ⟨hsim', hmain'⟩, hinv.step hi hs⟩)
    ⟨⟨hsim₀, hmain₀⟩, LostUpdates.start_inv hi⟩
  -- at last the threads leave their loops, and `main` joins them and reports
  have hinvMain := hsim.main
  rw [hmain] at hinvMain
  obtain ⟨s', hreach', hmain', hcount', hended, -⟩ :=
    reachable_all_ended Finset.univ fun t => ⟨hsim.thread t, hinvMain.1 t⟩
  obtain ⟨tr, s'', hrun, hmem⟩ : ∃ tr s'', (machine n thread_add iterations).Run s' tr s'' ∧
      report n iterations s'.count ∈ tr :=
    exists_run_report (hmain'.trans hmain) fun t => hended t (Finset.mem_univ t)
  rw [hcount', hsim.count] at hmem
  obtain ⟨tr', hrun'⟩ := (hreach₀.trans hreach).trans hreach'
  exact ⟨tr' ++ tr, s'', hrun'.append hrun, List.mem_append_right _ hmem⟩

/-- With two threads and two increments for each of them, what `main` may report are the numbers
    from two to the number of all increments. -/
theorem reportable_iff (hn : 2 ≤ n) (hi : 2 ≤ iterations) (hmax : n * iterations ≤ INT_MAX)
    (count : ℤ) :
    (∃ tr s, (machine n thread_add iterations).Run (initial n) tr s ∧
      report n iterations count ∈ tr) ↔ 2 ≤ count ∧ count ≤ n * iterations := by
  have hpos : 0 < n := Nat.lt_of_succ_lt hn
  constructor
  · rintro ⟨tr, s, hrun, hmem⟩
    exact bounds_of_reported hpos hi hrun hmem
  · rintro ⟨h2, hle⟩
    obtain ⟨v, rfl⟩ := Int.eq_ofNat_of_zero_le (show 0 ≤ count by omega)
    refine reported_of_reachable hi hpos hmax ((LostUpdates.final_iff ?_ hi).mpr ?_)
    · rwa [Fintype.card_fin]
    · rw [Fintype.card_fin]
      exact_mod_cast And.intro h2 hle

/-- The numbers of the source. -/
theorem reportable_iff_2_1000000 :
    (∃ tr s, (machine 2 thread_add 1000000).Run (initial 2) tr s ∧
      report 2 1000000 2 ∈ tr) ↔ (2 : ℤ) ≤ 2 ∧ (2 : ℤ) ≤ (2 : ℕ) * (1000000 : ℕ) :=
  reportable_iff (n := 2) (by decide) (by decide) (by decide) 2

end ThreadAdd
