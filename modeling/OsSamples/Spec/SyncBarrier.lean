import Mathlib.Tactic.Common
import OsSamples.Lib.SpawnJoin
import OsSamples.Lib.Threads
import OsSamples.Lib.Trace
import OsSamples.Native.SyncBarrier

/-!
# No thread is resumed before all of them wait

Each thread of `sync_barrier.c` prints its lines in their order, and no line about resumed threads
comes before all threads have said that they wait.  One thread says that all are resumed.

## Key results

- `Inv.step`: what a step keeps, for each of the kinds of steps
- `resumed_run`: the order of the lines, and how often each of them is printed
- `inevitable_resumed`: every run comes to its end, with all lines printed
-/

namespace SyncBarrier

open SpawnJoin (Stage)
open Threads (total)

variable {n : ℕ} {s s' : State n} {e : Option (Event n)} {tr : List (Event n)} {t u one : Fin n}
  {a : Act n} {pc : Pc}

/-! ## What a step can do -/

/-- The kinds of steps. -/
inductive Step (s : State n) : Act n → Option (Event n) → State n → Prop
  | create {t : ℕ} (hpc : s.main = .create t) (h : t < n) :
      Step s .main none { s.goto ⟨t, h⟩ .start with main := .create (t + 1) }
  | created {t : ℕ} (hpc : s.main = .create t) (h : ¬ t < n) :
      Step s .main none { s with main := .join 0 }
  | join {t : ℕ} (hpc : s.main = .join t) (h : t < n) (hended : s.thread ⟨t, h⟩ = .ended) :
      Step s .main none { s with main := .join (t + 1) }
  | joined {t : ℕ} (hpc : s.main = .join t) (h : ¬ t < n) :
      Step s .main none { s with main := .returned }
  | createFails {t : ℕ} (hpc : s.main = .create t) (h : t < n) : Step s .mainFails
      (some (.perror "pthread_create failed")) { s with main := .failure }
  | joinFails {t : ℕ} (hpc : s.main = .join t) (h : t < n) :
      Step s .mainFails none { s with main := .join (t + 1) }
  | working {t one : Fin n} (hpc : s.thread t = .start) :
      Step s (.thread t one) (some (.working t)) (s.goto t .usleep)
  | usleep {t one : Fin n} (hpc : s.thread t = .usleep) :
      Step s (.thread t one) none (s.goto t .report)
  | report {t one : Fin n} (hpc : s.thread t = .report) :
      Step s (.thread t one) (some (.waiting t)) (s.goto t .wait)
  | arrive {t one : Fin n} {b : Barrier (Fin n)} (hpc : s.thread t = .wait)
      (harrive : s.barrier.arrive n t one = some b) :
      Step s (.thread t one) none { s.goto t .waiting with barrier := b }
  | depart {t one : Fin n} {r : Bool} {b : Barrier (Fin n)} (hpc : s.thread t = .waiting)
      (hleave : s.barrier.leave t = some (r, b)) : Step s (.thread t one) none
        { s.goto t (if r then .serial else .resume) with barrier := b }
  | serial {t one : Fin n} (hpc : s.thread t = .serial) :
      Step s (.thread t one) (some (.allResumed t)) (s.goto t .resume)
  | resume {t one : Fin n} (hpc : s.thread t = .resume) :
      Step s (.thread t one) (some (.resumed t)) (s.goto t .ended)

/-- The steps of `main`. -/
theorem mainStep_cases (hs : mainStep s = some (e, s')) : Step s .main e s' := by
  cases hpc : s.main <;> simp only [mainStep, hpc, reduceCtorEq] at hs
  case create t =>
    split at hs <;> simp only [Option.some.injEq, Prod.mk.injEq] at hs <;> obtain ⟨rfl, rfl⟩ := hs
    · exact .create hpc _
    · exact .created hpc ‹_›
  case join t =>
    split at hs
    · simp only [Option.ite_none_right_eq_some, Option.some.injEq, Prod.mk.injEq] at hs
      obtain ⟨hended, rfl, rfl⟩ := hs
      exact .join hpc _ hended
    · simp only [Option.some.injEq, Prod.mk.injEq] at hs
      obtain ⟨rfl, rfl⟩ := hs
      exact .joined hpc ‹_›

/-- The calls of `main` that fail. -/
theorem mainFails_cases (hs : mainFails s = some (e, s')) : Step s .mainFails e s' := by
  cases hpc : s.main <;> simp only [mainFails, hpc, Option.ite_none_right_eq_some,
    Option.some.injEq, Prod.mk.injEq, reduceCtorEq] at hs
  case create t =>
    obtain ⟨h, rfl, rfl⟩ := hs
    exact .createFails hpc h
  case join t =>
    obtain ⟨h, rfl, rfl⟩ := hs
    exact .joinFails hpc h

/-- The steps of a thread. -/
theorem thread_func_cases (hs : thread_func t one s = some (e, s')) :
    Step s (.thread t one) e s' := by
  cases hpc : s.thread t <;> simp only [thread_func, hpc, Option.map_eq_some_iff,
    Option.some.injEq, Prod.mk.injEq, reduceCtorEq] at hs
  case start =>
    obtain ⟨rfl, rfl⟩ := hs
    exact .working hpc
  case usleep =>
    obtain ⟨rfl, rfl⟩ := hs
    exact .usleep hpc
  case report =>
    obtain ⟨rfl, rfl⟩ := hs
    exact .report hpc
  case wait =>
    obtain ⟨b, hb, rfl, rfl⟩ := hs
    exact .arrive hpc hb
  case waiting =>
    obtain ⟨⟨r, b⟩, hb, rfl, rfl⟩ := hs
    exact .depart hpc hb
  case serial =>
    obtain ⟨rfl, rfl⟩ := hs
    exact .serial hpc
  case resume =>
    obtain ⟨rfl, rfl⟩ := hs
    exact .resume hpc

/-- Every step is of one of the kinds. -/
theorem step_cases (hs : (machine n).step s a = some (e, s')) : Step s a e s' := by
  cases a with
  | main => exact mainStep_cases hs
  | mainFails => exact mainFails_cases hs
  | thread t one => exact thread_func_cases hs

/-! ## The lines -/

/-- Where a thread is with regard to the barrier. -/
def Pc.place : Pc → Barrier.Place
  | .notCreated | .start | .usleep | .report | .wait => .before
  | .waiting => .inside
  | .serial | .resume | .ended => .after

/-- The lines of its own that a thread has printed. -/
def Pc.lines (t : Fin n) : Pc → List (Event n)
  | .notCreated | .start => []
  | .usleep | .report => [.working t]
  | .wait | .waiting | .serial | .resume => [.working t, .waiting t]
  | .ended => [.working t, .waiting t, .resumed t]

/-- Whether the line is one that the thread `t` prints of itself. -/
def Event.own (t : Fin n) : Event n → Bool
  | .working id | .waiting id | .resumed id => id = t
  | .perror _ | .allResumed _ => false

/-- Whether the line is the one that one of the threads prints. -/
def Event.serial : Event n → Bool
  | .allResumed _ => true
  | _ => false

/-- Whether the line is about threads that are resumed. -/
def Event.afterwards : Event n → Bool
  | .allResumed _ | .resumed _ => true
  | _ => false

/-- All threads have said that they wait before a line about resumed threads. -/
def Ordered (pre : List (Event n)) (e : Event n) : Prop :=
  e.afterwards = true → ∀ u, .waiting u ∈ pre

/-- Whether a thread is about to print the line for all. -/
def Pc.announces (pc : Pc) : Bool := pc = .serial

/-- What `main` is doing with the threads. -/
def MainPc.stage : MainPc → Stage
  | .create t => .create t
  | .join t => .join t
  | .returned => .joined
  | .failure => .elsewhere

/-- What holds of the threads and of the lines that have been printed. -/
structure Inv (tr : List (Event n)) (s : State n) : Prop where
  -- a call of `pthread_join` that fails tells nothing
  main : s.main.stage.Inv Pc.notCreated (fun _ => True) s.thread
  lines : ∀ t, tr.filter (Event.own t) = (s.thread t).lines t
  passing : Barrier.Passing Pc.place Pc.announces s.barrier s.thread (tr.countP Event.serial)
  ordered : tr.EachAfter Ordered

theorem initial_inv (hn : 0 < n) : Inv [] (initial n) where
  main := Stage.inv_init fun _ => rfl
  lines _ := rfl
  passing := by
    have : Nonempty (Fin n) := ⟨⟨0, hn⟩⟩
    exact Barrier.passing_init fun _ => ⟨rfl, rfl⟩
  ordered := List.eachAfter_nil

/-- A thread that has left the barrier knows that all threads wait, or have waited. -/
theorem Inv.all_waiting (h : Inv tr s) (hpc : (s.thread t).place = .after) (u : Fin n) :
    .waiting u ∈ tr := by
  have hplace : (s.thread u).place ≠ .before := Barrier.Round.all_arrived h.passing hpc u
  have hmem : .waiting u ∈ tr.filter (Event.own u) := by
    rw [h.lines u]
    cases hu : s.thread u <;> simp [hu, Pc.place, Pc.lines] at hplace ⊢
  exact (List.mem_filter.mp hmem).1

/-- A thread prints a line of its own or none, and goes on. -/
theorem Inv.goto (h : Inv tr s) (hpc : s.thread t ≠ .notCreated) (hpc' : pc ≠ .notCreated)
    (hlines : pc.lines t = (s.thread t).lines t ++ e.toList.filter (Event.own t))
    (hother : ∀ u ≠ t, e.toList.filter (Event.own u) = []) {b : Barrier (Fin n)}
    (hpassing : Barrier.Passing Pc.place Pc.announces b (Function.update s.thread t pc)
      (tr.countP Event.serial + e.toList.countP Event.serial))
    (hordered : ∀ x ∈ e, x.afterwards = true → (s.thread t).place = .after) :
    Inv (tr ++ e.toList) { s.goto t pc with barrier := b } := by
  refine ⟨h.main.goto hpc (fun _ => trivial) hpc', fun u => ?_, ?_, ?_⟩
  · rw [List.filter_append, h.lines u]
    by_cases hut : u = t
    · subst hut
      simpa [State.goto] using hlines.symm
    · simp [State.goto, hut, hother u hut]
  · rw [List.countP_append]
    exact hpassing
  · cases e with
    | none => simpa using h.ordered
    | some x =>
      exact List.eachAfter_snoc.mpr ⟨h.ordered, fun hx => h.all_waiting (hordered x rfl hx)⟩

/-- A step of `main`. -/
theorem Inv.of_main (h : Inv tr s) {main : MainPc}
    (hmain : main.stage.Inv Pc.notCreated (fun _ => True) s.thread)
    (he : ∀ x ∈ e, ∃ what, x = .perror what) : Inv (tr ++ e.toList) { s with main := main } := by
  cases e with
  | none =>
    rw [Option.toList_none, List.append_nil]
    exact ⟨hmain, h.lines, h.passing, h.ordered⟩
  | some x =>
    obtain ⟨what, rfl⟩ := he x rfl
    refine ⟨hmain, fun t => ?_, ?_, List.eachAfter_snoc.mpr ⟨h.ordered, by simp [Ordered,
      Event.afterwards]⟩⟩
    · rw [List.filter_append, h.lines t]
      exact List.append_nil _
    · rw [List.countP_append]
      exact h.passing

/-- What every step keeps. -/
theorem Inv.step (h : Inv tr s) (hs : (machine n).step s a = some (e, s')) :
    Inv (tr ++ e.toList) s' := by
  have hmain := h.main
  cases step_cases hs with
  | create hpc hlt =>
    rw [hpc] at hmain
    -- a thread that is created has printed nothing
    have hthread := hmain.2 ⟨_, hlt⟩ (le_refl _)
    rw [Option.toList_none, List.append_nil]
    refine ⟨hmain.create hlt (by simp), fun u => ?_, ?_, h.ordered⟩
    · rw [h.lines u]
      by_cases hu : u = ⟨_, hlt⟩
      · simp [State.goto, hu, hthread, Pc.lines]
      · simp [State.goto, hu]
    · exact h.passing.stay (by rw [hthread]; rfl) (by rw [hthread]; rfl)
  | created hpc hlt =>
    rw [hpc] at hmain
    exact h.of_main (hmain.created hlt) (by simp)
  | join hpc hlt hended =>
    rw [hpc] at hmain
    exact h.of_main (hmain.join hlt trivial) (by simp)
  | joined hpc hlt =>
    rw [hpc] at hmain
    exact h.of_main (hmain.joined hlt) (by simp)
  -- `main` ends the program, or goes on to the next thread
  | createFails => exact h.of_main trivial (by simp)
  | joinFails hpc hlt =>
    rw [hpc] at hmain
    exact h.of_main (hmain.join hlt trivial) (by simp)
  -- a line of the thread before the barrier
  | working hpc =>
    exact h.goto (by simp [hpc]) (by simp) (by simp [hpc, Pc.lines, Event.own])
      (fun u hu => by simp [Event.own, hu.symm])
      (h.passing.stay (by rw [hpc]; rfl) (by rw [hpc]; rfl)) (by simp [Event.afterwards])
  | usleep hpc =>
    exact h.goto (by simp [hpc]) (by simp) (by simp [hpc, Pc.lines]) (by simp)
      (h.passing.stay (by rw [hpc]; rfl) (by rw [hpc]; rfl)) (by simp)
  | report hpc =>
    exact h.goto (by simp [hpc]) (by simp) (by simp [hpc, Pc.lines, Event.own])
      (fun u hu => by simp [Event.own, hu.symm])
      (h.passing.stay (by rw [hpc]; rfl) (by rw [hpc]; rfl)) (by simp [Event.afterwards])
  | @arrive t one b hpc harrive =>
    -- the barrier counts all threads of the program
    have harrive' : s.barrier.arrive (Fintype.card (Fin n)) t one = some b := by
      rwa [Fintype.card_fin]
    exact h.goto (by simp [hpc]) (by simp) (by simp [hpc, Pc.lines]) (by simp)
      (h.passing.arrive (by rw [hpc]; rfl) rfl (by rw [hpc]; rfl) harrive') (by simp)
  -- the thread leaves the barrier, and one of them is the serial one
  | @depart t _ r b hpc hleave =>
    refine h.goto (by simp [hpc]) (by cases r <;> simp) (by cases r <;> simp [hpc, Pc.lines])
      (by simp) (h.passing.leave hleave ?_ (by rw [hpc]; rfl) ?_) (by simp)
    · cases r <;> rfl
    · cases r <;> rfl
  -- the serial line and the last line come only behind the barrier
  | serial hpc =>
    exact h.goto (by simp [hpc]) (by simp) (by simp [hpc, Pc.lines, Event.own])
      (by simp [Event.own]) (h.passing.stay (by rw [hpc]; rfl) (by simp [hpc, Pc.announces,
        Event.serial, Nat.add_comm])) (fun _ _ _ => by rw [hpc]; rfl)
  | resume hpc =>
    exact h.goto (by simp [hpc]) (by simp) (by simp [hpc, Pc.lines, Event.own])
      (fun u hu => by simp [Event.own, hu.symm])
      (h.passing.stay (by rw [hpc]; rfl) (by rw [hpc]; rfl)) (fun _ _ _ => by rw [hpc]; rfl)

/-- Each thread prints its lines in their order; no line about resumed threads comes before all
    threads have said that they wait; one thread at most says that all are resumed, and one does
    when all have ended. -/
theorem resumed_run (hn : 0 < n) (h : (machine n).Run (initial n) tr s) :
    (∀ t, tr.filter (Event.own t) <+: [.working t, .waiting t, .resumed t]) ∧
      tr.EachAfter Ordered ∧ tr.countP Event.serial ≤ 1 ∧
      ((∀ t, s.thread t = .ended) → tr.countP Event.serial = 1 ∧
        ∀ t, tr.filter (Event.own t) = [.working t, .waiting t, .resumed t]) := by
  have hinv : Inv tr s := h.trace_invariant (fun _ _ _ _ _ hI hs => hI.step hs) (initial_inv hn)
  have htold := Barrier.Round.told hinv.passing
  refine ⟨fun t => ?_, hinv.ordered, le_of_add_le_right htold.1, fun hended => ⟨?_, fun t => ?_⟩⟩
  · rw [hinv.lines t]
    cases s.thread t <;> simp [Pc.lines]
  · have hnone : total (fun pc => pc.announces.toNat) s.thread = 0 :=
      Threads.total_eq_zero.mpr fun t => by rw [hended t]; rfl
    have hone := htold.2 fun t => by rw [Function.comp_apply, hended t]; rfl
    rwa [hnone, Nat.zero_add] at hone
  · rw [hinv.lines t, hended t]
    rfl

/-- A run with two threads. -/
theorem resumed_run_2 : ∃ tr s, (machine 2).Run (initial 2) tr s ∧ s.main = .returned ∧
    tr.EachAfter Ordered := by
  have hrun := Machine.Run.of_exec (M := machine 2) (s := initial 2)
    [.main, .main, .thread 0 0, .main, .thread 1 1, .thread 0 0, .thread 1 1, .thread 1 1,
      .thread 0 0, .thread 1 1, .thread 0 1, .thread 0 0, .thread 0 0, .main, .thread 1 1,
      .thread 1 1, .thread 1 1, .main, .main] rfl
  exact ⟨_, _, hrun, rfl, (resumed_run (by decide) hrun).2.1⟩

/-! ## The end -/

/-- The number of steps that a thread has still to take, at most. -/
def Pc.rest : Pc → ℕ
  | .notCreated => 8
  | .start => 7
  | .usleep => 6
  | .report => 5
  | .wait => 4
  | .waiting => 3
  | .serial => 2
  | .resume => 1
  | .ended => 0

/-- The number of steps to the end, at most. -/
def rest (s : State n) : ℕ := s.main.stage.rest n + total Pc.rest s.thread

theorem rest_goto {main : MainPc} {b : Barrier (Fin n)}
    (hmain : main.stage.rest n ≤ s.main.stage.rest n) (hlt : pc.rest < (s.thread t).rest) :
    rest { s.goto t pc with main := main, barrier := b } < rest s := by
  have hupdate := Threads.total_update Pc.rest s.thread t pc
  show main.stage.rest n + total Pc.rest (Function.update s.thread t pc) < _
  rw [rest]
  omega

/-- Every step of `main` that does not fail, and of a thread, is one step less to the end, and
    `main` knows which threads have ended. -/
theorem stage_step (h : s.main.stage.Inv Pc.notCreated (· = .ended) s.thread)
    (hok : a ≠ .mainFails) (hs : (machine n).step s a = some (e, s')) :
    s'.main.stage.Inv Pc.notCreated (· = .ended) s'.thread ∧ rest s' < rest s := by
  -- a step of `main` alone makes the share of `main` smaller
  have hmain : ∀ main : MainPc, main.stage.rest n < s.main.stage.rest n →
      rest { s with main := main } < rest s := fun main hlt => Nat.add_lt_add_right hlt _
  cases step_cases hs with
  -- `main` has less left, and so has a thread that is created
  | @create k hpc hlt =>
    have hrest : (MainPc.create (k + 1)).stage.rest n ≤ s.main.stage.rest n := by
      rw [hpc]
      exact (Stage.rest_create hlt).le
    rw [hpc] at h
    exact ⟨h.create hlt (by simp),
      rest_goto hrest (by rw [h.2 ⟨_, hlt⟩ (le_refl _)]; exact Nat.lt_succ_self 7)⟩
  | created hpc hlt =>
    refine ⟨?_, hmain _ (by rw [hpc]; exact Stage.rest_created)⟩
    rw [hpc] at h
    exact h.created hlt
  | join hpc hlt hended =>
    refine ⟨?_, hmain _ (by rw [hpc]; exact Stage.rest_join hlt)⟩
    rw [hpc] at h
    exact h.join hlt hended
  | joined hpc hlt =>
    refine ⟨?_, hmain _ (by rw [hpc]; exact Stage.rest_joined)⟩
    rw [hpc] at h
    exact h.joined hlt
  | createFails | joinFails => exact absurd rfl hok
  -- each step of a thread makes its share smaller
  | @depart _ _ r _ hpc =>
    exact ⟨h.goto (by simp [hpc]) (by simp [hpc]) (by cases r <;> simp),
      rest_goto (le_refl _) (by rw [hpc]; cases r <;> simp [Pc.rest])⟩
  | working hpc | usleep hpc | report hpc | arrive hpc | serial hpc | resume hpc =>
    exact ⟨h.goto (by simp [hpc]) (by simp [hpc]) (by simp),
      rest_goto (le_refl _) (by rw [hpc]; simp [Pc.rest])⟩

/-- A thread that has not come to the barrier can go on. -/
theorem exists_before_step (hplace : (s.thread t).place = .before)
    (hcreated : s.thread t ≠ .notCreated) : (thread_func t t s).isSome := by
  cases hpc : s.thread t with
  | notCreated => exact absurd hpc hcreated
  | wait =>
    obtain ⟨b, hb⟩ := Barrier.exists_arrive n t s.barrier
    simp [thread_func, hpc, hb]
  | start | usleep | report => simp [thread_func, hpc]
  | waiting | serial | resume | ended => simp [hpc, Pc.place] at hplace

/-- A thread that has not ended can go on, or one that it waits for can. -/
theorem exists_thread_step (h : Inv tr s) (hcreated : ∀ u, s.thread u ≠ .notCreated)
    (ht : s.thread t ≠ .ended) : ∃ u, (thread_func u u s).isSome := by
  by_cases hall : ∀ u, (s.thread u).place ≠ .before
  · refine ⟨t, ?_⟩
    cases hpc : s.thread t with
    | notCreated | start | usleep | report | wait => exact absurd (by rw [hpc]; rfl) (hall t)
    | waiting =>
      obtain ⟨r, b, hleave⟩ := Barrier.Round.exists_leave h.passing hall (i := t)
        (by rw [Function.comp_apply, hpc]; rfl)
      simp [thread_func, hpc, hleave]
    | serial | resume => simp [thread_func, hpc]
    | ended => exact absurd hpc ht
  · simp only [not_forall, not_not] at hall
    obtain ⟨u, hu⟩ := hall
    exact ⟨u, exists_before_step hu (hcreated u)⟩

/-- Where no call of `main` fails, every run comes to its end, with all threads ended. -/
theorem inevitable_resumed (hn : 0 < n) :
    (machine n).Inevitable (fun _ a => a ≠ .mainFails)
      (fun s => s.main = .returned ∧ ∀ t, s.thread t = .ended) (initial n) := by
  refine Machine.Inevitable.of_measure rest (I := fun s => (∃ tr, Inv tr s) ∧
    s.main ≠ .failure ∧ s.main.stage.Inv Pc.notCreated (· = .ended) s.thread) ?_ ?_
    ⟨⟨[], initial_inv hn⟩, by simp [initial], Stage.inv_init fun _ => rfl⟩
  · rintro s ⟨⟨tr, hinv⟩, hfailure, hstage⟩ hend
    -- where `main` can go on, it does
    have hgo : (mainStep s).isSome →
        ∃ a r, a ≠ .mainFails ∧ (machine n).step s a = some r := fun h => by
      obtain ⟨r, hr⟩ := Option.isSome_iff_exists.mp h
      exact ⟨.main, r, by simp, hr⟩
    cases hpc : s.main with
    | create t => by_cases ht : t < n <;> exact hgo (by simp [mainStep, hpc, ht])
    | join t =>
      rw [hpc] at hstage
      by_cases ht : t < n
      -- `main` waits for a thread that has not ended, and then some thread can go on
      · by_cases hended : s.thread ⟨t, ht⟩ = .ended
        · exact hgo (by simp [mainStep, hpc, ht, hended])
        · obtain ⟨u, hu⟩ := exists_thread_step hinv hstage.1 hended
          obtain ⟨r, hr⟩ := Option.isSome_iff_exists.mp hu
          exact ⟨.thread u u, r, by simp, hr⟩
      · exact hgo (by simp [mainStep, hpc, ht])
    | returned =>
      rw [hpc] at hstage
      exact absurd ⟨hpc, hstage.2⟩ hend
    | failure => exact absurd hpc hfailure
  -- the step keeps what is known, and makes the measure smaller
  · rintro s a e s' ⟨⟨tr, hinv⟩, hfailure, hstage⟩ hend hok hs
    obtain ⟨hstage', hlt⟩ := stage_step hstage hok hs
    refine ⟨⟨⟨_, hinv.step hs⟩, ?_, hstage'⟩, hlt⟩
    cases step_cases hs with
    | createFails | joinFails => exact absurd rfl hok
    | create | created | join | joined => simp
    | _ => exact hfailure

/-- The number of threads in the source. -/
theorem inevitable_resumed_10 : (machine 10).Inevitable (fun _ a => a ≠ .mainFails)
    (fun s => s.main = .returned ∧ ∀ t, s.thread t = .ended) (initial 10) :=
  inevitable_resumed (by decide)

end SyncBarrier
