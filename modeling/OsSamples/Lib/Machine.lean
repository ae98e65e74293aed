import Mathlib.Data.Set.Basic
import Mathlib.Data.List.Basic

/-!
# Labelled machines

A `Machine` is a transition system whose nondeterminism sits in its actions: `step s a` is the
one successor of `s` under the action `a`, or `none` where the action cannot be taken (it is
disabled, or the call it stands for blocks).  A step may emit one visible event.

## Key results

- `Run.invariant` / `Run.trace_invariant`: what every step preserves, every run preserves
- `Run.simulate`, `traces_subset`: a weak simulation carries runs and event sequences over
- `Reachable.simulate`: a simulation that does not look at the events carries reachability over
- `Run.of_exec`: a run computed by `exec` is a run
- `ReachableWhile.invariant`: what every step under a condition preserves, every run whose steps
  all meet the condition preserves
- `restrict`: the machine whose steps all meet a condition
- `Inevitable.of_measure`: what is reached by all runs, from a measure that every step makes smaller
-/

/-- A transition system with states `σ`, actions `α` and visible events `ε`. -/
structure Machine (σ α ε : Type*) where
  step : σ → α → Option (Option ε × σ)

namespace Machine

variable {σ α ε τ β : Type*} {M : Machine σ α ε} {N : Machine τ β ε}

/-- `M.Run s tr s'`: some sequence of actions leads from `s` to `s'`, emitting the events `tr`. -/
inductive Run (M : Machine σ α ε) (s : σ) : List ε → σ → Prop
  | nil : Run M s [] s
  | snoc {tr : List ε} {s₁ s₂ : σ} {a : α} {e : Option ε} :
      Run M s tr s₁ → M.step s₁ a = some (e, s₂) → Run M s (tr ++ e.toList) s₂

/-- The state `s'` occurs in some run from `s`. -/
def Reachable (M : Machine σ α ε) (s s' : σ) : Prop := ∃ tr, M.Run s tr s'

/-- The finite sequences of visible events that the runs from `s` emit. -/
def traces (M : Machine σ α ε) (s : σ) : Set (List ε) := {tr | ∃ s', M.Run s tr s'}

/-- Takes the actions in order; `none` if one of them cannot be taken. -/
def exec (M : Machine σ α ε) : σ → List α → Option (List ε × σ)
  | s, [] => some ([], s)
  | s, a :: as =>
    match M.step s a with
    | none => none
    | some (e, s₁) => (exec M s₁ as).map fun r => (e.toList ++ r.1, r.2)

namespace Run

/-- A single step is a run. -/
theorem single {s s' : σ} {a : α} {e : Option ε} (h : M.step s a = some (e, s')) :
    M.Run s e.toList s' := by
  simpa using Run.nil.snoc h

/-- Runs compose. -/
theorem append {s s₁ s₂ : σ} {tr tr' : List ε} (h : M.Run s tr s₁) (h' : M.Run s₁ tr' s₂) :
    M.Run s (tr ++ tr') s₂ := by
  induction h' with
  | nil => simpa using h
  | snoc _ hs ih => rw [← List.append_assoc]; exact ih.snoc hs

/-- A step followed by a run is a run. -/
theorem cons {s s₁ s₂ : σ} {a : α} {e : Option ε} {tr : List ε}
    (h : M.step s a = some (e, s₁)) (h' : M.Run s₁ tr s₂) : M.Run s (e.toList ++ tr) s₂ :=
  (single h).append h'

/-- A silent step followed by a run emits what the run emits. -/
theorem silent {s s₁ s₂ : σ} {a : α} {tr : List ε}
    (h : M.step s a = some (none, s₁)) (h' : M.Run s₁ tr s₂) : M.Run s tr s₂ := by
  simpa using cons h h'

/-- A property of a state and of the events emitted so far that every step preserves holds
    along every run. -/
theorem trace_invariant {I : List ε → σ → Prop}
    (hstep : ∀ tr s a e s', I tr s → M.step s a = some (e, s') → I (tr ++ e.toList) s')
    {s s' : σ} {tr : List ε} (h : M.Run s tr s') (h₀ : I [] s) : I tr s' := by
  induction h with
  | nil => exact h₀
  | snoc _ hs ih => exact hstep _ _ _ _ _ ih hs

/-- A property that every step preserves holds along every run. -/
theorem invariant {I : σ → Prop} (hstep : ∀ s a e s', I s → M.step s a = some (e, s') → I s')
    {s s' : σ} {tr : List ε} (h : M.Run s tr s') (h₀ : I s) : I s' :=
  h.trace_invariant (I := fun _ => I) (fun _ _ _ _ _ hI hs => hstep _ _ _ _ hI hs) h₀

/-- Along a run every emitted event has a property that holds of the event of each step taken
    in an invariant state. -/
theorem forall_events {I : σ → Prop} {P : ε → Prop}
    (hstep : ∀ s a e s', I s → M.step s a = some (e, s') → I s' ∧ ∀ x ∈ e.toList, P x)
    {s s' : σ} {tr : List ε} (h : M.Run s tr s') (h₀ : I s) : ∀ x ∈ tr, P x := by
  have key : I s' ∧ ∀ x ∈ tr, P x := by
    refine h.trace_invariant (I := fun tr s => I s ∧ ∀ x ∈ tr, P x) ?_ ⟨h₀, by simp⟩
    intro tr s a e s' ⟨hI, htr⟩ hs
    obtain ⟨hI', he⟩ := hstep s a e s' hI hs
    refine ⟨hI', fun x hx => ?_⟩
    rcases List.mem_append.mp hx with hx | hx
    · exact htr x hx
    · exact he x hx
  exact key.2

/-- Where every step of `M` is matched by a run of `N` with the same event, every run of `M` is
    matched by a run of `N` with the same events. -/
theorem simulate {R : σ → τ → Prop}
    (hsim : ∀ s t a e s', R s t → M.step s a = some (e, s') →
      ∃ t', N.Run t e.toList t' ∧ R s' t')
    {s s' : σ} {t : τ} {tr : List ε} (h : M.Run s tr s') (h₀ : R s t) :
    ∃ t', N.Run t tr t' ∧ R s' t' := by
  induction h with
  | nil => exact ⟨t, .nil, h₀⟩
  | snoc _ hs ih =>
    obtain ⟨t₁, hrun, hR⟩ := ih
    obtain ⟨t₂, hrun', hR'⟩ := hsim _ _ _ _ _ hR hs
    exact ⟨t₂, hrun.append hrun', hR'⟩

/-- What `exec` computes is a run. -/
theorem of_exec {s s' : σ} (as : List α) {tr : List ε} (h : M.exec s as = some (tr, s')) :
    M.Run s tr s' := by
  induction as generalizing s tr with
  | nil =>
    simp only [exec, Option.some.injEq, Prod.mk.injEq] at h
    obtain ⟨rfl, rfl⟩ := h
    exact .nil
  | cons a as ih =>
    simp only [exec] at h
    split at h
    · exact nomatch h
    · rename_i e s₁ hs
      simp only [Option.map_eq_some_iff, Prod.mk.injEq] at h
      obtain ⟨⟨tr', s₂⟩, hrest, rfl, rfl⟩ := h
      exact cons hs (ih hrest)

end Run

/-- Every state is reachable from itself. -/
theorem Reachable.refl (s : σ) : M.Reachable s s := ⟨[], .nil⟩

/-- Reachability is closed under steps. -/
theorem Reachable.step {s s₁ s₂ : σ} {a : α} {e : Option ε} (h : M.Reachable s s₁)
    (hs : M.step s₁ a = some (e, s₂)) : M.Reachable s s₂ := by
  obtain ⟨tr, hrun⟩ := h
  exact ⟨_, hrun.snoc hs⟩

/-- Reachability is transitive. -/
theorem Reachable.trans {s s₁ s₂ : σ} (h : M.Reachable s s₁) (h' : M.Reachable s₁ s₂) :
    M.Reachable s s₂ := by
  obtain ⟨tr, hrun⟩ := h
  obtain ⟨tr', hrun'⟩ := h'
  exact ⟨_, hrun.append hrun'⟩

/-- An inductive invariant holds in every reachable state. -/
theorem Reachable.invariant {I : σ → Prop}
    (hstep : ∀ s a e s', I s → M.step s a = some (e, s') → I s')
    {s s' : σ} (h : M.Reachable s s') (h₀ : I s) : I s' := by
  obtain ⟨_, hrun⟩ := h
  exact hrun.invariant hstep h₀

/-- A computed run reaches its final state. -/
theorem Reachable.of_exec {s s' : σ} (as : List α) {tr : List ε}
    (h : M.exec s as = some (tr, s')) : M.Reachable s s' := ⟨tr, .of_exec as h⟩

/-- Where every step of `M` is matched by a run of `N`, whatever it emits, every state that `M`
    reaches is matched by one that `N` reaches. -/
theorem Reachable.simulate {δ : Type*} {K : Machine τ β δ} {R : σ → τ → Prop}
    (hsim : ∀ s t a e s', R s t → M.step s a = some (e, s') → ∃ t', K.Reachable t t' ∧ R s' t')
    {s s' : σ} {t : τ} (h : M.Reachable s s') (h₀ : R s t) :
    ∃ t', K.Reachable t t' ∧ R s' t' := by
  obtain ⟨tr, hrun⟩ := h
  induction hrun with
  | nil => exact ⟨t, .refl t, h₀⟩
  | snoc _ hs ih =>
    obtain ⟨t₁, hreach, hR⟩ := ih
    obtain ⟨t₂, hreach', hR'⟩ := hsim _ _ _ _ _ hR hs
    exact ⟨t₂, hreach.trans hreach', hR'⟩

/-- The state `s'` occurs in some run from `s` each of whose steps meets the condition `ok`. -/
inductive ReachableWhile (M : Machine σ α ε) (ok : σ → α → Prop) (s : σ) : σ → Prop
  | refl : ReachableWhile M ok s s
  | step {s₁ s₂ : σ} {a : α} {e : Option ε} :
      ReachableWhile M ok s s₁ → ok s₁ a → M.step s₁ a = some (e, s₂) → ReachableWhile M ok s s₂

/-- A property that every step under the condition preserves holds along every run whose steps
    all meet the condition. -/
theorem ReachableWhile.invariant {I : σ → Prop} {ok : σ → α → Prop}
    (hstep : ∀ s a e s', I s → ok s a → M.step s a = some (e, s') → I s')
    {s s' : σ} (h : M.ReachableWhile ok s s') (h₀ : I s) : I s' := by
  induction h with
  | refl => exact h₀
  | step _ hok hs ih => exact hstep _ _ _ _ ih hok hs

/-- The machine that takes only the steps that meet the condition `ok`. -/
def restrict (M : Machine σ α ε) (ok : σ → α → Prop) [∀ s a, Decidable (ok s a)] :
    Machine σ α ε where
  step := fun s a => if ok s a then M.step s a else none

theorem restrict_step {ok : σ → α → Prop} [∀ s a, Decidable (ok s a)] {s : σ} {a : α}
    {r : Option ε × σ} : (M.restrict ok).step s a = some r ↔ ok s a ∧ M.step s a = some r := by
  simp only [restrict, Option.ite_none_right_eq_some]

/-- Whatever steps under the condition are taken from `s`, they lead to a state with `P`, and before
    there is always one that can be taken. -/
inductive Inevitable (M : Machine σ α ε) (ok : σ → α → Prop) (P : σ → Prop) : σ → Prop
  | now {s : σ} : P s → Inevitable M ok P s
  | later {s : σ} : (∃ a r, ok s a ∧ M.step s a = some r) →
      (∀ a e s', ok s a → M.step s a = some (e, s') → Inevitable M ok P s') → Inevitable M ok P s

/-- It is enough that, wherever `P` does not hold, an invariant gives a step under the condition,
    and every such step keeps the invariant and makes a measure smaller. -/
theorem Inevitable.of_measure {I P : σ → Prop} {ok : σ → α → Prop} (μ : σ → ℕ)
    (hprogress : ∀ s, I s → ¬ P s → ∃ a r, ok s a ∧ M.step s a = some r)
    (hstep : ∀ s a e s', I s → ¬ P s → ok s a → M.step s a = some (e, s') → I s' ∧ μ s' < μ s)
    {s : σ} (h : I s) : M.Inevitable ok P s := by
  induction hn : μ s using Nat.strong_induction_on generalizing s with
  | _ n ih =>
    by_cases hP : P s
    · exact .now hP
    · refine .later (hprogress s h hP) fun a e s' hok hs => ?_
      obtain ⟨hI, hlt⟩ := hstep s a e s' h hP hok hs
      exact ih _ (hn ▸ hlt) hI rfl

/-- A weak simulation of `M` by `N` includes the event sequences of `M` in those of `N`. -/
theorem traces_subset {R : σ → τ → Prop}
    (hsim : ∀ s t a e s', R s t → M.step s a = some (e, s') →
      ∃ t', N.Run t e.toList t' ∧ R s' t')
    {s : σ} {t : τ} (h₀ : R s t) : M.traces s ⊆ N.traces t := by
  rintro tr ⟨s', hrun⟩
  obtain ⟨t', hrun', _⟩ := hrun.simulate hsim h₀
  exact ⟨t', hrun'⟩

end Machine
