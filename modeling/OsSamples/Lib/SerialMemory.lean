import OsSamples.Lib.Machine
import OsSamples.Lib.Trace
import Mathlib.Logic.Function.Basic

/-!
# Critical sections on a sequentially consistent memory

What a program promises whose threads access shared locations in critical sections only: the
critical sections are executed one after another, each load reads the latest store.

## Key result

- `load_eq_latest`: in an event sequence a load returns the latest store before it
-/

/-- Entering and leaving the critical section, and the accesses of threads `T` to locations `L`
    in it. -/
inductive AccessEvent (T L V : Type*)
  | enter (t : T)
  | load (t : T) (l : L) (v : V)
  | store (t : T) (l : L) (v : V)
  | exit (t : T)
  deriving DecidableEq

namespace SerialMemory

/-- The thread in the critical section, and the memory. -/
structure State (T L V : Type*) where
  owner : Option T
  mem : L → V

variable {T L V : Type*} [DecidableEq T] [DecidableEq L] [DecidableEq V]

/-- An event happens if the thread may do it and, for a load, if the value is the one in
    memory. -/
def step (s : State T L V) (a : AccessEvent T L V) :
    Option (Option (AccessEvent T L V) × State T L V) :=
  match a with
  | .enter t => if s.owner = none then some (some a, { s with owner := some t }) else none
  | .load t l v => if s.owner = some t ∧ s.mem l = v then some (some a, s) else none
  | .store t l v =>
    if s.owner = some t then some (some a, { s with mem := Function.update s.mem l v }) else none
  | .exit t => if s.owner = some t then some (some a, { s with owner := none }) else none

/-- Threads with critical sections on a sequentially consistent memory. -/
def machine : Machine (State T L V) (AccessEvent T L V) (AccessEvent T L V) := ⟨step⟩

/-- The value of the latest store to `l` in a sequence of events, `v₀` if there is none. -/
def latest (l : L) (v₀ : V) (tr : List (AccessEvent T L V)) : V :=
  tr.foldl (fun v e => match e with
    | .store _ l' v' => if l' = l then v' else v
    | .enter _ | .load _ _ _ | .exit _ => v) v₀

/-- The memory holds the latest stores, and each load so far has read the latest one. -/
structure LatestInv (m₀ : L → V) (tr : List (AccessEvent T L V)) (s : State T L V) : Prop where
  mem : ∀ l, s.mem l = latest l (m₀ l) tr
  loads : ∀ pre t l v post, tr = pre ++ .load t l v :: post → v = latest l (m₀ l) pre

omit [DecidableEq T] [DecidableEq V] in
/-- An event that is no store leaves the latest values. -/
theorem latest_snoc (l : L) (v₀ : V) (tr : List (AccessEvent T L V)) (e : AccessEvent T L V) :
    latest l v₀ (tr ++ [e]) = match e with
      | .store _ l' v' => if l' = l then v' else latest l v₀ tr
      | .enter _ | .load _ _ _ | .exit _ => latest l v₀ tr := by
  simp only [latest, List.foldl_append, List.foldl_cons, List.foldl_nil]

omit [DecidableEq T] [DecidableEq V] in
/-- The loads of a longer sequence. -/
theorem loads_snoc {m₀ : L → V} {tr : List (AccessEvent T L V)} {e : AccessEvent T L V}
    (h : ∀ pre t l v post, tr = pre ++ .load t l v :: post → v = latest l (m₀ l) pre)
    (he : ∀ t l v, e = .load t l v → v = latest l (m₀ l) tr) (pre : List (AccessEvent T L V))
    (t : T) (l : L) (v : V) (post : List (AccessEvent T L V))
    (heq : tr ++ [e] = pre ++ .load t l v :: post) : v = latest l (m₀ l) pre := by
  have hbefore : tr.EachAfter fun pre e => ∀ t l v, e = .load t l v → v = latest l (m₀ l) pre := by
    rintro pre e post heq t l v rfl
    exact h pre t l v post heq
  exact List.eachAfter_snoc.mpr ⟨hbefore, he⟩ pre _ post heq t l v rfl

/-- Every event keeps the memory at the latest stores. -/
theorem step_latest {m₀ : L → V} {tr : List (AccessEvent T L V)} {s s' : State T L V}
    {a : AccessEvent T L V} {e : Option (AccessEvent T L V)} (hI : LatestInv m₀ tr s)
    (h : machine.step s a = some (e, s')) : LatestInv m₀ (tr ++ e.toList) s' := by
  cases a <;>
    simp only [machine, step, Option.ite_none_right_eq_some, Option.some.injEq,
      Prod.mk.injEq] at h <;> obtain ⟨hguard, rfl, rfl⟩ := h
  case enter t =>
    exact ⟨fun l => by simp only [Option.toList, latest_snoc]; exact hI.mem l,
      loads_snoc hI.loads nofun⟩
  case load t l v =>
    -- the guard of a load is that it returns the value in memory
    refine ⟨fun l => by simp only [Option.toList, latest_snoc]; exact hI.mem l,
      loads_snoc hI.loads ?_⟩
    intro t' l' v' heq
    obtain ⟨-, rfl, rfl⟩ := AccessEvent.load.inj heq
    rw [← hguard.2]
    exact hI.mem l
  case store t l v =>
    refine ⟨fun l' => ?_, loads_snoc hI.loads nofun⟩
    simp only [Option.toList, latest_snoc, Function.update_apply, eq_comm (a := l')]
    split
    · rfl
    · exact hI.mem l'
  case exit t =>
    exact ⟨fun l => by simp only [Option.toList, latest_snoc]; exact hI.mem l,
      loads_snoc hI.loads nofun⟩

/-- In an event sequence each load returns the value of the latest store before it. -/
theorem load_eq_latest {s : State T L V} {tr : List (AccessEvent T L V)}
    (h : tr ∈ machine.traces s) (pre : List (AccessEvent T L V)) (t : T) (l : L) (v : V)
    (post : List (AccessEvent T L V)) (heq : tr = pre ++ .load t l v :: post) :
    v = latest l (s.mem l) pre := by
  obtain ⟨s', hrun⟩ := h
  have hI : LatestInv s.mem tr s' :=
    hrun.trace_invariant (I := LatestInv s.mem) (fun _ _ _ _ _ hI hs => step_latest hI hs)
      ⟨fun _ => rfl, by simp⟩
  exact hI.loads pre t l v post heq

end SerialMemory
