import OsSamples.Spec.EverythingLock

/-!
# `everything.h` under failing calls

`cs_enter` and `cs_leave` do not look at the result of their OS call ("not error checking
according to assignment"): a thread whose `sem_wait`, `semop`, `mq_receive` or `msgrcv` fails is
inside without a token, and its `cs_leave` then adds a token that nobody took.  So the damage
lasts: each failed acquisition raises the number of threads that can be inside by one, for good.

## Key results

- `two_inside_after_failed_call`: one failed `sem_wait` lets two threads in
- `inside_le_failures`: the bound, and that it is reached
-/

namespace Everything

/-- The event is a failed acquisition. -/
def CsEvent.isEnterFailed {T : Type*} : CsEvent T → Bool
  | enterFailed _ => true
  | acquire _ | release _ | leaveFailed _ => false

/-- The number of acquiring calls that failed. -/
def failures {T : Type*} (tr : List (CsEvent T)) : ℕ := tr.countP CsEvent.isEnterFailed

/-- One for a thread between the return of `cs_enter` and `cs_leave`. -/
def ThreadPc.atInside : ThreadPc → ℕ
  | .inside => 1
  | .outside | .entering _ | .leaving => 0

/-- One for a thread past the call of `cs_enter` and before the call of `cs_leave`, whether the
    former succeeded or not. -/
def ThreadPc.admitted : ThreadPc → ℕ
  | .entering (.ret _) | .inside | .leaving => 1
  | .entering _ | .outside => 0

/-- The number of threads between the return of `cs_enter` and `cs_leave`. -/
def insideCount {P T : Type*} [Fintype T] (cfg : Config T (Env P T) ThreadPc) : ℕ :=
  Threads.total ThreadPc.atInside cfg.loc

variable {P T : Type*} [DecidableEq P] [DecidableEq T] [Fintype T] {m : CsMethod} {p : P} {i : T}
  {env env' : Env P T} {busyWaitYields : Bool} {tr : List (CsEvent T)}

/-- The tokens and the admitted threads together are at most one more than the failed
    acquisitions. -/
structure FaultInv (m : CsMethod) (p : P) (tr : List (CsEvent T)) (env : Env P T)
    (loc : T → ThreadPc) : Prop where
  method : CsMethod.ofInt env.vars.csMethodUsed = some m
  tokens : ∃ t adj, env.Tokens m p t adj ∧
    t + Threads.total ThreadPc.admitted loc ≤ 1 + failures tr

omit [DecidableEq P] [DecidableEq T] [Fintype T] in
/-- The failures grow by the failed acquisitions of a step. -/
@[simp] theorem failures_append (tr tr' : List (CsEvent T)) :
    failures (tr ++ tr') = failures tr + failures tr' := by
  simp [failures]

omit [DecidableEq P] [DecidableEq T] [Fintype T] in
/-- The methods with tokens have an OS call. -/
theorem isCall_of_isToken (hm : m.isToken = true) : m.isCall = true := by
  cases m <;> first | rfl | exact nomatch hm

/-- A step of one thread preserves the bound. -/
theorem threadStep_faultInv {loc : T → ThreadPc} {pc : ThreadPc} {fail : Bool}
    {e : Option (CsEvent T)} (hm : m.isToken = true) (h : FaultInv m p tr env loc)
    (hs : threadStep busyWaitYields p i fail env (loc i) = some (e, env', pc)) :
    FaultInv m p (tr ++ e.toList) env' (Function.update loc i pc) := by
  obtain ⟨hmeth, t, adj, htok, hle⟩ := h
  have hcall := isCall_of_isToken hm
  have htotal := Threads.total_update ThreadPc.admitted loc i pc
  cases hpc : loc i with
  | outside =>
    simp only [threadStep, hpc, csEnter_isCall hcall hmeth, Option.some.injEq, Prod.mk.injEq] at hs
    obtain ⟨rfl, rfl, rfl⟩ := hs
    rw [hpc] at htotal
    simp only [ThreadPc.admitted] at htotal
    exact ⟨hmeth, t, adj, htok, by simp only [Option.toList, List.append_nil]; omega⟩
  | entering epc =>
    rw [hpc] at hs htotal
    by_cases hret : ∃ ok, epc = .ret ok
    · obtain ⟨ok, rfl⟩ := hret
      simp only [threadStep, Option.some.injEq, Prod.mk.injEq] at hs
      obtain ⟨rfl, rfl, rfl⟩ := hs
      simp only [ThreadPc.admitted] at htotal
      exact ⟨hmeth, t, adj, htok, by simp only [Option.toList, List.append_nil]; omega⟩
    · rw [not_exists] at hret
      simp only [threadStep_entering hret, Option.map_eq_some_iff, Prod.exists,
        Prod.mk.injEq] at hs
      obtain ⟨env₁, pc₁, hstep, rfl, rfl, rfl⟩ := hs
      obtain ⟨rfl, ok, rfl, hcase⟩ := csEnterStep_isCall hcall hmeth hstep
      simp only [ThreadPc.admitted] at htotal
      have hout : (ok = false ∧ env₁ = env) ∨ (ok = true ∧
          CsMethod.ofInt env₁.vars.csMethodUsed = some m ∧
          ∃ t', t = t' + 1 ∧ env₁.Tokens m p t' (adj + 1)) := by
        split at hcase
        · simp only [Option.some.injEq, Prod.mk.injEq] at hcase
          exact .inl ⟨hcase.1.symm, hcase.2.symm⟩
        · rcases Env.enterCall_tokens htok hcase with ⟨rfl, htok'⟩ | hfail
          · exact .inr ⟨rfl, by rw [Env.enterCall_method hcase]; exact hmeth, htok'⟩
          · exact .inl hfail
      rcases hout with ⟨rfl, rfl⟩ | ⟨rfl, hmeth', t', rfl, htok'⟩
      · -- after a failed call the thread is admitted on account of the failure
        refine ⟨hmeth, t, adj, htok, ?_⟩
        rw [failures_append]
        simp only [enterEvent, failures, Option.toList, List.countP_singleton,
          CsEvent.isEnterFailed, if_true] at hle ⊢
        omega
      · -- after a successful call it is admitted on account of the token it took
        refine ⟨hmeth', t', _, htok', ?_⟩
        rw [failures_append]
        omega
  | inside =>
    simp only [threadStep, hpc, Option.some.injEq, Prod.mk.injEq] at hs
    obtain ⟨rfl, rfl, rfl⟩ := hs
    rw [hpc] at htotal
    simp only [ThreadPc.admitted] at htotal
    exact ⟨hmeth, t, adj, htok, by simp only [Option.toList, List.append_nil]; omega⟩
  | leaving =>
    simp only [threadStep, hpc, csLeave_isCall hcall hmeth, Option.map_eq_some_iff, Prod.exists,
      Prod.mk.injEq] at hs
    obtain ⟨ok, env₁, hleave, rfl, rfl, rfl⟩ := hs
    rw [hpc] at htotal
    simp only [ThreadPc.admitted] at htotal
    -- the thread is no longer admitted; its token is back only if the call succeeded
    have hfail : FaultInv m p (tr ++ Option.toList (some (if ok = true then CsEvent.release i
        else .leaveFailed i))) env (Function.update loc i .outside) := by
      refine ⟨hmeth, t, adj, htok, ?_⟩
      rw [failures_append]
      omega
    split at hleave
    · simp only [Option.some.injEq, Prod.mk.injEq] at hleave
      obtain ⟨-, rfl⟩ := hleave
      exact hfail
    · rcases Env.leaveCall_tokens htok hleave with ⟨rfl, -, htok'⟩ | ⟨-, rfl⟩
      · refine ⟨by rw [Env.leaveCall_method hleave]; exact hmeth, t + 1, _, htok', ?_⟩
        rw [failures_append]
        omega
      · exact hfail

/-- The bound holds along every run of the threads. -/
theorem faultMachine_run_inv {cfg : Config T (Env P T) ThreadPc} (hm : m.isToken = true)
    (hrep : LockRep m p env none)
    (h : (faultMachine busyWaitYields p).Run (allOutside env) tr cfg) :
    FaultInv m p tr cfg.shared cfg.loc := by
  refine h.trace_invariant (I := fun tr cfg => FaultInv m p tr cfg.shared cfg.loc) ?_ ?_
  · intro tr cfg a e cfg' hI hs
    obtain ⟨env', pc', hs', rfl⟩ := Threads.machine_step_eq_some.mp hs
    exact threadStep_faultInv hm hI hs'
  · refine ⟨hrep.method, 1, _, hrep.tokens, ?_⟩
    rw [Threads.total_const (fun _ => rfl : ∀ i : T, ThreadPc.admitted
      ((allOutside env : Config T (Env P T) ThreadPc).loc i) = 0)]
    simp [failures]

omit [DecidableEq P] [DecidableEq T] in
/-- A thread that is inside is admitted. -/
theorem insideCount_le_admitted (cfg : Config T (Env P T) ThreadPc) :
    insideCount cfg ≤ Threads.total ThreadPc.admitted cfg.loc := by
  apply Finset.sum_le_sum
  intro i _
  cases cfg.loc i <;> simp [ThreadPc.atInside, ThreadPc.admitted]

/-! ## The bound is reached -/

omit [Fintype T] in
/-- Whatever the OS call of `cs_enter` returns, the thread gets inside. -/
theorem run_enter (busyWaitYields fail : Bool) {loc : T → ThreadPc} {ok : Bool}
    (hm : m.isToken = true)
    (hmeth : CsMethod.ofInt env.vars.csMethodUsed = some m) (hloc : loc i = .outside)
    (hcall : (if fail then some (false, env) else env.enterCall m p i) = some (ok, env')) :
    (faultMachine busyWaitYields p).Run ⟨env, loc⟩ (enterEvent i (.ret ok)).toList
      ⟨env', Function.update loc i .inside⟩ := by
  have hm' := isCall_of_isToken hm
  have henter : (Threads.solo (threadStep busyWaitYields p) i).step (env, .outside) false =
      some (none, env, .entering .call) := by
    simp [Threads.solo, threadStep, csEnter_isCall hm' hmeth]
  have hstep : (Threads.solo (threadStep busyWaitYields p) i).step (env, .entering .call) fail =
      some (enterEvent i (.ret ok), env', .entering (.ret ok)) := by
    simp [Threads.solo, threadStep, csEnterStep_call hm' hmeth, hcall]
  have hret : (Threads.solo (threadStep busyWaitYields p) i).step
      (env', .entering (.ret ok)) false = some (none, env', .inside) := rfl
  refine Threads.run_of_solo (.silent henter ?_) hloc
  simpa using Machine.Run.cons hstep (.silent hret .nil)

omit [DecidableEq P] in
/-- A thread that gets inside is one more. -/
theorem insideCount_update (env env' : Env P T) {loc : T → ThreadPc} (hloc : loc i = .outside) :
    insideCount (⟨env', Function.update loc i .inside⟩ : Config T (Env P T) ThreadPc) =
      insideCount (⟨env, loc⟩ : Config T (Env P T) ThreadPc) + 1 := by
  have htotal := Threads.total_update ThreadPc.atInside loc i .inside
  rw [hloc] at htotal
  simpa [insideCount, ThreadPc.atInside] using htotal

/-- One thread acquires the token and `f` more get inside through a failed call each. -/
theorem exists_run_inside (busyWaitYields : Bool) {n f : ℕ} {env : Env P (Fin n)}
    (hm : m.isToken = true) (hf : f < n)
    (hrep : LockRep m p env none) :
    ∃ tr cfg, (faultMachine busyWaitYields p).Run (allOutside env) tr cfg ∧
      CsMethod.ofInt cfg.shared.vars.csMethodUsed = some m ∧ failures tr = f ∧
      insideCount cfg = 1 + f ∧ ∀ i : Fin n, f < i → cfg.loc i = .outside := by
  induction f with
  | zero =>
    obtain ⟨env', hok, hrep'⟩ := hrep.enterCall (isCall_of_isToken hm) (i := ⟨0, hf⟩)
    have hloc : (allOutside env : Config _ (Env P (Fin n)) _).loc ⟨0, hf⟩ = .outside := rfl
    have hrun := run_enter busyWaitYields false hm hrep.method hloc hok
    refine ⟨_, _, hrun, hrep'.method, rfl, ?_, fun i hi => ?_⟩
    · rw [insideCount_update env env' hloc]
      simp [insideCount, Threads.total, ThreadPc.atInside, allOutside]
    · have hne : i ≠ ⟨0, hf⟩ := by rintro rfl; simp at hi
      simp [hne, allOutside]
  | succ f ih =>
    obtain ⟨tr, cfg, hrun, hmeth, hfail, hinside, hout⟩ := ih (by omega)
    have hloc := hout ⟨f + 1, hf⟩ (by simp)
    have hrun' := run_enter (p := p) busyWaitYields true hm hmeth hloc rfl
    refine ⟨_, _, hrun.append hrun', hmeth, ?_, ?_, fun i hi => ?_⟩
    · rw [failures_append, hfail]; rfl
    · rw [insideCount_update cfg.shared cfg.shared hloc, hinside]; omega
    · have hne : i ≠ ⟨f + 1, hf⟩ := by rintro rfl; simp at hi
      simpa [hne] using hout i (by omega)

/-! ## Main results -/

/-- With failing calls two threads can be inside: one `sem_wait` that returns an error is
    enough. -/
theorem two_inside_after_failed_call :
    ¬ ∀ (m : CsMethod), m.isToken = true → ∀ (n : ℕ) (busyWaitYields : Bool)
      (env₀ env : Env Unit (Fin n)), (csInit m.toInt ()).Reachable (.start, env₀) (.done, env) →
      ∀ tr cfg, (faultMachine busyWaitYields ()).Run (allOutside env) tr cfg →
        (∀ i, .leaveFailed i ∉ tr) →
        ∀ i j, cfg.loc i = .inside → cfg.loc j = .inside → i = j := by
  intro h
  let env : Env Unit (Fin 2) :=
    ⟨{ CsVars.static (Fin 2) with csMethodUsed := 5, csVarAllocated := true, csSem := 1 }, .empty⟩
  have hinit : (csInit CsMethod.semPosix.toInt ()).Reachable
      (.start, ⟨.static (Fin 2), .empty⟩) (.done, env) := .of_exec [(false, 0), (false, 0)] rfl
  -- thread 0 takes the token; `sem_wait` of thread 1 fails, and thread 1 is inside as well
  have hrun : (faultMachine false ()).Run (allOutside env) [.acquire 0, .enterFailed 1] _ :=
    .of_exec [(0, false), (0, false), (0, false), (1, false), (1, true), (1, false)] rfl
  have h01 := h .semPosix rfl 2 false _ env hinit _ _ hrun (by simp) 0 1 rfl rfl
  exact absurd h01 (by decide)

/-- Under any pattern of failing calls the number of threads between the return of `cs_enter`
    and `cs_leave` is at most one more than the number of acquiring calls that have failed so
    far, and for every number of failures some run reaches that bound. -/
theorem inside_le_failures (m : CsMethod) (hm : m.isToken = true) (n : ℕ) (busyWaitYields : Bool)
    (p : P) (env₀ env : Env P (Fin n))
    (hinit : (csInit m.toInt p).Reachable (.start, env₀) (.done, env)) :
    (∀ tr cfg, (faultMachine busyWaitYields p).Run (allOutside env) tr cfg →
      insideCount cfg ≤ 1 + failures tr) ∧
    ∀ f < n, ∃ tr cfg, (faultMachine busyWaitYields p).Run (allOutside env) tr cfg ∧
      failures tr = f ∧ insideCount cfg = 1 + f := by
  have hlock : m.isLock = true := by cases m <;> first | rfl | exact nomatch hm
  have hrep := csInit_lockRep hlock hinit
  constructor
  · intro tr cfg hrun
    obtain ⟨-, t, adj, -, hle⟩ := faultMachine_run_inv hm hrep hrun
    have := insideCount_le_admitted cfg
    omega
  · intro f hf
    obtain ⟨tr, cfg, hrun, -, hfail, hinside, -⟩ :=
      exists_run_inside busyWaitYields hm hf hrep
    exact ⟨tr, cfg, hrun, hfail, hinside⟩

/-- Three threads over a POSIX semaphore. -/
theorem inside_le_failures_semPosix :
    ∃ tr cfg, (faultMachine false ()).Run (allOutside (T := Fin 3)
      ⟨{ CsVars.static (Fin 3) with csMethodUsed := 5, csVarAllocated := true, csSem := 1 },
        .empty⟩) tr cfg ∧ failures tr = 2 ∧ insideCount cfg = 1 + 2 :=
  (inside_le_failures .semPosix rfl 3 false () ⟨.static (Fin 3), .empty⟩ _
    (.of_exec [(false, 0), (false, 0)] rfl)).2 2 (by decide)

end Everything
