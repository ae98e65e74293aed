import OsSamples.Lib.UndoSemaphore
import OsSamples.Native.SemSysvProcesses
import OsSamples.Spec.CheckedHeaders

/-!
# When processes that use `sem_sysv.h` are isolated

All instances share the set with the key 61014.  An instance that starts sets the semaphore to 1
even if a thread of another instance holds its token, and an instance that ends removes the set
even if others use it.  Runs without such a step keep the processes isolated: one token goes
round among all of them.

## Key results

- `procStep_init`, `procStep_thread`, `procStep_destroy`: what one step of a process does
- `WorldInv.step`: every step that disturbs nobody keeps the one token of each set in use
- `isolated_of_undisturbed`: then the processes are isolated
- `not_isolated`: a `SETVAL`, or an `IPC_RMID`, at the wrong time breaks this
-/

namespace CheckedHeaders.SemSysv

open Everything (InitPc initDone)

/-! ## The property and the condition -/

section Property

variable {P : Type*} {T : P → Type*}

/-- Process `p` runs its threads, on the set `id`. -/
def Uses (w : World P T) (p : P) (id : ℕ) : Prop :=
  (w.procs p).pc = .running ∧ (w.procs p).vars.sysvSemid = some id

/-- The step does not disturb other processes: no `SETVAL` on a set whose token a thread holds,
    and no `IPC_RMID` of a set that another process uses. -/
def Undisturbed (w : World P T) (a : Σ p, ProcAction (T p)) : Prop :=
  match a with
  | ⟨p, .init false _⟩ =>
    (w.procs p).pc = .init .semctl → ∀ id, (w.procs p).vars.sysvSemid = some id →
      ∀ q, Uses w q id → ∀ i, ((w.procs q).loc i).holding = 0
  | ⟨p, .destroy false⟩ =>
    (w.procs p).pc = .running → ∀ id, (w.procs p).vars.sysvSemid = some id →
      ∀ q, q ≠ p → ¬ Uses w q id
  | _ => True

/-- A step of `cs_init` while no thread holds a token disturbs nobody. -/
theorem Undisturbed.init {w : World P T} {p : P} {fail : Bool} {fresh : ℕ}
    (h : ∀ q i, ((w.procs q).loc i).holding = 0) : Undisturbed w ⟨p, .init fail fresh⟩ := by
  cases fail with
  | true => trivial
  | false => exact fun _ _ _ q _ i => h q i

/-- A step of a thread disturbs nobody. -/
theorem Undisturbed.thread {w : World P T} {p : P} {i : T p} {fail : Bool} :
    Undisturbed w ⟨p, .thread i fail⟩ := trivial

variable [DecidableEq P] [∀ p, DecidableEq (T p)] [∀ p, Fintype (T p)]

/-- The processes are isolated: in each at most one thread is between `cs_enter` and `cs_leave`,
    and a `semop` that does not fail for no reason succeeds if it returns. -/
structure Isolated (w : World P T) : Prop where
  exclusive : ∀ p i j,
    ((w.procs p).loc i).atInside = 1 → ((w.procs p).loc j).atInside = 1 → i = j
  enterSucceeds : ∀ p i e w', worldMachine.step w ⟨p, .thread i false⟩ = some (e, w') →
    (w.procs p).loc i = .enterCall → (w'.procs p).loc i = .enterCheck true
  leaveSucceeds : ∀ p i e w', worldMachine.step w ⟨p, .thread i false⟩ = some (e, w') →
    (w.procs p).loc i = .leaveCall → (w'.procs p).loc i = .leaveCheck true

end Property

/-! ## What one step of a process does -/

section Process

variable {P T : Type*} {p : P} {k k' : Kernel P} {proc proc' : Proc T} {i : T}

/-- What holds of a process on its own. -/
structure ProcInv (proc : Proc T) : Prop where
  unique : ∀ i j, (proc.loc i).holding = 1 → (proc.loc j).holding = 1 → i = j
  idle : ∀ pc, proc.pc = .init pc → ∀ i, proc.loc i = .outside
  method : proc.pc = .init .semget ∨ proc.pc = .init .semctl ∨ proc.pc = .running →
    CsMethod.ofInt proc.vars.csMethodUsed = some .semSysv
  handle : proc.pc = .init .semctl ∨ proc.pc = .running → ∃ id, proc.vars.sysvSemid = some id
  allocated : proc.pc = .running → proc.vars.csVarAllocated = true

/-- A process that has left `cs_init` and its threads needs to know nothing any more. -/
theorem ProcInv.exiting (hloc : ∀ i j, (proc.loc i).holding = 1 → (proc.loc j).holding = 1 → i = j)
    (hpc : (∃ err, proc.pc = .exiting err) ∨ proc.pc = .ended) : ProcInv proc := by
  have hne : ∀ pc, proc.pc ≠ .init pc := by
    intro pc h
    rcases hpc with ⟨err, hpc⟩ | hpc <;> rw [hpc] at h <;> cases h
  have hrun : proc.pc ≠ .running := by
    intro h
    rcases hpc with ⟨err, hpc⟩ | hpc <;> rw [hpc] at h <;> cases h
  exact ⟨hloc, fun pc h => absurd h (hne pc), fun h => by simp [hne, hrun] at h,
    fun h => by simp [hne, hrun] at h, fun h => absurd h hrun⟩

/-- A process after a step of a thread that leaves at most one thread with the token. -/
theorem ProcInv.thread (h : ProcInv proc) (hpc : proc.pc = .running)
    (hvars : proc'.vars = proc.vars) (hpc' : proc'.pc = .running ∨ ∃ err, proc'.pc = .exiting err)
    (hunique : ∀ i j, (proc'.loc i).holding = 1 → (proc'.loc j).holding = 1 → i = j) :
    ProcInv proc' := by
  rcases hpc' with hpc' | hpc'
  · refine ⟨hunique, fun pc hinit => ?_, fun _ => ?_, fun _ => ?_, fun _ => ?_⟩
    · rw [hpc'] at hinit
      cases hinit
    · rw [hvars]
      exact h.method (.inr (.inr hpc))
    · rw [hvars]
      exact h.handle (.inr hpc)
    · rw [hvars]
      exact h.allocated hpc
  · exact .exiting hunique (.inl hpc')

/-- What a step of `cs_init` does: it calls `exit`, or selects the method, or opens the set, or
    sets the semaphore to 1. -/
theorem csInitStep_cases {fail : Bool} {fresh : ℕ} {pc pc' : InitPc} {v : CsVars T}
    {env' : Env P T}
    (hs : csInitStep CsMethod.semSysv.toInt p fail fresh pc ⟨v, k⟩ = some (pc', env')) :
    (∃ err, pc' = .exited err ∧ env'.kernel = k) ∨
    (pc = .start ∧ pc' = .semget ∧ env'.kernel = k ∧
      CsMethod.ofInt env'.vars.csMethodUsed = some .semSysv) ∨
    (pc = .semget ∧ pc' = .semctl ∧ (∃ id, env'.vars = { v with sysvSemid := some id }) ∧
      ∀ id, k.semSets id ≠ none → env'.kernel.semSets id = k.semSets id) ∨
    (pc = .semctl ∧ fail = false ∧ pc' = .done ∧ env'.vars = { v with csVarAllocated := true } ∧
      ∃ (id : ℕ) (s : SysvSem P), v.sysvSemid = some id ∧
        env'.kernel = k.setSemSet id (some { s with val := 1, semadj := fun _ => 0 })) := by
  unfold csInitStep at hs
  split at hs
  · -- start
    simp only [initStart, CsMethod.ofInt_toInt, Option.some.injEq, Prod.mk.injEq] at hs
    obtain ⟨rfl, rfl⟩ := hs
    exact .inr (.inl ⟨rfl, rfl, rfl, CsMethod.ofInt_toInt .semSysv⟩)
  · -- semget
    simp only [Option.map_eq_some_iff, Prod.exists, Prod.mk.injEq] at hs
    obtain ⟨h, k', hget, rfl, rfl⟩ := hs
    cases h with
    | none =>
      -- only a failing call yields no set
      refine .inl ⟨_, if_pos rfl, ?_⟩
      split at hget
      · simp only [Option.some.injEq, Prod.mk.injEq] at hget
        exact hget.2.symm
      · obtain ⟨id, hid⟩ := Kernel.semgetCreate_isSome hget
        cases hid
    | some id =>
      refine .inr (.inr (.inl ⟨rfl, if_neg (by simp), ⟨id, rfl⟩, ?_⟩))
      split at hget
      · cases hget
      · exact fun id' hid' => Kernel.semgetCreate_semSets hget hid'
  · -- semctl
    unfold Everything.csInitStep at hs
    simp only at hs
    split at hs
    · simp only [Option.some.injEq, Prod.mk.injEq] at hs
      obtain ⟨rfl, rfl⟩ := hs
      exact .inl ⟨_, rfl, rfl⟩
    · rename_i id hid
      cases fail with
      | true =>
        simp only [if_true, Bool.false_eq_true, if_false, Option.some.injEq, Prod.mk.injEq] at hs
        obtain ⟨rfl, rfl⟩ := hs
        exact .inl ⟨_, rfl, rfl⟩
      | false =>
        simp only [Bool.false_eq_true, if_false, Kernel.semctlSetval] at hs
        cases hset : k.semSets id with
        | none =>
          simp only [hset, Bool.false_eq_true, if_false, Option.some.injEq, Prod.mk.injEq] at hs
          obtain ⟨rfl, rfl⟩ := hs
          exact .inl ⟨_, rfl, rfl⟩
        | some s =>
          simp only [hset, if_true, initDone, Option.some.injEq, Prod.mk.injEq] at hs
          obtain ⟨rfl, rfl⟩ := hs
          exact .inr (.inr (.inr ⟨rfl, rfl, rfl, rfl, id, s, hid, rfl⟩))
  · cases hs

variable [DecidableEq P] [DecidableEq T]

/-- A step of `cs_init`: it does nothing to the sets there are and leaves the process outside, or
    it is the `SETVAL` that finishes `cs_init`. -/
theorem procStep_init [Fintype T] {pc : InitPc} {fail : Bool} {fresh : ℕ} (h : ProcInv proc)
    (hpc : proc.pc = .init pc) (hs : procStep p (.init fail fresh) k proc = some (k', proc')) :
    ProcInv proc' ∧ (∀ i, proc'.loc i = .outside) ∧
      ((proc'.pc ≠ .running ∧ ∀ id, k.semSets id ≠ none → k'.semSets id = k.semSets id) ∨
      (pc = .semctl ∧ fail = false ∧ ∃ (id : ℕ) (s : SysvSem P),
        proc.vars.sysvSemid = some id ∧ proc'.vars.sysvSemid = some id ∧
          k' = k.setSemSet id (some { s with val := 1, semadj := fun _ => 0 }))) := by
  have hidle := h.idle pc hpc
  simp only [procStep, hpc, Option.map_eq_some_iff, Prod.mk.injEq] at hs
  obtain ⟨⟨pc', env⟩, hinit, rfl, rfl⟩ := hs
  refine (and_left_comm.mp ⟨hidle, ?_⟩)
  rcases csInitStep_cases hinit with ⟨err, rfl, hk⟩ | ⟨rfl, rfl, hk, hmeth⟩ |
    ⟨rfl, rfl, ⟨id, hvars⟩, hk⟩ | ⟨rfl, rfl, rfl, hvars, id, s, hid, hk⟩
  -- a failure ends the process
  · exact ⟨.exiting h.unique (.inl ⟨some err, rfl⟩), .inl ⟨nofun, fun id _ => by rw [hk]⟩⟩
  · refine ⟨⟨h.unique, fun _ _ => hidle, fun _ => hmeth, ?_, nofun⟩,
      .inl ⟨nofun, fun id _ => by rw [hk]⟩⟩
    rintro (h | h) <;> cases h
  · have hmeth := h.method (.inl hpc)
    exact ⟨⟨h.unique, fun _ _ => hidle, fun _ => by rw [hvars]; exact hmeth,
      fun _ => ⟨id, by rw [hvars]⟩, nofun⟩, .inl ⟨nofun, hk⟩⟩
  -- `SETVAL`: the set has one token, whoever has used it before
  · have hmeth := h.method (.inr (.inl hpc))
    exact ⟨⟨h.unique, fun _ _ => hidle, fun _ => by rw [hvars]; exact hmeth,
      fun _ => ⟨id, by rw [hvars]; exact hid⟩, fun _ => by rw [hvars]⟩,
      .inr ⟨rfl, rfl, id, s, hid, by rw [hvars]; exact hid, hk⟩⟩

/-- A step of thread `i`: a `semop` on the set of the process that is made as asked, or a step that
    changes neither the kernel nor whether the thread holds the token. -/
theorem procStep_thread [Fintype T] {fail : Bool} {id : ℕ} (h : ProcInv proc)
    (hpc : proc.pc = .running) (hid : proc.vars.sysvSemid = some id)
    (hs : procStep p (.thread i fail) k proc = some (k', proc')) :
    proc'.vars = proc.vars ∧ (proc'.pc = .running ∨ ∃ err, proc'.pc = .exiting err) ∧
      ∃ pc', proc'.loc = Function.update proc.loc i pc' ∧
      ((k' = k ∧ pc'.holding = (proc.loc i).holding ∧
          (fail = false → proc.loc i ≠ .enterCall ∧ proc.loc i ≠ .leaveCall)) ∨
        (∃ ok, proc.loc i = .enterCall ∧ k.semop p (-1) id = some (ok, k') ∧
          pc' = .enterCheck ok) ∨
        (∃ ok, proc.loc i = .leaveCall ∧ k.semop p 1 id = some (ok, k') ∧
          pc' = .leaveCheck ok)) := by
  have himpl : Header.semSysv.implements .semSysv = true := rfl
  obtain ⟨⟨enterErr, henter⟩, leaveErr, hleave⟩ :=
    calls_of_implements himpl (h.method (.inr (.inr hpc)))
  simp only [procStep, hpc, Option.map_eq_some_iff, Prod.mk.injEq] at hs
  obtain ⟨⟨e, s', pc'⟩, hstep, rfl, rfl⟩ := hs
  -- a check may end the process, no other step does
  have hexit : ∀ exited, ProcPc.ofExited exited = .running ∨
      ∃ err, ProcPc.ofExited exited = .exiting err := by
    intro exited
    cases exited with
    | none => exact .inl rfl
    | some err => exact .inr ⟨some err, rfl⟩
  simp only [threadStep, Option.isSome_none, Bool.false_eq_true, if_false] at hstep
  refine and_left_comm.mp ⟨hexit _, ?_⟩
  cases hloc : proc.loc i with
  | outside =>
    simp only [hloc, Option.some.injEq, Prod.mk.injEq] at hstep
    obtain ⟨-, rfl, rfl⟩ := hstep
    exact ⟨rfl, _, rfl, .inl ⟨rfl, rfl, fun _ => ⟨by simp, by simp⟩⟩⟩
  | enterCall =>
    simp only [hloc, henter, Option.map_eq_some_iff, Prod.exists, Prod.mk.injEq] at hstep
    obtain ⟨ok, env, hcall, -, rfl, rfl⟩ := hstep
    split at hcall
    · rename_i hfail
      simp only [Option.some.injEq, Prod.mk.injEq] at hcall
      obtain ⟨rfl, rfl⟩ := hcall
      exact ⟨rfl, _, rfl, .inl ⟨rfl, rfl, fun hf => by rw [hf] at hfail; cases hfail⟩⟩
    · obtain ⟨k₁, hop, rfl⟩ := Env.onHandle_call hid hcall
      exact ⟨rfl, _, rfl, .inr (.inl ⟨ok, rfl, hop, rfl⟩)⟩
  | enterCheck ok =>
    simp only [hloc, Option.some.injEq, Prod.mk.injEq] at hstep
    obtain ⟨henv, hnext⟩ := check_cases hstep.2
    have hhold : pc'.holding = (Pc.enterCheck ok).holding := by
      rcases hnext with ⟨rfl, rfl⟩ | ⟨rfl, rfl⟩ <;> rfl
    exact ⟨by rw [henv], _, rfl, .inl ⟨by rw [henv], hhold, fun _ => ⟨by simp, by simp⟩⟩⟩
  | inside =>
    simp only [hloc, Option.some.injEq, Prod.mk.injEq] at hstep
    obtain ⟨-, rfl, rfl⟩ := hstep
    exact ⟨rfl, _, rfl, .inl ⟨rfl, rfl, fun _ => ⟨by simp, by simp⟩⟩⟩
  | leaveCall =>
    simp only [hloc, hleave, Option.map_eq_some_iff, Prod.exists, Prod.mk.injEq] at hstep
    obtain ⟨ok, env, hcall, -, rfl, rfl⟩ := hstep
    split at hcall
    · rename_i hfail
      simp only [Option.some.injEq, Prod.mk.injEq] at hcall
      obtain ⟨rfl, rfl⟩ := hcall
      exact ⟨rfl, _, rfl, .inl ⟨rfl, rfl, fun hf => by rw [hf] at hfail; cases hfail⟩⟩
    · obtain ⟨k₁, hop, rfl⟩ := Env.onHandle_call hid hcall
      exact ⟨rfl, _, rfl, .inr (.inr ⟨ok, rfl, hop, rfl⟩)⟩
  | leaveCheck ok =>
    simp only [hloc, Option.some.injEq, Prod.mk.injEq] at hstep
    obtain ⟨henv, hnext⟩ := check_cases hstep.2
    have hhold : pc'.holding = (Pc.leaveCheck ok).holding := by
      rcases hnext with ⟨rfl, rfl⟩ | ⟨rfl, rfl⟩ <;> rfl
    exact ⟨by rw [henv], _, rfl, .inl ⟨by rw [henv], hhold, fun _ => ⟨by simp, by simp⟩⟩⟩

/-- `cs_destroy`: the process exits, and at most its own set is gone. -/
theorem procStep_destroy [Fintype T] {fail : Bool} {id : ℕ} (h : ProcInv proc)
    (hpc : proc.pc = .running) (hid : proc.vars.sysvSemid = some id)
    (hs : procStep p (.destroy fail) k proc = some (k', proc')) :
    (∃ err, proc'.pc = .exiting err) ∧ proc'.loc = proc.loc ∧
      (fail = true → k'.semSets = k.semSets) ∧
      ∀ id', id' ≠ id → k'.semSets id' = k.semSets id' := by
  have halloc := h.allocated hpc
  have hmeth := h.method (.inr (.inr hpc))
  simp only [procStep, hpc, Option.ite_none_right_eq_some, Option.some.injEq, Prod.mk.injEq,
    csDestroy, halloc, hmeth, hid, reduceCtorEq, if_false] at hs
  obtain ⟨-, rfl, rfl⟩ := hs
  refine ⟨⟨_, rfl⟩, rfl, ?_, ?_⟩
  · rintro rfl
    rfl
  · intro id' hne
    cases fail with
    | true => rfl
    -- `IPC_RMID` removes this set only
    | false =>
      simp only [Bool.false_eq_true, if_false, Kernel.semctlRmid]
      split
      · rfl
      · exact Function.update_of_ne hne _ _

end Process

/-! ## All processes -/

section World

variable {P : Type*} {T : P → Type*} [DecidableEq P] {w : World P T} {p : P}
  {r : Kernel P × Proc (T p)} {id : ℕ} {o : Option P}

/-- The token of set `id` is in the semaphore or with a thread of the process in `o`. -/
structure TokenAt (w : World P T) (id : ℕ) (o : Option P) : Prop where
  set : ∃ s, w.kernel.semSets id = some s ∧ s.HeldBy o
  holder : ∀ q i, Uses w q id → ((w.procs q).loc i).holding = 1 → o = some q

/-- What holds of all processes and of every set that one of them uses. -/
structure WorldInv (w : World P T) : Prop where
  procs : ∀ p, ProcInv (w.procs p)
  token : ∀ q id, Uses w q id → ∃ o, TokenAt w id o

theorem uses_after_of_ne {q : P} (hq : q ≠ p) : Uses (w.after p r) q id ↔ Uses w q id := by
  unfold Uses
  rw [w.after_procs_of_ne hq]

theorem uses_after_self :
    Uses (w.after p r) p id ↔ r.2.pc = .running ∧ r.2.vars.sysvSemid = some id := by
  unfold Uses
  rw [w.after_procs_self]

/-- The processes on their own after a step of one of them. -/
theorem WorldInv.procs_after (h : WorldInv w) (hp : ProcInv r.2) (q : P) :
    ProcInv ((w.after p r).procs q) := by
  by_cases hq : q = p
  · subst hq
    rwa [w.after_procs_self]
  · rw [w.after_procs_of_ne hq]
    exact h.procs q

/-- The token of a set stays where it is in a step that does not touch the set, and after which no
    thread of the process holds the token that did not hold it before. -/
theorem TokenAt.frame (h : TokenAt w id o) (hset : r.1.semSets id = w.kernel.semSets id)
    (huses : Uses (w.after p r) p id → Uses w p id ∧
      ∀ i, (r.2.loc i).holding = 1 → ((w.procs p).loc i).holding = 1) :
    TokenAt (w.after p r) id o := by
  refine ⟨?_, fun q i hq hi => ?_⟩
  · obtain ⟨s, hs, hheld⟩ := h.set
    exact ⟨s, hset.trans hs, hheld⟩
  · by_cases hqp : q = p
    · subst hqp
      rw [w.after_procs_self] at hi
      exact h.holder q i (huses hq).1 ((huses hq).2 i hi)
    · rw [w.after_procs_of_ne hqp] at hi
      exact h.holder q i ((uses_after_of_ne hqp).mp hq) hi

/-- The token of a set has gone from `o` to `o'` in a step of process `p`: then `o'` is right about
    `p`, and nobody else held the token. -/
theorem TokenAt.move {o' : Option P} (hset : ∃ s, r.1.semSets id = some s ∧ s.HeldBy o')
    (hp : ∀ i, (r.2.loc i).holding = 1 → o' = some p)
    (hother : ∀ q i, q ≠ p → Uses w q id → ((w.procs q).loc i).holding = 1 → False) :
    TokenAt (w.after p r) id o' := by
  refine ⟨hset, fun q i hq hi => ?_⟩
  by_cases hqp : q = p
  · subst hqp
    rw [w.after_procs_self] at hi
    exact hp i hi
  · rw [w.after_procs_of_ne hqp] at hi
    exact (hother q i hqp ((uses_after_of_ne hqp).mp hq) hi).elim

/-- A step of a process that does not touch the sets in use, and after which no thread of the
    process holds a token that did not hold it before. -/
theorem WorldInv.frame (h : WorldInv w) (hp : ProcInv r.2)
    (hset : ∀ q id, q ≠ p ∨ r.2.pc = .running → Uses w q id →
      r.1.semSets id = w.kernel.semSets id)
    (huses : ∀ id, Uses (w.after p r) p id → Uses w p id ∧
      ∀ i, (r.2.loc i).holding = 1 → ((w.procs p).loc i).holding = 1) :
    WorldInv (w.after p r) := by
  refine ⟨h.procs_after hp, fun q id hq => ?_⟩
  by_cases hqp : q = p
  · subst hqp
    have hq' := (huses id hq).1
    obtain ⟨o, ho⟩ := h.token q id hq'
    exact ⟨o, ho.frame (hset q id (.inr (uses_after_self.mp hq).1) hq') (huses id)⟩
  · have hq' := (uses_after_of_ne hqp).mp hq
    obtain ⟨o, ho⟩ := h.token q id hq'
    exact ⟨o, ho.frame (hset q id (.inl hqp) hq') (huses id)⟩

/-- A step of a process that touches one set only, and leaves its token where `o'` says. -/
theorem WorldInv.move (h : WorldInv w) (hp : ProcInv r.2) (id : ℕ) (o' : Option P)
    (htok : TokenAt (w.after p r) id o')
    (hset : ∀ id', id' ≠ id → r.1.semSets id' = w.kernel.semSets id')
    (hpid : ∀ id', Uses (w.after p r) p id' → id' = id) : WorldInv (w.after p r) := by
  refine ⟨h.procs_after hp, fun q id' hq => ?_⟩
  by_cases hid : id' = id
  · subst hid
    exact ⟨o', htok⟩
  · have hqp : q ≠ p := by
      rintro rfl
      exact hid (hpid id' hq)
    obtain ⟨o, ho⟩ := h.token q id' ((uses_after_of_ne hqp).mp hq)
    exact ⟨o, ho.frame (hset id' hid) fun hpu => absurd (hpid id' hpu) hid⟩

/-- The end of a process. -/
theorem WorldInv.exit (h : WorldInv w) (hpc : ∃ err, (w.procs p).pc = .exiting err)
    (hr : r = (w.kernel.exitProcess p, { w.procs p with pc := .ended })) :
    WorldInv (w.after p r) := by
  subst hr
  refine ⟨h.procs_after (.exiting (h.procs p).unique (.inr rfl)), fun q id hq => ?_⟩
  -- the process that has ended uses no set any more
  have hqp : q ≠ p := by
    rintro rfl
    exact nomatch (uses_after_self.mp hq).1
  have hq' := (uses_after_of_ne hqp).mp hq
  obtain ⟨o, ho⟩ := h.token q id hq'
  obtain ⟨s, hs, hheld⟩ := ho.set
  -- `SEM_UNDO` gives back the token of the process, and leaves that of another one
  refine ⟨_, ⟨Kernel.undoSem p s, ?_, hheld.undoSem p⟩, fun q' i hu hi => ?_⟩
  · simp [Kernel.exitProcess, hs]
  · have hqp' : q' ≠ p := by
      rintro rfl
      exact nomatch (uses_after_self.mp hu).1
    rw [w.after_procs_of_ne hqp'] at hi
    have ho' := ho.holder q' i ((uses_after_of_ne hqp').mp hu) hi
    rw [ho', if_neg (by simpa using hqp')]

/-- A set in use exists. -/
theorem WorldInv.semSets_ne_none (h : WorldInv w) (hu : Uses w p id) :
    w.kernel.semSets id ≠ none := by
  obtain ⟨o, ho⟩ := h.token p id hu
  obtain ⟨s, hs, -⟩ := ho.set
  rw [hs]
  exact Option.some_ne_none s

/-- No process has taken a step yet. -/
theorem WorldInv.initial (k : Kernel P) : WorldInv (initialWorld T k) := by
  refine ⟨fun p => ⟨?_, fun _ _ _ => rfl, ?_, ?_, nofun⟩, fun q id hu => nomatch hu.1⟩
  · exact fun i j hi => nomatch hi
  · rintro (h | h | h) <;> cases h
  · rintro (h | h) <;> cases h

variable [∀ p, DecidableEq (T p)] [∀ p, Fintype (T p)]

/-- A step of `cs_init`, whose `SETVAL` finds no thread with the token. -/
theorem WorldInv.step_init {fail : Bool} {fresh : ℕ} (h : WorldInv w)
    (hok : Undisturbed w ⟨p, .init fail fresh⟩)
    (hs : procStep p (.init fail fresh) w.kernel (w.procs p) = some r) :
    WorldInv (w.after p r) := by
  obtain ⟨pc, hpc⟩ : ∃ pc, (w.procs p).pc = .init pc := by
    cases hpc : (w.procs p).pc <;> simp [procStep, hpc] at hs
    exact ⟨_, rfl⟩
  obtain ⟨hinv, houtside, ⟨hrun, hset⟩ | ⟨rfl, rfl, id, s, hid, hid', hk⟩⟩ :=
    procStep_init (h.procs p) hpc hs
  · exact h.frame hinv (fun q id _ hu => hset id (h.semSets_ne_none hu))
      fun id hu => absurd (uses_after_self.mp hu).1 hrun
  · refine h.move hinv id none (.move ?_ ?_ ?_) ?_ ?_
    · -- `SETVAL` clears the adjustments, whoever held the token
      rw [hk, Kernel.setSemSet_semSets_self]
      exact ⟨_, rfl, .setval s⟩
    · intro i hi
      rw [houtside i] at hi
      exact nomatch hi
    · intro q i _ hu hi
      rw [hok hpc id hid q hu i] at hi
      exact nomatch hi
    · intro id' hne
      rw [hk]
      exact Function.update_of_ne hne _ _
    · intro id' hu
      have hid'' := (uses_after_self.mp hu).2
      rw [hid'] at hid''
      exact (Option.some.inj hid'').symm

/-- A step of a thread. -/
theorem WorldInv.step_thread {i : T p} {fail : Bool} (h : WorldInv w)
    (hs : procStep p (.thread i fail) w.kernel (w.procs p) = some r) : WorldInv (w.after p r) := by
  have hproc := h.procs p
  have hpc : (w.procs p).pc = .running := by
    cases hpc : (w.procs p).pc <;> simp [procStep, hpc] at hs ⊢
  obtain ⟨id, hid⟩ := hproc.handle (.inr hpc)
  obtain ⟨o, ho⟩ := h.token p id ⟨hpc, hid⟩
  obtain ⟨s, hset, hheld⟩ := ho.set
  obtain ⟨hvars, hpc', pc', hloc, hcases⟩ := procStep_thread hproc hpc hid hs
  -- the process still uses this set only, and a call on it leaves the other sets
  have hpid : ∀ id', Uses (w.after p r) p id' → id' = id := by
    intro id' hu
    have hid' := (uses_after_self.mp hu).2
    rw [hvars, hid] at hid'
    exact (Option.some.inj hid').symm
  have hsets : ∀ {s' : SysvSem P} {k' : Kernel P}, k' = w.kernel.setSemSet id (some s') →
      ∀ id', id' ≠ id → k'.semSets id' = w.kernel.semSets id' := by
    rintro s' _ rfl id' hne
    exact Function.update_of_ne hne _ _
  rcases hcases with ⟨hk, hhold, -⟩ | ⟨ok, hcall, hop, rfl⟩ | ⟨ok, hcall, hop, rfl⟩
  · -- nothing happens to the token
    have hsame : ∀ j, (r.2.loc j).holding = ((w.procs p).loc j).holding := by
      intro j
      rw [hloc]
      by_cases hj : j = i
      · subst hj
        rw [Function.update_self, hhold]
      · rw [Function.update_of_ne hj]
    refine h.frame (hproc.thread hpc hvars hpc' ?_) (fun _ _ _ _ => by rw [hk]) ?_
    · intro j j' hj hj'
      rw [hsame] at hj hj'
      exact hproc.unique j j' hj hj'
    · intro id' hu
      rw [hpid id' hu]
      refine ⟨⟨hpc, hid⟩, fun j hj => ?_⟩
      rwa [hsame] at hj
  · -- the thread takes the token: no thread had it
    obtain ⟨rfl, rfl, s', hk, hheld'⟩ := Kernel.semop_take hset hheld hop
    have hnone : ∀ q j, Uses w q id → ((w.procs q).loc j).holding ≠ 1 :=
      fun q j hu hj => nomatch ho.holder q j hu hj
    have honly : ∀ j, (r.2.loc j).holding = 1 → j = i := by
      intro j hj
      by_contra hne
      rw [hloc, Function.update_of_ne hne] at hj
      exact hnone p j ⟨hpc, hid⟩ hj
    refine h.move (hproc.thread hpc hvars hpc' ?_) id (some p) (.move ?_ ?_ ?_)
      (hsets hk) hpid
    · intro j j' hj hj'
      rw [honly j hj, honly j' hj']
    · rw [hk, Kernel.setSemSet_semSets_self]
      exact ⟨s', rfl, hheld'⟩
    · exact fun _ _ => rfl
    · exact fun q j _ hu hj => hnone q j hu hj
  · -- the thread, which has the token, gives it back
    have hi : ((w.procs p).loc i).holding = 1 := by rw [hcall]; rfl
    obtain rfl : o = some p := ho.holder p i ⟨hpc, hid⟩ hi
    obtain ⟨rfl, s', hk, hheld'⟩ := Kernel.semop_give hset hheld hop
    have hnone : ∀ j, (r.2.loc j).holding ≠ 1 := by
      intro j hj
      by_cases hji : j = i
      · subst hji
        rw [hloc, Function.update_self] at hj
        exact nomatch hj
      · rw [hloc, Function.update_of_ne hji] at hj
        exact hji (hproc.unique j i hj hi)
    refine h.move (hproc.thread hpc hvars hpc' ?_) id none (.move ?_ ?_ ?_)
      (hsets hk) hpid
    · exact fun j j' hj => absurd hj (hnone j)
    · rw [hk, Kernel.setSemSet_semSets_self]
      exact ⟨s', rfl, hheld'⟩
    · exact fun j hj => absurd hj (hnone j)
    · intro q j hqp hu hj
      exact hqp (Option.some.inj (ho.holder q j hu hj)).symm

/-- `cs_destroy`, whose `IPC_RMID` finds no other user of the set. -/
theorem WorldInv.step_destroy {fail : Bool} (h : WorldInv w)
    (hok : Undisturbed w ⟨p, .destroy fail⟩)
    (hs : procStep p (.destroy fail) w.kernel (w.procs p) = some r) : WorldInv (w.after p r) := by
  have hproc := h.procs p
  have hpc : (w.procs p).pc = .running := by
    cases hpc : (w.procs p).pc <;> simp [procStep, hpc] at hs ⊢
  obtain ⟨id, hid⟩ := hproc.handle (.inr hpc)
  obtain ⟨⟨err, hpc'⟩, hloc, hfail, hset⟩ := procStep_destroy hproc hpc hid hs
  have hrun : r.2.pc ≠ .running := by
    rw [hpc']
    exact nofun
  refine h.frame (.exiting (by rw [hloc]; exact hproc.unique) (.inl ⟨err, hpc'⟩)) ?_
    fun id' hu => absurd (uses_after_self.mp hu).1 hrun
  -- a set that another process uses is not removed
  intro q id' hq hu
  cases fail with
  | true => rw [hfail rfl]
  | false =>
    apply hset id'
    rintro rfl
    exact hok hpc id' hid q (hq.resolve_right hrun) hu

/-- Every step that disturbs nobody preserves `WorldInv`. -/
theorem WorldInv.step {a : Σ p, ProcAction (T p)} {e : Option Empty} {w' : World P T}
    (h : WorldInv w) (hok : Undisturbed w a) (hs : worldMachine.step w a = some (e, w')) :
    WorldInv w' := by
  simp only [worldMachine, Option.map_eq_some_iff, Prod.mk.injEq] at hs
  obtain ⟨r, hr, -, rfl⟩ := hs
  obtain ⟨p, a⟩ := a
  cases a with
  | init fail fresh => exact h.step_init hok hr
  | thread i fail => exact h.step_thread hr
  | destroy fail => exact h.step_destroy hok hr
  | exit =>
    cases hpc : (w.procs p).pc <;> simp [procStep, hpc] at hr
    exact h.exit ⟨_, hpc⟩ hr.symm

/-- The calls of the threads succeed: their sets exist, and the token is where they expect it. -/
theorem WorldInv.isolated (h : WorldInv w) : Isolated w := by
  have key : ∀ p i e w', worldMachine.step w ⟨p, .thread i false⟩ = some (e, w') →
      ((w.procs p).loc i = .enterCall → (w'.procs p).loc i = .enterCheck true) ∧
      ((w.procs p).loc i = .leaveCall → (w'.procs p).loc i = .leaveCheck true) := by
    intro p i e w' hs
    simp only [worldMachine, Option.map_eq_some_iff, Prod.mk.injEq] at hs
    obtain ⟨r, hr, -, rfl⟩ := hs
    have hproc := h.procs p
    have hpc : (w.procs p).pc = .running := by
      cases hpc : (w.procs p).pc <;> simp [procStep, hpc] at hr ⊢
    obtain ⟨id, hid⟩ := hproc.handle (.inr hpc)
    obtain ⟨o, ho⟩ := h.token p id ⟨hpc, hid⟩
    obtain ⟨s, hset, hheld⟩ := ho.set
    obtain ⟨-, -, pc', hloc, hcases⟩ := procStep_thread hproc hpc hid hr
    -- a `semop` on a set in the state `HeldBy` cannot fail
    rw [w.after_procs_self, hloc, Function.update_self]
    rcases hcases with ⟨-, -, hquiet⟩ | ⟨ok, hcall, hop, rfl⟩ | ⟨ok, hcall, hop, rfl⟩
    · exact ⟨fun hcall => absurd hcall (hquiet rfl).1, fun hcall => absurd hcall (hquiet rfl).2⟩
    · obtain ⟨rfl, -⟩ := Kernel.semop_take hset hheld hop
      exact ⟨fun _ => rfl, fun hleave => (by rw [hcall] at hleave; cases hleave)⟩
    · obtain rfl : o = some p := ho.holder p i ⟨hpc, hid⟩ (by rw [hcall]; rfl)
      obtain ⟨rfl, -⟩ := Kernel.semop_give hset hheld hop
      exact ⟨fun henter => (by rw [hcall] at henter; cases henter), fun _ => rfl⟩
  refine ⟨fun p i j hi hj => ?_, fun p i e w' hs => (key p i e w' hs).1,
    fun p i e w' hs => (key p i e w' hs).2⟩
  have hhold : ∀ pc : Pc, pc.atInside = 1 → pc.holding = 1 := by
    intro pc hpc
    cases pc <;> first | rfl | cases hpc
  exact (h.procs p).unique i j (hhold _ hi) (hhold _ hj)

end World

/-! ## Main result -/

/-- Any number of processes of the same user that use `sem_sysv.h`, on a kernel in any state, as
    long as no `SETVAL` finds the token of the set with a thread and no `IPC_RMID` finds the set in
    use by another process: the processes are isolated. -/
theorem isolated_of_undisturbed {P : Type*} {T : P → Type*} [DecidableEq P]
    [∀ p, DecidableEq (T p)] [∀ p, Fintype (T p)] (k : Kernel P) (w : World P T)
    (h : worldMachine.ReachableWhile Undisturbed (initialWorld T k) w) : Isolated w :=
  (h.invariant (I := WorldInv) (fun _ _ _ _ hI hok hs => hI.step hok hs) (.initial k)).isolated

/-- Two processes, the first of which is inside when the second one waits for the token. -/
theorem isolated_of_undisturbed_two :
    ∃ w, worldMachine.ReachableWhile Undisturbed
        (initialWorld (fun _ : Bool => Fin 2) (.empty : Kernel Bool)) w ∧
      ((w.procs false).loc 0).atInside = 1 ∧ (w.procs true).loc 1 = .enterCall ∧ Isolated w := by
  have h₁ : worldMachine.ReachableWhile Undisturbed
      (initialWorld (fun _ : Bool => Fin 2) (.empty : Kernel Bool)) _ :=
    .step .refl (a := ⟨false, .init false 0⟩) (.init (by decide)) rfl
  have h₂ := h₁.step (a := ⟨false, .init false 7⟩) (.init (by decide)) rfl
  have h₃ := h₂.step (a := ⟨false, .init false 0⟩) (.init (by decide)) rfl
  have h₄ := h₃.step (a := ⟨true, .init false 0⟩) (.init (by decide)) rfl
  have h₅ := h₄.step (a := ⟨true, .init false 8⟩) (.init (by decide)) rfl
  have h₆ := h₅.step (a := ⟨true, .init false 0⟩) (.init (by decide)) rfl
  have h₇ := h₆.step (a := ⟨false, .thread 0 false⟩) .thread rfl
  have h₈ := h₇.step (a := ⟨true, .thread 1 false⟩) .thread rfl
  have h₉ := h₈.step (a := ⟨false, .thread 0 false⟩) .thread rfl
  have h₁₀ := h₉.step (a := ⟨false, .thread 0 false⟩) .thread rfl
  exact ⟨_, h₁₀, rfl, rfl, isolated_of_undisturbed _ _ h₁₀⟩

/-- Two processes with two threads each.  If the second one starts while a thread of the first one
    is inside, its `SETVAL` lets another thread of the first one in.  If it ends while the first
    one still runs, its `IPC_RMID` makes the next `semop` of the first one fail. -/
theorem not_isolated :
    (∃ w, worldMachine.Reachable (initialWorld (fun _ : Bool => Fin 2) (.empty : Kernel Bool)) w ∧
      ((w.procs false).loc 0).atInside = 1 ∧ ((w.procs false).loc 1).atInside = 1) ∧
    ∃ w e w',
      worldMachine.Reachable (initialWorld (fun _ : Bool => Fin 2) (.empty : Kernel Bool)) w ∧
      worldMachine.step w ⟨false, .thread 0 false⟩ = some (e, w') ∧
      (w.procs false).loc 0 = .enterCall ∧ (w'.procs false).loc 0 = .enterCheck false := by
  have hsetval := Machine.Reachable.of_exec (M := worldMachine)
    (s := initialWorld (fun _ : Bool => Fin 2) (.empty : Kernel Bool))
    [⟨false, .init false 0⟩, ⟨false, .init false 7⟩, ⟨false, .init false 0⟩,
      ⟨false, .thread 0 false⟩, ⟨false, .thread 0 false⟩, ⟨false, .thread 0 false⟩,
      ⟨true, .init false 0⟩, ⟨true, .init false 8⟩, ⟨true, .init false 0⟩,
      ⟨false, .thread 1 false⟩, ⟨false, .thread 1 false⟩, ⟨false, .thread 1 false⟩] rfl
  have hrmid := Machine.Reachable.of_exec (M := worldMachine)
    (s := initialWorld (fun _ : Bool => Fin 2) (.empty : Kernel Bool))
    [⟨false, .init false 0⟩, ⟨false, .init false 7⟩, ⟨false, .init false 0⟩,
      ⟨true, .init false 0⟩, ⟨true, .init false 8⟩, ⟨true, .init false 0⟩,
      ⟨false, .thread 0 false⟩, ⟨true, .destroy false⟩] rfl
  exact ⟨⟨_, hsetval, rfl, rfl⟩, ⟨_, _, _, hrmid, rfl, rfl, rfl⟩⟩

end CheckedHeaders.SemSysv
