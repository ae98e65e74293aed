import OsSamples.Native.Everything
import OsSamples.Spec.CsTokens

/-!
# `everything.h` implements a binary lock

Every method from `CS_METHOD_XCHG` to `CS_METHOD_MQ_SYSV` represents the state of one abstract
lock (`LockRep`): the variable, the value or the queue of the method shows whether the lock is
free.  `cs_init` establishes the representation of the free lock, each step of `cs_enter` and
`cs_leave` stutters or is a step of the lock, and every lock step can be replayed.

## Key results

- `csInit_lockRep`: a successful `cs_init` leaves the free lock
- `csEnterStep_lock` / `csLeave_lock`: the two operations step the lock
- `csMachine_traces_eq_lock`: the threads produce exactly the event sequences of the lock
-/

namespace Everything

variable {P T : Type*} {m : CsMethod} {p : P} {i : T} {env env' : Env P T} {o : Option T}
  {busyWaitYields : Bool}

/-- The tokens that the lock leaves: one if it is free. -/
def freeTokens : Option T → ℕ
  | none => 1
  | some _ => 0

/-- Method `m` represents the lock state `o` in `env`. -/
structure LockRep (m : CsMethod) (p : P) (env : Env P T) (o : Option T) : Prop where
  method : CsMethod.ofInt env.vars.csMethodUsed = some m
  tokens : env.Tokens m p (freeTokens o) (1 - freeTokens o)
  owner : m = .mutex → env.vars.csMutex = o

/-! ## `cs_init` -/

/-- What holds of the environment while `cs_init(m)` is at `pc`. -/
def InitInv (m : CsMethod) (p : P) (pc : InitPc) (env : Env P T) : Prop :=
  match pc with
  | .start | .exited _ => True
  | .pthreadMutexInit => CsMethod.ofInt env.vars.csMethodUsed = some m ∧ m = .mutex
  | .semInit => CsMethod.ofInt env.vars.csMethodUsed = some m ∧ m = .semPosix
  | .semOpen => CsMethod.ofInt env.vars.csMethodUsed = some m ∧ m = .semPosixNamed
  | .semUnlink =>
    CsMethod.ofInt env.vars.csMethodUsed = some m ∧ m = .semPosixNamed ∧ env.Tokens m p 1 0
  | .semget | .semctl => CsMethod.ofInt env.vars.csMethodUsed = some m ∧ m = .semSysv
  | .mqOpen => CsMethod.ofInt env.vars.csMethodUsed = some m ∧ m = .mqPosix
  | .mqUnlink | .mqSend =>
    CsMethod.ofInt env.vars.csMethodUsed = some m ∧ m = .mqPosix ∧ env.Tokens m p 0 0
  | .msgget =>
    CsMethod.ofInt env.vars.csMethodUsed = some m ∧ m = .mqSysv ∧ env.vars.msgBufSysv = 1
  | .msgsnd => CsMethod.ofInt env.vars.csMethodUsed = some m ∧ m = .mqSysv ∧ env.Tokens m p 0 0
  | .done => LockRep m p env none

/-- Every step of `cs_init` preserves `InitInv`. -/
theorem csInitStep_inv {pc pc' : InitPc} {fail : Bool} {fresh : ℕ} (hm : m.isLock = true)
    (h : InitInv m p pc env)
    (hs : csInitStep m.toInt p fail fresh pc env = some (pc', env')) : InitInv m p pc' env' := by
  cases pc <;> simp only [csInitStep, reduceCtorEq] at hs <;> simp only [InitInv] at h
  case start =>
    -- the `switch`: a method without an OS call is done, the others go to their first call
    rw [CsMethod.ofInt_toInt] at hs
    cases m <;> simp only [CsMethod.isLock, Bool.false_eq_true] at hm <;>
      simp only [initDone, Option.some.injEq, Prod.mk.injEq] at hs <;> obtain ⟨rfl, rfl⟩ := hs
    case xchg | testXchg => exact ⟨by simp, by simp [Env.Tokens, freeTokens], by simp⟩
    all_goals simp [InitInv]
  -- from here on each call either fails, and the process exits, or establishes its part of the lock
  case pthreadMutexInit =>
    obtain ⟨hmeth, rfl⟩ := h
    split at hs <;> simp only [initDone, Option.some.injEq, Prod.mk.injEq] at hs <;>
      obtain ⟨rfl, rfl⟩ := hs
    · trivial
    · exact ⟨hmeth, by simp [Env.Tokens, freeTokens], fun _ => rfl⟩
  case semInit =>
    obtain ⟨hmeth, rfl⟩ := h
    split at hs <;> simp only [initDone, Option.some.injEq, Prod.mk.injEq] at hs <;>
      obtain ⟨rfl, rfl⟩ := hs
    · trivial
    · exact ⟨hmeth, rfl, by simp⟩
  case semOpen =>
    obtain ⟨hmeth, rfl⟩ := h
    simp only [Option.map_eq_some_iff, Prod.exists, Prod.mk.injEq] at hs
    obtain ⟨hd, k, hopen, rfl, rfl⟩ := hs
    split at hopen
    · simp only [Option.some.injEq, Prod.mk.injEq] at hopen
      obtain ⟨rfl, rfl⟩ := hopen
      trivial
    · rcases Kernel.semOpen_excl_cases hopen with ⟨rfl, -, -⟩ | ⟨rfl, -, -, rfl⟩
      · trivial
      · exact ⟨hmeth, rfl, fresh, _, rfl, Kernel.setSem_sems_self .., rfl⟩
  case semUnlink =>
    -- the semaphore outlives its name
    obtain ⟨hmeth, rfl, id, s, hid, hsem, hv⟩ := h
    simp only [initDone, Option.some.injEq, Prod.mk.injEq] at hs
    obtain ⟨rfl, rfl⟩ := hs
    refine ⟨hmeth, ⟨id, s, hid, ?_, hv⟩, by simp⟩
    split
    · exact hsem
    · simp only [Kernel.semUnlink]
      split <;> exact hsem
  case semget =>
    obtain ⟨hmeth, rfl⟩ := h
    simp only [Option.map_eq_some_iff, Prod.exists, Prod.mk.injEq] at hs
    obtain ⟨hd, k, -, rfl, rfl⟩ := hs
    split
    · trivial
    · exact ⟨hmeth, rfl⟩
  case semctl =>
    obtain ⟨hmeth, rfl⟩ := h
    split at hs
    · simp only [Option.some.injEq, Prod.mk.injEq] at hs
      obtain ⟨rfl, rfl⟩ := hs
      trivial
    · rename_i id hid
      split at hs
      -- `semctl` fails
      · simp only [Bool.false_eq_true, if_false, Option.some.injEq, Prod.mk.injEq] at hs
        obtain ⟨rfl, rfl⟩ := hs
        trivial
      · -- `SETVAL` sets the value to 1 and clears the adjustments
        cases hset : env.kernel.semSets id with
        | none =>
          simp only [Kernel.semctlSetval, hset, Bool.false_eq_true, if_false, Option.some.injEq,
            Prod.mk.injEq] at hs
          obtain ⟨rfl, rfl⟩ := hs
          trivial
        | some s =>
          simp only [Kernel.semctlSetval, hset, if_true, initDone, Option.some.injEq,
            Prod.mk.injEq] at hs
          obtain ⟨rfl, rfl⟩ := hs
          exact ⟨hmeth, ⟨id, _, hid, Kernel.setSemSet_semSets_self .., rfl, rfl⟩, by simp⟩
  case mqOpen =>
    obtain ⟨hmeth, rfl⟩ := h
    simp only [Option.map_eq_some_iff, Prod.exists, Prod.mk.injEq] at hs
    obtain ⟨hd, k, hopen, rfl, rfl⟩ := hs
    split at hopen
    · simp only [Option.some.injEq, Prod.mk.injEq] at hopen
      obtain ⟨rfl, rfl⟩ := hopen
      trivial
    · rcases Kernel.mqOpen_cases hopen with ⟨rfl, -, -⟩ | ⟨rfl, -, -, rfl⟩
      · trivial
      · exact ⟨hmeth, rfl, fresh, _, rfl, Kernel.setMq_mqs_self .., rfl, rfl, rfl⟩
  case mqUnlink =>
    -- the queue outlives its name
    obtain ⟨hmeth, rfl, id, q, hid, hq, hq'⟩ := h
    simp only [Option.some.injEq, Prod.mk.injEq] at hs
    obtain ⟨rfl, rfl⟩ := hs
    split
    · trivial
    · cases hname : env.kernel.mqNames MQ_NAME with
      | none => simp [Kernel.mqUnlink, hname, InitInv]
      | some id' =>
        simp only [Kernel.mqUnlink, hname, if_true]
        exact ⟨hmeth, rfl, id, q, hid, hq, hq'⟩
  case mqSend =>
    obtain ⟨hmeth, rfl, htok⟩ := h
    simp only [Option.map_eq_some_iff, Prod.exists] at hs
    obtain ⟨ok, env₁, hsend, hs⟩ := hs
    split at hsend
    · simp only [Option.some.injEq, Prod.mk.injEq] at hsend
      obtain ⟨rfl, rfl⟩ := hsend
      simp only [Bool.false_eq_true, if_false, Prod.mk.injEq] at hs
      obtain ⟨rfl, rfl⟩ := hs
      trivial
    -- the message is the token
    · obtain ⟨rfl, hvars, htok'⟩ := Env.mqSend_tokens htok hsend 0
      simp only [if_true, initDone, Prod.mk.injEq] at hs
      obtain ⟨rfl, rfl⟩ := hs
      exact ⟨by rw [← hmeth, ← hvars], htok', by simp⟩
  case msgget =>
    obtain ⟨hmeth, rfl, hbuf⟩ := h
    simp only [Option.map_eq_some_iff, Prod.exists, Prod.mk.injEq] at hs
    obtain ⟨hd, k, hget, rfl, rfl⟩ := hs
    split at hget
    · simp only [Option.some.injEq, Prod.mk.injEq] at hget
      obtain ⟨rfl, rfl⟩ := hget
      trivial
    · obtain ⟨rfl, -, rfl⟩ := Kernel.msggetPrivate_cases hget
      exact ⟨hmeth, rfl, fresh, _, rfl, Kernel.setMsgQ_msgQs_self .., rfl, rfl, hbuf⟩
  case msgsnd =>
    obtain ⟨hmeth, rfl, htok⟩ := h
    simp only [Option.map_eq_some_iff, Prod.exists] at hs
    obtain ⟨ok, env₁, hsend, hs⟩ := hs
    split at hsend
    · simp only [Option.some.injEq, Prod.mk.injEq] at hsend
      obtain ⟨rfl, rfl⟩ := hsend
      simp only [Bool.false_eq_true, if_false, Prod.mk.injEq] at hs
      obtain ⟨rfl, rfl⟩ := hs
      trivial
    -- the message is the token
    · obtain ⟨rfl, hvars, htok'⟩ := Env.msgsnd_tokens htok hsend 0
      simp only [if_true, initDone, Prod.mk.injEq] at hs
      obtain ⟨rfl, rfl⟩ := hs
      exact ⟨by rw [← hmeth, ← hvars], htok', by simp⟩

/-- A successful `cs_init` leaves the free lock. -/
theorem csInit_lockRep {env₀ : Env P T} (hm : m.isLock = true)
    (h : (csInit m.toInt p).Reachable (.start, env₀) (.done, env)) : LockRep m p env none := by
  -- induction over the calls of `cs_init`
  have h₀ : InitInv m p .start env₀ := trivial
  refine h.invariant (I := fun s => InitInv m p s.1 s.2) ?_ h₀
  intro s c e s' hI hs
  simp only [csInit, Option.map_eq_some_iff, Prod.mk.injEq] at hs
  obtain ⟨r, hr, -, rfl⟩ := hs
  exact csInitStep_inv hm hI hr

/-! ## `cs_enter` and `cs_leave` step the lock -/

/-- `locked_atomic` is set exactly while the lock is held. -/
theorem lockedAtomic_eq {adj : ℤ} (h : env.Tokens .xchg p (freeTokens o) adj) :
    env.vars.lockedAtomic = o.isSome := by
  cases o <;> cases hl : env.vars.lockedAtomic <;> simp [Env.Tokens, freeTokens, hl] at h ⊢

/-- `locked` is set exactly while the lock is held. -/
theorem locked_eq {adj : ℤ} (h : env.Tokens .testXchg p (freeTokens o) adj) :
    env.vars.locked = o.isSome := by
  cases o <;> cases hl : env.vars.locked <;> simp [Env.Tokens, freeTokens, hl] at h ⊢

/-- A busy-waiting loop that goes on has not returned. -/
theorem spin_ne_ret {head : EnterPc} (h : ∀ ok, head ≠ .ret ok) (ok : Bool) :
    spin busyWaitYields head ≠ .ret ok := by
  cases busyWaitYields
  · exact h ok
  · simp [spin]

/-- For a method with an OS call, `cs_enter` begins at that call. -/
theorem csEnter_isCall (hm : m.isCall = true)
    (hmeth : CsMethod.ofInt env.vars.csMethodUsed = some m) : csEnter env = .call := by
  simp only [csEnter, hmeth]
  cases m <;> first | rfl | exact nomatch hm

section Calls

variable [DecidableEq P]

/-- The undo adjustment that goes with a lock state is in range. -/
theorem adj_range (o : Option T) :
    -SEMVMX ≤ 1 - (freeTokens o : ℤ) ∧ 1 - (freeTokens o : ℤ) < SEMVMX := by
  cases o <;> simp [freeTokens, SEMVMX]

/-- The OS call of `cs_enter` takes the free lock. -/
theorem LockRep.enterCall (hm : m.isCall = true) (h : LockRep m p env none) :
    ∃ env', env.enterCall m p i = some (true, env') ∧ LockRep m p env' (some i) := by
  obtain ⟨env', hs, htok⟩ := Env.enterCall_enabled (i := i) hm h.tokens (by simp [SEMVMX])
    (adj_range (none : Option T))
  refine ⟨env', hs, by rw [Env.enterCall_method hs]; exact h.method, htok, ?_⟩
  rintro rfl
  exact Env.enterCall_owner hs

/-- A call of `cs_enter` that returns took the free lock. -/
theorem LockRep.of_enterCall {ok : Bool} (hm : m.isCall = true) (h : LockRep m p env o)
    (hs : env.enterCall m p i = some (ok, env')) :
    ok = true ∧ o = none ∧ LockRep m p env' (some i) := by
  cases o with
  | some j => rw [Env.enterCall_blocks hm h.tokens] at hs; exact nomatch hs
  | none =>
    obtain ⟨env₁, hs₁, hrep⟩ := h.enterCall hm (i := i)
    rw [hs₁, Option.some.injEq, Prod.mk.injEq] at hs
    obtain ⟨rfl, rfl⟩ := hs
    exact ⟨rfl, rfl, hrep⟩

/-- For a method with an OS call, the step of `cs_enter` at its call. -/
theorem csEnterStep_call {fail : Bool} (hm : m.isCall = true)
    (hmeth : CsMethod.ofInt env.vars.csMethodUsed = some m) :
    csEnterStep busyWaitYields p i fail env .call =
      (if fail then some (false, env) else env.enterCall m p i).map fun r => (r.2, .ret r.1) := by
  simp only [csEnterStep, hmeth]
  cases m <;> first | rfl | exact nomatch hm

/-- For a method with an OS call, the one step of `cs_enter` is that call. -/
theorem csEnterStep_isCall {pc pc' : EnterPc} {fail : Bool} (hm : m.isCall = true)
    (hmeth : CsMethod.ofInt env.vars.csMethodUsed = some m)
    (hs : csEnterStep busyWaitYields p i fail env pc = some (env', pc')) :
    pc = .call ∧ ∃ ok, pc' = .ret ok ∧
      (if fail then some (false, env) else env.enterCall m p i) = some (ok, env') := by
  -- no other point of `cs_enter` has a step for these methods
  have hpc : pc = .call := by
    simp only [csEnterStep, hmeth] at hs
    cases m <;> simp only [CsMethod.isCall, Bool.false_eq_true] at hm <;>
      cases pc <;> simp only [reduceCtorEq] at hs ⊢
  subst hpc
  simp only [csEnterStep_call hm hmeth, Option.map_eq_some_iff, Prod.exists, Prod.mk.injEq] at hs
  obtain ⟨ok, env₁, hcall, rfl, rfl⟩ := hs
  exact ⟨rfl, ok, rfl, hcall⟩

/-- A step of `cs_enter` acquires the free lock and is about to return, or stutters. -/
theorem csEnterStep_lock {pc pc' : EnterPc} (hm : m.isLock = true) (h : LockRep m p env o)
    (hs : csEnterStep busyWaitYields p i false env pc = some (env', pc')) :
    (pc' = .ret true ∧ o = none ∧ LockRep m p env' (some i)) ∨
      ((∀ ok, pc' ≠ .ret ok) ∧ LockRep m p env' o) := by
  have hmeth := h.method
  have htok := h.tokens
  cases m with
  | atomic | locked => cases hm
  | xchg =>
    have hl := lockedAtomic_eq htok
    simp only [csEnterStep, hmeth] at hs
    cases pc <;> simp only [reduceCtorEq, Option.some.injEq, Prod.mk.injEq, CsMethod.isCall,
      Bool.false_eq_true, if_false] at hs <;> obtain ⟨rfl, rfl⟩ := hs
    -- the exchange acquires the free lock, and finds a held one set
    case exchange =>
      cases o with
      | none => exact .inl ⟨by simp [hl], rfl, hmeth, by simp [Env.Tokens, freeTokens], by simp⟩
      | some j =>
        simp only [hl, Option.isSome_some, if_true]
        exact .inr ⟨spin_ne_ret (by simp), hmeth, by simp [Env.Tokens, freeTokens], by simp⟩
    case yield => exact .inr ⟨by simp, h⟩
  | testXchg =>
    have hl := locked_eq htok
    simp only [csEnterStep, hmeth] at hs
    cases pc <;> simp only [reduceCtorEq, Option.some.injEq, Prod.mk.injEq, CsMethod.isCall,
      Bool.false_eq_true, if_false] at hs <;> obtain ⟨rfl, rfl⟩ := hs
    case load =>
      -- the pre-test only decides whether to try the exchange
      refine .inr ⟨?_, h⟩
      split
      · exact spin_ne_ret (by simp)
      · simp
    case exchange =>
      cases o with
      | none => exact .inl ⟨by simp [hl], rfl, hmeth, by simp [Env.Tokens, freeTokens], by simp⟩
      | some j =>
        simp only [hl, Option.isSome_some, if_true]
        exact .inr ⟨spin_ne_ret (by simp), hmeth, by simp [Env.Tokens, freeTokens], by simp⟩
    case yield => exact .inr ⟨by simp, h⟩
  | mutex | semPosix | semPosixNamed | semSysv | mqPosix | mqSysv =>
    -- the call returns only if it took the free lock
    obtain ⟨-, ok, rfl, hcall⟩ := csEnterStep_isCall rfl h.method hs
    simp only [Bool.false_eq_true, if_false] at hcall
    obtain ⟨rfl, ho, hrep⟩ := h.of_enterCall rfl hcall
    exact .inl ⟨rfl, ho, hrep⟩

variable [DecidableEq T]

/-- The OS call of `cs_leave` by the holder frees the lock. -/
theorem LockRep.leaveCall (hm : m.isCall = true) (h : LockRep m p env (some i)) :
    ∃ env', env.leaveCall m p i = some (true, env') ∧ LockRep m p env' none := by
  obtain ⟨env', hs, htok⟩ := Env.leaveCall_enabled (i := i) hm h.tokens
    ⟨(adj_range (some i)).1, (adj_range (some i)).2.le⟩ h.owner
  refine ⟨env', hs, by rw [Env.leaveCall_method hs]; exact h.method, htok, ?_⟩
  rintro rfl
  exact Env.leaveCall_owner hs

/-- For a method with an OS call, `cs_leave` is that call. -/
theorem csLeave_isCall {fail : Bool} (hm : m.isCall = true)
    (hmeth : CsMethod.ofInt env.vars.csMethodUsed = some m) :
    csLeave p i fail env = if fail then some (false, env) else env.leaveCall m p i := by
  simp only [csLeave, hmeth]
  cases m <;> first | rfl | exact nomatch hm

/-- `cs_leave` by the holder neither blocks nor fails, and frees the lock. -/
theorem csLeave_lock (hm : m.isLock = true) (h : LockRep m p env (some i)) :
    ∃ env', csLeave p i false env = some (true, env') ∧ LockRep m p env' none := by
  have hmeth := h.method
  simp only [csLeave, hmeth]
  cases m with
  | atomic | locked => cases hm
  | xchg => exact ⟨_, rfl, hmeth, by simp [Env.Tokens, freeTokens], by simp⟩
  | testXchg => exact ⟨_, rfl, hmeth, by simp [Env.Tokens, freeTokens], by simp⟩
  | mutex | semPosix | semPosixNamed | semSysv | mqPosix | mqSysv => exact h.leaveCall rfl

end Calls

/-! ## The threads -/

/-- The thread has acquired the lock and not yet released it. -/
def ThreadPc.holds : ThreadPc → Bool
  | .entering (.ret true) | .inside | .leaving => true
  | .entering _ | .outside => false

/-- A thread that is still trying holds nothing. -/
theorem holds_entering {pc : EnterPc} (h : ∀ ok, pc ≠ .ret ok) :
    (ThreadPc.entering pc).holds = false := by
  cases pc <;> first | rfl | exact absurd rfl (h _)

/-- A step of `cs_enter` that does not return is silent. -/
theorem enterEvent_eq_none {pc : EnterPc} (h : ∀ ok, pc ≠ .ret ok) : enterEvent i pc = none := by
  cases pc <;> first | rfl | exact absurd rfl (h _)

/-- A thread that is still trying takes the next step of `cs_enter`. -/
theorem threadStep_entering [DecidableEq P] [DecidableEq T] {pc : EnterPc} {fail : Bool}
    (h : ∀ ok, pc ≠ .ret ok) :
    threadStep busyWaitYields p i fail env (.entering pc) =
      (csEnterStep busyWaitYields p i fail env pc).map fun r =>
        (enterEvent i r.2, r.1, .entering r.2) := by
  cases pc <;> first | rfl | exact absurd rfl (h _)

/-- The threads and the environment agree on the lock state `o`. -/
structure LockSim (m : CsMethod) (p : P) (cfg : Config T (Env P T) ThreadPc) (o : Option T) :
    Prop where
  rep : LockRep m p cfg.shared o
  holder : ∀ i, (cfg.loc i).holds = true ↔ o = some i
  ok : ∀ i, cfg.loc i ≠ .entering (.ret false)

/-- All threads outside agree with the free lock. -/
theorem LockSim.allOutside (h : LockRep m p env none) : LockSim m p (allOutside env) none :=
  ⟨h, fun _ => by simp [Everything.allOutside, ThreadPc.holds], fun _ => by
    simp [Everything.allOutside]⟩

variable [DecidableEq T]

/-- A step of thread `i` that leaves the other threads' claim to the lock as it was. -/
theorem LockSim.update {loc : T → ThreadPc} {o' : Option T} {pc : ThreadPc}
    (h : LockSim m p ⟨env, loc⟩ o) (hrep : LockRep m p env' o')
    (hpc : pc.holds = true ↔ o' = some i) (hother : ∀ j, j ≠ i → (o = some j ↔ o' = some j))
    (hok : pc ≠ .entering (.ret false)) :
    LockSim m p ⟨env', Function.update loc i pc⟩ o' := by
  refine ⟨hrep, fun j => ?_, fun j => ?_⟩
  · by_cases hj : j = i
    · subst hj; simpa using hpc
    · simpa [hj] using (h.holder j).trans (hother j hj)
  · by_cases hj : j = i
    · subst hj; simpa using hok
    · simpa [hj] using h.ok j

variable [DecidableEq P]

/-- A step of a thread stutters or is a step of the lock by that thread. -/
theorem lockStep_sim {loc : T → ThreadPc} {pc : ThreadPc} {e : Option (LockEvent T)}
    (hm : m.isLock = true) (h : LockSim m p ⟨env, loc⟩ o)
    (hs : lockStep busyWaitYields p i () env (loc i) = some (e, env', pc)) :
    (e = none ∧ LockSim m p ⟨env', Function.update loc i pc⟩ o) ∨
      (e = some (.acquire i) ∧ o = none ∧
        LockSim m p ⟨env', Function.update loc i pc⟩ (some i)) ∨
      (e = some (.release i) ∧ o = some i ∧
        LockSim m p ⟨env', Function.update loc i pc⟩ none) := by
  have hholds := h.holder i
  have hok := h.ok i
  simp only at hholds hok
  cases hpc : loc i with
  | outside =>
    simp only [lockStep, threadStep, hpc, Option.map_some, Option.bind_none, Option.some.injEq,
      Prod.mk.injEq] at hs
    obtain ⟨rfl, rfl, rfl⟩ := hs
    -- the first step of `cs_enter` of a locking method is not its return
    have hentry : csEnter env ≠ .ret true ∧ csEnter env ≠ .ret false := by
      rw [csEnter, h.rep.method]
      cases m <;> simp [CsMethod.isLock] at hm ⊢
    refine .inl ⟨rfl, h.update h.rep ?_ (fun _ _ => Iff.rfl) (by simp [hentry.2])⟩
    rw [← hholds, hpc]
    cases hc : csEnter env <;> simp [ThreadPc.holds, hc] at hentry ⊢
  | entering epc =>
    by_cases hret : ∃ ok, epc = .ret ok
    -- `cs_enter` has acquired the lock and returns
    · obtain ⟨ok, rfl⟩ := hret
      obtain rfl : ok = true := by
        cases ok
        · exact absurd hpc hok
        · rfl
      simp only [lockStep, threadStep, hpc, Option.map_some, Option.bind_none,
        Option.some.injEq, Prod.mk.injEq] at hs
      obtain ⟨rfl, rfl, rfl⟩ := hs
      refine .inl ⟨rfl, h.update h.rep ?_ (fun _ _ => Iff.rfl) (by simp)⟩
      rw [← hholds, hpc]
      simp [ThreadPc.holds]
    -- `cs_enter` is still trying, so the thread is not the holder
    · rw [not_exists] at hret
      simp only [lockStep, hpc, threadStep_entering hret, Option.map_map,
        Option.map_eq_some_iff, Prod.exists, Function.comp_apply, Prod.mk.injEq] at hs
      obtain ⟨env₁, pc₁, hstep, rfl, rfl, rfl⟩ := hs
      have hnot : o ≠ some i := fun ho => by
        have := hholds.mpr ho
        rw [hpc, holds_entering hret] at this
        exact nomatch this
      rcases csEnterStep_lock hm h.rep hstep with ⟨rfl, rfl, hrep⟩ | ⟨hpc₁, hrep⟩
      · refine .inr (.inl ⟨rfl, rfl, h.update hrep (by simp [ThreadPc.holds]) ?_ (by simp)⟩)
        intro j hj
        simp [Ne.symm hj]
      · refine .inl ⟨?_, h.update hrep ?_ (fun _ _ => Iff.rfl) ?_⟩
        · rw [enterEvent_eq_none hpc₁]; rfl
        · simp [holds_entering hpc₁, hnot]
        · simpa using hpc₁ false
  | inside =>
    simp only [lockStep, threadStep, hpc, Option.map_some, Option.bind_none, Option.some.injEq,
      Prod.mk.injEq] at hs
    obtain ⟨rfl, rfl, rfl⟩ := hs
    refine .inl ⟨rfl, h.update h.rep ?_ (fun _ _ => Iff.rfl) (by simp)⟩
    rw [← hholds, hpc]
    simp [ThreadPc.holds]
  | leaving =>
    -- only the holder leaves
    have ho : o = some i := hholds.mp (by rw [hpc]; rfl)
    subst ho
    obtain ⟨env₁, hleave, hrep⟩ := csLeave_lock hm h.rep
    simp only [lockStep, threadStep, hpc, hleave, Option.map_some, if_true, Option.bind_some,
      CsEvent.toLock, Option.some.injEq, Prod.mk.injEq] at hs
    obtain ⟨rfl, rfl, rfl⟩ := hs
    refine .inr (.inr ⟨rfl, rfl, h.update hrep (by simp [ThreadPc.holds]) ?_ (by simp)⟩)
    intro j hj
    simp [Ne.symm hj]

/-! ## Replaying the lock -/

/-- A step of `cs_enter` as a step of the thread running alone. -/
theorem solo_entering {pc : EnterPc} (h : ∀ ok, pc ≠ .ret ok) {pc' : EnterPc}
    (hs : csEnterStep busyWaitYields p i false env pc = some (env', pc')) :
    (Threads.solo (lockStep busyWaitYields p) i).step (env, .entering pc) () =
      some ((enterEvent i pc').bind CsEvent.toLock, env', .entering pc') := by
  simp [Threads.solo, lockStep, threadStep_entering h, hs]

/-- Alone, a thread whose next step of `cs_enter` returns gets inside. -/
theorem solo_return {pc : EnterPc}
    (hs : csEnterStep busyWaitYields p i false env pc = some (env', .ret true)) :
    (Threads.solo (lockStep busyWaitYields p) i).Run (env, .entering pc) [.acquire i]
      (env', .inside) := by
  -- a point that has a next step is not the return
  have hpc : ∀ ok, pc ≠ .ret ok := by
    rintro ok rfl
    simp only [csEnterStep] at hs
    split at hs <;> simp_all
  have hret : (Threads.solo (lockStep busyWaitYields p) i).step (env', .entering (.ret true)) () =
      some (none, env', .inside) := rfl
  exact .cons (solo_entering hpc hs) (.silent hret .nil)

/-- Alone, a thread that calls `cs_enter` on the free lock acquires it. -/
theorem solo_acquire (hm : m.isLock = true) (h : LockRep m p env none) :
    ∃ env', (Threads.solo (lockStep busyWaitYields p) i).Run (env, .outside) [.acquire i]
      (env', .inside) ∧ LockRep m p env' (some i) := by
  have hmeth := h.method
  have hcall : (Threads.solo (lockStep busyWaitYields p) i).step (env, .outside) () =
      some (none, env, .entering (csEnter env)) := rfl
  cases m with
  | atomic | locked => cases hm
  | xchg =>
    -- the first exchange succeeds
    have hl : env.vars.lockedAtomic = false := lockedAtomic_eq h.tokens
    rw [show csEnter env = .exchange by simp [csEnter, hmeth]] at hcall
    have hexch : csEnterStep busyWaitYields p i false env .exchange =
        some ({ env with vars := { env.vars with lockedAtomic := true } }, .ret true) := by
      simp [csEnterStep, hmeth, hl]
    exact ⟨_, .silent hcall (solo_return hexch), hmeth, by simp [Env.Tokens, freeTokens], by simp⟩
  | testXchg =>
    -- the pre-test finds the lock free, and the exchange succeeds
    have hl : env.vars.locked = false := locked_eq h.tokens
    rw [show csEnter env = .load by simp [csEnter, hmeth]] at hcall
    have hload : csEnterStep busyWaitYields p i false env .load = some (env, .exchange) := by
      simp [csEnterStep, hmeth, hl]
    have hexch : csEnterStep busyWaitYields p i false env .exchange =
        some ({ env with vars := { env.vars with locked := true } }, .ret true) := by
      simp [csEnterStep, hmeth, hl]
    exact ⟨_, .silent hcall (.silent (solo_entering (by simp) hload) (solo_return hexch)), hmeth,
      by simp [Env.Tokens, freeTokens], by simp⟩
  | mutex | semPosix | semPosixNamed | semSysv | mqPosix | mqSysv =>
    obtain ⟨env', hok, hrep⟩ := h.enterCall (i := i) rfl
    rw [csEnter_isCall rfl hmeth] at hcall
    have hstep : csEnterStep busyWaitYields p i false env .call = some (env', .ret true) := by
      simp [csEnterStep_call rfl hmeth, hok]
    exact ⟨env', .silent hcall (solo_return hstep), hrep⟩

/-- Alone, the holder that calls `cs_leave` releases the lock. -/
theorem solo_release (hm : m.isLock = true) (h : LockRep m p env (some i)) :
    ∃ env', (Threads.solo (lockStep busyWaitYields p) i).Run (env, .inside) [.release i]
      (env', .outside) ∧ LockRep m p env' none := by
  obtain ⟨env', hleave, hrep⟩ := csLeave_lock hm h
  have hcall : (Threads.solo (lockStep busyWaitYields p) i).step (env, .inside) () =
      some (none, env, .leaving) := rfl
  have hrel : (Threads.solo (lockStep busyWaitYields p) i).step (env, .leaving) () =
      some (some (.release i), env', .outside) := by
    simp [Threads.solo, lockStep, threadStep, hleave, CsEvent.toLock]
  exact ⟨env', .silent hcall (.single hrel), hrep⟩

/-- Between operations: the holder is inside, all other threads are outside. -/
def Quiescent (m : CsMethod) (p : P) (cfg : Config T (Env P T) ThreadPc) (o : Option T) : Prop :=
  LockRep m p cfg.shared o ∧ cfg.loc = fun i => if o = some i then .inside else .outside

/-- Every acquisition of the lock can be replayed. -/
theorem Quiescent.acquire {cfg : Config T (Env P T) ThreadPc} (hm : m.isLock = true) (i : T)
    (h : Quiescent m p cfg none) :
    ∃ cfg', (csMachine busyWaitYields p).Run cfg [.acquire i] cfg' ∧
      Quiescent m p cfg' (some i) := by
  obtain ⟨hrep, hloc⟩ := h
  obtain ⟨env', hrun, hrep'⟩ := solo_acquire (i := i) hm hrep
  refine ⟨_, Threads.run_of_solo hrun (by simp [hloc]), hrep', ?_⟩
  funext j
  by_cases hj : j = i
  · subst hj; simp
  · simp [hj, Ne.symm hj, hloc]

/-- Every release of the lock can be replayed. -/
theorem Quiescent.release {cfg : Config T (Env P T) ThreadPc} (hm : m.isLock = true) (i : T)
    (h : Quiescent m p cfg (some i)) :
    ∃ cfg', (csMachine busyWaitYields p).Run cfg [.release i] cfg' ∧ Quiescent m p cfg' none := by
  obtain ⟨hrep, hloc⟩ := h
  obtain ⟨env', hrun, hrep'⟩ := solo_release hm hrep
  refine ⟨_, Threads.run_of_solo hrun (by simp [hloc]), hrep', ?_⟩
  funext j
  by_cases hj : j = i
  · subst hj; simp
  · simp [hj, Ne.symm hj, hloc]

/-! ## The lock and its token -/

/-- At most one thread holds the lock, the token is there exactly while none does, and a thread
    in `cs_leave` neither blocks nor raises the tokens above one. -/
structure LockSafe (m : CsMethod) (p : P) (cfg : Config T (Env P T) ThreadPc) : Prop where
  exclusive : ∀ i j, (cfg.loc i).holds = true → (cfg.loc j).holds = true → i = j
  token : cfg.shared.tokenCount m = 1 ↔ ∀ i, (cfg.loc i).holds = false
  le_one : cfg.shared.tokenCount m ≤ 1
  leave : ∀ i, cfg.loc i = .leaving →
    ∃ env', csLeave p i false cfg.shared = some (true, env') ∧ env'.tokenCount m = 1

/-- Threads that agree with the lock are safe. -/
theorem LockSim.safe {cfg : Config T (Env P T) ThreadPc} (hm : m.isLock = true)
    (h : LockSim m p cfg o) : LockSafe m p cfg := by
  have hcount := h.rep.tokens.tokenCount_eq
  refine ⟨fun i j hi hj => ?_, ?_, ?_, fun i hi => ?_⟩
  · have hi' := (h.holder i).mp hi
    have hj' := (h.holder j).mp hj
    exact Option.some.inj (hi'.symm.trans hj')
  · rw [hcount]
    cases o with
    | none => simpa [freeTokens] using fun i => by simpa using (h.holder i).not
    | some i => simpa [freeTokens] using ⟨i, (h.holder i).mpr rfl⟩
  · rw [hcount]
    cases o <;> simp [freeTokens]
  · obtain rfl : o = some i := (h.holder i).mp (by rw [hi]; rfl)
    obtain ⟨env', hleave, hrep⟩ := csLeave_lock hm h.rep
    exact ⟨env', hleave, hrep.tokens.tokenCount_eq⟩

/-- Threads that agree with the lock go on doing so. -/
theorem csMachine_sim {cfg cfg' : Config T (Env P T) ThreadPc} {a : T × Unit}
    {e : Option (LockEvent T)} (hm : m.isLock = true) (h : LockSim m p cfg o)
    (hs : (csMachine busyWaitYields p).step cfg a = some (e, cfg')) :
    (e = none ∧ LockSim m p cfg' o) ∨
      (∃ i, e = some (.acquire i) ∧ o = none ∧ LockSim m p cfg' (some i)) ∨
      (∃ i, e = some (.release i) ∧ o = some i ∧ LockSim m p cfg' none) := by
  obtain ⟨env', pc', hs', rfl⟩ := Threads.machine_step_eq_some.mp hs
  rcases lockStep_sim hm h hs' with h₁ | h₂ | h₃
  · exact .inl h₁
  · exact .inr (.inl ⟨_, h₂⟩)
  · exact .inr (.inr ⟨_, h₃⟩)

/-- Some lock state agrees with every reachable state of the threads. -/
theorem csMachine_reachable_sim {cfg : Config T (Env P T) ThreadPc} (hm : m.isLock = true)
    (hrep : LockRep m p env none)
    (h : (csMachine busyWaitYields p).Reachable (allOutside env) cfg) :
    ∃ o, LockSim m p cfg o := by
  refine h.invariant (I := fun cfg => ∃ o, LockSim m p cfg o) ?_ ⟨none, .allOutside hrep⟩
  rintro cfg a e cfg' ⟨o, hsim⟩ hs
  rcases csMachine_sim hm hsim hs with ⟨-, h'⟩ | ⟨i, -, -, h'⟩ | ⟨i, -, -, h'⟩
  · exact ⟨o, h'⟩
  · exact ⟨some i, h'⟩
  · exact ⟨none, h'⟩

/-- After a successful `cs_init(m)` of a locking method, any number of threads that alternate
    `cs_enter` and `cs_leave` produce exactly the event sequences of the binary lock, and in every
    reachable state the lock and its token are safe. -/
theorem csMachine_traces_eq_lock (m : CsMethod) (hm : m.isLock = true) (n : ℕ)
    (busyWaitYields : Bool) (p : P) (env₀ env : Env P (Fin n))
    (hinit : (csInit m.toInt p).Reachable (.start, env₀) (.done, env)) :
    (csMachine busyWaitYields p).traces (allOutside env) =
        (BinaryLock.machine (Fin n)).traces none ∧
      ∀ cfg, (csMachine busyWaitYields p).Reachable (allOutside env) cfg → LockSafe m p cfg := by
  have hrep := csInit_lockRep hm hinit
  constructor
  · apply Set.Subset.antisymm
    · exact BinaryLock.traces_subset (R := LockSim m p)
        (fun _ _ _ _ _ h hs => csMachine_sim hm h hs) (.allOutside hrep)
    · exact BinaryLock.subset_traces (R := Quiescent m p) (fun _ i h => h.acquire hm i)
        (fun _ i h => h.release hm i) ⟨hrep, by simp [allOutside]⟩
  · intro cfg hreach
    obtain ⟨o, hsim⟩ := csMachine_reachable_sim hm hrep hreach
    exact hsim.safe hm

/-- Two threads over a System V semaphore, with `cs_init` run on an empty kernel. -/
theorem csMachine_traces_eq_lock_semSysv :
    (csMachine true ()).traces (allOutside (T := Fin 2)
      ⟨{ CsVars.static (Fin 2) with
          csMethodUsed := 7, csVarAllocated := true, sysvSemid := some 0 },
        (Kernel.empty.setSemSet 0 (some ⟨(), 0, fun _ => 0⟩)).setSemSet 0
          (some ⟨(), 1, fun _ => 0⟩)⟩) =
      (BinaryLock.machine (Fin 2)).traces none :=
  (csMachine_traces_eq_lock .semSysv rfl 2 true () ⟨.static (Fin 2), .empty⟩ _
    (.of_exec [(false, 0), (false, 0), (false, 0)] rfl)).1

end Everything
