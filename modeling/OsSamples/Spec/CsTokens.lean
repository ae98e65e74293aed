import Mathlib.Tactic.Common
import OsSamples.Native.CsMethods

/-!
# Tokens

Every method keeps its lock as tokens: a value or a message that `cs_enter` takes and `cs_leave`
puts back.  `Tokens m p env t adj` says that the object behind the handle of method `m` is in
order and holds `t` tokens, and that the undo adjustment of process `p` is `adj`.

## Key results

- `enterCall_tokens` / `leaveCall_tokens`: a call that succeeds moves exactly one token
- `enterCall_enabled` / `leaveCall_enabled`: when a call neither blocks nor fails
-/

namespace Env

variable {P T : Type*} {m : CsMethod} {p : P} {i : T} {env env' : Env P T} {t : ℕ} {adj : ℤ}

/-- The number of tokens that method `m` holds in `env`. -/
def tokenCount (m : CsMethod) (env : Env P T) : ℕ :=
  match m with
  | .atomic | .locked => 0
  | .xchg => if env.vars.lockedAtomic then 0 else 1
  | .testXchg => if env.vars.locked then 0 else 1
  | .mutex => if env.vars.csMutex.isSome then 0 else 1
  | .semPosix => env.vars.csSem
  | .semPosixNamed => ((env.vars.csNamedSem.bind env.kernel.sems).map PosixSem.value).getD 0
  | .semSysv => (((env.vars.sysvSemid.bind env.kernel.semSets).map SysvSem.val).getD 0).toNat
  | .mqPosix => ((env.vars.messageQueue.bind env.kernel.mqs).map (·.msgs.length)).getD 0
  | .mqSysv => ((env.vars.mqSysv.bind env.kernel.msgQs).map (·.msgs.length)).getD 0

/-- The object of method `m` is in order and holds `t` tokens; the undo adjustment of `p` on a
    System V semaphore is `adj`. -/
def Tokens (m : CsMethod) (p : P) (env : Env P T) (t : ℕ) (adj : ℤ) : Prop :=
  match m with
  | .atomic | .locked => False
  | .xchg => t = if env.vars.lockedAtomic then 0 else 1
  | .testXchg => t = if env.vars.locked then 0 else 1
  | .mutex => t = if env.vars.csMutex.isSome then 0 else 1
  | .semPosix => env.vars.csSem = t
  | .semPosixNamed =>
    ∃ id s, env.vars.csNamedSem = some id ∧ env.kernel.sems id = some s ∧ s.value = t
  | .semSysv =>
    ∃ id s, env.vars.sysvSemid = some id ∧ env.kernel.semSets id = some s ∧ s.val = t ∧
      s.semadj p = adj
  | .mqPosix =>
    ∃ id q, env.vars.messageQueue = some id ∧ env.kernel.mqs id = some q ∧ q.maxmsg = 1 ∧
      q.msgsize = MESSAGE_SIZE ∧ q.msgs = List.replicate t MESSAGE_SIZE
  | .mqSysv =>
    ∃ id q, env.vars.mqSysv = some id ∧ env.kernel.msgQs id = some q ∧ q.qbytes = MSGMNB ∧
      q.msgs = List.replicate t (1, 0) ∧ env.vars.msgBufSysv = 1

/-- `Tokens` counts what `tokenCount` counts. -/
theorem Tokens.tokenCount_eq (h : Tokens m p env t adj) : tokenCount m env = t := by
  cases m <;> simp only [Tokens] at h <;> simp only [tokenCount]
  case xchg | testXchg | mutex => exact h.symm
  case semPosix => exact h
  case semPosixNamed => obtain ⟨id, s, hid, hs, rfl⟩ := h; simp [hid, hs]
  case semSysv => obtain ⟨id, s, hid, hs, hv, _⟩ := h; simp [hid, hs, hv]
  case mqPosix => obtain ⟨id, q, hid, hq, _, _, hm⟩ := h; simp [hid, hq, hm]
  case mqSysv => obtain ⟨id, q, hid, hq, _, hm, _⟩ := h; simp [hid, hq, hm]

/-! ## Calls on handles -/

/-- A call on a handle is the kernel's call on the object of the handle, and fails without one. -/
theorem onHandle_cases {h : Option ℕ} {call : ℕ → Kernel P → Option (Bool × Kernel P)} {ok : Bool}
    (hs : env.onHandle h call = some (ok, env')) :
    (h = none ∧ ok = false ∧ env' = env) ∨
      ∃ id k', h = some id ∧ call id env.kernel = some (ok, k') ∧
        env' = { env with kernel := k' } := by
  cases h with
  | none =>
    simp only [onHandle, Option.some.injEq, Prod.mk.injEq] at hs
    exact .inl ⟨rfl, hs.1.symm, hs.2.symm⟩
  | some id =>
    simp only [onHandle, Option.map_eq_some_iff, ofKernel, Prod.exists, Prod.mk.injEq] at hs
    obtain ⟨ok', k', hk, rfl, rfl⟩ := hs
    exact .inr ⟨id, k', rfl, hk, rfl⟩

/-- A call on a handle leaves the variables alone. -/
theorem onHandle_vars {h : Option ℕ} {call : ℕ → Kernel P → Option (Bool × Kernel P)} {ok : Bool}
    (hs : env.onHandle h call = some (ok, env')) : env'.vars = env.vars := by
  rcases onHandle_cases hs with ⟨-, -, rfl⟩ | ⟨id, k', -, -, rfl⟩ <;> rfl

/-- A call on a handle that names an object. -/
theorem onHandle_call {h : Option ℕ} {id : ℕ} {call : ℕ → Kernel P → Option (Bool × Kernel P)}
    {ok : Bool} (hid : h = some id) (hs : env.onHandle h call = some (ok, env')) :
    ∃ k', call id env.kernel = some (ok, k') ∧ env' = { env with kernel := k' } := by
  subst hid
  rcases onHandle_cases hs with ⟨hnone, -⟩ | ⟨_, k', hid, hk, henv⟩
  · exact nomatch hnone
  · obtain rfl := Option.some.inj hid
    exact ⟨k', hk, henv⟩

/-- A call on a handle acts on the handle's object. -/
theorem onHandle_some {h : Option ℕ} {id : ℕ} {call : ℕ → Kernel P → Option (Bool × Kernel P)}
    (hid : h = some id) : env.onHandle h call = (call id env.kernel).map env.ofKernel := by
  subst hid; rfl

/-- `msgrcv` is the kernel's call, and stores the type of the message it receives. -/
theorem msgrcv_cases {ok : Bool} (hs : env.msgrcv = some (ok, env')) :
    (env.vars.mqSysv = none ∧ ok = false ∧ env' = env) ∨
      ∃ id r k', env.vars.mqSysv = some id ∧ env.kernel.msgrcv id 0 = some (r, k') ∧
        ((r = none ∧ ok = false ∧ env' = { env with kernel := k' }) ∨
          ∃ mtype, r = some mtype ∧ ok = true ∧
            env' = ⟨{ env.vars with msgBufSysv := mtype }, k'⟩) := by
  simp only [msgrcv] at hs
  split at hs
  · rename_i hid
    simp only [Option.some.injEq, Prod.mk.injEq] at hs
    exact .inl ⟨hid, hs.1.symm, hs.2.symm⟩
  · rename_i id hid
    simp only [Option.map_eq_some_iff] at hs
    obtain ⟨⟨r, k'⟩, hk, hr⟩ := hs
    cases r with
    | none =>
      simp only [Prod.mk.injEq] at hr
      exact .inr ⟨id, none, k', hid, hk, .inl ⟨rfl, hr.1.symm, hr.2.symm⟩⟩
    | some mtype =>
      simp only [Prod.mk.injEq] at hr
      exact .inr ⟨id, some mtype, k', hid, hk, .inr ⟨mtype, rfl, hr.1.symm, hr.2.symm⟩⟩

/-! ## Sending a message -/

/-- A `mq_send` that returns adds one message. -/
theorem mqSend_tokens {ok : Bool} (h : Tokens .mqPosix p env t adj)
    (hs : env.mqSend = some (ok, env')) (adj' : ℤ) :
    ok = true ∧ env'.vars = env.vars ∧ Tokens .mqPosix p env' (t + 1) adj' := by
  obtain ⟨id, q, hid, hq, hmax, hsize, hm⟩ := h
  obtain ⟨k', hk, rfl⟩ := onHandle_call hid hs
  rcases Kernel.mqSend_cases hk with ⟨-, -, hlong⟩ | ⟨q', hq', rfl, -, rfl⟩
  · -- the message has the size the queue was created for
    have hlt := hlong q hq
    omega
  · obtain rfl : q = q' := by simpa [hq] using hq'
    exact ⟨rfl, rfl, id, _, hid, Kernel.setMq_mqs_self .., hmax, hsize, by
      simp [hm, List.replicate_succ']⟩

/-- A `msgsnd` that returns adds one message. -/
theorem msgsnd_tokens {ok : Bool} (h : Tokens .mqSysv p env t adj)
    (hs : env.msgsnd = some (ok, env')) (adj' : ℤ) :
    ok = true ∧ env'.vars = env.vars ∧ Tokens .mqSysv p env' (t + 1) adj' := by
  obtain ⟨id, q, hid, hq, hbytes, hm, hbuf⟩ := h
  obtain ⟨k', hk, rfl⟩ := onHandle_call hid hs
  rcases Kernel.msgsnd_cases hk with ⟨-, -, htype⟩ | ⟨q', hq', rfl, rfl⟩
  · -- the message has type 1
    have hlt := htype q hq
    omega
  · obtain rfl : q = q' := by simpa [hq] using hq'
    exact ⟨rfl, rfl, id, _, hid, Kernel.setMsgQ_msgQs_self .., hbytes, by
      simp [hm, hbuf, List.replicate_succ'], hbuf⟩

variable [DecidableEq P]

/-! ## Taking a token -/

/-- The OS call of `cs_enter` leaves the method alone. -/
theorem enterCall_method {ok : Bool} (hs : env.enterCall m p i = some (ok, env')) :
    env'.vars.csMethodUsed = env.vars.csMethodUsed := by
  have hhandle : ∀ (h : Option ℕ) (call : ℕ → Kernel P → Option (Bool × Kernel P)),
      env.onHandle h call = some (ok, env') → env'.vars.csMethodUsed = env.vars.csMethodUsed :=
    fun h call hs => by rw [onHandle_vars hs]
  cases m <;> simp only [enterCall, reduceCtorEq] at hs
  case mutex =>
    simp only [pthreadMutexLock] at hs
    split at hs <;> simp only [reduceCtorEq, Option.some.injEq, Prod.mk.injEq] at hs
    rw [← hs.2]
  case semPosix =>
    simp only [semWait, Option.ite_none_left_eq_some, Option.some.injEq, Prod.mk.injEq] at hs
    rw [← hs.2.2]
  case semPosixNamed | semSysv | mqPosix => exact hhandle _ _ hs
  case mqSysv =>
    rcases msgrcv_cases hs with ⟨-, -, rfl⟩ | ⟨id, r, k', -, -, ⟨-, -, rfl⟩ | ⟨_, -, -, rfl⟩⟩
    all_goals rfl

/-- A mutex that was locked is owned by the thread that locked it. -/
theorem enterCall_owner (hs : env.enterCall .mutex p i = some (true, env')) :
    env'.vars.csMutex = some i := by
  simp only [enterCall, pthreadMutexLock] at hs
  split at hs <;> simp only [reduceCtorEq, Option.some.injEq, Prod.mk.injEq] at hs
  rw [← hs.2]

/-- A call of `cs_enter` that returns took one token, or failed and changed nothing. -/
theorem enterCall_tokens {ok : Bool} (h : Tokens m p env t adj)
    (hs : env.enterCall m p i = some (ok, env')) :
    (ok = true ∧ ∃ t', t = t' + 1 ∧ Tokens m p env' t' (adj + 1)) ∨ (ok = false ∧ env' = env) := by
  cases m <;> simp only [Tokens] at h <;> simp only [enterCall, reduceCtorEq] at hs
  case mutex =>
    simp only [pthreadMutexLock] at hs
    split at hs
    · exact nomatch hs
    · -- the mutex is the token
      rename_i hfree
      simp only [Option.some.injEq, Prod.mk.injEq] at hs
      obtain ⟨rfl, rfl⟩ := hs
      exact .inl ⟨rfl, 0, by simp [h, hfree], by simp [Tokens]⟩
  case semPosix =>
    -- the tokens are the value of the semaphore
    simp only [semWait, Option.ite_none_left_eq_some, Option.some.injEq, Prod.mk.injEq] at hs
    obtain ⟨hpos, rfl, rfl⟩ := hs
    exact .inl ⟨rfl, t - 1, by omega, by simp [Tokens, h]⟩
  case semPosixNamed =>
    obtain ⟨id, s, hid, hsem, rfl⟩ := h
    obtain ⟨k', hk, rfl⟩ := onHandle_call hid hs
    rcases Kernel.semWait_cases hk with ⟨-, -, hnone⟩ | ⟨s', hs', rfl, hpos, rfl⟩
    · rw [hsem] at hnone
      exact nomatch hnone
    · obtain rfl : s = s' := by simpa [hsem] using hs'
      exact .inl ⟨rfl, s.value - 1, by omega, id, _, hid, Kernel.setSem_sems_self .., rfl⟩
  case semSysv =>
    obtain ⟨id, s, hid, hsem, hv, hadj⟩ := h
    obtain ⟨k', hk, rfl⟩ := onHandle_call hid hs
    rcases Kernel.semop_cases hk with ⟨rfl, rfl, -⟩ | ⟨s', hs', rfl, hnonneg, rfl⟩
    · -- out of range: the kernel refuses
      exact .inr ⟨rfl, rfl⟩
    · obtain rfl : s = s' := by simpa [hsem] using hs'
      refine .inl ⟨rfl, t - 1, by omega, id, _, hid, Kernel.setSemSet_semSets_self .., ?_, ?_⟩
      · show s.val + -1 = ((t - 1 : ℕ) : ℤ)
        omega
      · simp [hadj]
  case mqPosix =>
    obtain ⟨id, q, hid, hq, hmax, hsize, hm⟩ := h
    obtain ⟨k', hk, rfl⟩ := onHandle_call hid hs
    rcases Kernel.mqReceive_cases hk with ⟨-, -, hshort⟩ | ⟨q', m, ms, hq', hmsgs, rfl, rfl⟩
    · -- the buffer has the size the queue was created for
      have hlt := hshort q hq
      omega
    · -- the tokens are the messages, and one of them is received
      obtain rfl : q = q' := by simpa [hq] using hq'
      rw [hm] at hmsgs
      cases t with
      | zero => exact nomatch hmsgs
      | succ t =>
        obtain ⟨-, rfl⟩ := List.cons.inj hmsgs
        exact .inl ⟨rfl, t, rfl, id, _, hid, Kernel.setMq_mqs_self .., hmax, hsize, rfl⟩
  case mqSysv =>
    obtain ⟨id, q, hid, hq, hbytes, hm, hbuf⟩ := h
    rcases msgrcv_cases hs with ⟨hnone, -⟩ | ⟨id', r, k', hid', hk, hr⟩
    · rw [hid] at hnone
      exact nomatch hnone
    · obtain rfl : id = id' := by simpa [hid] using hid'
      rcases Kernel.msgrcv_cases hk with ⟨-, -, hlong⟩ | ⟨q', m, ms, hq', hmsgs, rfl, rfl⟩
      · -- every message is empty, so none is too long
        obtain ⟨m, ms, hmsgs, hlt⟩ := hlong q hq
        have hmem : m ∈ List.replicate t (1, 0) := by
          rw [← hm, hmsgs]
          exact List.mem_cons_self
        rw [List.eq_of_mem_replicate hmem] at hlt
        omega
      · obtain rfl : q = q' := by simpa [hq] using hq'
        rw [hm] at hmsgs
        cases t with
        | zero => exact nomatch hmsgs
        | succ t =>
          obtain ⟨rfl, rfl⟩ := List.cons.inj hmsgs
          rcases hr with ⟨hnone, -⟩ | ⟨_, hmtype, rfl, rfl⟩
          · exact nomatch hnone
          · obtain rfl := Option.some.inj hmtype
            exact .inl ⟨rfl, t, rfl, id, _, hid, Kernel.setMsgQ_msgQs_self .., hbytes, rfl, rfl⟩

/-- A call of `cs_enter` blocks while there is no token. -/
theorem enterCall_blocks (hm : m.isCall = true) (h : Tokens m p env 0 adj) :
    env.enterCall m p i = none := by
  cases m <;> simp only [CsMethod.isCall, Bool.false_eq_true] at hm <;>
    simp only [Tokens] at h <;> simp only [enterCall]
  case mutex =>
    have hheld : env.vars.csMutex ≠ none := fun hne => by simp [hne] at h
    obtain ⟨j, hj⟩ := Option.ne_none_iff_exists'.mp hheld
    simp [pthreadMutexLock, hj]
  case semPosix => simp [semWait, h]
  case semPosixNamed =>
    obtain ⟨id, s, hid, hsem, hv⟩ := h
    simp [onHandle_some hid, Kernel.semWait, hsem, hv]
  case semSysv =>
    obtain ⟨id, s, hid, hsem, hv, -⟩ := h
    simp [onHandle_some hid, Kernel.semop, hsem, hv]
  case mqPosix =>
    obtain ⟨id, q, hid, hq, -, hsize, hms⟩ := h
    simp [mqReceive, onHandle_some hid, Kernel.mqReceive, hq, hsize, hms]
  case mqSysv =>
    obtain ⟨id, q, hid, hq, -, hms, -⟩ := h
    simp [msgrcv, hid, Kernel.msgrcv, hq, hms]

/-- A call of `cs_enter` neither blocks nor fails while there is a token and the adjustment is
    in range. -/
theorem enterCall_enabled (hm : m.isCall = true) (h : Tokens m p env (t + 1) adj)
    (ht : (t : ℤ) < SEMVMX) (hadj : -SEMVMX ≤ adj ∧ adj < SEMVMX) :
    ∃ env', env.enterCall m p i = some (true, env') ∧ Tokens m p env' t (adj + 1) := by
  -- it is enough that the call succeeds: what it does to the tokens is known
  have key : ∃ env', env.enterCall m p i = some (true, env') := by
    cases m <;> simp only [CsMethod.isCall, Bool.false_eq_true] at hm <;>
      simp only [Tokens] at h <;> simp only [enterCall]
    case mutex =>
      have hfree : env.vars.csMutex = none := by
        by_contra hne
        simp [Option.isSome_iff_ne_none.mpr hne] at h
      exact ⟨_, by simp only [pthreadMutexLock, hfree]; rfl⟩
    case semPosix => exact ⟨_, by simp only [semWait, h]; rfl⟩
    case semPosixNamed =>
      obtain ⟨id, s, hid, hsem, hv⟩ := h
      exact ⟨_, by simp only [onHandle_some hid, Kernel.semWait, hsem, hv]; rfl⟩
    case semSysv =>
      obtain ⟨id, s, hid, hsem, hv, hadj'⟩ := h
      -- neither the value nor the adjustment leaves its range
      have h₁ : ¬ s.val + -1 < 0 := by omega
      have h₂ : ¬ (s.val + -1 > SEMVMX ∨ s.semadj p - -1 > SEMVMX ∨
          s.semadj p - -1 < -SEMVMX - 1) := by push_cast at hv; omega
      exact ⟨_, by simp only [onHandle_some hid, Kernel.semop, hsem, h₁, h₂, if_false]; rfl⟩
    case mqPosix =>
      obtain ⟨id, q, hid, hq, -, hsize, hms⟩ := h
      exact ⟨_, by simp only [mqReceive, onHandle_some hid, Kernel.mqReceive, hq, hsize,
        Nat.lt_irrefl, if_false, hms, List.replicate_succ]; rfl⟩
    case mqSysv =>
      obtain ⟨id, q, hid, hq, -, hms, -⟩ := h
      exact ⟨_, by simp only [msgrcv, hid, Kernel.msgrcv, hq, hms, List.replicate_succ, gt_iff_lt,
        Nat.lt_irrefl, if_false]; rfl⟩
  obtain ⟨env', hs⟩ := key
  rcases enterCall_tokens h hs with ⟨-, t', ht', htok⟩ | ⟨hfalse, -⟩
  · obtain rfl : t = t' := by omega
    exact ⟨env', hs, htok⟩
  · cases hfalse

/-! ## Putting a token back -/

variable [DecidableEq T]

/-- The OS call of `cs_leave` leaves the method alone. -/
theorem leaveCall_method {ok : Bool} (hs : env.leaveCall m p i = some (ok, env')) :
    env'.vars.csMethodUsed = env.vars.csMethodUsed := by
  have hhandle : ∀ (h : Option ℕ) (call : ℕ → Kernel P → Option (Bool × Kernel P)),
      env.onHandle h call = some (ok, env') → env'.vars.csMethodUsed = env.vars.csMethodUsed :=
    fun h call hs => by rw [onHandle_vars hs]
  cases m <;> simp only [leaveCall, reduceCtorEq] at hs
  case mutex =>
    simp only [pthreadMutexUnlock] at hs
    split at hs <;> simp only [Option.some.injEq, Prod.mk.injEq] at hs <;> rw [← hs.2]
  case semPosix =>
    simp only [semPost] at hs
    split at hs <;> simp only [Option.some.injEq, Prod.mk.injEq] at hs <;> rw [← hs.2]
  case semPosixNamed | semSysv | mqPosix | mqSysv => exact hhandle _ _ hs

/-- A mutex that was unlocked has no owner. -/
theorem leaveCall_owner (hs : env.leaveCall .mutex p i = some (true, env')) :
    env'.vars.csMutex = none := by
  simp only [leaveCall, pthreadMutexUnlock] at hs
  split at hs <;> simp only [Option.some.injEq, Prod.mk.injEq, Bool.false_eq_true, false_and] at hs
  rw [← hs.2]

/-- A call of `cs_leave` that returns put one token back, or failed and changed nothing. -/
theorem leaveCall_tokens {ok : Bool} (h : Tokens m p env t adj)
    (hs : env.leaveCall m p i = some (ok, env')) :
    (ok = true ∧ (m = .mutex → env.vars.csMutex = some i) ∧ Tokens m p env' (t + 1) (adj - 1)) ∨
      (ok = false ∧ env' = env) := by
  cases m <;> simp only [Tokens] at h <;> simp only [leaveCall, reduceCtorEq] at hs
  case mutex =>
    simp only [pthreadMutexUnlock] at hs
    split at hs <;> simp only [Option.some.injEq, Prod.mk.injEq] at hs
    · rename_i howner
      obtain ⟨rfl, rfl⟩ := hs
      exact .inl ⟨rfl, fun _ => howner, by simp [Tokens, h, howner]⟩
    · -- not the owner: the mutex stays as it is
      exact .inr ⟨hs.1.symm, hs.2.symm⟩
  case semPosix =>
    simp only [semPost] at hs
    split at hs <;> simp only [Option.some.injEq, Prod.mk.injEq] at hs
    · -- the largest value: the call fails
      exact .inr ⟨hs.1.symm, hs.2.symm⟩
    · obtain ⟨rfl, rfl⟩ := hs
      exact .inl ⟨rfl, nofun, by simp [Tokens, h]⟩
  case semPosixNamed =>
    obtain ⟨id, s, hid, hsem, rfl⟩ := h
    obtain ⟨k', hk, rfl⟩ := onHandle_call hid hs
    rcases Kernel.semPost_cases hk with ⟨rfl, rfl, -⟩ | ⟨s', hs', rfl, -, rfl⟩
    · -- the largest value: the kernel refuses
      exact .inr ⟨rfl, rfl⟩
    · obtain rfl : s = s' := by simpa [hsem] using hs'
      exact .inl ⟨rfl, nofun, id, _, hid, Kernel.setSem_sems_self .., rfl⟩
  case semSysv =>
    obtain ⟨id, s, hid, hsem, hv, hadj⟩ := h
    obtain ⟨k', hk, rfl⟩ := onHandle_call hid hs
    rcases Kernel.semop_cases hk with ⟨rfl, rfl, -⟩ | ⟨s', hs', rfl, -, rfl⟩
    · -- out of range: the kernel refuses
      exact .inr ⟨rfl, rfl⟩
    · obtain rfl : s = s' := by simpa [hsem] using hs'
      exact .inl ⟨rfl, nofun, id, _, hid, Kernel.setSemSet_semSets_self .., by simp [hv], by
        simp [hadj]⟩
  case mqPosix =>
    have htok : Tokens .mqPosix p env t adj := h
    obtain ⟨rfl, -, htok'⟩ := mqSend_tokens htok hs (adj - 1)
    exact .inl ⟨rfl, nofun, htok'⟩
  case mqSysv =>
    have htok : Tokens .mqSysv p env t adj := h
    obtain ⟨rfl, -, htok'⟩ := msgsnd_tokens htok hs (adj - 1)
    exact .inl ⟨rfl, nofun, htok'⟩

/-- A call of `cs_leave` neither blocks nor fails while there is no token, the adjustment is in
    range and the thread owns the mutex. -/
theorem leaveCall_enabled (hm : m.isCall = true) (h : Tokens m p env 0 adj)
    (hadj : -SEMVMX ≤ adj ∧ adj ≤ SEMVMX) (howner : m = .mutex → env.vars.csMutex = some i) :
    ∃ env', env.leaveCall m p i = some (true, env') ∧ Tokens m p env' 1 (adj - 1) := by
  -- the call finds room for the one token that has been taken
  have key : ∃ env', env.leaveCall m p i = some (true, env') := by
    cases m <;> simp only [CsMethod.isCall, Bool.false_eq_true] at hm <;>
      simp only [Tokens] at h <;> simp only [leaveCall]
    case mutex => exact ⟨_, by simp only [pthreadMutexUnlock, howner rfl]; rfl⟩
    case semPosix => exact ⟨_, by simp only [semPost, h]; rfl⟩
    case semPosixNamed =>
      obtain ⟨id, s, hid, hsem, hv⟩ := h
      exact ⟨_, by simp only [onHandle_some hid, Kernel.semPost, hsem, hv]; rfl⟩
    case semSysv =>
      -- both the value and the adjustment of the process stay in their range
      obtain ⟨id, s, hid, hsem, hv, hadj'⟩ := h
      have h₁ : ¬ s.val + 1 < 0 := by omega
      have h₂ : ¬ (s.val + 1 > SEMVMX ∨ s.semadj p - 1 > SEMVMX ∨
          s.semadj p - 1 < -SEMVMX - 1) := by simp only [SEMVMX] at hadj ⊢; omega
      exact ⟨_, by simp only [onHandle_some hid, Kernel.semop, hsem, h₁, h₂, if_false]; rfl⟩
    -- the queue is empty, and it takes one message
    case mqPosix =>
      obtain ⟨id, q, hid, hq, hmax, hsize, hms⟩ := h
      exact ⟨_, by simp only [mqSend, onHandle_some hid, Kernel.mqSend, hq, hsize, gt_iff_lt,
        Nat.lt_irrefl, if_false, hms, hmax]; rfl⟩
    case mqSysv =>
      obtain ⟨id, q, hid, hq, hbytes, hms, hbuf⟩ := h
      exact ⟨_, by simp only [msgsnd, onHandle_some hid, Kernel.msgsnd, hq, hbuf, hbytes, hms]; rfl⟩
  -- what the call does is said by the invariant of the tokens
  obtain ⟨env', hs⟩ := key
  rcases leaveCall_tokens h hs with ⟨-, -, htok⟩ | ⟨hfalse, -⟩
  · exact ⟨env', hs, htok⟩
  · cases hfalse

end Env
