import OsSamples.Lib.KernelOwner
import OsSamples.Native.EverythingProcesses
import OsSamples.Spec.EverythingLock

/-!
# Processes that use `everything.h` do not disturb each other

Each kernel object is created exclusively (`O_EXCL` or `IPC_PRIVATE`), so a handle always names an
object of its own process.  A name is bound to an object of the process that is about to unlink
it: while it is bound no other process gets past its own `sem_open` or `mq_open`.  So every step of
a process acts on its own objects only, and what the lock needs of the other processes' objects
stays true.

## Key results

- `procStep_own`: one step of a process acts on its own objects and keeps what holds of it
- `ProcInv.of_other`: what holds of a process survives the steps of the others
- `processes_isolated`: the events, the locks, and the losers of a race for a name
-/

/-- The methods that keep their token in a kernel object. -/
def CsMethod.isKernel : CsMethod → Bool
  | semPosixNamed | semSysv | mqPosix | mqSysv => true
  | atomic | locked | xchg | testXchg | mutex | semPosix => false

namespace Everything

open Kernel (ActsOwn OwnedBy)

/-- The handles of kernel objects among the variables. -/
def handles {T : Type*} (v : CsVars T) : Option ℕ × Option ℕ × Option ℕ × Option ℕ :=
  (v.csNamedSem, v.sysvSemid, v.messageQueue, v.mqSysv)

section Process

variable {P T : Type*} {m : CsMethod} {p q : P} {i : T} {env env' : Env P T} {k k' : Kernel P}
  {vars : CsVars T} {proc proc' : Proc T} {ok fail : Bool} {fresh : ℕ} {busyWaitYields : Bool}
  {t : ℕ} {adj : ℤ}

/-- The handle of method `m` names an object that `p` created. -/
def Owned (m : CsMethod) (p : P) (env : Env P T) : Prop :=
  match m with
  | .semPosixNamed =>
    ∀ id, env.vars.csNamedSem = some id → ∃ s, env.kernel.sems id = some s ∧ s.creator = p
  | .semSysv =>
    ∀ id, env.vars.sysvSemid = some id → ∃ s, env.kernel.semSets id = some s ∧ s.creator = p
  | .mqPosix =>
    ∀ id, env.vars.messageQueue = some id → ∃ q, env.kernel.mqs id = some q ∧ q.creator = p
  | .mqSysv => ∀ id, env.vars.mqSysv = some id → ∃ q, env.kernel.msgQs id = some q ∧ q.creator = p
  | .atomic | .locked | .xchg | .testXchg | .mutex | .semPosix => True

/-- The name that `cs_init` is about to unlink is bound to its own object. -/
def NameInv (pc : InitPc) (env : Env P T) : Prop :=
  match pc with
  | .semUnlink =>
    ∃ id, env.vars.csNamedSem = some id ∧ env.kernel.semNames SEM_NAME = some id
  | .mqUnlink =>
    ∃ id, env.vars.messageQueue = some id ∧ env.kernel.mqNames MQ_NAME = some id
  | _ => True

/-- What holds of a process. -/
def ProcInv (m : CsMethod) (p : P) (k : Kernel P) (proc : Proc T) : Prop :=
  match proc.pc with
  | .ended | .init (.exited _) => True
  | .init pc =>
    InitInv m p pc ⟨proc.vars, k⟩ ∧ Owned m p ⟨proc.vars, k⟩ ∧ NameInv pc ⟨proc.vars, k⟩ ∧
      proc.loc = fun _ => .outside
  | .running => (∃ o, LockSim m p ⟨⟨proc.vars, k⟩, proc.loc⟩ o) ∧ Owned m p ⟨proc.vars, k⟩

/-! ## Steps of other processes -/

/-- What a process owns, it still owns after others have acted on their own objects. -/
theorem Owned.of_other (h : Owned m p ⟨vars, k⟩) (hacts : ActsOwn q k k') (hne : p ≠ q) :
    Owned m p ⟨vars, k'⟩ := by
  cases m <;> simp only [Owned] at h ⊢
  case semPosixNamed =>
    intro id hid
    obtain ⟨s, hs, hp⟩ := h id hid
    exact ⟨s, hacts.sems.of_ne hs (by rw [hp]; exact hne), hp⟩
  case semSysv =>
    intro id hid
    obtain ⟨s, hs, hp⟩ := h id hid
    exact ⟨s, hacts.semSets.of_ne hs (by rw [hp]; exact hne), hp⟩
  case mqPosix =>
    intro id hid
    obtain ⟨s, hs, hp⟩ := h id hid
    exact ⟨s, hacts.mqs.of_ne hs (by rw [hp]; exact hne), hp⟩
  case mqSysv =>
    intro id hid
    obtain ⟨s, hs, hp⟩ := h id hid
    exact ⟨s, hacts.msgQs.of_ne hs (by rw [hp]; exact hne), hp⟩

/-- The tokens of a process stay where they are while others act on their own objects. -/
theorem tokens_of_other (h : Env.Tokens m p ⟨vars, k⟩ t adj) (hown : Owned m p ⟨vars, k⟩)
    (hacts : ActsOwn q k k') (hne : p ≠ q) : Env.Tokens m p ⟨vars, k'⟩ t adj := by
  cases m <;> simp only [Owned] at hown <;> simp only [Env.Tokens] at h ⊢
  case xchg | testXchg | mutex | semPosix => exact h
  case semPosixNamed =>
    obtain ⟨id, s, hid, hs, hv⟩ := h
    obtain ⟨s', hs', hp⟩ := hown id hid
    obtain rfl := Option.some.inj (hs.symm.trans hs')
    exact ⟨id, s, hid, hacts.sems.of_ne hs (by rw [hp]; exact hne), hv⟩
  case semSysv =>
    obtain ⟨id, s, hid, hs, hv⟩ := h
    obtain ⟨s', hs', hp⟩ := hown id hid
    obtain rfl := Option.some.inj (hs.symm.trans hs')
    exact ⟨id, s, hid, hacts.semSets.of_ne hs (by rw [hp]; exact hne), hv⟩
  case mqPosix =>
    obtain ⟨id, s, hid, hs, hv⟩ := h
    obtain ⟨s', hs', hp⟩ := hown id hid
    obtain rfl := Option.some.inj (hs.symm.trans hs')
    exact ⟨id, s, hid, hacts.mqs.of_ne hs (by rw [hp]; exact hne), hv⟩
  case mqSysv =>
    obtain ⟨id, s, hid, hs, hv⟩ := h
    obtain ⟨s', hs', hp⟩ := hown id hid
    obtain rfl := Option.some.inj (hs.symm.trans hs')
    exact ⟨id, s, hid, hacts.msgQs.of_ne hs (by rw [hp]; exact hne), hv⟩

/-- The lock of a process stays as it is while others act on their own objects. -/
theorem LockRep.of_other {o : Option T} (h : LockRep m p ⟨vars, k⟩ o)
    (hown : Owned m p ⟨vars, k⟩) (hacts : ActsOwn q k k') (hne : p ≠ q) :
    LockRep m p ⟨vars, k'⟩ o :=
  ⟨h.method, tokens_of_other h.tokens hown hacts hne, h.owner⟩

/-- A process in `cs_init` is not disturbed by others that act on their own objects. -/
theorem initInv_of_other {pc : InitPc} (h : InitInv m p pc ⟨vars, k⟩)
    (hown : Owned m p ⟨vars, k⟩) (hacts : ActsOwn q k k') (hne : p ≠ q) :
    InitInv m p pc ⟨vars, k'⟩ := by
  cases pc <;> simp only [InitInv] at h ⊢
  case done => exact h.of_other hown hacts hne
  case semUnlink | mqUnlink | mqSend | msgsnd =>
    exact ⟨h.1, h.2.1, tokens_of_other h.2.2 hown hacts hne⟩
  all_goals exact h

/-- A name bound to an own object stays bound to it while others act on their own objects. -/
theorem NameInv.of_other {pc : InitPc} (h : NameInv pc ⟨vars, k⟩)
    (hinit : InitInv m p pc ⟨vars, k⟩) (hown : Owned m p ⟨vars, k⟩) (hacts : ActsOwn q k k')
    (hne : p ≠ q) : NameInv pc ⟨vars, k'⟩ := by
  cases pc <;> simp only [NameInv] at h ⊢
  case semUnlink =>
    obtain ⟨-, rfl, -⟩ := hinit
    obtain ⟨id, hid, hname⟩ := h
    obtain ⟨s, hs, hp⟩ := hown id hid
    refine ⟨id, hid, ?_⟩
    rcases hacts.semNames SEM_NAME with heq | hother
    · rw [heq, hname]
    · exact absurd (hp.symm.trans (hother id hname s hs)) hne
  case mqUnlink =>
    obtain ⟨-, rfl, -⟩ := hinit
    obtain ⟨id, hid, hname⟩ := h
    obtain ⟨s, hs, hp⟩ := hown id hid
    refine ⟨id, hid, ?_⟩
    rcases hacts.mqNames MQ_NAME with heq | hother
    · rw [heq, hname]
    · exact absurd (hp.symm.trans (hother id hname s hs)) hne

/-- What holds of a process survives steps of others that act on their own objects. -/
theorem ProcInv.of_other (h : ProcInv m p k proc) (hacts : ActsOwn q k k') (hne : p ≠ q) :
    ProcInv m p k' proc := by
  unfold ProcInv at h ⊢
  split at h
  · trivial
  · trivial
  · obtain ⟨hinit, hown, hname, hloc⟩ := h
    exact ⟨initInv_of_other hinit hown hacts hne, hown.of_other hacts hne,
      hname.of_other hinit hown hacts hne, hloc⟩
  · obtain ⟨⟨o, hsim⟩, hown⟩ := h
    exact ⟨⟨o, hsim.rep.of_other hown hacts hne, hsim.holder, hsim.ok⟩, hown.of_other hacts hne⟩

/-! ## Steps of the process itself -/

/-- The object under the method's handle is the process's own. -/
theorem Owned.handleCreator_eq (h : Owned m p env)
    (hmeth : CsMethod.ofInt env.vars.csMethodUsed = some m)
    {c : P} (hc : handleCreator env = some c) : c = p := by
  have key : ∀ {O : Type _} (table : ℕ → Option O) (creator : O → P) (handle : Option ℕ),
      (∀ id, handle = some id → ∃ s, table id = some s ∧ creator s = p) →
      (handle.bind table).map creator = some c → c = p := by
    intro O table creator handle hown hc
    cases handle with
    | none => exact nomatch hc
    | some id =>
      obtain ⟨s, hs, hp⟩ := hown id rfl
      rw [Option.bind_some, hs, Option.map_some, Option.some.injEq] at hc
      exact hc.symm.trans hp
  simp only [handleCreator, hmeth] at hc
  cases m <;> simp only [reduceCtorEq] at hc <;> exact key _ _ _ h hc

/-- While its object exists, an own handle stays own through the process's own steps. -/
theorem Owned.of_tokens (h : Owned m p env) (hacts : ActsOwn p env.kernel env'.kernel)
    (hhandles : handles env'.vars = handles env.vars) (htok : env'.Tokens m p t adj) :
    Owned m p env' := by
  -- the object is as it was, or was written by `p`
  have key : ∀ {O : Type _} {creator : O → P} {table table' : ℕ → Option O} {id : ℕ} {s' : O},
      Kernel.OwnUpdate creator p table table' → (∃ s, table id = some s ∧ creator s = p) →
      table' id = some s' → ∃ s, table' id = some s ∧ creator s = p := by
    intro O creator table table' id s' hupd hold hs'
    rcases hupd id with heq | ⟨-, hown⟩
    · rw [heq]
      exact hold
    · exact ⟨s', hs', hown s' hs'⟩
  simp only [handles, Prod.mk.injEq] at hhandles
  obtain ⟨h₁, h₂, h₃, h₄⟩ := hhandles
  cases m <;> simp only [Owned] at h ⊢ <;> simp only [Env.Tokens] at htok
  case semPosixNamed =>
    obtain ⟨id', s', hid', hs', -⟩ := htok
    intro id hid
    obtain rfl := Option.some.inj (hid'.symm.trans hid)
    exact key hacts.sems (h _ (h₁ ▸ hid)) hs'
  case semSysv =>
    obtain ⟨id', s', hid', hs', -⟩ := htok
    intro id hid
    obtain rfl := Option.some.inj (hid'.symm.trans hid)
    exact key hacts.semSets (h _ (h₂ ▸ hid)) hs'
  case mqPosix =>
    obtain ⟨id', s', hid', hs', -⟩ := htok
    intro id hid
    obtain rfl := Option.some.inj (hid'.symm.trans hid)
    exact key hacts.mqs (h _ (h₃ ▸ hid)) hs'
  case mqSysv =>
    obtain ⟨id', s', hid', hs', -⟩ := htok
    intro id hid
    obtain rfl := Option.some.inj (hid'.symm.trans hid)
    exact key hacts.msgQs (h _ (h₄ ▸ hid)) hs'

/-- A call on a handle acts on own objects if the call on the named object does. -/
theorem onHandle_own {h : Option ℕ} {call : ℕ → Kernel P → Option (Bool × Kernel P)}
    (hcall : ∀ id k', h = some id → call id env.kernel = some (ok, k') → ActsOwn p env.kernel k')
    (hs : env.onHandle h call = some (ok, env')) :
    ActsOwn p env.kernel env'.kernel ∧ handles env'.vars = handles env.vars := by
  refine ⟨?_, by rw [Env.onHandle_vars hs]⟩
  rcases Env.onHandle_cases hs with ⟨-, -, rfl⟩ | ⟨id, k', hid, hk, rfl⟩
  · exact .refl p _
  · exact hcall id k' hid hk

/-- `mq_send` on the own queue. -/
theorem mqSend_own (h : Owned .mqPosix p env) (hs : env.mqSend = some (ok, env')) :
    ActsOwn p env.kernel env'.kernel ∧ handles env'.vars = handles env.vars := by
  refine onHandle_own (fun id k' hid hk => ?_) hs
  obtain ⟨q, hq, hp⟩ := h id hid
  exact .mqSend (by rw [hq]; exact .some hp) hk

/-- `msgsnd` on the own queue. -/
theorem msgsnd_own (h : Owned .mqSysv p env) (hs : env.msgsnd = some (ok, env')) :
    ActsOwn p env.kernel env'.kernel ∧ handles env'.vars = handles env.vars := by
  refine onHandle_own (fun id k' hid hk => ?_) hs
  obtain ⟨q, hq, hp⟩ := h id hid
  exact .msgsnd (by rw [hq]; exact .some hp) hk

variable [DecidableEq P]

/-- The OS call of `cs_enter` acts on the own object. -/
theorem enterCall_own (hm : m.isKernel = true) (h : Owned m p env)
    (hs : env.enterCall m p i = some (ok, env')) :
    ActsOwn p env.kernel env'.kernel ∧ handles env'.vars = handles env.vars := by
  cases m <;> simp only [CsMethod.isKernel, Bool.false_eq_true] at hm <;>
    simp only [Env.enterCall] at hs
  case semPosixNamed =>
    refine onHandle_own (fun id k' hid hk => ?_) hs
    obtain ⟨s, hsem, hp⟩ := h id hid
    exact .semWait (by rw [hsem]; exact .some hp) hk
  case semSysv =>
    refine onHandle_own (fun id k' hid hk => ?_) hs
    obtain ⟨s, hsem, hp⟩ := h id hid
    exact .semop (by rw [hsem]; exact .some hp) hk
  case mqPosix =>
    refine onHandle_own (fun id k' hid hk => ?_) hs
    obtain ⟨q, hq, hp⟩ := h id hid
    exact .mqReceive (by rw [hq]; exact .some hp) hk
  case mqSysv =>
    rcases Env.msgrcv_cases hs with ⟨-, -, rfl⟩ | ⟨id, r, k', hid, hk, hr⟩
    · exact ⟨.refl p _, rfl⟩
    · obtain ⟨q, hq, hp⟩ := h id hid
      have hacts : ActsOwn p env.kernel k' := .msgrcv (by rw [hq]; exact .some hp) hk
      -- the message type is stored in a variable, not in a handle
      rcases hr with ⟨-, -, rfl⟩ | ⟨_, -, -, rfl⟩
      · exact ⟨hacts, rfl⟩
      · exact ⟨hacts, rfl⟩

variable [DecidableEq T]

/-- The OS call of `cs_leave` acts on the own object. -/
theorem leaveCall_own (hm : m.isKernel = true) (h : Owned m p env)
    (hs : env.leaveCall m p i = some (ok, env')) :
    ActsOwn p env.kernel env'.kernel ∧ handles env'.vars = handles env.vars := by
  cases m <;> simp only [CsMethod.isKernel, Bool.false_eq_true] at hm <;>
    simp only [Env.leaveCall] at hs
  case semPosixNamed =>
    refine onHandle_own (fun id k' hid hk => ?_) hs
    obtain ⟨s, hsem, hp⟩ := h id hid
    exact .semPost (by rw [hsem]; exact .some hp) hk
  case semSysv =>
    refine onHandle_own (fun id k' hid hk => ?_) hs
    obtain ⟨s, hsem, hp⟩ := h id hid
    exact .semop (by rw [hsem]; exact .some hp) hk
  case mqPosix => exact mqSend_own h hs
  case mqSysv => exact msgsnd_own h hs

/-- The methods with a kernel object have an OS call. -/
theorem isCall_of_isKernel (hm : m.isKernel = true) : m.isCall = true := by
  cases m <;> first | rfl | exact nomatch hm

/-- A step of a thread acts on the own object. -/
theorem threadStep_own {pc pc' : ThreadPc} {e : Option (CsEvent T)} (hm : m.isKernel = true)
    (hmeth : CsMethod.ofInt env.vars.csMethodUsed = some m) (h : Owned m p env)
    (hs : threadStep busyWaitYields p i false env pc = some (e, env', pc')) :
    ActsOwn p env.kernel env'.kernel ∧ handles env'.vars = handles env.vars := by
  have hcall := isCall_of_isKernel hm
  cases pc with
  | outside | inside =>
    simp only [threadStep, Option.some.injEq, Prod.mk.injEq] at hs
    obtain ⟨-, rfl, -⟩ := hs
    exact ⟨.refl p _, rfl⟩
  | entering epc =>
    by_cases hret : ∃ ok, epc = .ret ok
    · obtain ⟨ok, rfl⟩ := hret
      simp only [threadStep, Option.some.injEq, Prod.mk.injEq] at hs
      obtain ⟨-, rfl, -⟩ := hs
      exact ⟨.refl p _, rfl⟩
    · rw [not_exists] at hret
      simp only [threadStep_entering hret, Option.map_eq_some_iff, Prod.exists,
        Prod.mk.injEq] at hs
      obtain ⟨env₁, pc₁, hstep, -, rfl, -⟩ := hs
      -- the one step that is no return is the OS call
      obtain ⟨-, ok, -, henter⟩ := csEnterStep_isCall hcall hmeth hstep
      simp only [Bool.false_eq_true, if_false] at henter
      exact enterCall_own hm h henter
  | leaving =>
    simp only [threadStep, csLeave_isCall hcall hmeth, Bool.false_eq_true, if_false,
      Option.map_eq_some_iff, Prod.exists, Prod.mk.injEq] at hs
    obtain ⟨ok, env₁, hleave, -, rfl, -⟩ := hs
    exact leaveCall_own hm h hleave

omit [DecidableEq P] [DecidableEq T] in
/-- `sem_unlink` of the own semaphore. -/
theorem semUnlink_own {id : ℕ} (h : Owned (T := T) .semPosixNamed p env)
    (hid : env.vars.csNamedSem = some id) (hbound : env.kernel.semNames SEM_NAME = some id)
    (fail : Bool) : ActsOwn p env.kernel
      (if fail then env.kernel else (env.kernel.semUnlink SEM_NAME).2) := by
  split
  · exact .refl p _
  · refine .semUnlink fun id' hid' => ?_
    obtain rfl := Option.some.inj (hbound.symm.trans hid')
    obtain ⟨s, hs, hp⟩ := h id hid
    rw [hs]
    exact .some hp

omit [DecidableEq P] [DecidableEq T] in
/-- `mq_unlink` of the own queue. -/
theorem mqUnlink_own {id : ℕ} (h : Owned (T := T) .mqPosix p env)
    (hid : env.vars.messageQueue = some id) (hbound : env.kernel.mqNames MQ_NAME = some id)
    (hr : (if fail then (false, env.kernel) else env.kernel.mqUnlink MQ_NAME) = (ok, k)) :
    ActsOwn p env.kernel k := by
  split at hr
  · obtain ⟨-, rfl⟩ := Prod.mk.inj hr
    exact .refl p _
  · obtain rfl : (env.kernel.mqUnlink MQ_NAME).2 = k := by rw [hr]
    refine .mqUnlink fun id' hid' => ?_
    obtain rfl := Option.some.inj (hbound.symm.trans hid')
    obtain ⟨q, hq, hp⟩ := h id hid
    rw [hq]
    exact .some hp

omit [DecidableEq P] [DecidableEq T] in
/-- A first send that may fail before anything is done. -/
theorem firstSend_own {send : Option (Bool × Env P T)}
    (hown : ∀ ok env', send = some (ok, env') →
      ActsOwn p env.kernel env'.kernel ∧ handles env'.vars = handles env.vars)
    (hsend : (if fail then some (false, env) else send) = some (ok, env')) :
    ActsOwn p env.kernel env'.kernel ∧ handles env'.vars = handles env.vars := by
  split at hsend
  · simp only [Option.some.injEq, Prod.mk.injEq] at hsend
    obtain ⟨-, rfl⟩ := hsend
    exact ⟨.refl p _, rfl⟩
  · exact hown ok env' hsend

omit [DecidableEq P] [DecidableEq T] in
/-- A step of `cs_init` acts on own objects: those that it creates, and those that its handles
    name. -/
theorem csInitStep_own {pc pc' : InitPc} (hm : m.isKernel = true) (h : InitInv m p pc env)
    (hown : Owned m p env) (hname : NameInv pc env)
    (hs : csInitStep m.toInt p fail fresh pc env = some (pc', env')) :
    ActsOwn p env.kernel env'.kernel ∧ (Owned m p env' ∨ ∃ err, pc' = .exited err) ∧
      NameInv pc' env' := by
  -- while its object exists, the handle stays own
  have hlock : m.isLock = true := by cases m <;> first | rfl | cases hm
  have hinv' := csInitStep_inv hlock h hs
  cases pc <;> simp only [csInitStep, reduceCtorEq] at hs <;> simp only [InitInv] at h
  case start =>
    rw [CsMethod.ofInt_toInt] at hs
    cases m <;> simp only [CsMethod.isKernel, Bool.false_eq_true] at hm <;>
      simp only [Option.some.injEq, Prod.mk.injEq] at hs <;> obtain ⟨rfl, rfl⟩ := hs <;>
      exact ⟨.refl p _, .inl hown, trivial⟩
  case pthreadMutexInit | semInit =>
    obtain ⟨-, rfl⟩ := h
    cases hm
  case semOpen =>
    obtain ⟨hmeth, rfl⟩ := h
    simp only [Option.map_eq_some_iff, Prod.exists, Prod.mk.injEq] at hs
    obtain ⟨hd, k, hopen, rfl, rfl⟩ := hs
    split at hopen
    · simp only [Option.some.injEq, Prod.mk.injEq] at hopen
      obtain ⟨rfl, rfl⟩ := hopen
      exact ⟨.refl p _, .inl (by simp [Owned]), trivial⟩
    · rcases Kernel.semOpen_excl_cases hopen with ⟨rfl, rfl, -⟩ | ⟨rfl, hfree, hnew, rfl⟩
      · exact ⟨.refl p _, .inl (by simp [Owned]), trivial⟩
      · -- the new object is own, and the name was bound to none
        have hset : ActsOwn p env.kernel (env.kernel.setSem fresh ⟨p, 1⟩) :=
          .setSem (by rw [hnew]; exact .none) rfl
        refine ⟨hset.bindSem fun id hid => ?_, .inl ?_, fresh, rfl, by simp [Kernel.bindSem]⟩
        · rw [hfree] at hid
          cases hid
        · intro id hid
          obtain rfl := Option.some.inj hid
          exact ⟨_, Kernel.setSem_sems_self .., rfl⟩
  case semUnlink =>
    obtain ⟨hmeth, rfl, -⟩ := h
    obtain ⟨id, hid, hbound⟩ := hname
    simp only [initDone, Option.some.injEq, Prod.mk.injEq] at hs
    obtain ⟨rfl, rfl⟩ := hs
    have hacts := semUnlink_own hown hid hbound fail
    exact ⟨hacts, .inl (hown.of_tokens hacts rfl hinv'.tokens), trivial⟩
  case semget =>
    obtain ⟨hmeth, rfl⟩ := h
    simp only [Option.map_eq_some_iff, Prod.exists, Prod.mk.injEq] at hs
    obtain ⟨hd, k, hget, rfl, rfl⟩ := hs
    split at hget
    · simp only [Option.some.injEq, Prod.mk.injEq] at hget
      obtain ⟨rfl, rfl⟩ := hget
      exact ⟨.refl p _, .inl (by simp [Owned]), trivial⟩
    · obtain ⟨rfl, hnew, rfl⟩ := Kernel.semgetPrivate_cases hget
      refine ⟨.setSemSet (by rw [hnew]; exact .none) (.some rfl), .inl ?_, trivial⟩
      intro id hid
      obtain rfl := Option.some.inj hid
      exact ⟨_, Kernel.setSemSet_semSets_self .., rfl⟩
  case semctl =>
    obtain ⟨hmeth, rfl⟩ := h
    split at hs
    · simp only [Option.some.injEq, Prod.mk.injEq] at hs
      obtain ⟨rfl, rfl⟩ := hs
      exact ⟨.refl p _, .inl hown, trivial⟩
    · rename_i id hid
      obtain ⟨s, hset, hp⟩ := hown id hid
      have hacts : ActsOwn p env.kernel (env.kernel.semctlSetval id 1).2 :=
        .semctlSetval (by rw [hset]; exact .some hp) 1
      cases fail
      · simp only [Bool.false_eq_true, if_false, Kernel.semctlSetval, hset, if_true, initDone,
          Option.some.injEq, Prod.mk.injEq] at hs hacts
        obtain ⟨rfl, rfl⟩ := hs
        exact ⟨hacts, .inl (hown.of_tokens hacts rfl hinv'.tokens), trivial⟩
      · simp only [if_true, Bool.false_eq_true, if_false, Option.some.injEq, Prod.mk.injEq] at hs
        obtain ⟨rfl, rfl⟩ := hs
        exact ⟨.refl p _, .inl hown, trivial⟩
  case mqOpen =>
    obtain ⟨hmeth, rfl⟩ := h
    simp only [Option.map_eq_some_iff, Prod.exists, Prod.mk.injEq] at hs
    obtain ⟨hd, k, hopen, rfl, rfl⟩ := hs
    split at hopen
    · simp only [Option.some.injEq, Prod.mk.injEq] at hopen
      obtain ⟨rfl, rfl⟩ := hopen
      exact ⟨.refl p _, .inl (by simp [Owned]), trivial⟩
    · rcases Kernel.mqOpen_cases hopen with ⟨rfl, rfl, -⟩ | ⟨rfl, hfree, hnew, rfl⟩
      · exact ⟨.refl p _, .inl (by simp [Owned]), trivial⟩
      · have hset : ActsOwn p env.kernel (env.kernel.setMq fresh ⟨p, 1, MESSAGE_SIZE, []⟩) :=
          .setMq (by rw [hnew]; exact .none) rfl
        refine ⟨hset.bindMq fun id hid => ?_, .inl ?_, fresh, rfl, by simp [Kernel.bindMq]⟩
        · rw [hfree] at hid
          cases hid
        · intro id hid
          obtain rfl := Option.some.inj hid
          exact ⟨_, Kernel.setMq_mqs_self .., rfl⟩
  case mqUnlink =>
    obtain ⟨hmeth, rfl, -⟩ := h
    obtain ⟨id, hid, hbound⟩ := hname
    simp only [Option.some.injEq, Prod.mk.injEq] at hs
    generalize hr : (if fail then (false, env.kernel) else env.kernel.mqUnlink MQ_NAME) = r at hs
    obtain ⟨ok, k⟩ := r
    obtain ⟨rfl, rfl⟩ := hs
    have hacts := mqUnlink_own hown hid hbound hr
    cases ok
    · exact ⟨hacts, .inr ⟨_, rfl⟩, trivial⟩
    · exact ⟨hacts, .inl (hown.of_tokens hacts rfl hinv'.2.2), trivial⟩
  case mqSend =>
    obtain ⟨hmeth, rfl, -⟩ := h
    simp only [Option.map_eq_some_iff, Prod.exists] at hs
    obtain ⟨ok, env₁, hsend, hs⟩ := hs
    have hacts := firstSend_own (fun _ _ => mqSend_own hown) hsend
    cases ok <;>
      simp only [Bool.false_eq_true, if_false, if_true, initDone, Prod.mk.injEq] at hs <;>
      obtain ⟨rfl, rfl⟩ := hs
    · exact ⟨hacts.1, .inr ⟨_, rfl⟩, trivial⟩
    · exact ⟨hacts.1, .inl (hown.of_tokens hacts.1 hacts.2 hinv'.tokens), trivial⟩
  case msgget =>
    obtain ⟨hmeth, rfl, -⟩ := h
    simp only [Option.map_eq_some_iff, Prod.exists, Prod.mk.injEq] at hs
    obtain ⟨hd, k, hget, rfl, rfl⟩ := hs
    split at hget
    · simp only [Option.some.injEq, Prod.mk.injEq] at hget
      obtain ⟨rfl, rfl⟩ := hget
      exact ⟨.refl p _, .inl (by simp [Owned]), trivial⟩
    · obtain ⟨rfl, hnew, rfl⟩ := Kernel.msggetPrivate_cases hget
      refine ⟨.setMsgQ (by rw [hnew]; exact .none) (.some rfl), .inl ?_, trivial⟩
      intro id hid
      obtain rfl := Option.some.inj hid
      exact ⟨_, Kernel.setMsgQ_msgQs_self .., rfl⟩
  case msgsnd =>
    obtain ⟨hmeth, rfl, -⟩ := h
    simp only [Option.map_eq_some_iff, Prod.exists] at hs
    obtain ⟨ok, env₁, hsend, hs⟩ := hs
    have hacts := firstSend_own (fun _ _ => msgsnd_own hown) hsend
    cases ok <;>
      simp only [Bool.false_eq_true, if_false, if_true, initDone, Prod.mk.injEq] at hs <;>
      obtain ⟨rfl, rfl⟩ := hs
    · exact ⟨hacts.1, .inr ⟨_, rfl⟩, trivial⟩
    · exact ⟨hacts.1, .inl (hown.of_tokens hacts.1 hacts.2 hinv'.tokens), trivial⟩

omit [DecidableEq P] [DecidableEq T] in
/-- `cs_destroy` acts on the own object. -/
theorem csDestroy_own (hm : m.isKernel = true)
    (hmeth : CsMethod.ofInt env.vars.csMethodUsed = some m) (h : Owned m p env) :
    ActsOwn p env.kernel (csDestroy fail env).2.kernel := by
  unfold csDestroy
  -- without an allocated variable nothing is removed
  by_cases halloc : env.vars.csVarAllocated = false
  · simp only [halloc, if_true]
    exact .refl p _
  · simp only [halloc, hmeth]
    cases m <;> simp only [CsMethod.isKernel, Bool.false_eq_true] at hm
    -- closing the semaphore leaves the objects of the kernel as they are
    case semPosixNamed =>
      cases env.vars.csNamedSem <;> exact .refl p _
    case semSysv =>
      cases hid : env.vars.sysvSemid with
      | none => exact .refl p _
      | some id =>
        -- the set was created by this process
        obtain ⟨s, hs, hp⟩ := h id hid
        cases fail
        · exact .semctlRmid (by rw [hs]; exact .some hp)
        · exact .refl p _
    case mqPosix => exact .refl p _
    case mqSysv =>
      cases hid : env.vars.mqSysv with
      | none => exact .refl p _
      | some id =>
        -- the queue was created by this process
        obtain ⟨s, hs, hp⟩ := h id hid
        cases fail
        · exact .msgctlRmid (by rw [hs]; exact .some hp)
        · exact .refl p _

omit [DecidableEq P] [DecidableEq T] in
/-- In `cs_init`, the object that is operated on is the own one. -/
theorem InitInv.usedObject_eq {pc : InitPc} {fail : Bool} {fresh : ℕ} {c : P}
    (h : InitInv m p pc ⟨proc.vars, k⟩) (hown : Owned m p ⟨proc.vars, k⟩)
    (hname : NameInv pc ⟨proc.vars, k⟩) (hpc : proc.pc = .init pc)
    (hc : usedObject k proc (.init fail fresh) = some c) : c = p := by
  simp only [usedObject, hpc] at hc
  cases pc <;> simp only [reduceCtorEq] at hc
  -- the name that is unlinked is bound to the object that was just created
  case semUnlink =>
    obtain ⟨-, rfl, -⟩ := h
    obtain ⟨id, hid, hbound⟩ := hname
    obtain ⟨s, hs, hp⟩ := hown id hid
    dsimp only at hbound hs
    simp only [hbound, Option.bind_some, hs, Option.map_some, Option.some.injEq] at hc
    exact hc.symm.trans hp
  case mqUnlink =>
    obtain ⟨-, rfl, -⟩ := h
    obtain ⟨id, hid, hbound⟩ := hname
    obtain ⟨s, hs, hp⟩ := hown id hid
    dsimp only at hbound hs
    simp only [hbound, Option.bind_some, hs, Option.map_some, Option.some.injEq] at hc
    exact hc.symm.trans hp
  -- the other calls use the handle
  case semctl => exact hown.handleCreator_eq h.1 hc
  case mqSend => exact hown.handleCreator_eq h.1 hc
  case msgsnd => exact hown.handleCreator_eq h.1 hc

variable [Fintype T]

/-- A step of `cs_init`. -/
theorem procStep_init_own {fail : Bool} {fresh : ℕ} (hm : m.isKernel = true)
    (h : ProcInv m p k proc)
    (hs : procStep m busyWaitYields p (.init fail fresh) k proc = some (k', proc')) :
    ActsOwn p k k' ∧ ProcInv m p k' proc' ∧
      ∀ c, usedObject k proc (.init fail fresh) = some c → c = p := by
  have hlock : m.isLock = true := by cases m <;> first | rfl | exact nomatch hm
  cases hpc : proc.pc with
  | running | ended => simp [procStep, hpc] at hs
  | init pc =>
    simp only [procStep, hpc, Option.map_eq_some_iff, Prod.exists, Prod.mk.injEq] at hs
    obtain ⟨pc', env', hstep, rfl, rfl⟩ := hs
    have hne : ∀ err, pc ≠ .exited err := by
      rintro err rfl
      exact nomatch hstep
    have hproc : InitInv m p pc ⟨proc.vars, k⟩ ∧ Owned m p ⟨proc.vars, k⟩ ∧
        NameInv pc ⟨proc.vars, k⟩ ∧ proc.loc = fun _ => .outside := by
      simp only [ProcInv, hpc] at h
      exact h
    obtain ⟨hinit, hown, hname, hloc⟩ := hproc
    obtain ⟨hacts, hown', hname'⟩ := csInitStep_own hm hinit hown hname hstep
    have hinit' := csInitStep_inv hlock hinit hstep
    refine ⟨hacts, ?_, fun c hc => hinit.usedObject_eq hown hname hpc hc⟩
    rcases hown' with hown' | ⟨err, rfl⟩
    · by_cases hdone : pc' = .done
      · -- `cs_init` is over: all threads are outside of the free lock
        subst hdone
        simp only [ProcInv, if_true, hloc]
        exact ⟨⟨none, .allOutside hinit'⟩, hown'⟩
      · simp only [ProcInv, hdone, if_false]
        split
        · trivial
        · trivial
        · rename_i hpc'
          obtain rfl := ProcPc.init.inj hpc'
          exact ⟨hinit', hown', hname', hloc⟩
        · rename_i hpc'
          exact nomatch hpc'
    · -- after `exit` nothing is required
      trivial

/-- A step of a thread. -/
theorem procStep_thread_own (hm : m.isKernel = true) (h : ProcInv m p k proc)
    (hs : procStep m busyWaitYields p (.thread i) k proc = some (k', proc')) :
    ActsOwn p k k' ∧ ProcInv m p k' proc' ∧
      ∀ c, usedObject k proc (.thread i) = some c → c = p := by
  -- such a method locks, so that the simulation of the lock applies
  have hlock : m.isLock = true := by cases m <;> first | rfl | cases hm
  cases hpc : proc.pc with
  | init | ended => simp [procStep, hpc] at hs
  | running =>
    simp only [ProcInv, hpc] at h
    obtain ⟨⟨o, hsim⟩, hown⟩ := h
    have hmeth := hsim.rep.method
    simp only [procStep, hpc, Option.map_eq_some_iff, Prod.exists, Prod.mk.injEq] at hs
    obtain ⟨e, env', pc', hstep, rfl, rfl⟩ := hs
    obtain ⟨hacts, hhandles⟩ := threadStep_own hm hmeth hown hstep
    have hlockStep : lockStep busyWaitYields p i () ⟨proc.vars, k⟩ (proc.loc i) =
        some (e.bind CsEvent.toLock, env', pc') := by
      simp [lockStep, hstep]
    have hsim' : ∃ o', LockSim m p ⟨env', Function.update proc.loc i pc'⟩ o' := by
      rcases lockStep_sim hlock hsim hlockStep with ⟨-, h'⟩ | ⟨-, -, h'⟩ | ⟨-, -, h'⟩ <;>
        exact ⟨_, h'⟩
    -- the objects that the handles stand for stay those of the process
    refine ⟨hacts, ?_, fun c hc => ?_⟩
    · obtain ⟨o', hsim'⟩ := hsim'
      simp only [ProcInv]
      exact ⟨⟨o', hsim'⟩, hown.of_tokens hacts hhandles hsim'.rep.tokens⟩
    · simp only [usedObject, hpc] at hc
      -- `cs_enter` and `cs_leave` use the object of the handle, the other steps none
      split at hc
      · exact hown.handleCreator_eq hmeth hc
      · exact hown.handleCreator_eq hmeth hc
      all_goals cases hc

/-- `cs_destroy`. -/
theorem procStep_destroy_own {fail : Bool} (hm : m.isKernel = true) (h : ProcInv m p k proc)
    (hs : procStep m busyWaitYields p (.destroy fail) k proc = some (k', proc')) :
    ActsOwn p k k' ∧ ProcInv m p k' proc' ∧
      ∀ c, usedObject k proc (.destroy fail) = some c → c = p := by
  cases hpc : proc.pc with
  | init | ended => simp [procStep, hpc] at hs
  | running =>
    simp only [ProcInv, hpc] at h
    obtain ⟨⟨o, hsim⟩, hown⟩ := h
    have hmeth := hsim.rep.method
    simp only [procStep, hpc, Option.ite_none_right_eq_some, Option.some.injEq,
      Prod.mk.injEq] at hs
    obtain ⟨-, rfl, rfl⟩ := hs
    refine ⟨csDestroy_own hm hmeth hown, trivial, fun c hc => ?_⟩
    simp only [usedObject, hpc] at hc
    exact hown.handleCreator_eq hmeth hc

/-- One step of a process acts on its own objects only, keeps what holds of the process, and the
    object it operates on, if any, is its own. -/
theorem procStep_own {a : ProcAction T} (hm : m.isKernel = true) (h : ProcInv m p k proc)
    (hs : procStep m busyWaitYields p a k proc = some (k', proc')) :
    ActsOwn p k k' ∧ ProcInv m p k' proc' ∧ ∀ c, usedObject k proc a = some c → c = p := by
  cases a with
  | init fail fresh => exact procStep_init_own hm h hs
  | thread i => exact procStep_thread_own hm h hs
  | destroy fail => exact procStep_destroy_own hm h hs

end Process

/-! ## All processes -/

variable {P : Type*} {T : P → Type*} [DecidableEq P] [∀ p, DecidableEq (T p)] [∀ p, Fintype (T p)]
  {m : P → CsMethod} {busyWaitYields : P → Bool} {w w' : World P T}

/-- What holds of every process. -/
def WorldInv (m : P → CsMethod) (w : World P T) : Prop :=
  ∀ p, ProcInv (m p) p w.kernel (w.procs p)

/-- Every step keeps what holds of every process, and uses an own object if any. -/
theorem worldMachine_inv {a : Σ p, ProcAction (T p)} {e : Option (ObjectUse P)}
    (hm : ∀ p, (m p).isKernel = true) (h : WorldInv m w)
    (hs : (worldMachine m busyWaitYields).step w a = some (e, w')) :
    WorldInv m w' ∧ ∀ x ∈ e.toList, x.creator = x.user := by
  obtain ⟨p, a⟩ := a
  simp only [worldMachine, Option.map_eq_some_iff, Prod.exists, Prod.mk.injEq] at hs
  obtain ⟨k', proc', hstep, rfl, rfl⟩ := hs
  obtain ⟨hacts, hproc, hused⟩ := procStep_own (hm p) (h p) hstep
  constructor
  · intro q
    by_cases hq : q = p
    · subst hq
      simpa using hproc
    · simpa [hq] using (h q).of_other hacts hq
  · intro x hx
    simp only [Option.mem_toList, Option.map_eq_some_iff] at hx
    obtain ⟨c, hc, rfl⟩ := hx
    exact hused c hc

omit [DecidableEq P] [∀ p, DecidableEq (T p)] [∀ p, Fintype (T p)] in
/-- Before any process has taken a step. -/
theorem initialWorld_inv (hm : ∀ p, (m p).isKernel = true) (k : Kernel P) :
    WorldInv m (initialWorld T k) := by
  intro p
  refine ⟨trivial, ?_, trivial, rfl⟩
  have hp := hm p
  cases hmp : m p <;> rw [hmp] at hp <;> first
    | exact fun _ hid => absurd hid (Option.some_ne_none _).symm
    | exact nomatch hp

omit [DecidableEq P] in
/-- A process that comes too late for a name fails in `cs_init`. -/
theorem late_init_exits {m : CsMethod} {p : P} {T : Type*} {pc' : InitPc} {env env' : Env P T}
    {fail : Bool} {fresh : ℕ} :
    (env.kernel.semNames SEM_NAME ≠ none →
      csInitStep m.toInt p fail fresh .semOpen env = some (pc', env') → pc' = .exited "sem_open") ∧
    (env.kernel.mqNames MQ_NAME ≠ none →
      csInitStep m.toInt p fail fresh .mqOpen env = some (pc', env') →
        pc' = .exited "mq_open") := by
  constructor
  · intro hbound hs
    simp only [csInitStep, Option.map_eq_some_iff, Prod.exists, Prod.mk.injEq] at hs
    obtain ⟨hd, k, hopen, rfl, -⟩ := hs
    -- the call fails, or finds the name bound
    have hnone : hd = none := by
      split at hopen
      · exact (Prod.mk.inj (Option.some.inj hopen)).1.symm
      · rcases Kernel.semOpen_excl_cases hopen with ⟨hd', -, -⟩ | ⟨-, hfree, -, -⟩
        · exact hd'
        · exact absurd hfree hbound
    rw [hnone, if_pos rfl]
  · intro hbound hs
    simp only [csInitStep, Option.map_eq_some_iff, Prod.exists, Prod.mk.injEq] at hs
    obtain ⟨hd, k, hopen, rfl, -⟩ := hs
    have hnone : hd = none := by
      split at hopen
      · exact (Prod.mk.inj (Option.some.inj hopen)).1.symm
      · rcases Kernel.mqOpen_cases hopen with ⟨hd', -, -⟩ | ⟨-, hfree, -, -⟩
        · exact hd'
        · exact absurd hfree hbound
    rw [hnone, if_pos rfl]

/-- A process is in `cs_init`, before it opens a name that is bound. -/
def LateForName (w : World P T) (p : P) : Prop :=
  ((w.procs p).pc = .init .semOpen ∧ w.kernel.semNames SEM_NAME ≠ none) ∨
    ((w.procs p).pc = .init .mqOpen ∧ w.kernel.mqNames MQ_NAME ≠ none)

/-- The step of a process that comes too late for a name ends it. -/
theorem late_step_exits {p : P} {a : ProcAction (T p)} {e : Option (ObjectUse P)}
    (hlate : LateForName w p)
    (hs : (worldMachine m busyWaitYields).step w ⟨p, a⟩ = some (e, w')) :
    ∃ err, (w'.procs p).pc = .init (.exited err) := by
  simp only [worldMachine, Option.map_eq_some_iff, Prod.exists, Prod.mk.injEq] at hs
  obtain ⟨k', proc', hstep, -, rfl⟩ := hs
  simp only [Function.update_self]
  rcases hlate with ⟨hpc, hbound⟩ | ⟨hpc, hbound⟩ <;> cases a <;>
    simp only [procStep, hpc, reduceCtorEq, Option.map_eq_some_iff, Prod.exists,
      Prod.mk.injEq] at hstep <;> obtain ⟨pc', env', hinit, -, rfl⟩ := hstep
  · obtain rfl := late_init_exits.1 hbound hinit
    exact ⟨_, rfl⟩
  · obtain rfl := late_init_exits.2 hbound hinit
    exact ⟨_, rfl⟩

/-! ## Main result -/

/-- Any number of processes, each with any number of threads and a method that keeps its token in a
    kernel object, on any kernel: every object that a process operates on, unlinks or removes was
    created by that process; in every process that got past `cs_init` and not yet to `cs_destroy`
    the lock and its token are safe; and a process that comes too late for a name fails in
    `cs_init`. -/
theorem processes_isolated (P : Type*) [DecidableEq P] (n : P → ℕ) (m : P → CsMethod)
    (hm : ∀ p, (m p).isKernel = true) (busyWaitYields : P → Bool) (k : Kernel P)
    (tr : List (ObjectUse P)) (w : World P fun p => Fin (n p))
    (hrun : (worldMachine m busyWaitYields).Run (initialWorld _ k) tr w) :
    (∀ x ∈ tr, x.creator = x.user) ∧
    (∀ p, (w.procs p).pc = .running →
      LockSafe (m p) p ⟨⟨(w.procs p).vars, w.kernel⟩, (w.procs p).loc⟩) ∧
    ∀ p a e w', LateForName w p →
      (worldMachine m busyWaitYields).step w ⟨p, a⟩ = some (e, w') →
      ∃ err, (w'.procs p).pc = .init (.exited err) := by
  refine ⟨?_, fun p hp => ?_, fun p a e w' hlate hs => late_step_exits hlate hs⟩
  · exact hrun.forall_events (I := WorldInv m) (fun _ _ _ _ hI hs => worldMachine_inv hm hI hs)
      (initialWorld_inv hm k)
  · have hinv : WorldInv m w := hrun.invariant (I := WorldInv m)
      (fun _ _ _ _ hI hs => (worldMachine_inv hm hI hs).1) (initialWorld_inv hm k)
    have hproc := hinv p
    simp only [ProcInv, hp] at hproc
    obtain ⟨⟨o, hsim⟩, -⟩ := hproc
    have hlock : (m p).isLock = true := by
      have hmp := hm p
      cases hc : m p <;> rw [hc] at hmp <;> first | rfl | exact nomatch hmp
    exact hsim.safe hlock

/-- Two processes race for the name of the semaphore: one opens it, the other one exits, and then
    a thread of the first gets inside. -/
theorem processes_isolated_race :
    ∃ w, (worldMachine (P := Bool) (T := fun _ => Fin 2) (fun _ => .semPosixNamed)
      fun _ => false).Run (initialWorld _ .empty) [⟨false, false⟩, ⟨false, false⟩] w ∧
      (w.procs true).pc = .init (.exited "sem_open") ∧
      LockSafe .semPosixNamed false ⟨⟨(w.procs false).vars, w.kernel⟩, (w.procs false).loc⟩ := by
  have hrun := Machine.Run.of_exec (M := worldMachine (P := Bool) (T := fun _ => Fin 2)
      (fun _ => .semPosixNamed) fun _ => false) (s := initialWorld _ .empty)
    [⟨false, .init false 0⟩, ⟨true, .init false 0⟩, ⟨false, .init false 7⟩, ⟨true, .init false 8⟩,
      ⟨false, .init false 0⟩, ⟨false, .thread 1⟩, ⟨false, .thread 1⟩, ⟨false, .thread 1⟩] rfl
  exact ⟨_, hrun, rfl, (processes_isolated Bool (fun _ => 2) _ (fun _ => rfl) _ _ _ _ hrun).2.1
    false rfl⟩

end Everything
