import OsSamples.Native.EverythingLife
import OsSamples.Spec.EverythingLock

/-!
# The resources of a process that uses `everything.h`

`Owes tr k o` says what a process with the events `tr` has left in the kernel `k`: nothing, or one
resource.  Along a run this is what `cs_destroy` is going to remove, except after a failed
`semctl` or `msgsnd` of `cs_init`: the object exists then, and `cs_destroy` does nothing.

## Key results

- `csInitStep_log`, `csDestroy_some`, `threadStep_calm`: what a step does to the resources
- `released_iff`: exactly the failures of these two calls leave a resource behind
-/

namespace Everything

open Kernel (SameResources)

variable {P T : Type*} {p : P} {i : T} {env env' : Env P T} {k k' : Kernel P} {n : ℤ}
  {fail : Bool} {fresh : ℕ} {busyWaitYields : Bool} {tr : List ResourceEvent} {r : Resource}
  {o : Option Resource}

/-! ## What is left -/

/-- A resource was created and is there, and no call that was to remove it has failed. -/
def Left (tr : List ResourceEvent) (k : Kernel P) (r : Resource) : Prop :=
  .created r ∈ tr ∧ k.Has r ∧ .removeFailed r ∉ tr

/-- What is left. -/
def Owes (tr : List ResourceEvent) (k : Kernel P) (o : Option Resource) : Prop :=
  ∀ r, Left tr k r ↔ o = some r

/-- A call of `cs_init` has failed after the call that creates the resource of its method, for
    `CS_METHOD_SEM_SYSV` or `CS_METHOD_MQ_SYSV`. -/
def FailedSetup (tr : List ResourceEvent) : Prop :=
  .initFailed .semctl ∈ tr ∨ .initFailed .msgsnd ∈ tr

theorem Owes.nil (k : Kernel P) : Owes [] k none :=
  fun _ => iff_of_false (fun h => nomatch h.1) nofun

theorem Owes.created (hr : k.Has r) : Owes [.created r] k (some r) := by
  intro r'
  constructor
  · rintro ⟨hcreated, -, -⟩
    obtain rfl := ResourceEvent.created.inj (List.mem_singleton.mp hcreated)
    rfl
  · intro heq
    obtain rfl := Option.some.inj heq
    exact ⟨List.mem_singleton_self _, hr, by simp⟩

theorem Owes.same (h : Owes tr k o) (hk : SameResources k k') : Owes tr k' o := by
  intro r
  rw [← h r, Left, Left, hk r]

theorem Owes.initFailed (h : Owes tr k o) (pc : InitPc) : Owes (tr ++ [.initFailed pc]) k o := by
  intro r
  rw [← h r]
  simp [Left]

theorem Owes.removed (h : Owes tr k (some r)) (hk : ∀ r', k'.Has r' ↔ k.Has r' ∧ r' ≠ r) :
    Owes tr k' none := by
  intro r'
  refine iff_of_false ?_ nofun
  rintro ⟨hcreated, hr', hfailed⟩
  rw [hk] at hr'
  obtain rfl := Option.some.inj ((h r').mp ⟨hcreated, hr'.1, hfailed⟩)
  exact hr'.2 rfl

theorem Owes.removeFailed (h : Owes tr k (some r)) : Owes (tr ++ [.removeFailed r]) k none := by
  intro r'
  refine iff_of_false ?_ nofun
  rintro ⟨hcreated, hr', hfailed⟩
  rw [List.mem_append, not_or] at hfailed
  have hcreated' : .created r' ∈ tr := by simpa using hcreated
  obtain rfl := Option.some.inj ((h r').mp ⟨hcreated', hr', hfailed.1⟩)
  exact hfailed.2 (List.mem_singleton_self _)

/-! ## `cs_init` -/

/-- The method whose call is at `pc`. -/
def InitPc.method : InitPc → Option CsMethod
  | .pthreadMutexInit => some .mutex
  | .semInit => some .semPosix
  | .semOpen | .semUnlink => some .semPosixNamed
  | .semget | .semctl => some .semSysv
  | .mqOpen | .mqUnlink | .mqSend => some .mqPosix
  | .msgget | .msgsnd => some .mqSysv
  | .start | .done | .exited _ => none

/-- What a process in `cs_init` has left: what the next call removes, or what `cs_destroy` will. -/
def InitOwes (pc : InitPc) (tr : List ResourceEvent) (env : Env P T) : Prop :=
  match pc with
  | .start | .pthreadMutexInit | .semInit | .semOpen | .semget | .mqOpen | .msgget => tr = []
  | .semUnlink => Owes tr env.kernel (some (.semName SEM_NAME))
  | .semctl =>
    ∃ id, env.vars.sysvSemid = some id ∧ Owes tr env.kernel (some (.semSet id))
  | .mqUnlink => Owes tr env.kernel (some (.mqName MQ_NAME))
  | .mqSend => Owes tr env.kernel none
  | .msgsnd => ∃ id, env.vars.mqSysv = some id ∧ Owes tr env.kernel (some (.msgQ id))
  | .done => Owes tr env.kernel (toRemove env.vars)
  | .exited _ =>
    (Owes tr env.kernel none ∧ ¬ FailedSetup tr) ∨
      ((∃ r, Owes tr env.kernel (some r)) ∧ FailedSetup tr)

/-- What holds while `cs_init` is at `pc`. -/
structure InitLog (pc : InitPc) (tr : List ResourceEvent) (env : Env P T) : Prop where
  method : ∀ m, pc.method = some m → CsMethod.ofInt env.vars.csMethodUsed = some m
  allocated : pc ≠ .done → env.vars.csVarAllocated = false
  setup : (∀ err, pc ≠ .exited err) → ¬ FailedSetup tr
  owes : InitOwes pc tr env

theorem not_failedSetup_nil : ¬ FailedSetup [] := by simp [FailedSetup]

/-- A call has failed while nothing is left. -/
theorem InitLog.initFailed (err : String) {pc : InitPc} (hctl : pc ≠ .semctl)
    (hsnd : pc ≠ .msgsnd) (halloc : env.vars.csVarAllocated = false) (hsetup : ¬ FailedSetup tr)
    (h : Owes tr env.kernel none) : InitLog (.exited err) (tr ++ [.initFailed pc]) env where
  method := nofun
  allocated := fun _ => halloc
  setup := fun h => absurd rfl (h err)
  owes := by
    refine .inl ⟨h.initFailed pc, ?_⟩
    simpa [FailedSetup, hctl.symm, hsnd.symm] using hsetup

/-- The call after the one that has created the resource has failed: the resource is left. -/
theorem InitLog.setupFailed (err : String) {pc : InitPc} (hpc : pc = .semctl ∨ pc = .msgsnd)
    (halloc : env.vars.csVarAllocated = false) (h : Owes tr env.kernel (some r)) :
    InitLog (.exited err) (tr ++ [.initFailed pc]) env where
  method := nofun
  allocated := fun _ => halloc
  setup := fun h => absurd rfl (h err)
  owes := by
    refine .inr ⟨⟨r, h.initFailed pc⟩, ?_⟩
    rcases hpc with rfl | rfl <;> simp [FailedSetup]

/-- `cs_init` is done, and `cs_destroy` will remove what is left. -/
theorem InitLog.initDone {m : CsMethod} (hm : CsMethod.ofInt env.vars.csMethodUsed = some m)
    (hsetup : ¬ FailedSetup tr)
    (howes : Owes tr env.kernel (match m with
      | .semSysv => env.vars.sysvSemid.map .semSet
      | .mqSysv => env.vars.mqSysv.map .msgQ
      | _ => none)) :
    InitLog (initDone env).1 tr (initDone env).2 where
  method := nofun
  allocated := fun h => absurd rfl h
  setup := fun _ => hsetup
  owes := by
    show Owes tr env.kernel (toRemove _)
    simp only [toRemove, Everything.initDone, if_true, hm]
    cases m <;> exact howes

/-- A call on a handle creates and removes nothing if the call on the named object does not. -/
theorem onHandle_same {h : Option ℕ} {ok : Bool} {call : ℕ → Kernel P → Option (Bool × Kernel P)}
    (hcall : ∀ id k', call id env.kernel = some (ok, k') → SameResources env.kernel k')
    (hs : env.onHandle h call = some (ok, env')) : SameResources env.kernel env'.kernel := by
  rcases Env.onHandle_cases hs with ⟨-, -, rfl⟩ | ⟨id, k', -, hk, rfl⟩
  · exact .refl _
  · exact hcall id k' hk

/-- A call that sends the token, or fails, leaves the variables as they are. -/
theorem send_same {ok : Bool} {r : Option (Bool × Env P T)}
    (hcall : ∀ ok env', r = some (ok, env') →
      SameResources env.kernel env'.kernel ∧ env'.vars = env.vars)
    (hs : (if fail then some (false, env) else r) = some (ok, env')) :
    SameResources env.kernel env'.kernel ∧ env'.vars = env.vars := by
  split at hs
  · obtain ⟨-, rfl⟩ := Prod.mk.inj (Option.some.inj hs)
    exact ⟨.refl _, rfl⟩
  · exact hcall ok env' hs

section Calls

variable {pc' : InitPc}

/-- Before the first call: the methods that need none are done. -/
theorem InitLog.start (h : InitLog .start tr env)
    (hs : csInitStep n p fail fresh .start env = some (pc', env')) :
    InitLog pc' (tr ++ (initEvent .start fail pc' env'.vars).toList) env' := by
  have halloc := h.allocated (by simp)
  have hsetup := h.setup (by simp)
  obtain rfl : tr = [] := h.owes
  simp only [csInitStep] at hs
  cases hm : CsMethod.ofInt n with
  | none =>
    simp only [hm, Option.some.injEq, Prod.mk.injEq] at hs
    obtain ⟨rfl, rfl⟩ := hs
    exact .initFailed _ (by simp) (by simp) halloc hsetup (Owes.nil _)
  | some m =>
    cases m <;> simp only [hm, Option.some.injEq] at hs
    case atomic | locked | testXchg | xchg =>
      obtain ⟨rfl, rfl⟩ := Prod.mk.inj hs
      exact .initDone hm hsetup (Owes.nil _)
    -- the other methods go on with their first call
    all_goals
      obtain ⟨rfl, rfl⟩ := Prod.mk.inj hs
      refine ⟨fun m hm' => ?_, fun _ => halloc, fun _ => hsetup, rfl⟩
      obtain rfl := Option.some.inj hm'
      exact hm

/-- `sem_unlink`, whose result is not looked at. -/
theorem InitLog.semUnlink (h : InitLog .semUnlink tr env)
    (hs : csInitStep n p fail fresh .semUnlink env = some (pc', env')) :
    InitLog pc' (tr ++ (initEvent .semUnlink fail pc' env'.vars).toList) env' := by
  have hsetup := h.setup nofun
  have howes : Owes tr env.kernel (some (.semName SEM_NAME)) := h.owes
  simp only [csInitStep] at hs
  obtain ⟨rfl, rfl⟩ := Prod.mk.inj (Option.some.inj hs)
  cases fail with
  | false =>
    refine InitLog.initDone (h.method _ rfl) ?_ ?_
    · simpa [initEvent] using hsetup
    · simp only [initEvent, Bool.false_eq_true, if_false, Option.toList, List.append_nil]
      exact howes.removed fun r => Kernel.semUnlink_has SEM_NAME
  | true =>
    -- the name stays, but a call to remove it has been made
    refine InitLog.initDone (h.method _ rfl) ?_ howes.removeFailed
    simpa [initEvent, FailedSetup] using hsetup

/-- `semctl` with `SETVAL`: if it fails, the set of `semget` is left. -/
theorem InitLog.semctl (h : InitLog .semctl tr env)
    (hs : csInitStep n p fail fresh .semctl env = some (pc', env')) :
    InitLog pc' (tr ++ (initEvent .semctl fail pc' env'.vars).toList) env' := by
  have hsetup := h.setup (by simp)
  obtain ⟨id, hid, howes⟩ := h.owes
  simp only [csInitStep, hid] at hs
  generalize hr : (if fail then (false, env.kernel)
    else env.kernel.semctlSetval id 1) = r at hs
  obtain ⟨ok, k⟩ := r
  -- the set stays, with its value or without
  have hsame : SameResources env.kernel k := by
    split at hr
    · obtain ⟨-, rfl⟩ := Prod.mk.inj hr
      exact .refl _
    · have hk : (env.kernel.semctlSetval id 1).2 = k := by rw [hr]
      exact hk ▸ .semctlSetval id 1
  cases ok with
  | false =>
    obtain ⟨rfl, rfl⟩ := Prod.mk.inj (Option.some.inj hs)
    -- the set has been created, and `cs_var_allocated` has not been set
    exact .setupFailed _ (.inl rfl) (h.allocated (by simp)) (howes.same hsame)
  | true =>
    obtain ⟨rfl, rfl⟩ := Prod.mk.inj (Option.some.inj hs)
    refine InitLog.initDone (h.method _ rfl) ?_ ?_
    · simpa [initEvent] using hsetup
    · simp only [initEvent, Option.toList, List.append_nil, hid]
      exact howes.same hsame

/-- `mq_unlink`: if it fails, the name stays, but a call to remove it has been made. -/
theorem InitLog.mqUnlink (h : InitLog .mqUnlink tr env)
    (hs : csInitStep n p fail fresh .mqUnlink env = some (pc', env')) :
    InitLog pc' (tr ++ (initEvent .mqUnlink fail pc' env'.vars).toList) env' := by
  have hsetup := h.setup (by simp)
  have howes : Owes tr env.kernel (some (.mqName MQ_NAME)) := h.owes
  simp only [csInitStep] at hs
  generalize hr : (if fail then (false, env.kernel) else env.kernel.mqUnlink MQ_NAME) = r at hs
  obtain ⟨ok, k⟩ := r
  obtain ⟨rfl, rfl⟩ := Prod.mk.inj (Option.some.inj hs)
  -- a failure of `mq_unlink` leaves the name
  cases ok with
  | false =>
    have hk : k = env.kernel := by
      split at hr
      · exact (Prod.mk.inj hr).2.symm
      · have hfst : (env.kernel.mqUnlink MQ_NAME).1 = false := by rw [hr]
        rw [← Kernel.mqUnlink_fail hfst, hr]
    subst hk
    refine ⟨by simp [InitPc.method], fun _ => h.allocated (by simp), fun h => absurd rfl (h _),
      .inl ⟨?_, ?_⟩⟩
    · exact howes.removeFailed
    · simpa [initEvent, FailedSetup] using hsetup
  -- the name is gone, and nothing is owed
  | true =>
    have hk : ∀ r, k.Has r ↔ env.kernel.Has r ∧ r ≠ .mqName MQ_NAME := by
      split at hr
      · cases (Prod.mk.inj hr).1
      · intro r
        rw [← Kernel.mqUnlink_has MQ_NAME, hr]
    refine ⟨h.method, fun _ => h.allocated (by simp), fun _ => ?_, ?_⟩
    · simpa [initEvent] using hsetup
    · show Owes (tr ++ []) k none
      rw [List.append_nil]
      exact howes.removed hk

/-- `mq_send`: the queue has no name any more, so nothing is left if it fails. -/
theorem InitLog.mqSend (h : InitLog .mqSend tr env)
    (hs : csInitStep n p fail fresh .mqSend env = some (pc', env')) :
    InitLog pc' (tr ++ (initEvent .mqSend fail pc' env'.vars).toList) env' := by
  have hsetup := h.setup (by simp)
  have howes : Owes tr env.kernel none := h.owes
  simp only [csInitStep, Option.map_eq_some_iff, Prod.exists] at hs
  obtain ⟨ok, env₁, hsend, hs⟩ := hs
  obtain ⟨hsame, hvars⟩ := send_same (fun _ _ hr =>
    ⟨onHandle_same (fun _ _ hk => .mqSend hk) hr, Env.onHandle_vars hr⟩) hsend
  cases ok <;> obtain ⟨rfl, rfl⟩ := Prod.mk.inj hs
  -- the name of the queue is gone already, so that nothing is owed
  · refine .initFailed _ (by simp) (by simp) ?_ hsetup (howes.same hsame)
    rw [hvars]
    exact h.allocated (by simp)
  · refine InitLog.initDone (m := .mqPosix) ?_ ?_ ?_
    · rw [hvars]
      exact h.method _ rfl
    · simpa [initEvent] using hsetup
    · simp only [initEvent, Option.toList, List.append_nil]
      exact howes.same hsame

/-- `msgsnd`: if it fails, the queue of `msgget` is left. -/
theorem InitLog.msgsnd (h : InitLog .msgsnd tr env)
    (hs : csInitStep n p fail fresh .msgsnd env = some (pc', env')) :
    InitLog pc' (tr ++ (initEvent .msgsnd fail pc' env'.vars).toList) env' := by
  have hsetup := h.setup (by simp)
  obtain ⟨id, hid, howes⟩ := h.owes
  simp only [csInitStep, Option.map_eq_some_iff, Prod.exists] at hs
  obtain ⟨ok, env₁, hsend, hs⟩ := hs
  obtain ⟨hsame, hvars⟩ := send_same (fun _ _ hr =>
    ⟨onHandle_same (fun _ _ hk => .msgsnd hk) hr, Env.onHandle_vars hr⟩) hsend
  cases ok <;> obtain ⟨rfl, rfl⟩ := Prod.mk.inj hs
  -- the queue has been created, and `cs_var_allocated` has not been set
  · refine .setupFailed _ (.inr rfl) ?_ (howes.same hsame)
    rw [hvars]
    exact h.allocated (by simp)
  · refine InitLog.initDone (m := .mqSysv) ?_ ?_ ?_
    · rw [hvars]
      exact h.method _ rfl
    · simpa [initEvent] using hsetup
    · simp only [initEvent, Option.toList, List.append_nil, hvars, hid]
      exact howes.same hsame

end Calls

/-- Every call of `cs_init`. -/
theorem csInitStep_log {pc pc' : InitPc} (h : InitLog pc tr env)
    (hs : csInitStep n p fail fresh pc env = some (pc', env')) :
    InitLog pc' (tr ++ (initEvent pc fail pc' env'.vars).toList) env' := by
  cases pc
  case start => exact h.start hs
  case semUnlink => exact h.semUnlink hs
  case semctl => exact h.semctl hs
  case mqUnlink => exact h.mqUnlink hs
  case mqSend => exact h.mqSend hs
  case msgsnd => exact h.msgsnd hs
  case done | exited => cases hs
  -- the remaining calls come first for their methods: nothing has been created before
  all_goals
    have hmethod := h.method
    have halloc := h.allocated (by simp)
    have hsetup := h.setup (by simp)
    obtain rfl : tr = [] := h.owes
    simp only [csInitStep] at hs
  case pthreadMutexInit | semInit =>
    split at hs <;> obtain ⟨rfl, rfl⟩ := Prod.mk.inj (Option.some.inj hs)
    · exact .initFailed _ (by simp) (by simp) halloc hsetup (Owes.nil _)
    · exact .initDone (hmethod _ rfl) hsetup (Owes.nil _)
  all_goals
    simp only [Option.map_eq_some_iff, Prod.exists, Prod.mk.injEq] at hs
    obtain ⟨hd, k, hcall, rfl, rfl⟩ := hs
  case semOpen =>
    have hres : hd = none ∨ (∃ id, hd = some id) ∧ k.Has (.semName SEM_NAME) := by
      split at hcall
      · exact .inl (Prod.mk.inj (Option.some.inj hcall)).1.symm
      · exact Kernel.semOpen_excl_has hcall
    rcases hres with rfl | ⟨⟨id, rfl⟩, hhas⟩
    · exact .initFailed _ (by simp) (by simp) halloc hsetup (Owes.nil _)
    · exact ⟨hmethod, fun _ => halloc, fun _ => by simp [FailedSetup, initEvent],
        Owes.created hhas⟩
  case semget =>
    have hres : hd = none ∨ ∃ id, hd = some id ∧ k.Has (.semSet id) := by
      split at hcall
      · exact .inl (Prod.mk.inj (Option.some.inj hcall)).1.symm
      · exact .inr (Kernel.semgetPrivate_has hcall)
    rcases hres with rfl | ⟨id, rfl, hhas⟩
    · exact .initFailed _ (by simp) (by simp) halloc hsetup (Owes.nil _)
    · exact ⟨hmethod, fun _ => halloc, fun _ => by simp [FailedSetup, initEvent],
        id, rfl, Owes.created hhas⟩
  case mqOpen =>
    have hres : hd = none ∨ (∃ id, hd = some id) ∧ k.Has (.mqName MQ_NAME) := by
      split at hcall
      · exact .inl (Prod.mk.inj (Option.some.inj hcall)).1.symm
      · exact Kernel.mqOpen_has hcall
    rcases hres with rfl | ⟨⟨id, rfl⟩, hhas⟩
    · exact .initFailed _ (by simp) (by simp) halloc hsetup (Owes.nil _)
    · exact ⟨hmethod, fun _ => halloc, fun _ => by simp [FailedSetup, initEvent],
        Owes.created hhas⟩
  case msgget =>
    have hres : hd = none ∨ ∃ id, hd = some id ∧ k.Has (.msgQ id) := by
      split at hcall
      · exact .inl (Prod.mk.inj (Option.some.inj hcall)).1.symm
      · exact .inr (Kernel.msggetPrivate_has hcall)
    rcases hres with rfl | ⟨id, rfl, hhas⟩
    · exact .initFailed _ (by simp) (by simp) halloc hsetup (Owes.nil _)
    · exact ⟨hmethod, fun _ => halloc, fun _ => by simp [FailedSetup, initEvent],
        id, rfl, Owes.created hhas⟩

/-! ## `cs_destroy` -/

/-- `cs_destroy` with nothing to remove leaves the kernel as it is. -/
theorem csDestroy_none (h : toRemove env.vars = none) :
    (csDestroy fail env).2.kernel = env.kernel := by
  unfold csDestroy
  by_cases halloc : env.vars.csVarAllocated = false
  · rw [if_pos halloc]
  · rw [if_neg halloc]
    simp only [toRemove, Bool.of_not_eq_false halloc, if_true] at h
    cases hm : CsMethod.ofInt env.vars.csMethodUsed with
    | none => rfl
    | some m =>
      -- only these two methods remove something, by their handle
      simp only [hm] at h
      cases m
      case semSysv =>
        have hid := Option.map_eq_none_iff.mp h
        simp only [hid]
      case mqSysv =>
        have hid := Option.map_eq_none_iff.mp h
        simp only [hid]
      case semPosixNamed =>
        cases env.vars.csNamedSem <;> rfl
      all_goals rfl

/-- Otherwise it removes the resource, or prints an error and leaves the kernel as it is. -/
theorem csDestroy_some (fail : Bool) (h : toRemove env.vars = some r) :
    ((csDestroy fail env).1 ≠ none ∧ (csDestroy fail env).2.kernel = env.kernel) ∨
    ((csDestroy fail env).1 = none ∧
      ∀ r', (csDestroy fail env).2.kernel.Has r' ↔ env.kernel.Has r' ∧ r' ≠ r) := by
  simp only [toRemove] at h
  split at h
  · rename_i halloc
    unfold csDestroy
    rw [if_neg (by simp [halloc])]
    split at h
    · -- `semctl(sysv_semid, 0, IPC_RMID)`
      rename_i hm
      obtain ⟨id, hid, rfl⟩ := Option.map_eq_some_iff.mp h
      simp only [hm, hid]
      cases fail
      · simp only [Bool.false_eq_true, if_false]
        cases hok : (env.kernel.semctlRmid id).1
        · exact .inl ⟨nofun, Kernel.semctlRmid_fail hok⟩
        · exact .inr ⟨rfl, fun r' => Kernel.semctlRmid_has id⟩
      · exact .inl ⟨nofun, rfl⟩
    · -- `msgctl(mq_sysv, IPC_RMID, NULL)`
      rename_i hm
      obtain ⟨id, hid, rfl⟩ := Option.map_eq_some_iff.mp h
      simp only [hm, hid]
      cases fail
      · simp only [Bool.false_eq_true, if_false]
        cases hok : (env.kernel.msgctlRmid id).1
        · exact .inl ⟨nofun, Kernel.msgctlRmid_fail hok⟩
        · exact .inr ⟨rfl, fun r' => Kernel.msgctlRmid_has id⟩
      · exact .inl ⟨nofun, rfl⟩
    · exact nomatch h
  · exact nomatch h

/-! ## `cs_enter` and `cs_leave` -/

/-- Nothing was created or removed, and `cs_destroy` is going to do the same. -/
def Calm (env env' : Env P T) : Prop :=
  toRemove env'.vars = toRemove env.vars ∧ SameResources env.kernel env'.kernel

theorem Calm.refl (env : Env P T) : Calm env env := ⟨rfl, .refl _⟩

theorem onHandle_calm {h : Option ℕ} {ok : Bool} {call : ℕ → Kernel P → Option (Bool × Kernel P)}
    (hcall : ∀ id k', call id env.kernel = some (ok, k') → SameResources env.kernel k')
    (hs : env.onHandle h call = some (ok, env')) : Calm env env' :=
  ⟨by rw [Env.onHandle_vars hs], onHandle_same hcall hs⟩

variable [DecidableEq P]

theorem enterCall_calm {m : CsMethod} {ok : Bool} (hs : env.enterCall m p i = some (ok, env')) :
    Calm env env' := by
  cases m <;> simp only [Env.enterCall, reduceCtorEq] at hs
  case mutex =>
    unfold Env.pthreadMutexLock at hs
    split at hs
    · cases hs
    · obtain ⟨-, rfl⟩ := Prod.mk.inj (Option.some.inj hs)
      exact ⟨rfl, .refl _⟩
  case semPosix =>
    simp only [Env.semWait, Option.ite_none_left_eq_some, Option.some.injEq, Prod.mk.injEq] at hs
    obtain ⟨-, -, rfl⟩ := hs
    exact ⟨rfl, .refl _⟩
  -- the calls on an object of the kernel change its state, but create and remove nothing
  case semPosixNamed => exact onHandle_calm (fun _ _ hk => .semWait hk) hs
  case semSysv => exact onHandle_calm (fun _ _ hk => .semop hk) hs
  case mqPosix => exact onHandle_calm (fun _ _ hk => .mqReceive hk) hs
  case mqSysv =>
    rcases Env.msgrcv_cases hs with ⟨-, -, rfl⟩ | ⟨id, m, k', -, hk, ⟨-, -, rfl⟩ | ⟨_, -, -, rfl⟩⟩
    · exact .refl _
    · exact ⟨rfl, .msgrcv hk⟩
    · exact ⟨rfl, .msgrcv hk⟩

variable [DecidableEq T]

theorem leaveCall_calm {m : CsMethod} {ok : Bool} (hs : env.leaveCall m p i = some (ok, env')) :
    Calm env env' := by
  cases m <;> simp only [Env.leaveCall, reduceCtorEq] at hs
  case mutex =>
    unfold Env.pthreadMutexUnlock at hs
    split at hs <;> obtain ⟨-, rfl⟩ := Prod.mk.inj (Option.some.inj hs) <;> exact ⟨rfl, .refl _⟩
  case semPosix =>
    unfold Env.semPost at hs
    split at hs <;> obtain ⟨-, rfl⟩ := Prod.mk.inj (Option.some.inj hs) <;> exact ⟨rfl, .refl _⟩
  case semPosixNamed => exact onHandle_calm (fun _ _ hk => .semPost hk) hs
  case semSysv => exact onHandle_calm (fun _ _ hk => .semop hk) hs
  case mqPosix => exact onHandle_calm (fun _ _ hk => .mqSend hk) hs
  case mqSysv => exact onHandle_calm (fun _ _ hk => .msgsnd hk) hs

omit [DecidableEq T] in
theorem csEnterStep_calm {pc pc' : EnterPc}
    (hs : csEnterStep busyWaitYields p i fail env pc = some (env', pc')) : Calm env env' := by
  unfold csEnterStep at hs
  dsimp only at hs
  split at hs
  case h_9 m _ =>
    split at hs
    · simp only [Option.map_eq_some_iff, Prod.exists, Prod.mk.injEq] at hs
      obtain ⟨ok, env₁, hcall, rfl, -⟩ := hs
      split at hcall
      · obtain ⟨-, rfl⟩ := Prod.mk.inj (Option.some.inj hcall)
        exact .refl _
      · exact enterCall_calm hcall
    · exact nomatch hs
  case h_10 => exact nomatch hs
  -- the busy-waiting methods work on a variable
  all_goals
    obtain ⟨rfl, -⟩ := Prod.mk.inj (Option.some.inj hs)
    exact ⟨rfl, .refl _⟩

theorem csLeave_calm {ok : Bool} (hs : csLeave p i fail env = some (ok, env')) :
    Calm env env' := by
  unfold csLeave at hs
  dsimp only at hs
  split at hs
  case h_6 m _ _ _ _ _ =>
    split at hs
    · obtain ⟨-, rfl⟩ := Prod.mk.inj (Option.some.inj hs)
      exact .refl _
    · exact leaveCall_calm hs
  all_goals
    obtain ⟨-, rfl⟩ := Prod.mk.inj (Option.some.inj hs)
    exact ⟨rfl, .refl _⟩

theorem threadStep_calm {pc pc' : ThreadPc} {e : Option (CsEvent T)}
    (hs : threadStep busyWaitYields p i fail env pc = some (e, env', pc')) : Calm env env' := by
  unfold threadStep at hs
  split at hs
  case h_3 =>
    simp only [Option.map_eq_some_iff, Prod.exists, Prod.mk.injEq] at hs
    obtain ⟨env₁, pc₁, hstep, -, rfl, -⟩ := hs
    exact csEnterStep_calm hstep
  case h_5 =>
    simp only [Option.map_eq_some_iff, Prod.exists, Prod.mk.injEq] at hs
    obtain ⟨ok, env₁, hleave, -, rfl, -⟩ := hs
    exact csLeave_calm hleave
  all_goals
    simp only [Option.some.injEq, Prod.mk.injEq] at hs
    obtain ⟨-, rfl, -⟩ := hs
    exact .refl _

/-! ## The whole life -/

/-- What holds of a process with the events `tr`. -/
def LifeInv (tr : List ResourceEvent) (st : Life P T) : Prop :=
  match st.pc with
  | .init pc => InitLog pc tr st.env
  | .running => Owes tr st.env.kernel (toRemove st.env.vars) ∧ ¬ FailedSetup tr
  | .exiting _ =>
    (Owes tr st.env.kernel (toRemove st.env.vars) ∧ ¬ FailedSetup tr) ∨
      (toRemove st.env.vars = none ∧ (∃ r, Owes tr st.env.kernel (some r)) ∧ FailedSetup tr)
  | .ended =>
    (Owes tr st.env.kernel none ∧ ¬ FailedSetup tr) ∨
      ((∃ r, Owes tr st.env.kernel (some r)) ∧ FailedSetup tr)

/-- The next call of `cs_init`. -/
theorem init_lifeInv {pc : InitPc} {st st' : Life P T} {e : Option ResourceEvent}
    (hpc : st.pc = .init pc) (h : LifeInv tr st)
    (hs : lifeStep n busyWaitYields p st (.init fail fresh) = some (e, st')) :
    LifeInv (tr ++ e.toList) st' := by
  simp only [LifeInv, hpc] at h
  simp only [lifeStep, hpc, Option.map_eq_some_iff, Prod.exists, Prod.mk.injEq] at hs
  obtain ⟨pc', env', hstep, rfl, rfl⟩ := hs
  have hlog := csInitStep_log h hstep
  cases pc' with
  | done => exact ⟨hlog.owes, hlog.setup nofun⟩
  | exited err =>
    have hnone : toRemove env'.vars = none := by
      rw [toRemove, hlog.allocated nofun]
      rfl
    rcases hlog.owes with ⟨howes, hsetup⟩ | ⟨howes, hsetup⟩
    · exact .inl ⟨hnone ▸ howes, hsetup⟩
    · exact .inr ⟨hnone, howes, hsetup⟩
  | _ => exact hlog

omit [DecidableEq P] [DecidableEq T] in
/-- The next step of a thread. -/
theorem Calm.lifeInv {st : Life P T} {loc : T → ThreadPc} (hcalm : Calm st.env env')
    (hpc : st.pc = .running ∨ st.pc = .exiting true) (h : LifeInv tr st) :
    LifeInv tr { st with env := env', loc := loc } := by
  obtain ⟨hremove, hsame⟩ := hcalm
  rcases hpc with hpc | hpc <;> simp only [LifeInv, hpc] at h ⊢ <;> rw [hremove]
  · exact ⟨h.1.same hsame, h.2⟩
  · rcases h with ⟨howes, hsetup⟩ | ⟨hnone, ⟨r, howes⟩, hsetup⟩
    · exact .inl ⟨howes.same hsame, hsetup⟩
    · exact .inr ⟨hnone, ⟨r, howes.same hsame⟩, hsetup⟩

/-- `release_resources`, and the end of the process. -/
theorem releaseResources_lifeInv {live : Bool} {st st' : Life P T} {e : Option ResourceEvent}
    (hpc : st.pc = .exiting live) (h : LifeInv tr st)
    (hs : lifeStep n busyWaitYields p st (.releaseResources fail) = some (e, st')) :
    LifeInv (tr ++ e.toList) st' := by
  simp only [LifeInv, hpc] at h
  simp only [lifeStep, hpc, Option.some.injEq, Prod.mk.injEq] at hs
  obtain ⟨rfl, rfl⟩ := hs
  simp only [LifeInv]
  cases ho : toRemove st.env.vars with
  | none =>
    -- `cs_destroy` makes no call that removes anything, so there is no event
    have hnil : (if (csDestroy fail st.env).1 = none then none
        else (none : Option Resource).map ResourceEvent.removeFailed).toList = [] := by
      split <;> rfl
    rw [hnil, List.append_nil, csDestroy_none ho]
    rcases h with ⟨howes, hsetup⟩ | ⟨-, ⟨r, howes⟩, hsetup⟩
    · rw [ho] at howes
      exact .inl ⟨howes.same (.exitProcess p), hsetup⟩
    · exact .inr ⟨⟨r, howes.same (.exitProcess p)⟩, hsetup⟩
  | some r =>
    rcases h with ⟨howes, hsetup⟩ | ⟨hnone, -⟩
    · -- the call of `cs_destroy` fails, or the resource is gone
      rw [ho] at howes
      left
      rcases csDestroy_some fail ho with ⟨herr, hk⟩ | ⟨herr, hk⟩
      · rw [if_neg herr, hk]
        refine ⟨howes.removeFailed.same (.exitProcess p), ?_⟩
        simpa [FailedSetup] using hsetup
      · rw [if_pos herr, Option.toList, List.append_nil]
        exact ⟨(howes.removed hk).same (.exitProcess p), hsetup⟩
    · rw [ho] at hnone
      exact nomatch hnone

theorem lifeStep_inv {a : LifeAction T} {st st' : Life P T} {e : Option ResourceEvent}
    (h : LifeInv tr st) (hs : lifeStep n busyWaitYields p st a = some (e, st')) :
    LifeInv (tr ++ e.toList) st' := by
  cases a with
  | init fail fresh =>
    cases hpc : st.pc with
    | init pc => exact init_lifeInv hpc h hs
    | running | exiting live | ended => simp [lifeStep, hpc] at hs
  | thread i fail =>
    have hpc : st.pc = .running ∨ st.pc = .exiting true := by
      cases hpc : st.pc with
      | running => exact .inl rfl
      | exiting live => cases live <;> simp [lifeStep, hpc] at hs ⊢
      | init pc | ended => simp [lifeStep, hpc] at hs
    -- the threads run on while the handlers of `exit` do
    have hthread : ∃ r, threadStep busyWaitYields p i fail st.env (st.loc i) = some r ∧
        e = none ∧ st' = { st with env := r.2.1, loc := Function.update st.loc i r.2.2 } := by
      rcases hpc with hpc | hpc <;>
        simp only [lifeStep, hpc, Option.map_eq_some_iff, Prod.mk.injEq] at hs <;>
        obtain ⟨r, hstep, rfl, rfl⟩ := hs <;> exact ⟨r, hstep, rfl, by rw [hpc]⟩
    obtain ⟨⟨e', env', pc'⟩, hstep, rfl, rfl⟩ := hthread
    rw [Option.toList, List.append_nil]
    exact (threadStep_calm hstep).lifeInv hpc h
  | exit =>
    cases hpc : st.pc with
    | running =>
      simp only [lifeStep, hpc, Option.some.injEq, Prod.mk.injEq] at hs
      obtain ⟨rfl, rfl⟩ := hs
      simp only [LifeInv, hpc] at h
      rw [Option.toList, List.append_nil]
      exact .inl h
    | init pc | exiting live | ended => simp [lifeStep, hpc] at hs
  | releaseResources fail =>
    cases hpc : st.pc with
    | exiting live => exact releaseResources_lifeInv hpc h hs
    | init pc | running | ended => simp [lifeStep, hpc] at hs

/-- Every run of a process. -/
theorem run_lifeInv {st : Life P T}
    (h : (life n busyWaitYields p).Run (initialLife T k) tr st) : LifeInv tr st := by
  refine h.trace_invariant (I := LifeInv) (fun tr st a e st' hinv hs => lifeStep_inv hinv hs) ?_
  exact ⟨nofun, fun _ => rfl, fun _ => not_failedSetup_nil, rfl⟩

/-- When a process has ended, a resource that it created is there only if the call that was to
    remove it has failed: this holds exactly if neither the `semctl` after `semget` nor the
    `msgsnd` after `msgget` in `cs_init` has failed. -/
theorem released_iff (method : ℤ) (busyWaitYields : Bool) (p : P) (k : Kernel P) {st : Life P T}
    (hrun : (life method busyWaitYields p).Run (initialLife T k) tr st) (hended : st.pc = .ended) :
    (∀ r, .created r ∈ tr → st.env.kernel.Has r → .removeFailed r ∈ tr) ↔
      .initFailed .semctl ∉ tr ∧ .initFailed .msgsnd ∉ tr := by
  have hinv := run_lifeInv hrun
  simp only [LifeInv, hended] at hinv
  rw [← not_or]
  rcases hinv with ⟨howes, hsetup⟩ | ⟨⟨r, howes⟩, hsetup⟩
  -- nothing is left, or one resource is, and both sides of the equivalence say which
  · refine iff_of_true (fun r hcreated hr => ?_) hsetup
    by_contra hfailed
    exact nomatch (howes r).mp ⟨hcreated, hr, hfailed⟩
  · refine iff_of_false (fun h => ?_) (not_not.mpr hsetup)
    obtain ⟨hcreated, hr, hfailed⟩ := (howes r).mpr rfl
    exact hfailed (h r hcreated hr)

/-- With `CS_METHOD_SEM_SYSV` and no error nothing is left. -/
theorem released_iff_semSysv :
    ∃ tr st, (life 7 false ()).Run (initialLife Unit .empty) tr st ∧ st.pc = .ended ∧
      .created (.semSet 0) ∈ tr ∧ ¬ st.env.kernel.Has (.semSet 0) := by
  obtain ⟨st, hrun, hended⟩ : ∃ st, (life 7 false ()).Run (initialLife Unit .empty)
      [.created (.semSet 0)] st ∧ st.pc = .ended :=
    ⟨_, .of_exec [.init false 0, .init false 0, .init false 0, .thread () false, .thread () false,
      .exit, .releaseResources false] rfl, rfl⟩
  have hreleased := (released_iff 7 false () .empty hrun hended).mpr (by decide)
  refine ⟨_, st, hrun, hended, List.mem_singleton_self _, fun hhas => ?_⟩
  exact absurd (hreleased (.semSet 0) (List.mem_singleton_self _) hhas) (by decide)

/-- `CS_METHOD_MQ_SYSV`, and `msgsnd` fails: no call is made to remove the queue. -/
theorem msgsnd_fails_leaves_queue :
    ∃ tr st, (life 9 false ()).Run (initialLife Unit .empty) tr st ∧ st.pc = .ended ∧
      .created (.msgQ 0) ∈ tr ∧ st.env.kernel.Has (.msgQ 0) ∧ .removeFailed (.msgQ 0) ∉ tr := by
  refine ⟨_, _, .of_exec [.init false 0, .init false 0, .init true 0, .releaseResources false] rfl,
    rfl, ?_, nofun, ?_⟩
  · exact List.mem_cons_self
  · decide

end Everything
