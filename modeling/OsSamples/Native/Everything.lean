import OsSamples.Lib.BinaryLock
import OsSamples.Lib.Threads
import OsSamples.Native.CsMethods

/-!
# `everything.h`: critical-section access control with ten methods

`cs_init`, `cs_destroy`, `cs_enter` and `cs_leave` as the header has them, cut into atomic steps:
each load, store, exchange and OS call is one step.  The flag `fail` of a step lets the OS call
made there return an error.
-/

namespace Everything

variable {P T : Type*} [DecidableEq P] [DecidableEq T]

/-! ## `cs_init` -/

/-- Where `cs_init` is: before the OS call named, finished, or in `exit` after printing `err`. -/
inductive InitPc
  | start
  | pthreadMutexInit
  | semInit
  | semOpen
  | semUnlink
  | semget
  | semctl
  | mqOpen
  | mqUnlink
  | mqSend
  | msgget
  | msgsnd
  | done
  | exited (err : String)
  deriving DecidableEq

/-- The end of `cs_init`: `cs_var_allocated = true`. -/
def initDone (env : Env P T) : InitPc × Env P T :=
  (.done, { env with vars := { env.vars with csVarAllocated := true } })

/-- The next step of `cs_init(method)` in process `p`; `fresh` is the identifier the kernel picks
    for a new object. -/
def csInitStep (method : ℤ) (p : P) (fail : Bool) (fresh : ℕ) (pc : InitPc) (env : Env P T) :
    Option (InitPc × Env P T) :=
  let v := env.vars
  match pc with
  | .start =>
    let v := { v with csMethodUsed := method }
    -- `switch (method)`
    match CsMethod.ofInt method with
    | some .atomic => some (initDone { env with vars := v })
    | some .locked | some .testXchg =>
      some (initDone { env with vars := { v with locked := false } })
    | some .xchg => some (initDone { env with vars := { v with lockedAtomic := false } })
    | some .mutex => some (.pthreadMutexInit, { env with vars := v })
    | some .semPosix => some (.semInit, { env with vars := v })
    | some .semPosixNamed => some (.semOpen, { env with vars := v })
    | some .semSysv => some (.semget, { env with vars := v })
    | some .mqPosix => some (.mqOpen, { env with vars := v })
    | some .mqSysv => some (.msgget, { env with vars := { v with msgBufSysv := 1 } })
    -- `default:`
    | none =>
      some (.exited ("Error: The method " ++ toString method ++ " is not defined."),
        { env with vars := v })
  | .pthreadMutexInit =>
    if fail then some (.exited "pthread_mutex_init failed", env)
    else some (initDone { env with vars := { v with csMutex := none } })
  | .semInit =>
    if fail then some (.exited "sem_init failed", env)
    else some (initDone { env with vars := { v with csSem := 1 } })
  | .semOpen =>
    let r := if fail then some (none, env.kernel) else env.kernel.semOpen true SEM_NAME 1 p fresh
    r.map fun (h, k) =>
      (if h = none then .exited "sem_open" else .semUnlink, ⟨{ v with csNamedSem := h }, k⟩)
  | .semUnlink =>
    -- the result of `sem_unlink` is not looked at
    let k := if fail then env.kernel else (env.kernel.semUnlink SEM_NAME).2
    some (initDone { env with kernel := k })
  | .semget =>
    let r := if fail then some (none, env.kernel) else env.kernel.semgetPrivate p fresh
    r.map fun (h, k) =>
      (if h = none then .exited "Error creating semaphore" else .semctl,
        ⟨{ v with sysvSemid := h }, k⟩)
  | .semctl =>
    match v.sysvSemid with
    | none => some (.exited "Error setting semaphore value", env)
    | some id =>
      let (ok, k) := if fail then (false, env.kernel) else env.kernel.semctlSetval id 1
      if ok then some (initDone { env with kernel := k })
      else some (.exited "Error setting semaphore value", { env with kernel := k })
  | .mqOpen =>
    let r := if fail then some (none, env.kernel)
      else env.kernel.mqOpen MQ_NAME 1 MESSAGE_SIZE p fresh
    r.map fun (h, k) =>
      (if h = none then .exited "mq_open" else .mqUnlink, ⟨{ v with messageQueue := h }, k⟩)
  | .mqUnlink =>
    let (ok, k) := if fail then (false, env.kernel) else env.kernel.mqUnlink MQ_NAME
    some (if ok then .mqSend else .exited "mq_unlink", { env with kernel := k })
  | .mqSend =>
    let r := if fail then some (false, env) else env.mqSend
    r.map fun (ok, env') => if ok then initDone env' else (.exited "mq_send", env')
  | .msgget =>
    let r := if fail then some (none, env.kernel) else env.kernel.msggetPrivate p fresh
    r.map fun (h, k) =>
      (if h = none then .exited "msgget" else .msgsnd, ⟨{ v with mqSysv := h }, k⟩)
  | .msgsnd =>
    let r := if fail then some (false, env) else env.msgsnd
    r.map fun (ok, env') => if ok then initDone env' else (.exited "innit_msgsnd", env')
  | .done | .exited _ => none

/-- `cs_init(method)` of process `p` as a machine that nobody disturbs; an action is the outcome
    of the next call. -/
def csInit (method : ℤ) (p : P) : Machine (InitPc × Env P T) (Bool × ℕ) Empty where
  step := fun s c => (csInitStep method p c.1 c.2 s.1 s.2).map fun r => (none, r)

/-! ## `cs_destroy` -/

/-- `cs_destroy` and the text it prints, if any.  Closing a named semaphore or a queue leaves the
    kernel's tables as they are: only the process's own handle goes. -/
def csDestroy (fail : Bool) (env : Env P T) : Option String × Env P T :=
  let v := env.vars
  -- `if (!cs_var_allocated) return;`
  if v.csVarAllocated = false then (none, env)
  else
    let (err, env') : Option String × Env P T :=
      match CsMethod.ofInt v.csMethodUsed with
      | some .mutex => (if fail then some "pthread_mutex_destroy" else none, env)
      | some .semPosix => (if fail then some "sem_destroy" else none, env)
      | some .semPosixNamed =>
        match v.csNamedSem with
        | none => (none, env)
        | some _ =>
          (if fail then some "sem_close" else none,
            { env with vars := { v with csNamedSem := none } })
      | some .semSysv =>
        match v.sysvSemid with
        | none => (some "Error destroying semaphore", env)
        | some id =>
          let (ok, k) := if fail then (false, env.kernel) else env.kernel.semctlRmid id
          (if ok then none else some "Error destroying semaphore", { env with kernel := k })
      | some .mqPosix => (if fail then some "mq_close" else none, env)
      | some .mqSysv =>
        match v.mqSysv with
        | none => (some "msgctl_destroy", env)
        | some id =>
          let (ok, k) := if fail then (false, env.kernel) else env.kernel.msgctlRmid id
          (if ok then none else some "msgctl_destroy", { env with kernel := k })
      | some .atomic | some .locked | some .testXchg | some .xchg | none => (none, env)
    (err, { env' with vars := { env'.vars with csVarAllocated := false } })

/-! ## `cs_enter` and `cs_leave` -/

/-- Where `cs_enter` is: at a load, an exchange or a store of a busy-waiting method, in
    `sched_yield`, before its OS call, or about to return after an OS call that returned `ok`. -/
inductive EnterPc
  | load
  | exchange
  | store
  | yield
  | call
  | ret (ok : Bool)
  deriving DecidableEq

/-- The `switch` of `cs_enter`: where it begins. -/
def csEnter (env : Env P T) : EnterPc :=
  match CsMethod.ofInt env.vars.csMethodUsed with
  | some .locked | some .testXchg => .load
  | some .xchg => .exchange
  | some .atomic | none => .ret true
  | some .mutex | some .semPosix | some .semPosixNamed | some .semSysv | some .mqPosix
  | some .mqSysv => .call

/-- The body of a busy-waiting loop: `sched_yield` if asked for, then the condition again. -/
def spin (busyWaitYields : Bool) (head : EnterPc) : EnterPc :=
  if busyWaitYields then .yield else head

/-- The next step of `cs_enter` in thread `i` of process `p`; `none` where it blocks. -/
def csEnterStep (busyWaitYields : Bool) (p : P) (i : T) (fail : Bool) (env : Env P T)
    (pc : EnterPc) : Option (Env P T × EnterPc) :=
  let v := env.vars
  match CsMethod.ofInt v.csMethodUsed, pc with
  -- `while (locked)` and `locked = true`: the test and the store are two steps
  | some .locked, .load =>
    some (env, if v.locked then spin busyWaitYields .load else .store)
  | some .locked, .yield => some (env, .load)
  | some .locked, .store => some ({ env with vars := { v with locked := true } }, .ret true)
  -- `while (atomic_load_explicit(&locked, …) || atomic_exchange_explicit(&locked, true, …))`
  | some .testXchg, .load =>
    some (env, if v.locked then spin busyWaitYields .load else .exchange)
  | some .testXchg, .exchange =>
    some ({ env with vars := { v with locked := true } },
      if v.locked then spin busyWaitYields .load else .ret true)
  | some .testXchg, .yield => some (env, .load)
  -- `while (atomic_flag_test_and_set(&locked_atomic))`
  | some .xchg, .exchange =>
    some ({ env with vars := { v with lockedAtomic := true } },
      if v.lockedAtomic then spin busyWaitYields .exchange else .ret true)
  | some .xchg, .yield => some (env, .exchange)
  | some m, .call =>
    if m.isCall then
      (if fail then some (false, env) else env.enterCall m p i).map fun r => (r.2, .ret r.1)
    else none
  | _, _ => none

/-- `cs_leave` in thread `i` of process `p`: whether its call succeeded; `none` where it
    blocks. -/
def csLeave (p : P) (i : T) (fail : Bool) (env : Env P T) : Option (Bool × Env P T) :=
  let v := env.vars
  match CsMethod.ofInt v.csMethodUsed with
  | some .atomic | none => some (true, env)
  | some .locked | some .testXchg => some (true, { env with vars := { v with locked := false } })
  | some .xchg => some (true, { env with vars := { v with lockedAtomic := false } })
  | some m => if fail then some (false, env) else env.leaveCall m p i

/-! ## Threads that use the critical section -/

/-- Where a thread is that alternates `cs_enter` and `cs_leave`. -/
inductive ThreadPc
  | outside
  | entering (pc : EnterPc)
  | inside
  | leaving
  deriving DecidableEq

/-- What the steps of `cs_enter` and `cs_leave` do to the lock; `enterFailed` and `leaveFailed`
    are OS calls that returned an error. -/
inductive CsEvent (T : Type*)
  | acquire (i : T)
  | release (i : T)
  | enterFailed (i : T)
  | leaveFailed (i : T)
  deriving DecidableEq

/-- The acquisitions and releases among the events. -/
def CsEvent.toLock : CsEvent T → Option (LockEvent T)
  | acquire i => some (.acquire i)
  | release i => some (.release i)
  | enterFailed _ | leaveFailed _ => none

/-- The event of a step of `cs_enter` that leads to `pc`. -/
def enterEvent (i : T) : EnterPc → Option (CsEvent T)
  | .ret true => some (.acquire i)
  | .ret false => some (.enterFailed i)
  | .load | .exchange | .store | .yield | .call => none

/-- The next step of thread `i` of process `p`.  The result of the OS call in `cs_enter` is not
    looked at: after an error the thread is inside as well. -/
def threadStep (busyWaitYields : Bool) (p : P) (i : T) (fail : Bool) (env : Env P T)
    (pc : ThreadPc) : Option (Option (CsEvent T) × Env P T × ThreadPc) :=
  match pc with
  | .outside => some (none, env, .entering (csEnter env))
  | .entering (.ret _) => some (none, env, .inside)
  | .entering pc =>
    (csEnterStep busyWaitYields p i fail env pc).map fun r =>
      (enterEvent i r.2, r.1, .entering r.2)
  | .inside => some (none, env, .leaving)
  | .leaving =>
    (csLeave p i fail env).map fun r =>
      (some (if r.1 then .release i else .leaveFailed i), r.2, .outside)

/-- The threads of process `p`, with OS calls that may fail. -/
def faultMachine (busyWaitYields : Bool) (p : P) :
    Machine (Config T (Env P T) ThreadPc) (T × Bool) (CsEvent T) :=
  Threads.machine (threadStep busyWaitYields p)

/-- The next step of a thread when no OS call fails, with the lock events visible. -/
def lockStep (busyWaitYields : Bool) (p : P) (i : T) (_ : Unit) (env : Env P T) (pc : ThreadPc) :
    Option (Option (LockEvent T) × Env P T × ThreadPc) :=
  (threadStep busyWaitYields p i false env pc).map fun r => (r.1.bind CsEvent.toLock, r.2)

/-- The threads of process `p`, with OS calls that do not fail. -/
def csMachine (busyWaitYields : Bool) (p : P) :
    Machine (Config T (Env P T) ThreadPc) (T × Unit) (LockEvent T) :=
  Threads.machine (lockStep busyWaitYields p)

/-- All threads outside. -/
def allOutside (env : Env P T) : Config T (Env P T) ThreadPc := ⟨env, fun _ => .outside⟩

end Everything
