import OsSamples.Native.Everything

/-!
# The headers with one mechanism each, whose calls are checked

`cs_init`, `cs_enter` and `cs_leave` of `mutex_sem_namedSem.h`, `sem_sysv.h`,
`messageQueue_posix.h` and `messageQueue_sysV.h`.  Each header implements some of the methods; for
the others its `switch` has a plain `break`.  Unlike in `everything.h` every OS call in `cs_enter`
and `cs_leave` is checked: if it fails, `perror` prints a text and `exit` ends the process.
-/

namespace CheckedHeaders

open Everything (InitPc initDone)

variable {P T : Type*}

/-- `if (call) { perror(err); exit(EXIT_FAILURE); }`, where the call is that of a method. -/
structure CheckedCall where
  method : CsMethod
  err : String

/-- `cs_init` of a header that implements some methods: `first` is its first step for these, the
    other methods need no initialisation. -/
def initStart (first : CsMethod → Option InitPc) (method : ℤ) (env : Env P T) :
    InitPc × Env P T :=
  let env := { env with vars := { env.vars with csMethodUsed := method } }
  match CsMethod.ofInt method with
  | some m =>
    match first m with
    | some pc => (pc, env)
    | none => initDone env
  | none => (.exited ("Error: The method " ++ toString method ++ " is not defined."), env)

/-! ## `mutex_sem_namedSem.h` -/

namespace MutexSemNamedSem

/-- The next step of `cs_init`.  The calls are those of `everything.h` except that the named
    semaphore is opened without `O_EXCL`. -/
def csInitStep (method : ℤ) (p : P) (fail : Bool) (fresh : ℕ) (pc : InitPc) (env : Env P T) :
    Option (InitPc × Env P T) :=
  match pc with
  | .start =>
    some (initStart (fun
      | .mutex => some .pthreadMutexInit
      | .semPosix => some .semInit
      | .semPosixNamed => some .semOpen
      | _ => none) method env)
  | .semOpen =>
    let r := if fail then some (none, env.kernel) else env.kernel.semOpen false SEM_NAME 1 p fresh
    r.map fun (h, k) =>
      (if h = none then .exited "sem_open" else .semUnlink,
        ⟨{ env.vars with csNamedSem := h }, k⟩)
  | .pthreadMutexInit | .semInit | .semUnlink =>
    Everything.csInitStep method p fail fresh pc env
  | _ => none

/-- `cs_enter`: the call of the method's `case`, if there is one. -/
def csEnter (method : ℤ) : Option CheckedCall :=
  match CsMethod.ofInt method with
  | some .mutex => some ⟨.mutex, "pthread_mutex_lock"⟩
  | some .semPosix => some ⟨.semPosix, "sem_wait"⟩
  | some .semPosixNamed => some ⟨.semPosixNamed, "sem_named_wait"⟩
  | _ => none

/-- `cs_leave`. -/
def csLeave (method : ℤ) : Option CheckedCall :=
  match CsMethod.ofInt method with
  -- the text is that of `cs_enter`, although the call is `pthread_mutex_unlock`
  | some .mutex => some ⟨.mutex, "pthread_mutex_lock"⟩
  | some .semPosix => some ⟨.semPosix, "sem_post"⟩
  | some .semPosixNamed => some ⟨.semPosixNamed, "sem_named_post"⟩
  | _ => none

end MutexSemNamedSem

/-! ## `sem_sysv.h` -/

namespace SemSysv

/-- `sem_key`. -/
def SEM_KEY : ℤ := 61014

/-- The next step of `cs_init`; the semaphore has a fixed key and is opened without `IPC_EXCL`. -/
def csInitStep (method : ℤ) (p : P) (fail : Bool) (fresh : ℕ) (pc : InitPc) (env : Env P T) :
    Option (InitPc × Env P T) :=
  match pc with
  | .start =>
    some (initStart (fun
      | .semSysv => some .semget
      | _ => none) method env)
  | .semget =>
    let r := if fail then some (none, env.kernel) else env.kernel.semgetCreate SEM_KEY p fresh
    r.map fun (h, k) =>
      (if h = none then .exited "Error creating semaphore" else .semctl,
        ⟨{ env.vars with sysvSemid := h }, k⟩)
  | .semctl => Everything.csInitStep method p fail fresh pc env
  | _ => none

/-- `cs_enter`. -/
def csEnter (method : ℤ) : Option CheckedCall :=
  match CsMethod.ofInt method with
  | some .semSysv => some ⟨.semSysv, "Error entering critical section"⟩
  | _ => none

/-- `cs_leave`. -/
def csLeave (method : ℤ) : Option CheckedCall :=
  match CsMethod.ofInt method with
  | some .semSysv => some ⟨.semSysv, "Error exiting critical section"⟩
  | _ => none

/-- `cs_destroy`: the text it prints before `exit`, if any. -/
def csDestroy (fail : Bool) (env : Env P T) : Option String × Env P T :=
  if env.vars.csVarAllocated = false then (none, env)
  else match CsMethod.ofInt env.vars.csMethodUsed with
    | some .semSysv =>
      match env.vars.sysvSemid with
      | none => (some "Error destroying semaphore", env)
      | some id =>
        let (ok, k) := if fail then (false, env.kernel) else env.kernel.semctlRmid id
        (if ok then none else some "Error destroying semaphore", { env with kernel := k })
    | _ => (none, env)

end SemSysv

/-! ## `messageQueue_posix.h` -/

namespace MessageQueuePosix

/-- The next step of `cs_init`: the name is unlinked after the first message has been sent. -/
def csInitStep (method : ℤ) (p : P) (fail : Bool) (fresh : ℕ) (pc : InitPc) (env : Env P T) :
    Option (InitPc × Env P T) :=
  match pc with
  | .start =>
    some (initStart (fun
      | .mqPosix => some .mqOpen
      | _ => none) method env)
  | .mqOpen =>
    let r := if fail then some (none, env.kernel)
      else env.kernel.mqOpen MQ_NAME 1 MESSAGE_SIZE p fresh
    r.map fun (h, k) =>
      (if h = none then .exited "mq_open" else .mqSend,
        ⟨{ env.vars with messageQueue := h }, k⟩)
  | .mqSend =>
    let r := if fail then some (false, env) else env.mqSend
    r.map fun (ok, env') => (if ok then .mqUnlink else .exited "innit_mq_send", env')
  | .mqUnlink =>
    let (ok, k) := if fail then (false, env.kernel) else env.kernel.mqUnlink MQ_NAME
    some (if ok then initDone { env with kernel := k }
      else (.exited "mq_unlink", { env with kernel := k }))
  | _ => none

/-- `cs_enter`. -/
def csEnter (method : ℤ) : Option CheckedCall :=
  match CsMethod.ofInt method with
  | some .mqPosix => some ⟨.mqPosix, "mq_receive"⟩
  | _ => none

/-- `cs_leave`. -/
def csLeave (method : ℤ) : Option CheckedCall :=
  match CsMethod.ofInt method with
  | some .mqPosix => some ⟨.mqPosix, "mq_send"⟩
  | _ => none

end MessageQueuePosix

/-! ## `messageQueue_sysV.h` -/

namespace MessageQueueSysv

/-- The next step of `cs_init`; the calls are those of `everything.h`. -/
def csInitStep (method : ℤ) (p : P) (fail : Bool) (fresh : ℕ) (pc : InitPc) (env : Env P T) :
    Option (InitPc × Env P T) :=
  match pc with
  | .start =>
    -- `msg_type` is set first
    some (match CsMethod.ofInt method with
      | some .mqSysv =>
        initStart (fun _ => some .msgget) method
          { env with vars := { env.vars with msgBufSysv := 1 } }
      | _ => initStart (fun _ => none) method env)
  | .msgget | .msgsnd => Everything.csInitStep method p fail fresh pc env
  | _ => none

/-- `cs_enter`. -/
def csEnter (method : ℤ) : Option CheckedCall :=
  match CsMethod.ofInt method with
  | some .mqSysv => some ⟨.mqSysv, "msgrcv"⟩
  | _ => none

/-- `cs_leave`. -/
def csLeave (method : ℤ) : Option CheckedCall :=
  match CsMethod.ofInt method with
  | some .mqSysv => some ⟨.mqSysv, "msgsnd"⟩
  | _ => none

end MessageQueueSysv

/-! ## Threads that use one of the headers -/

/-- The headers. -/
inductive Header
  | mutexSemNamedSem
  | semSysv
  | messageQueuePosix
  | messageQueueSysv
  deriving DecidableEq, Repr

namespace Header

/-- The methods that a header implements. -/
def implements : Header → CsMethod → Bool
  | .mutexSemNamedSem, .mutex | .mutexSemNamedSem, .semPosix | .mutexSemNamedSem, .semPosixNamed
  | .semSysv, .semSysv | .messageQueuePosix, .mqPosix | .messageQueueSysv, .mqSysv => true
  | _, _ => false

/-- `cs_init` of a header. -/
def csInitStep (header : Header) :
    ℤ → P → Bool → ℕ → InitPc → Env P T → Option (InitPc × Env P T) :=
  match header with
  | .mutexSemNamedSem => MutexSemNamedSem.csInitStep
  | .semSysv => SemSysv.csInitStep
  | .messageQueuePosix => MessageQueuePosix.csInitStep
  | .messageQueueSysv => MessageQueueSysv.csInitStep

/-- `cs_init(method)` of process `p` as a machine that nobody disturbs. -/
def csInit (header : Header) (method : ℤ) (p : P) :
    Machine (InitPc × Env P T) (Bool × ℕ) Empty where
  step := fun s c => (header.csInitStep method p c.1 c.2 s.1 s.2).map fun r => (none, r)

/-- `cs_enter` of a header. -/
def csEnter : Header → ℤ → Option CheckedCall
  | .mutexSemNamedSem => MutexSemNamedSem.csEnter
  | .semSysv => SemSysv.csEnter
  | .messageQueuePosix => MessageQueuePosix.csEnter
  | .messageQueueSysv => MessageQueueSysv.csEnter

/-- `cs_leave` of a header. -/
def csLeave : Header → ℤ → Option CheckedCall
  | .mutexSemNamedSem => MutexSemNamedSem.csLeave
  | .semSysv => SemSysv.csLeave
  | .messageQueuePosix => MessageQueuePosix.csLeave
  | .messageQueueSysv => MessageQueueSysv.csLeave

end Header

/-- What the threads share: the header's variables and the kernel, and the text that was printed
    by the thread that called `exit`, if one did. -/
structure Shared (P T : Type*) where
  env : Env P T
  exited : Option String

/-- Where a thread is that alternates `cs_enter` and `cs_leave`: before the OS call of one of them,
    at the check of what that call returned, or outside or inside the critical section. -/
inductive Pc
  | outside
  | enterCall
  | enterCheck (ok : Bool)
  | inside
  | leaveCall
  | leaveCheck (ok : Bool)
  deriving DecidableEq

/-- The check of a call: on to `next`, or `perror` and `exit`. -/
def check (c : Option CheckedCall) (ok : Bool) (pc next : Pc) (s : Shared P T) : Shared P T × Pc :=
  if ok then (s, next) else ({ s with exited := c.map CheckedCall.err }, pc)

variable [DecidableEq P] [DecidableEq T]

/-- The next step of thread `i` of process `p`; with `fail` the OS call made fails and leaves
    everything as it was. -/
def threadStep (header : Header) (p : P) (i : T) (fail : Bool) (s : Shared P T) (pc : Pc) :
    Option (Option Empty × Shared P T × Pc) :=
  let method := s.env.vars.csMethodUsed
  if s.exited.isSome then none
  else match pc with
    | .outside => some (none, s, .enterCall)
    | .enterCall =>
      match header.csEnter method with
      | none => some (none, s, .enterCheck true)
      | some c =>
        (if fail then some (false, s.env) else s.env.enterCall c.method p i).map fun r =>
          (none, { s with env := r.2 }, .enterCheck r.1)
    | .enterCheck ok =>
      some (none, check (header.csEnter method) ok (.enterCheck ok) .inside s)
    | .inside => some (none, s, .leaveCall)
    | .leaveCall =>
      match header.csLeave method with
      | none => some (none, s, .leaveCheck true)
      | some c =>
        (if fail then some (false, s.env) else s.env.leaveCall c.method p i).map fun r =>
          (none, { s with env := r.2 }, .leaveCheck r.1)
    | .leaveCheck ok =>
      some (none, check (header.csLeave method) ok (.leaveCheck ok) .outside s)

/-- The threads of process `p`, up to the first call of `exit`. -/
def machine (header : Header) (p : P) : Machine (Config T (Shared P T) Pc) (T × Bool) Empty :=
  Threads.machine (threadStep header p)

/-- All threads outside. -/
def allOutside (env : Env P T) : Config T (Shared P T) Pc := ⟨⟨env, none⟩, fun _ => .outside⟩

/-- One for a thread between the return of `cs_enter` and the call in `cs_leave`. -/
def Pc.atInside : Pc → ℕ
  | .inside | .leaveCall => 1
  | .outside | .enterCall | .enterCheck _ | .leaveCheck _ => 0

/-- One for a thread that holds the token: its call in `cs_enter` has succeeded, and none in
    `cs_leave` has since. -/
def Pc.holding : Pc → ℕ
  | .enterCheck true | .inside | .leaveCall | .leaveCheck false => 1
  | .outside | .enterCall | .enterCheck false | .leaveCheck true => 0

end CheckedHeaders
