import OsSamples.Lib.Kernel

/-!
# Methods, variables and OS calls of the critical-section headers

The method numbers, the variables and the OS calls that `everything.h` and the four headers with
one mechanism each (`mutex_sem_namedSem.h`, `sem_sysv.h`, `messageQueue_posix.h`,
`messageQueue_sysV.h`) have in common.  `everything.h` is the union of the four, so one record
holds the variables of all of them; where a header has its own name for a variable
(`semid` in `sem_sysv.h` is `sysv_semid` here) the content is the same.

Left out because nothing modelled reads it: the received bytes in `message_buffer`, and the
thread number that `cs_enter` and `cs_leave` take and ignore.
-/

/-- `CS_METHOD_ATOMIC` to `CS_METHOD_MQ_SYSV`. -/
inductive CsMethod
  | atomic
  | locked
  | xchg
  | testXchg
  | mutex
  | semPosix
  | semPosixNamed
  | semSysv
  | mqPosix
  | mqSysv
  deriving DecidableEq, Repr

namespace CsMethod

/-- The values of the `CS_METHOD_…` macros. -/
def toInt : CsMethod → ℤ
  | atomic => 0
  | locked => 1
  | xchg => 2
  | testXchg => 3
  | mutex => 4
  | semPosix => 5
  | semPosixNamed => 6
  | semSysv => 7
  | mqPosix => 8
  | mqSysv => 9

/-- The `case` that a `switch` on `n` takes, `none` for `default`. -/
def ofInt (n : ℤ) : Option CsMethod :=
  match n with
  | 0 => some atomic
  | 1 => some locked
  | 2 => some xchg
  | 3 => some testXchg
  | 4 => some mutex
  | 5 => some semPosix
  | 6 => some semPosixNamed
  | 7 => some semSysv
  | 8 => some mqPosix
  | 9 => some mqSysv
  | _ => none

@[simp] theorem ofInt_toInt (m : CsMethod) : ofInt m.toInt = some m := by cases m <;> rfl

/-- The methods from `CS_METHOD_XCHG` to `CS_METHOD_MQ_SYSV`, which lock. -/
def isLock : CsMethod → Bool
  | atomic | locked => false
  | _ => true

/-- The methods whose `cs_enter` and `cs_leave` are one OS call each. -/
def isCall : CsMethod → Bool
  | mutex | semPosix | semPosixNamed | semSysv | mqPosix | mqSysv => true
  | _ => false

/-- The OS calls that can return an error without being misused: those that wait for a token in
    a semaphore or in a queue. -/
def isToken : CsMethod → Bool
  | semPosix | semPosixNamed | semSysv | mqPosix | mqSysv => true
  | _ => false

end CsMethod

/-- The name of the POSIX semaphore. -/
def SEM_NAME : String := "/named_sem_st61014"

/-- The name of the POSIX message queue. -/
def MQ_NAME : String := "/st61014_mq"

/-- The message size, in bytes. -/
def MESSAGE_SIZE : ℕ := 10

/-- The variables of the headers.  A handle is the identifier of a kernel object, or `none` where
    the variable holds what a failed call returned (`SEM_FAILED`, `-1`, `(mqd_t) -1`).  The
    unnamed mutex and semaphore live in the process: the mutex is its owner, the semaphore its
    value. -/
structure CsVars (T : Type*) where
  csMethodUsed : ℤ
  csVarAllocated : Bool
  locked : Bool
  lockedAtomic : Bool
  csMutex : Option T
  csSem : ℕ
  csNamedSem : Option ℕ
  sysvSemid : Option ℕ
  messageQueue : Option ℕ
  mqSysv : Option ℕ
  msgBufSysv : ℤ

/-- The static initial values; a mutex or semaphore variable means nothing before its
    initialisation. -/
def CsVars.static (T : Type*) : CsVars T where
  csMethodUsed := -1
  csVarAllocated := false
  locked := false
  lockedAtomic := false
  csMutex := none
  csSem := 0
  csNamedSem := none
  sysvSemid := none
  messageQueue := none
  mqSysv := none
  msgBufSysv := 0

/-- What the threads of one process work on: the variables of the header and the kernel. -/
structure Env (P T : Type*) where
  vars : CsVars T
  kernel : Kernel P

namespace Env

variable {P T : Type*}

/-- The result of a call on kernel objects, as a result on the whole environment. -/
def ofKernel (env : Env P T) (r : Bool × Kernel P) : Bool × Env P T :=
  (r.1, { env with kernel := r.2 })

/-- A call on the object that a handle names; a call on an invalid handle fails. -/
def onHandle (env : Env P T) (h : Option ℕ) (call : ℕ → Kernel P → Option (Bool × Kernel P)) :
    Option (Bool × Env P T) :=
  match h with
  | none => some (false, env)
  | some id => (call id env.kernel).map env.ofKernel

variable [DecidableEq P] [DecidableEq T]

/-- `pthread_mutex_lock(&cs_mutex)` by thread `i`. -/
def pthreadMutexLock (i : T) (env : Env P T) : Option (Bool × Env P T) :=
  match env.vars.csMutex with
  | some _ => none
  | none => some (true, { env with vars := { env.vars with csMutex := some i } })

/-- `pthread_mutex_unlock(&cs_mutex)` by thread `i`, an error unless `i` is the owner. -/
def pthreadMutexUnlock (i : T) (env : Env P T) : Option (Bool × Env P T) :=
  if env.vars.csMutex = some i then
    some (true, { env with vars := { env.vars with csMutex := none } })
  else some (false, env)

/-- `sem_wait(&cs_sem)`. -/
def semWait (env : Env P T) : Option (Bool × Env P T) :=
  if env.vars.csSem = 0 then none
  else some (true, { env with vars := { env.vars with csSem := env.vars.csSem - 1 } })

/-- `sem_post(&cs_sem)`. -/
def semPost (env : Env P T) : Option (Bool × Env P T) :=
  if env.vars.csSem ≥ SEM_VALUE_MAX then some (false, env)
  else some (true, { env with vars := { env.vars with csSem := env.vars.csSem + 1 } })

/-- `msgrcv(mq_sysv, &msg_buf_sysv, 0, 0, 0)`, which stores the type received. -/
def msgrcv (env : Env P T) : Option (Bool × Env P T) :=
  match env.vars.mqSysv with
  | none => some (false, env)
  | some id => (env.kernel.msgrcv id 0).map fun r =>
    match r.1 with
    | none => (false, { env with kernel := r.2 })
    | some mtype => (true, ⟨{ env.vars with msgBufSysv := mtype }, r.2⟩)

/-- `mq_receive(message_queue, message_buffer, MESSAGE_SIZE, NULL)`. -/
def mqReceive (env : Env P T) : Option (Bool × Env P T) :=
  env.onHandle env.vars.messageQueue fun id => Kernel.mqReceive id MESSAGE_SIZE

/-- `mq_send(message_queue, MESSAGE, MESSAGE_SIZE, 0)`. -/
def mqSend (env : Env P T) : Option (Bool × Env P T) :=
  env.onHandle env.vars.messageQueue fun id => Kernel.mqSend id MESSAGE_SIZE

/-- `msgsnd(mq_sysv, &msg_buf_sysv, 0, 0)`. -/
def msgsnd (env : Env P T) : Option (Bool × Env P T) :=
  env.onHandle env.vars.mqSysv fun id => Kernel.msgsnd id env.vars.msgBufSysv 0

/-- The OS call of `cs_enter` for method `m`, made by thread `i` of process `p`. -/
def enterCall (m : CsMethod) (p : P) (i : T) (env : Env P T) : Option (Bool × Env P T) :=
  match m with
  | .mutex => env.pthreadMutexLock i
  | .semPosix => env.semWait
  | .semPosixNamed => env.onHandle env.vars.csNamedSem Kernel.semWait
  | .semSysv => env.onHandle env.vars.sysvSemid (Kernel.semop p (-1))
  | .mqPosix => env.mqReceive
  | .mqSysv => env.msgrcv
  | .atomic | .locked | .xchg | .testXchg => none

/-- The OS call of `cs_leave` for method `m`, made by thread `i` of process `p`. -/
def leaveCall (m : CsMethod) (p : P) (i : T) (env : Env P T) : Option (Bool × Env P T) :=
  match m with
  | .mutex => env.pthreadMutexUnlock i
  | .semPosix => env.semPost
  | .semPosixNamed => env.onHandle env.vars.csNamedSem Kernel.semPost
  | .semSysv => env.onHandle env.vars.sysvSemid (Kernel.semop p 1)
  | .mqPosix => env.mqSend
  | .mqSysv => env.msgsnd
  | .atomic | .locked | .xchg | .testXchg => none

end Env
