import OsSamples.Lib.KernelResources
import OsSamples.Native.Everything

/-!
# The life of a process that uses `everything.h`

`main` calls `cs_init`, runs threads that call `cs_enter` and `cs_leave`, and ends with `exit`; a
`cs_init` that fails calls `exit` itself.  `exit` runs the handler `release_resources`, which calls
`cs_destroy`, and then the kernel ends the process.  Every OS call may fail.

Left out: the barrier that `release_resources` destroys first, which is a variable of the process.
-/

namespace Everything

/-- Where a process is: in `cs_init`, with its threads running, in the handlers of `exit` (where
    the threads still run, if `cs_init` has returned), or ended. -/
inductive LifePc
  | init (pc : InitPc)
  | running
  | exiting (initialised : Bool)
  | ended
  deriving DecidableEq

/-- A process and the kernel. -/
structure Life (P T : Type*) where
  env : Env P T
  pc : LifePc
  loc : T → ThreadPc

/-- What happens next in a process. -/
inductive LifeAction (T : Type*)
  -- the next call of `cs_init`, whether it fails, and the identifier of a new object
  | init (fail : Bool) (fresh : ℕ)
  -- the next step of a thread, and whether its call fails
  | thread (i : T) (fail : Bool)
  -- `main` returns, or a thread calls `exit`
  | exit
  -- `release_resources`, and whether the call of `cs_destroy` fails
  | releaseResources (fail : Bool)
  deriving DecidableEq

/-- A call that created a resource, a call that was to remove one and failed, or another call of
    `cs_init` that failed. -/
inductive ResourceEvent
  | created (r : Resource)
  | removeFailed (r : Resource)
  | initFailed (pc : InitPc)
  deriving DecidableEq

variable {P T : Type*} [DecidableEq P] [DecidableEq T]

/-- The event of a step of `cs_init` that leads from `pc` to `pc'`, with the variables after it. -/
def initEvent (pc : InitPc) (fail : Bool) (pc' : InitPc) (v : CsVars T) : Option ResourceEvent :=
  match pc, pc' with
  | .semOpen, .semUnlink => some (.created (.semName SEM_NAME))
  | .semget, .semctl => v.sysvSemid.map fun id => .created (.semSet id)
  | .mqOpen, .mqUnlink => some (.created (.mqName MQ_NAME))
  | .msgget, .msgsnd => v.mqSysv.map fun id => .created (.msgQ id)
  | .semUnlink, _ => if fail then some (.removeFailed (.semName SEM_NAME)) else none
  | .mqUnlink, .exited _ => some (.removeFailed (.mqName MQ_NAME))
  | pc, .exited _ => some (.initFailed pc)
  | _, _ => none

/-- The resource that `cs_destroy` is going to remove. -/
def toRemove (v : CsVars T) : Option Resource :=
  if v.csVarAllocated then
    match CsMethod.ofInt v.csMethodUsed with
    | some .semSysv => v.sysvSemid.map .semSet
    | some .mqSysv => v.mqSysv.map .msgQ
    | _ => none
  else none

/-- The next step of process `p`, which calls `cs_init(method)`. -/
def lifeStep (method : ℤ) (busyWaitYields : Bool) (p : P) (st : Life P T) (a : LifeAction T) :
    Option (Option ResourceEvent × Life P T) :=
  let thread (i : T) (fail : Bool) : Option (Option ResourceEvent × Life P T) :=
    (threadStep busyWaitYields p i fail st.env (st.loc i)).map fun r =>
      (none, { st with env := r.2.1, loc := Function.update st.loc i r.2.2 })
  match st.pc, a with
  | .init pc, .init fail fresh =>
    (csInitStep method p fail fresh pc st.env).map fun r =>
      (initEvent pc fail r.1 r.2.vars,
        { st with
          env := r.2
          pc := match r.1 with
            | .done => .running
            -- `exit(EXIT_FAILURE)`
            | .exited _ => .exiting false
            | pc => .init pc })
  | .running, .thread i fail | .exiting true, .thread i fail => thread i fail
  | .running, .exit => some (none, { st with pc := .exiting true })
  | .exiting _, .releaseResources fail =>
    let (err, env) := csDestroy fail st.env
    some (if err = none then none else (toRemove st.env.vars).map .removeFailed,
      { st with env := { env with kernel := env.kernel.exitProcess p }, pc := .ended })
  | _, _ => none

/-- A process from the call of `cs_init` to its end. -/
def life (method : ℤ) (busyWaitYields : Bool) (p : P) :
    Machine (Life P T) (LifeAction T) ResourceEvent where
  step := lifeStep method busyWaitYields p

/-- `main` before it calls `cs_init`. -/
def initialLife (T : Type*) (k : Kernel P) : Life P T :=
  ⟨⟨.static T, k⟩, .init .start, fun _ => .outside⟩

end Everything
