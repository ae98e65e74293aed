import Mathlib.Data.Fintype.Basic
import OsSamples.Native.Everything

/-!
# Several processes that use `everything.h`

Processes of one user on one kernel.  Each runs `cs_init`, then `cs_enter` and `cs_leave` in any
number of threads, and when its threads are done `cs_destroy`; every kernel call is one step.  The
calls of `cs_init` and `cs_destroy` may also fail for no reason; a process that fails in `cs_init`
has ended.
-/

namespace Everything

/-- The life cycle of a process. -/
inductive ProcPc
  | init (pc : InitPc)
  | running
  | ended
  deriving DecidableEq

/-- A process with threads `T`: its copy of the header's variables, and where it is. -/
structure Proc (T : Type*) where
  vars : CsVars T
  pc : ProcPc
  loc : T → ThreadPc

/-- All processes, each with its own threads, and the kernel. -/
structure World (P : Type*) (T : P → Type*) where
  kernel : Kernel P
  procs : (p : P) → Proc (T p)

/-- What a process does next: a step of `cs_init`, of one of its threads, or `cs_destroy`. -/
inductive ProcAction (T : Type*)
  | init (fail : Bool) (fresh : ℕ)
  | thread (i : T)
  | destroy (fail : Bool)
  deriving DecidableEq

/-- Process `user` operates on, unlinks or removes an object that `creator` created. -/
structure ObjectUse (P : Type*) where
  user : P
  creator : P
  deriving DecidableEq

section Process

variable {P T : Type*} [DecidableEq P] [DecidableEq T] [Fintype T]

/-- The creator of the object that the method's handle names. -/
def handleCreator (env : Env P T) : Option P :=
  match CsMethod.ofInt env.vars.csMethodUsed with
  | some .semPosixNamed => (env.vars.csNamedSem.bind env.kernel.sems).map PosixSem.creator
  | some .semSysv => (env.vars.sysvSemid.bind env.kernel.semSets).map SysvSem.creator
  | some .mqPosix => (env.vars.messageQueue.bind env.kernel.mqs).map PosixMq.creator
  | some .mqSysv => (env.vars.mqSysv.bind env.kernel.msgQs).map SysvMq.creator
  | _ => none

/-- The creator of the object that the next step of a process operates on, if there is one. -/
def usedObject (k : Kernel P) (proc : Proc T) (a : ProcAction T) : Option P :=
  match proc.pc, a with
  | .init .semUnlink, .init _ _ =>
    ((k.semNames SEM_NAME).bind k.sems).map PosixSem.creator
  | .init .mqUnlink, .init _ _ => ((k.mqNames MQ_NAME).bind k.mqs).map PosixMq.creator
  | .init .semctl, .init _ _ | .init .mqSend, .init _ _ | .init .msgsnd, .init _ _ =>
    handleCreator ⟨proc.vars, k⟩
  | .running, .thread i =>
    match proc.loc i with
    | .entering .call | .leaving => handleCreator ⟨proc.vars, k⟩
    | .outside | .entering _ | .inside => none
  | .running, .destroy _ => handleCreator ⟨proc.vars, k⟩
  | _, _ => none

/-- The next step of process `p`, which uses method `m`. -/
def procStep (m : CsMethod) (busyWaitYields : Bool) (p : P) (a : ProcAction T) (k : Kernel P)
    (proc : Proc T) : Option (Kernel P × Proc T) :=
  match proc.pc, a with
  | .init pc, .init fail fresh =>
    (csInitStep m.toInt p fail fresh pc ⟨proc.vars, k⟩).map fun r =>
      (r.2.kernel,
        { proc with vars := r.2.vars, pc := if r.1 = .done then .running else .init r.1 })
  | .running, .thread i =>
    (threadStep busyWaitYields p i false ⟨proc.vars, k⟩ (proc.loc i)).map fun r =>
      (r.2.1.kernel,
        { proc with vars := r.2.1.vars, loc := Function.update proc.loc i r.2.2 })
  | .running, .destroy fail =>
    if ∀ i, proc.loc i = .outside then
      let r := (csDestroy fail ⟨proc.vars, k⟩).2
      some (r.kernel, { proc with vars := r.vars, pc := .ended })
    else none
  | _, _ => none

end Process

variable {P : Type*} {T : P → Type*} [DecidableEq P] [∀ p, DecidableEq (T p)] [∀ p, Fintype (T p)]

/-- The interleaving of all processes. -/
def worldMachine (m : P → CsMethod) (busyWaitYields : P → Bool) :
    Machine (World P T) (Σ p, ProcAction (T p)) (ObjectUse P) where
  step := fun w a =>
    (procStep (m a.1) (busyWaitYields a.1) a.1 a.2 w.kernel (w.procs a.1)).map fun r =>
      ((usedObject w.kernel (w.procs a.1) a.2).map fun creator => ⟨a.1, creator⟩,
        ⟨r.1, Function.update w.procs a.1 r.2⟩)

/-- No process has taken a step yet. -/
def initialWorld (T : P → Type*) (k : Kernel P) : World P T :=
  ⟨k, fun p => ⟨.static (T p), .init .start, fun _ => .outside⟩⟩

end Everything
