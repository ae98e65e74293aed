import Mathlib.Data.Fintype.Basic
import OsSamples.Native.CheckedHeaders

/-!
# Several processes that use `sem_sysv.h`

Processes of one user on one kernel.  Each runs `cs_init` with `CS_METHOD_SEM_SYSV`, then
`cs_enter` and `cs_leave` in any number of threads, and when its threads are done `cs_destroy`;
every kernel call is one step, and any of them may also fail for no reason.  A process that has
called `exit` or returned from `main` ends in one more step, in which the kernel undoes its
semaphore operations.
-/

namespace CheckedHeaders.SemSysv

open Everything (InitPc)

/-- The life cycle of a process; one that has called `exit` or returned from `main` is `exiting`,
    with the text that it printed before, if any. -/
inductive ProcPc
  | init (pc : InitPc)
  | running
  | exiting (err : Option String)
  | ended
  deriving DecidableEq

/-- Where `cs_init` leaves the process. -/
def ProcPc.ofInit : InitPc → ProcPc
  | .done => .running
  | .exited err => .exiting (some err)
  | pc => .init pc

/-- Where a thread leaves the process, which may have called `exit`. -/
def ProcPc.ofExited : Option String → ProcPc
  | none => .running
  | some err => .exiting (some err)

/-- A process with threads `T`: its copy of the header's variables, and where it is. -/
structure Proc (T : Type*) where
  vars : CsVars T
  pc : ProcPc
  loc : T → Pc

/-- All processes, each with its own threads, and the kernel. -/
structure World (P : Type*) (T : P → Type*) where
  kernel : Kernel P
  procs : (p : P) → Proc (T p)

/-- What a process does next: a step of `cs_init`, of one of its threads, `cs_destroy`, or its
    end. -/
inductive ProcAction (T : Type*)
  | init (fail : Bool) (fresh : ℕ)
  | thread (i : T) (fail : Bool)
  | destroy (fail : Bool)
  | exit
  deriving DecidableEq

section Process

variable {P T : Type*} [DecidableEq P] [DecidableEq T] [Fintype T]

/-- The next step of process `p`. -/
def procStep (p : P) (a : ProcAction T) (k : Kernel P) (proc : Proc T) :
    Option (Kernel P × Proc T) :=
  match proc.pc, a with
  | .init pc, .init fail fresh =>
    (csInitStep CsMethod.semSysv.toInt p fail fresh pc ⟨proc.vars, k⟩).map fun r =>
      (r.2.kernel, { proc with vars := r.2.vars, pc := .ofInit r.1 })
  | .running, .thread i fail =>
    (threadStep .semSysv p i fail ⟨⟨proc.vars, k⟩, none⟩ (proc.loc i)).map fun r =>
      (r.2.1.env.kernel,
        ⟨r.2.1.env.vars, .ofExited r.2.1.exited, Function.update proc.loc i r.2.2⟩)
  | .running, .destroy fail =>
    if ∀ i, proc.loc i = .outside then
      let r := csDestroy fail ⟨proc.vars, k⟩
      some (r.2.kernel, { proc with vars := r.2.vars, pc := .exiting r.1 })
    else none
  | .exiting _, .exit => some (k.exitProcess p, { proc with pc := .ended })
  | _, _ => none

end Process

variable {P : Type*} {T : P → Type*} [DecidableEq P]

/-- The world after a step of process `p` that leaves the kernel and the process as in `r`. -/
def World.after (w : World P T) (p : P) (r : Kernel P × Proc (T p)) : World P T :=
  ⟨r.1, Function.update w.procs p r.2⟩

@[simp] theorem World.after_kernel (w : World P T) (p : P) (r : Kernel P × Proc (T p)) :
    (w.after p r).kernel = r.1 := rfl

@[simp] theorem World.after_procs_self (w : World P T) (p : P) (r : Kernel P × Proc (T p)) :
    (w.after p r).procs p = r.2 := Function.update_self ..

theorem World.after_procs_of_ne (w : World P T) {p q : P} (hq : q ≠ p)
    (r : Kernel P × Proc (T p)) : (w.after p r).procs q = w.procs q :=
  Function.update_of_ne hq ..

/-- The interleaving of all processes. -/
def worldMachine [∀ p, DecidableEq (T p)] [∀ p, Fintype (T p)] :
    Machine (World P T) (Σ p, ProcAction (T p)) Empty where
  step := fun w a =>
    (procStep a.1 a.2 w.kernel (w.procs a.1)).map fun r => (none, w.after a.1 r)

/-- No process has taken a step yet. -/
def initialWorld (T : P → Type*) (k : Kernel P) : World P T :=
  ⟨k, fun p => ⟨.static (T p), .init .start, fun _ => .outside⟩⟩

end CheckedHeaders.SemSysv
