import Mathlib.Data.Fintype.Basic
import OsSamples.Lib.Machine
import OsSamples.Lib.Signals

/-!
# `sigUSRwait.c`: a handler for SIGCHLD that reaps the children

`main` installs `catch_child` and forks `n` children, two in the source; a child terminates at any
time.  A child that has terminated stays a zombie until a call of `waitpid` reaps it, and generates
SIGCHLD when it terminates.  The kernel decides which of the zombies `waitpid(-1, …)` reaps.  The
handler is called at any time while SIGCHLD is pending and not blocked, so that `main` may also go
on for a while.  SIGCHLD may besides be sent by another process.

Each call of a library function in `catch_child` is one step, the two calls of `printf` that report
a child being one.  Left out: what `main` prints, its waiting, and the signals that it sends to the
children; all this is one step from the last `fork` to the end of the process.
-/

namespace SigUSRwait

open Signals

/-- The signals of the process. -/
inductive Signal
  | SIGCHLD
  deriving DecidableEq

instance : Fintype Signal where
  elems := {.SIGCHLD}
  complete signo := by cases signo; decide

/-- `sa_chld.sa_mask`. -/
def saMask : SigSet Signal := sigaddset sigemptyset .SIGCHLD

/-- How a child has terminated. -/
inductive Status
  | exited (status : ℕ)
  | signaled (signo : ℕ)
  | other
  deriving DecidableEq

/-- What is printed after the PID of the child. -/
def Status.text : Status → String
  | .exited status => "with exit status " ++ toString status ++ ".\n"
  | .signaled signo => "by signal " ++ toString signo ++ ".\n"
  | .other => "abnormally.\n"

/-- A child; one whose `fork` has failed stays as it was. -/
inductive Child
  | notForked
  | running
  | zombie (status : Status)
  | reaped (status : Status)
  deriving DecidableEq

def Child.isZombie : Child → Bool
  | .zombie _ => true
  | _ => false

/-- Where `main` is. -/
inductive MainPc
  | sigaction
  -- before the `fork` of the child `i`
  | fork (i : ℕ)
  -- after the last `fork`
  | wait
  | exited
  deriving DecidableEq

/-- Where a call of `catch_child` is. -/
inductive HandlerPc (n : ℕ)
  | printCatched
  | waitpid
  -- with the values of `pid` and `child_stat`
  | report (c : Fin n) (status : Status)
  | ret
  deriving DecidableEq

/-- A call of `catch_child`, with the mask that is restored when it returns. -/
structure Frame (n : ℕ) where
  pc : HandlerPc n
  oldMask : SigSet Signal

/-- The process and its children.  The calls of `catch_child` are listed from the innermost one
    on. -/
structure State (n : ℕ) where
  main : MainPc
  handlers : List (Frame n)
  kernel : SigState Signal
  child : Fin n → Child

/-- What is visible of a step: a line, a child that `waitpid` returns, or the report on a child. -/
inductive Event (n : ℕ)
  | print (text : String)
  | reaped (c : Fin n) (status : Status)
  | report (c : Fin n) (text : String)
  deriving DecidableEq

variable {n : ℕ}

/-- One step of `main`; `forks` is whether a `fork` succeeds. -/
def mainStep (forks : Bool) (s : State n) : Option (State n) :=
  match s.main with
  | .sigaction =>
    some { s with kernel := s.kernel.sigaction .SIGCHLD .handler, main := .fork 0 }
  | .fork i =>
    if h : i < n then
      some { s with
        child := if forks then Function.update s.child ⟨i, h⟩ .running else s.child
        main := .fork (i + 1) }
    else some { s with main := .wait }
  | .wait => some { s with main := .exited }
  | .exited => none

/-- One step of the call `f` of `catch_child`, made during the calls `fs`; `reap` is the child that
    `waitpid` returns, and `none` if it returns 0, or -1 where there is no child. -/
def catchChild (reap : Option (Fin n)) (f : Frame n) (fs : List (Frame n)) (s : State n) :
    Option (Option (Event n) × State n) :=
  match f.pc with
  | .printCatched => some (some (.print "Catched SIGCHLD: Calling waitpid().\n"),
      { s with handlers := { f with pc := .waitpid } :: fs })
  | .waitpid =>
    match reap with
    | none =>
      if ∀ c, (s.child c).isZombie = false then
        some (none, { s with handlers := { f with pc := .ret } :: fs })
      else none
    | some c =>
      match s.child c with
      | .zombie status => some (some (.reaped c status), { s with
          child := Function.update s.child c (.reaped status)
          handlers := { f with pc := .report c status } :: fs })
      | _ => none
  | .report c status => some (some (.report c status.text),
      { s with handlers := { f with pc := .waitpid } :: fs })
  -- the return from the handler restores the mask
  | .ret => some (none, { s with kernel := s.kernel.setMask f.oldMask, handlers := fs })

/-- The delivery of SIGCHLD, which is ignored by default. -/
def deliver (s : State n) : State n :=
  match s.kernel.action .SIGCHLD with
  | .dfl | .ign => { s with kernel := s.kernel.discard .SIGCHLD }
  | .handler => { s with
      handlers := ⟨.printCatched, s.kernel.mask⟩ :: s.handlers
      kernel := s.kernel.handle .SIGCHLD saMask }

/-- `main` or the innermost handler goes on, SIGCHLD is delivered, a child terminates, or another
    process sends SIGCHLD. -/
inductive Act (n : ℕ)
  | main (forks : Bool)
  | handler (reap : Option (Fin n))
  | deliver
  | terminate (c : Fin n) (status : Status)
  | kill
  deriving DecidableEq

/-- One step, until the process has ended. -/
def step (s : State n) (a : Act n) : Option (Option (Event n) × State n) :=
  if s.main = .exited then none
  else match a with
    | .main forks =>
      match s.handlers with
      | [] => (mainStep forks s).map fun s' => (none, s')
      | _ :: _ => none
    | .handler reap =>
      match s.handlers with
      | [] => none
      | f :: fs => catchChild reap f fs s
    | .deliver => if s.kernel.deliverable .SIGCHLD then some (none, deliver s) else none
    | .terminate c status =>
      if s.child c = .running then
        some (none, { s with
          child := Function.update s.child c (.zombie status)
          kernel := s.kernel.generate .SIGCHLD })
      else none
    | .kill => some (none, { s with kernel := s.kernel.generate .SIGCHLD })

/-- The process with `n` children. -/
def machine (n : ℕ) : Machine (State n) (Act n) (Event n) where
  step := step

/-- Before `sigaction`, in a process that was started with SIGCHLD ignored or not, blocked or not,
    and pending or not. -/
def initial (n : ℕ) (ignored mask pending : SigSet Signal) : State n where
  main := .sigaction
  handlers := []
  kernel := ⟨mask, pending, fun signo => if ignored signo then .ign else .dfl⟩
  child := fun _ => .notForked

end SigUSRwait
