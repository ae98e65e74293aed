import Mathlib.Algebra.GroupWithZero.Nat
import OsSamples.Lib.Machine
import OsSamples.Lib.Signals

/-!
# `signals_1uloha.c`: waiting for SIGINT or for the alarm

The program as it runs with its signals: `main` and the handler `catch_sig`, cut into steps at each
call of a library function and each access to `interrupted`.  A signal that is pending and not
blocked is delivered before the program goes on.  Its handler keeps the signals of `sa_mask`
blocked; when it returns, the mask is the one that was in force before, or before `sigsuspend` where
it has interrupted that.

SIGINT may be generated at any time, and SIGALRM at any time while the alarm is set.  The process is
started with some signals ignored and some blocked.  Left out: other signals, and the time.
-/

namespace Signals1uloha

open Signals

/-- The signals of the program. -/
inductive Signal
  | SIGINT
  | SIGALRM
  deriving DecidableEq

instance : Fintype Signal where
  elems := {.SIGINT, .SIGALRM}
  complete signo := by cases signo <;> decide

def Signal.signo : Signal → ℕ
  | .SIGINT => 2
  | .SIGALRM => 14

/-- `sa_new.sa_mask`. -/
def saMask : SigSet Signal := sigaddset (sigaddset sigemptyset .SIGALRM) .SIGINT

/-- `sigs`. -/
def sigs : SigSet Signal := sigdelset (sigdelset sigfillset .SIGINT) .SIGALRM

/-- Where `main` is: before the call or the access, or in `sigsuspend`, with the mask from
    before. -/
inductive MainPc
  | sigaction (signo : Signal)
  | puts
  | alarm
  | sigsuspend
  | suspended (oldMask : SigSet Signal)
  | sigsuspendReturn
  | restore (signo : Signal)
  | testInterrupted
  | putsBreak
  | putsContinue
  | returned (code : ℕ)
  | killed (signo : Signal)
  deriving DecidableEq

/-- Where a call of `catch_sig` is. -/
inductive HandlerPc
  | printCatched
  | cancelAlarm
  | printName
  | setInterrupted
  | printSigno
  | ret
  deriving DecidableEq

/-- A call of `catch_sig`, with the mask that is restored when it returns. -/
structure Frame where
  signo : Signal
  pc : HandlerPc
  oldMask : SigSet Signal

/-- The process.  The calls of `catch_sig` are listed from the innermost one on; `saOld` is `sa_old`
    and `sa_old_sigalrm`. -/
structure State where
  main : MainPc
  handlers : List Frame
  kernel : SigState Signal
  alarm : Bool
  saOld : Signal → Disposition
  interrupted : Bool

/-- What happens in a step: `catch_sig` is called, or something is printed. -/
inductive Event
  | caught (signo : Signal)
  | print (text : String)
  deriving DecidableEq

/-- One step of `main`. -/
def mainStep (s : State) : Option (Option Event × State) :=
  match s.main with
  | .sigaction signo =>
    some (none, { s with
      saOld := Function.update s.saOld signo (s.kernel.action signo)
      kernel := s.kernel.sigaction signo .handler
      main := match signo with
        | .SIGINT => .sigaction .SIGALRM
        | .SIGALRM => .puts })
  | .puts =>
    some (some (.print "You have 5 seconds to interrupt by SIGINT (press CTRL+C to break).\n"),
      { s with main := .alarm })
  | .alarm => some (none, { s with alarm := true, main := .sigsuspend })
  -- the old mask is kept until a handler has returned
  | .sigsuspend =>
    some (none, { s with kernel := s.kernel.setMask sigs, main := .suspended s.kernel.mask })
  | .sigsuspendReturn => some (none, { s with main := .restore .SIGINT })
  | .restore signo =>
    some (none, { s with
      kernel := s.kernel.sigaction signo (s.saOld signo)
      main := match signo with
        | .SIGINT => .restore .SIGALRM
        | .SIGALRM => .testInterrupted })
  | .testInterrupted =>
    some (none, { s with main := if s.interrupted then .putsBreak else .putsContinue })
  | .putsBreak => some (some (.print "User requested to break.\n"), { s with main := .returned 1 })
  | .putsContinue => some (some (.print "Process continues.\n"), { s with main := .returned 0 })
  | .suspended _ | .returned _ | .killed _ => none

/-- One step of the call `f` of `catch_sig`, made during the calls `fs`. -/
def catchSig (f : Frame) (fs : List Frame) (s : State) : Option Event × State :=
  match f.pc with
  | .printCatched =>
    (some (.print "\nCatched the signal:"), { s with
      handlers := { f with pc := match f.signo with
        | .SIGINT => .cancelAlarm
        | .SIGALRM => .printName } :: fs })
  | .cancelAlarm => (none, { s with alarm := false, handlers := { f with pc := .printName } :: fs })
  | .printName =>
    match f.signo with
    | .SIGINT =>
      (some (.print " SIGINT"), { s with handlers := { f with pc := .setInterrupted } :: fs })
    | .SIGALRM =>
      (some (.print " SIGALRM"), { s with handlers := { f with pc := .printSigno } :: fs })
  | .setInterrupted =>
    (none, { s with interrupted := true, handlers := { f with pc := .printSigno } :: fs })
  | .printSigno =>
    (some (.print (" " ++ toString f.signo.signo ++ "\n")),
      { s with handlers := { f with pc := .ret } :: fs })
  -- the return from a handler restores the mask
  | .ret => (none, { s with kernel := s.kernel.setMask f.oldMask, handlers := fs })

/-- The process has ended. -/
def MainPc.ended : MainPc → Bool
  | .returned _ | .killed _ => true
  | _ => false

/-- Where `main` goes on after a handler. -/
def MainPc.interrupt : MainPc → MainPc
  -- `sigsuspend` returns after the handler
  | .suspended _ => .sigsuspendReturn
  | pc => pc

/-- The mask that is to be restored after a handler. -/
def MainPc.oldMask (mask : SigSet Signal) : MainPc → SigSet Signal
  | .suspended oldMask => oldMask
  | _ => mask

/-- The delivery of a signal. -/
def deliver (signo : Signal) (s : State) : Option Event × State :=
  match s.kernel.action signo with
  | .dfl => (none, { s with main := .killed signo })
  | .ign => (none, { s with kernel := s.kernel.discard signo })
  | .handler =>
    (some (.caught signo), { s with
      main := s.main.interrupt
      handlers := ⟨signo, .printCatched, s.main.oldMask s.kernel.mask⟩ :: s.handlers
      kernel := s.kernel.handle signo saMask })

/-- The program goes on, a signal is delivered, SIGINT is generated, or the alarm goes off. -/
inductive Act
  | run
  | deliver (signo : Signal)
  | sigint
  | timer
  deriving DecidableEq

/-- One step of the process. -/
def step (s : State) (a : Act) : Option (Option Event × State) :=
  if s.main.ended then none
  else match a with
    | .run =>
      -- first the signals that are to be delivered, then the innermost handler, then `main`
      if s.kernel.Quiet then
        match s.handlers with
        | [] => mainStep s
        | f :: fs => some (catchSig f fs s)
      else none
    | .deliver signo =>
      if s.kernel.deliverable signo then some (deliver signo s) else none
    | .sigint => some (none, { s with kernel := s.kernel.generate .SIGINT })
    | .timer =>
      if s.alarm then
        some (none, { s with alarm := false, kernel := s.kernel.generate .SIGALRM })
      else none

def machine : Machine State Act Event where
  step := step

/-- What a process does with a signal when it is started. -/
def oldAction (ignored : SigSet Signal) (signo : Signal) : Disposition :=
  if ignored signo then .ign else .dfl

/-- Before the first `sigaction`. -/
def initial (ignored mask : SigSet Signal) : State where
  main := .sigaction .SIGINT
  handlers := []
  kernel := ⟨mask, sigemptyset, oldAction ignored⟩
  alarm := false
  saOld := fun _ => .dfl
  interrupted := false

end Signals1uloha
