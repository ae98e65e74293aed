import OsSamples.Lib.CondVar
import OsSamples.Lib.Machine

/-!
# `SyncMonitor.java`: 1 before 2, with a Java monitor

`main` with `CalculateValue`, and `PrintThread` with `GetValue`.  The monitor of a Java object is a
mutex with one condition variable, and `wait` may return without a `notify`.  Any time may pass
before a step, so that the sleep value makes no difference; `val` is only written by `main`, so that
`val++` is one step.

Left out: the command line, of which only the sleep value is taken; and the interrupts, which no
thread sends.
-/

namespace SyncMonitor

/-- The threads. -/
inductive Thread
  | main
  | print
  deriving DecidableEq

/-- Where `main` is: before the call or the assignment, and in `CalculateValue` from `enter` to
    `exit`. -/
inductive MainPc
  | start
  | println
  | enter
  | incr
  | set
  | notify
  | exit
  | join
  | returned
  deriving DecidableEq

/-- Where `PrintThread` is: in `GetValue` from `enter` to `exit`, with the value that is returned;
    `wait` and `waiting` are before and in the call of `wait`. -/
inductive PrintPc
  | notStarted
  | sleep
  | enter
  | test
  | wait
  | waiting
  | read
  | exit (val : ℤ)
  | println (val : ℤ)
  | ended
  deriving DecidableEq

/-- The threads, and the fields of the `Calculation` with its monitor. -/
structure State where
  main : MainPc
  print : PrintPc
  val : ℤ
  calculated : Bool
  monitor : CondVar Thread

/-- A line on `System.out`. -/
inductive Event
  | println (line : String)
  deriving DecidableEq

/-- A thread goes on, or `PrintThread` is woken without a `notify`; `wakes` is the thread that
    `notify` wakes. -/
inductive Act
  | main (wakes : Option Thread)
  | print
  | spurious
  deriving DecidableEq

/-- The variable `Value` of `main`. -/
def Value : ℤ := 1

/-- What `main` prints. -/
def firstLine : Event := .println ("1: doing calculation, initial value is " ++ toString Value)

/-- What `PrintThread` prints. -/
def secondLine (val : ℤ) : Event := .println ("2: using calculated value " ++ toString val)

/-- One step of `main`. -/
def mainStep (wakes : Option Thread) (s : State) : Option (Option Event × State) :=
  match s.main with
  | .start => some (none, { s with main := .println, print := .sleep })
  | .println => some (some firstLine, { s with main := .enter })
  | .enter => (s.monitor.lock .main).map fun m => (none, { s with main := .incr, monitor := m })
  | .incr => some (none, { s with main := .set, val := s.val + 1 })
  | .set => some (none, { s with main := .notify, calculated := true })
  | .notify =>
    (s.monitor.signal wakes).map fun m => (none, { s with main := .exit, monitor := m })
  | .exit => (s.monitor.unlock .main).map fun m => (none, { s with main := .join, monitor := m })
  | .join => if s.print = .ended then some (none, { s with main := .returned }) else none
  | .returned => none

/-- One step of `PrintThread`. -/
def printStep (s : State) : Option (Option Event × State) :=
  match s.print with
  | .sleep => some (none, { s with print := .enter })
  | .enter => (s.monitor.lock .print).map fun m => (none, { s with print := .test, monitor := m })
  | .test => some (none, { s with print := if s.calculated then .read else .wait })
  | .wait => (s.monitor.wait .print).map fun m => (none, { s with print := .waiting, monitor := m })
  | .waiting =>
    (s.monitor.relock .print).map fun m => (none, { s with print := .test, monitor := m })
  | .read => some (none, { s with print := .exit s.val })
  | .exit val =>
    (s.monitor.unlock .print).map fun m => (none, { s with print := .println val, monitor := m })
  | .println val => some (some (secondLine val), { s with print := .ended })
  | .notStarted | .ended => none

/-- One step. -/
def step (s : State) (a : Act) : Option (Option Event × State) :=
  match a with
  | .main wakes => mainStep wakes s
  | .print => printStep s
  | .spurious => (s.monitor.wake .print).map fun m => (none, { s with monitor := m })

/-- The program. -/
def machine : Machine State Act Event where
  step := step

/-- The `Calculation` and the `PrintThread` have been made. -/
def initial : State := ⟨.start, .notStarted, Value, false, .init Thread⟩

end SyncMonitor
