import OsSamples.Lib.CondVar
import OsSamples.Lib.Machine

/-!
# `sync_assignment_cond.c`: 1 before 2, with a condition variable

`main` with `f2`, and the second thread with `f1`.  Each call of a library function is one step, and
any time may pass before a step, so that the value of `sleep_time` and further calls of `sleep` make
no difference.  `pthread_cond_wait` may return without a signal.
-/

namespace SyncAssignmentCond

/-- The threads. -/
inductive Thread
  | main
  | second
  deriving DecidableEq

/-- Where `main` is: before the call, or in `pthread_cond_wait`. -/
inductive MainPc
  | create
  | lock
  | wait
  | waiting
  | print
  | unlock
  | join
  | returned
  -- after `exit(EXIT_FAILURE)`
  | failure
  deriving DecidableEq

/-- Where the second thread is. -/
inductive SecondPc
  | notCreated
  | sleep
  | lock
  | print
  | signal
  | unlock
  | ended
  deriving DecidableEq

/-- The process; `cv` is `count_mutex` and `count_threshold_cv`. -/
structure State where
  main : MainPc
  second : SecondPc
  cv : CondVar Thread

/-- A line on `stdout`. -/
inductive Event
  | print (line : String)
  deriving DecidableEq

/-- A thread goes on, `pthread_create` fails, or `main` is woken without a signal; `wakes` is the
    thread that a signal wakes. -/
inductive Act
  | main
  | createFails
  | spurious
  | second (wakes : Option Thread)
  deriving DecidableEq

/-- One step of `main`. -/
def mainStep (s : State) : Option (Option Event × State) :=
  match s.main with
  | .create => some (none, { s with main := .lock, second := .sleep })
  | .lock => (s.cv.lock .main).map fun cv => (none, { s with main := .wait, cv := cv })
  | .wait => (s.cv.wait .main).map fun cv => (none, { s with main := .waiting, cv := cv })
  | .waiting => (s.cv.relock .main).map fun cv => (none, { s with main := .print, cv := cv })
  | .print => some (some (.print "2\n"), { s with main := .unlock })
  | .unlock => (s.cv.unlock .main).map fun cv => (none, { s with main := .join, cv := cv })
  | .join => if s.second = .ended then some (none, { s with main := .returned }) else none
  | .returned | .failure => none

/-- One step of the second thread. -/
def secondStep (wakes : Option Thread) (s : State) : Option (Option Event × State) :=
  match s.second with
  | .sleep => some (none, { s with second := .lock })
  | .lock => (s.cv.lock .second).map fun cv => (none, { s with second := .print, cv := cv })
  | .print => some (some (.print "1\n"), { s with second := .signal })
  | .signal => (s.cv.signal wakes).map fun cv => (none, { s with second := .unlock, cv := cv })
  | .unlock => (s.cv.unlock .second).map fun cv => (none, { s with second := .ended, cv := cv })
  | .notCreated | .ended => none

/-- One step. -/
def step (s : State) (a : Act) : Option (Option Event × State) :=
  match a with
  | .main => mainStep s
  | .createFails => if s.main = .create then some (none, { s with main := .failure }) else none
  | .spurious => (s.cv.wake .main).map fun cv => (none, { s with cv := cv })
  | .second wakes => secondStep wakes s

/-- The program. -/
def machine : Machine State Act Event where
  step := step

/-- Before `pthread_create`. -/
def initial : State := ⟨.create, .notCreated, .init Thread⟩

end SyncAssignmentCond
