import OsSamples.Lib.Barrier
import OsSamples.Lib.Machine

/-!
# `sync_barrier.c`: threads that are resumed together

`main`, which creates the threads and waits for them, and `thread_func`.  The number of threads, a
constant in the source, is a parameter.  The thread `t` has the slot `t` of `arguments` for itself,
so that its `id` is `t`.  Each call of a library function is one step, and any time may pass before
a step.

Left out: the times and the numbers of the threads in the lines, and the initialisation of the
barrier.
-/

namespace SyncBarrier

/-- Where `main` is: before the next call of `pthread_create` or `pthread_join`. -/
inductive MainPc
  | create (t : ℕ)
  | join (t : ℕ)
  | returned
  -- after `exit(EXIT_FAILURE)`
  | failure
  deriving DecidableEq

/-- Where a thread is: before a line, or in a call. -/
inductive Pc
  | notCreated
  | start
  | usleep
  | report
  | wait
  | waiting
  | serial
  | resume
  | ended
  deriving DecidableEq

/-- The process. -/
structure State (n : ℕ) where
  main : MainPc
  thread : Fin n → Pc
  -- `sync_threads`
  barrier : Barrier (Fin n)

/-- A line on `stdout`, or of `perror`. -/
inductive Event (n : ℕ)
  | perror (what : String)
  -- "The thread %d is working.\n"
  | working (id : Fin n)
  -- "The thread %d (0x%lX) is waiting for the other threads: %s.%03ld\n"
  | waiting (id : Fin n)
  -- "%d (0x%lX): All threads are resumed: %ld.%03ld\n"
  | allResumed (id : Fin n)
  -- "The thread %d (0x%lX) is resumed: %s.%03ld\n"
  | resumed (id : Fin n)
  deriving DecidableEq

/-- `main` goes on, or its call fails, or a thread goes on; `one` is the thread that the barrier
    chooses. -/
inductive Act (n : ℕ)
  | main
  | mainFails
  | thread (t one : Fin n)
  deriving DecidableEq

variable {n : ℕ}

/-- The threads after one of them has gone on. -/
def State.goto (s : State n) (t : Fin n) (pc : Pc) : State n :=
  { s with thread := Function.update s.thread t pc }

/-- `thread_func`. -/
def thread_func (t one : Fin n) (s : State n) : Option (Option (Event n) × State n) :=
  match s.thread t with
  | .notCreated | .ended => none
  | .start => some (some (.working t), s.goto t .usleep)
  | .usleep => some (none, s.goto t .report)
  | .report => some (some (.waiting t), s.goto t .wait)
  | .wait => (s.barrier.arrive n t one).map fun b => (none, { s.goto t .waiting with barrier := b })
  | .waiting => (s.barrier.leave t).map fun r =>
      (none, { s.goto t (if r.1 then .serial else .resume) with barrier := r.2 })
  | .serial => some (some (.allResumed t), s.goto t .resume)
  | .resume => some (some (.resumed t), s.goto t .ended)

/-- `main`, after the initialisation of the barrier. -/
def mainStep (s : State n) : Option (Option (Event n) × State n) :=
  match s.main with
  | .create t =>
    if h : t < n then some (none, { s.goto ⟨t, h⟩ .start with main := .create (t + 1) })
    else some (none, { s with main := .join 0 })
  | .join t =>
    if h : t < n then
      if s.thread ⟨t, h⟩ = .ended then some (none, { s with main := .join (t + 1) }) else none
    else some (none, { s with main := .returned })
  | .returned | .failure => none

/-- A call of `main` fails; that of `pthread_join` without consequences. -/
def mainFails (s : State n) : Option (Option (Event n) × State n) :=
  match s.main with
  | .create t =>
    if t < n then some (some (.perror "pthread_create failed"), { s with main := .failure })
    else none
  | .join t => if t < n then some (none, { s with main := .join (t + 1) }) else none
  | .returned | .failure => none

/-- The program.  When `main` has ended, the threads may still go on for a while. -/
def machine (n : ℕ) : Machine (State n) (Act n) (Event n) where
  step s
    | .main => mainStep s
    | .mainFails => mainFails s
    | .thread t one => thread_func t one s

/-- `main` before the first thread is created. -/
def initial (n : ℕ) : State n where
  main := .create 0
  thread := fun _ => .notCreated
  barrier := .init (Fin n)

end SyncBarrier
