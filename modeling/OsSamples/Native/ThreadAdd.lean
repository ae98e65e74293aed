import OsSamples.Lib.Barrier
import OsSamples.Lib.CInt
import OsSamples.Lib.Machine

/-!
# `thread_add*.c`: threads that increment one variable

`main` and the threads that run `ThreadAdd`, for each of the programs: without synchronization,
with a mutex, with a semaphore, and with a mutex and a barrier.  `count++` is a read and a later
write, as the comment in the sources says.  The numbers of threads and of iterations, constants in
the sources, are parameters.

Left out: the initialisation of the mutex, the semaphore and the barrier, and `release_resources`.
-/

namespace ThreadAdd

open CInt

/-- What is around `count++`. -/
inductive Section
  | unprotected
  | mutex
  | semaphore
  deriving DecidableEq

/-- One of the programs: what is around `count++`, and whether the threads start together. -/
structure Program where
  critical : Section
  barrier : Bool
  deriving DecidableEq

/-- `thread_add.c`. -/
def thread_add : Program := ⟨.unprotected, false⟩

/-- `thread_add_mutex.c`. -/
def thread_add_mutex : Program := ⟨.mutex, false⟩

/-- `thread_add_sem.c`. -/
def thread_add_sem : Program := ⟨.semaphore, false⟩

/-- `thread_add_barrier_mutex.c`. -/
def thread_add_barrier_mutex : Program := ⟨.mutex, true⟩

/-- Where `main` is: before the next call of `pthread_create` or `pthread_join`, or at the check. -/
inductive MainPc
  | create (t : ℕ)
  | join (t : ℕ)
  | check
  | returned (code : ℤ)
  deriving DecidableEq

/-- Where a thread is. -/
inductive Pc
  | notCreated
  -- before the barrier, in it, and before the `printf` after it
  | start
  | waiting
  | announce
  -- before the condition of the `for` loop
  | loop (i : ℕ)
  -- before the entry section
  | enter (i : ℕ)
  -- before the read and before the write in `count++`
  | load (i : ℕ)
  | store (i : ℕ) (reg : ℤ)
  -- before the exit section
  | leave (i : ℕ)
  | ended
  deriving DecidableEq

/-- The process, with `n` threads. -/
structure State (n : ℕ) where
  count : ℤ
  -- the owner of `mutex_count`
  mutex : Option (Fin n)
  -- the counter of `sem_cs_count`
  sem : ℕ
  -- `sync_start_threads`
  barrier : Barrier (Fin n)
  main : MainPc
  thread : Fin n → Pc

/-- A line on `stdout` or `stderr`: of `perror`, of the thread that the barrier has chosen, or of
    the check. -/
inductive Event
  | perror (what : String)
  | synchronized
  -- "BOOM! count is %d, should be %d\n"
  | boom (count expected : ℤ)
  -- "OK! count is %d\n"
  | ok (count : ℤ)
  deriving DecidableEq

/-- `main` goes on, or a call of `main` fails, or a thread goes on; `one` is the thread that the
    barrier chooses. -/
inductive Act (n : ℕ)
  | main
  | mainFails
  | thread (t one : Fin n)
  deriving DecidableEq

variable {n : ℕ}

/-- The threads after one of them has gone on. -/
def State.goto (s : State n) (t : Fin n) (pc : Pc) : State n :=
  { s with thread := Function.update s.thread t pc }

/-- The entry section; `none` while it blocks. -/
def entry (c : Section) (t : Fin n) (s : State n) : Option (State n) :=
  match c with
  | .unprotected => some s
  | .mutex => if s.mutex = none then some { s with mutex := some t } else none
  | .semaphore => if 0 < s.sem then some { s with sem := s.sem - 1 } else none

/-- The exit section.  `pthread_mutex_unlock` of another thread's mutex would fail. -/
def exit (c : Section) (t : Fin n) (s : State n) : State n :=
  match c with
  | .unprotected => s
  | .mutex => if s.mutex = some t then { s with mutex := none } else s
  | .semaphore => { s with sem := s.sem + 1 }

/-- `ThreadAdd`.  An increment that does not fit into `int` is undefined. -/
def threadAdd (p : Program) (iterations : ℕ) (t one : Fin n) (s : State n) :
    Option (Option Event × State n) :=
  match s.thread t with
  | .notCreated | .ended => none
  | .start =>
    if p.barrier then
      (s.barrier.arrive n t one).map fun b => (none, { s.goto t .waiting with barrier := b })
    else some (none, s.goto t (.loop 0))
  | .waiting => (s.barrier.leave t).map fun r =>
      (none, { s.goto t (if r.1 then .announce else .loop 0) with barrier := r.2 })
  | .announce => some (some .synchronized, s.goto t (.loop 0))
  | .loop i => some (none, s.goto t (if i < iterations then .enter i else .ended))
  | .enter i => (entry p.critical t s).map fun s => (none, s.goto t (.load i))
  | .load i => some (none, s.goto t (.store i s.count))
  | .store i reg =>
    if reg + 1 ≤ INT_MAX then some (none, { s.goto t (.leave i) with count := reg + 1 }) else none
  | .leave i => some (none, (exit p.critical t s).goto t (.loop (i + 1)))

/-- The line that `main` prints at the end. -/
def report (n iterations : ℕ) (count : ℤ) : Event :=
  if count < n * iterations then .boom count (n * iterations) else .ok count

/-- `main`, after the initialisation. -/
def mainStep (iterations : ℕ) (s : State n) : Option (Option Event × State n) :=
  match s.main with
  | .create t =>
    if h : t < n then some (none, { s.goto ⟨t, h⟩ .start with main := .create (t + 1) })
    else some (none, { s with main := .join 0 })
  | .join t =>
    if h : t < n then
      if s.thread ⟨t, h⟩ = .ended then some (none, { s with main := .join (t + 1) }) else none
    else some (none, { s with main := .check })
  | .check =>
    some (some (report n iterations s.count),
      { s with main := .returned (if s.count < n * iterations then 1 else 0) })
  | .returned _ => none

/-- A call of `pthread_create` or `pthread_join` fails. -/
def mainFails (s : State n) : Option (Option Event × State n) :=
  match s.main with
  | .create t =>
    if t < n then some (some (.perror "pthread_create failed"), { s with main := .returned 1 })
    else none
  | .join t =>
    if t < n then some (some (.perror "pthread_join failed"), { s with main := .returned 1 })
    else none
  | .check | .returned _ => none

/-- One step.  When `main` has returned, the threads may still go on for a while. -/
def step (p : Program) (iterations : ℕ) (s : State n) (a : Act n) :
    Option (Option Event × State n) :=
  match a with
  | .main => mainStep iterations s
  | .mainFails => mainFails s
  | .thread t one => threadAdd p iterations t one s

/-- The program. -/
def machine (n : ℕ) (p : Program) (iterations : ℕ) : Machine (State n) (Act n) Event where
  step := step p iterations

/-- `main` before the first thread is created. -/
def initial (n : ℕ) : State n where
  count := 0
  mutex := none
  sem := 1
  barrier := .init (Fin n)
  main := .create 0
  thread := fun _ => .notCreated

end ThreadAdd
