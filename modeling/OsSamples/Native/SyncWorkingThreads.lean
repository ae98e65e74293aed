import Mathlib.Data.Fintype.Option
import OsSamples.Lib.Threads

/-!
# `sync_working_threads_partial_mq_sem.c`: working threads and a message queue

The main thread sends the numbers of the computations through a message queue to the working
threads, which count with the semaphore `threads_used` how many of them are working, and keep the
largest count they have seen in `max_threads_used`.  Each system call and each access to
`max_threads_used` is a step.  An event is an increment or a decrement of the semaphore.

When all computations are sent, the main thread joins the thread that collects the results, cancels
the working threads one by one, and ends the process.  The waiting of `results_thread` is still to
be written (`done` in the source): it waits for no computation, so the join is a step that is
always possible.

Left out: what is printed, and with it `results_thread`, which only reads `work` and prints.
-/

namespace SyncWorkingThreads

/-- `MQ_LEN`. -/
def MQ_LEN : ℕ := 10

/-- `work[w].state`. -/
inductive WorkState
  | idle
  | busy
  | done
  deriving DecidableEq

/-- `struct work_t`. -/
structure Work (R : Type) where
  result : R
  state : WorkState

/-- What the threads share.  After `exit` no thread takes another step. -/
structure Shared (R : Type) where
  workQueue : List ℕ
  threadsUsed : ℕ
  maxThreadsUsed : ℕ
  work : ℕ → Work R
  -- for how many working threads `do_all` has called `pthread_cancel`
  cancelled : ℕ
  -- which of them have come to an end by it
  stopped : ℕ → Bool
  exited : Bool

/-- Where a thread is: the main thread at `mq_send`, at `pthread_join` or in the loop with
    `pthread_cancel`, a working thread at one of its calls or before the test of `max_threads_used`
    or its assignment. -/
inductive Pc
  | mqSend
  | join
  | cancel
  | mqReceive
  | semPost
  | semGetvalue
  | readMax
  | writeMax
  | setBusy
  | doWork
  | setDone
  | semWait
  deriving DecidableEq

/-- The local variables of a thread. -/
structure Local where
  pc : Pc
  w : ℕ
  i : ℕ
  deriving DecidableEq

/-- What `mq_receive`, `do_work` and `pthread_cancel` bring: the call fails, or the computation has
    a result; or a working thread acts on its cancellation. -/
inductive Choice (R : Type)
  | fail
  | result (r : R)
  | stop

/-- What happens to the semaphore. -/
inductive Event
  | post
  | wait
  deriving DecidableEq

variable {R : Type}

/-- An assignment to fields of `work[w]`. -/
def Shared.setWork (s : Shared R) (w : ℕ) (f : Work R → Work R) : Shared R :=
  { s with work := fun v => if v = w then f (s.work v) else s.work v }

/-- The number of working threads. -/
def workers (numThreads numWork : ℕ) : ℕ := if numThreads > numWork then numWork else numThreads

/-- `do_all`, after it has created the threads; `mq_send` blocks when the queue is full. -/
def mainStep (numThreads numWork : ℕ) (c : Choice R) (s : Shared R) (l : Local) :
    Option (Option Event × Shared R × Local) :=
  match l.pc with
  | .mqSend =>
    if l.w < numWork then
      if s.workQueue.length < MQ_LEN then
        some (none, { s with workQueue := s.workQueue ++ [l.w] }, { l with w := l.w + 1 })
      else none
    else some (none, s, { l with pc := .join })
  | .join => some (none, s, { l with pc := .cancel })
  | .cancel =>
    if s.cancelled < workers numThreads numWork then
      match c with
      | .fail => some (none, { s with exited := true }, l)
      | .result _ | .stop => some (none, { s with cancelled := s.cancelled + 1 }, l)
    -- `main` prints and returns, which ends the process
    else some (none, { s with exited := true }, l)
  | _ => none

/-- Whether a thread may act on a cancellation there: the calls that wait, and `printf`. -/
def Pc.cancellationPoint : Pc → Bool
  | .mqReceive | .setBusy | .doWork | .semWait => true
  | .mqSend | .join | .cancel | .semPost | .semGetvalue | .readMax | .writeMax | .setDone => false

/-- The working thread `k` acts on its cancellation. -/
def stop (k : ℕ) (s : Shared R) (l : Local) : Option (Option Event × Shared R × Local) :=
  if k < s.cancelled ∧ l.pc.cancellationPoint then
    some (none, { s with stopped := Function.update s.stopped k true }, l)
  else none

/-- `working_thread`; `mq_receive` blocks when the queue is empty, `sem_wait` when the semaphore is
    zero. -/
def workingThread (c : Choice R) (s : Shared R) (l : Local) :
    Option (Option Event × Shared R × Local) :=
  match l.pc with
  | .mqSend | .join | .cancel => none
  | .mqReceive =>
    match c, s.workQueue with
    | .stop, _ => none
    -- `perror` and `exit`
    | .fail, _ => some (none, { s with exited := true }, l)
    | .result _, [] => none
    | .result _, w :: workQueue =>
      some (none, { s with workQueue := workQueue }, { l with pc := .semPost, w := w })
  | .semPost =>
    some (some .post, { s with threadsUsed := s.threadsUsed + 1 }, { l with pc := .semGetvalue })
  -- the thread has posted before, so that it counts itself
  | .semGetvalue => some (none, s, { l with pc := .readMax, i := s.threadsUsed })
  -- the test and the assignment are two accesses
  | .readMax =>
    some (none, s, { l with pc := if s.maxThreadsUsed < l.i then .writeMax else .setBusy })
  | .writeMax => some (none, { s with maxThreadsUsed := l.i }, { l with pc := .setBusy })
  | .setBusy =>
    some (none, s.setWork l.w fun x => { x with state := .busy }, { l with pc := .doWork })
  -- `do_work` is not looked into
  | .doWork =>
    match c with
    | .fail | .stop => none
    | .result r => some (none, s.setWork l.w fun x => { x with result := r },
      { l with pc := .setDone })
  | .setDone =>
    some (none, s.setWork l.w fun x => { x with state := .done }, { l with pc := .semWait })
  | .semWait =>
    if 0 < s.threadsUsed then
      some (some .wait, { s with threadsUsed := s.threadsUsed - 1 }, { l with pc := .mqReceive })
    else none

/-- The main thread is `none`. -/
abbrev Thread (numThreads numWork : ℕ) : Type := Option (Fin (workers numThreads numWork))

variable {numThreads numWork : ℕ}

/-- One step of a thread. -/
def step (i : Thread numThreads numWork) (c : Choice R) (s : Shared R) (l : Local) :
    Option (Option Event × Shared R × Local) :=
  if s.exited then none
  else match i with
    | none => mainStep numThreads numWork c s l
    | some k =>
      if s.stopped k then none
      else match c with
        | .stop => stop k s l
        | .fail | .result _ => workingThread c s l

/-- The threads together. -/
def machine (R : Type) (numThreads numWork : ℕ) :
    Machine (Config (Thread numThreads numWork) (Shared R) Local)
      (Thread numThreads numWork × Choice R) Event :=
  Threads.machine step

/-- After `init_work` and the creation of all threads; `zero` is the result that `calloc` leaves. -/
def initial (zero : R) (numThreads numWork : ℕ) :
    Config (Thread numThreads numWork) (Shared R) Local where
  shared := ⟨[], 0, 0, fun _ => ⟨zero, .idle⟩, 0, fun _ => false, false⟩
  loc
    | none => ⟨.mqSend, 0, 0⟩
    | some _ => ⟨.mqReceive, 0, 0⟩

/-- Whether a thread is between its `sem_post` and its `sem_wait`. -/
def Pc.working : Pc → Bool
  | .mqSend | .join | .cancel | .mqReceive | .semPost => false
  | .semGetvalue | .readMax | .writeMax | .setBusy | .doWork | .setDone | .semWait => true

end SyncWorkingThreads
