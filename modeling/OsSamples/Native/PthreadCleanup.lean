import OsSamples.Lib.HeapTrace
import OsSamples.Lib.Machine

/-!
# `pthread_cleanup.c`: a thread that is cancelled while it reads a name

The main thread and the thread `thread_func`, cut into atomic steps: each call of a library
function and each access to a variable that both threads use is one step.  `release_buffer`, which
both call, is cut in the same way.

The choice in a step is the outcome of the call.  A thread whose cancellation has been requested may
end in any call that is a cancellation point: `perror`, `printf` and `fgets`, but not while it runs
its clean-up handlers because of the cancellation.  `fgets` and `sem_timedwait` may also block.

Blocks are numbers; `heap` is what they contain.  Left out: the value of `errno` and the time.
-/

namespace PthreadCleanup

/-- `BUF_SIZE`. -/
def BUF_SIZE : ℕ := 32

/-- Where a thread is in `release_buffer`: at the test for `NULL`, at `free`, at `*buf = NULL`, or
    at `printf`. -/
inductive Release
  | test
  | free
  | clear
  | print
  deriving DecidableEq

/-- Where the main thread is, by the call or the access that comes next. -/
inductive MainPc
  | semInit
  | perrorSemInit
  | setInitialized
  | pthreadCreate
  | semTimedwait
  | perrorTimedwait
  | testError
  | perrorFgets
  | testTimeout
  | printTimeout
  | pthreadCancel
  | perrorCancel
  | printCancelled
  | readName
  | printName (p : Option ℕ)
  | pthreadJoin
  | printExiting
  -- `release_resources`, which `exit` calls
  | testInitialized
  | semDestroy
  | perrorDestroy
  | clearInitialized
  | releaseName (r : Release)
  | ended
  deriving DecidableEq

/-- Where `thread_func` is. -/
inductive FuncPc
  | notCreated
  | malloc
  | perrorMalloc
  | printAllocated
  | cleanupPush
  | printEnter
  | fgets
  | setError
  | strdupRead
  | strdup
  | setName (p : Option ℕ)
  | printNameAllocated
  | cleanupPop
  | releaseTmp (r : Release)
  | semPost
  -- the clean-up handler, called because of the cancellation
  | cancelled (r : Release)
  | ended
  deriving DecidableEq

/-- The variables of the program, of which `buf` and whether the clean-up handler is pushed belong
    to `thread_func`, and where the threads are. -/
structure State where
  main : MainPc
  func : FuncPc
  buf : Option ℕ
  pushed : Bool
  name : Option ℕ
  threadFinished : ℕ
  threadFinishedInitialized : Bool
  timeoutGone : Bool
  fgetsExitedWithError : Bool
  cancelRequested : Bool
  heap : ℕ → String
  next : ℕ

/-- What a call brings: success, failure, a time-out, a line, or the end of the thread. -/
inductive Choice
  | ok
  | fail
  | timeout
  | line (s : String)
  | cancel
  deriving DecidableEq

/-- What happens in a step, apart from changes of variables other than `name`.  The name is printed
    from the block at `p`. -/
inductive Event
  | heap (e : HeapEvent)
  | setName (p : Option ℕ)
  | enteredName (p : Option ℕ) (name : Option String)
  | print (text : String)
  | perror (s : String)
  deriving DecidableEq

/-- One step of `release_buffer(&p, msg)`: the new value of `p`, and where it goes on, `none` when
    it returns. -/
def releaseBuffer (msg : String) (p : Option ℕ) :
    Release → Option Event × Option ℕ × Option Release
  | .test => (none, p, if p.isSome then some .free else none)
  | .free => (p.map fun id => .heap (.free id), p, some .clear)
  | .clear => (none, none, some .print)
  | .print => (some (.print (msg ++ "\n")), p, none)

/-- One step of the main thread. -/
def mainStep (c : Choice) (s : State) : Option (Option Event × State) :=
  match s.main, c with
  | .semInit, .ok => some (none, { s with threadFinished := 0, main := .setInitialized })
  | .semInit, .fail => some (none, { s with main := .perrorSemInit })
  | .perrorSemInit, .ok => some (some (.perror "sem_init"), { s with main := .testInitialized })
  | .setInitialized, .ok =>
    some (none, { s with threadFinishedInitialized := true, main := .pthreadCreate })
  -- `pthread_create` is not checked, so that it is taken to succeed
  | .pthreadCreate, .ok => some (none, { s with func := .malloc, main := .semTimedwait })
  | .semTimedwait, .ok =>
    if 0 < s.threadFinished then
      some (none, { s with threadFinished := s.threadFinished - 1, main := .testError })
    else none
  | .semTimedwait, .timeout =>
    if s.threadFinished = 0 then some (none, { s with timeoutGone := true, main := .testError })
    else none
  -- `errno` is not `ETIMEDOUT`
  | .semTimedwait, .fail => some (none, { s with timeoutGone := false, main := .perrorTimedwait })
  | .perrorTimedwait, .ok => some (some (.perror "sem_timedwait"), { s with main := .testError })
  | .testError, .ok =>
    some (none, { s with main := if s.fgetsExitedWithError then .perrorFgets else .testTimeout })
  | .perrorFgets, .ok => some (some (.perror "fgets"), { s with main := .pthreadJoin })
  | .testTimeout, .ok =>
    some (none, { s with main := if s.timeoutGone then .printTimeout else .readName })
  | .printTimeout, .ok => some (some (.print "timeout gone\n"), { s with main := .pthreadCancel })
  | .pthreadCancel, .ok => some (none, { s with cancelRequested := true, main := .printCancelled })
  -- only for a thread that has ended
  | .pthreadCancel, .fail =>
    if s.func = .ended then some (none, { s with main := .perrorCancel }) else none
  | .perrorCancel, .ok => some (some (.perror "pthread_cancel"), { s with main := .pthreadJoin })
  | .printCancelled, .ok =>
    some (some (.print "Thread execution was cancelled.\n"), { s with main := .pthreadJoin })
  | .readName, .ok => some (none, { s with main := .printName s.name })
  -- `%s` with what has been read from `name`
  | .printName p, .ok =>
    some (some (.enteredName p (p.map s.heap)), { s with main := .pthreadJoin })
  | .pthreadJoin, .ok =>
    if s.func = .ended then some (none, { s with main := .printExiting }) else none
  | .printExiting, .ok =>
    some (some (.print "Exiting from main().\n"), { s with main := .testInitialized })
  | .testInitialized, .ok =>
    some (none, { s with
      main := if s.threadFinishedInitialized then .semDestroy else .releaseName .test })
  | .semDestroy, .ok => some (none, { s with main := .clearInitialized })
  | .semDestroy, .fail => some (none, { s with main := .perrorDestroy })
  | .perrorDestroy, .ok =>
    some (some (.perror "sem_destroy"), { s with main := .releaseName .test })
  | .clearInitialized, .ok =>
    some (none, { s with threadFinishedInitialized := false, main := .releaseName .test })
  -- `release_buffer(&name, ...)`, after which the process ends
  | .releaseName r, .ok =>
    let (e, name, r') := releaseBuffer "Name buffer freed." s.name r
    some (e, { s with name := name, main := r'.elim .ended .releaseName })
  | _, _ => none

/-- Whether the next call of `thread_func` is a cancellation point. -/
def FuncPc.cancellationPoint : FuncPc → Bool
  | .perrorMalloc | .printAllocated | .printEnter | .fgets | .printNameAllocated
  | .releaseTmp .print => true
  | _ => false

/-- The end of `thread_func` by a cancellation: its clean-up handler is popped and called, if it is
    pushed. -/
def State.cancel (s : State) : State :=
  { s with pushed := false, func := if s.pushed then .cancelled .test else .ended }

/-- One step of `thread_func`. -/
def threadFunc (c : Choice) (s : State) : Option (Option Event × State) :=
  match s.func, c with
  | .malloc, .ok =>
    some (some (.heap (.alloc s.next)),
      { s with buf := some s.next, next := s.next + 1, func := .printAllocated })
  | .malloc, .fail => some (none, { s with func := .perrorMalloc })
  | .perrorMalloc, .ok => some (some (.perror "malloc"), { s with func := .ended })
  | .printAllocated, .ok =>
    some (some (.print "Temporary buffer allocated.\n"), { s with func := .cleanupPush })
  | .cleanupPush, .ok => some (none, { s with pushed := true, func := .printEnter })
  | .printEnter, .ok =>
    some (some (.print "Enter your name (timeout 5 s): "), { s with func := .fgets })
  -- at most `BUF_SIZE - 1` characters
  | .fgets, .line str =>
    if str.utf8ByteSize < BUF_SIZE then
      some (some (.heap (.use s.buf)), { s with
        heap := fun id => if some id = s.buf then str else s.heap id, func := .strdupRead })
    else none
  | .fgets, .fail => some (none, { s with func := .setError })
  | .setError, .ok => some (none, { s with fgetsExitedWithError := true, func := .cleanupPop })
  -- `strdup` reads the buffer before it obtains memory
  | .strdupRead, .ok => some (some (.heap (.use s.buf)), { s with func := .strdup })
  | .strdup, .ok =>
    some (some (.heap (.alloc s.next)), { s with
      heap := fun id => if id = s.next then s.buf.elim "" s.heap else s.heap id
      next := s.next + 1, func := .setName (some s.next) })
  | .strdup, .fail => some (none, { s with func := .setName none })
  | .setName p, .ok =>
    some (some (.setName p), { s with name := p, func := .printNameAllocated })
  | .printNameAllocated, .ok =>
    some (some (.print "Name buffer allocated.\n"), { s with func := .cleanupPop })
  -- `pthread_cleanup_pop(1)` calls the handler
  | .cleanupPop, .ok => some (none, { s with pushed := false, func := .releaseTmp .test })
  | .releaseTmp r, .ok =>
    let (e, buf, r') := releaseBuffer "Temporary buffer freed." s.buf r
    some (e, { s with buf := buf, func := r'.elim .semPost .releaseTmp })
  | .semPost, .ok =>
    some (none, { s with threadFinished := s.threadFinished + 1, func := .ended })
  | .cancelled r, .ok =>
    let (e, buf, r') := releaseBuffer "Temporary buffer freed." s.buf r
    some (e, { s with buf := buf, func := r'.elim .ended .cancelled })
  -- a cancellation that has been requested is acted on
  | func, .cancel =>
    if s.cancelRequested ∧ func.cancellationPoint then some (none, s.cancel) else none
  | _, _ => none

/-- The threads. -/
inductive Thread
  | main
  | func
  deriving DecidableEq

/-- Both threads together. -/
def machine : Machine State (Thread × Choice) Event where
  step s a := match a.1 with
    | .main => mainStep a.2 s
    | .func => threadFunc a.2 s

/-- The beginning of `main`, with `release_resources` registered by `atexit`. -/
def initial : State where
  main := .semInit
  func := .notCreated
  buf := none
  pushed := false
  name := none
  threadFinished := 0
  threadFinishedInitialized := false
  timeoutGone := false
  fgetsExitedWithError := false
  cancelRequested := false
  heap := fun _ => ""
  next := 0

end PthreadCleanup
