import OsSamples.Lib.CInt
import OsSamples.Lib.CondVar
import OsSamples.Lib.Machine

/-!
# `sync_cond_var.c`: a counter and a thread that watches it

One thread runs `watch_count`, and `k` threads run `inc_count`, two in the source; `TCOUNT` and
`COUNT_THRESHOLD` are parameters, of type `int`.  Each access to `count`, each line and each call of
a `pthread` function is one step.  `pthread_cond_wait` may return without a signal.

An addition to `count` whose result does not fit into `int` is undefined; its result may be any
`int` here.

Left out: `main`, which starts the threads, waits for them and prints `count`.
-/

namespace SyncCondVar

open CInt

/-- The threads. -/
inductive Thread (k : ℕ)
  | watch
  | inc (j : Fin k)
  deriving DecidableEq

/-- `my_id`. -/
def Thread.myId {k : ℕ} : Thread k → ℕ
  | watch => 1
  | inc j => j + 2

/-- Where a thread is in `inc_count`. -/
inductive IncPc
  -- before the condition of the `for` loop
  | loop
  | lock
  -- before the read and before the write in `count++`
  | load
  | store (value : ℤ)
  -- before the test for the threshold
  | test
  | printThreshold
  | signal
  | printSent
  | printUnlocking
  | unlock
  | sleep
  | done
  deriving DecidableEq

/-- The state of a thread in `inc_count`. -/
structure Inc where
  i : ℕ
  pc : IncPc
  deriving DecidableEq

/-- Where the thread is in `watch_count`. -/
inductive WatchPc
  | printStarting
  | lock
  | test
  | printWait
  | wait
  -- in `pthread_cond_wait`
  | waiting
  | printReceived
  -- before the read and before the write in `count += 100`
  | load
  | store (value : ℤ)
  | printNow
  | unlock
  | done
  deriving DecidableEq

/-- The process; `cv` is `count_mutex` and `count_threshold_cv`. -/
structure State (k : ℕ) where
  count : ℤ
  cv : CondVar (Thread k)
  watch : WatchPc
  inc : Fin k → Inc

/-- A line, or a part of one, on `stdout`. -/
inductive Event
  | print (text : String)
  deriving DecidableEq

/-- A thread goes on, or the watching thread is woken without a signal; `overflow` is the result of
    an addition that does not fit, and `wakes` the thread that a signal wakes. -/
inductive Act (k : ℕ)
  | inc (j : Fin k) (overflow : ℤ) (wakes : Option (Thread k))
  | watch (overflow : ℤ)
  | spurious
  deriving DecidableEq

variable {k : ℕ}

/-- The new state of the counting thread `j`. -/
def State.setInc (s : State k) (j : Fin k) (l : Inc) : State k :=
  { s with inc := Function.update s.inc j l }

/-- `n + m`. -/
def addInt (n m overflow : ℤ) : Option ℤ :=
  if INT_MIN ≤ n + m ∧ n + m ≤ INT_MAX then some (n + m)
  else if INT_MIN ≤ overflow ∧ overflow ≤ INT_MAX then some overflow
  else none

/-- One step of `inc_count`. -/
def incCount (TCOUNT COUNT_THRESHOLD : ℤ) (j : Fin k) (overflow : ℤ) (wakes : Option (Thread k))
    (s : State k) : Option (Option Event × State k) :=
  let l := s.inc j
  let say (text : String) : String :=
    "inc_count(): thread " ++ toString (Thread.inc j).myId ++ ", count = " ++ toString s.count ++
      text
  match l.pc with
  | .loop => some (none, s.setInc j { l with pc := if l.i < TCOUNT then .lock else .done })
  | .lock => (s.cv.lock (.inc j)).map fun cv =>
      (none, { s with cv := cv }.setInc j { l with pc := .load })
  | .load => (addInt s.count 1 overflow).map fun value =>
      (none, s.setInc j { l with pc := .store value })
  | .store value => some (none, { s with count := value }.setInc j { l with pc := .test })
  | .test => some (none, s.setInc j { l with
      pc := if s.count = COUNT_THRESHOLD then .printThreshold else .printUnlocking })
  | .printThreshold => some (some (.print (say "  Threshold reached. ")),
      s.setInc j { l with pc := .signal })
  | .signal => (s.cv.signal wakes).map fun cv =>
      (none, { s with cv := cv }.setInc j { l with pc := .printSent })
  | .printSent => some (some (.print "Just sent signal.\n"),
      s.setInc j { l with pc := .printUnlocking })
  | .printUnlocking => some (some (.print (say ", unlocking mutex\n")),
      s.setInc j { l with pc := .unlock })
  | .unlock => (s.cv.unlock (.inc j)).map fun cv =>
      (none, { s with cv := cv }.setInc j { l with pc := .sleep })
  | .sleep => some (none, s.setInc j ⟨l.i + 1, .loop⟩)
  | .done => none

/-- One step of `watch_count`. -/
def watchCount (COUNT_THRESHOLD overflow : ℤ) (s : State k) : Option (Option Event × State k) :=
  let myId := toString (Thread.watch (k := k)).myId
  match s.watch with
  | .printStarting => some (some (.print ("Starting watch_count(): thread " ++ myId ++ "\n")),
      { s with watch := .lock })
  | .lock => (s.cv.lock .watch).map fun cv => (none, { s with cv := cv, watch := .test })
  | .test =>
    some (none, { s with watch := if s.count < COUNT_THRESHOLD then .printWait else .load })
  | .printWait => some (some (.print ("watch_count(): thread " ++ myId ++ " going into wait...\n")),
      { s with watch := .wait })
  | .wait => (s.cv.wait .watch).map fun cv => (none, { s with cv := cv, watch := .waiting })
  | .waiting => (s.cv.relock .watch).map fun cv =>
      (none, { s with cv := cv, watch := .printReceived })
  | .printReceived =>
    some (some (.print ("watch_count(): thread " ++ myId ++ " Condition signal received.\n")),
      { s with watch := .load })
  | .load => (addInt s.count 100 overflow).map fun value => (none, { s with watch := .store value })
  | .store value => some (none, { s with count := value, watch := .printNow })
  | .printNow =>
    some (some (.print ("watch_count(): thread " ++ myId ++ " count now = " ++ toString s.count ++
      ".\n")), { s with watch := .unlock })
  | .unlock => (s.cv.unlock .watch).map fun cv => (none, { s with cv := cv, watch := .done })
  | .done => none

/-- One step. -/
def step (TCOUNT COUNT_THRESHOLD : ℤ) (s : State k) (a : Act k) :
    Option (Option Event × State k) :=
  match a with
  | .inc j overflow wakes => incCount TCOUNT COUNT_THRESHOLD j overflow wakes s
  | .watch overflow => watchCount COUNT_THRESHOLD overflow s
  | .spurious => (s.cv.wake .watch).map fun cv => (none, { s with cv := cv })

/-- The program. -/
def machine (k : ℕ) (TCOUNT COUNT_THRESHOLD : ℤ) : Machine (State k) (Act k) Event where
  step := step TCOUNT COUNT_THRESHOLD

/-- All threads are about to start. -/
def initial (k : ℕ) : State k where
  count := 0
  cv := .init (Thread k)
  watch := .printStarting
  inc := fun _ => ⟨0, .loop⟩

end SyncCondVar
