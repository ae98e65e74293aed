import OsSamples.Lib.CInt
import OsSamples.Lib.Monitor
import OsSamples.Lib.Threads

/-!
# `ProducerConsumerSimple.cs`: a producer and a consumer with a monitor

The threads `CellProd.ThreadRun` and `CellCons.ThreadRun` over one `Cell`, whose methods
`WriteToCell` and `ReadFromCell` are cut into atomic steps: each access to a field of the cell, each
line on the console and each call of `Monitor` is one step.  The event of a step is the value that
a call of `ReadFromCell` returns.

The choice `interrupt` stands for a `Thread.Interrupt` of a thread that is in `Monitor.Wait`.  The
thread then leaves `Wait` with an exception, once it has the lock again.

Left out: `Main`, which starts both threads and joins them, and `valReturned`, which nobody reads.
-/

namespace ProducerConsumerSimple

open CInt

/-- The threads. -/
inductive Thread
  | producer
  | consumer
  deriving DecidableEq

/-- The thread that a thread waits for. -/
def Thread.other : Thread → Thread
  | producer => consumer
  | consumer => producer

/-- What `Monitor.Wait` may throw. -/
inductive WaitException
  | synchronizationLock
  | threadInterrupted
  deriving DecidableEq

/-- A line on the console: a text, or what an exception prints as. -/
inductive Line
  | text (s : String)
  | exception (e : WaitException)
  deriving DecidableEq

/-- What the threads share: the monitor and the fields of the cell, and the console. -/
structure Shared where
  monitor : Monitor Thread
  cellContents : ℤ
  readerFlag : Bool
  console : List Line

/-- `Console.WriteLine`. -/
def Shared.writeLine (s : Shared) (line : Line) : Shared :=
  { s with console := s.console ++ [line] }

/-- Where a thread is. -/
inductive Pc
  -- before the condition of the `for` loop
  | loop
  -- before `lock(this)`
  | lock
  -- before the condition of the `while` loop
  | test
  -- before the call of `Monitor.Wait`, and in it
  | wait
  | waiting (interrupted : Bool)
  -- in a `catch` block
  | caught (e : WaitException)
  -- before `cellContents = n`
  | write
  | print
  -- before the assignment to `readerFlag`
  | setFlag
  | pulse
  -- at the end of the `lock` block
  | unlock
  -- before the read in `return cellContents`
  | ret
  | done
  deriving DecidableEq

/-- A thread's own state. -/
structure Local where
  looper : ℤ
  pc : Pc
  deriving DecidableEq

/-- What happens in a step: the thread goes on, or it is interrupted. -/
inductive Choice
  | next
  | interrupt
  deriving DecidableEq

/-- The condition of the `while` loop: `!readerFlag` in `ReadFromCell`, `readerFlag` in
    `WriteToCell`. -/
def Thread.mustWait : Thread → (readerFlag : Bool) → Bool
  | consumer, readerFlag => !readerFlag
  | producer, readerFlag => readerFlag

/-- The beginning of `lock(this)` and the `while` loop, which are the same in `ReadFromCell` and
    `WriteToCell`; after the loop comes `body`. -/
def waitLoop (i : Thread) (body : Pc) (s : Shared) : Pc → Option (Shared × Pc)
  | .lock => (s.monitor.enter i).map fun m => ({ s with monitor := m }, .test)
  | .test => some (s, if i.mustWait s.readerFlag then .wait else body)
  | .wait =>
    match s.monitor.wait i with
    | none => some (s, .caught .synchronizationLock)
    | some m => some ({ s with monitor := m }, .waiting false)
  | .waiting interrupted => (s.monitor.reacquire i).map fun m =>
    ({ s with monitor := m }, if interrupted then .caught .threadInterrupted else .test)
  | .caught e => some (s.writeLine (.exception e), .test)
  | _ => none

/-- `ReadFromCell`, up to the end of the `lock` block. -/
def readFromCell (s : Shared) : Pc → Option (Shared × Pc)
  | .print => some (s.writeLine (.text ("Consume: " ++ toString s.cellContents)), .setFlag)
  | .setFlag => some ({ s with readerFlag := false }, .pulse)
  | .pulse => (s.monitor.pulse .consumer).map fun m => ({ s with monitor := m }, .unlock)
  | .unlock => (s.monitor.exit .consumer).map fun m => ({ s with monitor := m }, .ret)
  | pc => waitLoop .consumer .print s pc

/-- `WriteToCell(n)`; then comes the `for` loop again. -/
def writeToCell (n : ℤ) (s : Shared) : Pc → Option (Shared × Pc)
  | .write => some ({ s with cellContents := n }, .print)
  | .print => some (s.writeLine (.text ("Produce: " ++ toString s.cellContents)), .setFlag)
  | .setFlag => some ({ s with readerFlag := true }, .pulse)
  | .pulse => (s.monitor.pulse .producer).map fun m => ({ s with monitor := m }, .unlock)
  | .unlock => (s.monitor.exit .producer).map fun m => ({ s with monitor := m }, .loop)
  | pc => waitLoop .producer .write s pc

/-- `CellProd.ThreadRun`. -/
def cellProd (quantity : ℤ) (s : Shared) (l : Local) : Option (Option ℤ × Shared × Local) :=
  match l.pc with
  | .loop => some (none, s, { l with pc := if l.looper ≤ quantity then .lock else .done })
  | pc => (writeToCell l.looper s pc).map fun r =>
    (none, r.1, ⟨if pc = .unlock then toInt32 (l.looper + 1) else l.looper, r.2⟩)

/-- `CellCons.ThreadRun`. -/
def cellCons (quantity : ℤ) (s : Shared) (l : Local) : Option (Option ℤ × Shared × Local) :=
  match l.pc with
  | .loop => some (none, s, { l with pc := if l.looper ≤ quantity then .lock else .done })
  | .ret => some (some s.cellContents, s, ⟨toInt32 (l.looper + 1), .loop⟩)
  | pc => (readFromCell s pc).map fun r => (none, r.1, { l with pc := r.2 })

/-- The step of a thread; only a thread in `Monitor.Wait` is interrupted. -/
def threadStep (quantity : ℤ) (i : Thread) (c : Choice) (s : Shared) (l : Local) :
    Option (Option ℤ × Shared × Local) :=
  match c with
  | .interrupt =>
    match l.pc with
    | .waiting _ =>
      some (none, { s with monitor := s.monitor.interrupt i }, { l with pc := .waiting true })
    | _ => none
  | .next =>
    match i with
    | .producer => cellProd quantity s l
    | .consumer => cellCons quantity s l

/-- The producer and the consumer, each with `quantity` items. -/
def machine (quantity : ℤ) : Machine (Config Thread Shared Local) (Thread × Choice) ℤ :=
  Threads.machine (threadStep quantity)

/-- Both threads have been started on a new cell. -/
def initial : Config Thread Shared Local :=
  ⟨⟨.unused Thread, 0, false, []⟩, fun _ => ⟨1, .loop⟩⟩

end ProducerConsumerSimple
