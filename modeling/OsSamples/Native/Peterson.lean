import OsSamples.Lib.BinaryLock
import OsSamples.Lib.Threads
import Mathlib.Data.Int.Notation

/-!
# `Peterson.h` and its variants, sequentially consistent

`Peterson_init`, `Peterson_wait` and `Peterson_post` of `Peterson.h`, `Peterson_sched.h`,
`Peterson_xchg.h` and `Peterson_xchg_sched.h`, cut into single reads and writes of `flag[0]`,
`flag[1]` and `turn`.  In the `xchg` headers the branch with inline assembler is the one compiled
(`__atomic_store_n` is not a macro); here its two exchanges are plain writes, their old values
are dropped.
-/

namespace Peterson

/-- The headers. -/
inductive Header
  | peterson
  | petersonSched
  | petersonXchg
  | petersonXchgSched
  deriving DecidableEq, Repr

/-- Whether the body of the waiting loop is `sched_yield()` or empty. -/
def Header.yields : Header → Bool
  | .peterson | .petersonXchg => false
  | .petersonSched | .petersonXchgSched => true

/-- A thread number as an `int`; `!self` is the other thread. -/
def tidInt (self : Bool) : ℤ := if self then 1 else 0

/-- The shared variables. -/
structure Vars where
  flag : Bool → Bool
  turn : ℤ

/-- `flag[i] = b`. -/
def Vars.setFlag (s : Vars) (i b : Bool) : Vars := { s with flag := Function.update s.flag i b }

/-- `Peterson_init`, which leaves `turn` as it is. -/
def petersonInit (s : Vars) : Vars := (s.setFlag false false).setFlag true false

/-- Where a thread is that repeats `Peterson_wait`, critical section, `Peterson_post`: before
    `flag[self] = true`, `turn = !self`, the reads of the loop condition, in the loop body, or
    between `Peterson_wait` and `flag[self] = false` in `Peterson_post`. -/
inductive Pc
  | setFlag
  | setTurn
  | readFlag
  | readTurn
  | yield
  | critical
  deriving DecidableEq

/-- The next step of thread `self`.  It acquires the lock with the read that ends the loop. -/
def threadStep (header : Header) (self : Bool) (_ : Unit) (s : Vars) (pc : Pc) :
    Option (Option (LockEvent Bool) × Vars × Pc) :=
  match pc with
  | .setFlag => some (none, s.setFlag self true, .setTurn)
  | .setTurn => some (none, { s with turn := tidInt (!self) }, .readFlag)
  | .readFlag =>
    if s.flag (!self) then some (none, s, .readTurn)
    else some (some (.acquire self), s, .critical)
  | .readTurn =>
    if s.turn ≠ tidInt self then some (none, s, if header.yields then .yield else .readFlag)
    else some (some (.acquire self), s, .critical)
  | .yield => some (none, s, .readFlag)
  | .critical => some (some (.release self), s.setFlag self false, .setFlag)

/-- The condition of the waiting loop. -/
def loopCond (self : Bool) (s : Vars) : Bool := s.flag (!self) && s.turn != tidInt self

/-- The thread is in the waiting loop. -/
def Pc.spinning : Pc → Bool
  | .readFlag | .readTurn | .yield => true
  | .setFlag | .setTurn | .critical => false

/-- The two threads. -/
def machine (header : Header) : Machine (Config Bool Vars Pc) (Bool × Unit) (LockEvent Bool) :=
  Threads.machine (threadStep header)

/-- After `Peterson_init`, before the first `Peterson_wait`. -/
def initial (s : Vars) : Config Bool Vars Pc := ⟨petersonInit s, fun _ => .setFlag⟩

end Peterson
