import Mathlib.Data.Int.Notation
import OsSamples.Lib.Machine

/-!
# `bounded_buffer.c`: a producer and a consumer that do not wait

The threads `producer` and `consumer` over one buffer, without the synchronization that the source
leaves as an exercise: a thread that should wait says so and goes on.  Each access to `occupied`,
each access to `buf` and each line is one step; the read and the write in `occupied++` and
`occupied--` are two.  `nextin` is only used by the producer and `nextout` only by the consumer, so
that they change together with the access to `buf`.

`BSIZE` and the string of the producer are parameters; `NUMITEMS` is the length of the string.
`occupied` counts at most `NUMITEMS` up or down, and is an integer here.

Left out: `main`, which starts both threads and waits for them, and the waiting for the next second.
-/

namespace BoundedBuffer

/-- What is in the buffer at the beginning. -/
def EMPTY : Char := '_'

/-- Where the producer is. -/
inductive ProducerPc
  | start
  -- before the condition of the `for` loop, and before the test of `item[i]`
  | loop (i : ℕ)
  -- before `if (buffer.occupied >= BSIZE)`, and before the line about it
  | test (i : ℕ) (item : Char)
  | printWait (i : ℕ) (item : Char)
  -- before `buffer.buf[buffer.nextin++] = item[i]`
  | store (i : ℕ) (item : Char)
  -- before the read and before the write in `buffer.occupied++`
  | load (i : ℕ)
  | inc (i : ℕ) (reg : ℤ)
  | exiting
  | ended
  deriving DecidableEq

/-- Where the consumer is. -/
inductive ConsumerPc
  | start
  | loop (i : ℕ)
  -- before `if (buffer.occupied <= 0)`, and before the line about it
  | test (i : ℕ)
  | printWait (i : ℕ)
  -- before `item = buffer.buf[buffer.nextout++]`, and before the line with the item
  | take (i : ℕ)
  | print (i : ℕ) (item : Char)
  -- before the read and before the write in `buffer.occupied--`
  | load (i : ℕ)
  | dec (i : ℕ) (reg : ℤ)
  | exiting
  | ended
  deriving DecidableEq

/-- The buffer and the two threads. -/
structure State where
  buf : List Char
  occupied : ℤ
  nextin : ℕ
  nextout : ℕ
  producer : ProducerPc
  consumer : ConsumerPc
  deriving DecidableEq

/-- A line of `printf`; `consumed` is the one with an item. -/
inductive Event
  | print (text : String)
  | consumed (item : Char)
  deriving DecidableEq

inductive Act
  | producer
  | consumer
  deriving DecidableEq

/-- `producer`; `none` where it would store outside of the buffer. -/
def producerStep (BSIZE : ℕ) (items : List Char) (s : State) : Option (Option Event × State) :=
  match s.producer with
  | .start => some (some (.print "Producer started.\n"), { s with producer := .loop 0 })
  | .loop i => some (none, { s with producer :=
      match items[i]? with
      | some item => if item = '\x00' then .exiting else .test i item
      | none => .exiting })
  | .test i item => some (none, { s with producer :=
      if BSIZE ≤ s.occupied then .printWait i item else .store i item })
  | .printWait i item =>
    some (some (.print "Producer should wait.\n"), { s with producer := .store i item })
  | .store i item =>
    if s.nextin < s.buf.length then
      some (none, { s with
        buf := s.buf.set s.nextin item
        nextin := (s.nextin + 1) % BSIZE
        producer := .load i })
    else none
  | .load i => some (none, { s with producer := .inc i s.occupied })
  | .inc i reg => some (none, { s with occupied := reg + 1, producer := .loop (i + 1) })
  | .exiting => some (some (.print "Producer exiting.\n"), { s with producer := .ended })
  | .ended => none

/-- `consumer`; `none` where it would read outside of the buffer. -/
def consumerStep (BSIZE NUMITEMS : ℕ) (s : State) : Option (Option Event × State) :=
  match s.consumer with
  | .start => some (some (.print "Consumer started.\n"), { s with consumer := .loop 0 })
  | .loop i => some (none, { s with consumer := if i < NUMITEMS then .test i else .exiting })
  | .test i =>
    some (none, { s with consumer := if s.occupied ≤ 0 then .printWait i else .take i })
  | .printWait i => some (some (.print "Consumer should wait.\n"), { s with consumer := .take i })
  | .take i => (s.buf[s.nextout]?).map fun item =>
      (none, { s with nextout := (s.nextout + 1) % BSIZE, consumer := .print i item })
  | .print i item => some (some (.consumed item), { s with consumer := .load i })
  | .load i => some (none, { s with consumer := .dec i s.occupied })
  | .dec i reg => some (none, { s with occupied := reg - 1, consumer := .loop (i + 1) })
  | .exiting => some (some (.print "Consumer exiting.\n"), { s with consumer := .ended })
  | .ended => none

/-- The two threads. -/
def machine (BSIZE : ℕ) (items : List Char) : Machine State Act Event where
  step := fun s a =>
    match a with
    | .producer => producerStep BSIZE items s
    | .consumer => consumerStep BSIZE items.length s

/-- The buffer as `main` has filled it. -/
def initial (BSIZE : ℕ) : State where
  buf := List.replicate BSIZE EMPTY
  occupied := 0
  nextin := 0
  nextout := 0
  producer := .start
  consumer := .start

end BoundedBuffer
