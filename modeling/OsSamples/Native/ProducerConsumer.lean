import Mathlib.Data.Fintype.Basic
import OsSamples.Lib.Machine
import OsSamples.Lib.RingBuffer

/-!
# `producer_consumer.c`: producers and consumers with a ring buffer

`main`, the producers, the producer that tells the consumers to quit, and the consumers.  The
program leaves the synchronisation as an exercise; here the three statements by which `producer` and
`consumer` put an item into the storage or take one from it are one atomic step, which blocks while
the storage is full or empty.  A `printf` of an item is a step of its own.

The calls of the `pthread` library succeed.  Left out: the random delays and what is printed with
`verbose`.
-/

namespace ProducerConsumer

def MAX_STORAGE_CAPACITY : ℕ := 20

def EMPTY_SPACE_ITEM : Char := '_'

def QUIT_ITEM : Char := '-'

/-- The options: `storage.capacity`, `toBeProducedData` and `parallel_start`; `P` and `C` are
    `total_producers` and `total_consumers`. -/
structure Setup (P : ℕ) where
  capacity : ℕ
  data : Fin P → List Char
  parallelStart : Bool

/-- Where `main` is. -/
inductive MainPc
  -- before the conditions of its loops, and before the calls between them
  | createConsumer (i : ℕ)
  | createProducer (i : ℕ)
  | joinProducer (i : ℕ)
  | createTerminator
  | joinTerminator
  | joinConsumer (i : ℕ)
  | done
  deriving DecidableEq

/-- Where a producer is. -/
inductive ProducerPc
  -- not created yet
  | new
  -- before the barrier, and in it
  | start
  | waiting
  -- before the condition of the `for` loop
  | loop (i : ℕ)
  | done
  deriving DecidableEq

/-- Where a consumer is. -/
inductive ConsumerPc
  | new
  | start
  | waiting
  -- at the beginning of a round of the loop
  | take
  -- before `printf`
  | print (item : Char)
  | done
  deriving DecidableEq

/-- The threads, and the storage that they share; `arrived` counts the threads that have come to the
    barrier.  The producer `none` is the one that tells the consumers to quit. -/
structure State (P C : ℕ) where
  storage : RingBuffer Char
  arrived : ℕ
  main : MainPc
  producer : Option (Fin P) → ProducerPc
  consumer : Fin C → ConsumerPc

/-- A thread. -/
inductive Thread (P C : ℕ)
  | main
  | producer (p : Option (Fin P))
  | consumer (c : Fin C)
  deriving DecidableEq

/-- An item is put into the storage, taken from it, or printed. -/
inductive Event (P C : ℕ)
  | put (p : Option (Fin P)) (item : Char)
  | take (c : Fin C) (item : Char)
  | print (c : Fin C) (item : Char)
  deriving DecidableEq

variable {P C : ℕ}

/-- The argument of the thread function `producer`.  `main` writes `producer_args[0]` again only
    when the producer that has read it is joined. -/
def producerArg (C : ℕ) : Option (Fin P) → ℤ
  | some p => p.val
  | none => -C

/-- The condition of the `for` loop of `producer`, with the item that is put. -/
def nextItem (setup : Setup P) (id : ℤ) (i : ℕ) : Option Char :=
  let consumers := if id < 0 then -id else 0
  if consumers ≠ 0 then
    if i < consumers then some QUIT_ITEM else none
  else if h : id.toNat < P then (setup.data ⟨id.toNat, h⟩)[i]? else none

/-- `producer`. -/
def producerStep (setup : Setup P) (p : Option (Fin P)) (st : State P C) :
    Option (Option (Event P C) × State P C) :=
  let id := producerArg C p
  let goto (pc : ProducerPc) : State P C :=
    { st with producer := Function.update st.producer p pc }
  match st.producer p with
  | .new | .done => none
  | .start =>
    if setup.parallelStart ∧ ¬ id < 0 then
      some (none, { goto .waiting with arrived := st.arrived + 1 })
    else some (none, goto (.loop 0))
  | .waiting => if C + P ≤ st.arrived then some (none, goto (.loop 0)) else none
  | .loop i =>
    match nextItem setup id i with
    | none => some (none, goto .done)
    | some item =>
      if st.storage.count = st.storage.capacity then none
      else (st.storage.put item).map fun storage =>
        (some (.put p item), { goto (.loop (i + 1)) with storage := storage })

/-- `consumer`. -/
def consumerStep (setup : Setup P) (c : Fin C) (st : State P C) :
    Option (Option (Event P C) × State P C) :=
  let goto (pc : ConsumerPc) : State P C :=
    { st with consumer := Function.update st.consumer c pc }
  match st.consumer c with
  | .new | .done => none
  | .start =>
    if setup.parallelStart then some (none, { goto .waiting with arrived := st.arrived + 1 })
    else some (none, goto .take)
  | .waiting => if C + P ≤ st.arrived then some (none, goto .take) else none
  | .take =>
    if st.storage.count = 0 then none
    else st.storage.take.map fun r =>
      (some (.take c r.1),
        { goto (if r.1 = QUIT_ITEM then .done else .print r.1) with storage := r.2 })
  | .print item => some (some (.print c item), goto .take)

/-- `main`, after the initialisation. -/
def mainStep (st : State P C) : Option (State P C) :=
  match st.main with
  | .createConsumer i =>
    if h : i < C then
      some { st with
        consumer := Function.update st.consumer ⟨i, h⟩ .start, main := .createConsumer (i + 1) }
    else some { st with main := .createProducer 0 }
  | .createProducer i =>
    if h : i < P then
      some { st with
        producer := Function.update st.producer (some ⟨i, h⟩) .start
        main := .createProducer (i + 1) }
    else some { st with main := .joinProducer 0 }
  | .joinProducer i =>
    if h : i < P then
      if st.producer (some ⟨i, h⟩) = .done then some { st with main := .joinProducer (i + 1) }
      else none
    else some { st with main := .createTerminator }
  | .createTerminator =>
    some { st with producer := Function.update st.producer none .start, main := .joinTerminator }
  | .joinTerminator =>
    if st.producer none = .done then some { st with main := .joinConsumer 0 } else none
  | .joinConsumer i =>
    if h : i < C then
      if st.consumer ⟨i, h⟩ = .done then some { st with main := .joinConsumer (i + 1) } else none
    else some { st with main := .done }
  | .done => none

/-- Any thread takes its next step. -/
def machine (C : ℕ) (setup : Setup P) : Machine (State P C) (Thread P C) (Event P C) where
  step := fun st => fun
    | .main => (mainStep st).map fun st => (none, st)
    | .producer p => producerStep setup p st
    | .consumer c => consumerStep setup c st

/-- `main` before the first thread is created. -/
def initial (C : ℕ) (setup : Setup P) : State P C where
  storage := .empty (List.replicate MAX_STORAGE_CAPACITY EMPTY_SPACE_ITEM) setup.capacity
  arrived := 0
  main := .createConsumer 0
  producer := fun _ => .new
  consumer := fun _ => .new

end ProducerConsumer
