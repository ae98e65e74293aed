import OsSamples.Lib.Threads
import OsSamples.Spec.ProducerConsumer

/-!
# The producers and the consumers come to their end

Each item is put, taken and printed once, so that the steps that are left can be counted; and where
no thread can step, all have finished.

## Key results

- `rest_step`: a measure that every step makes smaller
- `inevitable_finished`: all threads finish
-/

namespace ProducerConsumer

variable {P C : ℕ} {setup : Setup P} {st st' : State P C} {e : Option (Event P C)}
  {tr : List (Event P C)}

/-- How many steps are left for `main`. -/
def MainPc.rest (P C : ℕ) : MainPc → ℕ
  | .createConsumer i => (C - i) + 2 * P + C + 6
  | .createProducer i => (P - i) + P + C + 5
  | .joinProducer i => (P - i) + C + 4
  | .createTerminator => C + 3
  | .joinTerminator => C + 2
  | .joinConsumer i => (C - i) + 1
  | .done => 0

/-- How many steps are left for a producer that has `n` items to put, and for the consumers to take
    and to print them. -/
def ProducerPc.rest (n : ℕ) : ProducerPc → ℕ
  | .new => 3 * n + 4
  | .start => 3 * n + 3
  | .waiting => 3 * n + 2
  | .loop i => 3 * (n - i) + 1
  | .done => 0

/-- How many steps are left for a consumer, besides those that it takes for the items. -/
def ConsumerPc.rest : ConsumerPc → ℕ
  | .new => 4
  | .start => 3
  | .waiting => 2
  | .take => 1
  | .print _ => 2
  | .done => 0

/-- How many steps are left for the producers. -/
def producersRest (setup : Setup P) (C : ℕ) (producer : Option (Fin P) → ProducerPc) : ℕ :=
  ∑ p, (producer p).rest (script setup C p).length

/-- A measure that every step makes smaller. -/
def rest (setup : Setup P) (st : State P C) : ℕ :=
  st.main.rest P C + producersRest setup C st.producer + Threads.total ConsumerPc.rest st.consumer +
    2 * st.storage.count

theorem MainStep.rest_lt {pc : MainPc} (h : MainStep st pc) : pc.rest P C < st.main.rest P C := by
  cases h with
  | consumersCreated hpc hi | producersCreated hpc hi | producersJoined hpc hi
  | consumersJoined hpc hi =>
    simp only [hpc, MainPc.rest]
    omega
  | joinProducer hpc hi hdone | joinConsumer hpc hi hdone =>
    simp only [hpc, MainPc.rest]
    omega
  | joinTerminator hpc hdone => simp [hpc, MainPc.rest]

/-- A step of one producer. -/
theorem producersRest_update (setup : Setup P) (C : ℕ) (producer : Option (Fin P) → ProducerPc)
    (p : Option (Fin P)) (pc : ProducerPc) :
    producersRest setup C (Function.update producer p pc) +
        (producer p).rest (script setup C p).length =
      producersRest setup C producer + pc.rest (script setup C p).length :=
  Threads.sum_update (fun p pc => ProducerPc.rest (script setup C p).length pc) producer p pc

/-- An item more is in the storage. -/
theorem QueueInv.count_put (h : QueueInv setup tr st.storage) {item : Char}
    {storage : RingBuffer Char} (hspace : st.storage.count ≠ st.storage.capacity)
    (hput : st.storage.put item = some storage) : storage.count = st.storage.count + 1 := by
  obtain ⟨xs, hholds, -, -⟩ := h
  obtain ⟨r, hput', -, hholds'⟩ :=
    RingBuffer.put_holds hholds (lt_of_le_of_ne hholds.count_le hspace) item
  obtain rfl := Option.some.inj (hput.symm.trans hput')
  rw [hholds'.count_eq, hholds.count_eq, List.length_append, List.length_singleton]

/-- An item has been taken from the storage. -/
theorem QueueInv.count_take (h : QueueInv setup tr st.storage) {item : Char}
    {storage : RingBuffer Char} (hcount : st.storage.count ≠ 0)
    (htake : st.storage.take = some (item, storage)) :
    st.storage.count = storage.count + 1 := by
  obtain ⟨xs, hholds, -, -⟩ := h
  cases xs with
  | nil => exact absurd hholds.count_eq hcount
  | cons x xs =>
    obtain ⟨r, htake', -, hholds'⟩ := RingBuffer.take_holds hholds
    obtain ⟨-, rfl⟩ := Prod.mk.inj (Option.some.inj (htake.symm.trans htake'))
    rw [hholds'.count_eq, hholds.count_eq, List.length_cons]

theorem rest_step (hmain : MainInv st.main st.producer st.consumer)
    (hqueue : QueueInv setup tr st.storage) (hs : Step setup st e st') :
    rest setup st' < rest setup st := by
  have hproducer := producersRest_update setup C st.producer
  have hconsumer := Threads.total_update ConsumerPc.rest st.consumer
  cases hs with
  -- steps of `main`
  | main h =>
    have hlt := h.rest_lt
    simp only [rest]
    omega
  | @createConsumer i hpc hi =>
    have hupdate := hconsumer ⟨i, hi⟩ .start
    rw [hmain.consumer_new hpc hi] at hupdate
    simp only [rest, hpc, MainPc.rest, ConsumerPc.rest] at hupdate ⊢
    omega
  | @createProducer i hpc hi =>
    have hupdate := hproducer (some ⟨i, hi⟩) .start
    rw [hmain.producer_new hpc hi] at hupdate
    simp only [rest, hpc, MainPc.rest, ProducerPc.rest] at hupdate ⊢
    omega
  | createTerminator hpc =>
    have hupdate := hproducer none .start
    rw [hmain.terminator_new (by rw [hpc]; rfl)] at hupdate
    simp only [rest, hpc, MainPc.rest, ProducerPc.rest] at hupdate ⊢
    omega
  -- a producer on its way to the loop
  | @arriveProducer p hpc =>
    have hupdate := hproducer (some p) .waiting
    rw [hpc] at hupdate
    simp only [rest, ProducerPc.rest] at hupdate ⊢
    omega
  | @skipBarrier p hpc | @leaveBarrier p hpc =>
    have hupdate := hproducer p (.loop 0)
    rw [hpc] at hupdate
    simp only [rest, ProducerPc.rest] at hupdate ⊢
    omega
  | @endProducer p i hpc hend =>
    have hupdate := hproducer p .done
    rw [hpc] at hupdate
    simp only [rest, ProducerPc.rest] at hupdate ⊢
    omega
  -- an item in the storage counts less than one that is not put yet
  | @put p i item storage hpc hitem hspace hput =>
    have hupdate := hproducer p (.loop (i + 1))
    rw [hpc] at hupdate
    obtain ⟨hi, -⟩ := List.getElem?_eq_some_iff.mp hitem
    have hcount := hqueue.count_put hspace hput
    simp only [rest, ProducerPc.rest] at hupdate ⊢
    omega
  -- a consumer on its way to the loop, or with one item more behind it
  | @arriveConsumer c hpc =>
    have hupdate := hconsumer c .waiting
    rw [hpc] at hupdate
    simp only [rest, ConsumerPc.rest] at hupdate ⊢
    omega
  | @skipBarrierConsumer c hpc | @leaveBarrierConsumer c hpc | @print c item hpc =>
    have hupdate := hconsumer c .take
    rw [hpc] at hupdate
    simp only [rest, ConsumerPc.rest] at hupdate ⊢
    omega
  -- an item that is taken counts less than one in the storage
  | @take c item storage hpc hne htake =>
    have hupdate := hconsumer c (if item = QUIT_ITEM then .done else .print item)
    have hle : (if item = QUIT_ITEM then ConsumerPc.done else .print item).rest ≤ 2 := by
      split <;> simp [ConsumerPc.rest]
    rw [hpc] at hupdate
    have hcount := hqueue.count_take hne htake
    simp only [rest, ConsumerPc.rest] at hupdate hle ⊢
    omega

/-- From every state that the program reaches, all threads finish, whichever of them goes on; there
    is always one that can. -/
theorem inevitable_finished (hC : 1 ≤ C) (hsetup : Valid setup)
    (h : (machine C setup).Reachable (initial C setup) st) :
    (machine C setup).Inevitable (fun _ _ => True) Finished st := by
  obtain ⟨tr, hrun⟩ := h
  refine Machine.Inevitable.of_measure (rest setup)
    (I := fun st => ∃ tr, (machine C setup).Run (initial C setup) tr st) ?_ ?_ ⟨tr, hrun⟩
  · rintro st ⟨tr, hrun⟩ hend
    by_contra hno
    have hstuck : ∀ a, (machine C setup).step st a = none := by
      intro a
      cases hs : (machine C setup).step st a with
      | none => rfl
      | some r => exact absurd ⟨a, r, trivial, hs⟩ hno
    exact hend (finished_of_stuck hC (run_inv hC hsetup hrun) hstuck hsetup)
  · rintro st a e st' ⟨tr, hrun⟩ - - hs
    have hinv := run_inv hC hsetup hrun
    exact ⟨⟨_, hrun.snoc hs⟩, rest_step hinv.main hinv.queue (step_cases hC hs)⟩

/-- Two producers, two consumers and a storage with one place, from the beginning. -/
theorem inevitable_finished_two : (machine 2 (P := 2) ⟨1, fun _ => ['a', 'b'], true⟩).Inevitable
    (fun _ _ => True) Finished (initial 2 ⟨1, fun _ => ['a', 'b'], true⟩) :=
  inevitable_finished (by decide) ⟨le_rfl, by decide, by decide⟩ (.refl _)

end ProducerConsumer
