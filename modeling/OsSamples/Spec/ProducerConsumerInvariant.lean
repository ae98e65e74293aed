import OsSamples.Lib.Threads
import OsSamples.Native.ProducerConsumer

/-!
# The producers and consumers: the invariant of a run

## Key results

- `step_cases`: what a step can do, one constructor of `Step` for each kind
- `run_inv`: the invariant of a run, with `step_mainInv`, `step_queueInv`, `step_putInv`,
  `step_takeInv` and `step_barrierInv` for its parts
-/

namespace ProducerConsumer

variable {P C : ℕ} {setup : Setup P} {st st' : State P C} {e : Option (Event P C)}
  {tr : List (Event P C)}

/-! ## What a step can do -/

/-- What a producer puts, from its first round to its last one. -/
def script (setup : Setup P) (C : ℕ) : Option (Fin P) → List Char
  | some p => setup.data p
  | none => List.replicate C QUIT_ITEM

/-- The items of the rounds. -/
theorem nextItem_eq (hC : 0 < C) (p : Option (Fin P)) (i : ℕ) :
    nextItem setup (producerArg C p) i = (script setup C p)[i]? := by
  cases p with
  | some p =>
    have hid : ¬ ((p.val : ℤ) < 0) := by omega
    simp [nextItem, producerArg, script, hid]
  | none =>
    have hid : (-(C : ℤ)) < 0 := by omega
    simp only [nextItem, producerArg, script, hid, if_true, neg_neg, List.getElem?_replicate]
    rw [if_pos (by omega)]
    by_cases hi : i < C
    · rw [if_pos (by omega), if_pos hi]
    · rw [if_neg (by omega), if_neg hi]

/-- The moves of `main` that only wait or begin with another loop. -/
inductive MainStep (st : State P C) : MainPc → Prop
  | consumersCreated {i : ℕ} (hpc : st.main = .createConsumer i) (hi : C ≤ i) :
      MainStep st (.createProducer 0)
  | producersCreated {i : ℕ} (hpc : st.main = .createProducer i) (hi : P ≤ i) :
      MainStep st (.joinProducer 0)
  | joinProducer {i : ℕ} (hpc : st.main = .joinProducer i) (hi : i < P)
      (hdone : st.producer (some ⟨i, hi⟩) = .done) : MainStep st (.joinProducer (i + 1))
  | producersJoined {i : ℕ} (hpc : st.main = .joinProducer i) (hi : P ≤ i) :
      MainStep st .createTerminator
  | joinTerminator (hpc : st.main = .joinTerminator) (hdone : st.producer none = .done) :
      MainStep st (.joinConsumer 0)
  | joinConsumer {i : ℕ} (hpc : st.main = .joinConsumer i) (hi : i < C)
      (hdone : st.consumer ⟨i, hi⟩ = .done) : MainStep st (.joinConsumer (i + 1))
  | consumersJoined {i : ℕ} (hpc : st.main = .joinConsumer i) (hi : C ≤ i) : MainStep st .done

/-- The kinds of steps. -/
inductive Step (setup : Setup P) (st : State P C) : Option (Event P C) → State P C → Prop
  | main {pc : MainPc} (h : MainStep st pc) : Step setup st none { st with main := pc }
  | createConsumer {i : ℕ} (hpc : st.main = .createConsumer i) (hi : i < C) :
      Step setup st none { st with
        consumer := Function.update st.consumer ⟨i, hi⟩ .start, main := .createConsumer (i + 1) }
  | createProducer {i : ℕ} (hpc : st.main = .createProducer i) (hi : i < P) :
      Step setup st none { st with
        producer := Function.update st.producer (some ⟨i, hi⟩) .start
        main := .createProducer (i + 1) }
  | createTerminator (hpc : st.main = .createTerminator) :
      Step setup st none { st with
        producer := Function.update st.producer none .start, main := .joinTerminator }
  | arriveProducer {p : Fin P} (hpc : st.producer (some p) = .start)
      (hparallel : setup.parallelStart = true) :
      Step setup st none { st with
        producer := Function.update st.producer (some p) .waiting, arrived := st.arrived + 1 }
  | skipBarrier {p : Option (Fin P)} (hpc : st.producer p = .start)
      (hskip : setup.parallelStart = false ∨ p = none) :
      Step setup st none { st with producer := Function.update st.producer p (.loop 0) }
  | leaveBarrier {p : Option (Fin P)} (hpc : st.producer p = .waiting) :
      Step setup st none { st with producer := Function.update st.producer p (.loop 0) }
  | endProducer {p : Option (Fin P)} {i : ℕ} (hpc : st.producer p = .loop i)
      (hend : (script setup C p)[i]? = none) :
      Step setup st none { st with producer := Function.update st.producer p .done }
  | put {p : Option (Fin P)} {i : ℕ} {item : Char} {storage : RingBuffer Char}
      (hpc : st.producer p = .loop i) (hitem : (script setup C p)[i]? = some item)
      (hspace : st.storage.count ≠ st.storage.capacity)
      (hput : st.storage.put item = some storage) :
      Step setup st (some (.put p item)) { st with
        producer := Function.update st.producer p (.loop (i + 1)), storage := storage }
  | arriveConsumer {c : Fin C} (hpc : st.consumer c = .start)
      (hparallel : setup.parallelStart = true) :
      Step setup st none { st with
        consumer := Function.update st.consumer c .waiting, arrived := st.arrived + 1 }
  | skipBarrierConsumer {c : Fin C} (hpc : st.consumer c = .start)
      (hskip : setup.parallelStart = false) :
      Step setup st none { st with consumer := Function.update st.consumer c .take }
  | leaveBarrierConsumer {c : Fin C} (hpc : st.consumer c = .waiting) :
      Step setup st none { st with consumer := Function.update st.consumer c .take }
  | take {c : Fin C} {item : Char} {storage : RingBuffer Char} (hpc : st.consumer c = .take)
      (hcount : st.storage.count ≠ 0) (htake : st.storage.take = some (item, storage)) :
      Step setup st (some (.take c item)) { st with
        consumer :=
          Function.update st.consumer c (if item = QUIT_ITEM then .done else .print item)
        storage := storage }
  | print {c : Fin C} {item : Char} (hpc : st.consumer c = .print item) :
      Step setup st (some (.print c item))
        { st with consumer := Function.update st.consumer c .take }

theorem step_of_mainStep (hs : mainStep st = some st') : Step setup st none st' := by
  unfold mainStep at hs
  split at hs
  case h_1 i hpc =>
    split at hs <;> rename_i hi <;> obtain rfl := Option.some.inj hs
    · exact .createConsumer hpc hi
    · exact .main (.consumersCreated hpc (by omega))
  case h_2 i hpc =>
    split at hs <;> rename_i hi <;> obtain rfl := Option.some.inj hs
    · exact .createProducer hpc hi
    · exact .main (.producersCreated hpc (by omega))
  -- `main` waits for the producers in turn
  case h_3 i hpc =>
    split at hs <;> rename_i hi
    · simp only [Option.ite_none_right_eq_some, Option.some.injEq] at hs
      obtain ⟨hdone, rfl⟩ := hs
      exact .main (.joinProducer hpc hi hdone)
    · obtain rfl := Option.some.inj hs
      exact .main (.producersJoined hpc (by omega))
  case h_4 hpc =>
    obtain rfl := Option.some.inj hs
    exact .createTerminator hpc
  -- it waits for the producer that tells the consumers to quit
  case h_5 hpc =>
    simp only [Option.ite_none_right_eq_some, Option.some.injEq] at hs
    obtain ⟨hdone, rfl⟩ := hs
    exact .main (.joinTerminator hpc hdone)
  case h_6 i hpc =>
    split at hs <;> rename_i hi
    · simp only [Option.ite_none_right_eq_some, Option.some.injEq] at hs
      obtain ⟨hdone, rfl⟩ := hs
      exact .main (.joinConsumer hpc hi hdone)
    · obtain rfl := Option.some.inj hs
      exact .main (.consumersJoined hpc (by omega))
  case h_7 hpc => exact nomatch hs

theorem step_of_producerStep (hC : 0 < C) {p : Option (Fin P)}
    (hs : producerStep setup p st = some (e, st')) : Step setup st e st' := by
  unfold producerStep at hs
  dsimp only at hs
  split at hs
  case h_1 => exact nomatch hs
  case h_2 => exact nomatch hs
  case h_3 hpc =>
    -- the terminator, whose id is negative, does not come to the barrier
    split at hs
    · rename_i hcond
      simp only [Option.some.injEq, Prod.mk.injEq] at hs
      obtain ⟨rfl, rfl⟩ := hs
      cases p with
      | none => exact absurd hcond.2 (by simp [producerArg, hC])
      | some p => exact .arriveProducer hpc hcond.1
    · rename_i hcond
      simp only [Option.some.injEq, Prod.mk.injEq] at hs
      obtain ⟨rfl, rfl⟩ := hs
      refine .skipBarrier hpc ?_
      cases p with
      | none => exact .inr rfl
      | some p =>
        left
        simp only [producerArg, not_and, not_not] at hcond
        by_contra hpar
        have := hcond (by simpa using hpar)
        omega
  case h_4 hpc =>
    simp only [Option.ite_none_right_eq_some, Option.some.injEq, Prod.mk.injEq] at hs
    obtain ⟨-, rfl, rfl⟩ := hs
    exact .leaveBarrier hpc
  case h_5 i hpc =>
    -- the next item of the producer's script, or the end of the thread
    rw [nextItem_eq hC] at hs
    split at hs
    · rename_i hend
      simp only [Option.some.injEq, Prod.mk.injEq] at hs
      obtain ⟨rfl, rfl⟩ := hs
      exact .endProducer hpc hend
    · rename_i item hitem
      simp only [Option.ite_none_left_eq_some, Option.map_eq_some_iff, Prod.mk.injEq] at hs
      obtain ⟨hspace, storage, hput, rfl, rfl⟩ := hs
      exact .put hpc hitem hspace hput

theorem step_of_consumerStep {c : Fin C} (hs : consumerStep setup c st = some (e, st')) :
    Step setup st e st' := by
  unfold consumerStep at hs
  dsimp only at hs
  split at hs
  case h_1 => exact nomatch hs
  case h_2 => exact nomatch hs
  case h_3 hpc =>
    split at hs <;> rename_i hpar <;> simp only [Option.some.injEq, Prod.mk.injEq] at hs <;>
      obtain ⟨rfl, rfl⟩ := hs
    · exact .arriveConsumer hpc hpar
    · exact .skipBarrierConsumer hpc (by simpa using hpar)
  case h_4 hpc =>
    simp only [Option.ite_none_right_eq_some, Option.some.injEq, Prod.mk.injEq] at hs
    obtain ⟨-, rfl, rfl⟩ := hs
    exact .leaveBarrierConsumer hpc
  case h_5 hpc =>
    simp only [Option.ite_none_left_eq_some, Option.map_eq_some_iff, Prod.mk.injEq] at hs
    obtain ⟨hcount, ⟨item, storage⟩, htake, rfl, rfl⟩ := hs
    exact .take hpc hcount htake
  case h_6 item hpc =>
    simp only [Option.some.injEq, Prod.mk.injEq] at hs
    obtain ⟨rfl, rfl⟩ := hs
    exact .print hpc

/-- Every step is of one of the kinds. -/
theorem step_cases (hC : 0 < C) {a : Thread P C}
    (hs : (machine C setup).step st a = some (e, st')) : Step setup st e st' := by
  cases a with
  | main =>
    simp only [machine, Option.map_eq_some_iff, Prod.mk.injEq] at hs
    obtain ⟨st', hs, rfl, rfl⟩ := hs
    exact step_of_mainStep hs
  | producer p => exact step_of_producerStep hC hs
  | consumer c => exact step_of_consumerStep hs

/-! ## The threads that have been created and joined -/

/-- How many consumers `main` has created. -/
def MainPc.createdConsumers (C : ℕ) : MainPc → ℕ
  | .createConsumer i => i
  | _ => C

/-- How many producers `main` has created. -/
def MainPc.createdProducers (P : ℕ) : MainPc → ℕ
  | .createConsumer _ => 0
  | .createProducer i => i
  | _ => P

/-- How many producers `main` has joined. -/
def MainPc.joinedProducers (P : ℕ) : MainPc → ℕ
  | .createConsumer _ | .createProducer _ => 0
  | .joinProducer i => i
  | _ => P

/-- `main` has created the producer that tells the consumers to quit. -/
def MainPc.terminatorCreated : MainPc → Bool
  | .joinTerminator | .joinConsumer _ | .done => true
  | _ => false

/-- `main` has joined it. -/
def MainPc.terminatorJoined : MainPc → Bool
  | .joinConsumer _ | .done => true
  | _ => false

/-- How many consumers `main` has joined. -/
def MainPc.joinedConsumers (C : ℕ) : MainPc → ℕ
  | .joinConsumer i => i
  | .done => C
  | _ => 0

/-- Where the threads are when `main` is at `m`. -/
structure MainInv (m : MainPc) (producer : Option (Fin P) → ProducerPc)
    (consumer : Fin C → ConsumerPc) : Prop where
  consumers : ∀ c, consumer c ≠ .new ↔ c.val < m.createdConsumers C
  producers : ∀ p, producer (some p) ≠ .new ↔ p.val < m.createdProducers P
  terminator : producer none ≠ .new ↔ m.terminatorCreated = true
  waiting : producer none ≠ .waiting
  joinedProducers : ∀ p : Fin P, p.val < m.joinedProducers P → producer (some p) = .done
  joinedTerminator : m.terminatorJoined = true → producer none = .done
  joinedConsumers : ∀ c : Fin C, c.val < m.joinedConsumers C → consumer c = .done

variable {m : MainPc} {producer : Option (Fin P) → ProducerPc} {consumer : Fin C → ConsumerPc}

/-- A producer goes on. -/
theorem MainInv.producerStep (h : MainInv m producer consumer) {p : Option (Fin P)}
    {pc : ProducerPc} (hnew : producer p ≠ .new) (hdone : producer p ≠ .done) (hpc : pc ≠ .new)
    (hwaiting : p = none → pc ≠ .waiting) :
    MainInv m (Function.update producer p pc) consumer where
  consumers := h.consumers
  producers := by
    intro q
    rw [← h.producers q, Function.update_apply]
    split
    · -- the thread was created before the step and is still after it
      rename_i heq
      exact iff_of_true hpc (heq ▸ hnew)
    · rfl
  terminator := by
    rw [← h.terminator, Function.update_apply]
    split
    · rename_i heq
      exact iff_of_true hpc (heq ▸ hnew)
    · rfl
  waiting := by
    rw [Function.update_apply]
    split
    · rename_i heq
      exact hwaiting heq.symm
    · exact h.waiting
  joinedProducers := by
    intro q hq
    rw [Function.update_apply, if_neg]
    · exact h.joinedProducers q hq
    · -- a joined producer takes no step
      rintro rfl
      exact hdone (h.joinedProducers q hq)
  joinedTerminator := by
    intro hm
    rw [Function.update_apply, if_neg]
    · exact h.joinedTerminator hm
    · rintro rfl
      exact hdone (h.joinedTerminator hm)
  joinedConsumers := h.joinedConsumers

/-- A consumer goes on. -/
theorem MainInv.consumerStep (h : MainInv m producer consumer) {c : Fin C} {pc : ConsumerPc}
    (hnew : consumer c ≠ .new) (hdone : consumer c ≠ .done) (hpc : pc ≠ .new) :
    MainInv m producer (Function.update consumer c pc) where
  consumers := by
    intro d
    rw [← h.consumers d, Function.update_apply]
    split
    · rename_i heq
      exact iff_of_true hpc (heq ▸ hnew)
    · rfl
  producers := h.producers
  terminator := h.terminator
  waiting := h.waiting
  joinedProducers := h.joinedProducers
  joinedTerminator := h.joinedTerminator
  joinedConsumers := by
    intro d hd
    rw [Function.update_apply, if_neg]
    · exact h.joinedConsumers d hd
    · rintro rfl
      exact hdone (h.joinedConsumers d hd)

/-- `main` goes on. -/
theorem MainInv.mainStep (h : MainInv st.main st.producer st.consumer) {pc : MainPc}
    (hs : MainStep st pc) : MainInv pc st.producer st.consumer := by
  have hconsumers := h.consumers
  have hproducers := h.producers
  have hterminator := h.terminator
  cases hs with
  | consumersCreated hpc hi =>
    rw [hpc] at hconsumers hproducers hterminator
    refine ⟨fun c => ?_, hproducers, hterminator, h.waiting, nofun, nofun, nofun⟩
    rw [hconsumers c]
    -- all consumers exist now, as many as the loop has created
    simp only [MainPc.createdConsumers]
    omega
  | producersCreated hpc hi =>
    rw [hpc] at hconsumers hproducers hterminator
    refine ⟨hconsumers, fun p => ?_, hterminator, h.waiting, nofun, nofun, nofun⟩
    rw [hproducers p]
    -- the same for the producers
    simp only [MainPc.createdProducers]
    omega
  | @joinProducer i hpc hi hdone =>
    have hjoined := h.joinedProducers
    rw [hpc] at hconsumers hproducers hterminator hjoined
    refine ⟨hconsumers, hproducers, hterminator, h.waiting, fun p hp => ?_, nofun, nofun⟩
    rcases Nat.lt_succ_iff_lt_or_eq.mp hp with hlt | heq
    · exact hjoined p hlt
    · -- the producer that is joined now
      obtain rfl : p = ⟨i, hi⟩ := Fin.ext heq
      exact hdone
  | producersJoined hpc hi =>
    have hjoined := h.joinedProducers
    rw [hpc] at hconsumers hproducers hterminator hjoined
    refine ⟨hconsumers, hproducers, hterminator, h.waiting, fun p hp => hjoined p ?_, nofun, nofun⟩
    -- the loop ends when all of them are joined
    simp only [MainPc.joinedProducers] at hp ⊢
    omega
  | joinTerminator hpc hdone =>
    have hjoined := h.joinedProducers
    rw [hpc] at hconsumers hproducers hterminator hjoined
    exact ⟨hconsumers, hproducers, hterminator, h.waiting, hjoined, fun _ => hdone, nofun⟩
  | @joinConsumer i hpc hi hdone =>
    have hjoined := h.joinedProducers
    have hjoined' := h.joinedTerminator
    have hjoined'' := h.joinedConsumers
    rw [hpc] at hconsumers hproducers hterminator hjoined hjoined' hjoined''
    refine ⟨hconsumers, hproducers, hterminator, h.waiting, hjoined, hjoined', fun c hc => ?_⟩
    rcases Nat.lt_succ_iff_lt_or_eq.mp hc with hlt | heq
    · exact hjoined'' c hlt
    · obtain rfl : c = ⟨i, hi⟩ := Fin.ext heq
      exact hdone
  | consumersJoined hpc hi =>
    have hjoined := h.joinedProducers
    have hjoined' := h.joinedTerminator
    have hjoined'' := h.joinedConsumers
    rw [hpc] at hconsumers hproducers hterminator hjoined hjoined' hjoined''
    refine ⟨hconsumers, hproducers, hterminator, h.waiting, hjoined, hjoined',
      fun c hc => hjoined'' c ?_⟩
    -- the same for the consumers
    simp only [MainPc.joinedConsumers] at hc ⊢
    omega

/-- A new consumer. -/
theorem MainInv.createConsumer {i : ℕ} (h : MainInv (.createConsumer i) producer consumer)
    (hi : i < C) : MainInv (.createConsumer (i + 1)) producer
      (Function.update consumer ⟨i, hi⟩ .start) where
  consumers := by
    intro c
    have hc := h.consumers c
    simp only [MainPc.createdConsumers] at hc ⊢
    rw [Function.update_apply]
    split
    · rename_i heq
      subst heq
      exact iff_of_true nofun (Nat.lt_succ_self i)
    · rename_i hne
      have hne' : c.val ≠ i := fun heq => hne (Fin.ext heq)
      rw [hc]
      omega
  producers := h.producers
  terminator := h.terminator
  waiting := h.waiting
  joinedProducers := nofun
  joinedTerminator := nofun
  joinedConsumers := nofun

/-- A new producer. -/
theorem MainInv.createProducer {i : ℕ} (h : MainInv (.createProducer i) producer consumer)
    (hi : i < P) : MainInv (.createProducer (i + 1))
      (Function.update producer (some ⟨i, hi⟩) .start) consumer where
  consumers := h.consumers
  producers := by
    intro p
    have hp := h.producers p
    simp only [MainPc.createdProducers] at hp ⊢
    rw [Function.update_apply]
    -- the producer that is created now, or one that was there before
    split
    · rename_i heq
      obtain rfl := Option.some.inj heq
      exact iff_of_true nofun (Nat.lt_succ_self i)
    · rename_i hne
      have hne' : p.val ≠ i := fun heq => hne (congrArg some (Fin.ext heq))
      rw [hp]
      omega
  terminator := by
    rw [Function.update_of_ne (by simp)]
    exact h.terminator
  waiting := by
    rw [Function.update_of_ne (by simp)]
    exact h.waiting
  joinedProducers := nofun
  joinedTerminator := nofun
  joinedConsumers := nofun

/-- The producer that tells the consumers to quit. -/
theorem MainInv.createTerminator (h : MainInv .createTerminator producer consumer) :
    MainInv .joinTerminator (Function.update producer none .start) consumer where
  consumers := h.consumers
  producers := by
    intro p
    rw [Function.update_of_ne (by simp)]
    exact h.producers p
  terminator := by
    rw [Function.update_self]
    exact iff_of_true nofun rfl
  waiting := by
    rw [Function.update_self]
    exact nofun
  joinedProducers := by
    intro p hp
    rw [Function.update_of_ne (by simp)]
    exact h.joinedProducers p hp
  joinedTerminator := nofun
  joinedConsumers := nofun

/-- Every step keeps it. -/
theorem step_mainInv (h : MainInv st.main st.producer st.consumer) (hs : Step setup st e st') :
    MainInv st'.main st'.producer st'.consumer := by
  cases hs with
  | main hs => exact h.mainStep hs
  | createConsumer hpc hi => exact (hpc ▸ h).createConsumer hi
  | createProducer hpc hi => exact (hpc ▸ h).createProducer hi
  | createTerminator hpc => exact (hpc ▸ h).createTerminator
  | arriveProducer hpc | skipBarrier hpc | leaveBarrier hpc | endProducer hpc | put hpc =>
    exact h.producerStep (by simp [hpc]) (by simp [hpc]) nofun nofun
  | arriveConsumer hpc | skipBarrierConsumer hpc | leaveBarrierConsumer hpc | print hpc =>
    exact h.consumerStep (by simp [hpc]) (by simp [hpc]) nofun
  | take hpc =>
    refine h.consumerStep (by simp [hpc]) (by simp [hpc]) ?_
    split <;> exact nofun

theorem initial_mainInv (C : ℕ) (setup : Setup P) :
    MainInv (initial C setup).main (initial C setup).producer (initial C setup).consumer where
  consumers := fun _ => iff_of_false (fun h => h rfl) nofun
  producers := fun _ => iff_of_false (fun h => h rfl) nofun
  terminator := iff_of_false (fun h => h rfl) nofun
  waiting := nofun
  joinedProducers := nofun
  joinedTerminator := nofun
  joinedConsumers := nofun

/-- A consumer that `main` is about to create is not there. -/
theorem MainInv.consumer_new (h : MainInv m producer consumer) {i : ℕ} (hm : m = .createConsumer i)
    (hi : i < C) : consumer ⟨i, hi⟩ = .new := by
  subst hm
  by_contra hnew
  exact absurd ((h.consumers _).mp hnew) (Nat.lt_irrefl i)

/-- A producer that `main` is about to create is not there. -/
theorem MainInv.producer_new (h : MainInv m producer consumer) {i : ℕ} (hm : m = .createProducer i)
    (hi : i < P) : producer (some ⟨i, hi⟩) = .new := by
  subst hm
  by_contra hnew
  exact absurd ((h.producers _).mp hnew) (Nat.lt_irrefl i)

/-- Before `main` creates it, the producer that tells the consumers to quit is not there. -/
theorem MainInv.terminator_new (h : MainInv m producer consumer)
    (hm : m.terminatorCreated = false) : producer none = .new := by
  by_contra hnew
  rw [h.terminator.mp hnew] at hm
  exact nomatch hm

/-- When it is there, the other producers are done. -/
theorem MainInv.producer_done (h : MainInv m producer consumer) (hnew : producer none ≠ .new)
    (p : Fin P) : producer (some p) = .done := by
  have hcreated := h.terminator.mp hnew
  apply h.joinedProducers p
  have hlt := p.isLt
  cases m <;> first | exact hlt | exact nomatch hcreated

/-! ## What is put, taken and printed -/

/-- The items that were put, in their order. -/
def puts (tr : List (Event P C)) : List Char :=
  tr.filterMap fun
    | .put _ item => some item
    | _ => none

/-- The items that were taken, in their order. -/
def takes (tr : List (Event P C)) : List Char :=
  tr.filterMap fun
    | .take _ item => some item
    | _ => none

/-- The items that the consumer `c` took. -/
def takesBy (c : Fin C) (tr : List (Event P C)) : List Char :=
  tr.filterMap fun
    | .take c' item => if c' = c then some item else none
    | _ => none

/-- The items that were printed. -/
def prints (tr : List (Event P C)) : List Char :=
  tr.filterMap fun
    | .print _ item => some item
    | _ => none

@[simp] theorem puts_append (tr tr' : List (Event P C)) : puts (tr ++ tr') = puts tr ++ puts tr' :=
  List.filterMap_append

@[simp] theorem takes_append (tr tr' : List (Event P C)) :
    takes (tr ++ tr') = takes tr ++ takes tr' :=
  List.filterMap_append

@[simp] theorem takesBy_append (c : Fin C) (tr tr' : List (Event P C)) :
    takesBy c (tr ++ tr') = takesBy c tr ++ takesBy c tr' :=
  List.filterMap_append

@[simp] theorem prints_append (tr tr' : List (Event P C)) :
    prints (tr ++ tr') = prints tr ++ prints tr' :=
  List.filterMap_append

/-- Every item is in the storage or was taken, in the order in which they were put. -/
def QueueInv (setup : Setup P) (tr : List (Event P C)) (storage : RingBuffer Char) : Prop :=
  ∃ xs, storage.Holds xs ∧ storage.capacity = setup.capacity ∧ puts tr = takes tr ++ xs

theorem step_queueInv (h : QueueInv setup tr st.storage) (hs : Step setup st e st') :
    QueueInv setup (tr ++ e.toList) st'.storage := by
  obtain ⟨xs, hholds, hcapacity, heq⟩ := h
  cases hs with
  | @put p i item storage hpc hitem hspace hput =>
    -- the producer has waited for a free place
    have hlt := lt_of_le_of_ne hholds.count_le hspace
    obtain ⟨storage, hput', hcapacity', hholds'⟩ := RingBuffer.put_holds hholds hlt item
    obtain rfl := Option.some.inj (hput.symm.trans hput')
    refine ⟨xs ++ [item], hholds', hcapacity'.trans hcapacity, ?_⟩
    rw [puts_append, takes_append, heq]
    simp [puts, takes]
  | @take c item storage hpc hcount htake =>
    cases xs with
    | nil => exact absurd hholds.count_eq hcount
    | cons x xs =>
      obtain ⟨storage, htake', hcapacity', hholds'⟩ := RingBuffer.take_holds hholds
      obtain ⟨rfl, rfl⟩ := Prod.mk.inj (Option.some.inj (htake.symm.trans htake'))
      refine ⟨xs, hholds', hcapacity'.trans hcapacity, ?_⟩
      rw [puts_append, takes_append, heq]
      simp [puts, takes]
  | print hpc =>
    refine ⟨xs, hholds, hcapacity, ?_⟩
    rw [puts_append, takes_append, heq]
    simp [puts, takes]
  | _ => exact ⟨xs, hholds, hcapacity, by simpa using heq⟩

theorem initial_queueInv (hpos : 1 ≤ setup.capacity) (hle : setup.capacity ≤ MAX_STORAGE_CAPACITY) :
    QueueInv setup ([] : List (Event P C)) (initial C setup).storage := by
  refine ⟨[], RingBuffer.empty_holds hpos ?_, rfl, rfl⟩
  rw [List.length_replicate]
  exact hle

/-- What a producer at `pc` has put. -/
def given (items : List Char) : ProducerPc → List Char
  | .loop i => items.take i
  | .done => items
  | .new | .start | .waiting => []

/-- What the producers, but the one that tells the consumers to quit, have put. -/
def produced (setup : Setup P) (producer : Option (Fin P) → ProducerPc) : Multiset Char :=
  ∑ p, (given (setup.data p) (producer (some p)) : Multiset Char)

/-- A step of a producer, seen from the producers without the last one. -/
theorem update_some (p : Fin P) (pc : ProducerPc) :
    (fun q => Function.update producer (some p) pc (some q)) =
      Function.update (fun q => producer (some q)) p pc := by
  funext q
  simp only [Function.update_apply, Option.some.injEq]

theorem produced_update_some (setup : Setup P) (producer : Option (Fin P) → ProducerPc) (p : Fin P)
    (pc : ProducerPc) :
    produced setup (Function.update producer (some p) pc)
        + (given (setup.data p) (producer (some p)) : Multiset Char)
      = produced setup producer + (given (setup.data p) pc : Multiset Char) := by
  have hupdate := Threads.sum_update
    (fun q pc => (given (setup.data q) pc : Multiset Char)) (fun q => producer (some q)) p pc
  rw [← update_some] at hupdate
  exact hupdate

theorem produced_update_none (pc : ProducerPc) :
    produced setup (Function.update producer none pc) = produced setup producer := by
  simp [produced]

/-- A step that puts nothing. -/
theorem produced_update (p : Option (Fin P)) {pc : ProducerPc}
    (heq : given (script setup C p) pc = given (script setup C p) (producer p)) :
    produced setup (Function.update producer p pc) = produced setup producer := by
  cases p with
  | none => exact produced_update_none pc
  | some p =>
    have hupdate := produced_update_some setup producer p pc
    simp only [script] at heq
    rw [heq] at hupdate
    exact add_right_cancel hupdate

/-- The items of the producers were put before those that tell the consumers to quit. -/
def PutInv (setup : Setup P) (tr : List (Event P C)) (producer : Option (Fin P) → ProducerPc) :
    Prop :=
  ∃ ordinary : List Char, QUIT_ITEM ∉ ordinary ∧
    (ordinary : Multiset Char) = produced setup producer ∧
    puts tr = ordinary ++ given (script setup C none) (producer none)

/-- A step that puts nothing. -/
theorem PutInv.update (h : PutInv setup tr producer) {p : Option (Fin P)} {pc : ProducerPc}
    (heq : given (script setup C p) pc = given (script setup C p) (producer p)) :
    PutInv setup tr (Function.update producer p pc) := by
  obtain ⟨ordinary, hquit, hproduced, hputs⟩ := h
  refine ⟨ordinary, hquit, ?_, ?_⟩
  · rw [produced_update p heq, hproduced]
  · rw [hputs, Function.update_apply]
    split
    · rename_i hp
      subst hp
      rw [heq]
    · rfl

/-- A producer puts its next item. -/
theorem PutInv.put (h : PutInv setup tr producer) {p : Fin P} {i : ℕ} {item : Char}
    (hnone : producer none = .new) (hpc : producer (some p) = .loop i)
    (hitem : (setup.data p)[i]? = some item) (hquit : item ≠ QUIT_ITEM) :
    PutInv setup (tr ++ [.put (some p) item])
      (Function.update producer (some p) (.loop (i + 1))) := by
  obtain ⟨ordinary, hordinary, hproduced, hputs⟩ := h
  refine ⟨ordinary ++ [item], ?_, ?_, ?_⟩
  · rw [List.mem_append, List.mem_singleton, not_or]
    exact ⟨hordinary, hquit.symm⟩
  · have hupdate := produced_update_some setup producer p (.loop (i + 1))
    rw [hpc, given, given, List.take_add_one, hitem, ← Multiset.coe_add, add_left_comm,
      add_comm] at hupdate
    rw [← Multiset.coe_add, hproduced]
    exact (add_left_cancel hupdate).symm
  · rw [Function.update_of_ne (by simp), puts_append, hputs, hnone, given, List.append_nil]
    simp [puts]

/-- The producer that tells the consumers to quit puts an item. -/
theorem PutInv.putQuit (h : PutInv setup tr producer) {i : ℕ} {item : Char}
    (hpc : producer none = .loop i) (hitem : (script setup C none)[i]? = some item) :
    PutInv setup (tr ++ [.put none item]) (Function.update producer none (.loop (i + 1))) := by
  obtain ⟨ordinary, hordinary, hproduced, hputs⟩ := h
  refine ⟨ordinary, hordinary, ?_, ?_⟩
  · rw [produced_update_none, hproduced]
  · rw [Function.update_self, puts_append, hputs, hpc, given, given, List.take_add_one, hitem,
      ← List.append_assoc]
    rfl

theorem step_putInv (hdata : ∀ p, QUIT_ITEM ∉ setup.data p)
    (hmain : MainInv st.main st.producer st.consumer) (h : PutInv setup tr st.producer)
    (hs : Step setup st e st') : PutInv setup (tr ++ e.toList) st'.producer := by
  cases hs with
  | createProducer hpc hi =>
    rw [Option.toList, List.append_nil]
    apply h.update
    rw [hmain.producer_new hpc hi, given, given]
  | createTerminator hpc =>
    rw [Option.toList, List.append_nil]
    apply h.update
    rw [hmain.terminator_new (by rw [hpc]; rfl), given, given]
  | arriveProducer hpc | skipBarrier hpc | leaveBarrier hpc =>
    rw [Option.toList, List.append_nil]
    exact h.update (by simp [hpc, given])
  | endProducer hpc hend =>
    rw [Option.toList, List.append_nil]
    apply h.update
    rw [hpc, given, given, List.take_of_length_le (List.getElem?_eq_none_iff.mp hend)]
  | @put p i item storage hpc hitem hspace hput =>
    cases p with
    | none => exact h.putQuit hpc hitem
    | some p =>
      -- the terminator is created only after this producer was joined
      have hnone : st.producer none = .new := by
        by_contra hnew
        exact nomatch hpc.symm.trans (hmain.producer_done hnew p)
      have hquit : item ≠ QUIT_ITEM := by
        rintro rfl
        exact hdata p (List.mem_of_getElem? hitem)
      exact h.put hnone hpc hitem hquit
  | _ =>
    obtain ⟨ordinary, hordinary, hproduced, hputs⟩ := h
    exact ⟨ordinary, hordinary, hproduced, by simpa [puts] using hputs⟩

theorem initial_putInv (C : ℕ) (setup : Setup P) :
    PutInv setup ([] : List (Event P C)) (initial C setup).producer :=
  ⟨[], List.not_mem_nil, by simp [produced, initial, given], rfl⟩

/-- What a consumer at `pc` has taken and not printed. -/
def unprinted : ConsumerPc → Multiset Char
  | .print item => {item}
  | .done => {QUIT_ITEM}
  | .new | .start | .waiting | .take => 0

/-- What was taken was printed, or it is with the consumer that took it. -/
structure TakeInv (tr : List (Event P C)) (consumer : Fin C → ConsumerPc) : Prop where
  noQuit : QUIT_ITEM ∉ prints tr
  printing : ∀ c, consumer c ≠ .print QUIT_ITEM
  taken : (takes tr : Multiset Char) = (prints tr : Multiset Char)
    + ∑ c, unprinted (consumer c)
  quits : ∀ c, (takesBy c tr).count QUIT_ITEM = if consumer c = .done then 1 else 0

/-- The items that are with the consumers, after a step of one of them. -/
theorem unprinted_update (consumer : Fin C → ConsumerPc) (c : Fin C) (pc : ConsumerPc) :
    (∑ d, unprinted (Function.update consumer c pc d)) + unprinted (consumer c)
      = (∑ d, unprinted (consumer d)) + unprinted pc :=
  Threads.sum_update (fun _ => unprinted) consumer c pc

/-- A consumer that neither takes nor prints goes on. -/
theorem TakeInv.update (h : TakeInv tr consumer) {c : Fin C} {pc : ConsumerPc}
    (hold : unprinted (consumer c) = 0) (hnew : unprinted pc = 0) :
    TakeInv tr (Function.update consumer c pc) where
  noQuit := h.noQuit
  printing := by
    intro d hd
    -- the step leads to no `printf`, and the other consumers stay
    rw [Function.update_apply] at hd
    split at hd
    · rw [hd] at hnew
      exact absurd hnew (Multiset.singleton_ne_zero _)
    · exact h.printing d hd
  taken := by
    have hupdate := unprinted_update consumer c pc
    rw [hold, hnew, add_zero, add_zero] at hupdate
    rw [h.taken, hupdate]
  quits := by
    intro d
    rw [h.quits d]
    by_cases hd : d = c
    · -- a consumer that has taken `QUIT_ITEM` still has it, so this one has not
      subst hd
      have hold' : consumer d ≠ .done := by
        intro hd
        rw [hd] at hold
        exact absurd hold (Multiset.singleton_ne_zero _)
      have hnew' : pc ≠ .done := by
        rintro rfl
        exact absurd hnew (Multiset.singleton_ne_zero _)
      rw [Function.update_self, if_neg hold', if_neg hnew']
    · rw [Function.update_of_ne hd]

/-- A consumer takes an item. -/
theorem TakeInv.take (h : TakeInv tr consumer) {c : Fin C} (hpc : consumer c = .take)
    (item : Char) :
    TakeInv (tr ++ [.take c item])
      (Function.update consumer c (if item = QUIT_ITEM then .done else .print item)) where
  noQuit := by
    rw [prints_append]
    simpa [prints] using h.noQuit
  printing := by
    intro d hd
    rw [Function.update_apply] at hd
    -- an item that is printed is no quit item
    split at hd
    · split at hd
      · exact nomatch hd
      · rename_i hquit
        exact hquit (ConsumerPc.print.inj hd)
    · exact h.printing d hd
  taken := by
    -- the item goes from the taken ones to those that are not printed yet
    have hitem : unprinted (if item = QUIT_ITEM then .done else .print item) = {item} := by
      split
      · rename_i hquit
        rw [hquit]
        rfl
      · rfl
    have hupdate := unprinted_update consumer c
      (if item = QUIT_ITEM then .done else .print item)
    rw [hitem, hpc, unprinted, add_zero] at hupdate
    rw [takes_append, prints_append, ← Multiset.coe_add, ← Multiset.coe_add, h.taken, hupdate]
    simp [takes, prints, add_assoc]
  quits := by
    intro d
    rw [takesBy_append, List.count_append, h.quits d, Function.update_apply]
    -- only this consumer has one more item, a quit item if it ends
    by_cases hd : d = c
    · subst hd
      by_cases hquit : item = QUIT_ITEM <;> simp [takesBy, hpc, hquit]
    · have hne : ¬ c = d := fun heq => hd heq.symm
      simp [takesBy, hd, hne]

/-- A consumer prints the item that it has taken. -/
theorem TakeInv.printed (h : TakeInv tr consumer) {c : Fin C} {item : Char}
    (hpc : consumer c = .print item) :
    TakeInv (tr ++ [.print c item]) (Function.update consumer c .take) where
  noQuit := by
    -- the consumer does not come to `printf` with a quit item
    have hquit : item ≠ QUIT_ITEM := fun heq => h.printing c (heq ▸ hpc)
    rw [prints_append, List.mem_append, not_or]
    exact ⟨h.noQuit, by simpa [prints] using hquit.symm⟩
  printing := by
    intro d hd
    rw [Function.update_apply] at hd
    split at hd
    · exact nomatch hd
    · exact h.printing d hd
  taken := by
    -- the item goes from those that are not printed to the printed ones
    have hupdate := unprinted_update consumer c .take
    rw [hpc, unprinted, unprinted, add_zero] at hupdate
    have htakes : takes [Event.print (P := P) c item] = [] := rfl
    have hprints : prints [Event.print (P := P) c item] = [item] := rfl
    rw [takes_append, prints_append, htakes, hprints, List.append_nil, ← Multiset.coe_add, h.taken,
      ← hupdate, Multiset.coe_singleton, add_assoc, add_comm ({item} : Multiset Char)]
  quits := by
    intro d
    rw [takesBy_append, List.count_append, h.quits d, Function.update_apply]
    by_cases hd : d = c
    · subst hd
      simp [takesBy, hpc]
    · simp [takesBy, hd]

theorem step_takeInv (hmain : MainInv st.main st.producer st.consumer)
    (h : TakeInv tr st.consumer) (hs : Step setup st e st') :
    TakeInv (tr ++ e.toList) st'.consumer := by
  cases hs with
  | createConsumer hpc hi =>
    rw [Option.toList, List.append_nil]
    apply h.update
    · rw [hmain.consumer_new hpc hi, unprinted]
    · rfl
  | arriveConsumer hpc | skipBarrierConsumer hpc | leaveBarrierConsumer hpc =>
    rw [Option.toList, List.append_nil]
    exact h.update (by rw [hpc, unprinted]) rfl
  | @take c item storage hpc hcount htake => exact h.take hpc item
  | print hpc => exact h.printed hpc
  | put hpc =>
    -- a new item that nobody has taken yet
    refine ⟨?_, h.printing, ?_, ?_⟩
    · simpa [prints] using h.noQuit
    · simpa [takes, prints] using h.taken
    · simpa [takesBy] using h.quits
  | _ =>
    rw [Option.toList, List.append_nil]
    exact h

theorem initial_takeInv (C : ℕ) (setup : Setup P) :
    TakeInv ([] : List (Event P C)) (initial C setup).consumer where
  noQuit := List.not_mem_nil
  printing := nofun
  taken := by simp [takes, prints, initial, unprinted]
  quits := fun _ => rfl

/-! ## The barrier -/

/-- Whether a producer has come to the barrier. -/
def ProducerPc.arrivals : ProducerPc → ℕ
  | .new | .start => 0
  | .waiting | .loop _ | .done => 1

/-- Whether a consumer has come to the barrier. -/
def ConsumerPc.arrivals : ConsumerPc → ℕ
  | .new | .start => 0
  | .waiting | .take | .print _ | .done => 1

/-- The threads that have come to the barrier, without the producer that tells the consumers to
    quit. -/
def arrivals (producer : Option (Fin P) → ProducerPc) (consumer : Fin C → ConsumerPc) : ℕ :=
  Threads.total ProducerPc.arrivals (fun p => producer (some p)) +
    Threads.total ConsumerPc.arrivals consumer

theorem arrivals_update_some (producer : Option (Fin P) → ProducerPc)
    (consumer : Fin C → ConsumerPc) (p : Fin P) (pc : ProducerPc) :
    arrivals (Function.update producer (some p) pc) consumer + (producer (some p)).arrivals
      = arrivals producer consumer + pc.arrivals := by
  have hupdate := Threads.total_update ProducerPc.arrivals (fun q => producer (some q)) p pc
  rw [← update_some] at hupdate
  unfold arrivals
  omega

theorem arrivals_update_none (pc : ProducerPc) :
    arrivals (Function.update producer none pc) consumer = arrivals producer consumer := by
  simp [arrivals]

theorem arrivals_update_consumer (producer : Option (Fin P) → ProducerPc)
    (consumer : Fin C → ConsumerPc) (c : Fin C) (pc : ConsumerPc) :
    arrivals producer (Function.update consumer c pc) + (consumer c).arrivals
      = arrivals producer consumer + pc.arrivals := by
  have hupdate := Threads.total_update ConsumerPc.arrivals consumer c pc
  unfold arrivals
  omega

/-- With `parallel_start` the barrier counts the threads; without, no thread waits. -/
structure BarrierInv (setup : Setup P) (arrived : ℕ) (producer : Option (Fin P) → ProducerPc)
    (consumer : Fin C → ConsumerPc) : Prop where
  arrived : setup.parallelStart = true → arrived = arrivals producer consumer
  producer : ∀ p, producer p = .waiting → setup.parallelStart = true
  consumer : ∀ c, consumer c = .waiting → setup.parallelStart = true

/-- A producer goes on, not at the barrier. -/
theorem BarrierInv.updateProducer {arrived : ℕ} (h : BarrierInv setup arrived producer consumer)
    {p : Option (Fin P)} {pc : ProducerPc} (hpc : pc ≠ .waiting)
    (heq : setup.parallelStart = true → p ≠ none → pc.arrivals = (producer p).arrivals) :
    BarrierInv setup arrived (Function.update producer p pc) consumer where
  arrived := by
    intro hparallel
    rw [h.arrived hparallel]
    cases p with
    | none => rw [arrivals_update_none]
    | some p =>
      have hupdate := arrivals_update_some producer consumer p pc
      have := heq hparallel (by simp)
      omega
  producer := by
    intro q hq
    rw [Function.update_apply] at hq
    split at hq
    · exact absurd hq hpc
    · exact h.producer q hq
  consumer := h.consumer

/-- A consumer goes on, not at the barrier. -/
theorem BarrierInv.updateConsumer {arrived : ℕ} (h : BarrierInv setup arrived producer consumer)
    {c : Fin C} {pc : ConsumerPc} (hpc : pc ≠ .waiting)
    (heq : setup.parallelStart = true → pc.arrivals = (consumer c).arrivals) :
    BarrierInv setup arrived producer (Function.update consumer c pc) where
  arrived := by
    intro hparallel
    rw [h.arrived hparallel]
    have hupdate := arrivals_update_consumer producer consumer c pc
    have := heq hparallel
    omega
  producer := h.producer
  consumer := by
    intro d hd
    rw [Function.update_apply] at hd
    split at hd
    · exact absurd hd hpc
    · exact h.consumer d hd

theorem step_barrierInv (hmain : MainInv st.main st.producer st.consumer)
    (h : BarrierInv setup st.arrived st.producer st.consumer) (hs : Step setup st e st') :
    BarrierInv setup st'.arrived st'.producer st'.consumer := by
  cases hs with
  | main => exact h
  | createConsumer hpc hi =>
    refine h.updateConsumer nofun ?_
    intro _
    rw [hmain.consumer_new hpc hi]
    rfl
  | createProducer hpc hi =>
    refine h.updateProducer nofun ?_
    intro _ _
    rw [hmain.producer_new hpc hi]
    rfl
  | createTerminator hpc => exact h.updateProducer nofun (fun _ hp => absurd rfl hp)
  | @arriveProducer p hpc hparallel =>
    -- one more has come, and the barrier counts it
    refine ⟨fun _ => ?_, fun _ _ => hparallel, h.consumer⟩
    have hupdate := arrivals_update_some st.producer st.consumer p .waiting
    have harrived := h.arrived hparallel
    simp only [hpc, ProducerPc.arrivals] at hupdate ⊢
    omega
  | skipBarrier hpc hskip =>
    refine h.updateProducer nofun ?_
    intro hparallel hp
    rcases hskip with hskip | hskip
    · exact absurd hparallel (by simp [hskip])
    · exact absurd hskip hp
  | leaveBarrier hpc | endProducer hpc | put hpc =>
    refine h.updateProducer nofun ?_
    intro _ _
    rw [hpc]
    rfl
  | @arriveConsumer c hpc hparallel =>
    refine ⟨fun _ => ?_, h.producer, fun _ _ => hparallel⟩
    have hupdate := arrivals_update_consumer st.producer st.consumer c .waiting
    have harrived := h.arrived hparallel
    simp only [hpc, ConsumerPc.arrivals] at hupdate ⊢
    omega
  | skipBarrierConsumer hpc hskip =>
    refine h.updateConsumer nofun ?_
    intro hparallel
    exact absurd hparallel (by simp [hskip])
  | leaveBarrierConsumer hpc | print hpc =>
    refine h.updateConsumer nofun ?_
    intro _
    rw [hpc]
    rfl
  | take hpc =>
    refine h.updateConsumer ?_ ?_
    · split <;> exact nofun
    · intro _
      rw [hpc]
      split <;> rfl

theorem initial_barrierInv (C : ℕ) (setup : Setup P) :
    BarrierInv setup (initial C setup).arrived (initial C setup).producer
      (initial C setup).consumer where
  arrived := fun _ => by simp [initial, arrivals, Threads.total, ProducerPc.arrivals,
    ConsumerPc.arrivals]
  producer := nofun
  consumer := nofun

/-- Where every thread has come to the barrier, it is open. -/
theorem BarrierInv.open {arrived : ℕ} (h : BarrierInv setup arrived producer consumer)
    (hparallel : setup.parallelStart = true) (hp : ∀ p, (producer (some p)).arrivals = 1)
    (hc : ∀ c, (consumer c).arrivals = 1) : C + P ≤ arrived := by
  rw [h.arrived hparallel, arrivals, Threads.total_const hp, Threads.total_const hc,
    Fintype.card_fin, Fintype.card_fin]
  omega

/-! ## The whole run -/

/-- The invariant of a run. -/
structure Inv (setup : Setup P) (tr : List (Event P C)) (st : State P C) : Prop where
  main : MainInv st.main st.producer st.consumer
  queue : QueueInv setup tr st.storage
  put : PutInv setup tr st.producer
  take : TakeInv tr st.consumer
  barrier : BarrierInv setup st.arrived st.producer st.consumer

/-- The storage has space for an item and fits into the buffer, and no item tells the consumers to
    quit. -/
structure Valid (setup : Setup P) : Prop where
  capacity_pos : 1 ≤ setup.capacity
  capacity_le : setup.capacity ≤ MAX_STORAGE_CAPACITY
  data : ∀ p, QUIT_ITEM ∉ setup.data p

theorem run_inv (hC : 0 < C) (hsetup : Valid setup)
    (h : (machine C setup).Run (initial C setup) tr st) : Inv setup tr st := by
  refine h.trace_invariant (I := Inv setup) ?_ ⟨initial_mainInv C setup,
    initial_queueInv hsetup.capacity_pos hsetup.capacity_le, initial_putInv C setup,
    initial_takeInv C setup, initial_barrierInv C setup⟩
  intro tr st a e st' hinv hs
  have hstep := step_cases hC hs
  exact ⟨step_mainInv hinv.main hstep, step_queueInv hinv.queue hstep,
    step_putInv hsetup.data hinv.main hinv.put hstep, step_takeInv hinv.main hinv.take hstep,
    step_barrierInv hinv.main hinv.barrier hstep⟩

end ProducerConsumer
