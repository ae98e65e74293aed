import OsSamples.Spec.ProducerConsumerInvariant

/-!
# The producers and consumers: what they put, take and print

## Key results

- `finished_of_stuck`: no deadlock
- `producerConsumer_correct`: the queue, the quit items, and what is printed
-/

namespace ProducerConsumer

variable {P C : ℕ} {setup : Setup P} {st : State P C} {tr : List (Event P C)}
  {producer : Option (Fin P) → ProducerPc} {consumer : Fin C → ConsumerPc}

/-! ## Threads that cannot step -/

theorem mainStep_none (h : mainStep st = none) :
    (∃ (i : ℕ) (hi : i < P), st.main = .joinProducer i ∧ st.producer (some ⟨i, hi⟩) ≠ .done) ∨
    (st.main = .joinTerminator ∧ st.producer none ≠ .done) ∨
    (∃ (i : ℕ) (hi : i < C), st.main = .joinConsumer i ∧ st.consumer ⟨i, hi⟩ ≠ .done) ∨
    st.main = .done := by
  unfold mainStep at h
  split at h
  -- `main` can always create the next thread
  case h_1 => split at h <;> exact nomatch h
  case h_2 => split at h <;> exact nomatch h
  -- it waits for a producer that has not ended
  case h_3 i hpc =>
    split at h
    · rename_i hi
      rw [ite_eq_right_iff] at h
      exact .inl ⟨i, hi, hpc, fun hdone => nomatch h hdone⟩
    · exact nomatch h
  case h_4 => exact nomatch h
  case h_5 hpc =>
    rw [ite_eq_right_iff] at h
    exact .inr (.inl ⟨hpc, fun hdone => nomatch h hdone⟩)
  case h_6 i hpc =>
    split at h
    · rename_i hi
      rw [ite_eq_right_iff] at h
      exact .inr (.inr (.inl ⟨i, hi, hpc, fun hdone => nomatch h hdone⟩))
    · exact nomatch h
  case h_7 hpc => exact .inr (.inr (.inr hpc))

theorem producerStep_none (hC : 0 < C) {xs : List Char} (hholds : st.storage.Holds xs)
    {p : Option (Fin P)} (h : producerStep setup p st = none) :
    st.producer p = .new ∨ st.producer p = .done ∨
    (st.producer p = .waiting ∧ st.arrived < C + P) ∨
    (∃ i, st.producer p = .loop i ∧ i < (script setup C p).length ∧
      st.storage.count = st.storage.capacity) := by
  unfold producerStep at h
  dsimp only at h
  split at h
  case h_1 hpc => exact .inl hpc
  case h_2 hpc => exact .inr (.inl hpc)
  case h_3 => split at h <;> exact nomatch h
  case h_4 hpc =>
    rw [ite_eq_right_iff] at h
    exact .inr (.inr (.inl ⟨hpc, not_le.mp fun hle => nomatch h hle⟩))
  case h_5 i hpc =>
    rw [nextItem_eq hC] at h
    split at h
    · exact nomatch h
    · -- with a free place the item could be put
      rename_i item hitem
      refine .inr (.inr (.inr ⟨i, hpc, (List.getElem?_eq_some_iff.mp hitem).1, ?_⟩))
      by_contra hspace
      obtain ⟨storage, hput, -, -⟩ :=
        RingBuffer.put_holds hholds (lt_of_le_of_ne hholds.count_le hspace) item
      rw [if_neg hspace, hput] at h
      exact nomatch h

theorem consumerStep_none {xs : List Char} (hholds : st.storage.Holds xs) {c : Fin C}
    (h : consumerStep setup c st = none) :
    st.consumer c = .new ∨ st.consumer c = .done ∨
    (st.consumer c = .waiting ∧ st.arrived < C + P) ∨
    (st.consumer c = .take ∧ st.storage.count = 0) := by
  unfold consumerStep at h
  dsimp only at h
  split at h
  case h_1 hpc => exact .inl hpc
  case h_2 hpc => exact .inr (.inl hpc)
  case h_3 => split at h <;> exact nomatch h
  case h_4 hpc =>
    rw [ite_eq_right_iff] at h
    exact .inr (.inr (.inl ⟨hpc, not_le.mp fun hle => nomatch h hle⟩))
  case h_5 hpc =>
    -- from a storage that is not empty an item could be taken
    refine .inr (.inr (.inr ⟨hpc, ?_⟩))
    by_contra hcount
    cases xs with
    | nil => exact hcount hholds.count_eq
    | cons x xs =>
      obtain ⟨storage, htake, -, -⟩ := RingBuffer.take_holds hholds
      rw [if_neg hcount, htake] at h
      exact nomatch h
  case h_6 => exact nomatch h

/-- Every thread has finished. -/
def Finished (st : State P C) : Prop :=
  st.main = .done ∧ (∀ p, st.producer p = .done) ∧ ∀ c, st.consumer c = .done

/-- The producer that tells the consumers to quit puts nothing else. -/
theorem given_quits (pc : ProducerPc) :
    given (script setup C none) pc =
      List.replicate (given (script setup C none) pc).length QUIT_ITEM := by
  rw [List.eq_replicate_iff]
  refine ⟨rfl, fun x hx => ?_⟩
  cases pc with
  | loop i => exact List.eq_of_mem_replicate (List.mem_of_mem_take hx)
  | done => exact List.eq_of_mem_replicate hx
  | new | start | waiting => exact absurd hx List.not_mem_nil

/-- The quit items that were put. -/
theorem PutInv.count_quit (h : PutInv setup tr producer) :
    (puts tr).count QUIT_ITEM = (given (script setup C none) (producer none)).length := by
  obtain ⟨ordinary, hordinary, -, hputs⟩ := h
  rw [hputs, List.count_append, List.count_eq_zero_of_not_mem hordinary, zero_add, given_quits,
    List.count_replicate_self, List.length_replicate]

/-- The quit items that were taken. -/
theorem TakeInv.count_quit (h : TakeInv tr consumer) :
    (takes tr).count QUIT_ITEM = (Finset.univ.filter fun c => consumer c = .done).card := by
  have hcount := congrArg (Multiset.count QUIT_ITEM) h.taken
  rw [Multiset.count_add, Multiset.coe_count, Multiset.coe_count,
    List.count_eq_zero_of_not_mem h.noQuit, zero_add, Multiset.count_sum'] at hcount
  rw [hcount, Finset.card_filter]
  apply Finset.sum_congr rfl
  intro c _
  cases hpc : consumer c <;> simp [unprinted]
  case print item =>
    rintro rfl
    exact h.printing c hpc

/-! ## No deadlock -/

section Stuck

variable (hC : 0 < C) (hinv : Inv setup tr st) (hstuck : ∀ a, (machine C setup).step st a = none)
include hstuck

theorem mainStep_stuck : mainStep st = none :=
  Option.map_eq_none_iff.mp (hstuck .main)

include hinv

/-- `main` has created all consumers and producers. -/
theorem created_of_stuck :
    (∀ c, st.consumer c ≠ .new) ∧ ∀ p, st.producer (some p) ≠ .new := by
  have hcreated : st.main.createdConsumers C = C ∧ st.main.createdProducers P = P := by
    -- `main` waits for a thread or has ended, and has created every thread before it waits
    rcases mainStep_none (mainStep_stuck hstuck) with
      ⟨i, hi, hm, -⟩ | ⟨hm, -⟩ | ⟨i, hi, hm, -⟩ | hm <;>
      rw [hm] <;> exact ⟨rfl, rfl⟩
  constructor
  · intro c
    rw [hinv.main.consumers c, hcreated.1]
    exact c.isLt
  · intro p
    rw [hinv.main.producers p, hcreated.2]
    exact p.isLt

include hC

/-- The barrier is open for every thread that waits in it. -/
theorem open_of_stuck (hparallel : setup.parallelStart = true) : C + P ≤ st.arrived := by
  obtain ⟨xs, hholds, -, -⟩ := hinv.queue
  obtain ⟨hconsumers, hproducers⟩ := created_of_stuck hinv hstuck
  apply hinv.barrier.open hparallel
  · intro p
    rcases producerStep_none hC hholds (hstuck (.producer (some p))) with
      hpc | hpc | ⟨hpc, -⟩ | ⟨i, hpc, -⟩
    · exact absurd hpc (hproducers p)
    all_goals rw [hpc]; rfl
  · intro c
    rcases consumerStep_none hholds (hstuck (.consumer c)) with hpc | hpc | ⟨hpc, -⟩ | ⟨hpc, -⟩
    · exact absurd hpc (hconsumers c)
    all_goals rw [hpc]; rfl

/-- A consumer is done, or it waits for an item. -/
theorem consumer_of_stuck (c : Fin C) : st.consumer c = .done ∨ st.storage.count = 0 := by
  obtain ⟨xs, hholds, -, -⟩ := hinv.queue
  rcases consumerStep_none hholds (hstuck (.consumer c)) with
    hpc | hpc | ⟨hpc, hlt⟩ | ⟨-, hcount⟩
  · exact absurd hpc ((created_of_stuck hinv hstuck).1 c)
  · exact .inl hpc
  · have hopen := open_of_stuck hC hinv hstuck (hinv.barrier.consumer c hpc)
    omega
  · exact .inr hcount

/-- A producer is done, or it waits for a space, or `main` has not created it. -/
theorem producer_of_stuck (p : Option (Fin P)) :
    st.producer p = .done ∨ (p = none ∧ st.producer p = .new) ∨
    (∃ i, st.producer p = .loop i ∧ i < (script setup C p).length ∧
      st.storage.count = st.storage.capacity) := by
  obtain ⟨xs, hholds, -, -⟩ := hinv.queue
  rcases producerStep_none hC hholds (hstuck (.producer p)) with hpc | hpc | ⟨hpc, hlt⟩ | hpc
  · cases p with
    | none => exact .inr (.inl ⟨rfl, hpc⟩)
    | some p => exact absurd hpc ((created_of_stuck hinv hstuck).2 p)
  · exact .inl hpc
  · have hopen := open_of_stuck hC hinv hstuck (hinv.barrier.producer p hpc)
    omega
  · exact .inr (.inr hpc)

/-- Each consumer is done: otherwise the storage is empty, so that all producers are done, and the
    quit items that they put were taken. -/
theorem consumers_of_stuck (hsetup : Valid setup) (c : Fin C) : st.consumer c = .done := by
  by_contra hne
  have hcount : st.storage.count = 0 :=
    (consumer_of_stuck hC hinv hstuck c).resolve_left hne
  obtain ⟨xs, hholds, hcapacity, hputs⟩ := hinv.queue
  have hxs : xs = [] := List.length_eq_zero_iff.mp (hholds.count_eq ▸ hcount)
  have hpos := hsetup.capacity_pos
  have hproducer : ∀ p, st.producer p = .done ∨ (p = none ∧ st.producer p = .new) := by
    intro p
    rcases producer_of_stuck hC hinv hstuck p with hpc | hpc | ⟨i, -, -, hfull⟩
    · exact .inl hpc
    · exact .inr hpc
    · -- an empty storage is not full
      omega
  have hterminator : st.producer none = .done := by
    rcases hproducer none with hpc | ⟨-, hpc⟩
    · exact hpc
    · -- `main`, which has joined all the others, would go on to create it
      exfalso
      rcases mainStep_none (mainStep_stuck hstuck) with
        ⟨i, hi, -, hnot⟩ | ⟨hm, -⟩ | ⟨i, hi, hm, -⟩ | hm
      · exact hnot ((hproducer _).resolve_right nofun)
      all_goals exact hinv.main.terminator.mpr (by rw [hm]; rfl) hpc
  -- `C` quit items were put and taken, one by each consumer that is done
  have hquits := hinv.put.count_quit
  rw [hputs, hxs, List.append_nil, hinv.take.count_quit, hterminator, given, script,
    List.length_replicate] at hquits
  have hall := Finset.card_filter_eq_iff.mp (hquits.trans (Finset.card_fin C).symm)
  exact hne (hall c (Finset.mem_univ c))

/-- A state in which no thread can step is one in which all threads have finished. -/
theorem finished_of_stuck (hsetup : Valid setup) : Finished st := by
  have hconsumer := consumers_of_stuck hC hinv hstuck hsetup
  have hquits := hinv.put.count_quit
  obtain ⟨xs, hholds, hcapacity, hputs⟩ := hinv.queue
  -- each consumer has taken a quit item, so the terminator has put as many
  have htaken : (takes tr).count QUIT_ITEM = C := by
    rw [hinv.take.count_quit, Finset.filter_true_of_mem fun c _ => hconsumer c, Finset.card_fin]
  rw [hputs, List.count_append, htaken] at hquits
  have hterminator : st.producer none = .done := by
    rcases producer_of_stuck hC hinv hstuck none with hpc | ⟨-, hpc⟩ | ⟨i, hpc, hi, -⟩
    · exact hpc
    · rw [hpc, given, List.length_nil] at hquits
      omega
    · rw [hpc, given, List.length_take] at hquits
      rw [script, List.length_replicate] at hi
      omega
  have hproducer : ∀ p, st.producer p = .done := by
    intro p
    cases p with
    | none => exact hterminator
    | some p => exact hinv.main.producer_done (by rw [hterminator]; simp) p
  refine ⟨?_, hproducer, hconsumer⟩
  rcases mainStep_none (mainStep_stuck hstuck) with
    ⟨i, hi, -, hnot⟩ | ⟨-, hnot⟩ | ⟨i, hi, -, hnot⟩ | hm
  · exact absurd (hproducer _) hnot
  · exact absurd (hproducer _) hnot
  · exact absurd (hconsumer _) hnot
  · exact hm

end Stuck

/-! ## The main theorem -/

/-- Where a part of the queue has a quit item, it has all the other items, and nothing but quit
    items comes after it. -/
theorem split_of_quit {q : Char} {xs l l' : List Char} {n : ℕ} (hxs : q ∉ xs) (hq : q ∈ l)
    (h : l ++ l' = xs ++ List.replicate n q) :
    ∃ j k, l = xs ++ List.replicate j q ∧ l' = List.replicate k q ∧ j + k = n := by
  rcases List.append_eq_append_iff.mp h with ⟨ys, hys, -⟩ | ⟨ys, hys, hrest⟩
  · -- the part would end before the first quit item
    rw [hys] at hxs
    exact absurd (List.mem_append_left ys hq) hxs
  · obtain ⟨hlen, hleft, hright⟩ := List.append_eq_replicate_iff.mp hrest.symm
    exact ⟨ys.length, l'.length, by rw [hys, ← hleft], hright, hlen⟩

/-- Once a quit item was taken, the queue has all items of all producers and then the quit items. -/
theorem Inv.puts_of_quit (hinv : Inv setup tr st) (hquit : QUIT_ITEM ∈ takes tr) :
    ∃ (ordinary : List Char) (n : ℕ), QUIT_ITEM ∉ ordinary ∧
      (ordinary : Multiset Char) = ∑ p, (setup.data p : Multiset Char) ∧
      puts tr = ordinary ++ List.replicate n QUIT_ITEM := by
  have hcount := hinv.put.count_quit
  obtain ⟨xs, -, -, hqueue⟩ := hinv.queue
  obtain ⟨ordinary, hordinary, hproduced, hputs⟩ := hinv.put
  have hpos : 0 < (puts tr).count QUIT_ITEM := by
    rw [hqueue, List.count_append]
    exact Nat.add_pos_left (List.count_pos_iff.mpr hquit) _
  have hnew : st.producer none ≠ .new := by
    intro hnew
    rw [hcount, hnew, given, List.length_nil] at hpos
    exact absurd hpos (Nat.lt_irrefl 0)
  refine ⟨ordinary, (puts tr).count QUIT_ITEM, hordinary, ?_, ?_⟩
  · rw [hproduced, produced]
    apply Finset.sum_congr rfl
    intro p _
    rw [hinv.main.producer_done hnew p, given]
  · rw [hcount, ← given_quits, hputs]

/-- A consumer that takes a quit item takes it after all the other items. -/
theorem Inv.ordinary_taken (hinv : Inv setup tr st) {tr₁ tr₂ : List (Event P C)} {c : Fin C}
    (htr : tr = tr₁ ++ .take c QUIT_ITEM :: tr₂) :
    ((takes tr₁).filter (· ≠ QUIT_ITEM) : Multiset Char) =
      ∑ p, (setup.data p : Multiset Char) := by
  have htakes : takes tr = (takes tr₁ ++ [QUIT_ITEM]) ++ takes tr₂ := by
    rw [htr, takes_append, List.append_assoc]
    rfl
  have hquit : QUIT_ITEM ∈ takes tr₁ ++ [QUIT_ITEM] := by simp
  obtain ⟨ordinary, n, hordinary, hproduced, hputs⟩ :=
    hinv.puts_of_quit (htakes ▸ List.mem_append_left _ hquit)
  obtain ⟨xs, -, -, hqueue⟩ := hinv.queue
  rw [hqueue, htakes, List.append_assoc] at hputs
  obtain ⟨j, k, hleft, -, -⟩ := split_of_quit hordinary hquit hputs
  -- up to the quit item the queue is all of `ordinary` and quit items
  have hfilter := congrArg (List.filter (· ≠ QUIT_ITEM)) hleft
  have hsame : ordinary.filter (· ≠ QUIT_ITEM) = ordinary := by
    rw [List.filter_eq_self]
    intro x hx
    exact decide_eq_true fun hxq => hordinary (hxq ▸ hx)
  rw [List.filter_append, List.filter_append, hsame] at hfilter
  simp only [ne_eq, not_true_eq_false, decide_false, Bool.false_eq_true, not_false_eq_true,
    List.filter_cons_of_neg, List.filter_nil, List.append_nil, List.filter_replicate_of_neg]
    at hfilter
  rw [← hproduced, ← hfilter]

/-- When all threads have finished, all items were printed and the storage is empty. -/
theorem Inv.printed_of_finished (hC : 0 < C) (hinv : Inv setup tr st) (hfinished : Finished st) :
    (prints tr : Multiset Char) = ∑ p, (setup.data p : Multiset Char) ∧
      st.storage.count = 0 := by
  obtain ⟨-, hproducer, hconsumer⟩ := hfinished
  have hcount : (takes tr).count QUIT_ITEM = C := by
    rw [hinv.take.count_quit, Finset.filter_true_of_mem fun c _ => hconsumer c, Finset.card_fin]
  have hquit : QUIT_ITEM ∈ takes tr := List.count_pos_iff.mp (by omega)
  have hquits := hinv.put.count_quit
  rw [hproducer none, given, script, List.length_replicate] at hquits
  obtain ⟨ordinary, n, hordinary, hproduced, hputs⟩ := hinv.puts_of_quit hquit
  obtain ⟨xs, hholds, -, hqueue⟩ := hinv.queue
  -- of the quit items `j` were taken and `k` are in the storage
  obtain ⟨j, k, hleft, hright, -⟩ := split_of_quit hordinary hquit (hqueue ▸ hputs)
  have hj : j = C := by
    rw [hleft, List.count_append, List.count_eq_zero_of_not_mem hordinary, zero_add,
      List.count_replicate_self] at hcount
    exact hcount
  have hk : k = 0 := by
    rw [hqueue, List.count_append, hcount, hright, List.count_replicate_self] at hquits
    omega
  constructor
  · have htaken := hinv.take.taken
    have hunprinted : ∑ c, unprinted (st.consumer c) =
        (List.replicate C QUIT_ITEM : Multiset Char) := by
      simp only [hconsumer, unprinted, Finset.sum_const, Finset.card_fin,
        Multiset.nsmul_singleton, Multiset.coe_replicate]
    rw [hleft, hj, ← Multiset.coe_add, hunprinted] at htaken
    rw [← hproduced, add_right_cancel htaken]
  · rw [hholds.count_eq, hright, hk, List.replicate_zero, List.length_nil]

/-- Every run of the program, with at least one consumer: the indices are in the buffer and agree
    with the counter; the items are taken in the order in which they were put; a consumer has taken
    one quit item if it is done and none otherwise, and only after all the other items were taken;
    when all threads have finished, the items that were printed are those of the producers and the
    storage is empty; and where no thread can step, all have finished. -/
theorem producerConsumer_correct (hC : 1 ≤ C) (hsetup : Valid setup)
    (hrun : (machine C setup).Run (initial C setup) tr st) :
    (st.storage.capacity = setup.capacity ∧ st.storage.inIdx < setup.capacity ∧
      st.storage.outIdx < setup.capacity ∧
      st.storage.inIdx = (st.storage.outIdx + st.storage.count) % setup.capacity) ∧
    (∃ queue, st.storage.Holds queue ∧ puts tr = takes tr ++ queue) ∧
    (∀ c, (takesBy c tr).count QUIT_ITEM = if st.consumer c = .done then 1 else 0) ∧
    (∀ tr₁ tr₂ c, tr = tr₁ ++ .take c QUIT_ITEM :: tr₂ →
      ((takes tr₁).filter (· ≠ QUIT_ITEM) : Multiset Char) =
        ∑ p, (setup.data p : Multiset Char)) ∧
    (Finished st →
      (prints tr : Multiset Char) = ∑ p, (setup.data p : Multiset Char) ∧
      st.storage.count = 0) ∧
    ((∀ a, (machine C setup).step st a = none) → Finished st) := by
  have hinv := run_inv hC hsetup hrun
  obtain ⟨xs, hholds, hcapacity, hqueue⟩ := hinv.queue
  refine ⟨⟨hcapacity, ?_, ?_, ?_⟩, ⟨xs, hholds, hqueue⟩, hinv.take.quits, ?_, ?_, ?_⟩
  -- the storage is a ring buffer for a queue
  · rw [← hcapacity]
    exact hholds.in_lt
  · rw [← hcapacity]
    exact hholds.out_lt
  · rw [← hcapacity]
    exact hholds.in_eq
  -- a quit item is taken only after all the others
  · intro tr₁ tr₂ c htr
    exact hinv.ordinary_taken htr
  · exact hinv.printed_of_finished hC
  -- a state without a step has no thread left
  · intro hstuck
    exact finished_of_stuck hC hinv hstuck hsetup

/-- Two producers, of two items and of one, and a storage with two places. -/
def threeItems : Setup 2 where
  capacity := 2
  data := fun p => if p = 0 then ['a', 'b'] else ['c']
  parallelStart := true

/-- Two producers and two consumers, from the first step to the last: the storage gets full, both
    consumers print, and each of them takes a quit item. -/
theorem producerConsumer_correct_threeItems :
    ∃ tr st, (machine 2 threeItems).Run (initial 2 threeItems) tr st ∧ Finished st ∧
      (∀ c, (takesBy c tr).count QUIT_ITEM = 1) ∧
      (prints tr : Multiset Char) = ['a', 'b', 'c'] ∧ st.storage.count = 0 := by
  have hsetup : Valid threeItems := ⟨by decide, by decide, by decide⟩
  obtain ⟨tr, st, hrun, hfinished⟩ : ∃ tr st,
      (machine 2 threeItems).Run (initial 2 threeItems) tr st ∧ Finished st :=
    ⟨_, _, .of_exec [.main, .consumer 0, .main, .consumer 1, .main, .main, .producer (some 0),
      .main, .producer (some 1), .consumer 0, .consumer 1, .main, .producer (some 0),
      .producer (some 1),
      -- `a` and `c` fill the storage
      .producer (some 0), .producer (some 1), .consumer 0, .consumer 1, .producer (some 0),
      .consumer 1, .consumer 1, .consumer 1, .consumer 0, .producer (some 0), .producer (some 1),
      .main, .main, .main, .main, .producer none, .producer none, .producer none, .producer none,
      .consumer 1, .consumer 0, .main, .main, .main, .main] rfl, rfl, by decide, by decide⟩
  obtain ⟨-, -, hquits, -, hprinted, -⟩ := producerConsumer_correct (by decide) hsetup hrun
  rw [Fin.sum_univ_two] at hprinted
  refine ⟨tr, st, hrun, hfinished, fun c => ?_, hprinted hfinished⟩
  rw [hquits c, if_pos (hfinished.2.2 c)]

end ProducerConsumer
