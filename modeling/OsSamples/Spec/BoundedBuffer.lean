import Mathlib.Data.List.Induction
import OsSamples.Native.BoundedBuffer

/-!
# What a consumer gets that does not wait

A place of the buffer holds the last item that has been stored there.  The consumer goes through the
places in turn, and gets from each what is there: how many items have been stored before each of its
reads is up to the scheduler, and nothing else is.

## Key results

- `Inv.step`: the buffer, the indices and what has been consumed so far
- `consumed_iff`: what the consumer may get
- `inevitable_both_ended`: both threads end, and no access is outside of the buffer
-/

namespace BoundedBuffer

variable {BSIZE p k : ℕ} {items out : List Char} {s s' : State} {a : Act} {e : Option Event}
  {tr : List Event}

/-! ## The places of the buffer -/

/-- The last one of the first `p` items that has been stored in the place with the number `k`,
    modulo the size of the buffer. -/
def slot (BSIZE : ℕ) (items : List Char) (p k : ℕ) : Char :=
  ((((List.range p).filter fun j => j % BSIZE = k % BSIZE).getLast?).bind (items[·]?)).getD EMPTY

theorem slot_zero (k : ℕ) : slot BSIZE items 0 k = EMPTY := rfl

theorem slot_mod (p k : ℕ) : slot BSIZE items p (k % BSIZE) = slot BSIZE items p k := by
  simp only [slot, Nat.mod_mod]

/-- One more item is stored. -/
theorem slot_succ {c : Char} (hc : items[p]? = some c) (k : ℕ) :
    slot BSIZE items (p + 1) k = if p % BSIZE = k % BSIZE then c else slot BSIZE items p k := by
  simp only [slot, List.range_succ, List.filter_append]
  by_cases hplace : p % BSIZE = k % BSIZE
  · simp [hplace, hc]
  · simp [hplace]

/-- The buffer after `p` items have been stored in it. -/
def Stored (BSIZE : ℕ) (items : List Char) (p : ℕ) (buf : List Char) : Prop :=
  buf.length = BSIZE ∧ ∀ q < BSIZE, buf[q]? = some (slot BSIZE items p q)

theorem stored_zero (BSIZE : ℕ) (items : List Char) :
    Stored BSIZE items 0 (List.replicate BSIZE EMPTY) := by
  refine ⟨List.length_replicate, fun q hq => ?_⟩
  rw [List.getElem?_replicate, if_pos hq, slot_zero]

theorem Stored.set {buf : List Char} {c : Char} (h : Stored BSIZE items p buf)
    (hc : items[p]? = some c) : Stored BSIZE items (p + 1) (buf.set (p % BSIZE) c) := by
  refine ⟨by rw [List.length_set, h.1], fun q hq => ?_⟩
  rw [List.getElem?_set, slot_succ hc, Nat.mod_eq_of_lt hq]
  by_cases hplace : p % BSIZE = q
  · rw [if_pos hplace, if_pos hplace, if_pos (by rw [h.1]; omega)]
  · rw [if_neg hplace, if_neg hplace, h.2 q hq]

/-! ## What a run has done so far -/

/-- How many items have been stored, of `N`. -/
def ProducerPc.stored (N : ℕ) : ProducerPc → ℕ
  | .start => 0
  | .loop i | .test i _ | .printWait i _ | .store i _ => i
  | .load i | .inc i _ => i + 1
  | .exiting | .ended => N

/-- The producer has its next item. -/
def ProducerPc.Ok (items : List Char) : ProducerPc → Prop
  | .loop i => i ≤ items.length
  | .test i item | .printWait i item | .store i item => items[i]? = some item
  | .load i | .inc i _ => i < items.length
  | .start | .exiting | .ended => True

/-- How many items have been taken, of `N`. -/
def ConsumerPc.taken (N : ℕ) : ConsumerPc → ℕ
  | .start => 0
  | .loop i | .test i | .printWait i | .take i => i
  | .print i _ | .load i | .dec i _ => i + 1
  | .exiting | .ended => N

/-- The consumer does not take more than `N` items. -/
def ConsumerPc.Ok (N : ℕ) : ConsumerPc → Prop
  | .loop i => i ≤ N
  | .test i | .printWait i | .take i | .print i _ | .load i | .dec i _ => i < N
  | .start | .exiting | .ended => True

/-- The item that has been taken and not printed yet. -/
def ConsumerPc.pending : ConsumerPc → List Char
  | .print _ item => [item]
  | .start | .loop _ | .test _ | .printWait _ | .take _ | .load _ | .dec .. | .exiting
  | .ended => []

/-- The items in the lines of the consumer. -/
def consumed (tr : List Event) : List Char :=
  tr.filterMap fun
    | .consumed item => some item
    | .print _ => none

/-- What has been taken by reads of which the `k`-th comes after `ps[k]` items have been stored. -/
def read (BSIZE : ℕ) (items : List Char) (ps : List ℕ) : List Char :=
  ps.mapIdx fun k p => slot BSIZE items p k

/-- What holds in a run that has emitted `tr`. -/
structure Inv (BSIZE : ℕ) (items : List Char) (s : State) (tr : List Event) (ps : List ℕ) :
    Prop where
  producer : s.producer.Ok items
  consumer : s.consumer.Ok items.length
  buf : Stored BSIZE items (s.producer.stored items.length) s.buf
  nextin : s.nextin = s.producer.stored items.length % BSIZE
  nextout : s.nextout = s.consumer.taken items.length % BSIZE
  length : ps.length = s.consumer.taken items.length
  sorted : ps.Pairwise (· ≤ ·)
  le : ∀ p ∈ ps, p ≤ s.producer.stored items.length
  taken : consumed tr ++ s.consumer.pending = read BSIZE items ps

theorem initial_inv (BSIZE : ℕ) (items : List Char) :
    Inv BSIZE items (initial BSIZE) [] [] where
  producer := trivial
  consumer := trivial
  buf := stored_zero BSIZE items
  nextin := (Nat.zero_mod _).symm
  nextout := (Nat.zero_mod _).symm
  length := rfl
  sorted := .nil
  le := by simp
  taken := rfl

/-- A step of the producer other than a store. -/
theorem Inv.producerGoes {ps : List ℕ} {pc : ProducerPc} {occupied : ℤ} {lines : List Event}
    (h : Inv BSIZE items s tr ps) (hok : pc.Ok items)
    (hstored : pc.stored items.length = s.producer.stored items.length)
    (hlines : consumed lines = []) :
    Inv BSIZE items { s with occupied := occupied, producer := pc } (tr ++ lines) ps where
  producer := hok
  consumer := h.consumer
  buf := by rw [hstored]; exact h.buf
  nextin := by rw [hstored]; exact h.nextin
  nextout := h.nextout
  length := h.length
  sorted := h.sorted
  le := by rw [hstored]; exact h.le
  taken := by
    have htaken := h.taken
    simp only [consumed] at hlines htaken ⊢
    rwa [List.filterMap_append, hlines, List.append_nil]

/-- A step of the consumer other than a read of the buffer. -/
theorem Inv.consumerGoes {ps : List ℕ} {pc : ConsumerPc} {occupied : ℤ} {lines : List Event}
    (h : Inv BSIZE items s tr ps) (hok : pc.Ok items.length)
    (htaken : pc.taken items.length = s.consumer.taken items.length)
    (hlines : consumed lines ++ pc.pending = s.consumer.pending) :
    Inv BSIZE items { s with occupied := occupied, consumer := pc } (tr ++ lines) ps where
  producer := h.producer
  consumer := hok
  buf := h.buf
  nextin := h.nextin
  nextout := by rw [htaken]; exact h.nextout
  length := by rw [htaken]; exact h.length
  sorted := h.sorted
  le := h.le
  taken := by
    rw [← h.taken, ← hlines, ← List.append_assoc]
    simp only [consumed, List.filterMap_append]

/-- Every step of the producer keeps what holds. -/
theorem Inv.producerStep {ps : List ℕ} (hnul : '\x00' ∉ items)
    (h : Inv BSIZE items s tr ps) (hs : producerStep BSIZE items s = some (e, s')) :
    Inv BSIZE items s' (tr ++ e.toList) ps := by
  have hok := h.producer
  cases hpc : s.producer <;> simp only [hpc, ProducerPc.Ok] at hok <;>
    simp only [BoundedBuffer.producerStep, hpc, Option.some.injEq, Prod.mk.injEq,
      reduceCtorEq] at hs
  case store i item =>
    obtain ⟨-, heq⟩ := Option.ite_none_right_eq_some.mp hs
    obtain ⟨rfl, rfl⟩ := Prod.mk.inj (Option.some.inj heq)
    have hbuf := h.buf
    have hin := h.nextin
    have hle := h.le
    simp only [hpc, ProducerPc.stored] at hbuf hin hle
    rw [Option.toList_none, List.append_nil]
    exact
      { producer := (List.getElem?_eq_some_iff.mp hok).1
        consumer := h.consumer
        buf := by
          rw [hin]
          exact hbuf.set hok
        nextin := by simp only [hin, ProducerPc.stored, Nat.mod_add_mod]
        nextout := h.nextout
        length := h.length
        sorted := h.sorted
        le := fun p hp => (hle p hp).trans (Nat.le_succ i)
        taken := h.taken }
  all_goals obtain ⟨rfl, rfl⟩ := hs
  case loop i =>
    cases hitem : items[i]? with
    | none =>
      -- the end of the string
      have hend := List.getElem?_eq_none_iff.mp hitem
      exact h.producerGoes trivial (by simp only [hpc, ProducerPc.stored]; omega) rfl
    | some item =>
      have hne : item ≠ '\x00' := by
        rintro rfl
        exact hnul (List.mem_of_getElem? hitem)
      simp only [if_neg hne]
      exact h.producerGoes hitem (by rw [hpc]; rfl) rfl
  case test i item =>
    split <;> exact h.producerGoes hok (by rw [hpc]; rfl) rfl
  case start => exact h.producerGoes (Nat.zero_le _) (by rw [hpc]; rfl) rfl
  case printWait i item => exact h.producerGoes hok (by rw [hpc]; rfl) rfl
  case load i => exact h.producerGoes hok (by rw [hpc]; rfl) rfl
  case inc i reg => exact h.producerGoes hok (by rw [hpc]; rfl) rfl
  case exiting => exact h.producerGoes trivial (by rw [hpc]; rfl) rfl

/-- The read that a step of the consumer is: how many items have been stored before it. -/
def State.reads (N : ℕ) (s : State) : List ℕ :=
  match s.consumer with
  | .take _ => [s.producer.stored N]
  | .start | .loop _ | .test _ | .printWait _ | .print .. | .load _ | .dec .. | .exiting
  | .ended => []

/-- Every step of the consumer keeps what holds. -/
theorem Inv.consumerStep {ps : List ℕ} (hpos : 0 < BSIZE) (h : Inv BSIZE items s tr ps)
    (hs : consumerStep BSIZE items.length s = some (e, s')) :
    Inv BSIZE items s' (tr ++ e.toList) (ps ++ s.reads items.length) := by
  have hok := h.consumer
  cases hpc : s.consumer <;> simp only [hpc, ConsumerPc.Ok] at hok <;>
    simp only [BoundedBuffer.consumerStep, hpc, Option.some.injEq, Prod.mk.injEq,
      reduceCtorEq] at hs <;>
    simp only [State.reads, hpc, List.append_nil]
  -- the consumer takes what is in its place now, whatever the producer has stored there
  case take i =>
    obtain ⟨item, hitem, heq⟩ := Option.map_eq_some_iff.mp hs
    obtain ⟨rfl, rfl⟩ := Prod.mk.inj heq
    have hout := h.nextout
    have hlength := h.length
    have htaken := h.taken
    simp only [hpc, ConsumerPc.taken, ConsumerPc.pending, List.append_nil] at hout hlength htaken
    -- this is the last item stored there, or the initial filling
    rw [hout, h.buf.2 _ (Nat.mod_lt i hpos), slot_mod] at hitem
    obtain rfl := Option.some.inj hitem
    rw [Option.toList_none, List.append_nil]
    exact
      { producer := h.producer
        consumer := hok
        buf := h.buf
        nextin := h.nextin
        nextout := by simp only [hout, ConsumerPc.taken, Nat.mod_add_mod]
        length := by rw [List.length_append, hlength]; rfl
        -- the number of stored items does not become smaller
        sorted := List.pairwise_append.mpr ⟨h.sorted, List.pairwise_singleton _ _, fun p hp q hq =>
          List.mem_singleton.mp hq ▸ h.le p hp⟩
        le := fun p hp => by
          rcases List.mem_append.mp hp with hp | hp
          · exact h.le p hp
          · exact (List.mem_singleton.mp hp).le
        taken := by
          simp only [htaken, ConsumerPc.pending, read, List.mapIdx_concat, hlength] }
  -- all other steps of the consumer leave what it has taken
  all_goals obtain ⟨rfl, rfl⟩ := hs
  case loop i =>
    by_cases hi : i < items.length
    · simp only [if_pos hi]
      exact h.consumerGoes hi (by rw [hpc]; rfl) (by rw [hpc]; rfl)
    · simp only [if_neg hi]
      exact h.consumerGoes trivial (by simp only [hpc, ConsumerPc.taken]; omega) (by rw [hpc]; rfl)
  case test i =>
    split <;> exact h.consumerGoes hok (by rw [hpc]; rfl) (by rw [hpc]; rfl)
  case start => exact h.consumerGoes (Nat.zero_le _) (by rw [hpc]; rfl) (by rw [hpc]; rfl)
  case printWait i => exact h.consumerGoes hok (by rw [hpc]; rfl) (by rw [hpc]; rfl)
  case print i item => exact h.consumerGoes hok (by rw [hpc]; rfl) (by rw [hpc]; rfl)
  case load i => exact h.consumerGoes hok (by rw [hpc]; rfl) (by rw [hpc]; rfl)
  case dec i reg => exact h.consumerGoes hok (by rw [hpc]; rfl) (by rw [hpc]; rfl)
  case exiting => exact h.consumerGoes trivial (by rw [hpc]; rfl) (by rw [hpc]; rfl)

/-- What holds in every run. -/
theorem run_inv (hpos : 0 < BSIZE) (hnul : '\x00' ∉ items)
    (h : (machine BSIZE items).Run (initial BSIZE) tr s) : ∃ ps, Inv BSIZE items s tr ps := by
  induction h with
  | nil => exact ⟨[], initial_inv BSIZE items⟩
  | @snoc tr s₁ s₂ a e _ hs ih =>
    obtain ⟨ps, hinv⟩ := ih
    cases a with
    | producer => exact ⟨ps, hinv.producerStep hnul hs⟩
    | consumer => exact ⟨_, hinv.consumerStep hpos hs⟩

/-! ## Any reads can happen -/

/-- A run leads to the state, in which the reads `ps` have been done. -/
def Reached (BSIZE : ℕ) (items : List Char) (ps : List ℕ) (s : State) : Prop :=
  ∃ tr, (machine BSIZE items).Run (initial BSIZE) tr s ∧ Inv BSIZE items s tr ps

section Reached

variable {ps : List ℕ} {c : Char}

theorem Reached.producer (hnul : '\x00' ∉ items) (h : Reached BSIZE items ps s)
    (hs : producerStep BSIZE items s = some (e, s')) : Reached BSIZE items ps s' := by
  obtain ⟨tr, hrun, hinv⟩ := h
  have hstep : (machine BSIZE items).step s .producer = some (e, s') := hs
  exact ⟨_, hrun.snoc hstep, hinv.producerStep hnul hs⟩

theorem Reached.consumer (hpos : 0 < BSIZE) (h : Reached BSIZE items ps s)
    (hs : consumerStep BSIZE items.length s = some (e, s')) :
    Reached BSIZE items (ps ++ s.reads items.length) s' := by
  obtain ⟨tr, hrun, hinv⟩ := h
  have hstep : (machine BSIZE items).step s .consumer = some (e, s') := hs
  exact ⟨_, hrun.snoc hstep, hinv.consumerStep hpos hs⟩

/-- A step of the consumer that is no read. -/
theorem Reached.consumer_same (hpos : 0 < BSIZE) (h : Reached BSIZE items ps s)
    (hs : consumerStep BSIZE items.length s = some (e, s'))
    (hreads : s.reads items.length = []) : Reached BSIZE items ps s' := by
  have hnext := h.consumer hpos hs
  rwa [hreads, List.append_nil] at hnext

/-- The producer stores one item. -/
theorem Reached.produce (hpos : 0 < BSIZE) (hnul : '\x00' ∉ items) (h : Reached BSIZE items ps s)
    (hpc : s.producer = .loop p) (hp : p < items.length) :
    ∃ s', Reached BSIZE items ps s' ∧ s'.producer = .loop (p + 1) ∧
      s'.consumer = s.consumer := by
  have hitem := List.getElem?_eq_getElem hp
  have hne : items[p] ≠ '\x00' := fun heq => hnul (heq ▸ List.getElem_mem hp)
  -- the item is there, and it does not end the string
  have htest : Reached BSIZE items ps { s with producer := .test p items[p] } :=
    h.producer hnul (e := none) (by simp [producerStep, hpc, hitem, hne])
  have hstore : Reached BSIZE items ps { s with producer := .store p items[p] } := by
    -- a full buffer only prints a line, and the item is stored all the same
    by_cases hfull : (BSIZE : ℤ) ≤ s.occupied
    · have hwait : Reached BSIZE items ps { s with producer := .printWait p items[p] } :=
        htest.producer hnul (e := none) (by simp [producerStep, hfull])
      exact hwait.producer hnul rfl
    · exact htest.producer hnul (e := none) (by simp [producerStep, hfull])
  obtain ⟨tr, -, hinv⟩ := id hstore
  have hlt : s.nextin < s.buf.length := by
    rw [hinv.buf.1, hinv.nextin]
    exact Nat.mod_lt _ hpos
  have hload := hstore.producer hnul (if_pos hlt)
  exact ⟨_, (hload.producer hnul rfl).producer hnul rfl, rfl, rfl⟩

/-- The producer goes on until it has stored `q` items. -/
theorem Reached.produceTo {q : ℕ} (hpos : 0 < BSIZE) (hnul : '\x00' ∉ items)
    (h : Reached BSIZE items ps s) (hpc : s.producer = .loop p) (hpq : p ≤ q)
    (hq : q ≤ items.length) :
    ∃ s', Reached BSIZE items ps s' ∧ s'.producer = .loop q ∧ s'.consumer = s.consumer := by
  induction q, hpq using Nat.le_induction with
  | base => exact ⟨s, h, hpc, rfl⟩
  | succ q _ ih =>
    obtain ⟨s₁, h₁, hpc₁, hsame₁⟩ := ih (Nat.le_of_succ_le hq)
    obtain ⟨s₂, h₂, hpc₂, hsame₂⟩ := h₁.produce hpos hnul hpc₁ hq
    exact ⟨s₂, h₂, hpc₂, hsame₂.trans hsame₁⟩

/-- The consumer takes one item. -/
theorem Reached.consume (hpos : 0 < BSIZE) (h : Reached BSIZE items ps s)
    (hpc : s.consumer = .loop k) (hk : k < items.length) :
    ∃ s', Reached BSIZE items (ps ++ [s.producer.stored items.length]) s' ∧
      s'.consumer = .loop (k + 1) ∧ s'.producer = s.producer := by
  have htest : Reached BSIZE items ps { s with consumer := .test k } :=
    h.consumer_same hpos (e := none) (by simp [consumerStep, hpc, hk]) (by simp [State.reads, hpc])
  have htake : Reached BSIZE items ps { s with consumer := .take k } := by
    -- an empty buffer only prints a line, and an item is taken all the same
    by_cases hempty : s.occupied ≤ 0
    · have hwait : Reached BSIZE items ps { s with consumer := .printWait k } :=
        htest.consumer_same hpos (e := none) (by simp [consumerStep, hempty]) rfl
      exact hwait.consumer_same hpos rfl rfl
    · exact htest.consumer_same hpos (e := none) (by simp [consumerStep, hempty]) rfl
  obtain ⟨tr, -, hinv⟩ := id htake
  -- in its place is the last item that the producer has stored there
  have hitem : s.buf[s.nextout]? = some (slot BSIZE items (s.producer.stored items.length) k) := by
    have hout := hinv.nextout
    simp only [ConsumerPc.taken] at hout
    rw [hout, hinv.buf.2 _ (Nat.mod_lt k hpos), slot_mod]
  have hprint := htake.consumer hpos (congrArg (Option.map _) hitem)
  have hload := hprint.consumer_same hpos rfl rfl
  exact ⟨_, (hload.consumer_same hpos rfl rfl).consumer_same hpos rfl rfl, rfl, rfl⟩

/-- Reads in a possible order, with the producer as far as the last of them needs. -/
theorem exists_reached (hpos : 0 < BSIZE) (hnul : '\x00' ∉ items) (hsorted : ps.Pairwise (· ≤ ·))
    (hle : ∀ p ∈ ps, p ≤ items.length) (hlength : ps.length ≤ items.length) :
    ∃ s, Reached BSIZE items ps s ∧ s.consumer = .loop ps.length ∧
      s.producer = .loop (ps.getLast?.getD 0) := by
  -- the places are visited in order: induction on the last number
  induction ps using List.reverseRecOn with
  | nil =>
    have hstart : Reached BSIZE items [] (initial BSIZE) :=
      ⟨[], .nil, initial_inv BSIZE items⟩
    exact ⟨_, (hstart.producer hnul rfl).consumer_same hpos rfl rfl, rfl, rfl⟩
  | append_singleton ps p ih =>
    rw [List.length_append, List.length_singleton] at hlength
    obtain ⟨hsorted, -, hlast⟩ := List.pairwise_append.mp hsorted
    obtain ⟨s₁, h₁, hconsumer₁, hproducer₁⟩ := ih hsorted
      (fun q hq => hle q (List.mem_append_left _ hq)) (Nat.le_of_succ_le hlength)
    -- the producer has stored no more than the items that the next read is to see
    have hp : ps.getLast?.getD 0 ≤ p := by
      cases hps : ps.getLast? with
      | none => exact Nat.zero_le p
      | some q => exact hlast q (List.mem_of_getLast? hps) p (List.mem_singleton_self p)
    -- the producer stores up to `p`, then the consumer takes one item
    obtain ⟨s₂, h₂, hproducer₂, hsame₂⟩ := h₁.produceTo hpos hnul hproducer₁ hp
      (hle p (List.mem_append_right _ (List.mem_singleton_self p)))
    obtain ⟨s₃, h₃, hconsumer₃, hsame₃⟩ := h₂.consume hpos (hsame₂.trans hconsumer₁) hlength
    rw [hproducer₂] at h₃ hsame₃
    refine ⟨s₃, h₃, ?_, ?_⟩
    · rw [hconsumer₃, List.length_append, List.length_singleton]
    · rw [hsame₃, List.getLast?_concat]
      rfl

end Reached

/-! ## Main result -/

/-- Both threads have ended. -/
def Ended (s : State) : Prop := s.producer = .ended ∧ s.consumer = .ended

/-- What the consumer gets in the runs in which both threads end: for any numbers of items that have
    been stored before each read, which do not become smaller, the last items that have been stored
    in the places it reads.  No access is outside of the buffer. -/
theorem consumed_iff (hpos : 0 < BSIZE) (hnul : '\x00' ∉ items) :
    (∃ tr s, (machine BSIZE items).Run (initial BSIZE) tr s ∧ Ended s ∧ consumed tr = out) ↔
      ∃ ps : List ℕ, ps.length = items.length ∧ ps.Pairwise (· ≤ ·) ∧
        (∀ p ∈ ps, p ≤ items.length) ∧ out = read BSIZE items ps := by
  constructor
  · rintro ⟨tr, s, hrun, ⟨hproducer, hconsumer⟩, rfl⟩
    obtain ⟨ps, hinv⟩ := run_inv hpos hnul hrun
    have hlength := hinv.length
    have hle := hinv.le
    have htaken := hinv.taken
    simp only [hproducer, hconsumer, ProducerPc.stored, ConsumerPc.taken, ConsumerPc.pending,
      List.append_nil] at hlength hle htaken
    exact ⟨ps, hlength, hinv.sorted, hle, htaken⟩
  · rintro ⟨ps, hlength, hsorted, hle, rfl⟩
    obtain ⟨s₁, h₁, hconsumer₁, hproducer₁⟩ := exists_reached hpos hnul hsorted hle hlength.le
    have hlast : ps.getLast?.getD 0 ≤ items.length := by
      cases hps : ps.getLast? with
      | none => exact Nat.zero_le _
      | some q => exact hle q (List.mem_of_getLast? hps)
    obtain ⟨s₂, h₂, hproducer₂, hsame₂⟩ := h₁.produceTo hpos hnul hproducer₁ hlast le_rfl
    -- both loops end
    have hconsumer₂ : s₂.consumer = .loop items.length := by rw [hsame₂, hconsumer₁, hlength]
    have hstop : Reached BSIZE items ps { s₂ with producer := .exiting } :=
      h₂.producer hnul (e := none) (by simp [producerStep, hproducer₂])
    have hended := hstop.producer hnul rfl
    have hstop' : Reached BSIZE items ps
        { s₂ with producer := .ended, consumer := .exiting } :=
      hended.consumer_same hpos (e := none) (by simp [consumerStep, hconsumer₂])
        (by simp [State.reads, hconsumer₂])
    obtain ⟨tr, hrun, hinv⟩ := hstop'.consumer_same hpos rfl rfl
    refine ⟨tr, _, hrun, ⟨rfl, rfl⟩, ?_⟩
    simpa [ConsumerPc.pending] using hinv.taken

/-- A buffer with two places: when all of three items are stored before the first read, the third
    one is in the place of the first one, and is got twice. -/
theorem consumed_iff_abc : ∃ tr s, (machine 2 ['a', 'b', 'c']).Run (initial 2) tr s ∧ Ended s ∧
    consumed tr = ['c', 'b', 'c'] :=
  (consumed_iff (by decide) (by decide)).mpr ⟨[3, 3, 3], rfl, by decide, by decide, rfl⟩

/-! ## The counter -/

/-- How often the producer has written the counter, of `N` times. -/
def ProducerPc.incs (N : ℕ) : ProducerPc → ℕ
  | .start => 0
  | .loop i | .test i _ | .printWait i _ | .store i _ | .load i | .inc i _ => i
  | .exiting | .ended => N

/-- How often the consumer has written the counter, of `N` times. -/
def ConsumerPc.decs (N : ℕ) : ConsumerPc → ℕ
  | .start => 0
  | .loop i | .test i | .printWait i | .take i | .print i _ | .load i | .dec i _ => i
  | .exiting | .ended => N

theorem ProducerPc.Ok.incs_le {pc : ProducerPc} (h : pc.Ok items) :
    pc.incs items.length ≤ items.length := by
  cases pc with
  | start => exact Nat.zero_le _
  | loop => exact h
  | test | printWait | store => exact (List.getElem?_eq_some_iff.mp h).1.le
  | load | inc => exact Nat.le_of_lt h
  | exiting | ended => exact le_rfl

theorem ConsumerPc.Ok.decs_le {pc : ConsumerPc} {N : ℕ} (h : pc.Ok N) : pc.decs N ≤ N := by
  cases pc with
  | start => exact Nat.zero_le _
  | loop => exact h
  | test | printWait | take | print | load | dec => exact Nat.le_of_lt h
  | exiting | ended => exact le_rfl

/-- The counter, and what has been read of it, lie between what the writes of one thread alone would
    make of it. -/
structure Counted (N : ℕ) (occupied : ℤ) (producer : ProducerPc) (consumer : ConsumerPc) :
    Prop where
  le : occupied ≤ producer.incs N
  ge : -(consumer.decs N : ℤ) ≤ occupied
  inc : ∀ i reg, producer = .inc i reg → reg ≤ i ∧ -(consumer.decs N : ℤ) ≤ reg
  dec : ∀ i reg, consumer = .dec i reg → reg ≤ producer.incs N ∧ -(i : ℤ) ≤ reg

section Counted

variable {N : ℕ} {occupied occupied' : ℤ} {producer producer' : ProducerPc}
  {consumer consumer' : ConsumerPc}

theorem Counted.producerGoes (h : Counted N occupied producer consumer)
    (hincs : producer.incs N ≤ producer'.incs N) (hle : occupied' ≤ producer'.incs N)
    (hge : -(consumer.decs N : ℤ) ≤ occupied')
    (hinc : ∀ i reg, producer' = .inc i reg → reg ≤ i ∧ -(consumer.decs N : ℤ) ≤ reg) :
    Counted N occupied' producer' consumer where
  le := hle
  ge := hge
  inc := hinc
  dec i reg hpc := by
    have hdec := h.dec i reg hpc
    omega

theorem Counted.consumerGoes (h : Counted N occupied producer consumer)
    (hdecs : consumer.decs N ≤ consumer'.decs N) (hle : occupied' ≤ producer.incs N)
    (hge : -(consumer'.decs N : ℤ) ≤ occupied')
    (hdec : ∀ i reg, consumer' = .dec i reg → reg ≤ producer.incs N ∧ -(i : ℤ) ≤ reg) :
    Counted N occupied' producer consumer' where
  le := hle
  ge := hge
  inc i reg hpc := by
    have hinc := h.inc i reg hpc
    omega
  dec := hdec

/-- The producer leaves the counter as it is. -/
theorem Counted.producer_same (h : Counted N occupied producer consumer)
    (hincs : producer.incs N ≤ producer'.incs N) (hinc : ∀ i reg, producer' ≠ .inc i reg) :
    Counted N occupied producer' consumer := by
  have hle := h.le
  exact h.producerGoes hincs (by omega) h.ge fun i reg hpc => absurd hpc (hinc i reg)

/-- The consumer leaves the counter as it is. -/
theorem Counted.consumer_same (h : Counted N occupied producer consumer)
    (hdecs : consumer.decs N ≤ consumer'.decs N) (hdec : ∀ i reg, consumer' ≠ .dec i reg) :
    Counted N occupied producer consumer' := by
  have hge := h.ge
  exact h.consumerGoes hdecs h.le (by omega) fun i reg hpc => absurd hpc (hdec i reg)

theorem producerStep_counted (hok : s.producer.Ok items)
    (h : Counted items.length s.occupied s.producer s.consumer)
    (hs : producerStep BSIZE items s = some (e, s')) :
    Counted items.length s'.occupied s'.producer s'.consumer := by
  have hle := h.le
  have hge := h.ge
  cases hpc : s.producer <;> simp only [hpc, ProducerPc.Ok] at hok <;> rw [hpc] at h hle <;>
    simp only [producerStep, hpc, Option.some.injEq, Prod.mk.injEq, reduceCtorEq] at hs
  -- storing an item does not touch `occupied`
  case store i item =>
    obtain ⟨-, heq⟩ := Option.ite_none_right_eq_some.mp hs
    obtain ⟨rfl, rfl⟩ := Prod.mk.inj (Option.some.inj heq)
    exact h.producer_same le_rfl (by simp)
  all_goals obtain ⟨-, rfl⟩ := hs
  case loop i =>
    cases hitem : items[i]? with
    | none => exact h.producer_same hok (by simp)
    | some item =>
      simp only
      split
      · exact h.producer_same hok (by simp)
      · exact h.producer_same le_rfl (by simp)
  case test i item => split <;> exact h.producer_same le_rfl (by simp)
  -- the value that is read has the bounds of `occupied`
  case load i =>
    refine h.producerGoes le_rfl hle hge fun j reg heq => ?_
    obtain ⟨rfl, rfl⟩ := ProducerPc.inc.inj heq
    exact ⟨hle, hge⟩
  -- the write puts the value back that was read, one larger
  case inc i reg =>
    obtain ⟨hreg, hreg'⟩ := h.inc i reg rfl
    refine h.producerGoes (Nat.le_succ i) ?_ ?_ (by simp)
    · show reg + 1 ≤ ((i + 1 : ℕ) : ℤ)
      omega
    · show -(s.consumer.decs items.length : ℤ) ≤ reg + 1
      omega
  case start => exact h.producer_same le_rfl (by simp)
  case printWait => exact h.producer_same le_rfl (by simp)
  case exiting => exact h.producer_same le_rfl (by simp)

theorem consumerStep_counted (hok : s.consumer.Ok N)
    (h : Counted N s.occupied s.producer s.consumer)
    (hs : consumerStep BSIZE N s = some (e, s')) :
    Counted N s'.occupied s'.producer s'.consumer := by
  have hle := h.le
  have hge := h.ge
  cases hpc : s.consumer <;> simp only [hpc, ConsumerPc.Ok] at hok <;> rw [hpc] at h hge <;>
    simp only [consumerStep, hpc, Option.some.injEq, Prod.mk.injEq, reduceCtorEq] at hs
  -- taking an item does not touch `occupied`
  case take i =>
    obtain ⟨item, -, heq⟩ := Option.map_eq_some_iff.mp hs
    obtain ⟨rfl, rfl⟩ := Prod.mk.inj heq
    exact h.consumer_same le_rfl (by simp)
  all_goals obtain ⟨-, rfl⟩ := hs
  case loop i =>
    split
    · exact h.consumer_same le_rfl (by simp)
    · exact h.consumer_same hok (by simp)
  case test i => split <;> exact h.consumer_same le_rfl (by simp)
  -- the value that is read has the bounds of `occupied`
  case load i =>
    refine h.consumerGoes le_rfl hle hge fun j reg heq => ?_
    obtain ⟨rfl, rfl⟩ := ConsumerPc.dec.inj heq
    exact ⟨hle, hge⟩
  -- the write puts the value back that was read, one smaller
  case dec i reg =>
    obtain ⟨hreg, hreg'⟩ := h.dec i reg rfl
    refine h.consumerGoes (Nat.le_succ i) ?_ ?_ (by simp)
    · show reg - 1 ≤ (s.producer.incs N : ℤ)
      omega
    · show -((i + 1 : ℕ) : ℤ) ≤ reg - 1
      omega
  case start => exact h.consumer_same le_rfl (by simp)
  case printWait => exact h.consumer_same le_rfl (by simp)
  case print => exact h.consumer_same le_rfl (by simp)
  case exiting => exact h.consumer_same le_rfl (by simp)

end Counted

/-- The counter stays within the number of items. -/
theorem occupied_le (hpos : 0 < BSIZE) (hnul : '\x00' ∉ items)
    (h : (machine BSIZE items).Run (initial BSIZE) tr s) :
    -(items.length : ℤ) ≤ s.occupied ∧ s.occupied ≤ items.length := by
  have hcounted : Counted items.length s.occupied s.producer s.consumer := by
    induction h with
    | nil => exact ⟨le_rfl, le_rfl, by simp [initial], by simp [initial]⟩
    | @snoc tr s₁ s₂ a e hrun hs ih =>
      obtain ⟨ps, hinv⟩ := run_inv hpos hnul hrun
      cases a with
      | producer => exact producerStep_counted hinv.producer ih hs
      | consumer => exact consumerStep_counted hinv.consumer ih hs
  obtain ⟨ps, hinv⟩ := run_inv hpos hnul h
  have hincs := hinv.producer.incs_le
  have hdecs := hinv.consumer.decs_le
  have hle := hcounted.le
  have hge := hcounted.ge
  omega

/-! ## Both threads end -/

/-- How many steps are left for the producer, of at most `N` rounds. -/
def ProducerPc.rest (N : ℕ) : ProducerPc → ℕ
  | .start => 6 * N + 3
  | .loop i => 6 * (N - i) + 2
  | .test i _ => 6 * (N - (i + 1)) + 7
  | .printWait i _ => 6 * (N - (i + 1)) + 6
  | .store i _ => 6 * (N - (i + 1)) + 5
  | .load i => 6 * (N - (i + 1)) + 4
  | .inc i _ => 6 * (N - (i + 1)) + 3
  | .exiting => 1
  | .ended => 0

/-- How many steps are left for the consumer, of at most `N` rounds. -/
def ConsumerPc.rest (N : ℕ) : ConsumerPc → ℕ
  | .start => 7 * N + 3
  | .loop i => 7 * (N - i) + 2
  | .test i => 7 * (N - (i + 1)) + 8
  | .printWait i => 7 * (N - (i + 1)) + 7
  | .take i => 7 * (N - (i + 1)) + 6
  | .print i _ => 7 * (N - (i + 1)) + 5
  | .load i => 7 * (N - (i + 1)) + 4
  | .dec i _ => 7 * (N - (i + 1)) + 3
  | .exiting => 1
  | .ended => 0

/-- A measure that every step makes smaller. -/
def rest (N : ℕ) (s : State) : ℕ := s.producer.rest N + s.consumer.rest N

theorem producerStep_rest (hs : producerStep BSIZE items s = some (e, s')) :
    rest items.length s' < rest items.length s := by
  cases hpc : s.producer <;> simp only [producerStep, hpc, Option.some.injEq, Prod.mk.injEq,
    reduceCtorEq] at hs
  case store i item =>
    obtain ⟨-, heq⟩ := Option.ite_none_right_eq_some.mp hs
    obtain ⟨rfl, rfl⟩ := Prod.mk.inj (Option.some.inj heq)
    simp [rest, hpc, ProducerPc.rest]
  all_goals
    obtain ⟨-, rfl⟩ := hs
    simp only [rest, hpc]
  case loop i =>
    cases hitem : items[i]? with
    | none => simp [ProducerPc.rest]
    | some item =>
      -- one of finitely many items, so that the loop comes nearer to its end
      obtain ⟨hi, -⟩ := List.getElem?_eq_some_iff.mp hitem
      by_cases hnul : item = '\x00'
      · simp [hnul, ProducerPc.rest]
      · simp only [hnul, if_false, ProducerPc.rest]
        omega
  case test i item => split <;> simp [ProducerPc.rest]
  all_goals simp [ProducerPc.rest]

theorem consumerStep_rest {N : ℕ} (hs : consumerStep BSIZE N s = some (e, s')) :
    rest N s' < rest N s := by
  cases hpc : s.consumer <;> simp only [consumerStep, hpc, Option.some.injEq, Prod.mk.injEq,
    reduceCtorEq] at hs
  case take i =>
    obtain ⟨item, -, heq⟩ := Option.map_eq_some_iff.mp hs
    obtain ⟨rfl, rfl⟩ := Prod.mk.inj heq
    simp [rest, hpc, ConsumerPc.rest]
  all_goals
    obtain ⟨-, rfl⟩ := hs
    simp only [rest, hpc]
  case loop i =>
    by_cases hi : i < N
    · simp only [hi, if_true, ConsumerPc.rest]
      omega
    · simp [hi, ConsumerPc.rest]
  case test i => split <;> simp [ConsumerPc.rest]
  all_goals simp [ConsumerPc.rest]

/-- A producer that has not ended can go on: the place is in the buffer. -/
theorem exists_producerStep {ps : List ℕ} (hpos : 0 < BSIZE) (h : Inv BSIZE items s tr ps)
    (hended : s.producer ≠ .ended) : (producerStep BSIZE items s).isSome := by
  cases hpc : s.producer with
  | ended => exact absurd hpc hended
  | store i item =>
    have hlt : s.nextin < s.buf.length := by
      rw [h.buf.1, h.nextin]
      exact Nat.mod_lt _ hpos
    simp [producerStep, hpc, hlt]
  | start | loop | test | printWait | load | inc | exiting => simp [producerStep, hpc]

/-- A consumer that has not ended can go on. -/
theorem exists_consumerStep {ps : List ℕ} {N : ℕ} (hpos : 0 < BSIZE)
    (h : Inv BSIZE items s tr ps) (hended : s.consumer ≠ .ended) :
    (consumerStep BSIZE N s).isSome := by
  cases hpc : s.consumer with
  | ended => exact absurd hpc hended
  | take i =>
    have hlt : s.nextout < s.buf.length := by
      rw [h.buf.1, h.nextout]
      exact Nat.mod_lt _ hpos
    simp [consumerStep, hpc, hlt]
  | start | loop | test | printWait | print | load | dec | exiting => simp [consumerStep, hpc]

/-- From every state that the program reaches, both threads end, whichever of them goes on.  A
    thread that has not ended can go on, since no access is outside of the buffer; and `occupied`
    stays within the number of items, whatever is lost of it. -/
theorem inevitable_both_ended (hpos : 0 < BSIZE) (hnul : '\x00' ∉ items)
    (h : (machine BSIZE items).Reachable (initial BSIZE) s) :
    (machine BSIZE items).Inevitable (fun _ _ => True) Ended s ∧
    (-(items.length : ℤ) ≤ s.occupied ∧ s.occupied ≤ items.length) ∧
    (s.producer ≠ .ended → ∃ r, (machine BSIZE items).step s .producer = some r) ∧
    (s.consumer ≠ .ended → ∃ r, (machine BSIZE items).step s .consumer = some r) := by
  have hproducer : ∀ s, (machine BSIZE items).Reachable (initial BSIZE) s → s.producer ≠ .ended →
      ∃ r, (machine BSIZE items).step s .producer = some r := by
    rintro s ⟨tr, hrun⟩ hended
    obtain ⟨ps, hinv⟩ := run_inv hpos hnul hrun
    exact Option.isSome_iff_exists.mp (exists_producerStep hpos hinv hended)
  have hconsumer : ∀ s, (machine BSIZE items).Reachable (initial BSIZE) s → s.consumer ≠ .ended →
      ∃ r, (machine BSIZE items).step s .consumer = some r := by
    rintro s ⟨tr, hrun⟩ hended
    obtain ⟨ps, hinv⟩ := run_inv hpos hnul hrun
    exact Option.isSome_iff_exists.mp (exists_consumerStep hpos hinv hended)
  -- these bounds hold in every state that is reached
  have hcount : -(items.length : ℤ) ≤ s.occupied ∧ s.occupied ≤ items.length := by
    obtain ⟨tr, hrun⟩ := h
    exact occupied_le hpos hnul hrun
  refine ⟨?_, hcount, hproducer s h, hconsumer s h⟩
  refine Machine.Inevitable.of_measure (rest items.length)
    (I := fun s => (machine BSIZE items).Reachable (initial BSIZE) s) ?_ ?_ h
  · intro s hreach hend
    -- one of the two has not ended, and it can go on by itself
    by_cases hended : s.producer = .ended
    · obtain ⟨r, hr⟩ := hconsumer s hreach fun hended' => hend ⟨hended, hended'⟩
      exact ⟨.consumer, r, trivial, hr⟩
    · obtain ⟨r, hr⟩ := hproducer s hreach hended
      exact ⟨.producer, r, trivial, hr⟩
  · intro s a e s' hreach _ _ hs
    refine ⟨hreach.step hs, ?_⟩
    cases a with
    | producer => exact producerStep_rest hs
    | consumer => exact consumerStep_rest hs

/-- The size of the source, and its string. -/
theorem inevitable_both_ended_4 : (machine 4 "IT'S A SMALL WORLD, AFTER ALL.".toList).Inevitable
    (fun _ _ => True) Ended (initial 4) :=
  (inevitable_both_ended (by decide) (by decide) (.refl _)).1

end BoundedBuffer
