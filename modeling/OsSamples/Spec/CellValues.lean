import OsSamples.Spec.ProducerConsumerSimple

/-!
# The cell with a monitor: the values that `ReadFromCell` returns

The `return cellContents` of `ReadFromCell` stands after the lock block, so what it reads is the
value that the consumer has printed only if the producer has not gone on to write the next one.
`ReturnsFirst` is the condition on a step that says so.

## Key results

- `readFromCell_returns`: the values returned in the runs whose steps all meet the condition
- `not_readFromCell_returns`: a run in which a value is returned twice and one is lost
-/

namespace ProducerConsumerSimple

open CInt

variable {q : ℤ} {i : Thread} {s s' : Shared} {l l' : Local} {e : Option ℤ}
  {loc : Thread → Local}

/-- The values from 1 to `n`. -/
def values (n : ℕ) : List ℤ := (List.range n).map fun k => (k : ℤ) + 1

/-- The step is not a write to the cell while the consumer is between its lock block and the read
    of the value that it returns. -/
def ReturnsFirst (cfg : Config Thread Shared Local) (a : Thread × Choice) : Prop :=
  ¬ (a.1 = .producer ∧ (cfg.loc .producer).pc = .write ∧ (cfg.loc .consumer).pc = .ret)

instance (cfg : Config Thread Shared Local) (a : Thread × Choice) :
    Decidable (ReturnsFirst cfg a) := inferInstanceAs (Decidable (¬ _))

/-- While the consumer is about to return, the producer has not begun with the next value. -/
def RetInv (s : Shared) (loc : Thread → Local) : Prop :=
  (loc .consumer).pc = .ret → s.readerFlag = false ∧ (loc .producer).pc ≠ .print ∧
    (loc .producer).pc ≠ .setFlag

/-- A step of the producer that is not its write keeps it, for it does not get into the part in
    which it has written. -/
theorem RetInv.step_producer (h : RetInv s loc) (hs : Step q .producer s (loc .producer) e s' l')
    (hok : ¬ ((loc .producer).pc = .write ∧ (loc .consumer).pc = .ret)) :
    RetInv s' (Function.update loc .producer l') := by
  intro hret
  simp only [Function.update_self, Function.update_of_ne, ne_eq, reduceCtorEq,
    not_false_eq_true] at hret ⊢
  obtain ⟨hflag, hprint, hset⟩ := h hret
  cases hs with
  | write hi hpc => exact absurd ⟨hpc, hret⟩ hok
  | print hpc => exact absurd hpc hprint
  | setFlag hpc => exact absurd hpc hset
  | test hpc =>
    refine ⟨hflag, ?_, ?_⟩ <;> simp [hflag, Thread.mustWait, Thread.body]
  | @wake m b hpc hm =>
    refine ⟨hflag, ?_, ?_⟩ <;> cases b <;> simp
  | interrupt | next | finish | lock | noWait | wait | caught | pulse | unlockProducer
  | unlockConsumer | ret => exact ⟨hflag, by simp, by simp⟩

/-- A step of the consumer keeps it: the lock block ends with the flag lowered. -/
theorem RetInv.step_consumer (hsync : SyncInv s loc)
    (hs : Step q .consumer s (loc .consumer) e s' l') :
    RetInv s' (Function.update loc .consumer l') := by
  intro hret
  simp only [Function.update_self, Function.update_of_ne, ne_eq, reduceCtorEq,
    not_false_eq_true] at hret ⊢
  cases hs with
  | unlockConsumer hi hpc hm =>
    -- the consumer has the lock, and the flag says that the cell is empty
    have hwait := hsync.condition .consumer true (by rw [hpc]; rfl)
    have hout := hsync.not_locked (i := .consumer) (by rw [hpc]; rfl) (Thread.other_ne _)
    refine ⟨by simpa [Thread.mustWait] using hwait, ?_, ?_⟩ <;>
    · intro hpc'
      rw [Thread.other, hpc'] at hout
      cases hout
  | test hpc =>
    split at hret
    · cases hret
    · cases hret
  | @wake m b hpc hm => cases b <;> cases hret
  | interrupt | next | finish | lock | noWait | wait | caught | write | print | setFlag | pulse
  | unlockProducer | ret => cases hret

theorem step_retInv (h : RetInv s loc) (hsync : SyncInv s loc) (hs : Step q i s (loc i) e s' l')
    (hok : ¬ (i = .producer ∧ (loc .producer).pc = .write ∧ (loc .consumer).pc = .ret)) :
    RetInv s' (Function.update loc i l') := by
  cases i with
  | producer => exact h.step_producer hs fun hbad => hok ⟨rfl, hbad⟩
  | consumer => exact RetInv.step_consumer hsync hs

theorem values_succ (n : ℕ) : values (n + 1) = values n ++ [(n : ℤ) + 1] := by
  simp [values, List.range_succ]

/-- The values of fewer rounds come first. -/
theorem prefix_values {n k : ℕ} (h : n ≤ k) : values n <+: values k := by
  induction h with
  | refl => exact List.prefix_rfl
  | step _ ih =>
    rw [values_succ]
    exact ih.trans (List.prefix_append _ _)

/-- The value that is returned is the number of the round. -/
theorem CountInv.contents_eq (h : CountInv q s loc) (hret : RetInv s loc)
    (hpc : (loc .consumer).pc = .ret) : s.cellContents = (loc .consumer).looper := by
  obtain ⟨hflag, hprint, hset⟩ := hret hpc
  have hitems := h.flag
  have hitems' : (loc .consumer).items = (loc .consumer).looper := by
    simp only [Local.items, hpc]
  have hwritten : (loc .producer).written = (loc .producer).items := by
    cases hpc' : (loc .producer).pc <;>
      first
      | exact absurd hpc' hprint
      | exact absurd hpc' hset
      | simp only [Local.written, Local.items, hpc']
  rw [hflag, if_neg (by decide)] at hitems
  rw [h.contents]
  omega

/-- The values returned so far are those of the consumer's complete rounds. -/
def Returned (loc : Thread → Local) (tr : List ℤ) : Prop :=
  ∃ n : ℕ, (loc .consumer).looper = n + 1 ∧ tr = values n

/-- Only a return changes the consumer's counter. -/
theorem step_returned {tr : List ℤ} (hq : q < INT_MAX) (hcount : CountInv q s loc)
    (hret : RetInv s loc) (h : Returned loc tr)
    (hs : Step q i s (loc i) e s' l') : Returned (Function.update loc i l') (tr ++ e.toList) := by
  obtain ⟨n, hn, rfl⟩ := h
  -- nothing is returned, and the consumer stays in its round
  have hsame : l'.looper = (loc i).looper ∨ i = .producer → e = none →
      Returned (Function.update loc i l') (values n ++ e.toList) := by
    rintro hl rfl
    refine ⟨n, ?_, by simp⟩
    cases i with
    | producer => simpa using hn
    | consumer => rw [Function.update_self, hl.resolve_right (by decide), hn]
  cases hs with
  | ret hi hpc =>
    subst hi
    -- the value that is returned is the number of the round
    obtain ⟨hnext, -⟩ := (hcount.loop .consumer).next hq (by rw [hpc]; rfl)
    refine ⟨n + 1, ?_, ?_⟩
    · rw [Function.update_self, hnext, hn]
      push_cast
      rfl
    · rw [hcount.contents_eq hret hpc, hn, values_succ]
      rfl
  | unlockProducer hi hpc hm => exact hsame (.inr hi) rfl
  | interrupt | next | finish | lock | noWait | wait | wake | caught | test | write | print
  | setFlag | pulse | unlockConsumer => exact hsame (.inl rfl) rfl

/-- The calls of `ReadFromCell` return 1, 2, …, `q` in every run in which the producer does not
    write to the cell while the consumer is between its lock block and its read of the value to
    return: what has been returned so far is a beginning of these values, and it is all of them
    when the consumer is at its end. -/
theorem readFromCell_returns (q : ℤ) (hq : q < INT_MAX) (tr : List ℤ)
    (cfg : Config Thread Shared Local)
    (h : ((machine q).restrict ReturnsFirst).Run initial tr cfg) :
    tr <+: values q.toNat ∧ ((cfg.loc .consumer).pc = .done → tr = values q.toNat) := by
  have key : (SyncInv cfg.shared cfg.loc ∧ CountInv q cfg.shared cfg.loc ∧
      RetInv cfg.shared cfg.loc) ∧ Returned cfg.loc tr := by
    refine h.trace_invariant (I := fun tr cfg => (SyncInv cfg.shared cfg.loc ∧
      CountInv q cfg.shared cfg.loc ∧ RetInv cfg.shared cfg.loc) ∧ Returned cfg.loc tr) ?_ ?_
    · rintro tr cfg a e cfg' ⟨⟨hsync, hcount, hret⟩, hreturned⟩ hs
      obtain ⟨hok, hs⟩ := Machine.restrict_step.mp hs
      obtain ⟨s', l', hs', rfl⟩ := Threads.machine_step_eq_some.mp hs
      have hstep := step_of_threadStep hs'
      exact ⟨⟨step_syncInv hsync hstep, step_countInv hq hcount hsync hstep,
        step_retInv hret hsync hstep hok⟩, step_returned hq hcount hret hreturned hstep⟩
    · exact ⟨⟨initial_syncInv, initial_countInv q, nofun⟩, 0, rfl, rfl⟩
  obtain ⟨⟨hsync, hcount, hret⟩, n, hn, rfl⟩ := key
  have hle := (hcount.loop .consumer).le
  refine ⟨prefix_values (by omega), fun hdone => ?_⟩
  -- at its end the consumer has done all its rounds
  have hlt := (hcount.loop .consumer).done hdone
  have hn' : n = q.toNat := by omega
  rw [hn']

/-- Two items, the consumer returning each of them at once. -/
theorem readFromCell_returns_two : ∃ cfg,
    ((machine 2).restrict ReturnsFirst).Run initial (values 2) cfg ∧
      (cfg.loc .consumer).pc = .done ∧ values 2 <+: values (2 : ℤ).toNat := by
  have hrun := Machine.Run.of_exec (M := (machine 2).restrict ReturnsFirst) (s := initial)
    ((List.replicate 8 Thread.producer ++ List.replicate 8 Thread.consumer ++
      List.replicate 8 Thread.producer ++ List.replicate 9 Thread.consumer).map
        fun i => (i, .next)) rfl
  exact ⟨_, hrun, rfl, (readFromCell_returns 2 (by decide) _ _ hrun).1⟩

/-- The producer writes 2 before the consumer has read the 1 that it is about to return: both calls
    return 2, and both threads come to their ends. -/
theorem not_readFromCell_returns : ∃ cfg, (machine 2).Run initial [2, 2] cfg ∧
    (∀ i, (cfg.loc i).pc = .done) ∧ ¬ [2, 2] <+: values (2 : ℤ).toNat := by
  have hrun := Machine.Run.of_exec (M := machine 2) (s := initial)
    ((List.replicate 8 Thread.producer ++ List.replicate 7 Thread.consumer ++
      List.replicate 9 Thread.producer ++ List.replicate 10 Thread.consumer).map
        fun i => (i, .next)) rfl
  refine ⟨_, hrun, ?_, by decide⟩
  intro i
  cases i <;> rfl

end ProducerConsumerSimple
