import OsSamples.Spec.ProducerConsumerSimple

/-!
# The cell with a monitor: both threads end

A thread that is woken tests its condition once more, which costs it a few steps; the round of the
other thread that has woken it pays for them.

## Key results

- `step_rest`: what a step leaves to do
- `exists_step`: some thread can go on
- `inevitable_rounds`: all items are produced and consumed
-/

namespace ProducerConsumerSimple

open CInt

variable {q : ℤ} {i : Thread} {s s' : Shared} {l l' : Local} {e : Option ℤ}
  {loc : Thread → Local} {cfg cfg' : Config Thread Shared Local}

/-! ## The steps that are left -/

/-- How many steps are left in a round, and for the next test of the `for` loop, with the steps
    after a pulse for the thread that is woken. -/
def Pc.rest : Pc → ℕ
  | .loop => 1
  | .lock => 20
  | .caught _ => 19
  | .test => 18
  | .wait => 17
  | .waiting _ => 16
  | .write => 15
  | .print => 14
  | .setFlag => 13
  | .pulse => 12
  | .unlock => 3
  | .ret => 2
  | .done => 0

/-- How many steps are left for a thread, which is in the waiting queue or not. -/
def Local.rest (q : ℤ) (l : Local) (inQueue : Bool) : ℕ :=
  match l.pc with
  | .loop => 20 * (q + 1 - l.looper).toNat + 1
  | .done => 0
  | .waiting _ => 20 * (q - l.looper).toNat + if inQueue then 16 else 20
  | pc => 20 * (q - l.looper).toNat + pc.rest

/-- How many steps are left for the thread `i`. -/
def restOf (q : ℤ) (s : Shared) (loc : Thread → Local) (i : Thread) : ℕ :=
  (loc i).rest q (decide (i ∈ s.monitor.waiting))

/-- To be woken costs four steps. -/
theorem Local.rest_le (q : ℤ) (l : Local) (b b' : Bool) : l.rest q b ≤ l.rest q b' + 4 := by
  unfold Local.rest
  split
  case h_3 => cases b <;> cases b' <;> simp
  all_goals omega

/-- A step without an interrupt leaves the thread less to do, and it either leaves the other thread
    in its queue or pays for it. -/
theorem step_rest (hq : q < INT_MAX) (hsync : SyncInv s loc) (hl : LoopInv q (loc i))
    (hparked : (loc i).pc.parked = true → l'.pc.parked = false)
    (hs : Step q i s (loc i) e s' l') :
    l'.rest q (decide (i ∈ s'.monitor.waiting)) + 4 < restOf q s loc i ∨
      (l'.rest q (decide (i ∈ s'.monitor.waiting)) < restOf q s loc i ∧
        (i.other ∈ s'.monitor.waiting ↔ i.other ∈ s.monitor.waiting)) := by
  unfold restOf
  cases hs with
  | interrupt hpc => exact nomatch hparked (by rw [hpc]; rfl)
  | next hpc hle =>
    refine .inr ⟨?_, Iff.rfl⟩
    simp only [Local.rest, Pc.rest, hpc]
    omega
  | finish hpc hlt => exact .inr ⟨by simp [Local.rest, hpc], Iff.rfl⟩
  | lock hpc hm =>
    obtain ⟨-, rfl⟩ := Monitor.enter_cases hm
    exact .inr ⟨by simp [Local.rest, Pc.rest, hpc], Iff.rfl⟩
  | test hpc =>
    refine .inr ⟨?_, Iff.rfl⟩
    split
    · simp [Local.rest, Pc.rest, hpc]
    · cases i <;> simp [Local.rest, Pc.rest, Thread.body, hpc]
  | noWait hpc hm =>
    -- the thread has the lock
    have howner := (hsync.owner i).mpr (by rw [hpc]; rfl)
    simp [Monitor.wait, howner] at hm
  | wait hpc hm =>
    obtain ⟨-, rfl⟩ := Monitor.wait_cases hm
    exact .inr ⟨by simp [Local.rest, Pc.rest, hpc], by simp [i.other_ne]⟩
  | @wake m b hpc hm =>
    obtain ⟨-, hready, rfl⟩ := Monitor.reacquire_cases hm
    have hout : i ∉ s.monitor.waiting := fun hw =>
      (List.nodup_append.mp hsync.wf.nodup).2.2 i hw i hready rfl
    refine .inr ⟨?_, Iff.rfl⟩
    cases b <;> simp [Local.rest, Pc.rest, hpc, hout]
  | pulse hpc hm => exact .inl (by simp [Local.rest, Pc.rest, hpc])
  | unlockProducer hi hpc hm =>
    obtain ⟨-, rfl⟩ := Monitor.exit_cases hm
    obtain ⟨hnext, -⟩ := hl.next hq (by rw [hpc]; rfl)
    refine .inr ⟨?_, Iff.rfl⟩
    simp only [Local.rest, Pc.rest, hpc, hnext]
    omega
  | unlockConsumer hi hpc hm =>
    obtain ⟨-, rfl⟩ := Monitor.exit_cases hm
    exact .inr ⟨by simp [Local.rest, Pc.rest, hpc], Iff.rfl⟩
  | ret hi hpc =>
    obtain ⟨hnext, -⟩ := hl.next hq (by rw [hpc]; rfl)
    refine .inr ⟨?_, Iff.rfl⟩
    simp only [Local.rest, Pc.rest, hpc, hnext]
    omega
  | caught hpc | write _ hpc | print hpc | setFlag hpc =>
    exact .inr ⟨by simp [Local.rest, Pc.rest, hpc], Iff.rfl⟩

/-- A thread that goes on leaves `Monitor.Wait`. -/
theorem parked_of_next (hs : threadStep q i .next s l = some (e, s', l'))
    (hparked : l.pc.parked = true) : l'.pc.parked = false := by
  cases hpc : l.pc <;> simp only [hpc, Pc.parked, Bool.false_eq_true] at hparked
  case waiting b =>
    cases i <;> simp only [threadStep, cellProd, cellCons, writeToCell, readFromCell, waitLoop,
      hpc, Option.map_eq_some_iff, Prod.mk.injEq, Prod.exists] at hs
    all_goals
      obtain ⟨_, pc', ⟨m, -, -, rfl⟩, -, -, rfl⟩ := hs
      cases b <;> rfl

/-! ## Who can go on -/

/-- A place in the program of the other thread only. -/
def Thread.foreign : Thread → Pc
  | .producer => .ret
  | .consumer => .write

/-- A thread stays in its own program. -/
theorem reachable_ne_foreign (h : (machine q).Reachable initial cfg) :
    ∀ i, (cfg.loc i).pc ≠ i.foreign := by
  refine Threads.reachable_invariant (I := fun _ loc => ∀ i, (loc i).pc ≠ i.foreign) ?_ h ?_
  · intro i c s loc e s' l' hI hs
    apply (Function.forall_update_iff loc fun i l => l.pc ≠ i.foreign).mpr
    refine ⟨?_, fun j _ => hI j⟩
    cases step_of_threadStep hs with
    | test hpc => split <;> cases i <;> simp [Thread.body, Thread.foreign]
    | @wake m b hpc hm => cases b <;> cases i <;> simp [Thread.foreign]
    | unlockConsumer hi hpc hm =>
      subst hi
      simp [Thread.foreign]
    | interrupt | next | finish | lock | noWait | wait | caught | write | print | setFlag | pulse
    | unlockProducer | ret => cases i <;> simp [Thread.foreign]
  · intro i
    cases i <;> simp [initial, Thread.foreign]

/-- A thread that has not ended can go on, unless it waits for the lock or for a pulse. -/
theorem isSome_threadStep (hsync : SyncInv s loc) (hforeign : (loc i).pc ≠ i.foreign)
    (hdone : (loc i).pc ≠ .done) (hlock : (loc i).pc = .lock → s.monitor.owner = none)
    (hwaiting : (loc i).pc.parked = true → s.monitor.owner = none ∧ i ∈ s.monitor.ready) :
    (threadStep q i .next s (loc i)).isSome := by
  -- a thread in the part with the lock is its owner
  have howner := (hsync.owner i).mpr
  cases hpc : (loc i).pc <;> rw [hpc] at howner hforeign
  case done => exact absurd hpc hdone
  -- a thread before `lock` needs it to be free
  case lock =>
    have hfree := hlock hpc
    cases i <;> simp [threadStep, cellProd, cellCons, writeToCell, readFromCell, waitLoop, hpc,
      Monitor.enter, hfree]
  -- a thread that was pulsed takes the lock again
  case waiting b =>
    have hfree := hwaiting (by rw [hpc]; rfl)
    cases i <;> simp [threadStep, cellProd, cellCons, writeToCell, readFromCell, waitLoop, hpc,
      Monitor.reacquire, hfree]
  case wait =>
    have hown := howner rfl
    cases i <;> simp [threadStep, cellProd, cellCons, writeToCell, readFromCell, waitLoop, hpc,
      Monitor.wait, hown]
  case pulse =>
    have hown := howner rfl
    cases i <;> simp [threadStep, cellProd, cellCons, writeToCell, readFromCell, hpc,
      Monitor.pulse, hown]
  case unlock =>
    have hown := howner rfl
    cases i <;> simp [threadStep, cellProd, cellCons, writeToCell, readFromCell, hpc,
      Monitor.exit, hown]
  -- the other steps need nothing
  all_goals
    cases i <;> simp_all [threadStep, cellProd, cellCons, writeToCell, readFromCell, waitLoop,
      Thread.foreign]

/-- Before the end some thread can go on, without an interrupt. -/
theorem exists_step (h : (machine q).Reachable initial cfg)
    (hend : ¬ ∀ i, (cfg.loc i).pc = .done) :
    ∃ a r, a.2 ≠ Choice.interrupt ∧ (machine q).step cfg a = some r := by
  have hsync := reachable_syncInv h
  have hforeign := reachable_ne_foreign h
  have hgo : ∀ i, (threadStep q i .next cfg.shared (cfg.loc i)).isSome →
      ∃ a r, a.2 ≠ Choice.interrupt ∧ (machine q).step cfg a = some r := by
    intro i hsome
    obtain ⟨⟨e, s', l'⟩, hs⟩ := Option.isSome_iff_exists.mp hsome
    exact ⟨(i, .next), _, by simp, Threads.machine_step_eq_some.mpr ⟨s', l', hs, rfl⟩⟩
  cases howner : cfg.shared.monitor.owner with
  | some i =>
    have hlocked := (hsync.owner i).mp howner
    refine hgo i (isSome_threadStep hsync (hforeign i) ?_ ?_ ?_)
    · intro hpc
      rw [hpc] at hlocked
      exact nomatch hlocked
    · intro hpc
      rw [hpc] at hlocked
      exact nomatch hlocked
    · intro hparked
      have hout := hsync.locked_not_queued hlocked
      exact absurd ((hsync.queued i).mpr hparked) (not_or.mpr hout)
  | none =>
    -- not all the threads that have not ended wait for a pulse
    obtain ⟨i, hi⟩ := not_forall.mp hend
    obtain ⟨j, hj, hout⟩ : ∃ j, Unfinished cfg j ∧ j ∉ cfg.shared.monitor.waiting := by
      by_contra hnone
      push Not at hnone
      exact not_all_waiting h ⟨⟨i, hi⟩, hnone⟩
    refine hgo j (isSome_threadStep hsync (hforeign j) hj (fun _ => howner) fun hparked => ?_)
    exact ⟨howner, ((hsync.queued j).mpr hparked).resolve_left hout⟩

/-! ## Main result -/

/-- At the end all rounds are on the console. -/
theorem CountInv.texts_of_done (h : CountInv q s loc) (hdone : ∀ i, (loc i).pc = .done) :
    s.texts = rounds q.toNat := by
  have hlines : ∀ i, (loc i).lines = q.toNat := by
    intro i
    have hpos := (h.loop i).pos
    have hle := (h.loop i).le
    have hlt := (h.loop i).done (hdone i)
    simp only [Local.lines, hdone i]
    omega
  have hproducer := hlines .producer
  have hconsumer := hlines .consumer
  obtain ⟨n, hn, ⟨-, htexts⟩ | ⟨hone, -⟩⟩ := h.texts
  · rw [htexts]
    congr 1
    omega
  · omega

/-- Every step without an interrupt leaves less to do. -/
theorem machine_rest (hq : q < INT_MAX) {a : Thread × Choice} (ha : a.2 ≠ .interrupt)
    (h : (machine q).Reachable initial cfg) (hs : (machine q).step cfg a = some (e, cfg')) :
    restOf q cfg'.shared cfg'.loc .producer + restOf q cfg'.shared cfg'.loc .consumer <
      restOf q cfg.shared cfg.loc .producer + restOf q cfg.shared cfg.loc .consumer := by
  obtain ⟨hsync, hcount⟩ := reachable_countInv hq h
  obtain ⟨i, c⟩ := a
  obtain rfl : c = .next := by cases c <;> trivial
  obtain ⟨s', l', hs', rfl⟩ := Threads.machine_step_eq_some.mp hs
  have hown := step_rest hq hsync (hcount.loop i) (parked_of_next hs') (step_of_threadStep hs')
  -- the other thread has moved in the queues only
  have hother : restOf q s' (Function.update cfg.loc i l') i.other =
      (cfg.loc i.other).rest q (decide (i.other ∈ s'.monitor.waiting)) := by
    simp only [restOf, Function.update_of_ne i.other_ne]
  have hself : restOf q s' (Function.update cfg.loc i l') i =
      l'.rest q (decide (i ∈ s'.monitor.waiting)) := by
    simp only [restOf, Function.update_self]
  have hlt : restOf q s' (Function.update cfg.loc i l') i +
      restOf q s' (Function.update cfg.loc i l') i.other <
        restOf q cfg.shared cfg.loc i + restOf q cfg.shared cfg.loc i.other := by
    rw [hother, hself]
    rcases hown with hpays | ⟨hless, hqueue⟩
    · have hle := (cfg.loc i.other).rest_le q (decide (i.other ∈ s'.monitor.waiting))
        (decide (i.other ∈ cfg.shared.monitor.waiting))
      simp only [restOf] at hpays ⊢
      omega
    · simp only [restOf, hqueue] at hless ⊢
      omega
  cases i with
  | producer => exact hlt
  | consumer =>
    rw [Nat.add_comm, Nat.add_comm (restOf q cfg.shared cfg.loc .producer)]
    exact hlt

/-- With `quantity` below the largest `int`, both threads end from every state that is reached, with
    all items produced and consumed in turn, whichever thread goes on, if no more threads are
    interrupted; and until then there is always one that can.  Every pulse that is needed comes. -/
theorem inevitable_rounds (hq : q < INT_MAX) (h : (machine q).Reachable initial cfg) :
    (machine q).Inevitable (fun _ a => a.2 ≠ .interrupt)
      (fun cfg => (∀ i, (cfg.loc i).pc = .done) ∧ cfg.shared.texts = rounds q.toNat) cfg := by
  refine Machine.Inevitable.of_measure (I := (machine q).Reachable initial)
    (fun cfg => restOf q cfg.shared cfg.loc .producer + restOf q cfg.shared cfg.loc .consumer)
    ?_ ?_ h
  · intro cfg h hP
    exact exists_step h fun hdone =>
      hP ⟨hdone, (reachable_countInv hq h).2.texts_of_done hdone⟩
  · rintro cfg a e cfg' ⟨tr, hrun⟩ - ha hs
    exact ⟨⟨_, hrun.snoc hs⟩, machine_rest hq ha ⟨tr, hrun⟩ hs⟩

/-- Two items; the consumer waits for the first one, and the producer is about to wake it. -/
theorem inevitable_rounds_two : ∃ cfg : Config Thread Shared Local,
    cfg.shared.monitor.waiting = [.consumer] ∧ (cfg.loc .producer).pc = .pulse ∧
      (machine 2).Inevitable (fun _ a => a.2 ≠ .interrupt)
        (fun cfg => (∀ i, (cfg.loc i).pc = .done) ∧ cfg.shared.texts = rounds (2 : ℤ).toNat)
        cfg := by
  have hrun := Machine.Reachable.of_exec (M := machine 2) (s := initial)
    ((List.replicate 4 Thread.consumer ++ List.replicate 6 Thread.producer).map
      fun i => (i, .next)) rfl
  exact ⟨_, rfl, rfl, inevitable_rounds (by decide) hrun⟩

end ProducerConsumerSimple
