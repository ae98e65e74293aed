import OsSamples.Spec.ThreadAdd

/-!
# Nothing is lost with synchronization

With a mutex or a semaphore around `count++`, one thread at a time is between the entry and the exit
section, what it has read is still there when it writes, and `count` is the number of increments
that have been done.  The threads that start together pass the barrier when all of them have come
to it.

## Key results

- `Inv.step`, `Started.step`: what a step keeps
- `report_of_protected`: one thread at a time, and what `main` reports
- `barrier_run`: who has passed the barrier, and how often the line is printed
- `inevitable_ok`: every run comes to its end, with the right number
-/

namespace ThreadAdd

open CInt
open SpawnJoin (Stage)
open Threads (total)

variable {n iterations : ℕ} {p : Program} {s s₁ s' : State n} {e : Option Event} {tr : List Event}
  {t u : Fin n} {a : Act n} {pc : Pc} {c : Section}

/-! ## One thread at a time -/

/-- What the entry section leaves alone. -/
theorem entry_frame (h : entry c t s = some s₁) : s₁.thread = s.thread ∧ s₁.count = s.count ∧
    s₁.main = s.main ∧ s₁.barrier = s.barrier := by
  cases c <;> simp only [entry, Option.ite_none_right_eq_some, Option.some.injEq] at h
  case unprotected => exact h ▸ ⟨rfl, rfl, rfl, rfl⟩
  case mutex => exact h.2 ▸ ⟨rfl, rfl, rfl, rfl⟩
  case semaphore => exact h.2 ▸ ⟨rfl, rfl, rfl, rfl⟩

/-- What the exit section leaves alone. -/
theorem exit_frame (c : Section) (t : Fin n) (s : State n) : (exit c t s).thread = s.thread ∧
    (exit c t s).count = s.count ∧ (exit c t s).main = s.main ∧
    (exit c t s).barrier = s.barrier := by
  cases c with
  | unprotected | semaphore => exact ⟨rfl, rfl, rfl, rfl⟩
  | mutex =>
    by_cases howner : s.mutex = some t <;> simp [exit, howner]

/-- Whether a thread is between the entry and the exit section. -/
def Pc.inside : Pc → Bool
  | .load _ | .store .. | .leave _ => true
  | _ => false

/-- The mutex is owned by the thread inside, and the semaphore counts who may enter. -/
def Locked (c : Section) (s : State n) : Prop :=
  match c with
  | .unprotected => False
  | .mutex => Threads.Exclusive Pc.inside s.mutex s.thread
  | .semaphore => s.sem + total (fun pc => pc.inside.toNat) s.thread = 1

theorem Locked.eq (h : Locked c s) (ht : (s.thread t).inside = true)
    (hu : (s.thread u).inside = true) : t = u := by
  cases c with
  | unprotected => exact h.elim
  | mutex => exact Threads.Exclusive.eq h ht hu
  | semaphore =>
    -- two threads inside would be counted twice
    by_contra hne
    have hupdate := Threads.total_update (fun pc => pc.inside.toNat) s.thread t .ended
    have hle := Threads.le_total (fun pc => pc.inside.toNat) (Function.update s.thread t .ended) u
    rw [Function.update_of_ne (Ne.symm hne)] at hle
    have hended : Pc.ended.inside.toNat = 0 := rfl
    simp only [ht, hu, Bool.toNat_true] at hupdate hle
    have hsem : s.sem + total (fun pc => pc.inside.toNat) s.thread = 1 := h
    omega

/-- Only the mutex, the semaphore and the threads matter. -/
theorem Locked.of_eq (h : Locked c s) (hmutex : s'.mutex = s.mutex) (hsem : s'.sem = s.sem)
    (hthread : s'.thread = s.thread) : Locked c s' := by
  unfold Locked at h ⊢
  rwa [hmutex, hsem, hthread]

/-- A step within the section, or outside of it. -/
theorem Locked.stay (h : Locked c s) (hpc : pc.inside = (s.thread t).inside) :
    Locked c (s.goto t pc) := by
  cases c with
  | unprotected => exact h
  | mutex => exact Threads.Exclusive.stay h hpc
  | semaphore =>
    have hupdate := Threads.total_update (fun pc => pc.inside.toNat) s.thread t pc
    rw [hpc] at hupdate
    have hsem : s.sem + total (fun pc => pc.inside.toNat) s.thread = 1 := h
    show s.sem + total (fun pc => pc.inside.toNat) (Function.update s.thread t pc) = 1
    omega

/-- A thread enters. -/
theorem Locked.enter (h : Locked c s) (hentry : entry c t s = some s₁)
    (hout : (s.thread t).inside = false) (hpc : pc.inside = true) : Locked c (s₁.goto t pc) := by
  cases c with
  | unprotected => exact h.elim
  | mutex =>
    simp only [entry, Option.ite_none_right_eq_some, Option.some.injEq] at hentry
    obtain ⟨hfree, rfl⟩ := hentry
    have hlocked : Threads.Exclusive Pc.inside s.mutex s.thread := h
    rw [hfree] at hlocked
    exact hlocked.enter hpc
  | semaphore =>
    simp only [entry, Option.ite_none_right_eq_some, Option.some.injEq] at hentry
    obtain ⟨hpos, rfl⟩ := hentry
    have hupdate := Threads.total_update (fun pc => pc.inside.toNat) s.thread t pc
    simp only [hout, hpc, Bool.toNat_true, Bool.toNat_false] at hupdate
    have hsem : s.sem + total (fun pc => pc.inside.toNat) s.thread = 1 := h
    show s.sem - 1 + total (fun pc => pc.inside.toNat) (Function.update s.thread t pc) = 1
    omega

/-- A thread leaves. -/
theorem Locked.exit (h : Locked c s) (hin : (s.thread t).inside = true)
    (hpc : pc.inside = false) : Locked c ((exit c t s).goto t pc) := by
  cases c with
  | unprotected => exact h.elim
  | mutex =>
    have hlocked : Threads.Exclusive Pc.inside s.mutex s.thread := h
    have howner : s.mutex = some t := (h t).mpr hin
    rw [howner] at hlocked
    rw [ThreadAdd.exit, if_pos howner]
    exact hlocked.exit hpc
  | semaphore =>
    have hupdate := Threads.total_update (fun pc => pc.inside.toNat) s.thread t pc
    simp only [hin, hpc, Bool.toNat_true, Bool.toNat_false] at hupdate
    have hsem : s.sem + total (fun pc => pc.inside.toNat) s.thread = 1 := h
    show s.sem + 1 + total (fun pc => pc.inside.toNat) (Function.update s.thread t pc) = 1
    omega

/-- With no thread inside, any thread can enter. -/
theorem Locked.exists_entry (h : Locked c s) (hout : ∀ u, (s.thread u).inside = false)
    (t : Fin n) : ∃ s₁, entry c t s = some s₁ := by
  cases c with
  | unprotected => exact h.elim
  | mutex =>
    have hfree : s.mutex = none := Option.eq_none_iff_forall_ne_some.mpr fun u hu => by
      have hin := (h u).mp hu
      rw [hout] at hin
      cases hin
    exact ⟨_, if_pos hfree⟩
  | semaphore =>
    have hzero : total (fun pc => pc.inside.toNat) s.thread = 0 :=
      Threads.total_eq_zero.mpr fun u => by simp [hout u]
    have hsem : s.sem + total (fun pc => pc.inside.toNat) s.thread = 1 := h
    exact ⟨_, if_pos (by omega)⟩

/-! ## What has been counted -/

/-- The number of increments that a thread has done. -/
def Pc.written (iterations : ℕ) : Pc → ℕ
  | .notCreated | .start | .waiting | .announce => 0
  | .loop i | .enter i | .load i | .store i _ => i
  | .leave i => i + 1
  | .ended => iterations

/-- A thread does no more increments than it should. -/
def Pc.Within (iterations : ℕ) : Pc → Prop
  | .loop i => i ≤ iterations
  | .enter i | .load i | .store i _ | .leave i => i < iterations
  | _ => True

theorem Pc.Within.written_le (h : pc.Within iterations) : pc.written iterations ≤ iterations := by
  cases pc <;> simp only [Pc.Within, Pc.written] at h ⊢ <;> omega

/-- What holds in all runs, whatever the threads wait for at their start. -/
structure Inv (c : Section) (iterations : ℕ) (s : State n) : Prop where
  main : MainInv s.main s.thread
  locked : Locked c s
  within : ∀ t, (s.thread t).Within iterations
  -- what has been read is still there
  fresh : ∀ t i reg, s.thread t = .store i reg → reg = s.count
  count : s.count = total (Pc.written iterations) s.thread

theorem initial_inv (hc : c ≠ .unprotected) : Inv c iterations (initial n) where
  main := initial_mainInv
  locked := by
    cases c with
    | unprotected => exact hc rfl
    | mutex => exact fun t => by simp [initial, Pc.inside]
    | semaphore => simp [Locked, initial, Pc.inside, total]
  within _ := trivial
  fresh _ _ _ h := by cases h
  count := by simp [initial, Pc.written, total]

theorem Inv.within_of (h : Inv c iterations s) (hpc : s.thread t = pc) : pc.Within iterations :=
  hpc ▸ h.within t

/-- A thread goes on without a change of `count`. -/
theorem Inv.move (h : Inv c iterations s) (hlocked : Locked c (s₁.goto t pc))
    (hmain : MainInv s₁.main (s₁.goto t pc).thread) (hthread : s₁.thread = s.thread)
    (hcount : s₁.count = s.count) (hwithin : pc.Within iterations)
    (hfresh : ∀ i reg, pc = .store i reg → reg = s.count)
    (hwritten : pc.written iterations = (s.thread t).written iterations) :
    Inv c iterations (s₁.goto t pc) := by
  refine ⟨hmain, hlocked, fun u => ?_, fun u i reg hu => ?_, ?_⟩
  · by_cases hut : u = t
    · rwa [hut, goto_thread_self]
    · rw [goto_thread_of_ne _ _ hut, hthread]
      exact h.within u
  · by_cases hut : u = t
    · rw [hut, goto_thread_self] at hu
      exact (hfresh i reg hu).trans hcount.symm
    · rw [goto_thread_of_ne _ _ hut, hthread] at hu
      exact (h.fresh u i reg hu).trans hcount.symm
  · have hupdate := Threads.total_update (Pc.written iterations) s.thread t pc
    have htotal : total (Pc.written iterations) (s₁.goto t pc).thread =
        total (Pc.written iterations) s.thread := by
      rw [goto_thread, hthread]
      omega
    rw [htotal]
    exact hcount.trans h.count

/-- A thread goes on, and neither enters nor leaves the section. -/
theorem Inv.stay (h : Inv c iterations s) (hin : pc.inside = (s.thread t).inside)
    (hpc : s.thread t ≠ .notCreated ∧ s.thread t ≠ .ended) (hpc' : pc ≠ .notCreated)
    (hwithin : pc.Within iterations) (hfresh : ∀ i reg, pc = .store i reg → reg = s.count)
    (hwritten : pc.written iterations = (s.thread t).written iterations) :
    Inv c iterations (s.goto t pc) :=
  h.move (h.locked.stay hin) (h.main.goto hpc.1 (absurd · hpc.2) hpc') rfl rfl hwithin hfresh
    hwritten

/-- A step of `main` that no thread notices. -/
theorem Inv.of_main (h : Inv c iterations s) {main : MainPc} (hmain : MainInv main s.thread) :
    Inv c iterations { s with main := main } :=
  ⟨hmain, h.locked.of_eq rfl rfl rfl, h.within, h.fresh, h.count⟩

/-- The barrier is of no account for the increments. -/
theorem Inv.of_barrier (h : Inv c iterations s) (b : Barrier (Fin n)) :
    Inv c iterations { s with barrier := b } :=
  ⟨h.main, h.locked.of_eq rfl rfl rfl, h.within, h.fresh, h.count⟩

/-- The step in which the increment is done. -/
theorem Inv.store {i : ℕ} {reg : ℤ} (h : Inv c iterations s) (hpc : s.thread t = .store i reg) :
    Inv c iterations { s.goto t (.leave i) with count := reg + 1 } := by
  have hlocked : Locked c (s.goto t (.leave i)) :=
    h.locked.stay (by simp [hpc, Pc.inside])
  refine ⟨h.main.goto (by simp [hpc]) (by simp [hpc]) (by simp), hlocked.of_eq rfl rfl rfl,
    fun u => ?_, fun u j reg' hu => ?_, ?_⟩
  -- a store keeps the bound of its round
  · by_cases hut : u = t
    · have hwithin := h.within t
      rw [hpc] at hwithin
      rw [hut, show _ = Pc.leave i from goto_thread_self ..]
      exact hwithin
    · rw [show _ = s.thread u from goto_thread_of_ne _ _ hut]
      exact h.within u
  · -- no other thread is inside
    by_cases hut : u = t
    · rw [hut, show _ = Pc.leave i from goto_thread_self ..] at hu
      cases hu
    · rw [show _ = s.thread u from goto_thread_of_ne _ _ hut] at hu
      exact absurd (h.locked.eq (by simp [hu, Pc.inside]) (by simp [hpc, Pc.inside])) hut
  -- one more update is written, and `count` has been one larger than the register
  · have hupdate := Threads.total_update (Pc.written iterations) s.thread t (.leave i)
    rw [hpc] at hupdate
    simp only [Pc.written] at hupdate
    have htotal : total (Pc.written iterations) (s.goto t (.leave i)).thread =
        total (Pc.written iterations) s.thread + 1 := by
      rw [goto_thread]
      omega
    rw [show total _ _ = _ from htotal, h.fresh t i reg hpc, h.count, Nat.cast_succ]

/-- What every step keeps. -/
theorem Inv.step (h : Inv p.critical iterations s)
    (hs : (machine n p iterations).step s a = some (e, s')) : Inv p.critical iterations s' := by
  have hmain := h.main
  cases step_cases hs with
  | @create k hpc hlt =>
    rw [hpc] at hmain
    -- a thread that is created is not inside
    have hthread := hmain.2 ⟨_, hlt⟩ (le_refl _)
    have hlocked : Locked p.critical (s.goto ⟨_, hlt⟩ .start) :=
      h.locked.stay (by simp [hthread, Pc.inside])
    have hmain' := hmain.create (l := .start) hlt (by simp)
    have hlocked' : Locked p.critical (State.goto { s with main := .create (k + 1) } ⟨k, hlt⟩
        .start) := hlocked.of_eq rfl rfl rfl
    exact h.move hlocked' hmain' rfl rfl trivial (by simp) (by simp [hthread, Pc.written])
  | created hpc hlt =>
    rw [hpc] at hmain
    exact h.of_main (hmain.created hlt)
  | join hpc hlt hended =>
    rw [hpc] at hmain
    exact h.of_main (hmain.join hlt hended)
  | joined hpc hlt =>
    rw [hpc] at hmain
    exact h.of_main (hmain.joined hlt)
  -- after the joins `main` touches nothing that the threads use
  | check | createFails | joinFails => exact h.of_main trivial
  | @skip t _ hpc =>
    exact h.stay (by simp [hpc, Pc.inside]) (by simp [hpc]) (by simp) (Nat.zero_le _) (by simp)
      (by simp [hpc, Pc.written])
  -- the barrier is no part of this invariant
  | @arrive t _ b hpc =>
    have hstay : Inv p.critical iterations (s.goto t .waiting) :=
      h.stay (by simp [hpc, Pc.inside]) (by simp [hpc]) (by simp) trivial (by simp)
        (by simp [hpc, Pc.written])
    exact hstay.of_barrier b
  | @depart t _ r b hpc =>
    have hstay : Inv p.critical iterations (s.goto t (if r then .announce else .loop 0)) := by
      refine h.stay ?_ (by simp [hpc]) ?_ ?_ ?_ ?_ <;> cases r <;>
        simp [hpc, Pc.inside, Pc.Within, Pc.written]
    exact hstay.of_barrier b
  | @announce t _ hpc =>
    exact h.stay (by simp [hpc, Pc.inside]) (by simp [hpc]) (by simp) (Nat.zero_le _) (by simp)
      (by simp [hpc, Pc.written])
  | @again t _ i hpc hlt =>
    exact h.stay (by simp [hpc, Pc.inside]) (by simp [hpc]) (by simp) hlt (by simp)
      (by simp [hpc, Pc.written])
  -- the loop ends with all its updates written
  | @finish t _ i hpc hlt =>
    have hwithin : i ≤ iterations := h.within_of hpc
    refine h.stay (by simp [hpc, Pc.inside]) (by simp [hpc]) (by simp) trivial (by simp) ?_
    simp only [hpc, Pc.written]
    omega
  -- the lock is taken
  | @enter t _ i s₁ hpc hentry =>
    have hwithin : i < iterations := h.within_of hpc
    obtain ⟨hthread, hcount, hmain', -⟩ := entry_frame hentry
    refine h.move (h.locked.enter hentry (by simp [hpc, Pc.inside]) rfl) ?_ hthread hcount hwithin
      (by simp) (by simp [hpc, Pc.written])
    rw [goto_thread, hthread, hmain']
    exact hmain.goto (by simp [hpc]) (by simp [hpc]) (by simp)
  -- what is read is the value of `count`, and no other thread is inside to change it
  | @load t _ i hpc =>
    have hwithin : i < iterations := h.within_of hpc
    refine h.stay (by simp [hpc, Pc.inside]) (by simp [hpc]) (by simp) hwithin ?_
      (by simp [hpc, Pc.written])
    rintro i reg ⟨⟩
    rfl
  | store hpc => exact h.store hpc
  -- the lock is given back
  | @leave t _ i hpc =>
    have hwithin : i < iterations := h.within_of hpc
    obtain ⟨hthread, hcount, hmain', -⟩ := exit_frame p.critical t s
    refine h.move (h.locked.exit (by simp [hpc, Pc.inside]) rfl) ?_ hthread hcount hwithin
      (by simp) (by simp [hpc, Pc.written])
    rw [goto_thread, hthread, hmain']
    exact hmain.goto (by simp [hpc]) (by simp [hpc]) (by simp)

/-- With all increments done, the number is the right one. -/
theorem Inv.count_of_ended (h : Inv c iterations s) (hended : ∀ t, s.thread t = .ended) :
    s.count = n * iterations := by
  have htotal : total (Pc.written iterations) s.thread = Fintype.card (Fin n) * iterations :=
    Threads.total_const fun t => by rw [hended t]; rfl
  rw [Fintype.card_fin] at htotal
  rw [h.count, htotal, Nat.cast_mul]

/-- An increment that is still to do is not the last one too many. -/
theorem Inv.count_lt (h : Inv c iterations s)
    (hlt : (s.thread t).written iterations < iterations) : s.count < n * iterations := by
  have hupdate := Threads.total_update (Pc.written iterations) s.thread t .ended
  have hle : total (Pc.written iterations) (Function.update s.thread t .ended) ≤
      n * iterations := by
    have hsum := Finset.sum_le_card_nsmul Finset.univ
      (fun u => Pc.written iterations (Function.update s.thread t .ended u)) iterations
      fun u _ => by
        by_cases hut : u = t
        · rw [hut, Function.update_self]
          exact le_refl _
        · rw [Function.update_of_ne hut]
          exact (h.within u).written_le
    rwa [Finset.card_univ, Fintype.card_fin, smul_eq_mul] at hsum
  have hended : Pc.written iterations .ended = iterations := rfl
  rw [h.count]
  exact_mod_cast (by omega : total (Pc.written iterations) s.thread < n * iterations)

/-- One thread at a time is between the entry and the exit section, which is free when `main` has
    joined all threads, and what `main` reports is the number of all increments. -/
theorem report_of_protected (hp : p.critical ≠ .unprotected)
    (h : (machine n p iterations).Run (initial n) tr s) :
    (∀ t u, (s.thread t).inside = true → (s.thread u).inside = true → t = u) ∧
      (s.main = .check → ∀ t, entry p.critical t s ≠ none) ∧
      ∀ x ∈ tr, (∀ count expected, x ≠ .boom count expected) ∧
        ∀ count, x = .ok count → count = n * iterations := by
  have hstep : ∀ s a e s', Inv p.critical iterations s →
      (machine n p iterations).step s a = some (e, s') → Inv p.critical iterations s' :=
    fun _ _ _ _ hI hs => hI.step hs
  -- the invariant holds in the last state, and in all states before it
  have hinv := h.invariant hstep (initial_inv hp)
  refine ⟨fun t u => hinv.locked.eq, fun hpc t => ?_, ?_⟩
  -- after the joins nobody is inside, so that the section is free
  · have hmain := hinv.main
    rw [hpc] at hmain
    obtain ⟨s₁, hs₁⟩ := hinv.locked.exists_entry (fun u => by rw [hmain.2 u]; rfl) t
    rw [hs₁]
    simp
  · refine h.forall_events (I := Inv p.critical iterations) ?_ (initial_inv hp)
    intro s a e s' hI hs
    refine ⟨hI.step hs, fun x hx => ?_⟩
    cases step_cases hs with
    -- the only report comes after all updates
    | check hpc =>
      have hmain := hI.main
      rw [hpc] at hmain
      rw [Option.toList_some, List.mem_singleton, hI.count_of_ended hmain.2] at hx
      simp [hx, report]
    | createFails | joinFails | announce => simp_all
    | _ => simp at hx

/-- A run with two threads, one increment each. -/
theorem report_of_protected_2_1 : ∃ s, (machine 2 thread_add_sem 1).Run (initial 2) [.ok 2] s ∧
    s.main = .returned 0 ∧ ∀ x ∈ [Event.ok 2], (∀ count expected, x ≠ .boom count expected) ∧
      ∀ count, x = .ok count → count = (2 : ℕ) * (1 : ℕ) := by
  have hrun := Machine.Run.of_exec (M := machine 2 thread_add_sem 1) (s := initial 2)
    [.main, .main, .main, .thread 0 0, .thread 1 0, .thread 0 0, .thread 1 0, .thread 1 0,
      .thread 1 0, .thread 1 0, .thread 1 0, .thread 0 0, .thread 0 0, .thread 0 0, .thread 0 0,
      .thread 0 0, .main, .thread 1 0, .main, .main, .main] rfl
  exact ⟨_, hrun, rfl, (report_of_protected (by decide) hrun).2.2⟩

/-! ## The barrier -/

/-- Where a thread is with regard to the barrier. -/
def Pc.place : Pc → Barrier.Place
  | .notCreated | .start => .before
  | .waiting => .inside
  | _ => .after

theorem Pc.place_eq_inside : pc.place = .inside ↔ pc = .waiting := by
  cases pc <;> simp [Pc.place]

theorem Pc.place_eq_before : pc.place = .before ↔ pc = .notCreated ∨ pc = .start := by
  cases pc <;> simp [Pc.place]

theorem Pc.place_of_written (h : pc.written iterations ≠ 0) : pc.place = .after := by
  cases pc <;> simp [Pc.place, Pc.written] at h ⊢

/-- Whether a thread is about to print the line. -/
def Pc.announces (pc : Pc) : Bool := pc = .announce

/-- The threads start at the barrier, and the line has been printed `k` times, or there is no
    barrier. -/
structure Started (p : Program) (s : State n) (k : ℕ) : Prop where
  passing : p.barrier = true → Barrier.Passing Pc.place Pc.announces s.barrier s.thread k
  waiting : p.barrier = false → ∀ t, s.thread t ≠ .waiting

theorem initial_started (hn : 0 < n) : Started p (initial n) 0 := by
  have : Nonempty (Fin n) := ⟨⟨0, hn⟩⟩
  exact ⟨fun _ => Barrier.passing_init fun _ => ⟨rfl, rfl⟩, fun _ t ht => by cases ht⟩

/-- A thread goes on, and the barrier does not notice. -/
theorem Started.move {k k' : ℕ} (h : Started p s k) (hthread : s₁.thread = s.thread)
    (hbarrier : s₁.barrier = s.barrier) (hplace : pc.place = (s.thread t).place)
    (hk : pc.announces.toNat + k' = (s.thread t).announces.toNat + k) :
    Started p (s₁.goto t pc) k' := by
  refine ⟨fun hb => ?_, fun hb u => ?_⟩
  · rw [goto_thread, hthread, show (s₁.goto t pc).barrier = s.barrier from hbarrier]
    exact (h.passing hb).stay hplace hk
  · by_cases hut : u = t
    · rw [hut, goto_thread_self]
      rintro rfl
      exact h.waiting hb t (Pc.place_eq_inside.mp hplace.symm)
    · rw [goto_thread_of_ne _ _ hut, hthread]
      exact h.waiting hb u

/-- Only with a barrier a thread waits at it. -/
theorem Started.barrier_of_waiting {k : ℕ} (h : Started p s k) (hpc : s.thread t = .waiting) :
    p.barrier = true := by
  by_contra hb
  exact h.waiting (Bool.eq_false_of_not_eq_true hb) t hpc

/-- A thread comes to the barrier. -/
theorem Started.arrive {k : ℕ} {one : Fin n} {b : Barrier (Fin n)} (h : Started p s k)
    (hb : p.barrier = true) (hpc : s.thread t = .start)
    (harrive : s.barrier.arrive n t one = some b) :
    Started p { s.goto t .waiting with barrier := b } k := by
  have harrive' : s.barrier.arrive (Fintype.card (Fin n)) t one = some b := by
    rwa [Fintype.card_fin]
  exact ⟨fun _ => (h.passing hb).arrive (by rw [hpc]; rfl) rfl (by rw [hpc]; rfl) harrive',
    fun hb' => by simp [hb] at hb'⟩

/-- A thread leaves the barrier. -/
theorem Started.depart {k : ℕ} {r : Bool} {b : Barrier (Fin n)} (h : Started p s k)
    (hpc : s.thread t = .waiting) (hleave : s.barrier.leave t = some (r, b)) :
    Started p { s.goto t (if r then .announce else .loop 0) with barrier := b } k := by
  have hb := h.barrier_of_waiting hpc
  refine ⟨fun _ => (h.passing hb).leave hleave ?_ (by rw [hpc]; rfl) ?_,
    fun hb' => by simp [hb] at hb'⟩
  · cases r <;> rfl
  · cases r <;> rfl

/-- What every step keeps of the start. -/
theorem Started.step {k : ℕ} (h : Started p s k) (hmain : MainInv s.main s.thread)
    (hs : (machine n p iterations).step s a = some (e, s')) :
    Started p s' (k + e.toList.count .synchronized) := by
  cases step_cases hs with
  | create hpc hlt =>
    rw [hpc] at hmain
    have hthread := hmain.2 ⟨_, hlt⟩ (le_refl _)
    have hmove : Started p (s.goto ⟨_, hlt⟩ .start) k :=
      h.move rfl rfl (by rw [hthread]; rfl) (by rw [hthread]; rfl)
    exact ⟨hmove.passing, hmove.waiting⟩
  | created | join | joined => exact ⟨h.passing, h.waiting⟩
  | check =>
    have hzero : (some (report n iterations s.count)).toList.count .synchronized = 0 := by
      unfold report
      split <;> rfl
    rw [hzero]
    exact ⟨h.passing, h.waiting⟩
  | createFails | joinFails => exact ⟨h.passing, h.waiting⟩
  | arrive hpc hb harrive => exact h.arrive hb hpc harrive
  | depart hpc hleave => exact h.depart hpc hleave
  | announce hpc => exact h.move rfl rfl (by rw [hpc]; rfl) (by simp [hpc, Pc.announces]; omega)
  | @skip t _ hpc hb =>
    -- there is no barrier
    refine ⟨fun hb' => by simp [hb] at hb', fun _ u => ?_⟩
    by_cases hut : u = t
    · rw [hut, goto_thread_self]
      simp
    · rw [goto_thread_of_ne _ _ hut]
      exact h.waiting hb u
  | enter hpc hentry =>
    obtain ⟨hthread, -, -, hbarrier⟩ := entry_frame hentry
    exact h.move hthread hbarrier (by rw [hpc]; rfl) (by rw [hpc]; rfl)
  | leave hpc =>
    obtain ⟨hthread, -, -, hbarrier⟩ := exit_frame p.critical _ s
    exact h.move hthread hbarrier (by rw [hpc]; rfl) (by rw [hpc]; rfl)
  | @store t _ i _ hpc =>
    have hmove : Started p (s.goto t (.leave i)) k :=
      h.move rfl rfl (by rw [hpc]; rfl) (by rw [hpc]; rfl)
    exact ⟨hmove.passing, hmove.waiting⟩
  | again hpc | finish hpc | load hpc =>
    exact h.move rfl rfl (by rw [hpc]; rfl) (by rw [hpc]; rfl)

/-- A thread passes the barrier when all threads have come to it, and before that nothing is
    counted; the line is printed by one of them. -/
theorem barrier_run (hn : 0 < n)
    (h : (machine n thread_add_barrier_mutex iterations).Run (initial n) tr s) :
    ((∃ t, (s.thread t).place = .after) ∨ .synchronized ∈ tr ∨ s.count ≠ 0 →
      ∀ u, (s.thread u).place ≠ .before) ∧
    tr.count .synchronized ≤ 1 ∧ ((∀ t, s.thread t = .ended) → tr.count .synchronized = 1) := by
  have hI := h.trace_invariant (I := fun tr s => Inv .mutex iterations s ∧
    Started thread_add_barrier_mutex s (tr.count .synchronized)) ?_
    ⟨initial_inv (by simp), initial_started hn⟩
  · obtain ⟨hinv, hstarted⟩ := hI
    -- the state of the round says who has arrived, and who may have been told
    have hround := hstarted.passing rfl
    have htold := Barrier.Round.told hround
    refine ⟨?_, le_of_add_le_right htold.1, fun hended => ?_⟩
    -- a thread behind the barrier, its line, or a count: all of them need the barrier passed
    · rintro (⟨t, ht⟩ | hmem | hcount) u hu
      · exact Barrier.Round.all_arrived hround ht u hu
      · have hpos := List.count_pos_iff.mpr hmem
        exact Barrier.Round.all_arrived_of_told hround (Nat.add_pos_right _ hpos) u hu
      · obtain ⟨t, ht⟩ : ∃ t, (s.thread t).written iterations ≠ 0 := by
          by_contra hnone
          simp only [not_exists, not_not] at hnone
          rw [hinv.count, Threads.total_eq_zero.mpr hnone] at hcount
          exact hcount rfl
        exact Barrier.Round.all_arrived hround (Pc.place_of_written ht) u hu
    -- the line is owed to one thread, and no thread still has to print it
    · have hnone : total (fun pc => pc.announces.toNat) s.thread = 0 :=
        Threads.total_eq_zero.mpr fun t => by rw [hended t]; rfl
      have hone := htold.2 fun t => by rw [Function.comp_apply, hended t]; rfl
      rwa [hnone, Nat.zero_add] at hone
  · rintro tr s a e s' ⟨hinv, hstarted⟩ hs
    rw [List.count_append]
    exact ⟨hinv.step hs, hstarted.step hinv.main hs⟩

/-- A run with two threads, one increment each. -/
theorem barrier_run_2_1 : ∃ tr s, (machine 2 thread_add_barrier_mutex 1).Run (initial 2) tr s ∧
    s.main = .returned 0 ∧ tr.count .synchronized ≤ 1 := by
  have hrun := Machine.Run.of_exec (M := machine 2 thread_add_barrier_mutex 1) (s := initial 2)
    [.main, .main, .main, .thread 0 0, .thread 1 0, .thread 0 0, .thread 1 0, .thread 0 0,
      .thread 0 0, .thread 0 0, .thread 0 0, .thread 0 0, .thread 0 0, .thread 0 0, .thread 1 0,
      .thread 1 0, .thread 1 0, .thread 1 0, .thread 1 0, .thread 1 0, .main, .main, .main,
      .main] rfl
  exact ⟨_, _, hrun, rfl, (barrier_run (by decide) hrun).2.1⟩

/-! ## The end -/

/-- The number of steps that a thread has still to take, at most. -/
def Pc.rest (iterations : ℕ) : Pc → ℕ
  | .notCreated => 5 * iterations + 5
  | .start => 5 * iterations + 4
  | .waiting => 5 * iterations + 3
  | .announce => 5 * iterations + 2
  | .loop i => 5 * (iterations - i) + 1
  | .enter i => 5 * (iterations - i)
  | .load i => 5 * (iterations - i) - 1
  | .store i _ => 5 * (iterations - i) - 2
  | .leave i => 5 * (iterations - i) - 3
  | .ended => 0

/-- The number of steps to the end, at most. -/
def rest (iterations : ℕ) (s : State n) : ℕ :=
  s.main.stage.rest n + total (Pc.rest iterations) s.thread

theorem rest_goto (s₁ : State n) (hthread : s₁.thread = s.thread)
    (hmain : s₁.main.stage.rest n ≤ s.main.stage.rest n)
    (hlt : pc.rest iterations < (s.thread t).rest iterations) :
    rest iterations (s₁.goto t pc) < rest iterations s := by
  have hupdate := Threads.total_update (Pc.rest iterations) s.thread t pc
  show s₁.main.stage.rest n + total (Pc.rest iterations) (s₁.goto t pc).thread < _
  rw [goto_thread, hthread, rest]
  omega

/-- Every step is one step less to the end. -/
theorem rest_step (h : Inv p.critical iterations s)
    (hs : (machine n p iterations).step s a = some (e, s')) :
    rest iterations s' < rest iterations s := by
  -- a step of `main` alone makes the share of `main` smaller
  have hmain : ∀ main : MainPc, main.stage.rest n < s.main.stage.rest n →
      rest iterations { s with main := main } < rest iterations s :=
    fun main hlt => Nat.add_lt_add_right hlt _
  cases step_cases hs with
  | @create k hpc hlt =>
    have hinvMain := h.main
    rw [hpc] at hinvMain
    have hrest : (MainPc.create (k + 1)).stage.rest n ≤ s.main.stage.rest n := by
      rw [hpc]
      exact (Stage.rest_create hlt).le
    refine rest_goto { s with main := .create (k + 1) } rfl hrest ?_
    simp [hinvMain.2 ⟨_, hlt⟩ (le_refl _), Pc.rest]
  -- the steps of `main`
  | created hpc => exact hmain _ (by rw [hpc]; exact Stage.rest_created)
  | join hpc hlt => exact hmain _ (by rw [hpc]; exact Stage.rest_join hlt)
  | joined hpc => exact hmain _ (by rw [hpc]; exact Stage.rest_joined)
  | check hpc | createFails hpc | joinFails hpc =>
    exact hmain _ (by rw [hpc]; exact Stage.rest_elsewhere (by simp [MainPc.stage]))
  -- the steps of a thread: each makes the share of the thread smaller, and leaves the others
  | @depart t _ r b hpc =>
    refine rest_goto { s with barrier := b } rfl (le_refl _) ?_
    cases r <;> simp [hpc, Pc.rest]
  | @arrive t _ b hpc =>
    exact rest_goto { s with barrier := b } rfl (le_refl _) (by simp [hpc, Pc.rest])
  | @store t _ i reg hpc =>
    have hwithin : i < iterations := h.within_of hpc
    refine rest_goto { s with count := reg + 1 } rfl (le_refl _) ?_
    simp only [hpc, Pc.rest]
    omega
  | @enter t _ i _ hpc hentry =>
    have hwithin : i < iterations := h.within_of hpc
    obtain ⟨hthread, -, hmain', -⟩ := entry_frame hentry
    refine rest_goto _ hthread (by rw [hmain']) ?_
    simp only [hpc, Pc.rest]
    omega
  | @leave t _ i hpc =>
    have hwithin : i < iterations := h.within_of hpc
    obtain ⟨hthread, -, hmain', -⟩ := exit_frame p.critical t s
    refine rest_goto _ hthread (by rw [hmain']) ?_
    simp only [hpc, Pc.rest]
    omega
  | @load t _ i hpc =>
    have hwithin : i < iterations := h.within_of hpc
    refine rest_goto s rfl (le_refl _) ?_
    simp only [hpc, Pc.rest]
    omega
  | skip hpc | announce hpc | again hpc | finish hpc =>
    refine rest_goto s rfl (le_refl _) ?_
    simp only [hpc, Pc.rest]
    omega

/-- A thread that has been created can go on, up to the barrier. -/
theorem exists_start_step (hpc : s.thread t = .start) :
    (threadAdd p iterations t t s).isSome := by
  by_cases hb : p.barrier = true
  · obtain ⟨b, hb'⟩ := Barrier.exists_arrive n t s.barrier
    simp [threadAdd, hpc, hb, hb']
  · simp [threadAdd, hpc, hb]

/-- A thread waits at the barrier for one that has not come yet, or can go on. -/
theorem exists_waiting_step {k : ℕ} (hstarted : Started p s k)
    (hcreated : ∀ u, s.thread u ≠ .notCreated) (hpc : s.thread t = .waiting) :
    ∃ u, (threadAdd p iterations u u s).isSome := by
  have hb := hstarted.barrier_of_waiting hpc
  by_cases hall : ∀ u, (s.thread u).place ≠ .before
  · obtain ⟨r, b, hleave⟩ :=
      Barrier.Round.exists_leave (hstarted.passing hb) hall (Pc.place_eq_inside.mpr hpc)
    exact ⟨t, by simp [threadAdd, hpc, hleave]⟩
  · simp only [not_forall, not_not] at hall
    obtain ⟨u, hu⟩ := hall
    exact ⟨u, exists_start_step ((Pc.place_eq_before.mp hu).resolve_left (hcreated u))⟩

/-- A thread between the entry and the exit section can go on. -/
theorem exists_inside_step (h : Inv p.critical iterations s) (hmax : n * iterations ≤ INT_MAX)
    (hin : (s.thread t).inside = true) : (threadAdd p iterations t t s).isSome := by
  cases hpc : s.thread t with
  | load i => simp [threadAdd, hpc]
  | store i reg =>
    have hlt := h.count_lt (t := t) (by rw [hpc]; exact h.within_of hpc)
    have hreg := h.fresh t i reg hpc
    simp [threadAdd, hpc, show reg + 1 ≤ INT_MAX by omega]
  | leave i => simp [threadAdd, hpc]
  | _ => simp [hpc, Pc.inside] at hin

/-- When all threads have been created, one that has not ended can go on, or another one can. -/
theorem exists_thread_step {k : ℕ} (h : Inv p.critical iterations s) (hstarted : Started p s k)
    (hmax : n * iterations ≤ INT_MAX) (hcreated : ∀ u, s.thread u ≠ .notCreated)
    (ht : s.thread t ≠ .ended) : ∃ u, (threadAdd p iterations u u s).isSome := by
  by_cases hin : ∃ u, (s.thread u).inside = true
  · obtain ⟨u, hu⟩ := hin
    exact ⟨u, exists_inside_step h hmax hu⟩
  simp only [not_exists, Bool.not_eq_true] at hin
  cases hpc : s.thread t with
  | notCreated => exact absurd hpc (hcreated t)
  | start => exact ⟨t, exists_start_step hpc⟩
  | waiting => exact exists_waiting_step hstarted hcreated hpc
  | announce => exact ⟨t, by simp [threadAdd, hpc]⟩
  | loop i => exact ⟨t, by simp [threadAdd, hpc]⟩
  | enter i =>
    obtain ⟨s₁, hs₁⟩ := h.locked.exists_entry hin t
    exact ⟨t, by simp [threadAdd, hpc, hs₁]⟩
  | load i | store i reg | leave i =>
    have hout := hin t
    rw [hpc] at hout
    cases hout
  | ended => exact absurd hpc ht

/-- A step of another thread leaves `main` where it is. -/
theorem main_of_thread {t one : Fin n} (hs : Step p iterations s (.thread t one) e s') :
    s'.main = s.main := by
  cases hs with
  | enter _ hentry =>
    obtain ⟨-, -, hmain, -⟩ := entry_frame hentry
    exact hmain
  | leave =>
    obtain ⟨-, -, hmain, -⟩ := exit_frame p.critical t s
    exact hmain
  | _ => rfl

/-- In a run in which `main` has returned zero it has reported the right number. -/
theorem ok_of_returned (hp : p.critical ≠ .unprotected)
    (h : (machine n p iterations).Run (initial n) tr s) (hreturned : s.main = .returned 0) :
    .ok (n * iterations) ∈ tr := by
  have hinv : Inv p.critical iterations s ∧ (s.main = .returned 0 → .ok (n * iterations) ∈ tr) := by
    refine h.trace_invariant (I := fun tr s => Inv p.critical iterations s ∧
      (s.main = .returned 0 → .ok (n * iterations) ∈ tr)) ?_ ⟨initial_inv hp, nofun⟩
    rintro tr s a e s' ⟨hI, hok⟩ hs
    refine ⟨hI.step hs, fun hpc' => ?_⟩
    have hstep := step_cases hs
    cases a with
    | thread t one =>
      rw [main_of_thread hstep] at hpc'
      exact List.mem_append_left _ (hok hpc')
    | mainFails => cases hstep <;> simp at hpc'
    | main =>
      cases hstep with
      | check hpc =>
        -- all threads have ended, so that the number is the right one
        have hmain := hI.main
        rw [hpc] at hmain
        simp [report, hI.count_of_ended hmain.2]
      | create | created | join | joined => simp at hpc'
  exact hinv.2 hreturned

/-- Where no call of `main` fails, every run comes to its end, and `main` returns zero.  Before it
    returns zero, it reports the right number. -/
theorem inevitable_ok (hp : p.critical ≠ .unprotected) (hn : 0 < n)
    (hmax : n * iterations ≤ INT_MAX) :
    (machine n p iterations).Inevitable (fun _ a => a ≠ .mainFails)
        (fun s => s.main = .returned 0) (initial n) ∧
      ∀ tr s, (machine n p iterations).Run (initial n) tr s → s.main = .returned 0 →
        .ok (n * iterations) ∈ tr := by
  refine ⟨?_, fun tr s hrun hreturned => ok_of_returned hp hrun hreturned⟩
  refine Machine.Inevitable.of_measure (rest iterations)
    (I := fun s => Inv p.critical iterations s ∧ (∃ k, Started p s k) ∧
      ∀ code, s.main = .returned code → code = 0) ?_ ?_
    ⟨initial_inv hp, ⟨0, initial_started hn⟩, by simp [initial]⟩
  · rintro s ⟨hinv, ⟨k, hstarted⟩, hcode⟩ hend
    have hmain := hinv.main
    -- where `main` can go on, it does
    have hgo : (mainStep iterations s).isSome →
        ∃ a r, a ≠ .mainFails ∧ (machine n p iterations).step s a = some r := fun h => by
      obtain ⟨r, hr⟩ := Option.isSome_iff_exists.mp h
      exact ⟨.main, r, by simp, hr⟩
    cases hpc : s.main with
    | create t =>
      by_cases ht : t < n <;> exact hgo (by simp [mainStep, hpc, ht])
    | join t =>
      rw [hpc] at hmain
      -- `main` waits for a thread that has not ended, and then some thread can go on
      by_cases ht : t < n
      · by_cases hended : s.thread ⟨t, ht⟩ = .ended
        · exact hgo (by simp [mainStep, hpc, ht, hended])
        · obtain ⟨u, hu⟩ := exists_thread_step hinv hstarted hmax hmain.1 hended
          obtain ⟨r, hr⟩ := Option.isSome_iff_exists.mp hu
          exact ⟨.thread u u, r, by simp, hr⟩
      · exact hgo (by simp [mainStep, hpc, ht])
    | check => exact hgo (by simp [mainStep, hpc])
    | returned code =>
      rw [hcode code hpc] at hpc
      exact absurd hpc hend
  · rintro s a e s' ⟨hinv, ⟨k, hstarted⟩, hcode⟩ hend hok hs
    -- the invariants stay, and `main` returns zero because the count is right
    refine ⟨⟨hinv.step hs, ⟨_, hstarted.step hinv.main hs⟩, ?_⟩, rest_step hinv hs⟩
    have hstep := step_cases hs
    cases a with
    | thread t one =>
      rw [main_of_thread hstep]
      exact hcode
    | mainFails => exact absurd rfl hok
    | main =>
      cases hstep with
      | create | created | join | joined => simp
      | check hpc =>
        have hmain := hinv.main
        rw [hpc] at hmain
        simp [hinv.count_of_ended hmain.2]

/-- The numbers of the sources. -/
theorem inevitable_ok_2_1000000 :
    (machine 2 thread_add_barrier_mutex 1000000).Inevitable (fun _ a => a ≠ .mainFails)
        (fun s => s.main = .returned 0) (initial 2) ∧
      ∀ tr s, (machine 2 thread_add_barrier_mutex 1000000).Run (initial 2) tr s →
        s.main = .returned 0 → .ok ((2 : ℕ) * (1000000 : ℕ)) ∈ tr :=
  inevitable_ok (p := thread_add_barrier_mutex) (by decide) (by decide) (by decide)

end ThreadAdd
