import OsSamples.Lib.Threads

/-!
# Barriers

A barrier lets the threads that have come to it go on when all of them have come, and tells one of
them that it is the one (`PTHREAD_BARRIER_SERIAL_THREAD`); which one is not said.

`Round` is what holds of a barrier that each thread passes once.

## Key results

- `Round.arrive`, `Round.leave`: what the two halves of the call keep
- `Round.all_arrived`: a thread that has left the barrier knows that all threads have come to it
- `Passing.stay`, `Passing.arrive`, `Passing.leave`: the same for the threads of a program
-/

/-- The threads that wait, and what the call is about to return to the threads that have been
    released: whether the thread is the one. -/
structure Barrier (T : Type*) where
  waiting : Finset T
  released : T → Option Bool

namespace Barrier

open Threads

/-- A barrier that no thread has come to. -/
def init (T : Type*) : Barrier T := ⟨∅, fun _ => none⟩

variable {T : Type*} [DecidableEq T] {b b' : Barrier T} {i j one : T} {n k : ℕ} {r : Bool}

/-- `pthread_barrier_wait` of the thread `i`, up to the point where it waits: the last one of `n`
    threads releases all of them, and `one` is told so. -/
def arrive (n : ℕ) (i one : T) (b : Barrier T) : Option (Barrier T) :=
  if (insert i b.waiting).card < n then some { b with waiting := insert i b.waiting }
  else if one ∈ insert i b.waiting then
    some ⟨∅, fun j => if j ∈ insert i b.waiting then some (j = one) else b.released j⟩
  else none

/-- `pthread_barrier_wait` of the thread `i` returns; `none` while it waits. -/
def leave (i : T) (b : Barrier T) : Option (Bool × Barrier T) :=
  (b.released i).map fun r => (r, { b with released := Function.update b.released i none })

theorem arrive_cases (h : b.arrive n i one = some b') :
    ((insert i b.waiting).card < n ∧ b' = { b with waiting := insert i b.waiting }) ∨
    (¬ (insert i b.waiting).card < n ∧ one ∈ insert i b.waiting ∧
      b' = ⟨∅, fun j => if j ∈ insert i b.waiting then some (j = one) else b.released j⟩) := by
  unfold arrive at h
  split at h
  · exact .inl ⟨‹_›, (Option.some.inj h).symm⟩
  · rw [Option.ite_none_right_eq_some] at h
    exact .inr ⟨‹_›, h.1, (Option.some.inj h.2).symm⟩

theorem leave_cases (h : b.leave i = some (r, b')) :
    b.released i = some r ∧ b' = { b with released := Function.update b.released i none } := by
  simp only [leave, Option.map_eq_some_iff, Prod.mk.injEq] at h
  obtain ⟨r', hr, rfl, rfl⟩ := h
  exact ⟨hr, rfl⟩

/-- A thread can always come to the barrier. -/
theorem exists_arrive (n : ℕ) (i : T) (b : Barrier T) : ∃ b', b.arrive n i i = some b' := by
  unfold arrive
  split
  · exact ⟨_, rfl⟩
  · rw [if_pos (Finset.mem_insert_self ..)]
    exact ⟨_, rfl⟩

/-! ## One round -/

/-- Where a thread is: it has not come to the barrier, is in the call, or has left it. -/
inductive Place
  | before
  | inside
  | after
  deriving DecidableEq

variable [Fintype T] {place : T → Place}

/-- The number of threads that the call is about to tell that they are the one. -/
def pending (b : Barrier T) : ℕ := total (fun r => if r = some true then 1 else 0) b.released

/-- What holds of a barrier that each thread passes once, when `k` threads have been told that they
    are the one. -/
inductive Round (b : Barrier T) (place : T → Place) : ℕ → Prop
  | gathering (before : ∃ i, place i = .before) (after : ∀ i, place i ≠ .after)
      (waiting : ∀ i, i ∈ b.waiting ↔ place i = .inside) (released : ∀ i, b.released i = none) :
      Round b place 0
  | opened {k : ℕ} (arrived : ∀ i, place i ≠ .before)
      (released : ∀ i, (b.released i).isSome ↔ place i = .inside) (told : b.pending + k = 1) :
      Round b place k

omit [DecidableEq T] in
theorem round_init [Nonempty T] : Round (init T) (fun _ => .before) 0 := by
  obtain ⟨i⟩ := ‹Nonempty T›
  exact .gathering ⟨i, rfl⟩ (by simp) (by simp [init]) fun _ => rfl

omit [DecidableEq T] in
/-- A thread that has left the barrier knows that all threads have come to it. -/
theorem Round.all_arrived (h : Round b place k) (hi : place i = .after) (j : T) :
    place j ≠ .before := by
  cases h with
  | gathering _ hafter => exact absurd hi (hafter i)
  | opened harrived => exact harrived j

omit [DecidableEq T] in
/-- The thread that has been told that it is the one knows it as well. -/
theorem Round.all_arrived_of_told (h : Round b place k) (hk : 0 < k) (j : T) :
    place j ≠ .before := by
  cases h with
  | gathering => exact absurd hk (lt_irrefl 0)
  | opened harrived => exact harrived j

omit [DecidableEq T] in
/-- At most one thread has been told that it is the one, and when all have left, one has. -/
theorem Round.told (h : Round b place k) : k ≤ 1 ∧ ((∀ i, place i = .after) → k = 1) := by
  cases h with
  | gathering hbefore =>
    refine ⟨Nat.zero_le 1, fun hall => ?_⟩
    obtain ⟨i, hi⟩ := hbefore
    rw [hall i] at hi
    cases hi
  | opened _ hreleased htold =>
    refine ⟨by omega, fun hall => ?_⟩
    have hpending : b.pending = 0 := total_eq_zero.mpr fun i => by
      have hnone : b.released i = none := by
        rw [← Option.not_isSome_iff_eq_none, hreleased, hall i]
        simp
      rw [hnone]
      rfl
    omega

/-- A thread comes to the barrier. -/
theorem Round.arrive (h : Round b place k) (hi : place i = .before)
    (hs : b.arrive (Fintype.card T) i one = some b') :
    Round b' (Function.update place i .inside) k := by
  cases h with
  | opened harrived => exact absurd hi (harrived i)
  | gathering hbefore hafter hwaiting hreleased =>
    have hmem : ∀ j, j ∈ insert i b.waiting ↔ Function.update place i .inside j = .inside := by
      intro j
      by_cases hj : j = i
      · simp [hj]
      · simp [hj, hwaiting]
    obtain ⟨hcard, rfl⟩ | ⟨hcard, hmem', rfl⟩ := arrive_cases hs
    · -- some thread has not come yet
      obtain ⟨j, hj⟩ : ∃ j, j ∉ insert i b.waiting := by
        by_contra hall
        simp only [not_exists, not_not] at hall
        rw [(Finset.eq_univ_iff_forall).mpr hall, Finset.card_univ] at hcard
        exact lt_irrefl _ hcard
      have hne : j ≠ i := fun heq => hj (heq ▸ Finset.mem_insert_self ..)
      refine .gathering ⟨j, ?_⟩ (fun x => ?_) hmem hreleased
      · rw [Function.update_of_ne hne]
        rw [hmem, Function.update_of_ne hne] at hj
        cases hplace : place j with
        | before => rfl
        | inside => exact absurd hplace hj
        | after => exact absurd hplace (hafter j)
      · by_cases hx : x = i
        · simp [hx]
        · rw [Function.update_of_ne hx]
          exact hafter x
    · have hall : ∀ j, j ∈ insert i b.waiting :=
        Finset.eq_univ_iff_forall.mp ((Finset.card_eq_iff_eq_univ _).mp
          (le_antisymm (Finset.card_le_univ _) (not_lt.mp hcard)))
      refine .opened (fun j => ?_) (fun j => ?_) ?_
      · rw [(hmem j).mp (hall j)]
        simp
      · simp [hall j, (hmem j).mp (hall j)]
      · rw [Nat.add_zero]
        refine total_eq_one one ?_ fun j hj => ?_
        · simp [hall one]
        · simp [hall j, hj]

/-- A thread leaves the barrier. -/
theorem Round.leave (h : Round b place k) (hs : b.leave i = some (r, b')) :
    Round b' (Function.update place i .after) (k + r.toNat) ∧ place i = .inside := by
  obtain ⟨hr, rfl⟩ := leave_cases hs
  cases h with
  -- nobody leaves the barrier before all have come
  | gathering _ _ _ hreleased =>
    rw [hreleased] at hr
    cases hr
  | opened harrived hreleased htold =>
    refine ⟨.opened (fun j => ?_) (fun j => ?_) ?_, (hreleased i).mp (by rw [hr]; rfl)⟩
    · by_cases hj : j = i
      · simp [hj]
      · rw [Function.update_of_ne hj]
        exact harrived j
    · by_cases hj : j = i
      · simp [hj]
      · simpa [hj] using hreleased j
    -- whoever leaves takes along what it has been told
    · have hupdate := total_update (fun r : Option Bool => if r = some true then 1 else 0)
        b.released i none
      rw [hr] at hupdate
      unfold pending at htold ⊢
      cases r <;> simp at hupdate ⊢ <;> omega

/-- When all threads have come, a thread in the call can leave it. -/
theorem Round.exists_leave (h : Round b place k) (hall : ∀ j, place j ≠ .before)
    (hi : place i = .inside) : ∃ r b', b.leave i = some (r, b') := by
  cases h with
  | gathering hbefore =>
    obtain ⟨j, hj⟩ := hbefore
    exact absurd hj (hall j)
  | opened _ hreleased =>
    obtain ⟨r, hr⟩ := Option.isSome_iff_exists.mp ((hreleased i).mpr hi)
    exact ⟨r, _, by rw [Barrier.leave, hr]; rfl⟩

/-! ## A round in a program -/

section Passing

variable {L : Type*} {placeOf : L → Place} {tells : L → Bool} {loc : T → L} {l : L} {k' : ℕ}

/-- What holds of a barrier that each thread of a program passes once: where the threads are is part
    of their own states, some are to tell that they are the one, and `k` have told it. -/
def Passing (placeOf : L → Place) (tells : L → Bool) (b : Barrier T) (loc : T → L) (k : ℕ) : Prop :=
  Round b (placeOf ∘ loc) (total (fun l => (tells l).toNat) loc + k)

omit [DecidableEq T] in
theorem passing_init [Nonempty T] (h : ∀ i, placeOf (loc i) = .before ∧ tells (loc i) = false) :
    Passing placeOf tells (init T) loc 0 := by
  have hplace : placeOf ∘ loc = fun _ => .before := funext fun i => (h i).1
  have hzero : total (fun l => (tells l).toNat) loc = 0 :=
    total_eq_zero.mpr fun i => by rw [(h i).2]; rfl
  unfold Passing
  rw [hplace, hzero]
  exact round_init

/-- A thread goes on, and the barrier does not notice. -/
theorem Passing.stay (h : Passing placeOf tells b loc k) (hplace : placeOf l = placeOf (loc i))
    (hk : (tells l).toNat + k' = (tells (loc i)).toNat + k) :
    Passing placeOf tells b (Function.update loc i l) k' := by
  have hupdate := total_update (fun l => (tells l).toNat) loc i l
  have hsame : Function.update (placeOf ∘ loc) i (placeOf l) = placeOf ∘ loc := by
    rw [hplace]
    exact Function.update_eq_self ..
  unfold Passing at h ⊢
  rw [Function.comp_update, hsame, show total (fun l => (tells l).toNat) (Function.update loc i l) +
    k' = total (fun l => (tells l).toNat) loc + k by omega]
  exact h

/-- A thread comes to the barrier. -/
theorem Passing.arrive (h : Passing placeOf tells b loc k) (hi : placeOf (loc i) = .before)
    (hl : placeOf l = .inside) (htells : tells l = tells (loc i))
    (hs : b.arrive (Fintype.card T) i one = some b') :
    Passing placeOf tells b' (Function.update loc i l) k := by
  have hupdate := total_update (fun l => (tells l).toNat) loc i l
  have hround := Round.arrive h hi hs
  rw [htells] at hupdate
  unfold Passing
  rwa [Function.comp_update, hl, show total (fun l => (tells l).toNat) (Function.update loc i l) =
    total (fun l => (tells l).toNat) loc by omega]

/-- A thread leaves the barrier, and is to tell that it is the one if it is. -/
theorem Passing.leave (h : Passing placeOf tells b loc k) (hs : b.leave i = some (r, b'))
    (hl : placeOf l = .after) (htells : tells (loc i) = false) (htells' : tells l = r) :
    Passing placeOf tells b' (Function.update loc i l) k := by
  have hupdate := total_update (fun l => (tells l).toNat) loc i l
  have hround := (Round.leave h hs).1
  rw [htells, htells', Bool.toNat_false, Nat.add_zero] at hupdate
  unfold Passing
  rwa [Function.comp_update, hl, hupdate, Nat.add_right_comm]

end Passing

end Barrier
