import OsSamples.Lib.Threads

/-!
# Updates that may get lost

Threads that add one to a shared number, each a given number of times, by a read and a later write.
What another thread has written between the two gets lost.

## Key results

- `Inv.step`: the bounds that every step keeps
- `run_some`: updates that do not get lost
- `final_iff`: the numbers that are possible at the end, from two to the number of all updates
-/

namespace LostUpdates

open Threads

/-- Where a thread is: `left` updates are to come, after the one for which it has read `value`. -/
inductive Phase
  | idle (left : ℕ)
  | loaded (value left : ℕ)
  deriving DecidableEq

/-- The number of updates that a thread has still to write. -/
def Phase.rest : Phase → ℕ
  | .idle left => left
  | .loaded _ left => left + 1

@[simp] theorem Phase.rest_idle (n : ℕ) : (Phase.idle n).rest = n := rfl

@[simp] theorem Phase.rest_loaded (v n : ℕ) : (Phase.loaded v n).rest = n + 1 := rfl

variable {T : Type*} [DecidableEq T]

/-- A thread reads the number, or writes it. -/
def step (_ : T) (_ : Unit) (value : ℕ) : Phase → Option (Option Empty × ℕ × Phase)
  | .idle 0 => none
  | .idle (left + 1) => some (none, value, .loaded value left)
  | .loaded v left => some (none, v + 1, .idle left)

/-- The threads. -/
def machine (T : Type*) [DecidableEq T] : Machine (Config T ℕ Phase) (T × Unit) Empty :=
  Threads.machine step

/-- No update has been done, of `n` by each thread. -/
def start (T : Type*) (n : ℕ) : Config T ℕ Phase := ⟨0, fun _ => .idle n⟩

variable {cfg cfg' : Config T ℕ Phase} {loc : T → Phase} {i j : T} {s v n m k : ℕ}

/-! ## What a step can do -/

/-- A step is a read or a write of one thread. -/
theorem step_cases {a : T × Unit} {e : Option Empty}
    (hs : (machine T).step cfg a = some (e, cfg')) :
    (∃ n, cfg.loc a.1 = .idle (n + 1) ∧
      cfg' = ⟨cfg.shared, Function.update cfg.loc a.1 (.loaded cfg.shared n)⟩) ∨
    ∃ v n, cfg.loc a.1 = .loaded v n ∧
      cfg' = ⟨v + 1, Function.update cfg.loc a.1 (.idle n)⟩ := by
  obtain ⟨s', l', hs', rfl⟩ := machine_step_eq_some.mp hs
  generalize hl : cfg.loc a.1 = l at hs'
  cases l with
  | idle left =>
    cases left with
    | zero => simp [step] at hs'
    | succ n =>
      simp only [step, Option.some.injEq, Prod.mk.injEq] at hs'
      obtain ⟨-, rfl, rfl⟩ := hs'
      exact .inl ⟨n, rfl, rfl⟩
  | loaded v n =>
    simp only [step, Option.some.injEq, Prod.mk.injEq] at hs'
    obtain ⟨-, rfl, rfl⟩ := hs'
    exact .inr ⟨v, n, rfl, rfl⟩

/-- A thread can read the number. -/
theorem reachable_load (h : loc i = .idle (n + 1)) :
    (machine T).Reachable ⟨s, loc⟩ ⟨s, Function.update loc i (.loaded s n)⟩ := by
  refine Machine.Reachable.step (.refl _) (a := (i, ())) (e := none) ?_
  exact machine_step_eq_some.mpr ⟨s, .loaded s n, by simp [h, step], rfl⟩

/-- A thread that has read the number can write it. -/
theorem reachable_store (h : loc i = .loaded v n) :
    (machine T).Reachable ⟨s, loc⟩ ⟨v + 1, Function.update loc i (.idle n)⟩ := by
  refine Machine.Reachable.step (.refl _) (a := (i, ())) (e := none) ?_
  exact machine_step_eq_some.mpr ⟨v + 1, .idle n, by simp [h, step], rfl⟩

/-- An update that no other thread comes in between. -/
theorem reachable_update (h : loc i = .idle (n + 1)) :
    (machine T).Reachable ⟨s, loc⟩ ⟨s + 1, Function.update loc i (.idle n)⟩ := by
  have hstore : (machine T).Reachable ⟨s, Function.update loc i (.loaded s n)⟩ _ :=
    reachable_store (Function.update_self ..)
  rw [Function.update_idem] at hstore
  exact (reachable_load h).trans hstore

/-! ## The bounds -/

section Bounds

variable [Fintype T]

/-- What holds in all runs, when each thread has `n` updates to do. -/
structure Inv (n s : ℕ) (loc : T → Phase) : Prop where
  /-- At most the updates that have been written have been counted. -/
  le : s + total Phase.rest loc ≤ Fintype.card T * n
  loadedLe : ∀ i v m, loc i = .loaded v m → v + total Phase.rest loc ≤ Fintype.card T * n
  /-- After the first write the number is positive. -/
  pos : ∀ i, (loc i).rest ≠ n → 1 ≤ s
  loadedPos : ∀ i v m, loc i = .loaded v m → m + 1 ≠ n → 1 ≤ v
  /-- A thread with all of its updates done has written two at least, and whoever has written less
      has more to do. -/
  two : 2 ≤ s ∨ ∃ i, 0 < (loc i).rest

omit [DecidableEq T] in
theorem start_inv [Nonempty T] (hn : 2 ≤ n) : Inv n 0 (start T n).loc where
  le := by simp [start, total]
  loadedLe _ _ _ h := by cases h
  pos _ h := by simp [start] at h
  loadedPos _ _ _ h := by cases h
  two := by
    obtain ⟨i⟩ := ‹Nonempty T›
    exact .inr ⟨i, by show 0 < n; omega⟩

/-- A thread reads the number. -/
theorem Inv.load (h : Inv n s loc) (hl : loc i = .idle (m + 1)) :
    Inv n s (Function.update loc i (.loaded s m)) := by
  -- a load does not change how many updates are left
  have hrest : ∀ j, (Function.update loc i (.loaded s m) j).rest = (loc j).rest := by
    intro j
    by_cases hj : j = i
    · subst hj
      simp [hl]
    · rw [Function.update_of_ne hj]
  have htotal : total Phase.rest (Function.update loc i (.loaded s m)) = total Phase.rest loc :=
    Finset.sum_congr rfl fun j _ => hrest j
  refine ⟨htotal ▸ h.le, fun j v k hj => ?_, fun j hj => ?_, fun j v k hj hk => ?_, .inr ⟨i, ?_⟩⟩
  -- the thread has loaded the value that is there
  · by_cases hji : j = i
    · subst hji
      rw [Function.update_self] at hj
      cases hj
      exact htotal ▸ h.le
    · rw [Function.update_of_ne hji] at hj
      exact htotal ▸ h.loadedLe j v k hj
  · rw [hrest] at hj
    exact h.pos j hj
  -- the value that it has loaded is positive if it has written before
  · by_cases hji : j = i
    · subst hji
      rw [Function.update_self] at hj
      cases hj
      exact h.pos j (by rw [hl]; exact hk)
    · rw [Function.update_of_ne hji] at hj
      exact h.loadedPos j v k hj hk
  · simp

/-- A thread writes one more than it has read. -/
theorem Inv.store (h : Inv n s loc) (hn : 2 ≤ n) (hl : loc i = .loaded v m) :
    Inv n (v + 1) (Function.update loc i (.idle m)) := by
  have htotal : total Phase.rest (Function.update loc i (.idle m)) + 1 = total Phase.rest loc := by
    have hsum := total_update Phase.rest loc i (.idle m)
    rw [hl] at hsum
    simp only [Phase.rest_loaded, Phase.rest_idle] at hsum
    omega
  refine ⟨?_, fun j w k hj => ?_, fun _ _ => Nat.le_add_left 1 v, fun j w k hj => ?_, ?_⟩
  · have hle := h.loadedLe i v m hl
    omega
  · by_cases hji : j = i
    · subst hji
      rw [Function.update_self] at hj
      cases hj
    · rw [Function.update_of_ne hji] at hj
      have hle := h.loadedLe j w k hj
      omega
  · by_cases hji : j = i
    · subst hji
      rw [Function.update_self] at hj
      cases hj
    · rw [Function.update_of_ne hji] at hj
      exact h.loadedPos j w k hj
  · -- its last update comes after one of its own, so that what it has read is positive
    cases m with
    | zero =>
      have hpos := h.loadedPos i v 0 hl (by omega)
      exact .inl (by show 2 ≤ v + 1; omega)
    | succ m => exact .inr ⟨i, by simp⟩

theorem Inv.step {a : T × Unit} {e : Option Empty} (h : Inv n cfg.shared cfg.loc) (hn : 2 ≤ n)
    (hs : (machine T).step cfg a = some (e, cfg')) : Inv n cfg'.shared cfg'.loc := by
  obtain ⟨m, hl, rfl⟩ | ⟨v, m, hl, rfl⟩ := step_cases hs
  · exact h.load hl
  · exact h.store hn hl

/-- At the end the number is from two to the number of all updates. -/
theorem bounds [Nonempty T] (hn : 2 ≤ n) (h : (machine T).Reachable (start T n) cfg)
    (hend : ∀ i, cfg.loc i = .idle 0) :
    2 ≤ cfg.shared ∧ cfg.shared ≤ Fintype.card T * n := by
  have hinv : Inv n cfg.shared cfg.loc :=
    h.invariant (I := fun cfg => Inv n cfg.shared cfg.loc) (fun _ _ _ _ hI hs => hI.step hn hs)
      (start_inv hn)
  constructor
  · refine hinv.two.resolve_right ?_
    rintro ⟨i, hi⟩
    simp [hend] at hi
  · exact le_of_add_le_left hinv.le

end Bounds

/-! ## Every number within the bounds -/

/-- Updates of one thread that no other thread comes in between. -/
theorem reachable_alone (h : loc i = .idle (m + k)) :
    (machine T).Reachable ⟨s, loc⟩ ⟨s + m, Function.update loc i (.idle k)⟩ := by
  induction m generalizing s loc with
  | zero =>
    rw [Nat.zero_add] at h
    rw [← h, Function.update_eq_self]
    exact .refl _
  | succ m ih =>
    have hfirst : (machine T).Reachable ⟨s, loc⟩ _ :=
      reachable_update (n := m + k) (i := i) (h.trans (by rw [Nat.add_right_comm]))
    have hrest : (machine T).Reachable ⟨s + 1, Function.update loc i (.idle (m + k))⟩ _ :=
      ih (Function.update_self ..)
    rw [Function.update_idem, Nat.add_assoc, Nat.add_comm 1 m] at hrest
    exact hfirst.trans hrest

/-- One update by a thread of `A`. -/
theorem sum_rest_update {A : Finset T} (hi : i ∈ A) (hl : loc i = .idle (n + 1)) :
    (∑ j ∈ A, (Function.update loc i (.idle n) j).rest) + 1 = ∑ j ∈ A, (loc j).rest := by
  have hother : ∀ j ∈ A.erase i, (Function.update loc i (.idle n) j).rest = (loc j).rest := by
    intro j hj
    rw [Function.update_of_ne (Finset.ne_of_mem_erase hj)]
  rw [← Finset.add_sum_erase _ _ hi, Finset.sum_congr rfl hother, Function.update_self,
    ← Finset.add_sum_erase A (fun j => (loc j).rest) hi, hl]
  simp only [Phase.rest_idle]
  omega

/-- Updates of the threads of `A`, one after another, so that none of them gets lost. -/
theorem run_some (A : Finset T) (hidle : ∀ j ∈ A, ∃ n, loc j = .idle n)
    (hm : m ≤ ∑ j ∈ A, (loc j).rest) :
    ∃ loc', (machine T).Reachable ⟨s, loc⟩ ⟨s + m, loc'⟩ ∧ (∀ j ∉ A, loc' j = loc j) ∧
      (∀ j ∈ A, ∃ n, loc' j = .idle n) ∧
      (∑ j ∈ A, (loc' j).rest) + m = ∑ j ∈ A, (loc j).rest := by
  induction m with
  | zero => exact ⟨loc, .refl _, fun _ _ => rfl, hidle, rfl⟩
  | succ m ih =>
    obtain ⟨loc', hreach, hother, hidle', hsum⟩ := ih (Nat.le_of_succ_le hm)
    -- some thread of `A` is not done yet
    obtain ⟨i, hi, hrest⟩ := Finset.exists_ne_zero_of_sum_ne_zero (s := A)
      (f := fun j => (loc' j).rest) (by omega)
    obtain ⟨n, hn⟩ := hidle' i hi
    rw [hn, Phase.rest_idle] at hrest
    obtain ⟨n, rfl⟩ := Nat.exists_eq_succ_of_ne_zero hrest
    refine ⟨Function.update loc' i (.idle n), hreach.trans (reachable_update hn), ?_, ?_, ?_⟩
    · intro j hj
      rw [Function.update_of_ne (ne_of_mem_of_not_mem hi hj).symm]
      exact hother j hj
    · intro j hj
      by_cases hji : j = i
      · exact ⟨n, by rw [hji, Function.update_self]⟩
      · rw [Function.update_of_ne hji]
        exact hidle' j hj
    · have hupdate := sum_rest_update hi hn
      omega

section Final

variable [Fintype T]

/-- All updates that are left, so that none of them gets lost. -/
theorem run_all (hidle : ∀ j, ∃ n, loc j = .idle n) :
    (machine T).Reachable ⟨s, loc⟩ ⟨s + total Phase.rest loc, fun _ => .idle 0⟩ := by
  obtain ⟨loc', hreach, -, hidle', hsum⟩ := run_some (s := s) Finset.univ (fun j _ => hidle j)
    (le_refl (total Phase.rest loc))
  have hzero : total Phase.rest loc' = 0 := by
    unfold total at hsum ⊢
    omega
  have hloc : loc' = fun _ => .idle 0 := by
    funext j
    obtain ⟨n, hn⟩ := hidle' j (Finset.mem_univ j)
    have hj := total_eq_zero.mp hzero j
    rw [hn, Phase.rest_idle] at hj
    rw [hn, hj]
  rwa [hloc] at hreach

/-- One thread reads zero and writes one, and the others do `m` updates in between, which get
    lost. -/
theorem exists_final_of_le (i : T) (hn : 0 < n) (hm : m ≤ (Fintype.card T - 1) * n) :
    (machine T).Reachable (start T n) ⟨Fintype.card T * n - m, fun _ => .idle 0⟩ := by
  obtain ⟨n, rfl⟩ := Nat.exists_eq_succ_of_ne_zero hn.ne'
  -- the thread `i` loads the zero at the beginning
  have hload : (machine T).Reachable (start T (n + 1))
      ⟨0, Function.update (fun _ => .idle (n + 1)) i (.loaded 0 n)⟩ := reachable_load rfl
  set loc₁ : T → Phase := Function.update (fun _ => .idle (n + 1)) i (.loaded 0 n) with hloc₁
  have hother : ∀ j ∈ Finset.univ.erase i, loc₁ j = .idle (n + 1) := fun j hj => by
    rw [hloc₁, Function.update_of_ne (Finset.ne_of_mem_erase hj)]
  have hsum₁ : ∑ j ∈ Finset.univ.erase i, (loc₁ j).rest = (Fintype.card T - 1) * (n + 1) := by
    rw [Finset.sum_congr rfl fun j hj => congrArg Phase.rest (hother j hj), Finset.sum_const,
      Finset.card_erase_of_mem (Finset.mem_univ i), Finset.card_univ, smul_eq_mul, Phase.rest_idle]
  -- the others do all but `m` of their updates
  obtain ⟨loc₂, hreach, hsame, hidle, hsum⟩ := run_some (s := 0) (m := m) (Finset.univ.erase i)
    (fun j hj => ⟨n + 1, hother j hj⟩) (hsum₁ ▸ hm)
  have hi : loc₂ i = .loaded 0 n := by
    rw [hsame i (Finset.notMem_erase i _), hloc₁, Function.update_self]
  -- then `i` stores one, and all do what is left
  have hall : (machine T).Reachable ⟨1, Function.update loc₂ i (.idle n)⟩ _ := run_all fun j => by
    by_cases hj : j = i
    · exact ⟨n, by rw [hj, Function.update_self]⟩
    · rw [Function.update_of_ne hj]
      exact hidle j (Finset.mem_erase.mpr ⟨hj, Finset.mem_univ j⟩)
  have htotal : 1 + total Phase.rest (Function.update loc₂ i (.idle n)) =
      Fintype.card T * (n + 1) - m := by
    have hupdate := total_update Phase.rest loc₂ i (.idle n)
    have herase := Finset.add_sum_erase Finset.univ (fun j => (loc₂ j).rest) (Finset.mem_univ i)
    have hcard : Fintype.card T * (n + 1) = (Fintype.card T - 1) * (n + 1) + (n + 1) := by
      rw [← Nat.succ_mul, Nat.succ_eq_add_one, Nat.sub_add_cancel (Fintype.card_pos_iff.mpr ⟨i⟩)]
    rw [hi, Phase.rest_loaded, Phase.rest_idle] at hupdate
    simp only [hi, Phase.rest_loaded] at herase
    unfold total at hupdate ⊢
    omega
  rw [htotal] at hall
  exact (hload.trans hreach).trans ((reachable_store hi).trans hall)

/-- One thread reads zero and writes one after all other updates but one, and that one writes
    `k + 2` at the end. -/
theorem exists_final_of_lt (hij : i ≠ j) (hk : k < n) :
    (machine T).Reachable (start T n) ⟨k + 2, fun _ => .idle 0⟩ := by
  obtain ⟨n, rfl⟩ := Nat.exists_eq_succ_of_ne_zero (Nat.ne_zero_of_lt hk)
  obtain ⟨m, rfl⟩ := Nat.exists_eq_add_of_le (Nat.le_of_lt_succ hk)
  -- `i` reads zero, and the others do their updates, `j` all but the last one
  have hload : (machine T).Reachable (start T (k + m + 1))
      ⟨0, Function.update (fun _ => .idle (k + m + 1)) i (.loaded 0 (k + m))⟩ := reachable_load rfl
  set loc₁ : T → Phase := Function.update (fun _ => .idle (k + m + 1)) i (.loaded 0 (k + m))
    with hloc₁
  have hother : ∀ x, x ≠ i → loc₁ x = .idle (k + m + 1) := fun x hx => by
    rw [hloc₁, Function.update_of_ne hx]
  have hmem : ∀ x, x ∈ (Finset.univ.erase i).erase j ↔ x ≠ j ∧ x ≠ i := fun x => by simp
  obtain ⟨loc₂, hreach₂, hsame, hidle, hsum⟩ := run_some (s := 0) ((Finset.univ.erase i).erase j)
    (fun x hx => ⟨_, hother x ((hmem x).mp hx).2⟩) (le_refl _)
  have hzero : ∀ x, x ≠ j → x ≠ i → loc₂ x = .idle 0 := fun x hxj hxi => by
    have hx := (hmem x).mpr ⟨hxj, hxi⟩
    obtain ⟨n, hn⟩ := hidle x hx
    have hrest : (loc₂ x).rest = 0 := Finset.sum_eq_zero_iff.mp (Nat.add_eq_right.mp hsum) x hx
    rw [hn, Phase.rest_idle] at hrest
    rw [hn, hrest]
  have hj₂ : loc₂ j = .idle (k + m + 1) := by
    rw [hsame j (fun h => ((hmem j).mp h).1 rfl), hother j hij.symm]
  have hi₂ : loc₂ i = .loaded 0 (k + m) := by
    rw [hsame i (fun h => ((hmem i).mp h).2 rfl), hloc₁, Function.update_self]
  have hreach₃ := hreach₂.trans (reachable_alone hj₂)
  -- `i` writes one and does `k` further updates, `j` reads `k + 1`, and `i` does the others
  have hi₃ : Function.update loc₂ j (.idle 1) i = .loaded 0 (k + m) := by
    rw [Function.update_of_ne hij, hi₂]
  have hreach₄ := hreach₃.trans (reachable_store hi₃)
  set loc₄ : T → Phase := Function.update (Function.update loc₂ j (.idle 1)) i (.idle (k + m))
    with hloc₄
  have hreach₅ := hreach₄.trans (reachable_alone (show loc₄ i = .idle (k + m) by simp [hloc₄]))
  set loc₅ : T → Phase := Function.update loc₄ i (.idle m) with hloc₅
  have hj₅ : loc₅ j = .idle (0 + 1) := by simp [hloc₅, hloc₄, hij.symm]
  have hreach₆ := hreach₅.trans (reachable_load hj₅)
  set loc₆ : T → Phase := Function.update loc₅ j (.loaded (0 + 1 + k) 0) with hloc₆
  have hi₆ : loc₆ i = .idle (m + 0) := by simp [hloc₆, hloc₅, hij]
  have hreach₇ := hreach₆.trans (reachable_alone hi₆)
  have hj₇ : Function.update loc₆ i (.idle 0) j = .loaded (0 + 1 + k) 0 := by
    simp [hloc₆, hij.symm]
  have hreach₈ := hreach₇.trans (reachable_store hj₇)
  have hend : Function.update (Function.update loc₆ i (.idle 0)) j (.idle 0) =
      fun _ => .idle 0 := by
    funext x
    by_cases hxj : x = j
    · rw [hxj, Function.update_self]
    by_cases hxi : x = i
    · rw [hxi, Function.update_of_ne hij, Function.update_self]
    · simp [hxj, hxi, hloc₆, hloc₅, hloc₄, hzero x hxj hxi]
  rw [hend, show 0 + 1 + k + 1 = k + 2 by omega] at hreach₈
  exact hload.trans hreach₈

/-- With two threads and two updates for each of them, the numbers that are possible at the end are
    those from two to the number of all updates. -/
theorem final_iff (hT : 2 ≤ Fintype.card T) (hn : 2 ≤ n) :
    (machine T).Reachable (start T n) ⟨v, fun _ => .idle 0⟩ ↔ 2 ≤ v ∧ v ≤ Fintype.card T * n := by
  obtain ⟨i, j, hij⟩ := Fintype.exists_pair_of_one_lt_card hT
  constructor
  · intro h
    have : Nonempty T := ⟨i⟩
    exact bounds hn h fun _ => rfl
  · rintro ⟨h2, hle⟩
    by_cases hv : v < n + 2
    · obtain ⟨k, rfl⟩ := Nat.exists_eq_add_of_le' h2
      exact exists_final_of_lt hij (by omega)
    · -- the updates of the other threads are enough to be lost
      have hcard : Fintype.card T * n = (Fintype.card T - 1) * n + n := by
        rw [← Nat.succ_mul, Nat.succ_eq_add_one, Nat.sub_add_cancel (by omega)]
      have hreach := exists_final_of_le (n := n) (m := Fintype.card T * n - v) i (by omega)
        (by omega)
      rwa [Nat.sub_sub_self hle] at hreach

end Final

end LostUpdates
