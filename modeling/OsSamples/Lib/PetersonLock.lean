import OsSamples.Lib.BinaryLock

/-!
# Peterson's protocol for two threads

The protocol with its decisions as atomic steps: a thread announces its interest, gives the other
thread precedence, waits until the other thread is not interested or has given precedence back,
and withdraws its interest when it leaves.  An implementation that splits the test of the waiting
loop into reads, or that delays the withdrawal in a store buffer, takes these steps at the reads
and writes that decide.

## Key results

- `Inv.mutual_exclusion`: two threads are never both critical
- `traces_subset_lock`: the protocol implements a binary lock
- `overtaking`: a waiting thread is overtaken at most once
-/

namespace PetersonLock

/-- Where a thread is in the protocol. -/
inductive Phase
  | idle
  | doorway
  | waiting
  | critical
  deriving DecidableEq

/-- The phases of the two threads, and the thread that has precedence. -/
structure State where
  phase : Bool → Phase
  turn : Bool

/-- Thread `i` moves to a phase. -/
def State.setPhase (s : State) (i : Bool) (ph : Phase) : State :=
  { s with phase := Function.update s.phase i ph }

@[simp] theorem State.setPhase_self (s : State) (i : Bool) (ph : Phase) :
    (s.setPhase i ph).phase i = ph := by simp [setPhase]

@[simp] theorem State.setPhase_other (s : State) (i : Bool) (ph : Phase) :
    (s.setPhase i ph).phase (!i) = s.phase (!i) := by cases i <;> simp [setPhase]

/-- The next step of thread `i`, `none` while it must wait. -/
def step (s : State) (i : Bool) : Option (Option (LockEvent Bool) × State) :=
  match s.phase i with
  | .idle => some (none, s.setPhase i .doorway)
  | .doorway => some (none, { s.setPhase i .waiting with turn := !i })
  | .waiting =>
    if s.phase (!i) = .idle ∨ s.turn = i then some (some (.acquire i), s.setPhase i .critical)
    else none
  | .critical => some (some (.release i), s.setPhase i .idle)

/-- The two threads, each going through the protocol again and again. -/
def machine : Machine State Bool (LockEvent Bool) := ⟨step⟩

/-- What one step can do. -/
theorem step_cases {s s' : State} {i : Bool} {e : Option (LockEvent Bool)}
    (h : machine.step s i = some (e, s')) :
    (s.phase i = .idle ∧ e = none ∧ s' = s.setPhase i .doorway) ∨
      (s.phase i = .doorway ∧ e = none ∧ s' = { s.setPhase i .waiting with turn := !i }) ∨
      (s.phase i = .waiting ∧ (s.phase (!i) = .idle ∨ s.turn = i) ∧ e = some (.acquire i) ∧
        s' = s.setPhase i .critical) ∨
      (s.phase i = .critical ∧ e = some (.release i) ∧ s' = s.setPhase i .idle) := by
  simp only [machine, step] at h
  split at h <;> rename_i hph
  · simp only [Option.some.injEq, Prod.mk.injEq] at h
    exact .inl ⟨hph, h.1.symm, h.2.symm⟩
  · simp only [Option.some.injEq, Prod.mk.injEq] at h
    exact .inr (.inl ⟨hph, h.1.symm, h.2.symm⟩)
  · simp only [Option.ite_none_right_eq_some, Option.some.injEq, Prod.mk.injEq] at h
    exact .inr (.inr (.inl ⟨hph, h.1, h.2.1.symm, h.2.2.symm⟩))
  · simp only [Option.some.injEq, Prod.mk.injEq] at h
    exact .inr (.inr (.inr ⟨hph, h.1.symm, h.2.symm⟩))

/-! ## Mutual exclusion -/

/-- The thread has given the other one precedence and not yet left. -/
def Phase.pastTurn : Phase → Bool
  | .waiting | .critical => true
  | .idle | .doorway => false

/-- A critical thread has precedence over one that is past its own doorway. -/
def Inv (s : State) : Prop :=
  ∀ i, s.phase i = .critical → (s.phase (!i)).pastTurn = true → s.turn = i

/-- Two threads are never both critical. -/
theorem Inv.mutual_exclusion {s : State} (h : Inv s) {i : Bool} (hi : s.phase i = .critical) :
    s.phase (!i) ≠ .critical := by
  intro hj
  have hturn : s.turn = i := h i hi (by rw [hj]; rfl)
  have hturn' : s.turn = !i := h (!i) hj (by rw [Bool.not_not, hi]; rfl)
  rw [hturn] at hturn'
  exact Bool.eq_not.mp hturn' rfl

/-- Two idle threads satisfy the invariant. -/
theorem inv_of_idle {s : State} (h : ∀ i, s.phase i = .idle) : Inv s := by
  intro i hi
  rw [h i] at hi
  exact nomatch hi

/-- Every step preserves the invariant. -/
theorem step_inv {s s' : State} {i : Bool} {e : Option (LockEvent Bool)} (hI : Inv s)
    (h : machine.step s i = some (e, s')) : Inv s' := by
  intro j hj hother
  rcases Bool.eq_or_eq_not j i with rfl | rfl
  · -- the moving thread is critical afterwards: it has just entered
    rcases step_cases h with ⟨-, -, rfl⟩ | ⟨-, -, rfl⟩ | ⟨-, hguard, -, rfl⟩ | ⟨-, -, rfl⟩
    · simp at hj
    · simp at hj
    · rw [State.setPhase_other] at hother
      rcases hguard with hidle | hturn
      · rw [hidle] at hother
        exact nomatch hother
      · exact hturn
    · simp at hj
  · -- the other thread is critical: the moving one has given precedence, or could not enter
    rw [Bool.not_not] at hother
    rcases step_cases h with ⟨-, -, rfl⟩ | ⟨-, -, rfl⟩ | ⟨hw, hguard, -, rfl⟩ | ⟨-, -, rfl⟩
    · rw [State.setPhase_self] at hother
      exact nomatch hother
    · rfl
    · rw [State.setPhase_other] at hj
      have hturn := hI (!i) hj (by rw [Bool.not_not, hw]; rfl)
      rcases hguard with hidle | hturn'
      · rw [hidle] at hj
        exact nomatch hj
      · rw [hturn] at hturn'
        exact absurd hturn' (by simp)
    · rw [State.setPhase_self] at hother
      exact nomatch hother

/-! ## Implementations with two flags and a turn -/

/-- The flags of an implementation agree with the protocol: a flag is set while its thread is not
    idle. -/
structure Shows (s : State) (flag : Bool → Bool) : Prop where
  inv : Inv s
  flag : ∀ i, flag i = true ↔ s.phase i ≠ .idle

variable {s : State} {flag : Bool → Bool} {i : Bool}

/-- A step with the flag of its thread written accordingly keeps the agreement. -/
theorem Shows.step (h : Shows s flag) {e : Option (LockEvent Bool)} {ph : Phase} {t b : Bool}
    (hs : machine.step s i = some (e, { s.setPhase i ph with turn := t }))
    (hb : b = true ↔ ph ≠ .idle) :
    Shows { s.setPhase i ph with turn := t } (Function.update flag i b) := by
  refine ⟨step_inv h.inv hs, fun j => ?_⟩
  rcases Bool.eq_or_eq_not j i with rfl | rfl
  · simpa [State.setPhase] using hb
  · simpa [State.setPhase] using h.flag (!i)

/-- Setting the flag announces the thread's interest. -/
theorem Shows.setFlag (h : Shows s flag) (hi : s.phase i = .idle) :
    machine.step s i = some (none, s.setPhase i .doorway) ∧
      Shows (s.setPhase i .doorway) (Function.update flag i true) := by
  have hs : machine.step s i = some (none, s.setPhase i .doorway) := by
    simp only [machine, PetersonLock.step, hi]
  exact ⟨hs, h.step hs (by simp)⟩

/-- Writing the turn gives the other thread precedence. -/
theorem Shows.setTurn (h : Shows s flag) (hi : s.phase i = .doorway) :
    machine.step s i = some (none, { s.setPhase i .waiting with turn := !i }) ∧
      Shows { s.setPhase i .waiting with turn := !i } flag := by
  have hs : machine.step s i = some (none, { s.setPhase i .waiting with turn := !i }) := by
    simp only [machine, PetersonLock.step, hi]
  have hflag : flag i = true := (h.flag i).mpr (by simp [hi])
  have hshows := h.step (b := true) hs (by simp)
  rw [← hflag, Function.update_eq_self] at hshows
  exact ⟨hs, hshows⟩

/-- A waiting thread that finds the other flag clear, or itself with precedence, enters. -/
theorem Shows.enter (h : Shows s flag) (hi : s.phase i = .waiting)
    (hread : flag (!i) = false ∨ s.turn = i) :
    machine.step s i = some (some (.acquire i), s.setPhase i .critical) ∧
      Shows (s.setPhase i .critical) flag := by
  have hguard : s.phase (!i) = .idle ∨ s.turn = i := by
    rcases hread with hclear | hturn
    · left
      by_contra hne
      rw [(h.flag (!i)).mpr hne] at hclear
      exact nomatch hclear
    · exact .inr hturn
  have hs : machine.step s i = some (some (.acquire i), s.setPhase i .critical) := by
    simp only [machine, PetersonLock.step, hi, hguard, if_true]
  have hflag : flag i = true := (h.flag i).mpr (by simp [hi])
  have hshows := h.step (b := true) hs (by simp)
  rw [← hflag, Function.update_eq_self] at hshows
  exact ⟨hs, hshows⟩

/-- Clearing the flag leaves the critical section. -/
theorem Shows.resetFlag (h : Shows s flag) (hi : s.phase i = .critical) :
    machine.step s i = some (some (.release i), s.setPhase i .idle) ∧
      Shows (s.setPhase i .idle) (Function.update flag i false) := by
  have hs : machine.step s i = some (some (.release i), s.setPhase i .idle) := by
    simp only [machine, PetersonLock.step, hi]
  exact ⟨hs, h.step hs (by simp)⟩

/-- Two idle threads with clear flags. -/
theorem shows_of_idle (hs : ∀ i, s.phase i = .idle) (hflag : ∀ i, flag i = false) :
    Shows s flag :=
  ⟨inv_of_idle hs, fun i => by simp [hs i, hflag i]⟩

/-! ## The lock -/

/-- The lock state `o` names the critical thread. -/
def LockOf (s : State) (o : Option Bool) : Prop :=
  Inv s ∧ ∀ i, s.phase i = .critical ↔ o = some i

/-- A step that leaves the critical threads as they were leaves the lock as it was. -/
theorem LockOf.of_phase {s s' : State} {o : Option Bool} (h : LockOf s o) (hI : Inv s')
    (hphase : ∀ i, s'.phase i = .critical ↔ s.phase i = .critical) : LockOf s' o :=
  ⟨hI, fun i => (hphase i).trans (h.2 i)⟩

/-- Every event sequence of the protocol is one of the binary lock. -/
theorem traces_subset_lock {s : State} (h : ∀ i, s.phase i = .idle) :
    machine.traces s ⊆ (BinaryLock.machine Bool).traces none := by
  refine BinaryLock.traces_subset (R := LockOf) ?_ ⟨inv_of_idle h, fun i => by simp [h i]⟩
  intro s o i e s' hR hs
  have hI' := step_inv hR.1 hs
  rcases step_cases hs with
    ⟨hph, rfl, rfl⟩ | ⟨hph, rfl, rfl⟩ | ⟨hph, hguard, rfl, rfl⟩ | ⟨hph, rfl, rfl⟩
  · refine .inl ⟨rfl, hR.of_phase hI' fun j => ?_⟩
    rcases Bool.eq_or_eq_not j i with rfl | rfl <;> simp [hph]
  · refine .inl ⟨rfl, hR.of_phase hI' fun j => ?_⟩
    rcases Bool.eq_or_eq_not j i with rfl | rfl <;> simp [hph]
  · -- by the invariant after the step, the other thread is not critical
    have hfree : s.phase (!i) ≠ .critical := by
      have hI'' := hI'.mutual_exclusion (i := i) (by simp)
      rwa [State.setPhase_other] at hI''
    refine .inr (.inl ⟨i, rfl, ?_, hI', fun j => ?_⟩)
    · -- neither thread is critical before the step
      cases o with
      | none => rfl
      | some j =>
        have hj := (hR.2 j).mpr rfl
        rcases Bool.eq_or_eq_not j i with rfl | rfl
        · rw [hph] at hj
          exact nomatch hj
        · exact absurd hj hfree
    · rcases Bool.eq_or_eq_not j i with rfl | rfl <;> simp [hfree]
  · have ho := (hR.2 i).mp hph
    have hfree := hR.1.mutual_exclusion hph
    refine .inr (.inr ⟨i, rfl, ho, hI', fun j => ?_⟩)
    rcases Bool.eq_or_eq_not j i with rfl | rfl <;> simp [hfree]

/-! ## Bounded overtaking -/

/-- One if the thread other than `i` can still enter while `i` waits. -/
def budget (s : State) (i : Bool) : ℕ :=
  if s.phase (!i) = .waiting ∧ s.turn = !i then 1 else 0

/-- While `i` waits, the other thread uses up its budget when it enters, and a new attempt gives
    it none. -/
theorem budget_step {s s' : State} {i j : Bool} {e : Option (LockEvent Bool)}
    (hw : s.phase i = .waiting) (he : e ≠ some (.acquire i))
    (h : machine.step s j = some (e, s')) :
    s'.phase i = .waiting ∧ e.toList.count (.acquire (!i)) + budget s' i ≤ budget s i := by
  rcases Bool.eq_or_eq_not j i with rfl | rfl
  · -- `i` itself can only enter
    rcases step_cases h with ⟨hph, -, -⟩ | ⟨hph, -, -⟩ | ⟨-, -, hacq, -⟩ | ⟨hph, -, -⟩
    · rw [hw] at hph
      exact nomatch hph
    · rw [hw] at hph
      exact nomatch hph
    · exact absurd hacq he
    · rw [hw] at hph
      exact nomatch hph
  · -- the other thread moves, and `i` still waits
    have hself := State.setPhase_other s (!i)
    simp only [Bool.not_not] at hself
    rcases step_cases h with
      ⟨-, rfl, rfl⟩ | ⟨-, rfl, rfl⟩ | ⟨hph, hguard, rfl, rfl⟩ | ⟨-, rfl, rfl⟩
    · exact ⟨by rw [hself, hw], by simp [budget]⟩
    · -- at the doorway the other thread gives precedence to `i`
      refine ⟨by simpa [hself] using hw, ?_⟩
      simp [budget]
    · -- the other thread enters only because it has precedence
      have hturn : s.turn = !i := by
        rcases hguard with hidle | hturn
        · rw [Bool.not_not, hw] at hidle
          exact nomatch hidle
        · exact hturn
      exact ⟨by rw [hself, hw], by simp [budget, hph, hturn]⟩
    · exact ⟨by rw [hself, hw], by simp [budget]⟩

/-- From a state in which `i` waits and until it enters, the other thread enters at most once. -/
theorem overtaking {s s' : State} {i : Bool} {tr : List (LockEvent Bool)}
    (hw : s.phase i = .waiting) (h : machine.Run s tr s') (hi : .acquire i ∉ tr) :
    tr.count (.acquire (!i)) ≤ 1 := by
  have key : .acquire i ∉ tr →
      s'.phase i = .waiting ∧ tr.count (.acquire (!i)) + budget s' i ≤ budget s i := by
    refine h.trace_invariant (I := fun tr s' => .acquire i ∉ tr → s'.phase i = .waiting ∧
      tr.count (.acquire (!i)) + budget s' i ≤ budget s i) ?_ (fun _ => ⟨hw, by simp⟩)
    intro tr s₁ j e s₂ hI hs hnot
    rw [List.mem_append, not_or] at hnot
    obtain ⟨hw₁, hle⟩ := hI hnot.1
    obtain ⟨hw₂, hle'⟩ := budget_step hw₁ (by rintro rfl; simp at hnot) hs
    rw [List.count_append]
    exact ⟨hw₂, by omega⟩
  have hle := (key hi).2
  have hbudget : budget s i ≤ 1 := by
    unfold budget
    split <;> omega
  omega

end PetersonLock
