import Mathlib.Data.Nat.Notation

/-!
# Counting loops that may be left early

The loop `for (i = a; i < a + n; i++) body`, whose body may fail, go on, or leave the loop
(`break`).

## Key results

- `forLoop_rule`: the invariant rule; what the body preserves until it leaves the loop, and what
  holds when it leaves it
- `forLoop_outcome`: the same for a body that may fail, with what holds of its errors
- `foldlM_isOk`: when a loop over a list does not fail
- `foldlM_field`: what a loop over a list leaves in a field that some of the elements set
- `forLoop_rel`, `forLoop_rel_rows`: the rules for two loops side by side, the second one with a
  loop over rows on one side and a flat loop on the other
-/

variable {σ τ ε ε' : Type*}

/-- `n` iterations of `body`, with the counter starting at `i`; `ForInStep.done` leaves the loop. -/
def forLoop (body : ℕ → σ → Except ε (ForInStep σ)) : ℕ → ℕ → σ → Except ε σ
  | 0, _, s => .ok s
  | n + 1, i, s =>
    match body i s with
    | .error e => .error e
    | .ok (.done s') => .ok s'
    | .ok (.yield s') => forLoop body n (i + 1) s'

/-- The body goes on and keeps the invariant, or it leaves the loop in a state that meets the
    postcondition; if it never leaves the loop, the invariant at the end gives the
    postcondition. -/
theorem forLoop_rule {body : ℕ → σ → Except ε (ForInStep σ)} {I : ℕ → σ → Prop} {Q : σ → Prop}
    {n i : ℕ} {s : σ}
    (hbody : ∀ j s, i ≤ j → j < i + n → I j s →
      (∃ s', body j s = .ok (.yield s') ∧ I (j + 1) s') ∨
        ∃ s', body j s = .ok (.done s') ∧ Q s')
    (hend : ∀ s, I (i + n) s → Q s) (h : I i s) :
    ∃ s', forLoop body n i s = .ok s' ∧ Q s' := by
  induction n generalizing i s with
  | zero => exact ⟨s, rfl, hend s h⟩
  | succ n ih =>
    rcases hbody i s (Nat.le_refl i) (by omega) h with ⟨s', hs, hI⟩ | ⟨s', hs, hQ⟩
    · simp only [forLoop, hs]
      refine ih (fun j t hij hjn => hbody j t (by omega) (by omega)) (fun t ht => hend t ?_) hI
      rwa [Nat.add_right_comm] at ht
    · simp only [forLoop, hs]
      exact ⟨s', rfl, hQ⟩

/-- The rule for a loop that is never left early. -/
theorem forLoop_rule_of_yield {body : ℕ → σ → Except ε (ForInStep σ)} {I : ℕ → σ → Prop}
    {n i : ℕ} {s : σ}
    (hbody : ∀ j s, i ≤ j → j < i + n → I j s →
      ∃ s', body j s = .ok (.yield s') ∧ I (j + 1) s') (h : I i s) :
    ∃ s', forLoop body n i s = .ok s' ∧ I (i + n) s' :=
  forLoop_rule (fun j s hij hjn hI => .inl (hbody j s hij hjn hI)) (fun _ hI => hI) h

/-- Other errors. -/
theorem forLoop_mapError (f : ε → ε') (body : ℕ → σ → Except ε (ForInStep σ)) (n i : ℕ) (s : σ) :
    forLoop (fun i s => (body i s).mapError f) n i s = (forLoop body n i s).mapError f := by
  induction n generalizing i s with
  | zero => rfl
  | succ n ih =>
    simp only [forLoop]
    cases body i s with
    | error e => rfl
    | ok step =>
      cases step with
      | done s' => rfl
      | yield s' => exact ih (i + 1) s'

/-! ## Loops that may fail -/

/-- What holds of the error or of the value of a computation. -/
inductive Outcome (E : ε → Prop) (Q : σ → Prop) : Except ε σ → Prop
  | error {e : ε} : E e → Outcome E Q (.error e)
  | ok {s : σ} : Q s → Outcome E Q (.ok s)

namespace Outcome

universe u

variable {α β : Type u} {E : ε → Prop} {Q : α → Prop} {Q' : β → Prop}

/-- One computation after the other. -/
theorem bind {x : Except ε α} {f : α → Except ε β} (h : Outcome E Q x)
    (hf : ∀ a, Q a → Outcome E Q' (f a)) : Outcome E Q' (x >>= f) := by
  cases h with
  | error he => exact .error he
  | ok hQ => exact hf _ hQ

/-- A choice. -/
theorem ite {c : Prop} [Decidable c] {x y : Except ε α} (h : c → Outcome E Q x)
    (h' : ¬ c → Outcome E Q y) : Outcome E Q (if c then x else y) := by
  split
  · exact h ‹_›
  · exact h' ‹_›

/-- A weaker postcondition. -/
theorem imp {Q₁ Q₂ : α → Prop} {x : Except ε α} (h : Outcome E Q₁ x) (hQ : ∀ a, Q₁ a → Q₂ a) :
    Outcome E Q₂ x := by
  cases h with
  | error he => exact .error he
  | ok hs => exact .ok (hQ _ hs)

end Outcome

/-- What holds after an iteration: `I` if the loop goes on, `Q` if it is left. -/
inductive StepOutcome (I Q : σ → Prop) : ForInStep σ → Prop
  | yield {s : σ} : I s → StepOutcome I Q (.yield s)
  | done {s : σ} : Q s → StepOutcome I Q (.done s)

/-- The invariant rule for a body that may fail. -/
theorem forLoop_outcome {body : ℕ → σ → Except ε (ForInStep σ)} {E : ε → Prop}
    {I : ℕ → σ → Prop} {Q : σ → Prop} {n i : ℕ} {s : σ}
    (hbody : ∀ j s, i ≤ j → j < i + n → I j s →
      Outcome E (StepOutcome (I (j + 1)) Q) (body j s))
    (hend : ∀ s, I (i + n) s → Q s) (h : I i s) : Outcome E Q (forLoop body n i s) := by
  induction n generalizing i s with
  | zero => exact .ok (hend s h)
  | succ n ih =>
    have hfirst := hbody i s (Nat.le_refl i) (by omega) h
    simp only [forLoop]
    generalize body i s = x at hfirst ⊢
    cases hfirst with
    | error he => exact .error he
    | ok hstep =>
      cases hstep with
      | done hQ => exact .ok hQ
      | yield hI =>
        refine ih (fun j t hij hjn => hbody j t (by omega) (by omega)) (fun t ht => hend t ?_) hI
        rwa [Nat.add_right_comm] at ht

/-- The rule for an invariant that does not depend on the counter. -/
theorem forLoop_outcome_const {body : ℕ → σ → Except ε (ForInStep σ)} {E : ε → Prop}
    {I : σ → Prop} {n i : ℕ} {s : σ}
    (hbody : ∀ j s, i ≤ j → j < i + n → I s → Outcome E (StepOutcome I I) (body j s)) (h : I s) :
    Outcome E I (forLoop body n i s) :=
  forLoop_outcome (I := fun _ => I) hbody (fun _ hI => hI) h

/-- A loop over a list that an iteration leaves only by failing. -/
theorem foldlM_outcome {α : Type*} {step : σ → α → Except ε σ} {E : ε → Prop} {I : σ → Prop}
    (hstep : ∀ s a, I s → Outcome E I (step s a)) (l : List α) {s : σ} (h : I s) :
    Outcome E I (l.foldlM step s) := by
  induction l generalizing s with
  | nil => exact .ok h
  | cons a l ih =>
    rw [List.foldlM_cons]
    exact (hstep s a h).bind fun s' h' => ih h'

/-- A loop over a list in which it depends on the element alone whether an iteration fails. -/
theorem foldlM_isOk {α : Type*} {step : σ → α → Except ε σ} {P : α → Prop}
    (hstep : ∀ s a, (∃ s', step s a = .ok s') ↔ P a) (l : List α) (s : σ) :
    (∃ s', l.foldlM step s = .ok s') ↔ ∀ a ∈ l, P a := by
  induction l generalizing s with
  | nil => simp [pure, Except.pure]
  | cons a l ih =>
    rw [List.foldlM_cons, List.forall_mem_cons, ← hstep s a]
    cases hs : step s a with
    | error e => simp [bind, Except.bind]
    | ok s₁ => simpa [bind, Except.bind] using ih s₁

/-- A field that some of the elements set, to the value `set a`: the last one counts. -/
theorem foldlM_field {α β : Type*} {step : σ → α → Except ε σ} (field : σ → β)
    {set : α → Option β} {l : List α} {s s' : σ}
    (hstep : ∀ a ∈ l, ∀ s s', step s a = .ok s' → field s' = (set a).getD (field s))
    (h : l.foldlM step s = .ok s') : field s' = (l.filterMap set).getLast?.getD (field s) := by
  induction l generalizing s with
  | nil =>
    obtain rfl : s = s' := Except.ok.inj h
    rfl
  | cons a l ih =>
    rw [List.foldlM_cons] at h
    cases hs : step s a with
    | error e =>
      rw [hs] at h
      exact nomatch h
    | ok s₁ =>
      rw [hs] at h
      have hrest := ih (fun b hb => hstep b (List.mem_cons_of_mem a hb)) h
      rw [hrest, hstep a List.mem_cons_self s s₁ hs]
      -- what the first element sets counts only where no later one sets the field
      cases hset : set a with
      | none => rw [List.filterMap_cons_none hset, Option.getD_none]
      | some b =>
        rw [List.filterMap_cons_some hset, List.getLast?_cons, Option.getD_some, Option.getD_some]

/-- A field that none of the elements sets. -/
theorem foldlM_field_same {α β : Type*} {step : σ → α → Except ε σ} (field : σ → β) {l : List α}
    {s s' : σ} (hstep : ∀ a ∈ l, ∀ s s', step s a = .ok s' → field s' = field s)
    (h : l.foldlM step s = .ok s') : field s' = field s := by
  have hfield := foldlM_field field (s := s) (l := l) (fun a ha s s' hs =>
    (show field s' = (none : Option β).getD (field s) from hstep a ha s s' hs)) h
  have hset : l.filterMap (fun _ => (none : Option β)) = [] := by simp
  rwa [hset] at hfield

/-! ## Loops in rows -/

/-- As `forLoop`, with the information whether the loop has been left early. -/
def forLoopStep (body : ℕ → σ → Except ε (ForInStep σ)) :
    ℕ → ℕ → σ → Except ε (ForInStep σ)
  | 0, _, s => .ok (.yield s)
  | n + 1, i, s =>
    match body i s with
    | .error e => .error e
    | .ok (.done s') => .ok (.done s')
    | .ok (.yield s') => forLoopStep body n (i + 1) s'

/-- A loop of `m + n` iterations: the second part comes only if the first one is not left. -/
theorem forLoop_add (body : ℕ → σ → Except ε (ForInStep σ)) (m n i : ℕ) (s : σ) :
    forLoop body (m + n) i s =
      match forLoopStep body m i s with
      | .error e => .error e
      | .ok (.done s') => .ok s'
      | .ok (.yield s') => forLoop body n (i + m) s' := by
  induction m generalizing i s with
  | zero => simp only [forLoopStep, Nat.zero_add, Nat.add_zero]
  | succ m ih =>
    rw [Nat.succ_add]
    simp only [forLoop, forLoopStep]
    cases body i s with
    | error e => rfl
    | ok r =>
      cases r with
      | done s' => rfl
      | yield s' =>
        simp only [ih]
        rw [Nat.add_assoc, Nat.add_comm 1 m]

/-- A flat loop over `k` rows of `q` is a loop over the rows. -/
theorem forLoop_rows (body : ℕ → σ → Except ε (ForInStep σ)) (q k r : ℕ) (s : σ) :
    forLoop body (k * q) (r * q) s =
      forLoop (fun r s => forLoopStep body q (r * q) s) k r s := by
  induction k generalizing r s with
  | zero => rw [Nat.zero_mul]; rfl
  | succ k ih =>
    rw [Nat.succ_mul, Nat.add_comm, forLoop_add]
    simp only [forLoop]
    cases forLoopStep body q (r * q) s with
    | error e => rfl
    | ok step =>
      cases step with
      | done s' => rfl
      | yield s' =>
        simp only
        rw [← ih, Nat.succ_mul]

/-! ## Two loops side by side -/

/-- Two results: both errors, or both values. -/
inductive ResultRel (E : ε → ε' → Prop) (Q : σ → τ → Prop) : Except ε σ → Except ε' τ → Prop
  | error {e : ε} {e' : ε'} : E e e' → ResultRel E Q (.error e) (.error e')
  | ok {s : σ} {t : τ} : Q s t → ResultRel E Q (.ok s) (.ok t)

namespace ResultRel

universe u v

variable {σ σ' : Type u} {τ τ' : Type v} {E : ε → ε' → Prop} {Q : σ → τ → Prop}
  {Q' : σ' → τ' → Prop}

/-- One computation after the other. -/
theorem bind {x : Except ε σ} {y : Except ε' τ} {f : σ → Except ε σ'} {g : τ → Except ε' τ'}
    (h : ResultRel E Q x y) (hfg : ∀ s t, Q s t → ResultRel E Q' (f s) (g t)) :
    ResultRel E Q' (x >>= f) (y >>= g) := by
  cases h with
  | error he => exact .error he
  | ok hQ => exact hfg _ _ hQ

/-- Two choices under the same condition. -/
theorem ite {c : Prop} [Decidable c] {x x' : Except ε σ} {y y' : Except ε' τ}
    (h : c → ResultRel E Q x y) (h' : ¬ c → ResultRel E Q x' y') :
    ResultRel E Q (if c then x else x') (if c then y else y') := by
  split
  · exact h ‹_›
  · exact h' ‹_›

/-- Results that are less closely related. -/
theorem imp {Q₁ Q₂ : σ → τ → Prop} {x : Except ε σ} {y : Except ε' τ} (h : ResultRel E Q₁ x y)
    (hQ : ∀ s t, Q₁ s t → Q₂ s t) : ResultRel E Q₂ x y := by
  cases h with
  | error he => exact .error he
  | ok hs => exact .ok (hQ _ _ hs)

end ResultRel

/-- Two iterations: both go on in states related by `R`, or both leave the loop in states related
    by `Q`. -/
inductive StepRel (R Q : σ → τ → Prop) : ForInStep σ → ForInStep τ → Prop
  | yield {s : σ} {t : τ} : R s t → StepRel R Q (.yield s) (.yield t)
  | done {s : σ} {t : τ} : Q s t → StepRel R Q (.done s) (.done t)

variable {E : ε → ε' → Prop} {R : ℕ → σ → τ → Prop} {Q : σ → τ → Prop}
  {body : ℕ → σ → Except ε (ForInStep σ)} {body' : ℕ → τ → Except ε' (ForInStep τ)}

/-- Two loops whose iterations are related one by one. -/
theorem forLoop_rel {n i i' : ℕ} {s : σ} {t : τ}
    (hbody : ∀ j < n, ∀ s t, R j s t →
      ResultRel E (StepRel (R (j + 1)) Q) (body (i + j) s) (body' (i' + j) t))
    (hend : ∀ s t, R n s t → Q s t) (h : R 0 s t) :
    ResultRel E Q (forLoop body n i s) (forLoop body' n i' t) := by
  induction n generalizing i i' s t R with
  | zero => exact .ok (hend s t h)
  | succ n ih =>
    have hfirst := hbody 0 (Nat.succ_pos n) s t h
    rw [Nat.add_zero, Nat.add_zero] at hfirst
    simp only [forLoop]
    generalize body i s = x at hfirst ⊢
    generalize body' i' t = y at hfirst ⊢
    cases hfirst with
    | error he => exact .error he
    | ok hstep =>
      cases hstep with
      | done hQ => exact .ok hQ
      | yield hR =>
        -- the rest of the loop, whose iteration `j` is iteration `j + 1` of the whole
        refine ih (R := fun j => R (j + 1)) (fun j hj s t hjR => ?_) hend hR
        rw [Nat.add_right_comm i, Nat.add_right_comm i']
        exact hbody (j + 1) (Nat.succ_lt_succ hj) s t hjR

/-- A loop that is not left early beside one that is left, if at all, by its last iteration. -/
theorem forLoop_rel_step {n i i' : ℕ} {s : σ} {t : τ}
    (hbody : ∀ j, j + 1 < n → ∀ s t, R j s t →
      ResultRel E (StepRel (R (j + 1)) fun _ _ => False) (body (i + j) s) (body' (i' + j) t))
    (hlast : ∀ j, j + 1 = n → ∀ s t, R j s t →
      ResultRel E (fun x y => ∃ s', x = .yield s' ∧
        ((∃ t', y = .yield t' ∧ R n s' t') ∨ ∃ t', y = .done t' ∧ Q s' t'))
        (body (i + j) s) (body' (i' + j) t))
    (h : R 0 s t) :
    ResultRel E (fun s' y => (∃ t', y = .yield t' ∧ R n s' t') ∨ ∃ t', y = .done t' ∧ Q s' t')
      (forLoop body n i s) (forLoopStep body' n i' t) := by
  induction n generalizing i i' s t R with
  | zero => exact .ok (.inl ⟨t, rfl, h⟩)
  | succ n ih =>
    simp only [forLoop, forLoopStep]
    by_cases hn : n = 0
    · -- the last iteration
      subst hn
      have hfirst := hlast 0 rfl s t h
      rw [Nat.add_zero, Nat.add_zero] at hfirst
      generalize body i s = x at hfirst ⊢
      generalize body' i' t = y at hfirst ⊢
      cases hfirst with
      | error he => exact .error he
      | ok hstep =>
        obtain ⟨s', rfl, ⟨t', rfl, hR⟩ | ⟨t', rfl, hQ⟩⟩ := hstep
        · exact .ok (.inl ⟨t', rfl, hR⟩)
        · exact .ok (.inr ⟨t', rfl, hQ⟩)
    · have hfirst := hbody 0 (by omega) s t h
      rw [Nat.add_zero, Nat.add_zero] at hfirst
      generalize body i s = x at hfirst ⊢
      generalize body' i' t = y at hfirst ⊢
      cases hfirst with
      | error he => exact .error he
      | ok hstep =>
        cases hstep with
        | done hQ => exact hQ.elim
        | yield hR =>
          refine ih (R := fun j => R (j + 1)) (fun j hj s t hjR => ?_) (fun j hj s t hjR => ?_) hR
          · rw [Nat.add_right_comm i, Nat.add_right_comm i']
            exact hbody (j + 1) (Nat.succ_lt_succ hj) s t hjR
          · rw [Nat.add_right_comm i, Nat.add_right_comm i']
            exact hlast (j + 1) (congrArg (· + 1) hj) s t hjR

/-- A loop over `k` rows beside a flat loop over the `q` elements of each row. -/
theorem forLoop_rel_rows {q k i : ℕ} {s : σ} {t : τ}
    (hrow : ∀ r < k, ∀ s t, R r s t →
      ResultRel E (StepRel (R (r + 1)) Q) (body (i + r) s) (forLoopStep body' q (r * q) t))
    (hend : ∀ s t, R k s t → Q s t) (h : R 0 s t) :
    ResultRel E Q (forLoop body k i s) (forLoop body' (k * q) 0 t) := by
  have hflat := forLoop_rows body' q k 0 t
  rw [Nat.zero_mul] at hflat
  rw [hflat]
  refine forLoop_rel (fun r hr s t hR => ?_) hend h
  rw [Nat.zero_add]
  exact hrow r hr s t hR
