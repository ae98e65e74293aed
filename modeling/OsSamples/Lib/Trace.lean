import Mathlib.Order.Bounds.Basic
import Mathlib.Data.List.Infix

/-!
# Sequences of events

What holds of each event and the events before it, and the largest value that a number has had in
the course of the events.

## Key results

- `List.eachAfter_snoc`: each event of a sequence with one more event
- `mem_valuesUpTo_nil`, `mem_valuesUpTo_snoc`: the values up to one more event
-/

variable {ε : Type*} {tr : List ε} {e : ε}

namespace List

variable {P : List ε → ε → Prop}

/-- Each event has the property `P` after the events before it. -/
def EachAfter (P : List ε → ε → Prop) (tr : List ε) : Prop :=
  ∀ pre e post, tr = pre ++ e :: post → P pre e

@[simp] theorem eachAfter_nil : EachAfter P [] := fun _ _ _ heq =>
  absurd heq.symm (append_ne_nil_of_right_ne_nil _ (cons_ne_nil _ _))

/-- One more event. -/
theorem eachAfter_snoc : EachAfter P (tr ++ [e]) ↔ EachAfter P tr ∧ P tr e := by
  constructor
  · intro h
    refine ⟨fun pre e' post heq => h pre e' (post ++ [e]) ?_, h tr e [] rfl⟩
    rw [heq, append_assoc, cons_append]
  · rintro ⟨h, he⟩ pre e' post heq
    rcases eq_nil_or_concat post with rfl | ⟨post, e'', rfl⟩
    · obtain ⟨rfl, hlast⟩ := append_inj' heq rfl
      exact (cons.inj hlast).1 ▸ he
    · rw [concat_eq_append, ← cons_append, ← append_assoc] at heq
      exact h pre e' post (append_inj' heq rfl).1

end List

variable {f : List ε → ℕ} {n : ℕ}

/-- The values of `f` in the course of the events `tr`. -/
def valuesUpTo (f : List ε → ℕ) (tr : List ε) : Set ℕ := f '' {p | p <+: tr}

/-- The largest value of `f` in the course of the events `tr`. -/
def IsPeak (f : List ε → ℕ) (tr : List ε) (n : ℕ) : Prop := IsGreatest (valuesUpTo f tr) n

/-- The values up to one more event: those before, and the one after it. -/
theorem mem_valuesUpTo_snoc : n ∈ valuesUpTo f (tr ++ [e]) ↔
    n ∈ valuesUpTo f tr ∨ n = f (tr ++ [e]) := by
  constructor
  · rintro ⟨p, hp, rfl⟩
    rcases List.prefix_concat_iff.mp hp with rfl | hp
    · exact .inr rfl
    · exact .inl ⟨p, hp, rfl⟩
  · rintro (⟨p, hp, rfl⟩ | rfl)
    · exact ⟨p, hp.trans (List.prefix_append tr [e]), rfl⟩
    · exact ⟨_, List.prefix_refl _, rfl⟩

/-- The present value is one of them. -/
theorem mem_valuesUpTo_self (f : List ε → ℕ) (tr : List ε) : f tr ∈ valuesUpTo f tr :=
  ⟨tr, List.prefix_refl tr, rfl⟩

/-- Before the first event. -/
theorem mem_valuesUpTo_nil : n ∈ valuesUpTo f ([] : List ε) ↔ n = f [] := by
  constructor
  · rintro ⟨p, hp, rfl⟩
    rw [List.prefix_nil.mp hp]
  · rintro rfl
    exact mem_valuesUpTo_self f []
