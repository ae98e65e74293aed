import Mathlib.Data.Finset.Basic
import Mathlib.Logic.Function.Basic

/-!
# The descriptors of a process that accepts connections

The kernel's table of a process: on which connection a descriptor is open.  The connections that the
process has accepted are numbered, so that a connection keeps its identity when its descriptor is
closed and the number is given out again.

## Key results

- `Sockets.conn_accept`, `conn_close`: what the calls do to the table
- `Sockets.inj`: a field of the table, two descriptors are not open on one connection
-/

/-- The open descriptors of a process. -/
structure Sockets where
  /-- The connection that a descriptor is open on. -/
  conn : ℕ → Option ℕ
  /-- How many connections have been accepted. -/
  accepted : ℕ
  /-- The connection of a descriptor that was found ready by the last `select`. -/
  selected : ℕ → Option ℕ
  lt : ∀ {d c}, conn d = some c → c < accepted
  inj : ∀ {d d' c}, conn d = some c → conn d' = some c → d = d'

namespace Sockets

variable {k : Sockets} {d d' c : ℕ}

/-- No connection has been accepted. -/
def empty : Sockets := ⟨fun _ => none, 0, fun _ => none, (by cases ·), (by cases ·)⟩

/-- `accept` returns the descriptor `d`. -/
def accept (k : Sockets) (d : ℕ) : Sockets where
  conn := Function.update k.conn d (some k.accepted)
  accepted := k.accepted + 1
  selected := k.selected
  lt := by
    intro d' c h
    rw [Function.update_apply] at h
    split at h
    · cases h
      omega
    · exact Nat.lt_succ_of_lt (k.lt h)
  inj := by
    intro d₁ d₂ c h₁ h₂
    rw [Function.update_apply] at h₁ h₂
    split at h₁ <;> split at h₂
    · omega
    · cases h₁
      exact absurd (k.lt h₂) (lt_irrefl _)
    · cases h₂
      exact absurd (k.lt h₁) (lt_irrefl _)
    · exact k.inj h₁ h₂

/-- `close(d)`. -/
def close (k : Sockets) (d : ℕ) : Sockets where
  conn := Function.update k.conn d none
  accepted := k.accepted
  selected := k.selected
  lt := by
    intro d' c h
    rw [Function.update_apply] at h
    split at h
    · cases h
    · exact k.lt h
  inj := by
    intro d₁ d₂ c h₁ h₂
    rw [Function.update_apply] at h₁ h₂
    split at h₁ <;> split at h₂
    · cases h₁
    · cases h₁
    · cases h₂
    · exact k.inj h₁ h₂

/-- `select` finds the descriptors `ready`. -/
def select (k : Sockets) (ready : Finset ℕ) : Sockets :=
  { k with selected := fun d => if d ∈ ready then k.conn d else none }

/-- Some descriptor is open on the connection. -/
def IsOpen (k : Sockets) (c : ℕ) : Prop := ∃ d, k.conn d = some c

theorem IsOpen.lt (h : k.IsOpen c) : c < k.accepted := by
  obtain ⟨d, hd⟩ := h
  exact k.lt hd

theorem conn_accept : (k.accept d).conn d' = if d' = d then some k.accepted else k.conn d' :=
  Function.update_apply ..

theorem conn_close : (k.close d).conn d' = if d' = d then none else k.conn d' :=
  Function.update_apply ..

theorem conn_select {ready : Finset ℕ} : (k.select ready).conn = k.conn := rfl

@[simp] theorem accepted_accept : (k.accept d).accepted = k.accepted + 1 := rfl

@[simp] theorem accepted_close : (k.close d).accepted = k.accepted := rfl

theorem selected_select {ready : Finset ℕ} (h : d ∈ ready) :
    (k.select ready).selected d = k.conn d := if_pos h

/-- An unused descriptor is open on the new connection, and the others stay. -/
theorem isOpen_accept (h : k.conn d = none) :
    (k.accept d).IsOpen c ↔ c = k.accepted ∨ k.IsOpen c := by
  constructor
  · rintro ⟨d', hd'⟩
    rw [conn_accept] at hd'
    split at hd'
    · exact .inl (Option.some.inj hd').symm
    · exact .inr ⟨d', hd'⟩
  · rintro (rfl | ⟨d', hd'⟩)
    · exact ⟨d, by rw [conn_accept, if_pos rfl]⟩
    · have hne : d' ≠ d := by
        rintro rfl
        rw [h] at hd'
        cases hd'
      exact ⟨d', by rwa [conn_accept, if_neg hne]⟩

/-- The connection of the descriptor is closed, and the others stay. -/
theorem isOpen_close {c' : ℕ} (h : k.conn d = some c') :
    (k.close d).IsOpen c ↔ k.IsOpen c ∧ c ≠ c' := by
  constructor
  · rintro ⟨d', hd'⟩
    rw [conn_close] at hd'
    split at hd'
    · cases hd'
    · rename_i hne
      refine ⟨⟨d', hd'⟩, ?_⟩
      rintro rfl
      exact hne (k.inj hd' h)
  · rintro ⟨⟨d', hd'⟩, hne⟩
    have hne' : d' ≠ d := by
      rintro rfl
      rw [h] at hd'
      exact hne (Option.some.inj hd').symm
    exact ⟨d', by rwa [conn_close, if_neg hne']⟩

end Sockets
