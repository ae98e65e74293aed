import Mathlib.Data.Fintype.Basic
import Mathlib.Logic.Function.Basic

/-!
# Signals of a process

What the kernel keeps about the signals of a process: which are blocked, which are pending, and what
is to be done with each.  A signal is pending or it is not: one that is generated while it is
pending is lost.

## Key results

- `SigState.Quiet.mask`: where no signal is to be delivered, what is pending is blocked
- `SigState.generate_pending`, `SigState.sigaction_pending`, `SigState.handle_pending`: what is
  pending
- `SigState.handle_mask`: what is blocked while a handler runs
-/

namespace Signals

variable {σ : Type*}

/-- A set of signals. -/
abbrev SigSet (σ : Type*) := σ → Bool

def sigemptyset : SigSet σ := fun _ => false

def sigfillset : SigSet σ := fun _ => true

def sigaddset [DecidableEq σ] (set : SigSet σ) (signo : σ) : SigSet σ :=
  Function.update set signo true

def sigdelset [DecidableEq σ] (set : SigSet σ) (signo : σ) : SigSet σ :=
  Function.update set signo false

/-- What is done when a signal is delivered: the process ends, nothing, or its handler is called. -/
inductive Disposition
  | dfl
  | ign
  | handler
  deriving DecidableEq

/-- What the kernel keeps. -/
structure SigState (σ : Type*) where
  mask : SigSet σ
  pending : SigSet σ
  action : σ → Disposition

namespace SigState

variable {k : SigState σ} {signo signo' : σ} {set : SigSet σ} {a : Disposition}

/-- The signal is pending and not blocked. -/
def deliverable (k : SigState σ) (signo : σ) : Bool := k.pending signo && !k.mask signo

theorem deliverable_eq_true :
    k.deliverable signo = true ↔ k.pending signo = true ∧ k.mask signo = false := by
  simp [deliverable]

/-- No signal is to be delivered. -/
def Quiet (k : SigState σ) : Prop := ∀ signo, k.deliverable signo = false

instance [Fintype σ] (k : SigState σ) : Decidable k.Quiet :=
  inferInstanceAs (Decidable (∀ signo, k.deliverable signo = false))

/-- Where no signal is to be delivered, what is pending is blocked. -/
theorem Quiet.mask (h : k.Quiet) (hpending : k.pending signo = true) : k.mask signo = true := by
  have hnot := h signo
  rw [deliverable, hpending, Bool.true_and, Bool.not_eq_false'] at hnot
  exact hnot

/-- Another set of signals is blocked. -/
def setMask (k : SigState σ) (set : SigSet σ) : SigState σ := { k with mask := set }

variable [DecidableEq σ]

/-- A signal is generated, and discarded if it is ignored. -/
def generate (k : SigState σ) (signo : σ) : SigState σ :=
  { k with pending := if k.action signo = .ign then k.pending else sigaddset k.pending signo }

/-- What is pending after a signal has been generated. -/
theorem generate_pending : (k.generate signo).pending signo' = true ↔
    k.pending signo' = true ∨ signo' = signo ∧ k.action signo ≠ .ign := by
  unfold generate sigaddset
  by_cases hign : k.action signo = .ign
  · simp [hign]
  · by_cases heq : signo' = signo
    · simp [hign, heq]
    · simp [hign, heq]

/-- A signal that is blocked is generated. -/
theorem Quiet.generate (h : k.Quiet) (hmask : k.mask signo = true) : (k.generate signo).Quiet := by
  intro signo'
  rw [← Bool.not_eq_true, deliverable_eq_true]
  rintro ⟨hpending, hmask'⟩
  rcases generate_pending.mp hpending with hpending | ⟨rfl, -⟩
  · exact nomatch (h.mask hpending).symm.trans hmask'
  · exact nomatch hmask.symm.trans hmask'

/-- `sigaction`: a pending signal that is to be ignored is discarded. -/
def sigaction (k : SigState σ) (signo : σ) (a : Disposition) : SigState σ :=
  { k with
    action := Function.update k.action signo a
    pending := if a = .ign then sigdelset k.pending signo else k.pending }

@[simp] theorem sigaction_action_self : (k.sigaction signo a).action signo = a :=
  Function.update_self ..

@[simp] theorem sigaction_action_of_ne (h : signo' ≠ signo) :
    (k.sigaction signo a).action signo' = k.action signo' := Function.update_of_ne h ..

/-- A signal that is pending after `sigaction` has been so before. -/
theorem sigaction_pending (h : (k.sigaction signo a).pending signo' = true) :
    k.pending signo' = true := by
  unfold sigaction sigdelset at h
  dsimp only at h
  split at h
  · by_cases heq : signo' = signo
    · simp [heq] at h
    · simpa [heq] using h
  · exact h

/-- A pending signal is taken without a handler. -/
def discard (k : SigState σ) (signo : σ) : SigState σ :=
  { k with pending := sigdelset k.pending signo }

theorem discard_pending (k : SigState σ) (signo : σ) :
    (k.discard signo).pending = sigdelset k.pending signo := rfl

/-- A pending signal is taken and its handler is called: the signal itself and those of `saMask` are
    blocked in addition. -/
def handle (k : SigState σ) (signo : σ) (saMask : SigSet σ) : SigState σ :=
  { k with
    mask := fun signo' => k.mask signo' || saMask signo' || decide (signo' = signo)
    pending := sigdelset k.pending signo }

theorem handle_pending_eq (k : SigState σ) (signo : σ) (set : SigSet σ) :
    (k.handle signo set).pending = sigdelset k.pending signo := rfl

/-- What is pending when a handler has been called. -/
theorem handle_pending : (k.handle signo set).pending signo' = true ↔
    k.pending signo' = true ∧ signo' ≠ signo := by
  unfold handle sigdelset
  by_cases heq : signo' = signo
  · simp [heq]
  · simp [heq]

/-- What is blocked while a handler runs. -/
theorem handle_mask : (k.handle signo set).mask signo' = true ↔
    k.mask signo' = true ∨ set signo' = true ∨ signo' = signo := by
  simp [handle, or_assoc]

end SigState

end Signals
