import Mathlib.Logic.Function.Basic
import Mathlib.Data.List.Induction
import Mathlib.Data.List.Basic

/-!
# Memory with store buffers (total store order)

Threads `T` with a first-in first-out store buffer each over a shared memory from addresses `A` to
values `V`.  A store goes into the thread's own buffer and reaches memory by a later `drain`; a
load takes the newest buffered store of its own thread, or memory; an exchange needs an empty
buffer of its own and acts on memory at once.

What matters for proofs is `view`, the memory as one thread sees it: its own buffered stores on
top of the shared memory.

## Key results

- `load_eq_view`: loads read the view
- `view_store_self` / `view_drain_self`: stores show in the own view at once, draining does not
- `view_apply_congr`: away from what changed, views stay as they are
-/

/-- Shared memory and the store buffers, oldest store first. -/
structure Tso (T A V : Type*) where
  mem : A → V
  buf : T → List (A × V)

namespace Tso

variable {T A V : Type*} {s s' : Tso T A V} {t u : T} {a : A} {v : V} {ws : List (A × V)}

section Memory

variable [DecidableEq A]

/-- A store that reaches memory. -/
def write (m : A → V) (w : A × V) : A → V := Function.update m w.1 w.2

/-- A load: the newest store to `a` in the thread's own buffer, or memory. -/
def load (s : Tso T A V) (t : T) (a : A) : V :=
  match (s.buf t).reverse.find? fun w => w.1 = a with
  | some w => w.2
  | none => s.mem a

/-- A value put into memory at once. -/
def setMem (s : Tso T A V) (a : A) (v : V) : Tso T A V :=
  { s with mem := Function.update s.mem a v }

@[simp] theorem setMem_mem : (s.setMem a v).mem = Function.update s.mem a v := rfl

@[simp] theorem setMem_buf : (s.setMem a v).buf = s.buf := rfl

/-- An exchange, once the thread's own buffer has been drained: the old value and the new state. -/
def xchg (s : Tso T A V) (t : T) (a : A) (v : V) : Option (V × Tso T A V) :=
  if (s.buf t).isEmpty then some (s.mem a, s.setMem a v) else none

/-- The memory as thread `t` sees it. -/
def view (s : Tso T A V) (t : T) : A → V := (s.buf t).foldl write s.mem

/-- What stores leave at an address depends on the memory below at that address only. -/
theorem foldl_write_congr {m m' : A → V} (h : m a = m' a) :
    ws.foldl write m a = ws.foldl write m' a := by
  induction ws generalizing m m' with
  | nil => exact h
  | cons w ws ih =>
    rw [List.foldl_cons, List.foldl_cons]
    apply ih
    by_cases hw : a = w.1
    · subst hw; simp [write]
    · simp [write, hw, h]

/-- Loads read the view. -/
theorem load_eq_view (s : Tso T A V) (t : T) (a : A) : s.load t a = s.view t a := by
  unfold load view
  -- the newest store is the last one of the buffer
  induction s.buf t using List.reverseRecOn with
  | nil => rfl
  | append_singleton ws w ih =>
    rw [List.reverse_append, List.foldl_append]
    by_cases hw : w.1 = a
    · subst hw; simp [write]
    · simpa [write, hw, Ne.symm hw] using ih

/-- With an empty buffer a thread sees the memory. -/
theorem view_of_buf_nil (h : s.buf t = []) : s.view t = s.mem := by
  rw [view, h, List.foldl_nil]

/-- Where neither the buffer of a thread nor the memory at an address changes, the thread sees
    what it saw there. -/
theorem view_apply_congr (hbuf : s'.buf t = s.buf t) (hmem : s'.mem a = s.mem a) :
    s'.view t a = s.view t a := by
  rw [view, view, hbuf]
  exact foldl_write_congr hmem

/-- What an exchange does. -/
theorem xchg_eq_some {r : V × Tso T A V} : s.xchg t a v = some r ↔
    s.buf t = [] ∧ r = (s.mem a, s.setMem a v) := by
  simp only [xchg, List.isEmpty_iff, Option.ite_none_right_eq_some, Option.some.injEq]
  exact ⟨fun h => ⟨h.1, h.2.symm⟩, fun h => ⟨h.1, h.2.symm⟩⟩

end Memory

section Buffers

variable [DecidableEq T]

/-- A store into the thread's own buffer. -/
def store (s : Tso T A V) (t : T) (a : A) (v : V) : Tso T A V :=
  { s with buf := Function.update s.buf t (s.buf t ++ [(a, v)]) }

@[simp] theorem store_mem : (s.store t a v).mem = s.mem := rfl

@[simp] theorem store_buf_self : (s.store t a v).buf t = s.buf t ++ [(a, v)] := by simp [store]

@[simp] theorem store_buf_other (h : u ≠ t) : (s.store t a v).buf u = s.buf u := by
  simp [store, h]

variable [DecidableEq A]

/-- The oldest store in the buffer of `t` reaches memory. -/
def drain (s : Tso T A V) (t : T) : Option (Tso T A V) :=
  match s.buf t with
  | [] => none
  | w :: ws => some ⟨write s.mem w, Function.update s.buf t ws⟩

/-- A store shows in the own view at once. -/
theorem view_store_self : (s.store t a v).view t = Function.update (s.view t) a v := by
  rw [view, store_buf_self, List.foldl_append]
  rfl

/-- What a drain does. -/
theorem drain_eq_some : s.drain t = some s' ↔
    ∃ w ws, s.buf t = w :: ws ∧ s' = ⟨write s.mem w, Function.update s.buf t ws⟩ := by
  unfold drain
  split
  · rename_i hbuf
    simp [hbuf]
  · rename_i w ws hbuf
    rw [hbuf, Option.some.injEq]
    constructor
    · rintro rfl
      exact ⟨w, ws, rfl, rfl⟩
    · rintro ⟨w', ws', heq, rfl⟩
      obtain ⟨rfl, rfl⟩ := List.cons.inj heq
      rfl

/-- Draining does not show in the own view. -/
theorem view_drain_self (h : s.drain t = some s') : s'.view t = s.view t := by
  obtain ⟨w, ws, hbuf, rfl⟩ := drain_eq_some.mp h
  simp [view, hbuf]

end Buffers

end Tso
