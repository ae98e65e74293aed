import Mathlib.Data.List.Basic
import Mathlib.Data.Nat.ModEq

/-!
# Ring buffers

A bounded queue in a buffer with two indices and a counter.  `Holds` is the relation between a ring
buffer and the queue that it stands for.

## Key results

- `put_holds`, `take_holds`: the operations on the buffer are those on the queue, as long as there
  is space or an item
-/

/-- A ring buffer; its items are in the first `capacity` places of `buf`. -/
structure RingBuffer (α : Type*) where
  buf : List α
  capacity : ℕ
  /-- The index of the next empty space. -/
  inIdx : ℕ
  /-- The index of the first item. -/
  outIdx : ℕ
  count : ℕ

namespace RingBuffer

variable {α : Type*} {r : RingBuffer α} {x : α} {xs : List α}

/-- An empty ring buffer. -/
def empty (buf : List α) (capacity : ℕ) : RingBuffer α := ⟨buf, capacity, 0, 0, 0⟩

/-- Puts an item into the next empty space; `none` if that is not in the buffer. -/
def put (r : RingBuffer α) (x : α) : Option (RingBuffer α) :=
  if r.inIdx < r.buf.length then
    some { r with
      buf := r.buf.set r.inIdx x
      inIdx := (r.inIdx + 1) % r.capacity
      count := r.count + 1 }
  else none

/-- Takes the first item; `none` if its place is not in the buffer. -/
def take (r : RingBuffer α) : Option (α × RingBuffer α) :=
  (r.buf[r.outIdx]?).map fun x =>
    (x, { r with outIdx := (r.outIdx + 1) % r.capacity, count := r.count - 1 })

/-- The ring buffer stands for the queue `xs`. -/
structure Holds (r : RingBuffer α) (xs : List α) : Prop where
  capacity_le : r.capacity ≤ r.buf.length
  in_lt : r.inIdx < r.capacity
  out_lt : r.outIdx < r.capacity
  in_eq : r.inIdx = (r.outIdx + r.count) % r.capacity
  count_le : r.count ≤ r.capacity
  count_eq : r.count = xs.length
  get : ∀ i < xs.length, r.buf[(r.outIdx + i) % r.capacity]? = xs[i]?

theorem empty_holds {buf : List α} {capacity : ℕ} (hpos : 0 < capacity)
    (hle : capacity ≤ buf.length) : (empty buf capacity).Holds [] where
  capacity_le := hle
  in_lt := hpos
  out_lt := hpos
  in_eq := (Nat.zero_mod _).symm
  count_le := Nat.zero_le _
  count_eq := rfl
  get := nofun

/-- Places of different items are different. -/
theorem place_ne {out capacity i j : ℕ} (hi : i < j) (hj : j < capacity) :
    (out + i) % capacity ≠ (out + j) % capacity := by
  intro heq
  have hmod : i ≡ j [MOD capacity] := Nat.ModEq.add_left_cancel' out heq
  exact absurd (hmod.eq_of_lt_of_lt (hi.trans hj) hj) (by omega)

/-- `put` appends to the queue. -/
theorem put_holds (h : r.Holds xs) (hlt : r.count < r.capacity) (x : α) :
    ∃ r', r.put x = some r' ∧ r'.capacity = r.capacity ∧ r'.Holds (xs ++ [x]) := by
  have hin : r.inIdx < r.buf.length := h.in_lt.trans_le h.capacity_le
  have hpos : 0 < r.capacity := Nat.zero_lt_of_lt hlt
  refine ⟨_, if_pos hin, rfl, ⟨?_, Nat.mod_lt _ hpos, h.out_lt, ?_, hlt, ?_, ?_⟩⟩
  · rw [List.length_set]
    exact h.capacity_le
  · show (r.inIdx + 1) % r.capacity = (r.outIdx + (r.count + 1)) % r.capacity
    rw [h.in_eq, Nat.mod_add_mod, Nat.add_assoc]
  · show r.count + 1 = (xs ++ [x]).length
    rw [List.length_append, h.count_eq]
    rfl
  · intro i hi
    rw [List.length_append, List.length_singleton] at hi
    show (r.buf.set r.inIdx x)[(r.outIdx + i) % r.capacity]? = (xs ++ [x])[i]?
    rcases Nat.lt_succ_iff_lt_or_eq.mp hi with hi | rfl
    · -- an item that was there before is in another place
      have hne : r.inIdx ≠ (r.outIdx + i) % r.capacity := by
        rw [h.in_eq, h.count_eq]
        exact (place_ne hi (h.count_eq ▸ hlt)).symm
      rw [List.getElem?_set_ne hne, h.get i hi, List.getElem?_append_left hi]
    · have heq : (r.outIdx + xs.length) % r.capacity = r.inIdx := by
        rw [h.in_eq, h.count_eq]
      rw [heq, List.getElem?_set_self hin, List.getElem?_append_right le_rfl, Nat.sub_self]
      rfl

/-- `take` removes the head of the queue. -/
theorem take_holds (h : r.Holds (x :: xs)) :
    ∃ r', r.take = some (x, r') ∧ r'.capacity = r.capacity ∧ r'.Holds xs := by
  have hpos : 0 < r.capacity := Nat.zero_lt_of_lt h.out_lt
  have hfirst : r.buf[r.outIdx]? = some x := by
    have hget := h.get 0 (Nat.succ_pos _)
    rwa [Nat.add_zero, Nat.mod_eq_of_lt h.out_lt] at hget
  have hcount : r.count = xs.length + 1 := h.count_eq
  have hle := h.count_le
  have htake : r.take = some (x, { r with
      outIdx := (r.outIdx + 1) % r.capacity, count := r.count - 1 }) := by
    rw [take, hfirst]
    rfl
  refine ⟨_, htake, rfl, ⟨h.capacity_le, h.in_lt, Nat.mod_lt _ hpos, ?_, ?_, ?_, ?_⟩⟩
  · show r.inIdx = ((r.outIdx + 1) % r.capacity + (r.count - 1)) % r.capacity
    rw [h.in_eq, Nat.mod_add_mod]
    congr 1
    omega
  · show r.count - 1 ≤ r.capacity
    omega
  · show r.count - 1 = xs.length
    omega
  · -- every item is one place further from the new head
    intro i hi
    show r.buf[((r.outIdx + 1) % r.capacity + i) % r.capacity]? = xs[i]?
    rw [Nat.mod_add_mod, Nat.add_assoc, Nat.add_comm 1 i, h.get (i + 1) (Nat.succ_lt_succ hi)]
    rfl

end RingBuffer
