import Mathlib.Data.Set.Insert
import OsSamples.Lib.Trace

/-!
# Heap blocks in a sequence of events

What a program does with its heap blocks, as a sequence of events: whether each block is freed once
and used only before.

## Key results

- `Disciplined.freed_once`: when no block is live, each one has been freed exactly once
- `Owned.alloc`, `Owned.free`, `Owned.use`: the blocks that are held, from one event to the next
-/

/-- A block is obtained or given back, or the memory behind a pointer is used (`none` is `NULL`). -/
inductive HeapEvent
  | alloc (id : ℕ)
  | free (id : ℕ)
  | use (p : Option ℕ)
  deriving DecidableEq

namespace HeapTrace

variable {tr : List HeapEvent} {id next : ℕ} {held : Set ℕ}

/-- The block has been obtained and not given back. -/
def Live (tr : List HeapEvent) (id : ℕ) : Prop := .alloc id ∈ tr ∧ .free id ∉ tr

/-- An event is in order after the events `pre`. -/
def Allowed (pre : List HeapEvent) : HeapEvent → Prop
  | .alloc id => .alloc id ∉ pre
  | .free id => Live pre id
  | .use p => ∃ id, p = some id ∧ Live pre id

/-- No block is freed twice or used after having been freed, and `NULL` is not used. -/
def Disciplined (tr : List HeapEvent) : Prop := tr.EachAfter Allowed

/-- A block is freed at most once. -/
theorem Disciplined.count_le_one (h : Disciplined tr) (id : ℕ) : tr.count (.free id) ≤ 1 := by
  induction tr using List.reverseRecOn with
  | nil => exact Nat.zero_le 1
  | append_singleton tr e ih =>
    obtain ⟨hbefore, hlast⟩ := List.eachAfter_snoc.mp h
    rw [List.count_append]
    by_cases he : e = .free id
    · subst he
      rw [List.count_eq_zero.mpr hlast.2, List.count_singleton_self]
    · rw [List.count_singleton, if_neg (by simpa using he)]
      exact ih hbefore

/-- When no block is live, each one has been freed exactly once. -/
theorem Disciplined.freed_once (h : Disciplined tr) (hnone : ∀ id, ¬ Live tr id)
    (halloc : .alloc id ∈ tr) : tr.count (.free id) = 1 := by
  have hle := h.count_le_one id
  have hfree : .free id ∈ tr := by
    by_contra hnot
    exact hnone id ⟨halloc, hnot⟩
  have hpos := List.count_pos_iff.mpr hfree
  omega

/-- After the events `tr` the blocks `held` are live, and the blocks from `next` on have not been
    obtained yet. -/
structure Owned (tr : List HeapEvent) (next : ℕ) (held : Set ℕ) : Prop where
  disciplined : Disciplined tr
  live : ∀ id, Live tr id ↔ id ∈ held
  fresh : ∀ id, .alloc id ∈ tr → id < next
  freed : ∀ id, .free id ∈ tr → .alloc id ∈ tr

theorem Owned.nil (next : ℕ) : Owned [] next ∅ where
  disciplined := List.eachAfter_nil
  live _ := iff_of_false (fun h => nomatch h.1) nofun
  fresh _ := nofun
  freed _ := nofun

/-- A new block. -/
theorem Owned.alloc (h : Owned tr next held) :
    Owned (tr ++ [.alloc next]) (next + 1) (insert next held) := by
  have hnew : .alloc next ∉ tr := fun hmem => absurd (h.fresh next hmem) (lt_irrefl next)
  refine ⟨List.eachAfter_snoc.mpr ⟨h.disciplined, hnew⟩, fun id => ?_, fun id hmem => ?_,
    fun id hmem => ?_⟩
  · rw [Set.mem_insert_iff, ← h.live]
    by_cases hid : id = next
    · subst hid
      refine iff_of_true ⟨by simp, ?_⟩ (.inl rfl)
      simpa using fun hmem => hnew (h.freed id hmem)
    · simp [Live, hid]
  · rcases List.mem_append.mp hmem with hmem | hmem
    · exact (h.fresh id hmem).trans (Nat.lt_succ_self next)
    · obtain rfl : id = next := by simpa using hmem
      exact Nat.lt_succ_self id
  · have hmem' : .free id ∈ tr := by simpa using hmem
    exact List.mem_append_left _ (h.freed id hmem')

/-- A block that is held is freed. -/
theorem Owned.free (h : Owned tr next held) (hid : id ∈ held) :
    Owned (tr ++ [.free id]) next (held \ {id}) := by
  have hlive := (h.live id).mpr hid
  refine ⟨List.eachAfter_snoc.mpr ⟨h.disciplined, hlive⟩, fun id' => ?_, fun id' hmem => ?_,
    fun id' hmem => ?_⟩
  · rw [Set.mem_sdiff, Set.mem_singleton_iff, ← h.live]
    simp [Live, and_assoc, eq_comm]
  · exact h.fresh id' (by simpa using hmem)
  · rcases List.mem_append.mp hmem with hmem | hmem
    · exact List.mem_append_left _ (h.freed id' hmem)
    · obtain rfl : id' = id := by simpa using hmem
      exact List.mem_append_left _ hlive.1

/-- A block that is held is used. -/
theorem Owned.use (h : Owned tr next held) (hid : id ∈ held) :
    Owned (tr ++ [.use (some id)]) next held := by
  have hlive := (h.live id).mpr hid
  refine ⟨List.eachAfter_snoc.mpr ⟨h.disciplined, id, rfl, hlive⟩, fun id' => ?_,
    fun id' hmem => h.fresh id' (by simpa using hmem), fun id' hmem => ?_⟩
  · rw [← h.live]
    simp [Live]
  · exact List.mem_append_left _ (h.freed id' (by simpa using hmem))

end HeapTrace
