import Mathlib.Tactic.SplitIfs
import OsSamples.Native.PthreadCleanup

/-!
# The buffers of `pthread_cleanup.c`

The temporary buffer is freed by the clean-up handler, which is pushed only after a first `printf`;
and the main thread takes it that there is a name unless `fgets` has failed or the time is up.
`Orderly` is the condition on a step that rules out what both overlook.

## Key results

- `threadFunc_cases`, `mainStep_cases`: the steps of the two threads
- `Inv.step`: which blocks are held, and which name has been stored, from one step to the next
- `buffers_freed`: all runs whose steps meet the condition
-/

namespace PthreadCleanup

open HeapTrace

variable {s s' : State} {c : Choice} {e : Option Event} {tr : List Event} {id : ℕ}

/-! ## Who holds which block -/

/-- Whether `buf` points to a block, possibly one that has just been freed. -/
def FuncPc.hasBuf : FuncPc → Bool
  | .notCreated | .malloc | .perrorMalloc | .releaseTmp .print | .semPost | .cancelled .print
  | .ended => false
  | _ => true

/-- Whether the clean-up handler is pushed. -/
def FuncPc.guarded : FuncPc → Bool
  | .printEnter | .fgets | .setError | .strdupRead | .strdup | .setName _ | .printNameAllocated
  | .cleanupPop => true
  | _ => false

/-- Whether `thread_func` may still come to the assignment to `name`. -/
def FuncPc.unnamed : FuncPc → Bool
  | .notCreated | .malloc | .perrorMalloc | .printAllocated | .cleanupPush | .printEnter | .fgets
  | .strdupRead | .strdup | .setName _ => true
  | _ => false

/-- What holds of the buffer, of the handler and of `name`, by where `thread_func` is. -/
structure FuncOk (s : State) : Prop where
  buf : s.buf.isSome = s.func.hasBuf
  pushed : s.pushed = s.func.guarded
  name : s.func.unnamed = true → s.name = none

/-- The block of the temporary buffer, until it is freed. -/
def State.bufHeld (s : State) : Option ℕ :=
  if s.func = .releaseTmp .clear ∨ s.func = .cancelled .clear then none else s.buf

/-- The block of the name, until it is freed. -/
def State.nameHeld (s : State) : Option ℕ := if s.main = .releaseName .clear then none else s.name

/-- The block that `strdup` has just returned. -/
def State.newHeld (s : State) : Option ℕ :=
  match s.func with
  | .setName p => p
  | _ => none

/-- The blocks that are to be freed. -/
def State.held (s : State) : Set ℕ :=
  {id | s.bufHeld = some id ∨ s.nameHeld = some id ∨ s.newHeld = some id}

/-- The buffer and the name are different blocks. -/
def Apart (s : State) : Prop := ∀ id, s.buf = some id → s.name ≠ some id ∧ s.newHeld ≠ some id

/-- The events that concern blocks. -/
def heapEvents (tr : List Event) : List HeapEvent :=
  tr.filterMap fun
    | .heap e => some e
    | .enteredName p _ => some (.use p)
    | .setName _ | .print _ | .perror _ => none

/-- What a step does to the blocks. -/
inductive HeapStep (s s' : State) : List HeapEvent → Prop
  | none : s'.next = s.next → s'.held = s.held → HeapStep s s' []
  | alloc : s'.next = s.next + 1 → s'.held = insert s.next s.held → HeapStep s s' [.alloc s.next]
  | free {id : ℕ} : s'.next = s.next → id ∈ s.held → s'.held = s.held \ {id} →
      HeapStep s s' [.free id]
  | use {id : ℕ} : s'.next = s.next → id ∈ s.held → s'.held = s.held →
      HeapStep s s' [.use (some id)]

/-- From the events so far to those with the step. -/
theorem HeapStep.owned {es es' : List HeapEvent} (h : HeapStep s s' es')
    (howned : Owned es s.next s.held) : Owned (es ++ es') s'.next s'.held := by
  cases h with
  | none hnext hheld =>
    rw [List.append_nil, hnext, hheld]
    exact howned
  | alloc hnext hheld =>
    rw [hnext, hheld]
    exact howned.alloc
  | free hnext hid hheld =>
    rw [hnext, hheld]
    exact howned.free hid
  | use hnext hid hheld =>
    rw [hnext, hheld]
    exact howned.use hid

/-! ## The thread -/

/-- The step is not the end of `thread_func` in its first `printf`, and the main thread does not
    take it, without a time-out, that there is a name while there is none. -/
def Orderly (s : State) (a : Thread × Choice) : Prop :=
  ¬ (a = (.func, .cancel) ∧ s.func = .printAllocated) ∧
    (a.1 = .main → s.main = .testError → s.timeoutGone = false →
      s.fgetsExitedWithError = true ∨ s.name.isSome)

instance (s : State) (a : Thread × Choice) : Decidable (Orderly s a) :=
  inferInstanceAs (Decidable (_ ∧ _))

/-- An event that concerns neither a block nor the name. -/
def Event.silent : Event → Bool
  | .print _ | .perror _ => true
  | .heap _ | .setName _ | .enteredName _ _ => false

/-- What a step of `thread_func` leaves as it is. -/
structure Moves (s s' : State) : Prop where
  main : s'.main = s.main
  timeoutGone : s'.timeoutGone = s.timeoutGone
  pushed : s'.pushed = s'.func.guarded
  unnamed : s'.func.unnamed = true → s.func.unnamed = true
  started : s.func ≠ .ended ∧ s.func ≠ .notCreated

/-- The steps of `thread_func`. -/
inductive FuncStep (s : State) : Option Event → State → Prop
  | move {e : Option Event} {s' : State} : Moves s s' → (∀ x ∈ e, x.silent = true) →
      s'.buf = s.buf → s'.name = s.name → s'.next = s.next →
      s'.func.hasBuf = s.func.hasBuf → s'.bufHeld = s.bufHeld → s'.newHeld = s.newHeld →
      FuncStep s e s'
  | malloc {s' : State} : Moves s s' → s.buf = none → s.name = none → s.newHeld = none →
      s'.buf = some s.next → s'.name = s.name → s'.next = s.next + 1 → s'.func = .printAllocated →
      FuncStep s (some (.heap (.alloc s.next))) s'
  | use {id : ℕ} {s' : State} : Moves s s' → s.buf = some id → s'.buf = s.buf →
      s'.name = s.name → s'.next = s.next → s'.func.hasBuf = s.func.hasBuf →
      s.bufHeld = some id → s'.bufHeld = some id → s'.newHeld = s.newHeld →
      FuncStep s (some (.heap (.use (some id)))) s'
  | strdup {s' : State} : Moves s s' → s.func = .strdup → s.name = none → s'.buf = s.buf →
      s'.name = s.name → s'.next = s.next + 1 → s'.func = .setName (some s.next) →
      FuncStep s (some (.heap (.alloc s.next))) s'
  | setName {p : Option ℕ} {s' : State} : Moves s s' → s.func = .setName p → s.name = none →
      s'.buf = s.buf → s'.name = p → s'.next = s.next → s'.func = .printNameAllocated →
      FuncStep s (some (.setName p)) s'
  | free {id : ℕ} {s' : State} : Moves s s' → s.buf = some id → s.bufHeld = some id →
      s'.buf = s.buf → s'.name = s.name → s'.next = s.next → s'.func.hasBuf = s.func.hasBuf →
      s'.bufHeld = none → s.newHeld = none → s'.newHeld = none →
      FuncStep s (some (.heap (.free id))) s'
  | clear {s' : State} : Moves s s' → s.bufHeld = none → s'.buf = none → s'.name = s.name →
      s'.next = s.next → s'.func.hasBuf = false → s'.newHeld = s.newHeld → FuncStep s none s'

/-- Every step of `thread_func` that meets the condition. -/
theorem threadFunc_cases (h : FuncOk s) (hok : Orderly s (.func, c))
    (hs : threadFunc c s = some (e, s')) : FuncStep s e s' := by
  obtain ⟨hbuf, hpushed, hname⟩ := h
  unfold threadFunc at hs
  split at hs
  -- the steps that only print or set a flag
  case h_2 | h_3 | h_4 | h_5 | h_6 | h_8 | h_9 | h_12 | h_14 | h_15 | h_17 =>
    rename_i hpc
    rw [hpc] at hpushed
    simp only [Option.some.injEq, Prod.mk.injEq] at hs
    obtain ⟨rfl, rfl⟩ := hs
    refine .move ⟨rfl, rfl, by simp [hpushed, FuncPc.guarded], ?_, by simp [hpc]⟩
      (by simp [Event.silent]) rfl rfl rfl (by rw [hpc]; rfl) ?_ ?_
    · simp [hpc, FuncPc.unnamed]
    · simp [State.bufHeld, hpc]
    · simp [State.newHeld, hpc]
  case h_1 hpc =>
    rw [hpc] at hbuf hpushed hname
    simp only [Option.some.injEq, Prod.mk.injEq] at hs
    obtain ⟨rfl, rfl⟩ := hs
    refine .malloc ⟨rfl, rfl, hpushed, fun _ => by rw [hpc]; rfl, by simp [hpc]⟩ ?_ (hname rfl)
      ?_ rfl rfl rfl rfl
    · simpa [FuncPc.hasBuf] using hbuf
    · simp [State.newHeld, hpc]
  -- the steps that use the buffer
  case h_7 str hpc =>
    rw [hpc] at hbuf hpushed
    obtain ⟨id, hid⟩ := Option.isSome_iff_exists.mp hbuf
    rw [Option.ite_none_right_eq_some] at hs
    simp only [hid, Option.some.injEq, Prod.mk.injEq] at hs
    obtain ⟨-, rfl, rfl⟩ := hs
    refine .use ⟨rfl, rfl, hpushed, fun _ => by rw [hpc]; rfl, by simp [hpc]⟩ hid hid.symm rfl rfl
      (by rw [hpc]; rfl) ?_ ?_ ?_
    · simp [State.bufHeld, hpc, hid]
    · simp [State.bufHeld]
    · simp [State.newHeld, hpc]
  case h_10 hpc =>
    rw [hpc] at hbuf hpushed
    obtain ⟨id, hid⟩ := Option.isSome_iff_exists.mp hbuf
    simp only [hid, Option.some.injEq, Prod.mk.injEq] at hs
    obtain ⟨rfl, rfl⟩ := hs
    refine .use ⟨rfl, rfl, hpushed, fun _ => by rw [hpc]; rfl, by simp [hpc]⟩ hid hid.symm rfl rfl
      (by rw [hpc]; rfl) ?_ ?_ ?_
    · simp [State.bufHeld, hpc, hid]
    · simp [State.bufHeld]
    · simp [State.newHeld, hpc]
  case h_11 hpc =>
    rw [hpc] at hpushed hname
    simp only [Option.some.injEq, Prod.mk.injEq] at hs
    obtain ⟨rfl, rfl⟩ := hs
    exact .strdup ⟨rfl, rfl, hpushed, fun _ => by rw [hpc]; rfl, by simp [hpc]⟩ hpc (hname rfl)
      rfl rfl rfl rfl
  case h_13 hpc =>
    rw [hpc] at hpushed hname
    simp only [Option.some.injEq, Prod.mk.injEq] at hs
    obtain ⟨rfl, rfl⟩ := hs
    exact .setName ⟨rfl, rfl, hpushed, nofun, by simp [hpc]⟩ hpc (hname rfl) rfl rfl rfl rfl
  -- the clean-up handler, called by `pthread_cleanup_pop` or because of the cancellation
  case h_16 r hpc | h_18 r hpc =>
    rw [hpc] at hbuf hpushed
    cases r with
    | test =>
      obtain ⟨id, hid⟩ := Option.isSome_iff_exists.mp hbuf
      simp only [releaseBuffer, hid, Option.isSome_some, if_true, Option.elim_some,
        Option.some.injEq, Prod.mk.injEq] at hs
      obtain ⟨rfl, rfl⟩ := hs
      refine .move ⟨rfl, rfl, hpushed, nofun, by simp [hpc]⟩ (by simp) hid.symm rfl rfl
        (by rw [hpc]; rfl) ?_ ?_
      · simp [State.bufHeld, hpc, hid]
      · simp [State.newHeld, hpc]
    | free =>
      obtain ⟨id, hid⟩ := Option.isSome_iff_exists.mp hbuf
      simp only [releaseBuffer, hid, Option.map_some, Option.elim_some, Option.some.injEq,
        Prod.mk.injEq] at hs
      obtain ⟨rfl, rfl⟩ := hs
      refine .free ⟨rfl, rfl, hpushed, nofun, by simp [hpc]⟩ hid ?_ hid.symm rfl rfl
        (by rw [hpc]; rfl) ?_ ?_ ?_
      · simp [State.bufHeld, hpc, hid]
      · simp [State.bufHeld]
      · simp [State.newHeld, hpc]
      · simp [State.newHeld]
    | clear =>
      simp only [releaseBuffer, Option.elim_some, Option.some.injEq, Prod.mk.injEq] at hs
      obtain ⟨rfl, rfl⟩ := hs
      refine .clear ⟨rfl, rfl, hpushed, nofun, by simp [hpc]⟩ ?_ rfl rfl rfl rfl ?_
      · simp [State.bufHeld, hpc]
      · simp [State.newHeld, hpc]
    | print =>
      simp only [releaseBuffer, Option.elim_none, Option.some.injEq, Prod.mk.injEq] at hs
      obtain ⟨rfl, rfl⟩ := hs
      refine .move ⟨rfl, rfl, hpushed, nofun, by simp [hpc]⟩ (by simp [Event.silent]) rfl rfl rfl
        (by rw [hpc]; rfl) ?_ ?_
      · simp [State.bufHeld, hpc]
      · simp [State.newHeld, hpc]
  -- a cancellation
  case h_19 =>
    rw [Option.ite_none_right_eq_some] at hs
    obtain ⟨⟨-, hpoint⟩, hs⟩ := hs
    simp only [Option.some.injEq, Prod.mk.injEq] at hs
    obtain ⟨rfl, rfl⟩ := hs
    have hmove : s.cancel.func.guarded = false → s.cancel.func.unnamed = false →
        s.cancel.func.hasBuf = s.func.hasBuf → s.cancel.bufHeld = s.bufHeld →
        s.cancel.newHeld = s.newHeld → (s.func ≠ .ended ∧ s.func ≠ .notCreated) →
        FuncStep s none s.cancel := fun hguarded hunnamed hhas hheld hnew hstarted =>
      .move ⟨rfl, rfl, hguarded.symm, by simp [hunnamed], hstarted⟩ (by simp) rfl rfl rfl hhas hheld
        hnew
    cases hpc : s.func <;> rw [hpc] at hpoint hpushed
    -- the handler is not pushed yet: excluded
    case printAllocated => exact absurd ⟨rfl, hpc⟩ hok.1
    -- the handler is pushed, or there is no buffer
    case printEnter | fgets | printNameAllocated | perrorMalloc =>
      refine hmove ?_ ?_ ?_ ?_ ?_ ?_ <;>
        simp [State.cancel, State.bufHeld, State.newHeld, hpushed, hpc, FuncPc.guarded,
          FuncPc.unnamed, FuncPc.hasBuf]
    case releaseTmp r =>
      cases r with
      | test | free | clear => exact nomatch hpoint
      -- the buffer has been freed, and the handler popped
      | print =>
        refine hmove ?_ ?_ ?_ ?_ ?_ ?_ <;>
          simp [State.cancel, State.bufHeld, State.newHeld, hpushed, hpc, FuncPc.guarded,
            FuncPc.unnamed, FuncPc.hasBuf]
    -- no cancellation points
    all_goals exact nomatch hpoint
  case h_20 => exact nomatch hs

/-- What holds by where `thread_func` is. -/
theorem FuncStep.ok (h : FuncOk s) (hs : FuncStep s e s') : FuncOk s' := by
  cases hs with
  | move hmoves _ hbuf hname _ hhas _ _ =>
    refine ⟨?_, hmoves.pushed, fun hunnamed => ?_⟩
    · rw [hbuf, h.buf, hhas]
    · rw [hname, h.name (hmoves.unnamed hunnamed)]
  -- `buf` is allocated now, and not yet freed
  | malloc hmoves _ hnone _ hbuf hname _ hpc =>
    refine ⟨?_, hmoves.pushed, fun _ => hname.trans hnone⟩
    rw [hbuf, hpc]
    rfl
  | use hmoves _ hbuf hname _ hhas =>
    refine ⟨?_, hmoves.pushed, fun hunnamed => ?_⟩
    · rw [hbuf, h.buf, hhas]
    · rw [hname, h.name (hmoves.unnamed hunnamed)]
  -- `name` is still empty, the copy is only in a register
  | strdup hmoves hpc hnone hbuf hname _ hpc' =>
    refine ⟨?_, hmoves.pushed, fun _ => hname.trans hnone⟩
    rw [hbuf, h.buf, hpc, hpc']
    rfl
  | setName hmoves hpc _ hbuf _ _ hpc' =>
    refine ⟨?_, hmoves.pushed, fun hunnamed => ?_⟩
    · rw [hbuf, h.buf, hpc, hpc']
      rfl
    -- the thread has set `name`, so that nothing is said about it
    · rw [hpc'] at hunnamed
      exact nomatch hunnamed
  | free hmoves _ _ hbuf hname _ hhas =>
    refine ⟨?_, hmoves.pushed, fun hunnamed => ?_⟩
    · rw [hbuf, h.buf, hhas]
    · rw [hname, h.name (hmoves.unnamed hunnamed)]
  -- `buf` is cleared after it has been freed
  | clear hmoves _ hbuf hname _ hhas =>
    refine ⟨?_, hmoves.pushed, fun hunnamed => ?_⟩
    · rw [hbuf, hhas]
      rfl
    · rw [hname, h.name (hmoves.unnamed hunnamed)]

theorem heapEvents_silent (he : ∀ x ∈ e, x.silent = true) : heapEvents e.toList = [] := by
  cases e with
  | none => rfl
  | some x =>
    have hx := he x rfl
    cases x with
    | print | perror => rfl
    | heap | setName | enteredName => exact nomatch hx

/-- The blocks that are held, by who holds them. -/
theorem mem_held : id ∈ s.held ↔
    s.bufHeld = some id ∨ s.nameHeld = some id ∨ s.newHeld = some id := Iff.rfl

/-- The block of the buffer is what `buf` points to. -/
theorem bufHeld_some (h : s.bufHeld = some id) : s.buf = some id := by
  unfold State.bufHeld at h
  split at h
  · exact nomatch h
  · exact h

theorem held_congr (hbuf : s'.bufHeld = s.bufHeld) (hname : s'.nameHeld = s.nameHeld)
    (hnew : s'.newHeld = s.newHeld) : s'.held = s.held := by
  unfold State.held
  rw [hbuf, hname, hnew]

/-- What happens to the blocks, while the main thread is not freeing the name. -/
theorem FuncStep.heap (hapart : Apart s) (hmain : s.main ≠ .releaseName .clear)
    (hlt : ∀ id ∈ s.held, id < s.next) (hs : FuncStep s e s') :
    HeapStep s s' (heapEvents e.toList) ∧ Apart s' := by
  have hnameHeld : s.nameHeld = s.name := if_neg hmain
  have hnameHeld' : ∀ {s' : State}, s'.main = s.main → s'.nameHeld = s'.name := fun heq =>
    if_neg (heq ▸ hmain)
  cases hs with
  | move hmoves he hbuf hname hnext _ hheld hnew =>
    rw [heapEvents_silent he]
    refine ⟨.none hnext (held_congr hheld ?_ hnew), fun id hid => ?_⟩
    · rw [hnameHeld' hmoves.main, hname, hnameHeld]
    · rw [hname, hnew]
      exact hapart id (hbuf ▸ hid)
  | malloc hmoves hnone hnoname hnonew hbuf hname hnext hpc =>
    -- nothing is held before
    have hnew : s'.newHeld = none := by simp [State.newHeld, hpc]
    have hheld : s.bufHeld = none := by
      unfold State.bufHeld
      rw [hnone, ite_self]
    have hheld' : s'.bufHeld = some s.next := by simp [State.bufHeld, hpc, hbuf]
    refine ⟨.alloc hnext (Set.ext fun id => ?_), fun id _ => ?_⟩
    · rw [Set.mem_insert_iff, mem_held, mem_held, hheld, hheld', hnew, hnonew,
        hnameHeld' hmoves.main, hnameHeld, hname, hnoname]
      simp [eq_comm]
    · rw [hname, hnoname, hnew]
      exact ⟨nofun, nofun⟩
  | @use id _ hmoves hid hbuf hname hnext _ hheld hheld' hnew =>
    refine ⟨.use hnext (.inl hheld) (held_congr (hheld'.trans hheld.symm) ?_ hnew),
      fun id hid => ?_⟩
    · rw [hnameHeld' hmoves.main, hname, hnameHeld]
    · rw [hname, hnew]
      exact hapart id (hbuf ▸ hid)
  | strdup hmoves hpc hnoname hbuf hname hnext hpc' =>
    have hnew : s.newHeld = none := by simp [State.newHeld, hpc]
    have hnew' : s'.newHeld = some s.next := by simp [State.newHeld, hpc']
    have hheld : s.bufHeld = s.buf := by simp [State.bufHeld, hpc]
    have hheld' : s'.bufHeld = s.buf := by simp [State.bufHeld, hpc', hbuf]
    refine ⟨.alloc hnext (Set.ext fun id => ?_), fun id hid => ?_⟩
    · rw [Set.mem_insert_iff, mem_held, mem_held, hheld, hheld', hnew, hnew',
        hnameHeld' hmoves.main, hnameHeld, hname, hnoname]
      simp [eq_comm, or_comm]
    · -- the new block is not the buffer
      rw [hname, hnoname, hnew']
      refine ⟨nofun, fun heq => ?_⟩
      obtain rfl := Option.some.inj heq
      exact lt_irrefl _ (hlt s.next (.inl (hheld.trans (hbuf ▸ hid))))
  | @setName p _ hmoves hpc hnoname hbuf hname hnext hpc' =>
    have hnew : s.newHeld = p := by simp [State.newHeld, hpc]
    have hnew' : s'.newHeld = none := by simp [State.newHeld, hpc']
    have hheld : s'.bufHeld = s.bufHeld := by simp [State.bufHeld, hpc, hpc', hbuf]
    -- the block passes from `strdup` to `name`, which held none before
    refine ⟨.none hnext (Set.ext fun id => ?_), fun id hid => ?_⟩
    · rw [mem_held, mem_held, hheld, hnew, hnew', hnameHeld' hmoves.main, hnameHeld, hname, hnoname]
      simp
    · rw [hname, hnew']
      exact ⟨hnew ▸ (hapart id (hbuf ▸ hid)).2, nofun⟩
  | @free id _ hmoves hid hheld hbuf hname hnext _ hheld' hnew hnew' =>
    refine ⟨.free hnext (.inl hheld) (Set.ext fun id' => ?_), fun id' hid' => ?_⟩
    · rw [Set.mem_sdiff, mem_held, mem_held, hheld, hheld', hnew, hnew', hnameHeld' hmoves.main,
        hnameHeld, hname]
      -- the name is another block, and stays held
      have hne := (hapart id hid).1
      constructor
      · rintro (h | h | h)
        · exact nomatch h
        · exact ⟨.inr (.inl h), fun heq => hne (heq ▸ h)⟩
        · exact nomatch h
      · rintro ⟨h | h | h, hid'⟩
        · exact absurd (Option.some.inj h).symm hid'
        · exact .inr (.inl h)
        · exact nomatch h
    · rw [hname, hnew']
      exact ⟨(hapart id' (hbuf ▸ hid')).1, nofun⟩
  | clear hmoves hheld hbuf hname hnext _ hnew =>
    have hheld' : s'.bufHeld = none := by
      unfold State.bufHeld
      rw [hbuf, ite_self]
    refine ⟨.none hnext (held_congr (hheld'.trans hheld.symm) ?_ hnew), fun id hid => ?_⟩
    · rw [hnameHeld' hmoves.main, hname, hnameHeld]
    · rw [hbuf] at hid
      exact nomatch hid

/-! ## The main thread -/

/-- `thread_func` does not run. -/
def State.Stopped (s : State) : Prop := s.func = .ended ∨ s.func = .notCreated

theorem State.Stopped.newHeld (h : s.Stopped) : s.newHeld = none := by
  rcases h with h | h <;> simp [State.newHeld, h]

/-- What holds by where the main thread is. -/
def MainOk (s : State) : Prop :=
  match s.main with
  | .semInit | .perrorSemInit | .setInitialized | .pthreadCreate => s.func = .notCreated
  | .testTimeout => s.timeoutGone = false → s.name.isSome
  | .readName => s.name.isSome
  | .printName p => p.isSome ∧ s.name = p
  | .printExiting | .testInitialized | .semDestroy | .perrorDestroy | .clearInitialized
  | .releaseName .test => s.Stopped
  | .releaseName .free | .releaseName .clear => s.Stopped ∧ s.name.isSome
  | .releaseName .print | .ended => s.Stopped ∧ s.name = none
  | _ => True

/-- What most steps of the main thread leave as it is. -/
structure Same (s s' : State) : Prop where
  func : s'.func = s.func
  buf : s'.buf = s.buf
  pushed : s'.pushed = s.pushed
  next : s'.next = s.next

/-- The steps of the main thread. -/
inductive MainStep (s : State) : Option Event → State → Prop
  | move {e : Option Event} {s' : State} : Same s s' → (∀ x ∈ e, x.silent = true) →
      s'.name = s.name → s'.nameHeld = s.nameHeld → MainStep s e s'
  | create {s' : State} : s.func = .notCreated → s'.func = .malloc → s'.buf = s.buf →
      s'.pushed = s.pushed → s'.next = s.next → s'.name = s.name → s'.nameHeld = s.nameHeld →
      MainStep s none s'
  | printName {id : ℕ} {s' : State} : Same s s' → s.nameHeld = some id → s.name = some id →
      s'.name = s.name → s'.nameHeld = s.nameHeld →
      MainStep s (some (.enteredName (some id) (some (s.heap id)))) s'
  | free {id : ℕ} {s' : State} : Same s s' → s.main = .releaseName .free → s.name = some id →
      s'.name = s.name → s'.main = .releaseName .clear → MainStep s (some (.heap (.free id))) s'
  | clear {s' : State} : Same s s' → s.main = .releaseName .clear → s'.name = none →
      s'.main = .releaseName .print → MainStep s none s'

/-- Every step of the main thread that meets the condition. -/
theorem mainStep_cases (h : MainOk s) (hok : Orderly s (.main, c))
    (hs : mainStep c s = some (e, s')) : MainStep s e s' ∧ MainOk s' := by
  unfold MainOk at h
  unfold mainStep at hs
  split at hs
  -- the steps to places of which nothing is to be known
  case h_8 | h_9 | h_11 | h_13 | h_14 | h_16 | h_17 =>
    rename_i hpc
    simp only [Option.some.injEq, Prod.mk.injEq] at hs
    obtain ⟨rfl, rfl⟩ := hs
    exact ⟨.move ⟨rfl, rfl, rfl, rfl⟩ (by simp [Event.silent]) rfl (by simp [State.nameHeld, hpc]),
      trivial⟩
  case h_6 | h_7 | h_15 =>
    rename_i hpc
    rw [Option.ite_none_right_eq_some] at hs
    simp only [Option.some.injEq, Prod.mk.injEq] at hs
    obtain ⟨-, rfl, rfl⟩ := hs
    exact ⟨.move ⟨rfl, rfl, rfl, rfl⟩ (by simp) rfl (by simp [State.nameHeld, hpc]), trivial⟩
  -- the steps that keep what is known
  case h_1 | h_2 | h_4 | h_21 | h_23 | h_24 | h_25 | h_26 =>
    rename_i hpc
    rw [hpc] at h
    simp only [Option.some.injEq, Prod.mk.injEq] at hs
    obtain ⟨rfl, rfl⟩ := hs
    exact ⟨.move ⟨rfl, rfl, rfl, rfl⟩ (by simp [Event.silent]) rfl (by simp [State.nameHeld, hpc]),
      h⟩
  case h_3 hpc =>
    rw [hpc] at h
    simp only [Option.some.injEq, Prod.mk.injEq] at hs
    obtain ⟨rfl, rfl⟩ := hs
    exact ⟨.move ⟨rfl, rfl, rfl, rfl⟩ (by simp [Event.silent]) rfl (by simp [State.nameHeld, hpc]),
      .inr h⟩
  case h_5 hpc =>
    rw [hpc] at h
    simp only [Option.some.injEq, Prod.mk.injEq] at hs
    obtain ⟨rfl, rfl⟩ := hs
    exact ⟨.create h rfl rfl rfl rfl rfl (by simp [State.nameHeld, hpc]), trivial⟩
  -- the tests
  case h_10 hpc =>
    simp only [Option.some.injEq, Prod.mk.injEq] at hs
    obtain ⟨rfl, rfl⟩ := hs
    -- what the condition is for: without a time-out, a failed `fgets` or a name
    have hname := hok.2 rfl hpc
    by_cases herror : s.fgetsExitedWithError = true
    · simp only [herror, if_true]
      exact ⟨.move ⟨rfl, rfl, rfl, rfl⟩ (by simp) rfl (by simp [State.nameHeld, hpc]), trivial⟩
    · simp only [herror, Bool.false_eq_true, if_false]
      exact ⟨.move ⟨rfl, rfl, rfl, rfl⟩ (by simp) rfl (by simp [State.nameHeld, hpc]),
        fun htime => (hname htime).resolve_left herror⟩
  case h_12 hpc =>
    rw [hpc] at h
    simp only [Option.some.injEq, Prod.mk.injEq] at hs
    obtain ⟨rfl, rfl⟩ := hs
    cases htime : s.timeoutGone with
    | true =>
      exact ⟨.move ⟨rfl, rfl, rfl, rfl⟩ (by simp) rfl (by simp [State.nameHeld, hpc]), trivial⟩
    | false =>
      exact ⟨.move ⟨rfl, rfl, rfl, rfl⟩ (by simp) rfl (by simp [State.nameHeld, hpc]),
        h htime⟩
  case h_22 hpc =>
    rw [hpc] at h
    simp only [Option.some.injEq, Prod.mk.injEq] at hs
    obtain ⟨rfl, rfl⟩ := hs
    split
    · exact ⟨.move ⟨rfl, rfl, rfl, rfl⟩ (by simp) rfl (by simp [State.nameHeld, hpc]), h⟩
    · exact ⟨.move ⟨rfl, rfl, rfl, rfl⟩ (by simp) rfl (by simp [State.nameHeld, hpc]), h⟩
  -- the name
  case h_18 hpc =>
    rw [hpc] at h
    simp only [Option.some.injEq, Prod.mk.injEq] at hs
    obtain ⟨rfl, rfl⟩ := hs
    exact ⟨.move ⟨rfl, rfl, rfl, rfl⟩ (by simp) rfl (by simp [State.nameHeld, hpc]), h, rfl⟩
  case h_19 p hpc =>
    rw [hpc] at h
    obtain ⟨hsome, hname⟩ := h
    obtain ⟨id, rfl⟩ := Option.isSome_iff_exists.mp hsome
    simp only [Option.map_some, Option.some.injEq, Prod.mk.injEq] at hs
    obtain ⟨rfl, rfl⟩ := hs
    exact ⟨.printName ⟨rfl, rfl, rfl, rfl⟩ (by simp [State.nameHeld, hpc, hname]) hname rfl
      (by simp [State.nameHeld, hpc]), trivial⟩
  case h_20 hpc =>
    rw [Option.ite_none_right_eq_some] at hs
    simp only [Option.some.injEq, Prod.mk.injEq] at hs
    obtain ⟨hended, rfl, rfl⟩ := hs
    exact ⟨.move ⟨rfl, rfl, rfl, rfl⟩ (by simp) rfl (by simp [State.nameHeld, hpc]),
      .inl hended⟩
  case h_27 r hpc =>
    rw [hpc] at h
    cases r with
    | test =>
      cases hname : s.name with
      | none =>
        simp only [releaseBuffer, hname, Option.isSome_none, Bool.false_eq_true, if_false,
          Option.elim_none, Option.some.injEq, Prod.mk.injEq] at hs
        obtain ⟨rfl, rfl⟩ := hs
        exact ⟨.move ⟨rfl, rfl, rfl, rfl⟩ (by simp) hname.symm
          (by simp [State.nameHeld, hpc, hname]), h, rfl⟩
      | some id =>
        simp only [releaseBuffer, hname, Option.isSome_some, if_true, Option.elim_some,
          Option.some.injEq, Prod.mk.injEq] at hs
        obtain ⟨rfl, rfl⟩ := hs
        exact ⟨.move ⟨rfl, rfl, rfl, rfl⟩ (by simp) hname.symm
          (by simp [State.nameHeld, hpc, hname]), h, rfl⟩
    | free =>
      obtain ⟨hstopped, hsome⟩ := h
      obtain ⟨id, hid⟩ := Option.isSome_iff_exists.mp hsome
      simp only [releaseBuffer, hid, Option.map_some, Option.elim_some, Option.some.injEq,
        Prod.mk.injEq] at hs
      obtain ⟨rfl, rfl⟩ := hs
      exact ⟨.free ⟨rfl, rfl, rfl, rfl⟩ hpc hid hid.symm rfl, hstopped, rfl⟩
    | clear =>
      simp only [releaseBuffer, Option.elim_some, Option.some.injEq, Prod.mk.injEq] at hs
      obtain ⟨rfl, rfl⟩ := hs
      exact ⟨.clear ⟨rfl, rfl, rfl, rfl⟩ hpc rfl rfl, h.1, rfl⟩
    | print =>
      simp only [releaseBuffer, Option.elim_none, Option.some.injEq, Prod.mk.injEq] at hs
      obtain ⟨rfl, rfl⟩ := hs
      exact ⟨.move ⟨rfl, rfl, rfl, rfl⟩ (by simp [Event.silent]) rfl
        (by simp [State.nameHeld, hpc]), h⟩
  case h_28 => exact nomatch hs

/-- What holds by where `thread_func` is. -/
theorem MainStep.ok (h : FuncOk s) (hs : MainStep s e s') : FuncOk s' := by
  -- `main` leaves `buf` and the handlers alone; at most it clears `name`
  have hsame : Same s s' → (s'.name = s.name ∨ s'.name = none) → FuncOk s' := by
    intro hsame hname
    refine ⟨?_, ?_, fun hunnamed => ?_⟩
    · rw [hsame.buf, hsame.func, h.buf]
    · rw [hsame.pushed, hsame.func, h.pushed]
    · rcases hname with hname | hname
      · rw [hname]
        exact h.name (hsame.func ▸ hunnamed)
      · exact hname
  cases hs with
  | move hs _ hname => exact hsame hs (.inl hname)
  | printName hs _ _ hname => exact hsame hs (.inl hname)
  | free hs _ _ hname => exact hsame hs (.inl hname)
  | clear hs _ hname => exact hsame hs (.inr hname)
  -- the thread starts with nothing allocated and no handler
  | create hpc hpc' hbuf hpushed _ hname =>
    have hbuf₀ := h.buf
    have hpushed₀ := h.pushed
    rw [hpc] at hbuf₀ hpushed₀
    refine ⟨?_, ?_, fun _ => ?_⟩
    · rw [hbuf, hpc', hbuf₀]
      rfl
    · rw [hpushed, hpc', hpushed₀]
      rfl
    · rw [hname]
      exact h.name (by rw [hpc]; rfl)

/-- What happens to the blocks. -/
theorem MainStep.heap (h : MainOk s) (hapart : Apart s) (hs : MainStep s e s') :
    HeapStep s s' (heapEvents e.toList) ∧ Apart s' := by
  have hsame : Same s s' → s'.bufHeld = s.bufHeld ∧ s'.newHeld = s.newHeld := by
    intro hsame
    unfold State.bufHeld State.newHeld
    rw [hsame.func, hsame.buf]
    exact ⟨rfl, rfl⟩
  have happart : Same s s' → (s'.name = s.name ∨ s'.name = none) → Apart s' := by
    intro hs hname id hid
    have hid' := hapart id (hs.buf ▸ hid)
    rw [(hsame hs).2]
    rcases hname with hname | hname
    · exact hname ▸ hid'
    · exact ⟨hname ▸ nofun, hid'.2⟩
  cases hs with
  | move hs he hname hheld =>
    rw [heapEvents_silent he]
    exact ⟨.none hs.next (held_congr (hsame hs).1 hheld (hsame hs).2), happart hs (.inl hname)⟩
  | create hpc hpc' hbuf _ hnext hname hheld =>
    have hbuf' : s'.bufHeld = s.bufHeld := by simp [State.bufHeld, hpc, hpc', hbuf]
    have hnew : s'.newHeld = s.newHeld := by simp [State.newHeld, hpc, hpc']
    refine ⟨.none hnext (held_congr hbuf' hheld hnew), fun id hid => ?_⟩
    rw [hname, hnew]
    exact hapart id (hbuf ▸ hid)
  | printName hs hheld _ hname hheld' =>
    exact ⟨.use hs.next (.inr (.inl hheld)) (held_congr (hsame hs).1 hheld' (hsame hs).2),
      happart hs (.inl hname)⟩
  | @free id _ hs hpc hid hname hpc' =>
    have hheld : s.nameHeld = some id := by simp [State.nameHeld, hpc, hid]
    have hheld' : s'.nameHeld = none := by simp [State.nameHeld, hpc']
    have hnew : s.newHeld = none := by
      rw [MainOk, hpc] at h
      exact h.1.newHeld
    -- `thread_func` has ended, and a buffer would be another block
    have hne : s.bufHeld ≠ some id := fun heq => (hapart id (bufHeld_some heq)).1 hid
    refine ⟨.free hs.next (.inr (.inl hheld)) (Set.ext fun id' => ?_), happart hs (.inl hname)⟩
    rw [Set.mem_sdiff, mem_held, mem_held, (hsame hs).1, (hsame hs).2, hheld, hheld', hnew]
    constructor
    · rintro (h | h | h)
      · exact ⟨.inl h, fun heq => hne (heq ▸ h)⟩
      · exact nomatch h
      · exact nomatch h
    · rintro ⟨h | h | h, hid'⟩
      · exact .inl h
      · exact absurd (Option.some.inj h).symm hid'
      · exact nomatch h
  | clear hs hpc hname hpc' =>
    have hheld : s'.nameHeld = s.nameHeld := by simp [State.nameHeld, hpc, hpc', hname]
    exact ⟨.none hs.next (held_congr (hsame hs).1 hheld (hsame hs).2), happart hs (.inr hname)⟩

/-! ## Both threads -/

theorem FuncStep.moves (hs : FuncStep s e s') : Moves s s' := by
  cases hs with
  | move h | malloc h | use h | strdup h | setName h | free h | clear h => exact h

theorem FuncStep.running (hs : FuncStep s e s') : ¬ s.Stopped := by
  obtain ⟨hended, hcreated⟩ := hs.moves.started
  rintro (hpc | hpc)
  · exact hended hpc
  · exact hcreated hpc

theorem FuncStep.not_clear (h : MainOk s) (hs : FuncStep s e s') :
    s.main ≠ .releaseName .clear := by
  intro hpc
  rw [MainOk, hpc] at h
  exact hs.running h.1

/-- A step of `thread_func` changes nothing that the main thread relies on. -/
theorem FuncStep.mainOk (h : MainOk s) (hs : FuncStep s e s') : MainOk s' := by
  have hmoves := hs.moves
  have hrunning := hs.running
  have hname : s.name.isSome → s'.name = s.name := by
    intro hsome
    cases hs with
    | move _ _ _ hname | use _ _ _ hname | free _ _ _ _ hname | clear _ _ _ hname => exact hname
    | malloc _ _ hnone | strdup _ _ hnone | setName _ _ hnone =>
      rw [hnone] at hsome
      exact nomatch hsome
  unfold MainOk at h ⊢
  rw [hmoves.main]
  split at h
  -- where the thread does not exist yet or has ended, it takes no step
  case h_1 | h_2 | h_3 | h_4 => exact absurd (.inr h) hrunning
  case h_5 =>
    rw [hmoves.timeoutGone]
    exact fun htime => (hname (h htime)).symm ▸ h htime
  case h_6 => exact (hname h).symm ▸ h
  case h_7 => exact ⟨h.1, (hname (h.2.symm ▸ h.1)).trans h.2⟩
  case h_8 | h_9 | h_10 | h_11 | h_12 | h_13 => exact absurd h hrunning
  case h_14 | h_15 | h_16 | h_17 => exact absurd h.1 hrunning
  case h_18 => trivial

/-- The main thread prints a name only after one has been stored. -/
def NameStored (tr : List Event) : Prop :=
  tr.EachAfter fun pre e => ∀ p name, e = .enteredName p name →
    ∃ id, p = some id ∧ .setName (some id) ∈ pre

/-- What holds after the events `tr`. -/
structure Inv (tr : List Event) (s : State) : Prop where
  owned : Owned (heapEvents tr) s.next s.held
  apart : Apart s
  func : FuncOk s
  main : MainOk s
  stored : ∀ id, s.name = some id → .setName (some id) ∈ tr
  printed : NameStored tr

theorem held_initial : initial.held = ∅ := by
  refine Set.eq_empty_iff_forall_notMem.mpr fun id hid => ?_
  rcases hid with hid | hid | hid <;> exact nomatch hid

theorem Inv.initial : Inv [] initial where
  owned := by
    rw [held_initial]
    exact .nil 0
  apart _ := nofun
  func := ⟨rfl, rfl, fun _ => rfl⟩
  main := rfl
  stored _ := nofun
  printed := List.eachAfter_nil

/-- The blocks that are held have been obtained. -/
theorem Inv.lt_next (h : Inv tr s) : ∀ id ∈ s.held, id < s.next := fun id hid =>
  h.owned.fresh id ((h.owned.live id).mpr hid).1

theorem heapEvents_append (tr tr' : List Event) :
    heapEvents (tr ++ tr') = heapEvents tr ++ heapEvents tr' := List.filterMap_append

/-- An event that prints no name. -/
theorem NameStored.append (h : NameStored tr) (he : ∀ p name, e ≠ some (.enteredName p name)) :
    NameStored (tr ++ e.toList) := by
  cases e with
  | none => simpa using h
  | some e =>
    exact List.eachAfter_snoc.mpr ⟨h, fun p name heq => absurd (congrArg some heq) (he p name)⟩

/-- A name that has been stored, in a step that stores none. -/
theorem stored_append (h : ∀ id, s.name = some id → .setName (some id) ∈ tr)
    (hname : s'.name = s.name ∨ s'.name = none) (id : ℕ) (hid : s'.name = some id) :
    .setName (some id) ∈ tr ++ e.toList := by
  rcases hname with hname | hname
  · exact List.mem_append_left _ (h id (hname ▸ hid))
  · rw [hname] at hid
    exact nomatch hid

/-- A step of `thread_func`. -/
theorem Inv.funcStep (h : Inv tr s) (hs : FuncStep s e s') : Inv (tr ++ e.toList) s' := by
  have hmain := hs.mainOk h.main
  obtain ⟨hheap, hapart⟩ := hs.heap h.apart (hs.not_clear h.main) h.lt_next
  have howned := hheap.owned h.owned
  rw [← heapEvents_append] at howned
  refine ⟨howned, hapart, hs.ok h.func, hmain, fun id hid => ?_, h.printed.append ?_⟩
  · cases hs with
    | setName _ _ _ _ hname =>
      rw [← hname, hid]
      simp
    | move _ _ _ hname | malloc _ _ _ _ _ hname | use _ _ _ hname | strdup _ _ _ _ hname
    | free _ _ _ _ hname | clear _ _ _ hname => exact stored_append h.stored (.inl hname) id hid
  · cases hs with
    | move _ he =>
      rintro p name rfl
      exact nomatch he _ rfl
    | setName | malloc | use | strdup | free | clear => exact nofun

/-- A step of the main thread. -/
theorem Inv.mainStep (h : Inv tr s) (hs : MainStep s e s') (hmain : MainOk s') :
    Inv (tr ++ e.toList) s' := by
  obtain ⟨hheap, hapart⟩ := hs.heap h.main h.apart
  have howned := hheap.owned h.owned
  rw [← heapEvents_append] at howned
  refine ⟨howned, hapart, hs.ok h.func, hmain, fun id hid => ?_, ?_⟩
  · cases hs with
    | move _ _ hname | create _ _ _ _ _ hname | printName _ _ _ hname | free _ _ _ hname =>
      exact stored_append h.stored (.inl hname) id hid
    | clear _ _ hname => exact stored_append h.stored (.inr hname) id hid
  · cases hs with
    | @printName id _ _ _ hid =>
      refine List.eachAfter_snoc.mpr ⟨h.printed, fun p name heq => ?_⟩
      obtain ⟨rfl, -⟩ := Event.enteredName.inj heq
      exact ⟨id, rfl, h.stored id hid⟩
    | move _ he =>
      refine h.printed.append ?_
      rintro p name rfl
      exact nomatch he _ rfl
    | create | free | clear => exact h.printed.append nofun

/-- A step that meets the condition. -/
theorem Inv.step {a : Thread × Choice} (h : Inv tr s) (hok : Orderly s a)
    (hs : machine.step s a = some (e, s')) : Inv (tr ++ e.toList) s' := by
  obtain ⟨t, c⟩ := a
  cases t with
  | main =>
    obtain ⟨hs, hmain⟩ := mainStep_cases h.main hok hs
    exact h.mainStep hs hmain
  | func => exact h.funcStep (threadFunc_cases h.func hok hs)

/-- Every run whose steps meet the condition. -/
theorem run_inv (h : (machine.restrict Orderly).Run initial tr s) : Inv tr s := by
  refine h.trace_invariant (I := Inv) (fun tr s a e s' hI hs => ?_) .initial
  obtain ⟨hok, hs⟩ := Machine.restrict_step.mp hs
  exact hI.step hok hs

/-- When the main thread has ended, no block is held. -/
theorem Inv.held_ended (h : Inv tr s) (hended : s.main = .ended) : s.held = ∅ := by
  have hmain := h.main
  rw [MainOk, hended] at hmain
  obtain ⟨hstopped, hname⟩ := hmain
  have hbuf : s.buf = none := by
    have hbuf := h.func.buf
    rcases hstopped with hpc | hpc <;> rw [hpc] at hbuf <;> simpa [FuncPc.hasBuf] using hbuf
  refine Set.eq_empty_iff_forall_notMem.mpr fun id hid => ?_
  rcases hid with hid | hid | hid
  · have hbuf' := bufHeld_some hid
    rw [hbuf] at hbuf'
    exact nomatch hbuf'
  · rw [State.nameHeld, hname, ite_self] at hid
    exact nomatch hid
  · rw [hstopped.newHeld] at hid
    exact nomatch hid

/-- In every run whose steps meet the condition: no block is freed twice or used after having been
    freed, a name is printed only after it has been stored, and at the end of the process each block
    that has been allocated has been freed exactly once. -/
theorem buffers_freed (tr : List Event) (s : State)
    (h : (machine.restrict Orderly).Run initial tr s) :
    Disciplined (heapEvents tr) ∧ NameStored tr ∧
      (s.main = .ended → ∀ id, .alloc id ∈ heapEvents tr →
        (heapEvents tr).count (.free id) = 1) := by
  have hinv := run_inv h
  refine ⟨hinv.owned.disciplined, hinv.printed, fun hended id halloc => ?_⟩
  refine hinv.owned.disciplined.freed_once (fun id hlive => ?_) halloc
  have hid := (hinv.owned.live id).mp hlive
  rw [hinv.held_ended hended] at hid
  exact hid

/-- The main thread up to the creation of the other one. -/
def create : List (Thread × Choice) := List.replicate 3 (.main, .ok)

/-- The end of the main thread, without a name. -/
def exitNoName : List (Thread × Choice) := List.replicate 7 (.main, .ok)

/-- A name is entered in time. -/
theorem buffers_freed_entered : ∃ tr s, (machine.restrict Orderly).Run initial tr s ∧
    s.main = .ended ∧ .enteredName (some 1) (some "Ada\n") ∈ tr ∧
    (heapEvents tr).count (.free 0) = 1 ∧ (heapEvents tr).count (.free 1) = 1 := by
  obtain ⟨tr, s, hrun, hended, hname, h0, h1⟩ : ∃ tr s,
      (machine.restrict Orderly).Run initial tr s ∧ s.main = .ended ∧
      .enteredName (some 1) (some "Ada\n") ∈ tr ∧ .alloc 0 ∈ heapEvents tr ∧
      .alloc 1 ∈ heapEvents tr :=
    ⟨_, _, .of_exec (M := machine.restrict Orderly)
      (create ++ List.replicate 4 (.func, .ok) ++ [(.func, .line "Ada\n")] ++
        List.replicate 10 (.func, .ok) ++ List.replicate 14 (.main, .ok)) rfl,
      rfl, by decide, by decide, by decide⟩
  have hfreed := (buffers_freed tr s hrun).2.2 hended
  exact ⟨tr, s, hrun, hended, hname, hfreed 0 h0, hfreed 1 h1⟩

/-- The time is up before the thread has come to its first `printf`, in which it is cancelled. -/
theorem buf_leaked : ∃ tr s, machine.Run initial tr s ∧ s.main = .ended ∧
    .alloc 0 ∈ heapEvents tr ∧ (heapEvents tr).count (.free 0) = 0 := by
  refine ⟨_, _, .of_exec (M := machine)
    (create ++ [(.func, .ok), (.main, .timeout)] ++ List.replicate 4 (.main, .ok) ++
      [(.func, .cancel)] ++ exitNoName) rfl, ?_, ?_, ?_⟩ <;> decide

/-- `strdup` fails, and the main thread prints the name nevertheless. -/
example : ∃ tr s, machine.Run initial tr s ∧ .enteredName none none ∈ tr :=
  ⟨_, _, .of_exec (M := machine) (create ++ List.replicate 4 (.func, .ok) ++
    [(.func, .line "Ada\n"), (.func, .ok), (.func, .fail)] ++ List.replicate 8 (.func, .ok) ++
    List.replicate 5 (.main, .ok)) rfl, by decide⟩

end PthreadCleanup
