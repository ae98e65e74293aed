import Mathlib.Tactic.Common
import OsSamples.Lib.Interleaving
import OsSamples.Native.RaceFork

/-!
# Which outputs are possible

Without a buffer, or if every character is flushed, the two lines may be mixed in any way.  With a
buffer each line stays in one piece; on a terminal they come in either order, and in a file the line
of the child comes first, since the parent waits for it before it writes its own out.

## Key results

- `step_cases`: what a step can do, one constructor of `Step` for each kind
- `Inv.step`: what has been written, what is in the buffers and what is left
- `possible_iff`: the outputs of all runs
-/

namespace RaceFork

variable {cfg : Config} {s s' : State} {e : Option Event} {tr : List Event} {a : Act}
  {p : Process} {c : Char} {done buffer ptr text w dc dp out : List Char} {fl : Bool}

/-! ## What a step can do -/

/-- The kinds of steps. -/
inductive Step (cfg : Config) (s : State) : Act → Option Event → State → Prop
  | fork (hpc : s.parent = .fork) : Step cfg s .parent none { s with
      parent := .putc parentStr
      child := .putc childStr
      stdout := Function.update s.stdout .child (s.stdout .parent) }
  | forkFails (hpc : s.parent = .fork) :
      Step cfg s .forkFails (some (.perror "fork error")) { s with parent := .exit 1 }
  | parentPutc {c : Char} {ptr : List Char} {e : Option Event} {s' : State}
      (hpc : s.parent = .putc (c :: ptr))
      (hputc : putc cfg .parent c
        { s with parent := if cfg.DO_FLUSH_OUT then .fflush ptr else .putc ptr } = (e, s')) :
      Step cfg s .parent e s'
  | parentFflush {ptr : List Char} {e : Option Event} {s' : State} (hpc : s.parent = .fflush ptr)
      (hflush : fflush .parent { s with parent := .putc ptr } = (e, s')) : Step cfg s .parent e s'
  | parentLoop (hpc : s.parent = .putc []) : Step cfg s .parent none { s with parent := .wait }
  | wait (hpc : s.parent = .wait) (hexited : s.child = .exited) :
      Step cfg s .parent none { s with parent := .exit EXIT_SUCCESS }
  | parentExit {status : ℤ} {e : Option Event} {s' : State} (hpc : s.parent = .exit status)
      (hflush : fflush .parent { s with parent := .exited status } = (e, s')) :
      Step cfg s .parent e s'
  | childPutc {c : Char} {ptr : List Char} {e : Option Event} {s' : State}
      (hpc : s.child = .putc (c :: ptr))
      (hputc : putc cfg .child c
        { s with child := if cfg.DO_FLUSH_OUT then .fflush ptr else .putc ptr } = (e, s')) :
      Step cfg s .child e s'
  | childFflush {ptr : List Char} {e : Option Event} {s' : State} (hpc : s.child = .fflush ptr)
      (hflush : fflush .child { s with child := .putc ptr } = (e, s')) : Step cfg s .child e s'
  | childLoop (hpc : s.child = .putc []) : Step cfg s .child none { s with child := .exit }
  | childExit {e : Option Event} {s' : State} (hpc : s.child = .exit)
      (hflush : fflush .child { s with child := .exited } = (e, s')) : Step cfg s .child e s'

/-- The steps of the parent. -/
theorem parentStep_cases (hs : parentStep cfg s = some (e, s')) : Step cfg s .parent e s' := by
  cases hpc : s.parent with
  | fork =>
    simp only [parentStep, hpc, Option.some.injEq, Prod.mk.injEq] at hs
    obtain ⟨rfl, rfl⟩ := hs
    exact .fork hpc
  -- with nothing left of the line the condition of the loop fails
  | putc ptr =>
    cases ptr with
    | nil =>
      simp only [parentStep, hpc, Option.some.injEq, Prod.mk.injEq] at hs
      obtain ⟨rfl, rfl⟩ := hs
      exact .parentLoop hpc
    | cons c ptr =>
      simp only [parentStep, hpc, Option.some.injEq] at hs
      exact .parentPutc hpc hs
  | fflush ptr =>
    simp only [parentStep, hpc, Option.some.injEq] at hs
    exact .parentFflush hpc hs
  | wait =>
    simp only [parentStep, hpc, Option.ite_none_right_eq_some, Option.some.injEq,
      Prod.mk.injEq] at hs
    obtain ⟨hexited, rfl, rfl⟩ := hs
    exact .wait hpc hexited
  | exit status =>
    simp only [parentStep, hpc, Option.some.injEq] at hs
    exact .parentExit hpc hs
  | exited status => simp [parentStep, hpc] at hs

/-- The steps of the child. -/
theorem childStep_cases (hs : childStep cfg s = some (e, s')) : Step cfg s .child e s' := by
  cases hpc : s.child with
  | putc ptr =>
    cases ptr with
    | nil =>
      simp only [childStep, hpc, Option.some.injEq, Prod.mk.injEq] at hs
      obtain ⟨rfl, rfl⟩ := hs
      exact .childLoop hpc
    | cons c ptr =>
      simp only [childStep, hpc, Option.some.injEq] at hs
      exact .childPutc hpc hs
  | fflush ptr =>
    simp only [childStep, hpc, Option.some.injEq] at hs
    exact .childFflush hpc hs
  | exit =>
    simp only [childStep, hpc, Option.some.injEq] at hs
    exact .childExit hpc hs
  | notForked | exited => simp [childStep, hpc] at hs

/-- Every step is of one of the kinds. -/
theorem step_cases (hs : (machine cfg).step s a = some (e, s')) : Step cfg s a e s' := by
  cases a with
  | parent => exact parentStep_cases hs
  | child => exact childStep_cases hs
  | forkFails =>
    simp only [machine, step, Option.ite_none_right_eq_some, Option.some.injEq,
      Prod.mk.injEq] at hs
    obtain ⟨hpc, rfl, rfl⟩ := hs
    exact .forkFails hpc

/-! ## What is written -/

/-- What an event writes to the standard output. -/
def Event.bytes : Event → List Char
  | .write bytes => bytes
  | .perror _ => []

/-- All that is written to the standard output. -/
def output (tr : List Event) : List Char := tr.flatMap Event.bytes

/-- No character stays in a buffer. -/
def Config.immediate (cfg : Config) : Bool := cfg.NO_OUTPUT_BUFFER || cfg.DO_FLUSH_OUT

/-- How the output `out` may consist of what the child and the parent have written. -/
def Config.Order (cfg : Config) (dc dp out : List Char) : Prop :=
  if cfg.immediate then Interleaved dc dp out
  else if cfg.terminal then out = dc ++ dp ∨ out = dp ++ dc
  else out = dc ++ dp

/-- The child writes. -/
theorem Config.Order.child (h : cfg.Order dc dp out)
    (hwhole : cfg.immediate = false → dc = [] ∨ w = [])
    (hlate : cfg.immediate = false → cfg.terminal = false → dp = [] ∨ w = []) :
    cfg.Order (dc ++ w) dp (out ++ w) := by
  unfold Config.Order at h ⊢
  split
  -- written out at once, the two lines may be mixed in any way
  · rename_i himm
    rw [if_pos himm] at h
    exact h.append_fst w
  -- otherwise a line goes out as a whole
  · rename_i himm
    rw [if_neg himm] at h
    rw [Bool.not_eq_true] at himm
    split
    · rename_i hterminal
      rw [if_pos hterminal] at h
      obtain rfl | rfl := hwhole himm
      · obtain rfl | rfl := h <;> simp
      · simpa using h
    -- in a file or a pipe, what the parent has is written out after the child has exited
    · rename_i hterminal
      rw [if_neg hterminal] at h
      rw [Bool.not_eq_true] at hterminal
      obtain rfl | rfl := hlate himm hterminal <;> simp [h]

/-- The parent writes. -/
theorem Config.Order.parent (h : cfg.Order dc dp out)
    (hwhole : cfg.immediate = false → dp = [] ∨ w = []) :
    cfg.Order dc (dp ++ w) (out ++ w) := by
  unfold Config.Order at h ⊢
  split
  · rename_i himm
    rw [if_pos himm] at h
    exact h.append_snd w
  · rename_i himm
    rw [if_neg himm] at h
    rw [Bool.not_eq_true] at himm
    split
    · rename_i hterminal
      rw [if_pos hterminal] at h
      obtain rfl | rfl := hwhole himm
      · obtain rfl | rfl := h <;> simp
      · simpa using h
    · rename_i hterminal
      rw [if_neg hterminal] at h
      rw [h, List.append_assoc]

/-- What is left of the argument of the parent. -/
def ParentPc.rest : ParentPc → List Char
  | .fork => parentStr
  | .putc ptr | .fflush ptr => ptr
  | .wait => []
  | .exit status | .exited status => if status = EXIT_SUCCESS then [] else parentStr

/-- What is left of the argument of the child. -/
def ChildPc.rest : ChildPc → List Char
  | .notForked => childStr
  | .putc ptr | .fflush ptr => ptr
  | .exit | .exited => []

def ParentPc.flushing : ParentPc → Bool
  | .fflush _ => true
  | .fork | .putc _ | .wait | .exit _ | .exited _ => false

def ChildPc.flushing : ChildPc → Bool
  | .fflush _ => true
  | .notForked | .putc _ | .exit | .exited => false

/-- The parent has waited for the child. -/
def ParentPc.waited : ParentPc → Bool
  | .exit status | .exited status => status = EXIT_SUCCESS
  | .fork | .putc _ | .fflush _ | .wait => false

/-- A process has written `done`, has `buffer` in its buffer, and `ptr` is left. -/
structure Part (cfg : Config) (done buffer ptr : List Char) (fl : Bool) (text : List Char) :
    Prop where
  text : done ++ buffer ++ ptr = text
  unbuffered : cfg.NO_OUTPUT_BUFFER = true → buffer = []
  flushing : fl = true → cfg.DO_FLUSH_OUT = true
  whole : cfg.immediate = false → done = [] ∨ (buffer = [] ∧ ptr = [])

/-- There is one line end, at the end. -/
def IsLine (text : List Char) : Prop := ∃ line, '\n' ∉ line ∧ text = line ++ ['\n']

theorem childStr_isLine : IsLine childStr := ⟨"Output from a child.".toList, by decide, by decide⟩

theorem parentStr_isLine : IsLine parentStr :=
  ⟨"Output from the parent.".toList, by decide, by decide⟩

/-- Nothing comes after the line end. -/
theorem IsLine.eq_nil (h : IsLine text) {k l : List Char} (htext : k ++ '\n' :: l = text) :
    l = [] := by
  obtain ⟨line, hline, rfl⟩ := h
  obtain rfl | ⟨l, x, rfl⟩ := List.eq_nil_or_concat' l
  · rfl
  · rw [← List.cons_append, ← List.append_assoc] at htext
    have hmem : '\n' ∈ line := by
      rw [← (List.append_inj' htext rfl).1]
      simp
    exact absurd hmem hline

/-- Nothing has been printed yet. -/
theorem Part.start (h : Part cfg done buffer text fl text) : done = [] ∧ buffer = [] := by
  have htext := h.text
  rwa [List.append_left_eq_self, List.append_eq_nil_iff] at htext

/-- What `putc` does. -/
theorem putc_cases (h : putc cfg p c s = (e, s'))
    (hbuf : cfg.NO_OUTPUT_BUFFER = true → s.stdout p = []) :
    ∃ buffer, s' = { s with stdout := Function.update s.stdout p buffer } ∧
      output e.toList ++ buffer = s.stdout p ++ [c] ∧
      (cfg.NO_OUTPUT_BUFFER = true → buffer = []) ∧
      (cfg.terminal = true → c = '\n' → buffer = []) ∧
      (cfg.immediate = false → output e.toList = [] ∨
        (cfg.terminal = true ∧ c = '\n' ∧ buffer = [])) := by
  unfold putc at h
  split at h
  -- without a buffer the character goes out at once, and the buffer was empty before
  · rename_i hno
    rw [Prod.mk.injEq] at h
    obtain ⟨rfl, rfl⟩ := h
    refine ⟨[], ?_, by simp [output, Event.bytes, hbuf hno], fun _ => rfl, fun _ _ => rfl,
      fun himm => ?_⟩
    · rw [← hbuf hno, Function.update_eq_self]
    · simp [Config.immediate, hno] at himm
  · rename_i hno
    split at h <;> rename_i hline <;> rw [Prod.mk.injEq] at h <;> obtain ⟨rfl, rfl⟩ := h
    -- on a terminal the end of the line writes the buffer out
    · simp only [Bool.and_eq_true, decide_eq_true_eq] at hline
      exact ⟨[], rfl, by simp [output, Event.bytes], fun _ => rfl, fun _ _ => rfl,
        fun _ => .inr ⟨hline.1, hline.2, rfl⟩⟩
    -- the character stays in the buffer
    · refine ⟨_, rfl, rfl, fun h => absurd h hno, fun hterminal hc => ?_, fun _ => .inl rfl⟩
      simp [hterminal, hc] at hline

/-- What `fflush` does. -/
theorem fflush_cases (h : fflush p s = (e, s')) :
    s' = { s with stdout := Function.update s.stdout p [] } ∧ output e.toList = s.stdout p := by
  unfold fflush at h
  split at h <;> rename_i hbuf <;> rw [Prod.mk.injEq] at h <;> obtain ⟨rfl, rfl⟩ := h
  · refine ⟨?_, by rw [hbuf]; rfl⟩
    rw [← hbuf, Function.update_eq_self]
  · exact ⟨rfl, by simp [output, Event.bytes]⟩

/-- A process prints a character. -/
theorem Part.putc (h : Part cfg done buffer (c :: ptr) fl text) (hline : IsLine text)
    {buffer' : List Char} (hw : w ++ buffer' = buffer ++ [c])
    (hno : cfg.NO_OUTPUT_BUFFER = true → buffer' = [])
    (hemit : cfg.immediate = false → w = [] ∨ (cfg.terminal = true ∧ c = '\n' ∧ buffer' = [])) :
    Part cfg (done ++ w) buffer' ptr cfg.DO_FLUSH_OUT text ∧
      (cfg.immediate = false → done = []) := by
  have hdone : cfg.immediate = false → done = [] := fun himm => by
    obtain hdone | ⟨-, hptr⟩ := h.whole himm
    · exact hdone
    · cases hptr
  refine ⟨⟨?_, hno, id, fun himm => ?_⟩, hdone⟩
  · rw [List.append_assoc done, hw, ← h.text]
    simp
  · obtain rfl | ⟨-, rfl, rfl⟩ := hemit himm
    · left
      rw [hdone himm, List.nil_append]
    · refine .inr ⟨rfl, hline.eq_nil (k := done ++ buffer) ?_⟩
      exact h.text

/-- A process writes its buffer out. -/
theorem Part.fflush (h : Part cfg done buffer ptr fl text)
    (hend : cfg.immediate = false → ptr = []) : Part cfg (done ++ buffer) [] ptr false text ∧
      (cfg.immediate = false → done = [] ∨ buffer = []) := by
  refine ⟨⟨?_, fun _ => rfl, by simp, fun himm => .inr ⟨rfl, hend himm⟩⟩, fun himm => ?_⟩
  · rw [List.append_nil]
    exact h.text
  · exact (h.whole himm).imp id And.left

/-- What has been written, what is in the buffers, and what is left. -/
structure Inv (cfg : Config) (dc dp out : List Char) (s : State) : Prop where
  order : cfg.Order dc dp out
  child : Part cfg dc (s.stdout .child) s.child.rest s.child.flushing childStr
  parent : Part cfg dp (s.stdout .parent) s.parent.rest s.parent.flushing parentStr
  forked : s.parent = .fork → s.child = .notForked
  waited : s.parent.waited = true → s.child = .exited
  late : cfg.immediate = false → cfg.terminal = false → dp = [] ∨ s.child = .exited
  childEnded : s.child = .exited → s.stdout .child = []
  parentEnded : ∀ status, s.parent = .exited status → s.stdout .parent = []

/-- Where the loop of the parent goes on after `putc`. -/
theorem ParentPc.after_putc (b : Bool) (ptr : List Char) :
    (if b then fflush ptr else putc ptr).rest = ptr ∧
      (if b then fflush ptr else putc ptr).flushing = b ∧
      (if b then fflush ptr else putc ptr).waited = false ∧
      (if b then fflush ptr else putc ptr) ≠ .fork ∧
      ∀ status, (if b then fflush ptr else putc ptr) ≠ .exited status := by
  cases b <;> simp [ParentPc.rest, ParentPc.flushing, ParentPc.waited]

/-- Where the loop of the child goes on after `putc`. -/
theorem ChildPc.after_putc (b : Bool) (ptr : List Char) :
    (if b then fflush ptr else putc ptr).rest = ptr ∧
      (if b then fflush ptr else putc ptr).flushing = b ∧
      (if b then fflush ptr else putc ptr) ≠ .exited := by
  cases b <;> simp [ChildPc.rest, ChildPc.flushing]

/-- While the child goes on, the parent has forked it and has not waited for it. -/
theorem Inv.running (h : Inv cfg dc dp out s) (hforked : s.child ≠ .notForked)
    (hexited : s.child ≠ .exited) :
    s.parent ≠ .fork ∧ s.parent.waited = false ∧
      (cfg.immediate = false → cfg.terminal = false → dp = []) :=
  ⟨mt h.forked hforked, Bool.eq_false_iff.mpr (mt h.waited hexited),
    fun himm hterminal => (h.late himm hterminal).resolve_right hexited⟩

theorem Inv.step (h : Inv cfg dc dp (output tr) s) (hs : Step cfg s a e s') :
    ∃ dc' dp', Inv cfg dc' dp' (output (tr ++ e.toList)) s' := by
  have happend : output (tr ++ e.toList) = output tr ++ output e.toList := List.flatMap_append
  rw [happend]
  have hchild := h.child
  have hparent := h.parent
  cases hs with
  -- from here on there are two processes, and neither has anything in its buffer
  | fork hpc =>
    have hnot := h.forked hpc
    rw [hpc] at hparent
    rw [hnot] at hchild
    obtain ⟨rfl, hbuf⟩ := hparent.start
    obtain ⟨rfl, -⟩ := hchild.start
    refine ⟨[], [], by simpa [output] using h.order, ?_, ?_, by simp, by simp [ParentPc.waited],
      fun _ _ => .inl rfl, by simp, by simp⟩
    · simp only [hbuf, Function.update_self]
      exact ⟨rfl, fun _ => rfl, by simp [ChildPc.flushing], fun _ => .inl rfl⟩
    · simp only [hbuf, Function.update_of_ne (by decide : Process.parent ≠ .child)]
      exact ⟨rfl, fun _ => rfl, by simp [ParentPc.flushing], fun _ => .inl rfl⟩
  -- no child, and nothing written: `perror` and `exit`
  | forkFails hpc =>
    rw [hpc] at hparent
    exact ⟨dc, dp, by simpa [output, Event.bytes] using h.order, hchild, hparent, by simp,
      by simp [ParentPc.waited, EXIT_SUCCESS], h.late, h.childEnded, by simp⟩
  | parentLoop hpc =>
    rw [hpc] at hparent
    exact ⟨dc, dp, by simpa [output] using h.order, hchild, hparent, by simp,
      by simp [ParentPc.waited], h.late, h.childEnded, by simp⟩
  | wait hpc hexited =>
    rw [hpc] at hparent
    exact ⟨dc, dp, by simpa [output] using h.order, hchild, hparent, by simp, fun _ => hexited,
      h.late, h.childEnded, by simp⟩
  -- a step of the parent adds to what the parent has written
  | parentPutc hpc hputc =>
    obtain ⟨buffer, rfl, hw, hno, -, hemit⟩ := putc_cases hputc hparent.unbuffered
    rw [hpc] at hparent
    obtain ⟨hpart, hdone⟩ := hparent.putc parentStr_isLine hw hno hemit
    obtain ⟨hrest, hflushing, hwaited, hfork, hexited⟩ := ParentPc.after_putc cfg.DO_FLUSH_OUT _
    refine ⟨dc, dp ++ output e.toList, h.order.parent fun himm => .inl (hdone himm), ?_, ?_,
      fun hf => absurd hf hfork, by simp [hwaited], fun himm hterminal => ?_, ?_,
      fun status hs => absurd hs (hexited status)⟩
    · simpa using hchild
    · simpa [hrest, hflushing] using hpart
    · -- no character is written to a file before the end
      have hemit := (hemit himm).resolve_right (by simp [hterminal])
      rw [hemit, List.append_nil]
      exact .inl (hdone himm)
    · simpa using h.childEnded
  | parentFflush hpc hflush =>
    obtain ⟨rfl, hw⟩ := fflush_cases hflush
    rw [hpc] at hparent
    -- `fflush` is called only with `DO_FLUSH_OUT`, so that any order is allowed
    have himm : cfg.immediate = true := by simp [Config.immediate, hparent.flushing rfl]
    obtain ⟨hpart, hdone⟩ := hparent.fflush (by simp [himm])
    rw [hw]
    refine ⟨dc, dp ++ s.stdout .parent, h.order.parent hdone, ?_, ?_, by simp,
      by simp [ParentPc.waited], by simp [himm], ?_, by simp⟩
    · simpa using hchild
    · simpa [ParentPc.rest, ParentPc.flushing] using hpart
    · simpa using h.childEnded
  | @parentExit status _ _ hpc hflush =>
    obtain ⟨rfl, hw⟩ := fflush_cases hflush
    have hwaited := h.waited
    rw [hpc] at hparent hwaited
    rw [hw]
    -- the parent exits with success only after it has waited for the child
    by_cases hstatus : status = EXIT_SUCCESS
    · have hexited := hwaited (by simp [ParentPc.waited, hstatus])
      obtain ⟨hpart, hdone⟩ := hparent.fflush fun _ => by simp [ParentPc.rest, hstatus]
      refine ⟨dc, dp ++ s.stdout .parent, h.order.parent hdone, ?_, ?_, by simp, fun _ => hexited,
        fun _ _ => .inr hexited, ?_, by simp⟩
      · simpa using hchild
      · simpa [ParentPc.rest, ParentPc.flushing] using hpart
      · simpa using h.childEnded
    · -- `fork` has failed, and nothing has been printed
      rw [ParentPc.rest, if_neg hstatus] at hparent
      obtain ⟨rfl, hbuf⟩ := hparent.start
      refine ⟨dc, [], by simpa [hbuf] using h.order, ?_, ?_, by simp, hwaited,
        fun _ _ => .inl rfl, ?_, by simp⟩
      · simpa using hchild
      · simpa [ParentPc.rest, ParentPc.flushing, hstatus, hbuf] using hparent
      · simpa using h.childEnded
  | childLoop hpc =>
    -- as long as the child is running, the parent has not come past `wait`
    obtain ⟨hfork, hwaited, hlate⟩ := h.running (by simp [hpc]) (by simp [hpc])
    rw [hpc] at hchild
    exact ⟨dc, dp, by simpa [output] using h.order, hchild, hparent, fun hf => absurd hf hfork,
      by simp [hwaited], fun himm hterminal => .inl (hlate himm hterminal), by simp, h.parentEnded⟩
  | childPutc hpc hputc =>
    obtain ⟨hfork, hwaited, hlate⟩ := h.running (by simp [hpc]) (by simp [hpc])
    obtain ⟨buffer, rfl, hw, hno, -, hemit⟩ := putc_cases hputc hchild.unbuffered
    rw [hpc] at hchild
    obtain ⟨hpart, hdone⟩ := hchild.putc childStr_isLine hw hno hemit
    obtain ⟨hrest, hflushing, hexited⟩ := ChildPc.after_putc cfg.DO_FLUSH_OUT _
    refine ⟨dc ++ output e.toList, dp, h.order.child (fun himm => .inl (hdone himm))
      (fun himm hterminal => .inl (hlate himm hterminal)), ?_, ?_, fun hf => absurd hf hfork,
      by simp [hwaited], fun himm hterminal => .inl (hlate himm hterminal),
      fun hs => absurd hs hexited, ?_⟩
    · simpa [hrest, hflushing] using hpart
    · simpa using hparent
    · simpa using h.parentEnded
  | childFflush hpc hflush =>
    obtain ⟨hfork, hwaited, hlate⟩ := h.running (by simp [hpc]) (by simp [hpc])
    obtain ⟨rfl, hw⟩ := fflush_cases hflush
    rw [hpc] at hchild
    have himm : cfg.immediate = true := by simp [Config.immediate, hchild.flushing rfl]
    obtain ⟨hpart, hdone⟩ := hchild.fflush (by simp [himm])
    rw [hw]
    refine ⟨dc ++ s.stdout .child, dp, h.order.child hdone (by simp [himm]), ?_, ?_,
      fun hf => absurd hf hfork, by simp [hwaited], by simp [himm], by simp, ?_⟩
    · simpa [ChildPc.rest, ChildPc.flushing] using hpart
    · simpa using hparent
    · simpa using h.parentEnded
  | childExit hpc hflush =>
    obtain ⟨hfork, hwaited, hlate⟩ := h.running (by simp [hpc]) (by simp [hpc])
    obtain ⟨rfl, hw⟩ := fflush_cases hflush
    rw [hpc] at hchild
    -- what is left in the buffer at the end goes out now
    obtain ⟨hpart, hdone⟩ := hchild.fflush fun _ => rfl
    rw [hw]
    refine ⟨dc ++ s.stdout .child, dp, h.order.child hdone
      (fun himm hterminal => .inl (hlate himm hterminal)), ?_, ?_, fun hf => absurd hf hfork,
      by simp, by simp, by simp, ?_⟩
    · simpa [ChildPc.rest, ChildPc.flushing] using hpart
    · simpa using hparent
    · simpa using h.parentEnded

theorem run_inv (h : (machine cfg).Run initial tr s) : ∃ dc dp, Inv cfg dc dp (output tr) s := by
  refine h.trace_invariant (I := fun tr s => ∃ dc dp, Inv cfg dc dp (output tr) s) ?_ ?_
  · rintro tr s a e s' ⟨dc, dp, hI⟩ hs
    exact hI.step (step_cases hs)
  · refine ⟨[], [], ?_, ⟨rfl, fun _ => rfl, by simp [initial, ChildPc.flushing], fun _ => .inl rfl⟩,
      ⟨rfl, fun _ => rfl, by simp [initial, ParentPc.flushing], fun _ => .inl rfl⟩, fun _ => rfl,
      by simp [initial, ParentPc.waited], fun _ _ => .inl rfl, fun _ => rfl, by simp [initial]⟩
    unfold Config.Order
    split
    · exact .nil
    · split
      · exact .inl rfl
      · rfl

/-- What is written in a run that ends well. -/
theorem order_of_run (h : (machine cfg).Run initial tr s)
    (hexited : s.parent = .exited EXIT_SUCCESS) : cfg.Order childStr parentStr (output tr) := by
  obtain ⟨dc, dp, hI⟩ := run_inv h
  have hchildExited := hI.waited (by simp [hexited, ParentPc.waited])
  have hchild := hI.child.text
  have hparent := hI.parent.text
  have hdc : dc = childStr := by
    simpa [hchildExited, hI.childEnded hchildExited, ChildPc.rest] using hchild
  have hdp : dp = parentStr := by
    simpa [hexited, hI.parentEnded _ hexited, ParentPc.rest] using hparent
  rw [← hdc, ← hdp]
  exact hI.order

/-! ## Every one of them is possible -/

/-- The step of a process. -/
def Process.act : Process → Act
  | .parent => .parent
  | .child => .child

/-- The process `p` is at `putc` in its loop. -/
def State.atPutc (p : Process) (ptr : List Char) (s : State) : State :=
  match p with
  | .parent => { s with parent := .putc ptr }
  | .child => { s with child := .putc ptr }

/-- The process `p` is at `fflush` in its loop. -/
def State.atFflush (p : Process) (ptr : List Char) (s : State) : State :=
  match p with
  | .parent => { s with parent := .fflush ptr }
  | .child => { s with child := .fflush ptr }

@[simp] theorem State.atPutc_stdout : (s.atPutc p ptr).stdout = s.stdout := by cases p <;> rfl

@[simp] theorem State.atFflush_stdout : (s.atFflush p ptr).stdout = s.stdout := by cases p <;> rfl

theorem atPutc_with (stdout : Process → List Char) :
    { s.atPutc p ptr with stdout := stdout } = State.atPutc p ptr { s with stdout := stdout } := by
  cases p <;> rfl

theorem atFflush_with (stdout : Process → List Char) :
    { s.atFflush p ptr with stdout := stdout } =
      State.atFflush p ptr { s with stdout := stdout } := by
  cases p <;> rfl

theorem output_append (tr tr' : List Event) : output (tr ++ tr') = output tr ++ output tr' :=
  List.flatMap_append

/-- A process can print the next character. -/
theorem exists_putc (cfg : Config) (c : Char) (ptr : List Char)
    (hbuf : cfg.NO_OUTPUT_BUFFER = true → s.stdout p = []) :
    ∃ e buffer, (machine cfg).step (s.atPutc p (c :: ptr)) p.act = some (e,
        if cfg.DO_FLUSH_OUT then
          State.atFflush p ptr { s with stdout := Function.update s.stdout p buffer }
        else State.atPutc p ptr { s with stdout := Function.update s.stdout p buffer }) ∧
      output e.toList ++ buffer = s.stdout p ++ [c] ∧
      (cfg.NO_OUTPUT_BUFFER = true → buffer = []) ∧
      (cfg.terminal = true → c = '\n' → buffer = []) ∧
      (cfg.immediate = false → output e.toList = [] ∨
        (cfg.terminal = true ∧ c = '\n' ∧ buffer = [])) := by
  -- with `DO_FLUSH_OUT`, `fflush` comes next, otherwise the next character
  have hs : (machine cfg).step (s.atPutc p (c :: ptr)) p.act =
      some (putc cfg p c (if cfg.DO_FLUSH_OUT then s.atFflush p ptr else s.atPutc p ptr)) := by
    cases p <;> cases hflush : cfg.DO_FLUSH_OUT <;>
      simp [machine, step, parentStep, childStep, Process.act, State.atPutc, State.atFflush, hflush]
  rcases hputc : putc cfg p c (if cfg.DO_FLUSH_OUT then s.atFflush p ptr else s.atPutc p ptr) with
    ⟨e, s'⟩
  rw [hputc] at hs
  obtain ⟨buffer, rfl, hcases⟩ := putc_cases hputc (by split <;> simpa using hbuf)
  refine ⟨e, buffer, ?_, ?_⟩
  · rw [hs]
    split
    · rw [atFflush_with, State.atFflush_stdout]
    · rw [atPutc_with, State.atPutc_stdout]
  · split at hcases <;> simpa using hcases

/-- A process can flush its buffer. -/
theorem exists_fflush (cfg : Config) (p : Process) (ptr : List Char) :
    ∃ e, (machine cfg).step (s.atFflush p ptr) p.act =
        some (e, State.atPutc p ptr { s with stdout := Function.update s.stdout p [] }) ∧
      output e.toList = s.stdout p := by
  have hs : (machine cfg).step (s.atFflush p ptr) p.act = some (fflush p (s.atPutc p ptr)) := by
    cases p <;> rfl
  rcases hfflush : fflush p (s.atPutc p ptr) with ⟨e, s'⟩
  rw [hfflush] at hs
  obtain ⟨rfl, hw⟩ := fflush_cases hfflush
  rw [State.atPutc_stdout] at hs hw
  exact ⟨e, hs.trans (by rw [atPutc_with]), hw⟩

/-- A process prints a character when nothing stays in a buffer. -/
theorem char_run (p : Process) (c : Char) (ptr : List Char) (himm : cfg.immediate = true)
    (hbuf : s.stdout p = []) :
    ∃ tr, (machine cfg).Run (s.atPutc p (c :: ptr)) tr (s.atPutc p ptr) ∧ output tr = [c] := by
  have hclear : ({ s with stdout := Function.update s.stdout p [] } : State) = s := by
    rw [← hbuf, Function.update_eq_self]
  obtain ⟨e, buffer, hs, hw, hno, -⟩ := exists_putc cfg c ptr fun _ => hbuf
  cases hflush : cfg.DO_FLUSH_OUT with
  | false =>
    obtain rfl := hno (by simpa [Config.immediate, hflush] using himm)
    rw [if_neg (by simp [hflush]), hclear] at hs
    exact ⟨_, .single hs, by simpa [hbuf] using hw⟩
  | true =>
    rw [if_pos hflush] at hs
    have hfflush := exists_fflush (s := { s with stdout := Function.update s.stdout p buffer })
      cfg p ptr
    obtain ⟨e', hs', hw'⟩ := hfflush
    simp only [Function.update_idem, Function.update_self] at hs' hw'
    rw [hclear] at hs'
    refine ⟨_, (Machine.Run.single hs).snoc hs', ?_⟩
    rw [output_append, hw', hw, hbuf]
    rfl

/-- The processes print in any order when nothing stays in a buffer. -/
theorem interleaved_run (himm : cfg.immediate = true) {k l m : List Char}
    (h : Interleaved k l m) : ∃ tr, (machine cfg).Run ⟨.putc l, .putc k, fun _ => []⟩ tr
      ⟨.putc [], .putc [], fun _ => []⟩ ∧ output tr = m := by
  induction h with
  | nil => exact ⟨[], .nil, rfl⟩
  | @fst c k l m _ ih =>
    obtain ⟨tr, hrun, hout⟩ := ih
    have hchar := char_run (s := ⟨.putc l, .putc k, fun _ => []⟩) .child c k himm rfl
    obtain ⟨tr', hrun', hout'⟩ := hchar
    exact ⟨tr' ++ tr, hrun'.append hrun, by rw [output_append, hout, hout']; rfl⟩
  | @snd c k l m _ ih =>
    obtain ⟨tr, hrun, hout⟩ := ih
    have hchar := char_run (s := ⟨.putc l, .putc k, fun _ => []⟩) .parent c l himm rfl
    obtain ⟨tr', hrun', hout'⟩ := hchar
    exact ⟨tr' ++ tr, hrun'.append hrun, by rw [output_append, hout, hout']; rfl⟩

/-- A process prints all that is left to its buffer; a terminal gets it at the end of the line. -/
theorem buffered_run (himm : cfg.immediate = false) (p : Process) (k : List Char) (s : State) :
    ∃ tr buffer, (machine cfg).Run (s.atPutc p k) tr
        (State.atPutc p [] { s with stdout := Function.update s.stdout p buffer }) ∧
      output tr ++ buffer = s.stdout p ++ k ∧
      (cfg.terminal = true → ∀ line, k = line ++ ['\n'] → buffer = []) := by
  obtain ⟨hno, hflush⟩ : cfg.NO_OUTPUT_BUFFER = false ∧ cfg.DO_FLUSH_OUT = false := by
    simpa [Config.immediate] using himm
  -- by induction on the rest of the line, for every content of the buffer
  induction k generalizing s with
  | nil =>
    refine ⟨[], s.stdout p, ?_, by simp [output], by simp⟩
    rw [Function.update_eq_self]
    exact .nil
  | cons c k ih =>
    obtain ⟨e, buffer, hs, hw, -, hterminal, -⟩ :=
      exists_putc (s := s) (p := p) cfg c k (by simp [hno])
    rw [if_neg (by simp [hflush])] at hs
    obtain ⟨tr, buffer', hrun, hout, hline⟩ :=
      ih { s with stdout := Function.update s.stdout p buffer }
    simp only [Function.update_idem, Function.update_self] at hrun hout
    refine ⟨_, buffer', .cons hs hrun, ?_, fun hterm line hk => ?_⟩
    · rw [output_append, List.append_assoc, hout, ← List.append_assoc, hw]
      simp
    -- the last character of a line is the newline, which empties the buffer
    · cases line with
      | nil =>
        obtain ⟨rfl, rfl⟩ : c = '\n' ∧ k = [] := by simpa using hk
        rw [hterminal hterm rfl] at hout
        exact (List.append_eq_nil_iff.mp hout).2
      | cons d line => exact hline hterm line (List.cons.inj hk).2

/-- Nothing is in the buffer of a process. -/
theorem update_empty (p : Process) :
    Function.update (fun _ => ([] : List Char)) p [] = fun _ => [] :=
  Function.update_eq_self p (fun _ => [])

/-- The child comes to its end. -/
theorem childEnd_run (cfg : Config) (pc : ParentPc) (stdout : Process → List Char) :
    ∃ tr, (machine cfg).Run ⟨pc, .putc [], stdout⟩ tr
      ⟨pc, .exited, Function.update stdout .child []⟩ ∧ output tr = stdout .child := by
  rcases hflush : fflush .child ⟨pc, .exited, stdout⟩ with ⟨e, s'⟩
  obtain ⟨rfl, hw⟩ := fflush_cases hflush
  have hloop : (machine cfg).step ⟨pc, .putc [], stdout⟩ .child =
      some (none, ⟨pc, .exit, stdout⟩) := rfl
  have hexit : (machine cfg).step ⟨pc, .exit, stdout⟩ .child =
      some (e, ⟨pc, .exited, Function.update stdout .child []⟩) := congrArg some hflush
  exact ⟨_, .silent hloop (.single hexit), hw⟩

/-- The parent comes to its end. -/
theorem parentEnd_run (cfg : Config) (stdout : Process → List Char) :
    ∃ tr, (machine cfg).Run ⟨.putc [], .exited, stdout⟩ tr
      ⟨.exited EXIT_SUCCESS, .exited, Function.update stdout .parent []⟩ ∧
      output tr = stdout .parent := by
  rcases hflush : fflush .parent ⟨.exited EXIT_SUCCESS, .exited, stdout⟩ with ⟨e, s'⟩
  obtain ⟨rfl, hw⟩ := fflush_cases hflush
  have hloop : (machine cfg).step ⟨.putc [], .exited, stdout⟩ .parent =
      some (none, ⟨.wait, .exited, stdout⟩) := rfl
  have hwait : (machine cfg).step ⟨.wait, .exited, stdout⟩ .parent =
      some (none, ⟨.exit EXIT_SUCCESS, .exited, stdout⟩) := rfl
  have hexit : (machine cfg).step ⟨.exit EXIT_SUCCESS, .exited, stdout⟩ .parent =
      some (e, ⟨.exited EXIT_SUCCESS, .exited, Function.update stdout .parent []⟩) :=
    congrArg some hflush
  exact ⟨_, .silent hloop (.silent hwait (.single hexit)), hw⟩

/-- With a buffer, the child can print its line and end while the parent waits. -/
theorem child_run (himm : cfg.immediate = false) (pc : ParentPc) :
    ∃ tr, (machine cfg).Run ⟨pc, .putc childStr, fun _ => []⟩ tr ⟨pc, .exited, fun _ => []⟩ ∧
      output tr = childStr := by
  have hbuffered := buffered_run himm .child childStr ⟨pc, .putc childStr, fun _ => []⟩
  obtain ⟨tr, buffer, hrun, hout, -⟩ := hbuffered
  obtain ⟨tr', hrun', hout'⟩ := childEnd_run cfg pc
    (Function.update (fun _ => []) Process.child buffer)
  rw [Function.update_idem, update_empty] at hrun'
  refine ⟨tr ++ tr', hrun.append hrun', ?_⟩
  rw [output_append, hout', Function.update_self, hout]
  rfl

/-- With a buffer, the parent can print its line and end when the child has ended. -/
theorem parent_run (himm : cfg.immediate = false) :
    ∃ tr, (machine cfg).Run ⟨.putc parentStr, .exited, fun _ => []⟩ tr
      ⟨.exited EXIT_SUCCESS, .exited, fun _ => []⟩ ∧ output tr = parentStr := by
  have hbuffered := buffered_run himm .parent parentStr ⟨.putc parentStr, .exited, fun _ => []⟩
  obtain ⟨tr, buffer, hrun, hout, -⟩ := hbuffered
  obtain ⟨tr', hrun', hout'⟩ := parentEnd_run cfg
    (Function.update (fun _ => []) Process.parent buffer)
  rw [Function.update_idem, update_empty] at hrun'
  refine ⟨tr ++ tr', hrun.append hrun', ?_⟩
  rw [output_append, hout', Function.update_self, hout]
  rfl

/-- Every output in one of the orders is written in some run. -/
theorem run_of_order (h : cfg.Order childStr parentStr out) :
    ∃ tr s, (machine cfg).Run initial tr s ∧ s.parent = .exited EXIT_SUCCESS ∧ output tr = out := by
  have hfork : (machine cfg).step initial .parent =
      some (none, ⟨.putc parentStr, .putc childStr, fun _ => []⟩) := by
    simp [machine, step, parentStep, initial]
  suffices hrun : ∃ tr s, (machine cfg).Run ⟨.putc parentStr, .putc childStr, fun _ => []⟩ tr s ∧
      s.parent = .exited EXIT_SUCCESS ∧ output tr = out by
    obtain ⟨tr, s, hrun, hexited, hout⟩ := hrun
    exact ⟨tr, s, .silent hfork hrun, hexited, hout⟩
  unfold Config.Order at h
  split at h
  -- the interleaving is followed character by character, then both processes end
  · rename_i himm
    obtain ⟨tr, hrun, hout⟩ := interleaved_run himm h
    obtain ⟨tr', hrun', hout'⟩ := childEnd_run cfg (.putc []) fun _ => []
    rw [update_empty] at hrun'
    obtain ⟨tr'', hrun'', hout''⟩ := parentEnd_run cfg fun _ => []
    refine ⟨_, _, hrun.append (hrun'.append hrun''), rfl, ?_⟩
    rw [output_append, output_append, hout, hout', hout'']
    simp
  -- without an immediate output one process writes its line before the other one
  · rename_i himm
    rw [Bool.not_eq_true] at himm
    have hfirst : out = childStr ++ parentStr ∨
        (cfg.terminal = true ∧ out = parentStr ++ childStr) := by
      split at h
      · rename_i hterminal
        exact h.imp id fun hout => ⟨hterminal, hout⟩
      · exact .inl h
    obtain rfl | ⟨hterminal, rfl⟩ := hfirst
    -- the child comes to its end before the parent goes on
    · obtain ⟨tr, hrun, hout⟩ := child_run himm (.putc parentStr)
      obtain ⟨tr', hrun', hout'⟩ := parent_run himm
      exact ⟨_, _, hrun.append hrun', rfl, by rw [output_append, hout, hout']⟩
    · -- the parent writes its line out before it waits
      have hbuffered := buffered_run himm .parent parentStr
        ⟨.putc parentStr, .putc childStr, fun _ => []⟩
      obtain ⟨tr, buffer, hrun, hout, hline⟩ := hbuffered
      obtain ⟨line, -, hparent⟩ := parentStr_isLine
      obtain rfl := hline hterminal line hparent
      rw [update_empty] at hrun
      obtain ⟨tr', hrun', hout'⟩ := child_run himm (.putc [])
      obtain ⟨tr'', hrun'', hout''⟩ := parentEnd_run cfg fun _ => []
      refine ⟨_, _, hrun.append (hrun'.append hrun''), rfl, ?_⟩
      rw [List.append_nil] at hout
      rw [output_append, output_append, hout, hout', hout'', List.append_nil]
      rfl

/-- The outputs of the runs that end well: all interleavings of the two lines if nothing stays in a
    buffer; otherwise one line after the other, on a terminal in either order, and in a file the
    child's first. -/
theorem possible_iff : (∃ tr s, (machine cfg).Run initial tr s ∧
    s.parent = .exited EXIT_SUCCESS ∧ output tr = out) ↔ cfg.Order childStr parentStr out := by
  constructor
  · rintro ⟨tr, s, hrun, hexited, rfl⟩
    exact order_of_run hrun hexited
  · exact run_of_order

end RaceFork
