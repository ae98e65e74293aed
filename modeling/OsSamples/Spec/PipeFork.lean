import Mathlib.Tactic.Common
import OsSamples.Native.PipeFork

/-!
# The child passes the message on, and sees its end

What the child writes are the parts of the message as it has read them, each after two blanks.  It
sees the end of the message since no process has the write end open any more, and that is when the
parent has closed it: the child has closed its own one before.  If the output is not a terminal, the
lines come in one order only, and the first one comes twice.

## Key results

- `step_cases`: what a step can do, one constructor of `Step` for each kind
- `Relay.step`: what has been sent, what is in the pipe and what has been passed on
- `Output.step`: all that has been written, if the output is not a terminal
- `relayed_run`, `file_run`: what the program writes
- `inevitable_ended`: both processes end
-/

namespace PipeFork

/-! ## What a step can do -/

/-- The kinds of steps. -/
inductive Step (terminal : Bool) (s : State) : Act → Option Event → State → Prop
  | forking {e : Option Event} {s' : State} (hpc : s.parent = .forking)
      (hprint : printf terminal .parent "parent: Forking a child.\n" { s with parent := .fork } =
        (e, s')) : Step terminal s .parent e s'
  | fork (hpc : s.parent = .fork) : Step terminal s .parent none { s with
      parent := .closeRead
      child := .closeWrite
      pipe := s.pipe.fork .parent .child
      stdout := Function.update s.stdout .child (s.stdout .parent) }
  | forkFails (hpc : s.parent = .fork) :
      Step terminal s .forkFails (some (.perror "fork(2) call failed"))
        { s with parent := .exit EXIT_FAILURE }
  | parentCloseRead (hpc : s.parent = .closeRead) :
      Step terminal s .parent none { s with parent := .write1, pipe := s.pipe.closeRead .parent }
  | write1 (hpc : s.parent = .write1) (hreaders : s.pipe.readers ≠ ∅) :
      Step terminal s .parent none { s with
        parent := .write2
        pipe := { s.pipe with data := s.pipe.data ++ msg1 } }
  | write2 (hpc : s.parent = .write2) (hreaders : s.pipe.readers ≠ ∅) :
      Step terminal s .parent none { s with
        parent := .closing
        pipe := { s.pipe with data := s.pipe.data ++ msg2 } }
  | killed (hpc : s.parent = .write1 ∨ s.parent = .write2) (hreaders : s.pipe.readers = ∅) :
      Step terminal s .parent none { s with
        parent := .killed
        pipe := (s.pipe.closeRead .parent).closeWrite .parent }
  | closing {e : Option Event} {s' : State} (hpc : s.parent = .closing)
      (hprint : printf terminal .parent "parent: Closing the pipe.\n"
        { s with parent := .closeWrite } = (e, s')) : Step terminal s .parent e s'
  | parentCloseWrite (hpc : s.parent = .closeWrite) :
      Step terminal s .parent none { s with parent := .wait, pipe := s.pipe.closeWrite .parent }
  | wait {r : ℤ} (hpc : s.parent = .wait) (hexited : s.child = .exited r) :
      Step terminal s .parent none { s with parent := .terminated }
  | terminated {e : Option Event} {s' : State} (hpc : s.parent = .terminated)
      (hprint : printf terminal .parent "parent: The child process terminated.\n"
        { s with parent := .exit EXIT_SUCCESS } = (e, s')) : Step terminal s .parent e s'
  | parentExit {status : ℤ} {e : Option Event} {s' : State} (hpc : s.parent = .exit status)
      (hflush : fflush .parent { s with parent := .exited status } = (e, s')) :
      Step terminal s .parent e s'
  | childCloseWrite {count : ℕ} (hpc : s.child = .closeWrite) :
      Step terminal s (.child count) none
        { s with child := .hello, pipe := s.pipe.closeWrite .child }
  | hello {count : ℕ} {e : Option Event} {s' : State} (hpc : s.child = .hello)
      (hprint : printf terminal .child "child: This is a child!\n" { s with child := .reading } =
        (e, s')) : Step terminal s (.child count) e s'
  | reading {count : ℕ} {e : Option Event} {s' : State} (hpc : s.child = .reading)
      (hprint : printf terminal .child
        "child: Reading message from my parent.\nchild: From pipe:\n" { s with child := .fflush } =
        (e, s')) : Step terminal s (.child count) e s'
  | fflush {count : ℕ} {e : Option Event} {s' : State} (hpc : s.child = .fflush)
      (hflush : PipeFork.fflush .child { s with child := .read } = (e, s')) :
      Step terminal s (.child count) e s'
  | readEnd {count : ℕ} (hpc : s.child = .read) (hdata : s.pipe.data = [])
      (hwriters : s.pipe.writers = ∅) :
      Step terminal s (.child count) none { s with child := .closeRead 0 }
  | read {count : ℕ} {buf data : List Char} (hpc : s.child = .read) (hbuf : buf ≠ [])
      (hsize : buf.length ≤ PIPE_BUF) (hdata : buf ++ data = s.pipe.data) :
      Step terminal s (.child count) none
        { s with child := .blanks buf, pipe := { s.pipe with data := data } }
  | readFails (hpc : s.child = .read) :
      Step terminal s .readFails none { s with child := .closeRead (-1) }
  | blanks {count : ℕ} {buf : List Char} (hpc : s.child = .blanks buf) :
      Step terminal s (.child count) (some (.write blanks)) { s with child := .message buf }
  | message {count : ℕ} {buf : List Char} (hpc : s.child = .message buf) :
      Step terminal s (.child count) (some (.write buf)) { s with child := .read }
  | childCloseRead {count : ℕ} {r : ℤ} (hpc : s.child = .closeRead r) :
      Step terminal s (.child count) none
        { s with child := .closed r, pipe := s.pipe.closeRead .child }
  | closed {count : ℕ} {r : ℤ} {e : Option Event} {s' : State} (hpc : s.child = .closed r)
      (hprint : printf terminal .child "child: My parent closed the pipe, exiting.\n"
        { s with child := .exit r } = (e, s')) : Step terminal s (.child count) e s'
  | childExit {count : ℕ} {r : ℤ} {e : Option Event} {s' : State} (hpc : s.child = .exit r)
      (hflush : PipeFork.fflush .child { s with child := .exited r } = (e, s')) :
      Step terminal s (.child count) e s'

variable {terminal : Bool} {s s' : State} {e : Option Event} {tr : List Event} {a : Act}
  {p : Process} {text : String} {chunks : List (List Char)}

/-- A `write` to the pipe. -/
theorem writePipe_cases {bytes : List Char} {next : ParentPc}
    (h : writePipe bytes next s = (e, s')) :
    e = none ∧ ((s.pipe.readers ≠ ∅ ∧ s' = { s with
        parent := next
        pipe := { s.pipe with data := s.pipe.data ++ bytes } }) ∨
      (s.pipe.readers = ∅ ∧ s' = { s with
        parent := .killed
        pipe := (s.pipe.closeRead .parent).closeWrite .parent })) := by
  unfold writePipe at h
  split at h <;> rename_i hwrite <;> rw [Prod.mk.injEq] at h <;> obtain ⟨rfl, rfl⟩ := h
  · obtain ⟨hreaders, rfl⟩ := Pipe.write_cases hwrite
    exact ⟨rfl, .inl ⟨hreaders, rfl⟩⟩
  · have hreaders : s.pipe.readers = ∅ := by
      by_contra hne
      simp [Pipe.write, hne] at hwrite
    exact ⟨rfl, .inr ⟨hreaders, rfl⟩⟩

/-- The steps of the parent. -/
theorem parentStep_cases (hs : parentStep terminal s = some (e, s')) :
    Step terminal s .parent e s' := by
  cases hpc : s.parent <;> simp only [parentStep, hpc, Option.some.injEq, reduceCtorEq] at hs
  case forking => exact .forking hpc hs
  case closing => exact .closing hpc hs
  case terminated => exact .terminated hpc hs
  case exit status => exact .parentExit hpc hs
  case fork =>
    rw [Prod.mk.injEq] at hs
    obtain ⟨rfl, rfl⟩ := hs
    exact .fork hpc
  case closeRead =>
    rw [Prod.mk.injEq] at hs
    obtain ⟨rfl, rfl⟩ := hs
    exact .parentCloseRead hpc
  case closeWrite =>
    rw [Prod.mk.injEq] at hs
    obtain ⟨rfl, rfl⟩ := hs
    exact .parentCloseWrite hpc
  -- `write` kills the parent by `SIGPIPE` if nobody can read
  case write1 =>
    obtain ⟨rfl, ⟨hreaders, rfl⟩ | ⟨hreaders, rfl⟩⟩ := writePipe_cases hs
    · exact .write1 hpc hreaders
    · exact .killed (.inl hpc) hreaders
  case write2 =>
    obtain ⟨rfl, ⟨hreaders, rfl⟩ | ⟨hreaders, rfl⟩⟩ := writePipe_cases hs
    · exact .write2 hpc hreaders
    · exact .killed (.inr hpc) hreaders
  -- the parent goes on only when the child has exited
  case wait =>
    split at hs
    · rename_i hexited
      rw [Option.some.injEq, Prod.mk.injEq] at hs
      obtain ⟨rfl, rfl⟩ := hs
      exact .wait hpc hexited
    · cases hs

/-- The steps of the child. -/
theorem childStep_cases {count : ℕ} (hs : childStep terminal count s = some (e, s')) :
    Step terminal s (.child count) e s' := by
  cases hpc : s.child <;> simp only [childStep, hpc, Option.some.injEq, reduceCtorEq] at hs
  case hello => exact .hello hpc hs
  case reading => exact .reading hpc hs
  case fflush => exact .fflush hpc hs
  case closed r => exact .closed hpc hs
  case exit r => exact .childExit hpc hs
  case closeWrite =>
    rw [Prod.mk.injEq] at hs
    obtain ⟨rfl, rfl⟩ := hs
    exact .childCloseWrite hpc
  case closeRead r =>
    rw [Prod.mk.injEq] at hs
    obtain ⟨rfl, rfl⟩ := hs
    exact .childCloseRead hpc
  case blanks buf =>
    rw [Prod.mk.injEq] at hs
    obtain ⟨rfl, rfl⟩ := hs
    exact .blanks hpc
  case message buf =>
    rw [Prod.mk.injEq] at hs
    obtain ⟨rfl, rfl⟩ := hs
    exact .message hpc
  case read =>
    rw [Option.map_eq_some_iff] at hs
    obtain ⟨r, hread, hr⟩ := hs
    rw [Prod.mk.injEq] at hr
    obtain ⟨rfl, rfl⟩ := hr
    -- the end of the pipe, or a part of what is in it
    obtain ⟨rfl, hdata, hwriters⟩ | ⟨hbuf, hsize, hdata, hr⟩ := Pipe.read_cases hread
    · exact .readEnd hpc hdata hwriters
    · rw [if_neg (by rwa [List.isEmpty_iff]), hr]
      exact .read hpc hbuf hsize hdata

/-- Every step is of one of the kinds. -/
theorem step_cases (hs : (machine terminal).step s a = some (e, s')) : Step terminal s a e s' := by
  cases a with
  | parent => exact parentStep_cases hs
  | child count => exact childStep_cases hs
  | forkFails =>
    simp only [machine, step, Option.ite_none_right_eq_some, Option.some.injEq,
      Prod.mk.injEq] at hs
    obtain ⟨hpc, rfl, rfl⟩ := hs
    exact .forkFails hpc
  | readFails =>
    simp only [machine, step, Option.ite_none_right_eq_some, Option.some.injEq,
      Prod.mk.injEq] at hs
    obtain ⟨hpc, rfl, rfl⟩ := hs
    exact .readFails hpc

/-! ## What is printed by the way -/

/-- The bytes that `child` itself writes. -/
def Event.bytes : Event → Option (List Char)
  | .write bytes => some bytes
  | .stdout _ | .perror _ => none

/-- `printf` leaves all but `stdout` as it is. -/
theorem printf_frame (h : printf terminal p text s = (e, s')) :
    s'.parent = s.parent ∧ s'.child = s.child ∧ s'.pipe = s.pipe ∧
      e.toList.filterMap Event.bytes = [] := by
  unfold printf at h
  split at h <;> rw [Prod.mk.injEq] at h <;> obtain ⟨rfl, rfl⟩ := h <;> exact ⟨rfl, rfl, rfl, rfl⟩

/-- `fflush` leaves all but `stdout` as it is. -/
theorem fflush_frame (h : fflush p s = (e, s')) :
    s'.parent = s.parent ∧ s'.child = s.child ∧ s'.pipe = s.pipe ∧
      e.toList.filterMap Event.bytes = [] := by
  unfold fflush at h
  split at h <;> rw [Prod.mk.injEq] at h <;> obtain ⟨rfl, rfl⟩ := h <;> exact ⟨rfl, rfl, rfl, rfl⟩

/-! ## Who has the ends open -/

/-- The parent has not forked, or could not. -/
def ParentPc.alone : ParentPc → Bool
  | .forking | .fork => true
  | .closeRead | .write1 | .write2 | .closing | .closeWrite | .wait | .terminated | .killed => false
  | .exit status | .exited status => status = EXIT_FAILURE

/-- The parent has the read end open. -/
def ParentPc.hasRead : ParentPc → Bool
  | .forking | .fork | .closeRead => true
  | .write1 | .write2 | .closing | .closeWrite | .wait | .terminated | .killed => false
  | .exit status | .exited status => status = EXIT_FAILURE

/-- The parent has the write end open. -/
def ParentPc.hasWrite : ParentPc → Bool
  | .forking | .fork | .closeRead | .write1 | .write2 | .closing | .closeWrite => true
  | .wait | .terminated | .killed => false
  | .exit status | .exited status => status = EXIT_FAILURE

/-- The child has the read end open. -/
def ChildPc.hasRead : ChildPc → Bool
  | .closeWrite | .hello | .reading | .fflush | .read | .blanks _ | .message _
  | .closeRead _ => true
  | .notForked | .closed _ | .exit _ | .exited _ => false

/-- The child has the write end open. -/
def ChildPc.hasWrite : ChildPc → Bool
  | .closeWrite => true
  | .notForked | .hello | .reading | .fflush | .read | .blanks _ | .message _ | .closeRead _
  | .closed _ | .exit _ | .exited _ => false

/-- The ends of the pipe, and whether there is a child. -/
structure Ends (parent : ParentPc) (child : ChildPc) (pipe : Pipe Process Char) : Prop where
  parentReads : .parent ∈ pipe.readers ↔ parent.hasRead = true
  childReads : .child ∈ pipe.readers ↔ child.hasRead = true
  parentWrites : .parent ∈ pipe.writers ↔ parent.hasWrite = true
  childWrites : .child ∈ pipe.writers ↔ child.hasWrite = true
  forked : child = .notForked ↔ parent.alone = true

theorem Ends.step (h : Ends s.parent s.child s.pipe) (hs : Step terminal s a e s') :
    Ends s'.parent s'.child s'.pipe := by
  cases hs with
  -- output does not touch the ends of the pipe
  | forking hpc hprint | closing hpc hprint | terminated hpc hprint =>
    obtain ⟨hparent, hchild, hpipe, -⟩ := printf_frame hprint
    rw [hparent, hchild, hpipe]
    rw [hpc] at h
    exact ⟨h.parentReads, h.childReads, h.parentWrites, h.childWrites, h.forked⟩
  | parentExit hpc hflush =>
    obtain ⟨hparent, hchild, hpipe, -⟩ := fflush_frame hflush
    rw [hparent, hchild, hpipe]
    rw [hpc] at h
    exact ⟨h.parentReads, h.childReads, h.parentWrites, h.childWrites, h.forked⟩
  | hello hpc hprint | reading hpc hprint | closed hpc hprint =>
    obtain ⟨hparent, hchild, hpipe, -⟩ := printf_frame hprint
    rw [hparent, hchild, hpipe]
    rw [hpc] at h
    exact ⟨h.parentReads, h.childReads, h.parentWrites, h.childWrites, by simpa using h.forked⟩
  | fflush hpc hflush | childExit hpc hflush =>
    obtain ⟨hparent, hchild, hpipe, -⟩ := fflush_frame hflush
    rw [hparent, hchild, hpipe]
    rw [hpc] at h
    exact ⟨h.parentReads, h.childReads, h.parentWrites, h.childWrites, by simpa using h.forked⟩
  -- both processes have both ends
  | fork hpc =>
    rw [hpc] at h
    have hreader := h.parentReads.mpr rfl
    have hwriter := h.parentWrites.mpr rfl
    refine ⟨?_, ?_, ?_, ?_, by simp [ParentPc.alone]⟩ <;>
      simp [Pipe.fork, hreader, hwriter, ParentPc.hasRead, ParentPc.hasWrite, ChildPc.hasRead,
        ChildPc.hasWrite]
  | forkFails hpc | write1 hpc | write2 hpc | wait hpc =>
    rw [hpc] at h
    exact ⟨h.parentReads, h.childReads, h.parentWrites, h.childWrites, h.forked⟩
  | parentCloseRead hpc =>
    rw [hpc] at h
    exact ⟨by simp [Pipe.closeRead, ParentPc.hasRead], by simpa [Pipe.closeRead] using h.childReads,
      h.parentWrites, h.childWrites, h.forked⟩
  | parentCloseWrite hpc =>
    rw [hpc] at h
    exact ⟨h.parentReads, h.childReads, by simp [Pipe.closeWrite, ParentPc.hasWrite],
      by simpa [Pipe.closeWrite] using h.childWrites, h.forked⟩
  | killed hpc hreaders =>
    -- a parent that has come to `write` has forked
    have halone : s.parent.alone = false := by
      obtain hpc | hpc := hpc <;> rw [hpc] <;> rfl
    have hforked := h.forked
    rw [halone] at hforked
    exact ⟨by simp [Pipe.closeRead, Pipe.closeWrite, ParentPc.hasRead],
      by simpa [Pipe.closeRead, Pipe.closeWrite] using h.childReads,
      by simp [Pipe.closeRead, Pipe.closeWrite, ParentPc.hasWrite],
      by simpa [Pipe.closeRead, Pipe.closeWrite] using h.childWrites, hforked⟩
  -- the ends of the two processes are closed independently of each other
  | childCloseWrite hpc =>
    rw [hpc] at h
    exact ⟨h.parentReads, h.childReads, by simpa [Pipe.closeWrite] using h.parentWrites,
      by simp [Pipe.closeWrite, ChildPc.hasWrite], by simpa using h.forked⟩
  | childCloseRead hpc =>
    rw [hpc] at h
    exact ⟨by simpa [Pipe.closeRead] using h.parentReads,
      by simp [Pipe.closeRead, ChildPc.hasRead], h.parentWrites, h.childWrites,
      by simpa using h.forked⟩
  | readEnd hpc | read hpc | readFails hpc | blanks hpc | message hpc =>
    rw [hpc] at h
    exact ⟨h.parentReads, h.childReads, h.parentWrites, h.childWrites, by simpa using h.forked⟩

/-! ## The message -/

/-- What the parent has sent. -/
def ParentPc.Sent : ParentPc → List Char → Prop
  | .forking | .fork | .closeRead | .write1 => fun sent => sent = []
  | .write2 => fun sent => sent = msg1
  | .closing | .closeWrite | .wait | .terminated => fun sent => sent = msg1 ++ msg2
  | .exit status | .exited status => fun sent =>
    sent = if status = EXIT_FAILURE then [] else msg1 ++ msg2
  | .killed => fun sent => sent <+: msg1 ++ msg2

/-- The parent has sent all and has closed the write end. -/
def ParentPc.done : ParentPc → Bool
  | .wait | .terminated => true
  | .exit status | .exited status => status ≠ EXIT_FAILURE
  | .forking | .fork | .closeRead | .write1 | .write2 | .closing | .closeWrite | .killed => false

/-- The part of the message that the child has read and has not passed on. -/
def ChildPc.buf : ChildPc → List (List Char)
  | .blanks buf | .message buf => [buf]
  | .notForked | .closeWrite | .hello | .reading | .fflush | .read | .closeRead _ | .closed _
  | .exit _ | .exited _ => []

/-- What the child has written before a part of the message. -/
def ChildPc.begun : ChildPc → List (List Char)
  | .message _ => [PipeFork.blanks]
  | .notForked | .closeWrite | .hello | .reading | .fflush | .read | .blanks _ | .closeRead _
  | .closed _ | .exit _ | .exited _ => []

/-- The child has left the loop; how its last `read` has ended. -/
def ChildPc.result : ChildPc → Option ℤ
  | .closeRead r | .closed r | .exit r | .exited r => some r
  | .notForked | .closeWrite | .hello | .reading | .fflush | .read | .blanks _ | .message _ => none

/-- What the child writes when it passes these parts of the message on. -/
def passed (chunks : List (List Char)) : List (List Char) := chunks.flatMap fun c => [blanks, c]

/-- A part of the message that a `read` may return. -/
def Chunk (c : List Char) : Prop := c ≠ [] ∧ c.length ≤ PIPE_BUF

/-- The child has passed on `chunks`, and has itself written `written`. -/
structure Relay (chunks written : List (List Char)) (parent : ParentPc) (child : ChildPc)
    (data : List Char) : Prop where
  sizes : ∀ c ∈ chunks ++ child.buf, Chunk c
  written : written = passed chunks ++ child.begun
  sent : parent.Sent ((chunks ++ child.buf).flatten ++ data)
  eof : child.result = some 0 → data = [] ∧ parent.done = true
  killed : parent = .killed → child.result ≠ none

/-- What the parent has sent so far. -/
theorem ParentPc.Sent.isPrefix {pc : ParentPc} {sent : List Char} (h : pc.Sent sent) :
    sent <+: msg1 ++ msg2 := by
  cases pc with
  | forking | fork | closeRead | write1 => exact h ▸ List.nil_prefix
  | write2 => exact h ▸ List.prefix_append ..
  | closing | closeWrite | wait | terminated => exact h ▸ List.prefix_rfl
  | exit status | exited status =>
    have hsent : sent = if status = EXIT_FAILURE then [] else msg1 ++ msg2 := h
    rw [hsent]
    split
    · exact List.nil_prefix
    · exact List.prefix_rfl
  | killed => exact h

theorem ParentPc.Sent.done {pc : ParentPc} {sent : List Char} (h : pc.Sent sent)
    (hdone : pc.done = true) : sent = msg1 ++ msg2 := by
  cases pc with
  | wait | terminated => exact h
  | exit status | exited status =>
    have hsent : sent = if status = EXIT_FAILURE then [] else msg1 ++ msg2 := h
    rwa [if_neg (by simpa [ParentPc.done] using hdone)] at hsent
  | forking | fork | closeRead | write1 | write2 | closing | closeWrite | killed => cases hdone

/-- A step of the parent that sends nothing. -/
theorem Relay.parent {written : List (List Char)} {parent parent' : ParentPc} {child : ChildPc}
    {data : List Char} (h : Relay chunks written parent child data)
    (hsent : ∀ sent, parent.Sent sent → parent'.Sent sent)
    (hdone : parent.done = true → parent'.done = true)
    (hkilled : parent' = .killed → child.result ≠ none) :
    Relay chunks written parent' child data :=
  ⟨h.sizes, h.written, hsent _ h.sent, fun hr => ⟨(h.eof hr).1, hdone (h.eof hr).2⟩, hkilled⟩

/-- A step of the child that does not read or write. -/
theorem Relay.child {written : List (List Char)} {parent : ParentPc} {child child' : ChildPc}
    {data : List Char} (h : Relay chunks written parent child data)
    (hbuf : child'.buf = child.buf) (hbegun : child'.begun = child.begun)
    (hresult : child'.result = child.result) : Relay chunks written parent child' data :=
  ⟨hbuf ▸ h.sizes, hbegun ▸ h.written, hbuf ▸ h.sent, hresult ▸ h.eof, hresult ▸ h.killed⟩

/-- The parent sends one more message. -/
theorem Relay.send {written : List (List Char)} {parent parent' : ParentPc} {child : ChildPc}
    {data bytes : List Char} (h : Relay chunks written parent child data)
    (hsent : ∀ sent, parent.Sent sent → parent'.Sent (sent ++ bytes))
    (hdone : parent.done = false) (hkilled : parent' ≠ .killed) :
    Relay chunks written parent' child (data ++ bytes) := by
  refine ⟨h.sizes, h.written, ?_, fun hr => ?_, fun hpc => absurd hpc hkilled⟩
  · rw [← List.append_assoc]
    exact hsent _ h.sent
  · rw [(h.eof hr).2] at hdone
    cases hdone

/-- No process has the read end open: the child has left the loop. -/
theorem Ends.result_of_readers {parent : ParentPc} {child : ChildPc} {pipe : Pipe Process Char}
    (h : Ends parent child pipe) (halone : parent.alone = false) (hreaders : pipe.readers = ∅) :
    child.result ≠ none := by
  have hreads := h.childReads
  have hforked := h.forked
  rw [hreaders] at hreads
  cases child <;> simp [ChildPc.hasRead, halone, ChildPc.result] at hreads hforked ⊢

/-- No process has the write end open: the parent has sent all. -/
theorem Ends.done_of_writers {parent : ParentPc} {child : ChildPc} {pipe : Pipe Process Char}
    (h : Ends parent child pipe) (hwriters : pipe.writers = ∅) (hkilled : parent ≠ .killed) :
    parent.done = true := by
  have hwrites := h.parentWrites
  rw [hwriters] at hwrites
  cases parent <;> simp [ParentPc.hasWrite, ParentPc.done] at hwrites hkilled ⊢
  · exact hwrites
  · exact hwrites

theorem Relay.step (h : Relay chunks (tr.filterMap Event.bytes) s.parent s.child s.pipe.data)
    (hends : Ends s.parent s.child s.pipe) (hs : Step terminal s a e s') :
    ∃ chunks', Relay chunks' ((tr ++ e.toList).filterMap Event.bytes) s'.parent s'.child
      s'.pipe.data := by
  rw [List.filterMap_append]
  cases hs with
  -- output and the end of a process neither send nor receive
  | forking hpc hprint | closing hpc hprint | terminated hpc hprint =>
    obtain ⟨hparent, hchild, hpipe, hbytes⟩ := printf_frame hprint
    rw [hparent, hchild, hpipe, hbytes, List.append_nil]
    rw [hpc] at h
    exact ⟨chunks, h.parent (fun _ hsent => hsent) id (by simp)⟩
  | parentExit hpc hflush =>
    obtain ⟨hparent, hchild, hpipe, hbytes⟩ := fflush_frame hflush
    rw [hparent, hchild, hpipe, hbytes, List.append_nil]
    rw [hpc] at h
    exact ⟨chunks, h.parent (fun _ hsent => hsent) id (by simp)⟩
  | hello hpc hprint | reading hpc hprint | closed hpc hprint =>
    obtain ⟨hparent, hchild, hpipe, hbytes⟩ := printf_frame hprint
    rw [hparent, hchild, hpipe, hbytes, List.append_nil]
    rw [hpc] at h
    exact ⟨chunks, h.child rfl rfl rfl⟩
  | fflush hpc hflush | childExit hpc hflush =>
    obtain ⟨hparent, hchild, hpipe, hbytes⟩ := fflush_frame hflush
    rw [hparent, hchild, hpipe, hbytes, List.append_nil]
    rw [hpc] at h
    exact ⟨chunks, h.child rfl rfl rfl⟩
  | fork hpc =>
    have hnot := hends.forked.mpr (by rw [hpc]; rfl)
    rw [hpc, hnot] at h
    have hparent : Relay chunks _ .closeRead .notForked s.pipe.data :=
      h.parent (fun _ hsent => hsent) id (by simp)
    exact ⟨chunks, (List.append_nil _).symm ▸ hparent.child rfl rfl rfl⟩
  -- the parent closes its end or waits: nothing is sent
  | forkFails hpc | parentCloseRead hpc | parentCloseWrite hpc | wait hpc =>
    rw [hpc] at h
    exact ⟨chunks, (List.append_nil _).symm ▸
      h.parent (fun _ hsent => hsent) (by simp [ParentPc.done]) (by simp)⟩
  -- a message is sent as a whole
  | write1 hpc =>
    rw [hpc] at h
    refine ⟨chunks, (List.append_nil _).symm ▸ h.send (fun sent hsent => ?_) rfl (by simp)⟩
    obtain rfl : sent = [] := hsent
    rfl
  | write2 hpc =>
    rw [hpc] at h
    refine ⟨chunks, (List.append_nil _).symm ▸ h.send (fun sent hsent => ?_) rfl (by simp)⟩
    obtain rfl : sent = msg1 := hsent
    rfl
  | killed hpc hreaders =>
    refine ⟨chunks, (List.append_nil _).symm ▸ h.parent (fun _ hsent => hsent.isPrefix) ?_ ?_⟩
    · obtain hpc | hpc := hpc <;> rw [hpc] <;> simp [ParentPc.done]
    · -- there is a child, and it has closed the read end
      have halone : s.parent.alone = false := by
        obtain hpc | hpc := hpc <;> rw [hpc] <;> rfl
      exact fun _ => hends.result_of_readers halone hreaders
  -- the child has no part at hand
  | childCloseWrite hpc | childCloseRead hpc =>
    rw [hpc] at h
    exact ⟨chunks, (List.append_nil _).symm ▸ h.child rfl rfl rfl⟩
  -- no writer is left, and the parent has not been killed, so it has sent everything
  | readEnd hpc hdata hwriters =>
    have hdone := hends.done_of_writers hwriters fun hkilled => by
      have hresult := h.killed hkilled
      rw [hpc] at hresult
      exact hresult rfl
    rw [hpc] at h
    exact ⟨chunks, (List.append_nil _).symm ▸
      ⟨h.sizes, h.written, h.sent, fun _ => ⟨hdata, hdone⟩, by simp [ChildPc.result]⟩⟩
  | @read _ buf _ hpc hbuf hsize hdata =>
    rw [hpc] at h
    have hsizes := h.sizes
    have hsent := h.sent
    -- what is taken from the pipe becomes the part that the child has at hand
    rw [← hdata] at hsent
    refine ⟨chunks, (List.append_nil _).symm ▸ ⟨fun c hc => ?_, h.written, ?_,
      by simp [ChildPc.result], h.killed⟩⟩
    · obtain hc | hc := List.mem_append.mp hc
      · exact hsizes c (List.mem_append_left _ hc)
      · obtain rfl : c = buf := List.mem_singleton.mp hc
        exact ⟨hbuf, hsize⟩
    · simpa [ChildPc.buf] using hsent
  | readFails hpc =>
    rw [hpc] at h
    exact ⟨chunks, (List.append_nil _).symm ▸ ⟨h.sizes, h.written, h.sent,
      by simp [ChildPc.result], by simp [ChildPc.result]⟩⟩
  | blanks hpc =>
    -- the two blanks are the beginning of the part, which counts as written with them
    rw [hpc] at h
    refine ⟨chunks, ⟨h.sizes, ?_, h.sent, by simp [ChildPc.result], h.killed⟩⟩
    rw [h.written, List.append_assoc]
    rfl
  | @message _ buf hpc =>
    rw [hpc] at h
    have hsizes := h.sizes
    have hsent := h.sent
    -- the part is complete
    refine ⟨chunks ++ [buf], ⟨by simpa [ChildPc.buf] using hsizes, ?_,
      by simpa [ChildPc.buf] using hsent, by simp [ChildPc.result], h.killed⟩⟩
    rw [h.written]
    simp [passed, ChildPc.begun, Event.bytes]

/-- What holds in all runs. -/
structure Inv (tr : List Event) (s : State) : Prop where
  ends : Ends s.parent s.child s.pipe
  relay : ∃ chunks, Relay chunks (tr.filterMap Event.bytes) s.parent s.child s.pipe.data

theorem Inv.step (h : Inv tr s) (hs : Step terminal s a e s') : Inv (tr ++ e.toList) s' := by
  obtain ⟨chunks, hrelay⟩ := h.relay
  exact ⟨h.ends.step hs, hrelay.step h.ends hs⟩

theorem initial_inv : Inv [] initial where
  ends := ⟨by decide, by decide, by decide, by decide, by decide⟩
  relay := ⟨[], by simp [initial, ChildPc.buf], rfl, rfl, by simp [initial, ChildPc.result],
    by simp [initial]⟩

theorem run_inv (h : (machine terminal).Run initial tr s) : Inv tr s :=
  h.trace_invariant (fun _ _ _ _ _ hI hs => hI.step (step_cases hs)) initial_inv

/-- The child passes on the beginning of the message, in the parts in which it has read it, and it
    sees the end of the pipe when it has passed on all of it. -/
theorem relayed_run (h : (machine terminal).Run initial tr s) :
    ∃ chunks, (∀ c ∈ chunks, Chunk c) ∧ chunks.flatten <+: msg1 ++ msg2 ∧
      (tr.filterMap Event.bytes = passed chunks ∨
        tr.filterMap Event.bytes = passed chunks ++ [blanks]) ∧
      (s.child.result = some 0 →
        chunks.flatten = msg1 ++ msg2 ∧ tr.filterMap Event.bytes = passed chunks) := by
  obtain ⟨chunks, hrelay⟩ := (run_inv h).relay
  have hwritten := hrelay.written
  refine ⟨chunks, fun c hc => hrelay.sizes c (List.mem_append_left _ hc), ?_, ?_, fun hr => ?_⟩
  · have hsent := hrelay.sent.isPrefix
    rw [List.flatten_append, List.append_assoc] at hsent
    exact (List.prefix_append ..).trans hsent
  · cases hpc : s.child <;> rw [hpc] at hwritten <;> simp [ChildPc.begun] at hwritten <;>
      simp [hwritten]
  · obtain ⟨hdata, hdone⟩ := hrelay.eof hr
    have hsent := hrelay.sent.done hdone
    cases hpc : s.child <;> rw [hpc] at hr <;> simp [ChildPc.result] at hr <;>
      rw [hpc] at hwritten hsent <;>
      simpa [hdata, ChildPc.buf, ChildPc.begun] using And.intro hsent hwritten

/-! ## The whole output, if it is not a terminal -/

/-- What the parent has in `stdout`. -/
def ParentPc.texts : ParentPc → List String
  | .forking | .exited _ => []
  | .fork | .closeRead | .write1 | .write2 | .closing | .killed => ["parent: Forking a child.\n"]
  | .closeWrite | .wait | .terminated =>
    ["parent: Forking a child.\n", "parent: Closing the pipe.\n"]
  | .exit status =>
    if status = EXIT_FAILURE then ["parent: Forking a child.\n"]
    else ["parent: Forking a child.\n", "parent: Closing the pipe.\n",
      "parent: The child process terminated.\n"]

/-- What the child has in `stdout`; it has inherited the first line. -/
def ChildPc.texts : ChildPc → List String
  | .closeWrite | .hello => ["parent: Forking a child.\n"]
  | .reading => ["parent: Forking a child.\n", "child: This is a child!\n"]
  | .fflush => ["parent: Forking a child.\n", "child: This is a child!\n",
    "child: Reading message from my parent.\nchild: From pipe:\n"]
  | .exit _ => ["child: My parent closed the pipe, exiting.\n"]
  | .notForked | .read | .blanks _ | .message _ | .closeRead _ | .closed _ | .exited _ => []

/-- What the child has written out before it reads. -/
def ChildPc.first : ChildPc → List Event
  | .notForked | .closeWrite | .hello | .reading | .fflush => []
  | .read | .blanks _ | .message _ | .closeRead _ | .closed _ | .exit _ | .exited _ =>
    [.stdout ChildPc.fflush.texts]

/-- What the child has written out at its end. -/
def ChildPc.last : ChildPc → List Event
  | .exited r => [.stdout (ChildPc.exit r).texts]
  | .notForked | .closeWrite | .hello | .reading | .fflush | .read | .blanks _ | .message _
  | .closeRead _ | .closed _ | .exit _ => []

/-- What the parent has written when it could not fork. -/
def ParentPc.failed : ParentPc → List Event
  | .exit status | .exited status =>
    if status = EXIT_FAILURE then [.perror "fork(2) call failed"] else []
  | .forking | .fork | .closeRead | .write1 | .write2 | .closing | .closeWrite | .wait
  | .terminated | .killed => []

/-- What the parent has written out at its end. -/
def ParentPc.last : ParentPc → List Event
  | .exited status => [.stdout (ParentPc.exit status).texts]
  | .forking | .fork | .closeRead | .write1 | .write2 | .closing | .closeWrite | .wait
  | .terminated | .exit _ | .killed => []

/-- The parent has waited for the child. -/
def ParentPc.waited : ParentPc → Bool
  | .terminated => true
  | .exit status | .exited status => status ≠ EXIT_FAILURE
  | .forking | .fork | .closeRead | .write1 | .write2 | .closing | .closeWrite | .wait
  | .killed => false

/-- What has been written, and what is left in `stdout`. -/
structure Output (tr : List Event) (s : State) : Prop where
  parent : s.stdout .parent = s.parent.texts
  child : s.stdout .child = s.child.texts
  waited : s.parent.waited = true → ∃ r, s.child = .exited r
  fresh : s.child.first = [] → tr.filterMap Event.bytes = []
  trace : tr = s.parent.failed ++ s.child.first ++ (tr.filterMap Event.bytes).map Event.write ++
    s.child.last ++ s.parent.last

/-- A step that writes nothing. -/
theorem Output.silent (h : Output tr s) (hparent : s'.stdout .parent = s'.parent.texts)
    (hchild : s'.stdout .child = s'.child.texts)
    (hwaited : s'.parent.waited = true → ∃ r, s'.child = .exited r)
    (hfirst : s'.child.first = s.child.first) (hlast : s'.child.last = s.child.last)
    (hfailed : s'.parent.failed = s.parent.failed) (hlast' : s'.parent.last = s.parent.last) :
    Output (tr ++ (none : Option Event).toList) s' := by
  rw [Option.toList_none, List.append_nil]
  refine ⟨hparent, hchild, hwaited, ?_, ?_⟩
  · rw [hfirst]
    exact h.fresh
  · rw [hfirst, hlast, hfailed, hlast']
    exact h.trace

/-- `printf` to a file. -/
theorem printf_file (h : printf false p text s = (e, s')) :
    e = none ∧ s' = { s with stdout := Function.update s.stdout p (s.stdout p ++ [text]) } := by
  simp only [printf, Bool.false_eq_true, if_false, Prod.mk.injEq] at h
  exact ⟨h.1.symm, h.2.symm⟩

/-- `fflush` of a buffer with something in it. -/
theorem fflush_file (h : fflush p s = (e, s')) (hne : s.stdout p ≠ []) :
    e = some (.stdout (s.stdout p)) ∧ s' = { s with stdout := Function.update s.stdout p [] } := by
  simp only [fflush, if_neg hne, Prod.mk.injEq] at h
  exact ⟨h.1.symm, h.2.symm⟩

/-- While the child goes on, the parent does not. -/
theorem Output.not_waited (h : Output tr s) (hexited : ∀ r, s.child ≠ .exited r) :
    s.parent.waited = false := by
  by_contra hne
  obtain ⟨r, hr⟩ := h.waited (Bool.eq_true_of_not_eq_false hne)
  exact hexited r hr

/-- While the child goes on, the parent has not ended. -/
theorem Output.parent_last (h : Output tr s) (hends : Ends s.parent s.child s.pipe)
    (hforked : s.child ≠ .notForked) (hexited : ∀ r, s.child ≠ .exited r) :
    s.parent.failed = [] ∧ s.parent.last = [] := by
  have halone := mt hends.forked.mpr hforked
  have hwaited := h.not_waited hexited
  cases hpc : s.parent <;> rw [hpc] at halone hwaited <;>
    simp [ParentPc.alone, ParentPc.waited, ParentPc.failed, ParentPc.last] at halone hwaited ⊢
  · exact absurd hwaited halone
  · exact absurd hwaited halone

/-- The child writes a part of what it passes on. -/
theorem Output.bytes {bytes : List Char} {child : ChildPc} (h : Output tr s)
    (hends : Ends s.parent s.child s.pipe) (hforked : s.child ≠ .notForked)
    (hexited : ∀ r, s.child ≠ .exited r) (htexts : child.texts = s.child.texts)
    (hfirst : child.first = s.child.first) (hne : child.first ≠ []) (hlast : s.child.last = [])
    (hlast' : child.last = []) :
    Output (tr ++ (some (Event.write bytes)).toList) { s with child := child } := by
  obtain ⟨hfailed, hparent⟩ := h.parent_last hends hforked hexited
  have htrace := h.trace
  refine ⟨h.parent, h.child.trans htexts.symm, fun hw => ?_, fun hf => absurd hf hne, ?_⟩
  · rw [h.not_waited hexited] at hw
    cases hw
  · rw [hfailed, hparent, hlast] at htrace
    simp only [hfailed, hparent, hlast', hfirst, List.append_nil, List.nil_append] at htrace ⊢
    rw [List.filterMap_append, List.map_append, ← List.append_assoc, ← htrace]
    rfl

theorem Output.step (h : Output tr s) (hends : Ends s.parent s.child s.pipe)
    (hs : Step false s a e s') : Output (tr ++ e.toList) s' := by
  have hparent := h.parent
  have hchild := h.child
  have htrace := h.trace
  cases hs with
  -- a text goes to the buffer of the process, not to the file
  | forking hpc hprint | closing hpc hprint =>
    obtain ⟨rfl, rfl⟩ := printf_file hprint
    rw [hpc] at hparent
    refine h.silent ?_ ?_ ?_ ?_ ?_ ?_ ?_ <;>
      simp [hparent, hchild, hpc, ParentPc.texts, ParentPc.waited, ParentPc.failed, ParentPc.last]
  | terminated hpc hprint =>
    obtain ⟨rfl, rfl⟩ := printf_file hprint
    have hexited := h.waited (by rw [hpc]; rfl)
    rw [hpc] at hparent
    refine h.silent ?_ ?_ ?_ ?_ ?_ ?_ ?_ <;>
      simp [hparent, hchild, hpc, hexited, ParentPc.texts, ParentPc.failed, ParentPc.last,
        EXIT_SUCCESS, EXIT_FAILURE]
  | @parentExit status _ _ hpc hflush =>
    rw [hpc] at hparent
    -- the buffer is not empty, so that `exit` writes it out
    have hne : (ParentPc.exit status).texts ≠ [] := by
      simp only [ParentPc.texts]
      split <;> simp
    obtain ⟨rfl, rfl⟩ := fflush_file hflush (by rw [hparent]; exact hne)
    refine ⟨by simp [ParentPc.texts], by simp [hchild],
      fun hw => h.waited (by rw [hpc]; exact hw), fun hf => ?_, ?_⟩
    · rw [List.filterMap_append, h.fresh hf]
      rfl
    · rw [hpc] at htrace
      have happend := congrArg (fun t => t ++ [Event.stdout (s.stdout .parent)]) htrace
      simpa [hparent, ParentPc.failed, ParentPc.last, List.filterMap_cons, Event.bytes]
        using happend
  | hello hpc hprint | reading hpc hprint | closed hpc hprint =>
    -- the parent is still running, and waits for the child at most
    obtain ⟨rfl, rfl⟩ := printf_file hprint
    have hwaited := h.not_waited (by simp [hpc])
    rw [hpc] at hchild
    refine h.silent ?_ ?_ ?_ ?_ ?_ ?_ ?_ <;>
      simp [hparent, hchild, hpc, hwaited, ChildPc.texts, ChildPc.first, ChildPc.last]
  | fflush hpc hflush =>
    obtain ⟨hfailed, hlast⟩ := h.parent_last hends (by simp [hpc]) (by simp [hpc])
    have hwaited := h.not_waited (by simp [hpc])
    -- `fflush` is the first output of all
    have hbytes := h.fresh (by rw [hpc]; rfl)
    rw [hpc] at hchild
    obtain ⟨rfl, rfl⟩ := fflush_file hflush (by simp [hchild, ChildPc.texts])
    refine ⟨by simp [hparent], by simp [ChildPc.texts], by simp [hwaited],
      by simp [ChildPc.first], ?_⟩
    rw [hpc, hfailed, hlast, hbytes] at htrace
    obtain rfl : tr = [] := htrace
    simp [hchild, hfailed, hlast, ChildPc.first, ChildPc.last, Event.bytes]
  | childExit hpc hflush =>
    obtain ⟨hfailed, hlast⟩ := h.parent_last hends (by simp [hpc]) (by simp [hpc])
    rw [hpc] at hchild
    obtain ⟨rfl, rfl⟩ := fflush_file hflush (by simp [hchild, ChildPc.texts])
    refine ⟨by simp [hparent], by simp [ChildPc.texts], by simp, by simp [ChildPc.first], ?_⟩
    -- the parent still has its lines in its buffer
    rw [hpc, hfailed, hlast] at htrace
    have happend := congrArg (fun t => t ++ [Event.stdout (s.stdout .child)]) htrace
    simpa [hchild, hfailed, hlast, ChildPc.first, ChildPc.last, List.filterMap_cons, Event.bytes]
      using happend
  | fork hpc =>
    -- the child gets a copy of the buffer, with the line of the parent
    have hnot := hends.forked.mpr (by rw [hpc]; rfl)
    rw [hpc] at hparent
    refine h.silent ?_ ?_ ?_ ?_ ?_ ?_ ?_ <;>
      simp [hparent, hpc, hnot, ParentPc.texts, ParentPc.waited, ParentPc.failed, ParentPc.last,
        ChildPc.texts, ChildPc.first, ChildPc.last]
  | forkFails hpc =>
    have hnot := hends.forked.mpr (by rw [hpc]; rfl)
    have hbytes := h.fresh (by rw [hnot]; rfl)
    rw [hpc] at hparent
    rw [hpc, hnot, hbytes] at htrace
    obtain rfl : tr = [] := htrace
    refine ⟨by simp [hparent, ParentPc.texts], hchild, by simp [ParentPc.waited],
      by simp [Event.bytes], ?_⟩
    simp [hnot, ParentPc.failed, ParentPc.last, ChildPc.first, ChildPc.last, Event.bytes]
  | parentCloseRead hpc | parentCloseWrite hpc | write1 hpc | write2 hpc =>
    rw [hpc] at hparent
    refine h.silent ?_ ?_ ?_ ?_ ?_ ?_ ?_ <;>
      simp [hparent, hchild, hpc, ParentPc.texts, ParentPc.waited, ParentPc.failed, ParentPc.last]
  | wait hpc hexited =>
    rw [hpc] at hparent
    refine h.silent ?_ ?_ ?_ ?_ ?_ ?_ ?_ <;>
      simp [hparent, hchild, hpc, hexited, ParentPc.texts, ParentPc.failed, ParentPc.last]
  -- a killed parent does not write its buffer out
  | killed hpc hreaders =>
    obtain hpc | hpc := hpc <;> rw [hpc] at hparent <;> refine h.silent ?_ ?_ ?_ ?_ ?_ ?_ ?_ <;>
      simp [hparent, hchild, hpc, ParentPc.texts, ParentPc.waited, ParentPc.failed, ParentPc.last]
  | childCloseWrite hpc | childCloseRead hpc | readEnd hpc | read hpc | readFails hpc =>
    have hwaited := h.not_waited (by simp [hpc])
    rw [hpc] at hchild
    refine h.silent ?_ ?_ ?_ ?_ ?_ ?_ ?_ <;>
      simp [hparent, hchild, hpc, hwaited, ChildPc.texts, ChildPc.first, ChildPc.last]
  | blanks hpc | message hpc =>
    refine h.bytes hends ?_ ?_ ?_ ?_ ?_ ?_ ?_ <;>
      simp [hpc, ChildPc.texts, ChildPc.first, ChildPc.last]

theorem run_output (h : (machine false).Run initial tr s) : Output tr s := by
  refine (h.trace_invariant (I := fun tr s => Inv tr s ∧ Output tr s) ?_ ?_).2
  · rintro tr s a e s' ⟨hI, hO⟩ hs
    exact ⟨hI.step (step_cases hs), hO.step hI.ends (step_cases hs)⟩
  · exact ⟨initial_inv, rfl, rfl, by simp [initial, ParentPc.waited], fun _ => rfl, rfl⟩

/-- If the output is not a terminal, it comes in one order: what the child prints before it reads,
    with the line of the parent that it has inherited; what it passes on; what it prints at its end;
    and what the parent prints, with that line again. -/
theorem file_run (h : (machine false).Run initial tr s)
    (hexited : s.parent = .exited EXIT_SUCCESS) :
    ∃ chunks, (∀ c ∈ chunks, Chunk c) ∧ chunks.flatten <+: msg1 ++ msg2 ∧
      (s.child = .exited 0 → chunks.flatten = msg1 ++ msg2) ∧
      tr = [.stdout ["parent: Forking a child.\n", "child: This is a child!\n",
          "child: Reading message from my parent.\nchild: From pipe:\n"]] ++
        (passed chunks).map Event.write ++
        [.stdout ["child: My parent closed the pipe, exiting.\n"],
          .stdout ["parent: Forking a child.\n", "parent: Closing the pipe.\n",
            "parent: The child process terminated.\n"]] := by
  have hout := run_output h
  obtain ⟨chunks, hrelay⟩ := (run_inv h).relay
  -- a parent that exits successfully has waited for its child
  obtain ⟨r, hchild⟩ := hout.waited (by rw [hexited]; rfl)
  have hwritten := hrelay.written
  have hsent := hrelay.sent.isPrefix
  have htrace := hout.trace
  rw [hchild] at hwritten hsent htrace
  simp only [ChildPc.begun, ChildPc.buf, List.append_nil] at hwritten hsent
  rw [hexited, hwritten] at htrace
  refine ⟨chunks, fun c hc => hrelay.sizes c (List.mem_append_left _ hc),
    (List.prefix_append ..).trans hsent, fun h0 => ?_, ?_⟩
  -- the child has seen the end of the pipe only after everything was sent and read
  · obtain ⟨hdata, hdone⟩ := hrelay.eof (by rw [h0]; rfl)
    have hall := hrelay.sent.done hdone
    rw [h0, hdata] at hall
    simpa [ChildPc.buf] using hall
  · rw [htrace]
    simp [ParentPc.failed, ParentPc.last, ParentPc.texts, ChildPc.first, ChildPc.last,
      ChildPc.texts, EXIT_SUCCESS, EXIT_FAILURE]

/-! ## Every run ends -/

/-- How the processes may end. -/
structure Codes (parent : ParentPc) (child : ChildPc) : Prop where
  parent : ∀ status, parent = .exit status ∨ parent = .exited status →
    status = EXIT_SUCCESS ∨ status = EXIT_FAILURE
  child : ∀ r, child.result = some r → r = 0 ∨ r = -1

theorem Codes.step (h : Codes s.parent s.child) (hs : Step terminal s a e s') :
    Codes s'.parent s'.child := by
  have hchild := h.child
  cases hs with
  -- output does not change the code with which a process is going to end
  | forking hpc hprint | closing hpc hprint | terminated hpc hprint =>
    obtain ⟨hparent, hchild, -⟩ := printf_frame hprint
    rw [hparent, hchild]
    exact ⟨by simp, h.child⟩
  | parentExit hpc hflush =>
    obtain ⟨hparent, hchild, -⟩ := fflush_frame hflush
    rw [hparent, hchild]
    have hstatus := h.parent _ (.inl hpc)
    exact ⟨by simpa using hstatus, h.child⟩
  | hello hpc hprint | reading hpc hprint | closed hpc hprint =>
    obtain ⟨hparent, hchild, -⟩ := printf_frame hprint
    rw [hparent, hchild]
    rw [hpc] at h
    exact ⟨h.parent, h.child⟩
  | fflush hpc hflush | childExit hpc hflush =>
    obtain ⟨hparent, hchild, -⟩ := fflush_frame hflush
    rw [hparent, hchild]
    rw [hpc] at h
    exact ⟨h.parent, h.child⟩
  | fork hpc => exact ⟨by simp, by simp [ChildPc.result]⟩
  | forkFails hpc => exact ⟨by simp, h.child⟩
  | parentCloseRead hpc | parentCloseWrite hpc | write1 hpc | write2 hpc | wait hpc | killed hpc =>
    exact ⟨by simp, h.child⟩
  | childCloseWrite hpc | childCloseRead hpc | read hpc | blanks hpc | message hpc =>
    rw [hpc] at hchild
    exact ⟨h.parent, hchild⟩
  | readEnd hpc | readFails hpc => exact ⟨h.parent, by simp [ChildPc.result]⟩

/-- How many steps are left for the parent, and for the child to pass on what it will send. -/
def ParentPc.rest : ParentPc → ℕ
  | .forking => 10 + 3 * (msg1 ++ msg2).length
  | .fork => 9 + 3 * (msg1 ++ msg2).length
  | .closeRead => 8 + 3 * (msg1 ++ msg2).length
  | .write1 => 7 + 3 * (msg1 ++ msg2).length
  | .write2 => 6 + 3 * msg2.length
  | .closing => 5
  | .closeWrite => 4
  | .wait => 3
  | .terminated => 2
  | .exit _ => 1
  | .exited _ | .killed => 0

/-- How many steps are left for the child, unless it reads more. -/
def ChildPc.rest : ChildPc → ℕ
  | .notForked => 10
  | .closeWrite => 9
  | .hello => 8
  | .reading => 7
  | .fflush => 6
  | .blanks _ => 7
  | .message _ => 6
  | .read => 5
  | .closeRead _ => 4
  | .closed _ => 3
  | .exit _ => 2
  | .exited _ => 1

/-- A measure that every step makes smaller. -/
def rest (s : State) : ℕ := s.parent.rest + 3 * s.pipe.data.length + s.child.rest

theorem rest_step (hends : Ends s.parent s.child s.pipe) (hs : Step terminal s a e s') :
    rest s' < rest s := by
  cases hs with
  | forking hpc hprint | closing hpc hprint | terminated hpc hprint =>
    obtain ⟨hparent, hchild, hpipe, -⟩ := printf_frame hprint
    simp [rest, hparent, hchild, hpipe, hpc, ParentPc.rest]
  | parentExit hpc hflush =>
    obtain ⟨hparent, hchild, hpipe, -⟩ := fflush_frame hflush
    simp [rest, hparent, hchild, hpipe, hpc, ParentPc.rest]
  | hello hpc hprint | reading hpc hprint | closed hpc hprint =>
    obtain ⟨hparent, hchild, hpipe, -⟩ := printf_frame hprint
    simp [rest, hparent, hchild, hpipe, hpc, ChildPc.rest]
  | fflush hpc hflush | childExit hpc hflush =>
    obtain ⟨hparent, hchild, hpipe, -⟩ := fflush_frame hflush
    simp [rest, hparent, hchild, hpipe, hpc, ChildPc.rest]
  | fork hpc =>
    have hnot := hends.forked.mpr (by rw [hpc]; rfl)
    simp only [rest, hpc, hnot, Pipe.fork, ParentPc.rest, ChildPc.rest]
    omega
  | forkFails hpc | parentCloseRead hpc | parentCloseWrite hpc | wait hpc =>
    simp only [rest, hpc, Pipe.closeRead, Pipe.closeWrite, ParentPc.rest]
    omega
  | write1 hpc | write2 hpc =>
    simp only [rest, hpc, ParentPc.rest, List.length_append]
    omega
  | killed hpc hreaders =>
    obtain hpc | hpc := hpc <;> simp only [rest, hpc, Pipe.closeRead, Pipe.closeWrite,
      ParentPc.rest] <;> omega
  | childCloseWrite hpc | childCloseRead hpc | readEnd hpc | readFails hpc | blanks hpc
  | message hpc =>
    simp only [rest, hpc, Pipe.closeRead, Pipe.closeWrite, ChildPc.rest]
    omega
  | read hpc hbuf hsize hdata =>
    -- at least one byte is gone
    have hpos := List.length_pos_iff.mpr hbuf
    have hlength := congrArg List.length hdata
    rw [List.length_append] at hlength
    simp only [rest, hpc, ChildPc.rest]
    omega

/-- The parent goes on, unless it waits or has ended. -/
theorem exists_parentStep (hwait : s.parent = .wait → ∃ r, s.child = .exited r)
    (hexited : ∀ status, s.parent ≠ .exited status) (hkilled : s.parent ≠ .killed) :
    ∃ r, parentStep terminal s = some r := by
  cases hpc : s.parent with
  | wait =>
    obtain ⟨r, hr⟩ := hwait hpc
    simp [parentStep, hpc, hr]
  | exited status => exact absurd hpc (hexited status)
  | killed => exact absurd hpc hkilled
  | _ => simp [parentStep, hpc]

/-- The child goes on, unless it waits for the parent or has ended. -/
theorem exists_childStep (hforked : s.child ≠ .notForked) (hexited : ∀ r, s.child ≠ .exited r)
    (hread : s.child = .read → s.pipe.data ≠ [] ∨ s.pipe.writers = ∅) :
    ∃ r, childStep terminal 1 s = some r := by
  cases hpc : s.child with
  | notForked => exact absurd hpc hforked
  | exited r => exact absurd hpc (hexited r)
  | read =>
    have hsize : 0 < PIPE_BUF := by decide
    obtain ⟨r, hr⟩ := Pipe.exists_read hsize (hread hpc)
    simp [childStep, hpc, hr]
  | _ => simp [childStep, hpc]

/-- The parent could not fork, or both processes have ended; by `SIGPIPE` only when a `read` of the
    child has failed. -/
def Ended (s : State) : Prop :=
  (s.parent = .exited EXIT_FAILURE ∧ s.child = .notForked) ∨
    (s.parent = .exited EXIT_SUCCESS ∧ (s.child = .exited 0 ∨ s.child = .exited (-1))) ∨
    (s.parent = .killed ∧ s.child = .exited (-1))

/-- The child goes on while the parent waits for it or has ended. -/
theorem exists_step_of_closed (hends : Ends s.parent s.child s.pipe)
    (hwrite : s.parent.hasWrite = false) (hforked : s.child ≠ .notForked)
    (hexited : ∀ r, s.child ≠ .exited r) : ∃ a r, (machine terminal).step s a = some r := by
  have hread : s.child = .read → s.pipe.data ≠ [] ∨ s.pipe.writers = ∅ := fun hpc => by
    -- neither process has the write end open
    have hparent := hends.parentWrites
    have hchild := hends.childWrites
    rw [hwrite] at hparent
    rw [hpc] at hchild
    right
    ext p
    cases p with
    | parent => simpa using hparent
    | child => simpa [ChildPc.hasWrite] using hchild
  have hstep : ∃ r, childStep terminal 1 s = some r := exists_childStep hforked hexited hread
  obtain ⟨r, hr⟩ := hstep
  exact ⟨.child 1, r, hr⟩

/-- A process that has not ended goes on, or it waits for one that does. -/
theorem exists_step (h : Inv tr s) (hcodes : Codes s.parent s.child) (hend : ¬ Ended s) :
    ∃ a r, (machine terminal).step s a = some r := by
  obtain ⟨chunks, hrelay⟩ := h.relay
  have hforked := h.ends.forked
  -- the parent can go on unless it waits or has ended
  have hparent : (s.parent = .wait → ∃ r, s.child = .exited r) →
      (∀ status, s.parent ≠ .exited status) → s.parent ≠ .killed →
      ∃ a r, (machine terminal).step s a = some r := fun hwait hexited hkilled => by
    have hstep : ∃ r, parentStep terminal s = some r := exists_parentStep hwait hexited hkilled
    obtain ⟨r, hr⟩ := hstep
    exact ⟨.parent, r, hr⟩
  cases hpc : s.parent with
  -- it waits for the child, which can go on as long as it has not exited
  | wait =>
    rw [hpc] at hforked
    by_cases hexited : ∃ r, s.child = .exited r
    · exact hparent (fun _ => hexited) (by simp [hpc]) (by simp [hpc])
    · exact exists_step_of_closed h.ends (by rw [hpc]; rfl)
        (by simpa [ParentPc.alone] using hforked) (not_exists.mp hexited)
  | exited status =>
    rw [hpc] at hforked
    -- it has exited: with success after `wait`, with failure because there is no child
    obtain rfl | rfl := hcodes.parent status (.inr hpc)
    · by_cases hexited : ∃ r, s.child = .exited r
      · obtain ⟨r, hr⟩ := hexited
        obtain rfl | rfl := hcodes.child r (by rw [hr]; rfl)
        · exact absurd (.inr (.inl ⟨hpc, .inl hr⟩)) hend
        · exact absurd (.inr (.inl ⟨hpc, .inr hr⟩)) hend
      · exact exists_step_of_closed h.ends (by rw [hpc]; rfl)
          (by simpa [ParentPc.alone, EXIT_SUCCESS, EXIT_FAILURE] using hforked)
          (not_exists.mp hexited)
    · exact absurd (.inl ⟨hpc, hforked.mpr (by simp [ParentPc.alone])⟩) hend
  | killed =>
    rw [hpc] at hforked
    by_cases hexited : ∃ r, s.child = .exited r
    · obtain ⟨r, hr⟩ := hexited
      obtain rfl | rfl := hcodes.child r (by rw [hr]; rfl)
      · -- it has not seen the end of the pipe
        have hdone := (hrelay.eof (by rw [hr]; rfl)).2
        rw [hpc] at hdone
        cases hdone
      · exact absurd (.inr (.inr ⟨hpc, hr⟩)) hend
    · exact exists_step_of_closed h.ends (by rw [hpc]; rfl)
        (by simpa [ParentPc.alone] using hforked) (not_exists.mp hexited)
  | _ => exact hparent (by simp [hpc]) (by simp [hpc]) (by simp [hpc])

/-- The child reads the message in two parts, the second one with the rest of the first message. -/
theorem relayed_run_parts : ∃ tr s, (machine true).Run initial tr s ∧ ∃ chunks,
    chunks.flatten = msg1 ++ msg2 ∧ tr.filterMap Event.bytes = passed chunks := by
  have hrun := Machine.Run.of_exec (M := machine true) (s := initial)
    [.parent, .parent, .parent, .parent, .child 0, .child 0, .child 0, .child 0, .child 8, .child 0,
      .child 0, .parent, .child 52, .child 0, .child 0, .parent, .parent, .child 0] rfl
  obtain ⟨chunks, -, -, -, hall⟩ := relayed_run hrun
  exact ⟨_, _, hrun, chunks, hall rfl⟩

/-- The child reads each message at once. -/
theorem file_run_messages : ∃ tr s, (machine false).Run initial tr s ∧ ∃ chunks : List (List Char),
    chunks.flatten = msg1 ++ msg2 ∧ tr.length = chunks.length * 2 + 3 := by
  have hrun := Machine.Run.of_exec (M := machine false) (s := initial)
    [.parent, .parent, .parent, .parent, .child 0, .child 0, .child 0, .child 0, .child 39,
      .child 0, .child 0, .parent, .child 21, .child 0, .child 0, .parent, .parent, .child 0,
      .child 0, .child 0, .child 0, .parent, .parent, .parent] rfl
  obtain ⟨chunks, -, -, hall, htrace⟩ := file_run hrun rfl
  have hlength := congrArg List.length htrace
  refine ⟨_, _, hrun, chunks, hall rfl, hlength.trans ?_⟩
  simp [passed, List.length_flatMap]

end PipeFork
