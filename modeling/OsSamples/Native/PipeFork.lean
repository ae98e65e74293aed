import OsSamples.Lib.Machine
import OsSamples.Lib.Pipe

/-!
# `pipe.c`: a child that reads from its parent

`main`, `parent` and `child`.  What `printf` prints goes to the buffer of the process, which is
written out at once on a terminal, and otherwise by `fflush` and at the end of the process; `fork`
copies it.  A read takes as many bytes as it likes of those that are in the pipe, and may fail; a
write to a pipe that nobody reads from ends the process.

Left out: a failure of `pipe`, which the program does not notice, and of `write` and `close`; and
`sleep`, since any time may pass before a step.
-/

namespace PipeFork

/-- The size of the buffer of `child`. -/
def PIPE_BUF : ℕ := 256

def EXIT_SUCCESS : ℤ := 0
def EXIT_FAILURE : ℤ := 1

/-- The variables `msg1` and `msg2` of `parent`. -/
def msg1 : List Char := "to pipe: Your name is Louie, my child.\n".toList
def msg2 : List Char := "to pipe: Now return.\n".toList

/-- What `child` writes before each part of the message. -/
def blanks : List Char := "  ".toList

/-- The processes. -/
inductive Process
  | parent
  | child
  deriving DecidableEq

/-- Where the parent is: before the call, and at its end. -/
inductive ParentPc
  | forking
  | fork
  | closeRead
  | write1
  | write2
  | closing
  | closeWrite
  | wait
  | terminated
  | exit (status : ℤ)
  | exited (status : ℤ)
  -- ended by `SIGPIPE`
  | killed
  deriving DecidableEq

/-- Where the child is: before the call, and at its end; `buf` is what it has read and not written
    yet, and `r` the result of the last `read`. -/
inductive ChildPc
  | notForked
  | closeWrite
  | hello
  | reading
  | fflush
  | read
  | blanks (buf : List Char)
  | message (buf : List Char)
  | closeRead (r : ℤ)
  | closed (r : ℤ)
  | exit (r : ℤ)
  | exited (r : ℤ)
  deriving DecidableEq

/-- The processes, the pipe, and what each process has printed and not written out. -/
structure State where
  parent : ParentPc
  child : ChildPc
  pipe : Pipe Process Char
  stdout : Process → List String

/-- A `write` to the standard output: of a buffer of `stdout`, or by `child` itself; or a line on
    `stderr`. -/
inductive Event
  | stdout (texts : List String)
  | write (bytes : List Char)
  | perror (what : String)
  deriving DecidableEq

/-- A process goes on, where a `read` takes `count` bytes; or a call fails. -/
inductive Act
  | parent
  | child (count : ℕ)
  | forkFails
  | readFails
  deriving DecidableEq

/-- `printf` in process `p`. -/
def printf (terminal : Bool) (p : Process) (text : String) (s : State) : Option Event × State :=
  let buffer := s.stdout p ++ [text]
  if terminal then
    (some (.stdout buffer), { s with stdout := Function.update s.stdout p [] })
  else (none, { s with stdout := Function.update s.stdout p buffer })

/-- `fflush(stdout)` in process `p`. -/
def fflush (p : Process) (s : State) : Option Event × State :=
  if s.stdout p = [] then (none, s)
  else (some (.stdout (s.stdout p)), { s with stdout := Function.update s.stdout p [] })

/-- `write` to the pipe in `parent`, which goes on at `next`. -/
def writePipe (bytes : List Char) (next : ParentPc) (s : State) : Option Event × State :=
  match s.pipe.write bytes with
  | some pipe => (none, { s with parent := next, pipe := pipe })
  | none =>
    (none, { s with
      parent := .killed
      pipe := (s.pipe.closeRead .parent).closeWrite .parent })

/-- One step of the parent. -/
def parentStep (terminal : Bool) (s : State) : Option (Option Event × State) :=
  match s.parent with
  | .forking =>
    some (printf terminal .parent "parent: Forking a child.\n" { s with parent := .fork })
  | .fork => some (none, { s with
      parent := .closeRead
      child := .closeWrite
      pipe := s.pipe.fork .parent .child
      stdout := Function.update s.stdout .child (s.stdout .parent) })
  | .closeRead => some (none, { s with parent := .write1, pipe := s.pipe.closeRead .parent })
  | .write1 => some (writePipe msg1 .write2 s)
  | .write2 => some (writePipe msg2 .closing s)
  | .closing =>
    some (printf terminal .parent "parent: Closing the pipe.\n" { s with parent := .closeWrite })
  | .closeWrite => some (none, { s with parent := .wait, pipe := s.pipe.closeWrite .parent })
  | .wait =>
    match s.child with
    | .exited _ => some (none, { s with parent := .terminated })
    | _ => none
  | .terminated =>
    some (printf terminal .parent "parent: The child process terminated.\n"
      { s with parent := .exit EXIT_SUCCESS })
  | .exit status => some (fflush .parent { s with parent := .exited status })
  | .exited _ | .killed => none

/-- One step of the child. -/
def childStep (terminal : Bool) (count : ℕ) (s : State) : Option (Option Event × State) :=
  match s.child with
  | .closeWrite => some (none, { s with child := .hello, pipe := s.pipe.closeWrite .child })
  | .hello =>
    some (printf terminal .child "child: This is a child!\n" { s with child := .reading })
  | .reading =>
    some (printf terminal .child
      "child: Reading message from my parent.\nchild: From pipe:\n" { s with child := .fflush })
  | .fflush => some (fflush .child { s with child := .read })
  | .read => (s.pipe.read PIPE_BUF count).map fun r =>
    (none, { s with
      child := if r.1.isEmpty then .closeRead 0 else .blanks r.1
      pipe := r.2 })
  | .blanks buf => some (some (.write blanks), { s with child := .message buf })
  | .message buf => some (some (.write buf), { s with child := .read })
  | .closeRead r => some (none, { s with child := .closed r, pipe := s.pipe.closeRead .child })
  | .closed r =>
    some (printf terminal .child "child: My parent closed the pipe, exiting.\n"
      { s with child := .exit r })
  | .exit r => some (fflush .child { s with child := .exited r })
  | .notForked | .exited _ => none

/-- One step. -/
def step (terminal : Bool) (s : State) (a : Act) : Option (Option Event × State) :=
  match a with
  | .parent => parentStep terminal s
  | .child count => childStep terminal count s
  | .forkFails =>
    if s.parent = .fork then
      some (some (.perror "fork(2) call failed"), { s with parent := .exit EXIT_FAILURE })
    else none
  | .readFails =>
    if s.child = .read then some (none, { s with child := .closeRead (-1) }) else none

/-- The program; `terminal` tells whether the standard output is a terminal. -/
def machine (terminal : Bool) : Machine State Act Event where
  step := step terminal

/-- The pipe has been made. -/
def initial : State := ⟨.forking, .notForked, .make .parent, fun _ => []⟩

end PipeFork
