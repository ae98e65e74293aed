import OsSamples.Lib.Machine

/-!
# `race_fork.c`: two processes that print to one terminal

`main` and `char_at_a_time`.  The two definitions of the assignment and the kind of the standard
output are parameters: without a buffer every character is written at once; otherwise a terminal
gets what is in the buffer at the end of a line, and a file at the end of the process; `fflush`
writes it too.

Left out: the waiting for the next second and after each character, since any time may pass before a
step.
-/

namespace RaceFork

/-- The definitions that are not commented out, and whether the output goes to a terminal. -/
structure Config where
  NO_OUTPUT_BUFFER : Bool
  DO_FLUSH_OUT : Bool
  terminal : Bool

def EXIT_SUCCESS : ℤ := 0

/-- The arguments of `char_at_a_time`. -/
def childStr : List Char := "Output from a child.\n".toList
def parentStr : List Char := "Output from the parent.\n".toList

/-- The processes. -/
inductive Process
  | parent
  | child
  deriving DecidableEq

/-- Where the parent is: before the call, and at its end; `ptr` is what is left of `str`. -/
inductive ParentPc
  | fork
  | putc (ptr : List Char)
  | fflush (ptr : List Char)
  | wait
  | exit (status : ℤ)
  | exited (status : ℤ)
  deriving DecidableEq

/-- Where the child is. -/
inductive ChildPc
  | notForked
  | putc (ptr : List Char)
  | fflush (ptr : List Char)
  | exit
  | exited
  deriving DecidableEq

/-- The processes, and what each has printed and not written out. -/
structure State where
  parent : ParentPc
  child : ChildPc
  stdout : Process → List Char

/-- A `write` to the standard output, or a line on `stderr`. -/
inductive Event
  | write (bytes : List Char)
  | perror (what : String)
  deriving DecidableEq

/-- A process goes on, or `fork` fails. -/
inductive Act
  | parent
  | child
  | forkFails
  deriving DecidableEq

/-- `putc` in process `p`. -/
def putc (cfg : Config) (p : Process) (c : Char) (s : State) : Option Event × State :=
  if cfg.NO_OUTPUT_BUFFER then (some (.write [c]), s)
  else
    let buffer := s.stdout p ++ [c]
    if cfg.terminal && c = '\n' then
      (some (.write buffer), { s with stdout := Function.update s.stdout p [] })
    else (none, { s with stdout := Function.update s.stdout p buffer })

/-- `fflush` in process `p`. -/
def fflush (p : Process) (s : State) : Option Event × State :=
  if s.stdout p = [] then (none, s)
  else (some (.write (s.stdout p)), { s with stdout := Function.update s.stdout p [] })

/-- One step of the parent. -/
def parentStep (cfg : Config) (s : State) : Option (Option Event × State) :=
  match s.parent with
  | .fork => some (none, { s with
      parent := .putc parentStr
      child := .putc childStr
      stdout := Function.update s.stdout .child (s.stdout .parent) })
  | .putc [] => some (none, { s with parent := .wait })
  | .putc (c :: ptr) => some (putc cfg .parent c
      { s with parent := if cfg.DO_FLUSH_OUT then .fflush ptr else .putc ptr })
  | .fflush ptr => some (fflush .parent { s with parent := .putc ptr })
  | .wait =>
    if s.child = .exited then some (none, { s with parent := .exit EXIT_SUCCESS }) else none
  | .exit status => some (fflush .parent { s with parent := .exited status })
  | .exited _ => none

/-- One step of the child. -/
def childStep (cfg : Config) (s : State) : Option (Option Event × State) :=
  match s.child with
  | .putc [] => some (none, { s with child := .exit })
  | .putc (c :: ptr) => some (putc cfg .child c
      { s with child := if cfg.DO_FLUSH_OUT then .fflush ptr else .putc ptr })
  | .fflush ptr => some (fflush .child { s with child := .putc ptr })
  | .exit => some (fflush .child { s with child := .exited })
  | .notForked | .exited => none

/-- One step. -/
def step (cfg : Config) (s : State) (a : Act) : Option (Option Event × State) :=
  match a with
  | .parent => parentStep cfg s
  | .child => childStep cfg s
  | .forkFails =>
    if s.parent = .fork then some (some (.perror "fork error"), { s with parent := .exit 1 })
    else none

/-- The program. -/
def machine (cfg : Config) : Machine State Act Event where
  step := step cfg

/-- The start of `main`. -/
def initial : State := ⟨.fork, .notForked, fun _ => []⟩

end RaceFork
