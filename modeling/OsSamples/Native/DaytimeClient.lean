import OsSamples.Lib.CInt
import OsSamples.Lib.CString
import OsSamples.Lib.Machine

/-!
# `daytime-client.c`: reading the answer

The loop in `main` that reads from the connected socket, and what comes after it.  The server's
stream is a list of bytes; the environment chooses how many of them a `read` brings, which is at
least one byte unless nothing is requested or the stream has ended, or lets it fail.

Left out: the address resolution and the connection, which come before, and the texts on `stderr`.
-/

namespace DaytimeClient

open CInt

def BUFLEN : ℕ := 1024

def EXIT_SUCCESS : ℤ := 0
def EXIT_FAILURE : ℤ := 1

/-- Where `main` is. -/
inductive Loc
  | read
  | close
  -- before `if (rc < 0)`
  | testRc
  -- before `*pc = '\0'`
  | terminate
  | printf
  | returned (code : ℤ)
  -- after an access outside of `buf`
  | undefined
  deriving DecidableEq

/-- The variables of `main`, and the bytes that the server still sends. -/
structure State where
  incoming : List UInt8
  buf : CharArray (BUFLEN + 1)
  /-- `pc - buf`. -/
  pc : ℕ
  rc : ℤ
  loc : Loc
  deriving DecidableEq

/-- A call with its result: `read` at `pc - buf` of at most `len` bytes, `none` being an error. -/
inductive Event
  | read (pc len : ℕ) (r : Option ℕ)
  | close
  | printf (text : List UInt8)
  deriving DecidableEq

/-- What the environment chooses. -/
inductive Action
  -- the step has no choice
  | next
  | read (r : ℕ)
  -- `read` fails
  | error
  deriving DecidableEq

/-- `BUFLEN - (pc - buf)` as the `size_t` that `read` takes. -/
def State.len (s : State) : ℕ := ((BUFLEN - s.pc : ℤ) % 2 ^ 64).toNat

/-- `read` returns `r`, and the condition of the loop is tested. -/
def State.afterRead (s : State) (r : ℕ) : State :=
  match s.buf.write s.pc (s.incoming.take r) with
  | none => { s with loc := .undefined }
  | some buf =>
    let rc := toInt32 r
    if rc > 0 then
      { s with incoming := s.incoming.drop r, buf := buf, rc := rc, pc := s.pc + rc.toNat }
    else { s with incoming := s.incoming.drop r, buf := buf, rc := rc, loc := .close }

/-- One step of `main`. -/
def step (s : State) (a : Action) : Option (Option Event × State) :=
  match s.loc, a with
  | .read, .read r =>
    if r ≤ s.len ∧ r ≤ s.incoming.length ∧ (r = 0 → s.len = 0 ∨ s.incoming = []) then
      some (some (.read s.pc s.len (some r)), s.afterRead r)
    else none
  | .read, .error => some (some (.read s.pc s.len none), { s with rc := -1, loc := .close })
  | .close, .next => some (some .close, { s with loc := .testRc })
  | .testRc, .next =>
    some (none, { s with loc := if s.rc < 0 then .returned EXIT_FAILURE else .terminate })
  | .terminate, .next =>
    match s.buf.write s.pc [0] with
    | none => some (none, { s with loc := .undefined })
    | some buf => some (none, { s with buf := buf, loc := .printf })
  | .printf, .next =>
    match s.buf.text with
    | none => some (none, { s with loc := .undefined })
    | some text => some (some (.printf text), { s with loc := .returned EXIT_SUCCESS })
  | _, _ => none

def machine : Machine State Action Event where
  step := step

/-- After `pc = buf`; the array and `rc` are not initialised. -/
def initial (stream : List UInt8) (buf : CharArray (BUFLEN + 1)) (rc : ℤ) : State :=
  ⟨stream, buf, 0, rc, .read⟩

end DaytimeClient
