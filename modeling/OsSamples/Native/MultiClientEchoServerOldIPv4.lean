import Mathlib.Algebra.Group.Int.Defs
import Mathlib.Algebra.Group.Nat.Defs
import OsSamples.Native.MultiClientEchoServer

/-!
# `multi-client-echo-server-oldIPv4.c`: the select loop

The `while` loop of `main` in the old version of the echo server, which looks neither at the size of
a new descriptor nor at errors of `read`.  The constants and the computation of `dtsize` are those
of the newer version.  The environment chooses the results of the calls: any non-empty subset of the
watched set from `select`, an unused descriptor below the limit of the process or an error from
`accept`, at most as many bytes as were asked for from `read` and `write`, or an error.

Left out: the set-up of the listening socket `s`, and `w`, which nobody reads.
-/

namespace MultiClientEchoServerOldIPv4

open MultiClientEchoServer (BUFLEN dtsize)

/-- Where the process is. -/
inductive Pc
  -- at the head of the `while` loop
  | select
  -- before the condition of the `for` loop
  | scan
  | accept
  | read
  -- before `if (0 == r)`
  | test
  | close
  | write
  -- after `return EXIT_FAILURE`
  | failure
  deriving DecidableEq

/-- The variables of `main` that the loop uses, and the kernel's table. -/
structure State where
  rfd : Finset ℕ
  readyRfd : Finset ℕ
  d : ℕ
  r : ℤ
  sockets : Sockets
  pc : Pc

/-- A system call with its result, `none` being an error; of `write` the length as well. -/
inductive Event
  | select (ready : Finset ℕ)
  | accept (cs : Option ℕ)
  | read (d : ℕ) (r : Option ℕ)
  | write (d : ℕ) (len : ℕ) (w : Option ℕ)
  | close (d : ℕ)
  deriving DecidableEq

/-- What the environment chooses. -/
inductive Action
  -- the step has no choice
  | next
  | select (ready : Finset ℕ)
  | accept (cs : ℕ)
  | read (r : ℕ)
  | write (w : ℕ)
  -- the call fails
  | error
  deriving DecidableEq

/-- The next round of the `for` loop. -/
def State.continue (st : State) : State := { st with d := st.d + 1, pc := .scan }

/-- The test of the `for` loop, and the first two tests in it. -/
def State.scan (s dtsize : ℕ) (st : State) : State :=
  if st.d < dtsize then
    if st.d ∉ st.readyRfd then st.continue
    else if st.d = s then { st with pc := .accept }
    else { st with pc := .read }
  else { st with pc := .select }

/-- The third argument of `write`, a `size_t`. -/
def State.len (st : State) : ℕ := (st.r % 2 ^ 64).toNat

/-- The step of the server with the listening socket `s`. -/
def step (s getdtablesize : ℕ) (st : State) (a : Action) : Option (Option Event × State) :=
  let dtsize := dtsize getdtablesize
  match st.pc, a with
  | .select, .select ready =>
    -- `select` looks at the descriptors below `dtsize` only
    if ready ⊆ st.rfd ∧ (∀ d ∈ ready, d < dtsize) ∧ ready ≠ ∅ then
      some (some (.select ready), { st with
        readyRfd := ready, d := 3, sockets := st.sockets.select ready, pc := .scan })
    else none
  | .select, .error => some (none, { st with pc := .failure })
  | .scan, .next => some (none, st.scan s dtsize)
  | .accept, .accept cs =>
    if cs < getdtablesize ∧ cs ≠ s ∧ st.sockets.conn cs = none then
      some (some (.accept (some cs)), State.continue { st with
        sockets := st.sockets.accept cs, rfd := insert cs st.rfd })
    else none
  | .accept, .error => some (some (.accept none), st.continue)
  | .read, .read r =>
    if r ≤ BUFLEN then some (some (.read st.d (some r)), { st with r := r, pc := .test }) else none
  | .read, .error => some (some (.read st.d none), { st with r := -1, pc := .test })
  | .test, .next => some (none, { st with pc := if 0 = st.r then .close else .write })
  | .close, .next =>
    some (some (.close st.d), State.continue { st with
      sockets := st.sockets.close st.d, rfd := st.rfd.erase st.d })
  | .write, .write w =>
    if w ≤ st.len then some (some (.write st.d st.len (some w)), st.continue) else none
  | .write, .error => some (some (.write st.d st.len none), st.continue)
  | _, _ => none

/-- The server. -/
def machine (s getdtablesize : ℕ) : Machine State Action Event where
  step := step s getdtablesize

/-- At the head of the loop for the first time; `r` is not initialised. -/
def initial (s : ℕ) (r : ℤ) : State where
  rfd := {s}
  readyRfd := ∅
  d := 0
  r := r
  sockets := .empty
  pc := .select

end MultiClientEchoServerOldIPv4
