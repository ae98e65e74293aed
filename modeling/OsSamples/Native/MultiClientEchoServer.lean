import OsSamples.Lib.Machine
import OsSamples.Lib.Sockets

/-!
# `multi-client-echo-server.c`: the select loop

The `while` loop of `main`, one step for each system call and one for each test of the `for` loop.
The environment chooses the results of the calls: any non-empty subset of the watched set from
`select`, an unused descriptor from 3 on or an error from `accept`, at most as many bytes as were
asked for from `recv` and `send`, or an error.

The event of a step is the system call with its result; a call on a client's descriptor names the
connection that the descriptor is open on.

Left out: the set-up of the listening socket `s`, which comes before the loop, and the texts on
`stderr`.
-/

namespace MultiClientEchoServer

/-- The number of descriptors that a `fd_set` holds. -/
def FD_SETSIZE : ℕ := 1024

def BUFLEN : ℕ := 1024

/-- `dtsize`: the size of the descriptor table, as far as it fits in a `fd_set`. -/
def dtsize (getdtablesize : ℕ) : ℕ :=
  if getdtablesize > FD_SETSIZE then FD_SETSIZE else getdtablesize

/-- Where the process is. -/
inductive Pc
  -- at the head of the `while` loop
  | select
  -- before the condition of the `for` loop
  | scan
  | accept
  -- before `close(cs)` of a descriptor that does not fit in a `fd_set`
  | tooLarge (cs : ℕ)
  | recv
  | send
  | close
  -- after `return EXIT_FAILURE`
  | failure
  deriving DecidableEq

/-- The variables of `main` that the loop uses, and the kernel's table. -/
structure State where
  rfd : Finset ℕ
  readyRfd : Finset ℕ
  d : ℕ
  dsize : ℕ
  buf : List UInt8
  r : ℤ
  sockets : Sockets
  pc : Pc

/-- A system call with its result, `none` being an error; `c` is the connection. -/
inductive Event
  | select (ready : Finset ℕ)
  | accept (cs : Option ℕ)
  | recv (d : ℕ) (c : Option ℕ) (bytes : Option (List UInt8))
  | send (d : ℕ) (c : Option ℕ) (bytes : List UInt8) (w : Option ℕ)
  | close (d : ℕ) (c : Option ℕ)
  deriving DecidableEq

/-- What the environment chooses. -/
inductive Action
  -- the step has no choice
  | next
  | select (ready : Finset ℕ)
  | accept (cs : ℕ)
  | recv (bytes : List UInt8)
  | send (w : ℕ)
  -- the call fails
  | error
  deriving DecidableEq

/-- The `continue` of the `for` loop. -/
def State.continue (st : State) : State := { st with d := st.d + 1, pc := .scan }

/-- The test of the `for` loop, and the first two tests in it. -/
def State.scan (s : ℕ) (st : State) : State :=
  if st.d < st.dsize then
    if st.d ∉ st.readyRfd then st.continue
    else if st.d = s then { st with pc := .accept }
    else { st with pc := .recv }
  else { st with pc := .select }

/-- `select` finds the descriptors `ready`. -/
def State.selected (ready : Finset ℕ) (st : State) : State :=
  { st with readyRfd := ready, d := 3, sockets := st.sockets.select ready, pc := .scan }

/-- `accept` returns `cs`. -/
def State.accepted (dtsize cs : ℕ) (st : State) : State :=
  let st := { st with sockets := st.sockets.accept cs }
  if cs ≥ dtsize then { st with pc := .tooLarge cs }
  else State.continue { st with
    rfd := insert cs st.rfd
    dsize := if cs ≥ st.dsize then cs + 1 else st.dsize }

/-- `recv` returns `bytes`, which it has put at the beginning of `buf`. -/
def State.received (bytes : List UInt8) (st : State) : State :=
  { st with
    buf := bytes ++ st.buf.drop bytes.length
    r := bytes.length
    pc := if (bytes.length : ℤ) > 0 then .send else .close }

/-- `close(d)` and `FD_CLR(d, &rfd)`. -/
def State.closed (st : State) : State :=
  State.continue { st with sockets := st.sockets.close st.d, rfd := st.rfd.erase st.d }

/-- The step of the server with the listening socket `s`. -/
def step (s dtsize : ℕ) (st : State) (a : Action) : Option (Option Event × State) :=
  let c := st.sockets.conn st.d
  match st.pc, a with
  | .select, .select ready =>
    if ready ⊆ st.rfd ∧ ready ≠ ∅ then some (some (.select ready), st.selected ready) else none
  | .select, .error => some (none, { st with pc := .failure })
  | .scan, .next => some (none, st.scan s)
  | .accept, .accept cs =>
    if 3 ≤ cs ∧ cs ≠ s ∧ st.sockets.conn cs = none then
      some (some (.accept (some cs)), st.accepted dtsize cs)
    else none
  | .accept, .error => some (some (.accept none), st.continue)
  | .tooLarge cs, .next => some (some (.close cs (st.sockets.conn cs)),
      State.continue { st with sockets := st.sockets.close cs })
  | .recv, .recv bytes =>
    if bytes.length ≤ BUFLEN then some (some (.recv st.d c (some bytes)), st.received bytes)
    else none
  | .recv, .error => some (some (.recv st.d c none), { st with r := -1, pc := .close })
  | .send, .send w =>
    if (w : ℤ) ≤ st.r then
      some (some (.send st.d c (st.buf.take st.r.toNat) (some w)), st.continue)
    else none
  | .send, .error => some (some (.send st.d c (st.buf.take st.r.toNat) none), st.continue)
  | .close, .next => some (some (.close st.d c), st.closed)
  | _, _ => none

/-- The server. -/
def machine (s getdtablesize : ℕ) : Machine State Action Event where
  step := step s (dtsize getdtablesize)

/-- At the head of the loop for the first time. -/
def initial (s : ℕ) : State where
  rfd := {s}
  readyRfd := ∅
  d := 0
  dsize := s + 1
  buf := []
  r := 0
  sockets := .empty
  pc := .select

end MultiClientEchoServer
