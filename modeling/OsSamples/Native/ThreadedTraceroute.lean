import OsSamples.Lib.Threads
import OsSamples.Native.SuccessiveTraceroute

/-!
# Threaded traceroute

`traceroute_receive` of `threaded_traceroute_partial_mq_sem`, with `parse_cmsg` and
`parse_icmp_response`, called by several threads at a time.  There is no function for setting the
final probe: `if (tr.final_probe < 0 || pn < tr.final_probe) tr.final_probe = pn` stands in two
places.  Each read and each write of `tr.final_probe` is a step; what a thread does to its own
probe is one step from one of these to the next, or from one control message to the next.

How the threads get their probes has been left out of the source (`zbytek doplnit`).  Here each has
a list of them.
-/

namespace ThreadedTraceroute

open Traceroute
open SuccessiveTraceroute (Options ProbeInfo TracerouteInfo)

/-- The steps of `if (tr.final_probe < 0 || pn < tr.final_probe) tr.final_probe = pn`. -/
inductive Check
  | readNegative
  | readLess
  | write
  deriving DecidableEq

/-- Where a thread is in `traceroute_receive`: at the loop with `poll`, in `parse_cmsg` before some
    of the control messages, behind `parse_cmsg`, or at `close`. -/
inductive Loc
  | receive
  | parseCmsg (pollerr : Bool) (msg : Msg) (cmsgs : List Cmsg)
  | answer (pollerr : Bool) (msg : Msg)
  | close

/-- How a call goes on: with an update, if any, and the place behind it, or back to the caller. -/
inductive Next
  | go (check : Option Check) (loc : Loc)
  | ret (rc : ℤ)

/-- A call of `traceroute_receive(pn)`: the update of the final probe that it is in, if any, and
    where it goes on. -/
structure Call where
  pn : ℕ
  check : Option Check
  loc : Loc

/-- A thread: the probes that it has still to receive, the call it is in, and the results of the
    calls before. -/
structure Thread where
  todo : List ℕ
  call : Option Call
  returned : List (ℕ × ℤ)

variable {D : Type}

/-- Assignments to fields of `tr.probes[pn]`. -/
def updateProbe (pn : ℕ) (f : ProbeInfo D → ProbeInfo D) (tr : TracerouteInfo D) :
    TracerouteInfo D :=
  { tr with probes := fun m => if m = pn then f (tr.probes m) else tr.probes m }

/-- One step of the update of the final probe, and the next one. -/
def checkStep (pn : ℕ) (tr : TracerouteInfo D) : Check → TracerouteInfo D × Option Check
  -- `tr.final_probe < 0 || pn < tr.final_probe`, read twice
  | .readNegative => (tr, some (if tr.finalProbe < 0 then .write else .readLess))
  | .readLess => (tr, if pn < tr.finalProbe then some .write else none)
  | .write => ({ tr with finalProbe := pn }, none)

/-- `parse_icmp_response` up to the update of the final probe, if it comes to that. -/
def parseIcmpResponse (pn type code : ℕ) (info : ℤ) (tr : TracerouteInfo D) :
    TracerouteInfo D × Option Check :=
  if type = ICMP_TIME_EXCEEDED ∧ code = ICMP_EXC_TTL then (tr, none)
  else match icmpText type code info with
    -- a code without a text leaves `err_str` as it is
    | none => (tr, some .readNegative)
    | some str =>
      (updateProbe pn (fun p => { p with errStr := truncate ERR_STR_SIZE str }) tr,
        some .readNegative)

variable [CDouble D]

/-- One round of the loop of `parse_cmsg`, up to the update of the final probe. -/
def parseOneCmsg (pn : ℕ) (tr : TracerouteInfo D) : Cmsg → TracerouteInfo D × Option Check
  | .timestamp tv =>
    (updateProbe pn (fun p => { p with
      recvTime := CDouble.ofInt tv.sec + CDouble.ofInt tv.usec / CDouble.ofInt 1000000 }) tr, none)
  | .ttl ttl => (updateProbe pn (fun p => { p with recvTtl := ttl }) tr, none)
  | .recverr ee =>
    if ee.origin = SO_EE_ORIGIN_ICMP then
      parseIcmpResponse pn ee.type.toNat ee.code.toNat ee.info.toInt
        (updateProbe pn (fun p => { p with recvAddr := ee.offender }) tr)
    else (tr, none)
  | .other => (tr, none)

/-- One step of `traceroute_receive` outside of the updates, and what has been closed. -/
def locStep (opts : Options D) (env : ProbeEnv) (pn : ℕ) (tr : TracerouteInfo D) :
    Loc → Option Event × TracerouteInfo D × Next
  -- the loop with `poll` and `recvmsg` uses no shared variable but the time of sending
  | .receive =>
    match receiveLoop opts.timeout (tr.probes pn).sendTime env.attempts with
    | .error rc => (none, tr, .ret rc)
    | .ok (pollerr, msg) => (none, tr, .go none (.parseCmsg pollerr msg msg.cmsgs))
  | .parseCmsg pollerr msg (c :: cmsgs) =>
    let r := parseOneCmsg pn tr c
    (none, r.1, .go r.2 (.parseCmsg pollerr msg cmsgs))
  | .parseCmsg pollerr msg [] =>
    (none, updateProbe pn (fun p =>
      if CDouble.isZero p.recvTime then { p with recvTime := getTime env.cmsgTime } else p) tr,
      .go none (.answer pollerr msg))
  -- an answer of the target itself is a datagram, without an error on the socket
  | .answer pollerr msg =>
    if pollerr then (none, tr, .go none .close)
    else (none, updateProbe pn (fun p => { p with recvAddr := msg.response }) tr,
      .go (some .readNegative) .close)
  | .close =>
    (some (.close (tr.probes pn).socket), updateProbe pn (fun p => { p with socket := -1 }) tr,
      .ret 0)

/-- The thread with its call going on. -/
def Thread.next (l : Thread) (pn : ℕ) : Next → Thread
  | .go check loc => { l with call := some ⟨pn, check, loc⟩ }
  | .ret rc => { l with call := none, returned := l.returned ++ [(pn, rc)] }

/-- One step of a thread. -/
def step {T : Type} (opts : Options D) (net : NetEnv) (_ : T) (_ : Unit) (tr : TracerouteInfo D)
    (l : Thread) : Option (Option Event × TracerouteInfo D × Thread) :=
  match l.call with
  | none =>
    match l.todo with
    | [] => none
    | pn :: todo => some (none, tr, { l with todo := todo, call := some ⟨pn, none, .receive⟩ })
  | some ⟨pn, some check, loc⟩ =>
    let r := checkStep pn tr check
    some (none, r.1, l.next pn (.go r.2 loc))
  | some ⟨pn, none, loc⟩ =>
    let r := locStep opts (net.probe pn) pn tr loc
    some (r.1, r.2.1, l.next pn r.2.2)

variable {T : Type} [DecidableEq T]

/-- The threads together. -/
def machine (T : Type) [DecidableEq T] (opts : Options D) (net : NetEnv) :
    Machine (Config T (TracerouteInfo D) Thread) (T × Unit) Event :=
  Threads.machine (step opts net)

/-- No probe is final; `traceroute_send` has written the sockets and the times of sending. -/
def initial (opts : Options D) (net : NetEnv) (tasks : T → List ℕ) :
    Config T (TracerouteInfo D) Thread where
  shared := ⟨opts.af, .zero opts.af, -1, fun pn =>
    { ProbeInfo.zero with
      socket := (net.probe pn).socket, sendTime := getTime (net.probe pn).sendTime }⟩
  loc := fun i => ⟨tasks i, none, []⟩

/-- A thread has received all its probes. -/
def Thread.Finished (l : Thread) : Prop := l.todo = [] ∧ l.call = none

end ThreadedTraceroute
