import OsSamples.Native.SuccessiveTraceroute

/-!
# Basic traceroute

`basic_traceroute`: a loop over the TTLs with a loop over the probes of a TTL in it.

Its structures are those of `successive_traceroute` without the fields `probe_result` and
`recv_hostname`, which stay at zero here; the options are the same.
-/

namespace BasicTraceroute

open Traceroute
open SuccessiveTraceroute (Options ProbeInfo TracerouteInfo State closeProbe resultTexts ttlText)

variable {D : Type} [CDouble D]

/-! ## Initialisation -/

/-- `traceroute_init`: 0 if the target is known. -/
def tracerouteInit (opts : Options D) (net : NetEnv) (s : State D) : ℤ × State D :=
  let tr : TracerouteInfo D := ⟨opts.af, .zero opts.af, -1, fun _ => .zero⟩
  let s := { s with tr := tr }
  match net.getaddrinfo with
  | none => (1, s)
  | some res =>
    -- an address that does not fit ends the initialisation, the last address counts
    if res.any fun a => a.family == AF_INET && a.len > SockAddr.len (.inet6 0 0) then (1, s)
    else
      let addr := (res.filter fun a => a.family == AF_INET).getLast?.getD s.tr.destAddr
      (0, { s with tr := { s.tr with destAddr := addr.setPort opts.destPort } })

/-- `traceroute_init_probe`. -/
def tracerouteInitProbe (pn : ℤ) (s : State D) : Except Stop (ℤ × State D) := do
  let _ ← s.probe pn
  return (0, s.setProbe pn.toNat .zero)

/-! ## Sending -/

/-- `traceroute_send`. -/
def tracerouteSend (opts : Options D) (pn : ℕ) (ttl : ℤ) (env : ProbeEnv) (s : State D) :
    Except Stop (ℤ × State D) := do
  let s ← s.update pn fun p => { p with socket := env.socket }
  if env.socket < 0 then
    return (3, s)
  let s := s.emit (.socket env.socket)
  if !env.bind then
    return (4, s)
  if !env.setTtl then
    return (5, s)
  let port := if opts.destPortSeq then opts.destPort + BitVec.ofNat 16 pn
    else s.tr.destAddr.port
  let s ← s.update pn fun p => if opts.destPortSeq then { p with destPort := port } else p
  if !env.connect then
    return (6, s)
  if !env.setRecverr then
    return (5, s)
  let (data, s) := s.alloc ""
  let s ← s.update pn fun p =>
    { p with dataLen := opts.packetLen, data := data, sendTime := getTime env.sendTime }
  if !env.send then
    return (6, s)
  return (0, s.emit (.send pn ⟨ttl, s.tr.destAddr.setPort port, payload opts.packetLen⟩))

/-! ## Receiving -/

/-- `parse_icmp_response`. -/
def parseIcmpResponse (pn : ℕ) (type code : ℕ) (info : ℤ) (s : State D) :
    Except Stop (State D) := do
  if type = ICMP_TIME_EXCEEDED ∧ code = ICMP_EXC_TTL then
    return s
  let s ← match icmpText type code info with
    | none => pure s
    | some str => s.update pn fun p => { p with errStr := truncate ERR_STR_SIZE str }
  return s.withFinalProbe pn

/-- One round of the loop of `parse_cmsg`. -/
def parseOneCmsg (pn : ℕ) (s : State D) : Cmsg → Except Stop (State D)
  | .timestamp tv => s.update pn fun p =>
    { p with
      recvTime := CDouble.ofInt tv.sec + CDouble.ofInt tv.usec / CDouble.ofInt 1000000 }
  | .ttl ttl => s.update pn fun p => { p with recvTtl := ttl }
  | .recverr ee =>
    if ee.origin = SO_EE_ORIGIN_ICMP then do
      let s ← s.update pn fun p => { p with recvAddr := ee.offender }
      parseIcmpResponse pn ee.type.toNat ee.code.toNat ee.info.toInt s
    else .ok s
  | .other => .ok s

/-- `parse_cmsg`; `now` is what `get_time` returns. -/
def parseCmsg (pn : ℕ) (msg : Msg) (now : D) (s : State D) : Except Stop (State D) := do
  let s ← msg.cmsgs.foldlM (parseOneCmsg pn) s
  s.update pn fun p => if CDouble.isZero p.recvTime then { p with recvTime := now } else p

/-- `traceroute_receive`. -/
def tracerouteReceive (opts : Options D) (pn : ℕ) (env : ProbeEnv) (s : State D) :
    Except Stop (ℤ × State D) := do
  let p ← s.probe pn
  match receiveLoop opts.timeout p.sendTime env.attempts with
  | .error rc => return (rc, s)
  | .ok (pollerr, msg) =>
    let s ← parseCmsg pn msg (getTime env.cmsgTime) s
    let s ← if pollerr then pure s else do
      let s ← s.update pn fun p => { p with recvAddr := msg.response }
      pure (s.withFinalProbe pn)
    let p ← s.probe pn
    let s := s.emit (.close p.socket)
    let s ← s.update pn fun p => { p with socket := -1 }
    return (0, s)

/-! ## Printing -/

/-- The state in the loops: `addr2str_buf` is static, `printed` says whether the host of the TTL has
    been printed. -/
structure Local (D : Type) where
  s : State D
  addr2strBuf : String
  printed : Bool

/-- `traceroute_get_host`: the host, and what is in `addr2str_buf` then.  The `*` for a probe
    without an address is overwritten at once, and `getnameinfo` leaves the buffer as it is when it
    fails. -/
def tracerouteGetHost (opts : Options D) (env : ProbeEnv) (p : ProbeInfo D) (addr2strBuf : String) :
    String × String :=
  let ipstr := env.getnameinfo p.recvAddr true
  let str := if ipstr = "" then addr2strBuf else ipstr
  (if opts.noresolve then str else env.getnameinfo p.recvAddr false ++ " (" ++ str ++ ")", str)

/-- What `do_traceroute` prints for an answer. -/
def printAnswer (opts : Options D) (pn : ℕ) (env : ProbeEnv) (l : Local D) :
    Except Stop (Local D) := do
  let p ← l.s.probe pn
  if l.printed then
    return { l with s := l.s.print (resultTexts p) }
  else
    let (host, buf) := tracerouteGetHost opts env p l.addr2strBuf
    return ⟨l.s.print ([" " ++ host] ++ resultTexts p), buf, true⟩

/-! ## The driver -/

/-- How the loops of `do_traceroute` are left other than by `break`. -/
inductive Leave (D : Type)
  | ret (rc : ℤ) (s : State D)
  | stop (e : Stop)

/-- A call in a loop of `do_traceroute`. -/
def call {α : Type} (x : Except Stop α) : Except (Leave D) α := x.mapError .stop

/-- One round of the inner loop of `do_traceroute`. -/
def probeRound (opts : Options D) (net : NetEnv) (ttl : ℤ) (probe : ℕ) (l : Local D) :
    Except (Leave D) (ForInStep (Local D)) := do
  let pn := (ttl - 1) * opts.probes + probe
  let (rc, s) ← call (tracerouteInitProbe pn l.s)
  if rc ≠ 0 then
    throw (.ret 2 s)
  let pn := pn.toNat
  let (rc, s) ← call (tracerouteSend opts pn ttl (net.probe pn) s)
  if rc ≠ 0 then
    let s ← call (closeProbe pn id s)
    throw (.ret 3 s)
  let (rc, s) ← call (tracerouteReceive opts pn (net.probe pn) s)
  if rc = 0 then
    let l ← call (printAnswer opts pn (net.probe pn) { l with s := s })
    return .yield l
  else
    let s ← call (closeProbe pn id s)
    return .yield { l with s := s.print [" *"] }

/-- One round of the outer loop of `do_traceroute`. -/
def ttlRound (opts : Options D) (net : NetEnv) (i : ℕ) (l : Local D) :
    Except (Leave D) (ForInStep (Local D)) := do
  let ttl := opts.firstTtl + i
  let l := { l with s := l.s.print [ttlText ttl], printed := false }
  let l ← forLoop (probeRound opts net ttl) opts.probes.toNat 0 l
  let l := { l with s := l.s.print ["\n"] }
  return if l.s.tr.finalProbe ≥ 0 then .done l else .yield l

/-- The text before the first probe. -/
def headerText (opts : Options D) (target : String) : String :=
  "traceroute to " ++ target ++ ":" ++ toString opts.destPort.toNat ++
    (if opts.destPortSeq then "+" else "") ++
    " (packet size " ++ toString opts.packetLen ++ " bytes):\n"

/-- `do_traceroute`. -/
def doTraceroute (opts : Options D) (target : String) (net : NetEnv) :
    Except Stop (ℤ × State D) :=
  let (rc, s) := tracerouteInit opts net .initial
  if rc ≠ 0 then .ok (1, s)
  else
    let l : Local D := ⟨s.print [headerText opts target], "", false⟩
    match forLoop (ttlRound opts net) (opts.maxTtl - opts.firstTtl + 1).toNat 0 l with
    | .ok l => .ok (0, l.s)
    | .error (.ret rc s) => .ok (rc, s)
    | .error (.stop e) => .error e

end BasicTraceroute
