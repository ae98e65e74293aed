import Mathlib.Tactic.NormNum
import OsSamples.Lib.CInt
import OsSamples.Lib.Loop
import OsSamples.Native.TracerouteNet

/-!
# Successive traceroute

`successive_traceroute`: one probe after the other, each with its own socket.  Compiled as its
`Makefile` does, that is with the static array `probes[MAX_TTL*MAX_PROBES]` and without
`RESOLVE_TARGET_DOMAINNAME`.

Probe numbers are natural numbers; the options are integers as they come, and `max_ttl * probes`
is their exact product, as in C where that is defined.  Every access to `tr.probes` is checked
against the size of the array.
-/

namespace SuccessiveTraceroute

open Traceroute

/-- `struct options`. -/
structure Options (D : Type) where
  af : ℕ
  probes : ℤ
  firstTtl : ℤ
  maxTtl : ℤ
  noresolve : Bool
  destPortSeq : Bool
  destPort : BitVec 16
  timeout : D
  packetLen : ℕ

/-- `probe_result`. -/
inductive ProbeResult
  | unknown
  | ok
  | errInit
  | errSend
  | errRecv
  | errTimeout
  deriving DecidableEq

/-- `struct probe_info`. -/
structure ProbeInfo (D : Type) where
  probeResult : ProbeResult
  destPort : BitVec 16
  recvAddr : SockAddr
  recvHostname : Ptr
  recvTtl : ℤ
  socket : ℤ
  sendTime : D
  recvTime : D
  data : Ptr
  dataLen : ℕ
  errStr : String

/-- `struct traceroute_info`. -/
structure TracerouteInfo (D : Type) where
  af : ℕ
  destAddr : SockAddr
  finalProbe : ℤ
  probes : ℕ → ProbeInfo D

/-- The state of the program: `tr`, the strings on the heap with the next free block, what has been
    printed (one text a `printf`), and what has happened. -/
structure State (D : Type) where
  tr : TracerouteInfo D
  heap : ℕ → String
  next : ℕ
  out : List String
  log : List Event

variable {D : Type} [CDouble D]

/-- A probe of zeros. -/
def ProbeInfo.zero : ProbeInfo D where
  probeResult := .unknown
  destPort := 0
  recvAddr := .unspec
  recvHostname := .null
  recvTtl := 0
  socket := 0
  sendTime := CDouble.ofInt 0
  recvTime := CDouble.ofInt 0
  data := .null
  dataLen := 0
  errStr := ""

namespace State

/-- The static initial state. -/
def initial : State D where
  tr := ⟨0, .unspec, 0, fun _ => .zero⟩
  heap := fun _ => ""
  next := 0
  out := []
  log := []

omit [CDouble D]

/-- `tr.probes[i]`. -/
def probe (s : State D) (i : ℤ) : Except Stop (ProbeInfo D) :=
  if 0 ≤ i ∧ i < MAX_TTL * MAX_PROBES then .ok (s.tr.probes i.toNat) else .error (.outOfBounds i)

/-- Writing the probe `pn`. -/
def setProbe (s : State D) (pn : ℕ) (p : ProbeInfo D) : State D :=
  { s with tr := { s.tr with probes := fun m => if m = pn then p else s.tr.probes m } }

/-- Assignments to fields of `tr.probes[pn]`. -/
def update (s : State D) (pn : ℕ) (f : ProbeInfo D → ProbeInfo D) : Except Stop (State D) := do
  let p ← s.probe pn
  return s.setProbe pn (f p)

theorem probe_ok {s : State D} {pn : ℕ} (h : pn < MAX_TTL * MAX_PROBES) :
    s.probe pn = .ok (s.tr.probes pn) := by
  have h' : (pn : ℤ) < MAX_TTL * MAX_PROBES := by exact_mod_cast h
  simp [probe, h']

theorem update_ok {s : State D} {pn : ℕ} (h : pn < MAX_TTL * MAX_PROBES)
    (f : ProbeInfo D → ProbeInfo D) :
    s.update pn f = .ok (s.setProbe pn (f (s.tr.probes pn))) := by
  simp only [update, probe_ok h]
  rfl

@[simp] theorem setProbe_probes_self (s : State D) (pn : ℕ) (p : ProbeInfo D) :
    (s.setProbe pn p).tr.probes pn = p := if_pos rfl

theorem setProbe_probes_of_ne (s : State D) {pn m : ℕ} (hm : m ≠ pn) (p : ProbeInfo D) :
    (s.setProbe pn p).tr.probes m = s.tr.probes m := if_neg hm

/-- `tr.final_probe = pn`. -/
def withFinalProbe (s : State D) (pn : ℤ) : State D :=
  { s with tr := { s.tr with finalProbe := pn } }

/-- `printf`. -/
def print (s : State D) (texts : List String) : State D := { s with out := s.out ++ texts }

def emit (s : State D) (e : Event) : State D := { s with log := s.log ++ [e] }

/-- A new block (`strdup`, `calloc`); of its contents only strings are kept. -/
def alloc (s : State D) (str : String) : Ptr × State D :=
  (.block s.next,
    { s.emit (.alloc s.next) with
      heap := fun id => if id = s.next then str else s.heap id, next := s.next + 1 })

/-- The string that a pointer points to. -/
def deref (s : State D) : Ptr → Except Stop String
  | .null => .error .nullDeref
  | .hostUnknown => .ok "*"
  | .hostUnknownBadAF => .ok "*(bad AF)"
  | .block id => .ok (s.heap id)

end State

/-! ## Initialisation -/

/-- One round of the loop of `traceroute_init`. -/
def initRound (pn : ℕ) (s : State D) : Except Stop (ForInStep (State D)) := do
  return .yield (← s.update pn fun p => { p with socket := -1 })

/-- `traceroute_init`: 0 if the target is known. -/
def tracerouteInit (opts : Options D) (net : NetEnv) (s : State D) :
    Except Stop (ℤ × State D) := do
  let tr : TracerouteInfo D := ⟨opts.af, .zero opts.af, -1, fun _ => .zero⟩
  let s := { s with tr := tr }
  match net.getaddrinfo with
  | none => return (1, s)
  | some res =>
    -- an address that does not fit ends the initialisation, the last address counts
    if res.any fun a => a.family == AF_INET && a.len > SockAddr.len (.inet6 0 0) then
      return (1, s)
    let addr := (res.filter fun a => a.family == AF_INET).getLast?.getD s.tr.destAddr
    let s := { s with tr := { s.tr with destAddr := addr.setPort opts.destPort } }
    let s ← forLoop initRound (opts.maxTtl * opts.probes).toNat 0 s
    return (0, s)

/-- `traceroute_init_probe`. -/
def tracerouteInitProbe (_pn : ℕ) : ℤ := 0

/-- `traceroute_probe2ttl`. -/
def tracerouteProbe2ttl (opts : Options D) (pn : ℕ) : ℤ := 1 + (pn : ℤ).tdiv opts.probes

/-! ## Sending -/

/-- `traceroute_send`. -/
def tracerouteSend (opts : Options D) (pn : ℕ) (env : ProbeEnv) (s : State D) :
    Except Stop (ℤ × State D) := do
  let s ← s.update pn fun p => { p with socket := env.socket }
  if env.socket < 0 then
    return (3, s)
  let s := s.emit (.socket env.socket)
  if !env.bind then
    return (4, s)
  let ttl := tracerouteProbe2ttl opts pn
  if !env.setTtl then
    return (5, s)
  let port := if opts.destPortSeq then opts.destPort + BitVec.ofNat 16 pn
    else s.tr.destAddr.port
  let s ← s.update pn fun p => if opts.destPortSeq then { p with destPort := port } else p
  if !env.connect then
    return (6, s)
  if !env.setRecverr then
    return (5, s)
  let (data, s) := s.alloc ""
  let s ← s.update pn fun p =>
    { p with dataLen := opts.packetLen, data := data, sendTime := getTime env.sendTime }
  if !env.send then
    return (6, s)
  return (0, s.emit (.send pn ⟨ttl, s.tr.destAddr.setPort port, payload opts.packetLen⟩))

/-! ## Receiving -/

/-- `set_final_probe`: the smallest probe that was final. -/
def setFinalProbe (pn : ℕ) (s : State D) : State D :=
  if s.tr.finalProbe < 0 ∨ pn < s.tr.finalProbe then s.withFinalProbe pn else s

/-- `parse_icmp_response`. -/
def parseIcmpResponse (pn : ℕ) (type code : ℕ) (info : ℤ) (s : State D) :
    Except Stop (State D) := do
  if type = ICMP_TIME_EXCEEDED ∧ code = ICMP_EXC_TTL then
    return s
  let s ← match icmpText type code info with
    | none => pure s
    | some str => s.update pn fun p => { p with errStr := truncate ERR_STR_SIZE str }
  return setFinalProbe pn s

/-- One round of the loop of `parse_cmsg`. -/
def parseOneCmsg (pn : ℕ) (s : State D) : Cmsg → Except Stop (State D)
  | .timestamp tv => s.update pn fun p =>
    { p with
      recvTime := CDouble.ofInt tv.sec + CDouble.ofInt tv.usec / CDouble.ofInt 1000000 }
  | .ttl ttl => s.update pn fun p => { p with recvTtl := ttl }
  | .recverr ee =>
    if ee.origin = SO_EE_ORIGIN_ICMP then do
      let s ← s.update pn fun p => { p with recvAddr := ee.offender }
      parseIcmpResponse pn ee.type.toNat ee.code.toNat ee.info.toInt s
    else .ok s
  | .other => .ok s

/-- `parse_cmsg`; `now` is what `get_time` returns. -/
def parseCmsg (pn : ℕ) (msg : Msg) (now : D) (s : State D) : Except Stop (State D) := do
  let s ← msg.cmsgs.foldlM (parseOneCmsg pn) s
  s.update pn fun p => if CDouble.isZero p.recvTime then { p with recvTime := now } else p

/-- `traceroute_receive`. -/
def tracerouteReceive (opts : Options D) (pn : ℕ) (env : ProbeEnv) (s : State D) :
    Except Stop (ℤ × State D) := do
  let p ← s.probe pn
  match receiveLoop opts.timeout p.sendTime env.attempts with
  | .error rc => return (rc, s)
  | .ok (pollerr, msg) =>
    let s ← parseCmsg pn msg (getTime env.cmsgTime) s
    let s ← if pollerr then pure s else do
      let s ← s.update pn fun p => { p with recvAddr := msg.response }
      pure (setFinalProbe pn s)
    let p ← s.probe pn
    let s := s.emit (.close p.socket)
    let s ← s.update pn fun p => { p with socket := -1 }
    return (0, s)

/-! ## Host names -/

def A2S_NORESOLVE : ℕ := 0
def A2S_RESOLVE_HIP : ℕ := 1
def A2S_RESOLVE_H : ℕ := 2

/-- `addr2str`; the `realloc` for the name with the address keeps the block. -/
def addr2str (getnameinfo : SockAddr → Bool → String) (sa : SockAddr) (how : ℕ) (s : State D) :
    Ptr × State D :=
  if sa.family = AF_UNSPEC then (.hostUnknownBadAF, s)
  else
    let ipstr := getnameinfo sa true
    if how = A2S_NORESOLVE then s.alloc ipstr
    else
      let nameip := getnameinfo sa false
      if how = A2S_RESOLVE_H then s.alloc nameip
      else if ipstr ≠ nameip then s.alloc (nameip ++ " (" ++ ipstr ++ ")")
      else s.alloc nameip

/-- Whether a probe is the first one of its TTL. -/
def firstOfTtl (opts : Options D) (pn : ℕ) : Bool := (pn : ℤ).tmod opts.probes == 0

/-- Whether a probe is the last one of its TTL. -/
def lastOfTtl (opts : Options D) (pn : ℕ) : Bool := (pn : ℤ).tmod opts.probes == opts.probes - 1

/-- The condition of `do_one_probe` for resolving the address of a probe. -/
def mustResolve (opts : Options D) (pn : ℕ) (s : State D) : Except Stop Bool :=
  if firstOfTtl opts pn then .ok true
  else do
    let prev ← s.probe ((pn : ℤ) - 1)
    let p ← s.probe pn
    return !sameIpaddr prev.recvAddr p.recvAddr || prev.recvHostname == .null

/-- Resolving the address of a probe in `do_one_probe`, or taking the name of the previous one. -/
def setHostname (opts : Options D) (pn : ℕ) (env : ProbeEnv) (s : State D) :
    Except Stop (State D) := do
  if ← mustResolve opts pn s then
    let p ← s.probe pn
    let how := if opts.noresolve then A2S_NORESOLVE else A2S_RESOLVE_HIP
    let (name, s) := addr2str env.getnameinfo p.recvAddr how s
    s.update pn fun p => { p with recvHostname := name }
  else
    let prev ← s.probe ((pn : ℤ) - 1)
    s.update pn fun p => { p with recvHostname := prev.recvHostname }

/-! ## Probes -/

/-- The branches of `do_one_probe` in which no answer was received. -/
def closeProbe (pn : ℕ) (f : ProbeInfo D → ProbeInfo D) (s : State D) :
    Except Stop (State D) := do
  let p ← s.probe pn
  (s.emit (.close p.socket)).update pn fun p => f { p with socket := -1 }

/-- `do_one_probe`, without its result, which is `probe_result`. -/
def doOneProbe (opts : Options D) (pn : ℕ) (env : ProbeEnv) (s : State D) :
    Except Stop (State D) := do
  if tracerouteInitProbe pn ≠ 0 then
    s.update pn fun p => { p with probeResult := .errInit }
  else
    let (rc, s) ← tracerouteSend opts pn env s
    if rc ≠ 0 then
      closeProbe pn (fun p => { p with probeResult := .errSend }) s
    else
      let (rc, s) ← tracerouteReceive opts pn env s
      if rc = 0 then
        let s ← s.update pn fun p => { p with probeResult := .ok }
        let s ← setHostname opts pn env s
        s.update pn fun p => if p.errStr ≠ "" then { p with probeResult := .errRecv } else p
      else
        closeProbe pn
          (fun p => { p with probeResult := .errTimeout, recvHostname := .hostUnknown }) s

/-- The host name part of `print_one_probe`: a name is printed unless the previous probe of the
    TTL has the same. -/
def hostTexts (opts : Options D) (pn : ℕ) (s : State D) : Except Stop (List String) := do
  let p ← s.probe pn
  if p.recvHostname = .null then
    return [" *?"]
  else if firstOfTtl opts pn ∨ p.recvHostname = .hostUnknown ∨
      p.recvHostname = .hostUnknownBadAF then
    return [" " ++ (← s.deref p.recvHostname)]
  else
    let prev ← s.probe ((pn : ℤ) - 1)
    if prev.recvHostname = p.recvHostname then
      return []
    else
      let prevName ← s.deref prev.recvHostname
      let name ← s.deref p.recvHostname
      return if prevName ≠ name then [" " ++ name] else []

/-- The time and error part of `print_one_probe`. -/
def resultTexts (p : ProbeInfo D) : List String :=
  (if CDouble.isZero p.recvTime then []
    else ["  " ++ CDouble.fixed3 ((p.recvTime - p.sendTime) * CDouble.ofInt 1000) ++ " ms"]) ++
  if p.errStr ≠ "" then [" " ++ p.errStr] else []

/-- The format `%2u.`. -/
def ttlText (ttl : ℤ) : String :=
  let digits := toString (CInt.toUInt32 ttl)
  (if digits.length < 2 then " " ++ digits else digits) ++ "."

/-- `print_one_probe`, which calls `exit` after a probe that could not be sent. -/
def printOneProbe (opts : Options D) (pn : ℕ) (s : State D) : Except Stop (State D) := do
  let p ← s.probe pn
  match p.probeResult with
  | .errInit | .errSend => .error (.exit 1)
  | .errTimeout | .ok | .errRecv =>
    let host ← hostTexts opts pn s
    return s.print
      ((if firstOfTtl opts pn then [ttlText (tracerouteProbe2ttl opts pn)] else []) ++ host ++
        resultTexts p ++ if lastOfTtl opts pn then ["\n"] else [])
  | .unknown => return s.print ["Unknown error?\n"]

/-! ## Clean-up -/

/-- One round of the inner loop of `traceroute_free_mem_probe`, at probe `pnttl`: whether the
    pointer `name` of probe `pn` is used there, too. -/
def sharedRound (pn : ℕ) (name : Ptr) (s : State D) (pnttl : ℤ) (shared : Bool) :
    Except Stop (ForInStep Bool) :=
  if pnttl = pn then .ok (.yield shared)
  else do
    let q ← s.probe pnttl
    return if q.recvHostname = name then .done true else .yield shared

/-- The inner loop of `traceroute_free_mem_probe`. -/
def hostnameShared (opts : Options D) (pn : ℕ) (s : State D) : Except Stop Bool := do
  let p ← s.probe pn
  let row := (pn : ℤ).tdiv opts.probes * opts.probes
  forLoop (fun i => sharedRound pn p.recvHostname s (row + i)) opts.probes.toNat 0 false

/-- `traceroute_free_mem_probe`. -/
def tracerouteFreeMemProbe (opts : Options D) (pn : ℕ) (s : State D) :
    Except Stop (State D) := do
  let p ← s.probe pn
  let s := s.emit (.free p.data)
  if p.recvHostname ≠ .null ∧ p.recvHostname ≠ .hostUnknown then
    let shared ← hostnameShared opts pn s
    let s := if shared then s else s.emit (.free p.recvHostname)
    s.update pn fun p => { p with recvHostname := .null }
  else
    return s

/-- One round of the clean-up loop of `do_traceroute`. -/
def freeRound (opts : Options D) (pn : ℕ) (s : State D) : Except Stop (ForInStep (State D)) := do
  return .yield (← tracerouteFreeMemProbe opts pn s)

/-! ## The driver -/

/-- One round of the loop of `do_traceroute`. -/
def probeRound (opts : Options D) (net : NetEnv) (pn : ℕ) (s : State D) :
    Except Stop (ForInStep (State D)) := do
  let s ← doOneProbe opts pn (net.probe pn) s
  let s ← printOneProbe opts pn s
  -- we are done once the row with the final probe is complete
  return if s.tr.finalProbe ≥ 0 ∧ lastOfTtl opts pn then .done s else .yield s

/-- The texts before the first probe. -/
def headerTexts (opts : Options D) (target resolved : String) : List String :=
  ["traceroute to ",
    if target ≠ resolved then target ++ " (" ++ resolved ++ ")" else target,
    " port " ++ toString opts.destPort.toNat ++ (if opts.destPortSeq then "+" else "") ++
      " (max ttl " ++ toString opts.maxTtl ++ ", " ++ toString opts.probes ++
      " probes per ttl, packet size " ++ toString opts.packetLen ++ " bytes):\n"]

/-- `do_traceroute`. -/
def doTraceroute (opts : Options D) (target : String) (net : NetEnv) :
    Except Stop (ℤ × State D) := do
  let (rc, s) ← tracerouteInit opts net .initial
  if rc ≠ 0 then
    return (1, s)
  let (resolved, s) := addr2str net.getnameinfo s.tr.destAddr A2S_NORESOLVE s
  let s := s.print (headerTexts opts target (← s.deref resolved))
  let s ← forLoop (probeRound opts net) (opts.maxTtl * opts.probes).toNat 0 s
  let s := if resolved ≠ .hostUnknown ∧ resolved ≠ .hostUnknownBadAF then s.emit (.free resolved)
    else s
  let s ← forLoop (freeRound opts) (s.tr.finalProbe + 1).toNat 0 s
  return (0, s)

end SuccessiveTraceroute
