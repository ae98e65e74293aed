import OsSamples.Spec.TracerouteAgree
import OsSamples.Spec.TracerouteOptions

/-!
# The destination ports of successive traceroute

Every probe goes to the port base plus its number, in 16 bits.  The sum is right as long as it does
not wrap around, and the port base is the number given to `-p` as long as 16 bits of it say so.

## Key results

- `tracerouteSend_ports`, `doOneProbe_ports`: where one probe is sent
- `mainKept_ports`: the packets of a whole run
- `ports_exact_iff`: all command lines
-/

namespace SuccessiveTraceroute

open Traceroute CInt
open BasicTraceroute (sentPackets sentPackets_emit_of_ne)

variable {D : Type} {opts : Options D} {net : NetEnv} {addr : SockAddr} {s : State D} {n pn : ℕ}

/-! ## The packets of a run -/

/-- All packets sent so far are of the first `n` probes, and have gone to the target, each to the
    port of its probe. -/
structure Ports (opts : Options D) (addr : SockAddr) (n : ℕ) (s : State D) : Prop where
  destAddr : s.tr.destAddr = addr
  packets : ∀ pn packet, (pn, packet) ∈ sentPackets s →
    pn < n ∧ packet.dest = addr.setPort (opts.destPort + BitVec.ofNat 16 pn)

/-- Before anything has been sent. -/
theorem Ports.of_log (haddr : s.tr.destAddr = addr) (hlog : s.log = []) : Ports opts addr n s := by
  refine ⟨haddr, fun pn packet hmem => ?_⟩
  rw [sentPackets, hlog] at hmem
  cases hmem

theorem Ports.setProbe (h : Ports opts addr n s) (pn : ℕ) (p : ProbeInfo D) :
    Ports opts addr n (s.setProbe pn p) := ⟨h.destAddr, h.packets⟩

theorem Ports.setFinalProbe (h : Ports opts addr n s) (pn : ℕ) :
    Ports opts addr n (setFinalProbe pn s) := by
  unfold SuccessiveTraceroute.setFinalProbe
  split
  · exact ⟨h.destAddr, h.packets⟩
  · exact h

theorem Ports.print (h : Ports opts addr n s) (texts : List String) :
    Ports opts addr n (s.print texts) := ⟨h.destAddr, h.packets⟩

/-- Events other than sending. -/
theorem Ports.emit {e : Event} (h : Ports opts addr n s) (he : ∀ m packet, e ≠ .send m packet) :
    Ports opts addr n (s.emit e) := by
  refine ⟨h.destAddr, ?_⟩
  rw [sentPackets_emit_of_ne s he]
  exact h.packets

/-- A new block. -/
theorem Ports.alloc (h : Ports opts addr n s) (str : String) :
    Ports opts addr n (s.alloc str).2 := by
  have h := h.emit (e := .alloc s.next) nofun
  exact ⟨h.destAddr, h.packets⟩

/-- Sending. -/
theorem Ports.send {packet : Packet} (h : Ports opts addr n s) (hpn : pn < n)
    (hdest : packet.dest = addr.setPort (opts.destPort + BitVec.ofNat 16 pn)) :
    Ports opts addr n (s.emit (.send pn packet)) := by
  have hsent : sentPackets (s.emit (.send pn packet)) = sentPackets s ++ [(pn, packet)] := by
    simp [sentPackets, State.emit]
  refine ⟨h.destAddr, fun m packet' hmem => ?_⟩
  rw [hsent, List.mem_append, List.mem_singleton] at hmem
  rcases hmem with hmem | heq
  · exact h.packets m packet' hmem
  · obtain ⟨rfl, rfl⟩ := Prod.mk.inj heq
    exact ⟨hpn, hdest⟩

/-- What holds of the value of a computation, if it has one. -/
abbrev Returns {α : Type} (Q : α → Prop) : Except Stop α → Prop := Outcome (fun _ => True) Q

/-- A computation that has no state. -/
theorem returns_any {α : Type} (x : Except Stop α) : Returns (fun _ => True) x := by
  cases x with
  | error e => exact .error trivial
  | ok a => exact .ok trivial

/-- Writing to a probe. -/
theorem Ports.update (h : Ports opts addr n s) (pn : ℕ) (f : ProbeInfo D → ProbeInfo D) :
    Returns (Ports opts addr n) (s.update pn f) := by
  unfold State.update
  exact (returns_any _).bind fun p _ => .ok (h.setProbe pn (f p))

variable [CDouble D]

/-! ## One probe -/

/-- `traceroute_send`: the port of the probe is the sum in 16 bits. -/
theorem tracerouteSend_ports (hseq : opts.destPortSeq = true) (hpn : pn < n) (env : ProbeEnv)
    (h : Ports opts addr n s) :
    Returns (fun r => Ports opts addr n r.2) (tracerouteSend opts pn env s) := by
  unfold tracerouteSend
  refine (h.update pn _).bind fun s h => ?_
  refine .ite (fun _ => .ok h) fun _ => ?_
  have h : Ports opts addr n (s.emit (.socket env.socket)) := h.emit nofun
  refine .ite (fun _ => .ok h) fun _ => ?_
  refine .ite (fun _ => .ok h) fun _ => ?_
  rw [if_pos hseq]
  refine (h.update pn _).bind fun s h => ?_
  refine .ite (fun _ => .ok h) fun _ => ?_
  refine .ite (fun _ => .ok h) fun _ => ?_
  refine ((h.alloc "").update pn _).bind fun s h => ?_
  refine .ite (fun _ => .ok h) fun _ => .ok ?_
  exact h.send hpn (by rw [h.destAddr])

omit [CDouble D] in
/-- `parse_icmp_response`. -/
theorem parseIcmpResponse_ports (pn type code : ℕ) (info : ℤ) (h : Ports opts addr n s) :
    Returns (Ports opts addr n) (parseIcmpResponse pn type code info s) := by
  unfold parseIcmpResponse
  refine .ite (fun _ => .ok h) fun _ => ?_
  cases icmpText type code info with
  | none => exact .ok (h.setFinalProbe pn)
  | some str => exact (h.update pn _).bind fun s h => .ok (h.setFinalProbe pn)

/-- One round of the loop of `parse_cmsg`. -/
theorem parseOneCmsg_ports (pn : ℕ) (c : Cmsg) (h : Ports opts addr n s) :
    Returns (Ports opts addr n) (parseOneCmsg pn s c) := by
  cases c with
  | timestamp tv => exact h.update pn _
  | ttl ttl => exact h.update pn _
  | other => exact .ok h
  | recverr ee =>
    unfold parseOneCmsg
    refine .ite (fun _ => ?_) fun _ => .ok h
    exact (h.update pn _).bind fun s h => parseIcmpResponse_ports pn _ _ _ h

/-- `traceroute_receive` sends nothing. -/
theorem tracerouteReceive_ports (opts' : Options D) (pn : ℕ) (env : ProbeEnv)
    (h : Ports opts addr n s) :
    Returns (fun r => Ports opts addr n r.2) (tracerouteReceive opts' pn env s) := by
  unfold tracerouteReceive
  refine (returns_any _).bind fun p _ => ?_
  cases receiveLoop opts'.timeout p.sendTime env.attempts with
  | error rc => exact .ok h
  | ok answer =>
    obtain ⟨pollerr, msg⟩ := answer
    have hcmsg : Returns (Ports opts addr n) (parseCmsg pn msg (getTime env.cmsgTime) s) := by
      unfold parseCmsg
      refine (foldlM_outcome (fun s c h => parseOneCmsg_ports pn c h) msg.cmsgs h).bind ?_
      exact fun s h => h.update pn _
    refine hcmsg.bind fun s h => ?_
    -- the end of both branches
    have hclose : ∀ s : State D, Ports opts addr n s → Returns (fun r => Ports opts addr n r.2) (do
        let p ← s.probe pn
        let s := s.emit (.close p.socket)
        let s ← s.update pn fun p => { p with socket := -1 }
        return ((0, s) : ℤ × State D)) := by
      intro s h
      refine (returns_any _).bind fun p _ => ?_
      have h : Ports opts addr n (s.emit (.close p.socket)) := h.emit nofun
      exact (h.update pn _).bind fun s h => .ok h
    refine .ite (fun _ => ?_) fun _ => ?_
    · rw [pure_bind]
      exact hclose s h
    · refine (h.update pn _).bind fun s h => ?_
      rw [pure_bind]
      exact hclose _ (h.setFinalProbe pn)

omit [CDouble D] in
/-- `addr2str` sends nothing. -/
theorem addr2str_ports (getnameinfo : SockAddr → Bool → String) (sa : SockAddr) (how : ℕ)
    (h : Ports opts addr n s) : Ports opts addr n (addr2str getnameinfo sa how s).2 := by
  rcases addr2str_cases getnameinfo sa how s with heq | ⟨str, heq⟩
  · rw [heq]
    exact h
  · rw [heq]
    exact h.alloc str

omit [CDouble D] in
/-- The name of a probe. -/
theorem setHostname_ports (opts' : Options D) (pn : ℕ) (env : ProbeEnv)
    (h : Ports opts addr n s) : Returns (Ports opts addr n) (setHostname opts' pn env s) := by
  unfold setHostname
  refine (returns_any _).bind fun b _ => .ite (fun _ => ?_) fun _ => ?_
  · refine (returns_any _).bind fun p _ => ?_
    exact (addr2str_ports _ _ _ h).update pn _
  · exact (returns_any _).bind fun prev _ => h.update pn _

omit [CDouble D] in
/-- Closing the socket of a probe. -/
theorem closeProbe_ports (pn : ℕ) (f : ProbeInfo D → ProbeInfo D) (h : Ports opts addr n s) :
    Returns (Ports opts addr n) (closeProbe pn f s) := by
  unfold closeProbe
  refine (returns_any _).bind fun p _ => ?_
  have h : Ports opts addr n (s.emit (.close p.socket)) := h.emit nofun
  exact h.update pn _

/-- `do_one_probe`. -/
theorem doOneProbe_ports (hseq : opts.destPortSeq = true) (hpn : pn < n) (env : ProbeEnv)
    (h : Ports opts addr n s) : Returns (Ports opts addr n) (doOneProbe opts pn env s) := by
  unfold doOneProbe
  refine .ite (fun _ => h.update pn _) fun _ => ?_
  refine (tracerouteSend_ports hseq hpn env h).bind fun r h => ?_
  refine .ite (fun _ => closeProbe_ports pn _ h) fun _ => ?_
  refine (tracerouteReceive_ports opts pn env h).bind fun r h => ?_
  refine .ite (fun _ => ?_) fun _ => closeProbe_ports pn _ h
  refine (h.update pn _).bind fun s h => ?_
  exact (setHostname_ports opts pn env h).bind fun s h => h.update pn _

/-- `print_one_probe` only prints. -/
theorem printOneProbe_ports (opts' : Options D) (pn : ℕ) (h : Ports opts addr n s) :
    Returns (Ports opts addr n) (printOneProbe opts' pn s) := by
  unfold printOneProbe
  refine (returns_any _).bind fun p _ => ?_
  cases p.probeResult with
  | errInit | errSend => exact .error trivial
  | errTimeout | ok | errRecv => exact (returns_any _).bind fun host _ => .ok (h.print _)
  | unknown => exact .ok (h.print _)

/-! ## The driver -/

/-- The state in which a run ends. -/
def endState : Except (Stop × State D) (ℤ × State D) → State D
  | .ok (_, s) => s
  | .error (_, s) => s

/-- One round of the loop of `do_traceroute`, whether it goes on or calls `exit`. -/
theorem probeRoundKept_ports (hseq : opts.destPortSeq = true) (hpn : pn < n) (net : NetEnv)
    (h : Ports opts addr n s) :
    Outcome (fun e => Ports opts addr n e.2) (StepOutcome (Ports opts addr n) (Ports opts addr n))
      (probeRoundKept opts net pn s) := by
  have hprobe := doOneProbe_ports hseq hpn (net.probe pn) h
  unfold probeRoundKept
  generalize doOneProbe opts pn (net.probe pn) s = x at hprobe ⊢
  cases hprobe with
  | error _ => exact .error h
  | @ok s₁ h₁ =>
    have hprint := printOneProbe_ports opts pn h₁
    dsimp only
    generalize printOneProbe opts pn s₁ = y at hprint ⊢
    cases hprint with
    | error _ => exact .error h₁
    | @ok s₂ h₂ =>
      refine .ok ?_
      split
      · exact .done h₂
      · exact .yield h₂

/-- An IPv4 address with a port. -/
def IsInet (addr : SockAddr) : Prop := ∃ ip port, addr = .inet ip port

theorem IsInet.setPort {addr : SockAddr} (h : IsInet addr) (port : BitVec 16) :
    IsInet (addr.setPort port) ∧ (addr.setPort port).port = port := by
  obtain ⟨ip, port', rfl⟩ := h
  exact ⟨⟨ip, port, rfl⟩, rfl⟩

theorem isInet_of_family {addr : SockAddr} (h : addr.family = AF_INET) : IsInet addr := by
  cases addr with
  | unspec => exact nomatch h
  | inet ip port => exact ⟨ip, port, rfl⟩
  | inet6 ip port => exact nomatch h

/-- `traceroute_init` sends nothing, and the target gets an IPv4 address. -/
theorem tracerouteInit_ports (opts : Options D) (haf : opts.af = AF_INET) (net : NetEnv) (n : ℕ) :
    Returns (fun r => ∃ addr, IsInet addr ∧ Ports opts addr n r.2)
      (tracerouteInit opts net (.initial : State D)) := by
  have hzero : IsInet (.zero opts.af) := by
    rw [haf]
    exact ⟨0, 0, rfl⟩
  unfold tracerouteInit
  cases net.getaddrinfo with
  | none => exact .ok ⟨_, hzero, .of_log rfl rfl⟩
  | some res =>
    refine .ite (fun _ => .ok ⟨_, hzero, .of_log rfl rfl⟩) fun _ => ?_
    -- the last IPv4 address of the list, or the zero address
    have hinet : IsInet ((res.filter fun a => a.family == AF_INET).getLast?.getD
        (.zero opts.af)) := by
      cases hlast : (res.filter fun a => a.family == AF_INET).getLast? with
      | none => exact hzero
      | some a =>
        have hmem := List.mem_filter.mp (List.mem_of_getLast? hlast)
        exact isInet_of_family (by simpa using hmem.2)
    dsimp only
    generalize (res.filter fun a => a.family == AF_INET).getLast?.getD (.zero opts.af) = addr
      at hinet ⊢
    refine (forLoop_outcome_const (I := Ports opts (addr.setPort opts.destPort) n)
      (fun pn s _ _ h => (h.update pn _).bind fun s h => .ok (.yield h)) (.of_log rfl rfl)).bind ?_
    exact fun s h => .ok ⟨_, (hinet.setPort _).1, h⟩

omit [CDouble D] in
/-- The clean-up of one probe. -/
theorem freeRound_ports (opts' : Options D) (pn : ℕ) (h : Ports opts addr n s) :
    Returns (StepOutcome (Ports opts addr n) (Ports opts addr n)) (freeRound opts' pn s) := by
  have hfree : Returns (Ports opts addr n) (tracerouteFreeMemProbe opts' pn s) := by
    unfold tracerouteFreeMemProbe
    refine (returns_any _).bind fun p _ => ?_
    have h : Ports opts addr n (s.emit (.free p.data)) := h.emit nofun
    refine .ite (fun _ => ?_) fun _ => .ok h
    refine (returns_any _).bind fun shared _ => ?_
    cases shared with
    | true => exact h.update pn _
    | false =>
      have h : Ports opts addr n ((s.emit (.free p.data)).emit (.free p.recvHostname)) :=
        h.emit nofun
      exact h.update pn _
  exact hfree.bind fun s h => .ok (.yield h)

/-- All packets sent so far are of the first `n` probes, each to the port of its probe. -/
def SentPorts (opts : Options D) (n : ℕ) (s : State D) : Prop :=
  ∀ pn packet, (pn, packet) ∈ sentPackets s →
    pn < n ∧ packet.dest.port = opts.destPort + BitVec.ofNat 16 pn

omit [CDouble D] in
theorem Ports.sentPorts (h : Ports opts addr n s) (haddr : IsInet addr) : SentPorts opts n s := by
  intro pn packet hmem
  obtain ⟨hlt, hdest⟩ := h.packets pn packet hmem
  rw [hdest]
  exact ⟨hlt, (haddr.setPort _).2⟩

/-- `do_traceroute`: nothing else is sent, also when `exit` is called. -/
theorem doTracerouteKept_ports (opts : Options D) (haf : opts.af = AF_INET)
    (hseq : opts.destPortSeq = true) (target : String) (net : NetEnv) :
    SentPorts opts (opts.maxTtl * opts.probes).toNat
      (endState (doTracerouteKept opts target net)) := by
  generalize hn : (opts.maxTtl * opts.probes).toNat = n
  have hinit := tracerouteInit_ports opts haf net n
  unfold doTracerouteKept
  rw [hn]
  generalize tracerouteInit opts net .initial = x at hinit ⊢
  cases hinit with
  | error _ => exact nofun
  | @ok r hr =>
    obtain ⟨rc, s⟩ := r
    obtain ⟨addr, haddr, h⟩ := hr
    dsimp only
    by_cases hrc : rc ≠ 0
    · rw [if_pos hrc]
      exact h.sentPorts haddr
    rw [if_neg hrc]
    have h₁ := addr2str_ports net.getnameinfo s.tr.destAddr A2S_NORESOLVE h
    generalize addr2str net.getnameinfo s.tr.destAddr A2S_NORESOLVE s = r at h₁ ⊢
    obtain ⟨resolved, s₁⟩ := r
    dsimp only
    cases s₁.deref resolved with
    | error e => exact h₁.sentPorts haddr
    | ok str =>
      -- the probes
      have h₁ := h₁.print (headerTexts opts target str)
      dsimp only
      generalize s₁.print (headerTexts opts target str) = s₁ at h₁ ⊢
      have hloop : Outcome (fun e => Ports opts addr n e.2) (Ports opts addr n)
          (forLoop (probeRoundKept opts net) n 0 s₁) :=
        forLoop_outcome_const
          (fun pn s _ hpn h => probeRoundKept_ports hseq (by omega) net h) h₁
      generalize forLoop (probeRoundKept opts net) n 0 s₁ = y at hloop ⊢
      cases hloop with
      | @error e he => exact he.sentPorts haddr
      | @ok s₂ h₂ =>
        -- the clean-up
        have h₃ : Ports opts addr n (if resolved ≠ .hostUnknown ∧ resolved ≠ .hostUnknownBadAF then
            s₂.emit (.free resolved) else s₂) := by
          split
          · exact h₂.emit nofun
          · exact h₂
        dsimp only
        generalize (if resolved ≠ .hostUnknown ∧ resolved ≠ .hostUnknownBadAF then
          s₂.emit (.free resolved) else s₂) = s₃ at h₃ ⊢
        have hfree : Returns (Ports opts addr n)
            (forLoop (freeRound opts) (s₃.tr.finalProbe + 1).toNat 0 s₃) :=
          forLoop_outcome_const (fun pn s _ _ h => freeRound_ports opts pn h) h₃
        generalize forLoop (freeRound opts) _ 0 s₃ = z at hfree ⊢
        cases hfree with
        | error _ => exact h₃.sentPorts haddr
        | ok h₄ => exact h₄.sentPorts haddr

/-! ## The program -/

variable [LT D] [DecidableLT D] {args : List (Opt D)}

/-- It is `main`, when the state at `exit` is forgotten. -/
theorem mainKept_forget (args : List (Opt D)) (host : Option String) (length : Option ℤ)
    (net : NetEnv) :
    (mainKept args host length net).mapError Prod.fst = main args host length net := by
  unfold mainKept main
  cases parseOptions args with
  | error e => rfl
  | ok o =>
    cases host with
    | none => rfl
    | some host => exact doTracerouteKept_forget _ host net

omit [CDouble D] [LT D] [DecidableLT D] in
/-- The packet length does not matter for where the packets go. -/
theorem setPacketLen_fields (length : Option ℤ) (opts : Options D) :
    (setPacketLen length opts).af = opts.af ∧
      (setPacketLen length opts).maxTtl = opts.maxTtl ∧
      (setPacketLen length opts).probes = opts.probes ∧
      (setPacketLen length opts).destPortSeq = opts.destPortSeq ∧
      (setPacketLen length opts).destPort = opts.destPort := by
  cases length <;> exact ⟨rfl, rfl, rfl, rfl, rfl⟩

/-- The packets of a run without `-U`. -/
theorem mainKept_ports {o : Settings D} (hparse : parseOptions args = .ok o) (hU : .U ∉ args)
    (host : Option String) (length : Option ℤ) (net : NetEnv) {packet : Packet}
    (hmem : (pn, packet) ∈ sentPackets (endState (mainKept args host length net))) :
    (pn : ℤ) < maxTtlOf args * probesOf args ∧
      packet.dest.port = portOf (portArg args) + BitVec.ofNat 16 pn := by
  obtain ⟨haf, hmax, hprobes⟩ := parseOptions_limits hparse
  obtain ⟨hseq, hport⟩ := parseOptions_port hparse hU
  cases host with
  | none =>
    unfold mainKept at hmem
    rw [hparse] at hmem
    exact nomatch hmem
  | some host =>
    obtain ⟨haf', hmax', hprobes', hseq', hport'⟩ := setPacketLen_fields length o.toOptions
    unfold mainKept at hmem
    rw [hparse] at hmem
    obtain ⟨hlt, hdest⟩ := doTracerouteKept_ports (setPacketLen length o.toOptions)
      (haf'.trans haf) (hseq'.trans hseq) host net pn packet hmem
    rw [hmax', hprobes', hmax, hprobes] at hlt
    rw [hport', hport] at hdest
    exact ⟨by omega, hdest⟩

/-- A network in which every probe is sent and no answer comes. -/
def silentNet : NetEnv where
  getaddrinfo := some [.inet 1 0]
  getnameinfo _ _ := "0.0.0.1"
  probe _ := {
    socket := 3, bind := true, setTtl := true, connect := true, setRecverr := true
    sendTime := ⟨0, 0⟩
    send := true
    attempts := []
    cmsgTime := ⟨0, 0⟩
    getnameinfo := fun _ _ => "0.0.0.1" }

/-- Without an answer all probes are sent. -/
theorem mainKept_silent {o : Settings D} (hparse : parseOptions args = .ok o)
    (hpn : (pn : ℤ) < maxTtlOf args * probesOf args) :
    ∃ packet, (pn, packet) ∈
      sentPackets (endState (mainKept args (some "target") none silentNet)) := by
  obtain ⟨-, hmax, hprobes⟩ := parseOptions_limits hparse
  have hrange := probesOf_range args
  have hle := maxTtlOf_le args
  rw [← hmax] at hle hpn
  rw [← hprobes] at hrange hpn
  -- no answer, so no terminal answer: all rows are run through
  have hstop : StopsAt o.toOptions silentNet o.maxTtl.toNat (-1) := by
    refine .exhausted fun m _ hterm => ?_
    obtain ⟨pollerr, msg, hloop, -⟩ := hterm
    exact nomatch hloop
  obtain ⟨s, hrun, hsent, -⟩ := doTraceroute_of_stopsAt o.toOptions hrange hle "target" rfl hstop
    fun m _ => ⟨Int.le_of_lt (by decide : (0 : ℤ) < 3), rfl, rfl, rfl, rfl, rfl⟩
  have hkept : mainKept args (some "target") none silentNet = .ok (0, s) := by
    have hforget := doTracerouteKept_forget o.toOptions "target" silentNet
    rw [hrun] at hforget
    unfold mainKept
    rw [hparse]
    dsimp only [setPacketLen]
    generalize doTracerouteKept o.toOptions "target" silentNet = x at hforget ⊢
    cases x with
    | error e => exact nomatch hforget
    | ok r => rw [Except.ok.inj hforget]
  have hmem : pn ∈ (sentPackets s).map Prod.fst := by
    rw [← BasicTraceroute.sent_eq, hsent, List.map_map, List.mem_map]
    refine ⟨pn, List.mem_range.mpr ?_, rfl⟩
    rw [← total_eq (q := o.probes.toNat) (show o.probes = (o.probes.toNat : ℤ) by omega)]
    omega
  obtain ⟨⟨m, packet⟩, hsent, rfl⟩ := List.mem_map.mp hmem
  rw [hkept]
  exact ⟨packet, hsent⟩

/-! ## Main result -/

/-- The port base that `-p` asks for: the number, if it is one of the ports that `-p` allows, or the
    default. -/
def intendedBase (arg : Option ℤ) : ℤ :=
  match arg with
  | none => DEF_DEST_PORT_BASE.toNat
  | some g => if 1 ≤ g ∧ g ≤ MAX_DEST_PORT then g else DEF_DEST_PORT_BASE.toNat

/-- The number given to `-p` is one of the allowed ports, or the low 16 bits of it are not, or they
    are the default by chance. -/
def Unmistaken (arg : Option ℤ) : Prop :=
  ∀ g ∈ arg, (1 ≤ g ∧ g ≤ MAX_DEST_PORT) ∨ atoi g % 2 ^ 16 = 0 ∨
    MAX_DEST_PORT < atoi g % 2 ^ 16 ∨ atoi g % 2 ^ 16 = DEF_DEST_PORT_BASE.toNat

theorem unmistaken_some {g : ℤ} : Unmistaken (some g) ↔ (1 ≤ g ∧ g ≤ MAX_DEST_PORT) ∨
    atoi g % 2 ^ 16 = 0 ∨ MAX_DEST_PORT < atoi g % 2 ^ 16 ∨
      atoi g % 2 ^ 16 = DEF_DEST_PORT_BASE.toNat := by
  simp only [Unmistaken, Option.mem_some_iff, forall_eq']

/-- The port base after `-p`, by the low 16 bits of the number. -/
theorem portOf_some (g : ℤ) : ((portOf (some g)).toNat : ℤ) =
    if atoi g % 2 ^ 16 = 0 ∨ MAX_DEST_PORT < atoi g % 2 ^ 16 then
      (DEF_DEST_PORT_BASE.toNat : ℤ) else atoi g % 2 ^ 16 := by
  have hlow : ((BitVec.ofInt 16 (atoi g)).toNat : ℤ) = atoi g % 2 ^ 16 := by
    rw [BitVec.toNat_ofInt]
    omega
  unfold portOf clipPort
  simp only [Option.map_some, Option.getD_some]
  rw [← hlow]
  generalize BitVec.ofInt 16 (atoi g) = w
  by_cases hbig : w.toNat > MAX_DEST_PORT
  · rw [if_pos hbig, if_pos rfl, if_pos (.inr (by exact_mod_cast hbig))]
  · rw [if_neg hbig]
    by_cases hzero : w = 0
    · rw [if_pos hzero, if_pos (.inl (by rw [hzero]; rfl))]
    · have hne : w.toNat ≠ 0 := fun h => hzero (BitVec.eq_of_toNat_eq h)
      rw [if_neg hzero, if_neg (by omega)]

/-- The port base is as asked for. -/
theorem portOf_eq_iff (arg : Option ℤ) :
    ((portOf arg).toNat : ℤ) = intendedBase arg ↔ Unmistaken arg := by
  cases arg with
  | none => exact iff_of_true rfl nofun
  | some g =>
    rw [portOf_some, unmistaken_some]
    dsimp only [intendedBase]
    by_cases hg : 1 ≤ g ∧ g ≤ MAX_DEST_PORT
    · have hatoi : atoi g = g := by
        have hmin : INT_MIN ≤ g := (by decide : INT_MIN ≤ 1).trans hg.1
        exact atoi_of_range hmin (hg.2.trans (by decide))
      have hmod : g % 2 ^ 16 = g := by
        unfold MAX_DEST_PORT at hg
        omega
      rw [hatoi, hmod, if_neg (by omega), if_pos hg]
      exact iff_of_true rfl (.inl hg)
    · rw [if_neg hg]
      split <;> omega

theorem intendedBase_range (arg : Option ℤ) :
    1 ≤ intendedBase arg ∧ intendedBase arg ≤ MAX_DEST_PORT := by
  unfold intendedBase
  split
  · decide
  · split
    · assumption
    · decide

/-- For every accepted command line without `-U`, whatever numbers are given to `-p`, `-m` and
    `-q`, with at least one row: that the port base is the one asked for, and that every probe of
    every run is sent to the port base plus its number, a port from 1 to 65535, is the case if and
    only if the low 16 bits of the number given to `-p` are not mistaken for it, and the last port
    is not above 65535. -/
theorem ports_exact_iff {o : Settings D} (hparse : parseOptions args = .ok o) (hU : .U ∉ args)
    (hmax : 1 ≤ maxTtlOf args) :
    ((o.destPort.toNat : ℤ) = intendedBase (portArg args) ∧
      ∀ host length net pn packet,
        (pn, packet) ∈ sentPackets (endState (mainKept args host length net)) →
        (packet.dest.port.toNat : ℤ) = intendedBase (portArg args) + pn ∧
          1 ≤ intendedBase (portArg args) + pn ∧ intendedBase (portArg args) + pn ≤ 65535) ↔
    Unmistaken (portArg args) ∧
      intendedBase (portArg args) + maxTtlOf args * probesOf args ≤ 65536 := by
  obtain ⟨-, hport⟩ := parseOptions_port hparse hU
  have hbase := intendedBase_range (portArg args)
  rw [hport, portOf_eq_iff]
  refine and_congr_right fun hkept => ⟨fun hsent => ?_, fun hlast => ?_⟩
  · -- the last probe of a run without answers
    obtain ⟨pn, hpn⟩ : ∃ pn : ℕ, (pn : ℤ) = maxTtlOf args * probesOf args - 1 := by
      have hpos := Int.mul_pos (by omega : 0 < maxTtlOf args)
        (lt_of_lt_of_le Int.one_pos (probesOf_range args).1)
      exact ⟨(maxTtlOf args * probesOf args - 1).toNat, by omega⟩
    obtain ⟨packet, hmem⟩ := mainKept_silent hparse (show (pn : ℤ) < _ by omega)
    obtain ⟨-, -, hle⟩ := hsent _ _ _ _ _ hmem
    omega
  · -- below the last port the 16-bit sum is the sum
    intro host length net pn packet hmem
    obtain ⟨hlt, hdest⟩ := mainKept_ports hparse hU host length net hmem
    rw [← portOf_eq_iff] at hkept
    refine ⟨?_, by omega, by omega⟩
    rw [hdest, BitVec.toNat_add, BitVec.toNat_ofNat]
    omega

/-- The largest number of probes, from port 33000. -/
theorem ports_exact_iff_33000 :
    ∃ o, @parseOptions ℤ wholeDouble _ _ [.p 33000, .m 255, .q 10] = .ok o ∧
      (o.destPort.toNat : ℤ) = 33000 ∧
      ∀ host length net pn packet, (pn, packet) ∈ sentPackets (endState
          (@mainKept ℤ wholeDouble _ _ [.p 33000, .m 255, .q 10] host length net)) →
        (packet.dest.port.toNat : ℤ) = 33000 + pn ∧ 1 ≤ 33000 + (pn : ℤ) ∧
          33000 + (pn : ℤ) ≤ 65535 := by
  have hallowed : (1 : ℤ) ≤ 33000 ∧ (33000 : ℤ) ≤ MAX_DEST_PORT := by decide
  exact ⟨_, rfl, (@ports_exact_iff ℤ wholeDouble _ _ [.p 33000, .m 255, .q 10] _ rfl nofun
    (by decide)).mpr ⟨unmistaken_some.mpr (.inl hallowed), by decide⟩⟩

/-- Port 65537 is taken for port 1; and with the largest port base, probe 536 goes to port 0. -/
theorem ports_wrong :
    (∃ o, @parseOptions ℤ wholeDouble _ _ [.p 65537] = .ok o ∧ o.destPort.toNat = 1 ∧
      intendedBase (portArg ([.p 65537] : List (Opt ℤ))) = 33434) ∧
      ∃ packet, (536, packet) ∈ sentPackets (endState (@mainKept ℤ wholeDouble _ _
        [.p 65000, .m 255, .q 10] (some "target") none silentNet)) ∧ packet.dest.port = 0 := by
  refine ⟨⟨_, rfl, rfl, rfl⟩, ?_⟩
  obtain ⟨packet, hmem⟩ := @mainKept_silent ℤ 536 wholeDouble _ _ [.p 65000, .m 255, .q 10] _ rfl
    (by decide)
  obtain ⟨-, hdest⟩ := @mainKept_ports ℤ 536 wholeDouble _ _ [.p 65000, .m 255, .q 10] _ rfl nofun
    _ _ _ _ hmem
  exact ⟨packet, hmem, hdest⟩

end SuccessiveTraceroute
