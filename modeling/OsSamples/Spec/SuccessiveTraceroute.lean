import Mathlib.Tactic.SplitIfs
import OsSamples.Lib.Rows
import OsSamples.Native.SuccessiveTraceroute

/-!
# The probes of successive traceroute

Which probes `do_traceroute` sends, what it prints about them and which one it takes for the final
one, for every behaviour of the network in which all probes can be sent.

## Key results

- `tracerouteSend_ok`, `tracerouteReceive_ok`, `doOneProbe_ok`: what one probe does to the state
- `tracerouteSend_fail`, `doOneProbe_fail`: the same for a probe that cannot be sent
- `printOneProbe_ok`: what is printed about it
- `probeRound_ok`: one round keeps `ProbesDone`
- `doTraceroute_probes`: all rounds
-/

namespace SuccessiveTraceroute

open Traceroute

variable {D : Type}

/-! ## What a step does to the rest of the state -/

/-- The probes sent so far, with their TTLs. -/
def State.sent (s : State D) : List (ℕ × ℤ) :=
  s.log.filterMap fun
    | .send pn packet => some (pn, packet.ttl)
    | _ => none

/-- From `s` to `s'` nothing has been printed, and no other probe than `pn` has changed. -/
structure Kept (pn : ℕ) (s s' : State D) : Prop where
  probes : ∀ m, m ≠ pn → s'.tr.probes m = s.tr.probes m
  out : s'.out = s.out

/-- Besides, nothing has been sent and the final probe is the same. -/
structure Quiet (pn : ℕ) (s s' : State D) : Prop extends Kept pn s s' where
  sent : s'.sent = s.sent
  finalProbe : s'.tr.finalProbe = s.tr.finalProbe

variable {pn : ℕ} {s s' s'' : State D}

theorem Kept.trans (h : Kept pn s s') (h' : Kept pn s' s'') : Kept pn s s'' :=
  ⟨fun m hm => (h'.probes m hm).trans (h.probes m hm), h'.out.trans h.out⟩

theorem Quiet.refl (pn : ℕ) (s : State D) : Quiet pn s s := ⟨⟨fun _ _ => rfl, rfl⟩, rfl, rfl⟩

theorem Quiet.trans (h : Quiet pn s s') (h' : Quiet pn s' s'') : Quiet pn s s'' :=
  ⟨h.toKept.trans h'.toKept, h'.sent.trans h.sent, h'.finalProbe.trans h.finalProbe⟩

/-- Writing to the probe itself. -/
theorem Quiet.setProbe (s : State D) (pn : ℕ) (p : ProbeInfo D) : Quiet pn s (s.setProbe pn p) :=
  ⟨⟨fun _ hm => s.setProbe_probes_of_ne hm p, rfl⟩, rfl, rfl⟩

/-- Events other than sending. -/
theorem Quiet.emit {e : Event} (pn : ℕ) (s : State D) (he : ∀ m packet, e ≠ .send m packet) :
    Quiet pn s (s.emit e) := by
  refine ⟨⟨fun _ _ => rfl, rfl⟩, ?_, rfl⟩
  cases e with
  | send m packet => exact absurd rfl (he m packet)
  | socket | close | alloc | free => simp [State.sent, State.emit]

/-- A new block. -/
theorem Quiet.alloc (pn : ℕ) (s : State D) (str : String) : Quiet pn s (s.alloc str).2 := by
  have h := Quiet.emit (e := .alloc s.next) pn s nofun
  exact ⟨⟨h.probes, h.out⟩, h.sent, h.finalProbe⟩

theorem sent_emit_send (s : State D) (pn : ℕ) (packet : Packet) :
    (s.emit (.send pn packet)).sent = s.sent ++ [(pn, packet.ttl)] := by
  simp [State.sent, State.emit]

variable [CDouble D] {opts : Options D} {env : ProbeEnv}

/-! ## Sending -/

/-- No call that sends the probe fails. -/
structure SendOk (env : ProbeEnv) : Prop where
  socket : 0 ≤ env.socket
  bind : env.bind = true
  setTtl : env.setTtl = true
  connect : env.connect = true
  setRecverr : env.setRecverr = true
  send : env.send = true

/-- A probe that can be sent goes out with the TTL of its row. -/
theorem tracerouteSend_ok (opts : Options D) (hpn : pn < MAX_TTL * MAX_PROBES)
    (henv : SendOk env) (s : State D) :
    ∃ s', tracerouteSend opts pn env s = .ok (0, s') ∧ Kept pn s s' ∧
      s'.tr.finalProbe = s.tr.finalProbe ∧
      s'.sent = s.sent ++ [(pn, tracerouteProbe2ttl opts pn)] ∧
      (s'.tr.probes pn).sendTime = getTime env.sendTime := by
  have hsocket : ¬ env.socket < 0 := by
    have h := henv.socket
    omega
  simp only [tracerouteSend, State.update_ok hpn, bind, Except.bind, pure, Except.pure, hsocket,
    henv.bind, henv.setTtl, henv.connect, henv.setRecverr, henv.send, Bool.not_true,
    Bool.false_eq_true, if_false]
  -- the states with the socket, with the port and with the packet: nothing has been sent yet
  generalize hs₁ : (s.setProbe pn _).emit (.socket env.socket) = s₁
  have h₁ : Quiet pn s s₁ := by
    rw [← hs₁]
    exact (Quiet.setProbe ..).trans (.emit _ _ nofun)
  generalize hs₂ : s₁.setProbe pn _ = s₂
  have h₂ : Quiet pn s s₂ := by
    rw [← hs₂]
    exact h₁.trans (.setProbe ..)
  generalize hs₃ : (s₂.alloc "").2.setProbe pn _ = s₃
  have h₃ : Quiet pn s s₃ := by
    rw [← hs₃]
    exact h₂.trans ((Quiet.alloc ..).trans (.setProbe ..))
  refine ⟨_, rfl, ⟨h₃.probes, h₃.out⟩, h₃.finalProbe, ?_, ?_⟩
  · rw [sent_emit_send, h₃.sent]
  · rw [← hs₃]
    simp [State.emit]

/-- A probe that cannot be sent: nothing goes out, whichever call fails. -/
theorem tracerouteSend_fail (opts : Options D) (hpn : pn < MAX_TTL * MAX_PROBES)
    (henv : ¬ SendOk env) (s : State D) :
    ∃ rc s', tracerouteSend opts pn env s = .ok (rc, s') ∧ rc ≠ 0 ∧ Quiet pn s s' := by
  simp only [tracerouteSend, State.update_ok hpn, bind, Except.bind, pure, Except.pure]
  by_cases hsocket : env.socket < 0
  · simp only [if_pos hsocket]
    exact ⟨_, _, rfl, by decide, .setProbe ..⟩
  simp only [if_neg hsocket]
  generalize hs₁ : (s.setProbe pn _).emit (.socket env.socket) = s₁
  have h₁ : Quiet pn s s₁ := by
    rw [← hs₁]
    exact (Quiet.setProbe ..).trans (.emit _ _ nofun)
  -- in the order of the calls, each of which may be the one that fails
  cases hbind : env.bind with
  | false => exact ⟨_, _, rfl, by decide, h₁⟩
  | true =>
    cases hsetTtl : env.setTtl with
    | false => exact ⟨_, _, rfl, by decide, h₁⟩
    | true =>
      generalize hs₂ : s₁.setProbe pn _ = s₂
      have h₂ : Quiet pn s s₂ := by
        rw [← hs₂]
        exact h₁.trans (.setProbe ..)
      cases hconnect : env.connect with
      | false => exact ⟨_, _, rfl, by decide, h₂⟩
      | true =>
        cases hsetRecverr : env.setRecverr with
        | false => exact ⟨_, _, rfl, by decide, h₂⟩
        | true =>
          generalize hs₃ : (s₂.alloc "").2.setProbe pn _ = s₃
          have h₃ : Quiet pn s s₃ := by
            rw [← hs₃]
            exact h₂.trans ((Quiet.alloc ..).trans (.setProbe ..))
          cases hsend : env.send with
          | false => exact ⟨_, _, rfl, by decide, h₃⟩
          | true =>
            exact absurd ⟨by omega, hbind, hsetTtl, hconnect, hsetRecverr, hsend⟩ henv

/-! ## Receiving -/

/-- The smaller one of a probe and a final probe, which is negative if there is none yet. -/
def earlier (pn : ℕ) (final : ℤ) : ℤ := if final < 0 ∨ pn < final then pn else final

theorem earlier_earlier (pn : ℕ) (final : ℤ) :
    earlier pn (earlier pn final) = earlier pn final := by
  unfold earlier
  split_ifs <;> omega

/-- From `s` to `s'` nothing has been printed or sent, no other probe than `pn` has changed, and
    `pn` has become final if `b`. -/
structure Received (pn : ℕ) (b : Bool) (s s' : State D) : Prop extends Kept pn s s' where
  sent : s'.sent = s.sent
  finalProbe : s'.tr.finalProbe = if b then earlier pn s.tr.finalProbe else s.tr.finalProbe

omit [CDouble D] in
theorem Quiet.received (h : Quiet pn s s') : Received pn false s s' :=
  ⟨h.toKept, h.sent, by rw [h.finalProbe]; rfl⟩

omit [CDouble D] in
theorem Received.trans {b b' : Bool} (h : Received pn b s s') (h' : Received pn b' s' s'') :
    Received pn (b || b') s s'' := by
  refine ⟨h.toKept.trans h'.toKept, h'.sent.trans h.sent, ?_⟩
  rw [h'.finalProbe, h.finalProbe]
  cases b <;> cases b' <;> simp [earlier_earlier]

omit [CDouble D] in
theorem setFinalProbe_received (pn : ℕ) (s : State D) :
    Received pn true s (setFinalProbe pn s) := by
  unfold setFinalProbe
  split
  · rename_i h
    exact ⟨⟨fun _ _ => rfl, rfl⟩, rfl, (if_pos h).symm⟩
  · rename_i h
    exact ⟨⟨fun _ _ => rfl, rfl⟩, rfl, (if_neg h).symm⟩

/-- An ICMP error other than that the TTL has been exceeded in transit. -/
def finalCmsg : Cmsg → Bool
  | .recverr ee =>
    ee.origin == SO_EE_ORIGIN_ICMP &&
      !(ee.type.toNat == ICMP_TIME_EXCEEDED && ee.code.toNat == ICMP_EXC_TTL)
  | .timestamp _ | .ttl _ | .other => false

omit [CDouble D] in
/-- `parse_icmp_response` makes the probe final unless the TTL has been exceeded in transit. -/
theorem parseIcmpResponse_ok (hpn : pn < MAX_TTL * MAX_PROBES) (type code : ℕ) (info : ℤ)
    (s : State D) :
    ∃ s', parseIcmpResponse pn type code info s = .ok s' ∧
      Received pn (!(type == ICMP_TIME_EXCEEDED && code == ICMP_EXC_TTL)) s s' := by
  simp only [parseIcmpResponse, bind, Except.bind, pure, Except.pure]
  by_cases htype : type = ICMP_TIME_EXCEEDED ∧ code = ICMP_EXC_TTL
  · refine ⟨s, if_pos htype, ?_⟩
    have hb : (!(type == ICMP_TIME_EXCEEDED && code == ICMP_EXC_TTL)) = false := by simp [htype]
    rw [hb]
    exact (Quiet.refl pn s).received
  · have hb : (!(type == ICMP_TIME_EXCEEDED && code == ICMP_EXC_TTL)) = true := by
      rcases not_and_or.mp htype with h | h <;> simp [h]
    rw [if_neg htype, hb]
    cases icmpText type code info with
    | none => exact ⟨_, rfl, setFinalProbe_received pn s⟩
    | some str =>
      simp only [State.update_ok hpn]
      exact ⟨_, rfl, (Quiet.setProbe ..).received.trans (setFinalProbe_received pn _)⟩

/-- A round of the loop of `parse_cmsg`. -/
theorem parseOneCmsg_ok (hpn : pn < MAX_TTL * MAX_PROBES) (s : State D) (c : Cmsg) :
    ∃ s', parseOneCmsg pn s c = .ok s' ∧ Received pn (finalCmsg c) s s' := by
  cases c with
  | timestamp tv =>
    simp only [parseOneCmsg, State.update_ok hpn]
    exact ⟨_, rfl, (Quiet.setProbe ..).received⟩
  | ttl ttl =>
    simp only [parseOneCmsg, State.update_ok hpn]
    exact ⟨_, rfl, (Quiet.setProbe ..).received⟩
  | other => exact ⟨s, rfl, (Quiet.refl pn s).received⟩
  | recverr ee =>
    simp only [parseOneCmsg, State.update_ok hpn, bind, Except.bind]
    by_cases horigin : ee.origin = SO_EE_ORIGIN_ICMP
    · -- only an ICMP message can make the probe the final one
      rw [if_pos horigin]
      obtain ⟨s', hs', hrec⟩ := parseIcmpResponse_ok hpn ee.type.toNat ee.code.toNat ee.info.toInt
        (s.setProbe pn { s.tr.probes pn with recvAddr := ee.offender })
      refine ⟨s', hs', ?_⟩
      simpa [finalCmsg, horigin] using (Quiet.setProbe ..).received.trans hrec
    · rw [if_neg horigin]
      have hfinal : finalCmsg (.recverr ee) = false := by
        simp only [finalCmsg, beq_false_of_ne horigin, Bool.false_and]
      rw [hfinal]
      exact ⟨s, rfl, (Quiet.refl pn s).received⟩

/-- The loop of `parse_cmsg`. -/
theorem parseCmsgs_ok (hpn : pn < MAX_TTL * MAX_PROBES) (cmsgs : List Cmsg) (s : State D) :
    ∃ s', cmsgs.foldlM (parseOneCmsg pn) s = .ok s' ∧ Received pn (cmsgs.any finalCmsg) s s' := by
  induction cmsgs generalizing s with
  | nil => exact ⟨s, rfl, (Quiet.refl pn s).received⟩
  | cons c cmsgs ih =>
    obtain ⟨s₁, hs₁, h₁⟩ := parseOneCmsg_ok hpn s c
    obtain ⟨s₂, hs₂, h₂⟩ := ih s₁
    refine ⟨s₂, ?_, h₁.trans h₂⟩
    rw [List.foldlM_cons, hs₁]
    exact hs₂

/-- `parse_cmsg`. -/
theorem parseCmsg_ok (hpn : pn < MAX_TTL * MAX_PROBES) (msg : Msg) (now : D) (s : State D) :
    ∃ s', parseCmsg pn msg now s = .ok s' ∧ Received pn (msg.cmsgs.any finalCmsg) s s' := by
  obtain ⟨s₁, hs₁, h₁⟩ := parseCmsgs_ok hpn msg.cmsgs s
  simp only [parseCmsg, hs₁, State.update_ok hpn, bind, Except.bind]
  refine ⟨_, rfl, ?_⟩
  simpa using h₁.trans (Quiet.setProbe ..).received

/-- The answer to a probe is terminal: a message has been received in time, and it is a normal
    answer or has an ICMP error other than that the TTL has been exceeded in transit. -/
def Terminal (opts : Options D) (env : ProbeEnv) : Prop :=
  ∃ pollerr msg, receiveLoop opts.timeout (getTime env.sendTime) env.attempts =
    .ok (pollerr, msg) ∧ (pollerr = false ∨ ∃ c ∈ msg.cmsgs, finalCmsg c = true)

/-- The probe becomes final if and only if its answer is terminal. -/
theorem tracerouteReceive_ok (opts : Options D) (hpn : pn < MAX_TTL * MAX_PROBES) (s : State D)
    (htime : (s.tr.probes pn).sendTime = getTime env.sendTime) :
    ∃ rc s' b, tracerouteReceive opts pn env s = .ok (rc, s') ∧ Received pn b s s' ∧
      (b = true ↔ Terminal opts env) := by
  simp only [tracerouteReceive, State.probe_ok hpn, bind, Except.bind, pure, Except.pure, htime]
  cases hloop : receiveLoop opts.timeout (getTime env.sendTime) env.attempts with
  | error rc =>
    refine ⟨rc, s, false, rfl, (Quiet.refl pn s).received, ?_⟩
    simp [Terminal, hloop]
  | ok answer =>
    obtain ⟨pollerr, msg⟩ := answer
    obtain ⟨s₁, hs₁, h₁⟩ := parseCmsg_ok hpn msg (getTime env.cmsgTime) s
    have hterm : Terminal opts env ↔ (msg.cmsgs.any finalCmsg || !pollerr) = true := by
      simp [Terminal, hloop, or_comm]
    cases pollerr with
    | true =>
      -- an error: only the control messages count
      simp only [hs₁, State.update_ok hpn, if_true]
      refine ⟨_, _, _, rfl, ?_, hterm.symm⟩
      simpa using
        h₁.trans ((Quiet.emit (e := .close _) pn s₁ nofun).trans (.setProbe ..)).received
    | false =>
      simp only [hs₁, State.update_ok hpn, Bool.false_eq_true, if_false]
      refine ⟨_, _, _, rfl, ?_, hterm.symm⟩
      have h₂ := h₁.trans ((Quiet.setProbe s₁ pn
        { s₁.tr.probes pn with recvAddr := msg.response }).received.trans
          (setFinalProbe_received pn _))
      simpa using h₂.trans ((Quiet.emit (e := .close _) pn _ nofun).trans (.setProbe ..)).received

/-! ## One probe -/

omit [CDouble D] in
/-- `addr2str` returns a static string or a new one. -/
theorem addr2str_cases (getnameinfo : SockAddr → Bool → String) (sa : SockAddr) (how : ℕ)
    (s : State D) :
    addr2str getnameinfo sa how s = (.hostUnknownBadAF, s) ∨
      ∃ str, addr2str getnameinfo sa how s = s.alloc str := by
  simp only [addr2str]
  split_ifs
  · exact .inl rfl
  all_goals exact .inr ⟨_, rfl⟩

omit [CDouble D] in
/-- `addr2str` returns a string and leaves the probes as they are. -/
theorem addr2str_ok (pn : ℕ) (getnameinfo : SockAddr → Bool → String) (sa : SockAddr) (how : ℕ)
    (s : State D) :
    Quiet pn s (addr2str getnameinfo sa how s).2 ∧ (addr2str getnameinfo sa how s).1 ≠ .null ∧
      (addr2str getnameinfo sa how s).2.tr = s.tr := by
  rcases addr2str_cases getnameinfo sa how s with h | ⟨str, h⟩
  · rw [h]
    exact ⟨.refl pn s, nofun, rfl⟩
  · rw [h]
    exact ⟨.alloc pn s str, nofun, rfl⟩

omit [CDouble D] in
/-- The first probe of all is the first one of its TTL. -/
theorem pos_of_not_firstOfTtl (h : firstOfTtl opts pn = false) : 0 < pn := by
  apply Nat.pos_of_ne_zero
  rintro rfl
  simp [firstOfTtl] at h

omit [CDouble D] in
/-- The probe before one that is not the first one of its TTL. -/
theorem probe_pred_ok (hpn : pn < MAX_TTL * MAX_PROBES) (hpos : 0 < pn) (s : State D) :
    s.probe ((pn : ℤ) - 1) = .ok (s.tr.probes (pn - 1)) := by
  have hcast : (pn : ℤ) - 1 = ((pn - 1 : ℕ) : ℤ) := by omega
  rw [hcast]
  exact State.probe_ok (by omega)

omit [CDouble D] in
/-- A name is taken over only from a probe that has one. -/
theorem mustResolve_ok (opts : Options D) (hpn : pn < MAX_TTL * MAX_PROBES) (s : State D) :
    ∃ b, mustResolve opts pn s = .ok b ∧
      (b = false → 0 < pn ∧ (s.tr.probes (pn - 1)).recvHostname ≠ .null) := by
  unfold mustResolve
  cases hfirst : firstOfTtl opts pn with
  | true => exact ⟨true, rfl, nofun⟩
  | false =>
    have hpos := pos_of_not_firstOfTtl hfirst
    simp only [probe_pred_ok hpn hpos, State.probe_ok hpn, bind, Except.bind, pure, Except.pure]
    refine ⟨_, rfl, fun hb => ⟨hpos, ?_⟩⟩
    simp only [Bool.or_eq_false_iff, beq_eq_false_iff_ne] at hb
    exact hb.2

omit [CDouble D] in
/-- Every probe that was answered gets a name. -/
theorem setHostname_ok (opts : Options D) (env : ProbeEnv) (hpn : pn < MAX_TTL * MAX_PROBES)
    (s : State D) :
    ∃ s', setHostname opts pn env s = .ok s' ∧ Quiet pn s s' ∧
      (s'.tr.probes pn).recvHostname ≠ .null ∧
      (s'.tr.probes pn).probeResult = (s.tr.probes pn).probeResult := by
  obtain ⟨b, hb, hprev⟩ := mustResolve_ok opts hpn s
  simp only [setHostname, hb, State.probe_ok hpn, bind, Except.bind]
  cases b with
  | true =>
    simp only [State.update_ok hpn, if_true]
    generalize hhow : (if opts.noresolve = true then A2S_NORESOLVE else A2S_RESOLVE_HIP) = how
    obtain ⟨hquiet, hname, htr⟩ :=
      addr2str_ok pn env.getnameinfo (s.tr.probes pn).recvAddr how s
    refine ⟨_, rfl, hquiet.trans (.setProbe ..), by simpa using hname, ?_⟩
    rw [State.setProbe_probes_self, htr]
  | false =>
    obtain ⟨hpos, hname⟩ := hprev rfl
    simp only [State.update_ok hpn, probe_pred_ok hpn hpos, Bool.false_eq_true, if_false]
    exact ⟨_, rfl, .setProbe .., by simpa using hname, by simp⟩

omit [CDouble D] in
/-- Closing the socket of a probe. -/
theorem closeProbe_ok (hpn : pn < MAX_TTL * MAX_PROBES) (f : ProbeInfo D → ProbeInfo D)
    (s : State D) :
    ∃ s', closeProbe pn f s = .ok s' ∧ Quiet pn s s' ∧ ∃ p, s'.tr.probes pn = f p := by
  simp only [closeProbe, State.probe_ok hpn, State.update_ok hpn, bind, Except.bind]
  have hemit := Quiet.emit (e := .close (s.tr.probes pn).socket) pn s nofun
  exact ⟨_, rfl, hemit.trans (.setProbe ..), _, State.setProbe_probes_self ..⟩

/-- What has become of a probe that was sent: it went out with the TTL of its row, has become final
    if `b`, and has a name and a result to be printed. -/
structure ProbeDone (opts : Options D) (pn : ℕ) (b : Bool) (s s' : State D) : Prop
    extends Kept pn s s' where
  sent : s'.sent = s.sent ++ [(pn, tracerouteProbe2ttl opts pn)]
  finalProbe : s'.tr.finalProbe = if b then earlier pn s.tr.finalProbe else s.tr.finalProbe
  hostname : (s'.tr.probes pn).recvHostname ≠ .null
  result : (s'.tr.probes pn).probeResult = .ok ∨ (s'.tr.probes pn).probeResult = .errRecv ∨
    (s'.tr.probes pn).probeResult = .errTimeout

/-- `do_one_probe` for a probe that can be sent. -/
theorem doOneProbe_ok (opts : Options D) (hpn : pn < MAX_TTL * MAX_PROBES) (henv : SendOk env)
    (s : State D) :
    ∃ s' b, doOneProbe opts pn env s = .ok s' ∧ ProbeDone opts pn b s s' ∧
      (b = true ↔ Terminal opts env) := by
  obtain ⟨s₁, hsend, hkept, hfinal, hsent, htime⟩ := tracerouteSend_ok opts hpn henv s
  obtain ⟨rc, s₂, b, hreceive, hrec, hterm⟩ := tracerouteReceive_ok opts hpn s₁ htime
  simp only [doOneProbe, tracerouteInitProbe, hsend, hreceive, ne_eq, not_true_eq_false, if_false,
    bind, Except.bind]
  by_cases hrc : rc = 0
  · -- an answer
    rw [if_pos hrc]
    simp only [State.update_ok hpn]
    obtain ⟨s₃, hs₃, hquiet, hname, hresult⟩ := setHostname_ok opts env hpn
      (s₂.setProbe pn { s₂.tr.probes pn with probeResult := .ok })
    simp only [hs₃]
    generalize hp : (if ¬(s₃.tr.probes pn).errStr = "" then
      ({ s₃.tr.probes pn with probeResult := .errRecv } : ProbeInfo D) else s₃.tr.probes pn) = p'
    have hall := hrec.trans ((Quiet.setProbe ..).trans (hquiet.trans (.setProbe s₃ pn p'))).received
    refine ⟨_, b, rfl, ⟨hkept.trans hall.toKept, ?_, ?_, ?_, ?_⟩, hterm⟩
    · rw [hall.sent, hsent]
    · rw [hall.finalProbe, hfinal, Bool.or_false]
    · rw [State.setProbe_probes_self, ← hp]
      split_ifs <;> exact hname
    · rw [State.setProbe_probes_self, ← hp]
      rw [State.setProbe_probes_self] at hresult
      split_ifs
      · exact .inl hresult
      · exact .inr (.inl rfl)
  · -- no answer
    rw [if_neg hrc]
    obtain ⟨s₃, hclose, hquiet, p, hp⟩ := closeProbe_ok hpn (fun p => { p with
      probeResult := .errTimeout, recvHostname := .hostUnknown }) s₂
    have hall := hrec.trans hquiet.received
    refine ⟨s₃, b, hclose, ⟨hkept.trans hall.toKept, ?_, ?_, ?_, ?_⟩, hterm⟩
    · rw [hall.sent, hsent]
    · rw [hall.finalProbe, hfinal, Bool.or_false]
    · rw [hp]
      exact nofun
    · rw [hp]
      exact .inr (.inr rfl)

/-- `do_one_probe` for a probe that cannot be sent. -/
theorem doOneProbe_fail (opts : Options D) (hpn : pn < MAX_TTL * MAX_PROBES)
    (henv : ¬ SendOk env) (s : State D) :
    ∃ s', doOneProbe opts pn env s = .ok s' ∧ Quiet pn s s' ∧
      (s'.tr.probes pn).probeResult = .errSend := by
  obtain ⟨rc, s₁, hsend, hrc, hquiet⟩ := tracerouteSend_fail opts hpn henv s
  obtain ⟨s₂, hclose, hquiet', p, hp⟩ :=
    closeProbe_ok hpn (fun p => { p with probeResult := .errSend }) s₁
  simp only [doOneProbe, tracerouteInitProbe, hsend, ne_eq, hrc, not_true_eq_false,
    not_false_eq_true, if_true, if_false, bind, Except.bind]
  exact ⟨s₂, hclose, hquiet.trans hquiet', by rw [hp]⟩

/-! ## Printing -/

/-- The name part of what is printed about a probe: a name, which only a probe that is not the
    first one of its TTL can lack. -/
def NameTexts (opts : Options D) (pn : ℕ) (name : List String) : Prop :=
  (∃ str, name = [" " ++ str]) ∨ (firstOfTtl opts pn = false ∧ name = [])

/-- What is printed about a probe: the TTL before the first one of a row, the new line after the
    last one. -/
def probeTexts (opts : Options D) (pn : ℕ) (entry : List String) : List String :=
  (if firstOfTtl opts pn then [ttlText (tracerouteProbe2ttl opts pn)] else []) ++ entry ++
    if lastOfTtl opts pn then ["\n"] else []

omit [CDouble D] in
theorem deref_ok (s : State D) {p : Ptr} (hp : p ≠ .null) : ∃ str, s.deref p = .ok str := by
  cases p with
  | null => exact absurd rfl hp
  | hostUnknown | hostUnknownBadAF | block id => exact ⟨_, rfl⟩

omit [CDouble D] in
/-- The name of a probe with a name, in a row of probes with names. -/
theorem hostTexts_ok (hpn : pn < MAX_TTL * MAX_PROBES) (s : State D)
    (hname : (s.tr.probes pn).recvHostname ≠ .null)
    (hprev : firstOfTtl opts pn = false → (s.tr.probes (pn - 1)).recvHostname ≠ .null) :
    ∃ name, hostTexts opts pn s = .ok name ∧ NameTexts opts pn name := by
  obtain ⟨str, hstr⟩ := deref_ok s hname
  simp only [hostTexts, State.probe_ok hpn, bind, Except.bind, pure, Except.pure, if_neg hname,
    hstr]
  split
  · exact ⟨_, rfl, .inl ⟨str, rfl⟩⟩
  · rename_i hcond
    have hfirst : firstOfTtl opts pn = false := by
      simp only [not_or, Bool.not_eq_true] at hcond
      exact hcond.1
    simp only [probe_pred_ok hpn (pos_of_not_firstOfTtl hfirst)]
    split
    · exact ⟨_, rfl, .inr ⟨hfirst, rfl⟩⟩
    · obtain ⟨prevStr, hprevStr⟩ := deref_ok s (hprev hfirst)
      simp only [hprevStr]
      split
      · exact ⟨_, rfl, .inl ⟨str, rfl⟩⟩
      · exact ⟨_, rfl, .inr ⟨hfirst, rfl⟩⟩

/-- `print_one_probe` after a probe that was sent. -/
theorem printOneProbe_ok (hpn : pn < MAX_TTL * MAX_PROBES) {b : Bool} {s s' : State D}
    (h : ProbeDone opts pn b s s')
    (hprev : firstOfTtl opts pn = false → (s.tr.probes (pn - 1)).recvHostname ≠ .null) :
    ∃ name, printOneProbe opts pn s' =
        .ok (s'.print (probeTexts opts pn (name ++ resultTexts (s'.tr.probes pn)))) ∧
      NameTexts opts pn name := by
  have hprev' : firstOfTtl opts pn = false → (s'.tr.probes (pn - 1)).recvHostname ≠ .null := by
    intro hfirst
    have hpos := pos_of_not_firstOfTtl hfirst
    rw [h.probes (pn - 1) (by omega)]
    exact hprev hfirst
  obtain ⟨name, hhost, hname⟩ := hostTexts_ok hpn s' h.hostname hprev'
  refine ⟨name, ?_, hname⟩
  simp only [printOneProbe, State.probe_ok hpn, bind, Except.bind, pure, Except.pure]
  rcases h.result with hres | hres | hres <;>
    simp only [hres, hhost, probeTexts, List.append_assoc]

/-- `print_one_probe` after a probe that could not be sent calls `exit`. -/
theorem printOneProbe_fail (opts : Options D) (hpn : pn < MAX_TTL * MAX_PROBES)
    (hresult : (s.tr.probes pn).probeResult = .errSend) :
    printOneProbe opts pn s = .error (.exit 1) := by
  simp only [printOneProbe, State.probe_ok hpn, hresult, bind, Except.bind]

/-! ## The loop -/

/-- The final probe `f` among the first `n` probes: the first one that is terminal, -1 if there is
    none. -/
def FirstTerminal (opts : Options D) (net : NetEnv) (n : ℕ) (f : ℤ) : Prop :=
  (f = -1 ∧ ∀ m < n, ¬ Terminal opts (net.probe m)) ∨
    ∃ m < n, f = m ∧ Terminal opts (net.probe m) ∧ ∀ j < m, ¬ Terminal opts (net.probe j)

variable {net : NetEnv}

/-- One more probe: the final probe stays, unless there was none and the new one is terminal. -/
theorem FirstTerminal.succ {n : ℕ} {f : ℤ} {b : Bool} (h : FirstTerminal opts net n f)
    (hb : b = true ↔ Terminal opts (net.probe n)) :
    FirstTerminal opts net (n + 1) (if b then earlier n f else f) := by
  rcases h with ⟨rfl, hnone⟩ | ⟨m, hm, rfl, hterm, hmin⟩
  · cases b with
    | true => exact .inr ⟨n, by omega, rfl, hb.mp rfl, hnone⟩
    | false =>
      refine .inl ⟨rfl, fun m hm => ?_⟩
      rcases Nat.lt_succ_iff_lt_or_eq.mp hm with hlt | rfl
      · exact hnone m hlt
      · exact fun hterm => nomatch hb.mpr hterm
  · have hkeep : (if b then earlier n m else (m : ℤ)) = m := by
      have hearlier : earlier n m = m := if_neg (by omega)
      rw [hearlier, ite_self]
    rw [hkeep]
    exact .inr ⟨m, by omega, rfl, hterm, hmin⟩

/-- The state after `pn` rounds that began in `s₀`. -/
structure ProbesDone (opts : Options D) (net : NetEnv) (s₀ : State D) (pn : ℕ) (s : State D) :
    Prop where
  sent : s.sent = s₀.sent ++ (List.range pn).map fun m => (m, tracerouteProbe2ttl opts m)
  finalProbe : FirstTerminal opts net pn s.tr.finalProbe
  hostname : ∀ m < pn, (s.tr.probes m).recvHostname ≠ .null
  out : ∃ name : ℕ → List String, (∀ m < pn, NameTexts opts m (name m)) ∧
    s.out = s₀.out ++ (List.range pn).flatMap fun m =>
      probeTexts opts m (name m ++ resultTexts (s.tr.probes m))

/-- The state before the first round. -/
theorem ProbesDone.zero {s₀ : State D} (h : s₀.tr.finalProbe = -1) :
    ProbesDone opts net s₀ 0 s₀ :=
  ⟨by simp, .inl ⟨h, nofun⟩, nofun, fun _ => [], nofun, by simp⟩

/-- One round. -/
theorem probeRound_ok {s₀ : State D} (hpn : pn < MAX_TTL * MAX_PROBES)
    (hsend : SendOk (net.probe pn)) (h : ProbesDone opts net s₀ pn s) :
    ∃ s', probeRound opts net pn s = .ok (if s'.tr.finalProbe ≥ 0 ∧ lastOfTtl opts pn then .done s'
        else .yield s') ∧ ProbesDone opts net s₀ (pn + 1) s' := by
  obtain ⟨s₁, b, hprobe, hdone, hterm⟩ := doOneProbe_ok opts hpn hsend s
  have hprev : firstOfTtl opts pn = false → (s.tr.probes (pn - 1)).recvHostname ≠ .null := by
    intro hfirst
    have hpos := pos_of_not_firstOfTtl hfirst
    exact h.hostname (pn - 1) (by omega)
  obtain ⟨name, hprint, hname⟩ := printOneProbe_ok hpn hdone hprev
  simp only [probeRound, hprobe, hprint, bind, Except.bind, pure, Except.pure]
  -- what was sent, the final probe, the names, and what was printed
  refine ⟨_, rfl, ?_, ?_, ?_, ?_⟩
  · have hsent : s₁.sent = _ := hdone.sent
    rw [show (s₁.print _).sent = s₁.sent from rfl, hsent, h.sent, List.range_succ, List.map_append,
      List.append_assoc]
    rfl
  · have hfinal := h.finalProbe.succ hterm
    rwa [← hdone.finalProbe] at hfinal
  · intro m hm
    rcases Nat.lt_succ_iff_lt_or_eq.mp hm with hlt | rfl
    · have hkeep := hdone.probes m (by omega)
      rw [show ((s₁.print _).tr.probes m) = s₁.tr.probes m from rfl, hkeep]
      exact h.hostname m hlt
    · exact hdone.hostname
  · obtain ⟨names, hnames, hout⟩ := h.out
    refine ⟨Function.update names pn name, fun m hm => ?_, ?_⟩
    · rcases Nat.lt_succ_iff_lt_or_eq.mp hm with hlt | rfl
      · rw [Function.update_of_ne (by omega)]
        exact hnames m hlt
      · rw [Function.update_self]
        exact hname
    · -- what was printed before is still about the same probes
      have hbefore : ((List.range pn).flatMap fun m =>
          probeTexts opts m (names m ++ resultTexts (s.tr.probes m))) =
          (List.range pn).flatMap fun m =>
            probeTexts opts m
              (Function.update names pn name m ++ resultTexts (s₁.tr.probes m)) := by
        apply List.flatMap_congr
        intro m hm
        have hne : m ≠ pn := by
          have hlt := List.mem_range.mp hm
          omega
        rw [Function.update_of_ne hne, hdone.probes m hne]
      rw [show (s₁.print _).out = s₁.out ++ _ from rfl, hdone.out, hout, hbefore, List.range_succ,
        List.flatMap_append, List.flatMap_singleton, Function.update_self, List.append_assoc]
      rfl

/-! ## Rows -/

section Rows

variable {q : ℕ}

omit [CDouble D] in
theorem firstOfTtl_eq (hq : opts.probes = q) (pn : ℕ) :
    firstOfTtl opts pn = decide (pn % q = 0) := by
  have hcast : ((pn : ℤ).tmod q) = ((pn % q : ℕ) : ℤ) := (Int.ofNat_tmod pn q).symm
  rw [firstOfTtl, hq, hcast]
  by_cases h : pn % q = 0
  · simp [h]
  · rw [decide_eq_false h, beq_eq_false_iff_ne]
    exact_mod_cast h

omit [CDouble D] in
theorem lastOfTtl_eq (hq : opts.probes = q) (hpos : 0 < q) (pn : ℕ) :
    lastOfTtl opts pn = decide (pn % q = q - 1) := by
  have hcast : ((pn : ℤ).tmod q) = ((pn % q : ℕ) : ℤ) := (Int.ofNat_tmod pn q).symm
  have hpred : (q : ℤ) - 1 = ((q - 1 : ℕ) : ℤ) := by omega
  rw [lastOfTtl, hq, hcast, hpred]
  by_cases h : pn % q = q - 1
  · simp [h]
  · rw [decide_eq_false h, beq_eq_false_iff_ne]
    exact_mod_cast h

omit [CDouble D] in
theorem tracerouteProbe2ttl_eq (hq : opts.probes = q) (pn : ℕ) :
    tracerouteProbe2ttl opts pn = 1 + (pn / q : ℕ) := by
  rw [tracerouteProbe2ttl, hq]
  exact congrArg (1 + ·) (Int.ofNat_tdiv pn q).symm

omit [CDouble D] in
/-- What is printed about whole rows: each has its TTL, an entry for each of its probes, and its
    new line. -/
theorem flatMap_probeTexts (hq : opts.probes = q) (hpos : 0 < q) (entry : ℕ → List String)
    (k : ℕ) :
    ((List.range (k * q)).flatMap fun pn => probeTexts opts pn (entry pn)) =
      (List.range k).flatMap fun r =>
        ttlText (1 + (r : ℕ)) :: (List.range q).flatMap (fun i => entry (r * q + i)) ++ ["\n"] := by
  rw [List.flatMap_range_mul]
  apply List.flatMap_congr
  intro r _
  rw [← List.singleton_append, ← List.flatMap_range_delimited [ttlText (1 + r)] ["\n"] _ hpos]
  apply List.flatMap_congr
  intro i hi
  have hi := List.mem_range.mp hi
  simp only [probeTexts, firstOfTtl_eq hq, lastOfTtl_eq hq hpos, tracerouteProbe2ttl_eq hq,
    Nat.row_mod hi, Nat.row_div hi, decide_eq_true_eq]

/-- Where probing stops: after row `K`, with the final probe `f`.  The row is that of the first
    probe with a terminal answer, or the last one there is. -/
inductive StopsAt (opts : Options D) (net : NetEnv) : (K : ℕ) → (f : ℤ) → Prop
  | terminal {pn : ℕ} : (pn : ℤ) < opts.maxTtl * opts.probes → Terminal opts (net.probe pn) →
      (∀ m < pn, ¬ Terminal opts (net.probe m)) → StopsAt opts net (pn / opts.probes.toNat + 1) pn
  | exhausted : (∀ pn : ℕ, (pn : ℤ) < opts.maxTtl * opts.probes → ¬ Terminal opts (net.probe pn)) →
      StopsAt opts net opts.maxTtl.toNat (-1)

/-- Probing stops somewhere. -/
theorem exists_stopsAt (opts : Options D) (net : NetEnv) : ∃ K f, StopsAt opts net K f := by
  classical
  by_cases h : ∃ pn : ℕ, (pn : ℤ) < opts.maxTtl * opts.probes ∧ Terminal opts (net.probe pn)
  · have hfirst := Nat.find_spec h
    refine ⟨_, _, .terminal hfirst.1 hfirst.2 fun m hm hterm => Nat.find_min h hm ⟨?_, hterm⟩⟩
    exact lt_trans (by exact_mod_cast hm) hfirst.1
  · push Not at h
    exact ⟨_, _, .exhausted h⟩

omit [CDouble D] in
/-- The number of rounds that the loop makes if it is not left early. -/
theorem total_eq (hq : opts.probes = q) :
    (opts.maxTtl * opts.probes).toNat = opts.maxTtl.toNat * q := by
  rw [hq]
  rcases le_total 0 opts.maxTtl with h | h
  · obtain ⟨n, hn⟩ := Int.eq_ofNat_of_zero_le h
    rw [hn, ← Int.natCast_mul]
    rfl
  · have hmul : opts.maxTtl * q ≤ 0 := Int.mul_nonpos_of_nonpos_of_nonneg h (by omega)
    rw [Int.toNat_of_nonpos hmul, Int.toNat_of_nonpos h, Nat.zero_mul]

omit [CDouble D] in
/-- It fits into the array of probes. -/
theorem total_le (hq : opts.probes = q)
    (hbound : opts.maxTtl * opts.probes ≤ MAX_TTL * MAX_PROBES) :
    opts.maxTtl.toNat * q ≤ MAX_TTL * MAX_PROBES := by
  rw [← total_eq hq]
  exact_mod_cast Int.toNat_le.mpr hbound

/-- The rows up to the one where probing stops are among those of the options. -/
theorem StopsAt.le_maxTtl {K : ℕ} {f : ℤ} (hq : opts.probes = q) (hpos : 0 < q)
    (h : StopsAt opts net K f) : K ≤ opts.maxTtl.toNat := by
  cases h with
  | exhausted => exact le_rfl
  | @terminal pn hlt hterm hmin =>
    have hpn : pn < opts.maxTtl.toNat * q := by
      rw [← total_eq hq]
      omega
    have hrow : pn / q < opts.maxTtl.toNat := (Nat.div_lt_iff_lt_mul hpos).mpr hpn
    rw [hq, Int.toNat_natCast]
    exact hrow

/-- The first probe with a terminal answer determines where probing stops. -/
theorem StopsAt.eq_of_first {K : ℕ} {f : ℤ} {m : ℕ} (hq : opts.probes = q)
    (h : StopsAt opts net K f) (hm : m < opts.maxTtl.toNat * q)
    (hterm : Terminal opts (net.probe m)) (hmin : ∀ j < m, ¬ Terminal opts (net.probe j)) :
    K = m / q + 1 ∧ f = m := by
  rw [← total_eq hq] at hm
  cases h with
  | exhausted hnone => exact absurd hterm (hnone m (by omega))
  | @terminal pn _ hterm' hmin' =>
    obtain rfl : pn = m := by
      rcases lt_trichotomy pn m with hlt | heq | hlt
      · exact absurd hterm' (hmin pn hlt)
      · exact heq
      · exact absurd hterm (hmin' m hlt)
    rw [hq, Int.toNat_natCast]
    exact ⟨rfl, rfl⟩

/-- No round is begun after row `K`, since the answers up to there include a terminal one. -/
theorem StopsAt.lt_of_open {K : ℕ} {f : ℤ} {j : ℕ} (hq : opts.probes = q) (hpos : 0 < q)
    (h : StopsAt opts net K f) (hj : j < opts.maxTtl.toNat * q) (hle : j ≤ K * q)
    (hopen : ∀ m < j, Terminal opts (net.probe m) → j / q = m / q) : j < K * q := by
  cases h with
  | exhausted => exact hj
  | @terminal pn _ hterm _ =>
    rw [hq, Int.toNat_natCast] at hle ⊢
    apply lt_of_le_of_ne hle
    intro heq
    have hdiv : j / q = pn / q + 1 := by rw [heq, Nat.mul_div_cancel _ hpos]
    have hlt : pn < j := by
      rw [heq]
      exact Nat.lt_mul_of_div_lt (Nat.lt_succ_self _) hpos
    rw [hopen pn hlt hterm] at hdiv
    omega

/-- A round in which the probe cannot be sent. -/
theorem probeRound_fail (hpn : pn < MAX_TTL * MAX_PROBES) (hsend : ¬ SendOk (net.probe pn))
    (s : State D) : probeRound opts net pn s = .error (.exit 1) := by
  obtain ⟨s₁, hprobe, -, hresult⟩ := doOneProbe_fail opts hpn hsend s
  simp only [probeRound, hprobe, printOneProbe_fail opts hpn hresult, bind, Except.bind]

/-- The loop of `do_traceroute`: it makes the rounds of the rows up to `K`, unless one of their
    probes cannot be sent. -/
theorem probeLoop_outcome {K : ℕ} {f : ℤ} {s₀ : State D} (hq : opts.probes = q) (hpos : 0 < q)
    (hbound : opts.maxTtl.toNat * q ≤ MAX_TTL * MAX_PROBES) (hstop : StopsAt opts net K f)
    (h₀ : s₀.tr.finalProbe = -1) :
    Outcome (fun _ => ∃ pn < K * q, ¬ SendOk (net.probe pn))
      (fun s => ProbesDone opts net s₀ (K * q) s ∧ s.tr.finalProbe = f)
      (forLoop (probeRound opts net) (opts.maxTtl * opts.probes).toNat 0 s₀) := by
  have hK := Nat.mul_le_mul_right q (hstop.le_maxTtl hq hpos)
  rw [total_eq hq]
  -- in every round, all terminal answers so far are in the row of that round
  refine forLoop_outcome (I := fun pn s => ProbesDone opts net s₀ pn s ∧ pn ≤ K * q ∧
    ∀ m < pn, Terminal opts (net.probe m) → pn / q = m / q) ?_ ?_
    ⟨.zero h₀, Nat.zero_le _, nofun⟩
  · rintro j s - hj ⟨hdone, hle, hopen⟩
    rw [Nat.zero_add] at hj
    have hjK := hstop.lt_of_open hq hpos hj hle hopen
    by_cases hsend : SendOk (net.probe j)
    case neg =>
      rw [probeRound_fail (by omega) hsend]
      exact .error ⟨j, hjK, hsend⟩
    obtain ⟨s', hround, hdone'⟩ := probeRound_ok (by omega) hsend hdone
    have hrow : ∀ m < j + 1, Terminal opts (net.probe m) → j / q = m / q := by
      intro m hm hterm
      rcases Nat.lt_succ_iff_lt_or_eq.mp hm with hlt | rfl
      · exact hopen m hlt hterm
      · rfl
    simp only [lastOfTtl_eq hq hpos, decide_eq_true_eq] at hround
    by_cases hlast : s'.tr.finalProbe ≥ 0 ∧ j % q = q - 1
    · -- the row is complete and has a terminal answer
      rw [if_pos hlast] at hround
      rw [hround]
      refine .ok (.done ?_)
      rcases hdone'.finalProbe with ⟨hneg, -⟩ | ⟨m, hm, hfinal, hterm, hmin⟩
      · omega
      · obtain ⟨rfl, rfl⟩ := hstop.eq_of_first hq (by omega) hterm hmin
        have hend : j + 1 = (m / q + 1) * q := by
          have hdiv := Nat.div_add_mod j q
          rw [← hrow m hm hterm, Nat.succ_mul, Nat.mul_comm]
          omega
        rw [← hend]
        exact ⟨hdone', hfinal⟩
    · rw [if_neg hlast] at hround
      rw [hround]
      refine .ok (.yield ⟨hdone', hjK, fun m hm hterm => ?_⟩)
      -- there is a terminal answer, so the row goes on
      have hmod : j % q ≠ q - 1 := by
        intro hmod
        rcases hdone'.finalProbe with ⟨-, hnone⟩ | ⟨m', -, hfinal, -⟩
        · exact hnone m hm hterm
        · exact hlast ⟨by omega, hmod⟩
      have hlt : j % q + 1 < q := Nat.add_lt_of_lt_sub
        (Nat.lt_of_le_of_ne (Nat.le_sub_one_of_lt (Nat.mod_lt j hpos)) hmod)
      rw [Nat.succ_div_row hlt]
      exact hrow m hm hterm
  · rintro s ⟨hdone, hle, hopen⟩
    rw [Nat.zero_add] at hdone hle hopen
    obtain hend : opts.maxTtl.toNat * q = K * q := by omega
    rw [hend] at hdone
    refine ⟨hdone, ?_⟩
    rcases hdone.finalProbe with ⟨hfinal, hnone⟩ | ⟨m, hm, hfinal, hterm, hmin⟩
    · rw [hfinal]
      cases hstop with
      | exhausted => rfl
      | @terminal pn hlt hterm _ =>
        refine absurd hterm (hnone pn ?_)
        rw [← hend, ← total_eq hq]
        omega
    · -- a terminal answer would be in a row after the last one
      have hrow := hopen m (by omega) hterm
      have hlt : m / q < opts.maxTtl.toNat := (Nat.div_lt_iff_lt_mul hpos).mpr (by omega)
      rw [Nat.mul_div_cancel _ hpos] at hrow
      omega

/-- The loop of `do_traceroute` when all these probes can be sent. -/
theorem probeLoop_ok {K : ℕ} {f : ℤ} {s₀ : State D} (hq : opts.probes = q) (hpos : 0 < q)
    (hbound : opts.maxTtl.toNat * q ≤ MAX_TTL * MAX_PROBES) (hstop : StopsAt opts net K f)
    (hsend : ∀ pn < K * q, SendOk (net.probe pn)) (h₀ : s₀.tr.finalProbe = -1) :
    ∃ s, forLoop (probeRound opts net) (opts.maxTtl * opts.probes).toNat 0 s₀ = .ok s ∧
      ProbesDone opts net s₀ (K * q) s ∧ s.tr.finalProbe = f := by
  have hloop := probeLoop_outcome hq hpos hbound hstop h₀
  generalize forLoop (probeRound opts net) _ 0 s₀ = x at hloop ⊢
  cases hloop with
  | error hfail =>
    obtain ⟨pn, hpn, hnot⟩ := hfail
    exact absurd (hsend pn hpn) hnot
  | ok h => exact ⟨_, rfl, h⟩

/-! ## Initialisation and clean-up -/

omit [CDouble D] in
theorem initRound_ok (hpn : pn < MAX_TTL * MAX_PROBES) (s : State D) :
    initRound pn s = .ok (.yield (s.setProbe pn { s.tr.probes pn with socket := -1 })) := by
  simp only [initRound, State.update_ok hpn]
  rfl

/-- `traceroute_init` when the target has been resolved. -/
theorem tracerouteInit_ok (opts : Options D) {res : List SockAddr}
    (hbound : (opts.maxTtl * opts.probes).toNat ≤ MAX_TTL * MAX_PROBES)
    (hres : net.getaddrinfo = some res) (s : State D) :
    ∃ s', tracerouteInit opts net s = .ok (0, s') ∧ s'.out = s.out ∧ s'.sent = s.sent ∧
      s'.tr.finalProbe = -1 := by
  have hlen : (res.any fun a => a.family == AF_INET && a.len > SockAddr.len (.inet6 0 0)) =
      false := by
    rw [List.any_eq_false]
    intro a _
    cases a <;> simp [SockAddr.len]
  simp only [tracerouteInit, hres, hlen, Bool.false_eq_true, if_false, bind, Except.bind, pure,
    Except.pure]
  -- the loop marks sockets as unused
  generalize hs₁ : ({ s with tr := _ } : State D) = s₁
  have h₁ : s₁.out = s.out ∧ s₁.sent = s.sent ∧ s₁.tr.finalProbe = -1 := by
    rw [← hs₁]
    exact ⟨rfl, rfl, rfl⟩
  have hround : ∀ pn (t : State D), 0 ≤ pn → pn < 0 + (opts.maxTtl * opts.probes).toNat →
      (t.out = s.out ∧ t.sent = s.sent ∧ t.tr.finalProbe = -1) →
      ∃ t', initRound pn t = .ok (.yield t') ∧
        t'.out = s.out ∧ t'.sent = s.sent ∧ t'.tr.finalProbe = -1 := by
    intro pn t _ hpn ht
    exact ⟨_, initRound_ok (by omega) t, ht⟩
  obtain ⟨s', hloop, h'⟩ := forLoop_rule_of_yield hround h₁
  rw [hloop]
  exact ⟨s', rfl, h'⟩

/-- From `s` to `s'` nothing has been printed or sent, and the results of the probes are the
    same. -/
structure Freed (s s' : State D) : Prop where
  out : s'.out = s.out
  sent : s'.sent = s.sent
  finalProbe : s'.tr.finalProbe = s.tr.finalProbe
  results : ∀ m, resultTexts (s'.tr.probes m) = resultTexts (s.tr.probes m)

theorem Freed.refl (s : State D) : Freed s s := ⟨rfl, rfl, rfl, fun _ => rfl⟩

theorem Freed.trans (h : Freed s s') (h' : Freed s' s'') : Freed s s'' :=
  ⟨h'.out.trans h.out, h'.sent.trans h.sent, h'.finalProbe.trans h.finalProbe,
    fun m => (h'.results m).trans (h.results m)⟩

/-- Passing a pointer to `free`. -/
theorem Freed.free (s : State D) (p : Ptr) : Freed s (s.emit (.free p)) := by
  have h := Quiet.emit (e := .free p) 0 s nofun
  exact ⟨h.out, h.sent, h.finalProbe, fun _ => rfl⟩

/-- Dropping a host name. -/
theorem Freed.dropHostname (s : State D) (pn : ℕ) :
    Freed s (s.setProbe pn { s.tr.probes pn with recvHostname := .null }) := by
  refine ⟨rfl, rfl, rfl, fun m => ?_⟩
  by_cases hm : m = pn
  · subst hm
    rw [State.setProbe_probes_self]
    rfl
  · rw [s.setProbe_probes_of_ne hm]

omit [CDouble D] in
/-- The inner loop of `traceroute_free_mem_probe` stays in the row, and finds out whether another
    probe of the row has the same name. -/
theorem hostnameShared_ok (hq : opts.probes = q) (hpos : 0 < q)
    (hrow : (pn / q + 1) * q ≤ MAX_TTL * MAX_PROBES) (s : State D) :
    ∃ b, hostnameShared opts pn s = .ok b ∧ (b = true ↔ ∃ m ≠ pn, m / q = pn / q ∧
      (s.tr.probes m).recvHostname = (s.tr.probes pn).recvHostname) := by
  have hpn : pn < MAX_TTL * MAX_PROBES := by
    have hlt := Nat.lt_div_mul_add hpos (a := pn)
    rw [Nat.succ_mul] at hrow
    omega
  have hcast : (pn : ℤ).tdiv q * q = ((pn / q * q : ℕ) : ℤ) := by
    rw [Int.natCast_mul]
    rfl
  simp only [hostnameShared, State.probe_ok hpn, hq, hcast, Int.toNat_natCast, bind, Except.bind]
  generalize (s.tr.probes pn).recvHostname = name
  -- the scan runs over the `q` probes of the row, from its first one
  refine forLoop_rule (I := fun i b => b = false ∧ ∀ j < i, pn / q * q + j ≠ pn →
    (s.tr.probes (pn / q * q + j)).recvHostname ≠ name) ?_ ?_ ⟨rfl, nofun⟩
  · rintro i shared - hi ⟨rfl, hnone⟩
    have hidx : pn / q * q + i < MAX_TTL * MAX_PROBES := by
      rw [Nat.succ_mul] at hrow
      omega
    rw [← Int.natCast_add, sharedRound, State.probe_ok hidx]
    by_cases hself : pn / q * q + i = pn
    · rw [if_pos (congrArg _ hself)]
      refine .inl ⟨false, rfl, rfl, fun j hj hne => ?_⟩
      rcases Nat.lt_succ_iff_lt_or_eq.mp hj with hlt | rfl
      · exact hnone j hlt hne
      · exact absurd hself hne
    · have hself' : ((pn / q * q + i : ℕ) : ℤ) ≠ pn := by exact_mod_cast hself
      rw [if_neg hself']
      by_cases hname : (s.tr.probes (pn / q * q + i)).recvHostname = name
      · refine .inr ⟨true, by simp only [bind, Except.bind, if_pos hname]; rfl, ?_⟩
        refine iff_of_true rfl ⟨_, hself, ?_, hname⟩
        exact Nat.row_div (by omega)
      · refine .inl ⟨false, by simp only [bind, Except.bind, if_neg hname]; rfl, rfl,
          fun j hj hne => ?_⟩
        rcases Nat.lt_succ_iff_lt_or_eq.mp hj with hlt | rfl
        · exact hnone j hlt hne
        · exact hname
  · rintro shared ⟨rfl, hnone⟩
    refine iff_of_false nofun ?_
    rintro ⟨m, hm, hsame, heq⟩
    -- `m` is in the row
    have hmod := Nat.mod_lt m hpos
    have hdiv : pn / q * q + m % q = m := by
      rw [← hsame]
      exact Nat.div_add_mod' m q
    exact hnone (m % q) (by omega) (by rw [hdiv]; exact hm) (by rw [hdiv]; exact heq)

/-- `traceroute_free_mem_probe`. -/
theorem tracerouteFreeMemProbe_ok (hq : opts.probes = q) (hpos : 0 < q)
    (hrow : (pn / q + 1) * q ≤ MAX_TTL * MAX_PROBES) (s : State D) :
    ∃ s', tracerouteFreeMemProbe opts pn s = .ok s' ∧ Freed s s' := by
  have hpn : pn < MAX_TTL * MAX_PROBES := by
    have hlt := Nat.lt_div_mul_add hpos (a := pn)
    rw [Nat.succ_mul] at hrow
    omega
  simp only [tracerouteFreeMemProbe, State.probe_ok hpn, bind, Except.bind, pure, Except.pure]
  have hdata := Freed.free s (s.tr.probes pn).data
  split
  · obtain ⟨b, hshared, -⟩ := hostnameShared_ok hq hpos hrow (s.emit (.free (s.tr.probes pn).data))
    simp only [hshared, State.update_ok hpn]
    cases b with
    | true => exact ⟨_, rfl, hdata.trans (.dropHostname ..)⟩
    | false => exact ⟨_, rfl, hdata.trans ((Freed.free _ _).trans (.dropHostname ..))⟩
  · exact ⟨_, rfl, hdata⟩

/-- The clean-up loop of `do_traceroute`. -/
theorem freeLoop_ok {n : ℕ} (hq : opts.probes = q) (hpos : 0 < q)
    (hrow : ∀ pn < n, (pn / q + 1) * q ≤ MAX_TTL * MAX_PROBES) (s : State D) :
    ∃ s', forLoop (freeRound opts) n 0 s = .ok s' ∧ Freed s s' := by
  refine forLoop_rule_of_yield (I := fun _ t => Freed s t) (fun pn t _ hpn ht => ?_) (.refl s)
  obtain ⟨s', hfree, hfreed⟩ := tracerouteFreeMemProbe_ok hq hpos (hrow pn (by omega)) t
  refine ⟨s', ?_, ht.trans hfreed⟩
  rw [freeRound, hfree]
  rfl

end Rows

/-! ## The driver -/

/-- A run that stops after row `K`. -/
theorem doTraceroute_of_stopsAt (opts : Options D) (hprobes : 1 ≤ opts.probes ∧ opts.probes ≤ 10)
    (hmax : opts.maxTtl ≤ 255) (target : String) {res : List SockAddr}
    (hres : net.getaddrinfo = some res) {K : ℕ} {f : ℤ} (hstop : StopsAt opts net K f)
    (hsend : ∀ pn < K * opts.probes.toNat, SendOk (net.probe pn)) :
    ∃ s, doTraceroute opts target net = .ok (0, s) ∧
      s.sent = ((List.range (K * opts.probes.toNat)).map fun pn =>
        (pn, 1 + ((pn / opts.probes.toNat : ℕ) : ℤ))) ∧
      (∃ resolved, ∃ name : ℕ → List String,
        (∀ pn < K * opts.probes.toNat, NameTexts opts pn (name pn)) ∧
        s.out = headerTexts opts target resolved ++ (List.range K).flatMap fun r =>
          ttlText (1 + (r : ℕ)) :: (List.range opts.probes.toNat).flatMap (fun i =>
            name (r * opts.probes.toNat + i) ++
              resultTexts (s.tr.probes (r * opts.probes.toNat + i))) ++ ["\n"]) ∧
      s.tr.finalProbe = f := by
  generalize hq' : opts.probes.toNat = q at hsend ⊢
  have hq : opts.probes = q := by omega
  have hpos : 0 < q := by omega
  have hbound : opts.maxTtl.toNat * q ≤ MAX_TTL * MAX_PROBES :=
    Nat.mul_le_mul (show opts.maxTtl.toNat ≤ 255 by omega) (show q ≤ 10 by omega)
  -- the initialisation
  obtain ⟨s₀, hinit, hout₀, hsent₀, hfinal₀⟩ := tracerouteInit_ok opts
    (by rw [total_eq hq]; exact hbound) hres State.initial
  obtain ⟨hquiet, hresolved, -⟩ :=
    addr2str_ok 0 net.getnameinfo s₀.tr.destAddr A2S_NORESOLVE s₀
  generalize hr : addr2str net.getnameinfo s₀.tr.destAddr A2S_NORESOLVE s₀ = r at hquiet hresolved
  obtain ⟨resolved, s₁⟩ := r
  obtain ⟨resolvedStr, hderef⟩ := deref_ok s₁ hresolved
  -- the probes
  have hfinal₁ : (s₁.print (headerTexts opts target resolvedStr)).tr.finalProbe = -1 :=
    hquiet.finalProbe.trans hfinal₀
  obtain ⟨s₂, hloop, hdone, hfinal⟩ := probeLoop_ok hq hpos hbound hstop hsend hfinal₁
  -- the clean-up
  generalize hs₃ : (if resolved ≠ .hostUnknown ∧ resolved ≠ .hostUnknownBadAF then
    s₂.emit (.free resolved) else s₂) = s₃
  have hfreed₃ : Freed s₂ s₃ := by
    rw [← hs₃]
    split
    · exact .free s₂ resolved
    · exact .refl s₂
  have hrows : ∀ pn < (s₃.tr.finalProbe + 1).toNat, (pn / q + 1) * q ≤ MAX_TTL * MAX_PROBES := by
    intro pn hpn
    rw [hfreed₃.finalProbe] at hpn
    rcases hdone.finalProbe with ⟨hneg, -⟩ | ⟨m, hm, hfm, -⟩
    · omega
    · have hlt : pn / q < K := (Nat.div_lt_iff_lt_mul hpos).mpr (by omega)
      exact (Nat.mul_le_mul_right q hlt).trans
        ((Nat.mul_le_mul_right q (hstop.le_maxTtl hq hpos)).trans hbound)
  obtain ⟨s, hfree, hfreed⟩ := freeLoop_ok hq hpos hrows s₃
  have hall := hfreed₃.trans hfreed
  refine ⟨s, ?_, ?_, ⟨resolvedStr, ?_⟩, ?_⟩
  · simp only [doTraceroute, hinit, hr, hderef, hloop, hs₃, hfree, bind, Except.bind, pure,
      Except.pure, ne_eq, not_true_eq_false, if_false]
  · have hsent₁ : (s₁.print (headerTexts opts target resolvedStr)).sent = [] :=
      (hquiet.sent.trans hsent₀)
    rw [hall.sent, hdone.sent, hsent₁, List.nil_append]
    exact List.map_congr_left fun pn _ => by rw [tracerouteProbe2ttl_eq hq]
  · obtain ⟨name, hname, hout⟩ := hdone.out
    have hout₁ : (s₁.print (headerTexts opts target resolvedStr)).out =
        headerTexts opts target resolvedStr := by
      rw [State.print, hquiet.out, hout₀]
      rfl
    refine ⟨name, hname, ?_⟩
    rw [hall.out, hout, hout₁, flatMap_probeTexts hq hpos]
    simp only [hall.results]
  · rw [hall.finalProbe, hfinal]

/-! ## Main result -/

/-- For every option setting with 1 to 10 probes per TTL and a largest TTL of at most 255, and every
    behaviour of the network in which the target is known and no probe fails to be sent: the probes
    sent are those of the rows up to the first one with a terminal answer (up to `max_ttl` if there
    is none), in order and each with the TTL of its row; for each of these rows the TTL, the result
    of each of its probes and a new line are printed; and the final probe is the first one with a
    terminal answer. -/
theorem doTraceroute_probes (opts : Options D) (hprobes : 1 ≤ opts.probes ∧ opts.probes ≤ 10)
    (hmax : opts.maxTtl ≤ 255) (target : String) (net : NetEnv) (res : List SockAddr)
    (hres : net.getaddrinfo = some res) :
    ∃ K f, StopsAt opts net K f ∧
      ((∀ pn < K * opts.probes.toNat, SendOk (net.probe pn)) →
      ∃ s, doTraceroute opts target net = .ok (0, s) ∧
        s.sent = ((List.range (K * opts.probes.toNat)).map fun pn =>
          (pn, 1 + ((pn / opts.probes.toNat : ℕ) : ℤ))) ∧
        (∃ resolved, ∃ name : ℕ → List String,
          (∀ pn < K * opts.probes.toNat, NameTexts opts pn (name pn)) ∧
          s.out = headerTexts opts target resolved ++ (List.range K).flatMap fun r =>
            ttlText (1 + (r : ℕ)) :: (List.range opts.probes.toNat).flatMap (fun i =>
              name (r * opts.probes.toNat + i) ++
                resultTexts (s.tr.probes (r * opts.probes.toNat + i))) ++ ["\n"]) ∧
        s.tr.finalProbe = f) := by
  obtain ⟨K, f, hstop⟩ := exists_stopsAt opts net
  exact ⟨K, f, hstop, doTraceroute_of_stopsAt opts hprobes hmax target hres hstop⟩

/-- Whole numbers as `double`s, for times in whole seconds. -/
@[reducible] def wholeDouble : CDouble ℤ where
  ofInt := id
  toInt := id
  isZero n := n == 0
  fixed3 n := toString n ++ ".000"

/-- A network in which the first probe expires at a router and all others are answered. -/
def oneRouter : NetEnv where
  getaddrinfo := some [.inet 1 0]
  getnameinfo _ _ := "0.0.0.1"
  probe pn := {
    socket := 3, bind := true, setTtl := true, connect := true, setRecverr := true
    sendTime := ⟨0, 0⟩
    send := true
    attempts := [⟨⟨1, 0⟩, .ready true (pn == 0) (some ⟨.inet 1 53,
      if pn = 0 then [.recverr ⟨SO_EE_ORIGIN_ICMP, 11, 0, 0, .inet 2 0⟩] else []⟩)⟩]
    cmsgTime := ⟨2, 0⟩
    getnameinfo := fun _ _ => "0.0.0.1" }

/-- The first probe gets as far as the router. -/
theorem oneRouter_first : ∀ j < 1, ¬ @Terminal ℤ wholeDouble
    ⟨AF_INET, 2, 1, 3, true, true, 33434, 5, 40⟩ (oneRouter.probe j) := by
  rintro j hj ⟨pollerr, msg, hloop, hfinal⟩
  obtain rfl : j = 0 := by omega
  cases hloop
  rcases hfinal with hpollerr | ⟨c, hc, hc'⟩
  · cases hpollerr
  · obtain rfl : c = _ := List.mem_singleton.mp hc
    cases hc'

/-- Two probes per TTL: the second one is final, and the first row is the last one. -/
theorem doTraceroute_probes_oneRouter :
    ∃ s, @doTraceroute ℤ wholeDouble ⟨AF_INET, 2, 1, 3, true, true, 33434, 5, 40⟩ "target"
        oneRouter = .ok (0, s) ∧
      s.sent = [(0, 1), (1, 1)] ∧ s.tr.finalProbe = 1 := by
  let _ : CDouble ℤ := wholeDouble
  obtain ⟨K, f, hstop, h⟩ := doTraceroute_probes (D := ℤ)
    ⟨AF_INET, 2, 1, 3, true, true, 33434, 5, 40⟩ ⟨by decide, by decide⟩ (by decide) "target"
    oneRouter _ rfl
  obtain ⟨rfl, rfl⟩ :=
    hstop.eq_of_first (q := 2) rfl (by decide) ⟨false, _, rfl, .inl rfl⟩ oneRouter_first
  obtain ⟨s, hs, hsent, -, hfinal⟩ :=
    h fun pn _ => ⟨Int.le_of_lt (by decide : (0 : ℤ) < 3), rfl, rfl, rfl, rfl, rfl⟩
  exact ⟨s, hs, hsent, hfinal⟩

end SuccessiveTraceroute
