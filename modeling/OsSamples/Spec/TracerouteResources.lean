import OsSamples.Spec.SuccessiveTraceroute

/-!
# The resources of a probe

What `do_one_probe` does to the sockets and the heap, on each of its paths, whatever the system
calls return.

## Key results

- `tracerouteSend_sent`: the paths of `traceroute_send`
- `tracerouteReceive_failed`, `tracerouteReceive_answered`: those of `traceroute_receive`
- `doOneProbe_probed`: those of `do_one_probe`
- `doOneProbe_sockets`: the socket of a probe is closed exactly once
-/

namespace SuccessiveTraceroute

open Traceroute

variable {D : Type} {opts : Options D} {pn : ℕ} {s s' s'' : State D} {env : ProbeEnv}

/-! ## What a step leaves as it is -/

/-- The fields of a probe that hold resources, and its result. -/
def ownFields (p : ProbeInfo D) : ProbeResult × Ptr × ℤ × Ptr :=
  (p.probeResult, p.recvHostname, p.socket, p.data)

/-- From `s` to `s'` no resource has been obtained or given back, and no other probe than `pn` has
    changed. -/
structure Silent (pn : ℕ) (s s' : State D) : Prop where
  heap : s'.heap = s.heap
  next : s'.next = s.next
  log : s'.log = s.log
  probes : ∀ m, m ≠ pn → s'.tr.probes m = s.tr.probes m
  own : ownFields (s'.tr.probes pn) = ownFields (s.tr.probes pn)

theorem Silent.refl (pn : ℕ) (s : State D) : Silent pn s s := ⟨rfl, rfl, rfl, fun _ _ => rfl, rfl⟩

theorem Silent.trans (h : Silent pn s s') (h' : Silent pn s' s'') : Silent pn s s'' :=
  ⟨h'.heap.trans h.heap, h'.next.trans h.next, h'.log.trans h.log,
    fun m hm => (h'.probes m hm).trans (h.probes m hm), h'.own.trans h.own⟩

/-- Writing other fields of the probe. -/
theorem Silent.setProbe (s : State D) {p : ProbeInfo D}
    (hp : ownFields p = ownFields (s.tr.probes pn)) : Silent pn s (s.setProbe pn p) := by
  refine ⟨rfl, rfl, rfl, fun m hm => s.setProbe_probes_of_ne hm p, ?_⟩
  rw [State.setProbe_probes_self, hp]

theorem Silent.setFinalProbe (pn : ℕ) (s : State D) : Silent pn s (setFinalProbe pn s) := by
  unfold SuccessiveTraceroute.setFinalProbe
  split <;> exact ⟨rfl, rfl, rfl, fun _ _ => rfl, rfl⟩

theorem setFinalProbe_probes (m : ℕ) (s : State D) :
    (setFinalProbe m s).tr.probes = s.tr.probes := by
  unfold setFinalProbe
  split <;> rfl

/-! ## Host names -/

/-- The text that `addr2str` makes of an address; none if it has no family. -/
def addr2strText (getnameinfo : SockAddr → Bool → String) (sa : SockAddr) (how : ℕ) :
    Option String :=
  if sa.family = AF_UNSPEC then none
  else
    let ipstr := getnameinfo sa true
    if how = A2S_NORESOLVE then some ipstr
    else
      let nameip := getnameinfo sa false
      if how = A2S_RESOLVE_H then some nameip
      else if ipstr ≠ nameip then some (nameip ++ " (" ++ ipstr ++ ")")
      else some nameip

/-- `addr2str` puts the text into a new block. -/
theorem addr2str_eq (getnameinfo : SockAddr → Bool → String) (sa : SockAddr) (how : ℕ)
    (s : State D) :
    addr2str getnameinfo sa how s =
      match addr2strText getnameinfo sa how with
      | none => (.hostUnknownBadAF, s)
      | some str => s.alloc str := by
  simp only [addr2str, addr2strText]
  split_ifs <;> rfl

/-- How the addresses of the probes are resolved. -/
def probeHow (opts : Options D) : ℕ := if opts.noresolve then A2S_NORESOLVE else A2S_RESOLVE_HIP

/-- Where the name of an answered probe comes from, and what has been allocated for it: the first
    free block before was `next`. -/
inductive Named (opts : Options D) (pn : ℕ) (env : ProbeEnv) (next : ℕ) (s s' : State D) :
    List Event → Prop
  | resolved : (s'.tr.probes pn).recvHostname = .block next →
      addr2strText env.getnameinfo (s'.tr.probes pn).recvAddr (probeHow opts) =
        some (s'.heap next) → Named opts pn env next s s' [.alloc next]
  | badAF : addr2strText env.getnameinfo (s'.tr.probes pn).recvAddr (probeHow opts) = none →
      (s'.tr.probes pn).recvHostname = .hostUnknownBadAF → Named opts pn env next s s' []
  | taken : firstOfTtl opts pn = false →
      sameIpaddr (s.tr.probes (pn - 1)).recvAddr (s'.tr.probes pn).recvAddr = true →
      (s.tr.probes (pn - 1)).recvHostname ≠ .null →
      (s'.tr.probes pn).recvHostname = (s.tr.probes (pn - 1)).recvHostname →
      Named opts pn env next s s' []

/-- From `s` to `s'` only the name of the probe `pn` has changed, and the blocks of the events have
    been obtained. -/
structure NameStep (pn : ℕ) (events : List Event) (s s' : State D) : Prop where
  heap : ∀ id < s.next, s'.heap id = s.heap id
  next : s'.next = s.next + events.length
  log : s'.log = s.log ++ events
  probes : ∀ m, m ≠ pn → s'.tr.probes m = s.tr.probes m
  own : ∃ name, s'.tr.probes pn = { s.tr.probes pn with recvHostname := name }

/-- Writing the name. -/
theorem NameStep.setHostname {events : List Event} (h : NameStep pn events s s') (name : Ptr) :
    NameStep pn events s (s'.setProbe pn { s'.tr.probes pn with recvHostname := name }) := by
  obtain ⟨name', hown⟩ := h.own
  refine ⟨h.heap, h.next, h.log, fun m hm => ?_, name, ?_⟩
  · rw [State.setProbe_probes_of_ne _ hm]
    exact h.probes m hm
  · rw [State.setProbe_probes_self, hown]

theorem NameStep.refl (pn : ℕ) (s : State D) : NameStep pn [] s s :=
  ⟨fun _ _ => rfl, rfl, (List.append_nil _).symm, fun _ _ => rfl, _, rfl⟩

theorem NameStep.alloc (pn : ℕ) (s : State D) (str : String) :
    NameStep pn [.alloc s.next] s (s.alloc str).2 := by
  refine ⟨fun id hid => if_neg ?_, rfl, rfl, fun _ _ => rfl, _, rfl⟩
  omega

/-- The name of an answered probe. -/
theorem setHostname_named (opts : Options D) (hpn : pn < MAX_TTL * MAX_PROBES) (env : ProbeEnv)
    (s : State D) :
    ∃ s' events, setHostname opts pn env s = .ok s' ∧ NameStep pn events s s' ∧
      Named opts pn env s.next s s' events := by
  obtain ⟨b, hb, hprev⟩ := mustResolve_ok opts hpn s
  simp only [setHostname, hb, State.probe_ok hpn, addr2str_eq, bind, Except.bind]
  rw [← probeHow]
  cases b with
  | true =>
    simp only [if_true]
    cases htext : addr2strText env.getnameinfo (s.tr.probes pn).recvAddr (probeHow opts) with
    | none =>
      simp only [State.update_ok hpn]
      refine ⟨_, _, rfl, (NameStep.refl pn s).setHostname _, .badAF ?_ ?_⟩
      · rw [State.setProbe_probes_self]
        exact htext
      · rw [State.setProbe_probes_self]
    | some str =>
      simp only [State.update_ok hpn]
      refine ⟨_, _, rfl, (NameStep.alloc pn s str).setHostname _, .resolved ?_ ?_⟩
      · rw [State.setProbe_probes_self]
        rfl
      · rw [State.setProbe_probes_self]
        show addr2strText env.getnameinfo (s.tr.probes pn).recvAddr (probeHow opts) =
          some (if s.next = s.next then str else s.heap s.next)
        rw [htext, if_pos rfl]
  | false =>
    obtain ⟨hpos, hname⟩ := hprev rfl
    have hpred : ((s.setProbe pn { s.tr.probes pn with
        recvHostname := (s.tr.probes (pn - 1)).recvHostname }).tr.probes pn).recvAddr =
          (s.tr.probes pn).recvAddr := by rw [State.setProbe_probes_self]
    simp only [State.update_ok hpn, probe_pred_ok hpn hpos, Bool.false_eq_true, if_false]
    -- the condition under which nothing must be resolved
    have hsame : firstOfTtl opts pn = false ∧
        sameIpaddr (s.tr.probes (pn - 1)).recvAddr (s.tr.probes pn).recvAddr = true := by
      unfold mustResolve at hb
      simp only [probe_pred_ok hpn hpos, State.probe_ok hpn, bind, Except.bind, pure, Except.pure]
        at hb
      split at hb
      · cases hb
      · rename_i hfirst
        have hor := Except.ok.inj hb
        simp only [Bool.or_eq_false_iff, Bool.not_eq_false'] at hor
        exact ⟨Bool.not_eq_true _ ▸ hfirst, hor.1⟩
    refine ⟨_, _, rfl, (NameStep.refl pn s).setHostname _, .taken hsame.1 ?_ hname ?_⟩
    · rw [hpred]
      exact hsame.2
    · rw [State.setProbe_probes_self]

/-! ## Steps -/

/-- From `s` to `s'` the probe `pn` has got its socket, and `blocks` blocks have been obtained, the
    last one for its data; the events have been added to the log, and nothing else has happened to
    the resources or to other probes. -/
structure SendStep (pn : ℕ) (socket : ℤ) (events : List Event) (blocks : ℕ) (s s' : State D) :
    Prop where
  heap : ∀ id < s.next, s'.heap id = s.heap id
  next : s'.next = s.next + blocks
  log : s'.log = s.log ++ events
  probes : ∀ m, m ≠ pn → s'.tr.probes m = s.tr.probes m
  result : (s'.tr.probes pn).probeResult = (s.tr.probes pn).probeResult
  recvAddr : (s'.tr.probes pn).recvAddr = (s.tr.probes pn).recvAddr
  hostname : (s'.tr.probes pn).recvHostname = (s.tr.probes pn).recvHostname
  socket : (s'.tr.probes pn).socket = socket
  data : (s'.tr.probes pn).data = if blocks = 0 then (s.tr.probes pn).data else .block s.next

section SendStep

variable {fd : ℤ} {events : List Event} {blocks : ℕ}

/-- The new socket. -/
theorem SendStep.start (s : State D) (pn : ℕ) (fd : ℤ) :
    SendStep pn fd [] 0 s (s.setProbe pn { s.tr.probes pn with socket := fd }) := by
  refine ⟨fun _ _ => rfl, rfl, (List.append_nil _).symm,
    fun m hm => s.setProbe_probes_of_ne hm _, ?_, ?_, ?_, ?_, ?_⟩ <;>
    rw [State.setProbe_probes_self]
  rfl

/-- An event. -/
theorem SendStep.emit (h : SendStep pn fd events blocks s s') (e : Event) :
    SendStep pn fd (events ++ [e]) blocks s (s'.emit e) := by
  refine ⟨h.heap, h.next, ?_, h.probes, h.result, h.recvAddr, h.hostname, h.socket, h.data⟩
  rw [State.emit, h.log, List.append_assoc]

/-- Writing the port. -/
theorem SendStep.setPort (h : SendStep pn fd events blocks s s') {p : ProbeInfo D}
    (hown : ownFields p = ownFields (s'.tr.probes pn))
    (haddr : p.recvAddr = (s'.tr.probes pn).recvAddr) :
    SendStep pn fd events blocks s (s'.setProbe pn p) := by
  simp only [ownFields, Prod.mk.injEq] at hown
  refine ⟨h.heap, h.next, h.log, fun m hm => ?_, ?_, ?_, ?_, ?_, ?_⟩
  · rw [State.setProbe_probes_of_ne _ hm]
    exact h.probes m hm
  · rw [State.setProbe_probes_self, hown.1, h.result]
  · rw [State.setProbe_probes_self, haddr, h.recvAddr]
  · rw [State.setProbe_probes_self, hown.2.1, h.hostname]
  · rw [State.setProbe_probes_self, hown.2.2.1, h.socket]
  · rw [State.setProbe_probes_self, hown.2.2.2, h.data]

/-- The block for the data. -/
theorem SendStep.alloc (h : SendStep pn fd events 0 s s') {p : ProbeInfo D}
    (hown : ownFields p = ownFields { s'.tr.probes pn with data := .block s'.next })
    (haddr : p.recvAddr = (s'.tr.probes pn).recvAddr) :
    SendStep pn fd (events ++ [.alloc s.next]) 1 s ((s'.alloc "").2.setProbe pn p) := by
  have hnext : s'.next = s.next := h.next
  simp only [ownFields, Prod.mk.injEq] at hown
  refine ⟨fun id hid => ?_, ?_, ?_, fun m hm => ?_, ?_, ?_, ?_, ?_, ?_⟩
  · show (if id = s'.next then "" else s'.heap id) = s.heap id
    rw [if_neg (by omega), h.heap id hid]
  · show s'.next + 1 = s.next + 1
    rw [hnext]
  · show s'.log ++ [.alloc s'.next] = s.log ++ (events ++ [.alloc s.next])
    rw [h.log, hnext, List.append_assoc]
  · rw [State.setProbe_probes_of_ne _ hm]
    exact h.probes m hm
  · rw [State.setProbe_probes_self, hown.1, h.result]
  · rw [State.setProbe_probes_self, haddr, h.recvAddr]
  · rw [State.setProbe_probes_self, hown.2.1, h.hostname]
  · rw [State.setProbe_probes_self, hown.2.2.1, h.socket]
  · rw [State.setProbe_probes_self, hown.2.2.2, hnext]
    rfl

end SendStep

/-- From `s` to `s'` the events have been added to the log, nothing else has happened to the
    resources, no other probe than `pn` has changed, and the result and the pointers of `pn` are the
    same. -/
structure Logged (pn : ℕ) (events : List Event) (s s' : State D) : Prop where
  heap : s'.heap = s.heap
  next : s'.next = s.next
  log : s'.log = s.log ++ events
  probes : ∀ m, m ≠ pn → s'.tr.probes m = s.tr.probes m
  result : (s'.tr.probes pn).probeResult = (s.tr.probes pn).probeResult
  hostname : (s'.tr.probes pn).recvHostname = (s.tr.probes pn).recvHostname
  data : (s'.tr.probes pn).data = (s.tr.probes pn).data

/-- From `s` to `s'` the events have been added to the log, `blocks` blocks have been obtained, the
    first one for the data of the probe `pn`, no other probe has changed, and the socket of `pn` is
    marked as unused. -/
structure ProbeStep (pn : ℕ) (events : List Event) (blocks : ℕ) (s s' : State D) : Prop where
  heap : ∀ id < s.next, s'.heap id = s.heap id
  next : s'.next = s.next + blocks
  log : s'.log = s.log ++ events
  probes : ∀ m, m ≠ pn → s'.tr.probes m = s.tr.probes m
  socket : (s'.tr.probes pn).socket = -1
  data : (s'.tr.probes pn).data = if blocks = 0 then (s.tr.probes pn).data else .block s.next

/-- What happens before a probe is closed that cannot be sent. -/
inductive NotSent (env : ProbeEnv) (next : ℕ) : List Event → ℕ → Prop
  | noSocket : env.socket < 0 → NotSent env next [] 0
  | noPacket : 0 ≤ env.socket → NotSent env next [.socket env.socket] 0
  | notSent : 0 ≤ env.socket → NotSent env next [.socket env.socket, .alloc next] 1

/-- Closing the socket in the branches without an answer. -/
theorem closeProbe_step (hpn : pn < MAX_TTL * MAX_PROBES) {fd : ℤ} {events : List Event}
    {blocks : ℕ} (h : SendStep pn fd events blocks s s') {f : ProbeInfo D → ProbeInfo D}
    (hsocket : ∀ p, (f p).socket = p.socket) (hdata : ∀ p, (f p).data = p.data) :
    ∃ s'', closeProbe pn f s' = .ok s'' ∧ ProbeStep pn (events ++ [.close fd]) blocks s s'' ∧
      s''.tr.probes pn = f { s'.tr.probes pn with socket := -1 } := by
  simp only [closeProbe, State.probe_ok hpn, State.update_ok hpn, bind, Except.bind]
  have hemit := h.emit (.close (s'.tr.probes pn).socket)
  rw [h.socket] at hemit
  refine ⟨_, rfl, ⟨h.heap, h.next, ?_, fun m hm => ?_, ?_, ?_⟩, by
    rw [State.setProbe_probes_self]; rfl⟩
  · rw [← hemit.log, h.socket]
    rfl
  · rw [State.setProbe_probes_of_ne _ hm]
    exact h.probes m hm
  · rw [State.setProbe_probes_self, hsocket]
  · rw [State.setProbe_probes_self, hdata]
    exact h.data

/-- The name of another probe does not depend on what is written to this one besides. -/
theorem Named.congr {next : ℕ} {t t' : State D} {events : List Event}
    (h : Named opts pn env next t t' events)
    (hprev : firstOfTtl opts pn = false → s.tr.probes (pn - 1) = t.tr.probes (pn - 1))
    (haddr : (s'.tr.probes pn).recvAddr = (t'.tr.probes pn).recvAddr)
    (hname : (s'.tr.probes pn).recvHostname = (t'.tr.probes pn).recvHostname)
    (hheap : s'.heap = t'.heap) : Named opts pn env next s s' events := by
  cases h with
  | resolved hblock htext =>
    exact .resolved (hname.trans hblock) (by rw [haddr, hheap]; exact htext)
  | badAF htext hbad => exact .badAF (by rw [haddr]; exact htext) (hname.trans hbad)
  | taken hfirst hsame hne htaken =>
    have hp := hprev hfirst
    exact .taken hfirst (by rw [hp, haddr]; exact hsame) (by rw [hp]; exact hne)
      (by rw [hp]; exact hname.trans htaken)

/-! ## Receiving -/

/-- The address that a control message stores: that of the host an ICMP error comes from. -/
def cmsgAddr : Cmsg → Option SockAddr
  | .recverr ee => if ee.origin = SO_EE_ORIGIN_ICMP then some ee.offender else none
  | .timestamp _ | .ttl _ | .other => none

/-- The address that is stored for an answer; without one the old one stays. -/
def answerAddr (pollerr : Bool) (msg : Msg) (old : SockAddr) : SockAddr :=
  if pollerr then (msg.cmsgs.filterMap cmsgAddr).getLast?.getD old else msg.response

theorem parseIcmpResponse_silent (hpn : pn < MAX_TTL * MAX_PROBES) (type code : ℕ) (info : ℤ)
    (s : State D) :
    ∃ s', parseIcmpResponse pn type code info s = .ok s' ∧ Silent pn s s' ∧
      (s'.tr.probes pn).recvAddr = (s.tr.probes pn).recvAddr := by
  simp only [parseIcmpResponse, bind, Except.bind, pure, Except.pure]
  split
  · exact ⟨s, rfl, .refl pn s, rfl⟩
  · cases icmpText type code info with
    | none =>
      refine ⟨_, rfl, .setFinalProbe pn s, ?_⟩
      rw [setFinalProbe_probes]
    | some str =>
      simp only [State.update_ok hpn]
      refine ⟨_, rfl, (Silent.setProbe s ?_).trans (.setFinalProbe pn _), ?_⟩
      · rfl
      · rw [setFinalProbe_probes, State.setProbe_probes_self]

variable [CDouble D]

/-- One round of the loop of `parse_cmsg`. -/
theorem parseOneCmsg_silent (hpn : pn < MAX_TTL * MAX_PROBES) (s : State D) (c : Cmsg) :
    ∃ s', parseOneCmsg pn s c = .ok s' ∧ Silent pn s s' ∧
      (s'.tr.probes pn).recvAddr = (cmsgAddr c).getD (s.tr.probes pn).recvAddr := by
  cases c with
  | timestamp tv =>
    simp only [parseOneCmsg, State.update_ok hpn]
    exact ⟨_, rfl, .setProbe s rfl, by rw [State.setProbe_probes_self]; rfl⟩
  | ttl ttl =>
    simp only [parseOneCmsg, State.update_ok hpn]
    exact ⟨_, rfl, .setProbe s rfl, by rw [State.setProbe_probes_self]; rfl⟩
  | other => exact ⟨s, rfl, .refl pn s, rfl⟩
  | recverr ee =>
    simp only [parseOneCmsg, State.update_ok hpn, cmsgAddr, bind, Except.bind]
    by_cases horigin : ee.origin = SO_EE_ORIGIN_ICMP
    · rw [if_pos horigin, if_pos horigin]
      obtain ⟨s', hs', hsilent, haddr⟩ := parseIcmpResponse_silent hpn ee.type.toNat ee.code.toNat
        ee.info.toInt (s.setProbe pn { s.tr.probes pn with recvAddr := ee.offender })
      refine ⟨s', hs', (Silent.setProbe s ?_).trans hsilent, ?_⟩
      · rfl
      · rw [haddr, State.setProbe_probes_self]
        rfl
    · rw [if_neg horigin, if_neg horigin]
      exact ⟨s, rfl, .refl pn s, rfl⟩

/-- `parse_cmsg`: the last address counts. -/
theorem parseCmsg_silent (hpn : pn < MAX_TTL * MAX_PROBES) (msg : Msg) (now : D) (s : State D) :
    ∃ s', parseCmsg pn msg now s = .ok s' ∧ Silent pn s s' ∧
      (s'.tr.probes pn).recvAddr =
        (msg.cmsgs.filterMap cmsgAddr).getLast?.getD (s.tr.probes pn).recvAddr := by
  -- by induction on the control messages
  have hloop : ∃ s', msg.cmsgs.foldlM (parseOneCmsg pn) s = .ok s' ∧ Silent pn s s' := by
    generalize msg.cmsgs = cmsgs
    induction cmsgs generalizing s with
    | nil => exact ⟨s, rfl, .refl pn s⟩
    | cons c cmsgs ih =>
      obtain ⟨s₁, hs₁, h₁, -⟩ := parseOneCmsg_silent hpn s c
      obtain ⟨s₂, hs₂, h₂⟩ := ih s₁
      refine ⟨s₂, ?_, h₁.trans h₂⟩
      rw [List.foldlM_cons, hs₁]
      exact hs₂
  obtain ⟨s₁, hs₁, h₁⟩ := hloop
  -- a message with an address sets it, the others leave it
  have hround : ∀ c ∈ msg.cmsgs, ∀ s s' : State D, parseOneCmsg pn s c = .ok s' →
      (s'.tr.probes pn).recvAddr = (cmsgAddr c).getD (s.tr.probes pn).recvAddr := by
    intro c _ s s' hs
    obtain ⟨s₂, hs₂, -, haddr⟩ := parseOneCmsg_silent hpn s c
    rw [hs] at hs₂
    rw [Except.ok.inj hs₂]
    exact haddr
  -- so that the last address counts
  have haddr := foldlM_field (fun s : State D => (s.tr.probes pn).recvAddr) hround hs₁
  simp only [parseCmsg, hs₁, State.update_ok hpn, bind, Except.bind]
  refine ⟨_, rfl, h₁.trans (.setProbe s₁ ?_), ?_⟩
  · split <;> rfl
  · rw [State.setProbe_probes_self, ← haddr]
    split <;> rfl

/-- An error of the receiving loop is not 0. -/
theorem receiveLoop_error_ne {timeout sendTime : D} {attempts : List Attempt} {rc : ℤ}
    (h : receiveLoop timeout sendTime attempts = .error rc) : rc ≠ 0 := by
  induction attempts with
  | nil =>
    obtain rfl := Except.error.inj h
    decide
  | cons a attempts ih =>
    unfold receiveLoop at h
    dsimp only at h
    split at h
    · obtain rfl := Except.error.inj h
      decide
    · split at h
      · split at h
        · exact ih h
        · obtain rfl := Except.error.inj h
          decide
      · obtain rfl := Except.error.inj h
        decide
      · split at h
        · obtain rfl := Except.error.inj h
          decide
        · split at h
          · exact ih h
          · exact nomatch h

/-- `traceroute_receive` without an answer. -/
theorem tracerouteReceive_failed (hpn : pn < MAX_TTL * MAX_PROBES) {rc : ℤ}
    (hloop : receiveLoop opts.timeout (s.tr.probes pn).sendTime env.attempts = .error rc) :
    tracerouteReceive opts pn env s = .ok (rc, s) := by
  simp only [tracerouteReceive, State.probe_ok hpn, hloop, bind, Except.bind, pure, Except.pure]

/-- `traceroute_receive` with an answer closes the socket. -/
theorem tracerouteReceive_answered (hpn : pn < MAX_TTL * MAX_PROBES) {pollerr : Bool} {msg : Msg}
    (hloop : receiveLoop opts.timeout (s.tr.probes pn).sendTime env.attempts =
      .ok (pollerr, msg)) :
    ∃ s', tracerouteReceive opts pn env s = .ok (0, s') ∧
      Logged pn [.close (s.tr.probes pn).socket] s s' ∧ (s'.tr.probes pn).socket = -1 ∧
      (s'.tr.probes pn).recvAddr = answerAddr pollerr msg (s.tr.probes pn).recvAddr := by
  obtain ⟨s₁, hs₁, h₁, haddr⟩ := parseCmsg_silent hpn msg (getTime env.cmsgTime) s
  simp only [tracerouteReceive, State.probe_ok hpn, hloop, hs₁, bind, Except.bind, pure,
    Except.pure]
  -- the end of both branches
  have hclose : ∀ s₂ : State D, Silent pn s s₂ →
      Logged pn [.close (s.tr.probes pn).socket] s
        ((s₂.emit (.close (s₂.tr.probes pn).socket)).setProbe pn
          { s₂.tr.probes pn with socket := -1 }) := by
    intro s₂ h₂
    have hown := h₂.own
    simp only [ownFields, Prod.mk.injEq] at hown
    refine ⟨h₂.heap, h₂.next, ?_, fun m hm => ?_, ?_, ?_, ?_⟩
    · rw [← hown.2.2.1, ← h₂.log]
      rfl
    · rw [State.setProbe_probes_of_ne _ hm]
      exact h₂.probes m hm
    · rw [State.setProbe_probes_self]
      exact hown.1
    · rw [State.setProbe_probes_self]
      exact hown.2.1
    · rw [State.setProbe_probes_self]
      exact hown.2.2.2
  cases pollerr with
  | true =>
    simp only [State.update_ok hpn, if_true]
    refine ⟨_, rfl, hclose s₁ h₁, by rw [State.setProbe_probes_self], ?_⟩
    rw [State.setProbe_probes_self]
    exact haddr
  | false =>
    simp only [State.update_ok hpn, Bool.false_eq_true, if_false]
    refine ⟨_, rfl, hclose _ ((h₁.trans (.setProbe s₁ ?_)).trans (.setFinalProbe pn _)),
      by rw [State.setProbe_probes_self], ?_⟩
    · rfl
    · rw [State.setProbe_probes_self]
      show ((setFinalProbe pn _).tr.probes pn).recvAddr = _
      rw [setFinalProbe_probes, State.setProbe_probes_self]
      rfl

/-! ## Sending -/

/-- The paths of `traceroute_send`, with its result. -/
inductive SendPath (pn : ℕ) (env : ProbeEnv) (s s' : State D) : ℤ → Prop
  | noSocket : env.socket < 0 → SendStep pn env.socket [] 0 s s' → SendPath pn env s s' 3
  | noPacket {rc : ℤ} : rc ≠ 0 → 0 ≤ env.socket →
      SendStep pn env.socket [.socket env.socket] 0 s s' → SendPath pn env s s' rc
  | notSent {rc : ℤ} : rc ≠ 0 → 0 ≤ env.socket →
      SendStep pn env.socket [.socket env.socket, .alloc s.next] 1 s s' → SendPath pn env s s' rc
  | sent {packet : Packet} : 0 ≤ env.socket →
      SendStep pn env.socket [.socket env.socket, .alloc s.next, .send pn packet] 1 s s' →
      (s'.tr.probes pn).sendTime = getTime env.sendTime → SendPath pn env s s' 0

/-- `traceroute_send`, whichever call fails. -/
theorem tracerouteSend_path (opts : Options D) (hpn : pn < MAX_TTL * MAX_PROBES)
    (env : ProbeEnv) (s : State D) :
    ∃ rc s', tracerouteSend opts pn env s = .ok (rc, s') ∧ SendPath pn env s s' rc := by
  simp only [tracerouteSend, State.update_ok hpn, bind, Except.bind, pure, Except.pure]
  have h₁ := SendStep.start s pn env.socket
  by_cases hsocket : env.socket < 0
  · simp only [if_pos hsocket]
    exact ⟨_, _, rfl, .noSocket hsocket h₁⟩
  simp only [if_neg hsocket]
  have hfd : 0 ≤ env.socket := not_lt.mp hsocket
  have h₂ := h₁.emit (.socket env.socket)
  rw [List.nil_append] at h₂
  generalize (s.setProbe pn _).emit (.socket env.socket) = s₁ at h₂ ⊢
  -- in the order of the calls, each of which may be the one that fails
  cases env.bind with
  | false => exact ⟨_, _, rfl, .noPacket (by decide) hfd h₂⟩
  | true =>
    cases env.setTtl with
    | false => exact ⟨_, _, rfl, .noPacket (by decide) hfd h₂⟩
    | true =>
      generalize hp : (if opts.destPortSeq = true then ({ s₁.tr.probes pn with
        destPort := _ } : ProbeInfo D) else s₁.tr.probes pn) = p
      have h₃ : SendStep pn env.socket [.socket env.socket] 0 s (s₁.setProbe pn p) := by
        refine h₂.setPort ?_ ?_ <;> rw [← hp] <;> split <;> rfl
      generalize s₁.setProbe pn p = s₂ at h₃ ⊢
      cases env.connect with
      | false => exact ⟨_, _, rfl, .noPacket (by decide) hfd h₃⟩
      | true =>
        cases env.setRecverr with
        | false => exact ⟨_, _, rfl, .noPacket (by decide) hfd h₃⟩
        | true =>
          have h₄ := h₃.alloc (p := { s₂.tr.probes pn with
            dataLen := opts.packetLen, data := .block s₂.next,
            sendTime := getTime env.sendTime }) rfl rfl
          cases env.send with
          | false => exact ⟨_, _, rfl, .notSent (by decide) hfd h₄⟩
          | true =>
            refine ⟨_, _, rfl, .sent hfd (h₄.emit _) ?_⟩
            show (((s₂.alloc "").2.setProbe pn _).tr.probes pn).sendTime = _
            rw [State.setProbe_probes_self]

/-! ## One probe -/

/-- The paths of `do_one_probe`. -/
inductive Probed (opts : Options D) (pn : ℕ) (env : ProbeEnv) (s s' : State D) : Prop
  | notSent {events : List Event} {blocks : ℕ} : NotSent env s.next events blocks →
      ProbeStep pn (events ++ [.close env.socket]) blocks s s' →
      (s'.tr.probes pn).probeResult = .errSend →
      (s'.tr.probes pn).recvAddr = (s.tr.probes pn).recvAddr →
      (s'.tr.probes pn).recvHostname = (s.tr.probes pn).recvHostname → Probed opts pn env s s'
  | timeout {packet : Packet} {rc : ℤ} : 0 ≤ env.socket →
      receiveLoop opts.timeout (getTime env.sendTime) env.attempts = .error rc →
      ProbeStep pn [.socket env.socket, .alloc s.next, .send pn packet, .close env.socket] 1 s s' →
      (s'.tr.probes pn).probeResult = .errTimeout →
      (s'.tr.probes pn).recvAddr = (s.tr.probes pn).recvAddr →
      (s'.tr.probes pn).recvHostname = .hostUnknown → Probed opts pn env s s'
  | answered {packet : Packet} {pollerr : Bool} {msg : Msg} {events : List Event} :
      0 ≤ env.socket →
      receiveLoop opts.timeout (getTime env.sendTime) env.attempts = .ok (pollerr, msg) →
      ProbeStep pn ([.socket env.socket, .alloc s.next, .send pn packet, .close env.socket] ++
        events) (1 + events.length) s s' →
      (s'.tr.probes pn).probeResult = .ok ∨ (s'.tr.probes pn).probeResult = .errRecv →
      (s'.tr.probes pn).recvAddr = answerAddr pollerr msg (s.tr.probes pn).recvAddr →
      Named opts pn env (s.next + 1) s s' events → Probed opts pn env s s'

/-- The steps of `do_one_probe` after an answer. -/
structure Finished (pn : ℕ) (events : List Event) (s s' : State D) : Prop where
  heap : ∀ id < s.next, s'.heap id = s.heap id
  next : s'.next = s.next + events.length
  log : s'.log = s.log ++ events
  probes : ∀ m, m ≠ pn → s'.tr.probes m = s.tr.probes m
  recvAddr : (s'.tr.probes pn).recvAddr = (s.tr.probes pn).recvAddr
  socket : (s'.tr.probes pn).socket = (s.tr.probes pn).socket
  data : (s'.tr.probes pn).data = (s.tr.probes pn).data
  result : (s'.tr.probes pn).probeResult = .ok ∨ (s'.tr.probes pn).probeResult = .errRecv

omit [CDouble D] in
/-- After an answer, the probe gets its name and its result. -/
theorem finishProbe_named (opts : Options D) (hpn : pn < MAX_TTL * MAX_PROBES) (env : ProbeEnv)
    (s : State D) :
    ∃ s₁ s₂ s' events, s.update pn (fun p => { p with probeResult := .ok }) = .ok s₁ ∧
      setHostname opts pn env s₁ = .ok s₂ ∧
      s₂.update pn (fun p => if p.errStr ≠ "" then { p with probeResult := .errRecv } else p) =
        .ok s' ∧ Finished pn events s s' ∧ Named opts pn env s.next s s' events := by
  generalize hs₁ : s.setProbe pn { s.tr.probes pn with probeResult := .ok } = s₁
  have hupdate : s.update pn (fun p => { p with probeResult := .ok }) = .ok s₁ := by
    rw [State.update_ok hpn, hs₁]
  have hp₁ : s₁.tr.probes pn = { s.tr.probes pn with probeResult := .ok } := by
    rw [← hs₁, State.setProbe_probes_self]
  have hothers : ∀ m, m ≠ pn → s₁.tr.probes m = s.tr.probes m := by
    intro m hm
    rw [← hs₁, State.setProbe_probes_of_ne _ hm]
  have hnext : s₁.next = s.next := by
    rw [← hs₁]
    rfl
  obtain ⟨s₂, events, hname, hstep, hnamed⟩ := setHostname_named opts hpn env s₁
  obtain ⟨name, hown⟩ := hstep.own
  generalize hp' : (if (s₂.tr.probes pn).errStr ≠ "" then
    ({ s₂.tr.probes pn with probeResult := .errRecv } : ProbeInfo D) else s₂.tr.probes pn) = p'
  -- the last assignment is to the result only
  have hkept : p'.recvAddr = (s₂.tr.probes pn).recvAddr ∧
      p'.recvHostname = (s₂.tr.probes pn).recvHostname ∧
      p'.socket = (s₂.tr.probes pn).socket ∧ p'.data = (s₂.tr.probes pn).data ∧
      (p'.probeResult = .ok ∨ p'.probeResult = .errRecv) := by
    rw [← hp']
    split
    · exact ⟨rfl, rfl, rfl, rfl, .inr rfl⟩
    · exact ⟨rfl, rfl, rfl, rfl, .inl (by rw [hown, hp₁])⟩
  obtain ⟨hkaddr, hkname, hksocket, hkdata, hkresult⟩ := hkept
  refine ⟨s₁, s₂, s₂.setProbe pn p', events, hupdate, hname, ?_, ?_, ?_⟩
  · rw [State.update_ok hpn, hp']
  · refine ⟨fun id hid => ?_, ?_, ?_, fun m hm => ?_, ?_, ?_, ?_, ?_⟩
    · rw [← hnext] at hid
      rw [State.setProbe, hstep.heap id hid, ← hs₁]
      rfl
    · rw [State.setProbe, hstep.next, hnext]
    · rw [State.setProbe, hstep.log, ← hs₁]
      rfl
    · rw [State.setProbe_probes_of_ne _ hm, hstep.probes m hm, hothers m hm]
    · rw [State.setProbe_probes_self, hkaddr, hown, hp₁]
    · rw [State.setProbe_probes_self, hksocket, hown, hp₁]
    · rw [State.setProbe_probes_self, hkdata, hown, hp₁]
    · rw [State.setProbe_probes_self]
      exact hkresult
  · rw [← hnext]
    refine hnamed.congr (fun hfirst => ?_) ?_ ?_ rfl
    · have hpos := pos_of_not_firstOfTtl hfirst
      exact (hothers _ (by omega)).symm
    · rw [State.setProbe_probes_self, hkaddr]
    · rw [State.setProbe_probes_self, hkname]

omit [CDouble D] in
/-- An answered probe: sending, receiving, and the steps after that. -/
theorem SendStep.finish {fd : ℤ} {events events' : List Event} {s₁ s₂ : State D}
    (h : SendStep pn fd events 1 s s₁) (hlogged : Logged pn [.close (s₁.tr.probes pn).socket] s₁ s₂)
    (hsocket : (s₂.tr.probes pn).socket = -1) (hfinish : Finished pn events' s₂ s') :
    ProbeStep pn (events ++ [.close fd] ++ events') (1 + events'.length) s s' := by
  have hnext := h.next
  have hnext₂ := hlogged.next
  refine ⟨fun id hid => ?_, ?_, ?_, fun m hm => ?_, ?_, ?_⟩
  · rw [hfinish.heap id (by omega), hlogged.heap, h.heap id hid]
  · rw [hfinish.next, hnext₂, hnext, Nat.add_assoc]
  · rw [hfinish.log, hlogged.log, h.log, h.socket]
    simp only [List.append_assoc]
  · rw [hfinish.probes m hm, hlogged.probes m hm, h.probes m hm]
  · rw [hfinish.socket, hsocket]
  · rw [hfinish.data, hlogged.data, h.data, if_neg (by omega), if_neg (by omega)]

/-- `do_one_probe`, whatever the system calls return. -/
theorem doOneProbe_probed (opts : Options D) (hpn : pn < MAX_TTL * MAX_PROBES) (env : ProbeEnv)
    (s : State D) : ∃ s', doOneProbe opts pn env s = .ok s' ∧ Probed opts pn env s s' := by
  obtain ⟨rc, s₁, hsend, hpath⟩ := tracerouteSend_path opts hpn env s
  simp only [doOneProbe, tracerouteInitProbe, hsend, ne_eq, not_true_eq_false, if_false, bind,
    Except.bind]
  -- a probe that is not sent
  have hfail : ∀ {events : List Event} {blocks : ℕ}, NotSent env s.next events blocks →
      SendStep pn env.socket events blocks s s₁ →
      ∃ s', closeProbe pn (fun p => { p with probeResult := .errSend }) s₁ = .ok s' ∧
        Probed opts pn env s s' := by
    intro events blocks hevents hstep
    obtain ⟨s', hclose, hprobe, hp⟩ := closeProbe_step hpn hstep
      (f := fun p => { p with probeResult := .errSend }) (fun _ => rfl) (fun _ => rfl)
    refine ⟨s', hclose, .notSent hevents hprobe ?_ ?_ ?_⟩
    · rw [hp]
    · rw [hp]
      exact hstep.recvAddr
    · rw [hp]
      exact hstep.hostname
  cases hpath with
  | noSocket hneg hstep =>
    rw [if_pos (by decide)]
    exact hfail (.noSocket hneg) hstep
  | noPacket hrc hfd hstep =>
    rw [if_pos hrc]
    exact hfail (.noPacket hfd) hstep
  | notSent hrc hfd hstep =>
    rw [if_pos hrc]
    exact hfail (.notSent hfd) hstep
  | sent hfd hstep htime =>
    rw [if_neg (by decide)]
    cases hloop : receiveLoop opts.timeout (getTime env.sendTime) env.attempts with
    | error rc =>
      -- no answer
      rw [tracerouteReceive_failed hpn (htime ▸ hloop)]
      simp only [if_neg (receiveLoop_error_ne hloop)]
      obtain ⟨s', hclose, hprobe, hp⟩ := closeProbe_step hpn hstep
        (f := fun p => { p with probeResult := .errTimeout, recvHostname := .hostUnknown })
        (fun _ => rfl) (fun _ => rfl)
      refine ⟨s', hclose, .timeout hfd hloop hprobe ?_ ?_ ?_⟩
      · rw [hp]
      · rw [hp]
        exact hstep.recvAddr
      · rw [hp]
    | ok answer =>
      obtain ⟨pollerr, msg⟩ := answer
      have hloop' := hloop
      rw [← htime] at hloop'
      obtain ⟨s₂, hreceive, hlogged, hsocket, haddr⟩ := tracerouteReceive_answered hpn hloop'
      obtain ⟨s₃, s₄, s', events, hok, hname, herr, hfinish, hnamed⟩ :=
        finishProbe_named opts hpn env s₂
      rw [hreceive]
      simp only [if_true, hok, hname]
      refine ⟨s', herr, .answered hfd hloop (hstep.finish hlogged hsocket hfinish)
        hfinish.result ?_ ?_⟩
      · rw [hfinish.recvAddr, haddr, hstep.recvAddr]
      · have hnext : s₂.next = s.next + 1 := hlogged.next.trans hstep.next
        rw [← hnext]
        refine hnamed.congr (fun hfirst => ?_) rfl rfl rfl
        have hpos := pos_of_not_firstOfTtl hfirst
        rw [hlogged.probes _ (by omega), hstep.probes _ (by omega)]

/-! ## Sockets -/

/-- Opening and closing descriptors. -/
def isFdEvent : Event → Bool
  | .socket _ | .close _ => true
  | .send .. | .alloc _ | .free _ => false

/-- The life of the socket of a probe; without a socket, `close` is called with what `socket` has
    returned. -/
def socketLife (fd : ℤ) : List Event :=
  if 0 ≤ fd then [.socket fd, .close fd] else [.close fd]

omit [CDouble D] in
/-- Names are no matter of descriptors. -/
theorem Named.filter_isFdEvent {next : ℕ} {events : List Event}
    (h : Named opts pn env next s s' events) : events.filter isFdEvent = [] := by
  cases h with
  | resolved | badAF | taken => rfl

/-- The descriptors of a probe, on every path. -/
theorem Probed.filter_isFdEvent (h : Probed opts pn env s s') :
    ∃ events blocks, ProbeStep pn events blocks s s' ∧
      events.filter isFdEvent = socketLife env.socket := by
  cases h with
  | notSent hevents hstep =>
    refine ⟨_, _, hstep, ?_⟩
    unfold socketLife
    cases hevents with
    | noSocket hneg =>
      rw [if_neg (by omega)]
      rfl
    | noPacket hfd | notSent hfd =>
      rw [if_pos hfd]
      rfl
  | timeout hfd _ hstep =>
    refine ⟨_, _, hstep, ?_⟩
    rw [socketLife, if_pos hfd]
    rfl
  | answered hfd _ hstep _ _ hnamed =>
    refine ⟨_, _, hstep, ?_⟩
    rw [socketLife, if_pos hfd, List.filter_append, hnamed.filter_isFdEvent]
    rfl

/-- For every option setting, every probe within the array, every outcome of the system calls and
    every state: when `do_one_probe` returns, a socket that was opened has been closed after that
    exactly once, the probe has no socket any more, and no other descriptor has been closed. -/
theorem doOneProbe_sockets (opts : Options D) (hpn : pn < MAX_TTL * MAX_PROBES) (env : ProbeEnv)
    (s : State D) :
    ∃ s' events, doOneProbe opts pn env s = .ok s' ∧ s'.log = s.log ++ events ∧
      (s'.tr.probes pn).socket = -1 ∧
      events.filter isFdEvent =
        (if 0 ≤ env.socket then [.socket env.socket, .close env.socket]
        else [.close env.socket]) ∧
      ∀ fd, 0 ≤ fd → .close fd ∈ events → fd = env.socket := by
  obtain ⟨s', hprobe, hpath⟩ := doOneProbe_probed opts hpn env s
  obtain ⟨events, blocks, hstep, hlife⟩ := hpath.filter_isFdEvent
  refine ⟨s', events, hprobe, hstep.log, hstep.socket, hlife, fun fd _ hmem => ?_⟩
  have hfilter : .close fd ∈ events.filter isFdEvent := List.mem_filter.mpr ⟨hmem, rfl⟩
  rw [hlife, socketLife] at hfilter
  split at hfilter
  · simpa using hfilter
  · simpa using hfilter

/-- The last probe of all, for which `connect` fails. -/
theorem doOneProbe_sockets_last :
    ∃ s' events, @doOneProbe ℤ wholeDouble ⟨AF_INET, 10, 1, 255, true, true, 33434, 5, 40⟩ 2549
        ⟨7, true, true, false, true, ⟨0, 0⟩, true, [], ⟨0, 0⟩, fun _ _ => ""⟩
        (@State.initial ℤ wholeDouble) = .ok s' ∧
      s'.log = (@State.initial ℤ wholeDouble).log ++ events ∧ (s'.tr.probes 2549).socket = -1 ∧
      events.filter isFdEvent = [.socket 7, .close 7] ∧
      ∀ fd, 0 ≤ fd → .close fd ∈ events → fd = 7 :=
  @doOneProbe_sockets ℤ 2549 wholeDouble _ (by decide) _ _

end SuccessiveTraceroute
