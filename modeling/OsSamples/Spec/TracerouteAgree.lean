import OsSamples.Native.BasicTraceroute
import OsSamples.Native.TracerouteKept
import OsSamples.Spec.SuccessiveTraceroute

/-!
# The two traceroute drivers

`Sim` relates a state of `basic_traceroute` to one of `successive_traceroute`: the same packets have
been sent, and each probe has the same fields, as far as both programs have them.  The nested loops
of the one program go side by side with the flat loop of the other.

## Key results

- `tracerouteSend_sim`, `tracerouteReceive_sim`: one probe in both programs
- `probeRound_sim`: one round of the loops
- `drivers_agree`: the drivers
-/

namespace BasicTraceroute

open Traceroute SuccessiveTraceroute

variable {D : Type}

/-! ## The relation -/

/-- What both programs keep of a probe, apart from its socket. -/
def strip (p : ProbeInfo D) : ProbeInfo D :=
  { p with probeResult := .unknown, recvHostname := .null, data := .null, socket := 0 }

/-- The states agree on the target, on what has been sent and on every probe; the final probes are
    related by `F`. -/
structure Sim (F : ℤ → ℤ → Prop) (s t : State D) : Prop where
  probes : ∀ m, strip (s.tr.probes m) = strip (t.tr.probes m)
  destAddr : s.tr.destAddr = t.tr.destAddr
  packets : sentPackets s = sentPackets t
  final : F s.tr.finalProbe t.tr.finalProbe

/-- Results of the two programs: the same error, or related states. -/
abbrev SimResult (F : ℤ → ℤ → Prop) : Except Stop (State D) → Except Stop (State D) → Prop :=
  ResultRel Eq (Sim F)

/-- The same for functions with a result code. -/
abbrev SimCode (F : ℤ → ℤ → Prop) :
    Except Stop (ℤ × State D) → Except Stop (ℤ × State D) → Prop :=
  ResultRel Eq fun x y => x.1 = y.1 ∧ Sim F x.2 y.2

variable {F : ℤ → ℤ → Prop} {s s' t t' : State D} {pn : ℕ}

/-- A change of a probe that looks only at the common fields. -/
def Common (f f' : ProbeInfo D → ProbeInfo D) : Prop :=
  ∀ p p', strip p = strip p' → strip (f p) = strip (f' p')

theorem Common.of_strip {f : ProbeInfo D → ProbeInfo D}
    (hf : ∀ p, strip (f p) = strip (f (strip p))) : Common f f := by
  intro p p' hp
  rw [hf, hp, ← hf]

theorem Sim.setProbe (h : Sim F s t) {p p' : ProbeInfo D} (hp : strip p = strip p') :
    Sim F (s.setProbe pn p) (t.setProbe pn p') := by
  refine ⟨fun m => ?_, h.destAddr, h.packets, h.final⟩
  by_cases hm : m = pn
  · subst hm
    rw [State.setProbe_probes_self, State.setProbe_probes_self, hp]
  · rw [State.setProbe_probes_of_ne _ hm, State.setProbe_probes_of_ne _ hm]
    exact h.probes m

/-- Reading a probe. -/
theorem Sim.probe (h : Sim F s t) (i : ℤ) :
    ResultRel Eq (fun p p' => strip p = strip p') (s.probe i) (t.probe i) := by
  unfold State.probe
  exact .ite (fun _ => .ok (h.probes _)) fun _ => .error rfl

/-- Writing to a probe. -/
theorem Sim.update (h : Sim F s t) {f f' : ProbeInfo D → ProbeInfo D} (hf : Common f f') :
    SimResult F (s.update pn f) (t.update pn f') := by
  unfold State.update
  exact (h.probe pn).bind fun p p' hp => .ok (h.setProbe (hf p p' hp))

theorem sentPackets_emit (s : State D) (e : Event) :
    sentPackets (s.emit e) = sentPackets s ++ sentPackets (State.emit { s with log := [] } e) := by
  simp [sentPackets, State.emit]

/-- The same event in both states. -/
theorem Sim.emit (h : Sim F s t) (e : Event) : Sim F (s.emit e) (t.emit e) := by
  refine ⟨h.probes, h.destAddr, ?_, h.final⟩
  rw [sentPackets_emit, sentPackets_emit t, h.packets]
  rfl

theorem sentPackets_emit_of_ne {e : Event} (s : State D) (he : ∀ m packet, e ≠ .send m packet) :
    sentPackets (s.emit e) = sentPackets s := by
  cases e with
  | send m packet => exact absurd rfl (he m packet)
  | socket | close | alloc | free => simp [sentPackets, State.emit]

/-- Events other than sending, which may differ. -/
theorem Sim.emit_of_ne (h : Sim F s t) {d e : Event} (hd : ∀ m packet, d ≠ .send m packet)
    (he : ∀ m packet, e ≠ .send m packet) : Sim F (s.emit d) (t.emit e) := by
  refine ⟨h.probes, h.destAddr, ?_, h.final⟩
  rw [sentPackets_emit_of_ne s hd, sentPackets_emit_of_ne t he, h.packets]

/-- A new block. -/
theorem Sim.alloc (h : Sim F s t) (str : String) : Sim F (s.alloc str).2 (t.alloc str).2 := by
  have h := h.emit_of_ne (d := .alloc s.next) (e := .alloc t.next) nofun nofun
  exact ⟨h.probes, h.destAddr, h.packets, h.final⟩

/-- What one program does alone. -/
theorem Sim.trans_left (h : Sim F s t) (h' : Sim Eq s s') : Sim F s' t :=
  ⟨fun m => (h'.probes m).symm.trans (h.probes m), h'.destAddr.symm.trans h.destAddr,
    h'.packets.symm.trans h.packets, h'.final ▸ h.final⟩

theorem Sim.trans_right (h : Sim F s t) (h' : Sim Eq t t') : Sim F s t' :=
  ⟨fun m => (h.probes m).trans (h'.probes m), h.destAddr.trans h'.destAddr,
    h.packets.trans h'.packets, h'.final ▸ h.final⟩

theorem Sim.refl (s : State D) : Sim Eq s s := ⟨fun _ => rfl, rfl, rfl, rfl⟩

theorem Sim.of_setProbe (s : State D) {p : ProbeInfo D} (hp : strip p = strip (s.tr.probes pn)) :
    Sim Eq s (s.setProbe pn p) := by
  refine ⟨fun m => ?_, rfl, rfl, rfl⟩
  by_cases hm : m = pn
  · subst hm
    rw [State.setProbe_probes_self, hp]
  · rw [State.setProbe_probes_of_ne _ hm]

theorem Sim.of_emit {e : Event} (s : State D) (he : ∀ m packet, e ≠ .send m packet) :
    Sim Eq s (s.emit e) := ⟨fun _ => rfl, rfl, (sentPackets_emit_of_ne s he).symm, rfl⟩

theorem Sim.of_alloc (s : State D) (str : String) : Sim Eq s (s.alloc str).2 :=
  ⟨fun _ => rfl, rfl, (sentPackets_emit_of_ne (e := .alloc s.next) s nofun).symm, rfl⟩

theorem Sim.of_print (s : State D) (texts : List String) : Sim Eq s (s.print texts) :=
  ⟨fun _ => rfl, rfl, rfl, rfl⟩

variable [CDouble D] {opts : Options D} {env : ProbeEnv}

/-! ## Sending -/

/-- With the TTL of the row, `traceroute_send` is the same in both programs. -/
theorem tracerouteSend_eq (opts : Options D) (pn : ℕ) (env : ProbeEnv) (s : State D) :
    tracerouteSend opts pn (tracerouteProbe2ttl opts pn) env s =
      SuccessiveTraceroute.tracerouteSend opts pn env s := rfl

/-- Sending. -/
theorem tracerouteSend_sim (opts : Options D) (pn : ℕ) (env : ProbeEnv) (h : Sim F s t) :
    SimCode F (SuccessiveTraceroute.tracerouteSend opts pn env s)
      (SuccessiveTraceroute.tracerouteSend opts pn env t) := by
  unfold SuccessiveTraceroute.tracerouteSend
  refine (h.update (.of_strip fun _ => rfl)).bind fun s t h => ?_
  refine .ite (fun _ => .ok ⟨rfl, h⟩) fun _ => ?_
  -- the failing calls return with the states that are related already
  have h := h.emit (.socket env.socket)
  refine .ite (fun _ => .ok ⟨rfl, h⟩) fun _ => ?_
  refine .ite (fun _ => .ok ⟨rfl, h⟩) fun _ => ?_
  have hport : (s.emit (.socket env.socket)).tr.destAddr.port =
      (t.emit (.socket env.socket)).tr.destAddr.port := by rw [h.destAddr]
  rw [hport]
  generalize (if opts.destPortSeq = true then opts.destPort + BitVec.ofNat 16 pn
      else (t.emit (.socket env.socket)).tr.destAddr.port) = port
  refine (h.update (.of_strip fun _ => by split <;> rfl)).bind fun s t h => ?_
  refine .ite (fun _ => .ok ⟨rfl, h⟩) fun _ => ?_
  refine .ite (fun _ => .ok ⟨rfl, h⟩) fun _ => ?_
  refine ((h.alloc "").update fun p p' hp => ?_).bind fun s t h => ?_
  · exact congrArg (fun q : ProbeInfo D =>
      { q with dataLen := opts.packetLen, sendTime := getTime env.sendTime }) hp
  refine .ite (fun _ => .ok ⟨rfl, h⟩) fun _ => ?_
  rw [h.destAddr]
  exact .ok ⟨rfl, h.emit _⟩

/-! ## Receiving -/

/-- A terminal answer to probe `pn` leads from related final probes to related ones: the first
    program takes `pn`, the second one the smaller. -/
def Closed (F : ℤ → ℤ → Prop) (pn : ℕ) : Prop := ∀ f g, F f g → F pn (earlier pn g)

omit [CDouble D] in
/-- The probe becomes final in both programs. -/
theorem Sim.becomeFinal (h : Sim F s t) (hF : Closed F pn) :
    Sim F (s.withFinalProbe pn) (setFinalProbe pn t) := by
  have hfinal := hF _ _ h.final
  unfold setFinalProbe
  unfold earlier at hfinal
  split
  · rename_i hcond
    rw [if_pos hcond] at hfinal
    exact ⟨h.probes, h.destAddr, h.packets, hfinal⟩
  · rename_i hcond
    rw [if_neg hcond] at hfinal
    exact ⟨h.probes, h.destAddr, h.packets, hfinal⟩

omit [CDouble D] in
theorem parseIcmpResponse_sim (hF : Closed F pn) (type code : ℕ) (info : ℤ) (h : Sim F s t) :
    SimResult F (parseIcmpResponse pn type code info s)
      (SuccessiveTraceroute.parseIcmpResponse pn type code info t) := by
  unfold parseIcmpResponse SuccessiveTraceroute.parseIcmpResponse
  refine .ite (fun _ => .ok h) fun _ => ?_
  cases icmpText type code info with
  | none => exact .ok (h.becomeFinal hF)
  | some str =>
    exact (h.update (.of_strip fun _ => rfl)).bind fun s t h => .ok (h.becomeFinal hF)

theorem parseOneCmsg_sim (hF : Closed F pn) (c : Cmsg) (h : Sim F s t) :
    SimResult F (parseOneCmsg pn s c) (SuccessiveTraceroute.parseOneCmsg pn t c) := by
  cases c with
  | timestamp tv => exact h.update (.of_strip fun _ => rfl)
  | ttl ttl => exact h.update (.of_strip fun _ => rfl)
  | other => exact .ok h
  | recverr ee =>
    refine .ite (fun _ => ?_) fun _ => .ok h
    exact (h.update (.of_strip fun _ => rfl)).bind fun s t h => parseIcmpResponse_sim hF _ _ _ h

theorem parseCmsgs_sim (hF : Closed F pn) (cmsgs : List Cmsg) (h : Sim F s t) :
    SimResult F (cmsgs.foldlM (parseOneCmsg pn) s)
      (cmsgs.foldlM (SuccessiveTraceroute.parseOneCmsg pn) t) := by
  induction cmsgs generalizing s t with
  | nil => exact .ok h
  | cons c cmsgs ih =>
    rw [List.foldlM_cons, List.foldlM_cons]
    exact (parseOneCmsg_sim hF c h).bind fun s t h => ih h

theorem parseCmsg_sim (hF : Closed F pn) (msg : Msg) (now : D) (h : Sim F s t) :
    SimResult F (parseCmsg pn msg now s) (SuccessiveTraceroute.parseCmsg pn msg now t) := by
  refine (parseCmsgs_sim hF msg.cmsgs h).bind fun s t h => h.update (.of_strip fun p => ?_)
  show strip (if CDouble.isZero p.recvTime then _ else _) =
    strip (if CDouble.isZero p.recvTime then _ else _)
  split <;> rfl

/-- Receiving. -/
theorem tracerouteReceive_sim (opts : Options D) (hF : Closed F pn) (env : ProbeEnv)
    (h : Sim F s t) :
    SimCode F (tracerouteReceive opts pn env s)
      (SuccessiveTraceroute.tracerouteReceive opts pn env t) := by
  unfold tracerouteReceive SuccessiveTraceroute.tracerouteReceive
  refine (h.probe pn).bind fun p p' hp => ?_
  have htime : (strip p).sendTime = (strip p').sendTime := congrArg ProbeInfo.sendTime hp
  rw [show p.sendTime = p'.sendTime from htime]
  cases receiveLoop opts.timeout p'.sendTime env.attempts with
  | error rc => exact .ok ⟨rfl, h⟩
  | ok answer =>
    obtain ⟨pollerr, msg⟩ := answer
    refine (parseCmsg_sim hF msg _ h).bind fun s t h => ?_
    -- the end of both branches
    have hclose : ∀ {s t : State D}, Sim F s t → SimCode F
        (do
          let p ← s.probe pn
          let s ← (s.emit (.close p.socket)).update pn fun p => { p with socket := -1 }
          return (0, s))
        (do
          let p ← t.probe pn
          let t ← (t.emit (.close p.socket)).update pn fun p => { p with socket := -1 }
          return (0, t)) := by
      intro s t h
      refine (h.probe pn).bind fun p p' _ => ?_
      have h := h.emit_of_ne (d := .close p.socket) (e := .close p'.socket) nofun nofun
      exact (h.update (.of_strip fun _ => rfl)).bind fun s t h => .ok ⟨rfl, h⟩
    refine .ite (fun _ => ?_) fun _ => ?_
    · rw [pure_bind, pure_bind]
      exact hclose h
    · refine (h.update (.of_strip fun _ => rfl)).bind fun s t h => ?_
      rw [pure_bind, pure_bind]
      exact hclose (h.becomeFinal hF)

/-! ## One probe -/

omit [CDouble D] in
/-- Closing the socket of a probe. -/
theorem closeProbe_same (hpn : pn < MAX_TTL * MAX_PROBES) {f : ProbeInfo D → ProbeInfo D}
    (hf : ∀ p, strip (f { p with socket := -1 }) = strip p) (s : State D) :
    ∃ s', closeProbe pn f s = .ok s' ∧ Sim Eq s s' := by
  simp only [closeProbe, State.probe_ok hpn, State.update_ok hpn, bind, Except.bind]
  have hemit := Sim.of_emit (e := .close (s.tr.probes pn).socket) s (by simp)
  exact ⟨_, rfl, hemit.trans_right (.of_setProbe _ (hf _))⟩

omit [CDouble D] in
/-- The host name is a matter of the second program. -/
theorem setHostname_same (opts : Options D) (env : ProbeEnv) (hpn : pn < MAX_TTL * MAX_PROBES)
    (t : State D) : ∃ t', setHostname opts pn env t = .ok t' ∧ Sim Eq t t' := by
  obtain ⟨b, hb, hprev⟩ := mustResolve_ok opts hpn t
  simp only [setHostname, hb, State.probe_ok hpn, bind, Except.bind]
  cases b with
  | true =>
    simp only [State.update_ok hpn, if_true]
    generalize (if opts.noresolve = true then A2S_NORESOLVE else A2S_RESOLVE_HIP) = how
    refine ⟨_, rfl, ?_⟩
    rcases addr2str_cases env.getnameinfo (t.tr.probes pn).recvAddr how t with h | ⟨str, h⟩
    · rw [h]
      exact .of_setProbe t rfl
    · rw [h]
      exact (Sim.of_alloc t str).trans_right (.of_setProbe _ rfl)
  | false =>
    obtain ⟨hpos, -⟩ := hprev rfl
    simp only [State.update_ok hpn, probe_pred_ok hpn hpos, Bool.false_eq_true, if_false]
    exact ⟨_, rfl, .of_setProbe t rfl⟩

/-- A probe that can be sent, in related states: the two programs send it and receive the same. -/
theorem doOneProbe_sim (opts : Options D) (hpn : pn < MAX_TTL * MAX_PROBES) (hF : Closed F pn)
    (henv : SendOk env) (h : Sim F s t) :
    ∃ rc s₁ s₂ t', SuccessiveTraceroute.tracerouteSend opts pn env s = .ok (0, s₁) ∧
      tracerouteReceive opts pn env s₁ = .ok (rc, s₂) ∧ doOneProbe opts pn env t = .ok t' ∧
      Sim F s₂ t' := by
  obtain ⟨t₁, hsend, -, -, -, htime⟩ := tracerouteSend_ok opts hpn henv t
  obtain ⟨rc, t₂, -, hreceive, -⟩ := tracerouteReceive_ok opts hpn t₁ htime
  have hsend_sim := tracerouteSend_sim opts pn env h
  rw [hsend] at hsend_sim
  generalize hx : SuccessiveTraceroute.tracerouteSend opts pn env s = x at hsend_sim
  cases hsend_sim with
  | @ok x _ h₁ =>
    obtain ⟨rc₁, s₁⟩ := x
    obtain ⟨rfl, h₁⟩ : rc₁ = 0 ∧ Sim F s₁ t₁ := h₁
    have hreceive_sim := tracerouteReceive_sim opts hF env h₁
    rw [hreceive] at hreceive_sim
    generalize hy : tracerouteReceive opts pn env s₁ = y at hreceive_sim
    cases hreceive_sim with
    | @ok y _ h₂ =>
      obtain ⟨rc₂, s₂⟩ := y
      obtain ⟨rfl, h₂⟩ : rc₂ = rc ∧ Sim F s₂ t₂ := h₂
      simp only [doOneProbe, hsend, hreceive, ne_eq, not_true_eq_false, if_false, bind,
        Except.bind]
      -- the second program goes on to the name, which the relation does not see
      by_cases hrc : rc₂ = 0
      · rw [if_pos hrc]
        simp only [State.update_ok hpn]
        obtain ⟨t₃, hname, h₃⟩ := setHostname_same opts env hpn
          (t₂.setProbe pn { t₂.tr.probes pn with probeResult := .ok })
        simp only [hname]
        refine ⟨_, _, _, _, rfl, hy, rfl, ?_⟩
        have hok : Sim Eq t₂ (t₂.setProbe pn { t₂.tr.probes pn with probeResult := .ok }) :=
          .of_setProbe t₂ rfl
        refine ((h₂.trans_right hok).trans_right h₃).trans_right (.of_setProbe t₃ ?_)
        split <;> rfl
      · rw [if_neg hrc]
        obtain ⟨t₃, hclose, h₃⟩ := closeProbe_same hpn (f := fun p => { p with
          probeResult := .errTimeout, recvHostname := .hostUnknown }) (fun _ => rfl) t₂
        exact ⟨_, _, _, t₃, rfl, hy, hclose, h₂.trans_right h₃⟩

/-- A probe that cannot be sent, in related states. -/
theorem doOneProbe_fail_sim (opts : Options D) (hpn : pn < MAX_TTL * MAX_PROBES)
    (henv : ¬ SendOk env) (h : Sim F s t) :
    ∃ rc s₁ t', SuccessiveTraceroute.tracerouteSend opts pn env s = .ok (rc, s₁) ∧ rc ≠ 0 ∧
      doOneProbe opts pn env t = .ok t' ∧ Sim F s₁ t' ∧ t'.sent = t.sent ∧
      (t'.tr.probes pn).probeResult = .errSend := by
  obtain ⟨rc, t₁, hsend, hrc, hquiet⟩ := tracerouteSend_fail opts hpn henv t
  have hsend_sim := tracerouteSend_sim opts pn env h
  rw [hsend] at hsend_sim
  generalize hx : SuccessiveTraceroute.tracerouteSend opts pn env s = x at hsend_sim
  cases hsend_sim with
  | @ok x _ h₁ =>
    obtain ⟨rc₁, s₁⟩ := x
    obtain ⟨rfl, h₁⟩ : rc₁ = rc ∧ Sim F s₁ t₁ := h₁
    obtain ⟨t₂, hclose, hsame⟩ :=
      closeProbe_same hpn (f := fun p => { p with probeResult := .errSend }) (fun _ => rfl) t₁
    obtain ⟨t₂', hclose', hquiet', p, hp⟩ :=
      closeProbe_ok hpn (fun p => { p with probeResult := .errSend }) t₁
    -- both lemmas are about the one state after `close`
    obtain rfl : t₂' = t₂ := by
      rw [hclose'] at hclose
      exact Except.ok.inj hclose
    simp only [doOneProbe, hsend, ne_eq, hrc, not_false_eq_true, if_true, bind, Except.bind]
    exact ⟨_, _, _, rfl, hrc, hclose, h₁.trans_right hsame, hquiet'.sent.trans hquiet.sent,
      by rw [hp]⟩

/-! ## The second driver with the state at `exit` -/

end BasicTraceroute

namespace SuccessiveTraceroute

open Traceroute

variable {D : Type} [CDouble D]

theorem probeRoundKept_forget (opts : Options D) (net : NetEnv) (pn : ℕ) (s : State D) :
    (probeRoundKept opts net pn s).mapError Prod.fst = probeRound opts net pn s := by
  unfold probeRoundKept probeRound
  generalize doOneProbe opts pn (net.probe pn) s = x
  cases x with
  | error e => rfl
  | ok s =>
    simp only [bind, Except.bind]
    generalize printOneProbe opts pn s = y
    cases y with
    | error e => rfl
    | ok s => rfl

/-- It is `do_traceroute`, when the state at `exit` is forgotten. -/
theorem doTracerouteKept_forget (opts : Options D) (target : String) (net : NetEnv) :
    (doTracerouteKept opts target net).mapError Prod.fst = doTraceroute opts target net := by
  -- a round that keeps the state on an error is the same round otherwise
  have hround : (fun pn s => (probeRoundKept opts net pn s).mapError Prod.fst) =
      probeRound opts net := by
    funext pn s
    exact probeRoundKept_forget opts net pn s
  unfold doTracerouteKept doTraceroute
  rw [← hround]
  generalize tracerouteInit opts net .initial = init
  cases init with
  | error e => rfl
  | ok r =>
    obtain ⟨rc, s⟩ := r
    simp only [bind, Except.bind, pure, Except.pure]
    by_cases hrc : rc ≠ 0
    · rw [if_pos hrc, if_pos hrc]
      rfl
    · rw [if_neg hrc, if_neg hrc]
      -- the first line, with the address of the target
      generalize addr2str net.getnameinfo s.tr.destAddr A2S_NORESOLVE s = r
      obtain ⟨resolved, s⟩ := r
      simp only
      generalize s.deref resolved = str
      cases str with
      | error e => rfl
      | ok str =>
        -- the loops stop at the same round
        simp only [forLoop_mapError]
        generalize forLoop (probeRoundKept opts net) _ 0 _ = loop
        cases loop with
        | error e => rfl
        | ok s =>
          simp only [Except.mapError]
          generalize forLoop (freeRound opts) _ 0 _ = loop
          cases loop with
          | error e => rfl
          | ok s => rfl

end SuccessiveTraceroute

namespace BasicTraceroute

open Traceroute SuccessiveTraceroute

variable {D : Type} [CDouble D] {opts : Options D} {net : NetEnv} {s t t₀ : State D} {q r i : ℕ}

/-! ## The loops -/

/-- The final probes of both programs are in the row `r`, if there are any. -/
def InRow (q r : ℕ) (f g : ℤ) : Prop :=
  (f = -1 ∧ g = -1) ∨ ∃ m n : ℕ, f = m ∧ g = n ∧ m / q = r ∧ n / q = r

omit [CDouble D] in
/-- The probe is in the row, too. -/
theorem inRow_closed (hi : i < q) : Closed (InRow q r) (r * q + i) := by
  have hrow : (r * q + i) / q = r := Nat.row_div hi
  intro f g hfg
  unfold earlier
  right
  split
  · exact ⟨_, _, rfl, rfl, hrow, hrow⟩
  · rename_i hcond
    rcases hfg with ⟨rfl, rfl⟩ | ⟨m, n, rfl, rfl, hm, hn⟩
    · omega
    · exact ⟨_, _, rfl, rfl, hrow, hn⟩

/-- The states after `j` probes, the last one in the row `r`. -/
structure Rel (opts : Options D) (net : NetEnv) (t₀ : State D) (q r j : ℕ) (l : Local D)
    (t : State D) : Prop where
  sim : Sim (InRow q r) l.s t
  fresh : ∀ m ≥ j, strip (t.tr.probes m) = strip .zero
  done : ProbesDone opts net t₀ j t
  sendOk : ∀ m < j, SendOk (net.probe m)

/-- Both programs are left when the probe `pn` cannot be sent. -/
structure Failed (net : NetEnv) (pn : ℕ) (s t : State D) : Prop where
  sim : Sim (fun _ _ => True) s t
  sent : (sentPackets s).map Prod.fst = List.range pn
  before : ∀ m < pn, SendOk (net.probe m)
  fails : ¬ SendOk (net.probe pn)

/-- The first program returns 3, the second one calls `exit`. -/
def LeaveRel (net : NetEnv) (e : Leave D) (e' : Stop × State D) : Prop :=
  ∃ pn s t, e = .ret 3 s ∧ e' = (.exit 1, t) ∧ Failed net pn s t

omit [CDouble D] in
theorem sent_eq (s : State D) :
    s.sent.map Prod.fst = (sentPackets s).map Prod.fst := by
  simp only [State.sent, sentPackets, List.map_filterMap]
  congr 1
  funext e
  cases e <;> rfl

/-- The probes that have been sent. -/
theorem Rel.sent {j : ℕ} {l : Local D} (h : Rel opts net t₀ q r j l t) (h₀ : t₀.sent = []) :
    t.sent.map Prod.fst = List.range j := by
  rw [h.done.sent, h₀, List.nil_append, List.map_map]
  exact List.map_id _

/-- One round of the second program, with the state at `exit`. -/
theorem probeRoundKept_ok {pn : ℕ} (hpn : pn < MAX_TTL * MAX_PROBES) (hsend : SendOk (net.probe pn))
    (h : ProbesDone opts net t₀ pn t) :
    ∃ t₁ t₂, doOneProbe opts pn (net.probe pn) t = .ok t₁ ∧ Kept pn t t₁ ∧ Sim Eq t₁ t₂ ∧
      ProbesDone opts net t₀ (pn + 1) t₂ ∧ probeRoundKept opts net pn t =
        .ok (if t₂.tr.finalProbe ≥ 0 ∧ lastOfTtl opts pn then .done t₂ else .yield t₂) := by
  obtain ⟨t₁, b, hprobe, hdone, -⟩ := doOneProbe_ok opts hpn hsend t
  have hprev : firstOfTtl opts pn = false → (t.tr.probes (pn - 1)).recvHostname ≠ .null := by
    intro hfirst
    have hpos := pos_of_not_firstOfTtl hfirst
    exact h.hostname (pn - 1) (by omega)
  obtain ⟨name, hprint, -⟩ := printOneProbe_ok hpn hdone hprev
  obtain ⟨t₂, hround, hdone₂⟩ := probeRound_ok hpn hsend h
  simp only [SuccessiveTraceroute.probeRound, hprobe, hprint, bind, Except.bind, pure,
    Except.pure, Except.ok.injEq] at hround
  -- the state of the round is the one that has been printed
  obtain rfl : t₁.print (probeTexts opts pn (name ++ resultTexts (t₁.tr.probes pn))) = t₂ := by
    split at hround <;> split at hround
    · exact ForInStep.done.inj hround
    · cases hround
    · cases hround
    · exact ForInStep.yield.inj hround
  refine ⟨t₁, _, hprobe, hdone.toKept, .of_print .., hdone₂, ?_⟩
  unfold probeRoundKept
  rw [hprobe]
  dsimp only
  rw [hprint]

omit [CDouble D] in
/-- The number of a probe in the first program. -/
theorem index_eq (hq : opts.probes = q) (hfirst : opts.firstTtl = 1) (r i : ℕ) :
    (opts.firstTtl + r - 1) * opts.probes + i = ((r * q + i : ℕ) : ℤ) := by
  rw [hq, hfirst]
  push_cast
  ring

omit [CDouble D] in
/-- The TTL of a probe in the first program. -/
theorem ttl_eq (hq : opts.probes = q) (hfirst : opts.firstTtl = 1) (hi : i < q) (r : ℕ) :
    opts.firstTtl + r = tracerouteProbe2ttl opts (r * q + i) := by
  rw [tracerouteProbe2ttl_eq hq, hfirst, Nat.row_div hi]

/-- `traceroute_init_probe` clears a probe that is as new anyway. -/
theorem tracerouteInitProbe_ok {pn : ℕ} (hpn : pn < MAX_TTL * MAX_PROBES) (s : State D) :
    tracerouteInitProbe pn s = .ok (0, s.setProbe pn .zero) := by
  simp only [tracerouteInitProbe, State.probe_ok hpn, bind, Except.bind, Int.toNat_natCast]
  rfl

/-- The answer is printed in the first program. -/
theorem printAnswer_ok {pn : ℕ} (opts : Options D) (hpn : pn < MAX_TTL * MAX_PROBES)
    (env : ProbeEnv) (l : Local D) :
    ∃ l', printAnswer opts pn env l = .ok l' ∧ Sim Eq l.s l'.s := by
  simp only [printAnswer, State.probe_ok hpn, bind, Except.bind]
  split
  · exact ⟨_, rfl, .of_print ..⟩
  · exact ⟨_, rfl, .of_print ..⟩

/-- One round of the inner loop of the first program and one of the loop of the second one. -/
theorem probeRound_sim (hq : opts.probes = q) (hfirst : opts.firstTtl = 1) (h₀ : t₀.sent = [])
    (hi : i < q) (hpn : r * q + i < MAX_TTL * MAX_PROBES) {l : Local D}
    (h : Rel opts net t₀ q r (r * q + i) l t) :
    ResultRel (LeaveRel net) (fun x y => ∃ l' t', x = .yield l' ∧
        y = (if t'.tr.finalProbe ≥ 0 ∧ i = q - 1 then .done t' else .yield t') ∧
        Rel opts net t₀ q r (r * q + i + 1) l' t')
      (probeRound opts net (opts.firstTtl + r) i l) (probeRoundKept opts net (r * q + i) t) := by
  generalize hpn' : r * q + i = pn at hpn h ⊢
  have hsim : Sim (InRow q r) (l.s.setProbe pn .zero) t := by
    refine h.sim.trans_left (.of_setProbe _ ?_)
    rw [h.sim.probes pn, h.fresh pn le_rfl]
  have hclosed : Closed (InRow q r) pn := hpn' ▸ inRow_closed hi
  have hlast : lastOfTtl opts pn = decide (i = q - 1) := by
    rw [lastOfTtl_eq hq (by omega), ← hpn', Nat.row_mod hi]
  simp only [probeRound, index_eq hq hfirst, hpn', tracerouteInitProbe_ok hpn, Int.toNat_natCast,
    call, bind, Except.bind, Except.mapError, ne_eq, not_true_eq_false, if_false]
  rw [ttl_eq hq hfirst hi, hpn', tracerouteSend_eq]
  by_cases henv : SendOk (net.probe pn)
  · -- the probe is sent
    obtain ⟨rc, s₁, s₂, t₁, hsend, hreceive, hprobe, hsim₁⟩ :=
      doOneProbe_sim opts hpn hclosed henv hsim
    obtain ⟨t₁', t₂, hprobe', hkept, hprint, hdone, hround⟩ := probeRoundKept_ok hpn henv h.done
    obtain rfl : t₁' = t₁ := by
      rw [hprobe'] at hprobe
      exact Except.ok.inj hprobe
    rw [hround, hsend]
    simp only [hreceive, hlast, decide_eq_true_eq]
    -- whatever the first program prints
    have hrel : ∀ l' : Local D, Sim Eq s₂ l'.s → Rel opts net t₀ q r (pn + 1) l' t₂ := by
      intro l' hl'
      refine ⟨(hsim₁.trans_left hl').trans_right hprint, fun m hm => ?_, hdone, fun m hm => ?_⟩
      · rw [← hprint.probes m, hkept.probes m (by omega)]
        exact h.fresh m (by omega)
      · rcases Nat.lt_succ_iff_lt_or_eq.mp hm with hlt | rfl
        · exact h.sendOk m hlt
        · exact henv
    by_cases hrc : rc = 0
    · rw [if_pos hrc]
      obtain ⟨l', hanswer, hl'⟩ := printAnswer_ok opts hpn (net.probe pn) { l with s := s₂ }
      rw [hanswer]
      exact .ok ⟨l', t₂, rfl, rfl, hrel l' hl'⟩
    · rw [if_neg hrc]
      obtain ⟨s₃, hclose, hs₃⟩ := closeProbe_same hpn (f := id) (fun _ => rfl) s₂
      rw [hclose]
      exact .ok ⟨_, t₂, rfl, rfl, hrel _ (hs₃.trans_right (.of_print ..))⟩
  · -- both programs end
    obtain ⟨rc, s₁, t₁, hsend, hrc, hprobe, hsim₁, hsent, hresult⟩ :=
      doOneProbe_fail_sim opts hpn henv hsim
    obtain ⟨s₂, hclose, hs₂⟩ := closeProbe_same hpn (f := id) (fun _ => rfl) s₁
    have hexit := printOneProbe_fail opts hpn hresult
    have hround : probeRoundKept opts net pn t = .error (.exit 1, t₁) := by
      unfold probeRoundKept
      rw [hprobe]
      dsimp only
      rw [hexit]
    rw [hround]
    simp only [hsend, hrc, not_false_eq_true, if_true, hclose]
    have hfinal := hsim₁.trans_left hs₂
    refine .error ⟨pn, s₂, t₁, rfl, rfl, ⟨?_, ?_, h.sendOk, henv⟩⟩
    · exact ⟨hfinal.probes, hfinal.destAddr, hfinal.packets, trivial⟩
    · rw [hfinal.packets, ← sent_eq, hsent, h.sent h₀]

/-- The final probes of both programs are in the row before row `K`, which is the last one there is
    if there are none. -/
def SameRow (q maxTtl K : ℕ) (f g : ℤ) : Prop :=
  (f = -1 ∧ g = -1 ∧ K = maxTtl) ∨ ∃ m n : ℕ, f = m ∧ g = n ∧ m / q + 1 = K ∧ n / q + 1 = K

/-- Both programs have stopped after the first `K` rows. -/
structure Stopped (opts : Options D) (net : NetEnv) (t₀ : State D) (q K : ℕ) (s t : State D) :
    Prop where
  sim : Sim (SameRow q opts.maxTtl.toNat K) s t
  done : ProbesDone opts net t₀ (K * q) t
  sendOk : ∀ m < K * q, SendOk (net.probe m)
  le : K ≤ opts.maxTtl.toNat

/-- The inner loop of the first program, and its part of the flat loop of the second one. -/
theorem probeRow_sim (hq : opts.probes = q) (hpos : 0 < q) (hfirst : opts.firstTtl = 1)
    (h₀ : t₀.sent = []) (hrow : (r + 1) * q ≤ MAX_TTL * MAX_PROBES) {l : Local D}
    (h : Rel opts net t₀ q r (r * q) l t) :
    ResultRel (LeaveRel net) (fun l' y => ∃ t', Rel opts net t₀ q r ((r + 1) * q) l' t' ∧
        ((y = .yield t' ∧ t'.tr.finalProbe < 0) ∨ (y = .done t' ∧ t'.tr.finalProbe ≥ 0)))
      (forLoop (probeRound opts net (opts.firstTtl + r)) q 0 l)
      (forLoopStep (probeRoundKept opts net) q (r * q) t) := by
  rw [Nat.succ_mul] at hrow ⊢
  have hstart : Rel opts net t₀ q r (r * q + 0) l t ∧ (0 = q → t.tr.finalProbe < 0) :=
    ⟨h, fun h0 => absurd h0.symm (by omega)⟩
  refine (forLoop_rel_step
    (R := fun j l t => Rel opts net t₀ q r (r * q + j) l t ∧ (j = q → t.tr.finalProbe < 0))
    (Q := fun l t => Rel opts net t₀ q r (r * q + q) l t ∧ t.tr.finalProbe ≥ 0)
    (fun j hj l t hR => ?_) (fun j hj l t hR => ?_) hstart).imp ?_
  · rw [Nat.zero_add]
    refine (probeRound_sim hq hfirst h₀ (by omega) (by omega) hR.1).imp ?_
    rintro _ _ ⟨l', t', rfl, rfl, hR'⟩
    rw [if_neg (by omega)]
    exact .yield ⟨hR', fun hjq => absurd hjq (by omega)⟩
  · -- the last round: the second program looks at the final probe
    rw [Nat.zero_add]
    refine (probeRound_sim hq hfirst h₀ (by omega) (by omega) hR.1).imp ?_
    rintro _ _ ⟨l', t', rfl, rfl, hR'⟩
    rw [Nat.add_assoc, hj] at hR'
    refine ⟨l', rfl, ?_⟩
    by_cases hfinal : t'.tr.finalProbe ≥ 0
    · rw [if_pos ⟨hfinal, by omega⟩]
      exact .inr ⟨t', rfl, hR', hfinal⟩
    · rw [if_neg fun hc => hfinal hc.1]
      exact .inl ⟨t', rfl, hR', fun _ => not_le.mp hfinal⟩
  · rintro l' _ (⟨t', rfl, hR', hfinal⟩ | ⟨t', rfl, hR', hfinal⟩)
    · exact ⟨t', hR', .inl ⟨rfl, hfinal rfl⟩⟩
    · exact ⟨t', hR', .inr ⟨rfl, hfinal⟩⟩

/-- A row of the first program, and its part of the flat loop of the second one. -/
theorem ttlRound_sim (hq : opts.probes = q) (hpos : 0 < q) (hfirst : opts.firstTtl = 1)
    (h₀ : t₀.sent = []) (hr : r < opts.maxTtl.toNat) (hrow : (r + 1) * q ≤ MAX_TTL * MAX_PROBES)
    {l : Local D} (h : Rel opts net t₀ q r (r * q) l t) :
    ResultRel (LeaveRel net) (StepRel (Rel opts net t₀ q (r + 1) ((r + 1) * q))
        fun l t => ∃ K, Stopped opts net t₀ q K l.s t)
      (ttlRound opts net r l) (forLoopStep (probeRoundKept opts net) q (r * q) t) := by
  have hstart : Rel opts net t₀ q r (r * q) { l with
      s := l.s.print [ttlText (opts.firstTtl + r)], printed := false } t :=
    ⟨h.sim.trans_left (.of_print ..), h.fresh, h.done, h.sendOk⟩
  have hloop := probeRow_sim hq hpos hfirst h₀ hrow hstart
  unfold ttlRound
  dsimp only
  rw [hq, Int.toNat_natCast]
  generalize forLoop (probeRound opts net (opts.firstTtl + r)) q 0 _ = x at hloop ⊢
  generalize forLoopStep (probeRoundKept opts net) q (r * q) t = y at hloop ⊢
  cases hloop with
  | error he => exact .error he
  | @ok l' y hl' =>
    obtain ⟨t', hR, hy⟩ := hl'
    have hsim := hR.sim.trans_left (.of_print l'.s ["\n"])
    rcases hy with ⟨rfl, hneg⟩ | ⟨rfl, hfinal⟩
    · -- no terminal answer yet
      obtain ⟨hf, hg⟩ | ⟨m, n, hf, hg, -⟩ := hsim.final
      · refine .ok ?_
        show StepRel _ _ (if (l'.s.print ["\n"]).tr.finalProbe ≥ 0 then _ else _) _
        rw [if_neg (by omega)]
        refine .yield ⟨⟨hsim.probes, hsim.destAddr, hsim.packets, ?_⟩, hR.fresh, hR.done,
          hR.sendOk⟩
        exact .inl ⟨hf, hg⟩
      · omega
    · -- a terminal answer: both programs leave after this row
      obtain ⟨hf, hg⟩ | ⟨m, n, hf, hg, hm, hn⟩ := hsim.final
      · omega
      · refine .ok ?_
        show StepRel _ _ (if (l'.s.print ["\n"]).tr.finalProbe ≥ 0 then _ else _) _
        rw [if_pos (by omega)]
        refine .done ⟨r + 1, ⟨hsim.probes, hsim.destAddr, hsim.packets, ?_⟩, hR.done, hR.sendOk,
          hr⟩
        exact .inr ⟨m, n, hf, hg, by omega, by omega⟩

/-- The loops of both drivers. -/
theorem loops_sim (hq : opts.probes = q) (hpos : 0 < q) (hfirst : opts.firstTtl = 1)
    (h₀ : t₀.sent = []) (hbound : opts.maxTtl.toNat * q ≤ MAX_TTL * MAX_PROBES) {l : Local D}
    (h : Rel opts net t₀ q 0 0 l t) :
    ResultRel (LeaveRel net) (fun l t => ∃ K, Stopped opts net t₀ q K l.s t)
      (forLoop (ttlRound opts net) (opts.maxTtl - opts.firstTtl + 1).toNat 0 l)
      (forLoop (probeRoundKept opts net) (opts.maxTtl * opts.probes).toNat 0 t) := by
  rw [total_eq hq, hfirst, Int.sub_add_cancel]
  have hstart : Rel opts net t₀ q 0 (0 * q) l t := by rwa [Nat.zero_mul]
  refine forLoop_rel_rows (R := fun r l t => Rel opts net t₀ q r (r * q) l t)
    (fun r hr l t hR => ?_) (fun l t hR => ?_) hstart
  · rw [Nat.zero_add]
    exact ttlRound_sim hq hpos hfirst h₀ hr ((Nat.mul_le_mul_right q hr).trans hbound) hR
  · -- a terminal answer would be in a row after the last one
    refine ⟨_, ⟨hR.sim.probes, hR.sim.destAddr, hR.sim.packets, ?_⟩, hR.done, hR.sendOk, le_rfl⟩
    obtain ⟨hf, hg⟩ | ⟨m, n, -, hg, -, hn⟩ := hR.sim.final
    · exact .inl ⟨hf, hg, rfl⟩
    · rcases hR.done.finalProbe with ⟨hneg, -⟩ | ⟨m', hm', hfinal, -⟩
      · omega
      · obtain rfl : m' = n := by omega
        have hlt := (Nat.div_lt_iff_lt_mul hpos).mpr hm'
        omega

/-! ## Initialisation and clean-up -/

/-- `traceroute_init` in both programs. -/
theorem tracerouteInit_sim (opts : Options D)
    (hbound : (opts.maxTtl * opts.probes).toNat ≤ MAX_TTL * MAX_PROBES) (net : NetEnv) :
    (∃ s t, tracerouteInit opts net .initial = (1, s) ∧
      SuccessiveTraceroute.tracerouteInit opts net .initial = .ok (1, t) ∧ Sim Eq s t) ∨
    ∃ s t, tracerouteInit opts net .initial = (0, s) ∧
      SuccessiveTraceroute.tracerouteInit opts net .initial = .ok (0, t) ∧ Sim Eq s t ∧
      s.tr.finalProbe = -1 ∧ s.log = [] ∧ ∀ m, s.tr.probes m = .zero := by
  unfold tracerouteInit SuccessiveTraceroute.tracerouteInit
  cases net.getaddrinfo with
  | none => exact .inl ⟨_, _, rfl, rfl, .refl _⟩
  | some res =>
    have hlen : (res.any fun a => a.family == AF_INET && a.len > SockAddr.len (.inet6 0 0)) =
        false := by
      rw [List.any_eq_false]
      intro a _
      cases a <;> simp [SockAddr.len]
    right
    simp only [hlen, Bool.false_eq_true, if_false, bind, Except.bind, pure, Except.pure]
    generalize hs₁ : ({ (State.initial : State D) with tr := _ } : State D) = s₁
    have h₁ : s₁.tr.finalProbe = -1 ∧ s₁.log = [] ∧ ∀ m, s₁.tr.probes m = .zero := by
      rw [← hs₁]
      exact ⟨rfl, rfl, fun _ => rfl⟩
    -- the loop marks sockets as unused
    have hround : ∀ pn (t : State D), 0 ≤ pn → pn < 0 + (opts.maxTtl * opts.probes).toNat →
        Sim Eq s₁ t → ∃ t', initRound pn t = .ok (.yield t') ∧ Sim Eq s₁ t' := by
      intro pn t _ hpn ht
      exact ⟨_, initRound_ok (by omega) t, ht.trans_right (.of_setProbe t rfl)⟩
    obtain ⟨t, hloop, ht⟩ := forLoop_rule_of_yield hround (.refl s₁)
    rw [hloop]
    exact ⟨s₁, t, rfl, rfl, ht, h₁⟩

omit [CDouble D] in
/-- Cleaning up in the second program. -/
theorem tracerouteFreeMemProbe_same {pn : ℕ} (hq : opts.probes = q) (hpos : 0 < q)
    (hrow : (pn / q + 1) * q ≤ MAX_TTL * MAX_PROBES) (t : State D) :
    ∃ t', tracerouteFreeMemProbe opts pn t = .ok t' ∧ Sim Eq t t' := by
  have hpn : pn < MAX_TTL * MAX_PROBES := by
    have hlt := Nat.lt_div_mul_add hpos (a := pn)
    rw [Nat.succ_mul] at hrow
    omega
  simp only [tracerouteFreeMemProbe, State.probe_ok hpn, bind, Except.bind, pure, Except.pure]
  have hdata := Sim.of_emit (e := .free (t.tr.probes pn).data) t (by simp)
  split
  · obtain ⟨b, hshared, -⟩ := hostnameShared_ok hq hpos hrow (t.emit (.free (t.tr.probes pn).data))
    simp only [hshared, State.update_ok hpn]
    cases b with
    | true => exact ⟨_, rfl, hdata.trans_right (.of_setProbe _ rfl)⟩
    | false =>
      have hname := Sim.of_emit (e := .free (t.tr.probes pn).recvHostname)
        (t.emit (.free (t.tr.probes pn).data)) (by simp)
      exact ⟨_, rfl, (hdata.trans_right hname).trans_right (.of_setProbe _ rfl)⟩
  · exact ⟨_, rfl, hdata⟩

omit [CDouble D] in
/-- The clean-up loop of the second program. -/
theorem freeLoop_same {n : ℕ} (hq : opts.probes = q) (hpos : 0 < q)
    (hrow : ∀ pn < n, (pn / q + 1) * q ≤ MAX_TTL * MAX_PROBES) (t : State D) :
    ∃ t', forLoop (freeRound opts) n 0 t = .ok t' ∧ Sim Eq t t' := by
  refine forLoop_rule_of_yield (I := fun _ t' => Sim Eq t t') (fun pn t' _ hpn ht => ?_) (.refl t)
  obtain ⟨t'', hfree, hsame⟩ := tracerouteFreeMemProbe_same hq hpos (hrow pn (by omega)) t'
  refine ⟨t'', ?_, ht.trans_right hsame⟩
  rw [freeRound, hfree]
  rfl

omit [CDouble D] in
/-- The name of the target, which the second program prints before the first probe. -/
theorem targetName_same (net : NetEnv) (t : State D) :
    ∃ resolved t' str, addr2str net.getnameinfo t.tr.destAddr A2S_NORESOLVE t = (resolved, t') ∧
      t'.deref resolved = .ok str ∧ Sim Eq t t' := by
  obtain ⟨-, hresolved, -⟩ := addr2str_ok 0 net.getnameinfo t.tr.destAddr A2S_NORESOLVE t
  have hname : Sim Eq t (addr2str net.getnameinfo t.tr.destAddr A2S_NORESOLVE t).2 := by
    rcases addr2str_cases net.getnameinfo t.tr.destAddr A2S_NORESOLVE t with h | ⟨str, h⟩
    · rw [h]
      exact .refl t
    · rw [h]
      exact .of_alloc t str
  obtain ⟨str, hderef⟩ := deref_ok _ hresolved
  exact ⟨_, _, str, rfl, hderef, hname⟩

/-- Both programs before the first row. -/
theorem Rel.zero (h : Sim Eq s t) (hfinal : s.tr.finalProbe = -1)
    (hzero : ∀ m, s.tr.probes m = .zero) (texts : List String) :
    Rel opts net t q 0 0 ⟨s.print texts, "", false⟩ t := by
  have hsim := h.trans_left (.of_print s texts)
  have hfinal' : t.tr.finalProbe = -1 := h.final ▸ hfinal
  refine ⟨⟨hsim.probes, hsim.destAddr, hsim.packets, .inl ⟨hfinal, hfinal'⟩⟩, fun m _ => ?_,
    .zero hfinal', nofun⟩
  rw [← h.probes m, hzero m]

/-- The second program cleans up the probes up to the final one. -/
theorem Stopped.free {K : ℕ} (h : Stopped opts net t₀ q K s t) (hq : opts.probes = q)
    (hpos : 0 < q) (hbound : opts.maxTtl.toNat * q ≤ MAX_TTL * MAX_PROBES)
    (hsame : Sim Eq t t') :
    ∃ t'', forLoop (freeRound opts) (t'.tr.finalProbe + 1).toNat 0 t' = .ok t'' ∧
      Sim (SameRow q opts.maxTtl.toNat K) s t'' := by
  have hrows : ∀ pn < (t'.tr.finalProbe + 1).toNat, (pn / q + 1) * q ≤ MAX_TTL * MAX_PROBES := by
    intro pn hpn
    rw [← hsame.final] at hpn
    rcases h.sim.final with ⟨-, hneg, -⟩ | ⟨-, n, -, hn, -, hK⟩
    · omega
    · -- the row of `pn` is not behind that of the final probe
      have hle : pn / q + 1 ≤ K := by
        rw [← hK]
        exact Nat.succ_le_succ (Nat.div_le_div_right (by omega))
      exact (Nat.mul_le_mul_right q (hle.trans h.le)).trans hbound
  obtain ⟨t'', hfree, hsame'⟩ := freeLoop_same hq hpos hrows t'
  exact ⟨t'', hfree, (h.sim.trans_right hsame).trans_right hsame'⟩

/-! ## Main result -/

/-- The programs have sent the same packets, and have stored the same for each probe. -/
structure Agree (s t : State D) : Prop where
  packets : sentPackets s = sentPackets t
  errStr : ∀ pn, (s.tr.probes pn).errStr = (t.tr.probes pn).errStr
  probes : ∀ pn, strip (s.tr.probes pn) = strip (t.tr.probes pn)

omit [CDouble D] in
theorem Sim.agree {F : ℤ → ℤ → Prop} (h : Sim F s t) : Agree s t := by
  refine ⟨h.packets, fun pn => ?_, h.probes⟩
  have herr : (strip (s.tr.probes pn)).errStr = (strip (t.tr.probes pn)).errStr := by
    rw [h.probes pn]
  exact herr

/-- How the two drivers end: the target is unknown, or probe `pn` cannot be sent, or they stop after
    `K` rows, which have the final probes in the last one if there are any. -/
inductive Ends (opts : Options D) (net : NetEnv) :
    Except Stop (ℤ × State D) → Except (Stop × State D) (ℤ × State D) → Prop
  | unknown {s t : State D} : Agree s t → Ends opts net (.ok (1, s)) (.ok (1, t))
  | failed {pn : ℕ} {s t : State D} : Agree s t →
      (sentPackets s).map Prod.fst = List.range pn → (∀ m < pn, SendOk (net.probe m)) →
      ¬ SendOk (net.probe pn) → Ends opts net (.ok (3, s)) (.error (.exit 1, t))
  | stopped {K : ℕ} {s t : State D} : Agree s t →
      (sentPackets s).map Prod.fst = List.range (K * opts.probes.toNat) →
      (∀ m < K * opts.probes.toNat, SendOk (net.probe m)) →
      SameRow opts.probes.toNat opts.maxTtl.toNat K s.tr.finalProbe t.tr.finalProbe →
      Ends opts net (.ok (0, s)) (.ok (0, t))

/-- For every option setting with `first_ttl` 1, a largest TTL of at most 255 and 1 to 10 probes per
    TTL, and every behaviour of the network, the two drivers end in the same way: they have sent the
    same packets (TTL, destination and data), up to the first probe that cannot be sent, and have
    stored the same for each probe, its error string included; and if all probes can be sent they
    stop after the same row, which has the final probe of either. -/
theorem drivers_agree (opts : Options D) (hfirst : opts.firstTtl = 1) (hmax : opts.maxTtl ≤ 255)
    (hprobes : 1 ≤ opts.probes ∧ opts.probes ≤ 10) (target : String) (net : NetEnv) :
    Ends opts net (doTraceroute opts target net) (doTracerouteKept opts target net) := by
  generalize hq' : opts.probes.toNat = q
  have hq : opts.probes = q := by omega
  have hpos : 0 < q := by omega
  have hbound : opts.maxTtl.toNat * q ≤ MAX_TTL * MAX_PROBES :=
    Nat.mul_le_mul (show opts.maxTtl.toNat ≤ 255 by omega) (show q ≤ 10 by omega)
  unfold doTraceroute doTracerouteKept
  obtain ⟨s, t, hs, ht, hsim⟩ | ⟨s, t, hs, ht, hsim, hfinal, hlog, hzero⟩ :=
    tracerouteInit_sim opts (by rw [total_eq hq]; exact hbound) net
  · rw [hs, ht]
    exact .unknown hsim.agree
  rw [hs, ht]
  simp only [ne_eq, not_true_eq_false, if_false]
  -- the texts before the first probe
  obtain ⟨resolved, t₁, str, hname, hderef, hsame⟩ := targetName_same net t
  simp only [hname, hderef]
  generalize ht₀ : t₁.print (headerTexts opts target str) = t₀
  have hsim₀ : Sim Eq s t₀ := by
    rw [← ht₀]
    exact (hsim.trans_right hsame).trans_right (.of_print ..)
  have hsent₀ : t₀.sent = [] := by
    have hlen := congrArg List.length (sent_eq t₀)
    rw [← hsim₀.packets, List.length_map] at hlen
    simpa [sentPackets, hlog] using hlen
  -- the loops
  have hstart : Rel opts net t₀ q 0 0 ⟨s.print [headerText opts target], "", false⟩ t₀ :=
    .zero hsim₀ hfinal hzero [headerText opts target]
  have hloops := loops_sim hq hpos hfirst hsent₀ hbound hstart
  generalize forLoop (ttlRound opts net) _ 0 _ = x at hloops ⊢
  generalize forLoop (probeRoundKept opts net) _ 0 t₀ = y at hloops ⊢
  cases hloops with
  | error hleave =>
    obtain ⟨pn, s', t', rfl, rfl, hfailed⟩ := hleave
    exact .failed hfailed.sim.agree hfailed.sent hfailed.before hfailed.fails
  | @ok l t' hstopped =>
    obtain ⟨K, hstopped⟩ := hstopped
    simp only
    -- the clean-up
    generalize ht₁ : (if resolved ≠ .hostUnknown ∧ resolved ≠ .hostUnknownBadAF then
      t'.emit (.free resolved) else t') = t₂
    have hsame₂ : Sim Eq t' t₂ := by
      rw [← ht₁]
      split
      · exact .of_emit t' nofun
      · exact .refl t'
    obtain ⟨t₃, hfree, hall⟩ := hstopped.free hq hpos hbound hsame₂
    rw [hfree]
    refine .stopped (K := K) hall.agree ?_ ?_ ?_
    · rw [hq', hstopped.sim.packets, ← sent_eq, hstopped.done.sent, hsent₀, List.nil_append,
        List.map_map]
      exact List.map_id _
    · rw [hq']
      exact hstopped.sendOk
    · rw [hq']
      exact hall.final

/-- Two probes per TTL, of which the first one expires at a router and the second one is
    answered. -/
theorem drivers_agree_oneRouter :
    @Ends ℤ ⟨AF_INET, 2, 1, 3, true, true, 33434, 5, 40⟩ oneRouter
      (@doTraceroute ℤ wholeDouble ⟨AF_INET, 2, 1, 3, true, true, 33434, 5, 40⟩ "target" oneRouter)
      (@doTracerouteKept ℤ wholeDouble ⟨AF_INET, 2, 1, 3, true, true, 33434, 5, 40⟩ "target"
        oneRouter) :=
  @drivers_agree ℤ wholeDouble ⟨AF_INET, 2, 1, 3, true, true, 33434, 5, 40⟩ rfl (by decide)
    ⟨by decide, by decide⟩ "target" oneRouter

end BasicTraceroute
