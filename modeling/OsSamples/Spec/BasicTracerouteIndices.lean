import OsSamples.Native.BasicTracerouteMain
import OsSamples.Spec.TracerouteIndices

/-!
# The indices of basic traceroute

The index of a probe is computed from the TTL.  The last TTL and the number of probes are limited,
the first TTL is not: from a first TTL below 1 on, the first probe is in front of the array.

## Key results

- `probeRound_safe`: one probe of a TTL from 1 to 255
- `doTraceroute_safe`, `doTraceroute_outOfBounds`: the driver, with a first TTL that is in order or
  not
- `main_safe_iff`: all command lines
-/

namespace BasicTraceroute

open Traceroute CInt
open SuccessiveTraceroute (Options ProbeInfo State Inside probe_safe closeProbe setPacketLen
  clipTtl clipProbes DEF_TTL DEF_PROBES clipTtl_getD_le clipProbes_getD_range
  getLast?_filterMap_map wholeDouble oneRouter)

variable {D : Type} {opts : Options D} {net : NetEnv} {s : State D} {pn : ℕ}

/-! ## One probe -/

/-- Writing to a probe. -/
theorem update_safe (hpn : pn < MAX_TTL * MAX_PROBES) (f : ProbeInfo D → ProbeInfo D)
    (s : State D) : Outcome Inside (fun _ => True) (s.update pn f) := by
  rw [State.update_ok hpn]
  exact .ok trivial

/-- Closing the socket of a probe. -/
theorem closeProbe_safe (hpn : pn < MAX_TTL * MAX_PROBES) (f : ProbeInfo D → ProbeInfo D)
    (s : State D) : Outcome Inside (fun _ => True) (closeProbe pn f s) :=
  (probe_safe hpn s).bind fun _ _ => update_safe hpn _ _

variable [CDouble D]

/-- `traceroute_send`. -/
theorem tracerouteSend_safe (opts : Options D) (hpn : pn < MAX_TTL * MAX_PROBES) (ttl : ℤ)
    (env : ProbeEnv) (s : State D) :
    Outcome Inside (fun _ => True) (tracerouteSend opts pn ttl env s) := by
  unfold tracerouteSend
  refine (update_safe hpn _ s).bind fun s _ => ?_
  refine .ite (fun _ => .ok trivial) fun _ => ?_
  refine .ite (fun _ => .ok trivial) fun _ => ?_
  refine .ite (fun _ => .ok trivial) fun _ => ?_
  refine (update_safe hpn _ _).bind fun s _ => ?_
  refine .ite (fun _ => .ok trivial) fun _ => ?_
  refine .ite (fun _ => .ok trivial) fun _ => ?_
  refine (update_safe hpn _ _).bind fun s _ => ?_
  exact .ite (fun _ => .ok trivial) fun _ => .ok trivial

omit [CDouble D] in
theorem parseIcmpResponse_safe (hpn : pn < MAX_TTL * MAX_PROBES) (type code : ℕ) (info : ℤ)
    (s : State D) : Outcome Inside (fun _ => True) (parseIcmpResponse pn type code info s) := by
  unfold parseIcmpResponse
  refine .ite (fun _ => .ok trivial) fun _ => ?_
  cases icmpText type code info with
  | none => exact .ok trivial
  | some str => exact (update_safe hpn _ s).bind fun _ _ => .ok trivial

theorem parseOneCmsg_safe (hpn : pn < MAX_TTL * MAX_PROBES) (s : State D) (c : Cmsg) :
    Outcome Inside (fun _ => True) (parseOneCmsg pn s c) := by
  cases c with
  | timestamp tv => exact update_safe hpn _ s
  | ttl ttl => exact update_safe hpn _ s
  | other => exact .ok trivial
  | recverr ee =>
    refine .ite (fun _ => ?_) fun _ => .ok trivial
    exact (update_safe hpn _ s).bind fun s _ => parseIcmpResponse_safe hpn _ _ _ s

theorem parseCmsg_safe (hpn : pn < MAX_TTL * MAX_PROBES) (msg : Msg) (now : D) (s : State D) :
    Outcome Inside (fun _ => True) (parseCmsg pn msg now s) :=
  (foldlM_outcome (fun s c _ => parseOneCmsg_safe hpn s c) msg.cmsgs trivial).bind fun s _ =>
    update_safe hpn _ s

/-- `traceroute_receive`. -/
theorem tracerouteReceive_safe (opts : Options D) (hpn : pn < MAX_TTL * MAX_PROBES)
    (env : ProbeEnv) (s : State D) :
    Outcome Inside (fun _ => True) (tracerouteReceive opts pn env s) := by
  unfold tracerouteReceive
  refine (probe_safe hpn s).bind fun p _ => ?_
  cases receiveLoop opts.timeout p.sendTime env.attempts with
  | error rc => exact .ok trivial
  | ok answer =>
    obtain ⟨pollerr, msg⟩ := answer
    refine (parseCmsg_safe hpn msg _ s).bind fun s _ => ?_
    have hclose : ∀ s : State D, Outcome Inside (fun _ => True) (do
        let p ← s.probe pn
        let s ← (s.emit (.close p.socket)).update pn fun p => { p with socket := -1 }
        return ((0 : ℤ), s)) := fun s =>
      (probe_safe hpn s).bind fun _ _ => (update_safe hpn _ _).bind fun _ _ => .ok trivial
    refine .ite (fun _ => ?_) fun _ => ?_
    · rw [pure_bind]
      exact hclose s
    · refine (update_safe hpn _ s).bind fun s _ => ?_
      rw [pure_bind]
      exact hclose _

/-- Printing an answer. -/
theorem printAnswer_safe (opts : Options D) (hpn : pn < MAX_TTL * MAX_PROBES) (env : ProbeEnv)
    (l : Local D) : Outcome Inside (fun _ => True) (printAnswer opts pn env l) := by
  unfold printAnswer
  refine (probe_safe hpn l.s).bind fun p _ => ?_
  exact .ite (fun _ => .ok trivial) fun _ => .ok trivial

/-! ## The driver -/

/-- The loops are not left because of an index outside of `tr.probes`. -/
def LeavesInside : Leave D → Prop
  | .ret .. => True
  | .stop e => Inside e

omit [CDouble D] in
/-- A call in a loop. -/
theorem call_safe {α : Type} {x : Except Stop α} (h : Outcome Inside (fun _ => True) x) :
    Outcome (LeavesInside (D := D)) (fun _ => True) (call x) := by
  cases h with
  | error he => exact .error he
  | ok h => exact .ok h

/-- One round of the inner loop, in the row of a TTL from 1 to 255. -/
theorem probeRound_safe (opts : Options D) (hprobes : opts.probes ≤ MAX_PROBES) (net : NetEnv)
    {ttl : ℤ} (httl : 1 ≤ ttl ∧ ttl ≤ MAX_TTL) {probe : ℕ} (hprobe : (probe : ℤ) < opts.probes)
    (l : Local D) :
    Outcome LeavesInside (StepOutcome (fun _ => True) fun _ => True)
      (probeRound opts net ttl probe l) := by
  -- the row begins after the rows of the smaller TTLs
  obtain ⟨pn, hpn⟩ : ∃ pn : ℕ, (ttl - 1) * opts.probes + probe = pn :=
    Int.eq_ofNat_of_zero_le (Int.add_nonneg (Int.mul_nonneg (by omega) (by omega)) (by omega))
  have hlt : pn < MAX_TTL * MAX_PROBES := by
    have hrow : (ttl - 1) * opts.probes ≤ (MAX_TTL - 1) * opts.probes :=
      Int.mul_le_mul_of_nonneg_right (by omega) (by omega)
    unfold MAX_TTL at hrow
    unfold MAX_PROBES at hprobes
    have hmax : MAX_TTL * MAX_PROBES = 2550 := rfl
    omega
  unfold probeRound
  simp only [hpn, Int.toNat_natCast]
  have hinit : tracerouteInitProbe (pn : ℤ) l.s = .ok (0, l.s.setProbe pn .zero) := by
    rw [tracerouteInitProbe, State.probe_ok hlt]
    rfl
  rw [hinit]
  refine (call_safe (.ok trivial)).bind ?_
  rintro ⟨rc, s⟩ -
  refine .ite (fun _ => .error trivial) fun _ => ?_
  refine (call_safe (tracerouteSend_safe opts hlt ttl (net.probe pn) s)).bind ?_
  rintro ⟨rc, s⟩ -
  refine .ite (fun _ => ?_) fun _ => ?_
  · exact (call_safe (closeProbe_safe hlt id s)).bind fun _ _ => .error trivial
  refine (call_safe (tracerouteReceive_safe opts hlt (net.probe pn) s)).bind ?_
  rintro ⟨rc, s⟩ -
  refine .ite (fun _ => ?_) fun _ => ?_
  · exact (call_safe (printAnswer_safe opts hlt _ _)).bind fun _ _ => .ok (.yield trivial)
  · exact (call_safe (closeProbe_safe hlt id s)).bind fun _ _ => .ok (.yield trivial)

/-- One round of the outer loop. -/
theorem ttlRound_safe (opts : Options D) (hprobes : opts.probes ≤ MAX_PROBES) (net : NetEnv)
    {i : ℕ} (httl : 1 ≤ opts.firstTtl + i ∧ opts.firstTtl + i ≤ MAX_TTL) (l : Local D) :
    Outcome LeavesInside (StepOutcome (fun _ => True) fun _ => True) (ttlRound opts net i l) := by
  unfold ttlRound
  refine Outcome.bind (Q := fun _ => True) ?_ fun l _ => ?_
  · refine forLoop_outcome_const (fun probe l _ hprobe _ => ?_) trivial
    exact probeRound_safe opts hprobes net httl (by omega) l
  · refine .ok ?_
    split
    · exact .done trivial
    · exact .yield trivial

/-- A first TTL of at least 1, or none at all. -/
theorem doTraceroute_safe (opts : Options D) (hmax : opts.maxTtl ≤ MAX_TTL)
    (hprobes : opts.probes ≤ MAX_PROBES)
    (hfirst : 1 ≤ opts.firstTtl ∨ opts.maxTtl < opts.firstTtl) (target : String) (net : NetEnv) :
    Outcome Inside (fun _ => True) (doTraceroute opts target net) := by
  unfold doTraceroute
  generalize tracerouteInit opts net .initial = r
  obtain ⟨rc, s⟩ := r
  refine .ite (fun _ => .ok trivial) fun _ => ?_
  have hloop : Outcome LeavesInside (fun _ => True)
      (forLoop (ttlRound opts net) (opts.maxTtl - opts.firstTtl + 1).toNat 0
        ⟨s.print [headerText opts target], "", false⟩) :=
    forLoop_outcome_const (fun i l _ hi _ => ttlRound_safe opts hprobes net (by omega) l) trivial
  dsimp only
  generalize forLoop (ttlRound opts net) _ 0 _ = x at hloop ⊢
  cases hloop with
  | ok _ => exact .ok trivial
  | @error e he =>
    cases e with
    | ret rc s => exact .ok trivial
    | stop e => exact .error he

/-- A first TTL below 1: the first probe has a negative number. -/
theorem doTraceroute_outOfBounds (opts : Options D) (hprobes : 1 ≤ opts.probes)
    (hfirst : opts.firstTtl < 1) (hle : opts.firstTtl ≤ opts.maxTtl) (target : String)
    (net : NetEnv) (hinit : (tracerouteInit opts net (.initial : State D)).1 = 0) :
    doTraceroute opts target net = .error (.outOfBounds ((opts.firstTtl - 1) * opts.probes)) := by
  have hneg : (opts.firstTtl - 1) * opts.probes < 0 :=
    Int.mul_neg_of_neg_of_pos (by omega) (by omega)
  have hprobe : ∀ s : State D, s.probe ((opts.firstTtl - 1) * opts.probes) =
      .error (.outOfBounds ((opts.firstTtl - 1) * opts.probes)) := fun s => if_neg (by omega)
  obtain ⟨q, hq⟩ : ∃ q, opts.probes.toNat = q + 1 := ⟨opts.probes.toNat - 1, by omega⟩
  obtain ⟨k, hk⟩ : ∃ k, (opts.maxTtl - opts.firstTtl + 1).toNat = k + 1 :=
    ⟨(opts.maxTtl - opts.firstTtl).toNat, by omega⟩
  -- the first round of the inner loop in the first round of the outer one
  have hround : ∀ l : Local D, probeRound opts net opts.firstTtl 0 l =
      .error (.stop (.outOfBounds ((opts.firstTtl - 1) * opts.probes))) := by
    intro l
    unfold probeRound tracerouteInitProbe
    dsimp only
    rw [Int.natCast_zero, Int.add_zero, hprobe]
    rfl
  have hrow : ∀ l : Local D, ttlRound opts net 0 l =
      .error (.stop (.outOfBounds ((opts.firstTtl - 1) * opts.probes))) := by
    intro l
    unfold ttlRound
    rw [Int.natCast_zero, Int.add_zero, hq]
    simp only [forLoop, hround]
    rfl
  unfold doTraceroute
  generalize tracerouteInit opts net (.initial : State D) = r at hinit ⊢
  obtain ⟨rc, s⟩ := r
  obtain rfl : rc = 0 := hinit
  rw [hk]
  simp only [ne_eq, not_true_eq_false, if_false, forLoop, hrow]

/-! ## The options -/

/-- The arguments of `-f`, `-m` and `-q`. -/
def Opt.fArg : Opt D → Option ℤ
  | .f arg => some arg
  | _ => none

def Opt.mArg : Opt D → Option ℤ
  | .m arg => some arg
  | _ => none

def Opt.qArg : Opt D → Option ℤ
  | .q arg => some arg
  | _ => none

/-- The first TTL that the command line stands for. -/
def firstTtlOf (args : List (Opt D)) : ℤ :=
  ((args.filterMap Opt.fArg).getLast?.map atoi).getD 1

/-- The largest TTL that it stands for. -/
def maxTtlOf (args : List (Opt D)) : ℤ :=
  ((args.filterMap Opt.mArg).getLast?.map clipTtl).getD DEF_TTL

/-- The number of probes per TTL that it stands for. -/
def probesOf (args : List (Opt D)) : ℤ :=
  ((args.filterMap Opt.qArg).getLast?.map clipProbes).getD DEF_PROBES

variable [LT D] [DecidableLT D] {args : List (Opt D)} {opts' : Options D}

/-- An accepted option: which fields of `opts` it sets. -/
theorem parseOption_fields {a : Opt D} (h : parseOption opts a = .ok opts') :
    opts'.firstTtl = (a.fArg.map atoi).getD opts.firstTtl ∧
      opts'.maxTtl = (a.mArg.map clipTtl).getD opts.maxTtl ∧
      opts'.probes = (a.qArg.map clipProbes).getD opts.probes := by
  cases a with
  | h | V | unknown => exact nomatch h
  | f arg | m arg | n | w arg | q arg | U | p arg =>
    obtain rfl := Except.ok.inj h
    exact ⟨rfl, rfl, rfl⟩

/-- The rows and the probes of an accepted command line. -/
theorem parseOptions_limits (h : parseOptions args = .ok opts) :
    opts.firstTtl = firstTtlOf args ∧ opts.maxTtl = maxTtlOf args ∧
      opts.probes = probesOf args := by
  unfold parseOptions at h
  cases hloop : args.foldlM parseOption (initialOptions : Options D) with
  | error e =>
    rw [hloop] at h
    exact nomatch h
  | ok o =>
    rw [hloop] at h
    have hfirst := foldlM_field (fun o : Options D => o.firstTtl)
      (fun a _ s s' hs => (parseOption_fields hs).1) hloop
    have hmax := foldlM_field (fun o : Options D => o.maxTtl)
      (fun a _ s s' hs => (parseOption_fields hs).2.1) hloop
    have hprobes := foldlM_field (fun o : Options D => o.probes)
      (fun a _ s s' hs => (parseOption_fields hs).2.2) hloop
    rw [getLast?_filterMap_map] at hfirst hmax hprobes
    obtain rfl := Except.ok.inj h
    split
    · exact ⟨hfirst, hmax, hprobes⟩
    · exact ⟨hfirst, hmax, hprobes⟩

omit [CDouble D] [LT D] [DecidableLT D] in
/-- The packet length does not touch the rows. -/
theorem setPacketLen_limits (length : Option ℤ) (opts : Options D) :
    (setPacketLen length opts).firstTtl = opts.firstTtl ∧
      (setPacketLen length opts).maxTtl = opts.maxTtl ∧
      (setPacketLen length opts).probes = opts.probes := by
  cases length <;> exact ⟨rfl, rfl, rfl⟩

/-! ## Main result -/

/-- For every accepted command line, whatever numbers are given to `-f`, `-m` and `-q`: no run uses
    an index outside of `tr.probes` if and only if the first TTL is at least 1, or behind the last
    one, so that there is no probe. -/
theorem main_safe_iff {o : Options D} (hparse : parseOptions args = .ok o) :
    (∀ host length net i, main args host length net ≠ .error (.outOfBounds i)) ↔
      1 ≤ firstTtlOf args ∨ maxTtlOf args < firstTtlOf args := by
  obtain ⟨hfirst, hmax, hprobes⟩ := parseOptions_limits hparse
  have hrange : 1 ≤ probesOf args ∧ probesOf args ≤ MAX_PROBES := clipProbes_getD_range _
  constructor
  · -- otherwise a run stops in its first round
    intro hsafe
    by_contra hcond
    obtain ⟨hfirst', hmax', hprobes'⟩ := setPacketLen_limits none o
    refine hsafe (some "target") none oneRouter ((firstTtlOf args - 1) * probesOf args) ?_
    unfold main
    rw [hparse, ← hfirst, ← hprobes]
    exact doTraceroute_outOfBounds o (by omega) (by omega) (by omega) "target" oneRouter rfl
  · intro hcond host length net i hstop
    unfold main at hstop
    rw [hparse] at hstop
    cases host with
    | none => exact nomatch hstop
    | some host =>
      obtain ⟨hfirst', hmax', hprobes'⟩ := setPacketLen_limits length o
      have hsafe := doTraceroute_safe (setPacketLen length o)
        (by rw [hmax', hmax]; exact clipTtl_getD_le _) (by omega) (by omega) host net
      have hrun : doTraceroute (setPacketLen length o) host net = .error (.outOfBounds i) := hstop
      rw [hrun] at hsafe
      cases hsafe with
      | error hinside => exact hinside i rfl

/-- The last 56 hops, with 10 probes each. -/
theorem main_safe_iff_last : @maxTtlOf ℤ [.f 200, .m 300, .q 10] = MAX_TTL ∧
    ∀ host length net i,
      @main ℤ wholeDouble _ _ [.f 200, .m 300, .q 10] host length net ≠ .error (.outOfBounds i) :=
  ⟨rfl, (@main_safe_iff ℤ wholeDouble _ _ [.f 200, .m 300, .q 10] _ rfl).mpr (by decide)⟩

/-- With `-f 0`, the first probe has the number -3. -/
theorem firstTtl_outOfBounds :
    ∃ host length net,
      @main ℤ wholeDouble _ _ [.f 0] host length net = .error (.outOfBounds (-3)) :=
  ⟨some "target", none, oneRouter, @doTraceroute_outOfBounds ℤ wholeDouble
    ⟨AF_INET, 3, 0, 30, false, true, 33434, 5, 40⟩ (by decide) (by decide) (by decide) "target"
    oneRouter rfl⟩

end BasicTraceroute
