import OsSamples.Spec.TracerouteMemory

/-!
# The host names of the probes

A name that is taken over from the previous probe is the one that resolving the address again would
give, as long as the name of a host does not depend on the port.

## Key results

- `Names.probe`: one more probe
- `hostname_resolved`: any number of probes
-/

namespace SuccessiveTraceroute

open Traceroute

variable {D : Type} {opts : Options D} {q n base : ℕ} {s s' : State D}
  {g : SockAddr → Bool → String}

/-! ## Names as strings -/

/-- The name of a probe is what `addr2str` makes of its address: a static string, or a string in a
    block. -/
inductive HasName (g : SockAddr → Bool → String) (how : ℕ) (s : State D) (p : ProbeInfo D) : Prop
  | badAF : addr2strText g p.recvAddr how = none → p.recvHostname = .hostUnknownBadAF →
      HasName g how s p
  | block {id : ℕ} : addr2strText g p.recvAddr how = some (s.heap id) → id < s.next →
      p.recvHostname = .block id → HasName g how s p

/-- The name is what a new call of `addr2str` returns. -/
theorem HasName.deref {how : ℕ} {p : ProbeInfo D} (h : HasName g how s p) :
    s.deref p.recvHostname =
      (addr2str g p.recvAddr how s).2.deref (addr2str g p.recvAddr how s).1 := by
  rw [addr2str_eq]
  cases h with
  | badAF htext hname => rw [htext, hname]
  | @block id htext _ hname =>
    rw [htext, hname]
    show Except.ok (s.heap id) = Except.ok (if s.next = s.next then s.heap id else s.heap s.next)
    rw [if_pos rfl]

/-- It is none of the strings for probes without an answer. -/
theorem HasName.ne {how : ℕ} {p : ProbeInfo D} (h : HasName g how s p) :
    p.recvHostname ≠ .hostUnknown := by
  cases h with
  | badAF _ hname => rw [hname]; exact nofun
  | block _ _ hname => rw [hname]; exact nofun

/-- The name of another probe with the same address, later. -/
theorem HasName.of_eq {how : ℕ} {p p' : ProbeInfo D} (h : HasName g how s p)
    (haddr : addr2strText g p'.recvAddr how = addr2strText g p.recvAddr how)
    (hname' : p'.recvHostname = p.recvHostname) (hnext : s.next ≤ s'.next)
    (hheap : ∀ id < s.next, s'.heap id = s.heap id) : HasName g how s' p' := by
  cases h with
  | badAF htext hname => exact .badAF (haddr.trans htext) (hname'.trans hname)
  | block htext hid hname =>
    refine .block ?_ (hid.trans_le hnext) (hname'.trans hname)
    rw [haddr, htext, hheap _ hid]

/-- The same address, up to the port, gives the same text. -/
theorem addr2strText_congr (hport : ∀ a b, sameIpaddr a b = true → g a = g b) {a b : SockAddr}
    (hsame : sameIpaddr a b = true) (how : ℕ) : addr2strText g a how = addr2strText g b how := by
  have hfamily : a.family = b.family := by
    cases a <;> cases b <;> first | rfl | exact nomatch hsame
  unfold addr2strText
  rw [hfamily, hport a b hsame]

/-! ## All probes -/

/-- Every probe that has been answered has its name. -/
def Names (opts : Options D) (g : SockAddr → Bool → String) (s : State D) : Prop :=
  ∀ m, Answered (s.tr.probes m) → HasName g (probeHow opts) s (s.tr.probes m)

/-- One more probe: a name is taken over only from a probe that has been answered. -/
theorem Names.probe [CDouble D] {env : ProbeEnv} (h : Names opts g s) (hheld : Held q base n s)
    (hg : env.getnameinfo = g) (hport : ∀ a b, sameIpaddr a b = true → g a = g b)
    (hprobed : Probed opts n env s s') : Names opts g s' := by
  obtain ⟨hunknown, -, -⟩ := hheld.untouched n le_rfl
  obtain ⟨events, blocks, hstep⟩ : ∃ events blocks, ProbeStep n events blocks s s' := by
    cases hprobed with
    | notSent _ hstep => exact ⟨_, _, hstep⟩
    | timeout _ _ hstep => exact ⟨_, _, hstep⟩
    | answered _ _ hstep => exact ⟨_, _, hstep⟩
  have hnext := hstep.next
  intro m hans
  by_cases hm : m = n
  · subst hm
    cases hprobed with
    | notSent _ _ hresult =>
      rw [Answered, hresult] at hans
      exact hans.elim (by simp) (by simp)
    | timeout _ _ _ hresult =>
      rw [Answered, hresult] at hans
      exact hans.elim (by simp) (by simp)
    | answered _ _ hstep _ _ hnamed =>
      subst hg
      cases hnamed with
      | resolved hname htext =>
        have hnext' := hstep.next
        exact .block htext (by rw [hnext']; exact Nat.lt_succ_self _) hname
      | badAF htext hname => exact .badAF htext hname
      | taken hfirst hsame _ hname =>
        -- the address of a probe without an answer is the same as no other
        have hprev : Answered (s.tr.probes (m - 1)) := by
          by_contra hnot
          rw [hheld.unanswered _ hnot] at hsame
          cases hsame
        exact (h _ hprev).of_eq (addr2strText_congr hport hsame _).symm hname (by omega)
          hstep.heap
  · rw [hstep.probes m hm] at hans ⊢
    exact (h m hans).of_eq rfl rfl (by omega) hstep.heap

/-- The names after any number of probes. -/
theorem doProbes_names [CDouble D] {net : NetEnv} {N : ℕ} (hq : opts.probes = q) (hpos : 0 < q)
    (hN : N ≤ MAX_TTL * MAX_PROBES) (hg : ∀ pn, (net.probe pn).getnameinfo = g)
    (hport : ∀ a b, sameIpaddr a b = true → g a = g b)
    (h : ∀ m, Untouched (s.tr.probes m)) :
    ∃ s', doProbes opts net N s = .ok s' ∧ Held q s.next N s' ∧ s.next ≤ s'.next ∧
      Names opts g s' := by
  have hnames : Names opts g s := by
    intro m hans
    rw [Answered, (h m).1] at hans
    exact hans.elim (by simp) (by simp)
  refine doProbes_rule opts net (I := fun n t => Held q s.next n t ∧ s.next ≤ t.next ∧
    Names opts g t) hN (fun n _ t t' ht _ hprobed => ?_) ⟨.zero h q, le_rfl, hnames⟩
  obtain ⟨hheld, hle, hnames⟩ := ht
  obtain ⟨hheld', hle'⟩ := hheld.probe hq hpos hle hprobed
  exact ⟨hheld', hle', hnames.probe hheld (hg n) hport hprobed⟩

/-! ## Main result -/

/-- For every option setting with valid indices and every outcome of the probes, if `getnameinfo` is
    a function of the family and the address: after `do_one_probe`, an answered probe has the name
    that `addr2str` would return for its address, and one without an answer has `host_unknown`; and
    a name that an earlier probe has, too, is that of a probe of the same row that has been
    answered. -/
theorem hostname_resolved [CDouble D] (opts : Options D) (hprobes : 1 ≤ opts.probes)
    (hbound : opts.maxTtl * opts.probes ≤ MAX_TTL * MAX_PROBES) (net : NetEnv)
    (hg : ∀ pn, (net.probe pn).getnameinfo = g)
    (hport : ∀ a b, sameIpaddr a b = true → g a = g b) {s₀ : State D}
    (hinit : tracerouteInit opts net .initial = .ok (0, s₀)) {n : ℕ}
    (hn : (n : ℤ) < opts.maxTtl * opts.probes) :
    ∃ s s', doProbes opts net n s₀ = .ok s ∧ doOneProbe opts n (net.probe n) s = .ok s' ∧
      ((s'.tr.probes n).probeResult = .ok ∨ (s'.tr.probes n).probeResult = .errRecv →
        (s'.tr.probes n).recvHostname ≠ .hostUnknown ∧
        s'.deref (s'.tr.probes n).recvHostname =
          let r := addr2str g (s'.tr.probes n).recvAddr
            (if opts.noresolve then A2S_NORESOLVE else A2S_RESOLVE_HIP) s'
          r.2.deref r.1) ∧
      ((s'.tr.probes n).probeResult = .errTimeout →
        (s'.tr.probes n).recvHostname = .hostUnknown) ∧
      ∀ m < n, ∀ id, (s'.tr.probes n).recvHostname = .block id →
        (s'.tr.probes m).recvHostname = .block id →
        m / opts.probes.toNat = n / opts.probes.toNat ∧
          ((s'.tr.probes m).probeResult = .ok ∨ (s'.tr.probes m).probeResult = .errRecv) := by
  generalize hq' : opts.probes.toNat = q
  have hq : opts.probes = q := by omega
  have hpos : 0 < q := by omega
  have htotal := total_eq hq
  have hsize := total_le hq hbound
  -- at the beginning no probe has a name
  obtain ⟨hfresh, -⟩ := tracerouteInit_untouched htotal hsize hinit
  obtain ⟨s, hrun, hheld, hle, hnames⟩ := doProbes_names (N := n) hq hpos (by omega) hg hport hfresh
  -- the probe `n`, in the state after those before it
  obtain ⟨s', hprobe, hprobed⟩ :=
    doOneProbe_probed opts (show n < MAX_TTL * MAX_PROBES by omega) (net.probe n) s
  have hnames' := hnames.probe hheld (hg n) hport hprobed
  obtain ⟨hheld', -⟩ := hheld.probe hq hpos hle hprobed
  refine ⟨s, s', hrun, hprobe, fun hans => ⟨(hnames' n hans).ne, (hnames' n hans).deref⟩,
    fun htimeout => ?_, fun m _ id hn hm => ⟨hheld'.row m n id hm hn, hheld'.named m id hm⟩⟩
  -- a timeout leaves the probe without a name
  cases hprobed with
  | notSent _ _ hresult => exact nomatch htimeout.symm.trans hresult
  | timeout _ _ _ _ _ hname => exact hname
  | answered _ _ _ hresult =>
    rw [htimeout] at hresult
    exact hresult.elim nofun nofun

/-- A network in which all probes expire at the same router. -/
def sameRouter : NetEnv where
  getaddrinfo := some [.inet 1 0]
  getnameinfo _ _ := "0.0.0.2"
  probe _ := {
    socket := 3, bind := true, setTtl := true, connect := true, setRecverr := true
    sendTime := ⟨0, 0⟩
    send := true
    attempts := [⟨⟨1, 0⟩, .ready true true (some ⟨.inet 1 53,
      [.recverr ⟨SO_EE_ORIGIN_ICMP, 11, 0, 0, .inet 2 0⟩]⟩)⟩]
    cmsgTime := ⟨2, 0⟩
    getnameinfo := fun _ _ => "0.0.0.2" }

/-- The second probe of a row takes over the name of the first one. -/
theorem hostname_resolved_sameRouter :
    ∃ s₀ s s', @tracerouteInit ℤ wholeDouble ⟨AF_INET, 2, 1, 3, true, true, 33434, 5, 40⟩ sameRouter
        (@State.initial ℤ wholeDouble) = .ok (0, s₀) ∧
      @doProbes ℤ wholeDouble ⟨AF_INET, 2, 1, 3, true, true, 33434, 5, 40⟩ sameRouter 1 s₀ = .ok s ∧
      @doOneProbe ℤ wholeDouble ⟨AF_INET, 2, 1, 3, true, true, 33434, 5, 40⟩ 1
        (sameRouter.probe 1) s = .ok s' ∧
      (s'.tr.probes 1).recvHostname = .block 1 ∧ (s'.tr.probes 0).recvHostname = .block 1 ∧
      s'.deref (.block 1) = .ok "0.0.0.2" ∧
      ((s'.tr.probes 0).probeResult = .ok ∨ (s'.tr.probes 0).probeResult = .errRecv) := by
  let _ : CDouble ℤ := wholeDouble
  obtain ⟨s, s', hrun, hprobe, hname, -, hshared⟩ := hostname_resolved (D := ℤ) (n := 1)
    (g := fun _ _ => "0.0.0.2") ⟨AF_INET, 2, 1, 3, true, true, 33434, 5, 40⟩ (by decide)
    (by decide) sameRouter (fun _ => rfl) (fun _ _ _ => rfl) rfl (by decide)
  -- the two states, computed
  obtain rfl := Except.ok.inj (show Except.ok _ = .ok s from hrun)
  obtain rfl := Except.ok.inj (show Except.ok _ = .ok s' from hprobe)
  exact ⟨_, _, _, rfl, hrun, hprobe, rfl, rfl, (hname (.inl rfl)).2.trans rfl,
    (hshared 0 (by decide) 1 rfl rfl).2⟩

end SuccessiveTraceroute
