import OsSamples.Spec.TracerouteIndices
import OsSamples.Spec.TracerouteResources

/-!
# The heap blocks of the probes

Who holds the blocks that the probes have obtained: each probe its data, and the probes of a run
within a row a host name.  No field says which probes share a name; `traceroute_free_mem_probe`
finds out by looking for the pointer in the row of the probe.

## Key results

- `Held.probe`: one more probe
- `doProbes_held`: any number of probes
- `tracerouteFreeMemProbe_released`: the clean-up of one probe
- `Freeing.step`, `freeLoop_freeing`: the clean-up of any number of probes
- `freeLoop_once`: no block is freed twice
-/

namespace SuccessiveTraceroute

open Traceroute

variable {D : Type} {opts : Options D} {q n base : ℕ} {s s' t t' : State D} {env : ProbeEnv}

/-! ## Holding blocks -/

/-- The probe has been answered. -/
def Answered (p : ProbeInfo D) : Prop := p.probeResult = .ok ∨ p.probeResult = .errRecv

/-- The block is the data or the host name of the probe. -/
def Holds (p : ProbeInfo D) (id : ℕ) : Prop := p.data = .block id ∨ p.recvHostname = .block id

/-- The blocks after `n` probes, of which the first one may be `base`: each is held by some probe;
    data belong to one probe, and only probes of a row share a host name. -/
structure Held (q base n : ℕ) (s : State D) : Prop where
  untouched : ∀ m ≥ n, (s.tr.probes m).probeResult = .unknown ∧
    (s.tr.probes m).recvHostname = .null ∧ (s.tr.probes m).data = .null
  unanswered : ∀ m, ¬ Answered (s.tr.probes m) → (s.tr.probes m).recvAddr = .unspec
  named : ∀ m id, (s.tr.probes m).recvHostname = .block id → Answered (s.tr.probes m)
  range : ∀ m id, Holds (s.tr.probes m) id → base ≤ id ∧ id < s.next
  held : ∀ id, base ≤ id → id < s.next → ∃ m < n, Holds (s.tr.probes m) id
  block : ∀ m, (s.tr.probes m).data = .null ∨ ∃ id, (s.tr.probes m).data = .block id
  data : ∀ m m' id, (s.tr.probes m).data = .block id → (s.tr.probes m').data = .block id → m = m'
  apart : ∀ m m' id, (s.tr.probes m).data = .block id → (s.tr.probes m').recvHostname ≠ .block id
  row : ∀ m m' id, (s.tr.probes m).recvHostname = .block id →
    (s.tr.probes m').recvHostname = .block id → m / q = m' / q

/-- Before the first probe. -/
theorem Held.zero (h : ∀ m, (s.tr.probes m).probeResult = .unknown ∧
      (s.tr.probes m).recvHostname = .null ∧ (s.tr.probes m).data = .null ∧
      (s.tr.probes m).recvAddr = .unspec) (q : ℕ) : Held q s.next 0 s := by
  -- there is neither a name nor a data block to speak about
  have hname : ∀ m id, (s.tr.probes m).recvHostname ≠ .block id := by
    intro m id heq
    rw [(h m).2.1] at heq
    exact nomatch heq
  have hdata : ∀ m id, (s.tr.probes m).data ≠ .block id := by
    intro m id heq
    rw [(h m).2.2.1] at heq
    exact nomatch heq
  exact {
    untouched m _ := ⟨(h m).1, (h m).2.1, (h m).2.2.1⟩
    unanswered m _ := (h m).2.2.2
    named m id heq := absurd heq (hname m id)
    range m id hholds := hholds.elim (fun heq => absurd heq (hdata m id))
      fun heq => absurd heq (hname m id)
    held id hle hlt := absurd hle (by omega)
    block m := .inl (h m).2.2.1
    data m _ id heq := absurd heq (hdata m id)
    apart _ m' id _ := hname m' id
    row m _ id heq := absurd heq (hname m id) }

/-- The probe before one that is not the first one of its TTL is in the same row. -/
theorem div_pred_eq (hq : opts.probes = q) (hpos : 0 < q) (hfirst : firstOfTtl opts n = false) :
    0 < n ∧ (n - 1) / q = n / q := by
  refine ⟨pos_of_not_firstOfTtl hfirst, ?_⟩
  rw [firstOfTtl_eq hq, decide_eq_false_iff_not] at hfirst
  exact Nat.pred_div_row hpos hfirst

/-- The host name that a probe gets: none of its own, a new block, or that of the previous probe of
    the row. -/
inductive NewName (q pn : ℕ) (s s' : State D) : ℕ → Prop
  | static {blocks : ℕ} : blocks ≤ 1 →
      (∀ id, (s'.tr.probes pn).recvHostname ≠ .block id) → NewName q pn s s' blocks
  | fresh : (s'.tr.probes pn).recvHostname = .block (s.next + 1) →
      Answered (s'.tr.probes pn) → NewName q pn s s' 2
  | taken : 0 < pn → (pn - 1) / q = pn / q → Answered (s'.tr.probes pn) →
      (s'.tr.probes pn).recvHostname = (s.tr.probes (pn - 1)).recvHostname → NewName q pn s s' 1

/-- The blocks that a probe obtains, on every path. -/
theorem Probed.newName [CDouble D] (h : Probed opts n env s s') (hq : opts.probes = q)
    (hpos : 0 < q) (hnull : (s.tr.probes n).recvHostname = .null) :
    ∃ events blocks, ProbeStep n events blocks s s' ∧ NewName q n s s' blocks ∧
      (¬ Answered (s'.tr.probes n) → (s'.tr.probes n).recvAddr = (s.tr.probes n).recvAddr) := by
  -- a probe that is not sent, or not answered, has a fixed text as its name
  cases h with
  | notSent hevents hstep hresult haddr hname =>
    refine ⟨_, _, hstep, .static ?_ fun id => ?_, fun _ => haddr⟩
    · cases hevents <;> decide
    · rw [hname, hnull]
      exact nofun
  | timeout _ _ hstep hresult haddr hname =>
    refine ⟨_, _, hstep, .static le_rfl fun id => ?_, fun _ => haddr⟩
    rw [hname]
    exact nofun
  | answered _ _ hstep hresult _ hnamed =>
    cases hnamed with
    | resolved hname _ => exact ⟨_, _, hstep, .fresh hname hresult, (absurd hresult ·)⟩
    | badAF _ hname =>
      refine ⟨_, _, hstep, .static le_rfl fun id => ?_, (absurd hresult ·)⟩
      rw [hname]
      exact nofun
    | taken hfirst _ _ hname =>
      obtain ⟨hn, hrow⟩ := div_pred_eq hq hpos hfirst
      exact ⟨_, _, hstep, .taken hn hrow hresult hname, (absurd hresult ·)⟩

/-- Whose data a block is after one more probe, in terms of the state before. -/
theorem ProbeStep.data_block {events : List Event} {blocks m id : ℕ}
    (hstep : ProbeStep n events blocks s s') (hnull : (s.tr.probes n).data = .null)
    (hm : (s'.tr.probes m).data = .block id) :
    (m ≠ n ∧ (s.tr.probes m).data = .block id) ∨ (m = n ∧ id = s.next ∧ 0 < blocks) := by
  by_cases hmn : m = n
  · subst hmn
    rw [hstep.data] at hm
    split at hm
    · rw [hnull] at hm
      exact nomatch hm
    · exact .inr ⟨rfl, (Ptr.block.inj hm).symm, by omega⟩
  · rw [hstep.probes m hmn] at hm
    exact .inl ⟨hmn, hm⟩

/-- Whose host name it is. -/
theorem NewName.host_block {events : List Event} {blocks m id : ℕ}
    (hname : NewName q n s s' blocks) (hstep : ProbeStep n events blocks s s')
    (hm : (s'.tr.probes m).recvHostname = .block id) :
    (m ≠ n ∧ (s.tr.probes m).recvHostname = .block id) ∨
    (m = n ∧ id = s.next + 1 ∧ blocks = 2 ∧ Answered (s'.tr.probes n)) ∨
    (m = n ∧ (n - 1) / q = n / q ∧ (s.tr.probes (n - 1)).recvHostname = .block id ∧
      Answered (s'.tr.probes n)) := by
  by_cases hmn : m = n
  · subst hmn
    cases hname with
    | static _ hne => exact absurd hm (hne id)
    | fresh hblock hans =>
      rw [hblock] at hm
      exact .inr (.inl ⟨rfl, (Ptr.block.inj hm).symm, rfl, hans⟩)
    | taken _ hrow hans htaken => exact .inr (.inr ⟨rfl, hrow, htaken ▸ hm, hans⟩)
  · rw [hstep.probes m hmn] at hm
    exact .inl ⟨hmn, hm⟩

section OneMore

variable {events : List Event} {blocks : ℕ} (h : Held q base n s)
  (hstep : ProbeStep n events blocks s s') (hname : NewName q n s s' blocks)

include h hstep hname

/-- The blocks that are held lie between the first one and the next one. -/
theorem Held.probe_range (hbase : base ≤ s.next) (m id : ℕ) (hm : Holds (s'.tr.probes m) id) :
    base ≤ id ∧ id < s'.next := by
  have hnext := hstep.next
  rcases hm with hm | hm
  · rcases hstep.data_block (h.untouched n le_rfl).2.2 hm with ⟨-, hm⟩ | ⟨-, rfl, hblocks⟩
    · have hlt := h.range m id (.inl hm)
      omega
    · omega
  · rcases hname.host_block hstep hm with ⟨-, hm⟩ | ⟨-, rfl, hblocks, -⟩ | ⟨-, -, hm, -⟩
    · have hlt := h.range m id (.inr hm)
      omega
    · omega
    · have hlt := h.range (n - 1) id (.inr hm)
      omega

/-- Every block between them is held. -/
theorem Held.probe_held (id : ℕ) (hle : base ≤ id) (hlt : id < s'.next) :
    ∃ m < n + 1, Holds (s'.tr.probes m) id := by
  have hnext := hstep.next
  by_cases hlt' : id < s.next
  · obtain ⟨m, hm, hholds⟩ := h.held id hle hlt'
    refine ⟨m, by omega, ?_⟩
    rw [hstep.probes m (by omega)]
    exact hholds
  · -- a new block: the data, or the name behind them
    refine ⟨n, Nat.lt_succ_self n, ?_⟩
    have hnew : id = s.next ∨ (id = s.next + 1 ∧ blocks = 2) := by
      cases hname with
      | static hblocks _ => omega
      | fresh => omega
      | taken => omega
    rcases hnew with rfl | ⟨rfl, rfl⟩
    · left
      rw [hstep.data, if_neg (by omega)]
    · right
      cases hname with
      | static hblocks _ => omega
      | fresh hblock _ => exact hblock

omit hname in
/-- Data belong to one probe. -/
theorem Held.probe_data (m m' id : ℕ) (hm : (s'.tr.probes m).data = .block id)
    (hm' : (s'.tr.probes m').data = .block id) : m = m' := by
  have hnull := (h.untouched n le_rfl).2.2
  have hold : ∀ m id, (s.tr.probes m).data = .block id → id < s.next := fun m id hm =>
    (h.range m id (.inl hm)).2
  rcases hstep.data_block hnull hm with ⟨hmn, hm⟩ | ⟨rfl, hid, -⟩ <;>
    rcases hstep.data_block hnull hm' with ⟨hmn', hm'⟩ | ⟨rfl, hid', -⟩
  · exact h.data m m' id hm hm'
  · exact absurd (hold m id hm) (by omega)
  · exact absurd (hold m' id hm') (by omega)
  · rfl

/-- They are no host name. -/
theorem Held.probe_apart (m m' id : ℕ) (hm : (s'.tr.probes m).data = .block id) :
    (s'.tr.probes m').recvHostname ≠ .block id := by
  intro hm'
  have hold : ∀ m id, Holds (s.tr.probes m) id → id < s.next := fun m id hm => (h.range m id hm).2
  rcases hstep.data_block (h.untouched n le_rfl).2.2 hm with ⟨hmn, hm⟩ | ⟨rfl, hid, -⟩ <;>
    rcases hname.host_block hstep hm' with ⟨hmn', hm'⟩ | ⟨rfl, hid', -, -⟩ | ⟨rfl, -, hm', -⟩
  · exact h.apart m m' id hm hm'
  · exact absurd (hold m id (.inl hm)) (by omega)
  · exact h.apart m _ id hm hm'
  · exact absurd (hold m' id (.inr hm')) (by omega)
  · omega
  · exact absurd (hold _ _ (.inr hm')) (by omega)

/-- Probes that share a host name are in one row. -/
theorem Held.probe_row (m m' id : ℕ) (hm : (s'.tr.probes m).recvHostname = .block id)
    (hm' : (s'.tr.probes m').recvHostname = .block id) : m / q = m' / q := by
  have hold : ∀ m id, (s.tr.probes m).recvHostname = .block id → id < s.next := fun m id hm =>
    (h.range m id (.inr hm)).2
  rcases hname.host_block hstep hm with ⟨hmn, hm⟩ | ⟨rfl, hid, -, -⟩ | ⟨rfl, hrow, hm, -⟩ <;>
    rcases hname.host_block hstep hm' with
      ⟨hmn', hm'⟩ | ⟨rfl, hid', -, -⟩ | ⟨rfl, hrow', hm', -⟩
  · exact h.row m m' id hm hm'
  · exact absurd (hold m id hm) (by omega)
  · -- the later one has taken its name from the probe before it
    rw [← hrow']
    exact h.row m _ id hm hm'
  · exact absurd (hold m' id hm') (by omega)
  · rfl
  · exact absurd (hold _ id hm') (by omega)
  · rw [← hrow]
    exact h.row _ m' id hm hm'
  · exact absurd (hold _ id hm) (by omega)
  · rfl

end OneMore

/-- One more probe. -/
theorem Held.probe [CDouble D] (h : Held q base n s) (hq : opts.probes = q) (hpos : 0 < q)
    (hbase : base ≤ s.next) (hprobed : Probed opts n env s s') :
    Held q base (n + 1) s' ∧ base ≤ s'.next := by
  -- the probe has not been touched before
  obtain ⟨hunknown, hnull, hdnull⟩ := h.untouched n le_rfl
  obtain ⟨events, blocks, hstep, hname, haddr⟩ := hprobed.newName hq hpos hnull
  have hnext := hstep.next
  refine ⟨⟨fun m hm => ?_, fun m hm => ?_, fun m id hm => ?_, h.probe_range hstep hname hbase,
    h.probe_held hstep hname, fun m => ?_, h.probe_data hstep, h.probe_apart hstep hname,
    h.probe_row hstep hname⟩, by omega⟩
  -- probes behind this one are still untouched
  · rw [hstep.probes m (by omega)]
    exact h.untouched m (by omega)
  -- an unanswered probe has neither a name nor an address
  · by_cases hmn : m = n
    · subst hmn
      rw [haddr hm]
      refine h.unanswered m fun hans => ?_
      rw [Answered, hunknown] at hans
      exact hans.elim nofun nofun
    · rw [hstep.probes m hmn] at hm ⊢
      exact h.unanswered m hm
  -- a name is that of this probe, or taken over from it, or one of before
  · rcases hname.host_block hstep hm with ⟨hmn, hm⟩ | ⟨rfl, -, -, hans⟩ | ⟨rfl, -, -, hans⟩
    · rw [hstep.probes m hmn]
      exact h.named m id hm
    · exact hans
    · exact hans
  -- the data block of this probe is allocated now, if there is one
  · by_cases hmn : m = n
    · subst hmn
      rw [hstep.data]
      split
      · exact .inl hdnull
      · exact .inr ⟨_, rfl⟩
    · rw [hstep.probes m hmn]
      exact h.block m

/-! ## The log -/

/-- The blocks obtained so far. -/
def State.allocs (s : State D) : List ℕ :=
  s.log.filterMap fun
    | .alloc id => some id
    | .socket _ | .close _ | .send .. | .free _ => none

/-- The pointers passed to `free` so far. -/
def State.frees (s : State D) : List Ptr :=
  s.log.filterMap fun
    | .free p => some p
    | .socket _ | .close _ | .send .. | .alloc _ => none

theorem frees_emit_free (s : State D) (p : Ptr) : (s.emit (.free p)).frees = s.frees ++ [p] := by
  simp [State.frees, State.emit]

theorem allocs_emit_free (s : State D) (p : Ptr) : (s.emit (.free p)).allocs = s.allocs := by
  simp [State.allocs, State.emit]

/-- `do_one_probe` frees nothing. -/
theorem Probed.frees [CDouble D] (h : Probed opts n env s s') : s'.frees = s.frees := by
  cases h with
  | notSent hevents hstep =>
    rw [State.frees, hstep.log]
    cases hevents <;> simp [State.frees]
  | timeout _ _ hstep =>
    rw [State.frees, hstep.log]
    simp [State.frees]
  | answered _ _ hstep _ _ hnamed =>
    rw [State.frees, hstep.log]
    cases hnamed <;> simp [State.frees]

/-! ## All probes -/

section Probes

variable [CDouble D] {net : NetEnv}

/-- The probes `0, ..., n - 1` one after the other. -/
def doProbes (opts : Options D) (net : NetEnv) (n : ℕ) (s : State D) : Except Stop (State D) :=
  forLoop (fun pn s => return .yield (← doOneProbe opts pn (net.probe pn) s)) n 0 s

/-- A property that each probe takes from one number to the next. -/
theorem doProbes_rule (opts : Options D) (net : NetEnv) {I : ℕ → State D → Prop} {N : ℕ}
    (hN : N ≤ MAX_TTL * MAX_PROBES)
    (hI : ∀ n < N, ∀ s s', I n s → doOneProbe opts n (net.probe n) s = .ok s' →
      Probed opts n (net.probe n) s s' → I (n + 1) s') (h : I 0 s) :
    ∃ s', doProbes opts net N s = .ok s' ∧ I N s' := by
  have hloop : ∀ n s, 0 ≤ n → n < 0 + N → I n s →
      ∃ s', (return .yield (← doOneProbe opts n (net.probe n) s) :
        Except Stop (ForInStep (State D))) = .ok (.yield s') ∧ I (n + 1) s' := by
    intro n s _ hn hs
    obtain ⟨s', hprobe, hprobed⟩ :=
      doOneProbe_probed opts (show n < MAX_TTL * MAX_PROBES by omega) (net.probe n) s
    refine ⟨s', ?_, hI n (by omega) s s' hs hprobe hprobed⟩
    rw [hprobe]
    rfl
  obtain ⟨s', hs', hI'⟩ := forLoop_rule_of_yield hloop h
  rw [Nat.zero_add] at hI'
  exact ⟨s', hs', hI'⟩

/-- The final probe, too, is among the probes that have been made. -/
theorem doProbes_held (net : NetEnv) {N : ℕ} (hq : opts.probes = q) (hpos : 0 < q)
    (hN : N ≤ MAX_TTL * MAX_PROBES) (h : Held q base 0 s) (hbase : base ≤ s.next)
    (hfinal : s.tr.finalProbe < 0) :
    ∃ s', doProbes opts net N s = .ok s' ∧ Held q base N s' ∧ FinalBelow N s' ∧
      s'.frees = s.frees := by
  have hprobe : ∀ n < N, ∀ t t', (Held q base n t ∧ base ≤ t.next ∧ FinalBelow n t ∧
        t.frees = s.frees) → doOneProbe opts n (net.probe n) t = .ok t' →
      Probed opts n (net.probe n) t t' →
      Held q base (n + 1) t' ∧ base ≤ t'.next ∧ FinalBelow (n + 1) t' ∧ t'.frees = s.frees := by
    rintro n hn t t' ⟨hheld, hle, hbelow, hfrees⟩ hprobe hprobed
    obtain ⟨hheld', hle'⟩ := hheld.probe hq hpos hle hprobed
    have hsafe := doOneProbe_safe opts (hn.trans_le hN) (net.probe n) hbelow
    rw [hprobe] at hsafe
    cases hsafe with
    | ok hbelow' => exact ⟨hheld', hle', hbelow', hprobed.frees.trans hfrees⟩
  obtain ⟨s', hrun, hheld, -, hbelow, hfrees⟩ :=
    doProbes_rule opts net hN hprobe ⟨h, hbase, hfinal, rfl⟩
  exact ⟨s', hrun, hheld, hbelow, hfrees⟩

/-- A probe as `traceroute_init` leaves it. -/
def Untouched (p : ProbeInfo D) : Prop :=
  p.probeResult = .unknown ∧ p.recvHostname = .null ∧ p.data = .null ∧ p.recvAddr = .unspec

/-- `traceroute_init`. -/
theorem tracerouteInit_untouched {N : ℕ} (hN : (opts.maxTtl * opts.probes).toNat = N)
    (hbound : N ≤ MAX_TTL * MAX_PROBES) {s₀ : State D}
    (hinit : tracerouteInit opts net .initial = .ok (0, s₀)) :
    (∀ m, Untouched (s₀.tr.probes m)) ∧ s₀.next = 0 ∧ s₀.log = [] ∧ s₀.tr.finalProbe = -1 := by
  unfold tracerouteInit at hinit
  cases hres : net.getaddrinfo with
  | none =>
    rw [hres] at hinit
    exact nomatch hinit
  | some res =>
    rw [hres, hN] at hinit
    simp only [bind, Except.bind, pure, Except.pure] at hinit
    split at hinit
    · exact nomatch hinit
    · generalize hs₁ : ({ (State.initial : State D) with tr := _ } : State D) = s₁ at hinit
      have h₁ : (∀ m, Untouched (s₁.tr.probes m)) ∧ s₁.next = 0 ∧ s₁.log = [] ∧
          s₁.tr.finalProbe = -1 := by
        rw [← hs₁]
        exact ⟨fun _ => ⟨rfl, rfl, rfl, rfl⟩, rfl, rfl, rfl⟩
      -- the loop writes the sockets
      have hround : ∀ pn (t : State D), 0 ≤ pn → pn < 0 + N →
          ((∀ m, Untouched (t.tr.probes m)) ∧ t.next = 0 ∧ t.log = [] ∧ t.tr.finalProbe = -1) →
          ∃ t', initRound pn t = .ok (.yield t') ∧ (∀ m, Untouched (t'.tr.probes m)) ∧
            t'.next = 0 ∧ t'.log = [] ∧ t'.tr.finalProbe = -1 := by
        intro pn t _ hpn ht
        refine ⟨_, initRound_ok (by omega) t, fun m => ?_, ht.2⟩
        by_cases hm : m = pn
        · subst hm
          rw [State.setProbe_probes_self]
          exact ht.1 m
        · rw [State.setProbe_probes_of_ne _ hm]
          exact ht.1 m
      obtain ⟨s', hloop, h'⟩ := forLoop_rule_of_yield hround h₁
      rw [hloop] at hinit
      obtain ⟨-, rfl⟩ := Prod.mk.inj (Except.ok.inj hinit)
      exact h'

end Probes

/-! ## The clean-up of one probe -/

/-- What `traceroute_free_mem_probe` does, in its three cases: the name is static (or there is
    none), another probe of the row has it, too, or it is freed. -/
inductive Released (q pn : ℕ) (s : State D) : State D → Prop
  | static : (s.tr.probes pn).recvHostname = .null ∨
      (s.tr.probes pn).recvHostname = .hostUnknown →
      Released q pn s (s.emit (.free (s.tr.probes pn).data))
  | shared {m : ℕ} : (s.tr.probes pn).recvHostname ≠ .null →
      (s.tr.probes pn).recvHostname ≠ .hostUnknown → m ≠ pn → m / q = pn / q →
      (s.tr.probes m).recvHostname = (s.tr.probes pn).recvHostname →
      Released q pn s ((s.emit (.free (s.tr.probes pn).data)).setProbe pn
        { s.tr.probes pn with recvHostname := .null })
  | freed : (s.tr.probes pn).recvHostname ≠ .null →
      (s.tr.probes pn).recvHostname ≠ .hostUnknown →
      (∀ m ≠ pn, m / q = pn / q →
        (s.tr.probes m).recvHostname ≠ (s.tr.probes pn).recvHostname) →
      Released q pn s (((s.emit (.free (s.tr.probes pn).data)).emit
        (.free (s.tr.probes pn).recvHostname)).setProbe pn
        { s.tr.probes pn with recvHostname := .null })

/-- `traceroute_free_mem_probe`. -/
theorem tracerouteFreeMemProbe_released {pn : ℕ} (hq : opts.probes = q) (hpos : 0 < q)
    (hrow : (pn / q + 1) * q ≤ MAX_TTL * MAX_PROBES) (s : State D) :
    ∃ s', tracerouteFreeMemProbe opts pn s = .ok s' ∧ Released q pn s s' := by
  have hpn : pn < MAX_TTL * MAX_PROBES := by
    have hlt := Nat.lt_div_mul_add hpos (a := pn)
    rw [Nat.succ_mul] at hrow
    omega
  simp only [tracerouteFreeMemProbe, State.probe_ok hpn, bind, Except.bind, pure, Except.pure]
  split
  · rename_i hname
    obtain ⟨b, hshared, hiff⟩ :=
      hostnameShared_ok hq hpos hrow (s.emit (.free (s.tr.probes pn).data))
    simp only [hshared, State.update_ok hpn]
    cases b with
    | true =>
      obtain ⟨m, hm, hsame, heq⟩ := hiff.mp rfl
      exact ⟨_, rfl, .shared hname.1 hname.2 hm hsame heq⟩
    | false =>
      refine ⟨_, rfl, .freed hname.1 hname.2 fun m hm hsame heq => ?_⟩
      cases hiff.mpr ⟨m, hm, hsame, heq⟩
  · rename_i hname
    refine ⟨_, rfl, .static ?_⟩
    by_contra hne
    exact hname (not_or.mp hne)

/-- Other probes and the data stay. -/
theorem Released.probes {pn m : ℕ} (h : Released q pn s s') (hm : m ≠ pn) :
    s'.tr.probes m = s.tr.probes m := by
  cases h with
  | static => rfl
  | shared => exact State.setProbe_probes_of_ne _ hm _
  | freed => exact State.setProbe_probes_of_ne _ hm _

theorem Released.data {pn : ℕ} (h : Released q pn s s') (m : ℕ) :
    (s'.tr.probes m).data = (s.tr.probes m).data := by
  by_cases hm : m = pn
  · subst hm
    cases h with
    | static => rfl
    | shared | freed => rw [State.setProbe_probes_self]
  · rw [h.probes hm]

theorem Released.allocs {pn : ℕ} (h : Released q pn s s') : s'.allocs = s.allocs := by
  cases h with
  | static => exact allocs_emit_free s _
  | shared => exact allocs_emit_free s _
  | freed => exact (allocs_emit_free _ _).trans (allocs_emit_free s _)

/-- The probe has no name any more that could be freed. -/
theorem Released.hostname {pn : ℕ} (h : Released q pn s s') :
    (s'.tr.probes pn).recvHostname = .null ∨ (s'.tr.probes pn).recvHostname = .hostUnknown := by
  cases h with
  | static hname => exact hname
  | shared | freed =>
    rw [State.setProbe_probes_self]
    exact .inl rfl

/-- A block that is still held by a name is held by that of another probe. -/
theorem Released.block {pn m id : ℕ} (h : Released q pn s s')
    (hm : (s'.tr.probes m).recvHostname = .block id) :
    m ≠ pn ∧ (s.tr.probes m).recvHostname = .block id := by
  have hne : m ≠ pn := by
    rintro rfl
    rcases h.hostname with hname | hname <;> exact nomatch hm.symm.trans hname
  rw [h.probes hne] at hm
  exact ⟨hne, hm⟩

/-- The pointers that are passed to `free`: the data, and the name if no other probe of the row has
    it. -/
theorem Released.frees {pn : ℕ} (h : Released q pn s s') :
    ∃ names, s'.frees = s.frees ++ ((s.tr.probes pn).data :: names) ∧
      (((s.tr.probes pn).recvHostname = .null ∨ (s.tr.probes pn).recvHostname = .hostUnknown) ∧
          names = [] ∨
        (∃ m ≠ pn, m / q = pn / q ∧
          (s.tr.probes m).recvHostname = (s.tr.probes pn).recvHostname) ∧ names = [] ∨
        ((s.tr.probes pn).recvHostname ≠ .hostUnknown ∧ ∀ m ≠ pn, m / q = pn / q →
          (s.tr.probes m).recvHostname ≠ (s.tr.probes pn).recvHostname) ∧
          names = [(s.tr.probes pn).recvHostname]) := by
  cases h with
  | static hname => exact ⟨[], frees_emit_free s _, .inl ⟨hname, rfl⟩⟩
  | @shared m _ _ hm hrow heq =>
    exact ⟨[], frees_emit_free s _, .inr (.inl ⟨⟨m, hm, hrow, heq⟩, rfl⟩)⟩
  | freed _ hne hother =>
    refine ⟨[(s.tr.probes pn).recvHostname], ?_, .inr (.inr ⟨⟨hne, hother⟩, rfl⟩)⟩
    show ((s.emit _).emit (.free (s.tr.probes pn).recvHostname)).frees = _
    rw [frees_emit_free, frees_emit_free, List.append_assoc]
    rfl

/-! ## The clean-up of all probes -/

/-- After the clean-up of the first `k` probes, from `s` to `t`, a block is still held by the data
    of a later probe, or by a name. -/
def Live (s : State D) (k : ℕ) (t : State D) (id : ℕ) : Prop :=
  (∃ m ≥ k, (s.tr.probes m).data = .block id) ∨ ∃ m, (t.tr.probes m).recvHostname = .block id

/-- After the clean-up of the first `k` probes, with the pointers `ptrs` passed to `free`: a block
    is either still held, or it has been freed exactly once; and a name that has not been freed is
    that of a later probe of the row. -/
structure Freeing (q : ℕ) (s : State D) (k : ℕ) (ptrs : List Ptr) (t : State D) : Prop where
  allocs : t.allocs = s.allocs
  frees : t.frees = s.frees ++ ptrs
  data : ∀ m, (t.tr.probes m).data = (s.tr.probes m).data
  later : ∀ m ≥ k, (t.tr.probes m).recvHostname = (s.tr.probes m).recvHostname
  past : ∀ m < k, (t.tr.probes m).recvHostname = .null ∨
    (t.tr.probes m).recvHostname = .hostUnknown
  once : ∀ id, (∃ m, Holds (s.tr.probes m) id) →
    (Live s k t id ∧ ptrs.count (.block id) = 0) ∨ (¬ Live s k t id ∧ ptrs.count (.block id) = 1)
  source : ∀ p ∈ ptrs, ∃ m < k, p = (s.tr.probes m).data ∨
    (p = (s.tr.probes m).recvHostname ∧ p ≠ .hostUnknown)
  shared : ∀ m < k, (s.tr.probes m).recvHostname ≠ .null →
    (s.tr.probes m).recvHostname ≠ .hostUnknown → (s.tr.probes m).recvHostname ∈ ptrs ∨
      ∃ m' ≥ k, m' / q = m / q ∧ (s.tr.probes m').recvHostname = (s.tr.probes m).recvHostname

/-- Before the clean-up. -/
theorem Freeing.zero (q : ℕ) (s : State D) : Freeing q s 0 [] s := by
  refine ⟨rfl, (List.append_nil _).symm, fun _ => rfl, fun _ _ => rfl, nofun,
    fun id hholds => .inl ⟨?_, rfl⟩, nofun, nofun⟩
  obtain ⟨m, hm | hm⟩ := hholds
  · exact .inl ⟨m, Nat.zero_le m, hm⟩
  · exact .inr ⟨m, hm⟩

section Freeing

variable {k : ℕ} {ptrs : List Ptr}

/-- A name that is still there is that of a later probe. -/
theorem Freeing.hostname {m : ℕ} {p : Ptr} (h : Freeing q s k ptrs t)
    (hm : (t.tr.probes m).recvHostname = p) (hnull : p ≠ .null) (hunknown : p ≠ .hostUnknown) :
    k ≤ m ∧ (s.tr.probes m).recvHostname = p := by
  subst hm
  by_cases hmk : k ≤ m
  · exact ⟨hmk, (h.later m hmk).symm⟩
  · exact (h.past m (by omega)).elim (absurd · hnull) (absurd · hunknown)

/-- Only blocks that are held are freed. -/
theorem Freeing.holds {id : ℕ} (h : Freeing q s k ptrs t) (hmem : .block id ∈ ptrs) :
    ∃ m, Holds (s.tr.probes m) id := by
  obtain ⟨m, -, heq | ⟨heq, -⟩⟩ := h.source _ hmem
  · exact ⟨m, .inl heq.symm⟩
  · exact ⟨m, .inr heq.symm⟩

/-- A name is not the data of any probe. -/
theorem Freeing.apart {m m' id : ℕ} (h : Freeing q s k ptrs t) (hheld : Held q base n s)
    (hm : (s.tr.probes m).data = .block id) : (t.tr.probes m').recvHostname ≠ .block id :=
  fun hm' => hheld.apart m m' id hm (h.hostname hm' nofun nofun).2

/-- A name is shared within the row only. -/
theorem Freeing.row {m m' id : ℕ} (h : Freeing q s k ptrs t) (hheld : Held q base n s)
    (hm : (t.tr.probes m).recvHostname = .block id)
    (hm' : (t.tr.probes m').recvHostname = .block id) : m / q = m' / q :=
  hheld.row m m' id (h.hostname hm nofun nofun).2 (h.hostname hm' nofun nofun).2

/-- A block that is still held has not been freed. -/
theorem Freeing.count_of_live {id : ℕ} (h : Freeing q s k ptrs t)
    (hholds : ∃ m, Holds (s.tr.probes m) id) (hlive : Live s k t id) :
    ptrs.count (.block id) = 0 := by
  rcases h.once id hholds with ⟨-, hcount⟩ | ⟨hnot, -⟩
  · exact hcount
  · exact absurd hlive hnot

/-- After the clean-up of one more probe nobody holds its data. -/
theorem Freeing.not_live_data {id : ℕ} (h : Freeing q s k ptrs t) (hheld : Held q base n s)
    (hrel : Released q k t t') (hdata : (s.tr.probes k).data = .block id) :
    ¬ Live s (k + 1) t' id := by
  rintro (⟨m, hm, hdata'⟩ | ⟨m, hm⟩)
  · have heq := hheld.data k m id hdata hdata'
    omega
  · exact h.apart hheld hdata (hrel.block hm).2

/-- Or its name, unless another probe of the row has the same. -/
theorem Freeing.not_live_name {id : ℕ} (h : Freeing q s k ptrs t) (hheld : Held q base n s)
    (hrel : Released q k t t') (hk : (t.tr.probes k).recvHostname = .block id)
    (hother : ∀ m ≠ k, m / q = k / q →
      (t.tr.probes m).recvHostname ≠ (t.tr.probes k).recvHostname) : ¬ Live s (k + 1) t' id := by
  rintro (⟨m, -, hdata⟩ | ⟨m, hm⟩)
  · exact h.apart hheld hdata hk
  · obtain ⟨hne, hm'⟩ := hrel.block hm
    exact hother m hne (h.row hheld hm' hk) (hm'.trans hk.symm)

/-- The blocks of other probes are held as before. -/
theorem live_other {id : ℕ} (hrel : Released q k t t') (hdata : (s.tr.probes k).data ≠ .block id)
    (hk : (t.tr.probes k).recvHostname ≠ .block id) : Live s (k + 1) t' id ↔ Live s k t id := by
  constructor
  · rintro (⟨m, hm, hdata'⟩ | ⟨m, hm⟩)
    · exact .inl ⟨m, by omega, hdata'⟩
    · exact .inr ⟨m, (hrel.block hm).2⟩
  · rintro (⟨m, hm, hdata'⟩ | ⟨m, hm⟩)
    · have hne : m ≠ k := fun heq => hdata (heq ▸ hdata')
      exact .inl ⟨m, by omega, hdata'⟩
    · have hne : m ≠ k := fun heq => hk (heq ▸ hm)
      exact .inr ⟨m, by rw [hrel.probes hne]; exact hm⟩

/-- One more probe: a block that it held is still held, or has been freed now. -/
theorem Freeing.once_step {id : ℕ} {names : List Ptr} (h : Freeing q s k ptrs t)
    (hheld : Held q base n s) (hrel : Released q k t t')
    (hnames : ((t.tr.probes k).recvHostname = .null ∨ (t.tr.probes k).recvHostname = .hostUnknown) ∧
        names = [] ∨
      (∃ m ≠ k, m / q = k / q ∧
        (t.tr.probes m).recvHostname = (t.tr.probes k).recvHostname) ∧ names = [] ∨
      ((t.tr.probes k).recvHostname ≠ .hostUnknown ∧ ∀ m ≠ k, m / q = k / q →
        (t.tr.probes m).recvHostname ≠ (t.tr.probes k).recvHostname) ∧
        names = [(t.tr.probes k).recvHostname])
    (hholds : ∃ m, Holds (s.tr.probes m) id) :
    (Live s (k + 1) t' id ∧ (ptrs ++ (t.tr.probes k).data :: names).count (.block id) = 0) ∨
      (¬ Live s (k + 1) t' id ∧
        (ptrs ++ (t.tr.probes k).data :: names).count (.block id) = 1) := by
  have hmem : .block id ∈ names → (t.tr.probes k).recvHostname = .block id := by
    intro hmem
    rcases hnames with ⟨-, rfl⟩ | ⟨-, rfl⟩ | ⟨-, rfl⟩
    · exact nomatch hmem
    · exact nomatch hmem
    · exact (List.mem_singleton.mp hmem).symm
  rw [List.count_append, List.count_cons, h.data]
  by_cases hdata : (s.tr.probes k).data = .block id
  · -- the data of this probe
    have hcount := List.count_eq_zero.mpr fun h' => h.apart hheld hdata (hmem h')
    have hcount' := h.count_of_live hholds (.inl ⟨k, le_rfl, hdata⟩)
    exact .inr ⟨h.not_live_data hheld hrel hdata, by simp [hcount, hcount', hdata]⟩
  · have hd : (if ((s.tr.probes k).data == Ptr.block id) = true then 1 else 0) = 0 := by
      simp [hdata]
    rw [hd, Nat.add_zero]
    by_cases hk : (t.tr.probes k).recvHostname = .block id
    · -- the name of this probe
      rw [h.count_of_live hholds (.inr ⟨k, hk⟩), Nat.zero_add]
      rcases hnames with ⟨hstatic, -⟩ | ⟨⟨m, hm, -, heq⟩, rfl⟩ | ⟨⟨-, hother⟩, rfl⟩
      · rw [hk] at hstatic
        exact hstatic.elim nofun nofun
      · exact .inl ⟨.inr ⟨m, by rw [hrel.probes hm, heq, hk]⟩, rfl⟩
      · exact .inr ⟨h.not_live_name hheld hrel hk hother, by rw [hk, List.count_singleton_self]⟩
    · -- a block of other probes
      rw [List.count_eq_zero.mpr fun h' => hk (hmem h'), Nat.add_zero,
        live_other hrel hdata hk]
      exact h.once id hholds

/-- The clean-up of one more probe: what is freed by it is no other probe's name. -/
theorem Freeing.step (h : Freeing q s k ptrs t) (hheld : Held q base n s)
    (hrel : Released q k t t') :
    ∃ ptrs', t'.frees = t.frees ++ ptrs' ∧ Freeing q s (k + 1) (ptrs ++ ptrs') t' ∧
      ∀ id, .block id ∈ ptrs' → ∀ m ≠ k, (t.tr.probes m).recvHostname ≠ .block id := by
  obtain ⟨names, hfrees, hnames⟩ := hrel.frees
  have hname := h.later k le_rfl
  -- the name of this probe is freed, or a later probe of the row has it
  have hshared : (s.tr.probes k).recvHostname ≠ .null →
      (s.tr.probes k).recvHostname ≠ .hostUnknown →
      (s.tr.probes k).recvHostname ∈ names ∨ ∃ m ≥ k + 1, m / q = k / q ∧
        (s.tr.probes m).recvHostname = (s.tr.probes k).recvHostname := by
    rw [← hname]
    intro hnull hunknown
    rcases hnames with ⟨hstatic, -⟩ | ⟨⟨m, hm, hrow, heq⟩, -⟩ | ⟨-, rfl⟩
    · exact hstatic.elim (absurd · hnull) (absurd · hunknown)
    · obtain ⟨hle, hs⟩ := h.hostname heq hnull hunknown
      exact .inr ⟨m, by omega, hrow, hs⟩
    · exact .inl (List.mem_singleton_self _)
  refine ⟨(t.tr.probes k).data :: names, hfrees, ⟨hrel.allocs.trans h.allocs, ?_,
    fun m => ?_, fun m hm => ?_, fun m hm => ?_,
    fun id hholds => h.once_step hheld hrel hnames hholds, fun p hmem => ?_,
    fun m hm hnull hunknown => ?_⟩, fun id hmem m hm hm' => ?_⟩
  · rw [hfrees, h.frees, List.append_assoc]
  · rw [hrel.data, h.data]
  · rw [hrel.probes (by omega)]
    exact h.later m (by omega)
  · rcases Nat.lt_succ_iff_lt_or_eq.mp hm with hlt | rfl
    · rw [hrel.probes (by omega)]
      exact h.past m hlt
    · exact hrel.hostname
  · rcases List.mem_append.mp hmem with hmem | hmem
    · obtain ⟨m, hm, hp⟩ := h.source p hmem
      exact ⟨m, by omega, hp⟩
    · refine ⟨k, Nat.lt_succ_self k, ?_⟩
      rcases List.mem_cons.mp hmem with rfl | hmem
      · exact .inl (h.data k)
      · rcases hnames with ⟨-, rfl⟩ | ⟨-, rfl⟩ | ⟨⟨hne, -⟩, rfl⟩
        · exact nomatch hmem
        · exact nomatch hmem
        · obtain rfl := List.mem_singleton.mp hmem
          exact .inr ⟨hname, hne⟩
  · rcases Nat.lt_succ_iff_lt_or_eq.mp hm with hlt | rfl
    · rcases h.shared m hlt hnull hunknown with hfreed | ⟨m', hm', hrow, heq⟩
      · exact .inl (List.mem_append_left _ hfreed)
      · by_cases hlater : k + 1 ≤ m'
        · exact .inr ⟨m', hlater, hrow, heq⟩
        · obtain rfl : m' = k := by omega
          rw [← heq] at hnull hunknown ⊢
          rcases hshared hnull hunknown with hfreed | ⟨m₂, hm₂, hrow₂, heq₂⟩
          · exact .inl (List.mem_append_right _ (List.mem_cons_of_mem _ hfreed))
          · exact .inr ⟨m₂, hm₂, hrow₂.trans hrow, heq₂⟩
    · rcases hshared hnull hunknown with hfreed | ⟨m₂, hm₂, hrow₂, heq₂⟩
      · exact .inl (List.mem_append_right _ (List.mem_cons_of_mem _ hfreed))
      · exact .inr ⟨m₂, hm₂, hrow₂, heq₂⟩
  · rcases List.mem_cons.mp hmem with heq | hmem
    · exact h.apart hheld (by rw [← h.data, ← heq]) hm'
    · rcases hnames with ⟨-, rfl⟩ | ⟨-, rfl⟩ | ⟨⟨-, hother⟩, rfl⟩
      · exact nomatch hmem
      · exact nomatch hmem
      · have hk := (List.mem_singleton.mp hmem).symm
        exact hother m hm (h.row hheld hm' hk) (hm'.trans hk.symm)

end Freeing

/-- The clean-up of the first `k` probes. -/
theorem freeLoop_freeing {k : ℕ} (hq : opts.probes = q) (hpos : 0 < q) (hheld : Held q base n s)
    (hrows : ∀ pn < k, (pn / q + 1) * q ≤ MAX_TTL * MAX_PROBES) :
    ∃ t ptrs, forLoop (freeRound opts) k 0 s = .ok t ∧ Freeing q s k ptrs t := by
  have hround : ∀ pn t, 0 ≤ pn → pn < 0 + k → (∃ ptrs, Freeing q s pn ptrs t) →
      ∃ t', freeRound opts pn t = .ok (.yield t') ∧ ∃ ptrs, Freeing q s (pn + 1) ptrs t' := by
    rintro pn t - hpn ⟨ptrs, h⟩
    obtain ⟨t', hfree, hrel⟩ := tracerouteFreeMemProbe_released hq hpos (hrows pn (by omega)) t
    obtain ⟨ptrs', -, hfreeing, -⟩ := h.step hheld hrel
    refine ⟨t', ?_, _, hfreeing⟩
    rw [freeRound, hfree]
    rfl
  obtain ⟨t, hloop, ptrs, h⟩ := forLoop_rule_of_yield hround ⟨[], .zero q s⟩
  rw [Nat.zero_add] at h
  exact ⟨t, ptrs, hloop, h⟩

/-! ## Main result -/

/-- For every option setting with valid indices and every outcome of the first `n` probes: the
    clean-up up to the final probe passes no heap block to `free` twice, and a block that it passes
    to `free` is not the host name of any other probe at that time. -/
theorem freeLoop_once [CDouble D] (opts : Options D) (hprobes : 1 ≤ opts.probes)
    (hbound : opts.maxTtl * opts.probes ≤ MAX_TTL * MAX_PROBES) (net : NetEnv) {s₀ : State D}
    (hinit : tracerouteInit opts net .initial = .ok (0, s₀)) {n : ℕ}
    (hn : (n : ℤ) ≤ opts.maxTtl * opts.probes) :
    ∃ s s', doProbes opts net n s₀ = .ok s ∧
      forLoop (freeRound opts) (s.tr.finalProbe + 1).toNat 0 s = .ok s' ∧
      (∀ id, s'.frees.count (.block id) ≤ 1) ∧
      ∀ (k : ℕ) t t', (k : ℤ) ≤ s.tr.finalProbe → forLoop (freeRound opts) k 0 s = .ok t →
        tracerouteFreeMemProbe opts k t = .ok t' →
        ∃ ptrs, t'.frees = t.frees ++ ptrs ∧
          ∀ id, .block id ∈ ptrs → ∀ m ≠ k, (t.tr.probes m).recvHostname ≠ .block id := by
  generalize hq' : opts.probes.toNat = q
  have hq : opts.probes = q := by omega
  have hpos : 0 < q := by omega
  have htotal := total_eq hq
  have hsize := total_le hq hbound
  -- after the initialisation no probe has a block, and nothing is free
  obtain ⟨hfresh, hnext, hlog, hfinal⟩ := tracerouteInit_untouched htotal hsize hinit
  obtain ⟨s, hrun, hheld, hbelow, hfrees⟩ := doProbes_held net (N := n) hq hpos (by omega)
    (.zero hfresh q) le_rfl (by omega)
  -- probing frees nothing
  have hnone : s.frees = [] := by
    rw [hfrees, State.frees, hlog]
    rfl
  -- `final_probe` is below the number of probes, so that its row is inside of the array
  have hrows : ∀ pn : ℕ, (pn : ℤ) ≤ s.tr.finalProbe → (pn / q + 1) * q ≤ MAX_TTL * MAX_PROBES := by
    intro pn hpn
    have hlt : pn < opts.maxTtl.toNat * q := by
      unfold FinalBelow at hbelow
      omega
    exact (Nat.mul_le_mul_right q ((Nat.div_lt_iff_lt_mul hpos).mpr hlt)).trans hsize
  obtain ⟨s', ptrs, hfree, hfreeing⟩ :=
    freeLoop_freeing hq hpos hheld fun pn (hpn : pn < (s.tr.finalProbe + 1).toNat) =>
      hrows pn (by omega)
  refine ⟨s, s', hrun, hfree, fun id => ?_, fun k t t' hk ht ht' => ?_⟩
  -- a block that a probe holds is freed at most once, no other one is freed
  · rw [hfreeing.frees, hnone, List.nil_append]
    by_cases hholds : ∃ m, Holds (s.tr.probes m) id
    · rcases hfreeing.once id hholds with ⟨-, hcount⟩ | ⟨-, hcount⟩ <;> omega
    · rw [List.count_eq_zero.mpr fun hmem => hholds (hfreeing.holds hmem)]
      exact Nat.zero_le 1
  -- the state after `k` rounds is the one of the loop up to there
  · obtain ⟨t₁, ptrs₁, hloop, h₁⟩ :=
      freeLoop_freeing hq hpos hheld fun pn (hpn : pn < k) => hrows pn (by omega)
    obtain rfl : t₁ = t := by
      rw [hloop] at ht
      exact Except.ok.inj ht
    obtain ⟨t₂, hstep, hrel⟩ := tracerouteFreeMemProbe_released hq hpos (hrows k hk) t₁
    obtain rfl : t₂ = t' := by
      rw [hstep] at ht'
      exact Except.ok.inj ht'
    -- what this round frees no other probe holds any more
    obtain ⟨ptrs', hptrs, -, hmoment⟩ := h₁.step hheld hrel
    exact ⟨ptrs', hptrs, hmoment⟩

/-- Two probes, the second one of which is final. -/
theorem freeLoop_once_oneRouter :
    ∃ s₀ s s', @tracerouteInit ℤ wholeDouble ⟨AF_INET, 2, 1, 3, true, true, 33434, 5, 40⟩ oneRouter
        (@State.initial ℤ wholeDouble) = .ok (0, s₀) ∧
      @doProbes ℤ wholeDouble ⟨AF_INET, 2, 1, 3, true, true, 33434, 5, 40⟩ oneRouter 2 s₀ = .ok s ∧
      forLoop (freeRound ⟨AF_INET, 2, 1, 3, true, true, 33434, 5, 40⟩)
        (s.tr.finalProbe + 1).toNat 0 s = .ok s' ∧
      ∀ id, s'.frees.count (.block id) ≤ 1 := by
  let _ : CDouble ℤ := wholeDouble
  obtain ⟨s, s', hrun, hfree, hcount, -⟩ := freeLoop_once (D := ℤ) (n := 2)
    ⟨AF_INET, 2, 1, 3, true, true, 33434, 5, 40⟩ (by decide) (by decide) oneRouter rfl (by decide)
  exact ⟨_, s, s', rfl, hrun, hfree, hcount⟩

end SuccessiveTraceroute
