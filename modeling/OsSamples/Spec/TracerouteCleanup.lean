import Mathlib.Data.List.Count
import OsSamples.Spec.TracerouteMemory

/-!
# The clean-up of successive traceroute

The clean-up loop of `do_traceroute` runs up to the final probe.  The probes behind it in the same
row are left out, as are all probes if none is final; and of the two static strings,
`traceroute_free_mem_probe` knows only one.

## Key results

- `Blocks.probe`: what one more probe adds to the blocks and the names
- `probeLoop_blocks`: all rounds
- `cleanedUp_iff`: when everything is freed, and nothing else
-/

namespace SuccessiveTraceroute

open Traceroute

variable {D : Type} [CDouble D] {opts : Options D} {net : NetEnv} {q n base : ℕ} {freed : List Ptr}
  {s s' : State D}

/-! ## The blocks and the names of a run -/

/-- An answer that leaves the address of the probe unset: an entry of the error queue that is no
    ICMP error, or an address without a family. -/
def UnspecAnswer (opts : Options D) (env : ProbeEnv) : Prop :=
  ∃ pollerr msg, receiveLoop opts.timeout (getTime env.sendTime) env.attempts =
    .ok (pollerr, msg) ∧ answerAddr pollerr msg .unspec = .unspec

/-- The state after `n` probes, all of which could be sent; `freed` has been freed before. -/
structure Blocks (opts : Options D) (net : NetEnv) (q base : ℕ) (freed : List Ptr) (n : ℕ)
    (s : State D) : Prop where
  held : Held q base n s
  le : base ≤ s.next
  allocs : s.allocs = List.range s.next
  frees : s.frees = freed
  sent : s.sent.length = n
  data : ∀ m < n, ∃ id, (s.tr.probes m).data = .block id
  badAF : ∀ m < n, (s.tr.probes m).recvHostname = .hostUnknownBadAF ↔
    UnspecAnswer opts (net.probe m)
  unspec : ∀ m, (s.tr.probes m).recvHostname = .hostUnknownBadAF →
    (s.tr.probes m).recvAddr = .unspec

omit [CDouble D] in
/-- Only the probes and the blocks count for who holds what. -/
theorem Held.congr (h : Held q base n s) (htr : s'.tr = s.tr) (hnext : s'.next = s.next) :
    Held q base n s' := by
  obtain ⟨h₁, h₂, h₃, h₄, h₅, h₆, h₇, h₈, h₉⟩ := h
  rw [← htr] at h₁ h₂ h₃ h₄ h₅ h₆ h₇ h₈ h₉
  rw [← hnext] at h₄ h₅
  exact ⟨h₁, h₂, h₃, h₄, h₅, h₆, h₇, h₈, h₉⟩

/-- Printing. -/
theorem Blocks.print (h : Blocks opts net q base freed n s) (texts : List String) :
    Blocks opts net q base freed n (s.print texts) := by
  obtain ⟨h₁, h₂, h₃, h₄, h₅, h₆, h₇, h₈⟩ := h
  exact ⟨h₁.congr rfl rfl, h₂, h₃, h₄, h₅, h₆, h₇, h₈⟩

/-- Freeing a block that no probe holds. -/
theorem Blocks.free (h : Blocks opts net q base freed n s) (p : Ptr) :
    Blocks opts net q base (freed ++ [p]) n (s.emit (.free p)) := by
  obtain ⟨h₁, h₂, h₃, h₄, h₅, h₆, h₇, h₈⟩ := h
  refine ⟨h₁.congr rfl rfl, h₂, ?_, ?_, ?_, h₆, h₇, h₈⟩
  · rw [allocs_emit_free]
    exact h₃
  · rw [frees_emit_free, h₄]
  · exact (Quiet.emit (e := .free p) n s nofun).sent ▸ h₅

omit [CDouble D] in
theorem addr2strText_eq_none {g : SockAddr → Bool → String} {sa : SockAddr} {how : ℕ} :
    addr2strText g sa how = none ↔ sa = .unspec := by
  cases sa with
  | unspec => exact iff_of_true rfl rfl
  | inet | inet6 =>
    refine iff_of_false (fun h => ?_) (by simp)
    simp only [addr2strText] at h
    split_ifs at h with hfamily
    cases hfamily

/-- The blocks obtained by a probe that has been sent. -/
theorem Probed.allocs (h : Probed opts n (net.probe n) s s') (hrange : s.allocs = List.range s.next)
    (hresult : (s'.tr.probes n).probeResult ≠ .errSend) :
    s'.allocs = List.range s'.next ∧ ∃ id, (s'.tr.probes n).data = .block id := by
  cases h with
  | notSent _ _ herr => exact absurd herr hresult
  | timeout _ _ hstep =>
    refine ⟨?_, s.next, hstep.data⟩
    rw [State.allocs, hstep.log, List.filterMap_append, hstep.next, List.range_succ, ← hrange]
    rfl
  | answered _ _ hstep _ _ hnamed =>
    refine ⟨?_, s.next, by rw [hstep.data, if_neg (by omega)]⟩
    rw [State.allocs, hstep.log, List.filterMap_append, hstep.next]
    cases hnamed with
    | resolved =>
      show s.allocs ++ [s.next, s.next + 1] = List.range (s.next + 1 + 1)
      rw [hrange, List.range_succ, List.range_succ, List.append_assoc]
      rfl
    | badAF | taken =>
      show s.allocs ++ [s.next] = List.range (s.next + 1)
      rw [hrange, List.range_succ]

/-- The name of a probe: the static string for an unset address is that of an answer without an
    address. -/
theorem Probed.badAF (h : Probed opts n (net.probe n) s s')
    (hresult : (s'.tr.probes n).probeResult ≠ .errSend)
    (haddr : (s.tr.probes n).recvAddr = .unspec)
    (hprev : ∀ m, (s.tr.probes m).recvHostname = .hostUnknownBadAF →
      (s.tr.probes m).recvAddr = .unspec) :
    ((s'.tr.probes n).recvHostname = .hostUnknownBadAF ↔ UnspecAnswer opts (net.probe n)) ∧
      ((s'.tr.probes n).recvHostname = .hostUnknownBadAF →
        (s'.tr.probes n).recvAddr = .unspec) := by
  cases h with
  | notSent _ _ herr => exact absurd herr hresult
  | timeout _ hloop _ _ _ hname =>
    rw [hname]
    refine ⟨iff_of_false nofun ?_, nofun⟩
    rintro ⟨pollerr, msg, hok, -⟩
    exact nomatch hloop.symm.trans hok
  | @answered _ pollerr msg _ _ hloop _ _ hanswer hnamed =>
    rw [haddr] at hanswer
    have hiff : UnspecAnswer opts (net.probe n) ↔ (s'.tr.probes n).recvAddr = .unspec := by
      rw [hanswer]
      constructor
      · rintro ⟨pollerr', msg', hok, hunspec⟩
        obtain ⟨rfl, rfl⟩ := Prod.mk.inj (Except.ok.inj (hloop.symm.trans hok))
        exact hunspec
      · intro hunspec
        exact ⟨pollerr, msg, hloop, hunspec⟩
    rw [hiff]
    cases hnamed with
    | resolved hname htext =>
      have hne : (s'.tr.probes n).recvAddr ≠ .unspec := by
        intro heq
        rw [addr2strText_eq_none.mpr heq] at htext
        exact nomatch htext
      rw [hname]
      exact ⟨iff_of_false nofun hne, nofun⟩
    | badAF htext hname =>
      have hunspec := addr2strText_eq_none.mp htext
      exact ⟨iff_of_true hname hunspec, fun _ => hunspec⟩
    | taken _ hsame _ hname =>
      -- a name is taken over only from a probe with the same address
      have hne : (s'.tr.probes n).recvHostname ≠ .hostUnknownBadAF := by
        intro heq
        rw [hprev (n - 1) (hname.symm.trans heq)] at hsame
        exact nomatch hsame
      refine ⟨iff_of_false hne fun heq => ?_, fun heq => absurd heq hne⟩
      rw [heq] at hsame
      cases hprevAddr : (s.tr.probes (n - 1)).recvAddr <;> rw [hprevAddr] at hsame <;>
        exact nomatch hsame

/-- One more probe. -/
theorem Blocks.probe (h : Blocks opts net q base freed n s) (hq : opts.probes = q) (hpos : 0 < q)
    (hn : n < MAX_TTL * MAX_PROBES) (hsend : SendOk (net.probe n))
    (hprobe : doOneProbe opts n (net.probe n) s = .ok s')
    (hprobed : Probed opts n (net.probe n) s s') : Blocks opts net q base freed (n + 1) s' := by
  -- a probe that is sent ends with an answer, a timeout or an error of `recvmsg`
  obtain ⟨s₁, b, hprobe₁, hdone, -⟩ := doOneProbe_ok opts hn hsend s
  obtain rfl : s₁ = s' := by
    rw [hprobe] at hprobe₁
    exact (Except.ok.inj hprobe₁).symm
  have hresult : (s₁.tr.probes n).probeResult ≠ .errSend := by
    intro herr
    rcases hdone.result with hres | hres | hres <;> cases herr.symm.trans hres
  -- the probe has no address yet
  have haddr : (s.tr.probes n).recvAddr = .unspec := by
    refine h.held.unanswered n fun hans => ?_
    rw [Answered, (h.held.untouched n le_rfl).1] at hans
    exact hans.elim (by simp) (by simp)
  obtain ⟨hheld, hle⟩ := h.held.probe hq hpos h.le hprobed
  obtain ⟨hallocs, hdata⟩ := hprobed.allocs h.allocs hresult
  obtain ⟨hbad, hunspec⟩ := hprobed.badAF hresult haddr h.unspec
  refine ⟨hheld, hle, hallocs, hprobed.frees.trans h.frees, ?_, fun m hm => ?_, fun m hm => ?_,
    fun m hm => ?_⟩
  -- one more datagram is sent
  · rw [hdone.sent, List.length_append, h.sent]
    rfl
  -- the blocks of the probes before are those of before
  · rcases Nat.lt_succ_iff_lt_or_eq.mp hm with hlt | rfl
    · rw [hdone.probes m (by omega)]
      exact h.data m hlt
    · exact hdata
  · rcases Nat.lt_succ_iff_lt_or_eq.mp hm with hlt | rfl
    · rw [hdone.probes m (by omega)]
      exact h.badAF m hlt
    · exact hbad
  · by_cases hmn : m = n
    · subst hmn
      exact hunspec hm
    · rw [hdone.probes m hmn] at hm ⊢
      exact h.unspec m hm

/-! ## The rounds -/

/-- `print_one_probe` only prints. -/
theorem printOneProbe_print (opts : Options D) (n : ℕ) (s : State D) {s' : State D}
    (hprint : printOneProbe opts n s = .ok s') : ∃ texts, s' = s.print texts := by
  unfold printOneProbe at hprint
  cases hp : s.probe n with
  | error e =>
    rw [hp] at hprint
    exact nomatch hprint
  | ok p =>
    rw [hp] at hprint
    simp only [bind, Except.bind, pure, Except.pure] at hprint
    cases hresult : p.probeResult with
    -- such a result ends the program with an error
    | errInit | errSend =>
      rw [hresult] at hprint
      exact nomatch hprint
    | errTimeout | ok | errRecv =>
      rw [hresult] at hprint
      dsimp only at hprint
      -- the texts of the answering host, if its name can be read
      cases hhost : hostTexts opts n s with
      | error e =>
        rw [hhost] at hprint
        exact nomatch hprint
      | ok host =>
        rw [hhost] at hprint
        exact ⟨_, (Except.ok.inj hprint).symm⟩
    | unknown =>
      rw [hresult] at hprint
      exact ⟨_, (Except.ok.inj hprint).symm⟩

/-- One round. -/
theorem probeRound_blocks (hq : opts.probes = q) (hpos : 0 < q) (hn : n < MAX_TTL * MAX_PROBES)
    (h : Blocks opts net q base freed n s) :
    Outcome (fun _ => True) (StepOutcome (Blocks opts net q base freed (n + 1))
      (Blocks opts net q base freed (n + 1))) (probeRound opts net n s) := by
  by_cases hsend : SendOk (net.probe n)
  · obtain ⟨s₁, hprobe, hprobed⟩ := doOneProbe_probed opts hn (net.probe n) s
    have h₁ := h.probe hq hpos hn hsend hprobe hprobed
    unfold probeRound
    rw [hprobe]
    simp only [bind, Except.bind, pure, Except.pure]
    cases hprint : printOneProbe opts n s₁ with
    | error e => exact .error trivial
    | ok s₂ =>
      obtain ⟨texts, rfl⟩ := printOneProbe_print opts n s₁ hprint
      refine .ok ?_
      split
      · exact .done (h₁.print texts)
      · exact .yield (h₁.print texts)
  · rw [probeRound_fail hn hsend]
    exact .error trivial

/-- All rounds. -/
theorem probeLoop_blocks {N : ℕ} (hq : opts.probes = q) (hpos : 0 < q)
    (hN : N ≤ MAX_TTL * MAX_PROBES) (h : Blocks opts net q base freed 0 s) :
    Outcome (fun _ => True) (fun s' => ∃ n, Blocks opts net q base freed n s')
      (forLoop (probeRound opts net) N 0 s) := by
  refine forLoop_outcome (I := Blocks opts net q base freed) (fun n s _ hn h => ?_)
    (fun s h => ⟨_, h⟩) h
  refine (probeRound_blocks hq hpos (by omega) h).imp fun step hstep => ?_
  cases hstep with
  | yield h => exact .yield h
  | done h => exact .done ⟨_, h⟩

/-! ## The clean-up of a whole run -/

section Clean

variable {k : ℕ} {ptrs : List Ptr} {t : State D}

omit [CDouble D] in
/-- After the clean-up of all probes nothing is held. -/
theorem Freeing.not_live (h : Freeing q s n ptrs t) (hheld : Held q base n s) (id : ℕ) :
    ¬ Live s n t id := by
  rintro (⟨m, hm, hdata⟩ | ⟨m, hm⟩)
  · rw [(hheld.untouched m hm).2.2] at hdata
    exact nomatch hdata
  · obtain ⟨hle, hname⟩ := h.hostname hm nofun nofun
    rw [(hheld.untouched m hle).2.1] at hname
    exact nomatch hname

/-- All blocks of the probes are freed if and only if no probe is left out. -/
theorem Freeing.blocks_iff (h : Freeing q s k ptrs t) (hblocks : Blocks opts net q base freed n s)
    (hk : k ≤ n) : (∀ id, base ≤ id → id < s.next → ptrs.count (.block id) = 1) ↔ k = n := by
  have hheld := hblocks.held
  constructor
  · -- the data of the first probe that is left out
    intro hcount
    by_contra hne
    obtain ⟨id, hdata⟩ := hblocks.data k (by omega)
    have hrange := hheld.range k id (.inl hdata)
    rcases h.once id ⟨k, .inl hdata⟩ with ⟨-, hzero⟩ | ⟨hnot, -⟩
    · rw [hcount id hrange.1 hrange.2] at hzero
      exact nomatch hzero
    · exact hnot (.inl ⟨k, le_rfl, hdata⟩)
  · rintro rfl id hle hlt
    obtain ⟨m, -, hholds⟩ := hheld.held id hle hlt
    rcases h.once id ⟨m, hholds⟩ with ⟨hlive, -⟩ | ⟨-, hone⟩
    · exact absurd hlive (h.not_live hheld id)
    · exact hone

omit [CDouble D] in
/-- The static string that is known to `traceroute_free_mem_probe`. -/
theorem Freeing.hostUnknown (h : Freeing q s k ptrs t) (hheld : Held q base n s) :
    .hostUnknown ∉ ptrs := by
  intro hmem
  obtain ⟨m, -, hdata | ⟨-, hne⟩⟩ := h.source _ hmem
  · rcases hheld.block m with hnull | ⟨id, hid⟩
    · exact nomatch hdata.trans hnull
    · exact nomatch hdata.trans hid
  · exact hne rfl

omit [CDouble D] in
/-- The other one is freed as soon as some probe has it. -/
theorem Freeing.badAF_iff (h : Freeing q s n ptrs t) (hheld : Held q base n s) :
    .hostUnknownBadAF ∈ ptrs ↔ ∃ m < n, (s.tr.probes m).recvHostname = .hostUnknownBadAF := by
  constructor
  · intro hmem
    obtain ⟨m, hm, hdata | ⟨hname, -⟩⟩ := h.source _ hmem
    · rcases hheld.block m with hnull | ⟨id, hid⟩
      · exact nomatch hdata.trans hnull
      · exact nomatch hdata.trans hid
    · exact ⟨m, hm, hname.symm⟩
  · rintro ⟨m, hm, hname⟩
    have hshared := h.shared m hm (by rw [hname]; exact nofun) (by rw [hname]; exact nofun)
    rw [hname] at hshared
    rcases hshared with hmem | ⟨m', hm', -, hname'⟩
    · exact hmem
    · rw [(hheld.untouched m' hm').2.1] at hname'
      exact nomatch hname'

/-- Every heap block has been freed exactly once, and no static string has. -/
def CleanedUp (s : State D) : Prop :=
  (∀ id ∈ s.allocs, s.frees.count (.block id) = 1) ∧
    .hostUnknown ∉ s.frees ∧ .hostUnknownBadAF ∉ s.frees

/-- If the blocks below `base` have been freed before, it all depends on the first probe that is
    left out and on the names. -/
theorem Freeing.cleaned_iff (h : Freeing q s k ptrs t)
    (hblocks : Blocks opts net q base ((List.range base).map .block) n s) (hk : k ≤ n) :
    CleanedUp t ↔ k = n ∧ ∀ m < n, ¬ UnspecAnswer opts (net.probe m) := by
  have hheld := hblocks.held
  have hle := hblocks.le
  -- a block is freed before, or by the clean-up
  have hcount : ∀ id, t.frees.count (.block id) =
      (if id < base then 1 else 0) + ptrs.count (.block id) := by
    intro id
    rw [h.frees, hblocks.frees, List.count_append,
      List.count_map_of_injective _ _ (fun _ _ => Ptr.block.inj), List.nodup_range.count]
    simp only [List.mem_range]
  have hbefore : ∀ id < base, ptrs.count (.block id) = 0 := by
    intro id hid
    refine List.count_eq_zero.mpr fun hmem => ?_
    obtain ⟨m, hholds⟩ := h.holds hmem
    have hrange := hheld.range m id hholds
    omega
  have hblocksFreed : (∀ id ∈ t.allocs, t.frees.count (.block id) = 1) ↔ k = n := by
    rw [← h.blocks_iff hblocks hk, h.allocs, hblocks.allocs]
    simp only [List.mem_range, hcount]
    constructor
    · intro hall id hbase hlt
      have hone := hall id hlt
      rwa [if_neg (by omega), Nat.zero_add] at hone
    · intro hall id hlt
      by_cases hid : id < base
      · rw [if_pos hid, hbefore id hid]
      · rw [if_neg hid, Nat.zero_add]
        exact hall id (by omega) hlt
  have hstatic : ∀ p, (∀ id, p ≠ .block id) → (p ∈ t.frees ↔ p ∈ ptrs) := by
    intro p hp
    rw [h.frees, hblocks.frees, List.mem_append]
    refine or_iff_right fun hmem => ?_
    obtain ⟨id, -, rfl⟩ := List.mem_map.mp hmem
    exact hp id rfl
  unfold CleanedUp
  rw [hblocksFreed, hstatic .hostUnknown nofun, hstatic .hostUnknownBadAF nofun]
  refine and_congr_right fun hkn => ?_
  subst hkn
  rw [and_iff_right (h.hostUnknown hheld), h.badAF_iff hheld]
  push Not
  exact forall₂_congr fun m hm => not_congr (hblocks.badAF m hm)

end Clean

/-- The state before the first probe: the only block is the name of the target. -/
theorem Blocks.zero {g : SockAddr → Bool → String} {sa : SockAddr} {how : ℕ} {r : Ptr × State D}
    (h : ∀ m, Untouched (s.tr.probes m)) (hnext : s.next = 0) (hlog : s.log = [])
    (hr : addr2str g sa how s = r) :
    Blocks opts net q r.2.next [] 0 r.2 ∧ r.2.tr = s.tr ∧
      ((r.1 = .hostUnknownBadAF ∧ r.2.next = 0) ∨ (r.1 = .block 0 ∧ r.2.next = 1)) := by
  have hbad : ∀ m, (s.tr.probes m).recvHostname = .hostUnknownBadAF →
      (s.tr.probes m).recvAddr = .unspec := fun m _ => (h m).2.2.2
  subst hr
  rcases addr2str_cases g sa how s with hr | ⟨str, hr⟩
  -- no family that is known: nothing is allocated
  · rw [hr]
    refine ⟨⟨.zero h q, le_rfl, ?_, ?_, ?_, nofun, nofun, hbad⟩, rfl, .inl ⟨rfl, hnext⟩⟩
    · rw [State.allocs, hlog, hnext]
      rfl
    · rw [State.frees, hlog]
      rfl
    · rw [State.sent, hlog]
      rfl
  -- the text of the address is the first block
  · rw [hr]
    refine ⟨⟨.zero (s := (s.alloc str).2) h q, le_rfl, ?_, ?_, ?_, nofun, nofun, hbad⟩, rfl,
      .inr ⟨?_, ?_⟩⟩
    · simp [State.allocs, State.alloc, State.emit, hlog, hnext]
    · simp [State.frees, State.alloc, State.emit, hlog]
    · simp [State.sent, State.alloc, State.emit, hlog]
    · rw [State.alloc, hnext]
    · show s.next + 1 = 1
      rw [hnext]

/-- The name of the target is freed, unless it is static. -/
theorem Blocks.freeResolved {resolved : Ptr} (h : Blocks opts net q base [] n s)
    (hresolved : (resolved = .hostUnknownBadAF ∧ base = 0) ∨ (resolved = .block 0 ∧ base = 1)) :
    Blocks opts net q base ((List.range base).map .block) n
      (if resolved ≠ .hostUnknown ∧ resolved ≠ .hostUnknownBadAF then s.emit (.free resolved)
        else s) := by
  rcases hresolved with ⟨rfl, rfl⟩ | ⟨rfl, rfl⟩
  · exact h
  · exact h.free (.block 0)

/-- Whether the final probe is the last one where probing stops. -/
theorem StopsAt.complete_iff {K : ℕ} {f : ℤ} (hq : opts.probes = q) (hpos : 0 < q)
    (h : StopsAt opts net K f) (P : ℕ → Prop) :
    ((f + 1).toNat = K * q ∧ ∀ m < K * q, P m) ↔ opts.maxTtl ≤ 0 ∨
      ∃ pn : ℕ, (pn : ℤ) < opts.maxTtl * opts.probes ∧ Terminal opts (net.probe pn) ∧
        (∀ m < pn, ¬ Terminal opts (net.probe m)) ∧ pn % q = q - 1 ∧ ∀ m ≤ pn, P m := by
  cases h with
  | exhausted hnone =>
    have hempty : ((-1 : ℤ) + 1).toNat = opts.maxTtl.toNat * q ↔ opts.maxTtl ≤ 0 := by
      rw [← Int.toNat_eq_zero, eq_comm, show ((-1 : ℤ) + 1).toNat = 0 from rfl, Nat.mul_eq_zero]
      exact or_iff_left (by omega)
    rw [hempty, or_iff_left]
    · refine and_iff_left_of_imp fun hmax m hm => ?_
      rw [Int.toNat_of_nonpos hmax, Nat.zero_mul] at hm
      exact absurd hm (Nat.not_lt_zero m)
    · rintro ⟨pn, hlt, hterm, -⟩
      exact hnone pn hlt hterm
  | @terminal pn hlt hterm hmin =>
    rw [hq, Int.toNat_natCast]
    have hmax : ¬ opts.maxTtl ≤ 0 := by
      intro hmax
      have hneg := Int.mul_nonpos_of_nonpos_of_nonneg hmax (show 0 ≤ opts.probes by omega)
      omega
    -- the rows up to that of the final probe
    have hrow : (pn / q + 1) * q = pn + 1 + (q - 1 - pn % q) := by
      have hdiv := Nat.div_add_mod' pn q
      have hmod := Nat.mod_lt pn hpos
      rw [Nat.succ_mul]
      omega
    have hmod := Nat.mod_lt pn hpos
    rw [or_iff_right hmax, hrow]
    constructor
    · rintro ⟨hlast, hP⟩
      exact ⟨pn, hq ▸ hlt, hterm, hmin, by omega, fun m hm => hP m (by omega)⟩
    · rintro ⟨pn', -, hterm', hmin', hlast, hP⟩
      obtain rfl : pn' = pn := by
        rcases lt_trichotomy pn' pn with hlt' | heq | hlt'
        · exact absurd hterm' (hmin pn' hlt')
        · exact heq
        · exact absurd hterm (hmin' pn hlt')
      exact ⟨by omega, fun m hm => hP m (by omega)⟩

/-- A run that reaches the clean-up: the rounds of the rows up to `K`, and the clean-up up to the
    final probe. -/
theorem doTraceroute_freeing {K : ℕ} {f : ℤ} {target : String} (hq : opts.probes = q)
    (hpos : 0 < q) (hsize : opts.maxTtl.toNat * q ≤ MAX_TTL * MAX_PROBES)
    (hstop : StopsAt opts net K f) (hrun : doTraceroute opts target net = .ok (0, s)) :
    ∃ base t ptrs, Blocks opts net q base ((List.range base).map .block) (K * q) t ∧
      Freeing q t (f + 1).toNat ptrs s ∧ (f + 1).toNat ≤ K * q := by
  unfold doTraceroute at hrun
  rw [total_eq hq] at hrun
  cases hinit : tracerouteInit opts net (.initial : State D) with
  | error e =>
    rw [hinit] at hrun
    exact nomatch hrun
  | ok r =>
    obtain ⟨rc, s₀⟩ := r
    rw [hinit] at hrun
    simp only [bind, Except.bind, pure, Except.pure] at hrun
    by_cases hrc : rc = 0
    case neg =>
      rw [if_pos hrc] at hrun
      exact nomatch hrun
    subst hrc
    rw [if_neg (not_not.mpr rfl)] at hrun
    obtain ⟨hfresh, hnext, hlog, hfinal⟩ := tracerouteInit_untouched (total_eq hq) hsize hinit
    -- the name of the target
    generalize hr : addr2str net.getnameinfo s₀.tr.destAddr A2S_NORESOLVE s₀ = r at hrun
    obtain ⟨resolved, s₁⟩ := r
    have hstart := @Blocks.zero D _ opts net q s₀ _ _ _ _ hfresh hnext hlog hr
    dsimp only at hrun hstart
    obtain ⟨hzero, htr, hresolved⟩ := hstart
    have hne : resolved ≠ .null := by
      rcases hresolved with ⟨rfl, -⟩ | ⟨rfl, -⟩ <;> exact nofun
    obtain ⟨str, hderef⟩ := deref_ok s₁ hne
    rw [hderef] at hrun
    dsimp only at hrun
    -- the probes
    have hzero' := hzero.print (headerTexts opts target str)
    generalize hs₂ : s₁.print (headerTexts opts target str) = s₂ at hrun hzero'
    have hfinal₂ : s₂.tr.finalProbe = -1 := by
      rw [← hs₂, ← hfinal, ← htr]
      rfl
    have hloop := probeLoop_outcome hq hpos hsize hstop hfinal₂
    rw [total_eq hq] at hloop
    have hblocks := probeLoop_blocks hq hpos hsize hzero'
    generalize forLoop (probeRound opts net) (opts.maxTtl.toNat * q) 0 s₂ = x at hrun hloop hblocks
    cases hloop with
    | error he => exact nomatch hrun
    | @ok s₃ hdone =>
      obtain ⟨hdone, rfl⟩ := hdone
      cases hblocks with
      | ok hblocks =>
        obtain ⟨n, hblocks⟩ := hblocks
        obtain rfl : n = K * q := by
          rw [← hblocks.sent, hdone.sent, List.length_append, hzero'.sent, List.length_map,
            List.length_range, Nat.zero_add]
        have hfinal₃ : s₃.tr.finalProbe < (K * q : ℕ) := by
          rcases hdone.finalProbe with ⟨heq, -⟩ | ⟨m, hm, heq, -⟩
          · omega
          · rw [heq]
            exact_mod_cast hm
        -- the clean-up
        have hblocks₄ := hblocks.freeResolved hresolved
        have htr₄ : (if resolved ≠ .hostUnknown ∧ resolved ≠ .hostUnknownBadAF then
            s₃.emit (.free resolved) else s₃).tr = s₃.tr := by
          split <;> rfl
        dsimp only at hrun
        generalize (if resolved ≠ .hostUnknown ∧ resolved ≠ .hostUnknownBadAF then
          s₃.emit (.free resolved) else s₃) = s₄ at hrun hblocks₄ htr₄
        rw [htr₄] at hrun
        have hK := (Nat.mul_le_mul_right q (hstop.le_maxTtl hq hpos)).trans hsize
        obtain ⟨t, ptrs, hfree, hfreeing⟩ := freeLoop_freeing
          (k := (s₃.tr.finalProbe + 1).toNat) hq hpos hblocks₄.held fun pn hpn =>
            (Nat.mul_le_mul_right q ((Nat.div_lt_iff_lt_mul hpos).mpr (by omega))).trans hK
        rw [hfree] at hrun
        obtain ⟨-, rfl⟩ := Prod.mk.inj (Except.ok.inj hrun)
        exact ⟨_, s₄, ptrs, hblocks₄, hfreeing, by omega⟩

/-! ## Main result -/

/-- For every option setting with valid indices and every run that reaches the clean-up: all heap
    blocks have been freed exactly once, and no static string has, if and only if no probe was made,
    or the final probe is the last one of its row and every answer came from an address. -/
theorem cleanedUp_iff (opts : Options D) (hprobes : 1 ≤ opts.probes)
    (hbound : opts.maxTtl * opts.probes ≤ MAX_TTL * MAX_PROBES) (target : String) (net : NetEnv)
    (hrun : doTraceroute opts target net = .ok (0, s)) :
    CleanedUp s ↔ opts.maxTtl ≤ 0 ∨
      ∃ pn : ℕ, (pn : ℤ) < opts.maxTtl * opts.probes ∧ Terminal opts (net.probe pn) ∧
        (∀ m < pn, ¬ Terminal opts (net.probe m)) ∧
        pn % opts.probes.toNat = opts.probes.toNat - 1 ∧
        ∀ m ≤ pn, ¬ UnspecAnswer opts (net.probe m) := by
  generalize hq' : opts.probes.toNat = q
  have hq : opts.probes = q := by omega
  have hpos : 0 < q := by omega
  have hsize := total_le hq hbound
  obtain ⟨K, f, hstop⟩ := exists_stopsAt opts net
  obtain ⟨base, t, ptrs, hblocks, hfreeing, hle⟩ := doTraceroute_freeing hq hpos hsize hstop hrun
  rw [hfreeing.cleaned_iff hblocks hle, hstop.complete_iff hq hpos]

/-- With two probes per TTL, the second one is final. -/
theorem cleanedUp_iff_oneRouter :
    ∃ s, @doTraceroute ℤ wholeDouble ⟨AF_INET, 2, 1, 3, true, true, 33434, 5, 40⟩ "target"
      oneRouter = .ok (0, s) ∧ CleanedUp s := by
  let _ : CDouble ℤ := wholeDouble
  have hspec : ∀ m ≤ 1, ¬ UnspecAnswer
      (⟨AF_INET, 2, 1, 3, true, true, 33434, 5, 40⟩ : Options ℤ) (oneRouter.probe m) := by
    rintro m hm ⟨pollerr, msg, hloop, hunspec⟩
    obtain rfl | rfl : m = 0 ∨ m = 1 := by omega
    · cases hloop
      exact nomatch hunspec
    · cases hloop
      exact nomatch hunspec
  exact ⟨_, rfl, (cleanedUp_iff (D := ℤ) ⟨AF_INET, 2, 1, 3, true, true, 33434, 5, 40⟩ (by decide)
    (by decide) "target" oneRouter rfl).mpr (.inr ⟨1, by decide, ⟨false, _, rfl, .inl rfl⟩,
      oneRouter_first, rfl, hspec⟩)⟩

/-- With three, the second one is final, too: the data of the third one are not freed. -/
theorem lastRow_leaked :
    ∃ s, @doTraceroute ℤ wholeDouble ⟨AF_INET, 3, 1, 3, true, true, 33434, 5, 40⟩ "target"
      oneRouter = .ok (0, s) ∧ (s.tr.probes 2).data = .block 5 ∧ 5 ∈ s.allocs ∧
      .block 5 ∉ s.frees ∧ ¬ CleanedUp s := by
  refine ⟨_, rfl, rfl, by decide, by decide, fun h => ?_⟩
  exact absurd (h.1 5 (by decide)) (by decide)

end SuccessiveTraceroute
