import OsSamples.Spec.TraceroutePorts

/-!
# The first hop of successive traceroute

The TTL of a probe is 1 plus the number of its row.  The first TTL of the options does not come
into it, so that it is what `-f` asks for only if that is 1.

## Key results

- `probeRoundKept_sent`, `probeLoop_sent`: the TTLs of one round and of all rounds
- `mainKept_startsFrom`: a run of the program
- `startsFrom_iff`: all command lines
-/

namespace SuccessiveTraceroute

open Traceroute CInt
open BasicTraceroute (probeRoundKept_ok sentPackets sent_eq)

variable {D : Type} {opts : Options D} {net : NetEnv} {q n : ℕ}

/-! ## The TTLs of a run -/

/-- The TTLs of the first `n` probes, with rows of `q` probes from the TTL `first` on. -/
def rowTtls (first : ℤ) (q n : ℕ) : List ℤ := (List.range n).map fun pn => first + (pn / q : ℕ)

/-- The TTLs of the probes sent so far. -/
def State.ttls (s : State D) : List ℤ := s.sent.map Prod.snd

/-- What is promised of the probes sent in a run: none has a TTL below the first one, and their
    TTLs are those of rows from the first one on.  If the run is not ended by `exit`, the last row
    is complete. -/
structure StartsFrom (first : ℤ) (q : ℕ) (r : Except (Stop × State D) (ℤ × State D)) : Prop where
  le : ∀ ttl ∈ (endState r).ttls, first ≤ ttl
  rows : ∃ n, (endState r).ttls = rowTtls first q n ∧ ∀ a, r = .ok a → q ∣ n

theorem le_of_mem_rowTtls {first ttl : ℤ} (h : ttl ∈ rowTtls first q n) : first ≤ ttl := by
  obtain ⟨pn, -, rfl⟩ := List.mem_map.mp h
  exact Int.le_add_of_nonneg_right (Int.natCast_nonneg _)

theorem StartsFrom.of_rows {first : ℤ} {r : Except (Stop × State D) (ℤ × State D)}
    (h : (endState r).ttls = rowTtls first q n) (hdvd : ∀ a, r = .ok a → q ∣ n) :
    StartsFrom first q r :=
  ⟨fun _ hmem => le_of_mem_rowTtls (h ▸ hmem), n, h, hdvd⟩

/-- A run in which nothing is sent. -/
theorem StartsFrom.of_nil {first : ℤ} {r : Except (Stop × State D) (ℤ × State D)}
    (h : (endState r).sent = []) : StartsFrom first q r :=
  .of_rows (n := 0) (congrArg (List.map Prod.snd) h) fun _ _ => ⟨0, rfl⟩

/-- The first TTL of a run in which anything is sent. -/
theorem StartsFrom.first_eq {first first' : ℤ} {r : Except (Stop × State D) (ℤ × State D)}
    (h : StartsFrom first q r) (h' : StartsFrom first' q r) (hsent : (endState r).sent ≠ []) :
    first = first' := by
  obtain ⟨n, hn, -⟩ := h.rows
  obtain ⟨n', hn', -⟩ := h'.rows
  have hpos : ∀ {f m}, (endState r).ttls = rowTtls f q m → (endState r).ttls.head? = some f := by
    intro f m hm
    rw [hm]
    cases m with
    | zero => exact absurd (List.map_eq_nil_iff.mp hm) hsent
    | succ m => simp [rowTtls, List.range_succ_eq_map]
  have hhead := (hpos hn).symm.trans (hpos hn')
  exact Option.some.inj hhead

variable [CDouble D] {t t₀ : State D} {pn : ℕ}

/-! ## The loop -/

/-- The probes sent since `t₀` are the first `n` ones, with the TTLs of their rows. -/
def SentRows (opts : Options D) (t₀ : State D) (n : ℕ) (t : State D) : Prop :=
  t.sent = t₀.sent ++ (List.range n).map fun m => (m, tracerouteProbe2ttl opts m)

omit [CDouble D] in
/-- With nothing sent before, their TTLs. -/
theorem SentRows.ttls (h : SentRows opts t₀ n t) (hq : opts.probes = q) (h₀ : t₀.sent = []) :
    t.ttls = rowTtls 1 q n := by
  unfold State.ttls
  rw [h, h₀, List.nil_append, List.map_map]
  exact List.map_congr_left fun m _ => tracerouteProbe2ttl_eq hq m

/-- One round: the probe is sent, or the program calls `exit` without sending it. -/
theorem probeRoundKept_sent (hpn : pn < MAX_TTL * MAX_PROBES) (h : ProbesDone opts net t₀ pn t) :
    Outcome (fun e => SentRows opts t₀ pn e.2)
      (StepOutcome (ProbesDone opts net t₀ (pn + 1))
        fun t' => ProbesDone opts net t₀ (pn + 1) t' ∧ lastOfTtl opts pn = true)
      (probeRoundKept opts net pn t) := by
  by_cases henv : SendOk (net.probe pn)
  · obtain ⟨-, t₂, -, -, -, hdone, hround⟩ := probeRoundKept_ok hpn henv h
    rw [hround]
    refine .ok ?_
    split
    · rename_i hlast
      exact .done ⟨hdone, hlast.2⟩
    · exact .yield hdone
  · obtain ⟨t₁, hprobe, hquiet, hresult⟩ := doOneProbe_fail opts hpn henv t
    unfold probeRoundKept
    rw [hprobe]
    dsimp only
    rw [printOneProbe_fail opts hpn hresult]
    exact .error (hquiet.sent.trans h.sent)

/-- All rounds: the loop ends after a whole row. -/
theorem probeLoop_sent (net : NetEnv) (hq : opts.probes = q) (hpos : 0 < q)
    (hbound : opts.maxTtl.toNat * q ≤ MAX_TTL * MAX_PROBES) (h₀ : t₀.tr.finalProbe = -1) :
    Outcome (fun e => ∃ n, SentRows opts t₀ n e.2)
      (fun t => ∃ K ≤ opts.maxTtl.toNat, ProbesDone opts net t₀ (K * q) t)
      (forLoop (probeRoundKept opts net) (opts.maxTtl.toNat * q) 0 t₀) := by
  refine forLoop_outcome (I := ProbesDone opts net t₀) (fun pn t _ hpn h => ?_) (fun t h => ?_)
    (.zero h₀)
  · rw [Nat.zero_add] at hpn
    have hround := probeRoundKept_sent (hpn.trans_le hbound) h
    generalize probeRoundKept opts net pn t = x at hround ⊢
    cases hround with
    | error he => exact .error ⟨pn, he⟩
    | ok hstep =>
      refine .ok ?_
      cases hstep with
      | yield hI => exact .yield hI
      | done hQ =>
        obtain ⟨hdone, hlast⟩ := hQ
        -- the probe is the last one of its row
        have hmod : pn % q = q - 1 := by
          rw [lastOfTtl_eq hq hpos] at hlast
          exact of_decide_eq_true hlast
        have hend : pn + 1 = (pn / q + 1) * q := by
          have hdiv := Nat.div_add_mod pn q
          rw [Nat.succ_mul, Nat.mul_comm]
          omega
        have hrow : pn / q < opts.maxTtl.toNat := (Nat.div_lt_iff_lt_mul hpos).mpr hpn
        exact .done ⟨pn / q + 1, hrow, hend ▸ hdone⟩
  · rw [Nat.zero_add] at h
    exact ⟨opts.maxTtl.toNat, le_rfl, h⟩

/-- The rows of probes that are freed are among those of the options. -/
theorem ProbesDone.free_ok {K : ℕ} (h : ProbesDone opts net t₀ (K * q) t) (hq : opts.probes = q)
    (hpos : 0 < q) (hK : K * q ≤ MAX_TTL * MAX_PROBES) :
    ∃ t', forLoop (freeRound opts) (t.tr.finalProbe + 1).toNat 0 t = .ok t' ∧ Freed t t' := by
  refine freeLoop_ok hq hpos (fun pn hpn => ?_) t
  rcases h.finalProbe with ⟨hneg, -⟩ | ⟨m, hm, hfinal, -⟩
  · omega
  · have hrow : pn / q < K := (Nat.div_lt_iff_lt_mul hpos).mpr (by omega)
    exact (Nat.mul_le_mul_right q hrow).trans hK

/-! ## The driver -/

/-- Whatever the first TTL of the options is, the first row has the TTL 1. -/
theorem doTracerouteKept_startsFrom (opts : Options D) (hq : opts.probes = q) (hpos : 0 < q)
    (hbound : opts.maxTtl.toNat * q ≤ MAX_TTL * MAX_PROBES) (target : String) (net : NetEnv) :
    StartsFrom 1 q (doTracerouteKept opts target net) := by
  unfold doTracerouteKept
  cases hres : net.getaddrinfo with
  | none =>
    unfold tracerouteInit
    rw [hres]
    exact .of_nil rfl
  | some res =>
    obtain ⟨s, hinit, -, hsent, hfinal⟩ :=
      tracerouteInit_ok opts (by rw [total_eq hq]; exact hbound) hres (.initial : State D)
    rw [hinit]
    simp only [ne_eq, not_true_eq_false, if_false]
    -- the texts before the first probe
    obtain ⟨hquiet, hresolved, -⟩ := addr2str_ok 0 net.getnameinfo s.tr.destAddr A2S_NORESOLVE s
    generalize addr2str net.getnameinfo s.tr.destAddr A2S_NORESOLVE s = r at hquiet hresolved ⊢
    obtain ⟨resolved, s₁⟩ := r
    obtain ⟨str, hderef⟩ := deref_ok s₁ hresolved
    simp only [hderef]
    generalize ht₀ : s₁.print (headerTexts opts target str) = t₀
    have hsent₀ : t₀.sent = [] := by
      rw [← ht₀]
      exact hquiet.sent.trans hsent
    have hfinal₀ : t₀.tr.finalProbe = -1 := by
      rw [← ht₀]
      exact hquiet.finalProbe.trans hfinal
    -- the probes
    have hloop := probeLoop_sent net hq hpos hbound hfinal₀
    rw [total_eq hq]
    generalize forLoop (probeRoundKept opts net) _ 0 t₀ = y at hloop ⊢
    cases hloop with
    | @error e he =>
      obtain ⟨n, hn⟩ := he
      exact .of_rows (hn.ttls hq hsent₀) nofun
    | @ok t hdone =>
      obtain ⟨K, hK, hdone⟩ := hdone
      have hdone' : ProbesDone opts net t₀ (K * q) (if resolved ≠ .hostUnknown ∧
          resolved ≠ .hostUnknownBadAF then t.emit (.free resolved) else t) := by
        split
        · have hfree := Freed.free t resolved
          exact ⟨hfree.sent.trans hdone.sent, hdone.finalProbe, hdone.hostname, hdone.out⟩
        · exact hdone
      dsimp only
      generalize (if resolved ≠ .hostUnknown ∧ resolved ≠ .hostUnknownBadAF then
        t.emit (.free resolved) else t) = t' at hdone' ⊢
      obtain ⟨t'', hfree, hfreed⟩ :=
        hdone'.free_ok hq hpos ((Nat.mul_le_mul_right q hK).trans hbound)
      rw [hfree]
      have hrows : SentRows opts t₀ (K * q) t'' := hfreed.sent.trans hdone'.sent
      exact .of_rows (hrows.ttls hq hsent₀) fun _ _ => ⟨K, Nat.mul_comm K q⟩

/-! ## The program -/

/-- The argument of `-f`. -/
def Opt.fArg : Opt D → Option ℤ
  | .f arg => some arg
  | _ => none

/-- The first TTL that the command line asks for. -/
def firstTtlOf (args : List (Opt D)) : ℤ :=
  ((args.filterMap Opt.fArg).getLast?.map atoi).getD 1

variable [LT D] [DecidableLT D] {args : List (Opt D)}

/-- An accepted option sets the first TTL only if it is `-f`. -/
theorem parseOption_firstTtl {o o' : Settings D} {a : Opt D} (h : parseOption o a = .ok o') :
    o'.firstTtl = (a.fArg.map atoi).getD o.firstTtl := by
  cases a with
  | h | V | unknown => exact nomatch h
  | v | Q =>
    obtain rfl := Except.ok.inj h
    split <;> rfl
  | d | f arg | m arg | n | w arg | q arg | U | p arg =>
    obtain rfl := Except.ok.inj h
    rfl

/-- The first TTL of an accepted command line. -/
theorem parseOptions_firstTtl {o : Settings D} (h : parseOptions args = .ok o) :
    o.firstTtl = firstTtlOf args := by
  unfold parseOptions at h
  cases hloop : args.foldlM parseOption (.initial : Settings D) with
  | error e =>
    rw [hloop] at h
    exact nomatch h
  | ok o =>
    rw [hloop] at h
    have hfirst := foldlM_field (fun o : Settings D => o.firstTtl)
      (fun a _ s s' hs => parseOption_firstTtl hs) hloop
    rw [getLast?_filterMap_map] at hfirst
    obtain rfl := Except.ok.inj h
    split
    · exact hfirst
    · exact hfirst

/-- Every run of the program starts from the TTL 1. -/
theorem mainKept_startsFrom {o : Settings D} (hparse : parseOptions args = .ok o)
    (host : Option String) (length : Option ℤ) (net : NetEnv) :
    StartsFrom 1 o.probes.toNat (mainKept args host length net) := by
  obtain ⟨-, hmax, hprobes⟩ := parseOptions_limits hparse
  have hrange := probesOf_range args
  have hle := maxTtlOf_le args
  unfold mainKept
  rw [hparse]
  cases host with
  | none => exact .of_nil rfl
  | some host =>
    obtain ⟨-, hmax', hprobes', -, -⟩ := setPacketLen_fields length o.toOptions
    refine doTracerouteKept_startsFrom _ ?_ ?_ ?_ host net
    · rw [hprobes']
      omega
    · omega
    · rw [hmax']
      exact Nat.mul_le_mul (show o.maxTtl.toNat ≤ MAX_TTL by omega)
        (show o.probes.toNat ≤ MAX_PROBES by omega)

/-! ## Main result -/

/-- For every accepted command line whose first TTL is from 1 to the largest one: that the probes of
    every run start from the first TTL, as the help text of `-f` says, is the case if and only if
    the first TTL is 1. -/
theorem startsFrom_iff {o : Settings D} (hparse : parseOptions args = .ok o)
    (hfirst : 1 ≤ o.firstTtl ∧ o.firstTtl ≤ o.maxTtl) :
    (∀ host length net,
      StartsFrom o.firstTtl o.probes.toNat (mainKept args host length net)) ↔
      firstTtlOf args = 1 := by
  rw [← parseOptions_firstTtl hparse]
  constructor
  · -- a run without answers sends all its probes
    intro hstart
    obtain ⟨-, hmax, -⟩ := parseOptions_limits hparse
    have hpos : (0 : ℤ) < maxTtlOf args * probesOf args :=
      Int.mul_pos (by omega) (lt_of_lt_of_le Int.one_pos (probesOf_range args).1)
    obtain ⟨packet, hmem⟩ := mainKept_silent hparse (show ((0 : ℕ) : ℤ) < _ from hpos)
    refine (hstart (some "target") none silentNet).first_eq (mainKept_startsFrom hparse _ _ _) ?_
    intro hnil
    have hsent := sent_eq (endState (mainKept args (some "target") none silentNet))
    rw [hnil, List.map_nil] at hsent
    rw [List.map_eq_nil_iff.mp hsent.symm] at hmem
    exact nomatch hmem
  · intro hone host length net
    rw [hone]
    exact mainKept_startsFrom hparse host length net

/-- `-f 1` is what the program does anyway. -/
theorem startsFrom_iff_one : @firstTtlOf ℤ [.f 1, .m 255, .q 10] = 1 ∧ ∀ host length net,
    StartsFrom 1 10 (@mainKept ℤ wholeDouble _ _ [.f 1, .m 255, .q 10] host length net) :=
  ⟨rfl, (@startsFrom_iff ℤ wholeDouble _ _ [.f 1, .m 255, .q 10] _ rfl
    ⟨by decide, by decide⟩).mpr (by decide)⟩

/-- With `-f 2 -m 3`, probes with the TTL 1 are sent. -/
theorem firstTtl_ignored : ∃ o, @parseOptions ℤ wholeDouble _ _ [.f 2, .m 3] = .ok o ∧
    o.firstTtl = 2 ∧ o.maxTtl = 3 ∧
    ∃ host length net,
      1 ∈ (endState (@mainKept ℤ wholeDouble _ _ [.f 2, .m 3] host length net)).ttls ∧
      ¬ StartsFrom 2 3 (@mainKept ℤ wholeDouble _ _ [.f 2, .m 3] host length net) := by
  have hmem : 1 ∈ (endState
      (@mainKept ℤ wholeDouble _ _ [.f 2, .m 3] (some "target") none silentNet)).ttls := by decide
  refine ⟨_, rfl, rfl, rfl, some "target", none, silentNet, hmem, fun h => ?_⟩
  exact absurd (h.le 1 hmem) (by decide)

end SuccessiveTraceroute
