import OsSamples.Spec.SuccessiveTraceroute
import OsSamples.Spec.TracerouteOptions

/-!
# The indices of successive traceroute

Every index into `tr.probes` is within the array, whatever the network does.  That the number of
probes fits into an `int` depends on `-m`, which has no lower limit.

## Key results

- `doOneProbe_safe`, `printOneProbe_safe`: one probe
- `doTraceroute_safe`: all rounds and the clean-up
- `indices_safe_iff`: all command lines
-/

namespace SuccessiveTraceroute

open Traceroute CInt

variable {D : Type} {opts : Options D} {net : NetEnv} {s : State D} {pn : ℕ}

/-! ## One probe -/

/-- The program does not stop because of an index outside of `tr.probes`. -/
def Inside (e : Stop) : Prop := ∀ i, e ≠ .outOfBounds i

/-- Reading a probe. -/
theorem probe_safe (hpn : pn < MAX_TTL * MAX_PROBES) (s : State D) :
    Outcome Inside (fun _ => True) (s.probe pn) := by
  rw [State.probe_ok hpn]
  exact .ok trivial

/-- Reading the string behind a pointer. -/
theorem deref_safe (s : State D) (p : Ptr) : Outcome Inside (fun _ => True) (s.deref p) := by
  cases p with
  | null => exact .error nofun
  | hostUnknown | hostUnknownBadAF | block id => exact .ok trivial

/-- The host name part of `print_one_probe`. -/
theorem hostTexts_safe (opts : Options D) (hpn : pn < MAX_TTL * MAX_PROBES) (s : State D) :
    Outcome Inside (fun _ => True) (hostTexts opts pn s) := by
  unfold hostTexts
  refine (probe_safe hpn s).bind fun p _ => ?_
  refine .ite (fun _ => .ok trivial) fun _ => ?_
  refine .ite (fun _ => (deref_safe s _).bind fun _ _ => .ok trivial) fun hcond => ?_
  have hfirst : firstOfTtl opts pn = false := by
    simp only [not_or, Bool.not_eq_true] at hcond
    exact hcond.1
  rw [probe_pred_ok hpn (pos_of_not_firstOfTtl hfirst)]
  refine .ite (fun _ => .ok trivial) fun _ => ?_
  refine (deref_safe s _).bind fun _ _ => ?_
  exact (deref_safe s _).bind fun _ _ => .ok trivial

/-- The final probe, if there is one, is among the first `n` probes. -/
def FinalBelow (n : ℕ) (s : State D) : Prop := s.tr.finalProbe < n

theorem FinalBelow.mono {n m : ℕ} (h : FinalBelow n s) (hle : n ≤ m) : FinalBelow m s :=
  lt_of_lt_of_le h (by exact_mod_cast hle)

variable [CDouble D]

/-- `print_one_probe`. -/
theorem printOneProbe_safe (opts : Options D) (hpn : pn < MAX_TTL * MAX_PROBES) (s : State D) :
    Outcome Inside (fun s' => s'.tr = s.tr) (printOneProbe opts pn s) := by
  unfold printOneProbe
  refine (probe_safe hpn s).bind fun p _ => ?_
  cases p.probeResult with
  | errInit | errSend => exact .error nofun
  | errTimeout | ok | errRecv =>
    exact (hostTexts_safe opts hpn s).bind fun _ _ => .ok rfl
  | unknown => exact .ok rfl

/-- `do_one_probe`, whether the probe can be sent or not; it can make no later probe final. -/
theorem doOneProbe_safe (opts : Options D) (hpn : pn < MAX_TTL * MAX_PROBES) (env : ProbeEnv)
    (hfinal : FinalBelow pn s) :
    Outcome Inside (FinalBelow (pn + 1)) (doOneProbe opts pn env s) := by
  unfold FinalBelow at hfinal ⊢
  by_cases henv : SendOk env
  · obtain ⟨s', b, hprobe, hdone, -⟩ := doOneProbe_ok opts hpn henv s
    rw [hprobe]
    refine .ok ?_
    rw [hdone.finalProbe]
    unfold earlier
    split <;> [split; skip] <;> omega
  · obtain ⟨s', hprobe, hquiet, -⟩ := doOneProbe_fail opts hpn henv s
    rw [hprobe]
    refine .ok ?_
    rw [hquiet.finalProbe]
    omega

/-- One round of the loop of `do_traceroute`. -/
theorem probeRound_safe (opts : Options D) (net : NetEnv) (hpn : pn < MAX_TTL * MAX_PROBES)
    (hfinal : FinalBelow pn s) :
    Outcome Inside (StepOutcome (FinalBelow (pn + 1)) (FinalBelow (pn + 1)))
      (probeRound opts net pn s) := by
  unfold probeRound
  refine (doOneProbe_safe opts hpn (net.probe pn) hfinal).bind fun s₁ h₁ => ?_
  refine (printOneProbe_safe opts hpn s₁).bind fun s₂ h₂ => ?_
  have hbelow : FinalBelow (pn + 1) s₂ := by rwa [FinalBelow, h₂]
  refine .ok ?_
  split
  · exact .done hbelow
  · exact .yield hbelow

/-! ## The driver -/

/-- `traceroute_init`: with an unknown target there is nothing to be done. -/
theorem tracerouteInit_safe (opts : Options D) (net : NetEnv)
    (hbound : (opts.maxTtl * opts.probes).toNat ≤ MAX_TTL * MAX_PROBES) :
    Outcome Inside (fun r => r.1 = 0 → r.2.tr.finalProbe = -1)
      (tracerouteInit opts net (.initial : State D)) := by
  cases hres : net.getaddrinfo with
  | none =>
    unfold tracerouteInit
    rw [hres]
    exact .ok nofun
  | some res =>
    obtain ⟨s, hinit, -, -, hfinal⟩ := tracerouteInit_ok opts hbound hres (.initial : State D)
    rw [hinit]
    exact .ok fun _ => hfinal

/-- For every option setting with a largest TTL of at most 255 and 1 to 10 probes per TTL. -/
theorem doTraceroute_safe (opts : Options D) (hmax : opts.maxTtl ≤ MAX_TTL)
    (hprobes : 1 ≤ opts.probes ∧ opts.probes ≤ MAX_PROBES) (target : String) (net : NetEnv) :
    Outcome Inside (fun _ => True) (doTraceroute opts target net) := by
  generalize hq' : opts.probes.toNat = q
  have hq : opts.probes = q := by omega
  have hpos : 0 < q := by omega
  have hbound : opts.maxTtl.toNat * q ≤ MAX_TTL * MAX_PROBES :=
    Nat.mul_le_mul (show opts.maxTtl.toNat ≤ MAX_TTL by omega) (show q ≤ MAX_PROBES by omega)
  unfold doTraceroute
  refine (tracerouteInit_safe opts net (by rw [total_eq hq]; exact hbound)).bind ?_
  rintro ⟨rc, s⟩ hinit
  refine .ite (fun _ => .ok trivial) fun hrc => ?_
  have hfinal : s.tr.finalProbe = -1 := hinit (not_not.mp hrc)
  obtain ⟨hquiet, -, -⟩ := addr2str_ok 0 net.getnameinfo s.tr.destAddr A2S_NORESOLVE s
  rw [← hquiet.finalProbe] at hfinal
  generalize addr2str net.getnameinfo s.tr.destAddr A2S_NORESOLVE s = r at hfinal ⊢
  obtain ⟨resolved, s₁⟩ := r
  refine (deref_safe s₁ resolved).bind fun str _ => ?_
  rw [total_eq hq]
  -- the probes: none after the current one is final
  refine (forLoop_outcome (I := FinalBelow) (Q := FinalBelow (opts.maxTtl.toNat * q))
    ?_ ?_ ?_).bind fun s₂ h₂ => ?_
  · intro pn s _ hpn hfinal
    rw [Nat.zero_add] at hpn
    refine (probeRound_safe opts net (by omega) hfinal).imp fun step hstep => ?_
    cases hstep with
    | yield h => exact .yield h
    | done h => exact .done (h.mono hpn)
  · intro s hs
    rwa [Nat.zero_add] at hs
  · have hprint : (s₁.print (headerTexts opts target str)).tr.finalProbe = -1 := hfinal
    unfold FinalBelow
    omega
  -- the clean-up: the rows up to that of the final probe
  generalize hs₃ : (if resolved ≠ .hostUnknown ∧ resolved ≠ .hostUnknownBadAF then
    s₂.emit (.free resolved) else s₂) = s₃
  have hfinal₃ : s₃.tr.finalProbe = s₂.tr.finalProbe := by
    rw [← hs₃]
    split <;> rfl
  have hrows : ∀ pn < (s₃.tr.finalProbe + 1).toNat, (pn / q + 1) * q ≤ MAX_TTL * MAX_PROBES := by
    intro pn hpn
    have hlt : pn < opts.maxTtl.toNat * q := by
      unfold FinalBelow at h₂
      omega
    have hrow : pn / q < opts.maxTtl.toNat := (Nat.div_lt_iff_lt_mul hpos).mpr hlt
    exact (Nat.mul_le_mul_right q hrow).trans hbound
  obtain ⟨s₄, hfree, -⟩ := freeLoop_ok hq hpos hrows s₃
  dsimp only
  rw [hfree]
  exact .ok trivial

/-! ## The program -/

variable [LT D] [DecidableLT D] {args : List (Opt D)}

/-- `parse_options` ends the program in no other way than by `exit`. -/
theorem parseOptions_safe (args : List (Opt D)) :
    Outcome Inside (fun _ => True) (parseOptions args) := by
  unfold parseOptions
  refine (foldlM_outcome (I := fun _ => True) (fun opts a _ => ?_) args trivial).bind
    fun opts _ => .ok trivial
  cases a with
  | h | V | unknown => exact .error nofun
  | v | Q | d | f arg | m arg | n | w arg | q arg | U | p arg => exact .ok trivial

/-- `main`, for every command line. -/
theorem main_safe (args : List (Opt D)) (host : Option String) (length : Option ℤ)
    (net : NetEnv) : Outcome Inside (fun _ => True) (main args host length net) := by
  have hsafe := parseOptions_safe args
  unfold main
  cases hparse : parseOptions args with
  | error e =>
    rw [hparse] at hsafe
    cases hsafe with
    | error hinside => exact .error hinside
  | ok o =>
    obtain ⟨-, hmax, hprobes⟩ := parseOptions_limits hparse
    cases host with
    | none => exact .error nofun
    | some host =>
      -- the packet length does not touch the limits
      have hlimits : (setPacketLen length o.toOptions).maxTtl = o.maxTtl ∧
          (setPacketLen length o.toOptions).probes = o.probes := by
        cases length <;> exact ⟨rfl, rfl⟩
      refine doTraceroute_safe _ ?_ ?_ host net
      · rw [hlimits.1, hmax]
        exact maxTtlOf_le args
      · rw [hlimits.2, hprobes]
        exact probesOf_range args

/-- The number of probes fits into `int`, unless the largest TTL is too far below 0. -/
theorem fitsInt_iff {maxTtl probes : ℤ} (hmax : maxTtl ≤ MAX_TTL)
    (hprobes : 1 ≤ probes ∧ probes ≤ MAX_PROBES) :
    FitsInt (maxTtl * probes) ↔ -(2 ^ 31 / probes) ≤ maxTtl := by
  have hle : maxTtl * probes ≤ INT_MAX := by
    rcases le_total 0 maxTtl with h | h
    · exact (Int.mul_le_mul hmax hprobes.2 (by omega) (by decide)).trans (by decide)
    · exact (Int.mul_nonpos_of_nonpos_of_nonneg h (by omega)).trans (by decide)
  calc FitsInt (maxTtl * probes) ↔ INT_MIN ≤ maxTtl * probes := and_iff_left hle
    _ ↔ -maxTtl * probes ≤ 2 ^ 31 := by
      rw [Int.neg_mul, INT_MIN]
      omega
    _ ↔ -maxTtl ≤ 2 ^ 31 / probes := (Int.le_ediv_iff_mul_le (by omega)).symm
    _ ↔ -(2 ^ 31 / probes) ≤ maxTtl := by omega

/-! ## Main result -/

/-- For every accepted command line, whatever numbers are given to `-m` and `-q`: that the number of
    probes fits into `int`, and that no run uses an index outside of `tr.probes`, is the case if and
    only if the largest TTL is at least `-(2 ^ 31 / probes)`.  Only the number of probes is at
    stake; the indices are within the array in any case. -/
theorem indices_safe_iff {o : Settings D} (hparse : parseOptions args = .ok o) :
    (FitsInt (o.maxTtl * o.probes) ∧ ∀ host length net i,
      main args host length net ≠ .error (.outOfBounds i)) ↔
    -(2 ^ 31 / probesOf args) ≤ maxTtlOf args := by
  obtain ⟨-, hmax, hprobes⟩ := parseOptions_limits hparse
  rw [hmax, hprobes, ← fitsInt_iff (maxTtlOf_le args) (probesOf_range args)]
  refine and_iff_left fun host length net i hstop => ?_
  have hsafe := main_safe args host length net
  rw [hstop] at hsafe
  cases hsafe with
  | error hinside => exact hinside i rfl

/-- The largest numbers: 2550 probes. -/
theorem indices_safe_iff_maximum :
    FitsInt (255 * 10) ∧ ∀ host length net i,
      @main ℤ wholeDouble _ _ [.m 255, .q 10] host length net ≠ .error (.outOfBounds i) :=
  (@indices_safe_iff ℤ wholeDouble _ _ [.m 255, .q 10] _ rfl).mpr (by decide)

/-- With the smallest `int` given to `-m` and 3 probes per TTL, the product is out of range. -/
theorem product_overflows :
    ∃ o, @parseOptions ℤ wholeDouble _ _ [.m INT_MIN] = .ok o ∧ ¬ FitsInt (o.maxTtl * o.probes) :=
  ⟨_, rfl, by unfold FitsInt; decide⟩

end SuccessiveTraceroute
