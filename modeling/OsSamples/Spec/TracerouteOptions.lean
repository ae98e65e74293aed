import OsSamples.Native.TracerouteOptions

/-!
# The options of successive traceroute

What `parse_options` makes of a command line: of several options with the same letter the last one
counts.

## Key results

- `parseOptions_limits`: the number of rows and of probes
- `parseOptions_port`: the port base
-/

namespace SuccessiveTraceroute

open Traceroute CInt

variable {D : Type}

/-! ## The arguments -/

/-- The arguments of `-m`, `-q` and `-p`. -/
def Opt.mArg : Opt D → Option ℤ
  | .m arg => some arg
  | _ => none

def Opt.qArg : Opt D → Option ℤ
  | .q arg => some arg
  | _ => none

def Opt.pArg : Opt D → Option ℤ
  | .p arg => some arg
  | _ => none

/-- The largest TTL that the command line stands for. -/
def maxTtlOf (args : List (Opt D)) : ℤ :=
  ((args.filterMap Opt.mArg).getLast?.map clipTtl).getD DEF_TTL

/-- The number of probes per TTL that it stands for. -/
def probesOf (args : List (Opt D)) : ℤ :=
  ((args.filterMap Opt.qArg).getLast?.map clipProbes).getD DEF_PROBES

/-- The number given to `-p`. -/
def portArg (args : List (Opt D)) : Option ℤ := (args.filterMap Opt.pArg).getLast?

theorem clipTtl_le (arg : ℤ) : clipTtl arg ≤ MAX_TTL := by
  unfold clipTtl
  dsimp only
  split
  · exact Int.le_refl _
  · omega

theorem clipProbes_range (arg : ℤ) : 1 ≤ clipProbes arg ∧ clipProbes arg ≤ MAX_PROBES := by
  unfold clipProbes MAX_PROBES
  dsimp only
  split <;> split <;> omega

/-- With or without an option, the limits are kept. -/
theorem clipTtl_getD_le (arg : Option ℤ) : (arg.map clipTtl).getD DEF_TTL ≤ MAX_TTL := by
  cases arg with
  | none => exact (by decide : DEF_TTL ≤ MAX_TTL)
  | some arg => exact clipTtl_le arg

theorem clipProbes_getD_range (arg : Option ℤ) :
    1 ≤ (arg.map clipProbes).getD DEF_PROBES ∧
      (arg.map clipProbes).getD DEF_PROBES ≤ MAX_PROBES := by
  cases arg with
  | none => exact (by decide : 1 ≤ DEF_PROBES ∧ DEF_PROBES ≤ MAX_PROBES)
  | some arg => exact clipProbes_range arg

theorem maxTtlOf_le (args : List (Opt D)) : maxTtlOf args ≤ MAX_TTL := clipTtl_getD_le _

theorem probesOf_range (args : List (Opt D)) : 1 ≤ probesOf args ∧ probesOf args ≤ MAX_PROBES :=
  clipProbes_getD_range _

/-- The last option of a kind. -/
theorem getLast?_filterMap_map {ω α β : Type} (arg : ω → Option α) (g : α → β) (args : List ω) :
    (args.filterMap fun a => (arg a).map g).getLast? = (args.filterMap arg).getLast?.map g := by
  rw [← List.map_filterMap, List.getLast?_map]

/-! ## The loop over the options -/

variable [CDouble D] [LT D] [DecidableLT D] {args : List (Opt D)} {opts opts' : Settings D}

/-- An accepted option: which fields of `opts` it sets. -/
theorem parseOption_fields {a : Opt D} (h : parseOption opts a = .ok opts') :
    opts'.af = opts.af ∧
      opts'.maxTtl = (a.mArg.map clipTtl).getD opts.maxTtl ∧
      opts'.probes = (a.qArg.map clipProbes).getD opts.probes ∧
      (a ≠ .U → opts'.destPortSeq = opts.destPortSeq ∧
        opts'.destPort = (a.pArg.map clipPort).getD opts.destPort) := by
  cases a with
  | h | V | unknown => exact nomatch h
  | v | Q =>
    obtain rfl := Except.ok.inj h
    split <;> exact ⟨rfl, rfl, rfl, fun _ => ⟨rfl, rfl⟩⟩
  | d | f arg | m arg | n | w arg | q arg | p arg =>
    obtain rfl := Except.ok.inj h
    exact ⟨rfl, rfl, rfl, fun _ => ⟨rfl, rfl⟩⟩
  | U =>
    obtain rfl := Except.ok.inj h
    exact ⟨rfl, rfl, rfl, fun hne => absurd rfl hne⟩

/-- The rows and the probes of an accepted command line. -/
theorem parseOptions_limits (h : parseOptions args = .ok opts) :
    opts.af = AF_INET ∧ opts.maxTtl = maxTtlOf args ∧ opts.probes = probesOf args := by
  unfold parseOptions at h
  cases hloop : args.foldlM parseOption (.initial : Settings D) with
  | error e =>
    rw [hloop] at h
    exact nomatch h
  | ok o =>
    rw [hloop] at h
    have haf := foldlM_field_same (fun o : Settings D => o.af)
      (fun a _ s s' hs => (parseOption_fields hs).1) hloop
    have hmax := foldlM_field (fun o : Settings D => o.maxTtl)
      (fun a _ s s' hs => (parseOption_fields hs).2.1) hloop
    have hprobes := foldlM_field (fun o : Settings D => o.probes)
      (fun a _ s s' hs => (parseOption_fields hs).2.2.1) hloop
    rw [getLast?_filterMap_map] at hmax hprobes
    obtain rfl := Except.ok.inj h
    split
    · exact ⟨haf, hmax, hprobes⟩
    · exact ⟨haf, hmax, hprobes⟩

/-- The port base that the command line stands for without `-U`. -/
def portOf (arg : Option ℤ) : BitVec 16 :=
  let destPort := (arg.map clipPort).getD 0
  if destPort = 0 then DEF_DEST_PORT_BASE else destPort

/-- The port base of an accepted command line without `-U`. -/
theorem parseOptions_port (h : parseOptions args = .ok opts) (hU : .U ∉ args) :
    opts.destPortSeq = true ∧ opts.destPort = portOf (portArg args) := by
  unfold parseOptions at h
  cases hloop : args.foldlM parseOption (.initial : Settings D) with
  | error e =>
    rw [hloop] at h
    exact nomatch h
  | ok o =>
    rw [hloop] at h
    have hne : ∀ a ∈ args, a ≠ .U := fun a ha heq => hU (heq ▸ ha)
    have hseq : o.destPortSeq = true := foldlM_field_same (fun o : Settings D => o.destPortSeq)
      (fun a ha s s' hs => ((parseOption_fields hs).2.2.2 (hne a ha)).1) hloop
    have hport := foldlM_field (fun o : Settings D => o.destPort)
      (fun a ha s s' hs => ((parseOption_fields hs).2.2.2 (hne a ha)).2) hloop
    -- the last `-p` counts, clipped as it was read
    rw [getLast?_filterMap_map] at hport
    change o.destPort = ((portArg args).map clipPort).getD 0 at hport
    obtain rfl := Except.ok.inj h
    unfold portOf
    rw [← hport]
    -- after the loop, port 0 becomes the default
    by_cases hzero : o.destPort = 0
    · rw [if_pos hzero, if_pos hzero, hseq]
      exact ⟨rfl, rfl⟩
    · rw [if_neg hzero, if_neg hzero]
      exact ⟨hseq, rfl⟩

end SuccessiveTraceroute
