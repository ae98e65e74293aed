import Mathlib.Order.Bounds.Basic
import OsSamples.Native.ThreadedTraceroute
import OsSamples.Spec.SuccessiveTraceroute

/-!
# The final probe of threaded traceroute

A thread that has found the final probe larger than its own may write only after another thread has
written a smaller one.  As long as no thread does that, the final probe is in the end the smallest
one with a terminal answer.

## Key results

- `locStep_owes`: a step outside of the updates does not change whether there is one to come
- `Inv.next`: what a step within a call does
- `reachable_inv`: all steps
- `finalProbe_smallest`: the final probe when all threads have finished
-/

namespace ThreadedTraceroute

open Traceroute
open SuccessiveTraceroute (Options ProbeInfo TracerouteInfo Terminal finalCmsg wholeDouble
  oneRouter)

variable {D : Type} {tr tr' : TracerouteInfo D} {pn : ℕ}

/-! ## What a call still has to do -/

/-- The same final probe and the same times of sending. -/
structure Kept (tr tr' : TracerouteInfo D) : Prop where
  finalProbe : tr'.finalProbe = tr.finalProbe
  sendTime : ∀ m, (tr'.probes m).sendTime = (tr.probes m).sendTime

theorem Kept.refl (tr : TracerouteInfo D) : Kept tr tr := ⟨rfl, fun _ => rfl⟩

theorem Kept.trans {tr'' : TracerouteInfo D} (h : Kept tr tr') (h' : Kept tr' tr'') :
    Kept tr tr'' :=
  ⟨h'.finalProbe.trans h.finalProbe, fun m => (h'.sendTime m).trans (h.sendTime m)⟩

/-- Writing other fields of a probe. -/
theorem Kept.updateProbe (pn : ℕ) (tr : TracerouteInfo D) {f : ProbeInfo D → ProbeInfo D}
    (hf : ∀ p, (f p).sendTime = p.sendTime := by intro p; rfl) :
    Kept tr (updateProbe pn f tr) := by
  refine ⟨rfl, fun m => ?_⟩
  unfold ThreadedTraceroute.updateProbe
  dsimp only
  split
  · exact hf _
  · rfl

variable [CDouble D] {opts : Options D} {net : NetEnv} {env : ProbeEnv}

/-- Whether the rest of a call updates the final probe. -/
def Loc.Owes (opts : Options D) (env : ProbeEnv) : Loc → Prop
  | .receive => Terminal opts env
  | .parseCmsg pollerr _ cmsgs => pollerr = false ∨ ∃ c ∈ cmsgs, finalCmsg c = true
  | .answer pollerr _ => pollerr = false
  | .close => False

/-- The same, with the update that the call is in. -/
def Next.Owes (opts : Options D) (env : ProbeEnv) : Next → Prop
  | .go check loc => check.isSome ∨ loc.Owes opts env
  | .ret _ => False

def Call.Owes (opts : Options D) (net : NetEnv) (c : Call) : Prop :=
  Next.Owes opts (net.probe c.pn) (.go c.check c.loc)

omit [CDouble D] in
/-- `parse_icmp_response` comes to an update unless the TTL has been exceeded in transit. -/
theorem parseIcmpResponse_kept (pn type code : ℕ) (info : ℤ) (tr : TracerouteInfo D) :
    Kept tr (parseIcmpResponse pn type code info tr).1 ∧
      (parseIcmpResponse pn type code info tr).2 =
        if type = ICMP_TIME_EXCEEDED ∧ code = ICMP_EXC_TTL then none else some .readNegative := by
  unfold parseIcmpResponse
  split
  · exact ⟨.refl tr, rfl⟩
  · cases icmpText type code info with
    | none => exact ⟨.refl tr, rfl⟩
    | some str =>
      dsimp only
      exact ⟨.updateProbe pn tr, rfl⟩

/-- One round of the loop of `parse_cmsg`. -/
theorem parseOneCmsg_kept (pn : ℕ) (tr : TracerouteInfo D) (c : Cmsg) :
    Kept tr (parseOneCmsg pn tr c).1 ∧
      (parseOneCmsg pn tr c).2 = if finalCmsg c then some .readNegative else none := by
  unfold parseOneCmsg
  cases c with
  | timestamp tv =>
    dsimp only
    exact ⟨.updateProbe pn tr, rfl⟩
  | ttl ttl =>
    dsimp only
    exact ⟨.updateProbe pn tr, rfl⟩
  | other => exact ⟨.refl tr, rfl⟩
  -- only an ICMP message about the probe decides about `final_probe`
  | recverr ee =>
    by_cases horigin : ee.origin = SO_EE_ORIGIN_ICMP
    · dsimp only
      rw [if_pos horigin]
      obtain ⟨hkept, hcheck⟩ := parseIcmpResponse_kept pn ee.type.toNat ee.code.toNat
        ee.info.toInt (updateProbe pn (fun p => { p with recvAddr := ee.offender }) tr)
      refine ⟨Kept.trans (.updateProbe pn tr) hkept, ?_⟩
      rw [hcheck]
      by_cases htype : ee.type.toNat = ICMP_TIME_EXCEEDED ∧ ee.code.toNat = ICMP_EXC_TTL
      · simp [finalCmsg, horigin, htype]
      · rw [if_neg htype]
        rcases not_and_or.mp htype with h | h <;> simp [finalCmsg, horigin, h]
    · simp [finalCmsg, horigin, Kept.refl]

/-- Outside of the updates, whether there is one to come does not change. -/
theorem locStep_owes (opts : Options D) (loc : Loc)
    (htime : (tr.probes pn).sendTime = getTime env.sendTime) :
    Kept tr (locStep opts env pn tr loc).2.1 ∧
      ((locStep opts env pn tr loc).2.2.Owes opts env ↔ loc.Owes opts env) ∧
      ∀ loc', (locStep opts env pn tr loc).2.2 ≠ .go (some .readLess) loc' := by
  cases loc with
  | receive =>
    unfold locStep
    rw [htime]
    cases hloop : receiveLoop opts.timeout (getTime env.sendTime) env.attempts with
    | error rc =>
      -- no answer, so that there is nothing to report
      refine ⟨.refl tr, iff_of_false id ?_, by simp⟩
      rintro ⟨pollerr, msg, hok, -⟩
      cases hloop.symm.trans hok
    | ok answer =>
      obtain ⟨pollerr, msg⟩ := answer
      refine ⟨.refl tr, ?_, by simp⟩
      simp [Next.Owes, Loc.Owes, Terminal, hloop]
  | parseCmsg pollerr msg cmsgs =>
    cases cmsgs with
    | nil =>
      dsimp only [locStep]
      refine ⟨.updateProbe pn tr (by intro p; split <;> rfl), ?_, by simp⟩
      simp [Next.Owes, Loc.Owes]
    | cons c cmsgs =>
      obtain ⟨hkept, hcheck⟩ := parseOneCmsg_kept pn tr c
      refine ⟨hkept, ?_, fun loc' h => ?_⟩
      · -- a terminal message begins the update, any other one leaves it to the rest
        show (parseOneCmsg pn tr c).2.isSome ∨ _ ↔ _
        rw [hcheck]
        cases hc : finalCmsg c <;> simp [Loc.Owes, hc]
      · obtain ⟨hless, -⟩ := Next.go.inj h
        rw [hcheck] at hless
        split at hless <;> cases hless
  | answer pollerr msg =>
    cases pollerr with
    -- an error on the socket has been dealt with in `parse_cmsg`
    | true =>
      refine ⟨.refl tr, iff_of_false ?_ (fun h => by cases h), fun loc' h => by cases h⟩
      rintro (h | h) <;> cases h
    | false =>
      rw [locStep, if_neg Bool.false_ne_true]
      dsimp only
      exact ⟨.updateProbe pn tr, iff_of_true (.inl rfl) rfl, by simp⟩
  | close =>
    dsimp only [locStep]
    exact ⟨.updateProbe pn tr, Iff.rfl, by simp⟩

/-! ## The invariant -/

variable {T : Type} {tasks : T → List ℕ} {loc : T → Thread}

/-- The probes with a terminal answer. -/
def terminals (opts : Options D) (net : NetEnv) (tasks : T → List ℕ) : Set ℕ :=
  {pn | (∃ i, pn ∈ tasks i) ∧ Terminal opts (net.probe pn)}

/-- What holds in every run without stale writes. -/
structure Inv (opts : Options D) (net : NetEnv) (tasks : T → List ℕ) (tr : TracerouteInfo D)
    (loc : T → Thread) : Prop where
  sendTime : ∀ pn, (tr.probes pn).sendTime = getTime (net.probe pn).sendTime
  todo : ∀ i, ∀ pn ∈ (loc i).todo, pn ∈ tasks i
  call : ∀ i c, (loc i).call = some c → c.pn ∈ tasks i ∧
    (c.Owes opts net → Terminal opts (net.probe c.pn)) ∧
    (c.check = some .readLess → 0 ≤ tr.finalProbe)
  finalProbe : tr.finalProbe = -1 ∨ ∃ pn ∈ terminals opts net tasks, tr.finalProbe = (pn : ℕ)
  -- a terminal answer has still to be looked at, or the final probe is not larger
  reported : ∀ i, ∀ pn ∈ tasks i, Terminal opts (net.probe pn) → pn ∈ (loc i).todo ∨
    (∃ c, (loc i).call = some c ∧ c.pn = pn ∧ c.Owes opts net) ∨
    (0 ≤ tr.finalProbe ∧ tr.finalProbe ≤ pn)

/-- Before the first step. -/
theorem Inv.initial (opts : Options D) (net : NetEnv) (tasks : T → List ℕ) :
    Inv opts net tasks (initial opts net tasks).shared (initial opts net tasks).loc where
  sendTime _ := rfl
  todo _ _ hmem := hmem
  call _ _ := nofun
  finalProbe := .inl rfl
  reported _ _ hmem _ := .inl hmem

variable [DecidableEq T] {i : T} {c : Call} {n : Next}

/-- A step within a call: the final probe stays as it is, or it becomes that of the call, which is
    not larger; and after its last look at the final probe a call leaves none that is larger. -/
theorem Inv.next (h : Inv opts net tasks tr loc) (hcall : (loc i).call = some c)
    (htime : ∀ m, (tr'.probes m).sendTime = (tr.probes m).sendTime)
    (howes : n.Owes opts (net.probe c.pn) → c.Owes opts net)
    (hless : ∀ l, n = .go (some .readLess) l → 0 ≤ tr'.finalProbe)
    (hfinal : tr'.finalProbe = tr.finalProbe ∨ (tr'.finalProbe = c.pn ∧ c.Owes opts net ∧
      (tr.finalProbe < 0 ∨ c.pn ≤ tr.finalProbe)))
    (hdone : c.Owes opts net → n.Owes opts (net.probe c.pn) ∨
      (0 ≤ tr'.finalProbe ∧ tr'.finalProbe ≤ c.pn)) :
    Inv opts net tasks tr' (Function.update loc i ((loc i).next c.pn n)) := by
  obtain ⟨hmem, hterm, -⟩ := h.call i c hcall
  have htodo : ((loc i).next c.pn n).todo = (loc i).todo := by cases n <;> rfl
  have hnext : ∀ c', ((loc i).next c.pn n).call = some c' →
      ∃ check l, n = .go check l ∧ c' = ⟨c.pn, check, l⟩ := by
    intro c' hc'
    cases n with
    | go check l => exact ⟨check, l, rfl, (Option.some.inj hc').symm⟩
    | ret rc => exact nomatch hc'
  -- the final probe does not become larger
  have hle : ∀ m : ℕ, 0 ≤ tr.finalProbe ∧ tr.finalProbe ≤ m →
      0 ≤ tr'.finalProbe ∧ tr'.finalProbe ≤ m := by
    intro m hm
    rcases hfinal with heq | ⟨heq, -, hneg | hle⟩ <;> omega
  refine ⟨fun m => (htime m).trans (h.sendTime m), fun j m hm => ?_, fun j c' hc' => ?_, ?_,
    fun j m hm hm' => ?_⟩
  · by_cases hj : j = i
    · subst hj
      rw [Function.update_self, htodo] at hm
      exact h.todo j m hm
    · rw [Function.update_of_ne hj] at hm
      exact h.todo j m hm
  · by_cases hj : j = i
    · subst hj
      rw [Function.update_self] at hc'
      obtain ⟨check, l, rfl, rfl⟩ := hnext c' hc'
      exact ⟨hmem, fun hc => hterm (howes hc), fun hc => hless l (by rw [← hc])⟩
    · rw [Function.update_of_ne hj] at hc'
      obtain ⟨hmem', hterm', hless'⟩ := h.call j c' hc'
      refine ⟨hmem', hterm', fun hc => ?_⟩
      rcases hfinal with heq | ⟨heq, -⟩
      · rw [heq]
        exact hless' hc
      · omega
  · rcases hfinal with heq | ⟨heq, hc, -⟩
    · rw [heq]
      exact h.finalProbe
    · exact .inr ⟨c.pn, ⟨⟨i, hmem⟩, hterm hc⟩, heq⟩
  -- a terminal answer: still to be received, in a call, or reported
  · rcases h.reported j m hm hm' with hj | ⟨c', hc', rfl, howes'⟩ | hlarge
    · refine .inl ?_
      by_cases hji : j = i
      · subst hji
        rwa [Function.update_self, htodo]
      · rwa [Function.update_of_ne hji]
    · by_cases hji : j = i
      · subst hji
        obtain rfl := Option.some.inj (hcall.symm.trans hc')
        rcases hdone howes' with hn | hsmall
        · cases n with
          | go check l =>
            refine .inr (.inl ⟨⟨c.pn, check, l⟩, ?_, rfl, hn⟩)
            rw [Function.update_self]
            rfl
          | ret rc => exact hn.elim
        · exact .inr (.inr hsmall)
      · refine .inr (.inl ⟨c', ?_, rfl, howes'⟩)
        rwa [Function.update_of_ne hji]
    · exact .inr (.inr (hle m hlarge))

/-- The next probe of a thread. -/
theorem Inv.start {todo : List ℕ} (h : Inv opts net tasks tr loc)
    (hcall : (loc i).call = none) (htodo : (loc i).todo = pn :: todo) :
    Inv opts net tasks tr (Function.update loc i
      { loc i with todo := todo, call := some ⟨pn, none, .receive⟩ }) := by
  have hpn : pn ∈ (loc i).todo := by
    rw [htodo]
    exact List.mem_cons_self
  refine ⟨h.sendTime, fun j m hm => ?_, fun j c hc => ?_, h.finalProbe, fun j m hm hm' => ?_⟩
  · by_cases hj : j = i
    · subst hj
      rw [Function.update_self] at hm
      exact h.todo j m (by rw [htodo]; exact List.mem_cons_of_mem _ hm)
    · rw [Function.update_of_ne hj] at hm
      exact h.todo j m hm
  · by_cases hj : j = i
    · subst hj
      rw [Function.update_self] at hc
      obtain rfl := Option.some.inj hc
      exact ⟨h.todo j _ hpn, fun howes => howes.elim nofun id, nofun⟩
    · rw [Function.update_of_ne hj] at hc
      exact h.call j c hc
  · by_cases hj : j = i
    · subst hj
      rw [Function.update_self]
      rcases h.reported j m hm hm' with hmem | ⟨c, hc, -⟩ | hlarge
      · rw [htodo] at hmem
        rcases List.mem_cons.mp hmem with rfl | hmem
        -- the call that begins has it to report
        · exact .inr (.inl ⟨_, rfl, rfl, .inr hm'⟩)
        · exact .inl hmem
      · exact nomatch hcall.symm.trans hc
      · exact .inr (.inr hlarge)
    · rw [Function.update_of_ne hj]
      exact h.reported j m hm hm'

/-! ## Runs without stale writes -/

/-- The probe that a thread is about to write. -/
def Thread.writes (l : Thread) : Option ℕ :=
  l.call.bind fun c => if c.check = some .write then some c.pn else none

/-- The step does not write a probe over a smaller one. -/
def NotStale (cfg : Config T (TracerouteInfo D) Thread) (a : T × Unit) : Prop :=
  ∀ pn ∈ (cfg.loc a.1).writes, cfg.shared.finalProbe < 0 ∨ pn ≤ cfg.shared.finalProbe

instance (cfg : Config T (TracerouteInfo D) Thread) (a : T × Unit) :
    Decidable (NotStale cfg a) :=
  inferInstanceAs (Decidable (∀ pn ∈ (cfg.loc a.1).writes, _))

/-- Every step of every thread, unless it is a stale write. -/
theorem Inv.step {e : Option Event} {l' : Thread} (h : Inv opts net tasks tr loc)
    (hok : NotStale ⟨tr, loc⟩ (i, ()))
    (hs : step opts net i () tr (loc i) = some (e, tr', l')) :
    Inv opts net tasks tr' (Function.update loc i l') := by
  unfold ThreadedTraceroute.step at hs
  cases hcall : (loc i).call with
  | none =>
    rw [hcall] at hs
    dsimp only at hs
    cases htodo : (loc i).todo with
    | nil =>
      rw [htodo] at hs
      exact nomatch hs
    | cons pn todo =>
      rw [htodo] at hs
      obtain ⟨-, rfl, rfl⟩ : _ ∧ tr = tr' ∧ _ = l' := by simpa using hs
      exact h.start hcall htodo
  | some c =>
    rw [hcall] at hs
    obtain ⟨pn, check, l⟩ := c
    cases check with
    | none =>
      -- outside of the updates
      obtain ⟨-, rfl, rfl⟩ : _ ∧ (locStep opts (net.probe pn) pn tr l).2.1 = tr' ∧ _ = l' := by
        simpa using hs
      obtain ⟨hkept, howes, hless⟩ := locStep_owes opts l (h.sendTime pn)
      have hc : Call.Owes opts net ⟨pn, none, l⟩ ↔ l.Owes opts (net.probe pn) :=
        or_iff_right nofun
      exact h.next hcall hkept.sendTime (fun hn => hc.mpr (howes.mp hn))
        (fun l' heq => absurd heq (hless l')) (.inl hkept.finalProbe)
        (fun hn => .inl (howes.mpr (hc.mp hn)))
    | some check =>
      obtain ⟨-, rfl, rfl⟩ : _ ∧ (checkStep pn tr check).1 = tr' ∧ _ = l' := by
        simpa using hs
      have hc : Call.Owes opts net ⟨pn, some check, l⟩ := .inl rfl
      obtain ⟨-, -, hnonneg⟩ := h.call i _ hcall
      cases check with
      | readNegative =>
        refine h.next hcall (fun _ => rfl) (fun _ => hc) (fun l' heq => ?_) (.inl rfl)
          (fun _ => .inl (.inl rfl))
        have hless : some (if tr.finalProbe < 0 then Check.write else .readLess) = some .readLess :=
          (Next.go.inj heq).1
        show 0 ≤ tr.finalProbe
        by_contra hneg
        rw [if_pos (show tr.finalProbe < 0 by omega)] at hless
        exact nomatch hless
      | readLess =>
        refine h.next hcall (fun _ => rfl) (fun _ => hc) (fun l' heq => ?_) (.inl rfl)
          (fun _ => ?_)
        · exact hnonneg rfl
        · show Next.Owes _ _ (.go (if _ then _ else _) l) ∨ _
          by_cases hlt : pn < tr.finalProbe
          · rw [if_pos hlt]
            exact .inl (.inl rfl)
          · exact .inr ⟨hnonneg rfl, by show tr.finalProbe ≤ pn; omega⟩
      | write =>
        have hfresh : tr.finalProbe < 0 ∨ pn ≤ tr.finalProbe := by
          refine hok pn ?_
          simp [Thread.writes, hcall]
        exact h.next hcall (fun _ => rfl) (fun _ => hc) nofun (.inr ⟨rfl, hc, hfresh⟩)
          (fun _ => .inr ⟨Int.natCast_nonneg pn, le_rfl⟩)

/-- All steps of a run. -/
theorem reachable_inv {tr₀ : List Event} {cfg : Config T (TracerouteInfo D) Thread}
    (h : ((machine T opts net).restrict NotStale).Run (initial opts net tasks) tr₀ cfg) :
    Inv opts net tasks cfg.shared cfg.loc := by
  refine h.invariant (I := fun cfg => Inv opts net tasks cfg.shared cfg.loc) ?_
    (.initial opts net tasks)
  intro cfg a e cfg' hI hs
  obtain ⟨hok, hs⟩ := Machine.restrict_step.mp hs
  obtain ⟨tr', l', hs', rfl⟩ := Threads.machine_step_eq_some.mp hs
  exact hI.step hok hs'

/-! ## Main result -/

/-- The value of the final probe for a set of probes. -/
def Smallest (s : Set ℕ) (final : ℤ) : Prop :=
  (s = ∅ ∧ final = -1) ∨ ∃ pn : ℕ, IsLeast s pn ∧ final = pn

/-- For any number of threads, any lists of probes and any answers to them: in every run in which no
    probe is written over a smaller one, once all threads have finished, the final probe is the
    smallest one with a terminal answer. -/
theorem finalProbe_smallest (opts : Options D) (net : NetEnv) (tasks : T → List ℕ)
    {events : List Event} {cfg : Config T (TracerouteInfo D) Thread}
    (hrun : ((machine T opts net).restrict NotStale).Run (initial opts net tasks) events cfg)
    (hfinished : ∀ i, (cfg.loc i).Finished) :
    Smallest (terminals opts net tasks) cfg.shared.finalProbe := by
  have h := reachable_inv hrun
  have hreported : ∀ pn ∈ terminals opts net tasks,
      0 ≤ cfg.shared.finalProbe ∧ cfg.shared.finalProbe ≤ pn := by
    rintro pn ⟨⟨i, hmem⟩, hterm⟩
    obtain ⟨htodo, hcall⟩ := hfinished i
    -- the probe is not waiting and not under way, since the thread has finished
    rcases h.reported i pn hmem hterm with hin | ⟨c, hc, -⟩ | hle
    · rw [htodo] at hin
      exact nomatch hin
    · exact nomatch hcall.symm.trans hc
    · exact hle
  -- `final_probe` is still -1, or it is one of the terminal probes
  rcases h.finalProbe with hnone | ⟨pn, hmem, heq⟩
  · refine .inl ⟨Set.eq_empty_of_forall_notMem fun pn hpn => ?_, hnone⟩
    have hle := hreported pn hpn
    omega
  · refine .inr ⟨pn, ⟨hmem, fun m hm => ?_⟩, heq⟩
    have hle := hreported m hm
    omega

/-- Two threads with the probes 5 and 3, one after the other. -/
theorem finalProbe_smallest_inOrder : ∃ events cfg,
    ((@machine ℤ wholeDouble Bool _ ⟨AF_INET, 3, 1, 3, true, true, 33434, 5, 40⟩
      oneRouter).restrict NotStale).Run
      (@initial ℤ wholeDouble Bool ⟨AF_INET, 3, 1, 3, true, true, 33434, 5, 40⟩ oneRouter
        fun i => [if i then 3 else 5]) events cfg ∧
    Smallest (@terminals ℤ wholeDouble Bool ⟨AF_INET, 3, 1, 3, true, true, 33434, 5, 40⟩ oneRouter
      fun i => [if i then 3 else 5]) cfg.shared.finalProbe := by
  let _ : CDouble ℤ := wholeDouble
  have hrun := Machine.Run.of_exec (M := (machine Bool (D := ℤ)
    ⟨AF_INET, 3, 1, 3, true, true, 33434, 5, 40⟩ oneRouter).restrict NotStale)
    (s := initial ⟨AF_INET, 3, 1, 3, true, true, 33434, 5, 40⟩ oneRouter
      fun i => [if i then 3 else 5])
    ((List.replicate 7 false ++ List.replicate 8 true).map fun i => (i, ())) rfl
  refine ⟨_, _, hrun, finalProbe_smallest _ _ _ hrun fun i => ?_⟩
  cases i <;> exact ⟨rfl, rfl⟩

/-- Both threads find no final probe, and the thread with probe 5 writes last. -/
theorem finalProbe_overwritten : ∃ events cfg,
    (@machine ℤ wholeDouble Bool _ ⟨AF_INET, 3, 1, 3, true, true, 33434, 5, 40⟩ oneRouter).Run
      (@initial ℤ wholeDouble Bool ⟨AF_INET, 3, 1, 3, true, true, 33434, 5, 40⟩ oneRouter
        fun i => [if i then 3 else 5]) events cfg ∧
    (∀ i, (cfg.loc i).Finished) ∧ cfg.shared.finalProbe = 5 ∧
    ¬ Smallest (@terminals ℤ wholeDouble Bool ⟨AF_INET, 3, 1, 3, true, true, 33434, 5, 40⟩ oneRouter
      fun i => [if i then 3 else 5]) cfg.shared.finalProbe := by
  let _ : CDouble ℤ := wholeDouble
  obtain ⟨events, cfg, hrun, hfinished, hfinal⟩ : ∃ events cfg,
      (machine Bool (D := ℤ) ⟨AF_INET, 3, 1, 3, true, true, 33434, 5, 40⟩ oneRouter).Run
        (initial ⟨AF_INET, 3, 1, 3, true, true, 33434, 5, 40⟩ oneRouter
          fun i => [if i then 3 else 5]) events cfg ∧
      (∀ i, (cfg.loc i).Finished) ∧ cfg.shared.finalProbe = 5 := by
    refine ⟨_, _, Machine.Run.of_exec ((List.replicate 5 false ++ List.replicate 7 true ++
      List.replicate 2 false).map fun i => (i, ())) rfl, fun i => ?_, rfl⟩
    cases i <;> exact ⟨rfl, rfl⟩
  refine ⟨events, cfg, hrun, hfinished, hfinal, ?_⟩
  rw [hfinal]
  rintro (⟨-, hnone⟩ | ⟨pn, hleast, heq⟩)
  · omega
  · have hle : pn ≤ 3 := hleast.2 ⟨⟨true, List.mem_singleton_self 3⟩, false, _, rfl, .inl rfl⟩
    omega

end ThreadedTraceroute
