import OsSamples.Lib.PetersonLock
import OsSamples.Native.Peterson

/-!
# Peterson's headers implement Peterson's protocol

The two reads of the loop condition are separate steps; a thread takes the protocol's entering
step with the read that ends its loop, and the other reads are invisible to the protocol.

## Key results

- `threadStep_sim`: each step is invisible or a step of the protocol
- `traces_subset_binaryLock`: the program implements a binary lock
- `peterson_correct`: mutual exclusion, no deadlock in the loops, and bounded overtaking
-/

namespace Peterson

open PetersonLock (Phase State Shows)

variable {header : Header} {cfg cfg' : Config Bool Vars Pc} {i : Bool}
  {e : Option (LockEvent Bool)}

/-- The phase of the protocol that a point of the program belongs to. -/
def Pc.phase : Pc → Phase
  | .setFlag => .idle
  | .setTurn => .doorway
  | .readFlag | .readTurn | .yield => .waiting
  | .critical => .critical

/-- The loop body is part of waiting. -/
@[simp] theorem loop_phase (header : Header) :
    (if header.yields then Pc.yield else Pc.readFlag).phase = .waiting := by
  split <;> rfl

/-- The state of the protocol. -/
def abs (cfg : Config Bool Vars Pc) : State :=
  ⟨fun i => (cfg.loc i).phase, decide (cfg.shared.turn = 1)⟩

/-- The variables agree with the protocol. -/
structure Repr (cfg : Config Bool Vars Pc) : Prop where
  flags : Shows (abs cfg) cfg.shared.flag
  turn : cfg.shared.turn = tidInt (abs cfg).turn

/-- Thread numbers are told apart by their values. -/
@[simp] theorem tidInt_inj {i j : Bool} : tidInt i = tidInt j ↔ i = j := by
  cases i <;> cases j <;> simp [tidInt]

/-- `turn` holds the number of the thread with precedence. -/
theorem tidInt_decide (i : Bool) : decide (tidInt i = 1) = i := by cases i <;> rfl

/-- A move of thread `i`, as the protocol sees it. -/
theorem abs_update (cfg : Config Bool Vars Pc) (i : Bool) (s' : Vars) (pc' : Pc) :
    abs ⟨s', Function.update cfg.loc i pc'⟩ =
      { (abs cfg).setPhase i pc'.phase with turn := decide (s'.turn = 1) } := by
  simp only [abs, State.setPhase, State.mk.injEq, and_true]
  funext j
  by_cases hj : j = i
  · subst hj; simp
  · simp [hj]

/-- A step is invisible to the protocol, or is the protocol's step of the same thread; either way
    the flags go on agreeing with it. -/
theorem threadStep_sim {s' : Vars} {pc' : Pc} (h : Repr cfg)
    (hs : threadStep header i () cfg.shared (cfg.loc i) = some (e, s', pc')) :
    ((e = none ∧ abs ⟨s', Function.update cfg.loc i pc'⟩ = abs cfg) ∨
      PetersonLock.machine.step (abs cfg) i =
        some (e, abs ⟨s', Function.update cfg.loc i pc'⟩)) ∧
      Shows (abs ⟨s', Function.update cfg.loc i pc'⟩) s'.flag := by
  have hphase : (abs cfg).phase i = (cfg.loc i).phase := rfl
  -- a move inside a phase, and one to another phase, that leave `turn`
  have hsame : ∀ pc, pc.phase = (cfg.loc i).phase →
      abs ⟨cfg.shared, Function.update cfg.loc i pc⟩ = abs cfg := fun pc hpc => by
    rw [abs_update, hpc]
    simp [abs, State.setPhase]
  have hmove : ∀ s₁ pc, s₁.turn = cfg.shared.turn →
      abs ⟨s₁, Function.update cfg.loc i pc⟩ = (abs cfg).setPhase i pc.phase :=
    fun s₁ pc ht => by rw [abs_update, ht]; rfl
  cases hpc : cfg.loc i <;> rw [hpc] at hphase hsame <;> simp only [threadStep, hpc] at hs
  case setFlag =>
    simp only [Option.some.injEq, Prod.mk.injEq] at hs
    obtain ⟨rfl, rfl, rfl⟩ := hs
    rw [hmove (cfg.shared.setFlag i true) _ rfl]
    obtain ⟨hstep, hshows⟩ := h.flags.setFlag hphase
    exact ⟨.inr hstep, hshows⟩
  case setTurn =>
    simp only [Option.some.injEq, Prod.mk.injEq] at hs
    obtain ⟨rfl, rfl, rfl⟩ := hs
    rw [abs_update, tidInt_decide]
    obtain ⟨hstep, hshows⟩ := h.flags.setTurn hphase
    exact ⟨.inr hstep, hshows⟩
  case readFlag =>
    split at hs <;> rename_i hflag <;> simp only [Option.some.injEq, Prod.mk.injEq] at hs <;>
      obtain ⟨rfl, rfl, rfl⟩ := hs
    · rw [hsame .readTurn rfl]
      exact ⟨.inl ⟨rfl, rfl⟩, h.flags⟩
    · rw [hmove _ _ rfl]
      obtain ⟨hstep, hshows⟩ := h.flags.enter hphase (.inl (by simpa using hflag))
      exact ⟨.inr hstep, hshows⟩
  case readTurn =>
    split at hs <;> rename_i hturn <;> simp only [Option.some.injEq, Prod.mk.injEq] at hs <;>
      obtain ⟨rfl, rfl, rfl⟩ := hs
    · rw [hsame _ (loop_phase header)]
      exact ⟨.inl ⟨rfl, rfl⟩, h.flags⟩
    · rw [not_not, h.turn, tidInt_inj] at hturn
      rw [hmove _ _ rfl]
      obtain ⟨hstep, hshows⟩ := h.flags.enter hphase (.inr hturn)
      exact ⟨.inr hstep, hshows⟩
  case yield =>
    simp only [Option.some.injEq, Prod.mk.injEq] at hs
    obtain ⟨rfl, rfl, rfl⟩ := hs
    rw [hsame .readFlag rfl]
    exact ⟨.inl ⟨rfl, rfl⟩, h.flags⟩
  case critical =>
    simp only [Option.some.injEq, Prod.mk.injEq] at hs
    obtain ⟨rfl, rfl, rfl⟩ := hs
    rw [hmove (cfg.shared.setFlag i false) _ rfl]
    obtain ⟨hstep, hshows⟩ := h.flags.resetFlag hphase
    exact ⟨.inr hstep, hshows⟩

/-- A step writes a thread number to `turn`, or leaves it. -/
theorem threadStep_turn {s s' : Vars} {pc pc' : Pc}
    (hs : threadStep header i () s pc = some (e, s', pc')) :
    s'.turn = s.turn ∨ s'.turn = tidInt (!i) := by
  cases pc <;> simp only [threadStep] at hs
  case setTurn =>
    simp only [Option.some.injEq, Prod.mk.injEq] at hs
    obtain ⟨-, rfl, -⟩ := hs
    exact .inr rfl
  case readFlag | readTurn =>
    split at hs <;> simp only [Option.some.injEq, Prod.mk.injEq] at hs <;>
      obtain ⟨-, rfl, -⟩ := hs <;> exact .inl rfl
  all_goals
    simp only [Option.some.injEq, Prod.mk.injEq] at hs
    obtain ⟨-, rfl, -⟩ := hs
    exact .inl rfl

/-- Every step of the program is matched by the protocol. -/
theorem machine_sim {a : Bool × Unit} (h : Repr cfg)
    (hs : (machine header).step cfg a = some (e, cfg')) :
    PetersonLock.machine.Run (abs cfg) e.toList (abs cfg') ∧ Repr cfg' := by
  obtain ⟨s', pc', hs', rfl⟩ := Threads.machine_step_eq_some.mp hs
  obtain ⟨hstep, hshows⟩ := threadStep_sim h hs'
  have hturn : s'.turn = tidInt (decide (s'.turn = 1)) := by
    rcases threadStep_turn hs' with hkeep | hset
    · rw [hkeep]
      exact h.turn
    · rw [hset, tidInt_decide]
  refine ⟨?_, hshows, hturn⟩
  rcases hstep with ⟨rfl, habs⟩ | hstep
  · rw [habs]
    exact .nil
  · exact .single hstep

/-- After `Peterson_init` the variables agree with the protocol. -/
theorem initial_repr {s : Vars} (hs : s.turn = 0 ∨ s.turn = 1) : Repr (initial s) := by
  refine ⟨PetersonLock.shows_of_idle (fun _ => rfl) fun i => ?_, ?_⟩
  · cases i <;> simp [initial, petersonInit, Vars.setFlag]
  · rcases hs with hs | hs <;> simp [initial, abs, petersonInit, Vars.setFlag, hs, tidInt]

/-- The variables agree with the protocol in every reachable state. -/
theorem reachable_repr {s : Vars} (hs : s.turn = 0 ∨ s.turn = 1)
    (h : (machine header).Reachable (initial s) cfg) : Repr cfg :=
  h.invariant (I := Repr) (fun _ _ _ _ hI hstep => (machine_sim hI hstep).2) (initial_repr hs)

/-- What the program does, the protocol can do. -/
theorem run_abs {tr : List (LockEvent Bool)} (h : Repr cfg)
    (hrun : (machine header).Run cfg tr cfg') :
    PetersonLock.machine.Run (abs cfg) tr (abs cfg') := by
  obtain ⟨a', hrun', rfl, -⟩ := hrun.simulate (R := fun cfg a => a = abs cfg ∧ Repr cfg)
    (N := PetersonLock.machine) (by
      rintro cfg a act e cfg' ⟨rfl, hR⟩ hs
      obtain ⟨hrun', hR'⟩ := machine_sim hR hs
      exact ⟨_, hrun', rfl, hR'⟩) ⟨rfl, h⟩
  exact hrun'

/-- Every event sequence of the program is one of the binary lock. -/
theorem traces_subset_binaryLock {s : Vars} (hs : s.turn = 0 ∨ s.turn = 1) :
    (machine header).traces (initial s) ⊆ (BinaryLock.machine Bool).traces none := by
  rintro tr ⟨cfg, hrun⟩
  have hidle : ∀ i, (abs (initial s)).phase i = .idle := fun _ => rfl
  exact PetersonLock.traces_subset_lock hidle ⟨abs cfg, run_abs (initial_repr hs) hrun⟩

/-! ## The waiting loop -/

/-- A thread in the loop is a waiting one. -/
theorem phase_of_spinning {pc : Pc} (h : pc.spinning = true) : pc.phase = .waiting := by
  cases pc <;> first | rfl | exact nomatch h

/-- A thread with precedence finds its loop condition false, and undisturbed it enters. -/
theorem solo_enters {s : Vars} {pc : Pc} (hpc : pc.spinning = true) (hturn : s.turn = tidInt i) :
    loopCond i s = false ∧
      (Threads.solo (threadStep header) i).Run (s, pc) [.acquire i] (s, .critical) := by
  refine ⟨by simp [loopCond, hturn], ?_⟩
  have hreadTurn : (Threads.solo (threadStep header) i).step (s, .readTurn) () =
      some (some (.acquire i), s, .critical) := by
    simp [Threads.solo, threadStep, hturn]
  have hreadFlag : (Threads.solo (threadStep header) i).Run (s, .readFlag) [.acquire i]
      (s, .critical) := by
    by_cases hflag : s.flag (!i) = true
    · have hstep : (Threads.solo (threadStep header) i).step (s, .readFlag) () =
          some (none, s, .readTurn) := by
        simp [Threads.solo, threadStep, hflag]
      exact .silent hstep (.single hreadTurn)
    · have hstep : (Threads.solo (threadStep header) i).step (s, .readFlag) () =
          some (some (.acquire i), s, .critical) := by
        simp [Threads.solo, threadStep, hflag]
      exact .single hstep
  cases pc with
  | readFlag => exact hreadFlag
  | readTurn => exact .single hreadTurn
  | yield =>
    have hstep : (Threads.solo (threadStep header) i).step (s, .yield) () =
        some (none, s, .readFlag) := rfl
    exact .silent hstep hreadFlag
  | setFlag | setTurn | critical => cases hpc

/-! ## Main result -/

/-- In every reachable state: the threads are not both in the critical section; if both are in
    the waiting loop, one of them finds its condition false and, undisturbed, enters; and from
    there until a thread in the loop enters, the other one enters at most once. -/
theorem peterson_correct (header : Header) (s : Vars) (hs : s.turn = 0 ∨ s.turn = 1)
    (cfg : Config Bool Vars Pc) (hreach : (machine header).Reachable (initial s) cfg) :
    (¬ ∀ i, cfg.loc i = .critical) ∧
    ((∀ i, (cfg.loc i).spinning = true) → ∃ i, loopCond i cfg.shared = false ∧
      (Threads.solo (threadStep header) i).Run (cfg.shared, cfg.loc i) [.acquire i]
        (cfg.shared, .critical)) ∧
    ∀ i tr cfg', (cfg.loc i).spinning = true → (machine header).Run cfg tr cfg' →
      .acquire i ∉ tr → tr.count (.acquire (!i)) ≤ 1 := by
  have hrepr := reachable_repr hs hreach
  refine ⟨fun hall => ?_, fun hspin => ?_, fun i tr cfg' hspin hrun hnot => ?_⟩
  · have hphase : ∀ i, (abs cfg).phase i = .critical := fun i => by simp [abs, hall i, Pc.phase]
    exact hrepr.flags.inv.mutual_exclusion (hphase false) (hphase true)
  · exact ⟨(abs cfg).turn, solo_enters (hspin _) hrepr.turn⟩
  · exact PetersonLock.overtaking (phase_of_spinning hspin) (run_abs hrepr hrun) hnot

/-- Both threads in the loop of `Peterson_sched.h`, the second one having written `turn` last. -/
theorem peterson_correct_both_waiting :
    ∃ cfg, (machine .petersonSched).Reachable (initial ⟨fun _ => false, 1⟩) cfg ∧
      ∃ i, loopCond i cfg.shared = false ∧
        (Threads.solo (threadStep .petersonSched) i).Run (cfg.shared, cfg.loc i) [.acquire i]
          (cfg.shared, .critical) := by
  have hrun := Machine.Reachable.of_exec (M := machine .petersonSched)
    (s := initial ⟨fun _ => false, 1⟩)
    ([false, true, false, true].map fun self => (self, ())) rfl
  exact ⟨_, hrun, (peterson_correct .petersonSched _ (.inr rfl) _ hrun).2.1 (by decide)⟩

end Peterson
