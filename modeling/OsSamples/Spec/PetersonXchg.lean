import OsSamples.Lib.PetersonLock
import OsSamples.Native.PetersonXchg
import OsSamples.Spec.Peterson

/-!
# The exchange headers on a memory with store buffers

`Peterson_post` only buffers `flag[self] = false`.  Seen from the protocol a thread therefore
stays critical until that store has drained; as the buffer is first-in first-out, everything that
the critical section stored is in memory by then.  So at most one buffer is in use at a time, and
the memory as the critical thread sees it is the memory of a sequentially consistent execution of
the critical sections one after another.

## Key results

- `machine_sim`: each instruction and each drain is a step of the protocol or invisible to it
- `petersonXchg_correct`: mutual exclusion, and serial critical sections
-/

namespace PetersonXchg

open Peterson (tidInt tidInt_inj tidInt_decide)
open PetersonLock (Phase State Inv)

variable {L : Type*} {yields : Bool} {cfg cfg' : Config Bool (Tso Bool (Addr L) ℤ) Pc} {i : Bool}
  {ser ser' : SerialMemory.State Bool L ℤ} {s' : Tso Bool (Addr L) ℤ} {pc' : Pc}

/-- The phase of the protocol: a thread whose reset of its flag is still buffered is critical. -/
def phase (pc : Pc) (buf : List (Addr L × ℤ)) : Phase :=
  match pc with
  | .xchgFlag => if buf.isEmpty then .idle else .critical
  | .xchgTurn => .doorway
  | .loadFlag | .loadTurn | .yield => .waiting
  | .critical => .critical

/-- The state of the protocol. -/
def abs (cfg : Config Bool (Tso Bool (Addr L) ℤ) Pc) : State :=
  ⟨fun i => phase (cfg.loc i) (cfg.shared.buf i), decide (cfg.shared.mem .turn = 1)⟩

/-- A protected location. -/
def Addr.isData : Addr L → Bool
  | .data _ => true
  | .flag _ | .turn => false

/-- What a thread has buffered: stores of the critical section, and after it the reset of the
    flag. -/
def BufInv (i : Bool) (pc : Pc) (buf : List (Addr L × ℤ)) : Prop :=
  match pc with
  | .xchgFlag => buf = [] ∨ ∃ ws, buf = ws ++ [(.flag i, 0)] ∧ ∀ w ∈ ws, w.1.isData = true
  | .critical => ∀ w ∈ buf, w.1.isData = true
  | .xchgTurn | .loadFlag | .loadTurn | .yield => buf = []

variable [DecidableEq L]

/-- The memory, the buffers and the serial execution agree with the protocol. -/
structure Repr (cfg : Config Bool (Tso Bool (Addr L) ℤ) Pc) (ser : SerialMemory.State Bool L ℤ) :
    Prop where
  inv : Inv (abs cfg)
  flag : ∀ i, cfg.shared.mem (.flag i) = if (abs cfg).phase i = .idle then 0 else 1
  turn : ∀ i, ((abs cfg).phase i).pastTurn = true → cfg.shared.mem .turn = tidInt (abs cfg).turn
  buf : ∀ i, BufInv i (cfg.loc i) (cfg.shared.buf i)
  owner : ∀ i, ser.owner = some i ↔ cfg.loc i = .critical
  data : ∀ i, (abs cfg).phase i = .critical ∨ (abs cfg).phase (!i) ≠ .critical →
    ∀ l, cfg.shared.view i (.data l) = ser.mem l

/-! ## Moves of one thread -/

omit [DecidableEq L] in
/-- A move of thread `i` that leaves `turn`, as the protocol sees it. -/
theorem abs_update (cfg : Config Bool (Tso Bool (Addr L) ℤ) Pc) (i : Bool)
    (s' : Tso Bool (Addr L) ℤ) (pc' : Pc) (hbuf : s'.buf (!i) = cfg.shared.buf (!i))
    (hturn : s'.mem .turn = cfg.shared.mem .turn) :
    abs ⟨s', Function.update cfg.loc i pc'⟩ = (abs cfg).setPhase i (phase pc' (s'.buf i)) := by
  simp only [abs, State.setPhase, hturn, State.mk.injEq, and_true]
  funext j
  rcases Bool.eq_or_eq_not j i with rfl | rfl
  · simp
  · simp [hbuf]

omit [DecidableEq L] in
/-- A move inside a phase is invisible to the protocol. -/
theorem abs_update_same (cfg : Config Bool (Tso Bool (Addr L) ℤ) Pc) (i : Bool)
    (s' : Tso Bool (Addr L) ℤ) (pc' : Pc) (hbuf : s'.buf (!i) = cfg.shared.buf (!i))
    (hturn : s'.mem .turn = cfg.shared.mem .turn)
    (hphase : phase pc' (s'.buf i) = (abs cfg).phase i) :
    abs ⟨s', Function.update cfg.loc i pc'⟩ = abs cfg := by
  rw [abs_update cfg i s' pc' hbuf hturn, hphase]
  simp [State.setPhase]

/-- What a move of thread `i` has to keep. -/
theorem Repr.of_move (h : Repr cfg ser) (hinv : Inv (abs ⟨s', Function.update cfg.loc i pc'⟩))
    (hbuf : s'.buf (!i) = cfg.shared.buf (!i))
    (hmem : s'.mem (.flag (!i)) = cfg.shared.mem (.flag (!i)))
    (hflag : s'.mem (.flag i) = if phase pc' (s'.buf i) = .idle then 0 else 1)
    (hturn : (s'.mem .turn = cfg.shared.mem .turn ∧
      ((phase pc' (s'.buf i)).pastTurn = true → ((abs cfg).phase i).pastTurn = true)) ∨
      s'.mem .turn = tidInt (!i))
    (hbufi : BufInv i pc' (s'.buf i))
    (howner : (ser'.owner = some i ↔ pc' = .critical) ∧
      (ser'.owner = some (!i) ↔ ser.owner = some (!i)))
    (hself : phase pc' (s'.buf i) = .critical ∨ (abs cfg).phase (!i) ≠ .critical →
      ∀ l, s'.view i (.data l) = ser'.mem l)
    (hother : (abs cfg).phase (!i) = .critical ∨ phase pc' (s'.buf i) ≠ .critical →
      ∀ l, s'.view (!i) (.data l) = ser'.mem l) :
    Repr ⟨s', Function.update cfg.loc i pc'⟩ ser' := by
  have hphase : (abs ⟨s', Function.update cfg.loc i pc'⟩).phase i = phase pc' (s'.buf i) := by
    simp [abs]
  have hphase' : (abs ⟨s', Function.update cfg.loc i pc'⟩).phase (!i) = (abs cfg).phase (!i) := by
    simp [abs, hbuf]
  refine ⟨hinv, fun j => ?_, fun j hj => ?_, fun j => ?_, fun j => ?_, fun j hj => ?_⟩
  · rcases Bool.eq_or_eq_not j i with rfl | rfl
    · rw [hphase]
      exact hflag
    · rw [hphase', ← h.flag (!i)]
      exact hmem
  · -- memory holds the turn once a thread has passed its second `xchg`
    rcases hturn with ⟨hkeep, hpast⟩ | hset
    · have hold : cfg.shared.mem .turn = tidInt (abs cfg).turn := by
        rcases Bool.eq_or_eq_not j i with rfl | rfl
        · rw [hphase] at hj
          exact h.turn j (hpast hj)
        · rw [hphase'] at hj
          exact h.turn (!i) hj
      simp only [abs] at hold ⊢
      rw [hkeep]
      exact hold
    · simp only [abs]
      rw [hset, tidInt_decide]
  · rcases Bool.eq_or_eq_not j i with rfl | rfl
    · simpa using hbufi
    · simpa [hbuf] using h.buf (!i)
  · rcases Bool.eq_or_eq_not j i with rfl | rfl
    · simpa using howner.1
    · simpa using howner.2.trans (h.owner (!i))
  · rcases Bool.eq_or_eq_not j i with rfl | rfl
    · rw [hphase, hphase'] at hj
      exact hself hj
    · rw [Bool.not_not, hphase, hphase'] at hj
      exact hother hj

/-- A thread that is not critical has nothing buffered. -/
theorem Repr.buf_eq_nil (h : Repr cfg ser) (hi : (abs cfg).phase i ≠ .critical) :
    cfg.shared.buf i = [] := by
  have hbuf := h.buf i
  simp only [abs] at hi
  cases hpc : cfg.loc i <;> rw [hpc] at hbuf hi
  case xchgFlag =>
    by_contra hne
    exact hi (by simp [phase, hne])
  case critical => exact absurd rfl hi
  all_goals exact hbuf

/-! ## One lemma for each kind of step -/

/-- The first `xchg`: the thread announces its interest. -/
theorem Repr.xchgFlag (h : Repr cfg ser) (hpc : cfg.loc i = .xchgFlag)
    (hnil : cfg.shared.buf i = []) :
    Repr ⟨cfg.shared.setMem (.flag i) 1, Function.update cfg.loc i .xchgTurn⟩ ser := by
  have hidle : (abs cfg).phase i = .idle := by simp [abs, hpc, phase, hnil]
  have hview : ∀ j l, (cfg.shared.setMem (.flag i) 1).view j (.data l) =
      cfg.shared.view j (.data l) := fun j l => Tso.view_apply_congr rfl (by simp)
  refine h.of_move ?_ rfl (by simp) (by simp [phase]) (.inl ⟨by simp, nofun⟩) hnil
    ⟨by simp [h.owner i, hpc], Iff.rfl⟩ ?_ ?_
  · refine PetersonLock.step_inv (i := i) (e := none) h.inv ?_
    rw [abs_update cfg i (cfg.shared.setMem (.flag i) 1) _ rfl (by simp)]
    simp only [PetersonLock.machine, PetersonLock.step, hidle, phase]
  · intro hj l
    rw [hview]
    exact h.data i (.inr (by simpa [phase] using hj)) l
  · intro _ l
    rw [hview]
    exact h.data (!i) (.inr (by rw [Bool.not_not, hidle]; simp)) l

/-- The second `xchg`: the thread gives the other one precedence. -/
theorem Repr.xchgTurn (h : Repr cfg ser) (hpc : cfg.loc i = .xchgTurn)
    (hnil : cfg.shared.buf i = []) :
    Repr ⟨cfg.shared.setMem .turn (tidInt (!i)), Function.update cfg.loc i .loadFlag⟩ ser := by
  have hdoor : (abs cfg).phase i = .doorway := by simp [abs, hpc, phase]
  have hview : ∀ j l, (cfg.shared.setMem .turn (tidInt (!i))).view j (.data l) =
      cfg.shared.view j (.data l) := fun j l => Tso.view_apply_congr rfl (by simp)
  have hflag := h.flag i
  rw [hdoor] at hflag
  refine h.of_move ?_ rfl (by simp) (by simpa [phase] using hflag) (.inr (by simp)) hnil
    ⟨by simp [h.owner i, hpc], Iff.rfl⟩ ?_ ?_
  · refine PetersonLock.step_inv (i := i) (e := none) h.inv ?_
    -- the turn is set first and the phase after it, as in the doorway step
    have hmove := abs_update ⟨cfg.shared.setMem .turn (tidInt (!i)), cfg.loc⟩ i
      (cfg.shared.setMem .turn (tidInt (!i))) .loadFlag rfl rfl
    rw [hmove]
    simp only [PetersonLock.machine, PetersonLock.step, hdoor, phase]
    simp [abs, State.setPhase, tidInt_decide]
  · intro hj l
    rw [hview]
    exact h.data i (.inr (by simpa [phase] using hj)) l
  · intro _ l
    rw [hview]
    exact h.data (!i) (.inr (by rw [Bool.not_not, hdoor]; simp)) l

/-- A load of the waiting loop that does not end it, and `sched_yield`. -/
theorem Repr.spin (h : Repr cfg ser) (hw : (abs cfg).phase i = .waiting)
    (hpc' : ∀ buf, phase (L := L) pc' buf = .waiting) :
    Repr ⟨cfg.shared, Function.update cfg.loc i pc'⟩ ser := by
  -- a waiting thread has nothing in its store buffer
  have hnil := h.buf_eq_nil (i := i) (by simp [hw])
  have hflag := h.flag i
  rw [hw] at hflag
  -- it stays outside of the critical section
  have hne : pc' ≠ .critical := by
    rintro rfl
    exact nomatch hpc' []
  refine h.of_move ?_ rfl rfl (by simpa [hpc'] using hflag)
    (.inl ⟨rfl, fun _ => by rw [hw]; rfl⟩) ?_ ⟨?_, Iff.rfl⟩ ?_ ?_
  -- the abstract state does not change
  · rw [abs_update_same cfg i _ _ rfl rfl (by rw [hw, hpc'])]
    exact h.inv
  · rw [hnil]
    cases pc' <;> first | rfl | exact nomatch hpc' []
  · rw [h.owner i]
    simp only [hne, iff_false]
    intro hcrit
    simp [abs, hcrit, phase] at hw
  · intro hj l
    exact h.data i (.inr (by simpa [hpc'] using hj)) l
  · intro _ l
    exact h.data (!i) (.inr (by rw [Bool.not_not, hw]; simp)) l

/-- The load that ends the waiting loop: the thread enters, and no other thread is inside. -/
theorem Repr.enter (h : Repr cfg ser) (hw : (abs cfg).phase i = .waiting)
    (hguard : (abs cfg).phase (!i) = .idle ∨ (abs cfg).turn = i) :
    ser.owner = none ∧
      Repr ⟨cfg.shared, Function.update cfg.loc i .critical⟩ { ser with owner := some i } := by
  have hnil := h.buf_eq_nil (i := i) (by simp [hw])
  have hflag := h.flag i
  rw [hw] at hflag
  have hinv : Inv (abs ⟨cfg.shared, Function.update cfg.loc i .critical⟩) := by
    refine PetersonLock.step_inv (i := i) (e := some (.acquire i)) h.inv ?_
    rw [abs_update cfg i _ _ rfl rfl]
    simp only [PetersonLock.machine, PetersonLock.step, hw, hguard, if_true, phase]
  have hfree : (abs cfg).phase (!i) ≠ .critical := by
    have hother := hinv.mutual_exclusion (i := i) (by simp [abs, phase])
    rwa [abs_update cfg i _ _ rfl rfl, State.setPhase_other] at hother
  have howner : ser.owner ≠ some (!i) := by
    rw [Ne, h.owner (!i)]
    intro hcrit
    exact hfree (by simp [abs, hcrit, phase])
  constructor
  · -- `i` is outside, and the other thread is not critical
    cases ho : ser.owner with
    | none => rfl
    | some j =>
      have hcrit := (h.owner j).mp ho
      rcases Bool.eq_or_eq_not j i with rfl | rfl
      · simp [abs, hcrit, phase] at hw
      · exact absurd ho howner
  · refine h.of_move hinv rfl rfl (by simpa [phase] using hflag)
      (.inl ⟨rfl, fun _ => by rw [hw]; rfl⟩) (by simp [BufInv, hnil]) ⟨by simp, ?_⟩ ?_ ?_
    · simpa using howner
    · exact fun _ l => h.data i (.inr hfree) l
    · intro hj
      rcases hj with hj | hj
      · exact absurd hj hfree
      · exact absurd rfl hj

/-- A store of the critical section. -/
theorem Repr.store (h : Repr cfg ser) (hpc : cfg.loc i = .critical) (l : L) (v : ℤ) :
    Repr ⟨cfg.shared.store i (.data l) v, Function.update cfg.loc i .critical⟩
      { ser with mem := Function.update ser.mem l v } := by
  have hcrit : (abs cfg).phase i = .critical := by simp [abs, hpc, phase]
  have hfree := h.inv.mutual_exclusion hcrit
  have hflag := h.flag i
  have hbuf := h.buf i
  rw [hcrit] at hflag
  rw [hpc] at hbuf
  have hother : (cfg.shared.store i (.data l) v).buf (!i) = cfg.shared.buf (!i) :=
    Tso.store_buf_other (by simp)
  refine h.of_move ?_ hother rfl (by simpa [phase] using hflag)
    (.inl ⟨rfl, fun _ => by rw [hcrit]; rfl⟩) ?_ ⟨by simp [h.owner i, hpc], Iff.rfl⟩ ?_ ?_
  · rw [abs_update_same cfg i _ _ hother rfl (by rw [hcrit]; rfl)]
    exact h.inv
  · -- in the critical section only data are buffered
    intro w hw
    rw [Tso.store_buf_self, List.mem_append, List.mem_singleton] at hw
    rcases hw with hw | rfl
    · exact hbuf w hw
    · rfl
  · intro _ l'
    rw [Tso.view_store_self]
    by_cases hl : l' = l
    · subst hl; simp
    · simpa [hl] using h.data i (.inl hcrit) l'
  · intro hj
    rcases hj with hj | hj
    · exact absurd hj hfree
    · exact absurd rfl hj

/-- The store of `Peterson_post`: the critical section is over, but the protocol does not see it
    yet. -/
theorem Repr.post (h : Repr cfg ser) (hpc : cfg.loc i = .critical) :
    Repr ⟨cfg.shared.store i (.flag i) 0, Function.update cfg.loc i .xchgFlag⟩
      { ser with owner := none } := by
  have hcrit : (abs cfg).phase i = .critical := by simp [abs, hpc, phase]
  have hfree := h.inv.mutual_exclusion hcrit
  have hflag := h.flag i
  have hbuf := h.buf i
  rw [hcrit] at hflag
  rw [hpc] at hbuf
  have hother : (cfg.shared.store i (.flag i) 0).buf (!i) = cfg.shared.buf (!i) :=
    Tso.store_buf_other (by simp)
  have hphase : phase .xchgFlag ((cfg.shared.store i (.flag i) 0).buf i) = .critical := by
    simp [phase]
  refine h.of_move ?_ hother rfl (by rw [hphase]; simpa using hflag)
    (.inl ⟨rfl, fun _ => by rw [hcrit]; rfl⟩) ?_ ⟨by simp, ?_⟩ ?_ ?_
  · rw [abs_update_same cfg i _ _ hother rfl (by rw [hcrit, hphase])]
    exact h.inv
  · -- the reset of the flag is behind all the data
    exact .inr ⟨cfg.shared.buf i, Tso.store_buf_self, hbuf⟩
  · have hne : cfg.loc (!i) ≠ .critical := fun hc => hfree (by simp [abs, hc, phase])
    simp [h.owner (!i), hne]
  · intro _ l
    rw [Tso.view_store_self]
    simpa using h.data i (.inl hcrit) l
  · intro hj
    rcases hj with hj | hj
    · exact absurd hj hfree
    · exact absurd hphase hj

/-- A store of a critical section that reaches memory. -/
theorem Repr.drain_data {w : Addr L × ℤ} {ws : List (Addr L × ℤ)} (h : Repr cfg ser)
    (hdrain : cfg.shared.drain i = some s')
    (hs' : s' = ⟨Tso.write cfg.shared.mem w, Function.update cfg.shared.buf i ws⟩)
    (hcrit : (abs cfg).phase i = .critical) (hw : w.1.isData = true)
    (hphase : phase (cfg.loc i) ws = .critical) (hbufi : BufInv i (cfg.loc i) ws) :
    Repr ⟨s', Function.update cfg.loc i (cfg.loc i)⟩ ser := by
  have hfree := h.inv.mutual_exclusion hcrit
  have hflag := h.flag i
  rw [hcrit] at hflag
  have hview := Tso.view_drain_self hdrain
  subst hs'
  -- the flags and the turn stay as they are
  have hmem : ∀ a : Addr L, a.isData = false → Tso.write cfg.shared.mem w a = cfg.shared.mem a := by
    intro a ha
    refine Function.update_of_ne ?_ _ _
    rintro rfl
    rw [hw] at ha
    exact nomatch ha
  refine h.of_move ?_ (by simp) (hmem _ rfl) ?_
    (.inl ⟨hmem _ rfl, fun _ => by rw [hcrit]; rfl⟩) (by simpa using hbufi)
    ⟨h.owner i, Iff.rfl⟩ ?_ ?_
  · rw [abs_update_same cfg i _ _ (by simp) (hmem _ rfl) (by simpa [hcrit] using hphase)]
    exact h.inv
  · have hkeep := hmem (.flag i) rfl
    simpa [hphase, hkeep] using hflag
  · intro _ l
    rw [hview]
    exact h.data i (.inl hcrit) l
  · intro hj
    rcases hj with hj | hj
    · exact absurd hj hfree
    · exact absurd (by simpa using hphase) hj

/-- The reset of the flag that reaches memory: now the protocol sees the thread leave. -/
theorem Repr.drain_flag (h : Repr cfg ser) (hdrain : cfg.shared.drain i = some s')
    (hs' : s' = ⟨Tso.write cfg.shared.mem (.flag i, 0), Function.update cfg.shared.buf i []⟩)
    (hpc : cfg.loc i = .xchgFlag) (hcrit : (abs cfg).phase i = .critical) :
    Repr ⟨s', Function.update cfg.loc i .xchgFlag⟩ ser := by
  have hfree := h.inv.mutual_exclusion hcrit
  have hnil := h.buf_eq_nil hfree
  have hview := Tso.view_drain_self hdrain
  subst hs'
  refine h.of_move ?_ (by simp) (by simp [Tso.write]) (by simp [Tso.write, phase])
    (.inl ⟨by simp [Tso.write], fun _ => by rw [hcrit]; rfl⟩) (by simp [BufInv])
    ⟨by simp [h.owner i, hpc], Iff.rfl⟩ ?_ ?_
  · refine PetersonLock.step_inv (i := i) (e := some (.release i)) h.inv ?_
    rw [abs_update cfg i _ _ (by simp) (by simp [Tso.write])]
    simp [PetersonLock.machine, PetersonLock.step, hcrit, phase]
  · intro _ l
    rw [hview]
    exact h.data i (.inl hcrit) l
  · -- both buffers are empty: both threads see the memory
    intro _ l
    have hself : ∀ l, Tso.view ⟨Tso.write cfg.shared.mem (.flag i, 0),
        Function.update cfg.shared.buf i []⟩ i (.data l) = ser.mem l := fun l => by
      rw [hview]
      exact h.data i (.inl hcrit) l
    rw [Tso.view_of_buf_nil (by simp)] at hself
    rw [Tso.view_of_buf_nil (by simpa using hnil)]
    exact hself l

/-! ## Every step -/

/-- A drain is a step of the protocol or invisible to it. -/
theorem drain_sim (h : Repr cfg ser) (hdrain : cfg.shared.drain i = some s') :
    Repr ⟨s', Function.update cfg.loc i (cfg.loc i)⟩ ser := by
  obtain ⟨w, ws, hbuf, hs'⟩ := Tso.drain_eq_some.mp hdrain
  have hcrit : (abs cfg).phase i = .critical := by
    by_contra hne
    rw [h.buf_eq_nil hne] at hbuf
    exact nomatch hbuf
  have hinv := h.buf i
  cases hpc : cfg.loc i <;> simp only [BufInv, hpc, hbuf, reduceCtorEq, false_or] at hinv
  case xchgFlag =>
    obtain ⟨us, heq, hdata⟩ := hinv
    cases us with
    | nil =>
      -- the last store in the buffer: the reset of the flag
      obtain ⟨rfl, rfl⟩ := List.cons.inj heq
      exact h.drain_flag hdrain hs' hpc hcrit
    | cons u us =>
      obtain ⟨rfl, rfl⟩ := List.cons.inj heq
      rw [← hpc]
      refine h.drain_data hdrain hs' hcrit (hdata w List.mem_cons_self) ?_ ?_ <;> rw [hpc]
      · simp [phase]
      · exact .inr ⟨us, rfl, fun u hu => hdata u (List.mem_cons_of_mem _ hu)⟩
  case critical =>
    rw [← hpc]
    refine h.drain_data hdrain hs' hcrit (hinv w List.mem_cons_self) ?_ ?_ <;> rw [hpc]
    · rfl
    · exact fun u hu => hinv u (List.mem_cons_of_mem _ hu)

/-- A load of the waiting loop reads memory: the buffer is empty. -/
theorem Repr.load_waiting (h : Repr cfg ser) (hw : (abs cfg).phase i = .waiting) (a : Addr L) :
    cfg.shared.load i a = cfg.shared.mem a := by
  rw [Tso.load_eq_view, Tso.view_of_buf_nil (h.buf_eq_nil (by simp [hw]))]

/-- The load that ends the waiting loop is the `enter` of the serial execution. -/
theorem Repr.enter_sim (h : Repr cfg ser) (hw : (abs cfg).phase i = .waiting)
    (hguard : (abs cfg).phase (!i) = .idle ∨ (abs cfg).turn = i) :
    ∃ ser', SerialMemory.machine.Run ser [.enter i] ser' ∧
      Repr ⟨cfg.shared, Function.update cfg.loc i .critical⟩ ser' := by
  obtain ⟨ho, hR⟩ := h.enter hw hguard
  have hstep : SerialMemory.machine.step ser (.enter i) =
      some (some (.enter i), { ser with owner := some i }) := by
    simp [SerialMemory.machine, SerialMemory.step, ho]
  exact ⟨_, .single hstep, hR⟩

/-- Every instruction and every drain keeps the agreement with the protocol, and what it does to
    the protected locations is a step of the serial execution. -/
theorem machine_sim {a : Bool × Choice L} {e : Option (AccessEvent Bool L ℤ)} (h : Repr cfg ser)
    (hs : (machine yields).step cfg a = some (e, cfg')) :
    ∃ ser', SerialMemory.machine.Run ser e.toList ser' ∧ Repr cfg' ser' := by
  obtain ⟨s', pc', hs', rfl⟩ := Threads.machine_step_eq_some.mp hs
  obtain ⟨i, choice⟩ := a
  simp only at hs' ⊢
  cases choice with
  | drain =>
    simp only [threadStep, Option.map_eq_some_iff, Prod.mk.injEq] at hs'
    obtain ⟨s₁, hdrain, rfl, rfl, rfl⟩ := hs'
    exact ⟨ser, .nil, drain_sim h hdrain⟩
  | load l =>
    cases hpc : cfg.loc i <;> simp only [threadStep, hpc, reduceCtorEq] at hs'
    simp only [Option.some.injEq, Prod.mk.injEq] at hs'
    obtain ⟨rfl, rfl, rfl⟩ := hs'
    -- a critical thread sees the memory of the serial execution
    have hvalue : ser.mem l = cfg.shared.load i (.data l) := by
      rw [Tso.load_eq_view]
      exact (h.data i (.inl (by simp [abs, hpc, phase])) l).symm
    have hstep : SerialMemory.machine.step ser (.load i l (cfg.shared.load i (.data l))) =
        some (some (.load i l (cfg.shared.load i (.data l))), ser) := by
      simp [SerialMemory.machine, SerialMemory.step, (h.owner i).mpr hpc, hvalue]
    refine ⟨ser, .single hstep, ?_⟩
    rw [← hpc, Function.update_eq_self]
    exact h
  | store l v =>
    cases hpc : cfg.loc i <;> simp only [threadStep, hpc, reduceCtorEq] at hs'
    simp only [Option.some.injEq, Prod.mk.injEq] at hs'
    obtain ⟨rfl, rfl, rfl⟩ := hs'
    have hstep : SerialMemory.machine.step ser (.store i l v) =
        some (some (.store i l v), { ser with mem := Function.update ser.mem l v }) := by
      simp [SerialMemory.machine, SerialMemory.step, (h.owner i).mpr hpc]
    exact ⟨_, .single hstep, h.store hpc l v⟩
  | next =>
    cases hpc : cfg.loc i with
    | xchgFlag =>
      simp only [threadStep, hpc, Option.map_eq_some_iff, Prod.mk.injEq] at hs'
      obtain ⟨r, hx, rfl, rfl, rfl⟩ := hs'
      obtain ⟨hnil, rfl⟩ := Tso.xchg_eq_some.mp hx
      exact ⟨ser, .nil, h.xchgFlag hpc hnil⟩
    | xchgTurn =>
      simp only [threadStep, hpc, Option.map_eq_some_iff, Prod.mk.injEq] at hs'
      obtain ⟨r, hx, rfl, rfl, rfl⟩ := hs'
      obtain ⟨hnil, rfl⟩ := Tso.xchg_eq_some.mp hx
      exact ⟨ser, .nil, h.xchgTurn hpc hnil⟩
    | loadFlag =>
      have hw : (abs cfg).phase i = .waiting := by simp [abs, hpc, phase]
      simp only [threadStep, hpc, h.load_waiting hw] at hs'
      split at hs' <;> rename_i hflag <;> simp only [Option.some.injEq, Prod.mk.injEq] at hs' <;>
        obtain ⟨rfl, rfl, rfl⟩ := hs'
      · exact ⟨ser, .nil, h.spin hw fun _ => rfl⟩
      · -- the flag of the other thread is 0, so it is idle
        have hidle : (abs cfg).phase (!i) = .idle := by
          by_contra hne
          rw [h.flag (!i), if_neg hne] at hflag
          exact hflag one_ne_zero
        exact h.enter_sim hw (.inl hidle)
    | loadTurn =>
      have hw : (abs cfg).phase i = .waiting := by simp [abs, hpc, phase]
      simp only [threadStep, hpc, h.load_waiting hw] at hs'
      split at hs' <;> rename_i hturn <;> simp only [Option.some.injEq, Prod.mk.injEq] at hs' <;>
        obtain ⟨rfl, rfl, rfl⟩ := hs'
      · refine ⟨ser, .nil, h.spin hw fun _ => ?_⟩
        cases yields <;> rfl
      · -- the other thread has given precedence
        have hprec : (abs cfg).turn = i := by
          rw [h.turn i (by rw [hw]; rfl), not_not, tidInt_inj] at hturn
          exact hturn
        exact h.enter_sim hw (.inr hprec)
    | yield =>
      simp only [threadStep, hpc, Option.some.injEq, Prod.mk.injEq] at hs'
      obtain ⟨rfl, rfl, rfl⟩ := hs'
      exact ⟨ser, .nil, h.spin (by simp [abs, hpc, phase]) fun _ => rfl⟩
    | critical =>
      simp only [threadStep, hpc, Option.some.injEq, Prod.mk.injEq] at hs'
      obtain ⟨rfl, rfl, rfl⟩ := hs'
      have hstep : SerialMemory.machine.step ser (.exit i) =
          some (some (.exit i), { ser with owner := none }) := by
        simp [SerialMemory.machine, SerialMemory.step, (h.owner i).mpr hpc]
      exact ⟨_, .single hstep, h.post hpc⟩

/-- After `Peterson_init` everything agrees. -/
theorem initial_repr (turn : ℤ) (m₀ : L → ℤ) : Repr (initial turn m₀) ⟨none, m₀⟩ := by
  have hidle : ∀ i, (abs (initial turn m₀)).phase i = .idle := fun _ => rfl
  refine ⟨PetersonLock.inv_of_idle hidle, fun i => ?_, fun i hi => ?_, fun i => .inl rfl,
    fun i => ?_, fun _ _ _ => rfl⟩
  · rw [hidle]
    rfl
  · rw [hidle] at hi
    exact nomatch hi
  · simp [initial]

/-- The events of a run are those of some serial execution that it agrees with. -/
theorem run_serial {turn : ℤ} {m₀ : L → ℤ} {tr : List (AccessEvent Bool L ℤ)}
    (hrun : (machine yields).Run (initial turn m₀) tr cfg) :
    ∃ ser, SerialMemory.machine.Run ⟨none, m₀⟩ tr ser ∧ Repr cfg ser :=
  hrun.simulate (R := Repr) (fun _ _ _ _ _ hR hs => machine_sim hR hs) (initial_repr turn m₀)

/-! ## Main result -/

/-- On x86 store buffers, for every use of the critical section: in every reachable state the
    threads are not both between `Peterson_wait` and `Peterson_post`, the events of every run are
    those of critical sections executed one after another on a sequentially consistent memory,
    and every load returns the latest store in that order. -/
theorem petersonXchg_correct (yields : Bool) (turn : ℤ) (m₀ : L → ℤ)
    (tr : List (AccessEvent Bool L ℤ)) (cfg : Config Bool (Tso Bool (Addr L) ℤ) Pc)
    (hrun : (machine yields).Run (initial turn m₀) tr cfg) :
    (¬ ∀ i, cfg.loc i = .critical) ∧ tr ∈ SerialMemory.machine.traces ⟨none, m₀⟩ ∧
      ∀ pre i l v post, tr = pre ++ .load i l v :: post →
        v = SerialMemory.latest l (m₀ l) pre := by
  obtain ⟨ser, hser, hrepr⟩ := run_serial hrun
  have hmem : tr ∈ SerialMemory.machine.traces ⟨none, m₀⟩ := ⟨ser, hser⟩
  refine ⟨fun hall => ?_, hmem, SerialMemory.load_eq_latest hmem⟩
  have ho := (hrepr.owner false).mpr (hall false)
  rw [(hrepr.owner true).mpr (hall true)] at ho
  exact nomatch ho

/-- Thread 0 stores and leaves; thread 1 gets in once the buffered reset of the flag has drained,
    and loads what thread 0 stored. -/
theorem petersonXchg_correct_two_sections :
    (5 : ℤ) = SerialMemory.latest () 0
      [.enter false, .store false () (5 : ℤ), .exit false, .enter true] := by
  have hrun : (machine false).Run (initial 0 fun _ : Unit => 0)
      [.enter false, .store false () 5, .exit false, .enter true, .load true () 5] _ :=
    .of_exec [(false, .next), (false, .next), (false, .next), (false, .store () 5),
      (false, .next), (true, .next), (true, .next), (true, .next), (false, .drain),
      (true, .next), (false, .drain), (true, .next), (true, .load ())] rfl
  exact (petersonXchg_correct false 0 _ _ _ hrun).2.2 _ true () 5 [] rfl

end PetersonXchg
