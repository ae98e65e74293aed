import OsSamples.Lib.PetersonLock
import OsSamples.Native.BankTransactions
import OsSamples.Spec.Peterson

/-!
# No money is lost between two accounts

The prologue and the epilogue take the steps of Peterson's protocol, so at most one thread is in
the middle of a transfer; what it has taken from one account and not yet added to the other is in
its own variables.

A transfer either leaves something on the rich account, and then has moved at least 1, or is the
last one of its thread.  That bounds the number of transfers.

## Key results

- `step_of_bankTransaction`: what a step can do, one constructor of `Step` for each kind
- `bankTransaction_flags`: the program's protocol is Peterson's
- `bankTransaction_money` / `bankTransaction_moved`: what one step does to the accounts
- `bankTransactions_correct`: the balances, the final check and the number of transactions
-/

namespace BankTransactions

open Peterson (tidInt tidInt_inj tidInt_decide)
open PetersonLock (Phase Shows)

variable {AMOUNT : ℤ} {self : Bool} {r : Fin 10} {s s' : Vars} {l l' : Local} {loc : Bool → Local}

/-! ## The protocol -/

/-- The phase of the protocol that a point of the program belongs to. -/
def Pc.phase : Pc → Phase
  | .notCreated | .syncStart | .draw | .setFlag | .count | .finished => .idle
  | .setTurn => .doorway
  | .readFlag | .readTurn => .waiting
  | .testRich | .capMoney | .loadRich | .storeRich _ | .simWork | .loadPoor | .storePoor _
  | .testDone | .testPoor | .resetFlag => .critical

/-- A thread is in the critical section exactly in the phase of that name. -/
theorem phase_eq_critical {pc : Pc} : pc.phase = .critical ↔ pc.critical = true := by
  cases pc <;> simp [Pc.phase, Pc.critical]

/-- The state of the protocol. -/
def abs (turn : ℤ) (loc : Bool → Local) : PetersonLock.State :=
  ⟨fun i => (loc i).pc.phase, decide (turn = 1)⟩

/-- The variables agree with the protocol. -/
structure Repr (s : Vars) (loc : Bool → Local) : Prop where
  flags : Shows (abs s.turn loc) s.flag
  turn : s.turn = tidInt (abs s.turn loc).turn

/-- A move of thread `self`, as the protocol sees it. -/
theorem abs_update (turn : ℤ) (loc : Bool → Local) (self : Bool) (l' : Local) :
    abs turn (Function.update loc self l') = (abs turn loc).setPhase self l'.pc.phase := by
  simp only [abs, PetersonLock.State.setPhase, PetersonLock.State.mk.injEq, and_true]
  funext j
  by_cases hj : j = self
  · subst hj; simp
  · simp [hj]

/-! ## What a step can do -/

/-- The kinds of steps of thread `self`. -/
inductive Step (AMOUNT : ℤ) (self : Bool) (s : Vars) (l : Local) : Vars → Local → Prop
  | syncStart (hpc : l.pc = .syncStart) : Step AMOUNT self s l s { l with pc := .draw }
  | draw (hpc : l.pc = .draw) {money : ℤ} (hmoney : 1 ≤ money) :
      Step AMOUNT self s l s { l with money := money, pc := .setFlag }
  | setFlag (hpc : l.pc = .setFlag) : Step AMOUNT self s l
      { s with flag := Function.update s.flag self true } { l with pc := .setTurn }
  | setTurn (hpc : l.pc = .setTurn) :
      Step AMOUNT self s l { s with turn := tidInt (!self) } { l with pc := .readFlag }
  | spin {pc : Pc} (hw : l.pc.phase = .waiting) (hw' : pc.phase = .waiting) :
      Step AMOUNT self s l s { l with pc := pc }
  | enter (hw : l.pc.phase = .waiting) (hread : s.flag (!self) = false ∨ s.turn ≠ tidInt (!self)) :
      Step AMOUNT self s l s { l with pc := .testRich }
  | tooMuch (hpc : l.pc = .testRich) (hcmp : s.richGuy < l.money) :
      Step AMOUNT self s l s { l with pc := .capMoney }
  | enough (hpc : l.pc = .testRich) (hcmp : l.money ≤ s.richGuy) :
      Step AMOUNT self s l s { l with pc := .loadRich }
  | capMoney (hpc : l.pc = .capMoney) :
      Step AMOUNT self s l s { l with money := s.richGuy, pc := .loadRich }
  | loadRich (hpc : l.pc = .loadRich) :
      Step AMOUNT self s l s { l with pc := .storeRich (s.richGuy - l.money) }
  | storeRich {value : ℤ} (hpc : l.pc = .storeRich value) :
      Step AMOUNT self s l { s with richGuy := value } { l with pc := .simWork }
  | crash (hpc : l.pc = .simWork) : Step AMOUNT self s l { s with crashed := true } l
  | simWork (hpc : l.pc = .simWork) : Step AMOUNT self s l s { l with pc := .loadPoor }
  | loadPoor (hpc : l.pc = .loadPoor) :
      Step AMOUNT self s l s { l with pc := .storePoor (s.poorGuy + l.money) }
  | storePoor {value : ℤ} (hpc : l.pc = .storePoor value) :
      Step AMOUNT self s l { s with poorGuy := value } { l with pc := .testDone }
  | richEmpty (hpc : l.pc = .testDone) (hcmp : s.richGuy ≤ 0) :
      Step AMOUNT self s l s { l with done := true, pc := .resetFlag }
  | richLeft (hpc : l.pc = .testDone) (hcmp : 0 < s.richGuy) :
      Step AMOUNT self s l s { l with pc := .testPoor }
  | testPoor (hpc : l.pc = .testPoor) : Step AMOUNT self s l s
      { l with done := decide (s.poorGuy ≥ AMOUNT), pc := .resetFlag }
  | resetFlag (hpc : l.pc = .resetFlag) : Step AMOUNT self s l
      { s with flag := Function.update s.flag self false } { l with pc := .count }
  | again (hpc : l.pc = .count) (hdone : l.done = false) :
      Step AMOUNT self s l s { l with transPerThread := l.transPerThread + 1, pc := .draw }
  | finish (hpc : l.pc = .count) (hdone : l.done = true) :
      Step AMOUNT self s l s { l with transPerThread := l.transPerThread + 1, pc := .finished }

/-- Every step is of one of the kinds. -/
theorem step_of_bankTransaction (hs : bankTransaction AMOUNT self r s l = some (s', l')) :
    Step AMOUNT self s l s' l' := by
  cases hpc : l.pc <;> simp only [bankTransaction, hpc, reduceCtorEq] at hs
  -- a division by `AMOUNT`, which may be zero
  case simWork =>
    split at hs <;> obtain ⟨rfl, rfl⟩ := Prod.mk.inj (Option.some.inj hs)
    · exact .crash hpc
    · exact .simWork hpc
  -- the test of the rich account decides whether this is the last round
  case testDone =>
    split at hs <;> rename_i hcmp <;> obtain ⟨rfl, rfl⟩ := Prod.mk.inj (Option.some.inj hs)
    · exact .richEmpty hpc hcmp
    · exact .richLeft hpc (not_le.mp hcmp)
  all_goals obtain ⟨rfl, rfl⟩ := Prod.mk.inj (Option.some.inj hs)
  case syncStart => exact .syncStart hpc
  case draw => exact .draw hpc (show (1 : ℤ) ≤ 1 + (r.val : ℤ) by omega)
  case setFlag => exact .setFlag hpc
  case setTurn => exact .setTurn hpc
  -- the waiting loop: first the flag of the other thread, then whose turn it is
  case readFlag =>
    by_cases hflag : s.flag (!self) = true
    · rw [if_pos hflag]
      exact .spin (by rw [hpc]; rfl) rfl
    · rw [if_neg hflag]
      exact .enter (by rw [hpc]; rfl) (.inl (Bool.eq_false_of_not_eq_true hflag))
  case readTurn =>
    by_cases hturn : s.turn = tidInt (!self)
    · rw [if_pos hturn]
      exact .spin (by rw [hpc]; rfl) rfl
    · rw [if_neg hturn]
      exact .enter (by rw [hpc]; rfl) (.inr hturn)
  -- no more is moved than the rich account has
  case testRich =>
    by_cases hcmp : l.money > s.richGuy
    · rw [if_pos hcmp]
      exact .tooMuch hpc hcmp
    · rw [if_neg hcmp]
      exact .enough hpc (not_lt.mp hcmp)
  case capMoney => exact .capMoney hpc
  case loadRich => exact .loadRich hpc
  case storeRich => exact .storeRich hpc
  case loadPoor => exact .loadPoor hpc
  case storePoor => exact .storePoor hpc
  case testPoor => exact .testPoor hpc
  case resetFlag => exact .resetFlag hpc
  case count =>
    by_cases hdone : l.done = true
    · rw [if_pos hdone]
      exact .finish hpc hdone
    · rw [if_neg hdone]
      exact .again hpc (Bool.eq_false_of_not_eq_true hdone)

/-! ## The agreement with the protocol -/

/-- Where the flags, the turn and the phase of the moving thread stay as they are, so does the
    agreement with the protocol. -/
theorem Repr.same (h : Repr s loc) (hflag : s'.flag = s.flag) (hturn : s'.turn = s.turn)
    (hphase : l'.pc.phase = (loc self).pc.phase) : Repr s' (Function.update loc self l') := by
  have habs : abs s'.turn (Function.update loc self l') = abs s.turn loc := by
    rw [abs_update, hturn, hphase]
    simp [abs, PetersonLock.State.setPhase]
  exact ⟨by rw [habs, hflag]; exact h.flags, by rw [habs, hturn]; exact h.turn⟩

/-- Leaving the waiting loop enters the critical section. -/
theorem Repr.enter (h : Repr s loc) (hw : (loc self).pc.phase = .waiting)
    (hread : s.flag (!self) = false ∨ s.turn ≠ tidInt (!self))
    (hphase : l'.pc.phase = .critical) : Repr s (Function.update loc self l') := by
  have hprec : s.flag (!self) = false ∨ (abs s.turn loc).turn = self := by
    apply hread.imp_right
    intro hne
    rw [h.turn, Ne, tidInt_inj] at hne
    exact Bool.eq_not_of_ne hne |>.trans (Bool.not_not self)
  have hshows := (h.flags.enter (i := self) hw hprec).2
  exact ⟨by rw [abs_update, hphase]; exact hshows, h.turn⟩

/-- Every step of a thread keeps the agreement with the protocol. -/
theorem bankTransaction_flags (h : Repr s loc) (hs : Step AMOUNT self s (loc self) s' l') :
    Repr s' (Function.update loc self l') := by
  have hphase : (abs s.turn loc).phase self = (loc self).pc.phase := rfl
  cases hs with
  | setFlag hpc =>
    rw [hpc] at hphase
    refine ⟨?_, h.turn⟩
    rw [abs_update]
    exact (h.flags.setFlag hphase).2
  | setTurn hpc =>
    rw [hpc] at hphase
    refine ⟨?_, by simp [abs, tidInt_decide]⟩
    rw [abs_update]
    have hshows := (h.flags.setTurn hphase).2
    simpa [abs, PetersonLock.State.setPhase, tidInt_decide, Pc.phase] using hshows
  | enter hw hread => exact h.enter hw hread rfl
  | resetFlag hpc =>
    rw [hpc] at hphase
    refine ⟨?_, h.turn⟩
    rw [abs_update]
    exact (h.flags.resetFlag hphase).2
  | spin hw hw' => exact h.same rfl rfl (hw'.trans hw.symm)
  -- the other steps stay in their phase
  | syncStart hpc | draw hpc | tooMuch hpc | enough hpc | capMoney hpc | loadRich hpc
  | storeRich hpc | simWork hpc | loadPoor hpc | storePoor hpc | richEmpty hpc | richLeft hpc
  | testPoor hpc | again hpc | finish hpc =>
    refine h.same rfl rfl ?_
    rw [hpc]
    rfl
  | crash hpc => exact h.same rfl rfl rfl

/-! ## The accounts -/

/-- What a thread knows about the accounts at each point of its program. -/
def LocalInv (AMOUNT richGuy poorGuy : ℤ) (l : Local) : Prop :=
  match l.pc with
  | .notCreated | .syncStart | .draw => True
  | .setFlag | .setTurn | .readFlag | .readTurn => 1 ≤ l.money
  | .testRich => 1 ≤ l.money ∧ richGuy + poorGuy = AMOUNT
  | .capMoney => richGuy < l.money ∧ richGuy + poorGuy = AMOUNT
  | .loadRich =>
    (1 ≤ l.money ∨ l.money = richGuy) ∧ l.money ≤ richGuy ∧ richGuy + poorGuy = AMOUNT
  | .storeRich value =>
    (1 ≤ l.money ∨ l.money = richGuy) ∧ l.money ≤ richGuy ∧ richGuy + poorGuy = AMOUNT ∧
      value = richGuy - l.money
  | .simWork | .loadPoor => 0 ≤ richGuy ∧ richGuy + l.money + poorGuy = AMOUNT
  | .storePoor value =>
    0 ≤ richGuy ∧ richGuy + l.money + poorGuy = AMOUNT ∧ value = poorGuy + l.money
  | .testDone => 0 ≤ richGuy ∧ richGuy + poorGuy = AMOUNT
  | .testPoor => 0 < richGuy ∧ richGuy + poorGuy = AMOUNT
  | .resetFlag => richGuy + poorGuy = AMOUNT ∧ (l.done = true ↔ richGuy = 0)
  | .count => l.done = true → richGuy = 0
  | .finished => richGuy = 0

/-- The rich account holds what is left of `AMOUNT`; a negative `AMOUNT` goes in one piece. -/
def RichInv (AMOUNT richGuy : ℤ) : Prop :=
  richGuy ≤ max 0 AMOUNT ∧ (0 ≤ richGuy ∨ richGuy = AMOUNT)

theorem critical_of_waiting {pc : Pc} (hw : pc.phase = .waiting) : pc.critical = false := by
  cases pc <;> first | rfl | exact nomatch hw

/-- A waiting thread has drawn its money. -/
theorem localInv_of_waiting {rich poor : ℤ} (hw : l.pc.phase = .waiting) (hmoney : 1 ≤ l.money) :
    LocalInv AMOUNT rich poor l := by
  unfold LocalInv
  cases hpc : l.pc <;> rw [hpc] at hw <;> first | exact hmoney | exact nomatch hw

theorem LocalInv.of_waiting {rich poor : ℤ} (h : LocalInv AMOUNT rich poor l)
    (hw : l.pc.phase = .waiting) : 1 ≤ l.money := by
  unfold LocalInv at h
  -- a thread waits only while it reads the other flag and the turn
  cases hpc : l.pc <;> rw [hpc] at hw <;> simp only [hpc] at h <;>
    first | exact h | exact nomatch hw

/-- What one step does to the accounts: only a thread in the critical section changes them, a rich
    account that is empty stays so, and a thread that leaves the critical section leaves the
    accounts balanced. -/
theorem bankTransaction_money (hl : LocalInv AMOUNT s.richGuy s.poorGuy l)
    (hrich : RichInv AMOUNT s.richGuy)
    (hbal : l.pc.critical = false → l'.pc.critical = true → s.richGuy + s.poorGuy = AMOUNT)
    (hs : Step AMOUNT self s l s' l') :
    LocalInv AMOUNT s'.richGuy s'.poorGuy l' ∧ RichInv AMOUNT s'.richGuy ∧
      (s.richGuy = 0 → s'.richGuy = 0) ∧
      (l.pc.critical = false → s'.richGuy = s.richGuy ∧ s'.poorGuy = s.poorGuy) ∧
      (l.pc.critical = true → l'.pc.critical = false → s'.richGuy + s'.poorGuy = AMOUNT) := by
  cases hs with
  | syncStart hpc =>
    rw [hpc]
    exact ⟨trivial, hrich, id, fun _ => ⟨rfl, rfl⟩, nofun⟩
  | draw hpc hmoney =>
    rw [hpc]
    exact ⟨hmoney, hrich, id, fun _ => ⟨rfl, rfl⟩, nofun⟩
  | setFlag hpc | setTurn hpc =>
    simp only [LocalInv, hpc] at hl
    rw [hpc]
    exact ⟨hl, hrich, id, fun _ => ⟨rfl, rfl⟩, nofun⟩
  | spin hw hw' =>
    have hmoney := hl.of_waiting hw
    have hout := critical_of_waiting hw
    rw [hout]
    exact ⟨localInv_of_waiting hw' hmoney, hrich, id, fun _ => ⟨rfl, rfl⟩, nofun⟩
  | enter hw hread =>
    -- nobody else is in the middle of a transfer
    have hmoney := hl.of_waiting hw
    have hout := critical_of_waiting hw
    have hsum := hbal hout rfl
    rw [hout]
    exact ⟨⟨hmoney, hsum⟩, hrich, id, fun _ => ⟨rfl, rfl⟩, nofun⟩
  | tooMuch hpc hcmp =>
    simp only [LocalInv, hpc] at hl
    rw [hpc]
    exact ⟨⟨hcmp, hl.2⟩, hrich, id, nofun, nofun⟩
  | enough hpc hcmp =>
    simp only [LocalInv, hpc] at hl
    rw [hpc]
    exact ⟨⟨.inl hl.1, hcmp, hl.2⟩, hrich, id, nofun, nofun⟩
  | capMoney hpc =>
    simp only [LocalInv, hpc] at hl
    rw [hpc]
    exact ⟨⟨.inr rfl, le_refl _, hl.2⟩, hrich, id, nofun, nofun⟩
  | loadRich hpc =>
    simp only [LocalInv, hpc] at hl
    rw [hpc]
    exact ⟨⟨hl.1, hl.2.1, hl.2.2, rfl⟩, hrich, id, nofun, nofun⟩
  | storeRich hpc =>
    -- the money is now with the thread
    simp only [LocalInv, hpc] at hl
    obtain ⟨hmoney, hle, hsum, rfl⟩ := hl
    unfold RichInv at hrich ⊢
    rw [hpc]
    refine ⟨⟨?_, ?_⟩, ⟨?_, ?_⟩, ?_, nofun, nofun⟩ <;> dsimp only <;> omega
  | crash hpc =>
    refine ⟨hl, hrich, id, ?_, ?_⟩
    · rw [hpc]
      exact nofun
    · rw [hpc]
      exact nofun
  | simWork hpc =>
    simp only [LocalInv, hpc] at hl
    rw [hpc]
    exact ⟨hl, hrich, id, nofun, nofun⟩
  | loadPoor hpc =>
    simp only [LocalInv, hpc] at hl
    rw [hpc]
    exact ⟨⟨hl.1, hl.2, rfl⟩, hrich, id, nofun, nofun⟩
  | storePoor hpc =>
    -- the money is no longer with the thread
    simp only [LocalInv, hpc] at hl
    obtain ⟨hpos, hsum, rfl⟩ := hl
    rw [hpc]
    exact ⟨⟨hpos, by dsimp only; omega⟩, hrich, id, nofun, nofun⟩
  | richEmpty hpc hcmp =>
    simp only [LocalInv, hpc] at hl
    rw [hpc]
    exact ⟨⟨hl.2, fun _ => le_antisymm hcmp hl.1, fun _ => rfl⟩, hrich, id, nofun, nofun⟩
  | richLeft hpc hcmp =>
    simp only [LocalInv, hpc] at hl
    rw [hpc]
    exact ⟨⟨hcmp, hl.2⟩, hrich, id, nofun, nofun⟩
  | testPoor hpc =>
    simp only [LocalInv, hpc] at hl
    rw [hpc]
    refine ⟨⟨hl.2, ?_⟩, hrich, id, nofun, nofun⟩
    rw [decide_eq_true_eq]
    omega
  | resetFlag hpc =>
    simp only [LocalInv, hpc] at hl
    rw [hpc]
    exact ⟨hl.2.mp, hrich, id, nofun, fun _ _ => hl.1⟩
  | again hpc hdone =>
    rw [hpc]
    exact ⟨trivial, hrich, id, fun _ => ⟨rfl, rfl⟩, nofun⟩
  | finish hpc hdone =>
    simp only [LocalInv, hpc] at hl
    rw [hpc]
    exact ⟨hl hdone, hrich, id, fun _ => ⟨rfl, rfl⟩, nofun⟩

/-- The poor account holds a part of `AMOUNT`. -/
def PoorInv (AMOUNT poorGuy : ℤ) : Prop := min 0 AMOUNT ≤ poorGuy ∧ poorGuy ≤ max 0 AMOUNT

/-- A transfer leaves a part of `AMOUNT` on the poor account. -/
theorem bankTransaction_poor (hl : LocalInv AMOUNT s.richGuy s.poorGuy l)
    (hrich : RichInv AMOUNT s.richGuy) (hpoor : PoorInv AMOUNT s.poorGuy)
    (hs : Step AMOUNT self s l s' l') : PoorInv AMOUNT s'.poorGuy := by
  cases hs with
  | storePoor hpc =>
    simp only [LocalInv, hpc] at hl
    obtain ⟨hpos, hsum, rfl⟩ := hl
    unfold RichInv PoorInv at *
    dsimp only
    omega
  | _ => exact hpoor

/-- What a thread outside the critical section knows about the accounts: at most that the rich one
    is empty. -/
theorem LocalInv.of_not_critical {rich poor rich' poor' : ℤ} (h : LocalInv AMOUNT rich poor l)
    (hout : l.pc.critical = false) (hrich : rich = 0 → rich' = 0) :
    LocalInv AMOUNT rich' poor' l := by
  unfold LocalInv at h ⊢
  cases hpc : l.pc <;> simp only [hpc] at h hout ⊢
  case count => exact fun hd => hrich (h hd)
  case finished => exact hrich h
  case setFlag | setTurn | readFlag | readTurn => exact h
  all_goals exact nomatch hout

/-! ## The number of transactions -/

/-- The transfers of a thread that have reached the rich account. -/
def Local.moved (l : Local) : ℕ :=
  match l.pc with
  | .simWork | .loadPoor | .storePoor _ | .testDone | .testPoor | .resetFlag | .count =>
    l.transPerThread + 1
  | .notCreated | .syncStart | .draw | .setFlag | .setTurn | .readFlag | .readTurn | .testRich
  | .capMoney | .loadRich | .storeRich _ | .finished => l.transPerThread

/-- One for a thread in or after a transfer that left the rich account empty: its last one. -/
def Local.last (richGuy : ℤ) (l : Local) : ℕ :=
  match l.pc with
  | .simWork | .loadPoor | .storePoor _ | .testDone | .testPoor => if richGuy = 0 then 1 else 0
  | .resetFlag | .count => if l.done then 1 else 0
  | .finished => 1
  | .notCreated | .syncStart | .draw | .setFlag | .setTurn | .readFlag | .readTurn | .testRich
  | .capMoney | .loadRich | .storeRich _ => 0

/-- A thread is in its last transfer at most once. -/
theorem last_le_one (richGuy : ℤ) (l : Local) : l.last richGuy ≤ 1 := by
  unfold Local.last
  split <;> first | split <;> omega | omega

/-- What a thread outside the critical section has as its last transfer does not depend on the
    accounts. -/
theorem last_of_not_critical {rich rich' : ℤ} (hout : l.pc.critical = false) :
    l.last rich = l.last rich' := by
  unfold Local.last
  cases hpc : l.pc <;> simp only [hpc] at hout ⊢
  all_goals exact nomatch hout

/-- A waiting thread is between two transfers. -/
theorem moved_of_waiting {rich : ℤ} (hw : l.pc.phase = .waiting) :
    l.moved = l.transPerThread ∧ l.last rich = 0 := by
  unfold Local.moved Local.last
  cases hpc : l.pc <;> rw [hpc] at hw <;> first | exact ⟨rfl, rfl⟩ | exact nomatch hw

/-- A transfer takes at least 1 from the rich account, or is the last one of its thread. -/
theorem bankTransaction_moved (hl : LocalInv AMOUNT s.richGuy s.poorGuy l)
    (hs : Step AMOUNT self s l s' l') :
    l'.moved + max s'.richGuy 1 + l.last s.richGuy ≤
      l.moved + max s.richGuy 1 + l'.last s'.richGuy := by
  cases hs with
  | storeRich hpc =>
    -- the rich account loses at least 1, or is empty now
    simp only [LocalInv, hpc] at hl
    obtain ⟨hmoney, hle, hsum, rfl⟩ := hl
    simp only [Local.moved, Local.last, hpc]
    split <;> push_cast <;> omega
  | richEmpty hpc hcmp =>
    simp only [LocalInv, hpc] at hl
    have hzero : s.richGuy = 0 := le_antisymm hcmp hl.1
    simp [Local.moved, Local.last, hpc, hzero]
  | testPoor hpc =>
    -- there is money left on the rich account, so this is not the last transfer
    simp only [LocalInv, hpc] at hl
    have hne : s.richGuy ≠ 0 := by omega
    have hmore : ¬ s.poorGuy ≥ AMOUNT := by omega
    simp [Local.moved, Local.last, hpc, hne, hmore]
  | again hpc hdone | finish hpc hdone => simp [Local.moved, Local.last, hpc, hdone]
  | spin hw hw' =>
    obtain ⟨hmoved, hlast⟩ := moved_of_waiting hw
    obtain ⟨hmoved', hlast'⟩ := moved_of_waiting (l := { l with pc := _ }) hw'
    rw [hmoved, hlast, hmoved', hlast']
  | enter hw hread =>
    obtain ⟨hmoved, hlast⟩ := moved_of_waiting hw
    rw [hmoved, hlast]
    rfl
  | syncStart hpc | draw hpc | setFlag hpc | setTurn hpc | tooMuch hpc | enough hpc
  | capMoney hpc | loadRich hpc | crash hpc | simWork hpc | loadPoor hpc | storePoor hpc
  | richLeft hpc | resetFlag hpc => simp [Local.moved, Local.last, hpc]

/-! ## The process -/

/-- What holds in every reachable state. -/
structure BankInv (AMOUNT : ℤ) (s : Vars) (loc : Bool → Local) : Prop where
  repr : Repr s loc
  rich : RichInv AMOUNT s.richGuy
  poor : PoorInv AMOUNT s.poorGuy
  thread : ∀ i, LocalInv AMOUNT s.richGuy s.poorGuy (loc i)
  balanced : (∀ i, (loc i).pc.critical = false) → s.richGuy + s.poorGuy = AMOUNT
  moved : 1 ≤ AMOUNT → ((loc false).moved + (loc true).moved : ℤ) + max s.richGuy 1 ≤
    AMOUNT + (loc false).last s.richGuy + (loc true).last s.richGuy

/-- With one thread in the critical section, the other is outside. -/
theorem Repr.other_not_critical (h : Repr s loc) {i : Bool} (hi : (loc i).pc.critical = true) :
    (loc (!i)).pc.critical = false := by
  have hne := h.flags.inv.mutual_exclusion (i := i) (phase_eq_critical.mpr hi)
  rw [Ne, show (abs s.turn loc).phase (!i) = (loc (!i)).pc.phase from rfl, phase_eq_critical] at hne
  simpa using hne

/-- Every step of a thread keeps what holds. -/
theorem bankTransaction_inv (h : BankInv AMOUNT s loc) (hs : Step AMOUNT self s (loc self) s' l') :
    BankInv AMOUNT s' (Function.update loc self l') := by
  have hrepr := bankTransaction_flags h.repr hs
  have hl := h.thread self
  -- a thread that enters finds the accounts balanced: no one else is in the middle of a transfer
  have hbal : (loc self).pc.critical = false → l'.pc.critical = true →
      s.richGuy + s.poorGuy = AMOUNT := by
    intro hout hin
    have hother := hrepr.other_not_critical (i := self) (by simpa using hin)
    apply h.balanced
    intro i
    rcases Bool.eq_or_eq_not i self with rfl | rfl
    · exact hout
    · simpa using hother
  obtain ⟨hl', hrich', hzero, hkeep, hleave⟩ := bankTransaction_money hl h.rich hbal hs
  have hother : (loc self).pc.critical = true → (loc (!self)).pc.critical = false :=
    h.repr.other_not_critical
  refine ⟨hrepr, hrich', bankTransaction_poor hl h.rich h.poor hs, fun i => ?_, fun hout => ?_,
    fun hpos => ?_⟩
  · rcases Bool.eq_or_eq_not i self with rfl | rfl
    · simpa using hl'
    · rw [Function.update_of_ne (by simp)]
      cases hin : (loc self).pc.critical with
      | true => exact (h.thread _).of_not_critical (hother hin) hzero
      | false =>
        obtain ⟨hr, hp⟩ := hkeep hin
        rw [hr, hp]
        exact h.thread _
  · cases hin : (loc self).pc.critical with
    | true => exact hleave hin (by simpa using hout self)
    | false =>
      obtain ⟨hr, hp⟩ := hkeep hin
      rw [hr, hp]
      apply h.balanced
      intro i
      rcases Bool.eq_or_eq_not i self with rfl | rfl
      · exact hin
      · simpa using hout (!self)
  · have hstep := bankTransaction_moved hl hs
    have hlast : (loc (!self)).last s'.richGuy = (loc (!self)).last s.richGuy := by
      cases hin : (loc self).pc.critical with
      | true => exact last_of_not_critical (hother hin)
      | false => rw [(hkeep hin).1]
    have hold := h.moved hpos
    cases self <;> simp only [Bool.not_false, Bool.not_true] at hlast <;> simp [hlast] <;> omega

/-- The threads that `main` has joined have finished, and those it has not created have not
    started. -/
def MainInv (s : State) : Prop :=
  match s.main with
  | .create0 => ∀ i, (s.loc i).pc = .notCreated
  | .create1 => (s.loc true).pc = .notCreated
  | .join0 => True
  | .join1 => (s.loc false).pc = .finished
  | .checkRich | .checkPoor | .success => ∀ i, (s.loc i).pc = .finished
  | .badTransactions => False

/-- A thread that has not been created or has finished takes no step. -/
theorem bankTransaction_ne (hs : bankTransaction AMOUNT self r s l = some (s', l')) :
    l.pc ≠ .notCreated ∧ l.pc ≠ .finished := by
  constructor <;> intro hpc <;> simp [bankTransaction, hpc] at hs

/-- When both threads have finished, all the money has been moved. -/
theorem BankInv.finished (h : BankInv AMOUNT s loc) (hfin : ∀ i, (loc i).pc = .finished) :
    s.richGuy = 0 ∧ s.poorGuy = AMOUNT := by
  have hzero : s.richGuy = 0 := by
    have hl := h.thread false
    simpa only [LocalInv, hfin false] using hl
  have hsum := h.balanced fun i => by rw [hfin i]; rfl
  exact ⟨hzero, by omega⟩

/-- Creating a thread changes nothing that matters. -/
theorem BankInv.create (h : BankInv AMOUNT s loc) (hpc : (loc self).pc = .notCreated) :
    BankInv AMOUNT s (Function.update loc self { loc self with pc := .syncStart }) := by
  refine ⟨h.repr.same rfl rfl (by simp [hpc, Pc.phase]), h.rich, h.poor, fun i => ?_,
    fun hout => ?_, fun hpos => ?_⟩
  · rcases Bool.eq_or_eq_not i self with rfl | rfl
    · simp [LocalInv]
    · simpa using h.thread (!self)
  · apply h.balanced
    intro i
    rcases Bool.eq_or_eq_not i self with rfl | rfl
    · rw [hpc]
      rfl
    · simpa using hout (!self)
  · have hold := h.moved hpos
    cases self <;> simp [Local.moved, Local.last, hpc] at hold ⊢ <;> omega

/-- Every step of the process keeps what holds. -/
theorem machine_inv {s s' : State} {a : Action} {e : Option Empty}
    (h : BankInv AMOUNT s.vars s.loc ∧ MainInv s)
    (hs : (machine AMOUNT).step s a = some (e, s')) :
    BankInv AMOUNT s'.vars s'.loc ∧ MainInv s' := by
  obtain ⟨hbank, hmain⟩ := h
  simp only [machine, Option.ite_none_left_eq_some] at hs
  obtain ⟨-, hs⟩ := hs
  cases a with
  | main =>
    simp only [Option.map_eq_some_iff, Prod.mk.injEq] at hs
    obtain ⟨s₁, hs, -, rfl⟩ := hs
    unfold MainInv at hmain
    cases hpc : s.main <;> simp only [hpc] at hmain <;>
      simp only [mainStep, hpc, reduceCtorEq] at hs
    case create0 =>
      obtain rfl := Option.some.inj hs
      exact ⟨hbank.create (hmain false), by simpa [MainInv, State.create] using hmain true⟩
    case create1 =>
      obtain rfl := Option.some.inj hs
      exact ⟨hbank.create hmain, trivial⟩
    case join0 =>
      simp only [Option.ite_none_right_eq_some, Option.some.injEq] at hs
      obtain ⟨hfin, rfl⟩ := hs
      exact ⟨hbank, hfin⟩
    case join1 =>
      simp only [Option.ite_none_right_eq_some, Option.some.injEq] at hs
      obtain ⟨hfin, rfl⟩ := hs
      exact ⟨hbank, fun i => by cases i <;> assumption⟩
    case checkRich =>
      obtain rfl := Option.some.inj hs
      have hzero := (hbank.finished hmain).1
      simp only [hzero, ne_eq, not_true_eq_false, if_false]
      exact ⟨hbank, hmain⟩
    case checkPoor =>
      obtain rfl := Option.some.inj hs
      have hall := (hbank.finished hmain).2
      simp only [hall, ne_eq, not_true_eq_false, if_false]
      exact ⟨hbank, hmain⟩
  | thread self r =>
    simp only [Option.map_eq_some_iff, Prod.exists, Prod.mk.injEq] at hs
    obtain ⟨s₁, l₁, hs, -, rfl⟩ := hs
    refine ⟨bankTransaction_inv hbank (step_of_bankTransaction hs), ?_⟩
    obtain ⟨hne, hne'⟩ := bankTransaction_ne hs
    -- `main` waits for this thread, or does not look at it
    have hkeep : ∀ i pc, (s.loc i).pc = pc → pc = .notCreated ∨ pc = .finished →
        (Function.update s.loc self l₁ i).pc = pc := by
      intro i pc hi hpc
      have hi' : i ≠ self := by
        rintro rfl
        rcases hpc with rfl | rfl
        · exact hne hi
        · exact hne' hi
      rw [Function.update_of_ne hi']
      exact hi
    unfold MainInv at hmain ⊢
    cases hpc : s.main <;> simp only [hpc] at hmain ⊢
    case create0 => exact fun i => hkeep i _ (hmain i) (.inl rfl)
    case create1 => exact hkeep true _ hmain (.inl rfl)
    case join1 => exact hkeep false _ hmain (.inr rfl)
    case checkRich | checkPoor | success => exact fun i => hkeep i _ (hmain i) (.inr rfl)

/-- The initial state satisfies what holds. -/
theorem initial_inv (AMOUNT : ℤ) :
    BankInv AMOUNT (initial AMOUNT).vars (initial AMOUNT).loc ∧ MainInv (initial AMOUNT) := by
  refine ⟨⟨⟨PetersonLock.shows_of_idle (fun _ => rfl) fun _ => rfl, rfl⟩, ⟨?_, .inr rfl⟩,
    ⟨min_le_left 0 AMOUNT, le_max_left 0 AMOUNT⟩, fun _ => trivial, fun _ => ?_, fun hpos => ?_⟩,
    fun _ => rfl⟩
  · exact le_max_right 0 AMOUNT
  · exact add_zero AMOUNT
  · simp only [initial, Local.moved, Local.last]
    omega

/-- What holds, holds in every reachable state. -/
theorem reachable_inv {s : State} (h : (machine AMOUNT).Reachable (initial AMOUNT) s) :
    BankInv AMOUNT s.vars s.loc ∧ MainInv s :=
  h.invariant (I := fun s => BankInv AMOUNT s.vars s.loc ∧ MainInv s)
    (fun _ _ _ _ hI hs => machine_inv hI hs) (initial_inv AMOUNT)

/-- A value about to be stored. -/
def Pc.pending : Pc → Option ℤ
  | .storeRich value | .storePoor value => some value
  | _ => none

/-- The accounts and the values about to be stored lie between 0 and `AMOUNT`, so no addition or
    subtraction overflows. -/
theorem no_overflow {s : State} (h : (machine AMOUNT).Reachable (initial AMOUNT) s) :
    ∀ x, x = s.vars.richGuy ∨ x = s.vars.poorGuy ∨ (∃ i, (s.loc i).pc.pending = some x) →
      min 0 AMOUNT ≤ x ∧ x ≤ max 0 AMOUNT := by
  obtain ⟨hbank, -⟩ := reachable_inv h
  have hrich := hbank.rich
  unfold RichInv at hrich
  rintro x (rfl | rfl | ⟨i, hi⟩)
  · omega
  · exact hbank.poor
  · have hl := hbank.thread i
    cases hpc : (s.loc i).pc <;> simp only [hpc, Pc.pending, reduceCtorEq, Option.some.injEq] at hi
    all_goals
      simp only [LocalInv, hpc] at hl
      omega

/-! ## Main result -/

/-- In every reachable state: with no thread in the critical section the balances add up to
    `AMOUNT`; the rich account never leaves the range from 0 to `AMOUNT`; in the final check of
    `main` all the money has been moved, and the branch that reports bad transactions is not
    reached; and the two threads together have completed at most `AMOUNT + 1` transactions. -/
theorem bankTransactions_correct (AMOUNT : ℤ) (s : State)
    (hreach : (machine AMOUNT).Reachable (initial AMOUNT) s) :
    ((∀ i, (s.loc i).pc.critical = false) → s.vars.richGuy + s.vars.poorGuy = AMOUNT) ∧
    (0 ≤ AMOUNT → 0 ≤ s.vars.richGuy ∧ s.vars.richGuy ≤ AMOUNT) ∧
    ((s.main = .checkRich ∨ s.main = .checkPoor ∨ s.main = .success →
      s.vars.richGuy = 0 ∧ s.vars.poorGuy = AMOUNT) ∧ s.main ≠ .badTransactions) ∧
    (1 ≤ AMOUNT → ((s.loc false).transPerThread + (s.loc true).transPerThread : ℤ) ≤
      AMOUNT + 1) := by
  obtain ⟨hbank, hmain⟩ := reachable_inv hreach
  refine ⟨hbank.balanced, fun hpos => ?_, ⟨fun hcheck => ?_, fun hbad => ?_⟩, fun hpos => ?_⟩
  · have hrich := hbank.rich
    unfold RichInv at hrich
    omega
  · apply hbank.finished
    rcases hcheck with hpc | hpc | hpc <;> simpa only [MainInv, hpc] using hmain
  · simp only [MainInv, hbad] at hmain
  · have hmoved := hbank.moved hpos
    have hle : ∀ l : Local, l.transPerThread ≤ l.moved := fun l => by
      unfold Local.moved
      split <;> omega
    have h₀ := hle (s.loc false)
    have h₁ := hle (s.loc true)
    have h₂ := last_le_one s.vars.richGuy (s.loc false)
    have h₃ := last_le_one s.vars.richGuy (s.loc true)
    omega

/-- A run with `AMOUNT = 1`: thread 0 moves the money, thread 1 finds nothing left. -/
theorem bankTransactions_correct_one :
    ∃ s, (machine 1).Reachable (initial 1) s ∧ s.main = .success ∧ s.vars.richGuy = 0 ∧
      s.vars.poorGuy = 1 := by
  have hrun := Machine.Reachable.of_exec (M := machine 1) (s := initial 1)
    ([.main, .main] ++ List.replicate 14 (.thread false 0) ++
      List.replicate 15 (.thread true 3) ++ List.replicate 4 .main) rfl
  exact ⟨_, hrun, rfl, (bankTransactions_correct 1 _ hrun).2.2.1.1 (.inr (.inr rfl))⟩

end BankTransactions
