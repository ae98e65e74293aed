import OsSamples.Spec.BankTransactions

/-!
# The transfers come to an end

Each transfer that is not a thread's last one makes the rich account smaller.  A thread that waits
for the other one may go around in its loop for ever, but then the other one can go on.

## Key results

- `rest_thread`: a measure that every step makes smaller, except a turn of a waiting loop
- `exists_turn`: a thread that waits lets the other one go on
- `inevitable_success`: the program ends, and the transfers are right
-/

namespace BankTransactions

open Peterson (tidInt tidInt_inj)

variable {AMOUNT : ℤ} {self : Bool} {r : Fin 10} {s s' : Vars} {l l' : Local} {loc : Bool → Local}

/-! ## The steps that are left -/

/-- How many steps are left for a thread in this transfer; and in the next one, if this is not the
    last one.  A thread that has read the flag of the other one as set may have to read it again. -/
def Local.rest (richGuy : ℤ) (flag : Bool) (l : Local) : ℕ :=
  match l.pc with
  | .notCreated => 21
  | .syncStart => 20
  | .draw => 19
  | .setFlag => 18
  | .setTurn => 15
  | .readFlag => if flag then 14 else 12
  | .readTurn => 13
  | .testRich => 11
  | .capMoney => 10
  | .loadRich => 9
  | .storeRich _ => 8
  | .simWork => if richGuy = 0 then 7 else 37
  | .loadPoor => if richGuy = 0 then 6 else 36
  | .storePoor _ => if richGuy = 0 then 5 else 35
  | .testDone => if richGuy = 0 then 4 else 34
  | .testPoor => 33
  | .resetFlag => if l.done then 2 else 32
  | .count => if l.done then 1 else 31
  | .finished => 0

/-- How many steps are left for `main`. -/
def MainPc.rest : MainPc → ℕ
  | .create0 => 6
  | .create1 => 5
  | .join0 => 4
  | .join1 => 3
  | .checkRich => 2
  | .checkPoor => 1
  | .success | .badTransactions => 0

/-- How many steps are left for the threads. -/
def threadsRest (s : Vars) (loc : Bool → Local) : ℕ :=
  40 * s.richGuy.natAbs + (loc false).rest s.richGuy (s.flag true) +
    (loc true).rest s.richGuy (s.flag false)

/-- A turn of the waiting loop: the thread finds that it is not its turn, and will read the flag of
    the other one, which is set, again. -/
def Busy (s : State) (a : Action) : Prop :=
  ∃ self r, a = .thread self r ∧ (s.loc self).pc = .readTurn ∧
    s.vars.turn = tidInt (!self) ∧ s.vars.flag (!self) = true

/-! ## Every step makes the measure smaller -/

/-- What a thread outside the critical section has left to do does not depend on the accounts. -/
theorem rest_of_not_critical (rich rich' : ℤ) (flag : Bool) (hout : l.pc.critical = false) :
    l.rest rich flag = l.rest rich' flag := by
  unfold Local.rest
  cases hpc : l.pc <;> simp only [hpc, Pc.critical, Bool.true_eq_false] at hout ⊢

/-- A thread that sees the flag of the other one set may have to read it twice more. -/
theorem rest_flag (l : Local) (rich : ℤ) (flag : Bool) :
    l.rest rich false ≤ l.rest rich flag ∧ l.rest rich flag ≤ l.rest rich false + 2 := by
  cases flag with
  | false => exact ⟨le_rfl, by omega⟩
  | true =>
    unfold Local.rest
    cases l.pc <;> simp

/-- What the other thread may have to do more, after a step. -/
def Pc.delay (pc : Pc) : ℕ :=
  if pc = .setFlag then 2 else 0

/-- A step, other than a turn of the waiting loop, leaves the thread less to do, also if the other
    one has more to do then. -/
theorem rest_own (hne : AMOUNT ≠ 0) (hl : LocalInv AMOUNT s.richGuy s.poorGuy l)
    (hbusy : ¬ (l.pc = .readTurn ∧ s.turn = tidInt (!self) ∧ s.flag (!self) = true))
    (hs : bankTransaction AMOUNT self r s l = some (s', l')) :
    40 * s'.richGuy.natAbs + l'.rest s'.richGuy (s'.flag (!self)) + l.pc.delay <
      40 * s.richGuy.natAbs + l.rest s.richGuy (s.flag (!self)) := by
  cases hpc : l.pc <;> simp only [bankTransaction, hpc, Option.some.injEq, Prod.mk.injEq,
    reduceCtorEq] at hs <;> simp only [hpc, LocalInv] at hl <;>
    simp only [Pc.delay, reduceCtorEq, if_true, if_false]
  case simWork =>
    rw [if_neg hne] at hs
    obtain ⟨rfl, rfl⟩ := Prod.mk.inj (Option.some.inj hs)
    simp only [Local.rest, hpc]
    split <;> omega
  case testDone =>
    split at hs <;> rename_i hcmp <;> obtain ⟨rfl, rfl⟩ := Prod.mk.inj (Option.some.inj hs)
    · have hempty : s.richGuy = 0 := le_antisymm hcmp hl.1
      simp [Local.rest, hpc, hempty]
    · have hleft : s.richGuy ≠ 0 := by omega
      simp [Local.rest, hpc, hleft]
  all_goals obtain ⟨rfl, rfl⟩ := hs
  case setTurn | readFlag =>
    cases hflag : s.flag (!self) <;> simp [Local.rest, hpc]
  case readTurn =>
    by_cases hturn : s.turn = tidInt (!self)
    · have hflag : s.flag (!self) = false := by simpa [hpc, hturn] using hbusy
      simp [Local.rest, hpc, hturn, hflag]
    · simp [Local.rest, hpc, hturn]
  case testRich =>
    by_cases hcmp : l.money > s.richGuy <;> simp [Local.rest, hpc, hcmp]
  case storeRich value =>
    -- the account gets smaller, or it is empty now
    obtain ⟨hmoney, hle, -, hvalue⟩ := hl
    simp only [Local.rest, hpc]
    split <;> omega
  case loadPoor | storePoor | testPoor =>
    simp only [Local.rest, hpc]
    split <;> omega
  case resetFlag | count =>
    cases hdone : l.done <;> simp [Local.rest, hpc, hdone]
  case syncStart | draw | setFlag | capMoney | loadRich => simp [Local.rest, hpc]

/-- The other thread looks at the flag and, in the critical section, at the rich account. -/
theorem rest_other (h : BankInv AMOUNT s loc) (hs : Step AMOUNT self s (loc self) s' l') :
    (loc (!self)).rest s'.richGuy (s'.flag self) ≤
      (loc (!self)).rest s.richGuy (s.flag self) + (loc self).pc.delay := by
  cases hs with
  | setFlag hpc =>
    have hread := (rest_flag (loc (!self)) s.richGuy true).2
    have hread' := (rest_flag (loc (!self)) s.richGuy (s.flag self)).1
    simp only [hpc, Pc.delay, Function.update_self, if_true]
    omega
  | resetFlag hpc =>
    have hread := (rest_flag (loc (!self)) s.richGuy (s.flag self)).1
    simp only [Function.update_self]
    omega
  | storeRich hpc =>
    have hother := h.repr.other_not_critical (i := self) (by rw [hpc]; rfl)
    rw [rest_of_not_critical _ s.richGuy _ hother]
    exact Nat.le_add_right _ _
  | syncStart | draw | setTurn | spin | enter | tooMuch | enough | capMoney | loadRich | crash
  | simWork | loadPoor | storePoor | richEmpty | richLeft | testPoor | again | finish =>
    exact Nat.le_add_right _ _

/-- A step of a thread, other than a turn of the waiting loop, makes the measure smaller. -/
theorem rest_thread (hne : AMOUNT ≠ 0) (h : BankInv AMOUNT s loc)
    (hbusy : ¬ ((loc self).pc = .readTurn ∧ s.turn = tidInt (!self) ∧ s.flag (!self) = true))
    (hs : bankTransaction AMOUNT self r s (loc self) = some (s', l')) :
    threadsRest s' (Function.update loc self l') < threadsRest s loc := by
  have hown := rest_own hne (h.thread self) hbusy hs
  have hother := rest_other h (step_of_bankTransaction hs)
  cases self <;> simp only [threadsRest, Function.update_self, ne_eq, reduceCtorEq,
    not_false_eq_true, Function.update_of_ne, Bool.not_false, Bool.not_true] at hown hother ⊢ <;>
    omega

/-- A created thread has a step less to take. -/
theorem create_rest (hpc : (loc self).pc = .notCreated) :
    threadsRest s (Function.update loc self { loc self with pc := .syncStart }) <
      threadsRest s loc := by
  have hown : ({ loc self with pc := .syncStart } : Local).rest s.richGuy (s.flag (!self)) <
      (loc self).rest s.richGuy (s.flag (!self)) := by simp [Local.rest, hpc]
  cases self <;> simp only [threadsRest, Function.update_self, ne_eq, reduceCtorEq,
    not_false_eq_true, Function.update_of_ne, Bool.not_false, Bool.not_true] at hown ⊢ <;> omega

/-- How many steps are left for the process. -/
def State.rest (s : State) : ℕ :=
  s.main.rest + threadsRest s.vars s.loc

/-! ## Who can go on -/

/-- The threads that `main` has created have started, and the process has not crashed. -/
def Created (s : State) : Prop :=
  s.vars.crashed = false ∧
    match s.main with
    | .create0 => True
    | .create1 => (s.loc false).pc ≠ .notCreated
    | .join0 | .join1 | .checkRich | .checkPoor | .success | .badTransactions =>
      ∀ i, (s.loc i).pc ≠ .notCreated

/-- A thread does not go back to where it has not been created, and it divides by `AMOUNT`. -/
theorem bankTransaction_started (hne : AMOUNT ≠ 0)
    (hs : bankTransaction AMOUNT self r s l = some (s', l')) :
    s'.crashed = s.crashed ∧ l'.pc ≠ .notCreated := by
  cases hpc : l.pc <;> simp only [bankTransaction, hpc, reduceCtorEq] at hs
  case simWork =>
    rw [if_neg hne] at hs
    obtain ⟨rfl, rfl⟩ := Prod.mk.inj (Option.some.inj hs)
    simp
  case testDone =>
    split at hs <;> obtain ⟨rfl, rfl⟩ := Prod.mk.inj (Option.some.inj hs) <;> simp
  all_goals
    obtain ⟨rfl, rfl⟩ := Prod.mk.inj (Option.some.inj hs)
    refine ⟨rfl, ?_⟩
    first | split <;> simp | simp

/-- A thread that has started and not finished can take a step. -/
theorem exists_bankTransaction (AMOUNT : ℤ) (self : Bool) (s : Vars) (hpc : l.pc ≠ .notCreated)
    (hpc' : l.pc ≠ .finished) : ∃ q, bankTransaction AMOUNT self 0 s l = some q := by
  unfold bankTransaction
  cases hl : l.pc <;> simp only [hl] at hpc hpc' ⊢
  case notCreated => exact absurd rfl hpc
  case finished => exact absurd rfl hpc'
  case simWork | testDone => split <;> exact ⟨_, rfl⟩
  all_goals exact ⟨_, rfl⟩

/-- A thread that has started and not finished can go on, or the other one can, whose turn it is. -/
theorem exists_turn {s : State} (h : BankInv AMOUNT s.vars s.loc)
    (hcrashed : s.vars.crashed = false) {i : Bool} (hpc : (s.loc i).pc ≠ .notCreated)
    (hpc' : (s.loc i).pc ≠ .finished) :
    ∃ a q, ¬ Busy s a ∧ (machine AMOUNT).step s a = some q := by
  have hgo : ∀ j, (s.loc j).pc ≠ .notCreated → (s.loc j).pc ≠ .finished →
      ∃ q, (machine AMOUNT).step s (.thread j 0) = some q := by
    intro j hj hj'
    obtain ⟨q, hq⟩ := exists_bankTransaction AMOUNT j s.vars hj hj'
    simp only [machine, hcrashed, Bool.false_eq_true, if_false, hq, Option.map_some]
    exact ⟨_, rfl⟩
  by_cases hbusy : Busy s (.thread i 0)
  · obtain ⟨_, _, heq, -, hturn, hflag⟩ := hbusy
    obtain ⟨rfl, rfl⟩ := Action.thread.inj heq
    -- the other one has set its flag, so it has started and not finished
    have hphase := (h.repr.flags.flag (!i)).mp hflag
    obtain ⟨q, hq⟩ := hgo (!i) (fun hj => hphase (by simp [abs, hj, Pc.phase]))
      (fun hj => hphase (by simp [abs, hj, Pc.phase]))
    refine ⟨_, q, ?_, hq⟩
    rintro ⟨_, _, heq', -, hturn', -⟩
    obtain ⟨rfl, rfl⟩ := Action.thread.inj heq'
    rw [hturn, tidInt_inj] at hturn'
    simp at hturn'
  · obtain ⟨q, hq⟩ := hgo i hpc hpc'
    exact ⟨_, q, hbusy, hq⟩

/-! ## Main result -/

/-- What holds in every reachable state. -/
def Inv (AMOUNT : ℤ) (s : State) : Prop :=
  (BankInv AMOUNT s.vars s.loc ∧ MainInv s) ∧ Created s

/-- Every step of `main` keeps what holds, and makes the measure smaller. -/
theorem mainStep_rest {s s' : State} (h : Inv AMOUNT s) (hs : mainStep AMOUNT s = some s') :
    Created s' ∧ s'.rest < s.rest := by
  obtain ⟨⟨hbank, hmain⟩, hcrashed, hcreated⟩ := h
  unfold MainInv at hmain
  cases hpc : s.main <;> simp only [hpc] at hmain hcreated <;>
    simp only [mainStep, hpc, reduceCtorEq, Option.ite_none_right_eq_some, Option.some.injEq] at hs
  -- `main` has less left, and so has a thread that is created
  case create0 =>
    subst hs
    refine ⟨⟨hcrashed, by simp [State.create]⟩, ?_⟩
    have hlt := create_rest (s := s.vars) (hmain false)
    simp only [State.rest, hpc]
    exact Nat.add_lt_add (show MainPc.rest .create1 < MainPc.rest .create0 by decide) hlt
  case create1 =>
    subst hs
    refine ⟨⟨hcrashed, fun i => ?_⟩, ?_⟩
    · cases i
      · simpa [State.create] using hcreated
      · simp [State.create]
    · have hlt := create_rest (s := s.vars) hmain
      simp only [State.rest, hpc]
      exact Nat.add_lt_add (show MainPc.rest .join0 < MainPc.rest .create1 by decide) hlt
  -- a join of a thread that has finished
  case join0 | join1 =>
    obtain ⟨-, rfl⟩ := hs
    exact ⟨⟨hcrashed, hcreated⟩, by simp [State.rest, MainPc.rest, hpc]⟩
  -- all the money has been moved, so that both checks succeed
  case checkRich =>
    subst hs
    have hzero := (hbank.finished hmain).1
    simp only [hzero, ne_eq, not_true_eq_false, if_false]
    exact ⟨⟨hcrashed, hcreated⟩, by simp [State.rest, MainPc.rest, hpc]⟩
  case checkPoor =>
    subst hs
    have hall := (hbank.finished hmain).2
    simp only [hall, ne_eq, not_true_eq_false, if_false]
    exact ⟨⟨hcrashed, hcreated⟩, by simp [State.rest, MainPc.rest, hpc]⟩

/-- Every step keeps what holds, and makes the measure smaller unless a thread waits. -/
theorem machine_rest (hne : AMOUNT ≠ 0) {s s' : State} {a : Action} {e : Option Empty}
    (h : Inv AMOUNT s) (hs : (machine AMOUNT).step s a = some (e, s')) :
    Inv AMOUNT s' ∧ (¬ Busy s a → s'.rest < s.rest) := by
  have hinv := machine_inv h.1 hs
  obtain ⟨⟨hbank, -⟩, hcrashed, hcreated⟩ := id h
  simp only [machine, hcrashed, Bool.false_eq_true, if_false] at hs
  cases a with
  | main =>
    simp only [Option.map_eq_some_iff, Prod.mk.injEq] at hs
    obtain ⟨s₁, hs, -, rfl⟩ := hs
    obtain ⟨hcreated', hlt⟩ := mainStep_rest h hs
    exact ⟨⟨hinv, hcreated'⟩, fun _ => hlt⟩
  -- a thread does not go back to the state before its creation
  | thread self r =>
    simp only [Option.map_eq_some_iff, Prod.exists, Prod.mk.injEq] at hs
    obtain ⟨s₁, l₁, hs, -, rfl⟩ := hs
    obtain ⟨hcrashed', hstarted⟩ := bankTransaction_started hne hs
    have hkeep : ∀ i, (s.loc i).pc ≠ .notCreated →
        (Function.update s.loc self l₁ i).pc ≠ .notCreated := by
      intro i hi
      rcases eq_or_ne i self with rfl | hi'
      · rwa [Function.update_self]
      · rwa [Function.update_of_ne hi']
    refine ⟨⟨hinv, hcrashed'.trans hcrashed, ?_⟩, fun hbusy => ?_⟩
    -- what `main` has created stays created
    · cases hpc : s.main <;> simp only [hpc] at hcreated ⊢
      case create1 => exact hkeep false hcreated
      all_goals exact fun i => hkeep i (hcreated i)
    -- turns of the waiting loop are left out, all other steps count
    · have hwaits : ¬ ((s.loc self).pc = .readTurn ∧ s.vars.turn = tidInt (!self) ∧
          s.vars.flag (!self) = true) := by
        intro hwait
        exact hbusy ⟨self, r, rfl, hwait⟩
      have hlt := rest_thread hne hbank hwaits hs
      simp only [State.rest]
      omega

/-- Before its end the process can go on with a step that is not a turn of a waiting loop. -/
theorem exists_step {s : State} (h : Inv AMOUNT s) (hmain : s.main ≠ .success) :
    ∃ a q, ¬ Busy s a ∧ (machine AMOUNT).step s a = some q := by
  obtain ⟨⟨hbank, hinv⟩, hcrashed, hcreated⟩ := h
  have hgo : (mainStep AMOUNT s).isSome →
      ∃ a q, ¬ Busy s a ∧ (machine AMOUNT).step s a = some q := by
    intro hsome
    obtain ⟨s', hs⟩ := Option.isSome_iff_exists.mp hsome
    refine ⟨.main, (none, s'), ?_, ?_⟩
    · rintro ⟨_, _, heq, -⟩
      cases heq
    · simp [machine, hcrashed, hs]
  unfold MainInv at hinv
  cases hpc : s.main <;> simp only [hpc] at hinv hcreated
  case success => exact absurd hpc hmain
  case join0 =>
    by_cases hfin : (s.loc false).pc = .finished
    · exact hgo (by simp [mainStep, hpc, hfin])
    · exact exists_turn hbank hcrashed (hcreated false) hfin
  case join1 =>
    by_cases hfin : (s.loc true).pc = .finished
    · exact hgo (by simp [mainStep, hpc, hfin])
    · exact exists_turn hbank hcrashed (hcreated true) hfin
  all_goals exact hgo (by simp [mainStep, hpc])

/-- With an amount that `WAIT_ITERATIONS` can divide by, the program ends from every state that it
    reaches with all the money moved, whatever steps are taken other than turns of a waiting loop
    in which the flag and the turn are those of the other thread; and until then there is always
    such a step to take.  No thread waits for ever. -/
theorem inevitable_success (AMOUNT : ℤ) (hne : AMOUNT ≠ 0) (s : State)
    (hreach : (machine AMOUNT).Reachable (initial AMOUNT) s) :
    (machine AMOUNT).Inevitable (fun s a => ¬ Busy s a)
      (fun s => s.main = .success ∧ s.vars.richGuy = 0 ∧ s.vars.poorGuy = AMOUNT) s := by
  have hinv : Inv AMOUNT s :=
    hreach.invariant (I := Inv AMOUNT) (fun _ _ _ _ hI hs => (machine_rest hne hI hs).1)
      ⟨initial_inv AMOUNT, rfl, trivial⟩
  have hend : ∀ s, Inv AMOUNT s → s.main = .success →
      s.main = .success ∧ s.vars.richGuy = 0 ∧ s.vars.poorGuy = AMOUNT := by
    intro s h hmain
    have hfin := h.1.2
    simp only [MainInv, hmain] at hfin
    exact ⟨hmain, h.1.1.finished hfin⟩
  refine Machine.Inevitable.of_measure (I := Inv AMOUNT) State.rest (fun s h hP => ?_)
    (fun s a e s' h _ hbusy hs => ?_) hinv
  · exact exists_step h fun hmain => hP (hend s h hmain)
  · obtain ⟨h', hlt⟩ := machine_rest hne h hs
    exact ⟨h', hlt hbusy⟩

/-- Thread 1 waits, after thread 0 has set its flag and given it the turn: it does not find its
    turn, before thread 0 has gone on. -/
theorem inevitable_success_waiting :
    ∃ s, (s.loc false).pc = .testRich ∧ (s.loc true).pc = .readTurn ∧
      (machine 5).Inevitable (fun s a => ¬ Busy s a)
        (fun s => s.main = .success ∧ s.vars.richGuy = 0 ∧ s.vars.poorGuy = 5) s := by
  have hrun := Machine.Reachable.of_exec (M := machine 5) (s := initial 5)
    ([.main, .main] ++ List.replicate 5 (.thread false 2) ++
      List.replicate 5 (.thread true 3)) rfl
  exact ⟨_, rfl, rfl, inevitable_success 5 (by decide) _ hrun⟩

end BankTransactions
