import Mathlib.Tactic.Common
import OsSamples.Native.TransactionsMonitor

/-!
# No withdrawal is lost, and the balance is never negative

Only the thread inside of the lock changes the balance, and it does so by one write, of a value that
is not negative; so the first test of `Withdraw`, outside of the lock, never finds anything else.

## Key results

- `step_cases`: what a step can do, one constructor of `Step` for each kind
- `Inv.step`: the balance, what has been returned, and what the thread inside still has to return
- `balance_correct`: all runs
-/

namespace TransactionsMonitor

open CInt
open Threads (Exclusive)

variable {T : Type*} [DecidableEq T] {initial transactions next : ℤ} {s s' : Account T}
  {l l' : Local} {loc : T → Local} {t : T} {e : Option Event} {tr : List Event}

/-! ## What a step can do -/

/-- The thread is in the `lock` block. -/
def Local.inside (l : Local) : Bool :=
  match l.pc with
  | .test | .printBefore | .printAmount | .load | .store _ | .printAfter | .unlock _ => true
  | .loop | .draw | .guard | .thrown | .lock | .done => false

/-- The kinds of steps of the thread `t`. -/
inductive Step (t : T) (s : Account T) (l : Local) : Option Event → Account T → Local → Prop
  | outside {l' : Local} (hl : l.inside = false) (hl' : l'.inside = false)
      (hamount : 0 ≤ l.amount → 0 ≤ l'.amount) (hthrown : 0 ≤ s.balance → l'.pc ≠ .thrown) :
      Step t s l none s l'
  | enter (hpc : l.pc = .lock) (howner : s.thisLock.owner = none) :
      Step t s l none { s with thisLock := { s.thisLock with owner := some t } }
        { l with pc := .test }
  | test (hpc : l.pc = .test) (hle : l.amount ≤ s.balance) :
      Step t s l none s { l with pc := .printBefore }
  | reject (hpc : l.pc = .test) : Step t s l none s { l with pc := .unlock 0 }
  | printBefore (line : String) (hpc : l.pc = .printBefore) :
      Step t s l (some (.writeLine line)) s { l with pc := .printAmount }
  | printAmount (line : String) (hpc : l.pc = .printAmount) :
      Step t s l (some (.writeLine line)) s { l with pc := .load }
  | load (hpc : l.pc = .load) :
      Step t s l none s { l with pc := .store (toInt32 (s.balance - l.amount)) }
  | store {value : ℤ} (hpc : l.pc = .store value) :
      Step t s l none { s with balance := value } { l with pc := .printAfter }
  | printAfter (line : String) (hpc : l.pc = .printAfter) :
      Step t s l (some (.writeLine line)) s { l with pc := .unlock l.amount }
  | unlock {result i : ℤ} (hpc : l.pc = .unlock result) (howner : s.thisLock.owner = some t) :
      Step t s l (some (.returned result))
        { s with thisLock := { s.thisLock with owner := none } } { l with i := i, pc := .loop }

/-- Every step of `Withdraw` is of one of the kinds. -/
theorem withdraw_cases (hs : withdraw t s l = some (e, s', l')) : Step t s l e s' l' := by
  have hout : ∀ pc, l.pc = pc → l.inside = ({ l with pc := pc } : Local).inside := by
    rintro _ rfl
    rfl
  cases hpc : l.pc <;> simp only [withdraw, hpc, Option.map_eq_some_iff, Option.some.injEq,
    Prod.mk.injEq, reduceCtorEq] at hs
  -- a negative balance throws an exception
  case guard =>
    obtain ⟨rfl, rfl, rfl⟩ := hs
    refine .outside (hout _ hpc) ?_ id fun h0 => ?_
    · split <;> rfl
    · rw [if_neg (by omega)]
      exact nofun
  -- `lock` gives no step while another thread has the lock
  case lock =>
    obtain ⟨m, hm, rfl, rfl, rfl⟩ := hs
    obtain ⟨howner, rfl⟩ := Monitor.enter_cases hm
    exact .enter hpc howner
  case test =>
    -- what is drawn is taken only if there is enough
    obtain ⟨rfl, rfl, rfl⟩ := hs
    split
    · exact .test hpc ‹_›
    · exact .reject hpc
  case unlock result =>
    obtain ⟨m, hm, rfl, rfl, rfl⟩ := hs
    obtain ⟨howner, rfl⟩ := Monitor.exit_cases hm
    exact .unlock hpc howner
  all_goals obtain ⟨rfl, rfl, rfl⟩ := hs
  case printBefore => exact .printBefore _ hpc
  case printAmount => exact .printAmount _ hpc
  case load => exact .load hpc
  case store => exact .store hpc
  case printAfter => exact .printAfter _ hpc

/-- Every step is of one of the kinds. -/
theorem step_cases (hs : doTransactions transactions t next s l = some (e, s', l')) :
    Step t s l e s' l' := by
  unfold doTransactions at hs
  split at hs
  · rename_i hpc
    obtain ⟨rfl, rfl, rfl⟩ := by
      simpa only [Option.some.injEq, Prod.mk.injEq] using hs
    refine .outside (by simp [Local.inside, hpc]) ?_ id fun _ => ?_
    · split <;> rfl
    · split <;> exact nofun
  · rename_i hpc
    rw [Option.ite_none_right_eq_some] at hs
    obtain ⟨⟨hnext, -⟩, hs⟩ := hs
    obtain ⟨rfl, rfl, rfl⟩ := by
      simpa only [Option.some.injEq, Prod.mk.injEq] using hs
    exact .outside (by simp [Local.inside, hpc]) rfl (fun _ => hnext) fun _ => nofun
  · exact withdraw_cases hs

/-! ## The balance -/

/-- The sum of the amounts that have been returned. -/
def returned (tr : List Event) : ℤ :=
  (tr.map fun
    | .returned amount => amount
    | .writeLine _ => 0).sum

@[simp] theorem returned_writeLine (tr : List Event) (line : String) :
    returned (tr ++ [.writeLine line]) = returned tr := by
  simp [returned]

@[simp] theorem returned_returned (tr : List Event) (amount : ℤ) :
    returned (tr ++ [.returned amount]) = returned tr + amount := by
  simp [returned]

/-- What a thread inside of the lock knows of the balance, when `sum` has been returned so far. -/
def Local.Knows (initial balance sum : ℤ) (l : Local) : Prop :=
  match l.pc with
  | .test => balance + sum = initial
  | .printBefore | .printAmount | .load => balance + sum = initial ∧ l.amount ≤ balance
  | .store value => balance + sum = initial ∧ l.amount ≤ balance ∧ value = balance - l.amount
  | .printAfter => balance + l.amount + sum = initial
  | .unlock result => balance + result + sum = initial
  | .loop | .draw | .guard | .thrown | .lock | .done => True

/-- Outside of the lock a thread knows nothing. -/
theorem Local.knows_of_outside {balance sum : ℤ} (h : l.inside = false) :
    l.Knows initial balance sum := by
  unfold Local.inside at h
  unfold Local.Knows
  cases hpc : l.pc <;> rw [hpc] at h <;> trivial

/-- The balance, the lock, and what each thread knows. -/
structure Inv (initial : ℤ) (tr : List Event) (s : Account T) (loc : T → Local) : Prop where
  nonneg : 0 ≤ s.balance
  le : s.balance ≤ initial
  lock : Exclusive Local.inside s.thisLock.owner loc
  free : s.thisLock.owner = none → s.balance + returned tr = initial
  knows : ∀ t, (loc t).Knows initial s.balance (returned tr)
  amount : ∀ t, 0 ≤ (loc t).amount
  notThrown : ∀ t, (loc t).pc ≠ .thrown

omit [DecidableEq T] in
/-- A thread is inside, with the lock. -/
theorem Inv.owner (h : Inv initial tr s loc) (hl : (loc t).inside = true) :
    s.thisLock.owner = some t := (h.lock t).mpr hl

/-- A step inside of the lock. -/
theorem Inv.within (h : Inv initial tr s loc) (hl : (loc t).inside = true)
    (hl' : l'.inside = true) (hlock : s'.thisLock = s.thisLock) (hnonneg : 0 ≤ s'.balance)
    (hle : s'.balance ≤ initial) (hknows : l'.Knows initial s'.balance (returned (tr ++ e.toList)))
    (hamount : l'.amount = (loc t).amount) :
    Inv initial (tr ++ e.toList) s' (Function.update loc t l') where
  nonneg := hnonneg
  le := hle
  lock := by
    rw [hlock]
    exact h.lock.stay (hl'.trans hl.symm)
  free := by
    intro hnone
    rw [hlock, h.owner hl] at hnone
    exact nomatch hnone
  knows := by
    apply (Function.forall_update_iff loc fun _ l => l.Knows _ _ _).mpr
    -- the other threads are outside
    exact ⟨hknows, fun u hu =>
      Local.knows_of_outside (h.lock.outside (.inr ⟨t, Ne.symm hu, hl⟩))⟩
  amount := by
    apply (Function.forall_update_iff loc fun _ l => 0 ≤ l.amount).mpr
    exact ⟨hamount ▸ h.amount t, fun u _ => h.amount u⟩
  notThrown := by
    apply (Function.forall_update_iff loc fun _ l => l.pc ≠ .thrown).mpr
    refine ⟨fun hpc => ?_, fun u _ => h.notThrown u⟩
    unfold Local.inside at hl'
    rw [hpc] at hl'
    exact nomatch hl'

/-- A step outside of the lock. -/
theorem Inv.outside (h : Inv initial tr s loc) (hl : (loc t).inside = false)
    (hl' : l'.inside = false) (hamount : 0 ≤ l'.amount) (hthrown : l'.pc ≠ .thrown) :
    Inv initial tr s (Function.update loc t l') where
  nonneg := h.nonneg
  le := h.le
  lock := h.lock.stay (hl'.trans hl.symm)
  free := h.free
  knows := (Function.forall_update_iff loc fun _ l => l.Knows _ _ _).mpr
    ⟨Local.knows_of_outside hl', fun u _ => h.knows u⟩
  amount := (Function.forall_update_iff loc fun _ l => 0 ≤ l.amount).mpr
    ⟨hamount, fun u _ => h.amount u⟩
  notThrown := (Function.forall_update_iff loc fun _ l => l.pc ≠ .thrown).mpr
    ⟨hthrown, fun u _ => h.notThrown u⟩

/-- A thread takes the lock. -/
theorem Inv.enter (h : Inv initial tr s loc) (howner : s.thisLock.owner = none) :
    Inv initial tr { s with thisLock := { s.thisLock with owner := some t } }
      (Function.update loc t { loc t with pc := .test }) where
  nonneg := h.nonneg
  le := h.le
  lock := Exclusive.enter (howner ▸ h.lock) rfl
  free := nofun
  knows := (Function.forall_update_iff loc fun _ l => l.Knows _ _ _).mpr
    ⟨h.free howner, fun u _ => h.knows u⟩
  amount := (Function.forall_update_iff loc fun _ l => 0 ≤ l.amount).mpr
    ⟨h.amount t, fun u _ => h.amount u⟩
  notThrown := (Function.forall_update_iff loc fun _ l => l.pc ≠ .thrown).mpr
    ⟨nofun, fun u _ => h.notThrown u⟩

/-- A thread returns an amount, at the end of the `lock` block. -/
theorem Inv.unlock (h : Inv initial tr s loc) {result i : ℤ} (hpc : (loc t).pc = .unlock result)
    (howner : s.thisLock.owner = some t) :
    Inv initial (tr ++ [.returned result]) { s with thisLock := { s.thisLock with owner := none } }
      (Function.update loc t { loc t with i := i, pc := .loop }) where
  nonneg := h.nonneg
  le := h.le
  lock := Exclusive.exit (howner ▸ h.lock) rfl
  free := by
    -- what the thread has taken is returned now, so that nothing is on its way
    intro _
    have hknows := h.knows t
    simp only [Local.Knows, hpc] at hknows
    rw [returned_returned]
    show s.balance + (returned tr + result) = initial
    omega
  knows := by
    apply (Function.forall_update_iff loc fun _ l => l.Knows _ _ _).mpr
    -- no other thread is inside, so that nobody else knows anything
    exact ⟨trivial, fun u hu => Local.knows_of_outside
      (h.lock.outside (.inr ⟨t, Ne.symm hu, (h.lock t).mp howner⟩))⟩
  amount := (Function.forall_update_iff loc fun _ l => 0 ≤ l.amount).mpr
    ⟨h.amount t, fun u _ => h.amount u⟩
  notThrown := (Function.forall_update_iff loc fun _ l => l.pc ≠ .thrown).mpr
    ⟨nofun, fun u _ => h.notThrown u⟩

/-- Every step. -/
theorem Inv.step (hmax : initial ≤ INT_MAX) (h : Inv initial tr s loc)
    (hs : Step t s (loc t) e s' l') :
    Inv initial (tr ++ e.toList) s' (Function.update loc t l') := by
  have hsilent : tr ++ (none : Option Event).toList = tr := List.append_nil tr
  have hknows := h.knows t
  have hamount := h.amount t
  have hin : ∀ pc, (loc t).pc = pc → (loc t).inside = ({ loc t with pc := pc } : Local).inside := by
    rintro _ rfl
    rfl
  cases hs with
  | outside hl hl' hamount' hthrown =>
    rw [hsilent]
    exact h.outside hl hl' (hamount' hamount) (hthrown h.nonneg)
  | enter hpc howner =>
    rw [hsilent]
    exact h.enter howner
  | unlock hpc howner => exact h.unlock hpc howner
  | test hpc hle =>
    simp only [Local.Knows, hpc] at hknows
    refine h.within (hin _ hpc) rfl rfl h.nonneg h.le ?_ rfl
    rw [hsilent]
    exact ⟨hknows, hle⟩
  | reject hpc =>
    simp only [Local.Knows, hpc] at hknows
    refine h.within (hin _ hpc) rfl rfl h.nonneg h.le ?_ rfl
    rw [hsilent]
    show s.balance + 0 + returned tr = initial
    omega
  | printBefore line hpc | printAmount line hpc =>
    simp only [Local.Knows, hpc] at hknows
    refine h.within (hin _ hpc) rfl rfl h.nonneg h.le ?_ rfl
    rw [Option.toList_some, returned_writeLine]
    exact hknows
  | load hpc =>
    simp only [Local.Knows, hpc] at hknows
    refine h.within (hin _ hpc) rfl rfl h.nonneg h.le ?_ rfl
    rw [hsilent]
    -- the difference is a value of `int`
    have hle := h.le
    refine ⟨hknows.1, hknows.2, toInt32_of_range ?_ (by omega)⟩
    unfold INT_MIN
    omega
  | @store value hpc =>
    simp only [Local.Knows, hpc] at hknows
    obtain ⟨hsum, hle, hvalue⟩ := hknows
    have hbalance := h.le
    refine h.within (hin _ hpc) rfl rfl ?_ ?_ ?_ rfl
    · show 0 ≤ value
      omega
    · show value ≤ initial
      omega
    · rw [hsilent]
      show value + (loc t).amount + returned tr = initial
      omega
  | printAfter line hpc =>
    simp only [Local.Knows, hpc] at hknows
    refine h.within (hin _ hpc) rfl rfl h.nonneg h.le ?_ rfl
    rw [Option.toList_some, returned_writeLine]
    exact hknows

omit [DecidableEq T] in
theorem start_inv (h0 : 0 ≤ initial) :
    Inv initial [] (start T initial).shared (start T initial).loc where
  nonneg := h0
  le := le_refl initial
  lock := fun _ => ⟨nofun, nofun⟩
  free := fun _ => add_zero initial
  knows := fun _ => trivial
  amount := fun _ => le_refl 0
  notThrown := fun _ => nofun

/-- For every initial balance that is not negative, any threads, any number of transactions and any
    amounts: the balance stays between 0 and the initial balance, the exception is never thrown, and
    while no thread is in the `lock` block, the balance and all the amounts that have been returned
    make up the initial balance. -/
theorem balance_correct (T : Type*) [DecidableEq T] (initial transactions : ℤ) (h0 : 0 ≤ initial)
    (hmax : initial ≤ INT_MAX) (tr : List Event) (cfg : Config T (Account T) Local)
    (h : (machine transactions).Run (start T initial) tr cfg) :
    (0 ≤ cfg.shared.balance ∧ cfg.shared.balance ≤ initial) ∧
      (∀ t, (cfg.loc t).pc ≠ .thrown) ∧
      (cfg.shared.thisLock.owner = none → cfg.shared.balance + returned tr = initial) := by
  have hinv : Inv initial tr cfg.shared cfg.loc := by
    refine h.trace_invariant (I := fun tr cfg => Inv initial tr cfg.shared cfg.loc) ?_
      (start_inv h0)
    intro tr cfg a e cfg' hI hs
    obtain ⟨s', l', hs', rfl⟩ := Threads.machine_step_eq_some.mp hs
    exact hI.step hmax (step_cases hs')
  exact ⟨⟨hinv.nonneg, hinv.le⟩, hinv.notThrown, hinv.free⟩

/-- One of two threads withdraws 99 of 1000, while the other one is about to test the balance. -/
theorem balance_correct_one : ∃ tr cfg,
    (machine (T := Bool) 100).Run (start Bool 1000) tr cfg ∧ (cfg.loc true).pc = .guard ∧
      cfg.shared.balance + returned tr = 1000 := by
  obtain ⟨tr, cfg, hrun, hpc, howner⟩ : ∃ tr cfg,
      (machine (T := Bool) 100).Run (start Bool 1000) tr cfg ∧ (cfg.loc true).pc = .guard ∧
        cfg.shared.thisLock.owner = none :=
    ⟨_, _, .of_exec (M := machine (T := Bool) 100)
      ([(true, 0), (true, 5), (false, 0), (false, 99)] ++ List.replicate 9 (false, 0)) rfl,
      rfl, rfl⟩
  exact ⟨tr, cfg, hrun, hpc,
    (balance_correct Bool 1000 100 (by decide) (by decide) tr cfg hrun).2.2 howner⟩

end TransactionsMonitor
