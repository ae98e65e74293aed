import Mathlib.Tactic.Ring
import OsSamples.Native.BankDeposit
import OsSamples.Spec.EverythingLock

/-!
# No deposit is lost

Seen from the lock, a thread of `bank_deposit` is a thread that alternates `cs_enter` and
`cs_leave`, so at most one thread is between the read and the store of `account_balance`.  The
balance is then the initial one plus the net amount of each store done so far, and a thread
between read and store holds the balance that its store will leave.

## Key results

- `bankDeposit_lock`: a step of `bank_deposit` is a step of the lock's user, or invisible to it
- `bankDeposit_balance`: every step keeps the balance in line with the stores done
- `no_lost_deposit`: the balance after all threads, and between critical sections
-/

namespace BankDeposit

open Everything (EnterPc ThreadPc LockSim LockRep csEnter csEnterStep csLeave lockStep csInit)

variable {P T : Type*} [DecidableEq P] [DecidableEq T] {opts : Options} {busyWaitYields : Bool}
  {m : CsMethod} {p : P} {tid : T} {s s' : Shared P T} {l l' : Local} {loc : T → Local}
  {e : Option Empty}

/-- What one transaction adds to the balance. -/
def Options.net (opts : Options) : BitVec 64 :=
  opts.bankTransactionAmount - opts.bankTransactionFee

/-- The stores that the thread has done. -/
def Local.stored (l : Local) : ℕ :=
  match l.pc with
  | .barrier | .waiting => 0
  | .test | .entering _ | .load | .store _ | .finished => l.i.toNat
  | .leaving | .incr => l.i.toNat + 1

/-- The loop variable at each point of `bank_deposit`. -/
def LoopInv (opts : Options) (l : Local) : Prop :=
  match l.pc with
  | .barrier | .waiting => True
  | .test => l.i.toNat ≤ opts.bankTransactionsPerThread.toNat
  | .entering _ | .load | .store _ | .leaving | .incr =>
    l.i.toNat < opts.bankTransactionsPerThread.toNat
  | .finished => l.i.toNat = opts.bankTransactionsPerThread.toNat

/-- The account, the loops and the values about to be stored. -/
structure BalanceInv (opts : Options) (accountBalance : BitVec 64) (loc : T → Local)
    [Fintype T] : Prop where
  loop : ∀ tid, LoopInv opts (loc tid)
  balance : accountBalance =
    opts.accountStart + (Threads.total Local.stored loc : BitVec 64) * opts.net
  pending : ∀ tid value, (loc tid).pc = .store value → value = accountBalance + opts.net

/-! ## The lock -/

/-- A step of `bank_deposit` is a step of a thread that alternates `cs_enter` and `cs_leave`, or
    leaves the lock and what the lock sees of the thread as they were. -/
theorem bankDeposit_lock
    (hs : bankDeposit opts busyWaitYields p tid () s l = some (e, s', l')) :
    (s'.env = s.env ∧ l'.pc.toThread = l.pc.toThread) ∨
      ∃ e', lockStep busyWaitYields p tid () s.env l.pc.toThread =
        some (e', s'.env, l'.pc.toThread) := by
  cases hpc : l.pc with
  | barrier =>
    simp only [bankDeposit, hpc, Option.some.injEq, Prod.mk.injEq] at hs
    obtain ⟨-, rfl, rfl⟩ := hs
    exact .inl ⟨rfl, rfl⟩
  | waiting =>
    simp only [bankDeposit, hpc, Option.ite_none_left_eq_some, Option.some.injEq,
      Prod.mk.injEq] at hs
    obtain ⟨-, -, rfl, rfl⟩ := hs
    exact .inl ⟨rfl, rfl⟩
  | test =>
    simp only [bankDeposit, hpc] at hs
    -- in the loop the thread begins `cs_enter`; after it, it stays outside
    split at hs <;> simp only [Option.some.injEq, Prod.mk.injEq] at hs <;>
      obtain ⟨-, rfl, rfl⟩ := hs
    · exact .inr ⟨none, rfl⟩
    · exact .inl ⟨rfl, rfl⟩
  | entering pc =>
    -- `cs_enter` returns, or goes on as in `everything.h`
    by_cases hret : ∃ ok, pc = .ret ok
    · obtain ⟨ok, rfl⟩ := hret
      simp only [bankDeposit, hpc, Option.some.injEq, Prod.mk.injEq] at hs
      obtain ⟨-, rfl, rfl⟩ := hs
      exact .inr ⟨none, rfl⟩
    · rw [not_exists] at hret
      simp only [bankDeposit, hpc, Option.map_eq_some_iff, Prod.exists, Prod.mk.injEq] at hs
      obtain ⟨env₁, pc₁, hen, -, rfl, rfl⟩ := hs
      refine .inr ⟨(Everything.enterEvent tid pc₁).bind Everything.CsEvent.toLock, ?_⟩
      simp only [lockStep, Pc.toThread, Everything.threadStep_entering hret, hen, Option.map_some]
  | load =>
    simp only [bankDeposit, hpc, Option.some.injEq, Prod.mk.injEq] at hs
    obtain ⟨-, rfl, rfl⟩ := hs
    exact .inl ⟨rfl, rfl⟩
  | store value =>
    simp only [bankDeposit, hpc, Option.some.injEq, Prod.mk.injEq] at hs
    obtain ⟨-, rfl, rfl⟩ := hs
    -- the store ends the critical section: `cs_leave` is next
    exact .inr ⟨none, rfl⟩
  | leaving =>
    simp only [bankDeposit, hpc, Option.map_eq_some_iff, Prod.exists, Prod.mk.injEq] at hs
    obtain ⟨ok, env₁, hleave, -, rfl, rfl⟩ := hs
    simp only [lockStep, Pc.toThread, Everything.threadStep, hleave, Option.map_some]
    exact .inr ⟨_, rfl⟩
  | incr =>
    simp only [bankDeposit, hpc, Option.some.injEq, Prod.mk.injEq] at hs
    obtain ⟨-, rfl, rfl⟩ := hs
    exact .inl ⟨rfl, rfl⟩
  | finished => simp [bankDeposit, hpc] at hs

/-- The lock as the threads of `bank_deposit` see it. -/
def LockView (m : CsMethod) (p : P) (s : Shared P T) (loc : T → Local) : Prop :=
  ∃ o, LockSim m p ⟨s.env, fun tid => (loc tid).pc.toThread⟩ o

/-- The threads go on agreeing with the lock. -/
theorem LockView.step (hm : m.isLock = true) (h : LockView m p s loc)
    (hs : bankDeposit opts busyWaitYields p tid () s (loc tid) = some (e, s', l')) :
    LockView m p s' (Function.update loc tid l') := by
  obtain ⟨o, hsim⟩ := h
  have hview : (fun j => (Function.update loc tid l' j).pc.toThread) =
      Function.update (fun j => (loc j).pc.toThread) tid l'.pc.toThread := by
    funext j
    by_cases hj : j = tid
    · subst hj; simp
    · simp [hj]
  unfold LockView
  rw [hview]
  rcases bankDeposit_lock hs with ⟨henv, hpc⟩ | ⟨e', hstep⟩
  · rw [henv, hpc]
    exact ⟨o, by simpa using hsim⟩
  · rcases Everything.lockStep_sim hm hsim hstep with ⟨-, h'⟩ | ⟨-, -, h'⟩ | ⟨-, -, h'⟩
    · exact ⟨_, h'⟩
    · exact ⟨_, h'⟩
    · exact ⟨_, h'⟩

omit [DecidableEq P] [DecidableEq T] in
/-- Two threads between the read and the store of the balance are the same. -/
theorem LockView.inside_unique (h : LockView m p s loc) {i j : T}
    (hi : (loc i).pc.toThread = .inside) (hj : (loc j).pc.toThread = .inside) : i = j := by
  obtain ⟨o, hsim⟩ := h
  have ho := (hsim.holder i).mp (by simp only [hi]; rfl)
  have ho' := (hsim.holder j).mp (by simp only [hj]; rfl)
  exact Option.some.inj (ho.symm.trans ho')

/-! ## The account -/

/-- `deposit_money(bank_transaction_amount)` adds the net amount. -/
theorem depositMoney_eq (opts : Options) (accountBalance : BitVec 64) :
    depositMoney opts accountBalance opts.bankTransactionAmount = accountBalance + opts.net := by
  unfold depositMoney Options.net
  ring

/-- `++i` does not overflow in the loop. -/
theorem toNat_incr {i : BitVec 32} (h : i.toNat < opts.bankTransactionsPerThread.toNat) :
    (i + 1).toNat = i.toNat + 1 := by
  have hle := opts.transactions_le
  unfold CInt.INT_MAX at hle
  rw [BitVec.toNat_add, show (1 : BitVec 32).toNat = 1 from rfl]
  omega

/-- What a step of `bank_deposit` does to the balance, to the loop and to the stores done: it
    leaves the balance and the stores as they are, or stores a value it computed. -/
theorem bankDeposit_cases (hloop : LoopInv opts l)
    (hs : bankDeposit opts busyWaitYields p tid () s l = some (e, s', l')) :
    LoopInv opts l' ∧
      ((s'.accountBalance = s.accountBalance ∧ l'.stored = l.stored ∧
          ∀ value, l'.pc = .store value → value = s.accountBalance + opts.net) ∨
        (∃ value, l.pc = .store value ∧ s'.accountBalance = value ∧
          l'.stored = l.stored + 1 ∧ l'.pc = .leaving)) := by
  cases hpc : l.pc with
  | barrier =>
    simp only [bankDeposit, hpc, Option.some.injEq, Prod.mk.injEq] at hs
    obtain ⟨-, rfl, rfl⟩ := hs
    exact ⟨trivial, .inl ⟨rfl, by simp only [Local.stored, hpc], nofun⟩⟩
  | waiting =>
    simp only [bankDeposit, hpc, Option.ite_none_left_eq_some, Option.some.injEq,
      Prod.mk.injEq] at hs
    obtain ⟨-, -, rfl, rfl⟩ := hs
    exact ⟨Nat.zero_le _, .inl ⟨rfl, by simp [Local.stored, hpc], nofun⟩⟩
  | test =>
    simp only [LoopInv, hpc] at hloop
    simp only [bankDeposit, hpc] at hs
    split at hs <;> rename_i hlt <;> simp only [Option.some.injEq, Prod.mk.injEq] at hs <;>
      obtain ⟨-, rfl, rfl⟩ := hs <;> rw [BitVec.lt_def] at hlt
    · exact ⟨hlt, .inl ⟨rfl, by simp only [Local.stored, hpc], nofun⟩⟩
    · -- the loop ends at exactly the number of transactions
      refine ⟨?_, .inl ⟨rfl, by simp only [Local.stored, hpc], nofun⟩⟩
      show l.i.toNat = opts.bankTransactionsPerThread.toNat
      omega
  | entering pc =>
    simp only [LoopInv, hpc] at hloop
    simp only [bankDeposit, hpc] at hs
    split at hs
    case h_4 =>
      simp only [Option.some.injEq, Prod.mk.injEq] at hs
      obtain ⟨-, rfl, rfl⟩ := hs
      exact ⟨hloop, .inl ⟨rfl, by simp only [Local.stored, hpc], nofun⟩⟩
    case h_5 =>
      simp only [Option.map_eq_some_iff, Prod.mk.injEq] at hs
      obtain ⟨r, -, -, rfl, rfl⟩ := hs
      exact ⟨hloop, .inl ⟨rfl, by simp only [Local.stored, hpc], nofun⟩⟩
    all_goals simp_all
  | load =>
    simp only [LoopInv, hpc] at hloop
    simp only [bankDeposit, hpc, Option.some.injEq, Prod.mk.injEq] at hs
    obtain ⟨-, rfl, rfl⟩ := hs
    -- the value to be stored is that of the balance now
    refine ⟨hloop, .inl ⟨rfl, by simp only [Local.stored, hpc], ?_⟩⟩
    intro value hv
    rw [← Pc.store.inj hv, depositMoney_eq]
  | store value =>
    simp only [LoopInv, hpc] at hloop
    simp only [bankDeposit, hpc, Option.some.injEq, Prod.mk.injEq] at hs
    obtain ⟨-, rfl, rfl⟩ := hs
    exact ⟨hloop, .inr ⟨value, rfl, rfl, by simp only [Local.stored, hpc], rfl⟩⟩
  | leaving =>
    simp only [LoopInv, hpc] at hloop
    simp only [bankDeposit, hpc, Option.map_eq_some_iff, Prod.mk.injEq] at hs
    obtain ⟨r, -, -, rfl, rfl⟩ := hs
    exact ⟨hloop, .inl ⟨rfl, by simp only [Local.stored, hpc], nofun⟩⟩
  | incr =>
    simp only [LoopInv, hpc] at hloop
    simp only [bankDeposit, hpc, Option.some.injEq, Prod.mk.injEq] at hs
    obtain ⟨-, rfl, rfl⟩ := hs
    -- below the bound `i++` does not wrap around
    have hi := toNat_incr hloop
    refine ⟨?_, .inl ⟨rfl, by simp only [Local.stored, hpc, hi], nofun⟩⟩
    show (l.i + 1).toNat ≤ opts.bankTransactionsPerThread.toNat
    omega
  | finished => simp [bankDeposit, hpc] at hs

variable [Fintype T]

/-- Every step of `bank_deposit` keeps the balance in line with the stores done. -/
theorem bankDeposit_balance (hlock : LockView m p s loc)
    (h : BalanceInv opts s.accountBalance loc)
    (hs : bankDeposit opts busyWaitYields p tid () s (loc tid) = some (e, s', l')) :
    BalanceInv opts s'.accountBalance (Function.update loc tid l') := by
  have htotal := Threads.total_update Local.stored loc tid l'
  obtain ⟨hloop', hcase⟩ := bankDeposit_cases (h.loop tid) hs
  have hloop : ∀ j, LoopInv opts (Function.update loc tid l' j) := by
    intro j
    by_cases hj : j = tid
    · subst hj; simpa using hloop'
    · simpa [hj] using h.loop j
  rcases hcase with ⟨hbal, hstored, hval⟩ | ⟨value, hpc, hbal, hstored, hpc'⟩
  · -- the balance is left alone, so what the other threads are about to store is still right
    refine ⟨hloop, ?_, ?_⟩
    · have heq : Threads.total Local.stored (Function.update loc tid l') =
          Threads.total Local.stored loc := by omega
      rw [hbal, heq, h.balance]
    · intro j v hv
      rw [hbal]
      by_cases hj : j = tid
      · subst hj
        exact hval v (by simpa using hv)
      · exact h.pending j v (by simpa [hj] using hv)
  · -- the store: no other thread is between its read and its store
    have hvalue := h.pending tid value hpc
    refine ⟨hloop, ?_, ?_⟩
    · have heq : Threads.total Local.stored (Function.update loc tid l') =
          Threads.total Local.stored loc + 1 := by omega
      rw [hbal, hvalue, heq, h.balance, Nat.cast_succ, add_mul, one_mul, add_assoc]
    · intro j v hv
      by_cases hj : j = tid
      · subst hj
        simp [hpc'] at hv
      · have hvj : (loc j).pc = .store v := by simpa [hj] using hv
        have hjt := hlock.inside_unique (i := j) (j := tid) (by rw [hvj]; rfl) (by rw [hpc]; rfl)
        exact absurd hjt hj

/-- In every reachable state the balance is in line with the stores done. -/
theorem machine_reachable_balance {env : Env P T} {i₀ : T → BitVec 32}
    {cfg : Config T (Shared P T) Local} (hm : m.isLock = true) (hrep : LockRep m p env none)
    (h : (machine opts busyWaitYields p).Reachable (created opts env i₀) cfg) :
    BalanceInv opts cfg.shared.accountBalance cfg.loc := by
  have key : LockView m p cfg.shared cfg.loc ∧
      BalanceInv opts cfg.shared.accountBalance cfg.loc := by
    refine Threads.reachable_invariant (I := fun s loc =>
      LockView m p s loc ∧ BalanceInv opts s.accountBalance loc) ?_ h ?_
    · intro tid c s loc e s' l' ⟨hlock, hbal⟩ hs
      exact ⟨hlock.step hm hs, bankDeposit_balance hlock hbal hs⟩
    · refine ⟨⟨none, LockSim.allOutside hrep⟩, fun _ => trivial, ?_, nofun⟩
      have hzero : Threads.total Local.stored (created opts env i₀).loc = 0 := by
        rw [Threads.total_eq_zero]
        exact fun _ => rfl
      rw [hzero]
      simp [created]
  exact key.2

omit [DecidableEq T] in
/-- With no thread in a critical section the stores done are the transactions completed. -/
theorem total_stored_eq_completed (h : ∀ tid, (loc tid).pc.inside = false) :
    Threads.total Local.stored loc = Threads.total Local.completed loc := by
  unfold Threads.total
  apply Finset.sum_congr rfl
  intro tid _
  have hin := h tid
  cases hpc : (loc tid).pc <;> simp [Local.stored, Local.completed, hpc, Pc.inside] at hin ⊢

/-- The balance when all threads have finished. -/
theorem BalanceInv.finished {accountBalance : BitVec 64} {loc : Fin opts.threadCount → Local}
    (hinv : BalanceInv opts accountBalance loc) (hfin : ∀ tid, (loc tid).pc = .finished) :
    accountBalance = opts.accountStart +
      (opts.threadCount : BitVec 64) * (opts.bankTransactionsPerThread.toNat : BitVec 64) *
        (opts.bankTransactionAmount - opts.bankTransactionFee) := by
  have hall : ∀ tid, (loc tid).stored = opts.bankTransactionsPerThread.toNat := by
    intro tid
    have hloop := hinv.loop tid
    simp only [LoopInv, hfin tid] at hloop
    simpa only [Local.stored, hfin tid] using hloop
  rw [hinv.balance, Threads.total_const hall, Fintype.card_fin, Nat.cast_mul]
  rfl

/-! ## Main result -/

/-- After a successful `cs_init(m)` of a locking method, when all threads of `bank_deposit` have
    finished the balance is the initial one plus the net amount of all transactions, and whenever
    no thread is in the critical section it is the initial one plus the net amount of the
    transactions completed. -/
theorem no_lost_deposit (m : CsMethod) (hm : m.isLock = true) (opts : Options)
    (busyWaitYields : Bool) (p : P) (env₀ env : Env P (Fin opts.threadCount))
    (hinit : (csInit m.toInt p).Reachable (.start, env₀) (.done, env))
    (i₀ : Fin opts.threadCount → BitVec 32)
    (cfg : Config (Fin opts.threadCount) (Shared P (Fin opts.threadCount)) Local)
    (hreach : (machine opts busyWaitYields p).Reachable (created opts env i₀) cfg) :
    ((∀ tid, (cfg.loc tid).pc = .finished) →
      cfg.shared.accountBalance = opts.accountStart +
        (opts.threadCount : BitVec 64) * (opts.bankTransactionsPerThread.toNat : BitVec 64) *
          (opts.bankTransactionAmount - opts.bankTransactionFee)) ∧
    ((∀ tid, (cfg.loc tid).pc.inside = false) →
      cfg.shared.accountBalance = opts.accountStart +
        (Threads.total Local.completed cfg.loc : BitVec 64) *
          (opts.bankTransactionAmount - opts.bankTransactionFee)) := by
  have hinv := machine_reachable_balance hm (Everything.csInit_lockRep hm hinit) hreach
  constructor
  · exact hinv.finished
  · intro hout
    rw [hinv.balance, total_stored_eq_completed hout]
    rfl

/-- The default amounts, with two threads and one transaction each. -/
def twoDeposits : Options :=
  ⟨2, 1, 101, 1, 1, by decide, by decide, by decide⟩

/-- Two threads over `CS_METHOD_XCHG`; the second one finds the lock held before it gets in. -/
theorem no_lost_deposit_two :
    ∃ cfg, (machine twoDeposits false ()).Reachable (created (T := Fin 2) twoDeposits
      ⟨{ CsVars.static (Fin 2) with csMethodUsed := 2, csVarAllocated := true }, .empty⟩
      fun _ => 0) cfg ∧ cfg.shared.accountBalance = 1 + 2 * 1 * (101 - 1) := by
  have hrun := Machine.Reachable.of_exec (M := machine (T := Fin 2) twoDeposits false ())
    (s := created twoDeposits
      ⟨{ CsVars.static (Fin 2) with csMethodUsed := 2, csVarAllocated := true }, .empty⟩
      fun _ => 0)
    ([0, 1, 0, 1, 0, 1, 0, 0, 1, 0, 0, 0, 0, 0, 1, 1, 1, 1, 1, 1, 1].map fun tid => (tid, ())) rfl
  exact ⟨_, hrun, (no_lost_deposit .xchg rfl twoDeposits false () ⟨.static (Fin 2), .empty⟩ _
    (.of_exec [(false, 0)] rfl) _ _ hrun).1 (by decide)⟩

end BankDeposit
