import Mathlib.Data.BitVec
import OsSamples.Lib.CInt
import OsSamples.Native.Everything

/-!
# `bank_deposit_CPUtime.c`: concurrent deposits into one account

The thread function `bank_deposit` with its loop, guarded by `cs_enter` and `cs_leave` of
`everything.h`.  The read of `account_balance` in `deposit_money` and the store of the result are
two steps.  Then the balance that `main` expects, and its check.

Left out because no modelled function reads it: the texts printed under `verbose`, and the times
that `time_init` takes.
-/

namespace BankDeposit

open Everything (EnterPc ThreadPc csEnter csEnterStep csLeave)

/-- `MAX_THREADS`. -/
def MAX_THREADS : ℕ := 1024

/-- The command-line options, within the bound that `eval_args` checks (for the threads) and the
    one beyond which `++i` overflows (for the transactions). -/
structure Options where
  threadCount : ℕ
  bankTransactionsPerThread : BitVec 32
  bankTransactionAmount : BitVec 64
  bankTransactionFee : BitVec 64
  accountStart : BitVec 64
  threadCount_pos : 1 ≤ threadCount
  threadCount_le : threadCount ≤ MAX_THREADS
  transactions_le : (bankTransactionsPerThread.toNat : ℤ) ≤ CInt.INT_MAX

/-- What the threads share: the lock, the balance, and how many have arrived at the barrier. -/
structure Shared (P T : Type*) where
  env : Env P T
  accountBalance : BitVec 64
  arrived : ℕ

/-- Where a thread is in `bank_deposit`. -/
inductive Pc
  -- before `pthread_barrier_wait`, and blocked in it
  | barrier
  | waiting
  -- before the condition of the `for` loop
  | test
  | entering (pc : EnterPc)
  -- before the read of `account_balance` in `deposit_money`
  | load
  -- before the store of what `deposit_money` returned
  | store (value : BitVec 64)
  | leaving
  -- before `++i`
  | incr
  | finished
  deriving DecidableEq

/-- A thread's own state: the variable `i` of `bank_deposit` and where the thread is. -/
structure Local where
  i : BitVec 32
  pc : Pc
  deriving DecidableEq

/-- `deposit_money(value)` when it reads `accountBalance`. -/
def depositMoney (opts : Options) (accountBalance value : BitVec 64) : BitVec 64 :=
  accountBalance + value - opts.bankTransactionFee

variable {P T : Type*} [DecidableEq P] [DecidableEq T]

/-- The next step of `bank_deposit` in thread `tid` of process `p`, when no OS call fails; `none`
    where it blocks and at its end. -/
def bankDeposit (opts : Options) (busyWaitYields : Bool) (p : P) (tid : T) (_ : Unit)
    (s : Shared P T) (l : Local) : Option (Option Empty × Shared P T × Local) :=
  match l.pc with
  | .barrier => some (none, { s with arrived := s.arrived + 1 }, { l with pc := .waiting })
  | .waiting => if s.arrived < opts.threadCount then none else some (none, s, ⟨0, .test⟩)
  | .test =>
    -- `i` is converted to `unsigned int` for the comparison
    if l.i < opts.bankTransactionsPerThread then
      some (none, s, { l with pc := .entering (csEnter s.env) })
    else some (none, s, { l with pc := .finished })
  | .entering (.ret _) => some (none, s, { l with pc := .load })
  | .entering pc =>
    (csEnterStep busyWaitYields p tid false s.env pc).map fun r =>
      (none, { s with env := r.1 }, { l with pc := .entering r.2 })
  | .load =>
    some (none, s,
      { l with pc := .store (depositMoney opts s.accountBalance opts.bankTransactionAmount) })
  | .store value => some (none, { s with accountBalance := value }, { l with pc := .leaving })
  | .leaving =>
    (csLeave p tid false s.env).map fun r => (none, { s with env := r.2 }, { l with pc := .incr })
  | .incr => some (none, s, ⟨l.i + 1, .test⟩)
  | .finished => none

/-- The threads of process `p`. -/
def machine (opts : Options) (busyWaitYields : Bool) (p : P) :
    Machine (Config T (Shared P T) Local) (T × Unit) Empty :=
  Threads.machine (bankDeposit opts busyWaitYields p)

/-- The threads have been created and have not yet taken a step; `i` is not initialised then. -/
def created (opts : Options) (env : Env P T) (i : T → BitVec 32) :
    Config T (Shared P T) Local :=
  ⟨⟨env, opts.accountStart, 0⟩, fun tid => ⟨i tid, .barrier⟩⟩

/-- The part of the program that the lock sees. -/
def Pc.toThread : Pc → ThreadPc
  | .barrier | .waiting | .test | .incr | .finished => .outside
  | .entering pc => .entering pc
  | .load | .store _ => .inside
  | .leaving => .leaving

/-- The thread is in the critical section: `cs_enter` has returned and the call of `cs_leave` is
    not done. -/
def Pc.inside : Pc → Bool
  | .load | .store _ | .leaving => true
  | .barrier | .waiting | .test | .entering _ | .incr | .finished => false

/-- The transactions that the thread has completed: iterations whose `cs_leave` has returned. -/
def Local.completed (l : Local) : ℕ :=
  match l.pc with
  | .barrier | .waiting => 0
  | .test | .entering _ | .load | .store _ | .leaving | .finished => l.i.toNat
  | .incr => l.i.toNat + 1

/-! ## The check of `main` -/

/-- The variable `expected` of `main`.  The counts are `unsigned int`, so their product wraps
    around; the rest is computed in `long long`, and undefined where that overflows. -/
def expected (opts : Options) : Option ℤ := do
  let count := CInt.toUInt32 (opts.threadCount * opts.bankTransactionsPerThread.toNat)
  let net ← CInt.llong (opts.bankTransactionAmount.toInt - opts.bankTransactionFee.toInt)
  let sum ← CInt.llong (count * net)
  CInt.llong (opts.accountStart.toInt + sum)

/-- How `main` ends. -/
inductive CheckResult
  | success
  -- `ERROR IN TRANSACTIONS! Balance: …, expected: …`
  | errorInTransactions (balance expected : ℤ)
  deriving DecidableEq

/-- The comparison of `account_balance` with `expected`. -/
def check (opts : Options) (accountBalance : BitVec 64) : Option CheckResult :=
  (expected opts).map fun expected =>
    if accountBalance.toInt ≠ expected then .errorInTransactions accountBalance.toInt expected
    else .success

end BankDeposit
