import OsSamples.Lib.CInt
import OsSamples.Lib.Monitor
import OsSamples.Lib.Threads

/-!
# `TransactionsMonitor.cs`: withdrawals under a monitor

Any number of threads that run `DoTransactions` over one `Account`.  `Withdraw` is cut into atomic
steps: each access to `balance`, each line on the console and both ends of the `lock` block are one
step, and the first test of `balance` comes before the lock.  The environment chooses the amounts,
any values of `int` that are not negative; the number of transactions of a thread, 100 in the
source, is a parameter.

Left out: `Main`, which makes the account and starts the threads, and the state of `Random`.
-/

namespace TransactionsMonitor

open CInt

/-- What the threads share. -/
structure Account (T : Type*) where
  thisLock : Monitor T
  balance : ℤ

/-- Where a thread is. -/
inductive Pc
  -- before the condition of the `for` loop
  | loop
  -- before `r.Next`
  | draw
  -- before `balance < 0`, which is outside of the lock
  | guard
  -- after the exception
  | thrown
  | lock
  -- before `balance >= amount`
  | test
  | printBefore
  | printAmount
  -- before the read and before the write in `balance = balance - amount`
  | load
  | store (value : ℤ)
  | printAfter
  -- at the end of the `lock` block, with the value that is returned
  | unlock (result : ℤ)
  | done
  deriving DecidableEq

/-- A thread's own state. -/
structure Local where
  i : ℤ
  amount : ℤ
  pc : Pc
  deriving DecidableEq

/-- What is visible of a step: a line on the console, or the end of a call of `Withdraw`. -/
inductive Event
  | writeLine (line : String)
  | returned (amount : ℤ)
  deriving DecidableEq

variable {T : Type*} [DecidableEq T]

/-- `Withdraw(amount)`; then comes the `for` loop again. -/
def withdraw (t : T) (s : Account T) (l : Local) : Option (Option Event × Account T × Local) :=
  match l.pc with
  | .guard => some (none, s, { l with pc := if s.balance < 0 then .thrown else .lock })
  | .lock => (s.thisLock.enter t).map fun m =>
      (none, { s with thisLock := m }, { l with pc := .test })
  | .test =>
    some (none, s, { l with pc := if s.balance ≥ l.amount then .printBefore else .unlock 0 })
  | .printBefore =>
    some (some (.writeLine ("Balance before Withdrawal:  " ++ toString s.balance)), s,
      { l with pc := .printAmount })
  | .printAmount =>
    some (some (.writeLine ("Amount to Withdraw:        -" ++ toString l.amount)), s,
      { l with pc := .load })
  | .load => some (none, s, { l with pc := .store (toInt32 (s.balance - l.amount)) })
  | .store value => some (none, { s with balance := value }, { l with pc := .printAfter })
  | .printAfter =>
    some (some (.writeLine ("Balance after Withdrawal:   " ++ toString s.balance)), s,
      { l with pc := .unlock l.amount })
  | .unlock result => (s.thisLock.exit t).map fun m =>
      (some (.returned result), { s with thisLock := m },
        { l with i := toInt32 (l.i + 1), pc := .loop })
  | _ => none

/-- `DoTransactions`; `next` is what `r.Next` returns, if it is called in this step. -/
def doTransactions (transactions : ℤ) (t : T) (next : ℤ) (s : Account T) (l : Local) :
    Option (Option Event × Account T × Local) :=
  match l.pc with
  | .loop => some (none, s, { l with pc := if l.i < transactions then .draw else .done })
  | .draw =>
    if 0 ≤ next ∧ next ≤ INT_MAX then some (none, s, { l with amount := next, pc := .guard })
    else none
  | _ => withdraw t s l

/-- The program: any thread takes its next step. -/
def machine (transactions : ℤ) : Machine (Config T (Account T) Local) (T × ℤ) Event :=
  Threads.machine (doTransactions transactions)

/-- All threads are about to start. -/
def start (T : Type*) (initial : ℤ) : Config T (Account T) Local :=
  ⟨⟨.unused T, initial⟩, fun _ => ⟨0, 0, .loop⟩⟩

end TransactionsMonitor
