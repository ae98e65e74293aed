import Mathlib.Logic.Function.Basic
import OsSamples.Lib.CInt
import OsSamples.Lib.Machine

/-!
# `bank_withdrawal.c`: concurrent withdrawals from one account

`main` and the threads that run `do_withdrawals` with `withdraw`, without a critical section, as the
source has them.  The test of `balance`, the read and the later write in `balance -= amount` and the
last look at it are a step each.  The drawn amounts are choices, and the three constants of the
source are parameters; `INITIAL_AMOUNT` and `MAX_WITHDRAW` are not negative.

An operation on `int` whose result does not fit is undefined: no step is possible there.

Left out: what is printed before the first thread has ended, or with a larger `verbose`.
-/

namespace BankWithdrawal

open CInt

def EXIT_SUCCESS : ℤ := 0
def EXIT_FAILURE : ℤ := 1

/-- The result of an operation on `int`. -/
def result (n : ℤ) : Option ℤ := if INT_MIN ≤ n ∧ n ≤ INT_MAX then some n else none

/-- Where a thread is. -/
inductive Pc
  | notCreated
  -- before the condition of the `for` loop
  | loop (finished : Bool)
  -- before `if (balance < amount)`
  | test
  -- before the read and before the write in `balance -= amount`
  | load
  | store (reg : ℤ)
  -- before `withdrawn[id] += amount`
  | add
  -- before `finished = balance <= 0`
  | look
  | ended
  deriving DecidableEq

/-- A thread's own variables, with its entry of `withdrawn`. -/
structure Local where
  pc : Pc
  i : ℕ
  amount : ℤ
  withdrawn : ℤ
  deriving DecidableEq

/-- The next step of `do_withdrawals`, where the loop has `rounds` rounds at most: the balance and
    the thread afterwards.  `draw` is what `rand` makes of `MAX_WITHDRAW`, a smaller number or 0. -/
def doWithdrawals (MAX_WITHDRAW rounds draw : ℕ) (balance : ℤ) (l : Local) : Option (ℤ × Local) :=
  match l.pc with
  | .notCreated | .ended => none
  | .loop finished =>
    if l.i < rounds ∧ finished = false then
      if draw < max 1 MAX_WITHDRAW then some (balance, { l with amount := 1 + draw, pc := .test })
      else none
    else some (balance, { l with pc := .ended })
  | .test => some (balance, { l with pc := if balance < l.amount then .look else .load })
  | .load => some (balance, { l with pc := .store balance })
  | .store reg => do
    let balance ← result (reg - l.amount)
    return (balance, { l with pc := .add })
  | .add => do
    let withdrawn ← result (l.withdrawn + l.amount)
    return (balance, { l with withdrawn := withdrawn, pc := .look })
  | .look => some (balance, { l with i := l.i + 1, pc := .loop (decide (balance ≤ 0)) })

/-- Where `main` is: before the next call of `pthread_create` or `pthread_join`, before the line
    with the total, before the check of the result, or at its end. -/
inductive MainPc
  | create (t : ℕ)
  | join (t : ℕ)
  | printTotal
  | check
  | returned (code : ℤ)
  deriving DecidableEq

/-- The process, with `n` threads. -/
structure State (n : ℕ) where
  balance : ℤ
  thread : Fin n → Local
  main : MainPc
  totalWithdrawn : ℤ

/-- A line: of `perror`, "Thread withdrawal:", "The new balance:", "Total withdrawn:", or the one
    about lost transactions with its two numbers. -/
inductive Event
  | perror (what : String)
  | threadWithdrawal (amount : ℤ)
  | newBalance (balance : ℤ)
  | totalWithdrawn (amount : ℤ)
  | lost (difference total : ℤ)
  deriving DecidableEq

/-- `main` goes on, or a call of `main` fails, or a thread goes on. -/
inductive Act (n : ℕ)
  | main
  | mainFails
  | thread (t : Fin n) (draw : ℕ)
  deriving DecidableEq

variable {n : ℕ}

/-- `main`. -/
def mainStep (INITIAL_AMOUNT : ℕ) (s : State n) : Option (Option Event × State n) :=
  match s.main with
  | .create t =>
    if h : t < n then
      some (none, { s with
        thread := Function.update s.thread ⟨t, h⟩ { s.thread ⟨t, h⟩ with pc := .loop false }
        main := .create (t + 1) })
    else some (none, { s with main := .join 0 })
  | .join t =>
    if h : t < n then
      if (s.thread ⟨t, h⟩).pc = .ended then do
        let total ← result (s.totalWithdrawn + (s.thread ⟨t, h⟩).withdrawn)
        return (some (.threadWithdrawal (s.thread ⟨t, h⟩).withdrawn),
          { s with totalWithdrawn := total, main := .join (t + 1) })
      else none
    else some (some (.newBalance s.balance), { s with main := .printTotal })
  | .printTotal => some (some (.totalWithdrawn s.totalWithdrawn), { s with main := .check })
  | .check => do
    let sum ← result (s.balance + s.totalWithdrawn)
    if sum ≠ INITIAL_AMOUNT then
      let difference ← result (INITIAL_AMOUNT - s.balance)
      return (some (.lost difference s.totalWithdrawn),
        { s with main := .returned EXIT_SUCCESS })
    else return (none, { s with main := .returned EXIT_SUCCESS })
  | .returned _ => none

/-- A call of `pthread_create` or `pthread_join` fails. -/
def mainFails (s : State n) : Option (Option Event × State n) :=
  match s.main with
  | .create t =>
    if t < n then
      some (some (.perror "pthread_create"), { s with main := .returned EXIT_FAILURE })
    else none
  | .join t =>
    if t < n then some (some (.perror "pthread_join"), { s with main := .returned EXIT_FAILURE })
    else none
  | .printTotal | .check | .returned _ => none

/-- The program.  When `main` has returned, the threads may still go on for a while. -/
def machine (n INITIAL_AMOUNT MAX_WITHDRAW : ℕ) : Machine (State n) (Act n) Event where
  step := fun s a =>
    match a with
    | .main => mainStep INITIAL_AMOUNT s
    | .mainFails => mainFails s
    | .thread t draw =>
      (doWithdrawals MAX_WITHDRAW (INITIAL_AMOUNT / n) draw s.balance (s.thread t)).map fun r =>
        (none, { s with balance := r.1, thread := Function.update s.thread t r.2 })

/-- `main` before the first thread is created. -/
def initial (n INITIAL_AMOUNT : ℕ) : State n where
  balance := INITIAL_AMOUNT
  thread := fun _ => ⟨.notCreated, 0, 0, 0⟩
  main := .create 0
  totalWithdrawn := 0

end BankWithdrawal
