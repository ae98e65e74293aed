import Mathlib.Logic.Function.Basic
import OsSamples.Lib.Machine
import OsSamples.Native.Peterson

/-!
# `bank_transactions_Peterson.c`: transfers between two accounts

`main` and two threads that run `bank_transaction`, guarded by `Peterson_prologue` and
`Peterson_epilogue`; each single read or write of `flag`, `turn`, `rich_guy` and `poor_guy` is one
step.  The drawn amounts and the interleaving are choices of the environment.

Left out because nothing modelled reads it: the number of busy waits, and what is printed.
-/

namespace BankTransactions

open Peterson (tidInt)

/-- The shared variables, and whether the process has been killed by a division by zero. -/
structure Vars where
  flag : Bool → Bool
  turn : ℤ
  richGuy : ℤ
  poorGuy : ℤ
  crashed : Bool

/-- Where a thread is in `bank_transaction`. -/
inductive Pc
  | notCreated
  | syncStart
  -- before `money = 1 + rand() % 10`
  | draw
  -- `Peterson_prologue`
  | setFlag
  | setTurn
  | readFlag
  | readTurn
  -- `if (money > rich_guy) money = rich_guy;`
  | testRich
  | capMoney
  -- `rich_guy -= money;`
  | loadRich
  | storeRich (value : ℤ)
  | simWork
  -- `poor_guy += money;`
  | loadPoor
  | storePoor (value : ℤ)
  -- `done = rich_guy <= 0 || poor_guy >= AMOUNT;`
  | testDone
  | testPoor
  -- `Peterson_epilogue`
  | resetFlag
  -- before `trans_per_thread[id]++` and the loop condition
  | count
  | finished
  deriving DecidableEq

/-- A thread's own variables, with its entry of `trans_per_thread`. -/
structure Local where
  pc : Pc
  money : ℤ
  done : Bool
  transPerThread : ℕ
  deriving DecidableEq

/-- The next step of `bank_transaction` in thread `self`; `r` is `rand() % 10`. -/
def bankTransaction (AMOUNT : ℤ) (self : Bool) (r : Fin 10) (s : Vars) (l : Local) :
    Option (Vars × Local) :=
  match l.pc with
  | .notCreated | .finished => none
  | .syncStart => some (s, { l with pc := .draw })
  | .draw => some (s, { l with money := 1 + r.val, pc := .setFlag })
  | .setFlag =>
    some ({ s with flag := Function.update s.flag self true }, { l with pc := .setTurn })
  | .setTurn => some ({ s with turn := tidInt (!self) }, { l with pc := .readFlag })
  | .readFlag => some (s, { l with pc := if s.flag (!self) then .readTurn else .testRich })
  | .readTurn =>
    some (s, { l with pc := if s.turn = tidInt (!self) then .readFlag else .testRich })
  | .testRich => some (s, { l with pc := if l.money > s.richGuy then .capMoney else .loadRich })
  | .capMoney => some (s, { l with money := s.richGuy, pc := .loadRich })
  | .loadRich => some (s, { l with pc := .storeRich (s.richGuy - l.money) })
  | .storeRich value => some ({ s with richGuy := value }, { l with pc := .simWork })
  | .simWork =>
    -- `WAIT_ITERATIONS` divides by `AMOUNT`
    if AMOUNT = 0 then some ({ s with crashed := true }, l)
    else some (s, { l with pc := .loadPoor })
  | .loadPoor => some (s, { l with pc := .storePoor (s.poorGuy + l.money) })
  | .storePoor value => some ({ s with poorGuy := value }, { l with pc := .testDone })
  | .testDone =>
    if s.richGuy ≤ 0 then some (s, { l with done := true, pc := .resetFlag })
    else some (s, { l with pc := .testPoor })
  | .testPoor => some (s, { l with done := decide (s.poorGuy ≥ AMOUNT), pc := .resetFlag })
  | .resetFlag =>
    some ({ s with flag := Function.update s.flag self false }, { l with pc := .count })
  | .count =>
    some (s, { l with
      transPerThread := l.transPerThread + 1, pc := if l.done then .finished else .draw })

/-- Where `main` is: creating and joining the threads, then in its final check. -/
inductive MainPc
  | create0
  | create1
  | join0
  | join1
  | checkRich
  | checkPoor
  | success
  | badTransactions
  deriving DecidableEq

/-- The whole process. -/
structure State where
  vars : Vars
  loc : Bool → Local
  main : MainPc

/-- `pthread_create`. -/
def State.create (s : State) (i : Bool) (main : MainPc) : State :=
  { s with loc := Function.update s.loc i { s.loc i with pc := .syncStart }, main := main }

/-- The next step of `main`; `none` where it waits in `pthread_join` and at its end. -/
def mainStep (AMOUNT : ℤ) (s : State) : Option State :=
  match s.main with
  | .create0 => some (s.create false .create1)
  | .create1 => some (s.create true .join0)
  | .join0 => if (s.loc false).pc = .finished then some { s with main := .join1 } else none
  | .join1 => if (s.loc true).pc = .finished then some { s with main := .checkRich } else none
  | .checkRich =>
    some { s with main := if s.vars.richGuy ≠ 0 then .badTransactions else .checkPoor }
  | .checkPoor =>
    some { s with main := if s.vars.poorGuy ≠ AMOUNT then .badTransactions else .success }
  | .success | .badTransactions => none

/-- Who takes the next step. -/
inductive Action
  | main
  | thread (self : Bool) (r : Fin 10)
  deriving DecidableEq

/-- The process: no one takes a step after a crash. -/
def machine (AMOUNT : ℤ) : Machine State Action Empty where
  step := fun s a =>
    if s.vars.crashed then none
    else match a with
      | .main => (mainStep AMOUNT s).map fun s' => (none, s')
      | .thread self r =>
        (bankTransaction AMOUNT self r s.vars (s.loc self)).map fun q =>
          (none, { s with vars := q.1, loc := Function.update s.loc self q.2 })

/-- The state before the threads are created. -/
def initial (AMOUNT : ℤ) : State where
  vars :=
    { flag := fun _ => false, turn := 0, richGuy := AMOUNT, poorGuy := 0, crashed := false }
  loc := fun _ => ⟨.notCreated, 0, false, 0⟩
  main := .create0

/-- The thread is between `Peterson_prologue` and `Peterson_epilogue`. -/
def Pc.critical : Pc → Bool
  | .testRich | .capMoney | .loadRich | .storeRich _ | .simWork | .loadPoor | .storePoor _
  | .testDone | .testPoor | .resetFlag => true
  | .notCreated | .syncStart | .draw | .setFlag | .setTurn | .readFlag | .readTurn | .count
  | .finished => false

end BankTransactions
