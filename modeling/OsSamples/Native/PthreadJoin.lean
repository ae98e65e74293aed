import OsSamples.Lib.CInt
import OsSamples.Lib.Loop

/-!
# `pthread_join3.c`: the n-th prime number

`compute_prime`, which the other two programs have as well, and `main`, which prints what it has
found.  Factors and candidates are positive, and modelled as natural numbers.  `main` waits for the
thread, so that the thread's steps come before the end of `main`; `pthread_create` does not fail.
-/

namespace PthreadJoin

open CInt

/-- An addition whose result does not fit into `int`. -/
inductive Undefined
  | overflow
  deriving DecidableEq

/-- The `for` loop with the factors: the value of `is_prime` after it. -/
def isPrime (candidate : ℕ) : Except Undefined Bool :=
  forLoop (fun factor is_prime =>
    if candidate % factor = 0 then .ok (.done false) else .ok (.yield is_prime))
    (candidate / 2 - 1) 2 true

/-- The `while` loop from `candidate` on, which is `room` below the largest `int`: the prime number
    that it finds. -/
def search (room candidate : ℕ) (n : ℤ) : Except Undefined ℕ := do
  let found ← isPrime candidate
  if found ∧ n - 1 = 0 then return candidate
  match room with
  | 0 => throw .overflow
  | room + 1 => search room (candidate + 1) (if found then n - 1 else n)

/-- `compute_prime`: the value of `prime` after it. -/
def compute_prime (n : ℤ) : Except Undefined ℤ :=
  if n ≤ 0 then return 0
  else return ← search (INT_MAX - 2).toNat 2 n

/-- What `main` prints, and its return code; `argument` is what the first argument denotes. -/
def main (argument : Option ℤ) : Except Undefined (String × ℤ) :=
  match argument with
  | none => return ("Argument missing (n number).\nPrints n-th prime number.\n", 1)
  | some number => do
    let which_prime := atoi number
    let prime ← compute_prime which_prime
    if prime = 0 then return ("Bad input.\n", 0)
    else return (s!"Prime number {which_prime} is: {prime}\n", 0)

end PthreadJoin
