import Mathlib.NumberTheory.PrimeCounting
import OsSamples.Native.PthreadJoin

/-!
# The number found is the n-th prime number

The loop over the factors decides whether a number is prime, and the loop over the candidates counts
the prime numbers before each of them.

## Key results

- `isPrime_eq`: what the loop over the factors decides
- `search_eq`: what the loop over the candidates finds
- `main_eq`: what `main` prints, for each argument
-/

namespace PthreadJoin

open CInt
open Nat (nth count)

variable {candidate room m : ℕ} {n : ℤ}

/-- A number with a proper factor has one that is half of the number at most. -/
theorem prime_of_forall_half (h2 : 2 ≤ candidate)
    (h : ∀ factor, 2 ≤ factor → factor ≤ candidate / 2 → candidate % factor ≠ 0) :
    candidate.Prime := by
  refine Nat.prime_def_le_sqrt.mpr ⟨h2, fun factor hfactor hsqrt hdvd => ?_⟩
  refine h factor hfactor ?_ (Nat.mod_eq_zero_of_dvd hdvd)
  obtain ⟨cofactor, rfl⟩ := hdvd
  have hcofactor : 2 ≤ cofactor := by
    have hsq := Nat.le_sqrt.mp hsqrt
    have hle := Nat.le_of_mul_le_mul_left hsq (by omega)
    omega
  rw [Nat.le_div_iff_mul_le (by decide)]
  exact Nat.mul_le_mul_left factor hcofactor

/-- The loop over the factors decides whether the candidate is prime. -/
theorem isPrime_eq (h2 : 2 ≤ candidate) : isPrime candidate = .ok (decide candidate.Prime) := by
  have hloop : ∃ b, isPrime candidate = .ok b ∧ b = decide candidate.Prime := by
    -- no factor has been found so far
    refine forLoop_rule (I := fun factor is_prime => is_prime = true ∧
      ∀ x, 2 ≤ x → x < factor → candidate % x ≠ 0) ?_ ?_
      ⟨rfl, fun x hx hlt => absurd hx (not_le.mpr hlt)⟩
    · rintro factor is_prime hfactor hlt ⟨rfl, hnone⟩
      by_cases hmod : candidate % factor = 0
      · refine .inr ⟨false, if_pos hmod, (decide_eq_false ?_).symm⟩
        intro hprime
        have hdvd := (hprime.dvd_iff_eq (by omega)).mp (Nat.dvd_of_mod_eq_zero hmod)
        omega
      · refine .inl ⟨true, if_neg hmod, rfl, fun x hx hle => ?_⟩
        by_cases hxf : x = factor
        · rwa [hxf]
        · exact hnone x hx (by omega)
    · rintro is_prime ⟨rfl, hnone⟩
      refine (decide_eq_true (prime_of_forall_half h2 fun x hx hle => hnone x hx ?_)).symm
      omega
  obtain ⟨b, hb, rfl⟩ := hloop
  exact hb

/-- The candidate is the number in question if and only if it is found. -/
theorem eq_nth_iff (hn : count Nat.Prime candidate + n = m + 1) :
    candidate = nth Nat.Prime m ↔ candidate.Prime ∧ n = 1 := by
  constructor
  · rintro rfl
    rw [Nat.count_nth_of_infinite Nat.infinite_setOfPred_prime] at hn
    exact ⟨Nat.prime_nth_prime m, by omega⟩
  · rintro ⟨hprime, rfl⟩
    obtain rfl : m = count Nat.Prime candidate := by omega
    exact (Nat.nth_count hprime).symm

/-- The iteration in which the number is found. -/
theorem search_found (h2 : 2 ≤ candidate) (hprime : candidate.Prime) (hn : n = 1) :
    search room candidate n = .ok candidate := by
  rw [search, isPrime_eq h2, hn]
  simp only [hprime, decide_true]
  rfl

/-- An iteration after which the search goes on. -/
theorem search_next (h2 : 2 ≤ candidate) (hnot : ¬ (candidate.Prime ∧ n = 1)) :
    search (room + 1) candidate n =
      search room (candidate + 1) (if candidate.Prime then n - 1 else n) := by
  rw [search, isPrime_eq h2]
  show (if decide candidate.Prime = true ∧ n - 1 = 0 then _ else _) = _
  rw [if_neg]
  · simp only [decide_eq_true_eq]
  · rw [decide_eq_true_eq, sub_eq_zero]
    exact hnot

/-- The last candidate. -/
theorem search_overflow (h2 : 2 ≤ candidate) (hnot : ¬ (candidate.Prime ∧ n = 1)) :
    search 0 candidate n = .error .overflow := by
  rw [search, isPrime_eq h2]
  show (if decide candidate.Prime = true ∧ n - 1 = 0 then _ else _) = _
  rw [if_neg]
  · rfl
  · rw [decide_eq_true_eq, sub_eq_zero]
    exact hnot

/-- The loop over the candidates finds the prime number that comes after `m` others, unless it is
    too large; `n` counts those from the candidate on. -/
theorem search_eq (h2 : 2 ≤ candidate) (hn : count Nat.Prime candidate + n = m + 1)
    (hle : candidate ≤ nth Nat.Prime m) :
    search room candidate n =
      if nth Nat.Prime m ≤ candidate + room then .ok (nth Nat.Prime m) else .error .overflow := by
  induction room generalizing candidate n with
  | zero =>
    by_cases heq : candidate = nth Nat.Prime m
    · obtain ⟨hprime, hone⟩ := (eq_nth_iff hn).mp heq
      rw [search_found h2 hprime hone, ← heq, if_pos (Nat.le_add_right ..)]
    · rw [search_overflow h2 (mt (eq_nth_iff hn).mpr heq), if_neg]
      omega
  | succ room ih =>
    by_cases heq : candidate = nth Nat.Prime m
    · obtain ⟨hprime, hone⟩ := (eq_nth_iff hn).mp heq
      rw [search_found h2 hprime hone, ← heq, if_pos (Nat.le_add_right ..)]
    · have hnext : count Nat.Prime (candidate + 1) + (if candidate.Prime then n - 1 else n) =
          m + 1 := by
        rw [Nat.count_succ]
        split <;> push_cast <;> omega
      rw [search_next h2 (mt (eq_nth_iff hn).mpr heq), Nat.add_comm room, ← Nat.add_assoc]
      exact ih (by omega) hnext (by omega)

/-- The number found is the `n`-th prime number, if there is one that fits into `int`. -/
theorem compute_prime_eq (n : ℤ) : compute_prime n =
    if n ≤ 0 then .ok 0
    else if nth Nat.Prime (n - 1).toNat ≤ INT_MAX then .ok (nth Nat.Prime (n - 1).toNat)
    else .error .overflow := by
  unfold compute_prime
  split
  · rfl
  · have htwo : count Nat.Prime 2 = 0 := by decide
    have hsearch : search (INT_MAX - 2).toNat 2 n = _ :=
      search_eq (m := (n - 1).toNat) (le_refl 2) (by rw [htwo]; omega)
        (Nat.prime_nth_prime _).two_le
    rw [hsearch]
    have hroom : 2 + (INT_MAX - 2).toNat = INT_MAX.toNat := rfl
    have hmax : nth Nat.Prime (n - 1).toNat ≤ INT_MAX.toNat ↔
        (nth Nat.Prime (n - 1).toNat : ℤ) ≤ INT_MAX := Int.le_toNat (by decide)
    rw [hroom]
    by_cases hle : nth Nat.Prime (n - 1).toNat ≤ INT_MAX.toNat
    · rw [if_pos hle, if_pos (hmax.mp hle)]
      rfl
    · rw [if_neg hle, if_neg (mt hmax.mpr hle)]
      rfl

/-- What `main` prints for an argument that denotes a number: the prime number with this number,
    unless there is no such prime number or it does not fit into `int`. -/
theorem main_eq (number : ℤ) : main (some number) =
    if atoi number ≤ 0 then .ok ("Bad input.\n", 0)
    else if nth Nat.Prime (atoi number - 1).toNat ≤ INT_MAX then
      .ok (s!"Prime number {atoi number} is: {(nth Nat.Prime (atoi number - 1).toNat : ℤ)}\n", 0)
    else .error .overflow := by
  simp only [main, compute_prime_eq]
  split
  · rfl
  · split
    · have hne : (nth Nat.Prime (atoi number - 1).toNat : ℤ) ≠ 0 :=
        Nat.cast_ne_zero.mpr (Nat.prime_nth_prime _).ne_zero
      show (if (nth Nat.Prime (atoi number - 1).toNat : ℤ) = 0 then _ else _) = _
      rw [if_neg hne]
      rfl
    · rfl

end PthreadJoin
