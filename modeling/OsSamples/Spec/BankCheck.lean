import OsSamples.Spec.BankDeposit

/-!
# The check of `bank_deposit_CPUtime.c`

`main` multiplies the number of threads by the number of transactions in `unsigned int`.  Where the
product fits, and the net amount of all transactions fits into `long long`, `expected` is the exact
balance and the check reports exactly the wrong balances; otherwise it does not, and where only the
first product is too large it reports the right balance as an error.

## Key results

- `expected_eq_some`: when `expected` is the exact balance
- `check_exact_iff`: when the check is exact
- `check_finished`: what it says after all deposits
-/

namespace BankDeposit

open CInt (FitsLLong llong toUInt32)

variable {opts : Options}

/-- The number of all transactions. -/
def Options.transactions (opts : Options) : ℤ :=
  opts.threadCount * opts.bankTransactionsPerThread.toNat

/-- What one transaction adds to the balance, as an integer. -/
def Options.netInt (opts : Options) : ℤ :=
  opts.bankTransactionAmount.toInt - opts.bankTransactionFee.toInt

/-- The balance after all transactions, as an integer. -/
def Options.exact (opts : Options) : ℤ :=
  opts.accountStart.toInt + opts.transactions * opts.netInt

/-- The product of the counts is right, or does not matter, and the product with the net amount
    does not overflow. -/
def Options.Small (opts : Options) : Prop :=
  (opts.transactions < 2 ^ 32 ∨ opts.bankTransactionAmount = opts.bankTransactionFee) ∧
    FitsLLong (opts.transactions * opts.netInt)

/-- The value of `expected`, where it is defined. -/
theorem expected_eq_some {n : ℤ} :
    expected opts = some n ↔ FitsLLong opts.netInt ∧
      FitsLLong (toUInt32 opts.transactions * opts.netInt) ∧
      FitsLLong (opts.accountStart.toInt + toUInt32 opts.transactions * opts.netInt) ∧
      opts.accountStart.toInt + toUInt32 opts.transactions * opts.netInt = n := by
  simp only [expected, Option.bind_eq_bind, Option.bind_eq_some_iff, CInt.llong_eq_some]
  constructor
  · rintro ⟨_, ⟨hnet, rfl⟩, _, ⟨hsum, rfl⟩, hfits, heq⟩
    exact ⟨hnet, hsum, hfits, heq⟩
  · rintro ⟨hnet, hsum, hfits, heq⟩
    exact ⟨_, ⟨hnet, rfl⟩, _, ⟨hsum, rfl⟩, hfits, heq⟩

theorem netInt_eq_zero :
    opts.netInt = 0 ↔ opts.bankTransactionAmount = opts.bankTransactionFee := by
  rw [Options.netInt, sub_eq_zero, BitVec.toInt_inj]

theorem transactions_nonneg (opts : Options) : 0 ≤ opts.transactions :=
  Int.mul_nonneg (Int.natCast_nonneg _) (Int.natCast_nonneg _)

/-- The wrapped product gives the same balance exactly if it is right, or the net amount is zero. -/
theorem toUInt32_mul_netInt :
    toUInt32 opts.transactions * opts.netInt = opts.transactions * opts.netInt ↔
      (opts.transactions < 2 ^ 32 ∨ opts.bankTransactionAmount = opts.bankTransactionFee) := by
  have hnonneg := transactions_nonneg opts
  rw [mul_eq_mul_right_iff, CInt.toUInt32_eq_self, netInt_eq_zero]
  simp [hnonneg]

/-- When `expected` is the exact balance. -/
theorem expected_exact_iff (hnet : FitsLLong opts.netInt) (hexact : FitsLLong opts.exact) :
    expected opts = some opts.exact ↔ opts.Small := by
  rw [expected_eq_some, Options.Small, ← toUInt32_mul_netInt]
  constructor
  · rintro ⟨-, hsum, -, heq⟩
    have hmul := add_left_cancel heq
    exact ⟨hmul, hmul ▸ hsum⟩
  · rintro ⟨hmul, hsum⟩
    rw [hmul]
    exact ⟨hnet, hsum, hexact, rfl⟩

/-- An error is reported for a balance. -/
def Reported (opts : Options) (accountBalance : BitVec 64) : Prop :=
  ∃ balance expected, check opts accountBalance = some (.errorInTransactions balance expected)

/-- Where `expected` is the exact balance, the other balances are reported. -/
theorem reported_iff {n : ℤ} (h : expected opts = some n) (accountBalance : BitVec 64) :
    Reported opts accountBalance ↔ accountBalance.toInt ≠ n := by
  simp only [Reported, check, h, Option.map_some, Option.some.injEq]
  constructor
  · rintro ⟨balance, expected, hcheck⟩
    by_contra heq
    rw [if_neg (not_not.mpr heq)] at hcheck
    exact nomatch hcheck
  · intro hne
    exact ⟨_, _, if_pos hne⟩

/-- Where the amount less the fee and the balance after all transactions fit into `long long`:
    `expected` is that balance, and exactly the other balances are reported, if and only if the
    number of all transactions fits into `unsigned int` or the amount is the fee, and the net amount
    of all transactions fits into `long long`. -/
theorem check_exact_iff (opts : Options) (hnet : FitsLLong opts.netInt)
    (hexact : FitsLLong opts.exact) :
    (expected opts = some opts.exact ∧
      ∀ accountBalance, Reported opts accountBalance ↔ accountBalance.toInt ≠ opts.exact) ↔
    (opts.transactions < 2 ^ 32 ∨ opts.bankTransactionAmount = opts.bankTransactionFee) ∧
      FitsLLong (opts.transactions * opts.netInt) := by
  have hiff := expected_exact_iff hnet hexact
  constructor
  · intro h
    exact hiff.mp h.1
  · intro h
    have hexpected := hiff.mpr h
    exact ⟨hexpected, reported_iff hexpected⟩

/-- The default options. -/
def defaultOptions : Options :=
  ⟨3, 10000, 101, 1, 1, by decide, by decide, by decide⟩

theorem check_exact_iff_default :
    expected defaultOptions = some 3000001 ∧
      ∀ accountBalance, Reported defaultOptions accountBalance ↔ accountBalance.toInt ≠ 3000001 :=
  (check_exact_iff defaultOptions (by decide) (by decide)).mpr ⟨.inl (by decide), by decide⟩

/-- 1024 threads with `2 ^ 22` transactions each. -/
def manyOptions : Options :=
  ⟨1024, 4194304, 101, 1, 1, by decide, by decide, by decide⟩

/-- The number of all transactions wraps around to zero: the initial balance is expected, and the
    right one is reported. -/
theorem many_transactions_reported :
    FitsLLong manyOptions.netInt ∧ FitsLLong manyOptions.exact ∧
      expected manyOptions ≠ some manyOptions.exact ∧
      ∃ accountBalance : BitVec 64, accountBalance.toInt = manyOptions.exact ∧
        Reported manyOptions accountBalance :=
  ⟨by decide, by decide, by decide, 429496729601, by decide, _, _, rfl⟩

/-! ## The check after the threads -/

/-- The balance when all threads have finished is the exact one. -/
theorem BalanceInv.finished_exact {accountBalance : BitVec 64}
    {loc : Fin opts.threadCount → Local} (hinv : BalanceInv opts accountBalance loc)
    (hfin : ∀ tid, (loc tid).pc = .finished) (hexact : FitsLLong opts.exact) :
    accountBalance.toInt = opts.exact := by
  have hbalance : accountBalance = BitVec.ofInt 64 opts.exact := by
    have hnet : BitVec.ofInt 64 opts.netInt =
        opts.bankTransactionAmount - opts.bankTransactionFee := by
      apply BitVec.eq_of_toInt_eq
      rw [BitVec.toInt_ofInt, Options.netInt, BitVec.toInt_sub]
    rw [hinv.finished hfin, Options.exact, Options.transactions, BitVec.ofInt_add,
      BitVec.ofInt_mul, BitVec.ofInt_mul, hnet, BitVec.ofInt_toInt]
    rfl
  rw [hbalance, BitVec.toInt_ofInt]
  unfold FitsLLong at hexact
  exact Int.bmod_eq_of_le (by omega) (by omega)

/-- With a locking method the program ends with success exactly if the number of all transactions
    fits into `unsigned int` or the amount is the fee, and the net amount of all transactions fits
    into `long long`. -/
theorem check_finished {P : Type*} [DecidableEq P] (m : CsMethod) (hm : m.isLock = true)
    (busyWaitYields : Bool) (p : P) (env₀ env : Env P (Fin opts.threadCount))
    (hinit : (Everything.csInit m.toInt p).Reachable (.start, env₀) (.done, env))
    (i₀ : Fin opts.threadCount → BitVec 32)
    (cfg : Config (Fin opts.threadCount) (Shared P (Fin opts.threadCount)) Local)
    (hreach : (machine opts busyWaitYields p).Reachable (created opts env i₀) cfg)
    (hfin : ∀ tid, (cfg.loc tid).pc = .finished) (hnet : FitsLLong opts.netInt)
    (hexact : FitsLLong opts.exact) :
    check opts cfg.shared.accountBalance = some .success ↔ opts.Small := by
  have hinv := machine_reachable_balance hm (Everything.csInit_lockRep hm hinit) hreach
  have hbalance := hinv.finished_exact hfin hexact
  rw [← expected_exact_iff hnet hexact, check, hbalance, Option.map_eq_some_iff]
  constructor
  · rintro ⟨n, hn, hsuccess⟩
    split at hsuccess
    · exact nomatch hsuccess
    · rename_i heq
      rw [hn, not_not.mp heq]
  · intro hexpected
    exact ⟨_, hexpected, if_neg (not_not.mpr rfl)⟩

end BankDeposit
