import OsSamples.Lib.SpawnJoin
import OsSamples.Lib.Threads
import OsSamples.Native.BankWithdrawal

/-!
# Withdrawals get lost, but no money does

Between the read and the write of one thread others may write, and their withdrawals are lost from
the balance.  What has been read is never less than what the withdrawals so far leave, so that the
balance is at least that, and the check of `main` finds out whether something has been lost.

## Key results

- `Inv.step`: the bounds of the balance that every step keeps
- `report_run`: all lines of a run that ends well
- `inevitable_exit_success`: every run comes to its end, and no operation overflows
-/

namespace BankWithdrawal

open CInt
open SpawnJoin (Stage)
open Threads (sum_update)

variable {n INITIAL_AMOUNT MAX_WITHDRAW rounds draw : ℕ} {balance balance' : ℤ} {l l' : Local}
  {s s' : State n} {t : Fin n} {a : Act n} {e : Option Event} {tr : List Event}

/-! ## What a step can do -/

/-- The kinds of steps of a thread. -/
inductive Step (MAX_WITHDRAW rounds : ℕ) (balance : ℤ) (l : Local) : ℤ → Local → Prop
  | draw {draw : ℕ} (hpc : l.pc = .loop false) (hi : l.i < rounds) (hdraw : draw < MAX_WITHDRAW) :
      Step MAX_WITHDRAW rounds balance l balance { l with amount := 1 + draw, pc := .test }
  | stop {finished : Bool} (hpc : l.pc = .loop finished) :
      Step MAX_WITHDRAW rounds balance l balance { l with pc := .ended }
  | reject (hpc : l.pc = .test) :
      Step MAX_WITHDRAW rounds balance l balance { l with pc := .look }
  | accept (hpc : l.pc = .test) (henough : l.amount ≤ balance) :
      Step MAX_WITHDRAW rounds balance l balance { l with pc := .load }
  | load (hpc : l.pc = .load) :
      Step MAX_WITHDRAW rounds balance l balance { l with pc := .store balance }
  | store {reg : ℤ} (hpc : l.pc = .store reg) :
      Step MAX_WITHDRAW rounds balance l (reg - l.amount) { l with pc := .add }
  | add (hpc : l.pc = .add) : Step MAX_WITHDRAW rounds balance l balance
      { l with withdrawn := l.withdrawn + l.amount, pc := .look }
  | look {finished : Bool} (hpc : l.pc = .look) :
      Step MAX_WITHDRAW rounds balance l balance { l with i := l.i + 1, pc := .loop finished }

/-- An operation on `int` has its exact result. -/
theorem result_eq_some {m k : ℤ} : result m = some k ↔ (INT_MIN ≤ m ∧ m ≤ INT_MAX) ∧ m = k := by
  unfold result
  split <;> simp [*]

/-- Every step is of one of the kinds. -/
theorem step_of_doWithdrawals
    (hs : doWithdrawals MAX_WITHDRAW rounds draw balance l = some (balance', l')) :
    Step (max 1 MAX_WITHDRAW) rounds balance l balance' l' := by
  cases hpc : l.pc <;> simp only [doWithdrawals, hpc, reduceCtorEq] at hs
  -- the condition of the loop: a round is left, and no withdrawal has been rejected
  case loop finished =>
    by_cases hround : l.i < rounds ∧ finished = false
    · obtain ⟨hi, rfl⟩ := hround
      simp only [hi, and_self, if_true, Option.ite_none_right_eq_some, Option.some.injEq,
        Prod.mk.injEq] at hs
      obtain ⟨hdraw, rfl, rfl⟩ := hs
      exact .draw hpc hi hdraw
    · rw [if_neg hround] at hs
      obtain ⟨rfl, rfl⟩ := Prod.mk.inj (Option.some.inj hs)
      exact .stop hpc
  case test =>
    obtain ⟨rfl, rfl⟩ := Prod.mk.inj (Option.some.inj hs)
    by_cases hless : balance < l.amount
    · rw [if_pos hless]
      exact .reject hpc
    · rw [if_neg hless]
      exact .accept hpc (not_lt.mp hless)
  case load =>
    obtain ⟨rfl, rfl⟩ := Prod.mk.inj (Option.some.inj hs)
    exact .load hpc
  -- the subtraction fits into `int`, or there is no step
  case store reg =>
    obtain ⟨k, hk, heq⟩ := Option.bind_eq_some_iff.mp hs
    obtain ⟨-, rfl⟩ := result_eq_some.mp hk
    obtain ⟨rfl, rfl⟩ := Prod.mk.inj (Option.some.inj heq)
    exact .store hpc
  case add =>
    obtain ⟨k, hk, heq⟩ := Option.bind_eq_some_iff.mp hs
    obtain ⟨-, rfl⟩ := result_eq_some.mp hk
    obtain ⟨rfl, rfl⟩ := Prod.mk.inj (Option.some.inj heq)
    exact .add hpc
  case look =>
    obtain ⟨rfl, rfl⟩ := Prod.mk.inj (Option.some.inj hs)
    exact .look hpc

/-! ## The balance -/

/-- What a thread has written to the balance as withdrawn. -/
def Local.taken (l : Local) : ℤ :=
  match l.pc with
  | .add => l.withdrawn + l.amount
  | .notCreated | .loop _ | .test | .load | .store _ | .look | .ended => l.withdrawn

/-- What a thread has withdrawn in its rounds so far; in one of them it takes an amount. -/
def LocalInv (MAX_WITHDRAW rounds : ℕ) (l : Local) : Prop :=
  (0 ≤ l.amount ∧ l.amount ≤ MAX_WITHDRAW) ∧ 0 ≤ l.withdrawn ∧
    match l.pc with
    | .notCreated | .loop _ | .ended => l.i ≤ rounds ∧ l.withdrawn ≤ MAX_WITHDRAW * l.i
    | .test | .load | .store _ | .add => l.i < rounds ∧ l.withdrawn ≤ MAX_WITHDRAW * l.i
    | .look => l.i < rounds ∧ l.withdrawn ≤ MAX_WITHDRAW * (l.i + 1)

/-- Every step of a thread keeps what is known of its own variables. -/
theorem LocalInv.step (h : LocalInv MAX_WITHDRAW rounds l)
    (hs : Step MAX_WITHDRAW rounds balance l balance' l') : LocalInv MAX_WITHDRAW rounds l' := by
  obtain ⟨hamount, hpos, hpc'⟩ := h
  cases hs with
  -- what is drawn is between 1 and `MAX_WITHDRAW`
  | @draw draw hpc hi hdraw =>
    simp only [hpc] at hpc'
    have hdrawn : (0 : ℤ) ≤ 1 + draw ∧ (1 + draw : ℤ) ≤ MAX_WITHDRAW := by omega
    exact ⟨hdrawn, hpos, hi, hpc'.2⟩
  | stop hpc =>
    simp only [hpc] at hpc'
    exact ⟨hamount, hpos, hpc'⟩
  -- a rejected round adds nothing, and the bound grows by `MAX_WITHDRAW`
  | reject hpc =>
    simp only [hpc] at hpc'
    refine ⟨hamount, hpos, hpc'.1, ?_⟩
    have hmul := mul_add_one (MAX_WITHDRAW : ℤ) l.i
    simp only
    omega
  | accept hpc | load hpc | store hpc =>
    simp only [hpc] at hpc'
    exact ⟨hamount, hpos, hpc'⟩
  -- an accepted round adds at most `MAX_WITHDRAW`
  | add hpc =>
    simp only [hpc] at hpc'
    refine ⟨hamount, add_nonneg hpos hamount.1, hpc'.1, ?_⟩
    have hmul := mul_add_one (MAX_WITHDRAW : ℤ) l.i
    simp only
    omega
  | look hpc =>
    simp only [hpc] at hpc'
    refine ⟨hamount, hpos, hpc'.1, ?_⟩
    push_cast
    exact hpc'.2

/-- No thread takes more than the largest amount in each round. -/
theorem LocalInv.taken_le (h : LocalInv MAX_WITHDRAW rounds l) :
    0 ≤ l.taken ∧ l.taken ≤ MAX_WITHDRAW * rounds := by
  obtain ⟨hamount, hpos, hpc'⟩ := h
  have hround : ∀ i : ℕ, i + 1 ≤ rounds →
      (MAX_WITHDRAW : ℤ) * i + MAX_WITHDRAW ≤ MAX_WITHDRAW * rounds := by
    intro i hi
    have hle := Nat.mul_le_mul_left MAX_WITHDRAW hi
    rw [Nat.mul_add, Nat.mul_one] at hle
    exact_mod_cast hle
  have hless : ∀ i : ℕ, i ≤ rounds → (MAX_WITHDRAW : ℤ) * i ≤ MAX_WITHDRAW * rounds := by
    intro i hi
    exact_mod_cast Nat.mul_le_mul_left MAX_WITHDRAW hi
  unfold Local.taken
  cases hpc : l.pc <;> simp only [hpc] at hpc' ⊢
  case notCreated | loop | ended => exact ⟨hpos, hpc'.2.trans (hless _ hpc'.1)⟩
  case test | load | store => exact ⟨hpos, hpc'.2.trans (hless _ hpc'.1.le)⟩
  case add =>
    have hle := hround l.i hpc'.1
    omega
  case look =>
    have hle := hround l.i hpc'.1
    rw [mul_add, mul_one] at hpc'
    exact ⟨hpos, hpc'.2.trans hle⟩

/-- What holds of the balance in every reachable state. -/
structure Inv (INITIAL_AMOUNT MAX_WITHDRAW : ℕ) (balance : ℤ) (thread : Fin n → Local) : Prop where
  own : ∀ t, LocalInv MAX_WITHDRAW (INITIAL_AMOUNT / n) (thread t)
  /-- At most what has been withdrawn is missing. -/
  le : balance ≤ INITIAL_AMOUNT
  ge : INITIAL_AMOUNT ≤ balance + ∑ t, (thread t).taken
  reg : ∀ t reg, (thread t).pc = .store reg →
    reg ≤ INITIAL_AMOUNT ∧ INITIAL_AMOUNT ≤ reg + ∑ t, (thread t).taken

/-- A thread that takes nothing back, and leaves a balance that its withdrawals account for. -/
theorem Inv.update {thread : Fin n → Local} (h : Inv INITIAL_AMOUNT MAX_WITHDRAW balance thread)
    (hl : LocalInv MAX_WITHDRAW (INITIAL_AMOUNT / n) l) (htaken : (thread t).taken ≤ l.taken)
    (hle : balance' ≤ INITIAL_AMOUNT)
    (hge : INITIAL_AMOUNT + (thread t).taken ≤ balance' + l.taken + ∑ t, (thread t).taken)
    (hreg : ∀ reg, l.pc = .store reg →
      reg ≤ INITIAL_AMOUNT ∧ INITIAL_AMOUNT ≤ reg + ∑ t, (thread t).taken) :
    Inv INITIAL_AMOUNT MAX_WITHDRAW balance' (Function.update thread t l) := by
  have hsum := sum_update (fun _ => Local.taken) thread t l
  refine ⟨?_, hle, by omega, fun u reg hu => ?_⟩
  · rw [Function.forall_update_iff thread fun _ l => LocalInv MAX_WITHDRAW (INITIAL_AMOUNT / n) l]
    exact ⟨hl, fun u _ => h.own u⟩
  · have hread : reg ≤ INITIAL_AMOUNT ∧ INITIAL_AMOUNT ≤ reg + ∑ t, (thread t).taken := by
      rcases eq_or_ne u t with rfl | hne
      · rw [Function.update_self] at hu
        exact hreg reg hu
      · rw [Function.update_of_ne hne] at hu
        exact h.reg u reg hu
    exact ⟨hread.1, by omega⟩

/-- A thread that takes nothing in a step. -/
theorem Inv.goto {thread : Fin n → Local} (h : Inv INITIAL_AMOUNT MAX_WITHDRAW balance thread)
    (hl : LocalInv MAX_WITHDRAW (INITIAL_AMOUNT / n) l) (htaken : l.taken = (thread t).taken)
    (hreg : ∀ reg, l.pc = .store reg → reg = balance) :
    Inv INITIAL_AMOUNT MAX_WITHDRAW balance (Function.update thread t l) := by
  have hge := h.ge
  refine h.update hl htaken.ge h.le (by omega) fun reg hstore => ?_
  obtain rfl := hreg reg hstore
  exact ⟨h.le, h.ge⟩

/-- Every step of a thread keeps what holds of the balance. -/
theorem Inv.step {thread : Fin n → Local} (h : Inv INITIAL_AMOUNT MAX_WITHDRAW balance thread)
    (hs : Step MAX_WITHDRAW (INITIAL_AMOUNT / n) balance (thread t) balance' l') :
    Inv INITIAL_AMOUNT MAX_WITHDRAW balance' (Function.update thread t l') := by
  have hl' := (h.own t).step hs
  cases hs with
  | draw hpc | stop hpc | reject hpc | accept hpc | look hpc | add hpc =>
    exact h.goto hl' (by simp [Local.taken, hpc]) (by simp)
  | load hpc => exact h.goto hl' (by simp [Local.taken, hpc]) (by simp)
  | @store reg hpc =>
    -- what others have withdrawn since the read is lost, so that too much is left
    obtain ⟨hle, hge⟩ := h.reg t reg hpc
    have hamount := (h.own t).1.1
    have htaken : (thread t).taken = (thread t).withdrawn := by simp [Local.taken, hpc]
    refine h.update hl' ?_ (by omega) ?_ (by simp)
    · rw [htaken]
      show (thread t).withdrawn ≤ (thread t).withdrawn + (thread t).amount
      omega
    · rw [htaken]
      show INITIAL_AMOUNT + (thread t).withdrawn ≤
        reg - (thread t).amount + ((thread t).withdrawn + (thread t).amount) + _
      omega

/-! ## The lines of `main` -/

/-- What the first `k` threads have withdrawn. -/
def joined (thread : Fin n → Local) (k : ℕ) : List ℤ :=
  ((List.finRange n).take k).map fun t => (thread t).withdrawn

theorem joined_succ (thread : Fin n → Local) {k : ℕ} (hk : k < n) :
    joined thread (k + 1) = joined thread k ++ [(thread ⟨k, hk⟩).withdrawn] := by
  have hlen : k < (List.finRange n).length := by rwa [List.length_finRange]
  rw [joined, ← List.take_append_getElem hlen, List.map_append, List.getElem_finRange]
  rfl

/-- Only the first `k` threads matter. -/
theorem joined_update (thread : Fin n → Local) (l : Local) {k : ℕ}
    (ht : ∀ u : Fin n, u.val < k → u ≠ t) :
    joined (Function.update thread t l) k = joined thread k := by
  apply List.map_congr_left
  intro u hu
  obtain ⟨i, hi, rfl⟩ := List.mem_take_iff_getElem.mp hu
  rw [Function.update_of_ne (ht _ (by simpa using (lt_min_iff.mp hi).1))]

/-- What all threads have withdrawn. -/
theorem sum_joined (thread : Fin n → Local) :
    (joined thread n).sum = ∑ t, (thread t).withdrawn := by
  rw [joined, List.take_of_length_le (List.length_finRange ..).le, Fin.sum_univ_def]

/-- The last line, if the check fails. -/
def lostLines (INITIAL_AMOUNT : ℕ) (balance total : ℤ) : List Event :=
  if balance + total = INITIAL_AMOUNT then [] else [.lost (INITIAL_AMOUNT - balance) total]

/-- What `main` has printed, unless a call of it has failed. -/
def Reported (INITIAL_AMOUNT : ℕ) (s : State n) (tr : List Event) : Prop :=
  let lines := (joined s.thread n).map Event.threadWithdrawal
  match s.main with
  | .create _ => tr = [] ∧ s.totalWithdrawn = 0
  | .join k => k ≤ n ∧ tr = (joined s.thread k).map .threadWithdrawal ∧
      s.totalWithdrawn = (joined s.thread k).sum
  | .printTotal => tr = lines ++ [.newBalance s.balance] ∧
      s.totalWithdrawn = (joined s.thread n).sum
  | .check => tr = lines ++ [.newBalance s.balance, .totalWithdrawn s.totalWithdrawn] ∧
      s.totalWithdrawn = (joined s.thread n).sum
  | .returned code => code = EXIT_FAILURE ∨ code = EXIT_SUCCESS ∧
      tr = lines ++ [.newBalance s.balance, .totalWithdrawn s.totalWithdrawn] ++
        lostLines INITIAL_AMOUNT s.balance s.totalWithdrawn ∧
      s.totalWithdrawn = (joined s.thread n).sum

/-- What `main` knows of the threads. -/
def MainPc.stage : MainPc → Stage
  | .create t => .create t
  | .join t => .join t
  | .printTotal | .check => .joined
  | .returned code => if code = EXIT_SUCCESS then .joined else .elsewhere

/-- What holds in a run that has emitted `tr`. -/
structure RunInv (INITIAL_AMOUNT MAX_WITHDRAW : ℕ) (s : State n) (tr : List Event) : Prop where
  bank : Inv INITIAL_AMOUNT MAX_WITHDRAW s.balance s.thread
  main : s.main.stage.Inv .notCreated (· = .ended) (Local.pc ∘ s.thread)
  lines : Reported INITIAL_AMOUNT s tr

theorem initial_inv : RunInv INITIAL_AMOUNT MAX_WITHDRAW (initial n INITIAL_AMOUNT) [] where
  bank := by
    refine ⟨fun _ => ⟨by simp [initial], le_rfl, by simp [initial]⟩, le_rfl, ?_, by simp [initial]⟩
    simp [initial, Local.taken]
  main := SpawnJoin.Stage.inv_init fun _ => rfl
  lines := ⟨rfl, rfl⟩

/-- A thread that takes a step has been created and has not ended. -/
theorem Step.pc_ne (hs : Step MAX_WITHDRAW rounds balance l balance' l') :
    l.pc ≠ .notCreated ∧ l.pc ≠ .ended ∧ l'.pc ≠ .notCreated := by
  cases hs <;> rename_i hpc <;> simp_all

/-- A thread goes on. -/
theorem RunInv.thread (h : RunInv INITIAL_AMOUNT MAX_WITHDRAW s tr)
    (hs : Step MAX_WITHDRAW (INITIAL_AMOUNT / n) s.balance (s.thread t) balance' l') :
    RunInv INITIAL_AMOUNT MAX_WITHDRAW
      { s with balance := balance', thread := Function.update s.thread t l' } tr := by
  obtain ⟨hcreated, hended, hcreated'⟩ := hs.pc_ne
  refine ⟨h.bank.step hs, ?_, ?_⟩
  · rw [Function.comp_update]
    exact h.main.goto (t := t) hcreated (fun heq => absurd heq hended) hcreated'
  · have hmain := h.main
    have hlines := h.lines
    unfold Reported at hlines ⊢
    cases hpc : s.main <;> simp only [hpc] at hlines ⊢ <;> simp only [hpc, MainPc.stage] at hmain
    case create => exact hlines
    case join k =>
      have hother : ∀ u : Fin n, u.val < k → u ≠ t := by
        rintro u hu rfl
        exact hended (hmain.2 u hu)
      rwa [joined_update _ _ hother]
    case printTotal | check => exact absurd (hmain.2 t) hended
    case returned code =>
      refine hlines.imp_right fun hcode => ?_
      rw [if_pos hcode.1] at hmain
      exact absurd (hmain.2 t) hended

/-- `main` goes on. -/
theorem RunInv.mainStep (h : RunInv INITIAL_AMOUNT MAX_WITHDRAW s tr)
    (hs : mainStep INITIAL_AMOUNT s = some (e, s')) :
    RunInv INITIAL_AMOUNT MAX_WITHDRAW s' (tr ++ e.toList) := by
  obtain ⟨hbank, hmain, hlines⟩ := h
  unfold Reported at hlines
  cases hpc : s.main <;> simp only [hpc] at hlines <;> simp only [hpc, MainPc.stage] at hmain <;>
    simp only [BankWithdrawal.mainStep, hpc, reduceCtorEq] at hs
  case create k =>
    split at hs <;> rename_i hk <;> obtain ⟨rfl, rfl⟩ := Prod.mk.inj (Option.some.inj hs)
    -- the new thread has withdrawn nothing yet
    · have hfresh : (s.thread ⟨k, hk⟩).pc = .notCreated := hmain.2 ⟨k, hk⟩ le_rfl
      have hown := hbank.own ⟨k, hk⟩
      simp only [LocalInv, hfresh] at hown
      refine ⟨hbank.goto hown (by simp [Local.taken, hfresh]) (by simp), ?_, ?_⟩
      · rw [Function.comp_update]
        exact hmain.create hk (by simp)
      · rw [Option.toList_none, List.append_nil]
        exact hlines
    · refine ⟨hbank, hmain.created hk, ?_⟩
      simpa [Reported, joined] using hlines
  case join k =>
    split at hs <;> rename_i hk
    · obtain ⟨hended, hs⟩ := Option.ite_none_right_eq_some.mp hs
      obtain ⟨total, htotal, heq⟩ := Option.bind_eq_some_iff.mp hs
      obtain ⟨-, rfl⟩ := result_eq_some.mp htotal
      obtain ⟨rfl, rfl⟩ := Prod.mk.inj (Option.some.inj heq)
      -- the line of the joined thread, and the total with it
      refine ⟨hbank, hmain.join hk hended, hk, ?_, ?_⟩
      · simp [joined_succ s.thread hk, hlines.2.1]
      · simp [joined_succ s.thread hk, hlines.2.2]
    · obtain ⟨rfl, rfl⟩ := Prod.mk.inj (Option.some.inj hs)
      -- all threads are joined, so that the total is that of all threads
      obtain ⟨hle, rfl, htotal⟩ := hlines
      obtain rfl := le_antisymm hle (not_lt.mp hk)
      exact ⟨hbank, hmain.joined hk, rfl, htotal⟩
  case printTotal =>
    obtain ⟨rfl, rfl⟩ := Prod.mk.inj (Option.some.inj hs)
    exact ⟨hbank, hmain, by simp [hlines.1], hlines.2⟩
  case check =>
    obtain ⟨sum, hsum, hs⟩ := Option.bind_eq_some_iff.mp hs
    obtain ⟨-, rfl⟩ := result_eq_some.mp hsum
    split at hs <;> rename_i hlost
    -- the line about lost transactions, with what is missing
    · obtain ⟨difference, hdifference, heq⟩ := Option.bind_eq_some_iff.mp hs
      obtain ⟨-, rfl⟩ := result_eq_some.mp hdifference
      obtain ⟨rfl, rfl⟩ := Prod.mk.inj (Option.some.inj heq)
      refine ⟨hbank, hmain, .inr ⟨rfl, ?_, hlines.2⟩⟩
      simp [hlines.1, lostLines, hlost]
    · obtain ⟨rfl, rfl⟩ := Prod.mk.inj (Option.some.inj hs)
      refine ⟨hbank, hmain, .inr ⟨rfl, ?_, hlines.2⟩⟩
      simp [hlines.1, lostLines, not_not.mp hlost]

/-- A call of `main` fails. -/
theorem RunInv.mainFails (h : RunInv INITIAL_AMOUNT MAX_WITHDRAW s tr)
    (hs : mainFails s = some (e, s')) :
    RunInv INITIAL_AMOUNT MAX_WITHDRAW s' (tr ++ e.toList) ∧ s'.main = .returned EXIT_FAILURE := by
  have hfailed : ∀ tr', RunInv INITIAL_AMOUNT MAX_WITHDRAW
      { s with main := .returned EXIT_FAILURE } tr' := fun _ =>
    ⟨h.bank, trivial, .inl rfl⟩
  cases hpc : s.main <;> simp only [BankWithdrawal.mainFails, hpc, Option.ite_none_right_eq_some,
    Option.some.injEq, Prod.mk.injEq, reduceCtorEq] at hs
  case create | join =>
    obtain ⟨-, -, rfl⟩ := hs
    exact ⟨hfailed _, rfl⟩

/-- Every step keeps what holds. -/
theorem RunInv.step (h : RunInv INITIAL_AMOUNT (max 1 MAX_WITHDRAW) s tr)
    (hs : (machine n INITIAL_AMOUNT MAX_WITHDRAW).step s a = some (e, s')) :
    RunInv INITIAL_AMOUNT (max 1 MAX_WITHDRAW) s' (tr ++ e.toList) := by
  cases a with
  | main => exact h.mainStep hs
  | mainFails => exact (h.mainFails hs).1
  | thread t draw =>
    simp only [machine, Option.map_eq_some_iff, Prod.exists, Prod.mk.injEq] at hs
    obtain ⟨balance', l', hs, rfl, rfl⟩ := hs
    rw [Option.toList_none, List.append_nil]
    exact h.thread (step_of_doWithdrawals hs)

/-- What holds in every run. -/
theorem run_inv (h : (machine n INITIAL_AMOUNT MAX_WITHDRAW).Run (initial n INITIAL_AMOUNT) tr s) :
    RunInv INITIAL_AMOUNT (max 1 MAX_WITHDRAW) s tr := by
  induction h with
  | nil => exact initial_inv
  | snoc _ hs ih => exact ih.step hs

/-- What threads that have ended have written to the balance is what they have withdrawn. -/
theorem sum_taken (h : ∀ t, (s.thread t).pc = .ended) :
    ∑ t, (s.thread t).taken = ∑ t, (s.thread t).withdrawn :=
  Finset.sum_congr rfl fun t _ => by simp [Local.taken, h t]

/-- In every run, no more is left than at the beginning, and no less than the withdrawals leave.  A
    run that ends well prints what each thread has withdrawn, the balance and the total, and that
    transactions have been lost exactly if more than that is left. -/
theorem report_run
    (h : (machine n INITIAL_AMOUNT MAX_WITHDRAW).Run (initial n INITIAL_AMOUNT) tr s) :
    s.balance ≤ INITIAL_AMOUNT ∧ INITIAL_AMOUNT ≤ s.balance + ∑ t, (s.thread t).taken ∧
    (s.main = .returned EXIT_SUCCESS →
      tr = (List.finRange n).map (fun t => .threadWithdrawal (s.thread t).withdrawn) ++
        [.newBalance s.balance, .totalWithdrawn (∑ t, (s.thread t).withdrawn)] ++
        if INITIAL_AMOUNT < s.balance + ∑ t, (s.thread t).withdrawn then
          [.lost (INITIAL_AMOUNT - s.balance) (∑ t, (s.thread t).withdrawn)]
        else []) := by
  obtain ⟨hbank, hmain, hlines⟩ := run_inv h
  refine ⟨hbank.le, hbank.ge, fun hend => ?_⟩
  have hge := hbank.ge
  simp only [hend, MainPc.stage, if_true] at hmain
  rw [sum_taken hmain.2] at hge
  simp only [Reported, hend] at hlines
  obtain ⟨-, rfl, htotal⟩ := hlines.resolve_left (by decide)
  rw [htotal, sum_joined, joined, List.take_of_length_le (List.length_finRange ..).le,
    List.map_map, lostLines]
  congr 1
  -- the sum is not less than the initial amount
  by_cases heq : s.balance + ∑ t, (s.thread t).withdrawn = INITIAL_AMOUNT
  · rw [if_pos heq, if_neg (by omega)]
  · rw [if_neg heq, if_pos (by omega)]

/-- Two threads that withdraw 1 each at the same time, from 2: one withdrawal is lost. -/
theorem report_run_lost : ∃ s : State 2, (machine 2 2 1).Run (initial 2 2)
    [.threadWithdrawal 1, .threadWithdrawal 1, .newBalance 1, .totalWithdrawn 2, .lost 1 2] s ∧
    s.balance ≤ 2 ∧ 2 ≤ s.balance + ∑ t, (s.thread t).taken := by
  have hrun := Machine.Run.of_exec (M := machine 2 2 1) (s := initial 2 2)
    (List.replicate 3 .main ++ List.replicate 3 (.thread 0 0) ++ List.replicate 7 (.thread 1 0) ++
      List.replicate 4 (.thread 0 0) ++ List.replicate 5 .main) rfl
  obtain ⟨hle, hge, -⟩ := report_run hrun
  exact ⟨_, hrun, hle, hge⟩

/-! ## The bounds of `int` -/

/-- Some of the threads' shares, of which none is too large. -/
theorem sum_map_le {f : Fin n → ℤ} {ts : List (Fin n)} (hlen : ts.length ≤ n)
    (hf : ∀ t, 0 ≤ f t ∧ f t ≤ MAX_WITHDRAW * (INITIAL_AMOUNT / n : ℕ)) :
    0 ≤ (ts.map f).sum ∧ (ts.map f).sum ≤ MAX_WITHDRAW * INITIAL_AMOUNT := by
  have hle := List.sum_le_card_nsmul (ts.map f) (MAX_WITHDRAW * (INITIAL_AMOUNT / n : ℕ) : ℤ)
    (by simpa using fun t _ => (hf t).2)
  have hrounds : ts.length * (MAX_WITHDRAW * (INITIAL_AMOUNT / n)) ≤
      MAX_WITHDRAW * INITIAL_AMOUNT :=
    calc ts.length * (MAX_WITHDRAW * (INITIAL_AMOUNT / n))
        ≤ n * (MAX_WITHDRAW * (INITIAL_AMOUNT / n)) := Nat.mul_le_mul_right _ hlen
      _ = MAX_WITHDRAW * (n * (INITIAL_AMOUNT / n)) := Nat.mul_left_comm ..
      _ ≤ MAX_WITHDRAW * INITIAL_AMOUNT := Nat.mul_le_mul_left _ (Nat.mul_div_le ..)
  refine ⟨List.sum_nonneg (by simpa using fun t _ => (hf t).1), hle.trans ?_⟩
  rw [List.length_map, nsmul_eq_mul]
  exact_mod_cast hrounds

theorem LocalInv.withdrawn_le (h : LocalInv MAX_WITHDRAW rounds l) :
    0 ≤ l.withdrawn ∧ l.withdrawn ≤ MAX_WITHDRAW * rounds := by
  refine ⟨h.2.1, le_trans ?_ h.taken_le.2⟩
  have hamount := h.1.1
  unfold Local.taken
  split <;> omega

theorem Inv.sum_taken_le {thread : Fin n → Local}
    (h : Inv INITIAL_AMOUNT MAX_WITHDRAW balance thread) :
    ∑ t, (thread t).taken ≤ MAX_WITHDRAW * INITIAL_AMOUNT := by
  rw [Fin.sum_univ_def]
  exact (sum_map_le (List.length_finRange ..).le fun t => (h.own t).taken_le).2

theorem Inv.joined_le {thread : Fin n → Local}
    (h : Inv INITIAL_AMOUNT MAX_WITHDRAW balance thread) (k : ℕ) :
    0 ≤ (joined thread k).sum ∧ (joined thread k).sum ≤ MAX_WITHDRAW * INITIAL_AMOUNT := by
  refine sum_map_le ?_ fun t => (h.own t).withdrawn_le
  rw [List.length_take, List.length_finRange]
  exact min_le_right k n

/-- Within these bounds every result fits into `int`. -/
theorem result_of_le {m : ℤ} (hmax : (MAX_WITHDRAW * INITIAL_AMOUNT + INITIAL_AMOUNT : ℤ) ≤ INT_MAX)
    (hm : -(MAX_WITHDRAW * INITIAL_AMOUNT) ≤ m)
    (hm' : m ≤ MAX_WITHDRAW * INITIAL_AMOUNT + INITIAL_AMOUNT) : result m = some m := by
  refine result_eq_some.mpr ⟨⟨?_, hm'.trans hmax⟩, rfl⟩
  have hmin : INT_MIN ≤ -INT_MAX := by decide
  have hpos : (0 : ℤ) ≤ INITIAL_AMOUNT := Int.natCast_nonneg _
  omega

/-! ## The steps that are left -/

/-- How many steps are left for a thread. -/
def Local.rest (rounds : ℕ) (l : Local) : ℕ :=
  match l.pc with
  | .notCreated => 6 * rounds + 2
  | .loop _ => 6 * (rounds - l.i) + 1
  | .test => 6 * (rounds - (l.i + 1)) + 6
  | .load => 6 * (rounds - (l.i + 1)) + 5
  | .store _ => 6 * (rounds - (l.i + 1)) + 4
  | .add => 6 * (rounds - (l.i + 1)) + 3
  | .look => 6 * (rounds - (l.i + 1)) + 2
  | .ended => 0

/-- How many steps are left for `main`. -/
def MainPc.rest (n : ℕ) : MainPc → ℕ
  | .create t => (n - t) + n + 5
  | .join t => (n - t) + 3
  | .printTotal => 2
  | .check => 1
  | .returned _ => 0

/-- A measure that every step makes smaller. -/
def rest (INITIAL_AMOUNT : ℕ) (s : State n) : ℕ :=
  s.main.rest n + Threads.total (Local.rest (INITIAL_AMOUNT / n)) s.thread

theorem Step.rest_lt (hs : Step MAX_WITHDRAW rounds balance l balance' l') :
    l'.rest rounds < l.rest rounds := by
  cases hs with
  | draw hpc hi =>
    simp only [Local.rest, hpc]
    omega
  | stop hpc | reject hpc | accept hpc | load hpc | store hpc | add hpc | look hpc =>
    simp [Local.rest, hpc]

theorem mainStep_rest (h : RunInv INITIAL_AMOUNT MAX_WITHDRAW s tr)
    (hs : mainStep INITIAL_AMOUNT s = some (e, s')) :
    s'.main ≠ .returned EXIT_FAILURE ∧ rest INITIAL_AMOUNT s' < rest INITIAL_AMOUNT s := by
  have hmain := h.main
  cases hpc : s.main <;> simp only [mainStep, hpc, reduceCtorEq] at hs
  case create k =>
    -- `main` has less left, and so has a thread that is created
    split at hs <;> rename_i hk <;> obtain ⟨rfl, rfl⟩ := Prod.mk.inj (Option.some.inj hs)
    · rw [hpc] at hmain
      have hfresh : (s.thread ⟨k, hk⟩).pc = .notCreated := hmain.2 ⟨k, hk⟩ le_rfl
      have hupdate := Threads.total_update (Local.rest (INITIAL_AMOUNT / n)) s.thread ⟨k, hk⟩
        { s.thread ⟨k, hk⟩ with pc := .loop false }
      refine ⟨by simp, ?_⟩
      simp only [rest, MainPc.rest, Local.rest, hpc, hfresh] at hupdate ⊢
      omega
    · refine ⟨by simp, ?_⟩
      simp only [rest, MainPc.rest, hpc]
      omega
  -- a join, or the end of the loop
  case join k =>
    split at hs <;> rename_i hk
    · obtain ⟨-, hs⟩ := Option.ite_none_right_eq_some.mp hs
      obtain ⟨total, -, heq⟩ := Option.bind_eq_some_iff.mp hs
      obtain ⟨rfl, rfl⟩ := Prod.mk.inj (Option.some.inj heq)
      refine ⟨by simp, ?_⟩
      simp only [rest, MainPc.rest, hpc]
      omega
    · obtain ⟨rfl, rfl⟩ := Prod.mk.inj (Option.some.inj hs)
      refine ⟨by simp, ?_⟩
      simp only [rest, MainPc.rest, hpc]
      omega
  case printTotal =>
    obtain ⟨rfl, rfl⟩ := Prod.mk.inj (Option.some.inj hs)
    exact ⟨by simp, by simp [rest, MainPc.rest, hpc]⟩
  case check =>
    obtain ⟨sum, -, hs⟩ := Option.bind_eq_some_iff.mp hs
    split at hs
    · obtain ⟨difference, -, heq⟩ := Option.bind_eq_some_iff.mp hs
      obtain ⟨rfl, rfl⟩ := Prod.mk.inj (Option.some.inj heq)
      exact ⟨by simp [EXIT_SUCCESS, EXIT_FAILURE], by simp [rest, MainPc.rest, hpc]⟩
    · obtain ⟨rfl, rfl⟩ := Prod.mk.inj (Option.some.inj hs)
      exact ⟨by simp [EXIT_SUCCESS, EXIT_FAILURE], by simp [rest, MainPc.rest, hpc]⟩

/-! ## Every run comes to its end -/

/-- Constants with which no operation on `int` overflows. -/
def Fits (INITIAL_AMOUNT MAX_WITHDRAW : ℕ) : Prop :=
  (MAX_WITHDRAW * INITIAL_AMOUNT + INITIAL_AMOUNT : ℤ) ≤ INT_MAX

/-- A thread that has been created and not ended can go on. -/
theorem exists_doWithdrawals {M : ℕ} (hfits : Fits INITIAL_AMOUNT M)
    {thread : Fin n → Local} (h : Inv INITIAL_AMOUNT M balance thread)
    (hcreated : (thread t).pc ≠ .notCreated) (hended : (thread t).pc ≠ .ended) :
    (doWithdrawals MAX_WITHDRAW (INITIAL_AMOUNT / n) 0 balance (thread t)).isSome := by
  have hown := h.own t
  cases hpc : (thread t).pc with
  | notCreated => exact absurd hpc hcreated
  | ended => exact absurd hpc hended
  | loop finished =>
    by_cases hround : (thread t).i < INITIAL_AMOUNT / n ∧ finished = false
    · simp [doWithdrawals, hpc, hround]
    · simp [doWithdrawals, hpc, hround]
  | test | load | look => simp [doWithdrawals, hpc]
  | store reg =>
    -- what is written fulfils the bounds of the balance
    have hnext := h.step (Step.store hpc)
    have hsum := hnext.sum_taken_le
    have hge := hnext.ge
    have hle := hnext.le
    have hresult : result (reg - (thread t).amount) = some (reg - (thread t).amount) :=
      result_of_le hfits (by omega) (by omega)
    simp [doWithdrawals, hpc, hresult]
  | add =>
    have hadd : Step M (INITIAL_AMOUNT / n) balance (thread t) balance _ :=
      Step.add hpc
    obtain ⟨hpos, hle⟩ := (hown.step hadd).withdrawn_le
    have hrounds : (M * (INITIAL_AMOUNT / n : ℕ) : ℤ) ≤ M * INITIAL_AMOUNT := by
      exact_mod_cast Nat.mul_le_mul_left M (Nat.div_le_self ..)
    simp only at hpos hle
    have hresult : result ((thread t).withdrawn + (thread t).amount) =
        some ((thread t).withdrawn + (thread t).amount) :=
      result_of_le hfits (by omega) (by omega)
    simp [doWithdrawals, hpc, hresult]

/-- Before its end, unless a call has failed, the process can go on without a failure. -/
theorem exists_step {M : ℕ} (hfits : Fits INITIAL_AMOUNT M)
    (h : RunInv INITIAL_AMOUNT M s tr) (hfail : s.main ≠ .returned EXIT_FAILURE)
    (hend : s.main ≠ .returned EXIT_SUCCESS) :
    ∃ a r, a ≠ .mainFails ∧ (machine n INITIAL_AMOUNT MAX_WITHDRAW).step s a = some r := by
  -- where `main` can go on, it does
  have hgo : (mainStep INITIAL_AMOUNT s).isSome →
      ∃ a r, a ≠ .mainFails ∧ (machine n INITIAL_AMOUNT MAX_WITHDRAW).step s a = some r := by
    intro hsome
    obtain ⟨r, hr⟩ := Option.isSome_iff_exists.mp hsome
    exact ⟨.main, r, by simp, hr⟩
  obtain ⟨hbank, hmain, hlines⟩ := h
  unfold Reported at hlines
  cases hpc : s.main <;> simp only [hpc] at hlines <;> simp only [hpc, MainPc.stage] at hmain
  case create k => by_cases hk : k < n <;> exact hgo (by simp [mainStep, hpc, hk])
  case join k =>
    by_cases hk : k < n
    · by_cases hended : (s.thread ⟨k, hk⟩).pc = .ended
      · -- the total with what this thread has withdrawn
        obtain ⟨hpos, hle⟩ := hbank.joined_le (k + 1)
        rw [joined_succ s.thread hk, List.sum_append, List.sum_singleton, ← hlines.2.2] at hpos hle
        have hresult : result (s.totalWithdrawn + (s.thread ⟨k, hk⟩).withdrawn) =
            some (s.totalWithdrawn + (s.thread ⟨k, hk⟩).withdrawn) :=
          result_of_le hfits (by omega) (by omega)
        exact hgo (by simp [mainStep, hpc, hk, hended, hresult])
      -- `main` waits for a thread, which can go on: no operation overflows
      · have hsome :
            ((machine n INITIAL_AMOUNT MAX_WITHDRAW).step s (.thread ⟨k, hk⟩ 0)).isSome := by
          simpa [machine] using exists_doWithdrawals hfits hbank (hmain.1 ⟨k, hk⟩) hended
        obtain ⟨r, hr⟩ := Option.isSome_iff_exists.mp hsome
        exact ⟨_, r, by simp, hr⟩
    · exact hgo (by simp [mainStep, hpc, hk])
  case printTotal => exact hgo (by simp [mainStep, hpc])
  -- the operations of the check fit into `int`, whatever has been lost
  case check =>
    have hge := hbank.ge
    have hle := hbank.le
    obtain ⟨hpos, hmax⟩ := hbank.joined_le n
    rw [sum_taken hmain.2, ← sum_joined, ← hlines.2] at hge
    rw [← hlines.2] at hpos hmax
    have hsum : result (s.balance + s.totalWithdrawn) = some (s.balance + s.totalWithdrawn) :=
      result_of_le hfits (by omega) (by omega)
    have hdifference : result (INITIAL_AMOUNT - s.balance) = some (INITIAL_AMOUNT - s.balance) :=
      result_of_le hfits (by omega) (by omega)
    by_cases heq : s.balance + s.totalWithdrawn = INITIAL_AMOUNT
    · rw [heq] at hsum
      exact hgo (by simp [mainStep, hpc, heq, hsum])
    · exact hgo (by simp [mainStep, hpc, hsum, hdifference, heq])
  case returned code =>
    rcases hlines with rfl | ⟨rfl, -⟩
    · exact absurd hpc hfail
    · exact absurd hpc hend

/-- With such constants the program ends well from every state that it reaches without a failure of
    `main`, whatever steps other than such failures are taken; until then there is always one to
    take. -/
theorem inevitable_exit_success (hfits : Fits INITIAL_AMOUNT MAX_WITHDRAW)
    (hdraw : 0 < MAX_WITHDRAW)
    (h : (machine n INITIAL_AMOUNT MAX_WITHDRAW).Reachable (initial n INITIAL_AMOUNT) s)
    (hfail : s.main ≠ .returned EXIT_FAILURE) :
    (machine n INITIAL_AMOUNT MAX_WITHDRAW).Inevitable (fun _ a => a ≠ .mainFails)
      (fun s => s.main = .returned EXIT_SUCCESS) s := by
  obtain ⟨tr, hrun⟩ := h
  rw [← Nat.max_eq_right hdraw] at hfits
  refine Machine.Inevitable.of_measure (rest INITIAL_AMOUNT)
    (I := fun s => (∃ tr, RunInv INITIAL_AMOUNT (max 1 MAX_WITHDRAW) s tr) ∧
      s.main ≠ .returned EXIT_FAILURE) ?_ ?_ ⟨⟨tr, run_inv hrun⟩, hfail⟩
  · rintro s ⟨⟨tr, hinv⟩, hfail⟩ hend
    exact exists_step hfits hinv hfail hend
  -- every step makes the measure smaller: steps of `main` and of the threads
  · rintro s a e s' ⟨⟨tr, hinv⟩, hfail⟩ - hok hs
    have hinv' := hinv.step hs
    cases a with
    | mainFails => exact absurd rfl hok
    | main =>
      obtain ⟨hfail', hlt⟩ := mainStep_rest hinv hs
      exact ⟨⟨⟨_, hinv'⟩, hfail'⟩, hlt⟩
    | thread t draw =>
      simp only [machine, Option.map_eq_some_iff, Prod.exists, Prod.mk.injEq] at hs
      obtain ⟨balance', l', hs, rfl, rfl⟩ := hs
      have hlt := (step_of_doWithdrawals hs).rest_lt
      have hupdate := Threads.total_update (Local.rest (INITIAL_AMOUNT / n)) s.thread t l'
      refine ⟨⟨⟨_, hinv'⟩, hfail⟩, ?_⟩
      simp only [rest]
      omega

/-- The constants of the source. -/
theorem inevitable_exit_success_4 :
    (machine 4 (2 ^ 22) (2 ^ 6)).Inevitable (fun _ a => a ≠ .mainFails)
      (fun s => s.main = .returned EXIT_SUCCESS) (initial 4 (2 ^ 22)) :=
  inevitable_exit_success (by unfold Fits; decide) (by decide) (.refl _) (by simp [initial])

end BankWithdrawal
