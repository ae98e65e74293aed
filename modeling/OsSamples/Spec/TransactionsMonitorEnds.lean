import OsSamples.Spec.TransactionsMonitor

/-!
# The transactions come to an end

A thread has a bounded number of steps to take for its transactions, and the thread inside of the
lock can always go on; when nobody is inside, every thread can.

## Key results

- `doTransactions_rest`: a measure that every step makes smaller
- `exists_step`: the `lock` blocks all threads at no time
- `inevitable_all_done`: all threads end
-/

namespace TransactionsMonitor

open CInt

variable {T : Type*} [DecidableEq T] {initial transactions next : ℤ} {s s' : Account T}
  {l l' : Local} {loc : T → Local} {t : T} {e : Option Event} {tr : List Event}
  {cfg : Config T (Account T) Local}

/-! ## The steps that are left -/

/-- A thread in a transaction has one to do. -/
def Local.Ok (transactions : ℤ) (l : Local) : Prop :=
  0 ≤ l.i ∧
    match l.pc with
    | .loop | .done => True
    | .draw | .guard | .thrown | .lock | .test | .printBefore | .printAmount | .load | .store _
    | .printAfter | .unlock _ => l.i < transactions

/-- How many steps are left in a transaction, and for the next test of the `for` loop. -/
def Pc.rest : Pc → ℕ
  | .loop => 1
  | .draw => 11
  | .guard => 10
  | .lock => 9
  | .test => 8
  | .printBefore => 7
  | .printAmount => 6
  | .load => 5
  | .store _ => 4
  | .printAfter => 3
  | .unlock _ => 2
  | .thrown | .done => 0

/-- How many steps are left for a thread. -/
def Local.rest (transactions : ℤ) (l : Local) : ℕ :=
  match l.pc with
  | .loop => 11 * (transactions - l.i).toNat + 1
  | .thrown | .done => 0
  | pc => 11 * (transactions - (l.i + 1)).toNat + pc.rest

/-- Every step of a thread leaves it less to do. -/
theorem doTransactions_rest (hmax : transactions ≤ INT_MAX) (hok : l.Ok transactions)
    (hs : doTransactions transactions t next s l = some (e, s', l')) :
    l'.Ok transactions ∧ l'.rest transactions < l.rest transactions := by
  obtain ⟨hi, hpc'⟩ := hok
  cases hpc : l.pc <;> simp only [hpc] at hpc' <;>
    simp only [doTransactions, withdraw, hpc, Option.map_eq_some_iff, Option.some.injEq,
      Prod.mk.injEq, reduceCtorEq] at hs
  case loop =>
    obtain ⟨-, -, rfl⟩ := hs
    by_cases hround : l.i < transactions
    · simp only [if_pos hround]
      refine ⟨⟨hi, hround⟩, ?_⟩
      simp only [Local.rest, Pc.rest, hpc]
      omega
    · simp only [if_neg hround]
      exact ⟨⟨hi, trivial⟩, by simp [Local.rest, hpc]⟩
  case draw =>
    obtain ⟨-, heq⟩ := Option.ite_none_right_eq_some.mp hs
    obtain ⟨-, -, rfl⟩ := by
      simpa only [Option.some.injEq, Prod.mk.injEq] using heq
    exact ⟨⟨hi, hpc'⟩, by simp [Local.rest, Pc.rest, hpc]⟩
  case guard =>
    obtain ⟨-, -, rfl⟩ := hs
    split
    · exact ⟨⟨hi, hpc'⟩, by simp [Local.rest, Pc.rest, hpc]⟩
    · exact ⟨⟨hi, hpc'⟩, by simp [Local.rest, Pc.rest, hpc]⟩
  case lock =>
    obtain ⟨m, -, -, -, rfl⟩ := hs
    exact ⟨⟨hi, hpc'⟩, by simp [Local.rest, Pc.rest, hpc]⟩
  case test =>
    obtain ⟨-, -, rfl⟩ := hs
    split
    · exact ⟨⟨hi, hpc'⟩, by simp [Local.rest, Pc.rest, hpc]⟩
    · exact ⟨⟨hi, hpc'⟩, by simp [Local.rest, Pc.rest, hpc]⟩
  case unlock result =>
    -- the number of the next transaction is an `int`
    obtain ⟨m, -, -, -, rfl⟩ := hs
    have hmin : INT_MIN ≤ l.i + 1 := by
      unfold INT_MIN
      omega
    have hnext : toInt32 (l.i + 1) = l.i + 1 := toInt32_of_range hmin (by omega)
    refine ⟨⟨?_, trivial⟩, ?_⟩
    · show 0 ≤ toInt32 (l.i + 1)
      omega
    · simp only [Local.rest, Pc.rest, hpc, hnext]
      omega
  all_goals
    obtain ⟨-, -, rfl⟩ := hs
    exact ⟨⟨hi, hpc'⟩, by simp [Local.rest, Pc.rest, hpc]⟩

/-! ## Who can go on -/

/-- A thread that has not ended can go on, unless it waits for the lock. -/
theorem exists_doTransactions (h : Inv initial tr s loc) (hdone : (loc t).pc ≠ .done)
    (hlock : (loc t).pc = .lock → s.thisLock.owner = none) :
    ∃ r, doTransactions transactions t 0 s (loc t) = some r := by
  have hthrown := h.notThrown t
  cases hpc : (loc t).pc with
  | done => exact absurd hpc hdone
  | thrown => exact absurd hpc hthrown
  | lock =>
    have hfree := hlock hpc
    exact ⟨_, by simp only [doTransactions, withdraw, hpc, Monitor.enter, if_pos hfree]; rfl⟩
  | unlock result =>
    have howner := h.owner (t := t) (by simp [Local.inside, hpc])
    exact ⟨_, by simp only [doTransactions, withdraw, hpc, Monitor.exit, if_pos howner]; rfl⟩
  | draw => exact ⟨_, by simp only [doTransactions, hpc]; exact if_pos (by decide)⟩
  | loop | guard | test | printBefore | printAmount | load | store | printAfter =>
    exact ⟨_, by simp only [doTransactions, withdraw, hpc]; rfl⟩

/-- The thread inside of the lock can go on, and any other one when there is none. -/
theorem exists_step (h : Inv initial tr cfg.shared cfg.loc) (hdone : (cfg.loc t).pc ≠ .done) :
    ∃ a r, (machine transactions).step cfg a = some r := by
  have hgo : ∀ u, (∃ r, doTransactions transactions u 0 cfg.shared (cfg.loc u) = some r) →
      ∃ a r, (machine transactions).step cfg a = some r := by
    rintro u ⟨⟨e, s', l'⟩, hs⟩
    exact ⟨(u, 0), _, Threads.machine_step_eq_some.mpr ⟨s', l', hs, rfl⟩⟩
  cases howner : cfg.shared.thisLock.owner with
  | none => exact hgo t (exists_doTransactions h hdone fun _ => howner)
  | some u =>
    -- the owner neither waits for the lock nor has ended
    have hin : (cfg.loc u).inside = true := (h.lock u).mp howner
    unfold Local.inside at hin
    refine hgo u (exists_doTransactions h (fun hpc => ?_) fun hpc => ?_)
    · rw [hpc] at hin
      exact nomatch hin
    · rw [hpc] at hin
      exact nomatch hin

/-! ## Main result -/

/-- What holds in every reachable state. -/
def Live (initial transactions : ℤ) (cfg : Config T (Account T) Local) : Prop :=
  (∃ tr, Inv initial tr cfg.shared cfg.loc) ∧ ∀ t, (cfg.loc t).Ok transactions

/-- Every step keeps what holds, and makes the steps that are left fewer. -/
theorem machine_rest [Fintype T] {cfg' : Config T (Account T) Local} {a : T × ℤ}
    (hmax : initial ≤ INT_MAX) (htransactions : transactions ≤ INT_MAX)
    (h : Live initial transactions cfg)
    (hs : (machine transactions).step cfg a = some (e, cfg')) :
    Live initial transactions cfg' ∧
      Threads.total (Local.rest transactions) cfg'.loc <
        Threads.total (Local.rest transactions) cfg.loc := by
  obtain ⟨⟨tr, hinv⟩, hok⟩ := h
  obtain ⟨s', l', hs', rfl⟩ := Threads.machine_step_eq_some.mp hs
  obtain ⟨hok', hlt⟩ := doTransactions_rest htransactions (hok a.1) hs'
  refine ⟨⟨⟨_, hinv.step hmax (step_cases hs')⟩, ?_⟩, ?_⟩
  · apply (Function.forall_update_iff cfg.loc fun _ l => l.Ok transactions).mpr
    exact ⟨hok', fun u _ => hok u⟩
  · have hsum := Threads.total_update (Local.rest transactions) cfg.loc a.1 l'
    show Threads.total _ (Function.update cfg.loc a.1 l') < _
    omega

/-- For every initial balance that is not negative, any threads and any number of transactions: from
    every state that is reached all threads end, whichever of them goes on and whatever amounts it
    draws; and until then there is always one that can.  The `lock` leaves no thread waiting. -/
theorem inevitable_all_done [Fintype T] (h0 : 0 ≤ initial) (hmax : initial ≤ INT_MAX)
    (htransactions : transactions ≤ INT_MAX)
    (h : (machine transactions).Reachable (start T initial) cfg) :
    (machine transactions).Inevitable (fun _ _ => True) (fun cfg => ∀ t, (cfg.loc t).pc = .done)
      cfg := by
  have hlive : Live initial transactions cfg :=
    h.invariant (I := Live initial transactions)
      (fun _ _ _ _ hI hs => (machine_rest hmax htransactions hI hs).1)
      ⟨⟨[], start_inv h0⟩, fun _ => ⟨le_refl 0, trivial⟩⟩
  refine Machine.Inevitable.of_measure (I := Live initial transactions)
    (fun cfg => Threads.total (Local.rest transactions) cfg.loc) ?_ ?_ hlive
  · rintro cfg ⟨⟨tr, hinv⟩, -⟩ hend
    obtain ⟨t, ht⟩ := not_forall.mp hend
    obtain ⟨a, r, hs⟩ : ∃ a r, (machine transactions).step cfg a = some r :=
      exists_step hinv ht
    exact ⟨a, r, trivial, hs⟩
  · intro cfg a e cfg' hI _ _ hs
    exact machine_rest hmax htransactions hI hs

/-- One of two threads is in the `lock` block, and the other one waits for it. -/
theorem inevitable_all_done_waiting : ∃ cfg : Config Bool (Account Bool) Local,
    cfg.shared.thisLock.owner = some false ∧ (cfg.loc true).pc = .lock ∧
      (machine 100).Inevitable (fun _ _ => True) (fun cfg => ∀ t, (cfg.loc t).pc = .done)
        cfg := by
  have hrun := Machine.Reachable.of_exec (M := machine (T := Bool) 100) (s := start Bool 1000)
    [(true, 0), (true, 5), (true, 0), (false, 0), (false, 99), (false, 0), (false, 0)] rfl
  exact ⟨_, rfl, rfl, inevitable_all_done (by decide) (by decide) (by decide) hrun⟩

end TransactionsMonitor
