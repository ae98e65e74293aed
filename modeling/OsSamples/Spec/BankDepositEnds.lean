import OsSamples.Spec.BankDeposit

/-!
# The deposits come to an end

With a method that locks, the threads of `bank_deposit` never block each other for good: from every
state that they reach, all of them finish, and the balance is the right one.  A thread of a
busy-waiting method can go round in its loop while the lock is held; those turns are the only ones
that do not bring the threads closer to the end.  The methods with an OS call have none.

## Key results

- `csEnterStep_rest`: `cs_enter` gets closer to its return, except for a turn of a waiting loop
- `exists_step`: some thread has a step that is not such a turn
- `inevitable_deposited`: all threads finish, from every state that they reach
-/

namespace Everything

variable {P T : Type*} {m : CsMethod} {p : P} {i : T} {env env' : Env P T} {busyWaitYields : Bool}
  {pc pc' : EnterPc}

/-- The points of `cs_enter` that the threads come to with method `m`. -/
def EnterPc.fits (m : CsMethod) : EnterPc → Bool
  | .load => m = .testXchg
  | .exchange | .yield => m = .xchg ∨ m = .testXchg
  | .call => m.isCall
  | .store => false
  | .ret _ => true

/-- The thread is in a waiting loop of `cs_enter` and the condition of the loop holds. -/
def EnterPc.spins (env : Env P T) : EnterPc → Bool
  | .load | .exchange | .yield =>
    match CsMethod.ofInt env.vars.csMethodUsed with
    | some .xchg => env.vars.lockedAtomic
    | some .testXchg => env.vars.locked
    | _ => false
  | .store | .call | .ret _ => false

/-- The number of steps that `cs_enter` has still to take when it finds the lock free, at most. -/
def EnterPc.rest : EnterPc → ℕ
  | .yield => 3
  | .load => 2
  | .exchange | .store | .call => 1
  | .ret _ => 0

theorem EnterPc.rest_le (pc : EnterPc) : pc.rest ≤ 3 := by
  cases pc <;> simp [rest]

/-- Where `cs_enter` begins. -/
theorem csEnter_fits (hm : m.isLock = true)
    (hmeth : CsMethod.ofInt env.vars.csMethodUsed = some m) : (csEnter env).fits m = true := by
  simp only [csEnter, hmeth]
  cases m <;> first | rfl | cases hm

variable [DecidableEq P]

/-- A step of `cs_enter` gets closer to the return, unless it is a turn of a waiting loop. -/
theorem csEnterStep_rest (hm : m.isLock = true)
    (hmeth : CsMethod.ofInt env.vars.csMethodUsed = some m)
    (hs : csEnterStep busyWaitYields p i false env pc = some (env', pc')) :
    pc'.fits m = true ∧ (pc.spins env = false → pc'.rest < pc.rest) := by
  by_cases hcall : m.isCall = true
  · obtain ⟨rfl, ok, rfl, -⟩ := csEnterStep_isCall hcall hmeth hs
    exact ⟨rfl, fun _ => Nat.zero_lt_one⟩
  · simp only [csEnterStep, hmeth] at hs
    cases m <;>
      simp only [CsMethod.isLock, CsMethod.isCall, Bool.false_eq_true, not_true] at hm hcall
    case xchg =>
      cases pc <;> simp only [CsMethod.isCall, Bool.false_eq_true, if_false, reduceCtorEq,
        Option.some.injEq, Prod.mk.injEq] at hs <;> obtain ⟨rfl, rfl⟩ := hs
      case exchange =>
        -- the exchange returns the old value
        cases hl : env.vars.lockedAtomic <;> cases busyWaitYields <;>
          simp [EnterPc.fits, EnterPc.spins, EnterPc.rest, spin, hmeth, hl]
      case yield => simp [EnterPc.fits, EnterPc.rest]
    case testXchg =>
      cases pc <;> simp only [CsMethod.isCall, Bool.false_eq_true, if_false, reduceCtorEq,
        Option.some.injEq, Prod.mk.injEq] at hs <;> obtain ⟨rfl, rfl⟩ := hs
      case load | exchange =>
        cases hl : env.vars.locked <;> cases busyWaitYields <;>
          simp [EnterPc.fits, EnterPc.spins, EnterPc.rest, spin, hmeth, hl]
      case yield => simp [EnterPc.fits, EnterPc.rest]

/-- On the free lock `cs_enter` neither blocks nor goes round in a waiting loop. -/
theorem exists_csEnterStep (hm : m.isLock = true) (h : LockRep m p env none)
    (hfits : pc.fits m = true) (hret : ∀ ok, pc ≠ .ret ok) :
    pc.spins env = false ∧ ∃ r, csEnterStep busyWaitYields p i false env pc = some r := by
  have hmeth := h.method
  by_cases hcall : m.isCall = true
  · have hpc : pc = .call := by
      cases pc <;> cases m <;> simp [EnterPc.fits, CsMethod.isCall] at hfits hcall hret ⊢
    obtain ⟨env', henter, -⟩ := h.enterCall (i := i) hcall
    rw [hpc, csEnterStep_call hcall hmeth, if_neg Bool.false_ne_true, henter]
    exact ⟨rfl, _, rfl⟩
  · cases m <;>
      simp only [CsMethod.isLock, CsMethod.isCall, Bool.false_eq_true, not_true] at hm hcall
    case xchg =>
      have hl := lockedAtomic_eq h.tokens
      cases pc <;> simp [EnterPc.fits, CsMethod.isCall] at hfits hret <;>
        simp [EnterPc.spins, csEnterStep, hmeth, hl]
    case testXchg =>
      have hl := locked_eq h.tokens
      cases pc <;> simp [EnterPc.fits, CsMethod.isCall] at hfits hret <;>
        simp [EnterPc.spins, csEnterStep, hmeth, hl]

end Everything

namespace BankDeposit

open Everything (EnterPc LockSim LockRep csEnter csEnterStep csLeave csInit)

variable {P T : Type*} [DecidableEq P] [DecidableEq T] {opts : Options} {busyWaitYields : Bool}
  {m : CsMethod} {p : P} {tid : T} {s s' : Shared P T} {l l' : Local} {loc : T → Local}
  {e : Option Empty} {o : Option T}

/-! ## Every step but a turn of a waiting loop counts -/

/-- The points of `bank_deposit` that the threads come to with method `m`. -/
def Pc.Fits (m : CsMethod) (pc : Pc) : Prop := ∀ epc, pc = .entering epc → epc.fits m = true

/-- The thread takes a turn of a waiting loop, at this point of `bank_deposit`. -/
def Pc.spins (env : Env P T) : Pc → Bool
  | .entering pc => pc.spins env
  | .barrier | .waiting | .test | .load | .store _ | .leaving | .incr | .finished => false

/-- The thread has not arrived at the barrier. -/
def Local.absent (l : Local) : ℕ := if l.pc = .barrier then 1 else 0

/-- The number of steps that the thread has still to take, turns of waiting loops apart, at most. -/
def Local.rest (opts : Options) (l : Local) : ℕ :=
  let n := opts.bankTransactionsPerThread.toNat
  match l.pc with
  | .barrier => 10 * n + 3
  | .waiting => 10 * n + 2
  | .test => 10 * (n - l.i.toNat) + 1
  | .entering pc => 10 * (n - l.i.toNat - 1) + 7 + pc.rest
  | .load => 10 * (n - l.i.toNat - 1) + 6
  | .store _ => 10 * (n - l.i.toNat - 1) + 5
  | .leaving => 10 * (n - l.i.toNat - 1) + 4
  | .incr => 10 * (n - l.i.toNat - 1) + 3
  | .finished => 0

/-- What a step of `bank_deposit` does to the barrier, and to the way of the thread to its end. -/
theorem bankDeposit_rest (hm : m.isLock = true) (hrep : LockRep m p s.env o)
    (hloop : LoopInv opts l)
    (hs : bankDeposit opts busyWaitYields p tid () s l = some (e, s', l')) :
    l'.pc.Fits m ∧ s'.arrived + l'.absent = s.arrived + l.absent ∧
      (l.pc.spins s.env = false → l'.rest opts < l.rest opts) := by
  cases hpc : l.pc with
  -- the thread comes to the barrier
  | barrier =>
    simp only [bankDeposit, hpc, Option.some.injEq, Prod.mk.injEq] at hs
    obtain ⟨-, rfl, rfl⟩ := hs
    exact ⟨by simp [Pc.Fits], by simp [Local.absent, hpc], fun _ => by simp [Local.rest, hpc]⟩
  -- it leaves the barrier only when all have come
  | waiting =>
    simp only [bankDeposit, hpc, Option.ite_none_left_eq_some, Option.some.injEq,
      Prod.mk.injEq] at hs
    obtain ⟨-, -, rfl, rfl⟩ := hs
    exact ⟨by simp [Pc.Fits], by simp [Local.absent, hpc], fun _ => by simp [Local.rest, hpc]⟩
  | test =>
    simp only [bankDeposit, hpc] at hs
    split at hs <;> rename_i hlt <;> simp only [Option.some.injEq, Prod.mk.injEq] at hs <;>
      obtain ⟨-, rfl, rfl⟩ := hs
    -- one more round: `cs_enter` takes at most so many steps without its waiting loop
    · have hentry := Everything.csEnter_fits hm hrep.method
      have hle := EnterPc.rest_le (csEnter s.env)
      rw [BitVec.lt_def] at hlt
      refine ⟨by simpa [Pc.Fits] using hentry, by simp [Local.absent, hpc], fun _ => ?_⟩
      simp only [Local.rest, hpc]
      omega
    · exact ⟨by simp [Pc.Fits], by simp [Local.absent, hpc], fun _ => by simp [Local.rest, hpc]⟩
  | entering pc =>
    -- the end of `cs_enter`, or one of its steps
    by_cases hret : ∃ ok, pc = .ret ok
    · obtain ⟨ok, rfl⟩ := hret
      simp only [bankDeposit, hpc, Option.some.injEq, Prod.mk.injEq] at hs
      obtain ⟨-, rfl, rfl⟩ := hs
      exact ⟨by simp [Pc.Fits], by simp [Local.absent, hpc], fun _ => by
        simp [Local.rest, EnterPc.rest, hpc]⟩
    · rw [not_exists] at hret
      simp only [bankDeposit, hpc, Option.map_eq_some_iff, Prod.exists, Prod.mk.injEq] at hs
      obtain ⟨env₁, pc₁, hen, -, rfl, rfl⟩ := hs
      obtain ⟨hfits₁, hrest⟩ := Everything.csEnterStep_rest hm hrep.method hen
      -- a turn of the waiting loop makes nothing smaller, and is not counted here
      refine ⟨by simpa [Pc.Fits] using hfits₁, by simp [Local.absent, hpc], fun hspins => ?_⟩
      have hlt := hrest hspins
      simp only [Local.rest, hpc]
      omega
  | load =>
    simp only [bankDeposit, hpc, Option.some.injEq, Prod.mk.injEq] at hs
    obtain ⟨-, rfl, rfl⟩ := hs
    exact ⟨by simp [Pc.Fits], by simp [Local.absent, hpc], fun _ => by simp [Local.rest, hpc]⟩
  | store value =>
    simp only [bankDeposit, hpc, Option.some.injEq, Prod.mk.injEq] at hs
    obtain ⟨-, rfl, rfl⟩ := hs
    exact ⟨by simp [Pc.Fits], by simp [Local.absent, hpc], fun _ => by simp [Local.rest, hpc]⟩
  | leaving =>
    simp only [bankDeposit, hpc, Option.map_eq_some_iff, Prod.mk.injEq] at hs
    obtain ⟨r, -, -, rfl, rfl⟩ := hs
    exact ⟨by simp [Pc.Fits], by simp [Local.absent, hpc], fun _ => by simp [Local.rest, hpc]⟩
  -- `i` has not come to its end, so that the increment does not wrap around
  | incr =>
    simp only [LoopInv, hpc] at hloop
    simp only [bankDeposit, hpc, Option.some.injEq, Prod.mk.injEq] at hs
    obtain ⟨-, rfl, rfl⟩ := hs
    have hi := toNat_incr hloop
    refine ⟨by simp [Pc.Fits], by simp [Local.absent, hpc], fun _ => ?_⟩
    simp only [Local.rest, hpc, hi]
    omega
  | finished => simp [bankDeposit, hpc] at hs

/-! ## The threads never block each other for good -/

/-- What the threads share, and where each of them is. -/
structure EndInv (m : CsMethod) (opts : Options) (p : P) (s : Shared P (Fin opts.threadCount))
    (loc : Fin opts.threadCount → Local) : Prop where
  lock : LockView m p s loc
  balance : BalanceInv opts s.accountBalance loc
  fits : ∀ tid, (loc tid).pc.Fits m
  arrived : s.arrived + Threads.total Local.absent loc = opts.threadCount

variable {s s' : Shared P (Fin opts.threadCount)} {loc : Fin opts.threadCount → Local}
  {tid : Fin opts.threadCount}

theorem EndInv.step (hm : m.isLock = true) (h : EndInv m opts p s loc)
    (hs : bankDeposit opts busyWaitYields p tid () s (loc tid) = some (e, s', l')) :
    EndInv m opts p s' (Function.update loc tid l') := by
  obtain ⟨o, hsim⟩ := h.lock
  obtain ⟨hfits, harrived, -⟩ :=
    bankDeposit_rest hm hsim.rep (h.balance.loop tid) hs
  refine ⟨h.lock.step hm hs, bankDeposit_balance h.lock h.balance hs, fun j => ?_, ?_⟩
  · by_cases hj : j = tid
    · rwa [hj, Function.update_self]
    · rw [Function.update_of_ne hj]
      exact h.fits j
  · have hupdate := Threads.total_update Local.absent loc tid l'
    have hbefore := h.arrived
    omega

/-- The threads before their first step. -/
theorem EndInv.start {env : Env P (Fin opts.threadCount)} {i₀ : Fin opts.threadCount → BitVec 32}
    (hm : m.isLock = true) (hrep : LockRep m p env none) :
    EndInv m opts p ⟨env, opts.accountStart, 0⟩ (created opts env i₀).loc := by
  have hbalance : BalanceInv opts opts.accountStart (created opts env i₀).loc :=
    machine_reachable_balance hm hrep (Machine.Reachable.refl (M := machine opts false p) _)
  have habsent : Threads.total Local.absent (created opts env i₀).loc =
      Fintype.card (Fin opts.threadCount) * 1 := Threads.total_const fun _ => rfl
  refine ⟨⟨none, LockSim.allOutside hrep⟩, hbalance, fun _ => by simp [created, Pc.Fits], ?_⟩
  rw [habsent, Fintype.card_fin, Nat.mul_one, Nat.zero_add]

/-- The thread that holds the lock goes on. -/
theorem exists_step_of_holder (hm : m.isLock = true)
    (hsim : LockSim m p ⟨s.env, fun tid => (loc tid).pc.toThread⟩ (some tid)) :
    (loc tid).pc.spins s.env = false ∧
      ∃ r, bankDeposit opts busyWaitYields p tid () s (loc tid) = some r := by
  have hholds : (loc tid).pc.toThread.holds = true := (hsim.holder tid).mpr rfl
  cases hpc : (loc tid).pc with
  | barrier | waiting | test | incr | finished =>
    rw [hpc] at hholds
    cases hholds
  | entering pc =>
    rw [hpc] at hholds
    cases pc with
    | ret ok => exact ⟨rfl, by simp [bankDeposit, hpc]⟩
    | load | exchange | store | yield | call => cases hholds
  | load | store => exact ⟨rfl, by simp [bankDeposit, hpc]⟩
  | leaving =>
    obtain ⟨env', hleave, -⟩ := Everything.csLeave_lock hm hsim.rep
    exact ⟨rfl, by simp [bankDeposit, hpc, hleave]⟩

/-- While the lock is free, a thread goes on, or it waits at the barrier for one that does. -/
theorem exists_step_of_free (hm : m.isLock = true) (h : EndInv m opts p s loc)
    (hsim : LockSim m p ⟨s.env, fun tid => (loc tid).pc.toThread⟩ none)
    (htid : (loc tid).pc ≠ .finished) :
    ∃ tid, (loc tid).pc.spins s.env = false ∧
      ∃ r, bankDeposit opts busyWaitYields p tid () s (loc tid) = some r := by
  have hfree : (loc tid).pc.toThread.holds ≠ true := fun hholds => by
    have hnone := (hsim.holder tid).mp hholds
    cases hnone
  cases hpc : (loc tid).pc with
  | barrier | incr => exact ⟨tid, by simp [hpc, Pc.spins], by simp [bankDeposit, hpc]⟩
  | test =>
    refine ⟨tid, by simp [hpc, Pc.spins], ?_⟩
    simp only [bankDeposit, hpc]
    split <;> exact ⟨_, rfl⟩
  | waiting =>
    by_cases hlt : s.arrived < opts.threadCount
    · -- a thread has not come to the barrier yet
      have harrived := h.arrived
      have hpos : Threads.total Local.absent loc ≠ 0 := by omega
      obtain ⟨j, hj⟩ := not_forall.mp (mt Threads.total_eq_zero.mpr hpos)
      have hbarrier : (loc j).pc = .barrier := by
        by_contra hne
        simp [Local.absent, hne] at hj
      exact ⟨j, by simp [hbarrier, Pc.spins], by simp [bankDeposit, hbarrier]⟩
    · exact ⟨tid, by simp [hpc, Pc.spins], by simp [bankDeposit, hpc, hlt]⟩
  | entering pc =>
    have hret : ∀ ok, pc ≠ .ret ok := by
      rintro ok rfl
      cases ok with
      | true => exact hfree (by rw [hpc]; rfl)
      | false => exact hsim.ok tid (by simp only [hpc]; rfl)
    obtain ⟨hspins, r, hr⟩ : pc.spins s.env = false ∧
        ∃ r, csEnterStep busyWaitYields p tid false s.env pc = some r :=
      Everything.exists_csEnterStep hm hsim.rep (h.fits tid pc hpc) hret
    exact ⟨tid, by rw [hpc]; exact hspins, by simp [bankDeposit, hpc, hr]⟩
  | load | store | leaving => exact absurd (by rw [hpc]; rfl) hfree
  | finished => exact absurd hpc htid

/-- As long as a thread has not finished, some thread has a step other than a turn of a waiting
    loop. -/
theorem exists_step (hm : m.isLock = true) (h : EndInv m opts p s loc)
    (hend : ¬ ∀ tid, (loc tid).pc = .finished) :
    ∃ tid, (loc tid).pc.spins s.env = false ∧
      ∃ r, bankDeposit opts busyWaitYields p tid () s (loc tid) = some r := by
  obtain ⟨o, hsim⟩ := h.lock
  cases o with
  | some tid => exact ⟨tid, exists_step_of_holder hm hsim⟩
  | none =>
    obtain ⟨tid, htid⟩ := not_forall.mp hend
    exact exists_step_of_free hm h hsim htid

/-! ## Main result -/

/-- After a successful `cs_init(m)` of a locking method, from every state that the threads of
    `bank_deposit` reach, they all finish with the right balance, whatever steps other than turns of
    a waiting loop are taken; until then there is always one to take. -/
theorem inevitable_deposited (m : CsMethod) (hm : m.isLock = true) (opts : Options)
    (busyWaitYields : Bool) (p : P) (env₀ env : Env P (Fin opts.threadCount))
    (hinit : (csInit m.toInt p).Reachable (.start, env₀) (.done, env))
    (i₀ : Fin opts.threadCount → BitVec 32)
    (cfg : Config (Fin opts.threadCount) (Shared P (Fin opts.threadCount)) Local)
    (hreach : (machine opts busyWaitYields p).Reachable (created opts env i₀) cfg) :
    (machine opts busyWaitYields p).Inevitable
      (fun cfg a => (cfg.loc a.1).pc.spins cfg.shared.env = false)
      (fun cfg => (∀ tid, (cfg.loc tid).pc = .finished) ∧
        cfg.shared.accountBalance = opts.accountStart +
          (opts.threadCount : BitVec 64) * (opts.bankTransactionsPerThread.toNat : BitVec 64) *
            (opts.bankTransactionAmount - opts.bankTransactionFee)) cfg := by
  -- after `cs_init` the lock is free, and the invariant starts
  have hrep := Everything.csInit_lockRep hm hinit
  have hinv : EndInv m opts p cfg.shared cfg.loc :=
    Threads.reachable_invariant (I := EndInv m opts p) (fun _ _ _ _ _ _ _ hI hs => hI.step hm hs)
      hreach (EndInv.start hm hrep)
  refine Machine.Inevitable.of_measure
    (I := fun cfg => EndInv m opts p cfg.shared cfg.loc)
    (fun cfg => Threads.total (Local.rest opts) cfg.loc) ?_ ?_ hinv
  · intro cfg hI hend
    -- some thread has not finished, and then one of them can go on
    have hsome : ¬ ∀ tid, (cfg.loc tid).pc = .finished :=
      fun hfin => hend ⟨hfin, hI.balance.finished hfin⟩
    obtain ⟨tid, hspins, ⟨e, s', l'⟩, hs⟩ := exists_step hm hI hsome
    exact ⟨(tid, ()), _, hspins, Threads.machine_step_eq_some.mpr ⟨s', l', hs, rfl⟩⟩
  · intro cfg a e cfg' hI _ hspins hs
    obtain ⟨s', l', hs', rfl⟩ := Threads.machine_step_eq_some.mp hs
    refine ⟨hI.step hm hs', ?_⟩
    -- the thread that takes the step comes nearer to its end, the others stay
    obtain ⟨o, hsim⟩ := hI.lock
    obtain ⟨-, -, hrest⟩ := bankDeposit_rest hm hsim.rep (hI.balance.loop a.1) hs'
    have hlt := hrest hspins
    have hupdate := Threads.total_update (Local.rest opts) cfg.loc a.1 l'
    show Threads.total (Local.rest opts) (Function.update cfg.loc a.1 l') <
      Threads.total (Local.rest opts) cfg.loc
    omega

/-- Two threads over `CS_METHOD_XCHG`, from a state in which the second one finds the lock held. -/
theorem inevitable_deposited_two :
    ∃ cfg, (machine twoDeposits false ()).Reachable (created (T := Fin 2) twoDeposits
      ⟨{ CsVars.static (Fin 2) with csMethodUsed := 2, csVarAllocated := true }, .empty⟩
      fun _ => 0) cfg ∧ (cfg.loc 1).pc.spins cfg.shared.env = true ∧
      (machine twoDeposits false ()).Inevitable
        (fun cfg a => (cfg.loc a.1).pc.spins cfg.shared.env = false)
        (fun cfg => (∀ tid, (cfg.loc tid).pc = .finished) ∧
          cfg.shared.accountBalance = 1 + 2 * 1 * (101 - 1)) cfg := by
  have hrun := Machine.Reachable.of_exec (M := machine (T := Fin 2) twoDeposits false ())
    (s := created twoDeposits
      ⟨{ CsVars.static (Fin 2) with csMethodUsed := 2, csVarAllocated := true }, .empty⟩
      fun _ => 0)
    ([0, 1, 0, 1, 0, 1, 0].map fun tid => (tid, ())) rfl
  exact ⟨_, hrun, rfl, inevitable_deposited .xchg rfl twoDeposits false ()
    ⟨.static (Fin 2), .empty⟩ _ (.of_exec [(false, 0)] rfl) _ _ hrun⟩

end BankDeposit
