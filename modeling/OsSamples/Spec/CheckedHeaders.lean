import OsSamples.Native.CheckedHeaders
import OsSamples.Spec.EverythingLock

/-!
# The checked headers stop before they do harm

In the four checked headers a failing call makes its thread call `exit` before it goes on.  So up
to the first `exit` the threads use the lock exactly as if no call had failed: a thread whose
acquiring call fails never gets inside, and one whose releasing call fails keeps its token until
the end.

## Key results

- `csInitStep_inv` / `csInit_lockRep`: a successful `cs_init` leaves the free lock
- `threadStep_sim`: every step keeps the threads in line with the lock
- `checkedHeaders_failStop`: one token in all, and at most one thread inside
-/

namespace CheckedHeaders

open Everything (InitPc InitInv LockRep freeTokens initDone)

variable {P T : Type*} {header : Header} {m : CsMethod} {p : P} {i : T} {env env' : Env P T}
  {o : Option T}

/-! ## `cs_init` -/

/-- No other instance is in the way: a named semaphore under the header's name has been left by an
    instance that ended before it used it. -/
def NameFree (k : Kernel P) : Prop :=
  ∀ id, k.semNames SEM_NAME = some id → ∃ s, k.sems id = some s ∧ s.value = 1

/-- What holds of the environment while `cs_init(m)` of a header is at `pc`. -/
def HeaderInitInv (m : CsMethod) (p : P) (pc : InitPc) (env : Env P T) : Prop :=
  match pc with
  | .start => m = .semPosixNamed → NameFree env.kernel
  | .semOpen =>
    CsMethod.ofInt env.vars.csMethodUsed = some m ∧ m = .semPosixNamed ∧ NameFree env.kernel
  -- the first message has been sent already
  | .mqUnlink =>
    CsMethod.ofInt env.vars.csMethodUsed = some m ∧ m = .mqPosix ∧ env.Tokens m p 1 0
  | pc => InitInv m p pc env

/-- The calls that the headers share with `everything.h` finish `cs_init`, or end it, or go on to
    the first message. -/
theorem sharedInit_pc {method : ℤ} {fail : Bool} {fresh : ℕ} {pc pc' : InitPc}
    (hpc : pc ∈ [.pthreadMutexInit, .semInit, .semUnlink, .semctl, .msgget, .msgsnd])
    (hs : Everything.csInitStep method p fail fresh pc env = some (pc', env')) :
    pc' = .done ∨ (∃ err, pc' = .exited err) ∨ pc' = .msgsnd := by
  simp only [List.mem_cons, List.not_mem_nil, or_false] at hpc
  rcases hpc with rfl | rfl | rfl | rfl | rfl | rfl <;>
    simp only [Everything.csInitStep] at hs
  · split at hs <;> simp only [initDone, Option.some.injEq, Prod.mk.injEq] at hs <;>
      simp [← hs.1]
  · split at hs <;> simp only [initDone, Option.some.injEq, Prod.mk.injEq] at hs <;>
      simp [← hs.1]
  · simp only [initDone, Option.some.injEq, Prod.mk.injEq] at hs
    simp [← hs.1]
  · split at hs
    · simp only [Option.some.injEq, Prod.mk.injEq] at hs
      simp [← hs.1]
    · split at hs <;> split at hs <;>
        simp only [initDone, Option.some.injEq, Prod.mk.injEq] at hs <;> simp [← hs.1]
  · simp only [Option.map_eq_some_iff, Prod.exists, Prod.mk.injEq] at hs
    obtain ⟨hd, k, -, rfl, -⟩ := hs
    split <;> simp
  · simp only [Option.map_eq_some_iff, Prod.exists] at hs
    obtain ⟨ok, env₁, -, hs⟩ := hs
    cases ok <;> simp [initDone] at hs <;> simp [← hs.1]

/-- A call that a header shares with `everything.h`. -/
theorem sharedInit_inv (pc : InitPc) {fail : Bool} {fresh : ℕ} {pc' : InitPc} (hm : m.isLock = true)
    (hpc : pc ∈ [.pthreadMutexInit, .semInit, .semUnlink, .semctl, .msgget, .msgsnd])
    (h : InitInv m p pc env)
    (hs : Everything.csInitStep m.toInt p fail fresh pc env = some (pc', env')) :
    HeaderInitInv m p pc' env' := by
  have hinv := Everything.csInitStep_inv hm h hs
  rcases sharedInit_pc hpc hs with rfl | ⟨err, rfl⟩ | rfl
  · exact hinv
  · trivial
  · exact hinv

/-- A `sem_open` without `O_EXCL` opens a semaphore of value 1, or fails. -/
theorem semOpen_value {k k' : Kernel P} {fresh : ℕ} {h : Option ℕ} (hfree : NameFree k)
    (hs : k.semOpen false SEM_NAME 1 p fresh = some (h, k')) :
    ∃ id s, h = some id ∧ k'.sems id = some s ∧ s.value = 1 := by
  simp only [Kernel.semOpen] at hs
  split at hs
  · rename_i id hid
    simp only [Bool.false_eq_true, if_false, Option.some.injEq, Prod.mk.injEq] at hs
    obtain ⟨rfl, rfl⟩ := hs
    obtain ⟨s, hsem, hval⟩ := hfree id hid
    exact ⟨id, s, rfl, hsem, hval⟩
  · simp only [Option.ite_none_left_eq_some, Option.some.injEq, Prod.mk.injEq] at hs
    obtain ⟨-, rfl, rfl⟩ := hs
    exact ⟨fresh, ⟨p, 1⟩, rfl, Kernel.setSem_sems_self .., rfl⟩

/-- The methods that the headers implement are locks. -/
theorem isLock_of_implements (himpl : header.implements m = true) : m.isLock = true := by
  cases header <;> cases m <;> simp [Header.implements, CsMethod.isLock] at himpl ⊢

/-- `cs_init` of `mutex_sem_namedSem.h`. -/
theorem mutexSemNamedSem_inv {pc pc' : InitPc} {fail : Bool} {fresh : ℕ}
    (himpl : Header.mutexSemNamedSem.implements m = true) (h : HeaderInitInv m p pc env)
    (hs : MutexSemNamedSem.csInitStep m.toInt p fail fresh pc env = some (pc', env')) :
    HeaderInitInv m p pc' env' := by
  have hm := isLock_of_implements himpl
  simp only [MutexSemNamedSem.csInitStep] at hs
  split at hs
  case h_1 =>
    -- the `switch`: only the named semaphore still needs its name free
    simp only [initStart, CsMethod.ofInt_toInt, Option.some.injEq] at hs
    cases m <;> simp only [Header.implements, Bool.false_eq_true] at himpl <;>
      simp only [Prod.mk.injEq] at hs <;> obtain ⟨rfl, rfl⟩ := hs
    · exact ⟨rfl, rfl⟩
    · exact ⟨rfl, rfl⟩
    · exact ⟨rfl, rfl, h rfl⟩
  case h_2 =>
    -- `sem_open` without `O_EXCL`
    obtain ⟨hmeth, rfl, hfree⟩ := h
    simp only [Option.map_eq_some_iff, Prod.exists, Prod.mk.injEq] at hs
    obtain ⟨hd, k, hopen, rfl, rfl⟩ := hs
    split at hopen
    · simp only [Option.some.injEq, Prod.mk.injEq] at hopen
      obtain ⟨rfl, rfl⟩ := hopen
      trivial
    · obtain ⟨id, s, rfl, hsem, hval⟩ := semOpen_value hfree hopen
      exact ⟨hmeth, rfl, id, s, rfl, hsem, hval⟩
  case h_3 => exact sharedInit_inv .pthreadMutexInit hm (by simp) h hs
  case h_4 => exact sharedInit_inv .semInit hm (by simp) h hs
  case h_5 => exact sharedInit_inv .semUnlink hm (by simp) h hs
  case h_6 => exact nomatch hs

/-- `cs_init` of `sem_sysv.h`. -/
theorem semSysv_inv {pc pc' : InitPc} {fail : Bool} {fresh : ℕ}
    (himpl : Header.semSysv.implements m = true) (h : HeaderInitInv m p pc env)
    (hs : SemSysv.csInitStep m.toInt p fail fresh pc env = some (pc', env')) :
    HeaderInitInv m p pc' env' := by
  have hm := isLock_of_implements himpl
  simp only [SemSysv.csInitStep] at hs
  split at hs
  case h_1 =>
    obtain rfl : m = .semSysv := by cases m <;> first | rfl | exact nomatch himpl
    simp only [initStart, CsMethod.ofInt_toInt, Option.some.injEq, Prod.mk.injEq] at hs
    obtain ⟨rfl, rfl⟩ := hs
    exact ⟨rfl, rfl⟩
  case h_2 =>
    -- `semget` makes no promise about the value, which `semctl` sets next
    obtain ⟨hmeth, rfl⟩ := h
    simp only [Option.map_eq_some_iff, Prod.exists, Prod.mk.injEq] at hs
    obtain ⟨hd, k, -, rfl, rfl⟩ := hs
    split
    · trivial
    · exact ⟨hmeth, rfl⟩
  case h_3 => exact sharedInit_inv .semctl hm (by simp) h hs
  case h_4 => exact nomatch hs

/-- `cs_init` of `messageQueue_posix.h`. -/
theorem messageQueuePosix_inv {pc pc' : InitPc} {fail : Bool} {fresh : ℕ}
    (himpl : Header.messageQueuePosix.implements m = true) (h : HeaderInitInv m p pc env)
    (hs : MessageQueuePosix.csInitStep m.toInt p fail fresh pc env = some (pc', env')) :
    HeaderInitInv m p pc' env' := by
  simp only [MessageQueuePosix.csInitStep] at hs
  split at hs
  case h_1 =>
    obtain rfl : m = .mqPosix := by cases m <;> first | rfl | cases himpl
    simp only [initStart, CsMethod.ofInt_toInt, Option.some.injEq, Prod.mk.injEq] at hs
    obtain ⟨rfl, rfl⟩ := hs
    exact ⟨rfl, rfl⟩
  case h_2 =>
    -- `mq_open` fails, or creates an empty queue with one place
    obtain ⟨hmeth, rfl⟩ := h
    simp only [Option.map_eq_some_iff, Prod.exists, Prod.mk.injEq] at hs
    obtain ⟨hd, k, hopen, rfl, rfl⟩ := hs
    split at hopen
    · simp only [Option.some.injEq, Prod.mk.injEq] at hopen
      obtain ⟨rfl, rfl⟩ := hopen
      trivial
    · rcases Kernel.mqOpen_cases hopen with ⟨rfl, -, -⟩ | ⟨rfl, -, -, rfl⟩
      · trivial
      · exact ⟨hmeth, rfl, fresh, _, rfl, Kernel.setMq_mqs_self .., rfl, rfl, rfl⟩
  case h_3 =>
    -- `mq_send` puts the one message into the queue
    obtain ⟨hmeth, rfl, htok⟩ := h
    simp only [Option.map_eq_some_iff, Prod.exists, Prod.mk.injEq] at hs
    obtain ⟨ok, env₁, hsend, rfl, rfl⟩ := hs
    split at hsend
    · simp only [Option.some.injEq, Prod.mk.injEq] at hsend
      obtain ⟨rfl, rfl⟩ := hsend
      trivial
    · obtain ⟨rfl, hvars, htok'⟩ := Env.mqSend_tokens htok hsend 0
      exact ⟨by rw [hvars]; exact hmeth, rfl, htok'⟩
  case h_4 =>
    -- `mq_unlink` removes the name and leaves the queue
    obtain ⟨hmeth, rfl, id, q, hid, hq, hq'⟩ := h
    simp only [Option.some.injEq] at hs
    generalize hr : (if fail then (false, env.kernel) else env.kernel.mqUnlink MQ_NAME) = r at hs
    have hkeep : r.2.mqs = env.kernel.mqs := by
      subst hr
      split
      · rfl
      · unfold Kernel.mqUnlink
        split <;> rfl
    split at hs <;> simp only [initDone, Prod.mk.injEq] at hs <;> obtain ⟨rfl, rfl⟩ := hs
    · exact ⟨hmeth, ⟨id, q, hid, by rw [hkeep]; exact hq, hq'⟩, by simp⟩
    · trivial
  case h_5 => cases hs

/-- `cs_init` of `messageQueue_sysV.h`. -/
theorem messageQueueSysv_inv {pc pc' : InitPc} {fail : Bool} {fresh : ℕ}
    (himpl : Header.messageQueueSysv.implements m = true) (h : HeaderInitInv m p pc env)
    (hs : MessageQueueSysv.csInitStep m.toInt p fail fresh pc env = some (pc', env')) :
    HeaderInitInv m p pc' env' := by
  have hm := isLock_of_implements himpl
  simp only [MessageQueueSysv.csInitStep] at hs
  split at hs
  case h_1 =>
    obtain rfl : m = .mqSysv := by cases m <;> first | rfl | exact nomatch himpl
    simp only [initStart, CsMethod.ofInt_toInt, Option.some.injEq, Prod.mk.injEq] at hs
    obtain ⟨rfl, rfl⟩ := hs
    exact ⟨rfl, rfl, rfl⟩
  case h_2 => exact sharedInit_inv .msgget hm (by simp) h hs
  case h_3 => exact sharedInit_inv .msgsnd hm (by simp) h hs
  case h_4 => exact nomatch hs

/-- Every step of `cs_init` of a header preserves `HeaderInitInv`. -/
theorem csInitStep_inv {pc pc' : InitPc} {fail : Bool} {fresh : ℕ}
    (himpl : header.implements m = true) (h : HeaderInitInv m p pc env)
    (hs : header.csInitStep m.toInt p fail fresh pc env = some (pc', env')) :
    HeaderInitInv m p pc' env' := by
  cases header with
  | mutexSemNamedSem => exact mutexSemNamedSem_inv himpl h hs
  | semSysv => exact semSysv_inv himpl h hs
  | messageQueuePosix => exact messageQueuePosix_inv himpl h hs
  | messageQueueSysv => exact messageQueueSysv_inv himpl h hs

/-- A successful `cs_init` of a header leaves the free lock. -/
theorem csInit_lockRep {env₀ : Env P T} (himpl : header.implements m = true)
    (hfree : m = .semPosixNamed → NameFree env₀.kernel)
    (h : (header.csInit m.toInt p).Reachable (.start, env₀) (.done, env)) :
    LockRep m p env none := by
  have h₀ : HeaderInitInv m p .start env₀ := hfree
  refine h.invariant (I := fun s => HeaderInitInv m p s.1 s.2) ?_ h₀
  intro s c e s' hI hs
  simp only [Header.csInit, Option.map_eq_some_iff, Prod.mk.injEq] at hs
  obtain ⟨r, hr, -, rfl⟩ := hs
  exact csInitStep_inv himpl hI hr

/-! ## The threads -/

/-- For a method that the header implements, `cs_enter` and `cs_leave` make the method's calls. -/
theorem calls_of_implements {method : ℤ} (himpl : header.implements m = true)
    (hmeth : CsMethod.ofInt method = some m) :
    (∃ err, header.csEnter method = some ⟨m, err⟩) ∧
      ∃ err, header.csLeave method = some ⟨m, err⟩ := by
  cases header <;> cases m <;> simp only [Header.implements, Bool.false_eq_true] at himpl <;>
    simp [Header.csEnter, Header.csLeave, MutexSemNamedSem.csEnter, MutexSemNamedSem.csLeave,
      SemSysv.csEnter, SemSysv.csLeave, MessageQueuePosix.csEnter, MessageQueuePosix.csLeave,
      MessageQueueSysv.csEnter, MessageQueueSysv.csLeave, hmeth]

/-- The threads and the environment agree on the lock state `o`. -/
structure CheckedSim (m : CsMethod) (p : P) (env : Env P T) (loc : T → Pc) (o : Option T) :
    Prop where
  rep : LockRep m p env o
  holder : ∀ i, (loc i).holding = 1 ↔ o = some i

/-- All threads outside agree with the free lock. -/
theorem CheckedSim.allOutside (h : LockRep m p env none) :
    CheckedSim m p env (fun _ => .outside) none :=
  ⟨h, fun _ => by simp [Pc.holding]⟩

variable [DecidableEq T] {loc : T → Pc} {pc : Pc}

/-- A step of thread `i` that leaves the other threads' claim to the lock as it was. -/
theorem CheckedSim.update {o' : Option T} (h : CheckedSim m p env loc o)
    (hrep : LockRep m p env' o') (hpc : pc.holding = 1 ↔ o' = some i)
    (hother : ∀ j, j ≠ i → (o = some j ↔ o' = some j)) :
    CheckedSim m p env' (Function.update loc i pc) o' := by
  refine ⟨hrep, fun j => ?_⟩
  by_cases hj : j = i
  · subst hj; simpa using hpc
  · simpa [hj] using (h.holder j).trans (hother j hj)

/-- A step of thread `i` that changes neither the lock nor the thread's claim to it. -/
theorem CheckedSim.stutter (h : CheckedSim m p env loc o)
    (hpc : pc.holding = (loc i).holding) : CheckedSim m p env (Function.update loc i pc) o :=
  h.update h.rep (by rw [hpc]; exact h.holder i) fun _ _ => Iff.rfl

omit [DecidableEq T] in
/-- A check leaves the environment alone, and goes on or stays. -/
theorem check_cases {c : Option CheckedCall} {ok : Bool} {pc' next : Pc} {s s' : Shared P T}
    (h : check c ok pc next s = (s', pc')) :
    s'.env = s.env ∧ ((ok = true ∧ pc' = next) ∨ (ok = false ∧ pc' = pc)) := by
  cases ok <;> simp only [check, Bool.false_eq_true, if_false, if_true, Prod.mk.injEq] at h <;>
    obtain ⟨rfl, rfl⟩ := h <;> simp

variable [DecidableEq P]

/-- Every step, whether its call fails or not, keeps the threads in line with the lock. -/
theorem threadStep_sim {fail : Bool} {s s' : Shared P T} {e : Option Empty}
    (himpl : header.implements m = true) (h : CheckedSim m p s.env loc o)
    (hs : threadStep header p i fail s (loc i) = some (e, s', pc)) :
    ∃ o', CheckedSim m p s'.env (Function.update loc i pc) o' := by
  have hm : m.isCall = true := by
    cases header <;> cases m <;> simp [Header.implements, CsMethod.isCall] at himpl ⊢
  obtain ⟨⟨enterErr, henter⟩, leaveErr, hleave⟩ := calls_of_implements himpl h.rep.method
  have hholder := h.holder i
  simp only [threadStep, Option.ite_none_left_eq_some] at hs
  obtain ⟨-, hs⟩ := hs
  cases hpc : loc i with
  | outside =>
    simp only [hpc, Option.some.injEq, Prod.mk.injEq] at hs
    obtain ⟨-, rfl, rfl⟩ := hs
    exact ⟨o, h.stutter (by rw [hpc]; rfl)⟩
  | enterCall =>
    simp only [hpc, henter, Option.map_eq_some_iff, Prod.exists, Prod.mk.injEq] at hs
    obtain ⟨ok, env₁, hcall, -, rfl, rfl⟩ := hs
    split at hcall
    · -- a failed call changes nothing; the check ends the process
      simp only [Option.some.injEq, Prod.mk.injEq] at hcall
      obtain ⟨rfl, rfl⟩ := hcall
      exact ⟨o, h.stutter (by rw [hpc]; rfl)⟩
    · -- the call takes the free lock
      obtain ⟨rfl, rfl, hrep⟩ := h.rep.of_enterCall hm hcall
      exact ⟨some i, h.update hrep (by simp [Pc.holding]) fun j hj => by simp [Ne.symm hj]⟩
  | enterCheck ok =>
    simp only [hpc, Option.some.injEq, Prod.mk.injEq] at hs
    obtain ⟨henv, hnext⟩ := check_cases hs.2
    rw [henv]
    rcases hnext with ⟨rfl, rfl⟩ | ⟨rfl, rfl⟩
    · exact ⟨o, h.stutter (by rw [hpc]; rfl)⟩
    · exact ⟨o, h.stutter (by rw [hpc])⟩
  | inside =>
    simp only [hpc, Option.some.injEq, Prod.mk.injEq] at hs
    obtain ⟨-, rfl, rfl⟩ := hs
    exact ⟨o, h.stutter (by rw [hpc]; rfl)⟩
  | leaveCall =>
    simp only [hpc, hleave, Option.map_eq_some_iff, Prod.exists, Prod.mk.injEq] at hs
    obtain ⟨ok, env₁, hcall, -, rfl, rfl⟩ := hs
    split at hcall
    · -- after a failed call the thread still holds the token
      simp only [Option.some.injEq, Prod.mk.injEq] at hcall
      obtain ⟨rfl, rfl⟩ := hcall
      exact ⟨o, h.stutter (by rw [hpc]; rfl)⟩
    · -- the thread that leaves is the owner, so the call puts the token back
      obtain rfl : o = some i := hholder.mp (by rw [hpc]; rfl)
      obtain ⟨env₂, hcall', hrep⟩ := h.rep.leaveCall hm
      rw [hcall', Option.some.injEq, Prod.mk.injEq] at hcall
      obtain ⟨rfl, rfl⟩ := hcall
      exact ⟨none, h.update hrep (by simp [Pc.holding]) fun j hj => by simp [Ne.symm hj]⟩
  | leaveCheck ok =>
    simp only [hpc, Option.some.injEq, Prod.mk.injEq] at hs
    obtain ⟨henv, hnext⟩ := check_cases hs.2
    rw [henv]
    rcases hnext with ⟨rfl, rfl⟩ | ⟨rfl, rfl⟩
    · exact ⟨o, h.stutter (by rw [hpc]; rfl)⟩
    · exact ⟨o, h.stutter (by rw [hpc])⟩

/-- Some lock state agrees with every reachable state of the threads. -/
theorem machine_reachable_sim {cfg : Config T (Shared P T) Pc}
    (himpl : header.implements m = true) (hrep : LockRep m p env none)
    (h : (machine header p).Reachable (allOutside env) cfg) :
    ∃ o, CheckedSim m p cfg.shared.env cfg.loc o := by
  refine Threads.reachable_invariant (I := fun s loc => ∃ o, CheckedSim m p s.env loc o) ?_ h
    ⟨none, .allOutside hrep⟩
  rintro i fail s loc e s' pc ⟨o, hsim⟩ hs
  exact threadStep_sim himpl hsim hs

/-! ## Counting -/

omit [DecidableEq T] [DecidableEq P] in
/-- A thread holds one token or none. -/
theorem holding_cases (pc : Pc) : pc.holding = 0 ∨ pc.holding = 1 := by
  unfold Pc.holding
  split <;> simp

omit [DecidableEq T] [DecidableEq P] in
/-- The tokens that the threads hold and those in the primitive are one in all. -/
theorem CheckedSim.total [Fintype T] (h : CheckedSim m p env loc o) :
    env.tokenCount m + Threads.total Pc.holding loc = 1 := by
  rw [h.rep.tokens.tokenCount_eq]
  cases o with
  | none =>
    -- the lock is free: the token is in the kernel, and nobody holds it
    have hzero : Threads.total Pc.holding loc = 0 := by
      apply Threads.total_eq_zero.mpr
      intro i
      rcases holding_cases (loc i) with h₀ | h₁
      · exact h₀
      · exact nomatch (h.holder i).mp h₁
    rw [hzero]
    rfl
  | some i =>
    -- a thread holds the token, and only this one
    have hone : Threads.total Pc.holding loc = 1 := by
      refine Threads.total_eq_one i ((h.holder i).mpr rfl) fun j hj => ?_
      rcases holding_cases (loc j) with h₀ | h₁
      · exact h₀
      · exact absurd (Option.some.inj ((h.holder j).mp h₁)).symm hj
    rw [hone]
    rfl

/-! ## Main result -/

/-- After a successful `cs_init` of a method that the header implements, whichever calls fail, up
    to the first call of `exit`: at most one thread is between the return of `cs_enter` and the
    call of `cs_leave`, and the tokens in the primitive and those held by threads are one in
    all. -/
theorem checkedHeaders_failStop (header : Header) (m : CsMethod)
    (himpl : header.implements m = true) (n : ℕ) (p : P) (env₀ env : Env P (Fin n))
    (hfree : m = .semPosixNamed → NameFree env₀.kernel)
    (hinit : (header.csInit m.toInt p).Reachable (.start, env₀) (.done, env))
    (cfg : Config (Fin n) (Shared P (Fin n)) Pc)
    (hreach : (machine header p).Reachable (allOutside env) cfg) :
    Threads.total Pc.atInside cfg.loc ≤ 1 ∧
      cfg.shared.env.tokenCount m + Threads.total Pc.holding cfg.loc = 1 := by
  obtain ⟨o, hsim⟩ := machine_reachable_sim himpl (csInit_lockRep himpl hfree hinit) hreach
  have htotal := hsim.total
  have hle : Threads.total Pc.atInside cfg.loc ≤ Threads.total Pc.holding cfg.loc := by
    apply Finset.sum_le_sum
    intro i _
    cases cfg.loc i with
    | enterCheck ok | leaveCheck ok => cases ok <;> simp [Pc.atInside, Pc.holding]
    | outside | enterCall | inside | leaveCall => simp [Pc.atInside, Pc.holding]
  exact ⟨by omega, htotal⟩

/-- Three threads over the named semaphore: one is inside, the `sem_wait` of another fails, and it
    calls `exit`. -/
theorem checkedHeaders_failStop_named :
    ∃ cfg, (machine .mutexSemNamedSem ()).Reachable (allOutside (T := Fin 3)
      ⟨{ CsVars.static (Fin 3) with
        csMethodUsed := 6, csVarAllocated := true, csNamedSem := some 4 },
        ((Kernel.empty.setSem 4 ⟨(), 1⟩).bindSem SEM_NAME (some 4)).bindSem SEM_NAME none⟩) cfg ∧
      cfg.shared.exited = some "sem_named_wait" ∧ Threads.total Pc.atInside cfg.loc ≤ 1 := by
  have hinit : (Header.mutexSemNamedSem.csInit 6 ()).Reachable
      (.start, (⟨CsVars.static (Fin 3), .empty⟩ : Env Unit (Fin 3))) (.done, _) :=
    .of_exec [(false, 0), (false, 4), (false, 0)] rfl
  have hrun := Machine.Reachable.of_exec (M := machine .mutexSemNamedSem ())
    (s := allOutside (T := Fin 3) ⟨{ CsVars.static (Fin 3) with
      csMethodUsed := 6, csVarAllocated := true, csNamedSem := some 4 },
      ((Kernel.empty.setSem 4 ⟨(), 1⟩).bindSem SEM_NAME (some 4)).bindSem SEM_NAME none⟩)
    [(0, false), (0, false), (1, false), (0, false), (1, true), (1, false)] rfl
  exact ⟨_, hrun, rfl, (checkedHeaders_failStop .mutexSemNamedSem .semPosixNamed rfl 3 ()
    ⟨CsVars.static (Fin 3), .empty⟩ _ (fun _ _ h => by simp [Kernel.empty] at h) hinit _ hrun).1⟩

end CheckedHeaders
