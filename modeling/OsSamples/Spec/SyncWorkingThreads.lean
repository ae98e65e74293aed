import OsSamples.Lib.Trace
import OsSamples.Native.SyncWorkingThreads

/-!
# The largest number of working threads

The semaphore counts the threads that are working, so that no thread has to wait in `sem_wait`.  A
count gets into `max_threads_used` only if the thread reads it back in time, and stays there only if
no other thread writes an older one.  `Recorded` says when this is so.

## Key results

- `CountInv.step`: what the semaphore counts, in every run
- `PeakInv.step`: which counts are in `max_threads_used`, in runs whose steps meet `Recorded`
- `maxThreadsUsed_peak`: both
-/

namespace SyncWorkingThreads

open Threads

variable {R : Type}

/-! ## Steps -/

/-- Whether a thread is between its `sem_post` and its `sem_getvalue`, or between the latter and the
    assignment to `max_threads_used`. -/
def Pc.counting : Pc → Bool
  | .semGetvalue | .readMax | .writeMax => true
  | _ => false

/-- What a step does to the two counts. -/
inductive Step (s : Shared R) (l : Local) : Option Event → Shared R → Local → Prop
  | post {s' l'} : l.pc = .semPost → s'.threadsUsed = s.threadsUsed + 1 →
      s'.maxThreadsUsed = s.maxThreadsUsed → l'.pc = .semGetvalue → Step s l (some .post) s' l'
  | getvalue {l'} : l.pc = .semGetvalue → l'.pc = .readMax → l'.i = s.threadsUsed →
      Step s l none s l'
  | less {l'} : l.pc = .readMax → s.maxThreadsUsed < l.i → l'.pc = .writeMax → l'.i = l.i →
      Step s l none s l'
  | notLess {l'} : l.pc = .readMax → l.i ≤ s.maxThreadsUsed → l'.pc = .setBusy → Step s l none s l'
  | write {s' l'} : l.pc = .writeMax → s'.threadsUsed = s.threadsUsed → s'.maxThreadsUsed = l.i →
      l'.pc = .setBusy → Step s l none s' l'
  | wait {s' l'} : l.pc = .semWait → s'.threadsUsed + 1 = s.threadsUsed →
      s'.maxThreadsUsed = s.maxThreadsUsed → l'.pc = .mqReceive → Step s l (some .wait) s' l'
  | other {s' l'} : l.pc.counting = false → l'.pc.counting = false →
      l'.pc.working = l.pc.working → s'.threadsUsed = s.threadsUsed →
      s'.maxThreadsUsed = s.maxThreadsUsed → Step s l none s' l'

variable {numThreads numWork : ℕ} {i : Thread numThreads numWork} {c : Choice R}
  {s s' : Shared R} {l l' : Local} {e : Option Event} {tr : List Event}
  {loc : Thread numThreads numWork → Local}

/-- A place in `do_all`. -/
def Pc.ofMain : Pc → Bool
  | .mqSend | .join | .cancel => true
  | _ => false

theorem Pc.counting_of_main {pc : Pc} (h : pc.ofMain = true) : pc.counting = false := by
  cases pc <;> first | rfl | exact nomatch h

theorem Pc.working_of_main {pc : Pc} (h : pc.ofMain = true) : pc.working = false := by
  cases pc <;> first | rfl | exact nomatch h

/-- The main thread has nothing to do with the two counts. -/
theorem mainStep_frame (hs : mainStep numThreads numWork c s l = some (e, s', l')) :
    e = none ∧ l.pc.ofMain = true ∧ l'.pc.ofMain = true ∧ s'.threadsUsed = s.threadsUsed ∧
      s'.maxThreadsUsed = s.maxThreadsUsed := by
  cases hpc : l.pc <;> simp only [mainStep, hpc, reduceCtorEq] at hs
  case mqSend =>
    split at hs
    · obtain ⟨-, heq⟩ := Option.ite_none_right_eq_some.mp hs
      obtain ⟨rfl, rfl, rfl⟩ : none = e ∧ _ = s' ∧ _ = l' := by simpa using heq
      exact ⟨rfl, rfl, rfl, rfl, rfl⟩
    · obtain ⟨rfl, rfl, rfl⟩ : none = e ∧ _ = s' ∧ _ = l' := by simpa using hs
      exact ⟨rfl, rfl, rfl, rfl, rfl⟩
  case join =>
    obtain ⟨rfl, rfl, rfl⟩ : none = e ∧ _ = s' ∧ _ = l' := by simpa using hs
    exact ⟨rfl, rfl, rfl, rfl, rfl⟩
  case cancel =>
    split at hs
    · cases c <;> obtain ⟨rfl, rfl, rfl⟩ : none = e ∧ _ = s' ∧ _ = l' := by simpa using hs
      all_goals exact ⟨rfl, rfl, by rw [hpc]; rfl, rfl, rfl⟩
    · obtain ⟨rfl, rfl, rfl⟩ : none = e ∧ _ = s' ∧ _ = l' := by simpa using hs
      exact ⟨rfl, rfl, by rw [hpc]; rfl, rfl, rfl⟩

/-- The steps of a working thread that is not cancelled. -/
theorem workingThread_cases (hs : workingThread c s l = some (e, s', l')) : Step s l e s' l' := by
  simp only [workingThread] at hs
  cases hpc : l.pc <;> rw [hpc] at hs <;> dsimp only at hs
  case mqSend | join | cancel => exact nomatch hs
  -- `mq_receive` does not touch the semaphore
  case mqReceive =>
    split at hs
    · exact nomatch hs
    · obtain ⟨rfl, rfl, rfl⟩ : none = e ∧ _ = s' ∧ l = l' := by simpa using hs
      exact .other (by rw [hpc]; rfl) (by rw [hpc]; rfl) rfl rfl rfl
    · exact nomatch hs
    · obtain ⟨rfl, rfl, rfl⟩ : none = e ∧ _ = s' ∧ _ = l' := by simpa using hs
      exact .other (by rw [hpc]; rfl) rfl (by rw [hpc]; rfl) rfl rfl
  case semPost =>
    obtain ⟨rfl, rfl, rfl⟩ : some .post = e ∧ _ = s' ∧ _ = l' := by simpa using hs
    exact .post hpc rfl rfl rfl
  case semGetvalue =>
    obtain ⟨rfl, rfl, rfl⟩ : none = e ∧ s = s' ∧ _ = l' := by simpa using hs
    exact .getvalue hpc rfl rfl
  -- the comparison with `max_threads_used`, and its assignment as a step of its own
  case readMax =>
    obtain ⟨rfl, rfl, rfl⟩ : none = e ∧ s = s' ∧ _ = l' := by simpa using hs
    by_cases hlt : s.maxThreadsUsed < l.i
    · exact .less hpc hlt (if_pos hlt) rfl
    · exact .notLess hpc (by omega) (if_neg hlt)
  case writeMax =>
    obtain ⟨rfl, rfl, rfl⟩ : none = e ∧ _ = s' ∧ _ = l' := by simpa using hs
    exact .write hpc rfl rfl rfl
  case setBusy | setDone =>
    obtain ⟨rfl, rfl, rfl⟩ : none = e ∧ _ = s' ∧ _ = l' := by simpa using hs
    exact .other (by rw [hpc]; rfl) rfl (by rw [hpc]; rfl) rfl rfl
  case doWork =>
    cases c with
    | fail | stop => exact nomatch hs
    | result r =>
      obtain ⟨rfl, rfl, rfl⟩ : none = e ∧ _ = s' ∧ _ = l' := by simpa using hs
      exact .other (by rw [hpc]; rfl) rfl (by rw [hpc]; rfl) rfl rfl
  case semWait =>
    -- `sem_wait` gives no step when the semaphore is zero
    split at hs
    · rename_i hpos
      obtain ⟨rfl, rfl, rfl⟩ : some .wait = e ∧ _ = s' ∧ _ = l' := by simpa using hs
      exact .wait hpc (Nat.sub_add_cancel hpos) rfl rfl
    · exact nomatch hs

/-- A thread that acts on its cancellation is at no step that counts. -/
theorem stop_cases {k : ℕ} (hs : stop k s l = some (e, s', l')) : Step s l e s' l' := by
  obtain ⟨⟨-, hpoint⟩, heq⟩ := Option.ite_none_right_eq_some.mp hs
  obtain ⟨rfl, rfl, rfl⟩ : none = e ∧ _ = s' ∧ l = l' := by simpa using heq
  have hcounting : l.pc.counting = false := by
    cases hpc : l.pc <;> rw [hpc] at hpoint <;> first | rfl | exact nomatch hpoint
  exact .other hcounting hcounting rfl rfl rfl

/-- Every step of every thread is one of these. -/
theorem step_cases (hs : step i c s l = some (e, s', l')) : Step s l e s' l' := by
  unfold step at hs
  split at hs
  · exact nomatch hs
  cases i with
  | none =>
    obtain ⟨rfl, hmain, hmain', hused, hmax⟩ := mainStep_frame hs
    exact .other (Pc.counting_of_main hmain) (Pc.counting_of_main hmain')
      ((Pc.working_of_main hmain').trans (Pc.working_of_main hmain).symm) hused hmax
  | some k =>
    obtain ⟨-, hs⟩ := Option.ite_none_left_eq_some.mp hs
    cases c with
    | stop => exact stop_cases hs
    | fail | result => exact workingThread_cases hs

/-! ## What the semaphore counts -/

/-- The number of threads between their `sem_post` and their `sem_wait`, from the events. -/
def working (tr : List Event) : ℕ := tr.count .post - tr.count .wait

/-- The share of a thread. -/
def workingShare (l : Local) : ℕ := if l.pc.working then 1 else 0

/-- The semaphore counts the threads that are working; what a thread has read back, or has put into
    `max_threads_used`, has been a count. -/
structure CountInv (tr : List Event) (s : Shared R)
    (loc : Thread numThreads numWork → Local) : Prop where
  events : tr.count .wait + s.threadsUsed = tr.count .post
  total : s.threadsUsed = total workingShare loc
  read : ∀ i, (loc i).pc = .readMax ∨ (loc i).pc = .writeMax → (loc i).i ∈ valuesUpTo working tr
  max : s.maxThreadsUsed ∈ valuesUpTo working tr

theorem CountInv.working_eq (h : CountInv tr s loc) : working tr = s.threadsUsed := by
  have hevents := h.events
  unfold working
  omega

/-- Before the first step. -/
theorem CountInv.initial (zero : R) (numThreads numWork : ℕ) :
    CountInv [] (initial zero numThreads numWork).shared
      (initial zero numThreads numWork).loc where
  events := rfl
  total := by
    refine (total_eq_zero.mpr fun i => ?_).symm
    cases i <;> rfl
  read i := by cases i <;> exact fun h => h.elim nofun nofun
  max := mem_valuesUpTo_nil.mpr rfl

/-- The values so far are among those up to the next event. -/
theorem mem_valuesUpTo_append {n : ℕ} (h : n ∈ valuesUpTo working tr) (e : Option Event) :
    n ∈ valuesUpTo working (tr ++ e.toList) := by
  cases e with
  | none => simpa using h
  | some e => exact mem_valuesUpTo_snoc.mpr (.inl h)

/-- A step that changes the count by the share of its thread. -/
theorem CountInv.update (h : CountInv tr s loc)
    (hevents : (tr ++ e.toList).count .wait + s'.threadsUsed = (tr ++ e.toList).count .post)
    (hshare : s'.threadsUsed + workingShare (loc i) = s.threadsUsed + workingShare l')
    (hread : l'.pc = .readMax ∨ l'.pc = .writeMax → l'.i ∈ valuesUpTo working tr)
    (hmax : s'.maxThreadsUsed ∈ valuesUpTo working tr) :
    CountInv (tr ++ e.toList) s' (Function.update loc i l') := by
  refine ⟨hevents, ?_, fun j hpc => ?_, mem_valuesUpTo_append hmax e⟩
  · have htotal := h.total
    have hupdate := total_update workingShare loc i l'
    omega
  · by_cases hj : j = i
    · subst hj
      rw [Function.update_self] at hpc ⊢
      exact mem_valuesUpTo_append (hread hpc) e
    · rw [Function.update_of_ne hj] at hpc ⊢
      exact mem_valuesUpTo_append (h.read j hpc) e

/-- Every step. -/
theorem CountInv.step (h : CountInv tr s loc) (hs : Step s (loc i) e s' l') :
    CountInv (tr ++ e.toList) s' (Function.update loc i l') := by
  have hevents := h.events
  have hself := mem_valuesUpTo_self working tr
  rw [h.working_eq] at hself
  cases hs with
  | post hpc hused hmax hpc' =>
    refine h.update ?_ ?_ (by simp [hpc']) (hmax ▸ h.max)
    · simp
      omega
    · simp [workingShare, Pc.working, hpc, hpc', hused]
  | getvalue hpc hpc' hi =>
    -- what is read back is the present count
    refine h.update (by simpa using hevents) ?_ (fun _ => hi ▸ hself) h.max
    simp [workingShare, Pc.working, hpc, hpc']
  | less hpc _ hpc' hi =>
    refine h.update (by simpa using hevents) ?_ (fun _ => hi ▸ h.read i (.inl hpc)) h.max
    simp [workingShare, Pc.working, hpc, hpc']
  | notLess hpc _ hpc' =>
    refine h.update (by simpa using hevents) ?_ (by simp [hpc']) h.max
    simp [workingShare, Pc.working, hpc, hpc']
  | write hpc hused hmax hpc' =>
    refine h.update (by simpa [hused] using hevents) ?_ (by simp [hpc'])
      (hmax ▸ h.read i (.inr hpc))
    simp [workingShare, Pc.working, hpc, hpc', hused]
  | wait hpc hused hmax hpc' =>
    -- the share of the thread leaves the count with it
    refine h.update ?_ ?_ (by simp [hpc']) (hmax ▸ h.max)
    · simp
      omega
    · simp [workingShare, Pc.working, hpc, hpc', hused]
  | other _ hcount hworking hused hmax =>
    refine h.update (by simpa [hused] using hevents) ?_ (fun hpc => ?_) (hmax ▸ h.max)
    · rw [hused, workingShare, workingShare, hworking]
    · rcases hpc with hpc | hpc <;> rw [hpc] at hcount <;> exact nomatch hcount

/-- A thread in `sem_wait` need not wait. -/
theorem CountInv.pos (h : CountInv tr s loc) (hpc : (loc i).pc = .semWait) :
    0 < s.threadsUsed := by
  have hle := le_total workingShare loc i
  have hshare : workingShare (loc i) = 1 := by simp [workingShare, Pc.working, hpc]
  rw [h.total]
  omega

/-! ## The largest count -/

/-- The step is no `sem_wait` that lowers a count which is not yet in `max_threads_used` before
    another thread has read it back, and no write of a count that is smaller than the one there. -/
def Recorded (cfg : Config (Thread numThreads numWork) (Shared R) Local)
    (a : Thread numThreads numWork × Choice R) : Prop :=
  ((cfg.loc a.1).pc = .semWait → (∃ j, (cfg.loc j).pc = .semGetvalue) →
      cfg.shared.threadsUsed ≤ cfg.shared.maxThreadsUsed) ∧
    ((cfg.loc a.1).pc = .writeMax → cfg.shared.maxThreadsUsed ≤ (cfg.loc a.1).i)

instance (cfg : Config (Thread numThreads numWork) (Shared R) Local)
    (a : Thread numThreads numWork × Choice R) : Decidable (Recorded cfg a) :=
  inferInstanceAs (Decidable (_ ∧ _))

/-- A count is in `max_threads_used`, or it is still there for a thread that has not read it back
    yet, or a thread that has is on its way to `max_threads_used` with it. -/
def Noted (n : ℕ) (s : Shared R) (loc : Thread numThreads numWork → Local) : Prop :=
  n ≤ s.maxThreadsUsed ∨ (n ≤ s.threadsUsed ∧ ∃ j, (loc j).pc = .semGetvalue) ∨
    ∃ j, ((loc j).pc = .readMax ∨ (loc j).pc = .writeMax) ∧ n ≤ (loc j).i

/-- A smaller count. -/
theorem Noted.mono {n m : ℕ} (h : Noted m s loc) (hle : n ≤ m) : Noted n s loc := by
  rcases h with hmax | ⟨hused, hj⟩ | ⟨j, hj, hi⟩
  · exact .inl (hle.trans hmax)
  · exact .inr (.inl ⟨hle.trans hused, hj⟩)
  · exact .inr (.inr ⟨j, hj, hle.trans hi⟩)

/-- A step of a thread: what the thread itself has read back, or is about to, counts apart. -/
theorem Noted.update {n : ℕ} (h : Noted n s loc) (hmax : s.maxThreadsUsed ≤ s'.maxThreadsUsed)
    (hused : ∀ j, (loc j).pc = .semGetvalue → n ≤ s.threadsUsed →
      n ≤ s'.threadsUsed ∨ n ≤ s'.maxThreadsUsed)
    (hget : (loc i).pc = .semGetvalue → n ≤ s.threadsUsed →
      Noted n s' (Function.update loc i l'))
    (hread : (loc i).pc = .readMax ∨ (loc i).pc = .writeMax → n ≤ (loc i).i →
      Noted n s' (Function.update loc i l')) :
    Noted n s' (Function.update loc i l') := by
  rcases h with hle | ⟨hle, j, hj⟩ | ⟨j, hj, hle⟩
  · exact .inl (hle.trans hmax)
  -- a thread has still to read it back
  · by_cases hji : j = i
    · exact hget (hji ▸ hj) hle
    · rcases hused j hj hle with hle' | hle'
      · refine .inr (.inl ⟨hle', j, ?_⟩)
        rwa [Function.update_of_ne hji]
      · exact .inl hle'
  -- a thread has read it back
  · by_cases hji : j = i
    · subst hji
      exact hread hj hle
    · refine .inr (.inr ⟨j, ?_⟩)
      rw [Function.update_of_ne hji]
      exact ⟨hj, hle⟩

/-- Every count so far is noted. -/
def PeakInv (tr : List Event) (s : Shared R) (loc : Thread numThreads numWork → Local) : Prop :=
  ∀ n ∈ valuesUpTo working tr, Noted n s loc

/-- Every step that meets the condition. -/
theorem PeakInv.step (h : PeakInv tr s loc) (hcount : CountInv tr s loc)
    (hok : Recorded ⟨s, loc⟩ (i, c)) (hs : Step s (loc i) e s' l') :
    PeakInv (tr ++ e.toList) s' (Function.update loc i l') := by
  obtain ⟨hwait, hwrite⟩ := hok
  have hcount' := hcount.step hs
  have hself := mem_valuesUpTo_self working tr
  rw [hcount.working_eq] at hself
  intro n hn
  cases hs with
  | post hpc hused hmax hpc' =>
    rcases mem_valuesUpTo_snoc.mp hn with hn | rfl
    · exact (h n hn).update hmax.ge (fun _ _ hle => .inl (by omega)) (by simp [hpc])
        (by simp [hpc])
    · -- the new count
      rw [show working (tr ++ [.post]) = _ from hcount'.working_eq]
      refine .inr (.inl ⟨le_rfl, i, ?_⟩)
      rw [Function.update_self, hpc']
  | getvalue hpc hpc' hi =>
    rw [Option.toList_none, List.append_nil] at hn
    -- the count goes from the semaphore to the thread
    refine (h n hn).update le_rfl (fun _ _ => .inl) (fun _ hle => ?_) (by simp [hpc])
    refine .inr (.inr ⟨i, ?_⟩)
    rw [Function.update_self]
    exact ⟨.inl hpc', hi ▸ hle⟩
  | less hpc _ hpc' hi =>
    rw [Option.toList_none, List.append_nil] at hn
    refine (h n hn).update le_rfl (fun _ _ => .inl) (by simp [hpc]) (fun _ hle => ?_)
    refine .inr (.inr ⟨i, ?_⟩)
    rw [Function.update_self]
    exact ⟨.inr hpc', hi ▸ hle⟩
  | notLess hpc hle' _ =>
    rw [Option.toList_none, List.append_nil] at hn
    -- it is in `max_threads_used` already
    exact (h n hn).update le_rfl (fun _ _ => .inl) (by simp [hpc])
      (fun _ hle => .inl (hle.trans hle'))
  | write hpc hused hmax _ =>
    rw [Option.toList_none, List.append_nil] at hn
    -- the condition: the count there was not larger
    exact (h n hn).update (hmax ▸ hwrite hpc) (fun _ _ hle => .inl (hused ▸ hle)) (by simp [hpc])
      (fun _ hle => .inl (hmax ▸ hle))
  | wait hpc hused hmax _ =>
    -- the new count is less than the one before
    obtain ⟨m, hm, hle⟩ : ∃ m ∈ valuesUpTo working tr, n ≤ m := by
      rcases mem_valuesUpTo_snoc.mp hn with hn | rfl
      · exact ⟨n, hn, le_rfl⟩
      · refine ⟨_, hself, ?_⟩
        rw [show working (tr ++ [.wait]) = _ from hcount'.working_eq]
        omega
    refine Noted.mono ((h m hm).update hmax.ge (fun j hj hle => ?_) (by simp [hpc])
      (by simp [hpc])) hle
    -- the condition: another thread need not read back the count that goes
    exact .inr (hmax ▸ hle.trans (hwait hpc ⟨j, hj⟩))
  | other hcounting _ _ hused hmax =>
    rw [Option.toList_none, List.append_nil] at hn
    refine (h n hn).update hmax.ge (fun _ _ hle => .inl (hused ▸ hle)) (fun hpc => ?_)
      (fun hpc => ?_)
    · rw [hpc] at hcounting
      exact nomatch hcounting
    · rcases hpc with hpc | hpc <;> rw [hpc] at hcounting <;> exact nomatch hcounting

/-! ## Main result -/

/-- In every run. -/
theorem run_countInv {zero : R} {cfg : Config (Thread numThreads numWork) (Shared R) Local}
    (h : (machine R numThreads numWork).Run (initial zero numThreads numWork) tr cfg) :
    CountInv tr cfg.shared cfg.loc := by
  refine h.trace_invariant (I := fun tr cfg => CountInv tr cfg.shared cfg.loc) ?_
    (.initial zero numThreads numWork)
  intro tr cfg a e cfg' hI hs
  obtain ⟨s', l', hs', rfl⟩ := machine_step_eq_some.mp hs
  exact hI.step (step_cases hs')

/-- The main thread stays in `do_all`. -/
theorem step_main (hs : step (none : Thread numThreads numWork) c s l = some (e, s', l')) :
    l'.pc.ofMain = true := by
  unfold step at hs
  split at hs
  · exact nomatch hs
  · exact (mainStep_frame hs).2.2.1

/-- In every run whose steps meet the condition. -/
theorem run_peakInv {zero : R} {cfg : Config (Thread numThreads numWork) (Shared R) Local}
    (h : ((machine R numThreads numWork).restrict Recorded).Run
      (initial zero numThreads numWork) tr cfg) :
    CountInv tr cfg.shared cfg.loc ∧ PeakInv tr cfg.shared cfg.loc ∧
      (cfg.loc none).pc.ofMain = true := by
  refine h.trace_invariant (I := fun tr cfg => CountInv tr cfg.shared cfg.loc ∧
    PeakInv tr cfg.shared cfg.loc ∧ (cfg.loc none).pc.ofMain = true) ?_
    ⟨.initial zero numThreads numWork, fun n hn => ?_, rfl⟩
  · rintro tr cfg ⟨i, c⟩ e cfg' ⟨hcount, hpeak, hmain⟩ hs
    obtain ⟨hok, hs⟩ := Machine.restrict_step.mp hs
    obtain ⟨s', l', hs', rfl⟩ := machine_step_eq_some.mp hs
    refine ⟨hcount.step (step_cases hs'), hpeak.step hcount hok (step_cases hs'), ?_⟩
    cases i with
    | none =>
      show (Function.update cfg.loc none l' none).pc.ofMain = true
      rw [Function.update_self]
      exact step_main hs'
    | some k =>
      show (Function.update cfg.loc (some k) l' none).pc.ofMain = true
      rw [Function.update_of_ne (Option.some_ne_none k).symm]
      exact hmain
  · rw [mem_valuesUpTo_nil.mp hn]
    exact .inl le_rfl

/-- For any number of threads and of computations: in every run, the number of threads between
    their `sem_post` and their `sem_wait` is that of their events, and no thread has to wait in
    `sem_wait`; and in every run whose steps meet the condition, when all working threads are idle
    again, `max_threads_used` is the largest number of threads that were between the two at the same
    time. -/
theorem maxThreadsUsed_peak (zero : R) (numThreads numWork : ℕ) :
    (∀ tr cfg, (machine R numThreads numWork).Run (initial zero numThreads numWork) tr cfg →
      working tr = (Finset.univ.filter fun i => (cfg.loc i).pc.working = true).card ∧
      ∀ i, (cfg.loc i).pc = .semWait → 0 < cfg.shared.threadsUsed) ∧
    ∀ tr cfg, ((machine R numThreads numWork).restrict Recorded).Run
      (initial zero numThreads numWork) tr cfg →
      (∀ k : Fin (workers numThreads numWork), (cfg.loc (some k)).pc = .mqReceive) →
      IsPeak working tr cfg.shared.maxThreadsUsed := by
  refine ⟨fun tr cfg h => ?_, fun tr cfg h hidle => ?_⟩
  -- the events, the semaphore and the threads count the same
  · have hcount := run_countInv h
    refine ⟨?_, fun i => hcount.pos⟩
    rw [hcount.working_eq, hcount.total, Finset.card_filter]
    rfl
  · obtain ⟨hcount, hpeak, hmain⟩ := run_peakInv h
    -- an idle thread has no count that it has read back
    have hnone : ∀ i, (cfg.loc i).pc.counting = false := by
      intro i
      cases i with
      | none => exact Pc.counting_of_main hmain
      | some k => rw [hidle k]; rfl
    refine ⟨hcount.max, fun n hn => ?_⟩
    -- so every count that has been is in `max_threads_used`
    rcases hpeak n hn with hle | ⟨-, j, hj⟩ | ⟨j, hj | hj, -⟩
    · exact hle
    all_goals
      have hfalse := hnone j
      rw [hj] at hfalse
      exact nomatch hfalse

/-- The main thread sends two computations. -/
def sends : List (Thread 2 2 × Choice Unit) := List.replicate 2 (none, .result ())

/-- `n` steps of one of two working threads. -/
def steps (k : Fin 2) (n : ℕ) : List (Thread 2 2 × Choice Unit) :=
  List.replicate n (some k, .result ())

/-- Two computations by two threads at the same time. -/
theorem maxThreadsUsed_peak_atOnce : ∃ tr cfg,
    ((machine Unit 2 2).restrict Recorded).Run (initial () 2 2) tr cfg ∧
      cfg.shared.maxThreadsUsed = 2 ∧ IsPeak working tr 2 := by
  have hrun := Machine.Run.of_exec (M := (machine Unit 2 2).restrict Recorded) (s := initial () 2 2)
    (sends ++ steps 0 3 ++ steps 1 9 ++ steps 0 5) rfl
  exact ⟨_, _, hrun, rfl, (maxThreadsUsed_peak () 2 2).2 _ _ hrun (by decide)⟩

/-- Thread 1 posts after thread 0 has read the count, and reads it after thread 0 has waited. -/
theorem maxThreadsUsed_missed : ∃ tr cfg,
    (machine Unit 2 2).Run (initial () 2 2) tr cfg ∧
      (∀ k : Fin (workers 2 2), (cfg.loc (some k)).pc = .mqReceive) ∧
      cfg.shared.maxThreadsUsed = 1 ∧ ¬ IsPeak working tr cfg.shared.maxThreadsUsed := by
  have hrun := Machine.Run.of_exec (M := machine Unit 2 2) (s := initial () 2 2)
    (sends ++ steps 0 3 ++ steps 1 2 ++ steps 0 6 ++ steps 1 6) rfl
  refine ⟨_, _, hrun, by decide, rfl, fun h => ?_⟩
  have hle : 2 ≤ 1 := h.2 ⟨[.post, .post], by decide, rfl⟩
  exact absurd hle (by decide)

end SyncWorkingThreads
