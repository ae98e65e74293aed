import Mathlib.Tactic.Common
import OsSamples.Lib.Trace
import OsSamples.Native.MultiClientEchoServerOldIPv4

/-!
# The old echo server: what it leaves out

Without the two tests of the newer version, a descriptor that does not fit in a `fd_set` is put into
`rfd`, and after an error of `read` its result `-1` is the length that is passed to `write`.
`Orderly` is the condition on a step that rules out both.

## Key results

- `step_cases`: what a step can do, one constructor of `Step` for each kind
- `Inv.step`: what holds of the calls so far, from step to step
- `Orderly.necessary`: a step that does not meet the condition leads to a state that is not as it
  should be
- `oldDescriptors_iff`: the runs whose steps meet the condition
-/

namespace MultiClientEchoServerOldIPv4

open MultiClientEchoServer (BUFLEN dtsize)

variable {s size getdtablesize : ℕ} {r : ℤ} {st st' : State} {a : Action} {e : Option Event}
  {tr : List Event} {d : ℕ}

/-! ## What is to hold -/

/-- The last call was a `read` on `d` that failed or returned 0. -/
def Ended (tr : List Event) (d : ℕ) : Prop :=
  tr.getLast? = some (.read d none) ∨ tr.getLast? = some (.read d (some 0))

/-- What is to hold of a call after the calls `tr`. -/
def CallOk (tr : List Event) : Event → Prop
  | .write d len _ => 0 < len ∧ tr.getLast? = some (.read d (some len))
  | e => ∀ d, Ended tr d → e = .close d

/-- What is to hold after the calls `tr`; `size` is `dtsize`. -/
structure DescriptorsOk (size : ℕ) (tr : List Event) (st : State) : Prop where
  rfd : ∀ d ∈ st.rfd, d < size
  calls : tr.EachAfter CallOk
  -- the scan does not go on with a descriptor that is to be closed
  ended : ∀ d, Ended tr d → st.d = d ∧ (st.pc = .test ∨ st.pc = .close)
  closed : ∀ d, tr.getLast? = some (.close d) → d ∉ st.rfd ∧ st.sockets.conn d = none

/-- The condition on a step: a new descriptor fits in a `fd_set`, and no `read` fails. -/
def Orderly (size : ℕ) (st : State) : Action → Prop
  | .accept cs => cs < size
  | .error => st.pc ≠ .read
  | _ => True

instance (size : ℕ) (st : State) (a : Action) : Decidable (Orderly size st a) := by
  cases a <;> unfold Orderly <;> infer_instance

/-! ## What a step can do -/

/-- The kinds of steps of the server; `size` is `dtsize`. -/
inductive Step (size : ℕ) (st : State) : Action → Option Event → State → Prop
  | select {ready : Finset ℕ} (hpc : st.pc = .select) :
      Step size st (.select ready) (some (.select ready)) { st with
        readyRfd := ready, d := 3, sockets := st.sockets.select ready, pc := .scan }
  | selectFails (hpc : st.pc = .select) : Step size st .error none { st with pc := .failure }
  | scan {pc : Pc} {d : ℕ} (hpc : st.pc = .scan) (hcall : pc ≠ .test ∧ pc ≠ .close ∧ pc ≠ .write) :
      Step size st .next none { st with d := d, pc := pc }
  | accept {cs : ℕ} (hpc : st.pc = .accept) :
      Step size st (.accept cs) (some (.accept (some cs))) (State.continue { st with
        sockets := st.sockets.accept cs, rfd := insert cs st.rfd })
  | acceptFails (hpc : st.pc = .accept) : Step size st .error (some (.accept none)) st.continue
  | read {n : ℕ} (hpc : st.pc = .read) (hn : n ≤ BUFLEN) :
      Step size st (.read n) (some (.read st.d (some n))) { st with r := n, pc := .test }
  | readFails (hpc : st.pc = .read) :
      Step size st .error (some (.read st.d none)) { st with r := -1, pc := .test }
  | test (hpc : st.pc = .test) :
      Step size st .next none { st with pc := if 0 = st.r then .close else .write }
  | close (hpc : st.pc = .close) :
      Step size st .next (some (.close st.d)) (State.continue { st with
        sockets := st.sockets.close st.d, rfd := st.rfd.erase st.d })
  | write {a : Action} {w : Option ℕ} (hpc : st.pc = .write) :
      Step size st a (some (.write st.d st.len w)) st.continue

/-- The `for` loop goes on, or leads to one of the calls. -/
theorem step_scan (hpc : st.pc = .scan) : Step size st .next none (st.scan s size) := by
  unfold State.scan
  split
  · split
    · exact .scan hpc ⟨nofun, nofun, nofun⟩
    · split
      · exact .scan (d := st.d) hpc ⟨nofun, nofun, nofun⟩
      · exact .scan (d := st.d) hpc ⟨nofun, nofun, nofun⟩
  · exact .scan (d := st.d) hpc ⟨nofun, nofun, nofun⟩

/-- Every step is of one of the kinds. -/
theorem step_cases (hs : step s getdtablesize st a = some (e, st')) :
    Step (dtsize getdtablesize) st a e st' := by
  cases hpc : st.pc <;> cases a <;> simp only [step, hpc, Option.some.injEq, Prod.mk.injEq,
    Option.ite_none_right_eq_some, reduceCtorEq] at hs
  case select.select ready =>
    obtain ⟨-, rfl, rfl⟩ := hs
    exact .select hpc
  case select.error =>
    obtain ⟨rfl, rfl⟩ := hs
    exact .selectFails hpc
  case scan.next =>
    obtain ⟨rfl, rfl⟩ := hs
    exact step_scan hpc
  -- any descriptor that `accept` returns goes into the set
  case accept.accept cs =>
    obtain ⟨-, rfl, rfl⟩ := hs
    exact .accept hpc
  case accept.error =>
    obtain ⟨rfl, rfl⟩ := hs
    exact .acceptFails hpc
  case read.read n =>
    obtain ⟨hn, rfl, rfl⟩ := hs
    exact .read hpc hn
  -- an error is -1 in `r`, which the test does not see
  case read.error =>
    obtain ⟨rfl, rfl⟩ := hs
    exact .readFails hpc
  case test.next =>
    obtain ⟨rfl, rfl⟩ := hs
    exact .test hpc
  case close.next =>
    obtain ⟨rfl, rfl⟩ := hs
    exact .close hpc
  case write.write w =>
    obtain ⟨-, rfl, rfl⟩ := hs
    exact .write hpc
  -- an error of `write` is not looked at
  case write.error =>
    obtain ⟨rfl, rfl⟩ := hs
    exact .write hpc

/-! ## The runs whose steps meet the condition -/

theorem ended_snoc {e : Event} :
    Ended (tr ++ [e]) d ↔ e = .read d none ∨ e = .read d (some 0) := by
  simp [Ended]

/-- What is to hold, and what `r` is when it is tested and when it is used. -/
structure Inv (size : ℕ) (tr : List Event) (st : State) : Prop
    extends DescriptorsOk size tr st where
  test : st.pc = .test → ∃ n ≤ BUFLEN, st.r = n ∧ tr.getLast? = some (.read st.d (some n))
  write : st.pc = .write →
    ∃ n ≤ BUFLEN, 0 < n ∧ st.r = n ∧ tr.getLast? = some (.read st.d (some n))

/-- Elsewhere no descriptor is to be closed. -/
theorem Inv.not_ended (h : Inv size tr st) (htest : st.pc ≠ .test) (hclose : st.pc ≠ .close) :
    ¬ Ended tr d := by
  intro hd
  cases (h.ended d hd).2 with
  | inl hpc => exact htest hpc
  | inr hpc => exact hclose hpc

/-- A call that leaves no descriptor to be closed. -/
theorem Inv.call (h : Inv size tr st) {e : Event} (hcall : CallOk tr e)
    (hended : ∀ d, ¬ Ended (tr ++ [e]) d) (hclosed : ∀ d, e ≠ .close d)
    (hrfd : ∀ d ∈ st'.rfd, d < size) (hpc : st'.pc = .scan) : Inv size (tr ++ [e]) st' where
  rfd := hrfd
  calls := List.eachAfter_snoc.mpr ⟨h.calls, hcall⟩
  ended := fun d hd => absurd hd (hended d)
  closed := by
    intro d hd
    rw [List.getLast?_concat] at hd
    exact absurd (Option.some.inj hd) (hclosed d)
  test := fun htest => absurd (hpc.symm.trans htest) nofun
  write := fun hwrite => absurd (hpc.symm.trans hwrite) nofun

/-- A step without a call. -/
theorem Inv.silent (h : Inv size tr st) (htest : st.pc ≠ .test) (hclose : st.pc ≠ .close)
    (hrfd : st'.rfd = st.rfd) (hsockets : st'.sockets = st.sockets)
    (hpc : st'.pc ≠ .test ∧ st'.pc ≠ .close ∧ st'.pc ≠ .write) : Inv size tr st' where
  rfd := hrfd ▸ h.rfd
  calls := h.calls
  ended := fun d hd => absurd hd (h.not_ended htest hclose)
  closed := by
    intro d hd
    rw [hrfd, hsockets]
    exact h.closed d hd
  test := fun htest => absurd htest hpc.1
  write := fun hwrite => absurd hwrite hpc.2.2

/-- `read` returns `n`. -/
theorem Inv.read (h : Inv size tr st) (hpc : st.pc = .read) {n : ℕ} (hn : n ≤ BUFLEN) :
    Inv size (tr ++ [.read st.d (some n)]) { st with r := n, pc := .test } where
  rfd := h.rfd
  calls := by
    refine List.eachAfter_snoc.mpr ⟨h.calls, fun d hd => absurd hd (h.not_ended ?_ ?_)⟩
    · rw [hpc]
      exact nofun
    · rw [hpc]
      exact nofun
  ended := by
    intro d hd
    -- a `read` of zero bytes is the end of the connection, closed after the test
    cases ended_snoc.mp hd with
    | inl heq => exact nomatch heq
    | inr heq =>
      obtain ⟨rfl, -⟩ := Event.read.inj heq
      exact ⟨rfl, .inl rfl⟩
  closed := by
    intro d hd
    rw [List.getLast?_concat] at hd
    exact nomatch hd
  test := fun _ => ⟨n, hn, rfl, List.getLast?_concat⟩
  write := nofun

/-- The test of the result of `read`, which is not an error. -/
theorem Inv.tested (h : Inv size tr st) (hpc : st.pc = .test) :
    Inv size tr { st with pc := if 0 = st.r then .close else .write } := by
  obtain ⟨n, hn, hr, hlast⟩ := h.test hpc
  by_cases h0 : 0 = st.r
  · rw [if_pos h0]
    exact ⟨⟨h.rfd, h.calls, fun d hd => ⟨(h.ended d hd).1, .inr rfl⟩, h.closed⟩, nofun, nofun⟩
  · rw [if_neg h0]
    refine ⟨⟨h.rfd, h.calls, fun d hd => ?_, h.closed⟩, nofun,
      fun _ => ⟨n, hn, by omega, hr, hlast⟩⟩
    -- the last call has returned more than 0
    unfold Ended at hd
    rw [hlast] at hd
    cases hd with
    | inl heq => exact nomatch heq
    | inr heq =>
      obtain ⟨-, hn0⟩ := Event.read.inj (Option.some.inj heq)
      rw [Option.some.inj hn0] at hr
      exact absurd hr.symm h0

/-- A descriptor is closed. -/
theorem Inv.close (h : Inv size tr st) :
    Inv size (tr ++ [.close st.d]) (State.continue { st with
      sockets := st.sockets.close st.d, rfd := st.rfd.erase st.d }) where
  rfd := fun d hd => h.rfd d (Finset.mem_of_mem_erase hd)
  calls := List.eachAfter_snoc.mpr ⟨h.calls, fun d hd => congrArg Event.close (h.ended d hd).1⟩
  ended := by
    intro d hd
    cases ended_snoc.mp hd with
    | inl heq | inr heq => exact nomatch heq
  closed := by
    intro d hd
    rw [List.getLast?_concat] at hd
    obtain rfl := Event.close.inj (Option.some.inj hd)
    exact ⟨Finset.notMem_erase st.d st.rfd, by simp [State.continue, Sockets.conn_close]⟩
  test := nofun
  write := nofun

/-- What is passed to `write` is the positive result of the `read` before it. -/
theorem Inv.callOk_write (h : Inv size tr st) (hpc : st.pc = .write) (w : Option ℕ) :
    CallOk tr (.write st.d st.len w) := by
  obtain ⟨n, hn, hpos, hr, hlast⟩ := h.write hpc
  have hlen : st.len = n := by
    unfold State.len BUFLEN at *
    omega
  show 0 < st.len ∧ tr.getLast? = some (.read st.d (some st.len))
  rw [hlen]
  exact ⟨hpos, hlast⟩

/-- Every step that meets the condition. -/
theorem Inv.step (h : Inv size tr st) (ha : Orderly size st a) (hs : Step size st a e st') :
    Inv size (tr ++ e.toList) st' := by
  have hsilent : tr ++ (none : Option Event).toList = tr := List.append_nil tr
  -- where the step is a call and `read` is not the last one
  have hother : ∀ e : Event, st.pc ≠ .test → st.pc ≠ .close → ∀ d, Ended tr d → e = .close d :=
    fun e htest hclose d hd => absurd hd (h.not_ended htest hclose)
  cases hs with
  | select hpc =>
    exact h.call (hother _ (by simp [hpc]) (by simp [hpc])) (by simp [ended_snoc]) nofun h.rfd rfl
  | selectFails hpc =>
    rw [hsilent]
    exact h.silent (by simp [hpc]) (by simp [hpc]) rfl rfl ⟨nofun, nofun, nofun⟩
  | scan hpc hcall =>
    rw [hsilent]
    exact h.silent (by simp [hpc]) (by simp [hpc]) rfl rfl hcall
  | @accept cs hpc =>
    refine h.call (hother _ (by simp [hpc]) (by simp [hpc])) (by simp [ended_snoc]) nofun ?_ rfl
    intro d hd
    cases Finset.mem_insert.mp hd with
    | inl heq => exact heq ▸ ha
    | inr hd => exact h.rfd d hd
  | acceptFails hpc =>
    exact h.call (hother _ (by simp [hpc]) (by simp [hpc])) (by simp [ended_snoc]) nofun h.rfd rfl
  | read hpc hn => exact h.read hpc hn
  | readFails hpc => exact absurd hpc ha
  | test hpc =>
    rw [hsilent]
    exact h.tested hpc
  | close => exact h.close
  | write hpc => exact h.call (h.callOk_write hpc _) (by simp [ended_snoc]) nofun h.rfd rfl

theorem initial_inv (hs : s < size) : Inv size [] (initial s r) where
  rfd := by
    intro d hd
    rw [Finset.mem_singleton.mp hd]
    exact hs
  calls := List.eachAfter_nil
  ended := by
    intro d hd
    cases hd with
    | inl heq | inr heq => exact nomatch heq
  closed := nofun
  test := nofun
  write := nofun

/-! ## The other steps -/

/-- After a step that does not meet the condition, or after one more, a descriptor that does not fit
    is in `rfd`, or the scan goes on to `write` after an error of `read`. -/
theorem Orderly.necessary (tr : List Event) (ha : ¬ Orderly (dtsize getdtablesize) st a)
    (hs : (machine s getdtablesize).step st a = some (e, st')) :
    ∃ st'', (machine s getdtablesize).Run st' [] st'' ∧
      ¬ DescriptorsOk (dtsize getdtablesize) (tr ++ e.toList) st'' := by
  cases step_cases hs with
  | accept hpc =>
    exact ⟨_, .nil, fun hok => ha (hok.rfd _ (Finset.mem_insert_self _ _))⟩
  | readFails hpc =>
    refine ⟨_, Machine.Run.single (a := .next) (e := none) rfl, fun hok => ?_⟩
    have hended : Ended (tr ++ [.read st.d none]) st.d := ended_snoc.mpr (.inl rfl)
    cases (hok.ended st.d hended).2 with
    | inl htest => exact nomatch htest
    | inr hclose => exact nomatch hclose
  | selectFails hpc | acceptFails hpc =>
    exact absurd (by simp [Orderly, hpc]) ha
  | @write a w hpc =>
    cases a with
    | accept cs => exact absurd hs (by simp [machine, MultiClientEchoServerOldIPv4.step, hpc])
    | error => exact absurd (by simp [Orderly, hpc]) ha
    | _ => exact absurd trivial ha
  | _ => exact absurd trivial ha

/-- For every limit on descriptors and whatever the calls return: all runs whose steps meet the
    condition are as they should be if and only if the listening socket fits in a `fd_set`; and
    every step that does not meet it leads to a state that is not. -/
theorem oldDescriptors_iff (s getdtablesize : ℕ) (r : ℤ) :
    ((∀ tr st, ((machine s getdtablesize).restrict (Orderly (dtsize getdtablesize))).Run
        (initial s r) tr st → DescriptorsOk (dtsize getdtablesize) tr st) ↔
      s < dtsize getdtablesize) ∧
    ∀ tr st a e st', (machine s getdtablesize).Run (initial s r) tr st →
      (machine s getdtablesize).step st a = some (e, st') →
      ¬ Orderly (dtsize getdtablesize) st a →
      ∃ st'', (machine s getdtablesize).Run (initial s r) (tr ++ e.toList) st'' ∧
        ¬ DescriptorsOk (dtsize getdtablesize) (tr ++ e.toList) st'' := by
  refine ⟨⟨fun h => ?_, fun hs tr st h => ?_⟩, fun tr st a e st' hrun hs ha => ?_⟩
  · exact (h [] _ .nil).rfd s (Finset.mem_singleton_self s)
  · have hinv : Inv (dtsize getdtablesize) tr st := by
      refine h.trace_invariant ?_ (initial_inv hs)
      intro tr st a e st' hinv hs
      obtain ⟨ha, hs⟩ := Machine.restrict_step.mp hs
      exact hinv.step ha (step_cases hs)
    exact hinv.toDescriptorsOk
  · obtain ⟨st'', hrun', hnot⟩ := Orderly.necessary tr ha hs
    refine ⟨st'', ?_, hnot⟩
    rw [← List.append_nil (tr ++ e.toList)]
    exact (hrun.snoc hs).append hrun'

/-- The listening socket is 3 and the limit 5: a client with the descriptor 4 sends something and
    goes; and a `read` of it that fails. -/
theorem oldDescriptors_iff_client :
    (∃ tr st, ((machine 3 5).restrict (Orderly (dtsize 5))).Run (initial 3 0) tr st ∧
      .close 4 ∈ tr ∧ DescriptorsOk (dtsize 5) tr st) ∧
    ∃ tr st, (machine 3 5).Run (initial 3 0) tr st ∧ tr.getLast? = some (.read 4 none) ∧
      ¬ DescriptorsOk (dtsize 5) tr st := by
  obtain ⟨hiff, hnecessary⟩ := oldDescriptors_iff 3 5 0
  constructor
  · have hrun := Machine.Run.of_exec (M := (machine 3 5).restrict (Orderly (dtsize 5)))
      (s := initial 3 0) [.select {3}, .next, .accept 4, .next, .next, .select {4}, .next, .next,
        .read 5, .next, .write 5, .next, .select {4}, .next, .next, .read 0, .next, .next] rfl
    exact ⟨_, _, hrun, by decide, hiff.mpr (by decide) _ _ hrun⟩
  · have hrun := Machine.Run.of_exec (M := machine 3 5) (s := initial 3 0)
      [.select {3}, .next, .accept 4, .next, .next, .select {4}, .next, .next] rfl
    obtain ⟨st'', hrun', hnot⟩ := hnecessary _ _ .error _ _ hrun rfl (by decide)
    exact ⟨_, st'', hrun', by decide, hnot⟩

/-- With a limit of 2048 descriptors a client gets the descriptor 1024; and with any limit the
    `read` of a client may fail, and `write` is called with the length `(size_t)-1`. -/
theorem not_oldDescriptors :
    (∃ tr st, (machine 3 2048).Run (initial 3 0) tr st ∧ 1024 ∈ st.rfd ∧ ¬ 1024 < dtsize 2048) ∧
    ∃ tr st, (machine 3 5).Run (initial 3 0) tr st ∧
      tr = [.select {3}, .accept (some 4), .select {4}, .read 4 none, .write 4 (2 ^ 64 - 1) none] ∧
      ¬ DescriptorsOk (dtsize 5) tr st := by
  constructor
  · exact ⟨_, _, .of_exec (M := machine 3 2048) [.select {3}, .next, .accept 1024] rfl,
      Finset.mem_insert_self _ _, by decide⟩
  · refine ⟨_, _, .of_exec (M := machine 3 5) [.select {3}, .next, .accept 4, .next, .next,
      .select {4}, .next, .next, .error, .next, .error] rfl, rfl, fun h => ?_⟩
    -- the event before the last one is the `read` that has failed
    have hcall := h.calls [.select {3}, .accept (some 4), .select {4}, .read 4 none]
      (.write 4 (2 ^ 64 - 1) none) [] rfl
    cases hcall.2

end MultiClientEchoServerOldIPv4
