import Mathlib.Tactic.Common
import OsSamples.Spec.MultiClientEchoServer

/-!
# The echo server: the streams of bytes

What is received from a client and what `send` accepts for it, over a whole run.  The server hands
each piece that it has received to `send` once and does not look at the number of bytes that were
accepted, so a short `send` leaves a gap in the stream if a later one accepts bytes.

## Key results

- `received_eq`: as long as no `send` was short, only the piece in `buf` is missing
- `echoed_prefix`: without such a gap, what was accepted is a prefix of what was received
- `not_echoed_prefix`: a run with a gap
-/

namespace MultiClientEchoServer

variable {s size c : ℕ} {st st' : State} {e : Option Event} {tr : List Event}

/-- The bytes received from the client of connection `c`. -/
def received (c : ℕ) (tr : List Event) : List UInt8 :=
  tr.flatMap fun
    | .recv _ c' (some bytes) => if c' = some c then bytes else []
    | _ => []

/-- The bytes that the calls of `send` on connection `c` have accepted. -/
def echoed (c : ℕ) (tr : List Event) : List UInt8 :=
  tr.flatMap fun
    | .send _ c' bytes (some w) => if c' = some c then bytes.take w else []
    | _ => []

/-- A `send` on connection `c` that has failed, or has not accepted all the bytes. -/
def Event.short (c : ℕ) : Event → Bool
  | .send _ c' bytes w => c' = some c && w ≠ some bytes.length
  | _ => false

/-- On connection `c` no `send` accepts bytes after one that was short or has failed. -/
def Gapless (c : ℕ) (tr : List Event) : Prop :=
  ∀ pre e, pre ++ [e] <+: tr → echoed c [e] ≠ [] → ∀ e' ∈ pre, e'.short c = false

theorem Gapless.of_prefix {pre : List Event} (h : Gapless c tr) (hpre : pre <+: tr) :
    Gapless c pre := fun _ _ hp => h _ _ (hp.trans hpre)

/-- At most the last call is short. -/
theorem gapless_of_dropLast (h : ∀ x ∈ tr.dropLast, x.short c = false) : Gapless c tr := by
  intro pre e hpre _ e' he'
  obtain ⟨post, rfl⟩ := hpre
  apply h
  rw [List.append_assoc, List.dropLast_append_of_ne_nil (by simp)]
  exact List.mem_append_left _ he'

theorem received_append (tr tr' : List Event) :
    received c (tr ++ tr') = received c tr ++ received c tr' := List.flatMap_append

theorem echoed_append (tr tr' : List Event) :
    echoed c (tr ++ tr') = echoed c tr ++ echoed c tr' := List.flatMap_append

/-- The bytes received on connection `c` that the next call hands to `send`. -/
def pending (c : ℕ) (st : State) : List UInt8 :=
  if st.pc = .send ∧ st.sockets.conn st.d = some c then st.buf.take st.r.toNat else []

theorem pending_of_ne_send (h : st.pc ≠ .send) : pending c st = [] := if_neg fun hp => h hp.1

/-- What is received waits for its `send`. -/
theorem pending_received (bytes : List UInt8) :
    pending c (st.received bytes) = if st.sockets.conn st.d = some c then bytes else [] := by
  cases bytes with
  | nil => simp [pending, State.received]
  | cons b bytes => simp [pending, State.received]

/-- While no `send` on the connection is short, nothing gets lost. -/
theorem step_received_eq (h : received c tr = echoed c tr ++ pending c st)
    (hs : Step s size st e st') (hshort : ∀ x ∈ e.toList, x.short c = false) :
    received c (tr ++ e.toList) = echoed c (tr ++ e.toList) ++ pending c st' := by
  -- a step before and after which nothing is on its way
  have hquiet : st.pc ≠ .send → st'.pc ≠ .send → received c e.toList = [] →
      echoed c e.toList = [] →
      received c (tr ++ e.toList) = echoed c (tr ++ e.toList) ++ pending c st' := by
    intro hpc hpc' hrecv hsend
    rw [received_append, echoed_append, hrecv, hsend, List.append_nil, List.append_nil, h,
      pending_of_ne_send hpc, pending_of_ne_send hpc']
  cases hs with
  | @recv bytes hpc =>
    rw [pending_of_ne_send (by simp [hpc]), List.append_nil] at h
    rw [received_append, echoed_append, h, pending_received]
    simp [received, echoed]
  | @send w hpc =>
    have hcont : st.continue.pc ≠ .send := by simp [State.continue]
    rw [pending_of_ne_send hcont, received_append,
      echoed_append, h]
    simp only [pending, hpc, true_and, received, echoed, Option.toList_some, List.flatMap_cons,
      List.flatMap_nil, List.append_nil]
    split
    · rename_i hc
      have hw := hshort _ (List.mem_singleton_self _)
      simp only [Event.short, hc, decide_true, Bool.true_and, ne_eq, Option.some.injEq,
        decide_not, Bool.not_eq_false', decide_eq_true_eq] at hw
      rw [hw, List.take_length]
    · rfl
  | sendFails hpc =>
    have hcont : st.continue.pc ≠ .send := by simp [State.continue]
    rw [pending_of_ne_send hcont, received_append,
      echoed_append, h]
    have hc : ¬ st.sockets.conn st.d = some c := by
      intro hc
      have hw := hshort _ (List.mem_singleton_self _)
      simp [Event.short, hc] at hw
    simp [pending, hc, received, echoed]
  | select hpc | selectFails hpc | skip hpc | toAccept hpc | toRecv hpc | endScan hpc | accept hpc
  | acceptTooLarge hpc | acceptFails hpc | closeTooLarge hpc | recvFails hpc | close hpc =>
    exact hquiet (by simp [hpc]) (fun h => by cases h) rfl rfl

/-- While no `send` on the connection was short, the bytes accepted are all the bytes received but
    the piece that is handed to `send` next. -/
theorem received_eq {getdtablesize : ℕ}
    (h : (machine s getdtablesize).Run (initial s) tr st) (hshort : ∀ x ∈ tr, x.short c = false) :
    received c tr = echoed c tr ++ pending c st := by
  revert hshort
  refine h.trace_invariant (I := fun tr st => (∀ x ∈ tr, x.short c = false) →
    received c tr = echoed c tr ++ pending c st) ?_ fun _ => rfl
  intro tr st a e st' hI hs hshort
  have hsplit := List.forall_mem_append.mp hshort
  exact step_received_eq (hI hsplit.1) (step_cases hs) hsplit.2

/-- One more call. -/
theorem step_echoed_prefix (h : echoed c tr <+: received c tr)
    (heq : (∀ x ∈ tr, x.short c = false) → received c tr = echoed c tr ++ pending c st)
    (hs : Step s size st e st') (hgap : Gapless c (tr ++ e.toList)) :
    echoed c (tr ++ e.toList) <+: received c (tr ++ e.toList) := by
  by_cases hnil : echoed c e.toList = []
  · rw [echoed_append, received_append, hnil, List.append_nil]
    exact h.trans (List.prefix_append _ _)
  · -- the `send` gets the next piece, the ones before having been accepted as a whole
    cases hs with
    | @send w hpc =>
      have hbefore := hgap tr _ List.prefix_rfl hnil
      rw [echoed_append, received_append, heq hbefore]
      simp only [echoed, received, pending, hpc, true_and, Option.toList_some, List.flatMap_cons,
        List.flatMap_nil, List.append_nil]
      split
      · exact (List.prefix_append_right_inj _).mpr (List.take_prefix _ _)
      · rfl
    | select | selectFails | skip | toAccept | toRecv | endScan | accept | acceptTooLarge
    | acceptFails | closeTooLarge | recv | recvFails | sendFails | close => exact absurd rfl hnil

/-- In every run in which no `send` on the connection accepts bytes after one that was short or has
    failed, the bytes accepted are at every moment a prefix of the bytes received. -/
theorem echoed_prefix (s getdtablesize : ℕ) (tr : List Event) (st : State)
    (h : (machine s getdtablesize).Run (initial s) tr st) (c : ℕ) (hgap : Gapless c tr) :
    echoed c tr <+: received c tr := by
  have key : (machine s getdtablesize).Run (initial s) tr st ∧
      (Gapless c tr → echoed c tr <+: received c tr) := by
    refine h.trace_invariant (I := fun tr st => (machine s getdtablesize).Run (initial s) tr st ∧
      (Gapless c tr → echoed c tr <+: received c tr)) ?_ ⟨.nil, fun _ => List.prefix_rfl⟩
    rintro tr st a e st' ⟨hrun, hI⟩ hs
    refine ⟨hrun.snoc hs, fun hgap => ?_⟩
    have hI := hI (hgap.of_prefix (List.prefix_append _ _))
    exact step_echoed_prefix hI (received_eq hrun) (step_cases hs) hgap
  exact key.2 hgap

/-- The bytes come in two pieces; the first is echoed as a whole, and one byte of the second. -/
theorem echoed_prefix_two_pieces : ∃ tr st, (machine 3 1024).Run (initial 3) tr st ∧
    echoed 0 tr = [97, 98, 99] ∧ echoed 0 tr <+: received 0 tr := by
  have hrun := Machine.Run.of_exec (M := machine 3 1024) (s := initial 3)
    [.select {3}, .next, .accept 4, .next, .next,
      .select {4}, .next, .next, .recv [97, 98], .send 2, .next,
      .select {4}, .next, .next, .recv [99, 100], .send 1] rfl
  exact ⟨_, _, hrun, by decide, echoed_prefix 3 1024 _ _ hrun 0 (gapless_of_dropLast (by decide))⟩

/-- The client sends `ab` and then `c`; the first `send` accepts only the `a`. -/
theorem not_echoed_prefix : ∃ tr st, (machine 3 1024).Run (initial 3) tr st ∧
    received 0 tr = [97, 98, 99] ∧ echoed 0 tr = [97, 99] ∧
      ¬ echoed 0 tr <+: received 0 tr := by
  have hrun := Machine.Run.of_exec (M := machine 3 1024) (s := initial 3)
    [.select {3}, .next, .accept 4, .next, .next,
      .select {4}, .next, .next, .recv [97, 98], .send 1, .next,
      .select {4}, .next, .next, .recv [99], .send 1] rfl
  exact ⟨_, _, hrun, by decide, by decide, by decide⟩

end MultiClientEchoServer
