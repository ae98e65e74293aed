import Mathlib.Tactic.Common
import OsSamples.Native.MultiClientEchoServer

/-!
# The echo server: the sets of descriptors

`Inv` says what `rfd`, `ready_rfd` and `dsize` have to do with the connections that are open in the
kernel, at every step of the scan.

## Key results

- `step_cases`: what a step can do, one constructor of `Step` for each kind
- `step_inv`: the invariant
- `descriptors_correct`: the sets of descriptors, and on what `recv`, `send` and `close` are called
-/

namespace MultiClientEchoServer

variable {s size : ℕ} {st st' : State} {a : Action} {e : Option Event} {tr : List Event}

/-! ## What a step can do -/

/-- The kinds of steps of the server; `size` is `dtsize`. -/
inductive Step (s size : ℕ) (st : State) : Option Event → State → Prop
  | select {ready : Finset ℕ} (hpc : st.pc = .select) (hsub : ready ⊆ st.rfd) :
      Step s size st (some (.select ready)) (st.selected ready)
  | selectFails (hpc : st.pc = .select) : Step s size st none { st with pc := .failure }
  | skip (hpc : st.pc = .scan) : Step s size st none st.continue
  | toAccept (hpc : st.pc = .scan) (hd : st.d = s) : Step s size st none { st with pc := .accept }
  | toRecv (hpc : st.pc = .scan) (hready : st.d ∈ st.readyRfd) (hd : st.d ≠ s) :
      Step s size st none { st with pc := .recv }
  | endScan (hpc : st.pc = .scan) : Step s size st none { st with pc := .select }
  | accept {cs : ℕ} (hpc : st.pc = .accept) (h3 : 3 ≤ cs) (hs : cs ≠ s)
      (hcs : st.sockets.conn cs = none) (hsize : cs < size) :
      Step s size st (some (.accept (some cs))) (State.continue { st with
        sockets := st.sockets.accept cs
        rfd := insert cs st.rfd
        dsize := if cs ≥ st.dsize then cs + 1 else st.dsize })
  | acceptTooLarge {cs : ℕ} (hpc : st.pc = .accept) (hs : cs ≠ s)
      (hcs : st.sockets.conn cs = none) (hsize : size ≤ cs) :
      Step s size st (some (.accept (some cs)))
        { st with sockets := st.sockets.accept cs, pc := .tooLarge cs }
  | acceptFails (hpc : st.pc = .accept) : Step s size st (some (.accept none)) st.continue
  | closeTooLarge {cs : ℕ} (hpc : st.pc = .tooLarge cs) :
      Step s size st (some (.close cs (st.sockets.conn cs)))
        (State.continue { st with sockets := st.sockets.close cs })
  | recv {bytes : List UInt8} (hpc : st.pc = .recv) :
      Step s size st (some (.recv st.d (st.sockets.conn st.d) (some bytes))) (st.received bytes)
  | recvFails (hpc : st.pc = .recv) :
      Step s size st (some (.recv st.d (st.sockets.conn st.d) none))
        { st with r := -1, pc := .close }
  | send {w : ℕ} (hpc : st.pc = .send) :
      Step s size st (some (.send st.d (st.sockets.conn st.d) (st.buf.take st.r.toNat) (some w)))
        st.continue
  | sendFails (hpc : st.pc = .send) :
      Step s size st (some (.send st.d (st.sockets.conn st.d) (st.buf.take st.r.toNat) none))
        st.continue
  | close (hpc : st.pc = .close) :
      Step s size st (some (.close st.d (st.sockets.conn st.d))) st.closed

/-- The `for` loop goes on, or leads to one of the calls. -/
theorem step_scan (hpc : st.pc = .scan) : Step s size st none (st.scan s) := by
  unfold State.scan
  split
  · split
    · exact .skip hpc
    · split
      · exact .toAccept hpc ‹_›
      · exact .toRecv hpc (not_not.mp ‹_›) ‹_›
  · exact .endScan hpc

/-- The two ways in which a new connection is dealt with. -/
theorem step_accepted {cs : ℕ} (hpc : st.pc = .accept) (h3 : 3 ≤ cs) (hs : cs ≠ s)
    (hcs : st.sockets.conn cs = none) :
    Step s size st (some (.accept (some cs))) (st.accepted size cs) := by
  simp only [State.accepted]
  split
  · exact .acceptTooLarge hpc hs hcs ‹_›
  · exact .accept hpc h3 hs hcs (by omega)

/-- Every step is of one of the kinds. -/
theorem step_cases (hs : step s size st a = some (e, st')) : Step s size st e st' := by
  cases hpc : st.pc <;> cases a <;> simp only [step, hpc, Option.some.injEq, Prod.mk.injEq,
    Option.ite_none_right_eq_some, reduceCtorEq] at hs
  -- `select` returns a subset of the descriptors that it was asked about
  case select.select ready =>
    obtain ⟨⟨hsub, -⟩, rfl, rfl⟩ := hs
    exact .select hpc hsub
  case select.error =>
    obtain ⟨rfl, rfl⟩ := hs
    exact .selectFails hpc
  case scan.next =>
    obtain ⟨rfl, rfl⟩ := hs
    exact step_scan hpc
  -- `accept` returns a descriptor that is not in use
  case accept.accept cs =>
    obtain ⟨⟨h3, hs, hcs⟩, rfl, rfl⟩ := hs
    exact step_accepted hpc h3 hs hcs
  case accept.error =>
    obtain ⟨rfl, rfl⟩ := hs
    exact .acceptFails hpc
  -- a descriptor of which `select` cannot be asked is closed again
  case tooLarge.next cs =>
    obtain ⟨rfl, rfl⟩ := hs
    exact .closeTooLarge hpc
  case recv.recv bytes =>
    obtain ⟨-, rfl, rfl⟩ := hs
    exact .recv hpc
  case recv.error =>
    obtain ⟨rfl, rfl⟩ := hs
    exact .recvFails hpc
  -- `send` may take only a part of the bytes
  case send.send w =>
    obtain ⟨-, rfl, rfl⟩ := hs
    exact .send hpc
  case send.error =>
    obtain ⟨rfl, rfl⟩ := hs
    exact .sendFails hpc
  case close.next =>
    obtain ⟨rfl, rfl⟩ := hs
    exact .close hpc

/-! ## The sets -/

/-- The descriptor is open on a connection that was open on it when the last `select` found it
    ready. -/
def OnReady (k : Sockets) (d : ℕ) : Prop := ∃ c, k.conn d = some c ∧ k.selected d = some c

/-- The call is made on the descriptor `d` that the scan has come to. -/
def Pc.atClient : Pc → Bool
  | .recv | .send | .close => true
  | .select | .scan | .accept | .tooLarge _ | .failure => false

/-- The sets of descriptors, and the descriptors that the scan has not come to yet. -/
structure Inv (s size : ℕ) (st : State) : Prop where
  dsize : s < st.dsize ∧ st.dsize ≤ size
  range : ∀ d ∈ st.rfd, 3 ≤ d ∧ d < st.dsize
  listen : st.sockets.conn s = none
  rfd : ∀ d, d ∈ st.rfd ↔ d = s ∨ (st.sockets.conn d).isSome ∧ st.pc ≠ .tooLarge d
  tooLarge : ∀ cs, st.pc = .tooLarge cs → size ≤ cs
  readyRange : ∀ d ∈ st.readyRfd, d < size
  ready : ∀ d ∈ st.readyRfd, st.d ≤ d → d = s ∨ OnReady st.sockets d
  current : st.pc.atClient = true → st.d ∈ st.readyRfd ∧ st.d ≠ s

/-- The calls in the scan, `accept` apart, are made on a connection that was ready. -/
theorem Inv.onReady (h : Inv s size st) (hpc : st.pc.atClient = true) :
    OnReady st.sockets st.d := by
  obtain ⟨hready, hs⟩ := h.current hpc
  exact (h.ready st.d hready le_rfl).resolve_left hs

/-- A step that leaves the sets and the connections as they are. -/
theorem Inv.frame (h : Inv s size st) (hrfd : st'.rfd = st.rfd)
    (hready : st'.readyRfd = st.readyRfd) (hdsize : st'.dsize = st.dsize)
    (hsockets : st'.sockets = st.sockets) (hd : st.d ≤ st'.d)
    (hpc : ∀ cs, st.pc ≠ .tooLarge cs) (hpc' : ∀ cs, st'.pc ≠ .tooLarge cs)
    (hcurrent : st'.pc.atClient = true → st'.d ∈ st.readyRfd ∧ st'.d ≠ s) : Inv s size st' where
  dsize := hdsize ▸ h.dsize
  range := by
    rw [hrfd, hdsize]
    exact h.range
  listen := hsockets ▸ h.listen
  rfd := by
    intro d
    rw [hrfd, hsockets, h.rfd d]
    simp [hpc, hpc']
  tooLarge := fun cs hcs => absurd hcs (hpc' cs)
  readyRange := hready ▸ h.readyRange
  ready := by
    intro d hmem hle
    rw [hready] at hmem
    rw [hsockets]
    exact h.ready d hmem (hd.trans hle)
  current := hready.symm ▸ hcurrent

/-- A new call of `select`. -/
theorem Inv.selected (h : Inv s size st) (hpc : st.pc = .select) {ready : Finset ℕ}
    (hsub : ready ⊆ st.rfd) : Inv s size (st.selected ready) where
  dsize := h.dsize
  range := h.range
  listen := h.listen
  rfd := by
    intro d
    have hd := h.rfd d
    simp only [hpc, ne_eq, reduceCtorEq, not_false_eq_true, and_true] at hd
    simp [State.selected, Sockets.conn_select, hd]
  tooLarge := nofun
  readyRange := fun d hmem => (h.range d (hsub hmem)).2.trans_le h.dsize.2
  ready := by
    intro d hmem _
    refine ((h.rfd d).mp (hsub hmem)).imp id fun hopen => ?_
    obtain ⟨c, hc⟩ := Option.isSome_iff_exists.mp hopen.1
    exact ⟨c, hc, by rw [← hc]; exact Sockets.selected_select hmem⟩
  current := nofun

/-- A new connection on an unused descriptor does not touch the ones that are ready. -/
theorem Inv.ready_accept (h : Inv s size st) {cs : ℕ} (hs : cs ≠ s)
    (hcs : st.sockets.conn cs = none) {d : ℕ} (hmem : d ∈ st.readyRfd) (hle : st.d ≤ d) :
    d = s ∨ OnReady (st.sockets.accept cs) d := by
  refine (h.ready d hmem hle).imp id fun ⟨c, hc, hsel⟩ => ?_
  have hne : d ≠ cs := by
    rintro rfl
    rw [hcs] at hc
    exact nomatch hc
  exact ⟨c, by rwa [Sockets.conn_accept, if_neg hne], hsel⟩

/-- A new connection that is watched from now on. -/
theorem Inv.accept (h : Inv s size st) (hpc : st.pc = .accept) {cs : ℕ} (h3 : 3 ≤ cs) (hs : cs ≠ s)
    (hcs : st.sockets.conn cs = none) (hsize : cs < size) :
    Inv s size (State.continue { st with
        sockets := st.sockets.accept cs
        rfd := insert cs st.rfd
        dsize := if cs ≥ st.dsize then cs + 1 else st.dsize }) where
  dsize := by
    obtain ⟨hlt, hle⟩ := h.dsize
    simp only [State.continue]
    split <;> omega
  range := by
    intro d hd
    simp only [State.continue, Finset.mem_insert] at hd ⊢
    rcases hd with rfl | hd
    · -- `dsize` is raised over the new descriptor
      refine ⟨h3, ?_⟩
      split <;> omega
    · obtain ⟨h3', hlt⟩ := h.range d hd
      refine ⟨h3', ?_⟩
      split <;> omega
  listen := by
    simp only [State.continue, Sockets.conn_accept, if_neg hs.symm]
    exact h.listen
  rfd := by
    intro d
    have hd := h.rfd d
    simp only [hpc, ne_eq, reduceCtorEq, not_false_eq_true, and_true] at hd
    simp only [State.continue, Finset.mem_insert, hd, Sockets.conn_accept, ne_eq, reduceCtorEq,
      not_false_eq_true, and_true]
    by_cases hdcs : d = cs <;> simp [hdcs]
  tooLarge := nofun
  readyRange := h.readyRange
  ready := fun d hmem hle => h.ready_accept hs hcs hmem (Nat.le_of_succ_le hle)
  current := nofun

/-- A new connection that does not fit. -/
theorem Inv.acceptTooLarge (h : Inv s size st) (hpc : st.pc = .accept) {cs : ℕ} (hs : cs ≠ s)
    (hcs : st.sockets.conn cs = none) (hsize : size ≤ cs) :
    Inv s size { st with sockets := st.sockets.accept cs, pc := .tooLarge cs } where
  dsize := h.dsize
  range := h.range
  listen := by
    simp only [Sockets.conn_accept, if_neg hs.symm]
    exact h.listen
  rfd := by
    intro d
    have hd := h.rfd d
    simp only [hpc, ne_eq, reduceCtorEq, not_false_eq_true, and_true] at hd
    simp only [hd, Sockets.conn_accept, ne_eq, Pc.tooLarge.injEq]
    -- the new descriptor is the one open descriptor that is not watched
    by_cases hdcs : d = cs
    · simp [hdcs, hcs]
    · simp [hdcs, Ne.symm hdcs]
  tooLarge := by
    intro cs' hcs'
    obtain rfl : cs = cs' := Pc.tooLarge.inj hcs'
    exact hsize
  readyRange := h.readyRange
  ready := fun d hmem hle => h.ready_accept hs hcs hmem hle
  current := nofun

/-- The connection that does not fit is closed; its descriptor has never been watched. -/
theorem Inv.closeTooLarge (h : Inv s size st) {cs : ℕ} (hpc : st.pc = .tooLarge cs) :
    Inv s size (State.continue { st with sockets := st.sockets.close cs }) where
  dsize := h.dsize
  range := h.range
  listen := by
    simp only [State.continue, Sockets.conn_close]
    split
    · rfl
    · exact h.listen
  rfd := by
    intro d
    have hd := h.rfd d
    simp only [hpc, ne_eq, Pc.tooLarge.injEq] at hd
    simp only [State.continue, hd, Sockets.conn_close, ne_eq, reduceCtorEq, not_false_eq_true,
      and_true]
    by_cases hdcs : d = cs
    · simp [hdcs]
    · simp [hdcs, Ne.symm hdcs]
  tooLarge := nofun
  readyRange := h.readyRange
  ready := by
    intro d hmem hle
    -- a ready descriptor is below `size`, the closed one is not
    have hlt := h.readyRange d hmem
    have hge := h.tooLarge cs hpc
    refine (h.ready d hmem (Nat.le_of_succ_le hle)).imp id fun ⟨c, hc, hsel⟩ => ?_
    exact ⟨c, by rwa [State.continue, Sockets.conn_close, if_neg (by omega)], hsel⟩
  current := nofun

/-- A client's connection is closed; the scan does not come to its descriptor again. -/
theorem Inv.closed (h : Inv s size st) (hpc : st.pc = .close) : Inv s size st.closed where
  dsize := h.dsize
  range := fun d hd => h.range d (Finset.mem_of_mem_erase hd)
  listen := by
    simp only [State.closed, State.continue, Sockets.conn_close]
    split
    · rfl
    · exact h.listen
  rfd := by
    intro d
    obtain ⟨-, hne⟩ := h.current (by rw [hpc]; rfl)
    have hd := h.rfd d
    simp only [hpc, ne_eq, reduceCtorEq, not_false_eq_true, and_true] at hd
    simp only [State.closed, State.continue, Finset.mem_erase, hd, Sockets.conn_close, ne_eq,
      reduceCtorEq, not_false_eq_true, and_true]
    by_cases hdd : d = st.d
    · simp [hdd, hne]
    · simp [hdd]
  tooLarge := nofun
  readyRange := h.readyRange
  ready := by
    intro d hmem hle
    -- the scan goes on behind the closed descriptor
    simp only [State.closed, State.continue] at hmem hle
    refine (h.ready d hmem (Nat.le_of_succ_le hle)).imp id fun ⟨c, hc, hsel⟩ => ?_
    refine ⟨c, ?_, hsel⟩
    simp only [State.closed, State.continue, Sockets.conn_close]
    rwa [if_neg (by omega)]
  current := nofun

/-- Every step keeps the sets. -/
theorem step_inv (h : Inv s size st) (hs : Step s size st e st') : Inv s size st' := by
  cases hs with
  | select hpc hsub => exact h.selected hpc hsub
  | accept hpc h3 hs hcs hsize => exact h.accept hpc h3 hs hcs hsize
  | acceptTooLarge hpc hs hcs hsize => exact h.acceptTooLarge hpc hs hcs hsize
  | closeTooLarge hpc => exact h.closeTooLarge hpc
  | close hpc => exact h.closed hpc
  -- the other steps leave the sets and the connections as they are
  | toRecv hpc hready hd =>
    exact h.frame rfl rfl rfl rfl le_rfl (by simp [hpc]) (by simp) fun _ => ⟨hready, hd⟩
  | recv hpc =>
    have hcur := h.current (by rw [hpc]; rfl)
    refine h.frame rfl rfl rfl rfl le_rfl (by simp [hpc]) ?_ fun _ => hcur
    intro cs
    simp only [State.received]
    split <;> simp
  | recvFails hpc =>
    have hcur := h.current (by rw [hpc]; rfl)
    exact h.frame rfl rfl rfl rfl le_rfl (by simp [hpc]) (by simp) fun _ => hcur
  | selectFails hpc | toAccept hpc | endScan hpc =>
    exact h.frame rfl rfl rfl rfl le_rfl (by simp [hpc]) (by simp) nofun
  | skip hpc | acceptFails hpc | send hpc | sendFails hpc =>
    exact h.frame rfl rfl rfl rfl (Nat.le_succ _) (by simp [hpc]) (by simp [State.continue]) nofun

theorem initial_inv (h3 : 3 ≤ s) (hs : s < size) : Inv s size (initial s) where
  dsize := ⟨Nat.lt_succ_self s, hs⟩
  range := by
    intro d hd
    obtain rfl := Finset.mem_singleton.mp hd
    exact ⟨h3, Nat.lt_succ_self d⟩
  listen := rfl
  rfd := by
    intro d
    simp [initial, Sockets.empty]
  tooLarge := nofun
  readyRange := nofun
  ready := nofun
  current := nofun

/-! ## The calls -/

/-- What the last call was, where the next one depends on it. -/
structure LastCall (tr : List Event) (st : State) : Prop where
  send : st.pc = .send → ∃ tr',
    tr = tr' ++ [.recv st.d (st.sockets.conn st.d) (some (st.buf.take st.r.toNat))]
  tooLarge : ∀ cs, st.pc = .tooLarge cs →
    (st.sockets.conn cs).isSome ∧ ∃ tr', tr = tr' ++ [.accept (some cs)]

/-- `send` comes right after a `recv`, and the `close` of a descriptor that does not fit right
    after its `accept`. -/
theorem step_lastCall (hs : Step s size st e st') : LastCall (tr ++ e.toList) st' := by
  cases hs with
  | recv hpc =>
    refine ⟨fun _ => ⟨tr, ?_⟩, fun cs hcs => ?_⟩
    · simp [State.received]
    · simp only [State.received] at hcs
      split at hcs <;> exact nomatch hcs
  | acceptTooLarge hpc hs hcs hsize =>
    refine ⟨nofun, fun cs hcs => ?_⟩
    obtain rfl := Pc.tooLarge.inj hcs
    exact ⟨by simp [Sockets.conn_accept], tr, rfl⟩
  | select | selectFails | skip | toAccept | toRecv | endScan | accept | acceptFails
  | closeTooLarge | recvFails | send | sendFails | close => exact ⟨nofun, nofun⟩

/-- How often the connection has been closed. -/
def closes (c : ℕ) (tr : List Event) : ℕ :=
  tr.countP fun
    | .close _ c' => c' = some c
    | _ => false

/-- A connection that has been accepted is open, or has been closed once. -/
structure Closed (tr : List Event) (k : Sockets) : Prop where
  isOpen : ∀ c, k.IsOpen c → closes c tr = 0
  notOpen : ∀ c < k.accepted, ¬ k.IsOpen c → closes c tr = 1
  new : ∀ c ≥ k.accepted, closes c tr = 0

theorem closes_append (c : ℕ) (tr tr' : List Event) :
    closes c (tr ++ tr') = closes c tr + closes c tr' := List.countP_append

/-- A call of `close` on the open connection `c`. -/
theorem Closed.close {k : Sockets} (h : Closed tr k) {d c : ℕ} (hc : k.conn d = some c) :
    Closed (tr ++ [.close d (some c)]) (k.close d) := by
  have hcount : ∀ c', closes c' (tr ++ [.close d (some c)]) =
      closes c' tr + if c = c' then 1 else 0 := by
    intro c'
    rw [closes_append]
    simp [closes, List.countP_cons]
  have hopen : k.IsOpen c := ⟨d, hc⟩
  refine ⟨fun c' hc' => ?_, fun c' hlt hc' => ?_, fun c' hge => ?_⟩
  · obtain ⟨hc', hne⟩ := (Sockets.isOpen_close hc).mp hc'
    rw [hcount, if_neg hne.symm, h.isOpen c' hc']
  · rw [Sockets.isOpen_close hc] at hc'
    rw [hcount]
    split
    · -- the connection that is closed now was open, so it has not been closed before
      rename_i heq
      subst heq
      rw [h.isOpen c hopen]
    · rename_i hne
      rw [h.notOpen c' hlt fun ho => hc' ⟨ho, Ne.symm hne⟩]
  · rw [Sockets.accepted_close] at hge
    have hlt := hopen.lt
    rw [hcount, if_neg (by omega), h.new c' hge]

/-- A new connection. -/
theorem Closed.accept {k : Sockets} (h : Closed tr k) {d : ℕ} (hd : k.conn d = none) :
    Closed (tr ++ [.accept (some d)]) (k.accept d) := by
  have hcount : ∀ c, closes c (tr ++ [.accept (some d)]) = closes c tr := by
    intro c
    rw [closes_append]
    simp [closes]
  refine ⟨fun c hc => ?_, fun c hlt hc => ?_, fun c hge => ?_⟩ <;> rw [hcount]
  · rcases (Sockets.isOpen_accept hd).mp hc with rfl | hc
    · exact h.new _ le_rfl
    · exact h.isOpen c hc
  · rw [Sockets.isOpen_accept hd, not_or] at hc
    rw [Sockets.accepted_accept] at hlt
    exact h.notOpen c (by omega) hc.2
  · rw [Sockets.accepted_accept] at hge
    exact h.new c (by omega)

/-- A call that opens and closes no connection. -/
theorem Closed.frame {k k' : Sockets} (h : Closed tr k) (he : ∀ c, closes c e.toList = 0)
    (hconn : k'.conn = k.conn) (haccepted : k'.accepted = k.accepted) :
    Closed (tr ++ e.toList) k' := by
  have hopen : ∀ c, k'.IsOpen c ↔ k.IsOpen c := by
    intro c
    simp only [Sockets.IsOpen, hconn]
  refine ⟨fun c hc => ?_, fun c hlt hc => ?_, fun c hge => ?_⟩ <;> rw [closes_append, he c]
  · exact h.isOpen c ((hopen c).mp hc)
  · exact h.notOpen c (haccepted ▸ hlt) (fun ho => hc ((hopen c).mpr ho))
  · exact h.new c (haccepted ▸ hge)

/-- Every step closes only open connections. -/
theorem step_closed (h : Closed tr st.sockets) (hinv : Inv s size st) (hlast : LastCall tr st)
    (hs : Step s size st e st') : Closed (tr ++ e.toList) st'.sockets := by
  cases hs with
  | accept hpc h3 hs hcs hsize => exact h.accept hcs
  | acceptTooLarge hpc hs hcs hsize => exact h.accept hcs
  | closeTooLarge hpc =>
    obtain ⟨c, hc⟩ := Option.isSome_iff_exists.mp (hlast.tooLarge _ hpc).1
    rw [hc]
    exact h.close hc
  | close hpc =>
    obtain ⟨c, hc, -⟩ := hinv.onReady (by rw [hpc]; rfl)
    rw [hc]
    exact h.close hc
  | select | selectFails | skip | toAccept | toRecv | endScan | acceptFails | recv | recvFails
  | send | sendFails => exact h.frame (by simp [closes]) rfl rfl

/-- What is to hold of a call after the calls `tr`: a client's descriptor is used only on a
    connection that the preceding `select` found ready on it, `send` gets what the call before it
    has received there, and a closed descriptor leaves `rfd`.  The second case of `close` is a
    connection that has just been accepted on a descriptor that does not fit in a `fd_set`. -/
def CallOk (size : ℕ) (tr : List Event) (st st' : State) : Event → Prop
  | .select _ | .accept _ => True
  | .recv d c _ => OnReady st.sockets d ∧ st.sockets.conn d = c
  | .send d c bytes _ => OnReady st.sockets d ∧ st.sockets.conn d = c ∧
      ∃ tr', tr = tr' ++ [.recv d c (some bytes)]
  | .close d c => d ∉ st'.rfd ∧ st'.sockets.conn d = none ∧ st.sockets.conn d = c ∧
      (OnReady st.sockets d ∨ c.isSome ∧ size ≤ d ∧ ∃ tr', tr = tr' ++ [.accept (some d)])

/-- Every call is as it should be. -/
theorem step_callOk {e : Event} (h : Inv s size st) (hlast : LastCall tr st)
    (hs : Step s size st (some e) st') : CallOk size tr st st' e := by
  have hinv' := step_inv h hs
  cases hs with
  | select | accept | acceptTooLarge | acceptFails => trivial
  | recv hpc | recvFails hpc => exact ⟨h.onReady (by rw [hpc]; rfl), rfl⟩
  | send hpc | sendFails hpc => exact ⟨h.onReady (by rw [hpc]; rfl), rfl, hlast.send hpc⟩
  | close hpc =>
    refine ⟨by simp [State.closed, State.continue], ?_, rfl, .inl (h.onReady (by rw [hpc]; rfl))⟩
    simp [State.closed, State.continue, Sockets.conn_close]
  | @closeTooLarge cs hpc =>
    obtain ⟨hopen, haccept⟩ := hlast.tooLarge cs hpc
    have hge := h.tooLarge cs hpc
    have hsize := h.dsize
    refine ⟨fun hmem => ?_, ?_, rfl, .inr ⟨hopen, hge, haccept⟩⟩
    · have hlt := (h.range cs hmem).2
      omega
    · simp [State.continue, Sockets.conn_close]

/-- What is to hold at the head of the `while` loop. -/
structure HeadOk (s size : ℕ) (st : State) : Prop where
  rfd : ∀ d, d ∈ st.rfd ↔ d = s ∨ (st.sockets.conn d).isSome
  range : ∀ d ∈ st.rfd, 3 ≤ d ∧ d < st.dsize
  dsize : st.dsize ≤ size
  size : size ≤ FD_SETSIZE

theorem dtsize_le (getdtablesize : ℕ) : dtsize getdtablesize ≤ FD_SETSIZE := by
  unfold dtsize
  split <;> omega

/-- The server's sets of descriptors, for a listening socket that fits in them: at the head of the
    loop the watched descriptors are `s` and those of the open connections, between 3 and `dsize`;
    every accepted connection is open, or has been closed once; and every call is as `CallOk`
    says. -/
theorem descriptors_correct (s getdtablesize : ℕ) (h3 : 3 ≤ s) (hs : s < dtsize getdtablesize)
    (tr : List Event) (st : State) (h : (machine s getdtablesize).Run (initial s) tr st) :
    (st.pc = .select → HeadOk s (dtsize getdtablesize) st) ∧
      (∀ c < st.sockets.accepted, (st.sockets.IsOpen c ∧ closes c tr = 0) ∨
        (¬ st.sockets.IsOpen c ∧ closes c tr = 1)) ∧
      ∀ a e st', (machine s getdtablesize).step st a = some (some e, st') →
        CallOk (dtsize getdtablesize) tr st st' e := by
  obtain ⟨hinv, hlast, hclosed⟩ : Inv s (dtsize getdtablesize) st ∧ LastCall tr st ∧
      Closed tr st.sockets := by
    refine h.trace_invariant (I := fun tr st => Inv s (dtsize getdtablesize) st ∧ LastCall tr st ∧
      Closed tr st.sockets) ?_ ?_
    · rintro tr st a e st' ⟨hinv, hlast, hclosed⟩ hs
      have hstep := step_cases hs
      exact ⟨step_inv hinv hstep, step_lastCall hstep, step_closed hclosed hinv hlast hstep⟩
    · exact ⟨initial_inv h3 hs, ⟨nofun, nofun⟩, ⟨fun _ _ => rfl, nofun, fun _ _ => rfl⟩⟩
  refine ⟨fun hpc => ⟨fun d => ?_, hinv.range, hinv.dsize.2, dtsize_le _⟩, fun c hc => ?_,
    fun a e st' hs => step_callOk hinv hlast (step_cases hs)⟩
  · rw [hinv.rfd d]
    simp [hpc]
  · by_cases hopen : st.sockets.IsOpen c
    · exact .inl ⟨hopen, hclosed.isOpen c hopen⟩
    · exact .inr ⟨hopen, hclosed.notOpen c hc hopen⟩

/-- One client, whose data are echoed, and who then closes the connection. -/
theorem descriptors_correct_echo : ∃ tr st, (machine 3 1024).Run (initial 3) tr st ∧
    HeadOk 3 (dtsize 1024) st ∧ closes 0 tr = 1 := by
  have hrun := Machine.Run.of_exec (M := machine 3 1024) (s := initial 3)
    [.select {3}, .next, .accept 4, .next, .next,
      .select {4}, .next, .next, .recv [104, 105], .send 2, .next,
      .select {4}, .next, .next, .recv [], .next, .next] rfl
  exact ⟨_, _, hrun, (descriptors_correct 3 1024 (by decide) (by decide) _ _ hrun).1 rfl,
    by decide⟩

/-- A new connection whose descriptor does not fit is closed in the scan, though it was not open
    at the `select`; and a listening socket that does not fit is watched nevertheless. -/
theorem not_descriptors_correct :
    (∃ tr st st', (machine 3 2048).Run (initial 3) tr st ∧
      (machine 3 2048).step st .next = some (some (.close 1024 (some 0)), st') ∧
      ¬ OnReady st.sockets 1024) ∧
    ∃ st, (machine 1024 2048).Reachable (initial 1024) st ∧ st.pc = .select ∧
      ¬ st.dsize ≤ dtsize 2048 := by
  constructor
  · have hrun := Machine.Run.of_exec (M := machine 3 2048) (s := initial 3)
      [.select {3}, .next, .accept 1024] rfl
    refine ⟨_, _, _, hrun, rfl, ?_⟩
    rintro ⟨c, -, hc⟩
    exact nomatch hc
  · exact ⟨_, .refl _, rfl, by decide⟩

end MultiClientEchoServer
