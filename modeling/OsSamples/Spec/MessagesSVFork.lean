import Mathlib.Tactic.Common
import OsSamples.Native.MessagesSVFork
import OsSamples.Spec.MessagesSV

/-!
# No process waits for ever, and no queue is left behind

Where there has been no queue with the key before: whichever calls fail, the queue is removed when
the processes have ended, by the parent, and no process is left waiting.  What the child prints is
what the parent has been given.

## Key results

- `Step`, `step_cases`: what a step of a process can do
- `Inv.step`: what every step keeps
- `isolated_run`: what holds in all runs, also if the queue cannot be removed
- `inevitable_removed`: every run comes to its end, and leaves no queue behind
- `inevitable_delivered`: without a failure the child gets the message
-/

namespace MessagesSVFork

open MessagesSV (Message MSG_MAX EXIT_SUCCESS EXIT_FAILURE Carries carries_read strncpy_msgText
  got_text)
open NumberText

variable {p : Program} {mem : Memory} {buffer : CString} {m : Message}

/-! ## The key and the message -/

/-- The text of the key fits into its array, and is read as the key. -/
theorem sprintf_eq (mq_key : Key) :
    ∃ key_str, sprintf mq_key = some key_str ∧ parseKey key_str = mq_key := by
  have hlength := length_printHex_le (n := mq_key.toNat) (k := 8) (by decide) mq_key.isLt
  refine ⟨'0' :: 'x' :: printHex mq_key.toNat, if_pos ?_, ?_⟩
  · rw [List.length_cons, List.length_cons]
    omega
  · rw [parseKey, strtol0_printHex, BitVec.ofNat_toNat, BitVec.setWidth_eq]

/-- The message begins with what is to be sent. -/
theorem message_eq (mem : Memory) (buffer : CString) : ∃ m, message mem buffer = some m ∧
    Carries m buffer ∧ m.mtext.length = buffer.bytes.length := by
  obtain ⟨t, ht, hbytes⟩ := strncpy_msgText mem.msg_text buffer
  have hcarries : Carries ⟨1, MessagesSV.SendEnv.read ⟨fun _ => true, mem.behind⟩ t
      buffer.bytes.length⟩ buffer := carries_read hbytes
  refine ⟨_, by rw [message, ht]; rfl, hcarries, ?_⟩
  have hsize := t.size
  show (t.bytes.take buffer.bytes.length ++ (List.range (buffer.bytes.length - MSG_MAX)).map
    mem.behind).length = buffer.bytes.length
  simp only [List.length_append, List.length_take, List.length_map, List.length_range, hsize]
  omega

/-- The receiver prints the message, as far as it fits into its arrays. -/
theorem received_eq (mem : Memory) (h : Carries m buffer) :
    received mem m = some (buffer.bytes.take MSG_MAX) := by
  have hnul : 0 ∉ buffer.bytes.take MSG_MAX := fun hmem =>
    buffer.noNul (List.mem_of_mem_take hmem)
  have hdata : m.mtext.take MSG_MAX = buffer.bytes.take MSG_MAX := h
  obtain ⟨t, ht, hbytes⟩ := mem.rcv_text.write_of_le 0 (buffer.bytes.take MSG_MAX) (by
    rw [List.length_take]
    omega)
  rw [List.take_zero, List.nil_append] at hbytes
  obtain ⟨b, hb⟩ := got_text (s := ⟨[], t, mem.buffer, 0, []⟩) hbytes hnul
  simp only [MessagesSV.Receiver.got, Option.bind_eq_bind, Option.bind_eq_some_iff] at hb
  obtain ⟨b₁, hb₁, b₂, hb₂, text, htext, heq⟩ := hb
  obtain rfl : text = buffer.bytes.take MSG_MAX := by
    have hprinted := congrArg MessagesSV.Receiver.printed (Option.some.inj heq)
    simpa using hprinted
  unfold received
  simp only [hdata, ht, Option.bind_eq_bind, Option.bind_some, hb₁, hb₂, htext]

/-! ## What a step can do -/

variable {queues queues₀ : Key → Option (List Message)} {child : Option Proc} {q : Proc} {who : Who}
  {fails : Bool} {r : Result} {s s' : State} {a : Act} {e : Option Event} {tr : List Event}
  {k : Key}

/-- The kinds of steps of a process. -/
inductive ProcStep (p : Program) (who : Who) (queues : Key → Option (List Message))
    (child : Option Proc) (q : Proc) : Bool → Result → Prop
  | msgget (hpc : q.pc = .msgget) : ProcStep p who queues child q false
      ⟨none, Function.update queues p.mq_key (some ((queues p.mq_key).getD [])),
        ⟨.fork, some p.mq_key⟩, none⟩
  | msggetFails (hpc : q.pc = .msgget) : ProcStep p who queues child q true
      (failure who "msgget failed" queues q)
  | fork (hpc : q.pc = .fork) : ProcStep p who queues child q false
      ⟨none, queues, { q with pc := .msgsnd }, some { q with pc := .sprintf }⟩
  | forkFails (hpc : q.pc = .fork) : ProcStep p who queues child q true
      (failure who "fork failed" queues q)
  | msgsnd {m : Message} {id : Key} {queue : Option (List Message)} (hpc : q.pc = .msgsnd)
      (hm : message p.mem p.buffer = some m) (hid : q.mq_id = some id)
      (hsnd : msgsnd m (queues id) = some (true, queue)) : ProcStep p who queues child q false
      ⟨none, Function.update queues id queue, { q with pc := .wait }, none⟩
  | msgsndFails {fails : Bool} (hpc : q.pc = .msgsnd)
      (hfails : fails = true ∨ q.mq_id = none ∨ ∃ m id queue, message p.mem p.buffer = some m ∧
        q.mq_id = some id ∧ msgsnd m (queues id) = some (false, queue)) :
      ProcStep p who queues child q fails (failure who "msgsnd failed" queues q)
  | wait {fails : Bool} {c : Proc} {status : ℤ} (hpc : q.pc = .wait) (hchild : child = some c)
      (hended : c.pc = .ended status) : ProcStep p who queues child q fails
      ⟨none, queues, { q with pc := .atexit EXIT_SUCCESS }, none⟩
  | sprintf {fails : Bool} {key_str : List Char} (hpc : q.pc = .sprintf)
      (hkey : sprintf p.mq_key = some key_str) : ProcStep p who queues child q fails
      ⟨none, queues, { q with pc := .execl key_str }, none⟩
  | execl {key_str : List Char} (hpc : q.pc = .execl key_str) : ProcStep p who queues child q false
      ⟨none, queues, { q with pc := .openQueue key_str }, none⟩
  | execlFails {key_str : List Char} (hpc : q.pc = .execl key_str) :
      ProcStep p who queues child q true
      ⟨some (.perror who "execl failed"), queues, ⟨.atexit EXIT_FAILURE, none⟩, none⟩
  | atexit {fails : Bool} {status : ℤ} (hpc : q.pc = .atexit status) (hid : q.mq_id = none) :
      ProcStep p who queues child q fails ⟨none, queues, { q with pc := .ended status }, none⟩
  | removing {fails : Bool} {status : ℤ} {id : Key} (hpc : q.pc = .atexit status)
      (hid : q.mq_id = some id) : ProcStep p who queues child q fails
      ⟨some (.removing who), queues, { q with pc := .msgctl status id }, none⟩
  | msgctl {status : ℤ} {id : Key} (hpc : q.pc = .msgctl status id) :
      ProcStep p who queues child q false
      ⟨none, Function.update queues id none, ⟨.ended status, none⟩, none⟩
  | msgctlFails {fails : Bool} {status : ℤ} {id : Key} (hpc : q.pc = .msgctl status id)
      (hfails : fails = true ∨ queues id = none) : ProcStep p who queues child q fails
      ⟨some (.perror who "msgctl(IPC_RMID) failed"), queues, { q with pc := .ended status }, none⟩
  | openQueue {argument : List Char} (hpc : q.pc = .openQueue argument) :
      ProcStep p who queues child q false
      ⟨none, queues, { q with pc := .msgrcv (parseKey argument) }, none⟩
  | openFails {fails : Bool} {argument : List Char} (hpc : q.pc = .openQueue argument)
      (hfails : fails = true ∨ queues (parseKey argument) = none) :
      ProcStep p who queues child q fails
      ⟨some (.perror who "msgget failed"), queues, { q with pc := .ended EXIT_FAILURE }, none⟩
  | msgrcv {id : Key} {m : Message} {ms : List Message} {text : List UInt8}
      (hpc : q.pc = .msgrcv id) (hqueue : queues id = some (m :: ms))
      (htext : received p.mem m = some text) : ProcStep p who queues child q false
      ⟨some (.got text), Function.update queues id (some ms),
        { q with pc := .ended EXIT_SUCCESS }, none⟩
  | msgrcvFails {fails : Bool} {id : Key} (hpc : q.pc = .msgrcv id)
      (hfails : fails = true ∨ queues id = none) : ProcStep p who queues child q fails
      ⟨some (.perror who "msgrcv failed"), queues, { q with pc := .ended EXIT_FAILURE }, none⟩

/-- Every step of a process is of one of the kinds. -/
theorem procStep_cases (hs : procStep p who fails queues child q = some r) :
    ProcStep p who queues child q fails r := by
  cases hpc : q.pc <;> simp only [procStep, hpc] at hs
  -- the call fails, or the queue with the key is taken or created
  case msgget =>
    split at hs <;> obtain rfl := Option.some.inj hs
    · obtain rfl : fails = true := ‹_›
      exact .msggetFails hpc
    · obtain rfl : fails = false := Bool.eq_false_of_not_eq_true ‹_›
      exact .msgget hpc
  case fork =>
    split at hs <;> obtain rfl := Option.some.inj hs
    · obtain rfl : fails = true := ‹_›
      exact .forkFails hpc
    · obtain rfl : fails = false := Bool.eq_false_of_not_eq_true ‹_›
      exact .fork hpc
  -- `msgsnd` also fails when the queue is gone or takes no message of this length
  case msgsnd =>
    simp only [Option.bind_eq_bind, Option.bind_eq_some_iff] at hs
    obtain ⟨m, hm, hs⟩ := hs
    split at hs
    · obtain rfl := Option.some.inj hs
      exact .msgsndFails hpc (.inr (.inl ‹_›))
    · rename_i id hid
      simp only [Option.bind_eq_some_iff] at hs
      -- a full queue gives no step
      obtain ⟨⟨ok, queue⟩, hsnd, hs⟩ := hs
      split at hs <;> obtain rfl := Option.some.inj hs
      · rename_i hfails
        refine .msgsndFails hpc (hfails.imp_right fun hok => .inr ?_)
        obtain rfl : ok = false := hok
        exact ⟨m, id, queue, hm, hid, hsnd⟩
      · rename_i hfails
        simp only [not_or, Bool.not_eq_true, Bool.not_eq_false] at hfails
        obtain ⟨rfl, hok⟩ := hfails
        obtain rfl : ok = true := hok
        exact .msgsnd hpc hm hid hsnd
  -- `wait` returns when the child has ended
  case wait =>
    split at hs
    · obtain rfl := Option.some.inj hs
      exact .wait hpc rfl rfl
    · cases hs
  case sprintf =>
    obtain ⟨key_str, hkey, rfl⟩ := Option.map_eq_some_iff.mp hs
    exact .sprintf hpc hkey
  case execl key_str =>
    split at hs <;> obtain rfl := Option.some.inj hs
    · obtain rfl : fails = true := ‹_›
      exact .execlFails hpc
    · obtain rfl : fails = false := Bool.eq_false_of_not_eq_true ‹_›
      exact .execl hpc
  -- only a process with a `mq_id` removes the queue when it exits
  case atexit status =>
    split at hs <;> obtain rfl := Option.some.inj hs
    · exact .atexit hpc ‹_›
    · exact .removing hpc ‹_›
  case msgctl status id =>
    split at hs <;> obtain rfl := Option.some.inj hs
    · exact .msgctlFails hpc ‹_›
    · rename_i hfails
      obtain rfl : fails = false := Bool.eq_false_of_not_eq_true (not_or.mp hfails).1
      exact .msgctl hpc
  case openQueue argument =>
    split at hs <;> obtain rfl := Option.some.inj hs
    · exact .openFails hpc ‹_›
    · rename_i hfails
      obtain rfl : fails = false := Bool.eq_false_of_not_eq_true (not_or.mp hfails).1
      exact .openQueue hpc
  -- an empty queue gives no step, a missing one an error
  case msgrcv id =>
    split at hs
    · obtain rfl := Option.some.inj hs
      exact .msgrcvFails hpc (.inr ‹_›)
    · cases hs
    · split at hs
      · obtain rfl := Option.some.inj hs
        exact .msgrcvFails hpc (.inl ‹_›)
      · obtain rfl : fails = false := Bool.eq_false_of_not_eq_true ‹_›
        obtain ⟨text, htext, rfl⟩ := Option.map_eq_some_iff.mp hs
        exact .msgrcv hpc ‹_› htext
  case ended => cases hs

/-- A step of the program is one of the parent, or of the child. -/
theorem step_cases (hs : (machine p).step s a = some (e, s')) :
    (a.who = .parent ∧ ∃ r, ProcStep p .parent s.queues s.child s.parent a.fails r ∧
      e = r.event ∧ s' = ⟨r.queues, r.proc, r.forked.or s.child⟩) ∨
    (a.who = .child ∧ ∃ q r, s.child = some q ∧ ProcStep p .child s.queues none q a.fails r ∧
      e = r.event ∧ s' = ⟨r.queues, s.parent, some r.proc⟩) := by
  cases hwho : a.who <;> simp only [machine, hwho] at hs
  case parent =>
    simp only [Option.map_eq_some_iff, Prod.mk.injEq] at hs
    obtain ⟨r, hr, rfl, rfl⟩ := hs
    exact .inl ⟨rfl, r, procStep_cases hr, rfl, rfl⟩
  case child =>
    simp only [Option.bind_eq_bind, Option.bind_eq_some_iff] at hs
    obtain ⟨q, hq, r, hr, hs⟩ := hs
    simp only [Option.pure_def, Option.some.injEq, Prod.mk.injEq] at hs
    obtain ⟨rfl, rfl⟩ := hs
    exact .inr ⟨rfl, q, r, hq, procStep_cases hr, rfl, rfl⟩

/-! ## What holds in all runs -/

/-- Whether the child has still to receive the message. -/
def Pc.Pending : Pc → Prop
  | .sprintf | .execl _ | .openQueue _ | .msgrcv _ => True
  | _ => False

/-- What holds of the child: it gets the key of the queue, and does not remove the queue. -/
def ChildOk (p : Program) (c : Proc) : Prop :=
  match c.pc with
  | .sprintf | .ended _ => True
  | .execl key_str | .openQueue key_str => parseKey key_str = p.mq_key
  | .msgrcv id => id = p.mq_key
  | .atexit _ => c.mq_id = none
  | _ => False

/-- What holds of the parent, the queue and the child.  The queue stays until the parent removes it;
    while the parent waits, there is a message for a child that has none yet. -/
def ParentOk (p : Program) (kept : Prop) (queue : Option (List Message)) (child : Option Proc)
    (q : Proc) : Prop :=
  match q.pc with
  | .msgget => q.mq_id = none ∧ queue = none ∧ child = none
  | .fork => q.mq_id = some p.mq_key ∧ queue = some [] ∧ child = none
  | .msgsnd => q.mq_id = some p.mq_key ∧ queue = some [] ∧ child.isSome
  | .wait => q.mq_id = some p.mq_key ∧ ∃ ms c, queue = some ms ∧ child = some c ∧
      (c.pc.Pending → ms ≠ [])
  | .atexit _ => (q.mq_id = none ∧ queue = none) ∨ (q.mq_id = some p.mq_key ∧ queue.isSome)
  | .msgctl _ id => id = p.mq_key ∧ queue.isSome
  | .ended _ => kept → queue = none
  | _ => False

/-- What holds in all runs from a state without the queue; `kept` says that each call of `msgctl`
    succeeds. -/
structure Inv (p : Program) (kept : Prop) (queues₀ : Key → Option (List Message)) (s : State) :
    Prop where
  others : ∀ k ≠ p.mq_key, s.queues k = queues₀ k
  content : ∀ ms, s.queues p.mq_key = some ms → ∀ m ∈ ms, Carries m p.buffer
  parent : ParentOk p kept (s.queues p.mq_key) s.child s.parent
  child : ∀ c, s.child = some c → ChildOk p c

/-- The removal of the queue does not fail. -/
def Removes (s : State) (a : Act) : Prop :=
  a = ⟨.parent, true⟩ → ∀ status id, s.parent.pc ≠ .msgctl status id

variable {kept : Prop}

theorem initial_inv (h : queues₀ p.mq_key = none) : Inv p kept queues₀ (initial queues₀) where
  others _ _ := rfl
  content ms hms := by
    rw [show (initial queues₀).queues p.mq_key = none from h] at hms
    cases hms
  parent := ⟨rfl, h, rfl⟩
  child _ hc := by cases hc

/-- A step of the child, seen by the parent. -/
theorem ParentOk.child_step {queue queue' : Option (List Message)} {c c' : Proc}
    (h : ParentOk p kept queue (some c) q)
    (hstep : (queue' = queue ∧ (c'.pc.Pending → c.pc.Pending)) ∨
      (∃ m ms, queue = some (m :: ms) ∧ queue' = some ms ∧ ¬ c'.pc.Pending)) :
    ParentOk p kept queue' (some c') q := by
  unfold ParentOk at h ⊢
  obtain ⟨rfl, hpending⟩ | ⟨m, ms, rfl, rfl, hpending⟩ := hstep
  · cases hpc : q.pc <;> simp only [hpc] at h ⊢
    case msgget => cases h.2.2
    case fork => cases h.2.2
    case wait =>
      obtain ⟨hid, ms, c₀, hqueue, hc, hms⟩ := h
      obtain rfl := Option.some.inj hc
      exact ⟨hid, ms, c', hqueue, rfl, fun hp => hms (hpending hp)⟩
    all_goals exact h
  · cases hpc : q.pc <;> simp only [hpc] at h ⊢
    case msgget => cases h.2.2
    case fork => cases h.2.2
    case msgsnd => simp at h
    case wait => exact ⟨h.1, ms, c', rfl, rfl, fun hp => absurd hp hpending⟩
    case atexit => simpa using h
    case msgctl => exact ⟨h.1, rfl⟩
    case ended => exact fun hk => by cases h hk

/-- A step of the child. -/
theorem Inv.child_step (h : Inv p kept queues₀ s) (hq : s.child = some q)
    (hs : ProcStep p .child s.queues none q fails r) :
    Inv p kept queues₀ ⟨r.queues, s.parent, some r.proc⟩ := by
  have hok := h.child q hq
  have hparent := h.parent
  rw [hq] at hparent
  unfold ChildOk at hok
  cases hs with
  -- these calls belong to the parent
  | msgget hpc | msggetFails hpc | fork hpc | forkFails hpc | msgsnd hpc | msgsndFails hpc
  | wait hpc | msgctl hpc | msgctlFails hpc => simp [hpc] at hok
  -- the child gets the key as a text, which `execl` hands over
  | sprintf hpc hkey =>
    obtain ⟨key_str, hkey', hparse⟩ := sprintf_eq p.mq_key
    obtain rfl := Option.some.inj (hkey.symm.trans hkey')
    refine ⟨h.others, h.content, hparent.child_step (.inl ⟨rfl, fun _ => ?_⟩), ?_⟩
    · rw [hpc]
      trivial
    · rintro c ⟨rfl⟩
      exact hparse
  | execl hpc =>
    rw [hpc] at hok
    refine ⟨h.others, h.content, hparent.child_step (.inl ⟨rfl, fun _ => ?_⟩), ?_⟩
    · rw [hpc]
      trivial
    · rintro c ⟨rfl⟩
      exact hok
  -- the child resets `mq_id` before it exits
  | execlFails hpc =>
    refine ⟨h.others, h.content, hparent.child_step (.inl ⟨rfl, fun hp => hp.elim⟩), ?_⟩
    rintro c ⟨rfl⟩
    rfl
  | atexit hpc =>
    refine ⟨h.others, h.content, hparent.child_step (.inl ⟨rfl, fun hp => hp.elim⟩), ?_⟩
    rintro c ⟨rfl⟩
    trivial
  -- so that it has nothing to remove
  | removing hpc hid =>
    rw [hpc] at hok
    rw [hok] at hid
    cases hid
  | openQueue hpc =>
    rw [hpc] at hok
    refine ⟨h.others, h.content, hparent.child_step (.inl ⟨rfl, fun _ => ?_⟩), ?_⟩
    · rw [hpc]
      trivial
    · rintro c ⟨rfl⟩
      exact hok
  | openFails | msgrcvFails =>
    refine ⟨h.others, h.content, hparent.child_step (.inl ⟨rfl, fun hp => hp.elim⟩), ?_⟩
    rintro c ⟨rfl⟩
    trivial
  | @msgrcv id m ms text hpc hqueue htext =>
    rw [hpc] at hok
    obtain rfl : id = p.mq_key := hok
    -- the message is taken from the queue of the program, the others stay
    refine ⟨fun k hk => ?_, ?_, ?_, ?_⟩
    · show Function.update s.queues p.mq_key (some ms) k = queues₀ k
      rw [Function.update_of_ne hk]
      exact h.others k hk
    · intro ms' hms' m' hm'
      simp only [Function.update_self, Option.some.injEq] at hms'
      subst hms'
      exact h.content _ hqueue m' (List.mem_cons_of_mem m hm')
    · refine hparent.child_step (.inr ⟨m, ms, hqueue, ?_, fun hp => hp⟩)
      exact Function.update_self ..
    · rintro c ⟨rfl⟩
      trivial

/-- `msgsnd` to the new queue. -/
theorem msgsnd_nil {ok : Bool} {queue : Option (List Message)}
    (h : msgsnd m (some []) = some (ok, queue)) :
    (ok = true → queue = some [m]) ∧ (ok = false → MSGMAX < m.mtext.length) := by
  simp only [msgsnd, List.nil_append] at h
  split at h
  · simp only [Option.some.injEq, Prod.mk.injEq] at h
    obtain ⟨rfl, rfl⟩ := h
    exact ⟨fun h => (by cases h), fun _ => ‹_›⟩
  · simp only [Option.ite_none_right_eq_some, Option.some.injEq, Prod.mk.injEq] at h
    obtain ⟨-, rfl, rfl⟩ := h
    exact ⟨fun _ => rfl, fun h => by cases h⟩

/-- `msgsnd` to the new queue does not block. -/
theorem exists_msgsnd_nil (m : Message) : ∃ ok queue, msgsnd m (some []) = some (ok, queue) := by
  unfold msgsnd
  by_cases hmax : MSGMAX < m.mtext.length
  · exact ⟨_, _, if_pos hmax⟩
  · refine ⟨_, _, (if_neg hmax).trans (if_pos ?_)⟩
    unfold MSGMAX at hmax
    unfold MSGMNB
    rw [size, List.map_nil, List.sum_nil]
    omega

/-- A step of the parent. -/
theorem Inv.parent_step (h : Inv p kept queues₀ s)
    (hkept : kept → fails = true → ∀ status id, s.parent.pc ≠ .msgctl status id)
    (hs : ProcStep p .parent s.queues s.child s.parent fails r) :
    Inv p kept queues₀ ⟨r.queues, r.proc, r.forked.or s.child⟩ := by
  have hparent := h.parent
  have hothers : ∀ queue, ∀ k ≠ p.mq_key, Function.update s.queues p.mq_key queue k = queues₀ k :=
    fun queue k hk => (Function.update_of_ne hk ..).trans (h.others k hk)
  unfold ParentOk at hparent
  cases hs with
  -- these calls belong to the child
  | sprintf hpc | execl hpc | execlFails hpc | openQueue hpc | openFails hpc | msgrcv hpc
  | msgrcvFails hpc => simp [hpc] at hparent
  -- there was no queue with the key, so the new one is empty
  | msgget hpc =>
    rw [hpc] at hparent
    obtain ⟨hid, hqueue, hchild⟩ := hparent
    rw [hqueue, Option.getD_none]
    refine ⟨hothers _, ?_, ?_, h.child⟩
    · intro ms hms
      simp only [Function.update_self, Option.some.injEq] at hms
      subst hms
      simp
    · exact ⟨rfl, Function.update_self .., hchild⟩
  | msggetFails hpc =>
    rw [hpc] at hparent
    exact ⟨h.others, h.content, .inl ⟨hparent.1, hparent.2.1⟩, h.child⟩
  -- from here on there is a child
  | fork hpc =>
    rw [hpc] at hparent
    refine ⟨h.others, h.content, ⟨hparent.1, hparent.2.1, rfl⟩, ?_⟩
    rintro c ⟨rfl⟩
    trivial
  | forkFails hpc =>
    rw [hpc] at hparent
    exact ⟨h.others, h.content, .inr ⟨hparent.1, by simp [hparent.2.1, failure]⟩, h.child⟩
  -- the queue is still empty, since only the parent sends, and once
  | @msgsnd m id queue hpc hm hid hsnd =>
    rw [hpc] at hparent
    obtain ⟨hid', hqueue, hchild⟩ := hparent
    obtain rfl : p.mq_key = id := Option.some.inj (hid'.symm.trans hid)
    obtain ⟨m', hm', hcarries, -⟩ := message_eq p.mem p.buffer
    obtain rfl := Option.some.inj (hm.symm.trans hm')
    rw [hqueue] at hsnd
    obtain rfl := (msgsnd_nil hsnd).1 rfl
    obtain ⟨c, hc⟩ := Option.isSome_iff_exists.mp hchild
    refine ⟨hothers _, ?_, ?_, h.child⟩
    · intro ms hms
      simp only [Function.update_self, Option.some.injEq] at hms
      subst hms
      simpa using hcarries
    · exact ⟨hid', [m], c, Function.update_self .., hc, fun _ => List.cons_ne_nil m []⟩
  | msgsndFails hpc =>
    rw [hpc] at hparent
    exact ⟨h.others, h.content, .inr ⟨hparent.1, by simp [hparent.2.1, failure]⟩, h.child⟩
  | wait hpc =>
    rw [hpc] at hparent
    obtain ⟨hid, ms, c, hqueue, -⟩ := hparent
    exact ⟨h.others, h.content, .inr ⟨hid, by simp [hqueue]⟩, h.child⟩
  -- without a `mq_id` there is nothing to remove
  | atexit hpc hid =>
    rw [hpc] at hparent
    obtain ⟨-, hqueue⟩ | ⟨hid', -⟩ := hparent
    · exact ⟨h.others, h.content, fun _ => hqueue, h.child⟩
    · rw [hid] at hid'
      cases hid'
  | removing hpc hid =>
    rw [hpc] at hparent
    obtain ⟨hid', -⟩ | ⟨hid', hqueue⟩ := hparent
    · rw [hid] at hid'
      cases hid'
    · exact ⟨h.others, h.content, ⟨Option.some.inj (hid.symm.trans hid'), hqueue⟩, h.child⟩
  -- the queue with the key is gone, as it was before the run
  | msgctl hpc =>
    rw [hpc] at hparent
    obtain ⟨rfl, -⟩ := hparent
    refine ⟨hothers _, ?_, ?_, h.child⟩
    · intro ms hms
      simp only [Function.update_self, reduceCtorEq] at hms
    · exact fun _ => Function.update_self ..
  -- where removals do not fail, this one has found no queue
  | msgctlFails hpc hfails =>
    refine ⟨h.others, h.content, fun hk => ?_, h.child⟩
    rw [hpc] at hparent
    obtain ⟨rfl, hqueue⟩ := hparent
    rcases hfails with hfails | hnone
    · exact absurd hpc (hkept hk hfails _ _)
    · exact hnone

/-- What every step keeps. -/
theorem Inv.step (h : Inv p kept queues₀ s) (hkept : kept → Removes s a)
    (hs : (machine p).step s a = some (e, s')) : Inv p kept queues₀ s' := by
  obtain ⟨hwho, r, hr, -, rfl⟩ | ⟨-, q, r, hq, hr, -, rfl⟩ := step_cases hs
  · refine h.parent_step (fun hk hfails => hkept hk ?_) hr
    obtain ⟨who, fails⟩ := a
    obtain rfl := hwho
    obtain rfl := hfails
    rfl
  · exact h.child_step hq hr

/-- What a step prints. -/
theorem ProcStep.event_cases (hs : ProcStep p who queues child q fails r) {x : Event}
    (hx : x ∈ r.event.toList) : (∃ what, x = .perror who what) ∨
      (x = .removing who ∧ ∃ status id, q.pc = .atexit status ∧ q.mq_id = some id) ∨
      ∃ id m ms text, x = .got text ∧ q.pc = .msgrcv id ∧ queues id = some (m :: ms) ∧
        received p.mem m = some text := by
  cases hs with
  | msggetFails | forkFails | msgsndFails | execlFails | msgctlFails | openFails | msgrcvFails =>
    exact .inl ⟨_, by simpa [failure] using hx⟩
  | removing hpc hid => exact .inr (.inl ⟨by simpa using hx, _, _, hpc, hid⟩)
  | msgrcv hpc hqueue htext =>
    exact .inr (.inr ⟨_, _, _, _, by simpa using hx, hpc, hqueue, htext⟩)
  | _ => simp at hx

/-- The message has been printed by a child that is about to exit successfully, or has done so. -/
def Printed (p : Program) (tr : List Event) (s : State) : Prop :=
  ∀ c, s.child = some c → (c.pc = .ended EXIT_SUCCESS ∨ c.pc = .atexit EXIT_SUCCESS) →
    .got (p.buffer.bytes.take MSG_MAX) ∈ tr

theorem Printed.step (h : Printed p tr s) (hI : Inv p kept queues₀ s)
    (hs : (machine p).step s a = some (e, s')) : Printed p (tr ++ e.toList) s' := by
  intro c hc hpc
  rw [List.mem_append]
  -- a step of the parent can only create the child, which has not ended
  obtain ⟨-, r, hr, rfl, rfl⟩ | ⟨-, q, r, hq, hr, rfl, rfl⟩ := step_cases hs
  · cases hforked : r.forked with
    | none => exact .inl (h c (by simpa [hforked] using hc) hpc)
    | some c' =>
      obtain rfl : c' = c := by simpa [hforked] using hc
      generalize a.fails = fails at hr
      cases hr <;> cases hforked
      simp at hpc
  -- a step of the child: it exits successfully only after it has printed
  · obtain rfl : r.proc = c := Option.some.inj hc
    have hok := hI.child q hq
    unfold ChildOk at hok
    generalize a.fails = fails at hr
    cases hr with
    | atexit hpc' => exact .inl (h q hq (.inr (by simpa [hpc'] using hpc)))
    | msgrcv hpc' hqueue htext =>
      rw [hpc'] at hok
      rw [show _ = p.mq_key from hok] at hqueue
      rw [received_eq p.mem (hI.content _ hqueue _ List.mem_cons_self)] at htext
      exact .inr (by simpa using htext)
    | msgget hpc' | msggetFails hpc' | fork hpc' | forkFails hpc' | msgsnd hpc' | msgsndFails hpc'
    | wait hpc' | msgctl hpc' | msgctlFails hpc' => simp [hpc'] at hok
    | execlFails | openFails | msgrcvFails => simp [EXIT_SUCCESS, EXIT_FAILURE] at hpc
    | _ => simp at hpc

/-- Where there has been no queue with the key before, and whichever calls fail: no other queue is
    changed, only the parent removes the queue, and what the receiver prints is what the sender has
    been given, cut to `MSG_MAX` bytes, which it has printed if it exits successfully. -/
theorem isolated_run (h : queues₀ p.mq_key = none)
    (hrun : (machine p).Run (initial queues₀) tr s) :
    (∀ k ≠ p.mq_key, s.queues k = queues₀ k) ∧ .removing .child ∉ tr ∧
      (∀ text, .got text ∈ tr → text = p.buffer.bytes.take MSG_MAX) ∧
      ∀ c, s.child = some c → c.pc = .ended EXIT_SUCCESS →
        .got (p.buffer.bytes.take MSG_MAX) ∈ tr := by
  have hstep : ∀ s a e s', Inv p False queues₀ s → (machine p).step s a = some (e, s') →
      Inv p False queues₀ s' := fun _ _ _ _ hI hs => hI.step False.elim hs
  -- every event: only the parent removes, and only what was sent is printed
  have hall : ∀ x ∈ tr, x ≠ .removing .child ∧
      ∀ text, x = .got text → text = p.buffer.bytes.take MSG_MAX := by
    refine hrun.forall_events (I := Inv p False queues₀) ?_ (initial_inv h)
    intro s a e s' hI hs
    refine ⟨hstep s a e s' hI hs, fun x hx => ?_⟩
    obtain ⟨-, r, hr, rfl, -⟩ | ⟨-, q, r, hq, hr, rfl, -⟩ := step_cases hs
    · obtain ⟨what, rfl⟩ | ⟨rfl, -⟩ | ⟨id, m, ms, text, -, hpc, -⟩ := hr.event_cases hx
      · simp
      · simp
      · have hparent := hI.parent
        simp [ParentOk, hpc] at hparent
    · have hok := hI.child q hq
      unfold ChildOk at hok
      obtain ⟨what, rfl⟩ | ⟨-, status, id, hpc, hid⟩ | ⟨id, m, ms, text, rfl, hpc, hqueue, htext⟩ :=
        hr.event_cases hx
      · simp
      · rw [hpc] at hok
        rw [hok] at hid
        cases hid
      -- the message in the queue is that of the parent
      · rw [hpc] at hok
        obtain rfl : id = p.mq_key := hok
        rw [received_eq p.mem (hI.content _ hqueue m List.mem_cons_self)] at htext
        obtain rfl := Option.some.inj htext
        simp
  -- at the end: what has been printed is still in the trace
  have hprinted : Inv p False queues₀ s ∧ Printed p tr s := by
    refine hrun.trace_invariant (I := fun tr s => Inv p False queues₀ s ∧ Printed p tr s) ?_
      ⟨initial_inv h, fun c hc => by cases hc⟩
    rintro tr s a e s' ⟨hI, hP⟩ hs
    exact ⟨hstep s a e s' hI hs, hP.step hI hs⟩
  exact ⟨hprinted.1.others, fun hmem => (hall _ hmem).1 rfl,
    fun text hmem => (hall _ hmem).2 text rfl, fun c hc hpc => hprinted.2 c hc (.inl hpc)⟩

/-- No argument, and memory with zeros in it. -/
def newsProgram : Program where
  mq_key := 21
  args := []
  mem := ⟨⟨List.replicate MSG_MAX 0, by decide⟩, fun _ => 0, ⟨List.replicate MSG_MAX 0, by decide⟩,
    ⟨List.replicate (MSG_MAX + 1) 0, by decide⟩⟩

/-- Another program has a queue with the key 22. -/
def otherQueue : Key → Option (List Message) := fun k => if k = 22 then some [] else none

/-- A run in which the child prints the default message, while another queue is there. -/
theorem isolated_run_news : ∃ tr s, (machine newsProgram).Run (initial otherQueue) tr s ∧
    .got (newsProgram.buffer.bytes.take MSG_MAX) ∈ tr ∧ s.queues 22 = some [] := by
  obtain ⟨tr, s, hrun, hchild⟩ : ∃ tr s, (machine newsProgram).Run (initial otherQueue) tr s ∧
      ∃ c, s.child = some c ∧ c.pc = .ended EXIT_SUCCESS :=
    ⟨_, _, .of_exec (M := machine newsProgram) (List.replicate 3 ⟨.parent, false⟩ ++
      List.replicate 4 ⟨.child, false⟩ ++ List.replicate 3 ⟨.parent, false⟩) rfl, _, rfl, rfl⟩
  obtain ⟨c, hc, hpc⟩ := hchild
  obtain ⟨hothers, -, -, hgot⟩ := isolated_run rfl hrun
  exact ⟨tr, s, hrun, hgot c hc hpc, hothers 22 (by decide)⟩

/-! ## The end -/

/-- The number of steps that a process has still to take, at most. -/
def Pc.rest : Pc → ℕ
  | .msgget => 7
  | .fork => 6
  | .msgsnd => 5
  | .wait => 4
  | .sprintf => 5
  | .execl _ => 4
  | .openQueue _ => 2
  | .msgrcv _ => 1
  | .atexit _ => 2
  | .msgctl .. => 1
  | .ended _ => 0

/-- The number of steps to the end, at most; the largest for a child that is not there yet. -/
def rest (s : State) : ℕ := s.parent.pc.rest + (s.child.map fun c => c.pc.rest).getD 6

/-- A step of a process is one step less; a child is created by `fork` only. -/
theorem ProcStep.rest_lt (hs : ProcStep p who queues child q fails r) :
    r.proc.pc.rest < q.pc.rest ∧ ∀ c, r.forked = some c → q.pc = .fork ∧ c.pc.rest < 6 := by
  cases hs with
  | fork hpc =>
    rw [hpc]
    refine ⟨by simp [Pc.rest], ?_⟩
    rintro c ⟨rfl⟩
    exact ⟨rfl, by simp [Pc.rest]⟩
  | msgget hpc | msggetFails hpc | forkFails hpc | msgsnd hpc | msgsndFails hpc | wait hpc
  | sprintf hpc | execl hpc | execlFails hpc | atexit hpc | removing hpc | msgctl hpc
  | msgctlFails hpc | openQueue hpc | openFails hpc | msgrcv hpc | msgrcvFails hpc =>
    rw [hpc]
    exact ⟨by simp [Pc.rest, failure], fun c hc => by cases hc⟩

/-- Every step is one step less to the end. -/
theorem rest_step (h : Inv p kept queues₀ s) (hs : (machine p).step s a = some (e, s')) :
    rest s' < rest s := by
  obtain ⟨-, r, hr, -, rfl⟩ | ⟨-, q, r, hq, hr, -, rfl⟩ := step_cases hs
  · obtain ⟨hlt, hforked⟩ := hr.rest_lt
    cases hchild : r.forked with
    | none => simpa only [rest, hchild, Option.none_or] using Nat.add_lt_add_right hlt _
    | some c =>
      obtain ⟨hpc, hc⟩ := hforked c hchild
      have hparent := h.parent
      unfold ParentOk at hparent
      rw [hpc] at hparent
      simp only [rest, hparent.2.2, Option.some_or, Option.map_some, Option.getD_some,
        Option.map_none, Option.getD_none]
      omega
  · have hlt := hr.rest_lt.1
    simp only [rest, hq, Option.map_some, Option.getD_some]
    omega

/-- Both processes have ended, or the child has never been created. -/
def State.Ended (s : State) : Prop :=
  (∃ status, s.parent.pc = .ended status) ∧
    ∀ c, s.child = some c → ∃ status, c.pc = .ended status

/-- A child that has not ended can go on, unless it waits for a message in an empty queue. -/
theorem Inv.child_goes_on (h : Inv p kept queues₀ s) (hq : s.child = some q)
    (hended : ∀ status, q.pc ≠ .ended status)
    (hqueue : q.pc.Pending → s.queues p.mq_key ≠ some []) :
    (procStep p .child false s.queues none q).isSome := by
  have hok := h.child q hq
  unfold ChildOk at hok
  cases hpc : q.pc <;> simp only [hpc] at hok
  case sprintf =>
    obtain ⟨key_str, hkey, -⟩ := sprintf_eq p.mq_key
    simp [procStep, hpc, hkey]
  case execl => simp [procStep, hpc]
  case atexit => simp [procStep, hpc, hok]
  case openQueue argument =>
    simp only [procStep, hpc]
    split <;> rfl
  -- the queue is there with the message, or it is gone and `msgrcv` fails
  case msgrcv id =>
    subst hok
    rw [hpc] at hqueue
    simp only [procStep, hpc]
    cases hms : s.queues p.mq_key with
    | none => rfl
    | some ms =>
      cases ms with
      | nil => exact absurd hms (hqueue trivial)
      | cons m ms =>
        simp [received_eq p.mem (h.content _ hms m List.mem_cons_self)]
  case ended status => exact absurd hpc (hended status)

/-- The parent can go on, unless it waits for the child or has ended. -/
theorem Inv.parent_goes_on (h : Inv p kept queues₀ s) (hwait : s.parent.pc ≠ .wait)
    (hended : ∀ status, s.parent.pc ≠ .ended status) :
    (procStep p .parent false s.queues s.child s.parent).isSome := by
  have hparent := h.parent
  unfold ParentOk at hparent
  cases hpc : s.parent.pc <;> simp only [hpc] at hparent
  case msgget => simp [procStep, hpc]
  case fork => simp [procStep, hpc]
  case msgsnd =>
    obtain ⟨m, hm, -, -⟩ := message_eq p.mem p.buffer
    obtain ⟨hid, hqueue, -⟩ := hparent
    obtain ⟨ok, queue, hsnd⟩ := exists_msgsnd_nil m
    simp only [procStep, hpc, hm, hid, hqueue, hsnd, Option.bind_eq_bind, Option.bind_some]
    split <;> rfl
  case wait => exact absurd hpc hwait
  case atexit status =>
    simp only [procStep, hpc]
    split <;> rfl
  case msgctl status id =>
    simp only [procStep, hpc]
    split <;> rfl
  case ended status => exact absurd hpc (hended status)

/-- Before the end there is always a step with a call that does not fail. -/
theorem Inv.goes_on (h : Inv p True queues₀ s) (h₀ : queues₀ p.mq_key = none)
    (hend : ¬ (s.Ended ∧ s.queues = queues₀)) :
    ∃ a r, a.fails = false ∧ (machine p).step s a = some r := by
  have hparentGo : (procStep p .parent false s.queues s.child s.parent).isSome →
      ∃ a r, a.fails = false ∧ (machine p).step s a = some r := by
    intro hgo
    obtain ⟨r, hr⟩ := Option.isSome_iff_exists.mp hgo
    exact ⟨⟨.parent, false⟩, _, rfl, by simp [machine, hr]; rfl⟩
  have hchildGo : ∀ c, s.child = some c → (procStep p .child false s.queues none c).isSome →
      ∃ a r, a.fails = false ∧ (machine p).step s a = some r := by
    intro c hc hgo
    obtain ⟨r, hr⟩ := Option.isSome_iff_exists.mp hgo
    exact ⟨⟨.child, false⟩, _, rfl, by simp [machine, hc, hr]; rfl⟩
  have hparent := h.parent
  unfold ParentOk at hparent
  by_cases hwait : s.parent.pc = .wait
  · rw [hwait] at hparent
    obtain ⟨-, ms, c, hqueue, hc, hms⟩ := hparent
    by_cases hended : ∃ status, c.pc = .ended status
    · obtain ⟨status, hpc⟩ := hended
      obtain ⟨pc, id⟩ := c
      obtain rfl : pc = .ended status := hpc
      exact hparentGo (by simp [procStep, hwait, hc])
    · refine hchildGo c hc (h.child_goes_on hc (not_exists.mp hended) fun hp => ?_)
      rw [hqueue]
      exact fun heq => hms hp (Option.some.inj heq)
  by_cases hended : ∃ status, s.parent.pc = .ended status
  · obtain ⟨status, hpc⟩ := hended
    rw [hpc] at hparent
    have hnone : s.queues p.mq_key = none := hparent trivial
    have hqueues : s.queues = queues₀ := funext fun k => by
      by_cases hk : k = p.mq_key
      · rw [hk, hnone, h₀]
      · exact h.others k hk
    -- it is the child that has not ended
    by_contra hstuck
    refine hend ⟨⟨⟨status, hpc⟩, fun c hc => ?_⟩, hqueues⟩
    by_contra hc'
    refine hstuck (hchildGo c hc (h.child_goes_on hc (not_exists.mp hc') fun _ => ?_))
    rw [hnone]
    simp
  · exact hparentGo (h.parent_goes_on hwait (not_exists.mp hended))

/-- Where there has been no queue with the key before and no removal fails, every run comes to its
    end, whichever other calls fail, and the queues are those that there were before. -/
theorem inevitable_removed (h : queues₀ p.mq_key = none) :
    (machine p).Inevitable Removes (fun s => s.Ended ∧ s.queues = queues₀) (initial queues₀) := by
  refine Machine.Inevitable.of_measure rest (I := Inv p True queues₀) ?_ ?_ (initial_inv h)
  · intro s hI hend
    obtain ⟨a, r, ha, hr⟩ := hI.goes_on h hend
    refine ⟨a, r, ?_, hr⟩
    rintro rfl
    cases ha
  · intro s a e s' hI _ hok hs
    exact ⟨hI.step (fun _ => hok) hs, rest_step hI hs⟩

/-- The default message. -/
theorem inevitable_removed_noNews : (machine newsProgram).Inevitable Removes
    (fun s => s.Ended ∧ s.queues = fun _ => none) (initial fun _ => none) :=
  inevitable_removed rfl

/-! ## Runs without a failure -/

/-- What holds when no call has failed: the child waits for the message or has got it, the parent
    does not exit before that, and both exit successfully. -/
structure Smooth (s : State) : Prop where
  pending : ∀ c, s.child = some c → c.pc.Pending ∧ (s.parent.pc = .msgsnd ∨ s.parent.pc = .wait) ∨
    c.pc = .ended EXIT_SUCCESS
  forked : s.child = none → s.parent.pc = .msgget ∨ s.parent.pc = .fork
  status : ∀ status, s.parent.pc = .atexit status ∨ (∃ id, s.parent.pc = .msgctl status id) ∨
    s.parent.pc = .ended status → status = EXIT_SUCCESS

theorem initial_smooth (queues₀ : Key → Option (List Message)) : Smooth (initial queues₀) where
  pending c hc := by cases hc
  forked _ := .inl rfl
  status _ h := by simp [initial] at h

/-- The queue is there while the child waits for the message. -/
theorem Smooth.queue (hsmooth : Smooth s) (h : Inv p kept queues₀ s) (hq : s.child = some q)
    (hp : q.pc.Pending) : s.queues p.mq_key ≠ none := by
  have hparent := h.parent
  unfold ParentOk at hparent
  have hpc : s.parent.pc = .msgsnd ∨ s.parent.pc = .wait := by
    rcases hsmooth.pending q hq with hpc | hpc
    · exact hpc.2
    · rw [hpc] at hp
      exact hp.elim
  rcases hpc with hpc | hpc
  · rw [hpc] at hparent
    simp [hparent.2.1]
  · rw [hpc] at hparent
    obtain ⟨-, ms, -, hqueue, -⟩ := hparent
    simp [hqueue]

/-- A step of the child without a failure. -/
theorem Smooth.child_step (hsmooth : Smooth s) (h : Inv p kept queues₀ s) (hq : s.child = some q)
    (hs : ProcStep p .child s.queues none q false r) :
    Smooth ⟨r.queues, s.parent, some r.proc⟩ := by
  have hpending := hsmooth.pending q hq
  have hqueue := hsmooth.queue h hq
  have hok := h.child q hq
  unfold ChildOk at hok
  refine ⟨?_, by simp, hsmooth.status⟩
  rintro c ⟨rfl⟩
  cases hs with
  -- these calls belong to the parent
  | msgget hpc | fork hpc | msgsnd hpc | msgsndFails hpc | wait hpc | msgctl hpc
  | msgctlFails hpc => simp [hpc] at hok
  | atexit hpc | removing hpc => simp [hpc, Pc.Pending] at hpending
  -- the child goes on to its `msgrcv`
  | sprintf hpc | execl hpc | openQueue hpc =>
    rw [hpc] at hpending
    exact .inl ⟨trivial, (hpending.resolve_right (by simp)).2⟩
  | msgrcv hpc => exact .inr rfl
  -- the queue is there as long as the child waits for its message
  | openFails hpc hfails =>
    rw [hpc] at hok hqueue
    have hkey := hfails.resolve_left Bool.false_ne_true
    rw [show parseKey _ = p.mq_key from hok] at hkey
    exact absurd hkey (hqueue trivial)
  | msgrcvFails hpc hfails =>
    rw [hpc] at hok hqueue
    have hkey := hfails.resolve_left Bool.false_ne_true
    rw [show _ = p.mq_key from hok] at hkey
    exact absurd hkey (hqueue trivial)

/-- A step of the parent without a failure. -/
theorem Smooth.parent_step (hsmooth : Smooth s) (h : Inv p kept queues₀ s)
    (hlen : p.buffer.bytes.length ≤ MSGMAX)
    (hs : ProcStep p .parent s.queues s.child s.parent false r) :
    Smooth ⟨r.queues, r.proc, r.forked.or s.child⟩ := by
  have hparent := h.parent
  unfold ParentOk at hparent
  have hended : s.parent.pc ≠ .msgsnd → s.parent.pc ≠ .wait → ∀ c, s.child = some c →
      c.pc = .ended EXIT_SUCCESS := fun hsnd hwait c hc =>
    (hsmooth.pending c hc).resolve_left fun hp => hp.2.elim hsnd hwait
  cases hs with
  | sprintf hpc | execl hpc | openQueue hpc | openFails hpc | msgrcv hpc
  | msgrcvFails hpc => simp [hpc] at hparent
  | msgget hpc =>
    rw [hpc] at hparent
    refine ⟨fun c hc => ?_, fun _ => .inr rfl, by simp⟩
    rw [show s.child = some c from hc] at hparent
    cases hparent.2.2
  | fork hpc =>
    refine ⟨?_, by simp, by simp⟩
    rintro c ⟨rfl⟩
    exact .inl ⟨trivial, .inl rfl⟩
  | msgsnd hpc =>
    rw [hpc] at hparent
    refine ⟨fun c hc => ?_, fun hc => ?_, by simp⟩
    · exact (hsmooth.pending c hc).imp_left fun hp => ⟨hp.1, .inr rfl⟩
    · rw [show s.child = none from hc] at hparent
      cases hparent.2.2
  | msgsndFails hpc hfails =>
    -- the message is short enough, and the queue is there
    rw [hpc] at hparent
    obtain ⟨hid, hqueue, -⟩ := hparent
    rcases hfails with hfails | hfails | ⟨m, id, queue, hm, hid', hsnd⟩
    · cases hfails
    · rw [hid] at hfails
      cases hfails
    · obtain rfl := Option.some.inj (hid.symm.trans hid')
      obtain ⟨m', hm', -, hlength⟩ := message_eq p.mem p.buffer
      obtain rfl := Option.some.inj (hm.symm.trans hm')
      rw [hqueue] at hsnd
      exact absurd hlen (not_le.mpr (hlength ▸ (msgsnd_nil hsnd).2 rfl))
  | wait hpc hchild hstatus =>
    refine ⟨fun c hc => .inr ?_, fun hc => ?_, by simp⟩
    · obtain rfl := Option.some.inj (hchild.symm.trans hc)
      refine (hsmooth.pending _ hchild).resolve_left fun hp => ?_
      rw [hstatus] at hp
      exact hp.1
    · cases hchild.symm.trans hc
  | atexit hpc | removing hpc | msgctl hpc =>
    refine ⟨fun c hc => .inr (hended (by simp [hpc]) (by simp [hpc]) c hc), fun hc => ?_,
      fun status hstatus => hsmooth.status status ?_⟩
    · simpa [hpc] using hsmooth.forked hc
    · simpa [hpc] using hstatus
  | msgctlFails hpc hfails =>
    rw [hpc] at hparent
    obtain ⟨rfl, hqueue⟩ := hparent
    rw [hfails.resolve_left Bool.false_ne_true] at hqueue
    cases hqueue

/-- Where there has been no queue with the key before, no call fails and the message is not too
    long, every run comes to its end, and both processes exit successfully. -/
theorem inevitable_delivered (h : queues₀ p.mq_key = none)
    (hlen : p.buffer.bytes.length ≤ MSGMAX) :
    (machine p).Inevitable (fun _ a => a.fails = false)
      (fun s => s.parent.pc = .ended EXIT_SUCCESS ∧
        (∃ c, s.child = some c ∧ c.pc = .ended EXIT_SUCCESS) ∧ s.queues = queues₀)
      (initial queues₀) := by
  refine Machine.Inevitable.of_measure rest (I := fun s => Inv p True queues₀ s ∧ Smooth s) ?_ ?_
    ⟨initial_inv h, initial_smooth queues₀⟩
  · rintro s ⟨hI, hsmooth⟩ hend
    -- where both have ended, the child has got its message
    refine hI.goes_on h fun ⟨⟨⟨status, hpc⟩, hchild⟩, hqueues⟩ => hend ⟨?_, ?_, hqueues⟩
    · rw [hpc, hsmooth.status status (.inr (.inr hpc))]
    · cases hc : s.child with
      | none => simpa [hpc] using hsmooth.forked hc
      | some c =>
        refine ⟨c, rfl, (hsmooth.pending c hc).resolve_left fun hp => ?_⟩
        obtain ⟨status', hpc'⟩ := hchild c hc
        rw [hpc'] at hp
        exact hp.1
  · rintro s a e s' ⟨hI, hsmooth⟩ _ hok hs
    -- a step without a failure does not fail to remove the queue
    have hremoves : Removes s a := by
      rintro rfl
      cases hok
    refine ⟨⟨hI.step (fun _ => hremoves) hs, ?_⟩, rest_step hI hs⟩
    obtain ⟨-, r, hr, -, rfl⟩ | ⟨-, q, r, hq, hr, -, rfl⟩ := step_cases hs <;> rw [hok] at hr
    · exact hsmooth.parent_step hI hlen hr
    · exact hsmooth.child_step hI hq hr

/-- The default message. -/
theorem inevitable_delivered_noNews :
    (machine newsProgram).Inevitable (fun _ a => a.fails = false)
      (fun s => s.parent.pc = .ended EXIT_SUCCESS ∧
        (∃ c, s.child = some c ∧ c.pc = .ended EXIT_SUCCESS) ∧ s.queues = fun _ => none)
      (initial fun _ => none) :=
  inevitable_delivered rfl (by decide)

end MessagesSVFork
