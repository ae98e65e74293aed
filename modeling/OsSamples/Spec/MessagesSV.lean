import Mathlib.Data.List.Forall2
import Mathlib.Tactic.Common
import OsSamples.Native.MessagesSV

/-!
# From the arguments of the sender to the lines of the receiver

The sender copies an argument up to `MSG_MAX` bytes, but passes its whole length to `msgsnd`; the
receiver cuts what has been sent in excess, so that its lines are right all the same.

## Key results

- `sendLoop_spec`: the lengths that are passed and the messages that are sent
- `receiveLoop_spec`: what is printed of the messages in the queue
- `transferred_iff`: for which arguments every byte that is sent lies inside the message buffer
-/

namespace MessagesSV

variable {env : SendEnv} {b : CString} {bs : List CString} {m : Message} {ms : List Message}
  {text behind : List UInt8}

/-! ## The sender -/

/-- The message begins with the text, as far as a message buffer holds it. -/
def Carries (m : Message) (b : CString) : Prop := m.mtext.take MSG_MAX = b.bytes.take MSG_MAX

/-- What `strncpy` leaves in the message buffer. -/
theorem strncpy_msgText (msgText : CharArray MSG_MAX) (b : CString) :
    ∃ t, strncpy msgText b.memory MSG_MAX = some t ∧ t.bytes = strncpyBytes b.memory MSG_MAX := by
  obtain ⟨t, ht, hbytes⟩ := msgText.write_of_le 0 (strncpyBytes b.memory MSG_MAX)
    (by rw [length_strncpyBytes]; omega)
  refine ⟨t, ht, ?_⟩
  have hsize := msgText.size
  rw [hbytes, List.take_zero, List.nil_append, length_strncpyBytes,
    List.drop_of_length_le (by omega), List.append_nil]

/-- What is sent begins with the text, whatever the memory behind the message buffer holds. -/
theorem carries_read {t : CharArray MSG_MAX} (ht : t.bytes = strncpyBytes b.memory MSG_MAX) :
    Carries ⟨1, env.read t b.bytes.length⟩ b := by
  show (env.read t b.bytes.length).take MSG_MAX = b.bytes.take MSG_MAX
  unfold SendEnv.read
  rw [ht, CString.memory]
  by_cases hlen : b.bytes.length < MSG_MAX
  · -- the text ends inside the buffer
    rw [strncpyBytes_of_lt b.noNul hlen, List.take_left,
      Nat.sub_eq_zero_of_le (Nat.le_of_lt hlen)]
    simp
  · rw [strncpyBytes_of_le b.noNul (by omega)]
    have hfull : (b.bytes.take MSG_MAX).length = MSG_MAX := by
      rw [List.length_take]
      omega
    have hall : (b.bytes.take MSG_MAX).take b.bytes.length = b.bytes.take MSG_MAX :=
      List.take_of_length_le (by omega)
    rw [hall, List.take_left' hfull]

/-- The sender passes the lengths of the texts to `msgsnd`, up to the first call that fails; if no
    call fails, all the texts are in the queue. -/
theorem sendLoop_spec (env : SendEnv) (bs : List CString) (msgText : CharArray MSG_MAX) {s : Sent}
    (hstatus : s.status = EXIT_SUCCESS) :
    ∃ s', sendLoop env bs msgText s = some s' ∧
      s'.lengths <+: s.lengths ++ bs.map (fun b => b.bytes.length) ∧
      (s'.status = EXIT_SUCCESS → ∃ ms, s'.queue = s.queue ++ ms ∧ List.Forall₂ Carries ms bs) ∧
      ((∀ k, env.succeeds k = true) → s'.status = EXIT_SUCCESS ∧
        s'.lengths = s.lengths ++ bs.map fun b => b.bytes.length) := by
  -- by induction on the arguments; the buffer goes from one message to the next
  induction bs generalizing msgText s with
  | nil =>
    refine ⟨s, rfl, ?_, fun _ => ⟨[], ?_, .nil⟩, fun _ => ⟨hstatus, ?_⟩⟩
    · simp
    · simp
    · simp
  | cons b bs ih =>
    obtain ⟨t, ht, hbytes⟩ := strncpy_msgText msgText b
    simp only [sendLoop, ht, Option.bind_eq_bind, Option.bind_some, List.map_cons]
    rw [List.append_cons s.lengths b.bytes.length (bs.map fun b => b.bytes.length)]
    split
    -- the message is sent, and the loop goes on
    · obtain ⟨s', hs', hlengths, hqueue, hall⟩ := ih t
        (s := ⟨s.lengths ++ [b.bytes.length],
          s.queue ++ [⟨1, env.read t b.bytes.length⟩], s.status⟩) hstatus
      refine ⟨s', hs', hlengths, fun hs => ?_, hall⟩
      obtain ⟨ms, hms, hcarries⟩ := hqueue hs
      exact ⟨_ :: ms, by rw [hms, List.append_assoc]; rfl, .cons (carries_read hbytes) hcarries⟩
    -- `msgsnd` fails, and the sender stops with an error
    · rename_i hfails
      refine ⟨_, rfl, List.prefix_append _ _, fun hs => ?_, fun hall => absurd (hall _) hfails⟩
      exact absurd (show EXIT_FAILURE = EXIT_SUCCESS from hs) (by decide)

/-! ## The receiver -/

/-- A message is received: as many bytes of it as the buffer holds. -/
theorem msgrcv_cons {s : Receiver} (hqueue : s.queue = m :: ms)
    (htext : m.mtext.take MSG_MAX = text) :
    ∃ t : CharArray MSG_MAX,
      s.msgrcv = some ((text.length : ℤ), { s with queue := ms, msgText := t }) ∧
      ∃ behind, t.bytes = text ++ behind := by
  have hlen : text.length ≤ MSG_MAX := by
    rw [← htext, List.length_take]
    omega
  obtain ⟨t, ht, hbytes⟩ := s.msgText.write_of_le 0 text (by omega)
  unfold Receiver.msgrcv
  rw [hqueue]
  simp only [htext, ht, Option.bind_eq_bind, Option.bind_some]
  rw [List.take_zero, List.nil_append] at hbytes
  exact ⟨t, rfl, _, hbytes⟩

/-- A text in the message buffer is printed. -/
theorem got_text {s : Receiver} (hbytes : s.msgText.bytes = text ++ behind) (hnul : 0 ∉ text) :
    ∃ buffer, s.got text.length = some { s with
      buffer := buffer
      status := 0
      printed := s.printed ++ [.got text] } := by
  have hlen : text.length ≤ MSG_MAX := by
    rw [← s.msgText.size, hbytes, List.length_append]
    omega
  have hcopy : strncpyBytes s.msgText.bytes text.length = text := by
    rw [hbytes, strncpyBytes_of_le hnul le_rfl, List.take_length]
  obtain ⟨b₁, h₁, hb₁⟩ := s.buffer.write_of_le 0 text (by omega)
  obtain ⟨b₂, h₂, hb₂⟩ := b₁.write_of_le text.length [0]
    (by rw [List.length_singleton]; omega)
  -- the text, and the NUL behind it
  have hfinal : b₂.bytes = text ++ 0 :: b₁.bytes.drop (text.length + 1) := by
    rw [hb₂, hb₁, List.take_zero, List.nil_append, List.take_left, List.append_assoc]
    rfl
  have htext : b₂.text = some text := by
    rw [CharArray.text_of_bytes hfinal, takeWhile_noNul hnul]
  unfold Receiver.got strncpy
  rw [hcopy, h₁]
  simp only [Option.bind_eq_bind, Option.bind_some, h₂, htext]
  exact ⟨b₂, rfl⟩

/-- The two lines on `stderr` at the end. -/
def noMore : List Line :=
  [.stderr "Waiting for more messages.\n", .stderr "No more messages in the queue.\n"]

/-- A round in which the queue is empty. -/
theorem receiveLoop_noMsg {fails : ℕ → Bool} (hfails : ∀ k, fails k = false) {s : Receiver}
    (hstatus : s.status < 2) (hqueue : s.queue = []) (fuel : ℕ) :
    receiveLoop fails (fuel + 1) s = receiveLoop fails fuel s.noMsg := by
  have hrcv : s.msgrcv = some (-1, s) := by
    unfold Receiver.msgrcv
    rw [hqueue]
  rw [receiveLoop, if_pos hstatus, hfails, if_neg Bool.false_ne_true, hrcv]
  rfl

/-- A round in which a message is received. -/
theorem receiveLoop_got {fails : ℕ → Bool} (hfails : ∀ k, fails k = false) {s s₁ s₂ : Receiver}
    {n : ℕ} (hstatus : s.status < 2) (hrcv : s.msgrcv = some ((n : ℤ), s₁))
    (hgot : s₁.got n = some s₂) (fuel : ℕ) :
    receiveLoop fails (fuel + 1) s = receiveLoop fails fuel s₂ := by
  have hsize : ¬ (n : ℤ) = -1 := by omega
  rw [receiveLoop, if_pos hstatus, hfails, if_neg Bool.false_ne_true, hrcv]
  simp only [Option.bind_eq_bind, Option.bind_some]
  rw [if_neg hsize, Int.toNat_natCast, hgot]
  rfl

/-- Each message in the queue is printed, and the loop ends when there are no more. -/
theorem receiveLoop_spec {fails : ℕ → Bool} (hfails : ∀ k, fails k = false) {s : Receiver}
    (hstatus : s.status = 0) (hcarries : List.Forall₂ Carries s.queue bs) {fuel : ℕ}
    (hfuel : s.queue.length + 3 ≤ fuel) :
    ∃ s', receiveLoop fails fuel s = some (EXIT_SUCCESS, s') ∧
      s'.printed = s.printed ++ bs.map (fun b => .got (b.bytes.take MSG_MAX)) ++ noMore := by
  induction bs generalizing s fuel with
  -- an empty queue: two failures of `msgrcv` end the loop
  | nil =>
    have hqueue : s.queue = [] := List.forall₂_nil_right_iff.mp hcarries
    obtain ⟨fuel, rfl⟩ : ∃ k, fuel = k + 3 := ⟨fuel - 3, by omega⟩
    refine ⟨s.noMsg.noMsg, ?_, ?_⟩
    · have hnext : s.noMsg.status < 2 := by
        show s.status + 1 < 2
        omega
      have hlast : ¬ s.noMsg.noMsg.status < 2 := by
        show ¬ s.status + 1 + 1 < 2
        omega
      rw [receiveLoop_noMsg hfails (by omega) hqueue (fuel + 2),
        receiveLoop_noMsg hfails hnext hqueue (fuel + 1), receiveLoop, if_neg hlast]
    · simp [Receiver.noMsg, hstatus, noMore]
  -- the next message is received and printed
  | cons b bs ih =>
    obtain ⟨m, ms, hm, hms, hqueue⟩ := List.forall₂_cons_right_iff.mp hcarries
    -- what has been sent has no zero, so that it is a text
    have hnul : 0 ∉ b.bytes.take MSG_MAX := fun hmem => b.noNul (List.mem_of_mem_take hmem)
    obtain ⟨t, hrcv, behind, hbytes⟩ := msgrcv_cons hqueue hm
    obtain ⟨buffer, hgot⟩ := got_text (s := { s with queue := ms, msgText := t }) hbytes hnul
    rw [hqueue, List.length_cons] at hfuel
    obtain ⟨fuel, rfl⟩ : ∃ k, fuel = k + 1 := ⟨fuel - 1, by omega⟩
    obtain ⟨s', hs', hprinted⟩ := ih
      (s := { s with
        queue := ms
        msgText := t
        buffer := buffer
        status := 0
        printed := s.printed ++ [.got (b.bytes.take MSG_MAX)] }) rfl hms
      (show ms.length + 3 ≤ fuel by omega)
    refine ⟨s', ?_, ?_⟩
    · rw [receiveLoop_got hfails (by omega) hrcv hgot]
      exact hs'
    · rw [hprinted, List.map_cons]
      simp

/-! ## Main result -/

/-- What the receiver prints, when it finds the messages with these texts. -/
def lines (mqId : ℤ) (texts : List (List UInt8)) : List Line :=
  [.stderr ("The number of messages in the queue: " ++ toString (CInt.toInt32 texts.length) ++
    "\n")] ++ texts.map .got ++ noMore ++ [.removing mqId]

/-- Whatever the memory holds and whichever calls fail: no byte outside of the message buffer is
    sent, and if all sends succeed on an empty queue, the receiver ends successfully and prints the
    texts, each cut to `MSG_MAX` bytes. -/
def Transferred (args : List CString) : Prop :=
  ∀ (env : SendEnv) (msgText : CharArray MSG_MAX), ∃ sent, sender env args msgText [] = some sent ∧
    (∀ len ∈ sent.lengths, len ≤ MSG_MAX) ∧
    (sent.status = EXIT_SUCCESS → ∀ (mqId : ℤ) (fuel : ℕ) (msgText : CharArray MSG_MAX)
      (buffer : CharArray (MSG_MAX + 1)), sent.queue.length + 3 ≤ fuel →
        receiver mqId (fun _ => false) fuel sent.queue msgText buffer = some (EXIT_SUCCESS,
          lines mqId ((buffers args).map fun b => b.bytes.take MSG_MAX)))

/-- For every list of arguments, also an empty one, for which the default message is sent: the
    arguments are transferred as they should be if and only if none is longer than `MSG_MAX`. -/
theorem transferred_iff (args : List CString) :
    Transferred args ↔ ∀ b ∈ buffers args, b.bytes.length ≤ MSG_MAX := by
  constructor
  · intro h b hb
    -- where every call succeeds, every length is passed
    obtain ⟨sent, hsent, hlengths, -⟩ :=
      h ⟨fun _ => true, fun _ => 0⟩ ⟨List.replicate MSG_MAX 0, List.length_replicate⟩
    obtain ⟨s', hs', -, -, hall⟩ := sendLoop_spec ⟨fun _ => true, fun _ => 0⟩ (buffers args)
      ⟨List.replicate MSG_MAX 0, List.length_replicate⟩ (s := ⟨[], [], EXIT_SUCCESS⟩) rfl
    obtain rfl : sent = s' := Option.some.inj (hsent.symm.trans hs')
    apply hlengths
    rw [(hall fun _ => rfl).2]
    exact List.mem_append_right _ (List.mem_map_of_mem hb)
  · intro h env msgText
    obtain ⟨sent, hsent, hprefix, hqueue, -⟩ := sendLoop_spec env (buffers args) msgText
      (s := ⟨[], [], EXIT_SUCCESS⟩) rfl
    refine ⟨sent, hsent, fun len hlen => ?_, fun hstatus mqId fuel t buffer hfuel => ?_⟩
    · have hmem := hprefix.subset hlen
      rw [List.nil_append, List.mem_map] at hmem
      obtain ⟨b, hb, rfl⟩ := hmem
      exact h b hb
    · obtain ⟨ms, hms, hcarries⟩ := hqueue hstatus
      rw [List.nil_append] at hms
      subst hms
      have hfails : ∀ k, (fun _ : ℕ => false) k = false := fun _ => rfl
      obtain ⟨s', hs', hprinted⟩ := receiveLoop_spec hfails
        (s := ⟨sent.queue, t, buffer, 0, [.stderr ("The number of messages in the queue: " ++
          toString (CInt.toInt32 sent.queue.length) ++ "\n")]⟩) rfl hcarries hfuel
      unfold receiver
      simp only [hs', Option.map_some, hprinted]
      rw [hcarries.length_eq]
      simp [lines]

/-- An argument of 31 bytes: one byte behind the message buffer is sent. -/
theorem long_argument : ¬ Transferred [⟨List.replicate 31 97, by decide⟩] := by
  intro h
  obtain ⟨sent, hsent, hlengths, -⟩ :=
    h ⟨fun _ => true, fun _ => 0⟩ ⟨List.replicate MSG_MAX 0, rfl⟩
  obtain rfl := Option.some.inj hsent
  exact absurd (hlengths 31 (by decide)) (by decide)

end MessagesSV
