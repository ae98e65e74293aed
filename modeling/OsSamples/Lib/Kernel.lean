import Mathlib.Algebra.GroupWithZero.Nat
import Mathlib.Logic.Function.Basic
import Mathlib.Data.List.Basic
import Mathlib.Data.Int.Notation

/-!
# Kernel objects for inter-process communication

POSIX named semaphores and message queues, System V semaphore sets and message queues, with the
calls on them as single atomic steps.  Processes are named by `P`; every object records which
process created it.

A call that may block is an `Option`: `none` means that it blocks in this state.  Otherwise it
returns whether it succeeded, and a failing call leaves the kernel as it was.  Calls that create
an object take the identifier the kernel picks for it, which must not be in use.

Message contents are left out: a POSIX message is its length (all priorities are equal, so a queue
is first-in first-out), a System V message is its type and its length.
-/

/-- The largest value of a POSIX semaphore. -/
def SEM_VALUE_MAX : ℕ := 2147483647

/-- The largest value of a System V semaphore, and of an undo adjustment. -/
def SEMVMX : ℤ := 32767

/-- The default capacity of a System V message queue, in bytes and in messages. -/
def MSGMNB : ℕ := 16384

/-- A POSIX semaphore created by `sem_open`. -/
structure PosixSem (P : Type*) where
  creator : P
  value : ℕ

/-- A System V semaphore set with one semaphore; `semadj` is what the kernel adds to the value
    when a process ends (`SEM_UNDO`). -/
structure SysvSem (P : Type*) where
  creator : P
  val : ℤ
  semadj : P → ℤ

/-- A POSIX message queue. -/
structure PosixMq (P : Type*) where
  creator : P
  maxmsg : ℕ
  msgsize : ℕ
  msgs : List ℕ

/-- A System V message queue. -/
structure SysvMq (P : Type*) where
  creator : P
  qbytes : ℕ
  msgs : List (ℤ × ℕ)

/-- The kernel's tables: objects by identifier, and the names and keys bound to them. -/
structure Kernel (P : Type*) where
  semNames : String → Option ℕ
  sems : ℕ → Option (PosixSem P)
  semKeys : ℤ → Option ℕ
  semSets : ℕ → Option (SysvSem P)
  mqNames : String → Option ℕ
  mqs : ℕ → Option (PosixMq P)
  msgQs : ℕ → Option (SysvMq P)

namespace Kernel

variable {P : Type*}

/-- No objects and no names. -/
def empty : Kernel P :=
  ⟨fun _ => none, fun _ => none, fun _ => none, fun _ => none, fun _ => none, fun _ => none,
    fun _ => none⟩

/-! ### Updating one entry of a table -/

def setSem (k : Kernel P) (id : ℕ) (s : PosixSem P) : Kernel P :=
  { k with sems := Function.update k.sems id (some s) }

def setSemSet (k : Kernel P) (id : ℕ) (s : Option (SysvSem P)) : Kernel P :=
  { k with semSets := Function.update k.semSets id s }

def setMq (k : Kernel P) (id : ℕ) (q : PosixMq P) : Kernel P :=
  { k with mqs := Function.update k.mqs id (some q) }

def setMsgQ (k : Kernel P) (id : ℕ) (q : Option (SysvMq P)) : Kernel P :=
  { k with msgQs := Function.update k.msgQs id q }

def bindSem (k : Kernel P) (name : String) (id : Option ℕ) : Kernel P :=
  { k with semNames := Function.update k.semNames name id }

def bindKey (k : Kernel P) (key : ℤ) (id : Option ℕ) : Kernel P :=
  { k with semKeys := Function.update k.semKeys key id }

def bindMq (k : Kernel P) (name : String) (id : Option ℕ) : Kernel P :=
  { k with mqNames := Function.update k.mqNames name id }

@[simp] theorem setSem_sems_self (k : Kernel P) (id : ℕ) (s : PosixSem P) :
    (k.setSem id s).sems id = some s := by simp [setSem]

@[simp] theorem setSemSet_semSets_self (k : Kernel P) (id : ℕ) (s : Option (SysvSem P)) :
    (k.setSemSet id s).semSets id = s := by simp [setSemSet]

@[simp] theorem setMq_mqs_self (k : Kernel P) (id : ℕ) (q : PosixMq P) :
    (k.setMq id q).mqs id = some q := by simp [setMq]

@[simp] theorem setMsgQ_msgQs_self (k : Kernel P) (id : ℕ) (q : Option (SysvMq P)) :
    (k.setMsgQ id q).msgQs id = q := by simp [setMsgQ]

/-! ### POSIX semaphores -/

/-- `sem_open` with `O_CREAT`, and with `O_EXCL` if `excl`: the identifier of the semaphore, or
    `none` for `SEM_FAILED`. -/
def semOpen (excl : Bool) (name : String) (value : ℕ) (p : P) (fresh : ℕ) (k : Kernel P) :
    Option (Option ℕ × Kernel P) :=
  match k.semNames name with
  | some id => some (if excl then none else some id, k)
  | none =>
    if (k.sems fresh).isSome then none
    else some (some fresh, (k.setSem fresh ⟨p, value⟩).bindSem name (some fresh))

/-- `sem_unlink`: unbinds the name, the semaphore itself stays. -/
def semUnlink (name : String) (k : Kernel P) : Bool × Kernel P :=
  match k.semNames name with
  | none => (false, k)
  | some _ => (true, k.bindSem name none)

/-- `sem_wait`. -/
def semWait (id : ℕ) (k : Kernel P) : Option (Bool × Kernel P) :=
  match k.sems id with
  | none => some (false, k)
  | some s => if s.value = 0 then none else some (true, k.setSem id { s with value := s.value - 1 })

/-- `sem_post`. -/
def semPost (id : ℕ) (k : Kernel P) : Option (Bool × Kernel P) :=
  match k.sems id with
  | none => some (false, k)
  | some s =>
    if s.value ≥ SEM_VALUE_MAX then some (false, k)
    else some (true, k.setSem id { s with value := s.value + 1 })

/-! ### System V semaphores -/

/-- `semget(IPC_PRIVATE, 1, mode)`. -/
def semgetPrivate (p : P) (fresh : ℕ) (k : Kernel P) : Option (Option ℕ × Kernel P) :=
  if (k.semSets fresh).isSome then none
  else some (some fresh, k.setSemSet fresh (some ⟨p, 0, fun _ => 0⟩))

/-- `semget(key, 1, IPC_CREAT | mode)`: opens the set bound to the key, or creates one. -/
def semgetCreate (key : ℤ) (p : P) (fresh : ℕ) (k : Kernel P) : Option (Option ℕ × Kernel P) :=
  match k.semKeys key with
  | some id => some (some id, k)
  | none =>
    if (k.semSets fresh).isSome then none
    else some (some fresh, (k.setSemSet fresh (some ⟨p, 0, fun _ => 0⟩)).bindKey key (some fresh))

/-- `semctl(id, 0, SETVAL, val)`: sets the value and clears all undo adjustments. -/
def semctlSetval (id : ℕ) (val : ℤ) (k : Kernel P) : Bool × Kernel P :=
  match k.semSets id with
  | none => (false, k)
  | some s => (true, k.setSemSet id (some { s with val := val, semadj := fun _ => 0 }))

/-- `semctl(id, 0, IPC_RMID)`: removes the set, and the key bound to it. -/
def semctlRmid (id : ℕ) (k : Kernel P) : Bool × Kernel P :=
  match k.semSets id with
  | none => (false, k)
  | some _ =>
    (true, { k.setSemSet id none with
      semKeys := fun key => if k.semKeys key = some id then none else k.semKeys key })

/-- `semop` with one operation `op` on semaphore 0 and `SEM_UNDO`. -/
def semop [DecidableEq P] (p : P) (op : ℤ) (id : ℕ) (k : Kernel P) : Option (Bool × Kernel P) :=
  match k.semSets id with
  | none => some (false, k)
  | some s =>
    if s.val + op < 0 then none
    else if s.val + op > SEMVMX ∨ s.semadj p - op > SEMVMX ∨ s.semadj p - op < -SEMVMX - 1 then
      some (false, k)
    else some (true, k.setSemSet id (some { s with
      val := s.val + op, semadj := Function.update s.semadj p (s.semadj p - op) }))

/-! ### POSIX message queues -/

/-- `mq_open` with `O_CREAT | O_EXCL | O_RDWR`; `none` stands for `(mqd_t) -1`. -/
def mqOpen (name : String) (maxmsg msgsize : ℕ) (p : P) (fresh : ℕ) (k : Kernel P) :
    Option (Option ℕ × Kernel P) :=
  match k.mqNames name with
  | some _ => some (none, k)
  | none =>
    if (k.mqs fresh).isSome then none
    else some (some fresh, (k.setMq fresh ⟨p, maxmsg, msgsize, []⟩).bindMq name (some fresh))

/-- `mq_unlink`: unbinds the name, the queue itself stays. -/
def mqUnlink (name : String) (k : Kernel P) : Bool × Kernel P :=
  match k.mqNames name with
  | none => (false, k)
  | some _ => (true, k.bindMq name none)

/-- `mq_send` of `len` bytes on a blocking queue. -/
def mqSend (id len : ℕ) (k : Kernel P) : Option (Bool × Kernel P) :=
  match k.mqs id with
  | none => some (false, k)
  | some q =>
    if len > q.msgsize then some (false, k)
    else if q.msgs.length ≥ q.maxmsg then none
    else some (true, k.setMq id { q with msgs := q.msgs ++ [len] })

/-- `mq_receive` into a buffer of `len` bytes on a blocking queue. -/
def mqReceive (id len : ℕ) (k : Kernel P) : Option (Bool × Kernel P) :=
  match k.mqs id with
  | none => some (false, k)
  | some q =>
    if len < q.msgsize then some (false, k)
    else match q.msgs with
      | [] => none
      | _ :: ms => some (true, k.setMq id { q with msgs := ms })

/-! ### System V message queues -/

/-- `msgget(IPC_PRIVATE, mode)`. -/
def msggetPrivate (p : P) (fresh : ℕ) (k : Kernel P) : Option (Option ℕ × Kernel P) :=
  if (k.msgQs fresh).isSome then none
  else some (some fresh, k.setMsgQ fresh (some ⟨p, MSGMNB, []⟩))

/-- `msgsnd` of a message of type `mtype` with `size` bytes of text, without `IPC_NOWAIT`. -/
def msgsnd (id : ℕ) (mtype : ℤ) (size : ℕ) (k : Kernel P) : Option (Bool × Kernel P) :=
  match k.msgQs id with
  | none => some (false, k)
  | some q =>
    if mtype < 1 then some (false, k)
    else if (q.msgs.map Prod.snd).sum + size > q.qbytes ∨ q.msgs.length + 1 > q.qbytes then none
    else some (true, k.setMsgQ id (some { q with msgs := q.msgs ++ [(mtype, size)] }))

/-- `msgrcv` of the first message (message type 0) into `size` bytes, without flags: the type of
    the message received. -/
def msgrcv (id size : ℕ) (k : Kernel P) : Option (Option ℤ × Kernel P) :=
  match k.msgQs id with
  | none => some (none, k)
  | some q =>
    match q.msgs with
    | [] => none
    | m :: ms =>
      if m.2 > size then some (none, k)
      else some (some m.1, k.setMsgQ id (some { q with msgs := ms }))

/-- `msgctl(id, IPC_RMID)`. -/
def msgctlRmid (id : ℕ) (k : Kernel P) : Bool × Kernel P :=
  match k.msgQs id with
  | none => (false, k)
  | some _ => (true, k.setMsgQ id none)

/-! ### What creating calls do -/

section Create

variable {k k' : Kernel P} {name : String} {p : P} {fresh : ℕ} {h : Option ℕ}

/-- An exclusive `sem_open` fails on a bound name and creates a semaphore otherwise. -/
theorem semOpen_excl_cases {value : ℕ} (hs : k.semOpen true name value p fresh = some (h, k')) :
    (h = none ∧ k' = k ∧ k.semNames name ≠ none) ∨
      (h = some fresh ∧ k.semNames name = none ∧ k.sems fresh = none ∧
        k' = (k.setSem fresh ⟨p, value⟩).bindSem name (some fresh)) := by
  simp only [semOpen] at hs
  split at hs
  · rename_i id hid
    simp only [if_true, Option.some.injEq, Prod.mk.injEq] at hs
    exact .inl ⟨hs.1.symm, hs.2.symm, by simp [hid]⟩
  · rename_i hname
    simp only [Option.ite_none_left_eq_some, Option.some.injEq, Prod.mk.injEq,
      Option.not_isSome_iff_eq_none] at hs
    exact .inr ⟨hs.2.1.symm, hname, hs.1, hs.2.2.symm⟩

/-- `mq_open` fails on a bound name and creates an empty queue otherwise. -/
theorem mqOpen_cases {maxmsg msgsize : ℕ}
    (hs : k.mqOpen name maxmsg msgsize p fresh = some (h, k')) :
    (h = none ∧ k' = k ∧ k.mqNames name ≠ none) ∨
      (h = some fresh ∧ k.mqNames name = none ∧ k.mqs fresh = none ∧
        k' = (k.setMq fresh ⟨p, maxmsg, msgsize, []⟩).bindMq name (some fresh)) := by
  simp only [mqOpen] at hs
  split at hs
  · rename_i id hid
    simp only [Option.some.injEq, Prod.mk.injEq] at hs
    exact .inl ⟨hs.1.symm, hs.2.symm, by simp [hid]⟩
  · rename_i hname
    simp only [Option.ite_none_left_eq_some, Option.some.injEq, Prod.mk.injEq,
      Option.not_isSome_iff_eq_none] at hs
    exact .inr ⟨hs.2.1.symm, hname, hs.1, hs.2.2.symm⟩

/-- A private `semget` creates a set. -/
theorem semgetPrivate_cases (hs : k.semgetPrivate p fresh = some (h, k')) :
    h = some fresh ∧ k.semSets fresh = none ∧
      k' = k.setSemSet fresh (some ⟨p, 0, fun _ => 0⟩) := by
  simp only [semgetPrivate, Option.ite_none_left_eq_some, Option.some.injEq, Prod.mk.injEq,
    Option.not_isSome_iff_eq_none] at hs
  exact ⟨hs.2.1.symm, hs.1, hs.2.2.symm⟩

/-- A `semget` with `IPC_CREAT` returns a set. -/
theorem semgetCreate_isSome {key : ℤ} (hs : k.semgetCreate key p fresh = some (h, k')) :
    ∃ id, h = some id := by
  simp only [semgetCreate] at hs
  split at hs
  · rename_i id _
    simp only [Option.some.injEq, Prod.mk.injEq] at hs
    exact ⟨id, hs.1.symm⟩
  · simp only [Option.ite_none_left_eq_some, Option.some.injEq, Prod.mk.injEq] at hs
    exact ⟨fresh, hs.2.1.symm⟩

/-- `semget` with `IPC_CREAT` leaves the sets there are as they are. -/
theorem semgetCreate_semSets {key : ℤ} {id : ℕ} (hs : k.semgetCreate key p fresh = some (h, k'))
    (hid : k.semSets id ≠ none) : k'.semSets id = k.semSets id := by
  simp only [semgetCreate] at hs
  split at hs
  · simp only [Option.some.injEq, Prod.mk.injEq] at hs
    rw [hs.2]
  · simp only [Option.ite_none_left_eq_some, Option.some.injEq, Prod.mk.injEq,
      Option.not_isSome_iff_eq_none] at hs
    obtain ⟨hfresh, -, rfl⟩ := hs
    have hne : id ≠ fresh := by
      rintro rfl
      exact hid hfresh
    exact Function.update_of_ne hne _ _

/-- A private `msgget` creates an empty queue. -/
theorem msggetPrivate_cases (hs : k.msggetPrivate p fresh = some (h, k')) :
    h = some fresh ∧ k.msgQs fresh = none ∧ k' = k.setMsgQ fresh (some ⟨p, MSGMNB, []⟩) := by
  simp only [msggetPrivate, Option.ite_none_left_eq_some, Option.some.injEq, Prod.mk.injEq,
    Option.not_isSome_iff_eq_none] at hs
  exact ⟨hs.2.1.symm, hs.1, hs.2.2.symm⟩

end Create

/-! ### What calls on an object do -/

section Use

variable {k k' : Kernel P} {id : ℕ} {ok : Bool}

/-- A `sem_wait` that returns decrements a positive value, or there is no semaphore. -/
theorem semWait_cases (hs : k.semWait id = some (ok, k')) :
    (ok = false ∧ k' = k ∧ k.sems id = none) ∨
      ∃ s, k.sems id = some s ∧ ok = true ∧ s.value ≠ 0 ∧
        k' = k.setSem id { s with value := s.value - 1 } := by
  simp only [semWait] at hs
  split at hs
  · rename_i hsem
    simp only [Option.some.injEq, Prod.mk.injEq] at hs
    exact .inl ⟨hs.1.symm, hs.2.symm, hsem⟩
  · rename_i s hsem
    simp only [Option.ite_none_left_eq_some, Option.some.injEq, Prod.mk.injEq] at hs
    exact .inr ⟨s, hsem, hs.2.1.symm, hs.1, hs.2.2.symm⟩

/-- A `sem_post` increments the value, unless that is the largest one or there is no semaphore. -/
theorem semPost_cases (hs : k.semPost id = some (ok, k')) :
    (ok = false ∧ k' = k ∧ ∀ s, k.sems id = some s → SEM_VALUE_MAX ≤ s.value) ∨
      ∃ s, k.sems id = some s ∧ ok = true ∧ s.value < SEM_VALUE_MAX ∧
        k' = k.setSem id { s with value := s.value + 1 } := by
  simp only [semPost] at hs
  split at hs
  · rename_i hsem
    simp only [Option.some.injEq, Prod.mk.injEq] at hs
    exact .inl ⟨hs.1.symm, hs.2.symm, by simp [hsem]⟩
  · rename_i s hsem
    split at hs <;> rename_i hmax <;> simp only [Option.some.injEq, Prod.mk.injEq] at hs
    · exact .inl ⟨hs.1.symm, hs.2.symm, by simpa [hsem] using hmax⟩
    · exact .inr ⟨s, hsem, hs.1.symm, by omega, hs.2.symm⟩

/-- A `semop` that returns is made as asked, unless the value or the adjustment of the caller
    would leave its range or there is no set. -/
theorem semop_cases [DecidableEq P] {p : P} {op : ℤ} (hs : k.semop p op id = some (ok, k')) :
    (ok = false ∧ k' = k ∧ ∀ s, k.semSets id = some s →
      s.val + op > SEMVMX ∨ s.semadj p - op > SEMVMX ∨ s.semadj p - op < -SEMVMX - 1) ∨
      ∃ s, k.semSets id = some s ∧ ok = true ∧ 0 ≤ s.val + op ∧
        k' = k.setSemSet id (some { s with
          val := s.val + op, semadj := Function.update s.semadj p (s.semadj p - op) }) := by
  simp only [semop] at hs
  split at hs
  · rename_i hsem
    simp only [Option.some.injEq, Prod.mk.injEq] at hs
    exact .inl ⟨hs.1.symm, hs.2.symm, by simp [hsem]⟩
  · rename_i s hsem
    simp only [Option.ite_none_left_eq_some] at hs
    obtain ⟨hnonneg, hs⟩ := hs
    split at hs <;> rename_i hrange <;> simp only [Option.some.injEq, Prod.mk.injEq] at hs
    · exact .inl ⟨hs.1.symm, hs.2.symm, by simpa [hsem] using hrange⟩
    · exact .inr ⟨s, hsem, hs.1.symm, by omega, hs.2.symm⟩

/-- A `mq_send` that returns appends the message, unless it is too long or there is no queue. -/
theorem mqSend_cases {len : ℕ} (hs : k.mqSend id len = some (ok, k')) :
    (ok = false ∧ k' = k ∧ ∀ q, k.mqs id = some q → q.msgsize < len) ∨
      ∃ q, k.mqs id = some q ∧ ok = true ∧ q.msgs.length < q.maxmsg ∧
        k' = k.setMq id { q with msgs := q.msgs ++ [len] } := by
  simp only [mqSend] at hs
  split at hs
  · rename_i hq
    simp only [Option.some.injEq, Prod.mk.injEq] at hs
    exact .inl ⟨hs.1.symm, hs.2.symm, by simp [hq]⟩
  · rename_i q hq
    split at hs
    · rename_i hlen
      simp only [Option.some.injEq, Prod.mk.injEq] at hs
      exact .inl ⟨hs.1.symm, hs.2.symm, by simpa [hq] using hlen⟩
    · simp only [Option.ite_none_left_eq_some, Option.some.injEq, Prod.mk.injEq] at hs
      exact .inr ⟨q, hq, hs.2.1.symm, by omega, hs.2.2.symm⟩

/-- A `mq_receive` that returns takes the first message, unless the buffer is too short or there
    is no queue. -/
theorem mqReceive_cases {len : ℕ} (hs : k.mqReceive id len = some (ok, k')) :
    (ok = false ∧ k' = k ∧ ∀ q, k.mqs id = some q → len < q.msgsize) ∨
      ∃ q m ms, k.mqs id = some q ∧ q.msgs = m :: ms ∧ ok = true ∧
        k' = k.setMq id { q with msgs := ms } := by
  simp only [mqReceive] at hs
  split at hs
  · rename_i hq
    simp only [Option.some.injEq, Prod.mk.injEq] at hs
    exact .inl ⟨hs.1.symm, hs.2.symm, by simp [hq]⟩
  · rename_i q hq
    split at hs
    · rename_i hlen
      simp only [Option.some.injEq, Prod.mk.injEq] at hs
      exact .inl ⟨hs.1.symm, hs.2.symm, by simpa [hq] using hlen⟩
    · split at hs
      · exact nomatch hs
      · rename_i m ms hmsgs
        simp only [Option.some.injEq, Prod.mk.injEq] at hs
        exact .inr ⟨q, m, ms, hq, hmsgs, hs.1.symm, hs.2.symm⟩

/-- A `msgsnd` that returns appends the message, unless its type is not positive or there is no
    queue. -/
theorem msgsnd_cases {mtype : ℤ} {size : ℕ} (hs : k.msgsnd id mtype size = some (ok, k')) :
    (ok = false ∧ k' = k ∧ ∀ q, k.msgQs id = some q → mtype < 1) ∨
      ∃ q, k.msgQs id = some q ∧ ok = true ∧
        k' = k.setMsgQ id (some { q with msgs := q.msgs ++ [(mtype, size)] }) := by
  simp only [msgsnd] at hs
  split at hs
  · rename_i hq
    simp only [Option.some.injEq, Prod.mk.injEq] at hs
    exact .inl ⟨hs.1.symm, hs.2.symm, by simp [hq]⟩
  · rename_i q hq
    split at hs
    · rename_i htype
      simp only [Option.some.injEq, Prod.mk.injEq] at hs
      exact .inl ⟨hs.1.symm, hs.2.symm, fun _ _ => htype⟩
    · simp only [Option.ite_none_left_eq_some, Option.some.injEq, Prod.mk.injEq] at hs
      exact .inr ⟨q, hq, hs.2.1.symm, hs.2.2.symm⟩

/-- A `msgrcv` that returns takes the first message, unless that is too long or there is no
    queue. -/
theorem msgrcv_cases {size : ℕ} {r : Option ℤ} (hs : k.msgrcv id size = some (r, k')) :
    (r = none ∧ k' = k ∧ ∀ q, k.msgQs id = some q → ∃ m ms, q.msgs = m :: ms ∧ size < m.2) ∨
      ∃ q m ms, k.msgQs id = some q ∧ q.msgs = m :: ms ∧ r = some m.1 ∧
        k' = k.setMsgQ id (some { q with msgs := ms }) := by
  simp only [msgrcv] at hs
  split at hs
  · rename_i hq
    simp only [Option.some.injEq, Prod.mk.injEq] at hs
    exact .inl ⟨hs.1.symm, hs.2.symm, by simp [hq]⟩
  · rename_i q hq
    split at hs
    · exact nomatch hs
    · rename_i m ms hmsgs
      split at hs <;> rename_i hsize <;> simp only [Option.some.injEq, Prod.mk.injEq] at hs
      · refine .inl ⟨hs.1.symm, hs.2.symm, fun q' hq' => ?_⟩
        obtain rfl : q = q' := by simpa [hq] using hq'
        exact ⟨m, ms, hmsgs, hsize⟩
      · exact .inr ⟨q, m, ms, hq, hmsgs, hs.1.symm, hs.2.symm⟩

end Use

/-! ### Process end -/

/-- What the kernel does to a semaphore set when process `p` ends: it applies and drops the
    adjustment of `p`. -/
def undoSem [DecidableEq P] (p : P) (s : SysvSem P) : SysvSem P :=
  { s with val := min SEMVMX (max 0 (s.val + s.semadj p)), semadj := Function.update s.semadj p 0 }

/-- The end of process `p`. -/
def exitProcess [DecidableEq P] (p : P) (k : Kernel P) : Kernel P :=
  { k with semSets := fun id => (k.semSets id).map (undoSem p) }

end Kernel
