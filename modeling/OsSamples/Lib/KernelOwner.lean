import OsSamples.Lib.Kernel

/-!
# Kernel objects of one process

`ActsOwn p k k'` says that getting from `k` to `k'` has touched only objects that process `p`
created, and only names that were free or bound to such objects.  Calls on own objects do so, and
what other processes know about their own objects and names stays true.

## Key results

- `ActsOwn.semWait`, …: a call on an object of the caller acts on the caller's objects only
- `OwnUpdate.of_ne`: objects of other processes stay as they are
-/

namespace Kernel

variable {P O : Type*} {creator : O → P} {p q : P} {k k' : Kernel P} {id : ℕ} {name : String}
  {ok : Bool}

/-- There is no object, or it was created by `p`. -/
def OwnedBy (creator : O → P) (p : P) (o : Option O) : Prop := ∀ s, o = some s → creator s = p

/-- Of a table only objects of `p` have changed. -/
def OwnUpdate (creator : O → P) (p : P) (t t' : ℕ → Option O) : Prop :=
  ∀ id, t' id = t id ∨ (OwnedBy creator p (t id) ∧ OwnedBy creator p (t' id))

theorem OwnedBy.none : OwnedBy creator p none := nofun

theorem OwnedBy.some {s : O} (h : creator s = p) : OwnedBy creator p (some s) := by
  rintro _ ⟨⟩
  exact h

theorem OwnUpdate.refl (t : ℕ → Option O) : OwnUpdate creator p t t := fun _ => .inl rfl

/-- Writing one entry. -/
theorem OwnUpdate.update {t : ℕ → Option O} {o : Option O} (h : OwnedBy creator p (t id))
    (ho : OwnedBy creator p o) : OwnUpdate creator p t (Function.update t id o) := by
  intro id'
  by_cases hid : id' = id
  · subst hid
    exact .inr ⟨h, by rw [Function.update_self]; exact ho⟩
  · exact .inl (Function.update_of_ne hid _ _)

/-- An object of another process stays as it is. -/
theorem OwnUpdate.of_ne {t t' : ℕ → Option O} (h : OwnUpdate creator p t t') {s : O}
    (hs : t id = some s) (hq : creator s ≠ p) : t' id = some s := by
  rcases h id with heq | ⟨hown, -⟩
  · rw [heq, hs]
  · exact absurd (hown s hs) hq

/-- Only objects of `p`, and names that were free or bound to objects of `p`, have changed. -/
structure ActsOwn (p : P) (k k' : Kernel P) : Prop where
  sems : OwnUpdate PosixSem.creator p k.sems k'.sems
  semSets : OwnUpdate SysvSem.creator p k.semSets k'.semSets
  mqs : OwnUpdate PosixMq.creator p k.mqs k'.mqs
  msgQs : OwnUpdate SysvMq.creator p k.msgQs k'.msgQs
  semNames : ∀ name, k'.semNames name = k.semNames name ∨
    ∀ id, k.semNames name = some id → OwnedBy PosixSem.creator p (k.sems id)
  mqNames : ∀ name, k'.mqNames name = k.mqNames name ∨
    ∀ id, k.mqNames name = some id → OwnedBy PosixMq.creator p (k.mqs id)

/-- Doing nothing touches nothing. -/
theorem ActsOwn.refl (p : P) (k : Kernel P) : ActsOwn p k k :=
  ⟨.refl _, .refl _, .refl _, .refl _, fun _ => .inl rfl, fun _ => .inl rfl⟩

/-! ### Calls on own objects -/

/-- Changing a semaphore. -/
theorem ActsOwn.setSem {s : PosixSem P} (h : OwnedBy PosixSem.creator p (k.sems id))
    (hs : s.creator = p) : ActsOwn p k (k.setSem id s) :=
  ⟨.update h (.some hs), .refl _, .refl _, .refl _, fun _ => .inl rfl, fun _ => .inl rfl⟩

/-- Changing or removing a semaphore set. -/
theorem ActsOwn.setSemSet {s : Option (SysvSem P)} (h : OwnedBy SysvSem.creator p (k.semSets id))
    (hs : OwnedBy SysvSem.creator p s) : ActsOwn p k (k.setSemSet id s) :=
  ⟨.refl _, .update h hs, .refl _, .refl _, fun _ => .inl rfl, fun _ => .inl rfl⟩

/-- Changing a POSIX message queue. -/
theorem ActsOwn.setMq {q : PosixMq P} (h : OwnedBy PosixMq.creator p (k.mqs id))
    (hq : q.creator = p) : ActsOwn p k (k.setMq id q) :=
  ⟨.refl _, .refl _, .update h (.some hq), .refl _, fun _ => .inl rfl, fun _ => .inl rfl⟩

/-- Changing or removing a System V message queue. -/
theorem ActsOwn.setMsgQ {q : Option (SysvMq P)} (h : OwnedBy SysvMq.creator p (k.msgQs id))
    (hq : OwnedBy SysvMq.creator p q) : ActsOwn p k (k.setMsgQ id q) :=
  ⟨.refl _, .refl _, .refl _, .update h hq, fun _ => .inl rfl, fun _ => .inl rfl⟩

/-- A binding changes to or from nothing of others. -/
theorem ActsOwn.bindSem (h : ActsOwn p k k') {o : Option ℕ}
    (hname : ∀ id, k.semNames name = some id → OwnedBy PosixSem.creator p (k.sems id)) :
    ActsOwn p k (k'.bindSem name o) := by
  refine ⟨h.sems, h.semSets, h.mqs, h.msgQs, fun name' => ?_, h.mqNames⟩
  by_cases hn : name' = name
  · subst hn
    exact .inr hname
  · have heq : (k'.bindSem name o).semNames name' = k'.semNames name' :=
      Function.update_of_ne hn _ _
    rw [heq]
    exact h.semNames name'

/-- A binding changes to or from nothing of others. -/
theorem ActsOwn.bindMq (h : ActsOwn p k k') {o : Option ℕ}
    (hname : ∀ id, k.mqNames name = some id → OwnedBy PosixMq.creator p (k.mqs id)) :
    ActsOwn p k (k'.bindMq name o) := by
  refine ⟨h.sems, h.semSets, h.mqs, h.msgQs, h.semNames, fun name' => ?_⟩
  by_cases hn : name' = name
  · subst hn
    exact .inr hname
  · have heq : (k'.bindMq name o).mqNames name' = k'.mqNames name' :=
      Function.update_of_ne hn _ _
    rw [heq]
    exact h.mqNames name'

/-- `sem_wait` on an own semaphore. -/
theorem ActsOwn.semWait (h : OwnedBy PosixSem.creator p (k.sems id))
    (hs : k.semWait id = some (ok, k')) : ActsOwn p k k' := by
  rcases semWait_cases hs with ⟨-, rfl, -⟩ | ⟨s, hsem, -, -, rfl⟩
  · exact .refl p k'
  · exact .setSem h (h s hsem)

/-- `sem_post` on an own semaphore. -/
theorem ActsOwn.semPost (h : OwnedBy PosixSem.creator p (k.sems id))
    (hs : k.semPost id = some (ok, k')) : ActsOwn p k k' := by
  rcases semPost_cases hs with ⟨-, rfl, -⟩ | ⟨s, hsem, -, -, rfl⟩
  · exact .refl p k'
  · exact .setSem h (h s hsem)

/-- `semctl(SETVAL)` on an own set. -/
theorem ActsOwn.semctlSetval (h : OwnedBy SysvSem.creator p (k.semSets id)) (val : ℤ) :
    ActsOwn p k (k.semctlSetval id val).2 := by
  unfold Kernel.semctlSetval
  split
  · exact .refl p k
  · rename_i s hsem
    exact .setSemSet h (.some (h s hsem))

/-- `semctl(IPC_RMID)` on an own set. -/
theorem ActsOwn.semctlRmid (h : OwnedBy SysvSem.creator p (k.semSets id)) :
    ActsOwn p k (k.semctlRmid id).2 := by
  unfold Kernel.semctlRmid
  split
  · exact .refl p k
  · have hset := ActsOwn.setSemSet (k := k) h .none
    exact ⟨hset.sems, hset.semSets, hset.mqs, hset.msgQs, hset.semNames, hset.mqNames⟩

/-- `semop` on an own set. -/
theorem ActsOwn.semop [DecidableEq P] {op : ℤ} (h : OwnedBy SysvSem.creator p (k.semSets id))
    (hs : k.semop p op id = some (ok, k')) : ActsOwn p k k' := by
  rcases semop_cases hs with ⟨-, rfl, -⟩ | ⟨s, hsem, -, -, rfl⟩
  · exact .refl p k'
  · exact .setSemSet h (.some (h s hsem))

/-- `mq_send` on an own queue. -/
theorem ActsOwn.mqSend {len : ℕ} (h : OwnedBy PosixMq.creator p (k.mqs id))
    (hs : k.mqSend id len = some (ok, k')) : ActsOwn p k k' := by
  rcases mqSend_cases hs with ⟨-, rfl, -⟩ | ⟨q, hq, -, -, rfl⟩
  · exact .refl p k'
  · exact .setMq h (h q hq)

/-- `mq_receive` on an own queue. -/
theorem ActsOwn.mqReceive {len : ℕ} (h : OwnedBy PosixMq.creator p (k.mqs id))
    (hs : k.mqReceive id len = some (ok, k')) : ActsOwn p k k' := by
  rcases mqReceive_cases hs with ⟨-, rfl, -⟩ | ⟨q, _, _, hq, -, -, rfl⟩
  · exact .refl p k'
  · exact .setMq h (h q hq)

/-- `msgsnd` on an own queue. -/
theorem ActsOwn.msgsnd {mtype : ℤ} {size : ℕ} (h : OwnedBy SysvMq.creator p (k.msgQs id))
    (hs : k.msgsnd id mtype size = some (ok, k')) : ActsOwn p k k' := by
  rcases msgsnd_cases hs with ⟨-, rfl, -⟩ | ⟨q, hq, -, rfl⟩
  · exact .refl p k'
  · exact .setMsgQ h (.some (h q hq))

/-- `msgrcv` on an own queue. -/
theorem ActsOwn.msgrcv {size : ℕ} {r : Option ℤ} (h : OwnedBy SysvMq.creator p (k.msgQs id))
    (hs : k.msgrcv id size = some (r, k')) : ActsOwn p k k' := by
  rcases msgrcv_cases hs with ⟨-, rfl, -⟩ | ⟨q, _, _, hq, -, -, rfl⟩
  · exact .refl p k'
  · exact .setMsgQ h (.some (h q hq))

/-- `msgctl(IPC_RMID)` on an own queue. -/
theorem ActsOwn.msgctlRmid (h : OwnedBy SysvMq.creator p (k.msgQs id)) :
    ActsOwn p k (k.msgctlRmid id).2 := by
  unfold Kernel.msgctlRmid
  split
  · exact .refl p k
  · exact .setMsgQ h .none

/-- `sem_unlink` of a name bound to an own semaphore. -/
theorem ActsOwn.semUnlink
    (h : ∀ id, k.semNames name = some id → OwnedBy PosixSem.creator p (k.sems id)) :
    ActsOwn p k (k.semUnlink name).2 := by
  unfold Kernel.semUnlink
  split
  · exact .refl p k
  · exact (ActsOwn.refl p k).bindSem h

/-- `mq_unlink` of a name bound to an own queue. -/
theorem ActsOwn.mqUnlink
    (h : ∀ id, k.mqNames name = some id → OwnedBy PosixMq.creator p (k.mqs id)) :
    ActsOwn p k (k.mqUnlink name).2 := by
  unfold Kernel.mqUnlink
  split
  · exact .refl p k
  · exact (ActsOwn.refl p k).bindMq h

end Kernel
