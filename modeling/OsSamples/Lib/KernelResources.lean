import OsSamples.Lib.Kernel

/-!
# What stays in the kernel when a process has ended

System V objects and names of POSIX objects stay until somebody removes them, other than the
handles of a process.  `k.Has r` says that `r` is there; `SameResources k k'` that the same
resources are there in both kernels.

## Key results

- `SameResources.semWait`, …: only the calls that create or remove a resource change what is there
- `semOpen_excl_has`, `semgetPrivate_has`, `mqOpen_has`, `msggetPrivate_has`: the calls that create
  one
- `semUnlink_has`, `semctlRmid_has`, `mqUnlink_has`, `msgctlRmid_has`: the calls that remove one
-/

/-- What stays in the kernel until it is removed. -/
inductive Resource
  | semSet (id : ℕ)
  | msgQ (id : ℕ)
  | semName (name : String)
  | mqName (name : String)
  deriving DecidableEq

namespace Kernel

variable {P : Type*} {k k' : Kernel P} {id : ℕ} {ok : Bool} {r : Resource}

/-- The resource is there. -/
def Has (k : Kernel P) : Resource → Prop
  | .semSet id => k.semSets id ≠ none
  | .msgQ id => k.msgQs id ≠ none
  | .semName name => k.semNames name ≠ none
  | .mqName name => k.mqNames name ≠ none

/-- The same resources are there. -/
def SameResources (k k' : Kernel P) : Prop := ∀ r, k'.Has r ↔ k.Has r

theorem SameResources.refl (k : Kernel P) : SameResources k k := fun _ => .rfl

/-! ### Calls on an object -/

/-- An object that is there is written. -/
theorem update_ne_none {O : Type*} {table : ℕ → Option O} (o : O) (hid : table id ≠ none)
    (id' : ℕ) : Function.update table id (some o) id' ≠ none ↔ table id' ≠ none := by
  by_cases h : id' = id
  · subst h
    rw [Function.update_self]
    exact iff_of_true nofun hid
  · rw [Function.update_of_ne h]

theorem SameResources.setSemSet (s : SysvSem P) (hid : k.semSets id ≠ none) :
    SameResources k (k.setSemSet id (some s))
  | .semSet id' => update_ne_none s hid id'
  | .msgQ _ | .semName _ | .mqName _ => .rfl

theorem SameResources.setMsgQ (q : SysvMq P) (hid : k.msgQs id ≠ none) :
    SameResources k (k.setMsgQ id (some q))
  | .msgQ id' => update_ne_none q hid id'
  | .semSet _ | .semName _ | .mqName _ => .rfl

theorem SameResources.setSem (s : PosixSem P) : SameResources k (k.setSem id s)
  | .semSet _ | .msgQ _ | .semName _ | .mqName _ => .rfl

theorem SameResources.setMq (q : PosixMq P) : SameResources k (k.setMq id q)
  | .semSet _ | .msgQ _ | .semName _ | .mqName _ => .rfl

theorem SameResources.semWait (hs : k.semWait id = some (ok, k')) : SameResources k k' := by
  rcases semWait_cases hs with ⟨-, rfl, -⟩ | ⟨s, -, -, -, rfl⟩
  · exact .refl k'
  · exact .setSem _

theorem SameResources.semPost (hs : k.semPost id = some (ok, k')) : SameResources k k' := by
  rcases semPost_cases hs with ⟨-, rfl, -⟩ | ⟨s, -, -, -, rfl⟩
  · exact .refl k'
  · exact .setSem _

theorem SameResources.semop [DecidableEq P] {p : P} {op : ℤ}
    (hs : k.semop p op id = some (ok, k')) : SameResources k k' := by
  rcases semop_cases hs with ⟨-, rfl, -⟩ | ⟨s, hset, -, -, rfl⟩
  · exact .refl k'
  · exact .setSemSet _ (by rw [hset]; exact nofun)

theorem SameResources.semctlSetval (id : ℕ) (val : ℤ) :
    SameResources k (k.semctlSetval id val).2 := by
  unfold Kernel.semctlSetval
  split
  · exact .refl k
  · rename_i s hset
    exact .setSemSet _ (by rw [hset]; exact nofun)

theorem SameResources.mqSend {len : ℕ} (hs : k.mqSend id len = some (ok, k')) :
    SameResources k k' := by
  rcases mqSend_cases hs with ⟨-, rfl, -⟩ | ⟨q, -, -, -, rfl⟩
  · exact .refl k'
  · exact .setMq _

theorem SameResources.mqReceive {len : ℕ} (hs : k.mqReceive id len = some (ok, k')) :
    SameResources k k' := by
  rcases mqReceive_cases hs with ⟨-, rfl, -⟩ | ⟨q, _, _, -, -, -, rfl⟩
  · exact .refl k'
  · exact .setMq _

theorem SameResources.msgsnd {mtype : ℤ} {size : ℕ} (hs : k.msgsnd id mtype size = some (ok, k')) :
    SameResources k k' := by
  rcases msgsnd_cases hs with ⟨-, rfl, -⟩ | ⟨q, hq, -, rfl⟩
  · exact .refl k'
  · exact .setMsgQ _ (by rw [hq]; exact nofun)

theorem SameResources.msgrcv {size : ℕ} {m : Option ℤ} (hs : k.msgrcv id size = some (m, k')) :
    SameResources k k' := by
  rcases msgrcv_cases hs with ⟨-, rfl, -⟩ | ⟨q, _, _, hq, -, -, rfl⟩
  · exact .refl k'
  · exact .setMsgQ _ (by rw [hq]; exact nofun)

/-- A process that ends leaves everything there. -/
theorem SameResources.exitProcess [DecidableEq P] (p : P) : SameResources k (k.exitProcess p)
  | .semSet id => by
    show (k.semSets id).map (undoSem p) ≠ none ↔ k.semSets id ≠ none
    rw [ne_eq, Option.map_eq_none_iff]
  | .msgQ _ | .semName _ | .mqName _ => .rfl

/-! ### Calls that create a resource -/

/-- With `O_CREAT | O_EXCL`. -/
theorem semOpen_excl_has {name : String} {value : ℕ} {p : P} {fresh : ℕ} {h : Option ℕ}
    (hs : k.semOpen true name value p fresh = some (h, k')) :
    h = none ∨ (∃ id, h = some id) ∧ k'.Has (.semName name) := by
  rcases semOpen_excl_cases hs with ⟨rfl, -, -⟩ | ⟨rfl, -, -, rfl⟩
  · exact .inl rfl
  · exact .inr ⟨⟨_, rfl⟩, by simp [Has, bindSem]⟩

theorem mqOpen_has {name : String} {maxmsg msgsize : ℕ} {p : P} {fresh : ℕ} {h : Option ℕ}
    (hs : k.mqOpen name maxmsg msgsize p fresh = some (h, k')) :
    h = none ∨ (∃ id, h = some id) ∧ k'.Has (.mqName name) := by
  rcases mqOpen_cases hs with ⟨rfl, -, -⟩ | ⟨rfl, -, -, rfl⟩
  · exact .inl rfl
  · exact .inr ⟨⟨_, rfl⟩, by simp [Has, bindMq]⟩

theorem semgetPrivate_has {p : P} {fresh : ℕ} {h : Option ℕ}
    (hs : k.semgetPrivate p fresh = some (h, k')) : ∃ id, h = some id ∧ k'.Has (.semSet id) := by
  obtain ⟨rfl, -, rfl⟩ := semgetPrivate_cases hs
  exact ⟨_, rfl, by simp [Has]⟩

theorem msggetPrivate_has {p : P} {fresh : ℕ} {h : Option ℕ}
    (hs : k.msggetPrivate p fresh = some (h, k')) : ∃ id, h = some id ∧ k'.Has (.msgQ id) := by
  obtain ⟨rfl, -, rfl⟩ := msggetPrivate_cases hs
  exact ⟨_, rfl, by simp [Has]⟩

/-! ### Calls that remove a resource -/

/-- A removal that fails leaves the kernel as it was. -/
theorem mqUnlink_fail {name : String} (h : (k.mqUnlink name).1 = false) :
    (k.mqUnlink name).2 = k := by
  unfold Kernel.mqUnlink at h ⊢
  split at h
  · rfl
  · exact nomatch h

theorem semctlRmid_fail (h : (k.semctlRmid id).1 = false) : (k.semctlRmid id).2 = k := by
  unfold Kernel.semctlRmid at h ⊢
  split at h
  · rfl
  · exact nomatch h

theorem msgctlRmid_fail (h : (k.msgctlRmid id).1 = false) : (k.msgctlRmid id).2 = k := by
  unfold Kernel.msgctlRmid at h ⊢
  split at h
  · rfl
  · exact nomatch h

/-- An entry of a table is cleared. -/
theorem update_none_ne_none {K O : Type*} [DecidableEq K] {table : K → Option O} {key key' : K} :
    Function.update table key none key' ≠ none ↔ table key' ≠ none ∧ key' ≠ key := by
  by_cases h : key' = key
  · subst h
    simp
  · simp [h]

theorem semUnlink_has (name : String) :
    (k.semUnlink name).2.Has r ↔ k.Has r ∧ r ≠ .semName name := by
  unfold Kernel.semUnlink
  split <;> rename_i hname
  · refine ⟨fun hr => ⟨hr, ?_⟩, And.left⟩
    rintro rfl
    exact hr hname
  · cases r <;> simp [Has, bindSem, update_none_ne_none]

theorem mqUnlink_has (name : String) :
    (k.mqUnlink name).2.Has r ↔ k.Has r ∧ r ≠ .mqName name := by
  unfold Kernel.mqUnlink
  split <;> rename_i hname
  · refine ⟨fun hr => ⟨hr, ?_⟩, And.left⟩
    rintro rfl
    exact hr hname
  · cases r <;> simp [Has, bindMq, update_none_ne_none]

theorem semctlRmid_has (id : ℕ) : (k.semctlRmid id).2.Has r ↔ k.Has r ∧ r ≠ .semSet id := by
  unfold Kernel.semctlRmid
  split <;> rename_i hset
  · refine ⟨fun hr => ⟨hr, ?_⟩, And.left⟩
    rintro rfl
    exact hr hset
  · cases r <;> simp [Has, Kernel.setSemSet, update_none_ne_none]

theorem msgctlRmid_has (id : ℕ) : (k.msgctlRmid id).2.Has r ↔ k.Has r ∧ r ≠ .msgQ id := by
  unfold Kernel.msgctlRmid
  split <;> rename_i hq
  · refine ⟨fun hr => ⟨hr, ?_⟩, And.left⟩
    rintro rfl
    exact hr hq
  · cases r <;> simp [Has, Kernel.setMsgQ, update_none_ne_none]

end Kernel
