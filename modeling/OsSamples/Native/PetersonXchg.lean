import OsSamples.Lib.SerialMemory
import OsSamples.Lib.Threads
import OsSamples.Lib.Tso
import OsSamples.Native.Peterson

/-!
# `Peterson_xchg.h` and `Peterson_xchg_sched.h` on x86

`Peterson_wait` and `Peterson_post` instruction by instruction over store buffers: the two `xchg`
of the inline assembler, the loads of the waiting loop, and the plain store in `Peterson_post`.
Between the two functions a thread loads and stores shared locations `L` as it likes.

The operands `true` and `!self` of the assembler are taken to be in different registers.
-/

namespace PetersonXchg

open Peterson (tidInt)

/-- What is in memory: the variables of the header, and the locations that it protects. -/
inductive Addr (L : Type*)
  | flag (i : Bool)
  | turn
  | data (l : L)
  deriving DecidableEq

/-- Where a thread is: before an instruction of `Peterson_wait`, in the body of its loop, or past
    its return and before the store of `Peterson_post`. -/
inductive Pc
  | xchgFlag
  | xchgTurn
  | loadFlag
  | loadTurn
  | yield
  | critical
  deriving DecidableEq

/-- What happens next to a thread: the next instruction of the header, an access of the critical
    section's body, or a buffered store that reaches memory. -/
inductive Choice (L : Type*)
  | next
  | load (l : L)
  | store (l : L) (v : ℤ)
  | drain
  deriving DecidableEq

variable {L : Type*} [DecidableEq L]

/-- The next step of thread `self`; `yields` says whether the loop body is `sched_yield()`. -/
def threadStep (yields : Bool) (self : Bool) (choice : Choice L) (s : Tso Bool (Addr L) ℤ)
    (pc : Pc) : Option (Option (AccessEvent Bool L ℤ) × Tso Bool (Addr L) ℤ × Pc) :=
  match choice, pc with
  | .drain, pc => (s.drain self).map fun s' => (none, s', pc)
  | .next, .xchgFlag => (s.xchg self (.flag self) 1).map fun r => (none, r.2, .xchgTurn)
  | .next, .xchgTurn => (s.xchg self .turn (tidInt (!self))).map fun r => (none, r.2, .loadFlag)
  | .next, .loadFlag =>
    if s.load self (.flag (!self)) ≠ 0 then some (none, s, .loadTurn)
    else some (some (.enter self), s, .critical)
  | .next, .loadTurn =>
    if s.load self .turn ≠ tidInt self then some (none, s, if yields then .yield else .loadFlag)
    else some (some (.enter self), s, .critical)
  | .next, .yield => some (none, s, .loadFlag)
  | .next, .critical => some (some (.exit self), s.store self (.flag self) 0, .xchgFlag)
  | .load l, .critical => some (some (.load self l (s.load self (.data l))), s, .critical)
  | .store l v, .critical => some (some (.store self l v), s.store self (.data l) v, .critical)
  | .load _, _ | .store _ _, _ => none

/-- The two threads and their store buffers. -/
def machine (yields : Bool) :
    Machine (Config Bool (Tso Bool (Addr L) ℤ) Pc) (Bool × Choice L) (AccessEvent Bool L ℤ) :=
  Threads.machine (threadStep yields)

/-- After `Peterson_init`, with `turn` and the protected locations holding anything. -/
def initial (turn : ℤ) (m₀ : L → ℤ) : Config Bool (Tso Bool (Addr L) ℤ) Pc where
  shared :=
    { mem := fun a => match a with
        | .flag _ => 0
        | .turn => turn
        | .data l => m₀ l
      buf := fun _ => [] }
  loc := fun _ => .xchgFlag

end PetersonXchg
