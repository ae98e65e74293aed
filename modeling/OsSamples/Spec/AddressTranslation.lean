import Mathlib.Tactic.IntervalCases
import Mathlib.Tactic.NormNum
import OsSamples.Lib.Loop
import OsSamples.Native.AddressTranslation

/-!
# The options and the page number of the address translation

`eval_args` checks what is left of a number in 8 bits, so that it accepts what agrees with an
allowed value modulo 256; and it does not check the limit of the frame size at all.  `page2frame`
admits more bits than a shift of `int` does.

## Key results

- `evalArgs_isOk`, `evalArgs_fields`: which command lines are accepted, and what is stored
- `evalArgs_correct_iff`: for which command lines these are the numbers given
- `page2frame_correct_iff`: for which numbers of bits the page number is compared with the right
  bound
-/

namespace AddressTranslation

open CInt

variable {args : List Opt} {g g' : Globals} {a : Opt}

/-! ## The arguments -/

/-- The argument of `-o`. -/
def Opt.oArg : Opt → Option ℤ
  | .o arg => some arg
  | _ => none

/-- The argument of `-e`. -/
def Opt.eArg : Opt → Option ℤ
  | .e arg => some arg
  | _ => none

/-- The argument of `-f`. -/
def Opt.fArg : Opt → Option ℤ
  | .f arg => some arg
  | _ => none

/-- The last argument of an option; `none` if the option is not given. -/
def lastArg (arg : Opt → Option ℤ) (args : List Opt) : Option ℤ := (args.filterMap arg).getLast?

/-- The numbers of offset bits that are allowed. -/
def ValidOffset (n : ℤ) : Prop := 4 ≤ n ∧ n ≤ LINEAR_ADDRESS_SIZE

/-- The sizes of a page table entry that are allowed. -/
def ValidEntry (n : ℤ) : Prop := n = 32 ∨ n = 64

/-- The option may be given: its argument is allowed, and it does not end the program. -/
def Opt.Valid : Opt → Prop
  | .o arg => ValidOffset arg
  | .e arg => ValidEntry arg
  | .f _ | .t _ | .q | .v => True
  | .h | .unknown _ => False

/-- What is left of a number in a variable with 8 bits. -/
def narrow (n : ℤ) : UInt8 := toUInt8 (strtol n)

/-- As `Valid`, for what is left of the argument. -/
def Opt.Passes : Opt → Prop
  | .o arg => ValidOffset (narrow arg).toNat
  | .e arg => ValidEntry (narrow arg).toNat
  | .f _ | .t _ | .q | .v => True
  | .h | .unknown _ => False

/-- A number that fits is stored as it is, and no other. -/
theorem narrow_eq_self {n : ℤ} : ((narrow n).toNat : ℤ) = n ↔ 0 ≤ n ∧ n < 256 := by
  constructor
  · intro h
    have hlt := (narrow n).toNat_lt
    omega
  · intro h
    have hlong : strtol n = n :=
      strtol_of_range (by unfold INT_MIN; omega) (by unfold INT_MAX; omega)
    unfold narrow
    rw [hlong]
    exact toNat_toUInt8_eq_self.mpr h

theorem ValidOffset.narrow {n : ℤ} (h : ValidOffset n) : ((narrow n).toNat : ℤ) = n := by
  unfold ValidOffset LINEAR_ADDRESS_SIZE at h
  apply narrow_eq_self.mpr
  omega

theorem ValidEntry.narrow {n : ℤ} (h : ValidEntry n) : ((narrow n).toNat : ℤ) = n := by
  unfold ValidEntry at h
  apply narrow_eq_self.mpr
  omega

/-- An allowed argument is still allowed when it has been stored. -/
theorem Opt.Valid.passes (h : a.Valid) : a.Passes := by
  cases a with
  | o arg =>
    show ValidOffset (narrow arg).toNat
    rw [ValidOffset.narrow h]
    exact h
  | e arg =>
    show ValidEntry (narrow arg).toNat
    rw [ValidEntry.narrow h]
    exact h
  | f | t | q | v | h | unknown => exact h

/-! ## The loop over the options -/

/-- The sizes that the loop leaves. -/
structure SizesOk (g : Globals) : Prop where
  offset : ValidOffset g.offsetSize.toNat
  entry : ValidEntry g.pageTableEntrySize.toNat

/-- A check that ends the program. -/
theorem exists_ite_ok {c : Prop} [Decidable c] {x : Exit} :
    (∃ g', (if c then Except.ok g else Except.error x) = .ok g') ↔ c := by
  by_cases hc : c
  · simp [hc]
  · simp [hc]

/-- The two sizes that pass the check of `-e`. -/
theorem validEntry_toNat {n : UInt8} : ValidEntry n.toNat ↔ n = 32 ∨ n = 64 := by
  unfold ValidEntry
  rw [← UInt8.toNat_inj, ← UInt8.toNat_inj]
  show ((n.toNat : ℤ) = 32 ∨ (n.toNat : ℤ) = 64) ↔ (n.toNat = 32 ∨ n.toNat = 64)
  omega

/-- An option is accepted when what is left of its argument is allowed. -/
theorem evalOption_isOk (g : Globals) (a : Opt) : (∃ g', evalOption g a = .ok g') ↔ a.Passes := by
  cases a with
  | o arg =>
    simp only [evalOption]
    rw [← ite_not, exists_ite_ok]
    show _ ↔ 4 ≤ ((narrow arg).toNat : ℤ) ∧ ((narrow arg).toNat : ℤ) ≤ LINEAR_ADDRESS_SIZE
    unfold narrow
    omega
  | e arg =>
    simp only [evalOption]
    rw [exists_ite_ok]
    exact validEntry_toNat.symm
  | f | t | q | v => exact iff_of_true ⟨_, rfl⟩ trivial
  | h | unknown => exact iff_of_false (fun ⟨_, h⟩ => nomatch h) not_false

/-- An accepted option: which variables it sets. -/
theorem evalOption_fields (h : evalOption g a = .ok g') :
    g'.offsetSize = (a.oArg.map narrow).getD g.offsetSize ∧
      g'.pageTableEntrySize = (a.eArg.map narrow).getD g.pageTableEntrySize ∧
      g'.frameSizeLimit = (a.fArg.map narrow).getD g.frameSizeLimit := by
  cases a with
  | o arg | e arg =>
    simp only [evalOption] at h
    split at h <;> cases h
    exact ⟨rfl, rfl, rfl⟩
  | f | t | q | v =>
    cases h
    exact ⟨rfl, rfl, rfl⟩
  | h | unknown => exact nomatch h

/-- An accepted option leaves sizes that are allowed. -/
theorem SizesOk.evalOption (h : SizesOk g) (hs : evalOption g a = .ok g') : SizesOk g' := by
  have hpasses := (evalOption_isOk g a).mp ⟨g', hs⟩
  obtain ⟨hoffset, hentry, -⟩ := evalOption_fields hs
  cases a with
  | o arg => exact ⟨hoffset ▸ hpasses, hentry ▸ h.entry⟩
  | e arg => exact ⟨hoffset ▸ h.offset, hentry ▸ hpasses⟩
  | f | t | q | v | h | unknown => exact ⟨hoffset ▸ h.offset, hentry ▸ h.entry⟩

/-- The sizes after the loop. -/
theorem sizesOk_of_foldlM (h : args.foldlM evalOption {} = .ok g) : SizesOk g := by
  have hstep : ∀ g a, SizesOk g → Outcome (fun _ => True) SizesOk (evalOption g a) := by
    intro g a hg
    cases hs : evalOption g a with
    | error e => exact .error trivial
    | ok g' => exact .ok (hg.evalOption hs)
  have hinitial : SizesOk {} := by
    constructor
    · unfold ValidOffset
      decide
    · unfold ValidEntry
      decide
  have hloop := foldlM_outcome hstep args hinitial
  rw [h] at hloop
  cases hloop with
  | ok hg => exact hg

/-- The frame size, without wrapping around: an offset is never larger than an entry. -/
theorem setFrame_frameSize (h : SizesOk g) :
    ((setFrame g).frameSize.toNat : ℤ) =
      min (g.frameSizeLimit.toNat : ℤ) (g.pageTableEntrySize.toNat - g.offsetSize.toNat) := by
  have hoffset := h.offset
  have hentry := h.entry
  unfold ValidOffset LINEAR_ADDRESS_SIZE at hoffset
  unfold ValidEntry at hentry
  -- the subtraction of bytes does not wrap around for sizes that are allowed
  have hsub : (g.pageTableEntrySize - g.offsetSize).toNat =
      g.pageTableEntrySize.toNat - g.offsetSize.toNat := by
    apply UInt8.toNat_sub_of_le
    rw [UInt8.le_iff_toNat_le]
    omega
  unfold setFrame
  dsimp only
  -- the smaller one of the two numbers of bits is taken
  split
  · rename_i hgt
    have hgt' := UInt8.lt_iff_toNat_lt.mp hgt
    show (g.frameSizeLimit.toNat : ℤ) = _
    omega
  · rename_i hle
    have hle' : ¬ g.frameSizeLimit.toNat < (g.pageTableEntrySize - g.offsetSize).toNat :=
      fun hlt => hle (UInt8.lt_iff_toNat_lt.mpr hlt)
    show ((g.pageTableEntrySize - g.offsetSize).toNat : ℤ) = _
    omega

/-- A command line is accepted when what is left of its arguments is allowed. -/
theorem evalArgs_isOk : (∃ g, evalArgs args = .ok g) ↔ ∀ a ∈ args, a.Passes := by
  rw [← foldlM_isOk evalOption_isOk args {}]
  unfold evalArgs
  cases args.foldlM evalOption {} with
  | error e => simp [bind, Except.bind]
  | ok g => simp [bind, Except.bind, pure, Except.pure]

/-- What an accepted command line leaves in the variables. -/
theorem evalArgs_fields (h : evalArgs args = .ok g) :
    g.offsetSize = ((lastArg Opt.oArg args).map narrow).getD DEFAULT_OFFSET_SIZE ∧
      g.pageTableEntrySize =
        ((lastArg Opt.eArg args).map narrow).getD DEFAULT_PAGE_TABLE_ENTRY_SIZE ∧
      g.frameSizeLimit = ((lastArg Opt.fArg args).map narrow).getD 64 ∧
      g.frameStartBit = g.offsetSize ∧
      (g.frameSize.toNat : ℤ) =
        min (g.frameSizeLimit.toNat : ℤ) (g.pageTableEntrySize.toNat - g.offsetSize.toNat) := by
  unfold evalArgs at h
  cases hloop : args.foldlM evalOption {} with
  | error e =>
    rw [hloop] at h
    exact nomatch h
  | ok g₁ =>
    rw [hloop] at h
    obtain rfl := Except.ok.inj h
    -- each field is set by one kind of option
    have hsetOffset : ∀ a ∈ args, ∀ s s', evalOption s a = .ok s' →
        s'.offsetSize = (a.oArg.map narrow).getD s.offsetSize :=
      fun a _ s s' hs => (evalOption_fields hs).1
    have hsetEntry : ∀ a ∈ args, ∀ s s', evalOption s a = .ok s' →
        s'.pageTableEntrySize = (a.eArg.map narrow).getD s.pageTableEntrySize :=
      fun a _ s s' hs => (evalOption_fields hs).2.1
    have hsetLimit : ∀ a ∈ args, ∀ s s', evalOption s a = .ok s' →
        s'.frameSizeLimit = (a.fArg.map narrow).getD s.frameSizeLimit :=
      fun a _ s s' hs => (evalOption_fields hs).2.2
    have hoffset := foldlM_field (fun g : Globals => g.offsetSize) hsetOffset hloop
    have hentry := foldlM_field (fun g : Globals => g.pageTableEntrySize) hsetEntry hloop
    have hlimit := foldlM_field (fun g : Globals => g.frameSizeLimit) hsetLimit hloop
    rw [← List.map_filterMap, List.getLast?_map] at hoffset hentry hlimit
    have hsize := setFrame_frameSize (sizesOk_of_foldlM hloop)
    -- the rest of `eval_args` leaves the three options as they are
    have hrest : (setFrame g₁).offsetSize = g₁.offsetSize ∧
        (setFrame g₁).pageTableEntrySize = g₁.pageTableEntrySize ∧
        (setFrame g₁).frameSizeLimit = g₁.frameSizeLimit ∧
        (setFrame g₁).frameStartBit = g₁.offsetSize := by
      unfold setFrame
      dsimp only
      split <;> exact ⟨rfl, rfl, rfl, rfl⟩
    obtain ⟨ho, he, hf, hstart⟩ := hrest
    rw [ho, he, hf, hstart]
    exact ⟨hoffset, hentry, hlimit, rfl, hsize⟩

/-! ## Main results -/

/-- What is to hold of a command line: it is accepted when its arguments are allowed; and what is
    stored then are the numbers given last, or the defaults, and the sizes that follow from them. -/
structure OptionsOk (args : List Opt) : Prop where
  accepted : (∃ g, evalArgs args = .ok g) ↔ ∀ a ∈ args, a.Valid
  offsetSize : ∀ g, evalArgs args = .ok g →
    (g.offsetSize.toNat : ℤ) = (lastArg Opt.oArg args).getD DEFAULT_OFFSET_SIZE.toNat
  entrySize : ∀ g, evalArgs args = .ok g →
    (g.pageTableEntrySize.toNat : ℤ) =
      (lastArg Opt.eArg args).getD DEFAULT_PAGE_TABLE_ENTRY_SIZE.toNat
  frameSizeLimit : ∀ g, evalArgs args = .ok g →
    (g.frameSizeLimit.toNat : ℤ) = (lastArg Opt.fArg args).getD 64
  frameStartBit : ∀ g, evalArgs args = .ok g → g.frameStartBit = g.offsetSize
  frameSize : ∀ g, evalArgs args = .ok g → (g.frameSize.toNat : ℤ) =
    min (g.frameSizeLimit.toNat : ℤ) (g.pageTableEntrySize.toNat - g.offsetSize.toNat)

/-- The last argument of an option is the argument of one of the options. -/
theorem mem_of_lastArg {arg : Opt → Option ℤ} {n : ℤ} (h : lastArg arg args = some n) :
    ∃ a ∈ args, arg a = some n :=
  List.mem_filterMap.mp (List.mem_of_getLast? h)

/-- A variable holds the last number given, where that fits. -/
theorem getD_narrow {last : Option ℤ} {default : UInt8}
    (h : ∀ n, last = some n → ((narrow n).toNat : ℤ) = n) :
    (((last.map narrow).getD default).toNat : ℤ) = last.getD default.toNat := by
  cases last with
  | none => rfl
  | some n => exact h n rfl

/-- For every command line: `eval_args` does as it should if and only if its arguments are allowed
    and the last limit fits into 8 bits, or one of the arguments is rejected even for what is left
    of it in 8 bits. -/
theorem evalArgs_correct_iff (args : List Opt) :
    OptionsOk args ↔
      ((∀ a ∈ args, a.Valid) ∧ ∀ n, lastArg Opt.fArg args = some n → 0 ≤ n ∧ n < 256) ∨
        ∃ a ∈ args, ¬ a.Passes := by
  constructor
  · intro h
    by_cases hok : ∃ g, evalArgs args = .ok g
    · left
      refine ⟨h.accepted.mp hok, fun n hn => ?_⟩
      obtain ⟨g, hg⟩ := hok
      have hlimit := h.frameSizeLimit g hg
      rw [(evalArgs_fields hg).2.2.1, hn] at hlimit
      exact narrow_eq_self.mp hlimit
    · right
      rw [evalArgs_isOk] at hok
      simpa using hok
  · intro h
    by_cases hok : ∃ g, evalArgs args = .ok g
    · have hpasses := evalArgs_isOk.mp hok
      cases h with
      | inr h =>
        obtain ⟨a, ha, hnot⟩ := h
        exact absurd (hpasses a ha) hnot
      | inl h =>
        obtain ⟨hvalid, hlimit⟩ := h
        refine ⟨iff_of_true hok hvalid, fun g hg => ?_, fun g hg => ?_, fun g hg => ?_,
          fun g hg => (evalArgs_fields hg).2.2.2.1, fun g hg => (evalArgs_fields hg).2.2.2.2⟩
        · rw [(evalArgs_fields hg).1]
          apply getD_narrow
          intro n hn
          obtain ⟨a, ha, harg⟩ := mem_of_lastArg hn
          cases a with
          | o arg => exact Option.some.inj harg ▸ ValidOffset.narrow (hvalid _ ha)
          | _ => exact nomatch harg
        · rw [(evalArgs_fields hg).2.1]
          apply getD_narrow
          intro n hn
          obtain ⟨a, ha, harg⟩ := mem_of_lastArg hn
          cases a with
          | e arg => exact Option.some.inj harg ▸ ValidEntry.narrow (hvalid _ ha)
          | _ => exact nomatch harg
        · rw [(evalArgs_fields hg).2.2.1]
          apply getD_narrow
          intro n hn
          exact narrow_eq_self.mpr (hlimit n hn)
    · -- nothing is stored, and the arguments are not allowed
      have hnot : ¬ ∀ a ∈ args, a.Valid :=
        fun hvalid => hok (evalArgs_isOk.mpr fun a ha => (hvalid a ha).passes)
      have hnone : ∀ g, evalArgs args ≠ .ok g := fun g hg => hok ⟨g, hg⟩
      exact ⟨iff_of_false hok hnot, fun g hg => absurd hg (hnone g),
        fun g hg => absurd hg (hnone g),
        fun g hg => absurd hg (hnone g), fun g hg => absurd hg (hnone g),
        fun g hg => absurd hg (hnone g)⟩

/-- 268 offset bits are taken for 12, and a limit of 256 bits for none. -/
theorem narrowed_accepted : ¬ OptionsOk [.o 268] ∧ ¬ OptionsOk [.f 256] := by
  constructor
  · intro h
    have hvalid := h.accepted.mp ⟨_, rfl⟩ _ (List.mem_singleton_self _)
    exact absurd hvalid.2 (by decide)
  · intro h
    exact absurd (h.frameSizeLimit _ rfl) (by decide)

/-- What is to hold of the check of the page number: the comparison is defined, and the page number
    is rejected when it does not fit into `pageBits` bits. -/
def PageOk (dialect : Dialect) (page : UInt32) (pageBits : UInt8) : Prop :=
  (page2frame dialect page pageBits).isSome ∧
    (page2frame dialect page pageBits = some INVALID_PAGE_NUMBER ↔
      2 ^ pageBits.toNat ≤ page.toNat)

/-- The bound is a power of two up to 30 bits, and with 31 bits the sign bit. -/
theorem shiftLeft_one {dialect : Dialect} {n : ℕ} :
    shiftLeft dialect 1 n =
      if n ≤ 30 then some (2 ^ n)
      else if n = 31 ∧ dialect = .gnu then some INT_MIN else none := by
  unfold shiftLeft
  by_cases h32 : n ≥ 32
  · rw [if_pos h32, if_neg (by omega), if_neg (by omega)]
  · rw [if_neg h32]
    have hle : n ≤ 31 := by omega
    cases dialect <;> interval_cases n <;> decide

/-- The comparison with a bound that is `2 ^ n` when it has been converted. -/
theorem compare_correct {page : UInt32} {bound : ℤ} {n : ℕ}
    (h : toUInt32 bound = ((2 ^ n : ℕ) : ℤ)) :
    some (if (page.toNat : ℤ) ≥ toUInt32 bound then INVALID_PAGE_NUMBER else SUCCESS) =
      some INVALID_PAGE_NUMBER ↔ 2 ^ n ≤ page.toNat := by
  rw [h, Option.some.injEq]
  by_cases hle : 2 ^ n ≤ page.toNat
  · rw [if_pos (Int.ofNat_le.mpr hle)]
    exact iff_of_true rfl hle
  · rw [if_neg fun hge => hle (Int.ofNat_le.mp hge)]
    exact iff_of_false (by decide) hle

/-- For every page number and every number of bits, also above 64: `page2frame` checks the page
    number as it should if and only if the number of bits is at most 30, or 31 where the compiler
    defines the shift into the sign bit, or more than 64, which is rejected first. -/
theorem page2frame_correct_iff (dialect : Dialect) (page : UInt32) (pageBits : UInt8) :
    PageOk dialect page pageBits ↔
      pageBits.toNat ≤ 30 ∨ (pageBits.toNat = 31 ∧ dialect = .gnu) ∨ 64 < pageBits.toNat := by
  have hpage := page.toNat_lt
  unfold PageOk page2frame
  by_cases h64 : pageBits > 64
  · have hlt : 64 < pageBits.toNat := UInt8.lt_iff_toNat_lt.mp h64
    have hpow : 2 ^ 32 ≤ 2 ^ pageBits.toNat := Nat.pow_le_pow_right (by decide) (by omega)
    rw [if_pos h64]
    refine iff_of_true ⟨rfl, iff_of_false (by decide) ?_⟩ (.inr (.inr hlt))
    omega
  · have hle : ¬ 64 < pageBits.toNat := fun hlt => h64 (UInt8.lt_iff_toNat_lt.mpr hlt)
    rw [if_neg h64, shiftLeft_one]
    by_cases h30 : pageBits.toNat ≤ 30
    · -- the bound stays as it is when it becomes an `unsigned int`
      have hpow : 2 ^ pageBits.toNat ≤ 2 ^ 30 := Nat.pow_le_pow_right (by decide) h30
      have hbound : toUInt32 (2 ^ pageBits.toNat) = ((2 ^ pageBits.toNat : ℕ) : ℤ) := by
        have hself := toUInt32_natCast (show 2 ^ pageBits.toNat < 2 ^ 32 by omega)
        rwa [Int.natCast_pow] at hself ⊢
      rw [if_pos h30]
      exact iff_of_true ⟨rfl, compare_correct hbound⟩ (.inl h30)
    · rw [if_neg h30]
      by_cases h31 : pageBits.toNat = 31 ∧ dialect = .gnu
      · -- the sign bit is 2 ^ 31 when it becomes an `unsigned int`
        rw [if_pos h31, h31.1]
        exact iff_of_true ⟨rfl, compare_correct (by decide)⟩ (.inr (.inl ⟨rfl, h31.2⟩))
      · rw [if_neg h31]
        exact iff_of_false (fun h => nomatch h.1) fun h => h.elim h30 fun h => h.elim h31 hle

/-- With 32 page bits the shift is undefined. -/
theorem shift_undefined : ¬ PageOk .iso 0 32 ∧ ¬ PageOk .gnu 0 32 := by
  constructor
  · exact fun h => absurd h.1 (by decide)
  · exact fun h => absurd h.1 (by decide)

end AddressTranslation
