import Mathlib.Tactic.Common
import OsSamples.Native.GetPasswd

/-!
# Which input `get-passwd.c` grants access to

The comparison leaves out the last character of what the second `fgets` has read, whether that is a
newline or not, and sees it only up to a NUL; and what the second `fgets` reads is the second line
only if the first one fits into its array.

## Key results

- `verdict_granted`: which text in `passwd` is accepted
- `granted_iff`: which bytes the second `fgets` has to find
- `main_correct_iff`: for which input that is the second line
-/

namespace GetPasswd

variable {user passwd : CharArray MAX_SIZE} {stdin rest tail : List UInt8} {c : UInt8}

/-! ## The comparison -/

theorem newline_not_mem_good : newline ∉ GOOD_PASSWORD := by decide

theorem nul_not_mem_good : 0 ∉ GOOD_PASSWORD := by decide

/-- The password with one more character is accepted. -/
def Good (text : List UInt8) : Prop := ∃ c, text = GOOD_PASSWORD ++ [c]

/-- One character less than the text has; an empty text has `2 ^ 64 - 1` less one. -/
theorem lengthPred_eq_good {text : List UInt8} (hlen : text.length < MAX_SIZE) :
    lengthPred text = GOOD_PASSWORD.length ↔ text.length = GOOD_PASSWORD.length + 1 := by
  have hgood : GOOD_PASSWORD.length = 9 := rfl
  unfold MAX_SIZE at hlen
  unfold lengthPred
  rw [hgood]
  omega

/-- The comparison accepts any last character. -/
theorem verdict_granted {text : List UInt8} (hnul : 0 ∉ text) (hlen : text.length < MAX_SIZE) :
    verdict text = "Access granted.\n" ↔ Good text := by
  have hverdict : verdict text = "Access granted.\n" ↔
      lengthPred text = GOOD_PASSWORD.length ∧
        strncmp text GOOD_PASSWORD (lengthPred text) = 0 := by
    unfold verdict
    split
    · exact iff_of_true rfl ‹_›
    · exact iff_of_false (by decide) ‹_›
  rw [hverdict, strncmp_eq_zero hnul nul_not_mem_good]
  constructor
  · rintro ⟨hpred, htake⟩
    rw [hpred, List.take_length] at htake
    have hlength := (lengthPred_eq_good hlen).mp hpred
    -- one character is left behind the password
    have hdrop : (text.drop GOOD_PASSWORD.length).length = 1 := by
      rw [List.length_drop]
      omega
    obtain ⟨c, hc⟩ := List.length_eq_one_iff.mp hdrop
    refine ⟨c, ?_⟩
    rw [← List.take_append_drop GOOD_PASSWORD.length text, htake, hc]
  · rintro ⟨c, rfl⟩
    have hpred : lengthPred (GOOD_PASSWORD ++ [c]) = GOOD_PASSWORD.length :=
      (lengthPred_eq_good hlen).mpr (by rw [List.length_append, List.length_singleton])
    rw [hpred, List.take_left, List.take_length]
    exact ⟨rfl, rfl⟩

/-! ## What is read -/

/-- What is left for the second `fgets`. -/
def remaining (stdin : List UInt8) : List UInt8 :=
  stdin.drop (lineUpTo (MAX_SIZE - 1) stdin).length

/-- The bytes are the password, one more character, and the end of the line, of the input or of the
    string. -/
def Accepts (rest : List UInt8) : Prop :=
  ∃ c tail, rest = GOOD_PASSWORD ++ c :: tail ∧ c ≠ 0 ∧
    (c = newline ∨ tail = [] ∨ tail.head? = some 0)

/-- The first `fgets`. -/
theorem fgets_user (user : CharArray MAX_SIZE) (stdin : List UInt8) :
    ((fgets user stdin).getD (user, stdin)).2 = remaining stdin := by
  unfold fgets remaining MAX_SIZE
  by_cases hline : lineUpTo 29 stdin = []
  · simp [hline]
  · simp [hline]

/-- The second `fgets`, where there is something left. -/
theorem main_of_remaining (hrest : remaining stdin ≠ []) :
    main user passwd stdin = some ["Username: ", "Password: ", "\n",
      verdict ((lineUpTo (MAX_SIZE - 1) (remaining stdin)).takeWhile (· != 0))] := by
  have hline : lineUpTo 29 (remaining stdin) ≠ [] := by
    cases hr : remaining stdin with
    | nil => exact absurd hr hrest
    | cons b bytes =>
      rw [lineUpTo]
      split <;> simp
  obtain ⟨a, rest, ha, behind, hbytes⟩ : ∃ a rest, fgets passwd (remaining stdin) = some (a, rest) ∧
      ∃ behind, a.bytes = lineUpTo 29 (remaining stdin) ++ 0 :: behind := by
    unfold fgets
    simp only
    rw [if_neg hline]
    exact ⟨_, _, rfl, _, rfl⟩
  unfold main
  simp only [fgets_user]
  rw [ha, Option.getD_some]
  dsimp only
  rw [CharArray.text_of_bytes hbytes]
  rfl

/-- The second `fgets`, where nothing is left: the array stays as it is. -/
theorem main_of_nil (hrest : remaining stdin = []) :
    main user passwd stdin =
      passwd.text.map fun text => ["Username: ", "Password: ", "\n", verdict text] := by
  unfold main
  simp only [fgets_user, hrest]
  rfl

/-- The text on the last line of the output. -/
theorem granted_mem (text : List UInt8) :
    "Access granted.\n" ∈ ["Username: ", "Password: ", "\n", verdict text] ↔
      verdict text = "Access granted.\n" := by
  constructor
  · intro h
    simpa [eq_comm] using h
  · intro h
    simp [h]

/-- What is read of the password with another character behind it. -/
theorem string_of_good (c : UInt8) (tail : List UInt8) :
    (lineUpTo (MAX_SIZE - 1) (GOOD_PASSWORD ++ c :: tail)).takeWhile (· != 0) =
      GOOD_PASSWORD ++
        (if c = newline then [c] else c :: lineUpTo 19 tail).takeWhile (· != 0) := by
  rw [lineUpTo_append newline_not_mem_good (by decide),
    List.takeWhile_append_of_pos fun b => ne_nul_of_mem nul_not_mem_good]
  rfl

/-- One character is read up to the end of the string. -/
theorem string_eq_singleton {b : UInt8} :
    (if c = newline then [c] else c :: lineUpTo 19 tail).takeWhile (· != 0) = [b] ↔
      c = b ∧ c ≠ 0 ∧ (c = newline ∨ tail = [] ∨ tail.head? = some 0) := by
  by_cases hnul : c = 0
  · subst hnul
    simp [newline]
  · by_cases hline : c = newline
    · simp [hline, newline]
    · rw [if_neg hline, List.takeWhile_cons_of_pos (by simpa using hnul)]
      have hrest : (lineUpTo 19 tail).takeWhile (· != 0) = [] ↔
          tail = [] ∨ tail.head? = some 0 := by
        cases tail with
        | nil => simp [lineUpTo]
        | cons d tail =>
          by_cases hd : d = 0
          · subst hd
            simp [lineUpTo, newline]
          · rw [lineUpTo]
            split <;> simp [hd]
      simp [hrest, hnul, hline]

/-- Which bytes the second `fgets` has to find. -/
theorem granted_iff (rest : List UInt8) :
    Good ((lineUpTo (MAX_SIZE - 1) rest).takeWhile (· != 0)) ↔ Accepts rest := by
  constructor
  · rintro ⟨b, hb⟩
    -- what has been read is at the beginning of the rest
    have hprefix : GOOD_PASSWORD ++ [b] <+: rest := by
      rw [← hb]
      have htake := List.takeWhile_prefix (· != 0) (l := lineUpTo (MAX_SIZE - 1) rest)
      exact htake.trans (lineUpTo_isPrefix _ rest)
    obtain ⟨tail, rfl⟩ := hprefix
    rw [List.append_assoc, List.singleton_append] at hb ⊢
    rw [string_of_good, List.append_cancel_left_eq, string_eq_singleton] at hb
    exact ⟨b, tail, rfl, hb.2⟩
  · rintro ⟨c, tail, rfl, hc⟩
    refine ⟨c, ?_⟩
    rw [string_of_good, List.append_cancel_left_eq, string_eq_singleton]
    exact ⟨rfl, hc⟩

/-- The verdict on what the second `fgets` reads. -/
theorem verdict_remaining (rest : List UInt8) :
    verdict ((lineUpTo (MAX_SIZE - 1) rest).takeWhile (· != 0)) = "Access granted.\n" ↔
      Accepts rest := by
  rw [← granted_iff]
  apply verdict_granted
  · intro hmem
    exact absurd (List.mem_takeWhile_imp hmem) (by decide)
  · have hle := length_lineUpTo_le (MAX_SIZE - 1) rest
    have htext : ((lineUpTo (MAX_SIZE - 1) rest).takeWhile (· != 0)).length ≤
        (lineUpTo (MAX_SIZE - 1) rest).length := (List.takeWhile_prefix _).length_le
    unfold MAX_SIZE at *
    omega

/-! ## The lines -/

/-- The second line of the input, without its newline. -/
def secondLine (stdin : List UInt8) : List UInt8 :=
  ((stdin.dropWhile (· != newline)).drop 1).takeWhile (· != newline)

/-- The first line with its newline is what the first `fgets` reads. -/
def FirstLineFits (stdin : List UInt8) : Prop := newline ∈ stdin.take (MAX_SIZE - 1)

/-- Where the first line fits, the second line is at the beginning of what is left. -/
theorem secondLine_eq (h : FirstLineFits stdin) :
    secondLine stdin = (remaining stdin).takeWhile (· != newline) := by
  obtain ⟨first, behind, htake, hfirst⟩ := List.eq_append_cons_of_mem h
  have hlen : (first ++ newline :: behind).length ≤ MAX_SIZE - 1 := by
    rw [← htake, List.length_take]
    omega
  rw [List.length_append, List.length_cons] at hlen
  have hstdin : stdin = first ++ newline :: (behind ++ stdin.drop (MAX_SIZE - 1)) := by
    conv_lhs => rw [← List.take_append_drop (MAX_SIZE - 1) stdin, htake]
    rw [List.append_assoc, List.cons_append]
  have hne : ∀ b ∈ first, (b != newline) = true := by
    intro b hb
    rw [bne_iff_ne]
    rintro rfl
    exact hfirst hb
  rw [hstdin]
  unfold secondLine remaining
  rw [lineUpTo_of_newline hfirst (by omega), List.dropWhile_append_of_pos hne]
  simp

/-- The second line is the password: the input goes on with the password, and ends there or with a
    newline. -/
theorem takeWhile_eq_good :
    rest.takeWhile (· != newline) = GOOD_PASSWORD ↔
      rest = GOOD_PASSWORD ∨ ∃ tail, rest = GOOD_PASSWORD ++ newline :: tail := by
  -- the good password has no newline
  have hne : ∀ b ∈ GOOD_PASSWORD, (b != newline) = true := by
    intro b hb
    rw [bne_iff_ne]
    rintro rfl
    exact newline_not_mem_good hb
  constructor
  · intro h
    have hsplit := List.takeWhile_append_dropWhile (p := (· != newline)) (l := rest)
    rw [h] at hsplit
    -- the line is all that is left, or it ends with a newline
    cases hdrop : rest.dropWhile (· != newline) with
    | nil =>
      left
      rw [← hsplit, hdrop, List.append_nil]
    | cons b tail =>
      right
      have hb := List.head?_dropWhile_not (· != newline) rest
      rw [hdrop, List.head?_cons] at hb
      obtain rfl : b = newline := bne_eq_false_iff_eq.mp hb
      exact ⟨tail, by rw [← hsplit, hdrop]⟩
  · rintro (rfl | ⟨tail, rfl⟩)
    · exact List.takeWhile_eq_self_iff.mpr hne
    · rw [List.takeWhile_append_of_pos hne]
      simp

/-- Where nothing is left, there is no second line. -/
theorem secondLine_of_nil (hrest : remaining stdin = []) : secondLine stdin = [] := by
  by_cases hfits : FirstLineFits stdin
  · rw [secondLine_eq hfits, hrest]
    rfl
  · -- the first `fgets` has read everything, without a newline
    unfold FirstLineFits at hfits
    unfold remaining at hrest
    rw [lineUpTo_of_no_newline hfits, List.drop_eq_nil_iff, List.length_take] at hrest
    rw [List.take_of_length_le (by omega)] at hfits
    have hall : stdin.dropWhile (· != newline) = [] := by
      rw [List.dropWhile_eq_nil_iff]
      intro b hb
      rw [bne_iff_ne]
      rintro rfl
      exact hfits hb
    unfold secondLine
    rw [hall]
    rfl

/-! ## Main result -/

/-- Access is granted if and only if the second line is the password. -/
def PasswordOk (user passwd : CharArray MAX_SIZE) (stdin : List UInt8) : Prop :=
  ∃ out, main user passwd stdin = some out ∧
    ("Access granted.\n" ∈ out ↔ secondLine stdin = GOOD_PASSWORD)

/-- There is a last character behind the password that is taken for the newline. -/
def Overlooked (rest : List UInt8) : Prop :=
  ∃ c tail, rest = GOOD_PASSWORD ++ c :: tail ∧ c ≠ 0 ∧ c ≠ newline ∧
    (tail = [] ∨ tail.head? = some 0)

/-- What is accepted is the second line or has such a last character, and never both. -/
theorem accepts_iff :
    Accepts rest ↔ (∃ tail, rest = GOOD_PASSWORD ++ newline :: tail) ∨ Overlooked rest := by
  constructor
  · rintro ⟨c, tail, rfl, hnul, hend⟩
    by_cases hc : c = newline
    · exact .inl ⟨tail, by rw [hc]⟩
    · exact .inr ⟨c, tail, rfl, hnul, hc, hend.resolve_left hc⟩
  · rintro (⟨tail, rfl⟩ | ⟨c, tail, rfl, hnul, -, hend⟩)
    · exact ⟨newline, tail, rfl, by decide, .inl rfl⟩
    · exact ⟨c, tail, rfl, hnul, .inr hend⟩

theorem Overlooked.not_newline (h : Overlooked rest) :
    ¬ ∃ tail, rest = GOOD_PASSWORD ++ newline :: tail := by
  obtain ⟨c, tail, rfl, -, hc, -⟩ := h
  rintro ⟨tail', heq⟩
  rw [List.append_cancel_left_eq, List.cons.injEq] at heq
  exact hc heq.1

theorem good_ne_append (c : UInt8) (tail : List UInt8) :
    GOOD_PASSWORD ≠ GOOD_PASSWORD ++ c :: tail := by
  intro heq
  have hlen := congrArg List.length heq
  rw [List.length_append, List.length_cons] at hlen
  omega

/-- The three ways in which what is left may begin with the password exclude each other. -/
theorem accepts_iff_takeWhile :
    (Accepts rest ↔ rest.takeWhile (· != newline) = GOOD_PASSWORD) ↔
      rest ≠ GOOD_PASSWORD ∧ ¬ Overlooked rest := by
  rw [accepts_iff, takeWhile_eq_good]
  by_cases heq : rest = GOOD_PASSWORD
  · -- the password at the end of the input is the second line, but it is not accepted
    have hline : ¬ ∃ tail, rest = GOOD_PASSWORD ++ newline :: tail :=
      fun ⟨tail, htail⟩ => good_ne_append newline tail (heq ▸ htail)
    have hover : ¬ Overlooked rest :=
      fun ⟨c, tail, htail, _⟩ => good_ne_append c tail (heq ▸ htail)
    refine iff_of_false (fun h => ?_) fun h => h.1 heq
    exact (h.mpr (.inl heq)).elim hline hover
  · by_cases hover : Overlooked rest
    · have hline := hover.not_newline
      simp [heq, hover, hline]
    · simp [heq, hover]

/-- For every input and whatever the arrays contain before: access is granted if and only if the
    second line is the password, exactly where one of these holds.  Nothing is left for the second
    `fgets`, and the array holds a string other than the password with one more character.  Or the
    first line fits and what is left is neither the password at the end of the input nor the
    password with a last character that is taken for the newline.  Or the first line does not fit,
    and what is accepted of its rest is or is not accepted of the second line, too. -/
theorem main_correct_iff (user passwd : CharArray MAX_SIZE) (stdin : List UInt8) :
    PasswordOk user passwd stdin ↔
      (remaining stdin = [] ∧ ∃ text, passwd.text = some text ∧ ¬ Good text) ∨
      (remaining stdin ≠ [] ∧ FirstLineFits stdin ∧ remaining stdin ≠ GOOD_PASSWORD ∧
        ¬ Overlooked (remaining stdin)) ∨
      (remaining stdin ≠ [] ∧ ¬ FirstLineFits stdin ∧
        (Accepts (remaining stdin) ↔ secondLine stdin = GOOD_PASSWORD)) := by
  -- with nothing left for the second `fgets`, the buffer is as it was before
  by_cases hrest : remaining stdin = []
  · have hline : secondLine stdin ≠ GOOD_PASSWORD := by
      rw [secondLine_of_nil hrest]
      decide
    simp only [PasswordOk, main_of_nil hrest, hline, iff_false, hrest, true_and, ne_eq,
      not_true_eq_false, false_and, or_false]
    constructor
    · rintro ⟨out, hout, hgranted⟩
      obtain ⟨text, htext, rfl⟩ := Option.map_eq_some_iff.mp hout
      refine ⟨text, htext, fun hgood => hgranted ?_⟩
      rw [granted_mem]
      exact (verdict_granted (CharArray.noNul_of_text htext)
        (CharArray.length_of_text htext)).mpr hgood
    · rintro ⟨text, htext, hgood⟩
      refine ⟨_, by rw [htext]; rfl, fun hgranted => hgood ?_⟩
      rw [granted_mem] at hgranted
      exact (verdict_granted (CharArray.noNul_of_text htext)
        (CharArray.length_of_text htext)).mp hgranted
  -- otherwise the verdict depends on the bytes that are left
  · have hok : PasswordOk user passwd stdin ↔
        (Accepts (remaining stdin) ↔ secondLine stdin = GOOD_PASSWORD) := by
      unfold PasswordOk
      rw [main_of_remaining hrest]
      simp only [Option.some.injEq, exists_eq_left', granted_mem, verdict_remaining]
    rw [hok]
    -- whether these bytes are the second line depends on the first one
    by_cases hfits : FirstLineFits stdin
    · rw [secondLine_eq hfits, accepts_iff_takeWhile]
      simp only [hrest, hfits, ne_eq, not_false_eq_true, not_true_eq_false, false_and, true_and,
        and_false, false_or, or_false]
    · simp only [hrest, hfits, ne_eq, not_false_eq_true, false_and, true_and, and_false,
        false_or]

/-- An array without anything in it. -/
def blank : CharArray MAX_SIZE := ⟨List.replicate MAX_SIZE 0, rfl⟩

/-- The password at the end of the input is denied; the password with one more character there is
    granted, and so is the end of a first line that does not fit. -/
theorem not_main_correct :
    ¬ PasswordOk blank blank ([117, newline] ++ GOOD_PASSWORD) ∧
      ¬ PasswordOk blank blank ([117, newline] ++ GOOD_PASSWORD ++ [88]) ∧
      ¬ PasswordOk blank blank (List.replicate 29 117 ++ GOOD_PASSWORD ++ [newline]) := by
  refine ⟨fun ⟨out, hout, hgranted⟩ => ?_, fun ⟨out, hout, hgranted⟩ => ?_,
    fun ⟨out, hout, hgranted⟩ => ?_⟩
  · obtain rfl : ["Username: ", "Password: ", "\n", "Access denied.\n"] = out :=
      Option.some.inj hout
    exact absurd (hgranted.mpr (by decide)) (by decide)
  · obtain rfl : ["Username: ", "Password: ", "\n", "Access granted.\n"] = out :=
      Option.some.inj hout
    exact absurd (hgranted.mp (by decide)) (by decide)
  · obtain rfl : ["Username: ", "Password: ", "\n", "Access granted.\n"] = out :=
      Option.some.inj hout
    exact absurd (hgranted.mp (by decide)) (by decide)

end GetPasswd
