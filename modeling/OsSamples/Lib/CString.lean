import Mathlib.Data.List.TakeWhile
import Mathlib.Data.Nat.Notation

/-!
# Arrays of `char` and strings

The functions of the C library for strings, over the bytes that a pointer leads to.  An array
carries its size, so that an access outside of it has no result.

## Key results

- `CharArray.write_of_le`: what is in an array after a store
- `CharArray.text_of_bytes`: the string at the beginning of an array
- `strncpyBytes_of_le`, `strncpyBytes_of_lt`: what `strncpy` copies
- `strncmp_eq_zero`: when `strncmp` finds no difference
- `lineUpTo_of_newline`, `lineUpTo_of_no_newline`: what `fgets` reads
-/

/-- The characters of a string, without the NUL at its end. -/
structure CString where
  bytes : List UInt8
  noNul : 0 ∉ bytes

/-- The bytes in memory from the beginning of a string on. -/
def CString.memory (s : CString) : List UInt8 := s.bytes ++ [0]

/-- `char a[n]`. -/
structure CharArray (n : ℕ) where
  bytes : List UInt8
  size : bytes.length = n
  deriving DecidableEq

namespace CharArray

variable {n i : ℕ} {a b : CharArray n} {data s rest : List UInt8}

/-- `data` is stored from the index `i` on. -/
def write (a : CharArray n) (i : ℕ) (data : List UInt8) : Option (CharArray n) :=
  if h : i + data.length ≤ n then
    some {
      bytes := a.bytes.take i ++ data ++ a.bytes.drop (i + data.length)
      size := by
        have hsize := a.size
        simp only [List.length_append, List.length_take, List.length_drop]
        omega }
  else none

/-- A store inside the array. -/
theorem write_of_le (a : CharArray n) (i : ℕ) (data : List UInt8) (h : i + data.length ≤ n) :
    ∃ b, a.write i data = some b ∧
      b.bytes = a.bytes.take i ++ data ++ a.bytes.drop (i + data.length) := by
  unfold write
  rw [dif_pos h]
  exact ⟨_, rfl, rfl⟩

/-- The string at the beginning of the array, if it ends there. -/
def text (a : CharArray n) : Option (List UInt8) :=
  if 0 ∈ a.bytes then some (a.bytes.takeWhile (· != 0)) else none

/-- The characters before the first NUL. -/
theorem text_of_bytes (hbytes : a.bytes = s ++ 0 :: rest) :
    a.text = some (s.takeWhile (· != 0)) := by
  unfold text
  rw [if_pos (by simp [hbytes]), hbytes, List.takeWhile_append]
  split
  · rename_i hlen
    have hall : s.takeWhile (· != 0) = s := (List.takeWhile_prefix _).eq_of_length hlen
    rw [hall]
    simp
  · rfl

/-- The string has no NUL in it. -/
theorem noNul_of_text (h : a.text = some s) : 0 ∉ s := by
  unfold text at h
  split at h
  · obtain rfl := Option.some.inj h
    intro hmem
    exact absurd (List.mem_takeWhile_imp hmem) (by decide)
  · exact nomatch h

/-- There is room for the NUL behind it. -/
theorem length_of_text (h : a.text = some s) : s.length < n := by
  unfold text at h
  split at h
  · rename_i hmem
    obtain rfl := Option.some.inj h
    obtain ⟨front, behind, hbytes, hfront⟩ := List.eq_append_cons_of_mem hmem
    have hsize := a.size
    rw [hbytes, List.length_append, List.length_cons] at hsize
    have hle : (front.takeWhile (· != 0)).length ≤ front.length :=
      (List.takeWhile_prefix _).length_le
    have htext := text_of_bytes hbytes
    unfold text at htext
    rw [if_pos hmem, Option.some.injEq] at htext
    rw [htext]
    omega
  · exact nomatch h

end CharArray

/-! ## Copying -/

/-- What `strncpy` stores for the bytes `src`: the string, up to `n` characters of it, and NUL bytes
    up to `n`. -/
def strncpyBytes (src : List UInt8) (n : ℕ) : List UInt8 :=
  let s := (src.take n).takeWhile (· != 0)
  s ++ List.replicate (n - s.length) 0

@[simp] theorem length_strncpyBytes (src : List UInt8) (n : ℕ) :
    (strncpyBytes src n).length = n := by
  have hle : ((src.take n).takeWhile (· != 0)).length ≤ n := by
    have hprefix : ((src.take n).takeWhile (· != 0)).length ≤ (src.take n).length :=
      (List.takeWhile_prefix _).length_le
    rw [List.length_take] at hprefix
    omega
  simp only [strncpyBytes, List.length_append, List.length_replicate]
  omega

/-- `strncpy`. -/
def strncpy {m : ℕ} (dst : CharArray m) (src : List UInt8) (n : ℕ) : Option (CharArray m) :=
  dst.write 0 (strncpyBytes src n)

/-- No character of a string is NUL. -/
theorem ne_nul_of_mem {s : List UInt8} {b : UInt8} (hs : 0 ∉ s) (hb : b ∈ s) :
    (b != 0) = true := by
  rw [bne_iff_ne]
  rintro rfl
  exact hs hb

/-- A string is not changed by what looks for its end. -/
theorem takeWhile_noNul {s : List UInt8} (hs : 0 ∉ s) : s.takeWhile (· != 0) = s :=
  List.takeWhile_eq_self_iff.mpr fun _ => ne_nul_of_mem hs

/-- A string that is at least as long as the copy is to be. -/
theorem strncpyBytes_of_le {s rest : List UInt8} {n : ℕ} (hs : 0 ∉ s) (hn : n ≤ s.length) :
    strncpyBytes (s ++ rest) n = s.take n := by
  have hnul : 0 ∉ s.take n := fun hmem => hs (List.mem_of_mem_take hmem)
  unfold strncpyBytes
  dsimp only
  rw [List.take_append_of_le_length hn, takeWhile_noNul hnul, List.length_take,
    Nat.min_eq_left hn, Nat.sub_self, List.replicate_zero, List.append_nil]

/-- A string that ends before. -/
theorem strncpyBytes_of_lt {s rest : List UInt8} {n : ℕ} (hs : 0 ∉ s) (hn : s.length < n) :
    strncpyBytes (s ++ 0 :: rest) n = s ++ List.replicate (n - s.length) 0 := by
  have hstring : ((s ++ 0 :: rest).take n).takeWhile (· != 0) = s := by
    obtain ⟨k, hk⟩ : ∃ k, n - s.length = k + 1 := ⟨n - s.length - 1, by omega⟩
    rw [List.take_append, List.take_of_length_le (by omega), hk, List.take_succ_cons,
      List.takeWhile_append_of_pos]
    · simp
    · exact fun b => ne_nul_of_mem hs
  unfold strncpyBytes
  rw [hstring]

/-! ## Comparing -/

/-- `strncmp` of two strings. -/
def strncmp : List UInt8 → List UInt8 → ℕ → ℤ
  | _, _, 0 => 0
  | [], [], _ + 1 => 0
  | a :: _, [], _ + 1 => a.toNat
  | [], b :: _, _ + 1 => -b.toNat
  | a :: s, b :: t, n + 1 => if a = b then strncmp s t n else a.toNat - b.toNat

/-- The first `n` characters are the same. -/
theorem strncmp_eq_zero {s t : List UInt8} {n : ℕ} (hs : 0 ∉ s) (ht : 0 ∉ t) :
    strncmp s t n = 0 ↔ s.take n = t.take n := by
  induction s, t, n using strncmp.induct with
  | case1 s t => simp [strncmp]
  | case2 n => simp [strncmp]
  | case3 a s n =>
    have ha := ne_nul_of_mem hs List.mem_cons_self
    rw [bne_iff_ne, ne_eq, ← UInt8.toNat_inj] at ha
    simpa [strncmp] using ha
  | case4 b t n =>
    have hb := ne_nul_of_mem ht List.mem_cons_self
    rw [bne_iff_ne, ne_eq, ← UInt8.toNat_inj] at hb
    simpa [strncmp] using hb
  | case5 s t n b ih =>
    have ih' := ih (fun h => hs (List.mem_cons_of_mem _ h)) fun h => ht (List.mem_cons_of_mem _ h)
    simp [strncmp, ih']
  | case6 a s b t n hne =>
    have hne' : a.toNat ≠ b.toNat := fun heq => hne (UInt8.toNat_inj.mp heq)
    rw [strncmp, if_neg hne, List.take_succ_cons, List.take_succ_cons, List.cons.injEq]
    constructor
    · intro h
      omega
    · intro h
      exact absurd h.1 hne

/-! ## Reading lines -/

/-- The character at the end of a line. -/
def newline : UInt8 := 10

/-- What is read of `bytes` up to the end of the line, and up to `n` bytes. -/
def lineUpTo : ℕ → List UInt8 → List UInt8
  | 0, _ => []
  | _ + 1, [] => []
  | n + 1, b :: bytes => if b = newline then [b] else b :: lineUpTo n bytes

theorem length_lineUpTo_le (n : ℕ) (bytes : List UInt8) : (lineUpTo n bytes).length ≤ n := by
  induction n, bytes using lineUpTo.induct with
  | case1 => simp [lineUpTo]
  | case2 => simp [lineUpTo]
  | case3 n bytes => simp [lineUpTo]
  | case4 n b bytes hne ih =>
    simp only [lineUpTo, if_neg hne, List.length_cons]
    omega

/-- `fgets`: the line with a NUL behind it, and the rest of the input; `none` where nothing is left
    to be read. -/
def fgets {n : ℕ} (a : CharArray (n + 1)) (input : List UInt8) :
    Option (CharArray (n + 1) × List UInt8) :=
  let line := lineUpTo n input
  if line = [] then none
  else some ({
    bytes := line ++ 0 :: a.bytes.drop (line.length + 1)
    size := by
      have hsize := a.size
      have hle : (lineUpTo n input).length ≤ n := length_lineUpTo_le n input
      simp only [List.length_append, List.length_cons, List.length_drop, line]
      omega }, input.drop line.length)

/-- A line that is not longer than what may be read. -/
theorem lineUpTo_of_newline {n : ℕ} {line rest : List UInt8} (hline : newline ∉ line)
    (hn : line.length < n) : lineUpTo n (line ++ newline :: rest) = line ++ [newline] := by
  induction line generalizing n with
  | nil =>
    obtain ⟨n, rfl⟩ : ∃ m, n = m + 1 := ⟨n - 1, by omega⟩
    simp [lineUpTo]
  | cons b line ih =>
    obtain ⟨n, rfl⟩ : ∃ m, n = m + 1 := ⟨n - 1, by omega⟩
    have hb : b ≠ newline := fun heq => hline (heq ▸ List.mem_cons_self)
    rw [List.length_cons] at hn
    rw [List.cons_append, lineUpTo, if_neg hb,
      ih (fun h => hline (List.mem_cons_of_mem b h)) (by omega), List.cons_append]

/-- Characters before the end of a line. -/
theorem lineUpTo_append {n : ℕ} {s rest : List UInt8} (hs : newline ∉ s) (hn : s.length ≤ n) :
    lineUpTo n (s ++ rest) = s ++ lineUpTo (n - s.length) rest := by
  induction s generalizing n with
  | nil => rfl
  | cons b s ih =>
    obtain ⟨n, rfl⟩ : ∃ m, n = m + 1 := ⟨n - 1, by rw [List.length_cons] at hn; omega⟩
    have hb : b ≠ newline := fun heq => hs (heq ▸ List.mem_cons_self)
    rw [List.length_cons] at hn
    rw [List.cons_append, lineUpTo, if_neg hb,
      ih (fun h => hs (List.mem_cons_of_mem b h)) (by omega), List.cons_append, List.length_cons,
      Nat.add_sub_add_right]

theorem lineUpTo_isPrefix (n : ℕ) (bytes : List UInt8) : lineUpTo n bytes <+: bytes := by
  induction n, bytes using lineUpTo.induct with
  | case1 => simp [lineUpTo]
  | case2 => simp [lineUpTo]
  | case3 n bytes => simp [lineUpTo]
  | case4 n b bytes hne ih =>
    rw [lineUpTo, if_neg hne, List.cons_prefix_cons]
    exact ⟨rfl, ih⟩

/-- A line that is longer, or the last one without a newline. -/
theorem lineUpTo_of_no_newline {n : ℕ} {bytes : List UInt8} (h : newline ∉ bytes.take n) :
    lineUpTo n bytes = bytes.take n := by
  induction n, bytes using lineUpTo.induct with
  | case1 => simp [lineUpTo]
  | case2 => simp [lineUpTo]
  | case3 n bytes => simp at h
  | case4 n b bytes hne ih =>
    rw [List.take_succ_cons] at h ⊢
    rw [lineUpTo, if_neg hne, ih fun hmem => h (List.mem_cons_of_mem b hmem)]
