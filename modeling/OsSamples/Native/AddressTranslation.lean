import OsSamples.Lib.CInt

/-!
# `address_translation_paging_partial.c`: the options and the page number

`eval_args` with the global variables it sets, and `page2frame` as far as it is written.  An option
comes with the number that its argument denotes, of which `strtol` makes a `long`; the variables
have 8 bits.  Integer expressions are evaluated in `int`, and an `int` beside an `unsigned int` is
converted to that.

Left out: the text of `usage`; the parameters of `page2frame` that it does not look at; and the
translation itself, which the source leaves as an exercise.
-/

namespace AddressTranslation

open CInt

/-! ## Defaults and limits -/

def DEFAULT_VERBOSITY : ℤ := 1

/-- In bits. -/
def LINEAR_ADDRESS_SIZE : ℕ := 32

def DEFAULT_PT_FNAME : String := "page_table.dat"

def DEFAULT_OFFSET_SIZE : UInt8 := 12
def DEFAULT_PAGE_TABLE_ENTRY_SIZE : UInt8 := 32

def EXIT_SUCCESS : ℤ := 0
def EXIT_FAILURE : ℤ := 1

/-- The global variables.  The initial value of `frame_size` is that of static storage. -/
structure Globals where
  verbose : ℤ := DEFAULT_VERBOSITY
  offsetSize : UInt8 := DEFAULT_OFFSET_SIZE
  pageTableEntrySize : UInt8 := DEFAULT_PAGE_TABLE_ENTRY_SIZE
  frameStartBit : UInt8 := DEFAULT_OFFSET_SIZE
  frameSizeLimit : UInt8 := 64
  ptFilename : String := DEFAULT_PT_FNAME
  frameSize : UInt8 := 0

/-! ## Options -/

/-- What `getopt` returns: one of the letters `hqvo:e:f:t:`, or `?` with `optopt`. -/
inductive Opt
  | h
  | q
  | v
  | o (arg : ℤ)
  | e (arg : ℤ)
  | f (arg : ℤ)
  | t (arg : String)
  | unknown (optopt : Char)
  deriving DecidableEq

/-- The end of the program in `eval_args`, with the message on `stderr`. -/
structure Exit where
  status : ℤ
  message : String
  deriving DecidableEq

/-- One round of the loop of `eval_args`. -/
def evalOption (g : Globals) : Opt → Except Exit Globals
  | .o arg =>
    let offsetSize := toUInt8 (strtol arg)
    if offsetSize.toNat > LINEAR_ADDRESS_SIZE ∨ offsetSize.toNat < 4 then
      .error ⟨EXIT_FAILURE, toString offsetSize ++ ": Invalid offset bits.\n"⟩
    else .ok { g with offsetSize := offsetSize }
  | .e arg =>
    let pageTableEntrySize := toUInt8 (strtol arg)
    if pageTableEntrySize = 32 ∨ pageTableEntrySize = 64 then
      .ok { g with pageTableEntrySize := pageTableEntrySize }
    else .error ⟨EXIT_FAILURE,
      toString pageTableEntrySize ++ ": Invalid page table entry size.\n"⟩
  | .f arg => .ok { g with frameSizeLimit := toUInt8 (strtol arg) }
  | .t arg => .ok { g with ptFilename := arg }
  | .q => .ok { g with verbose := 0 }
  | .v => .ok { g with verbose := g.verbose + 1 }
  | .h => .error ⟨EXIT_SUCCESS, ""⟩
  | .unknown optopt => .error ⟨EXIT_FAILURE, optopt.toString ++ ": unknown option.\n"⟩

/-- What `eval_args` computes after the loop. -/
def setFrame (g : Globals) : Globals :=
  let g := { g with frameStartBit := g.offsetSize }
  let g := { g with frameSize := g.pageTableEntrySize - g.offsetSize }
  if g.frameSize > g.frameSizeLimit then { g with frameSize := g.frameSizeLimit } else g

/-- `eval_args`. -/
def evalArgs (args : List Opt) : Except Exit Globals := do
  let g ← args.foldlM evalOption {}
  return setFrame g

/-! ## The page number -/

def SUCCESS : ℤ := 0
def INVALID_PAGE_SIZE : ℤ := 1
def INVALID_PAGE_NUMBER : ℤ := 2

/-- `page2frame`; `none` where the shift is undefined. -/
def page2frame (dialect : Dialect) (page : UInt32) (pageBits : UInt8) : Option ℤ :=
  if pageBits > 64 then some INVALID_PAGE_SIZE
  else (shiftLeft dialect 1 pageBits.toNat).map fun bound =>
    -- the `int` on the right is converted to `uint32_t`
    if (page.toNat : ℤ) ≥ toUInt32 bound then INVALID_PAGE_NUMBER else SUCCESS

end AddressTranslation
