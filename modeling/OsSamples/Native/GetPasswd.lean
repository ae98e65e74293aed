import Mathlib.Algebra.Group.Int.Defs
import OsSamples.Lib.CString

/-!
# `get-passwd.c`: asking for a password

`main`, with the bytes on `stdin` and what the two arrays contain when it begins; the result are the
texts on `stdout`, or nothing where the program reads beyond the end of an array.

Left out: the calls of `stty`, which change the terminal, and the handler of SIGTSTP.
-/

namespace GetPasswd

def GOOD_PASSWORD : List UInt8 :=
  ['m', 'a', 'r', 'v', 'e', 'l', 'o', 'u', 's'].map fun c => UInt8.ofNat c.toNat

def MAX_SIZE : ℕ := 30

/-- `strlen(passwd) - 1`, a `size_t`. -/
def lengthPred (passwd : List UInt8) : ℕ := ((passwd.length - 1 : ℤ) % 2 ^ 64).toNat

/-- The text that the comparison with `GOOD_PASSWORD` leads to. -/
def verdict (passwd : List UInt8) : String :=
  if lengthPred passwd = GOOD_PASSWORD.length ∧
      strncmp passwd GOOD_PASSWORD (lengthPred passwd) = 0 then "Access granted.\n"
  else "Access denied.\n"

/-- `main`.  Where `fgets` returns NULL, its array and the input stay as they are. -/
def main (user passwd : CharArray MAX_SIZE) (stdin : List UInt8) : Option (List String) :=
  let (_, stdin) := (fgets user stdin).getD (user, stdin)
  let (passwd, _) := (fgets passwd stdin).getD (passwd, stdin)
  passwd.text.map fun passwd => ["Username: ", "Password: ", "\n", verdict passwd]

end GetPasswd
