import OsSamples.Lib.CInt
import OsSamples.Native.SuccessiveTraceroute

/-!
# The command line of successive traceroute

`parse_options` and `main`.  An option comes with the number that its argument denotes, of which
`atoi` makes an `int`; the argument of `-w` comes as the `double` that `atof` makes of it.
-/

namespace SuccessiveTraceroute

open Traceroute CInt

/-! ## Defaults and limits -/

def DEF_TTL : ℤ := 30
def DEF_PROBES : ℤ := 3
def DEF_TIMEOUT : ℤ := 5
def MAX_TIMEOUT : ℤ := 300
def DEF_PACKET_SIZE : ℕ := 40
def MAX_PACKET_LEN : ℕ := 65000
def DEF_DEST_PORT : BitVec 16 := 53
def DEF_DEST_PORT_BASE : BitVec 16 := 33434
def MAX_DEST_PORT : ℕ := 65000

def EXIT_SUCCESS : ℤ := 0
def EXIT_FAILURE : ℤ := 1

/-- `opts`, with the fields that only debug messages depend on. -/
structure Settings (D : Type) extends Options D where
  debug : Bool
  verbose : ℤ

variable {D : Type} [CDouble D]

/-- The static initial value of `opts`. -/
def Settings.initial : Settings D where
  af := AF_INET
  probes := DEF_PROBES
  firstTtl := 1
  maxTtl := DEF_TTL
  noresolve := false
  destPortSeq := true
  destPort := 0
  timeout := CDouble.ofInt DEF_TIMEOUT
  packetLen := DEF_PACKET_SIZE
  debug := false
  verbose := 1

/-! ## Options -/

/-- What `getopt` returns: one of the letters `hVvQdf:m:nw:q:Up:`, or `?`. -/
inductive Opt (D : Type)
  | h
  | V
  | v
  | Q
  | d
  | f (arg : ℤ)
  | m (arg : ℤ)
  | n
  | w (arg : D)
  | q (arg : ℤ)
  | U
  | p (arg : ℤ)
  | unknown

/-- `opts.max_ttl` after `-m`. -/
def clipTtl (arg : ℤ) : ℤ :=
  let maxTtl := atoi arg
  if maxTtl > MAX_TTL then MAX_TTL else maxTtl

/-- `opts.probes` after `-q`. -/
def clipProbes (arg : ℤ) : ℤ :=
  let probes := atoi arg
  let probes : ℤ := if probes > MAX_PROBES then MAX_PROBES else probes
  if probes < 1 then 1 else probes

/-- `opts.dest_port` after `-p`: an `in_port_t` already when it is compared with the limit. -/
def clipPort (arg : ℤ) : BitVec 16 :=
  let destPort := BitVec.ofInt 16 (atoi arg)
  if destPort.toNat > MAX_DEST_PORT then 0 else destPort

/-- `opts.timeout` after `-w`. -/
def clipTimeout [LT D] [DecidableLT D] (arg : D) : D :=
  let timeout := if arg > CDouble.ofInt MAX_TIMEOUT then CDouble.ofInt MAX_TIMEOUT else arg
  if timeout < CDouble.ofInt 0 then CDouble.ofInt 0 else timeout

variable [LT D] [DecidableLT D]

/-- One round of the loop of `parse_options`. -/
def parseOption (opts : Settings D) : Opt D → Except Stop (Settings D)
  | .h => .error (.exit EXIT_SUCCESS)
  | .V => .error (.exit EXIT_SUCCESS)
  | .v => .ok (if opts.verbose < 100 then { opts with verbose := opts.verbose + 1 } else opts)
  | .Q => .ok (if opts.verbose > 0 then { opts with verbose := opts.verbose - 1 } else opts)
  | .d => .ok { opts with debug := true }
  | .f arg => .ok { opts with firstTtl := atoi arg }
  | .m arg => .ok { opts with maxTtl := clipTtl arg }
  | .n => .ok { opts with noresolve := true }
  | .w arg => .ok { opts with timeout := clipTimeout arg }
  | .q arg => .ok { opts with probes := clipProbes arg }
  | .U => .ok { opts with
      destPortSeq := false
      destPort := if opts.destPort = 0 then DEF_DEST_PORT else opts.destPort }
  | .p arg => .ok { opts with destPort := clipPort arg }
  | .unknown => .error (.exit EXIT_FAILURE)

/-- `parse_options`. -/
def parseOptions (args : List (Opt D)) : Except Stop (Settings D) := do
  let opts ← args.foldlM parseOption .initial
  return if opts.destPort = 0 then
    { opts with destPort := if opts.destPortSeq then DEF_DEST_PORT_BASE else DEF_DEST_PORT }
  else opts

/-! ## The program -/

/-- The second operand of the command line: `opts.packet_len` is a `size_t`. -/
def setPacketLen (length : Option ℤ) (opts : Options D) : Options D :=
  match length with
  | none => opts
  | some arg =>
    let packetLen := (atoi arg % 2 ^ 64).toNat
    { opts with packetLen := if packetLen > MAX_PACKET_LEN then MAX_PACKET_LEN else packetLen }

/-- `main`, with the host and the packet length as operands. -/
def main (args : List (Opt D)) (host : Option String) (length : Option ℤ) (net : NetEnv) :
    Except Stop (ℤ × State D) := do
  let opts ← parseOptions args
  match host with
  | none => throw (.exit EXIT_FAILURE)
  | some host => doTraceroute (setPacketLen length opts.toOptions) host net

end SuccessiveTraceroute
