import OsSamples.Native.BasicTraceroute
import OsSamples.Native.TracerouteOptions

/-!
# The command line of basic traceroute

`main`, with the loop over the options in it.  Defaults, limits and the treatment of each argument
are those of `successive_traceroute`; the options `-v`, `-Q` and `-d` are missing.
-/

namespace BasicTraceroute

open Traceroute CInt
open SuccessiveTraceroute (Options State DEF_TTL DEF_PROBES DEF_TIMEOUT DEF_PACKET_SIZE
  DEF_DEST_PORT DEF_DEST_PORT_BASE EXIT_SUCCESS EXIT_FAILURE clipTtl clipProbes clipPort
  clipTimeout setPacketLen)

variable {D : Type} [CDouble D]

/-- The static initial value of `opts`. -/
def initialOptions : Options D where
  af := AF_INET
  probes := DEF_PROBES
  firstTtl := 1
  maxTtl := DEF_TTL
  noresolve := false
  destPortSeq := true
  destPort := 0
  timeout := CDouble.ofInt DEF_TIMEOUT
  packetLen := DEF_PACKET_SIZE

/-- What `getopt` returns: one of the letters `hVf:m:nw:q:Up:`, or `?`. -/
inductive Opt (D : Type)
  | h
  | V
  | f (arg : ℤ)
  | m (arg : ℤ)
  | n
  | w (arg : D)
  | q (arg : ℤ)
  | U
  | p (arg : ℤ)
  | unknown

variable [LT D] [DecidableLT D]

/-- One round of the loop over the options. -/
def parseOption (opts : Options D) : Opt D → Except Stop (Options D)
  | .h => .error (.exit EXIT_SUCCESS)
  | .V => .error (.exit EXIT_SUCCESS)
  | .f arg => .ok { opts with firstTtl := atoi arg }
  | .m arg => .ok { opts with maxTtl := clipTtl arg }
  | .n => .ok { opts with noresolve := true }
  | .w arg => .ok { opts with timeout := clipTimeout arg }
  | .q arg => .ok { opts with probes := clipProbes arg }
  | .U => .ok { opts with
      destPortSeq := false
      destPort := if opts.destPort = 0 then DEF_DEST_PORT else opts.destPort }
  | .p arg => .ok { opts with destPort := clipPort arg }
  | .unknown => .error (.exit EXIT_FAILURE)

/-- The loop over the options, and the default of the port. -/
def parseOptions (args : List (Opt D)) : Except Stop (Options D) := do
  let opts ← args.foldlM parseOption initialOptions
  return if opts.destPort = 0 then
    { opts with destPort := if opts.destPortSeq then DEF_DEST_PORT_BASE else DEF_DEST_PORT }
  else opts

/-- `main`, with the host and the packet length as operands. -/
def main (args : List (Opt D)) (host : Option String) (length : Option ℤ) (net : NetEnv) :
    Except Stop (ℤ × State D) := do
  let opts ← parseOptions args
  match host with
  | none => throw (.exit EXIT_FAILURE)
  | some host => doTraceroute (setPacketLen length opts) host net

end BasicTraceroute
