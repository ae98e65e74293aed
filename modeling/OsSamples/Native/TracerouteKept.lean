import OsSamples.Native.TracerouteOptions

/-!
# The packets of a run, and its state at `exit`

The functions of `successive_traceroute` that may call `exit`, once more, where what has been done
before the call is kept next to it; and the packets that the log of a state has.
-/

namespace BasicTraceroute

open Traceroute
open SuccessiveTraceroute (State)

variable {D : Type}

/-- The packets sent so far, with their probes. -/
def sentPackets (s : State D) : List (ℕ × Packet) :=
  s.log.filterMap fun
    | .send pn packet => some (pn, packet)
    | _ => none

end BasicTraceroute

namespace SuccessiveTraceroute

open Traceroute

variable {D : Type} [CDouble D]

/-- One round of the loop of `do_traceroute`; the state stays when `exit` is called. -/
def probeRoundKept (opts : Options D) (net : NetEnv) (pn : ℕ) (s : State D) :
    Except (Stop × State D) (ForInStep (State D)) :=
  match doOneProbe opts pn (net.probe pn) s with
  | .error e => .error (e, s)
  | .ok s =>
    match printOneProbe opts pn s with
    | .error e => .error (e, s)
    | .ok s => .ok (if s.tr.finalProbe ≥ 0 ∧ lastOfTtl opts pn then .done s else .yield s)

/-- `do_traceroute` with the state in which it is left. -/
def doTracerouteKept (opts : Options D) (target : String) (net : NetEnv) :
    Except (Stop × State D) (ℤ × State D) :=
  match tracerouteInit opts net .initial with
  | .error e => .error (e, .initial)
  | .ok (rc, s) =>
    if rc ≠ 0 then .ok (1, s)
    else
      let (resolved, s) := addr2str net.getnameinfo s.tr.destAddr A2S_NORESOLVE s
      match s.deref resolved with
      | .error e => .error (e, s)
      | .ok str =>
        let s := s.print (headerTexts opts target str)
        match forLoop (probeRoundKept opts net) (opts.maxTtl * opts.probes).toNat 0 s with
        | .error e => .error e
        | .ok s =>
          let s := if resolved ≠ .hostUnknown ∧ resolved ≠ .hostUnknownBadAF then
            s.emit (.free resolved) else s
          match forLoop (freeRound opts) (s.tr.finalProbe + 1).toNat 0 s with
          | .error e => .error (e, s)
          | .ok s => .ok (0, s)

variable [LT D] [DecidableLT D]

/-- `main` with the state in which it is left. -/
def mainKept (args : List (Opt D)) (host : Option String) (length : Option ℤ) (net : NetEnv) :
    Except (Stop × State D) (ℤ × State D) :=
  match parseOptions args with
  | .error e => .error (e, .initial)
  | .ok o =>
    match host with
    | none => .error (.exit EXIT_FAILURE, .initial)
    | some host => doTracerouteKept (setPacketLen length o.toOptions) host net

end SuccessiveTraceroute
