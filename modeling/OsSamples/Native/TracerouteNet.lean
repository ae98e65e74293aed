import Mathlib.Data.Int.Notation
import Mathlib.Data.Nat.Notation

/-!
# What the traceroute programs see of the network

Addresses, control messages and the results of the system calls, which are whatever the kernel
and the network make of them, and the parts of the programs that only look at these: the waiting
loop of `traceroute_receive` and the texts of `parse_icmp_response`.

The arithmetic on `double` is a parameter.
-/

namespace Traceroute

/-! ## Numbers and limits -/

/-- The type `double`, with the operations that the programs use: conversion from and to `int`,
    the test against 0 and the format `%.3f`. -/
class CDouble (D : Type) extends Add D, Sub D, Mul D, Div D where
  ofInt : ℤ → D
  toInt : D → ℤ
  isZero : D → Bool
  fixed3 : D → String

/-- `struct timeval`. -/
structure Timeval where
  sec : ℤ
  usec : ℤ

/-- `get_time` when `gettimeofday` gives `tv`. -/
def getTime {D : Type} [CDouble D] (tv : Timeval) : D :=
  CDouble.ofInt tv.usec / CDouble.ofInt 1000000 + CDouble.ofInt tv.sec

/-- The largest TTL, and the largest number of probes per TTL. -/
def MAX_TTL : ℕ := 255
def MAX_PROBES : ℕ := 10

/-! ## Addresses and strings -/

/-- `sockaddr_any`: nothing but zeros, or an IPv4 or IPv6 address with a port. -/
inductive SockAddr
  | unspec
  | inet (addr : BitVec 32) (port : BitVec 16)
  | inet6 (addr : BitVec 128) (port : BitVec 16)
  deriving DecidableEq

/-- `AF_UNSPEC`, `AF_INET` and `AF_INET6`. -/
def AF_UNSPEC : ℕ := 0
def AF_INET : ℕ := 2
def AF_INET6 : ℕ := 10

namespace SockAddr

def family : SockAddr → ℕ
  | unspec => AF_UNSPEC
  | inet .. => AF_INET
  | inet6 .. => AF_INET6

/-- The size of the address structure. -/
def len : SockAddr → ℕ
  | unspec => 0
  | inet .. => 16
  | inet6 .. => 28

/-- The port, in host byte order. -/
def port : SockAddr → BitVec 16
  | unspec => 0
  | inet _ port => port
  | inet6 _ port => port

/-- `sin.sin_port = htons(port)`. -/
def setPort (port : BitVec 16) : SockAddr → SockAddr
  | unspec => unspec
  | inet addr _ => inet addr port
  | inet6 addr _ => inet6 addr port

/-- An address of zeros with the family `af`. -/
def zero (af : ℕ) : SockAddr :=
  if af = AF_INET then inet 0 0 else if af = AF_INET6 then inet6 0 0 else unspec

end SockAddr

/-- `same_ipaddr`. -/
def sameIpaddr : SockAddr → SockAddr → Bool
  | .inet a _, .inet b _ => a == b
  | .inet6 a _, .inet6 b _ => a == b
  | _, _ => false

/-- What a `char *` points to: one of the two static strings or a heap block. -/
inductive Ptr
  | null
  | hostUnknown
  | hostUnknownBadAF
  | block (id : ℕ)
  deriving DecidableEq

/-- `snprintf(buf, size, ...)` and `strncpy`: what fits into a buffer of `size` bytes. -/
def truncate (size : ℕ) (s : String) : String := String.ofList (s.toList.take (size - 1))

/-! ## ICMP -/

@[match_pattern] abbrev ICMP_UNREACH_NET : ℕ := 0
@[match_pattern] abbrev ICMP_UNREACH_HOST : ℕ := 1
@[match_pattern] abbrev ICMP_UNREACH_PROTOCOL : ℕ := 2
@[match_pattern] abbrev ICMP_UNREACH_PORT : ℕ := 3
@[match_pattern] abbrev ICMP_UNREACH_NEEDFRAG : ℕ := 4
@[match_pattern] abbrev ICMP_UNREACH_SRCFAIL : ℕ := 5
@[match_pattern] abbrev ICMP_UNREACH_NET_UNKNOWN : ℕ := 6
@[match_pattern] abbrev ICMP_UNREACH_HOST_UNKNOWN : ℕ := 7
@[match_pattern] abbrev ICMP_UNREACH_ISOLATED : ℕ := 8
@[match_pattern] abbrev ICMP_UNREACH_NET_PROHIB : ℕ := 9
@[match_pattern] abbrev ICMP_UNREACH_HOST_PROHIB : ℕ := 10
@[match_pattern] abbrev ICMP_UNREACH_TOSNET : ℕ := 11
@[match_pattern] abbrev ICMP_UNREACH_TOSHOST : ℕ := 12
@[match_pattern] abbrev ICMP_UNREACH_FILTER_PROHIB : ℕ := 13
@[match_pattern] abbrev ICMP_UNREACH_HOST_PRECEDENCE : ℕ := 14
@[match_pattern] abbrev ICMP_UNREACH_PRECEDENCE_CUTOFF : ℕ := 15

abbrev ICMP_DEST_UNREACH : ℕ := 3
abbrev ICMP_TIME_EXCEEDED : ℕ := 11
abbrev ICMP_EXC_TTL : ℕ := 0

/-- `SO_EE_ORIGIN_ICMP`. -/
def SO_EE_ORIGIN_ICMP : BitVec 8 := 2

/-- `sizeof(err_str)`. -/
def ERR_STR_SIZE : ℕ := 16

/-- The `switch` of `parse_icmp_response`: the string for a destination that cannot be reached,
    `none` for `NULL`. -/
def unreachText (code : ℕ) (info : ℤ) : Option String :=
  match code with
  | ICMP_UNREACH_NET | ICMP_UNREACH_NET_UNKNOWN | ICMP_UNREACH_ISOLATED | ICMP_UNREACH_TOSNET =>
    some "!N"
  | ICMP_UNREACH_HOST | ICMP_UNREACH_HOST_UNKNOWN | ICMP_UNREACH_TOSHOST => some "!H"
  | ICMP_UNREACH_NET_PROHIB | ICMP_UNREACH_HOST_PROHIB | ICMP_UNREACH_FILTER_PROHIB => some "!X"
  -- the destination host is reached
  | ICMP_UNREACH_PORT => none
  | ICMP_UNREACH_PROTOCOL => some "!P"
  | ICMP_UNREACH_NEEDFRAG => some (truncate ERR_STR_SIZE ("!F-" ++ toString info))
  | ICMP_UNREACH_SRCFAIL => some "!S"
  | ICMP_UNREACH_HOST_PRECEDENCE => some "!V"
  | ICMP_UNREACH_PRECEDENCE_CUTOFF => some "!C"
  | _ => some (truncate ERR_STR_SIZE ("!<" ++ toString code ++ ">"))

/-- What `parse_icmp_response` writes into `err_str` for an error other than that the TTL has been
    exceeded in transit, if anything. -/
def icmpText (type code : ℕ) (info : ℤ) : Option String :=
  let str := if type = ICMP_DEST_UNREACH then unreachText code info else some ""
  if str = some "" then
    some (truncate ERR_STR_SIZE ("!<" ++ toString type ++ "-" ++ toString code ++ ">"))
  else str

/-- `struct sock_extended_err`, with the address behind it (`SO_EE_OFFENDER`). -/
structure SockExtendedErr where
  origin : BitVec 8
  type : BitVec 8
  code : BitVec 8
  info : BitVec 32
  offender : SockAddr

/-- A control message: `SO_TIMESTAMP`, `IP_TTL`, `IP_RECVERR`, or one the programs ignore. -/
inductive Cmsg
  | timestamp (tv : Timeval)
  | ttl (ttl : ℤ)
  | recverr (ee : SockExtendedErr)
  | other

/-- What `recvmsg` fills in: the address of the host that answered and the control messages. -/
structure Msg where
  response : SockAddr
  cmsgs : List Cmsg

/-! ## System calls -/

/-- The results of `poll` and, if it reports an event, of `recvmsg` (`none` if that fails). -/
inductive PollResult
  | failed (eintr : Bool)
  | timeout
  | ready (pollin pollerr : Bool) (msg : Option Msg)

/-- One iteration of the loop of `traceroute_receive`. -/
structure Attempt where
  now : Timeval
  poll : PollResult

/-- The loop of `traceroute_receive`: the error code that it returns, or the message received and
    whether it comes from the error queue.  When all attempts are used up, the clock has passed the
    deadline. -/
def receiveLoop {D : Type} [CDouble D] (timeout sendTime : D) :
    List Attempt → Except ℤ (Bool × Msg)
  | [] => .error 1
  | a :: attempts =>
    let pollTimeout : ℤ :=
      CDouble.toInt (CDouble.ofInt 1000 * ((sendTime + timeout) - getTime a.now : D))
    if pollTimeout < 0 then .error 1
    else match a.poll with
      | .failed eintr => if eintr then receiveLoop timeout sendTime attempts else .error 3
      | .timeout => .error 2
      | .ready pollin pollerr msg =>
        if !pollin && !pollerr then .error 4
        else match msg with
          -- `recvmsg` has failed: poll again
          | none => receiveLoop timeout sendTime attempts
          | some msg => .ok (pollerr, msg)

/-- What the system calls for one probe return: the descriptor from `socket`, whether the other
    calls succeed, the times, and what `getnameinfo` writes for an address (numeric or not; nothing
    if it fails). -/
structure ProbeEnv where
  socket : ℤ
  bind : Bool
  setTtl : Bool
  connect : Bool
  setRecverr : Bool
  sendTime : Timeval
  send : Bool
  attempts : List Attempt
  cmsgTime : Timeval
  getnameinfo : SockAddr → (numeric : Bool) → String

/-- What the program sees of the network: the addresses of the target, unless `getaddrinfo` fails,
    and the system calls for each probe. -/
structure NetEnv where
  getaddrinfo : Option (List SockAddr)
  getnameinfo : SockAddr → (numeric : Bool) → String
  probe : ℕ → ProbeEnv

/-- A datagram as it leaves through its socket. -/
structure Packet where
  ttl : ℤ
  dest : SockAddr
  data : List (BitVec 8)

/-- The bytes of a packet: `0x40 | (val & 0x3F)`. -/
def payload (len : ℕ) : List (BitVec 8) :=
  (List.range len).map fun val => 0x40#8 ||| BitVec.ofNat 8 (val &&& 0x3F)

/-- Why a program ends before `do_traceroute` returns: it calls `exit`, or it does what C leaves
    undefined: an index outside of `tr.probes`, or a string read through `NULL`. -/
inductive Stop
  | exit (status : ℤ)
  | outOfBounds (index : ℤ)
  | nullDeref

/-- What is recorded of a run, in this order: descriptors opened and closed, packets sent, and
    heap blocks obtained and pointers passed to `free` (valid or not). -/
inductive Event
  | socket (fd : ℤ)
  | close (fd : ℤ)
  | send (pn : ℕ) (packet : Packet)
  | alloc (id : ℕ)
  | free (p : Ptr)

end Traceroute
