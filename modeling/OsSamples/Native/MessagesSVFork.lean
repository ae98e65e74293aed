import OsSamples.Lib.Machine
import OsSamples.Lib.NumberText
import OsSamples.Native.MessagesSV

/-!
# `messagesSV_snd.c` and `messagesSV_rcv.c`: a message to the child process

`main` of the sender, which runs in the parent and, after `fork`, in the child as well until the
child executes the receiver, `remove_q`, which is called when a process that runs the sender exits,
and `main` of the receiver.  Each call that may block or fail is one step.  The identifier of a
queue is its key, since no queue is created twice.

Left out: the lines that only tell how far a process has come, and `ftok`, whose result is a
parameter.
-/

namespace MessagesSVFork

open MessagesSV (Message MSG_MAX EXIT_SUCCESS EXIT_FAILURE noNews)
open NumberText

/-- `key_t`. -/
abbrev Key := BitVec 32

/-- The size of a message that `msgsnd` takes at most, and that of the messages in a queue. -/
def MSGMAX : ℕ := 8192
def MSGMNB : ℕ := 16384

/-- What the arrays hold that are not initialised, and the bytes in memory behind
    `msg_data.msg_text` of the sender. -/
structure Memory where
  msg_text : CharArray MSG_MAX
  behind : ℕ → UInt8
  rcv_text : CharArray MSG_MAX
  buffer : CharArray (MSG_MAX + 1)

/-- What the process is about to do. -/
inductive Pc
  | msgget
  | fork
  -- the parent
  | msgsnd
  | wait
  -- the child, with `key_str`
  | sprintf
  | execl (key_str : List Char)
  -- `exit` has been called: `remove_q`, and in it `msgctl`
  | atexit (status : ℤ)
  | msgctl (status : ℤ) (id : Key)
  -- the receiver, with its argument and with the identifier of the queue
  | openQueue (argument : List Char)
  | msgrcv (id : Key)
  | ended (status : ℤ)
  deriving DecidableEq

/-- A process with its copy of `mq_id`, which is `none` for -1. -/
structure Proc where
  pc : Pc
  mq_id : Option Key
  deriving DecidableEq

/-- The parent and the child. -/
inductive Who
  | parent
  | child
  deriving DecidableEq

/-- The queues that there are, and the two processes. -/
structure State where
  queues : Key → Option (List Message)
  parent : Proc
  child : Option Proc

/-- A line of `perror`, the line of the receiver with the message, and the line of `remove_q`. -/
inductive Event
  | perror (who : Who) (what : String)
  | got (text : List UInt8)
  | removing (who : Who)
  deriving DecidableEq

/-- A process goes on, and its call fails if `fails` is true. -/
structure Act where
  who : Who
  fails : Bool
  deriving DecidableEq

/-- `sprintf(key_str, "0x%x", mq_key)` into an array of 21 characters; `none` where the text is too
    long. -/
def sprintf (mq_key : Key) : Option (List Char) :=
  let text := '0' :: 'x' :: printHex mq_key.toNat
  if text.length < 21 then some text else none

/-- `(key_t) strtol(argv[1], NULL, 0)`. -/
def parseKey (argument : List Char) : Key := BitVec.ofNat 32 (strtol0 argument)

/-- The message of the sender. -/
def message (mem : Memory) (buffer : CString) : Option Message := do
  let msg_text ← strncpy mem.msg_text buffer.memory MSG_MAX
  let len := buffer.bytes.length
  return ⟨1, msg_text.bytes.take len ++ (List.range (len - MSG_MAX)).map mem.behind⟩

/-- The text that the receiver prints of a message, of which `msgrcv` returns `MSG_MAX` bytes at
    most. -/
def received (mem : Memory) (m : Message) : Option (List UInt8) := do
  let data := m.mtext.take MSG_MAX
  let msg_text ← mem.rcv_text.write 0 data
  let buffer ← strncpy mem.buffer msg_text.bytes data.length
  let buffer ← buffer.write data.length [0]
  buffer.text

/-- The bytes of the messages in a queue. -/
def size (ms : List Message) : ℕ := (ms.map fun m => m.mtext.length).sum

/-- `msgsnd`; `none` while it blocks. -/
def msgsnd (m : Message) (queue : Option (List Message)) : Option (Bool × Option (List Message)) :=
  match queue with
  | none => some (false, none)
  | some ms =>
    if MSGMAX < m.mtext.length then some (false, some ms)
    else if size ms + m.mtext.length ≤ MSGMNB then some (true, some (ms ++ [m]))
    else none

/-- The program: the key, the arguments, and the memory. -/
structure Program where
  mq_key : Key
  args : List CString
  mem : Memory

/-- What the parent sends. -/
def Program.buffer (p : Program) : CString := p.args.headD noNews

/-- The result of a step of a process: the line that it prints, the queues, the process, and the
    child that it creates. -/
structure Result where
  event : Option Event
  queues : Key → Option (List Message)
  proc : Proc
  forked : Option Proc

/-- A call fails, and the process calls `exit`, with the functions registered by `atexit`. -/
def failure (who : Who) (what : String) (queues : Key → Option (List Message)) (q : Proc) :
    Result :=
  ⟨some (.perror who what), queues, { q with pc := .atexit EXIT_FAILURE }, none⟩

/-- A step of one process, with its part of the state and with the child if there is one. -/
def procStep (p : Program) (who : Who) (fails : Bool) (queues : Key → Option (List Message))
    (child : Option Proc) (q : Proc) : Option Result :=
  let silent (pc : Pc) : Result := ⟨none, queues, { q with pc := pc }, none⟩
  match q.pc with
  | .msgget =>
    if fails then some (failure who "msgget failed" queues q)
    else
      let queue := (queues p.mq_key).getD []
      some ⟨none, Function.update queues p.mq_key (some queue), ⟨.fork, some p.mq_key⟩, none⟩
  | .fork =>
    if fails then some (failure who "fork failed" queues q)
    else some ⟨none, queues, { q with pc := .msgsnd }, some { q with pc := .sprintf }⟩
  | .msgsnd => do
    let m ← message p.mem p.buffer
    match q.mq_id with
    | none => return failure who "msgsnd failed" queues q
    | some id =>
      -- a call that blocks does not fail, since no signal is handled
      let (ok, queue) ← msgsnd m (queues id)
      if fails ∨ ok = false then return failure who "msgsnd failed" queues q
      else return ⟨none, Function.update queues id queue, { q with pc := .wait }, none⟩
  | .wait =>
    match child with
    | some ⟨.ended _, _⟩ => some (silent (.atexit EXIT_SUCCESS))
    | _ => none
  | .sprintf => (sprintf p.mq_key).map fun key_str => silent (.execl key_str)
  | .execl key_str =>
    if fails then
      some ⟨some (.perror who "execl failed"), queues, ⟨.atexit EXIT_FAILURE, none⟩, none⟩
    else some (silent (.openQueue key_str))
  | .atexit status =>
    match q.mq_id with
    | none => some (silent (.ended status))
    | some id => some ⟨some (.removing who), queues, { q with pc := .msgctl status id }, none⟩
  | .msgctl status id =>
    if fails ∨ queues id = none then some ⟨some (.perror who "msgctl(IPC_RMID) failed"), queues,
      { q with pc := .ended status }, none⟩
    else some ⟨none, Function.update queues id none, ⟨.ended status, none⟩, none⟩
  | .openQueue argument =>
    let mq_key := parseKey argument
    if fails ∨ queues mq_key = none then some ⟨some (.perror who "msgget failed"), queues,
      { q with pc := .ended EXIT_FAILURE }, none⟩
    else some (silent (.msgrcv mq_key))
  | .msgrcv id =>
    let failed : Result := ⟨some (.perror who "msgrcv failed"), queues,
      { q with pc := .ended EXIT_FAILURE }, none⟩
    match queues id with
    | none => some failed
    | some [] => none
    | some (m :: ms) =>
      if fails then some failed
      else (received p.mem m).map fun text => ⟨some (.got text),
        Function.update queues id (some ms), { q with pc := .ended EXIT_SUCCESS }, none⟩
  | .ended _ => none

/-- Both processes. -/
def machine (p : Program) : Machine State Act Event where
  step s a :=
    match a.who with
    | .parent => (procStep p .parent a.fails s.queues s.child s.parent).map fun r =>
        (r.event, ⟨r.queues, r.proc, r.forked.or s.child⟩)
    | .child => do
      let q ← s.child
      let r ← procStep p .child a.fails s.queues none q
      return (r.event, ⟨r.queues, s.parent, some r.proc⟩)

/-- The parent before `msgget`, with the queues that there are before. -/
def initial (queues : Key → Option (List Message)) : State := ⟨queues, ⟨.msgget, none⟩, none⟩

end MessagesSVFork
