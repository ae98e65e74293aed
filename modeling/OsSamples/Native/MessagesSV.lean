import OsSamples.Lib.CInt
import OsSamples.Lib.CString

/-!
# `messagesSV_snd_arg.c` and `messagesSV_rcv_cycle.c`

The loop that sends the arguments to a System V message queue, and the loop of the other program
that receives and prints what is in the queue.  The queue is the list of its messages; the
environment decides which calls succeed, and what the memory behind the message buffer holds.  A
result is `none` where a program stores outside of one of its arrays.

Left out: the key and the identifier of the queue, which both programs get from `msgget`, what the
sender prints about them, and the calls of `perror`.
-/

namespace MessagesSV

open CInt

/-- The largest size of a message. -/
def MSG_MAX : ℕ := 30

def EXIT_SUCCESS : ℤ := 0
def EXIT_FAILURE : ℤ := 1

/-- A message in the queue. -/
structure Message where
  mtype : ℤ
  mtext : List UInt8
  deriving DecidableEq

/-! ## The sender -/

/-- Which calls of `msgsnd` succeed, and the bytes in memory behind `msg_data.msg_text`. -/
structure SendEnv where
  succeeds : ℕ → Bool
  behind : ℕ → UInt8

/-- What has been sent: the lengths passed to `msgsnd`, and the queue. -/
structure Sent where
  lengths : List ℕ
  queue : List Message
  status : ℤ
  deriving DecidableEq

/-- The `len` bytes that `msgsnd` takes from `msg_text` on. -/
def SendEnv.read (env : SendEnv) (msgText : CharArray MSG_MAX) (len : ℕ) : List UInt8 :=
  msgText.bytes.take len ++ (List.range (len - MSG_MAX)).map env.behind

/-- The loop of the sender over the texts; `msg_data.msg_type` is 1. -/
def sendLoop (env : SendEnv) : List CString → CharArray MSG_MAX → Sent → Option Sent
  | [], _, s => some s
  | buffer :: buffers, msgText, s => do
    let msgText ← strncpy msgText buffer.memory MSG_MAX
    let len := buffer.bytes.length
    let s := { s with lengths := s.lengths ++ [len] }
    if env.succeeds (s.lengths.length - 1) then
      sendLoop env buffers msgText { s with queue := s.queue ++ [⟨1, env.read msgText len⟩] }
    else return { s with status := EXIT_FAILURE }

/-- The default message. -/
def noNews : CString where
  bytes := "no news is good news".toList.map fun c => UInt8.ofNat c.toNat
  noNul := by decide

/-- The texts to be sent. -/
def buffers (args : List CString) : List CString := if args = [] then [noNews] else args

/-- `main` of the sender, with the queue as it is before. -/
def sender (env : SendEnv) (args : List CString) (msgText : CharArray MSG_MAX)
    (queue : List Message) : Option Sent :=
  sendLoop env (buffers args) msgText ⟨[], queue, EXIT_SUCCESS⟩

/-! ## The receiver -/

/-- What the receiver prints: on `stdout` a message ("Got the message: ") or that the queue with the
    identifier `id` is removed ("Removing the message queue"), on `stderr` a text. -/
inductive Line
  | got (text : List UInt8)
  | removing (id : ℤ)
  | stderr (text : String)
  deriving DecidableEq

/-- The variables of `main`, and what it has printed. -/
structure Receiver where
  queue : List Message
  msgText : CharArray MSG_MAX
  buffer : CharArray (MSG_MAX + 1)
  status : ℕ
  printed : List Line
  deriving DecidableEq

/-- `msgrcv` of any type with MSG_NOERROR and IPC_NOWAIT: a message is cut to `MSG_MAX` bytes; the
    result is `-1` where the queue is empty. -/
def Receiver.msgrcv (s : Receiver) : Option (ℤ × Receiver) :=
  match s.queue with
  | [] => some (-1, s)
  | m :: queue => do
    let text := m.mtext.take MSG_MAX
    let msgText ← s.msgText.write 0 text
    return (text.length, { s with queue := queue, msgText := msgText })

/-- The message of `msgSize` bytes is printed. -/
def Receiver.got (s : Receiver) (msgSize : ℕ) : Option Receiver := do
  let buffer ← strncpy s.buffer s.msgText.bytes msgSize
  let buffer ← buffer.write msgSize [0]
  let text ← buffer.text
  return { s with
    buffer := buffer
    status := 0
    printed := s.printed ++ [.got text] }

/-- The queue is empty for the first time in a row, or for the second time. -/
def Receiver.noMsg (s : Receiver) : Receiver :=
  { s with
    status := s.status + 1
    printed := s.printed ++ [.stderr
      (if s.status ≠ 0 then "No more messages in the queue.\n"
        else "Waiting for more messages.\n")] }

/-- The loop of the receiver, at most `fuel` rounds of it.  Each round prints a line; `fails` tells
    after how many lines a call of `msgrcv` returns an error other than ENOMSG. -/
def receiveLoop (fails : ℕ → Bool) : ℕ → Receiver → Option (ℤ × Receiver)
  | 0, _ => none
  | fuel + 1, s =>
    if s.status < 2 then
      if fails s.printed.length then some (EXIT_FAILURE, s)
      else do
        let (msgSize, s) ← s.msgrcv
        if msgSize = -1 then receiveLoop fails fuel s.noMsg
        else receiveLoop fails fuel (← s.got msgSize.toNat)
    else some (EXIT_SUCCESS, s)

/-- `main` of the receiver: its exit status and what it prints.  At the end `remove_q` removes the
    queue. -/
def receiver (mqId : ℤ) (fails : ℕ → Bool) (fuel : ℕ) (queue : List Message)
    (msgText : CharArray MSG_MAX) (buffer : CharArray (MSG_MAX + 1)) : Option (ℤ × List Line) :=
  let msgQnum := toInt32 queue.length
  let printed := [.stderr ("The number of messages in the queue: " ++ toString msgQnum ++ "\n")]
  (receiveLoop fails fuel ⟨queue, msgText, buffer, 0, printed⟩).map fun r =>
    (r.1, r.2.printed ++ [.removing mqId])

end MessagesSV
