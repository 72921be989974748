import OpenOS.Lib.Ring
import OpenOS.Lib.Run

/-! The message queues of `kernel/ipc.c`: a ring of 16 message slots with a head, a tail and a
count. A send fills the slot at the tail in place: the sender, the type, the size and, for a
non-empty message, the first `size` bytes of the data, leaving the rest of the slot's data as
the last message there left it. A receive copies the whole slot at the head.

What a message carries is its view: sender, type, size and the first `size` bytes. The queue
is a bounded FIFO of views. -/
namespace OpenOS.Ipc

def msgQueueSize : Nat := 16
def msgMaxSize : Nat := 256
structure Message where
  senderPid : Nat
  type : Nat
  size : Nat
  data : Nat → UInt8

structure MsgQueue where
  messages : Nat → Message
  head : Nat
  tail : Nat
  count : Nat
  ownerPid : Nat
  isOpen : Bool

/-- `memcpy(msg->data, data, size)`: the first bytes replaced, the others kept. -/
def copyData (data : List UInt8) (old : Nat → UInt8) : Nat → UInt8 :=
  fun i => if h : i < data.length then data[i] else old i

/-- The stores of `msgqueue_send` into the slot at the tail. -/
def storeMessage (senderPid type : Nat) (data : List UInt8) (slot : Message) : Message :=
  { slot with
    senderPid := senderPid, type := type, size := data.length,
    data := if data.length > 0 then copyData data slot.data else slot.data }

/-- `msgqueue_send` of the `size` bytes of `data`; `data` may be `NULL` only when it is empty,
which copies nothing either way. -/
def msgqueueSend (senderPid type : Nat) (data : List UInt8) (q : MsgQueue) : Int × MsgQueue :=
  if !q.isOpen || data.length > msgMaxSize then (-1, q)
  else if q.count ≥ msgQueueSize then (-1, q)
  else
    let msg := storeMessage senderPid type data (q.messages q.tail)
    (0, { q with
      messages := Function.update q.messages q.tail msg,
      tail := (q.tail + 1) % msgQueueSize, count := q.count + 1 })

/-- `msgqueue_receive` into a valid message: the copy of the slot at the head. -/
def msgqueueReceive (q : MsgQueue) : Int × Option Message × MsgQueue :=
  if !q.isOpen then (-1, none, q)
  else if q.count = 0 then (-1, none, q)
  else (0, some (q.messages q.head),
    { q with head := (q.head + 1) % msgQueueSize, count := q.count - 1 })

/-- Sender, type, size and the first `size` bytes of a message. -/
def Message.view (m : Message) : Nat × Nat × Nat × List UInt8 :=
  (m.senderPid, m.type, m.size, (List.range m.size).map m.data)

/-- The views of the messages the queue holds, oldest first. -/
def MsgQueue.contents (q : MsgQueue) : List (Nat × Nat × Nat × List UInt8) :=
  (Ring.contents msgQueueSize q.messages q.head q.count).map Message.view

variable {q : MsgQueue}

/-- The calls a queue serves while it is open. -/
inductive MsgCall
  | send (senderPid type : Nat) (data : List UInt8)
  | receive

def MsgCall.apply : MsgCall → MsgQueue → MsgQueue
  | .send senderPid type data, q => (msgqueueSend senderPid type data q).2
  | .receive, q => (msgqueueReceive q).2.2

end OpenOS.Ipc
