import FlightSoftware.Ccsds.Profile
import FlightSoftware.Lib.Ring
import FlightSoftware.Radio.Interface

/-!
# The transmit queue

`radio_queue.c`: messages wait in a ring of bytes, each behind a five byte
header, and one thread takes them out in chunks, frames each chunk as a packet
and sends it. The functions below are the code between a lock and its unlock;
`transmit` is what the thread does outside the lock.
-/

namespace FlightSoftware.Radio
open Ccsds BigEndian

def radioQueueSize : ℕ := 128*1024
def sendAttempts : ℕ := 3
def messageHeader : ℕ := 5
def contentTypes : ℕ := 4
/-- Message type of an already framed packet, sent as it is. -/
def rawFrame : Byte := 0xFF#8
def historySize : ℕ := 600

/-! ### `size_t` arithmetic -/

def sizeAdd (a b : ℕ) : ℕ := (a + b) % 2^64
def sizeSub (a b : ℕ) : ℕ := (a + (2^64 - b)) % 2^64

/-! ### Shared state -/

/-- The address of a `radio_packet_sender_t` function. -/
abbrev Sender := ℕ

/-- `sent_packet_t`; `packet` holds its `length` bytes. -/
structure SentPacket where
  used : Bool
  apid : BitVec 16
  sequence : BitVec 16
  packet : List Byte
  deriving DecidableEq,Repr

def SentPacket.zero : SentPacket := ⟨false,0,0,[]⟩

structure RadioQueue where
  buffer : List Byte
  head : ℕ
  count : ℕ
  inFlight : ℕ
  threadStarted : Bool
  sender : Option Sender
  stats : RadioStats
  history : List SentPacket
  historyNext : ℕ

def RadioQueue.initial : RadioQueue where
  buffer := List.replicate radioQueueSize 0#8
  head := 0
  count := 0
  inFlight := 0
  threadStarted := false
  sender := none
  stats := .zero
  history := List.replicate historySize .zero
  historyNext := 0

/-- Copy `n` bytes out at the head. -/
def ringRead (q : RadioQueue) (n : ℕ) : List Byte × RadioQueue :=
  let first := sizeSub radioQueueSize q.head
  let first := if first > n then n else first
  (Memory.copyOut q.buffer q.head first ++ Memory.copyOut q.buffer 0 (sizeSub n first),
    { q with
      head := sizeAdd q.head n % radioQueueSize
      count := sizeSub q.count n })

/-- Copy `src` in behind the bytes waiting. -/
def ringWrite (q : RadioQueue) (src : List Byte) : RadioQueue :=
  let tail := sizeAdd q.head q.count % radioQueueSize
  let first := sizeSub radioQueueSize tail
  let first := if first > src.length then src.length else first
  { q with
    buffer := Memory.copyIn (Memory.copyIn q.buffer tail (src.take first)) 0 (src.drop first)
    count := sizeAdd q.count src.length }

/-! ### Callers -/

def pushLocked (q : RadioQueue) (content : Byte) (data : List Byte) : ℤ × RadioQueue :=
  if sizeAdd data.length messageHeader > sizeSub radioQueueSize q.count then (-1,q)
  else
    let q := ringWrite q (content :: writeU32Be (BitVec.ofNat 32 data.length))
    let q := ringWrite q data
    let q := if q.count > q.stats.queueHighWater.toNat then
        { q with stats.queueHighWater := BitVec.ofNat 32 q.count }
      else q
    (0,q)

def RadioQueue.reject (q : RadioQueue) : RadioQueue :=
  { q with stats.queueRejects := q.stats.queueRejects + 1#32 }

/-- The argument check of `radio_queue_push`. -/
def badArgs (content : LgCcsdsContentType) (data : Option (List Byte))
    (sendPacket : Option Sender) : Bool :=
  match data with
  | none => true
  | some data =>
    data.length == 0 || decide (data.length > 2^32-1) || sendPacket.isNone ||
      decide (content.value.toNat ≥ contentTypes) ||
      (content == .ssdv && data.length % ssdvPacketSize != 0)

/-- Start the thread at the first push. `created` is whether `pthread_create` succeeds. -/
def startThread (q : RadioQueue) (sendPacket : Option Sender) (created : Bool) :
    Bool × RadioQueue :=
  if q.threadStarted then (true,q)
  else if created then (true,{ q with sender := sendPacket,threadStarted := true })
  else (false,{ q with sender := sendPacket })

def radioQueuePush (q : RadioQueue) (content : LgCcsdsContentType) (data : Option (List Byte))
    (sendPacket : Option Sender) (created : Bool) : ℤ × RadioQueue :=
  if badArgs content data sendPacket then (-1,q.reject)
  else match startThread q sendPacket created with
    | (false,q) => (-1,q.reject)
    | (true,q) => match pushLocked q (content.value.setWidth 8) (data.getD []) with
      | (result,q) => if result ≠ 0 then (-1,q.reject) else (0,q)

/-- The newest packet sent with this APID and sequence count. -/
def findSent (q : RadioQueue) (apid sequenceCount : BitVec 16) : Option SentPacket :=
  (List.range historySize).findSome? fun i =>
    let index := (q.historyNext + historySize - 1 - i) % historySize
    let slot := q.history.getD index .zero
    if slot.used && slot.apid == apid && slot.sequence == sequenceCount then some slot else none

def radioResend (q : RadioQueue) (apid sequenceCount : BitVec 16) : ℤ × RadioQueue :=
  match findSent q apid sequenceCount with
  | none => (-1,q)
  | some slot => if q.threadStarted then pushLocked q rawFrame slot.packet else (-1,q)

/-! ### The thread -/

/-- What the first critical section leaves for the code outside the lock:
`bytes` is `chunk`, or `packet` when the message was already framed. -/
structure TxJob where
  framed : Bool
  content : Byte
  seq : BitVec 16
  bytes : List Byte
  sender : Option Sender
  deriving DecidableEq,Repr

/-- The variables of `tx_thread` that outlive an iteration, and the packet being
sent while the lock is not held. -/
structure TxThread where
  sequence : List (BitVec 16)
  content : Byte
  messageLeft : ℕ
  job : Option TxJob
  deriving DecidableEq,Repr

def TxThread.initial : TxThread where
  sequence := List.replicate contentTypes 0
  content := LgCcsdsContentType.rawTelemetry.value.setWidth 8
  messageLeft := 0
  job := none

/-- A call of `ring_read`: how much was asked for and how much was there. -/
structure ReadCall where
  n : ℕ
  count : ℕ
  deriving DecidableEq,Repr

structure TakeResult where
  queue : RadioQueue
  thread : TxThread
  job : TxJob
  reads : List ReadCall

/-- Read the header where a message starts. -/
def startMessage (q : RadioQueue) (tx : TxThread) : RadioQueue × TxThread × List ReadCall :=
  if tx.messageLeft = 0 then
    let (header,q') := ringRead q messageHeader
    (q',{ tx with
      content := byteAt header 0
      messageLeft := (readU32Be (header.drop 1)).toNat },[⟨messageHeader,q.count⟩])
  else (q,tx,[])

/-- Take a framed packet or the next chunk. -/
def takeChunk (q : RadioQueue) (tx : TxThread) : TakeResult :=
  if tx.content = rawFrame then
    let n := tx.messageLeft
    let (packet,q') := ringRead q n
    let seq := ((byteAt packet 2 &&& 0x3F#8).setWidth 16 <<< 8) ||| (byteAt packet 3).setWidth 16
    let job : TxJob := ⟨true,tx.content,seq,packet,q.sender⟩
    ⟨{ q' with inFlight := n },{ tx with messageLeft := 0,job := some job },job,[⟨n,q.count⟩]⟩
  else
    let n := if tx.messageLeft < radioMaxPayload then tx.messageLeft else radioMaxPayload
    let (chunk,q') := ringRead q n
    let seq := tx.sequence.getD tx.content.toNat 0
    let job : TxJob := ⟨false,tx.content,seq,chunk,q.sender⟩
    ⟨{ q' with inFlight := n },{ tx with
        messageLeft := sizeSub tx.messageLeft n
        sequence := tx.sequence.set tx.content.toNat ((seq + 1#16) &&& maxSequenceCount)
        job := some job },job,[⟨n,q.count⟩]⟩

/-- The first critical section. The thread waits while the queue is empty. -/
def takeSection (q : RadioQueue) (tx : TxThread) : Option TakeResult :=
  if q.count = 0 then none
  else
    let (q,tx,reads) := startMessage q tx
    let r := takeChunk q tx
    some { r with reads := reads ++ r.reads }

/-- The result of framing and sending: the packet, the last reply of the sender
and the number of attempts. -/
structure TxOutcome where
  packet : List Byte
  sent : ℤ
  attempts : ℕ
  deriving DecidableEq,Repr

/-- The retry loop, with `left` attempts to go. `replies` are the sender's. -/
def sendLoop (replies : ℕ → ℤ) : ℕ → ℕ → ℤ → ℤ × ℕ
  | 0,attempts,sent => (sent,attempts)
  | left+1,attempts,sent =>
    if sent ≠ 0 then sendLoop replies left (attempts+1) (replies attempts) else (sent,attempts)

/-- The packet for a job, or nothing when it cannot be framed. -/
def framePacket (job : TxJob) : Option (List Byte) :=
  if job.framed then some job.bytes
  else match lgCcsdsProfileBuild (.ofValue (job.content.setWidth 32)) job.seq 1#32 none job.bytes
      radioMaxPacketSize with
    | .ok packet => some packet
    | .error _ => none

def transmit (job : TxJob) (replies : ℕ → ℤ) : TxOutcome :=
  match framePacket job with
  | none => ⟨[],-1,0⟩
  | some packet =>
    let (sent,attempts) := sendLoop replies sendAttempts 0 (-1)
    ⟨packet,sent,attempts⟩

/-- The second critical section. -/
def finishSection (q : RadioQueue) (job : TxJob) (outcome : TxOutcome) : RadioQueue :=
  let q := { q with inFlight := 0 }
  let q := if outcome.attempts > 1 then
      { q with stats.packetsRetried :=
          q.stats.packetsRetried + BitVec.ofNat 32 (outcome.attempts - 1) }
    else q
  if outcome.sent = 0 then
    let q := { q with stats.packetsSent := q.stats.packetsSent + 1#32 }
    if job.framed then { q with stats.packetsResent := q.stats.packetsResent + 1#32 }
    else
      let apid := ((byteAt outcome.packet 0 &&& 0x07#8).setWidth 16 <<< 8) |||
        (byteAt outcome.packet 1).setWidth 16
      { q with
        history := q.history.set q.historyNext ⟨true,apid,job.seq,outcome.packet⟩
        historyNext := (q.historyNext + 1) % historySize }
  else { q with stats.packetsDropped := q.stats.packetsDropped + 1#32 }

end FlightSoftware.Radio
