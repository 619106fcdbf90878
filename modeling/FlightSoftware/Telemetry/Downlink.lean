import FlightSoftware.Lib.Run
import FlightSoftware.Telemetry.Store

/-!
# Downlink of the telemetry log

Data answers a read request with the record at the requested offset, cut into
chunks: `handle_telemetry_read` of `storage.c`. Mission puts the chunks together,
passes the record to the radio and moves its cursor:
`payload_commander_downlink_telemetry_record` and `_batch` of
`payload_commander.c`.
-/

namespace FlightSoftware.Telemetry
open Obc

/-- The characters `TLMA`. -/
def readReplyMagic : BitVec 32 := 0x544C4D41#32
def readChunkSize : ℕ := 216

/-- `obc_telemetry_read_reply_t`, with the payload array in full. -/
structure TelemetryReadReply where
  magic : BitVec 32
  status : ℤ
  isLastChunk : Bool
  endOfLog : Bool
  recordOffset : ℕ
  nextOffset : ℕ
  recordLength : ℕ
  chunkOffset : ℕ
  chunkLength : ℕ
  payload : List Byte
  payloadSize : payload.length = readChunkSize
  deriving DecidableEq

/-! ### Data's side -/

/-- The reply of `send_telemetry_error`. -/
def telemetryErrorReply (offset : ℕ) (status : ReadStatus) : TelemetryReadReply where
  magic := readReplyMagic
  status := status.value
  isLastChunk := true
  endOfLog := status = .endOfLog
  recordOffset := offset
  nextOffset := offset
  recordLength := 0
  chunkOffset := 0
  chunkLength := 0
  payload := padTo readChunkSize []
  payloadSize := padTo_length _ _

/-- The reply for the chunk of a record that starts at `chunkOffset`. -/
def telemetryChunkReply (offset : ℕ) (read : ReadResult) (chunkOffset : ℕ) : TelemetryReadReply :=
  let chunkLength := min (read.recordSize - chunkOffset) readChunkSize
  let isLastChunk := chunkOffset + chunkLength = read.recordSize
  let chunk := (read.encoded.drop chunkOffset).take chunkLength
  { magic := readReplyMagic
    status := ReadStatus.ok.value
    isLastChunk := isLastChunk
    endOfLog := isLastChunk && read.endOfLog
    recordOffset := offset
    nextOffset := read.nextOffset
    recordLength := read.recordSize
    chunkOffset := chunkOffset
    chunkLength := chunkLength
    payload := padTo readChunkSize chunk
    payloadSize := padTo_length _ _ }

/-- The loop over the chunks of a record. -/
def telemetryChunkReplies (offset : ℕ) (read : ReadResult) (chunkOffset : ℕ) :
    List TelemetryReadReply :=
  if chunkOffset < read.recordSize then
    telemetryChunkReply offset read chunkOffset ::
      telemetryChunkReplies offset read
        (chunkOffset + min (read.recordSize - chunkOffset) readChunkSize)
  else []
termination_by read.recordSize - chunkOffset
decreasing_by
  have : 0 < readChunkSize := by decide
  omega

/-- `handle_telemetry_read`: the replies in the order in which they are sent. The first one
that cannot be sent ends the loop, so any prefix of them may be all that is sent. -/
def handleTelemetryRead (io : ReadIo) (log : Option (List Byte)) (requester : ObcRole)
    (offset : ℕ) : List TelemetryReadReply :=
  if requester ≠ .mission then []
  else
    let read := telemetryStoreReadRecord io log offset ipcMaxPayload
    if read.status ≠ .ok then [telemetryErrorReply offset read.status]
    else telemetryChunkReplies offset read 0

/-! ### Mission's side -/

/-- The outcome of one `IPC_receive_timeout` into a reply: a timeout, which is also what the
deadline amounts to, an error or a message of another size, or a message of this size. -/
inductive Received where
  | timeout
  | unsized
  | sized (source : ObcRole) (reply : TelemetryReadReply)
  deriving DecidableEq

/-- The variables of the receive loop. `encoded` holds the first `encoded_size` bytes. -/
structure RecordRead where
  encoded : List Byte
  expectedRecordLength : ℕ
  expectedNextOffset : ℕ
  receivedFirstChunk : Bool
  deriving DecidableEq

def RecordRead.start (offset : ℕ) : RecordRead := ⟨[],0,offset,false⟩

/-- What one pass of the receive loop comes to: another pass, -1, 0 at the end of the log, or
a complete record that goes to the radio. -/
inductive ReceivePass where
  | again (read : RecordRead)
  | failed
  | ended (nextOffset : ℕ)
  | transmit (encoded : List Byte) (nextOffset : ℕ) (endOfLog : Bool)
  deriving DecidableEq

/-- The pass over a reply with status OK, from the checks of the chunk on. -/
def receiveChunk (offset : ℕ) (read : RecordRead) (reply : TelemetryReadReply) : ReceivePass :=
  if reply.recordOffset ≠ offset ∨ reply.recordLength = 0 ∨ reply.recordLength > ipcMaxPayload ∨
      reply.chunkLength > readChunkSize ∨ reply.chunkOffset ≠ read.encoded.length ∨
      reply.chunkOffset + reply.chunkLength > reply.recordLength then .failed
  else if read.receivedFirstChunk ∧ (reply.recordLength ≠ read.expectedRecordLength ∨
      reply.nextOffset ≠ read.expectedNextOffset) then .failed
  else
    -- The first chunk sets the two expectations, a later one has just been compared with them.
    let read' : RecordRead := ⟨read.encoded ++ reply.payload.take reply.chunkLength,
      reply.recordLength,reply.nextOffset,true⟩
    if reply.isLastChunk = false then
      if reply.endOfLog then .failed else .again read'
    else if read'.encoded.length ≠ read'.expectedRecordLength then .failed
    else if ¬ Decodes read'.encoded then .failed
    else .transmit read'.encoded read'.expectedNextOffset reply.endOfLog

/-- One pass of the receive loop. -/
def receivePass (offset : ℕ) (read : RecordRead) : Received → ReceivePass
  | .timeout => .failed
  | .unsized => .again read
  | .sized source reply =>
    if source ≠ .data ∨ reply.magic ≠ readReplyMagic then .again read
    else if reply.status = ReadStatus.endOfLog.value then
      if reply.isLastChunk = false ∨ reply.endOfLog = false ∨ reply.chunkLength ≠ 0 ∨
          reply.recordOffset ≠ offset ∨ reply.nextOffset ≠ offset then .failed
      else .ended reply.nextOffset
    else if reply.status ≠ ReadStatus.ok.value then .failed
    else receiveChunk offset read reply

/-! ### Batches, and the system -/

/-- A call of `payload_commander_downlink_telemetry_batch` at a pass of its loop: before the
request, or waiting for the replies. -/
structure BatchCall where
  maxRecords : ℕ
  i : ℕ
  waiting : Option RecordRead

/-- Data's log, Mission's cursor and batch call, and all the replies that Data has sent so far.
Any of these may arrive at any time, late or more than once or never. `records` and `accepted`
are the records appended to the log and those that the radio has accepted, and
`acceptedBefore` is the number of the latter when the last call began. -/
structure Downlink where
  log : Option (List Byte)
  replies : List TelemetryReadReply
  cursor : ℕ
  recordsSent : ℕ
  endOfLog : Bool
  call : Option BatchCall
  returned : Option ℤ
  records : List (List Byte)
  accepted : List (List Byte)
  acceptedBefore : ℕ

inductive DownlinkAction where
  | append (record : List Byte)
  /-- Data handles a request: one of Mission's, or one that is left from before. -/
  | serve (io : ReadIo) (requester : ObcRole) (offset delivered : ℕ)
  | batch (maxRecords : ℕ)
  | request (sent : Bool)
  | receive (message : Received) (radioResult : ℤ)

def Downlink.finish (s : Downlink) (result : ℤ) : Downlink :=
  { s with call := none,returned := some result }

/-- The rest of the loop body of a batch, after a record call that returned 0. -/
def Downlink.recordReturned (s : Downlink) (call : BatchCall) (nextCursor : ℕ)
    (recordReachedEnd : Bool) : Downlink :=
  if nextCursor = s.cursor then
    if recordReachedEnd = false then s.finish (-1)
    else { s with endOfLog := true }.finish 0
  else
    let s' := { s with cursor := nextCursor,recordsSent := s.recordsSent+1 }
    if recordReachedEnd then { s' with endOfLog := true }.finish 0
    else if call.i+1 < call.maxRecords then
      { s' with call := some ⟨call.maxRecords,call.i+1,none⟩ }
    else s'.finish 0

/-- A pass of the receive loop, with the result of `radio_send` if it comes to that. -/
def Downlink.received (s : Downlink) (call : BatchCall) (radioResult : ℤ) :
    ReceivePass → Downlink
  | .again read => { s with call := some { call with waiting := some read } }
  | .failed => s.finish (-1)
  | .ended nextOffset => s.recordReturned call nextOffset true
  | .transmit encoded nextOffset endOfLog =>
    if radioResult ≠ 0 then s.finish (-1)
    else
      { s with accepted := s.accepted ++ [encoded] }.recordReturned call nextOffset endOfLog

/-- What can arrive: of the messages with the size of a reply, Data sends nothing but its
replies. -/
def Downlink.Arrives (s : Downlink) : Received → Prop
  | .timeout => True
  | .unsized => True
  | .sized source reply => source ≠ .data ∨ reply ∈ s.replies

instance (s : Downlink) (message : Received) : Decidable (s.Arrives message) :=
  match message with
  | .timeout => isTrue trivial
  | .unsized => isTrue trivial
  | .sized source reply => inferInstanceAs (Decidable (source ≠ .data ∨ reply ∈ s.replies))

def Downlink.step (s : Downlink) : DownlinkAction → Option Downlink
  | .append record =>
    let result := telemetryStoreAppend .complete record s.log
    if result.1 = 0 then some { s with log := result.2,records := s.records ++ [record] } else none
  | .serve io requester offset delivered =>
    some { s with
      replies := s.replies ++ (handleTelemetryRead io s.log requester offset).take delivered }
  | .batch maxRecords =>
    match s.call with
    | some _ => none
    | none =>
      if maxRecords = 0 then some (s.finish (-1))
      else some { s with
        recordsSent := 0
        endOfLog := false
        call := some ⟨maxRecords,0,none⟩
        acceptedBefore := s.accepted.length }
  | .request sent =>
    match s.call with
    | some ⟨maxRecords,i,none⟩ =>
      if sent then some { s with call := some ⟨maxRecords,i,some (.start s.cursor)⟩ }
      else some (s.finish (-1))
    | _ => none
  | .receive message radioResult =>
    match s.call with
    | some ⟨maxRecords,i,some read⟩ =>
      if s.Arrives message then
        some (s.received ⟨maxRecords,i,some read⟩ radioResult (receivePass s.cursor read message))
      else none
    | _ => none

end FlightSoftware.Telemetry
