import FlightSoftware.Compute.Worker
import FlightSoftware.Data.StoredFile
import FlightSoftware.Mission.PhotoDownlink

/-!
# Length fields of messages

Three messages have a length next to the array it speaks of: requests to relay a
packet, chunks to be written and the replies with the chunks of a file. Their handlers
take the length as it comes, so one that exceeds the array makes them take bytes that
lie behind the message in memory.
-/

namespace FlightSoftware.Obc
open Data Mission

/-- The bytes that a copy of a number of bytes from the front of an array takes, with what lies
behind the array. -/
def copyOut (payload beyond : List Byte) (length : ℕ) : List Byte := (payload ++ beyond).take length

theorem copyOut_length_le (payload beyond : List Byte) (length : ℕ) :
    (copyOut payload beyond length).length ≤ length := List.length_take_le ..

theorem copyOut_of_le {payload beyond : List Byte} {length : ℕ} (h : length ≤ payload.length) :
    copyOut payload beyond length = payload.take length := List.take_append_of_le_length h

theorem copyOut_all (payload beyond : List Byte) :
    copyOut payload beyond (payload.length + beyond.length) = payload ++ beyond := by
  rw [copyOut,← List.length_append,List.take_length]

/-- A handler does not trust a length field: in no environment it takes more bytes out of the
message than the array holds, and it refuses a message whose length exceeds the array. `taken` are
the bytes that go on, if any. -/
structure DistrustsLength {ε : Type} (size length : ℕ) (taken : ε → Option (List Byte)) : Prop where
  bounded : ∀ env bytes,taken env = some bytes → bytes.length ≤ size
  refused : size < length → ∀ env,taken env = none

/-- A handler that takes as many bytes as the length says trusts all lengths beyond the array. -/
theorem distrustsLength_iff {ε : Type} {size length : ℕ} {taken : ε → Option (List Byte)}
    (hlength : ∀ env bytes,taken env = some bytes → bytes.length ≤ length)
    (haccepts : ∃ env,taken env ≠ none) : DistrustsLength size length taken ↔ length ≤ size := by
  constructor
  · intro h
    by_contra hlong
    obtain ⟨env,haccepts⟩ := haccepts
    exact haccepts (h.refused (not_le.mp hlong) env)
  · intro h
    exact ⟨fun env bytes htaken => (hlength env bytes htaken).trans h,
      fun hlong => absurd h (not_le.mpr hlong)⟩

/-! ### The relay -/

def relayPayloadSize : ℕ := 128

/-- `relay_request_t` -/
structure RelayRequest where
  destAddr : Byte
  destPort : Byte
  length : BitVec 16
  payload : List Byte
  payloadSize : payload.length = relayPayloadSize

/-- What `IPC_receive_timeout` gives the relay thread. -/
inductive RelayMail where
  | timeout
  | error
  | otherSize
  | request (req : RelayRequest)

/-- What CSP does for a request, and what lies behind the request in memory. -/
structure RelayIo where
  connected : Bool
  buffer : Bool
  beyond : List Byte

structure RelayPacket where
  destAddr : Byte
  destPort : Byte
  data : List Byte

/-- The packet for a request, unless there is no connection or no buffer. -/
def relayRequest (req : RelayRequest) (io : RelayIo) : Option RelayPacket :=
  if io.connected = false then none
  else if io.buffer = false then none
  else some ⟨req.destAddr,req.destPort,copyOut req.payload io.beyond req.length.toNat⟩

/-- The packets that the relay thread has sent, and its calls of
`commands_health_relay_progress`. -/
structure RelayThread where
  sent : List RelayPacket
  progress : ℕ

/-- One pass of `relay_thread`. -/
def RelayThread.pass (s : RelayThread) (mail : RelayMail) (io : RelayIo) : RelayThread :=
  match mail with
  | .timeout => { s with progress := s.progress+1 }
  | .error => s
  | .otherSize => { s with progress := s.progress+1 }
  | .request req => ⟨s.sent ++ (relayRequest req io).toList,s.progress+1⟩

def RelayThread.run (s : RelayThread) : List (RelayMail × RelayIo) → RelayThread
  | [] => s
  | (mail,io) :: more => (s.pass mail io).run more

theorem relayRequest_eq_some {req : RelayRequest} {io : RelayIo} {packet : RelayPacket}
    (h : relayRequest req io = some packet) :
    packet.data = copyOut req.payload io.beyond req.length.toNat := by
  unfold relayRequest at h
  split_ifs at h
  obtain rfl := Option.some.inj h
  rfl

/-- As long as no length exceeds the array, what the relay sends is the front of the payload of a
request. -/
theorem RelayThread.run_sends_payload {s : RelayThread} {mails : List (RelayMail × RelayIo)}
    (hlength : ∀ req io,(.request req,io) ∈ mails → req.length.toNat ≤ relayPayloadSize)
    {packet : RelayPacket} (hpacket : packet ∈ (s.run mails).sent) :
    packet ∈ s.sent ∨ ∃ req io,(.request req,io) ∈ mails ∧
      packet.data = req.payload.take req.length.toNat := by
  induction mails generalizing s with
  | nil => exact .inl hpacket
  | cons first mails ih =>
    obtain ⟨mail,io⟩ := first
    have hrest := ih (fun req io hm => hlength req io (List.mem_cons_of_mem _ hm)) hpacket
    rcases hrest with hsent | ⟨req,io',hm,hdata⟩
    · cases mail with
      | timeout | error | otherSize => exact .inl hsent
      | request req =>
        refine (List.mem_append.mp hsent).imp id fun hnew => ?_
        have hfits := hlength req io List.mem_cons_self
        rw [← req.payloadSize] at hfits
        refine ⟨req,io,List.mem_cons_self,?_⟩
        rw [relayRequest_eq_some (Option.mem_toList.mp hnew),copyOut_of_le hfits]
    · exact .inr ⟨req,io',List.mem_cons_of_mem _ hm,hdata⟩

/-- The bytes of a request that go into a packet. -/
def relayTaken (req : RelayRequest) (io : RelayIo) : Option (List Byte) :=
  (relayRequest req io).map RelayPacket.data

theorem relay_distrusts_iff (req : RelayRequest) :
    DistrustsLength relayPayloadSize req.length.toNat (relayTaken req) ↔
      req.length.toNat ≤ relayPayloadSize := by
  refine distrustsLength_iff ?_ ⟨⟨true,true,[]⟩,nofun⟩
  intro io bytes h
  obtain ⟨packet,hpacket,rfl⟩ := Option.map_eq_some_iff.mp h
  rw [relayRequest_eq_some hpacket]
  exact copyOut_length_le _ _ _

/-! ### Chunks to be written -/

/-- `data_write_chunk_t` -/
structure WriteChunk where
  path : List Byte
  offset : BitVec 32
  length : BitVec 16
  isLast : Bool
  payload : List Byte
  payloadSize : payload.length = Compute.dataWriteChunkSize

/-- The files, what the file operations do, and what lies behind the chunk in memory. -/
structure WriteEnv where
  disk : Disk
  io : WriteIo
  beyond : List Byte

/-- `storage_thread` for a chunk: the path is ended by a zero in its last byte, and
`filesystem_write_chunk` called. -/
def storageWrite (chunk : WriteChunk) (env : WriteEnv) : Disk × ℤ :=
  filesystemWriteChunk env.disk (chunk.path.take (dataMaxPath-1)) chunk.offset
    (copyOut chunk.payload env.beyond chunk.length.toNat) env.io

/-- The bytes of a chunk that go into the file. -/
def writeTaken (chunk : WriteChunk) (env : WriteEnv) : Option (List Byte) :=
  if env.io.opened then
    some (takeUpTo env.io.flushStopsAfter (takeUpTo env.io.stopsAfter
      (copyOut chunk.payload env.beyond chunk.length.toNat)))
  else none

/-- The files afterwards: the same, or with the bytes in one of them. -/
theorem storageWrite_disk (chunk : WriteChunk) (env : WriteEnv) :
    (storageWrite chunk env).1 =
      match writeTaken chunk env with
      | none => env.disk
      | some bytes =>
        let path := chunk.path.take (dataMaxPath-1)
        Function.update env.disk path (some
          ((if chunk.offset = 0 then [] else (env.disk path).getD []) ++ bytes)) := by
  unfold storageWrite filesystemWriteChunk writeTaken
  cases env.io.opened <;> rfl

theorem takeUpTo_length_le (limit : Option ℕ) (bytes : List Byte) :
    (takeUpTo limit bytes).length ≤ bytes.length := by
  cases limit with
  | none => exact le_rfl
  | some k => exact List.length_take_le' ..

theorem write_distrusts_iff (chunk : WriteChunk) :
    DistrustsLength Compute.dataWriteChunkSize chunk.length.toNat (writeTaken chunk) ↔
      chunk.length.toNat ≤ Compute.dataWriteChunkSize := by
  refine distrustsLength_iff ?_ ⟨⟨fun _ => none,.succeeds,[]⟩,nofun⟩
  intro env bytes h
  unfold writeTaken at h
  split_ifs at h
  obtain rfl := Option.some.inj h
  calc (takeUpTo _ (takeUpTo _ _)).length
    _ ≤ (takeUpTo env.io.stopsAfter
          (copyOut chunk.payload env.beyond chunk.length.toNat)).length := takeUpTo_length_le _ _
    _ ≤ (copyOut chunk.payload env.beyond chunk.length.toNat).length := takeUpTo_length_le _ _
    _ ≤ chunk.length.toNat := copyOut_length_le _ _ _

/-! ### Chunks of a photo -/

/-- What the downlink has received before, and what lies behind the reply in memory. -/
structure PhotoEnv where
  total : ℕ
  beyond : List Byte

/-- The bytes of a reply that go into `photo_buf`, unless the call gives up. -/
def photoTaken (reply : DataReadReply) (env : PhotoEnv) : Option (List Byte) :=
  if reply.status ≠ 0 then none
  else if env.total + reply.length > maxPhotoSize then none
  else some (copyOut reply.payload env.beyond reply.length)

/-- For the replies that Data sends this is what the downlink does. -/
theorem receiveReply_taken {reply : DataReadReply} (hlength : reply.length ≤ chunkSize)
    (s : PhotoDownlink) (call : PhotoCall) (beyond : List Byte) (radioResult : ℤ) :
    s.receiveReply call reply radioResult =
      match photoTaken reply ⟨call.received.length,beyond⟩ with
      | none => s.finish (-1)
      | some bytes =>
        let call := { call with received := call.received ++ bytes }
        if reply.isLast then s.transmit call radioResult else { s with call := some call } := by
  have hchunk : copyOut reply.payload beyond reply.length = reply.chunk :=
    copyOut_of_le (by rwa [reply.payloadSize])
  unfold PhotoDownlink.receiveReply photoTaken
  dsimp only
  rw [hchunk]
  by_cases hstatus : reply.status ≠ 0
  · rw [if_pos hstatus,if_pos hstatus]
  · rw [if_neg hstatus,if_neg hstatus]
    by_cases hroom : call.received.length + reply.length > maxPhotoSize
    · rw [if_pos hroom,if_pos hroom]
    · rw [if_neg hroom,if_neg hroom]

theorem photo_distrusts_iff {reply : DataReadReply} (h16 : reply.length < 2^16) :
    DistrustsLength chunkSize reply.length (photoTaken reply) ↔
      reply.status ≠ 0 ∨ reply.length ≤ chunkSize := by
  by_cases hstatus : reply.status = 0
  · have hroom : ¬ 0 + reply.length > maxPhotoSize := by
      have : maxPhotoSize = 2^16 := rfl
      omega
    rw [or_iff_right (not_not.mpr hstatus)]
    refine distrustsLength_iff ?_ ⟨⟨0,[]⟩,?_⟩
    · intro env bytes h
      unfold photoTaken at h
      split_ifs at h
      obtain rfl := Option.some.inj h
      exact copyOut_length_le _ _ _
    · rw [photoTaken,if_neg (not_not.mpr hstatus),if_neg hroom]
      nofun
  · have hnone : ∀ env,photoTaken reply env = none := fun env => if_pos hstatus
    refine iff_of_true ⟨fun env bytes h => ?_,fun _ => hnone⟩ (.inl hstatus)
    rw [hnone env] at h
    cases h

/-! ### All of them -/

/-- None of the handlers looks at the length, so each trusts exactly the lengths beyond the array;
but a reply that reports an error is refused whatever its length is. -/
theorem length_fields_distrusted_iff (req : RelayRequest) (chunk : WriteChunk)
    (reply : DataReadReply) :
    (DistrustsLength relayPayloadSize req.length.toNat (relayTaken req) ↔
      req.length.toNat ≤ relayPayloadSize) ∧
    (DistrustsLength Compute.dataWriteChunkSize chunk.length.toNat (writeTaken chunk) ↔
      chunk.length.toNat ≤ Compute.dataWriteChunkSize) ∧
    (reply.length < 2^16 →
      (DistrustsLength chunkSize reply.length (photoTaken reply) ↔
        reply.status ≠ 0 ∨ reply.length ≤ chunkSize)) :=
  ⟨relay_distrusts_iff req,write_distrusts_iff chunk,photo_distrusts_iff⟩

/-- Messages whose length is one more than the array holds. -/
def longRequest : RelayRequest := ⟨2,10,129,padTo 128 [],padTo_length _ _⟩

def longChunk : WriteChunk := ⟨[111],0,129,true,padTo 128 [],padTo_length _ _⟩

def longReply : DataReadReply := ⟨0,0,201,true,padTo 200 [],padTo_length _ _⟩

/-- The byte behind the array is sent, written and received. -/
theorem byte_behind_array_taken :
    relayTaken longRequest ⟨true,true,[0x5a]⟩ = some (longRequest.payload ++ [0x5a]) ∧
      (storageWrite longChunk ⟨fun _ => none,.succeeds,[0x5a]⟩).1 [111] =
        some (longChunk.payload ++ [0x5a]) ∧
      photoTaken longReply ⟨0,[0x5a]⟩ = some (longReply.payload ++ [0x5a]) := by
  have hrequest := copyOut_all longRequest.payload [0x5a]
  have hchunk := copyOut_all longChunk.payload [0x5a]
  have hreply := copyOut_all longReply.payload [0x5a]
  rw [longRequest.payloadSize] at hrequest
  rw [longChunk.payloadSize] at hchunk
  rw [longReply.payloadSize] at hreply
  exact ⟨congrArg some hrequest,congrArg some hchunk,congrArg some hreply⟩

end FlightSoftware.Obc
