import FlightSoftware.Adcs.CommandHandler
import FlightSoftware.Bus.Frame
import FlightSoftware.Fdir.Fallback
import FlightSoftware.Obc.IpcTransport
import FlightSoftware.Obc.LengthFields

/-!
# Commands for the boards

Time, FDIR and Mission send commands to the boards by requests to Commands, whose relay thread
puts them on the bus; telecommands of the ground station come in over the radio and go on the bus
too. Here are the messages byte by byte, and what the attitude controller takes them for.
-/

namespace FlightSoftware.Obc
open Adcs BigEndian LittleEndian
open Bus (adcsAddress adcsCmdPort)

def cmdTimeSync : Byte := 4
def cmdPointToSun : Byte := 5

/-! ### Requests to Commands -/

/-- The calls that send a `relay_request_t`: `send_time_sync_to`, `fallback_reset_board`,
`fallback_shutdown_board` and `payload_commander_point_to_sun`. -/
inductive BoardRequest where
  | sendTimeSyncTo (addr cmdPort : Byte) (seq : BitVec 32) (unixTimeSec : BitVec 64)
  | resetBoard (boardAddr boardPort : Byte)
  | shutdownBoard (boardAddr boardPort : Byte)
  | pointToSun

/-- A `command_envelope_t` in memory; its three bytes of padding may hold anything. -/
def envelopeBytes (envelope : Fdir.CommandEnvelope) (padding : BitVec 24) : List Byte :=
  envelope.commandId :: writeLe 3 padding.toNat ++ writeU32Le envelope.seq

namespace BoardRequest

def src : BoardRequest → ObcRole
  | sendTimeSyncTo .. => .time
  | resetBoard .. | shutdownBoard .. => .fdir
  | pointToSun => .mission

def dest : BoardRequest → Byte × Byte
  | sendTimeSyncTo addr cmdPort _ _ => (addr,cmdPort)
  | resetBoard boardAddr boardPort =>
    let req := (Fdir.fallbackResetBoard boardAddr boardPort 0).1
    (req.destAddr,req.destPort)
  | shutdownBoard boardAddr boardPort =>
    let req := (Fdir.fallbackShutdownBoard boardAddr boardPort 0).1
    (req.destAddr,req.destPort)
  | pointToSun => (adcsAddress,adcsCmdPort)

/-- The command as it is copied into the payload. -/
def command (padding : BitVec 24) : BoardRequest → List Byte
  | sendTimeSyncTo _ _ seq unixTimeSec =>
    envelopeBytes ⟨cmdTimeSync,seq⟩ padding ++ writeU64Le unixTimeSec
  | resetBoard boardAddr boardPort =>
    envelopeBytes (Fdir.fallbackResetBoard boardAddr boardPort 0).1.payload padding
  | shutdownBoard boardAddr boardPort =>
    envelopeBytes (Fdir.fallbackShutdownBoard boardAddr boardPort 0).1.payload padding
  | pointToSun => envelopeBytes ⟨cmdPointToSun,1⟩ padding

def relayRequest (padding : BitVec 24) (r : BoardRequest) : RelayRequest :=
  ⟨r.dest.1,r.dest.2,BitVec.ofNat 16 (r.command padding).length,
    padTo relayPayloadSize (r.command padding),padTo_length _ _⟩

/-- The packet that the request is for. -/
def packet (padding : BitVec 24) (r : BoardRequest) : RelayPacket :=
  ⟨r.dest.1,r.dest.2,r.command padding⟩

end BoardRequest

@[simp] theorem envelopeBytes_length (envelope : Fdir.CommandEnvelope) (padding : BitVec 24) :
    (envelopeBytes envelope padding).length = envelopeSize := by
  rw [envelopeBytes,writeU32Le,List.length_append,List.length_cons,writeLe_length,writeLe_length]
  rfl

theorem BoardRequest.command_length_le (padding : BitVec 24) (r : BoardRequest) :
    (r.command padding).length ≤ relayPayloadSize := by
  have henvelope : envelopeSize + 8 ≤ relayPayloadSize := by decide
  cases r with
  | sendTimeSyncTo addr cmdPort seq unixTimeSec =>
    rw [command,List.length_append,envelopeBytes_length,writeU64Le,writeLe_length]
    exact henvelope
  | resetBoard | shutdownBoard | pointToSun =>
    rw [command,envelopeBytes_length]
    omega

/-! ### The message -/

/-- `sizeof(relay_request_t)` -/
def relayRequestSize : ℕ := 4 + relayPayloadSize

/-- A `relay_request_t` in memory. -/
def RelayRequest.bytes (req : RelayRequest) : List Byte :=
  req.destAddr :: req.destPort :: writeU16Le req.length ++ req.payload

theorem RelayRequest.bytes_length (req : RelayRequest) : req.bytes.length = relayRequestSize := by
  rw [bytes,List.length_append,List.length_cons,List.length_cons,writeU16Le,writeLe_length,
    req.payloadSize]
  rfl

/-- What the relay thread makes of a result of `IPC_receive_timeout`. -/
def relayMail : Option IpcReceived → RelayMail
  | none => .error
  | some m =>
    if h : m.payload.length = relayRequestSize then
      .request ⟨byteAt m.payload 0,byteAt m.payload 1,readU16Le (m.payload.drop 2),
        m.payload.drop 4,by rw [List.length_drop,h]; rfl⟩
    else .otherSize

/-- A request is read as it was written. -/
theorem relayMail_bytes (src : Byte) (req : RelayRequest) :
    relayMail (some ⟨src,req.bytes⟩) = .request req := by
  obtain ⟨destAddr,destPort,length,payload,hsize⟩ := req
  have hlength : readU16Le ((RelayRequest.bytes ⟨destAddr,destPort,length,payload,hsize⟩).drop 2) =
      length := readU16Le_write length payload
  have hpayload : (RelayRequest.bytes ⟨destAddr,destPort,length,payload,hsize⟩).drop 4 =
      payload := by
    show (writeU16Le length ++ payload).drop 2 = payload
    exact List.drop_left' (writeLe_length 2 length.toNat)
  rw [relayMail,dif_pos (RelayRequest.bytes_length _)]
  simp only [hlength,hpayload]
  rfl

/-- The call of `IPC_send` for a request. -/
def BoardRequest.call (padding : BitVec 24) (r : BoardRequest) : Outgoing where
  src := r.src
  dest := .commands
  data := (r.relayRequest padding).bytes
  wire := ObcRole.commands.value :: r.src.value ::
    writeU16Be (BitVec.ofNat 16 (r.relayRequest padding).bytes.length) ++
      (r.relayRequest padding).bytes
  serialized := ipcSendWire_of_le
    (by rw [RelayRequest.bytes_length]; decide) (Option.some_ne_none _)

/-- If anything goes out for the request, it is the command, sent to its board. -/
theorem BoardRequest.relayRequest_eq_some {padding : BitVec 24} {r : BoardRequest} {io : RelayIo}
    {packet : RelayPacket} (h : Obc.relayRequest (r.relayRequest padding) io = some packet) :
    packet = r.packet padding := by
  have hlen := r.command_length_le padding
  have hsize : relayPayloadSize = 128 := rfl
  have hnat : (BitVec.ofNat 16 (r.command padding).length).toNat = (r.command padding).length := by
    rw [BitVec.toNat_ofNat]
    omega
  have hdata : copyOut (padTo relayPayloadSize (r.command padding)) io.beyond
      (r.command padding).length = r.command padding := by
    rw [copyOut_of_le (by rw [padTo_length]; exact hlen),take_padTo hlen]
  rw [Obc.relayRequest] at h
  split_ifs at h
  obtain rfl := Option.some.inj h
  simp only [relayRequest,packet,hnat,hdata]

/-! ### What the attitude controller takes them for -/

/-- A packet for the command handler of the attitude controller. -/
def RelayPacket.forAdcs (packet : RelayPacket) : Bool :=
  packet.destAddr = adcsAddress ∧ packet.destPort = adcsCmdPort

/-- The command of the attitude controller that a packet carries, if it is for it and valid. -/
def RelayPacket.adcsCommand (p : Platform) (packet : RelayPacket) : Option AdcsCommand :=
  if packet.forAdcs then (commandVerdict p packet.data).toOption else none

/-- The packet ends the command handler of the attitude controller. -/
def RelayPacket.stopsAdcs (p : Platform) (packet : RelayPacket) : Bool :=
  packet.forAdcs && match decodeCommand p packet.data with
    | .reset | .shutdown => true
    | _ => false

/-- What the attitude controller is to do for a request. -/
def BoardRequest.adcsCommand : BoardRequest → Option AdcsCommand
  | sendTimeSyncTo addr cmdPort _ unixTimeSec =>
    if addr = adcsAddress ∧ cmdPort = adcsCmdPort ∧ 0 < unixTimeSec.toInt ∧
        unixTimeSec.toNat ≤ (2^64-1)/1000000 then
      some (.setUnixTime unixTimeSec)
    else none
  | resetBoard .. | shutdownBoard .. => none
  | pointToSun => some (.setMode 3)

def BoardRequest.stopsAdcs : BoardRequest → Bool
  | resetBoard boardAddr boardPort | shutdownBoard boardAddr boardPort =>
    boardAddr = adcsAddress ∧ boardPort = adcsCmdPort
  | _ => false

theorem decode_timeSync (p : Platform) (padding : BitVec 24) (seq : BitVec 32)
    (unixTimeSec : BitVec 64) :
    decodeCommand p (envelopeBytes ⟨cmdTimeSync,seq⟩ padding ++ writeU64Le unixTimeSec) =
      decodeTimeSync unixTimeSec := by
  have htime : readU64Le ((envelopeBytes ⟨cmdTimeSync,seq⟩ padding ++
      writeU64Le unixTimeSec).drop 8) = unixTimeSec := by
    rw [show 8 = envelopeSize from rfl,List.drop_left' (envelopeBytes_length _ _)]
    exact (congrArg readU64Le (List.append_nil _).symm).trans (readU64Le_write unixTimeSec [])
  have hlen : 16 ≤ (envelopeBytes ⟨cmdTimeSync,seq⟩ padding ++ writeU64Le unixTimeSec).length := by
    rw [List.length_append,envelopeBytes_length,writeU64Le,writeLe_length]
    decide
  have hwire : WireCommand.ofByte (byteAt (envelopeBytes ⟨cmdTimeSync,seq⟩ padding ++
      writeU64Le unixTimeSec) 0) = some .timeSync := rfl
  rw [decodeCommand,hwire]
  simp only [htime,withPayload,if_pos hlen]

theorem verdict_timeSync (unixTimeSec : BitVec 64) :
    (decodeTimeSync unixTimeSec).verdict.toOption =
      if 0 < unixTimeSec.toInt ∧ unixTimeSec.toNat ≤ (2^64-1)/1000000 then
        some (.setUnixTime unixTimeSec)
      else none := by
  rw [decodeTimeSync]
  by_cases hbad : unixTimeSec.toInt ≤ 0 ∨ (2^64-1)/1000000 < unixTimeSec.toNat
  · rw [if_pos hbad,if_neg fun h => hbad.elim (not_le.mpr h.1) (not_lt.mpr h.2)]
    rfl
  · rw [if_neg hbad]
    rw [not_or,not_le,not_lt] at hbad
    rw [if_pos hbad]
    rfl

/-- The command is understood as it was meant, whatever its padding holds. -/
theorem BoardRequest.adcsCommand_packet (p : Platform) (padding : BitVec 24) (r : BoardRequest) :
    (r.packet padding).adcsCommand p = r.adcsCommand := by
  rw [RelayPacket.adcsCommand]
  cases r with
  | sendTimeSyncTo addr cmdPort seq unixTimeSec =>
    have hverdict : commandVerdict p (packet padding (sendTimeSyncTo addr cmdPort seq
        unixTimeSec)).data = (decodeTimeSync unixTimeSec).verdict :=
      congrArg Decoded.verdict (decode_timeSync ..)
    have hfor : RelayPacket.forAdcs (packet padding (sendTimeSyncTo addr cmdPort seq unixTimeSec)) =
        decide (addr = adcsAddress ∧ cmdPort = adcsCmdPort) := rfl
    rw [hverdict,verdict_timeSync,hfor,BoardRequest.adcsCommand]
    by_cases hdest : addr = adcsAddress ∧ cmdPort = adcsCmdPort
    · simp only [hdest,true_and,and_self,decide_true,if_true]
    · rw [if_neg (by rwa [decide_eq_true_eq]),if_neg fun h => hdest ⟨h.1,h.2.1⟩]
  | resetBoard | shutdownBoard => exact ite_self none
  | pointToSun => rfl

theorem BoardRequest.stopsAdcs_packet (p : Platform) (padding : BitVec 24) (r : BoardRequest) :
    (r.packet padding).stopsAdcs p = r.stopsAdcs := by
  rw [RelayPacket.stopsAdcs]
  cases r with
  | sendTimeSyncTo addr cmdPort seq unixTimeSec =>
    have hdecode : decodeCommand p (packet padding (sendTimeSyncTo addr cmdPort seq
        unixTimeSec)).data = decodeTimeSync unixTimeSec := decode_timeSync ..
    rw [hdecode,decodeTimeSync]
    split_ifs <;> exact Bool.and_false _
  | resetBoard | shutdownBoard => exact Bool.and_true _
  | pointToSun => rfl

/-! ### Telecommands -/

def radioRxBufSize : ℕ := 256

/-- One pass of `radio_rx_thread` with what `radio_receive` has put into its buffer. -/
def radioRxPacket (buffer : List Byte) (io : RelayIo) : Option RelayPacket :=
  if buffer.length < 2 then none
  else if io.connected = false then none
  else if io.buffer = false then none
  else some ⟨byteAt buffer 0,byteAt buffer 1,buffer.drop 2⟩

/-- The packet that a telecommand is for. -/
def telecommandPacket (buffer : List Byte) : Option RelayPacket :=
  radioRxPacket buffer ⟨true,true,[]⟩

theorem radioRxPacket_eq_some {buffer : List Byte} {io : RelayIo} {packet : RelayPacket}
    (h : radioRxPacket buffer io = some packet) : telecommandPacket buffer = some packet := by
  rw [radioRxPacket] at h
  split_ifs at h with hshort
  rw [telecommandPacket,radioRxPacket,if_neg hshort,if_neg Bool.noConfusion,
    if_neg Bool.noConfusion,h]

end FlightSoftware.Obc
