import FlightSoftware.Obc.IpcTransport
import FlightSoftware.Telemetry.Codec

/-!
# Packets from the boards

`ingest.c`: the thread of Commands that takes the packets of the boards off the bus. Telemetry
becomes a record for Data, with its source and the time of its reception; other packets go on as
they are to the process that the port belongs to.
-/

namespace FlightSoftware.Telemetry
open BigEndian Obc

inductive IngestForwardType where
  | raw
  | telemetry
  deriving DecidableEq

/-- `ingest_route_t` -/
structure IngestRoute where
  port : Byte
  owner : ObcRole
  forwardType : IngestForwardType

def adcsTelemPort : Byte := 20
def epsTelemPort : Byte := 21
def adcsStatusPort : Byte := 25
def timeSyncRequestPort : Byte := 26

def routes : List IngestRoute :=
  [⟨adcsTelemPort,.data,.telemetry⟩,⟨epsTelemPort,.data,.telemetry⟩,⟨adcsStatusPort,.fdir,.raw⟩,
    ⟨timeSyncRequestPort,.time,.raw⟩]

def findRoute (port : Byte) : Option IngestRoute := routes.find? fun route => route.port = port

/-- A packet that `csp_read` has returned, with the port and the source of its connection. -/
structure BusPacket where
  dport : Byte
  source : ℤ
  data : List Byte
  short : data.length < 2^16

/-- The seconds and nanoseconds of `clock_gettime`, unless it fails. -/
abbrev IngestClock := Option (BitVec 64 × BitVec 64)

/-- The `record` of `forward_telemetry`. -/
def ingestRecord (packet : BusPacket) (receivedAt : BitVec 64 × BitVec 64) : TelemetryRecord where
  sourceNode := BitVec.ofInt 8 packet.source
  sourcePort := packet.dport
  receivedUnixUs := receivedAt.1*1000000 + receivedAt.2/1000
  payloadLength := BitVec.ofNat 16 packet.data.length
  payload := padTo maxPayload packet.data

/-- The record that `forward_telemetry` comes to, if it does. -/
def forwardedRecord (packet : BusPacket) (clock : IngestClock) : Option TelemetryRecord :=
  if maxPayload < packet.data.length then none
  else if packet.source < 0 ∨ 255 < packet.source then none
  else clock.map (ingestRecord packet)

/-- `forward_telemetry`: the message for Data. -/
def forwardTelemetry (packet : BusPacket) (clock : IngestClock) : Option (List Byte) :=
  (forwardedRecord packet clock).bind fun record =>
    (obcTelemetryEncode record ipcMaxPayload).toOption

/-- The body of the loop of `ingest_thread`: the message that is sent, and to whom. -/
def ingestPacket (packet : BusPacket) (clock : IngestClock) : Option (ObcRole × List Byte) :=
  match findRoute packet.dport with
  | none => none
  | some route =>
    match route.forwardType with
    | .telemetry => (forwardTelemetry packet clock).map (.data,·)
    | .raw => some (route.owner,packet.data)

/-- The bytes of a record. -/
def TelemetryRecord.encoded (record : TelemetryRecord) : List Byte :=
  encodedHeader record ++ record.payload.take record.payloadLength.toNat

/-- The telemetry in a packet: nothing, unless it came to one of the two telemetry ports. -/
def boardTelemetry (packet : BusPacket) (clock : IngestClock) : Option TelemetryRecord :=
  if packet.dport = adcsTelemPort ∨ packet.dport = epsTelemPort then forwardedRecord packet clock
  else none

section

variable {packet : BusPacket} {clock : IngestClock} {record : TelemetryRecord}

theorem forwardedRecord_eq_some (h : forwardedRecord packet clock = some record) :
    packet.data.length ≤ maxPayload ∧ 0 ≤ packet.source ∧ packet.source ≤ 255 ∧
      ∃ receivedAt,clock = some receivedAt ∧ record = ingestRecord packet receivedAt := by
  rw [forwardedRecord] at h
  split_ifs at h with hlong hsource
  rw [not_or,not_lt,not_lt] at hsource
  obtain ⟨receivedAt,hclock,rfl⟩ := Option.map_eq_some_iff.mp h
  exact ⟨not_lt.mp hlong,hsource.1,hsource.2,receivedAt,hclock,rfl⟩

theorem ingestRecord_length (h : packet.data.length ≤ maxPayload)
    (receivedAt : BitVec 64 × BitVec 64) :
    (ingestRecord packet receivedAt).payloadLength.toNat = packet.data.length := by
  have hmax : maxPayload = 238 := rfl
  show (BitVec.ofNat 16 packet.data.length).toNat = _
  rw [BitVec.toNat_ofNat]
  omega

theorem ingestRecord_fits (h : packet.data.length ≤ maxPayload)
    (receivedAt : BitVec 64 × BitVec 64) : (ingestRecord packet receivedAt).Fits where
  array := padTo_length _ _
  length := by rwa [ingestRecord_length h]

/-- The payload of the record is the data of the packet, and the array is zero behind it. -/
theorem ingestRecord_cleared (h : packet.data.length ≤ maxPayload)
    (receivedAt : BitVec 64 × BitVec 64) :
    (ingestRecord packet receivedAt).cleared = ingestRecord packet receivedAt := by
  have hpayload : (ingestRecord packet receivedAt).payload.take packet.data.length = packet.data :=
    take_padTo h
  rw [TelemetryRecord.cleared,ingestRecord_length h,hpayload]
  simp only [ingestRecord,padTo,List.take_of_length_le h]

/-- What is forwarded is the encoding of the record, and the record can be got back from it. -/
theorem forwardTelemetry_eq (packet : BusPacket) (clock : IngestClock) :
    forwardTelemetry packet clock = (forwardedRecord packet clock).map TelemetryRecord.encoded := by
  rw [forwardTelemetry]
  cases hrecord : forwardedRecord packet clock with
  | none => rfl
  | some record =>
    obtain ⟨hlength,-,-,receivedAt,-,rfl⟩ := forwardedRecord_eq_some hrecord
    have hfits := (ingestRecord_fits hlength receivedAt).length
    have hroom : headerSize + maxPayload = ipcMaxPayload := rfl
    have hencode : obcTelemetryEncode (ingestRecord packet receivedAt) ipcMaxPayload =
        .ok (ingestRecord packet receivedAt).encoded :=
      obcTelemetryEncode_eq_ok_iff.mpr ⟨hfits,by omega,rfl⟩
    rw [Option.bind_some,hencode]
    rfl

theorem decode_forwarded (h : forwardedRecord packet clock = some record) :
    obcTelemetryDecode record.encoded = .ok record := by
  obtain ⟨hlength,-,-,receivedAt,-,rfl⟩ := forwardedRecord_eq_some h
  refine (obcTelemetryDecode_encoded (ingestRecord_fits hlength receivedAt)).trans ?_
  rw [ingestRecord_cleared hlength]

/-- Data gets the encodings of telemetry and nothing else. -/
theorem ingestPacket_data (packet : BusPacket) (clock : IngestClock) (message : List Byte) :
    ingestPacket packet clock = some (.data,message) ↔
      (boardTelemetry packet clock).map TelemetryRecord.encoded = some message := by
  rw [ingestPacket,boardTelemetry]
  by_cases htelem : packet.dport = adcsTelemPort ∨ packet.dport = epsTelemPort
  · obtain ⟨route,hroute,htype⟩ : ∃ route,findRoute packet.dport = some route ∧
        route.forwardType = .telemetry := by
      obtain hport | hport := htelem <;> rw [hport] <;> exact ⟨_,rfl,rfl⟩
    rw [if_pos htelem,hroute,← forwardTelemetry_eq]
    dsimp only
    rw [htype]
    simp
  · rw [if_neg htelem]
    refine iff_of_false (fun h => ?_) (fun h => by cases h)
    cases hroute : findRoute packet.dport with
    | none =>
      rw [hroute] at h
      cases h
    | some route =>
      have hmem := List.mem_of_find?_eq_some hroute
      have hport := List.find?_some hroute
      rw [decide_eq_true_eq] at hport
      rw [← hport] at htelem
      rw [hroute] at h
      simp only [routes,List.mem_cons,List.not_mem_nil,or_false] at hmem
      obtain rfl | rfl | rfl | rfl := hmem
      · exact htelem (.inl rfl)
      · exact htelem (.inr rfl)
      all_goals exact ObcRole.noConfusion (Prod.mk.inj (Option.some.inj h)).1

end

end FlightSoftware.Telemetry
