import FlightSoftware.Telemetry.Record

/-!
# The codec of telemetry records

`obc_telemetry_encode` of `obc_telemetry_protocol.c`, and the decoder against it: each
undoes the other, and no record is the beginning of another one.
-/

namespace FlightSoftware.Telemetry
open BigEndian Obc

/-- The header that the encoder writes. -/
def encodedHeader (record : TelemetryRecord) : List Byte :=
  telemetryMagic ++ [formatVersion,record.sourceNode,record.sourcePort,0#8] ++
    writeU64Be record.receivedUnixUs ++ writeU16Be record.payloadLength

/-- The bytes written to the output, of which there are `encoded_size`. -/
def obcTelemetryEncode (record : TelemetryRecord) (outputCapacity : ℕ) :
    Except TelemetryError (List Byte) :=
  if record.payloadLength.toNat > maxPayload then .error .invalidArgument
  else if outputCapacity < headerSize + record.payloadLength.toNat then .error .bufferTooSmall
  else .ok (encodedHeader record ++ record.payload.take record.payloadLength.toNat)

/-- A record as the program can hold it: the payload is an array of the maximum size. -/
structure TelemetryRecord.Fits (record : TelemetryRecord) : Prop where
  array : record.payload.length = maxPayload
  length : record.payloadLength.toNat ≤ maxPayload

/-- The record with the bytes beyond its length set to zero. -/
def TelemetryRecord.cleared (record : TelemetryRecord) : TelemetryRecord :=
  { record with
    payload := record.payload.take record.payloadLength.toNat ++
      List.replicate (maxPayload - record.payloadLength.toNat) 0#8 }

/-! ### The encoder -/

theorem obcTelemetryEncode_isOk_iff {record : TelemetryRecord}
    (h : record.payloadLength.toNat ≤ maxPayload) (outputCapacity : ℕ) :
    (obcTelemetryEncode record outputCapacity).isOk = true ↔
      headerSize + record.payloadLength.toNat ≤ outputCapacity := by
  rw [obcTelemetryEncode,if_neg (Nat.not_lt.mpr h)]
  by_cases hcapacity : outputCapacity < headerSize + record.payloadLength.toNat
  · rw [if_pos hcapacity]
    exact iff_of_false Bool.false_ne_true (by omega)
  · rw [if_neg hcapacity]
    exact iff_of_true rfl (by omega)

theorem obcTelemetryEncode_eq_ok_iff {record : TelemetryRecord} {outputCapacity : ℕ}
    {encoded : List Byte} : obcTelemetryEncode record outputCapacity = .ok encoded ↔
      record.payloadLength.toNat ≤ maxPayload ∧
        headerSize + record.payloadLength.toNat ≤ outputCapacity ∧
        encoded = encodedHeader record ++ record.payload.take record.payloadLength.toNat := by
  unfold obcTelemetryEncode
  constructor
  · intro h
    split_ifs at h with hlong hcapacity
    exact ⟨by omega,by omega,(Except.ok.inj h).symm⟩
  · rintro ⟨hlong,hcapacity,rfl⟩
    rw [if_neg (by omega),if_neg (by omega)]

theorem encodedHeader_length (record : TelemetryRecord) :
    (encodedHeader record).length = headerSize := by
  rw [encodedHeader,List.length_append,List.length_append,List.length_append,writeU64Be_length,
    writeU16Be_length]
  rfl

/-! ### The fields of what is written -/

variable (record : TelemetryRecord) (rest : List Byte)

/-- The first eight bytes one by one. -/
theorem encodedHeader_append : encodedHeader record ++ rest =
    0x57#8 :: 0x45#8 :: 0x53#8 :: 0x57#8 :: formatVersion :: record.sourceNode ::
      record.sourcePort :: 0#8 ::
        (writeU64Be record.receivedUnixUs ++ (writeU16Be record.payloadLength ++ rest)) := by
  simp [encodedHeader,telemetryMagic]

theorem encodedHeader_drop_timestamp :
    (encodedHeader record ++ rest).drop timestampOffset =
      writeU64Be record.receivedUnixUs ++ (writeU16Be record.payloadLength ++ rest) := by
  rw [encodedHeader_append]
  rfl

theorem encodedHeader_drop_length :
    (encodedHeader record ++ rest).drop lengthOffset = writeU16Be record.payloadLength ++ rest := by
  have hdrop : lengthOffset = timestampOffset + (writeU64Be record.receivedUnixUs).length := by
    rw [writeU64Be_length]
    rfl
  rw [hdrop,← List.drop_drop,encodedHeader_drop_timestamp,List.drop_left]

theorem encodedHeader_lengthField :
    lengthField (encodedHeader record ++ rest) = record.payloadLength.toNat := by
  rw [lengthField,encodedHeader_drop_length,readU16Be_write]

theorem encodedHeader_drop : (encodedHeader record ++ rest).drop headerSize = rest := by
  rw [← encodedHeader_length record,List.drop_left]

variable {record}

theorem encodedHeader_valid (h : record.payloadLength.toNat ≤ maxPayload) :
    HeaderValid (encodedHeader record ++ rest) where
  magic := by
    rw [encodedHeader_append]
    rfl
  version := by
    rw [encodedHeader_append]
    rfl
  reserved := by
    rw [encodedHeader_append]
    rfl
  length := by rwa [encodedHeader_lengthField]

/-! ### There and back -/

/-- What the decoder makes of an accepted byte string. -/
def decodedRecord (encoded : List Byte) : TelemetryRecord where
  sourceNode := byteAt encoded sourceNodeOffset
  sourcePort := byteAt encoded sourcePortOffset
  receivedUnixUs := readU64Be (encoded.drop timestampOffset)
  payloadLength := readU16Be (encoded.drop lengthOffset)
  payload := (encoded.drop headerSize).take (lengthField encoded) ++
    List.replicate (maxPayload - lengthField encoded) 0#8

theorem obcTelemetryDecode_of_decodes {encoded : List Byte} (h : Decodes encoded) :
    obcTelemetryDecode encoded = .ok (decodedRecord encoded) := by
  obtain ⟨hheader,hlength⟩ := decodes_iff.mp h
  rw [obcTelemetryDecode,if_neg (by omega),if_neg (not_not.mpr hheader.magic),
    if_neg (not_not.mpr hheader.version),if_neg (not_not.mpr hheader.reserved),
    if_neg (Nat.not_lt.mpr hheader.length),if_neg (not_not.mpr hlength)]
  rfl

theorem obcTelemetryDecode_eq_ok_iff {encoded : List Byte} {record : TelemetryRecord} :
    obcTelemetryDecode encoded = .ok record ↔ Decodes encoded ∧ record = decodedRecord encoded := by
  constructor
  · intro h
    have hdecodes : Decodes encoded := by
      rw [Decodes,h]
      rfl
    rw [obcTelemetryDecode_of_decodes hdecodes] at h
    exact ⟨hdecodes,(Except.ok.inj h).symm⟩
  · rintro ⟨hdecodes,rfl⟩
    exact obcTelemetryDecode_of_decodes hdecodes

/-- The decoder gets the record back, with zeros beyond its length. -/
theorem obcTelemetryDecode_encoded (h : record.Fits) :
    obcTelemetryDecode
        (encodedHeader record ++ record.payload.take record.payloadLength.toNat) =
      .ok record.cleared := by
  set payload := record.payload.take record.payloadLength.toNat with hpayload
  have hlength : payload.length = record.payloadLength.toNat := by
    rw [hpayload,List.length_take,h.array,Nat.min_eq_left h.length]
  have hfield := encodedHeader_lengthField record payload
  have hdecodes : Decodes (encodedHeader record ++ payload) := by
    refine decodes_iff.mpr ⟨encodedHeader_valid payload h.length,?_⟩
    rw [List.length_append,encodedHeader_length,hfield,hlength]
  rw [obcTelemetryDecode_of_decodes hdecodes,decodedRecord,hfield,encodedHeader_drop,
    encodedHeader_drop_timestamp,encodedHeader_drop_length,readU64Be_write,readU16Be_write,
    ← hlength,List.take_length,hlength,encodedHeader_append]
  rfl

theorem decodedRecord_fits {encoded : List Byte} (h : Decodes encoded) :
    (decodedRecord encoded).Fits := by
  obtain ⟨hheader,hlength⟩ := decodes_iff.mp h
  refine ⟨?_,hheader.length⟩
  have := hheader.length
  rw [decodedRecord,List.length_append,List.length_take,List.length_drop,List.length_replicate]
  omega

/-- The header of an accepted byte string is the one that the encoder writes. -/
theorem encodedHeader_decodedRecord {encoded : List Byte} (h : Decodes encoded) :
    encodedHeader (decodedRecord encoded) = encoded.take headerSize := by
  obtain ⟨hheader,-⟩ := decodes_iff.mp h
  have hle := h.header_le
  rw [headerSize] at hle
  have hmagic : encoded.take 4 = telemetryMagic := hheader.magic
  have hbytes : (encoded.drop 4).take 4 =
      [formatVersion,byteAt encoded sourceNodeOffset,byteAt encoded sourcePortOffset,0#8] := by
    have hversion : byteAt encoded 4 = formatVersion := hheader.version
    have hreserved : byteAt encoded 7 = 0#8 := hheader.reserved
    rw [drop_eq_byteAt_cons (by omega),drop_eq_byteAt_cons (by omega),
      drop_eq_byteAt_cons (by omega),drop_eq_byteAt_cons (by omega),hversion,hreserved]
    rfl
  have htimestamp : writeU64Be (readU64Be (encoded.drop timestampOffset)) =
      (encoded.drop timestampOffset).take 8 :=
    writeU64Be_readU64Be (by rw [List.length_drop,timestampOffset]; omega)
  have hlength : writeU16Be (readU16Be (encoded.drop lengthOffset)) =
      (encoded.drop lengthOffset).take 2 :=
    writeU16Be_readU16Be (by rw [List.length_drop,lengthOffset]; omega)
  rw [encodedHeader,decodedRecord]
  dsimp only
  rw [htimestamp,hlength,← hmagic,← hbytes]
  change encoded.take 4 ++ (encoded.drop 4).take 4 ++ (encoded.drop (4+4)).take 8 ++
    (encoded.drop (4+4+8)).take 2 = encoded.take (4+4+8+2)
  rw [← List.take_add,← List.take_add,← List.take_add]

/-- The encoder writes an accepted byte string again, byte for byte. -/
theorem encoded_decodedRecord {encoded : List Byte} (h : Decodes encoded) :
    encodedHeader (decodedRecord encoded) ++
      (decodedRecord encoded).payload.take (decodedRecord encoded).payloadLength.toNat =
        encoded := by
  have hfield : (decodedRecord encoded).payloadLength.toNat = lengthField encoded := rfl
  have hpayload : ((encoded.drop headerSize).take (lengthField encoded)).length =
      lengthField encoded := by
    rw [List.length_take,List.length_drop,h.length]
    omega
  have htake : (decodedRecord encoded).payload.take (lengthField encoded) =
      (encoded.drop headerSize).take (lengthField encoded) := List.take_left' hpayload
  rw [encodedHeader_decodedRecord h,hfield,htake,← List.take_add,← h.length,List.take_length]

theorem obcTelemetryEncode_decodedRecord {encoded : List Byte} (h : Decodes encoded)
    {outputCapacity : ℕ} (hcapacity : encoded.length ≤ outputCapacity) :
    obcTelemetryEncode (decodedRecord encoded) outputCapacity = .ok encoded := by
  refine obcTelemetryEncode_eq_ok_iff.mpr ⟨(decodedRecord_fits h).length,?_,
    (encoded_decodedRecord h).symm⟩
  change headerSize + lengthField encoded ≤ outputCapacity
  rwa [← h.length]

/-- No record is the beginning of another one. -/
theorem Decodes.eq_of_prefix {s t : List Byte} (hs : Decodes s) (ht : Decodes t) (h : s <+: t) :
    s = t := by
  obtain ⟨rest,rfl⟩ := h
  have hfield := lengthField_append hs.header_le rest
  have hlength := ht.length
  rw [hfield,← hs.length,List.length_append] at hlength
  have hnil : rest = [] := List.eq_nil_of_length_eq_zero (by omega)
  rw [hnil,List.append_nil]

/-- The codec is exact in both directions, and what it accepts delimits itself. -/
theorem telemetry_codec_exact :
    (∀ record : TelemetryRecord,record.Fits → ∀ outputCapacity,
      ((obcTelemetryEncode record outputCapacity).isOk = true ↔
        headerSize + record.payloadLength.toNat ≤ outputCapacity) ∧
      ∀ encoded,obcTelemetryEncode record outputCapacity = .ok encoded →
        obcTelemetryDecode encoded = .ok record.cleared) ∧
    (∀ encoded record,obcTelemetryDecode encoded = .ok record → record.Fits ∧
      ∀ outputCapacity,encoded.length ≤ outputCapacity →
        obcTelemetryEncode record outputCapacity = .ok encoded) ∧
    (∀ encoded,(obcTelemetryDecode encoded).isOk = true ↔
      ∃ record : TelemetryRecord,record.Fits ∧ ∃ outputCapacity,
        obcTelemetryEncode record outputCapacity = .ok encoded) ∧
    ∀ s t,(obcTelemetryDecode s).isOk = true → (obcTelemetryDecode t).isOk = true →
      s <+: t → s = t := by
  refine ⟨fun record hfits outputCapacity => ⟨obcTelemetryEncode_isOk_iff hfits.length _,?_⟩,
    ?_,fun encoded => ⟨fun h => ?_,?_⟩,fun s t hs ht => Decodes.eq_of_prefix hs ht⟩
  · intro encoded h
    obtain ⟨-,-,rfl⟩ := obcTelemetryEncode_eq_ok_iff.mp h
    exact obcTelemetryDecode_encoded hfits
  · intro encoded record h
    obtain ⟨hdecodes,rfl⟩ := obcTelemetryDecode_eq_ok_iff.mp h
    exact ⟨decodedRecord_fits hdecodes,fun _ => obcTelemetryEncode_decodedRecord hdecodes⟩
  · exact ⟨decodedRecord encoded,decodedRecord_fits h,_,
      obcTelemetryEncode_decodedRecord h le_rfl⟩
  · rintro ⟨record,hfits,outputCapacity,h⟩
    obtain ⟨-,-,rfl⟩ := obcTelemetryEncode_eq_ok_iff.mp h
    rw [obcTelemetryDecode_encoded hfits]
    rfl

/-- A record of three bytes, with others behind them. -/
def shortRecord : TelemetryRecord :=
  ⟨5,1,1700000000,3,[7,8,9] ++ List.replicate (maxPayload-3) 1⟩

/-- It fits a buffer of 21 bytes, and comes back with zeros behind its payload. -/
theorem short_record_cleared :
    ∃ encoded,obcTelemetryEncode shortRecord 21 = .ok encoded ∧
      obcTelemetryDecode encoded = .ok shortRecord.cleared ∧
      obcTelemetryEncode shortRecord.cleared 21 = .ok encoded := by
  have hfits : shortRecord.Fits := ⟨by decide +kernel,by decide⟩
  obtain ⟨hencode,hdecode,-⟩ := telemetry_codec_exact
  obtain ⟨hok,hround⟩ := hencode shortRecord hfits 21
  have hsome := hok.mpr (by decide)
  cases hcase : obcTelemetryEncode shortRecord 21 with
  | error e =>
    rw [hcase] at hsome
    cases hsome
  | ok encoded =>
    have hdecoded := hround encoded hcase
    obtain ⟨-,-,hlength⟩ := obcTelemetryEncode_eq_ok_iff.mp hcase
    refine ⟨encoded,rfl,hdecoded,(hdecode encoded _ hdecoded).2 21 ?_⟩
    rw [hlength]
    decide +kernel

end FlightSoftware.Telemetry
