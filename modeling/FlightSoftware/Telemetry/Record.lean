import FlightSoftware.Obc.Ipc

/-!
# Telemetry records

The wire format of one record that Commands hands to Data, Data keeps in its log
and Mission passes to the radio: `obc_telemetry_decode` of
`obc_telemetry_protocol.c`. An eighteen byte header is followed by the payload.
-/

namespace FlightSoftware.Telemetry
open BigEndian Obc

def formatVersion : Byte := 1#8
def headerSize : ℕ := 18
def maxPayload : ℕ := ipcMaxPayload - headerSize

def magicOffset : ℕ := 0
def versionOffset : ℕ := 4
def sourceNodeOffset : ℕ := 5
def sourcePortOffset : ℕ := 6
def reservedOffset : ℕ := 7
def timestampOffset : ℕ := 8
def lengthOffset : ℕ := 16

/-- The characters `WESW`. -/
def telemetryMagic : List Byte := [0x57#8,0x45#8,0x53#8,0x57#8]

/-- `obc_telemetry_status_t` without `OBC_TELEMETRY_OK`, which is the `ok` case of a result. -/
inductive TelemetryError where
  | invalidArgument | bufferTooSmall | invalidRecord | unsupportedVersion
  deriving DecidableEq,Repr

/-- A decoded record. `payload` is the whole array, zero past the length. -/
structure TelemetryRecord where
  sourceNode : Byte
  sourcePort : Byte
  receivedUnixUs : BitVec 64
  payloadLength : BitVec 16
  payload : List Byte
  deriving DecidableEq,Repr

/-- The payload length that a header announces. -/
def lengthField (encoded : List Byte) : ℕ := (readU16Be (encoded.drop lengthOffset)).toNat

def obcTelemetryDecode (encoded : List Byte) : Except TelemetryError TelemetryRecord :=
  if encoded.length < headerSize then .error .invalidRecord
  else if (encoded.drop magicOffset).take 4 ≠ telemetryMagic then .error .invalidRecord
  else if byteAt encoded versionOffset ≠ formatVersion then .error .unsupportedVersion
  else if byteAt encoded reservedOffset ≠ 0#8 then .error .invalidRecord
  else if lengthField encoded > maxPayload then .error .invalidRecord
  else if encoded.length ≠ headerSize + lengthField encoded then .error .invalidRecord
  else .ok {
    sourceNode := byteAt encoded sourceNodeOffset
    sourcePort := byteAt encoded sourcePortOffset
    receivedUnixUs := readU64Be (encoded.drop timestampOffset)
    payloadLength := readU16Be (encoded.drop lengthOffset)
    payload := (encoded.drop headerSize).take (lengthField encoded) ++
      List.replicate (maxPayload - lengthField encoded) 0#8 }

/-- A byte string that `obc_telemetry_decode` accepts. -/
def Decodes (encoded : List Byte) : Prop := (obcTelemetryDecode encoded).isOk = true

instance : DecidablePred Decodes := fun encoded =>
  inferInstanceAs (Decidable ((obcTelemetryDecode encoded).isOk = true))

/-- What the decoder asks of the header, the size apart. -/
structure HeaderValid (encoded : List Byte) : Prop where
  magic : (encoded.drop magicOffset).take 4 = telemetryMagic
  version : byteAt encoded versionOffset = formatVersion
  reserved : byteAt encoded reservedOffset = 0#8
  length : lengthField encoded ≤ maxPayload

/-- A record is a valid header with as many bytes behind it as the header says. -/
theorem decodes_iff {encoded : List Byte} :
    Decodes encoded ↔ HeaderValid encoded ∧ encoded.length = headerSize + lengthField encoded := by
  unfold Decodes obcTelemetryDecode
  constructor
  · intro h
    split_ifs at h with h1 h2 h3 h4 h5 h6
    · exact absurd h Bool.false_ne_true
    · exact absurd h Bool.false_ne_true
    · exact absurd h Bool.false_ne_true
    · exact absurd h Bool.false_ne_true
    · exact absurd h Bool.false_ne_true
    · exact absurd h Bool.false_ne_true
    · exact ⟨⟨not_not.mp h2,not_not.mp h3,not_not.mp h4,Nat.le_of_not_lt h5⟩,not_not.mp h6⟩
  · rintro ⟨hheader,hlength⟩
    rw [if_neg (by omega),if_neg (not_not.mpr hheader.magic),if_neg (not_not.mpr hheader.version),
      if_neg (not_not.mpr hheader.reserved),if_neg (Nat.not_lt.mpr hheader.length),
      if_neg (not_not.mpr hlength)]
    rfl

theorem Decodes.length {encoded : List Byte} (h : Decodes encoded) :
    encoded.length = headerSize + lengthField encoded := (decodes_iff.mp h).2

theorem Decodes.header_le {encoded : List Byte} (h : Decodes encoded) :
    headerSize ≤ encoded.length := by
  rw [h.length]
  omega

/-- A record fits one message. -/
theorem Decodes.length_le {encoded : List Byte} (h : Decodes encoded) :
    encoded.length ≤ ipcMaxPayload := by
  have hlength := h.length
  have hbound := (decodes_iff.mp h).1.length
  rw [maxPayload] at hbound
  rw [hlength]
  have : headerSize ≤ ipcMaxPayload := by decide
  omega

theorem lengthField_append {s : List Byte} (h : headerSize ≤ s.length) (t : List Byte) :
    lengthField (s ++ t) = lengthField s := by
  rw [headerSize] at h
  have hread : ∀ i < 2,byteAt ((s ++ t).drop lengthOffset) i = byteAt (s.drop lengthOffset) i := by
    intro i hi
    rw [byteAt_drop,byteAt_drop,byteAt_append_left _ _ _ (by rw [lengthOffset]; omega)]
  rw [lengthField,lengthField,readU16Be_congr (hread 0 (by omega)) (hread 1 (by omega))]

theorem lengthField_take {s : List Byte} {n : ℕ} (h : headerSize ≤ n) (hn : n ≤ s.length) :
    lengthField (s.take n) = lengthField s := by
  have hlength : headerSize ≤ (s.take n).length := by
    rw [List.length_take]
    omega
  rw [← lengthField_append hlength (s.drop n),List.take_append_drop]

end FlightSoftware.Telemetry
