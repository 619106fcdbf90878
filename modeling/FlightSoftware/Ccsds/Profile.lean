import FlightSoftware.Ccsds.Crc32
import FlightSoftware.Ccsds.SpacePacket

/-!
# The LG-CubeSat packet profile

One complete, unsegmented space packet with a sixteen byte profile header and a
trailing CRC-32: `profile.c`, and the configuration check of
`compression_config.c` that it calls.
-/

namespace FlightSoftware.Ccsds
open BigEndian

def profileVersion : Byte := 1#8
def profileHeaderSize : ℕ := 16
def profileCrcSize : ℕ := 4
def profileMaxPayloadSize : ℕ := maxDataSize - profileHeaderSize - profileCrcSize
def ssdvPacketSize : ℕ := 214

/-- `lg_ccsds_content_type_t`. A C enumeration holds any value of its integer
type, so the values without an enumerator are kept apart. -/
inductive LgCcsdsContentType where
  | rawTelemetry | compressedTelemetry | ssdv | command
  | other (value : BitVec 32) (unlisted : 4#32 ≤ value)
  deriving DecidableEq,Repr

def LgCcsdsContentType.value : LgCcsdsContentType → BitVec 32
  | .rawTelemetry => 0
  | .compressedTelemetry => 1
  | .ssdv => 2
  | .command => 3
  | .other v _ => v

/-- The cast from an integer to the enumeration. -/
def LgCcsdsContentType.ofValue (v : BitVec 32) : LgCcsdsContentType :=
  if h : 4#32 ≤ v then .other v h
  else if v = 0#32 then .rawTelemetry else if v = 1#32 then .compressedTelemetry
  else if v = 2#32 then .ssdv else .command

structure Ccsds121Config where
  bitsPerSample : Byte
  blockSize : Byte
  referenceSampleInterval : BitVec 16
  signedSamples : Bool
  preprocess : Bool
  restrictedCodeOptions : Bool
  deriving DecidableEq,Repr

/-- The configuration after `memset` to zero. -/
def Ccsds121Config.zero : Ccsds121Config := ⟨0,0,0,false,false,false⟩

def ccsds121ValidateConfig (config : Ccsds121Config) : Except CcsdsError Unit :=
  let legalBlockSize := config.blockSize == 8#8 || config.blockSize == 16#8 ||
    config.blockSize == 32#8 || config.blockSize == 64#8
  if config.bitsPerSample < 1#8 ∨ config.bitsPerSample > 32#8 ∨ !legalBlockSize ∨
      config.referenceSampleInterval < 1#16 ∨ config.referenceSampleInterval > 4096#16 ∨
      (config.restrictedCodeOptions ∧ config.bitsPerSample > 4#8) then
    .error .range
  else .ok ()

def profileFlagSigned : Byte := 0x01#8
def profileFlagPreprocess : Byte := 0x02#8
def profileFlagRestricted : Byte := 0x04#8
def profileKnownFlags : Byte := profileFlagSigned ||| profileFlagPreprocess ||| profileFlagRestricted

/-- The APID and packet type of a content type. -/
def routeForContent : LgCcsdsContentType → Except CcsdsError (BitVec 16 × CcsdsPacketType)
  | .rawTelemetry => .ok (0x001#16,.telemetry)
  | .compressedTelemetry => .ok (0x002#16,.telemetry)
  | .ssdv => .ok (0x003#16,.telemetry)
  | .command => .ok (0x100#16,.command)
  | .other _ _ => .error .unsupported

def configFlags (config : Ccsds121Config) : Byte :=
  (if config.signedSamples then profileFlagSigned else 0#8) |||
    (if config.preprocess then profileFlagPreprocess else 0#8) |||
    (if config.restrictedCodeOptions then profileFlagRestricted else 0#8)

def validateContent (contentType : LgCcsdsContentType) (itemCount : BitVec 32)
    (compression : Option Ccsds121Config) (payloadLength : ℕ) : Except CcsdsError Unit :=
  match routeForContent contentType with
  | .error e => .error e
  | .ok _ =>
    if contentType = .compressedTelemetry then
      match compression with
      | none => .error .range
      | some config =>
        if itemCount = 0#32 ∨ payloadLength = 0 then .error .range
        else ccsds121ValidateConfig config
    else if compression.isSome then .error .range
    else if contentType = .ssdv ∧ (payloadLength ≠ ssdvPacketSize ∨ itemCount ≠ 1#32) then
      .error .range
    else .ok ()

/-- Bytes 2 to 6 of the profile header, zero unless a configuration is given. -/
def configBytes : Option Ccsds121Config → List Byte
  | none => [0#8,0#8,0#8,0#8,0#8]
  | some config =>
    [configFlags config,config.bitsPerSample,config.blockSize] ++
      writeU16Be config.referenceSampleInterval

def profileHeader (contentType : LgCcsdsContentType) (itemCount : BitVec 32)
    (compression : Option Ccsds121Config) (payloadLength : ℕ) : List Byte :=
  [profileVersion,contentType.value.setWidth 8] ++ configBytes compression ++ [0#8] ++
    writeU32Be itemCount ++ writeU32Be (BitVec.ofNat 32 payloadLength)

/-- Build one packet. The result is the `output_length` bytes written. -/
def lgCcsdsProfileBuild (contentType : LgCcsdsContentType) (sequenceCount : BitVec 16)
    (itemCount : BitVec 32) (compression : Option Ccsds121Config) (payload : List Byte)
    (outputCapacity : ℕ) : Except CcsdsError (List Byte) :=
  if sequenceCount > maxSequenceCount ∨ payload.length > profileMaxPayloadSize then .error .range
  else
    let dataLength := profileHeaderSize + payload.length + profileCrcSize
    let totalLength := primaryHeaderSize + dataLength
    if outputCapacity < totalLength then .error .bufferTooSmall
    else match validateContent contentType itemCount compression payload.length with
    | .error e => .error e
    | .ok () => match routeForContent contentType with
      | .error e => .error e
      | .ok (apid,packetType) =>
        let packetHeader : CcsdsSpacePacketHeader :=
          ⟨packetType,true,apid,.unsegmented,sequenceCount⟩
        match ccsdsSpacePacketWriteHeader packetHeader dataLength outputCapacity with
        | .error e => .error e
        | .ok header =>
          let body := header ++
            profileHeader contentType itemCount compression payload.length ++ payload
          .ok (body ++ writeU32Be (ccsdsCrc32 body))

def parseCompressionConfig (profileHeader : List Byte) : Except CcsdsError Ccsds121Config :=
  if byteAt profileHeader 2 &&& ~~~profileKnownFlags ≠ 0#8 ∨ byteAt profileHeader 7 ≠ 0#8 then
    .error .invalidFormat
  else
    let config : Ccsds121Config := {
      bitsPerSample := byteAt profileHeader 3
      blockSize := byteAt profileHeader 4
      referenceSampleInterval := readU16Be (profileHeader.drop 5)
      signedSamples := byteAt profileHeader 2 &&& profileFlagSigned != 0#8
      preprocess := byteAt profileHeader 2 &&& profileFlagPreprocess != 0#8
      restrictedCodeOptions := byteAt profileHeader 2 &&& profileFlagRestricted != 0#8 }
    match ccsds121ValidateConfig config with
    | .error e => .error e
    | .ok () => .ok config

structure LgCcsdsProfileMetadata where
  contentType : LgCcsdsContentType
  sequenceCount : BitVec 16
  itemCount : BitVec 32
  compression : Ccsds121Config
  deriving DecidableEq,Repr

/-- A parsed profile packet. `payload` holds the `payloadLength` bytes behind the
pointer. -/
structure LgCcsdsProfileView where
  spacePacket : CcsdsSpacePacketView
  metadata : LgCcsdsProfileMetadata
  payload : List Byte
  payloadLength : ℕ
  crc32 : BitVec 32
  deriving DecidableEq,Repr

/-- The configuration fields of a received header and the pointer passed on to
`validate_content`, which is NULL unless the content is compressed. -/
def parseConfigFields (contentType : LgCcsdsContentType) (profileHeader : List Byte) :
    Except CcsdsError (Ccsds121Config × Option Ccsds121Config) :=
  if contentType = .compressedTelemetry then
    match parseCompressionConfig profileHeader with
    | .error e => .error (if e = .range then .invalidFormat else e)
    | .ok config => .ok (config,some config)
  else if byteAt profileHeader 2 ≠ 0#8 ∨ byteAt profileHeader 3 ≠ 0#8 ∨
      byteAt profileHeader 4 ≠ 0#8 ∨ byteAt profileHeader 5 ≠ 0#8 ∨
      byteAt profileHeader 6 ≠ 0#8 then .error .invalidFormat
  else .ok (.zero,none)

/-- Parse and verify one exact packet. -/
def lgCcsdsProfileParse (packet : List Byte) : Except CcsdsError LgCcsdsProfileView :=
  match ccsdsSpacePacketParse packet with
  | .error e => .error e
  | .ok spacePacket =>
    if spacePacket.totalLength ≠ packet.length ∨ !spacePacket.header.hasSecondaryHeader ∨
        spacePacket.header.sequenceFlags ≠ .unsegmented ∨
        spacePacket.dataLength < profileHeaderSize + profileCrcSize then .error .invalidFormat
    else
      let transmittedCrc := readU32Be (packet.drop (packet.length - profileCrcSize))
      let calculatedCrc := ccsdsCrc32 (packet.take (packet.length - profileCrcSize))
      if transmittedCrc ≠ calculatedCrc then .error .crc
      else
        let profileHeader := spacePacket.data
        if byteAt profileHeader 0 ≠ profileVersion then .error .unsupported
        else if byteAt profileHeader 7 ≠ 0#8 then .error .invalidFormat
        else
          let contentType := LgCcsdsContentType.ofValue ((byteAt profileHeader 1).setWidth 32)
          match routeForContent contentType with
          | .error e => .error e
          | .ok (expectedApid,expectedPacketType) =>
            if spacePacket.header.apid ≠ expectedApid ∨
                spacePacket.header.type ≠ expectedPacketType then .error .invalidFormat
            else
              let payloadLength := readU32Be (profileHeader.drop 12)
              if payloadLength.toNat ≠ spacePacket.dataLength - profileHeaderSize - profileCrcSize
              then .error .invalidFormat
              else match parseConfigFields contentType profileHeader with
              | .error e => .error e
              | .ok (compression,compressionPtr) =>
                let itemCount := readU32Be (profileHeader.drop 8)
                match validateContent contentType itemCount compressionPtr payloadLength.toNat with
                | .error _ => .error .invalidFormat
                | .ok () => .ok {
                    spacePacket := spacePacket
                    metadata := ⟨contentType,spacePacket.header.sequenceCount,itemCount,
                      compression⟩
                    payload := (profileHeader.drop profileHeaderSize).take payloadLength.toNat
                    payloadLength := payloadLength.toNat
                    crc32 := transmittedCrc }

end FlightSoftware.Ccsds
