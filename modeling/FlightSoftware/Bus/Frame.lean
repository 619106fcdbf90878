import FlightSoftware.Lib.BigEndian

/-!
# Frames and status on the I2C bus

`frame.c`: a frame is two addresses, a length and a payload. `i2c_protocol.c`:
before it reads a frame the master asks for a status of five bytes, which says
whether one is waiting and how long it is. The boards are addressed as in
`csp_commands.h`.
-/

namespace FlightSoftware.Bus
open BigEndian

/-! ### Boards -/

def adcsAddress : Byte := 2#8
def epsAddress : Byte := 3#8
def thermalsAddress : Byte := 4#8
def comms : Byte := 6#8
def adcsCmdPort : Byte := 10#8
def epsCmdPort : Byte := 11#8

/-! ### Frames -/

def maxFramePayload : ℕ := 264
def frameHeaderSize : ℕ := 4
def maxFrameWireSize : ℕ := frameHeaderSize + maxFramePayload

/-- `Frame`; `payload` holds the bytes of the array that were written. -/
structure Frame where
  destAddr : Byte
  srcAddr : Byte
  length : BitVec 16
  payload : List Byte
  deriving DecidableEq,Repr

/-- The bytes written to the buffer, or nothing for -1. -/
def frameSerialize (frame : Frame) (outBufSize : ℕ) : Option (List Byte) :=
  if frame.length.toNat > maxFramePayload then none
  else if frame.length.toNat + frameHeaderSize > outBufSize then none
  else some ([frame.destAddr,frame.srcAddr] ++ writeU16Be frame.length ++
    frame.payload.take frame.length.toNat)

def frameDeserialize (wireBuf : List Byte) : Option Frame :=
  if wireBuf.length < frameHeaderSize then none
  else
    let length := readU16Be (wireBuf.drop 2)
    if length.toNat > maxFramePayload ∨ wireBuf.length ≠ frameHeaderSize + length.toNat then none
    else some ⟨byteAt wireBuf 0,byteAt wireBuf 1,length,(wireBuf.drop 4).take length.toNat⟩

theorem frameDeserialize_eq_some {wireBuf : List Byte} (hmin : frameHeaderSize ≤ wireBuf.length)
    (hmax : wireBuf.length ≤ maxFrameWireSize)
    (hlen : wireBuf.length = frameHeaderSize + (readU16Be (wireBuf.drop 2)).toNat) :
    frameDeserialize wireBuf = some ⟨byteAt wireBuf 0,byteAt wireBuf 1,
      readU16Be (wireBuf.drop 2),(wireBuf.drop 4).take (readU16Be (wireBuf.drop 2)).toNat⟩ := by
  have hwire : maxFrameWireSize = frameHeaderSize + maxFramePayload := rfl
  rw [frameDeserialize,if_neg (by omega)]
  dsimp only
  rw [if_neg (by omega)]

/-- A frame that was read is written back to the same bytes. -/
theorem frameSerialize_of_deserialize {wireBuf : List Byte} {frame : Frame}
    (h : frameDeserialize wireBuf = some frame) :
    frameSerialize frame maxFrameWireSize = some wireBuf ∧
      wireBuf.length = frameHeaderSize + frame.length.toNat := by
  have hheader : frameHeaderSize = 4 := rfl
  have hwire : maxFrameWireSize = frameHeaderSize + maxFramePayload := rfl
  rw [frameDeserialize] at h
  split at h
  · cases h
  rename_i hmin
  dsimp only at h
  split at h
  · cases h
  rename_i hlen
  obtain ⟨hmax,hlen⟩ := not_or.mp hlen
  rw [not_not] at hlen
  obtain rfl := Option.some.inj h
  refine ⟨?_,hlen⟩
  rw [frameSerialize,if_neg hmax,if_neg (by dsimp only; omega)]
  have hpayload : (wireBuf.drop 4).take (readU16Be (wireBuf.drop 2)).toNat = wireBuf.drop 4 :=
    List.take_of_length_le (by rw [List.length_drop]; omega)
  have hdrop : writeU16Be (readU16Be (wireBuf.drop 2)) ++ wireBuf.drop 4 = wireBuf.drop 2 := by
    rw [writeU16Be_readU16Be (by rw [List.length_drop]; omega)]
    have h4 : wireBuf.drop 4 = (wireBuf.drop 2).drop 2 := by rw [List.drop_drop]
    rw [h4,List.take_append_drop]
  dsimp only
  rw [List.take_take,min_self,hpayload,List.append_assoc,hdrop]
  have h0 := drop_eq_byteAt_cons (s := wireBuf) (k := 0) (by omega)
  have h1 := drop_eq_byteAt_cons (s := wireBuf) (k := 1) (by omega)
  rw [List.drop_zero] at h0
  rw [h0.trans (congrArg _ h1)]
  rfl

/-! ### Status -/

def protocolMagic : Byte := 0xA5#8
def protocolVersion : Byte := 0x01#8
def statusWireSize : ℕ := 5
def statusDataReady : Byte := 0x01#8

structure I2cStatus where
  flags : Byte
  frameLength : BitVec 16
  deriving DecidableEq,Repr

def statusFieldsValid (status : I2cStatus) : Bool :=
  if status.flags &&& ~~~statusDataReady ≠ 0#8 then false
  else if status.flags &&& statusDataReady = 0#8 then status.frameLength == 0#16
  else decide (status.frameLength.toNat ≥ frameHeaderSize) &&
    decide (status.frameLength.toNat ≤ maxFrameWireSize)

def i2cStatusEncode (status : I2cStatus) (wireBufferSize : ℕ) : Option (List Byte) :=
  if wireBufferSize < statusWireSize ∨ statusFieldsValid status = false then none
  else some ([protocolMagic,protocolVersion,status.flags] ++ writeU16Be status.frameLength)

def i2cStatusDecode (wireBuffer : List Byte) : Option I2cStatus :=
  if wireBuffer.length ≠ statusWireSize then none
  else if byteAt wireBuffer 0 ≠ protocolMagic ∨ byteAt wireBuffer 1 ≠ protocolVersion then none
  else
    let decoded : I2cStatus := ⟨byteAt wireBuffer 2,readU16Be (wireBuffer.drop 3)⟩
    if statusFieldsValid decoded then some decoded else none

/-- The wire form of a status, whoever writes it. -/
def statusWire (flags : Byte) (frameLength : BitVec 16) : List Byte :=
  [protocolMagic,protocolVersion,flags] ++ writeU16Be frameLength

theorem i2cStatusDecode_wire {flags : Byte} {frameLength : BitVec 16}
    (h : statusFieldsValid ⟨flags,frameLength⟩ = true) :
    i2cStatusDecode (statusWire flags frameLength) = some ⟨flags,frameLength⟩ := by
  have hread : readU16Be ((statusWire flags frameLength).drop 3) = frameLength := by
    rw [statusWire,show (3 : ℕ) = [protocolMagic,protocolVersion,flags].length from rfl,
      List.drop_left,← List.append_nil (writeU16Be frameLength),readU16Be_write]
  have hmagic : ¬ (byteAt (statusWire flags frameLength) 0 ≠ protocolMagic ∨
      byteAt (statusWire flags frameLength) 1 ≠ protocolVersion) := by
    rintro (h | h) <;> exact h rfl
  have hsize : ¬ (statusWire flags frameLength).length ≠ statusWireSize := not_not.mpr rfl
  rw [i2cStatusDecode,if_neg hsize,if_neg hmagic]
  dsimp only
  rw [hread]
  exact if_pos h

end FlightSoftware.Bus
