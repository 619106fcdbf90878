import FlightSoftware.Lib.BigEndian
import FlightSoftware.Lib.Memory

/-!
# The I2C slave of the ADCS board

`adcs_i2c_slave.c`: the HAL calls back at each event on the bus, and the main
loop moves frames in and out between these interrupts. Every function runs with
interrupts off or inside one, so each is one step. A callback makes at most one
call to the HAL that can fail; its result is the argument `hal`, and the request
made is returned with the new state. Generating a NACK changes no variable of the
program.
-/

namespace FlightSoftware.Adcs
open BigEndian

inductive HalStatus where
  | ok | error | busy | timeout
  deriving DecidableEq,Repr

def protocolMagic : Byte := 0xA5#8
def protocolVersion : Byte := 0x01#8
def statusWireSize : ℕ := 5
def statusDataReady : Byte := 0x01#8
def cmdGetStatus : Byte := 0x01#8
def cmdReadFrame : Byte := 0x02#8
def cmdWriteFrame : Byte := 0x03#8
def frameHeaderSize : ℕ := 4
def maxFramePayload : ℕ := 264
def maxFrameWireSize : ℕ := frameHeaderSize + maxFramePayload

def eventActivity : BitVec 32 := 1#32 <<< 0
def eventRxFrameReady : BitVec 32 := 1#32 <<< 1
def eventInvalidCommand : BitVec 32 := 1#32 <<< 2
def eventMalformedFrame : BitVec 32 := 1#32 <<< 3
def eventError : BitVec 32 := 1#32 <<< 4
def eventRecovered : BitVec 32 := 1#32 <<< 5
def eventRxOverrun : BitVec 32 := 1#32 <<< 6

def i2cDirectionTransmit : Byte := 0#8
def i2cDirectionReceive : Byte := 1#8
def halI2cStateReady : Byte := 0x20#8
def halI2cStateListen : Byte := 0x28#8

inductive AdcsRxPhase where
  | idle | command | writeHeader | writePayload | complete | rejected
  deriving DecidableEq,Repr

inductive AdcsTxKind where
  | none | status | frame
  deriving DecidableEq,Repr

structure AdcsI2cStats where
  addressMatchCount : BitVec 32
  receiveStartCount : BitVec 32
  receiveCompleteCount : BitVec 32
  transmitStartCount : BitVec 32
  transmitCompleteCount : BitVec 32
  listenCompleteCount : BitVec 32
  errorCount : BitVec 32
  callbackErrorCount : BitVec 32
  invalidCommandCount : BitVec 32
  malformedFrameCount : BitVec 32
  recoveryCount : BitVec 32
  receiveOverrunCount : BitVec 32
  lastError : BitVec 32
  lastAddressMatch : BitVec 16
  lastDirection : Byte
  lastCommand : Byte
  deriving DecidableEq,Repr

def AdcsI2cStats.zero : AdcsI2cStats := ⟨0,0,0,0,0,0,0,0,0,0,0,0,0,0,0,0⟩

/-- An `I2C_HandleTypeDef`: which one it is and its configured address. -/
structure I2cHandle where
  port : ℕ
  ownAddress1 : BitVec 32
  deriving DecidableEq,Repr

/-- Where the HAL stores received bytes. -/
inductive RxBuffer where
  | command | frame (slot : Bool) (offset : ℕ)
  deriving DecidableEq,Repr

/-- Where the HAL reads the bytes it transmits. -/
inductive TxBuffer where
  | status | frame (slot : Bool)
  deriving DecidableEq,Repr

inductive HalRequest where
  | receive (buffer : RxBuffer) (size : ℕ)
  | transmit (buffer : TxBuffer) (size : ℕ)
  | enableListen
  deriving DecidableEq,Repr

/-- The static variables. The index of a slot is 0 or 1 and is changed with `^ 1`. -/
structure AdcsI2cSlave where
  i2c : Option I2cHandle
  commandByte : Byte
  selectedCommand : Byte
  rxPhase : AdcsRxPhase
  txKind : AdcsTxKind
  rxFrames : Bool → List Byte
  rxActiveLength : BitVec 16
  rxActiveIndex : Bool
  rxReadyIndex : Bool
  rxReadyLength : BitVec 16
  rxReady : Bool
  txFrames : Bool → List Byte
  txReadyIndex : Bool
  txReadyLength : BitVec 16
  txReady : Bool
  txInProgressIndex : Bool
  statusResponse : List Byte
  events : BitVec 32
  recoveryRequested : Bool
  stats : AdcsI2cStats

/-- The variables at reset. -/
def AdcsI2cSlave.zero : AdcsI2cSlave where
  i2c := none
  commandByte := 0
  selectedCommand := 0
  rxPhase := .idle
  txKind := .none
  rxFrames := fun _ => List.replicate maxFrameWireSize 0#8
  rxActiveLength := 0
  rxActiveIndex := false
  rxReadyIndex := false
  rxReadyLength := 0
  rxReady := false
  txFrames := fun _ => List.replicate maxFrameWireSize 0#8
  txReadyIndex := false
  txReadyLength := 0
  txReady := false
  txInProgressIndex := false
  statusResponse := List.replicate statusWireSize 0#8
  events := 0
  recoveryRequested := false
  stats := .zero

def setEvent (s : AdcsI2cSlave) (event : BitVec 32) : AdcsI2cSlave :=
  { s with events := s.events ||| event }

def adcsWireFrameValid (wire : List Byte) : Bool :=
  if wire.length < frameHeaderSize ∨ wire.length > maxFrameWireSize then false
  else
    let payloadLength := (readU16Be (wire.drop 2)).toNat
    decide (payloadLength ≤ maxFramePayload) && wire.length == frameHeaderSize + payloadLength

def noteCallbackError (s : AdcsI2cSlave) : AdcsI2cSlave :=
  let s := { s with stats.callbackErrorCount := s.stats.callbackErrorCount + 1#32 }
  { setEvent s eventError with recoveryRequested := true }

def noteInvalidCommand (s : AdcsI2cSlave) : AdcsI2cSlave :=
  setEvent { s with stats.invalidCommandCount := s.stats.invalidCommandCount + 1#32 }
    eventInvalidCommand

/-- Count a malformed frame and reject the rest of the transfer. -/
def rejectMalformed (s : AdcsI2cSlave) : AdcsI2cSlave :=
  { setEvent { s with stats.malformedFrameCount := s.stats.malformedFrameCount + 1#32 }
      eventMalformedFrame with rxPhase := .rejected }

def noteMalformedReceive (s : AdcsI2cSlave) : AdcsI2cSlave :=
  if s.rxPhase = .command ∨ s.rxPhase = .writeHeader ∨ s.rxPhase = .writePayload then
    rejectMalformed s
  else s

def publishReceivedFrame (s : AdcsI2cSlave) : AdcsI2cSlave :=
  if s.rxReady then
    setEvent { s with stats.receiveOverrunCount := s.stats.receiveOverrunCount + 1#32 }
      eventRxOverrun
  else
    setEvent { s with
      rxReadyIndex := s.rxActiveIndex
      rxReadyLength := s.rxActiveLength
      rxReady := true
      rxActiveIndex := !s.rxActiveIndex
      stats.receiveCompleteCount := s.stats.receiveCompleteCount + 1#32 }
      (eventRxFrameReady ||| eventActivity)

def prepareStatusResponse (s : AdcsI2cSlave) : AdcsI2cSlave :=
  let frameLength := if s.txReady then s.txReadyLength else 0#16
  { s with statusResponse :=
      [protocolMagic,protocolVersion,if s.txReady then statusDataReady else 0#8] ++
        writeU16Be frameLength }

/-! ### Calls from the main loop -/

def adcsI2cSlaveInit (s : AdcsI2cSlave) (i2c : I2cHandle) (hal : HalStatus) :
    HalStatus × AdcsI2cSlave :=
  (hal,{ s with
    stats := .zero
    events := 0
    recoveryRequested := false
    selectedCommand := 0
    rxPhase := .idle
    txKind := .none
    rxReady := false
    txReady := false
    rxActiveIndex := false
    i2c := if hal = .ok then some i2c else none })

/-- `state` is what `HAL_I2C_GetState` returns. -/
def adcsI2cSlaveProcess (s : AdcsI2cSlave) (state : Byte) (hal : HalStatus) : AdcsI2cSlave :=
  if s.i2c = none ∨ s.recoveryRequested = false then s
  else
    let s := { s with recoveryRequested := false }
    if state &&& halI2cStateListen ≠ 0#8 then s
    else if state = halI2cStateReady ∧ hal = .ok then
      setEvent { s with stats.recoveryCount := s.stats.recoveryCount + 1#32 } eventRecovered
    else { s with recoveryRequested := true }

def adcsI2cSlaveTakeEvents (s : AdcsI2cSlave) : BitVec 32 × AdcsI2cSlave :=
  (s.events,{ s with events := 0 })

/-- `adcs_i2c_frame_t` with the `length` bytes that were copied. -/
structure AdcsI2cFrame where
  length : BitVec 16
  bytes : List Byte
  deriving DecidableEq,Repr

def adcsI2cSlaveTakeReceivedFrame (s : AdcsI2cSlave) : Option AdcsI2cFrame × AdcsI2cSlave :=
  if s.rxReady then
    (some ⟨s.rxReadyLength,(s.rxFrames s.rxReadyIndex).take s.rxReadyLength.toNat⟩,
      { s with rxReady := false })
  else (none,s)

def adcsI2cSlaveQueueTransmitFrame (s : AdcsI2cSlave) (wireFrame : List Byte) :
    HalStatus × AdcsI2cSlave :=
  if adcsWireFrameValid wireFrame = false then (.error,s)
  else if s.txReady then (.busy,s)
  else
    let nextIndex := !s.txReadyIndex
    (.ok,{ s with
      txFrames := Function.update s.txFrames nextIndex
        (Memory.copyIn (s.txFrames nextIndex) 0 wireFrame)
      txReadyLength := BitVec.ofNat 16 wireFrame.length
      txReadyIndex := nextIndex
      txReady := true })

/-! ### Callbacks of the HAL -/

/-- The branch of `HAL_I2C_AddrCallback` where the master writes. -/
def startReceive (s : AdcsI2cSlave) : AdcsI2cSlave × HalRequest :=
  ({ s with
    selectedCommand := 0
    commandByte := 0
    rxPhase := .command
    stats.receiveStartCount := s.stats.receiveStartCount + 1#32 },.receive .command 1)

/-- The branch where the master reads. -/
def startTransmit (s : AdcsI2cSlave) : AdcsI2cSlave × HalRequest :=
  if s.selectedCommand = cmdGetStatus then
    ({ prepareStatusResponse s with txKind := .status },.transmit .status statusWireSize)
  else if s.selectedCommand = cmdReadFrame ∧ s.txReady then
    ({ s with txInProgressIndex := s.txReadyIndex,txKind := .frame },
      .transmit (.frame s.txReadyIndex) s.txReadyLength.toNat)
  else
    ({ prepareStatusResponse (noteInvalidCommand s) with txKind := .status },
      .transmit .status statusWireSize)

/-- Every address match is recorded. -/
def noteAddressMatch (s : AdcsI2cSlave) (transferDirection : Byte)
    (addressMatchCode : BitVec 16) : AdcsI2cSlave :=
  setEvent { s with
    stats.addressMatchCount := s.stats.addressMatchCount + 1#32
    stats.lastAddressMatch := addressMatchCode
    stats.lastDirection := transferDirection } eventActivity

def addrCallback (s : AdcsI2cSlave) (i2c : I2cHandle) (transferDirection : Byte)
    (addressMatchCode : BitVec 16) (hal : HalStatus) : AdcsI2cSlave × Option HalRequest :=
  if s.i2c ≠ some i2c then (s,none)
  else
    let s := noteAddressMatch s transferDirection addressMatchCode
    if addressMatchCode ≠ (i2c.ownAddress1 &&& 0x03FE#32).setWidth 16 then
      (noteInvalidCommand s,none)
    else if transferDirection = i2cDirectionTransmit then
      let (s,request) := startReceive s
      (if hal = .ok then s else noteCallbackError s,some request)
    else if transferDirection = i2cDirectionReceive then
      let (s,request) := startTransmit s
      (if hal = .ok then
          { s with stats.transmitStartCount := s.stats.transmitStartCount + 1#32 }
        else noteCallbackError s,some request)
    else (noteCallbackError (noteInvalidCommand s),none)

/-- A command byte has arrived. -/
def commandReceived (s : AdcsI2cSlave) (hal : HalStatus) : AdcsI2cSlave × Option HalRequest :=
  let s := { s with
    selectedCommand := s.commandByte
    stats.lastCommand := s.commandByte }
  if s.commandByte = cmdGetStatus ∨ s.commandByte = cmdReadFrame then
    (setEvent { s with
      rxPhase := .complete
      stats.receiveCompleteCount := s.stats.receiveCompleteCount + 1#32 } eventActivity,none)
  else if s.commandByte = cmdWriteFrame then
    let s := { s with
      rxActiveLength := BitVec.ofNat 16 frameHeaderSize
      rxPhase := .writeHeader }
    (if hal = .ok then s else noteCallbackError s,
      some (.receive (.frame s.rxActiveIndex 0) frameHeaderSize))
  else (noteInvalidCommand { s with rxPhase := .rejected },none)

/-- A frame header has arrived. -/
def headerReceived (s : AdcsI2cSlave) (hal : HalStatus) : AdcsI2cSlave × Option HalRequest :=
  let payloadLength := readU16Be ((s.rxFrames s.rxActiveIndex).drop 2)
  if payloadLength.toNat > maxFramePayload then (rejectMalformed s,none)
  else if payloadLength = 0#16 then ({ s with rxPhase := .complete },none)
  else
    let s := { s with
      rxActiveLength := BitVec.ofNat 16 frameHeaderSize + payloadLength
      rxPhase := .writePayload }
    (if hal = .ok then s else noteCallbackError s,
      some (.receive (.frame s.rxActiveIndex frameHeaderSize) payloadLength.toNat))

def slaveRxCpltCallback (s : AdcsI2cSlave) (i2c : I2cHandle) (hal : HalStatus) :
    AdcsI2cSlave × Option HalRequest :=
  if s.i2c ≠ some i2c then (s,none)
  else match s.rxPhase with
    | .command => commandReceived s hal
    | .writeHeader => headerReceived s hal
    | .writePayload => ({ s with rxPhase := .complete },none)
    | _ => (noteCallbackError s,none)

def slaveTxCpltCallback (s : AdcsI2cSlave) (i2c : I2cHandle) : AdcsI2cSlave :=
  if s.i2c ≠ some i2c then s
  else
    let s := { s with stats.transmitCompleteCount := s.stats.transmitCompleteCount + 1#32 }
    let s := if s.txKind = .frame ∧ s.txReady ∧ s.txInProgressIndex = s.txReadyIndex then
        { s with txReady := false,txReadyLength := 0 }
      else s
    setEvent { s with txKind := .none,selectedCommand := 0 } eventActivity

/-- STOP confirms that the master sent exactly the declared frame. -/
def confirmFrame (s : AdcsI2cSlave) : AdcsI2cSlave :=
  if s.rxPhase = .complete ∧ s.selectedCommand = cmdWriteFrame then publishReceivedFrame s else s

def endTransfer (s : AdcsI2cSlave) : AdcsI2cSlave :=
  { noteMalformedReceive s with rxPhase := .idle,txKind := .none,selectedCommand := 0 }

def listenCpltCallback (s : AdcsI2cSlave) (i2c : I2cHandle) (hal : HalStatus) :
    AdcsI2cSlave × Option HalRequest :=
  if s.i2c ≠ some i2c then (s,none)
  else
    let s := { s with stats.listenCompleteCount := s.stats.listenCompleteCount + 1#32 }
    let s := endTransfer (confirmFrame s)
    (if hal = .ok then { s with recoveryRequested := false } else noteCallbackError s,
      some .enableListen)

/-- `lastError` is what `HAL_I2C_GetError` returns. -/
def errorCallback (s : AdcsI2cSlave) (i2c : I2cHandle) (lastError : BitVec 32) : AdcsI2cSlave :=
  if s.i2c ≠ some i2c then s
  else
    let s := { s with
      stats.errorCount := s.stats.errorCount + 1#32
      stats.lastError := lastError }
    let s := if s.rxPhase = .complete ∧ s.selectedCommand = cmdWriteFrame then rejectMalformed s
      else noteMalformedReceive s
    setEvent { s with recoveryRequested := true } eventError

end FlightSoftware.Adcs
