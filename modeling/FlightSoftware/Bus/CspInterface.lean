import FlightSoftware.Adcs.I2cReceive
import FlightSoftware.Bus.SlaveToMaster

/-!
# The CSP interface of the ADCS board

`adcs_csp_stm32.c`: `send_packet` serializes a packet into a frame and queues it, and
the bus task hands the frames to the slave driver, which checks them once more and
announces the one that waits. The three checks of a frame agree, the status is always
true of the waiting frame, and so the driver refuses a frame only while it holds
another.
-/

namespace FlightSoftware.Bus
open BigEndian Adcs Run

/-! ### Three views of a frame -/

/-- The payload fits, and the array holds all of it. -/
structure Frame.Fits (frame : Frame) : Prop where
  length_le : frame.length.toNat ≤ maxFramePayload
  payload : frame.length.toNat ≤ frame.payload.length

/-- The frame without the bytes of the array behind the payload. -/
def Frame.trim (frame : Frame) : Frame :=
  { frame with payload := frame.payload.take frame.length.toNat }

/-- The bytes of a frame. -/
def Frame.wire (frame : Frame) : List Byte :=
  [frame.destAddr,frame.srcAddr] ++ writeU16Be frame.length ++
    frame.payload.take frame.length.toNat

theorem Frame.Fits.wire_length {frame : Frame} (h : frame.Fits) :
    frame.wire.length = frameHeaderSize + frame.length.toNat := by
  have hpayload := h.payload
  have hheader : frameHeaderSize = 4 := rfl
  simp only [Frame.wire,List.length_append,List.length_cons,List.length_nil,writeU16Be_length,
    List.length_take,min_eq_left hpayload]
  omega

theorem Frame.readU16Be_wire (frame : Frame) : readU16Be (frame.wire.drop 2) = frame.length := by
  have hdrop : frame.wire.drop 2 =
      writeU16Be frame.length ++ frame.payload.take frame.length.toNat := by
    rw [Frame.wire,List.append_assoc,show (2 : ℕ) = [frame.destAddr,frame.srcAddr].length from rfl,
      List.drop_left]
  rw [hdrop,readU16Be_write]

theorem Frame.drop_wire (frame : Frame) :
    frame.wire.drop 4 = frame.payload.take frame.length.toNat := by
  have hlen : ([frame.destAddr,frame.srcAddr] ++ writeU16Be frame.length).length = 4 := rfl
  rw [Frame.wire,← hlen,List.drop_left]

theorem frameSerialize_eq_some {frame : Frame} {outBufSize : ℕ} {wire : List Byte}
    (h : frameSerialize frame outBufSize = some wire) :
    frame.length.toNat ≤ maxFramePayload ∧ wire = frame.wire := by
  rw [frameSerialize] at h
  split at h
  · cases h
  split at h
  · cases h
  · exact ⟨by omega,(Option.some.inj h).symm⟩

theorem Frame.Fits.serialize {frame : Frame} (h : frame.Fits) :
    frameSerialize frame maxFrameWireSize = some frame.wire := by
  have hlen := h.length_le
  have hwire : maxFrameWireSize = frameHeaderSize + maxFramePayload := rfl
  rw [frameSerialize,if_neg (by omega),if_neg (by omega)]
  rfl

/-- Reading undoes writing. -/
theorem Frame.Fits.deserialize {frame : Frame} (h : frame.Fits) :
    frameDeserialize frame.wire = some frame.trim := by
  have hlen := h.length_le
  have hwire : maxFrameWireSize = frameHeaderSize + maxFramePayload := rfl
  have hsize := h.wire_length
  rw [frameDeserialize_eq_some (by omega) (by omega) (by rw [frame.readU16Be_wire,hsize]),
    frame.readU16Be_wire,frame.drop_wire,List.take_take,min_self]
  rfl

theorem Frame.Fits.valid {frame : Frame} (h : frame.Fits) :
    adcsWireFrameValid frame.wire = true := by
  have hlen := h.length_le
  have hwire : maxFrameWireSize = frameHeaderSize + maxFramePayload := rfl
  have hsize := h.wire_length
  rw [adcsWireFrameValid_iff,frame.readU16Be_wire]
  omega

theorem frameDeserialize_fits {wire : List Byte} {frame : Frame}
    (h : frameDeserialize wire = some frame) : frame.Fits := by
  rw [frameDeserialize] at h
  split at h
  · cases h
  dsimp only at h
  split at h
  · cases h
  rename_i hlen
  obtain ⟨hmax,hsize⟩ := not_or.mp hlen
  rw [not_not] at hsize
  have hheader : frameHeaderSize = 4 := rfl
  obtain rfl := Option.some.inj h
  refine ⟨Nat.not_lt.mp hmax,?_⟩
  simp only [List.length_take,List.length_drop]
  omega

/-- The driver accepts exactly what the reader accepts. -/
theorem adcsWireFrameValid_iff_deserialize {wire : List Byte} :
    adcsWireFrameValid wire = true ↔ (frameDeserialize wire).isSome = true := by
  constructor
  · intro h
    obtain ⟨hmin,hmax,hlen⟩ := adcsWireFrameValid_iff.mp h
    rw [frameDeserialize_eq_some hmin hmax hlen]
    rfl
  · intro h
    obtain ⟨frame,hframe⟩ := Option.isSome_iff_exists.mp h
    obtain ⟨-,hwire⟩ := frameSerialize_eq_some (frameSerialize_of_deserialize hframe).1
    rw [hwire]
    exact (frameDeserialize_fits hframe).valid

/-- And that is exactly what the writer writes. -/
theorem frameDeserialize_isSome_iff {wire : List Byte} :
    (frameDeserialize wire).isSome = true ↔
      ∃ frame outBufSize,Frame.Fits frame ∧ frameSerialize frame outBufSize = some wire := by
  constructor
  · intro h
    obtain ⟨frame,hframe⟩ := Option.isSome_iff_exists.mp h
    exact ⟨frame,_,frameDeserialize_fits hframe,(frameSerialize_of_deserialize hframe).1⟩
  · rintro ⟨frame,outBufSize,hfits,hserialize⟩
    rw [(frameSerialize_eq_some hserialize).2,hfits.deserialize]
    rfl

/-! ### The slave in any state -/

/-- Everything that happens to the variables of the slave. -/
inductive SlaveCall where
  | init (i2c : I2cHandle) (hal : HalStatus)
  | process (state : Byte) (hal : HalStatus)
  | takeEvents
  | takeReceived
  | queue (wireFrame : List Byte)
  | store (buffer : RxBuffer) (offset : ℕ) (byte : Byte)
  | addr (i2c : I2cHandle) (transferDirection : Byte) (addressMatchCode : BitVec 16)
      (hal : HalStatus)
  | rxCplt (i2c : I2cHandle) (hal : HalStatus)
  | txCplt (i2c : I2cHandle)
  | listenCplt (i2c : I2cHandle) (hal : HalStatus)
  | error (i2c : I2cHandle) (lastError : BitVec 32)

def SlaveCall.apply (s : AdcsI2cSlave) : SlaveCall → AdcsI2cSlave
  | .init i2c hal => (adcsI2cSlaveInit s i2c hal).2
  | .process state hal => adcsI2cSlaveProcess s state hal
  | .takeEvents => (adcsI2cSlaveTakeEvents s).2
  | .takeReceived => (adcsI2cSlaveTakeReceivedFrame s).2
  | .queue wireFrame => (adcsI2cSlaveQueueTransmitFrame s wireFrame).2
  | .store buffer offset byte => storeByte s buffer offset byte
  | .addr i2c transferDirection addressMatchCode hal =>
    (addrCallback s i2c transferDirection addressMatchCode hal).1
  | .rxCplt i2c hal => (slaveRxCpltCallback s i2c hal).1
  | .txCplt i2c => slaveTxCpltCallback s i2c
  | .listenCplt i2c hal => (listenCpltCallback s i2c hal).1
  | .error i2c lastError => errorCallback s i2c lastError

/-- The frame that waits for the master. -/
def queuedWire (s : AdcsI2cSlave) : List Byte :=
  if s.txReady then (s.txFrames s.txReadyIndex).take s.txReadyLength.toNat else []

/-- The slave holds a valid frame, or none. -/
def QueueSound (s : AdcsI2cSlave) : Prop :=
  ∃ outstanding,(txView s).Holds outstanding

theorem queueSound_of_sameQueue {s s' : AdcsI2cSlave} (h : QueueSound s)
    (same : (txView s).SameQueue (txView s')) : QueueSound s' := by
  obtain ⟨outstanding,hholds⟩ := h
  refine ⟨outstanding,?_⟩
  rw [TxView.Holds] at hholds ⊢
  rw [same.ready,same.length,same.frames,same.index]
  exact hholds

theorem queueSound_of_free {s : AdcsI2cSlave} (h : s.txReady = false) : QueueSound s :=
  ⟨[],.inl ⟨h,rfl⟩⟩

theorem queueSound_queue {s : AdcsI2cSlave} (h : QueueSound s) (wireFrame : List Byte) :
    QueueSound (adcsI2cSlaveQueueTransmitFrame s wireFrame).2 := by
  rw [adcsI2cSlaveQueueTransmitFrame]
  split
  · exact h
  next hvalid =>
  split
  · exact h
  · have hvalid := Bool.eq_true_of_not_eq_false hvalid
    obtain ⟨-,hmax,-⟩ := adcsWireFrameValid_iff.mp hvalid
    have hwire : Bus.maxFrameWireSize = 268 := rfl
    refine ⟨[wireFrame],.inr ⟨rfl,wireFrame,rfl,?_,?_,hvalid⟩⟩
    · change (BitVec.ofNat 16 wireFrame.length).toNat = _
      rw [BitVec.toNat_ofNat]
      omega
    · change (Function.update s.txFrames (!s.txReadyIndex)
        (Memory.copyIn (s.txFrames (!s.txReadyIndex)) 0 wireFrame)
        (!s.txReadyIndex)).take wireFrame.length = wireFrame
      rw [Function.update_self,Memory.take_copyIn]

theorem sameQueue_startTransmit (s : AdcsI2cSlave) :
    (txView s).SameQueue (txView (startTransmit s).1) := by
  rw [startTransmit]
  split_ifs <;> exact ⟨rfl,rfl,rfl,rfl,rfl⟩

theorem sameQueue_addr (s : AdcsI2cSlave) (i2c : I2cHandle) (transferDirection : Byte)
    (addressMatchCode : BitVec 16) (hal : HalStatus) :
    (txView s).SameQueue
      (txView (addrCallback s i2c transferDirection addressMatchCode hal).1) := by
  rw [addrCallback]
  split
  · exact ⟨rfl,rfl,rfl,rfl,rfl⟩
  dsimp only
  split
  · exact ⟨rfl,rfl,rfl,rfl,rfl⟩
  split
  · dsimp only
    split <;> exact ⟨rfl,rfl,rfl,rfl,rfl⟩
  split
  · have hstart := sameQueue_startTransmit
      (noteAddressMatch s transferDirection addressMatchCode)
    rw [txView_noteAddressMatch] at hstart
    dsimp only
    split
    · exact hstart
    · rw [txView_noteCallbackError]
      exact hstart
  · rw [txView_noteCallbackError,txView_noteInvalidCommand,txView_noteAddressMatch]
    exact ⟨rfl,rfl,rfl,rfl,rfl⟩

theorem sameQueue_rxCplt (s : AdcsI2cSlave) (i2c : I2cHandle) (hal : HalStatus) :
    (txView s).SameQueue (txView (slaveRxCpltCallback s i2c hal).1) := by
  rw [slaveRxCpltCallback]
  split
  · exact ⟨rfl,rfl,rfl,rfl,rfl⟩
  split
  · rw [commandReceived]
    dsimp only
    split
    · exact ⟨rfl,rfl,rfl,rfl,rfl⟩
    split
    · split <;> exact ⟨rfl,rfl,rfl,rfl,rfl⟩
    · exact ⟨rfl,rfl,rfl,rfl,rfl⟩
  · rw [headerReceived]
    dsimp only
    split
    · exact ⟨rfl,rfl,rfl,rfl,rfl⟩
    split
    · exact ⟨rfl,rfl,rfl,rfl,rfl⟩
    · split <;> exact ⟨rfl,rfl,rfl,rfl,rfl⟩
  · exact ⟨rfl,rfl,rfl,rfl,rfl⟩
  · exact ⟨rfl,rfl,rfl,rfl,rfl⟩

theorem queueSound_txCplt {s : AdcsI2cSlave} (h : QueueSound s) (i2c : I2cHandle) :
    QueueSound (slaveTxCpltCallback s i2c) := by
  rw [slaveTxCpltCallback]
  split
  · exact h
  dsimp only
  split
  · exact queueSound_of_free rfl
  · exact queueSound_of_sameQueue h ⟨rfl,rfl,rfl,rfl,rfl⟩

theorem SlaveCall.queueSound {s : AdcsI2cSlave} (h : QueueSound s) (c : SlaveCall) :
    QueueSound (c.apply s) := by
  cases c with
  | init i2c hal => exact queueSound_of_free rfl
  | process state hal =>
    refine queueSound_of_sameQueue h ?_
    rw [SlaveCall.apply,adcsI2cSlaveProcess]
    split
    · exact ⟨rfl,rfl,rfl,rfl,rfl⟩
    dsimp only
    split_ifs <;> exact ⟨rfl,rfl,rfl,rfl,rfl⟩
  | takeEvents => exact queueSound_of_sameQueue h ⟨rfl,rfl,rfl,rfl,rfl⟩
  | takeReceived =>
    refine queueSound_of_sameQueue h ?_
    rw [SlaveCall.apply,adcsI2cSlaveTakeReceivedFrame]
    split <;> exact ⟨rfl,rfl,rfl,rfl,rfl⟩
  | queue wireFrame => exact queueSound_queue h wireFrame
  | store buffer offset byte =>
    refine queueSound_of_sameQueue h ?_
    cases buffer <;> exact ⟨rfl,rfl,rfl,rfl,rfl⟩
  | addr i2c transferDirection addressMatchCode hal =>
    exact queueSound_of_sameQueue h (sameQueue_addr _ _ _ _ _)
  | rxCplt i2c hal => exact queueSound_of_sameQueue h (sameQueue_rxCplt _ _ _)
  | txCplt i2c => exact queueSound_txCplt h i2c
  | listenCplt i2c hal => exact queueSound_of_sameQueue h (sameQueue_listenCplt hal)
  | error i2c lastError => exact queueSound_of_sameQueue h (sameQueue_error lastError)

/-! ### Status -/

/-- The five bytes of the status are read as true of the waiting frame, and are the bytes that
the master's own encoder would write. -/
def StatusTrue (s : AdcsI2cSlave) : Prop :=
  let wire := (prepareStatusResponse s).statusResponse
  ∃ status,i2cStatusDecode wire = some status ∧
    status.flags = (if s.txReady then Bus.statusDataReady else 0#8) ∧
    status.frameLength.toNat = (queuedWire s).length ∧
    i2cStatusEncode status Bus.statusWireSize = some wire

theorem QueueSound.statusTrue {s : AdcsI2cSlave} (h : QueueSound s) :
    StatusTrue s := by
  obtain ⟨outstanding,hholds⟩ := h
  obtain ⟨hready,hnil⟩ | ⟨hready,wire,heq,hlen,htake,hvalid⟩ := hholds
  · change s.txReady = false at hready
    have hwire : (prepareStatusResponse s).statusResponse = statusWire 0#8 0#16 := by
      rw [prepareStatusResponse,hready]
      rfl
    have hqueued : queuedWire s = [] := by
      rw [queuedWire,hready]
      rfl
    rw [StatusTrue,hwire,hready,hqueued]
    exact ⟨⟨0#8,0#16⟩,by decide,rfl,rfl,by decide⟩
  · change s.txReady = true at hready
    change s.txReadyLength.toNat = wire.length at hlen
    change (s.txFrames s.txReadyIndex).take wire.length = wire at htake
    have hwire : (prepareStatusResponse s).statusResponse =
        statusWire Bus.statusDataReady s.txReadyLength := by
      rw [prepareStatusResponse,hready]
      rfl
    have hqueued : queuedWire s = wire := by
      rw [queuedWire,hready,if_pos rfl,hlen,htake]
    obtain ⟨hmin,hmax,-⟩ := adcsWireFrameValid_iff.mp hvalid
    rw [← hlen] at hmin hmax
    have hfields : statusFieldsValid ⟨Bus.statusDataReady,s.txReadyLength⟩ = true := by
      have hflags : Bus.statusDataReady &&& ~~~Bus.statusDataReady = 0#8 := by decide
      have hset : ¬Bus.statusDataReady &&& Bus.statusDataReady = 0#8 := by decide
      simp only [statusFieldsValid]
      rw [if_neg (not_not.mpr hflags),if_neg hset,decide_eq_true hmin,decide_eq_true hmax]
      rfl
    rw [StatusTrue,hwire,hready,hqueued]
    refine ⟨_,i2cStatusDecode_wire hfields,rfl,hlen,?_⟩
    rw [i2cStatusEncode,hfields,if_neg (by decide)]
    rfl

/-- The slave after any calls and callbacks since reset. -/
def slaveAfter (calls : List SlaveCall) : AdcsI2cSlave := calls.foldl SlaveCall.apply .zero

theorem queueSound_slaveAfter (calls : List SlaveCall) : QueueSound (slaveAfter calls) := by
  have hcalls (s : AdcsI2cSlave) (h : QueueSound s) :
      QueueSound (calls.foldl SlaveCall.apply s) := by
    induction calls generalizing s with
    | nil => exact h
    | cons c calls ih => exact ih _ (c.queueSound h)
  exact hcalls _ (queueSound_of_free rfl)

/-! ### Packets and the bus task -/

def txQueueLength : ℕ := 2

/-- A `csp_packet_t`: its destination, and the `frame_length` bytes from `frame_begin` on. -/
structure CspPacket where
  dst : BitVec 16
  frame : List Byte
  frame_lt : frame.length < 2^16

def CspPacket.frameLength (packet : CspPacket) : BitVec 16 := BitVec.ofNat 16 packet.frame.length

inductive CspResult where
  | errNone | errTx
  deriving DecidableEq,Repr

/-- The call that the bus task makes next. -/
inductive BusTaskPhase where
  | process | takeReceived | receive | transmit | takeEvents
  deriving DecidableEq,Repr

/-- The slave driver, the queue of outgoing frames, the locals of the bus task and the counters
of the interface. -/
structure CspLink where
  slave : AdcsI2cSlave
  txQueue : List (List Byte) := []
  pending : Option (List Byte) := none
  phase : BusTaskPhase := .process
  txError : BitVec 32 := 0
  rxError : BitVec 32 := 0

/-- `prepend` is `csp_id_prepend`, which puts the header of the packet before its data. -/
def sendPacket (prepend : CspPacket → CspPacket) (link : CspLink) (packet : CspPacket) :
    CspResult × CspLink :=
  let destAddr : Byte := packet.dst.setWidth 8
  let packet := prepend packet
  let refused : CspResult × CspLink := (.errTx,{ link with txError := link.txError+1 })
  if packet.frameLength.toNat ≤ maxFramePayload then
    match frameSerialize ⟨destAddr,adcsAddress,packet.frameLength,packet.frame⟩
        Adcs.maxFrameWireSize with
    | some wire =>
      if link.txQueue.length < txQueueLength then
        (.errNone,{ link with txQueue := link.txQueue ++ [wire] })
      else refused
    | none => refused
  else refused

/-- What the HAL does by itself. -/
def SlaveCall.isInterrupt : SlaveCall → Bool
  | .store _ _ _ | .addr _ _ _ _ | .rxCplt _ _ | .txCplt _ | .listenCplt _ _ | .error _ _ => true
  | _ => false

inductive CspAction where
  | sendPacket (packet : CspPacket)
  | interrupt (c : SlaveCall)
  | process (state : Byte) (hal : HalStatus)
  | takeReceived (rejected : Bool)
  | receive
  | transmit
  | takeEvents

/-- One call of the bus task, a packet from another task, or an interrupt. Whether
`receive_frame` rejects a frame is an argument. -/
def CspLink.step (prepend : CspPacket → CspPacket) (link : CspLink) : CspAction → Option CspLink
  | .sendPacket packet => some (Bus.sendPacket prepend link packet).2
  | .interrupt c => if c.isInterrupt then some { link with slave := c.apply link.slave } else none
  | .process state hal =>
    if link.phase = .process then
      some { link with slave := adcsI2cSlaveProcess link.slave state hal,phase := .takeReceived }
    else none
  | .takeReceived rejected =>
    if link.phase = .takeReceived then
      let (frame,slave) := adcsI2cSlaveTakeReceivedFrame link.slave
      some { link with
        slave := slave
        phase := .receive
        rxError := if frame.isSome && rejected then link.rxError+1 else link.rxError }
    else none
  | .receive =>
    if link.phase = .receive then
      match link.pending,link.txQueue with
      | none,wire :: rest =>
        some { link with txQueue := rest,pending := some wire,phase := .transmit }
      | _,_ => some { link with phase := .transmit }
    else none
  | .transmit =>
    if link.phase = .transmit then
      match link.pending with
      | some wire =>
        let (status,slave) := adcsI2cSlaveQueueTransmitFrame link.slave wire
        some { link with
          slave := slave
          pending := if status = .ok then none else link.pending
          phase := .takeEvents }
      | none => some { link with phase := .takeEvents }
    else none
  | .takeEvents =>
    if link.phase = .takeEvents then
      let (events,slave) := adcsI2cSlaveTakeEvents link.slave
      some { link with
        slave := slave
        phase := .process
        rxError := if events &&& (eventError ||| eventMalformedFrame) ≠ 0 then link.rxError+1
          else link.rxError }
    else none

/-- After `adcs_i2c_slave_init` and `adcs_csp_init`. -/
def CspLink.initial (i2c : I2cHandle) (hal : HalStatus) : CspLink where
  slave := (adcsI2cSlaveInit .zero i2c hal).2

/-- The frames on their way to the driver. -/
def CspLink.outgoing (link : CspLink) : List (List Byte) := link.pending.toList ++ link.txQueue

/-- The driver takes any frame on its way to it, unless it holds another. -/
def CspLink.NeverRefused (link : CspLink) : Prop :=
  ∀ wire ∈ link.outgoing,(adcsI2cSlaveQueueTransmitFrame link.slave wire).1 =
    if link.slave.txReady then .busy else .ok

theorem queueTransmitFrame_status {s : AdcsI2cSlave} {wire : List Byte}
    (h : adcsWireFrameValid wire = true) :
    (adcsI2cSlaveQueueTransmitFrame s wire).1 = if s.txReady then .busy else .ok := by
  rw [adcsI2cSlaveQueueTransmitFrame,if_neg (ne_false_of_eq_true h)]
  split <;> rfl

/-- A packet adds at most one frame, and a valid one. -/
theorem sendPacket_outgoing (prepend : CspPacket → CspPacket) (link : CspLink)
    (packet : CspPacket) {wire : List Byte}
    (h : wire ∈ (sendPacket prepend link packet).2.outgoing) :
    wire ∈ link.outgoing ∨ adcsWireFrameValid wire = true := by
  rw [sendPacket] at h
  split at h
  next hlen =>
    split at h
    next serialized hserialize =>
      split at h
      · rw [CspLink.outgoing,← List.append_assoc] at h
        rcases List.mem_append.mp h with h | h
        · exact .inl h
        · right
          obtain rfl := List.mem_singleton.mp h
          rw [(frameSerialize_eq_some hserialize).2]
          refine Frame.Fits.valid ⟨hlen,?_⟩
          dsimp only
          rw [CspPacket.frameLength,BitVec.toNat_ofNat]
          exact Nat.mod_le _ _
      · exact .inl h
    · exact .inl h
  · exact .inl h

theorem CspLink.step_outgoing {prepend : CspPacket → CspPacket} {link link' : CspLink}
    {a : CspAction} (hstep : link.step prepend a = some link') {wire : List Byte}
    (h : wire ∈ link'.outgoing) : wire ∈ link.outgoing ∨ adcsWireFrameValid wire = true := by
  cases a with
  | sendPacket packet =>
    obtain rfl := Option.some.inj hstep
    exact sendPacket_outgoing prepend link packet h
  | interrupt c =>
    rw [CspLink.step] at hstep
    split at hstep <;> cases hstep
    exact .inl h
  | receive =>
    rw [CspLink.step] at hstep
    split at hstep
    · split at hstep
      · next hpending hqueue =>
        obtain rfl := Option.some.inj hstep
        rw [CspLink.outgoing] at h ⊢
        rw [hpending,hqueue]
        exact .inl h
      · obtain rfl := Option.some.inj hstep
        exact .inl h
    · cases hstep
  | transmit =>
    rw [CspLink.step] at hstep
    split at hstep
    · split at hstep
      · next sent _ =>
        obtain rfl := Option.some.inj hstep
        have hsub : (if (adcsI2cSlaveQueueTransmitFrame link.slave sent).1 = .ok then none
            else link.pending).toList ⊆ link.pending.toList := by
          split
          · exact List.nil_subset _
          · exact List.Subset.refl _
        rcases List.mem_append.mp h with h | h
        · exact .inl (List.mem_append_left _ (hsub h))
        · exact .inl (List.mem_append_right _ h)
      · obtain rfl := Option.some.inj hstep
        exact .inl h
    · cases hstep
  | _ =>
    rw [CspLink.step] at hstep
    split at hstep <;> cases hstep
    exact .inl h

/-- Every frame on its way is valid. -/
theorem outgoing_valid_of_run {prepend : CspPacket → CspPacket} {i2c : I2cHandle}
    {hal : HalStatus} {actions : List CspAction} {link : CspLink}
    (hrun : run (CspLink.step prepend) (.initial i2c hal) actions = some link) :
    ∀ wire ∈ link.outgoing,adcsWireFrameValid wire = true := by
  refine run_invariant
    (I := fun link => ∀ wire ∈ link.outgoing,adcsWireFrameValid wire = true) ?_ ?_ hrun
  · intro link a link' h hstep wire hwire
    rcases CspLink.step_outgoing hstep hwire with hold | hvalid
    · exact h wire hold
    · exact hvalid
  · intro wire hwire
    cases hwire

/-- The checks of the driver, of the reader and of the writer agree on every byte string, and
reading and writing undo each other. The status of the slave is true in every state that calls and
callbacks lead to. So in every run of the interface the driver refuses a frame only while it holds
another. -/
theorem frame_views_agree (prepend : CspPacket → CspPacket) :
    (∀ wire,(adcsWireFrameValid wire = true ↔ (frameDeserialize wire).isSome = true) ∧
      ((frameDeserialize wire).isSome = true ↔
        ∃ frame outBufSize,Frame.Fits frame ∧ frameSerialize frame outBufSize = some wire) ∧
      ∀ frame,frameDeserialize wire = some frame →
        frameSerialize frame maxFrameWireSize = some wire) ∧
    (∀ frame : Frame,frame.Fits → ∃ wire,frameSerialize frame maxFrameWireSize = some wire ∧
      frameDeserialize wire = some frame.trim) ∧
    (∀ calls,StatusTrue (slaveAfter calls)) ∧
    ∀ i2c hal actions link,run (CspLink.step prepend) (.initial i2c hal) actions = some link →
      link.NeverRefused :=
  ⟨fun _ => ⟨adcsWireFrameValid_iff_deserialize,frameDeserialize_isSome_iff,
      fun _ h => (frameSerialize_of_deserialize h).1⟩,
    fun _ h => ⟨_,h.serialize,h.deserialize⟩,
    fun calls => (queueSound_slaveAfter calls).statusTrue,
    fun _ _ _ _ hrun wire hwire =>
      queueTransmitFrame_status (outgoing_valid_of_run hrun wire hwire)⟩

/-! ### Two packets -/

/-- `csp_id_prepend` on packets that all have the given header. -/
def prependHeader (header : List Byte) (packet : CspPacket) : CspPacket :=
  if h : (header ++ packet.frame).length < 2^16 then ⟨packet.dst,header ++ packet.frame,h⟩
  else packet

/-- Priority 2, from port 16 of node 2 to port 10 of node 1. -/
def replyHeader : List Byte := [0x80#8,0x01#8,0x00#8,0x08#8,0xA4#8,0x00#8]

def bytePacket (b : Byte) : CspPacket := ⟨1,[b],Nat.one_lt_two_pow (by decide)⟩

def busCycle : List CspAction :=
  [.process halI2cStateReady .ok,.takeReceived false,.receive,.transmit,.takeEvents]

/-- Two packets of one byte, and a cycle of the bus task for each. -/
def twoPackets : List CspAction :=
  [.sendPacket (bytePacket 0xAB#8),.sendPacket (bytePacket 0xCD#8)] ++ busCycle ++ busCycle

/-- The second frame waits while the driver holds the first. -/
theorem second_frame_busy :
    ∃ link wire,run (CspLink.step (prependHeader replyHeader)) (.initial boardHandle .ok)
        twoPackets = some link ∧
      wire ∈ link.outgoing ∧ (adcsI2cSlaveQueueTransmitFrame link.slave wire).1 = .busy := by
  have hrun : (run (CspLink.step (prependHeader replyHeader)) (.initial boardHandle .ok)
      twoPackets).any (fun link => link.pending.isSome && link.slave.txReady) = true := by
    decide +kernel
  obtain ⟨link,hlink,hstate⟩ := (Option.any_eq_true _ _).mp hrun
  obtain ⟨hpending,hready⟩ := Bool.and_eq_true_iff.mp hstate
  obtain ⟨wire,hwire⟩ := Option.isSome_iff_exists.mp hpending
  have hmem : wire ∈ link.outgoing := by
    rw [CspLink.outgoing,hwire]
    exact List.mem_cons_self
  refine ⟨link,wire,hlink,hmem,?_⟩
  rw [(frame_views_agree (prependHeader replyHeader)).2.2.2 _ _ _ _ hlink wire hmem,hready]
  rfl

end FlightSoftware.Bus
