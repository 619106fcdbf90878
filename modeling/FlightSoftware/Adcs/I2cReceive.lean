import FlightSoftware.Adcs.I2cSlave
import FlightSoftware.Lib.Run

/-!
# Frames from the master

The slave together with the HAL's receive side: the region of memory that is
armed to take bytes from the bus. Callbacks come in any order, in any phase and
with any result of the HAL calls they make. A published frame is never written
to, has the length its header says, and is handed out once.
-/

namespace FlightSoftware.Adcs
open BigEndian Run

/-- The slave, the armed region, and the frames published and taken so far. -/
structure I2cReceiver where
  slave : AdcsI2cSlave
  armed : Option (RxBuffer × ℕ)
  published : List AdcsI2cFrame
  taken : List AdcsI2cFrame

inductive RxAction where
  | store (offset : ℕ) (byte : Byte)
  | addr (i2c : I2cHandle) (transferDirection : Byte) (addressMatchCode : BitVec 16)
      (hal : HalStatus)
  | rxCplt (i2c : I2cHandle) (hal : HalStatus)
  | txCplt (i2c : I2cHandle)
  | listenCplt (i2c : I2cHandle) (hal : HalStatus)
  | error (i2c : I2cHandle) (lastError : BitVec 32)
  | take
  | queue (wireFrame : List Byte)
  | process (state : Byte) (hal : HalStatus)
  | takeEvents

/-- What is armed after a call of the HAL: a receive that is accepted replaces the region,
anything else leaves it. -/
def armedAfter (armed : Option (RxBuffer × ℕ)) (request : Option HalRequest) (hal : HalStatus) :
    Option (RxBuffer × ℕ) :=
  match request with
  | some (.receive buffer size) => if hal = .ok then some (buffer,size) else armed
  | _ => armed

/-- The HAL stores a byte of the bus in the armed region. -/
def storeByte (s : AdcsI2cSlave) (buffer : RxBuffer) (offset : ℕ) (byte : Byte) : AdcsI2cSlave :=
  match buffer with
  | .command => { s with commandByte := byte }
  | .frame slot start =>
    { s with
      rxFrames := Function.update s.rxFrames slot ((s.rxFrames slot).set (start+offset) byte) }

/-- The frame in the active slot. -/
def AdcsI2cSlave.activeFrame (s : AdcsI2cSlave) : AdcsI2cFrame :=
  ⟨s.rxActiveLength,(s.rxFrames s.rxActiveIndex).take s.rxActiveLength.toNat⟩

/-- The frame waiting to be taken. -/
def AdcsI2cSlave.readyFrame (s : AdcsI2cSlave) : AdcsI2cFrame :=
  ⟨s.rxReadyLength,(s.rxFrames s.rxReadyIndex).take s.rxReadyLength.toNat⟩

/-- The master has written a whole frame and a STOP would confirm it. -/
def AdcsI2cSlave.Confirmable (s : AdcsI2cSlave) : Prop :=
  s.rxPhase = .complete ∧ s.selectedCommand = cmdWriteFrame

instance (s : AdcsI2cSlave) : Decidable s.Confirmable :=
  inferInstanceAs (Decidable (_ ∧ _))

def I2cReceiver.step (r : I2cReceiver) : RxAction → Option I2cReceiver
  | .store offset byte => match r.armed with
    | some (buffer,size) =>
      if offset < size then some { r with slave := storeByte r.slave buffer offset byte } else none
    | none => none
  | .addr i2c transferDirection addressMatchCode hal =>
    let (slave,request) := addrCallback r.slave i2c transferDirection addressMatchCode hal
    some { r with slave := slave,armed := armedAfter r.armed request hal }
  | .rxCplt i2c hal =>
    -- the region is full when its completion is called
    let armed := if r.slave.i2c = some i2c then none else r.armed
    let (slave,request) := slaveRxCpltCallback r.slave i2c hal
    some { r with slave := slave,armed := armedAfter armed request hal }
  | .txCplt i2c => some { r with slave := slaveTxCpltCallback r.slave i2c }
  | .listenCplt i2c hal =>
    some { r with
      slave := (listenCpltCallback r.slave i2c hal).1
      published := if r.slave.i2c = some i2c ∧ r.slave.Confirmable ∧ r.slave.rxReady = false then
          r.published ++ [r.slave.activeFrame]
        else r.published }
  | .error i2c lastError => some { r with slave := errorCallback r.slave i2c lastError }
  | .take =>
    let (frame,slave) := adcsI2cSlaveTakeReceivedFrame r.slave
    some { r with slave := slave,taken := r.taken ++ frame.toList }
  | .queue wireFrame =>
    some { r with slave := (adcsI2cSlaveQueueTransmitFrame r.slave wireFrame).2 }
  | .process state hal => some { r with slave := adcsI2cSlaveProcess r.slave state hal }
  | .takeEvents => some { r with slave := (adcsI2cSlaveTakeEvents r.slave).2 }

/-- After a successful `adcs_i2c_slave_init` from any state of the variables. -/
def I2cReceiver.initial (s : AdcsI2cSlave) (i2c : I2cHandle) : I2cReceiver :=
  ⟨(adcsI2cSlaveInit s i2c .ok).2,none,[],[]⟩

/-! ### The variables of the receive side -/

/-- The part of the slave's state the receive side depends on. -/
structure RxView where
  i2c : Option I2cHandle
  selectedCommand : Byte
  rxPhase : AdcsRxPhase
  rxFrames : Bool → List Byte
  rxActiveLength : BitVec 16
  rxActiveIndex : Bool
  rxReadyIndex : Bool
  rxReadyLength : BitVec 16
  rxReady : Bool

def AdcsI2cSlave.rx (s : AdcsI2cSlave) : RxView :=
  ⟨s.i2c,s.selectedCommand,s.rxPhase,s.rxFrames,s.rxActiveLength,s.rxActiveIndex,s.rxReadyIndex,
    s.rxReadyLength,s.rxReady⟩

@[simp] theorem rx_noteCallbackError (s : AdcsI2cSlave) : (noteCallbackError s).rx = s.rx := rfl

@[simp] theorem rx_noteInvalidCommand (s : AdcsI2cSlave) : (noteInvalidCommand s).rx = s.rx := rfl

@[simp] theorem rx_noteAddressMatch (s : AdcsI2cSlave) (transferDirection : Byte)
    (addressMatchCode : BitVec 16) :
    (noteAddressMatch s transferDirection addressMatchCode).rx = s.rx := rfl

/-- What one callback can do to the receive side short of publishing a frame, with the region
it arms if the HAL accepts. `done` says that the armed region has just been filled. -/
inductive RxChange (v : RxView) : Bool → RxView → Option (RxBuffer × ℕ) → Prop
  | same {done : Bool} : RxChange v done v none
  /-- the master addresses the slave for writing -/
  | addressed {done : Bool} :
    RxChange v done { v with selectedCommand := 0,rxPhase := .command } (some (.command,1))
  /-- a command without data -/
  | selected (c : Byte) (hc : c ≠ cmdWriteFrame) :
    RxChange v true { v with selectedCommand := c,rxPhase := .complete } none
  | writeFrame : RxChange v true
    { v with
      selectedCommand := cmdWriteFrame
      rxActiveLength := BitVec.ofNat 16 frameHeaderSize
      rxPhase := .writeHeader } (some (.frame v.rxActiveIndex 0,frameHeaderSize))
  | refused {done : Bool} (c : Byte) :
    RxChange v done { v with selectedCommand := c,rxPhase := .rejected } none
  /-- a header that announces no payload -/
  | headerOnly (hp : v.rxPhase = .writeHeader)
    (h0 : readU16Be ((v.rxFrames v.rxActiveIndex).drop 2) = 0#16) :
    RxChange v true { v with rxPhase := .complete } none
  | header (hp : v.rxPhase = .writeHeader)
    (hmax : (readU16Be ((v.rxFrames v.rxActiveIndex).drop 2)).toNat ≤ maxFramePayload) :
    RxChange v true
      { v with
        rxActiveLength := BitVec.ofNat 16 frameHeaderSize +
          readU16Be ((v.rxFrames v.rxActiveIndex).drop 2)
        rxPhase := .writePayload }
      (some (.frame v.rxActiveIndex frameHeaderSize,
        (readU16Be ((v.rxFrames v.rxActiveIndex).drop 2)).toNat))
  | payload (hp : v.rxPhase = .writePayload) :
    RxChange v true { v with rxPhase := .complete } none
  | deselected {done : Bool} : RxChange v done { v with selectedCommand := 0 } none
  /-- the transfer ends -/
  | ended {done : Bool} :
    RxChange v done { v with selectedCommand := 0,rxPhase := .idle } none

/-- The region a request arms, if it is a receive. -/
def HalRequest.region : Option HalRequest → Option (RxBuffer × ℕ)
  | some (.receive buffer size) => some (buffer,size)
  | _ => none

theorem startTransmit_rx (s : AdcsI2cSlave) :
    (startTransmit s).1.rx = s.rx ∧ HalRequest.region (some (startTransmit s).2) = none := by
  rw [startTransmit]
  split
  · exact ⟨rfl,rfl⟩
  split <;> exact ⟨rfl,rfl⟩

theorem addrCallback_rx (s : AdcsI2cSlave) (i2c : I2cHandle) (transferDirection : Byte)
    (addressMatchCode : BitVec 16) (hal : HalStatus) :
    RxChange s.rx false (addrCallback s i2c transferDirection addressMatchCode hal).1.rx
      (HalRequest.region (addrCallback s i2c transferDirection addressMatchCode hal).2) := by
  rw [addrCallback]
  split
  · exact .same
  dsimp only
  split
  · exact .same
  split
  · -- whether or not the HAL accepts, the phase is that of a new command
    split
    · exact .addressed
    · exact .addressed
  by_cases hread : transferDirection = i2cDirectionReceive
  · obtain ⟨hrx,hreq⟩ := startTransmit_rx (noteAddressMatch s transferDirection addressMatchCode)
    have hsame : RxChange s.rx false
        (startTransmit (noteAddressMatch s transferDirection addressMatchCode)).1.rx
        (HalRequest.region
          (some (startTransmit (noteAddressMatch s transferDirection addressMatchCode)).2)) := by
      rw [hrx,hreq]
      exact .same
    rw [if_pos hread]
    split <;> exact hsame
  · rw [if_neg hread,rx_noteCallbackError,rx_noteInvalidCommand,rx_noteAddressMatch]
    exact .same

theorem slaveRxCpltCallback_rx (s : AdcsI2cSlave) (i2c : I2cHandle) (hal : HalStatus) :
    RxChange s.rx true (slaveRxCpltCallback s i2c hal).1.rx
      (HalRequest.region (slaveRxCpltCallback s i2c hal).2) := by
  rw [slaveRxCpltCallback]
  split
  · exact .same
  split
  · rw [commandReceived]
    dsimp only
    split
    · rename_i hc
      refine .selected s.commandByte ?_
      rcases hc with hc | hc <;> rw [hc] <;> decide
    split
    · rename_i hc
      have hcmd : s.commandByte = cmdWriteFrame := hc
      split <;> exact hcmd ▸ .writeFrame
    · exact .refused s.commandByte
  · rename_i hp
    rw [headerReceived]
    dsimp only
    split
    · exact .refused s.selectedCommand
    rename_i hmax
    split
    · rename_i h0
      exact .headerOnly hp h0
    · split <;> exact .header hp (Nat.not_lt.mp hmax)
  · rename_i hp
    exact .payload hp
  · exact .same

theorem slaveTxCpltCallback_rx (s : AdcsI2cSlave) (i2c : I2cHandle) :
    RxChange s.rx false (slaveTxCpltCallback s i2c).rx none := by
  rw [slaveTxCpltCallback]
  split
  · exact .same
  · dsimp only
    split <;> exact .deselected

theorem errorCallback_rx (s : AdcsI2cSlave) (i2c : I2cHandle) (lastError : BitVec 32) :
    RxChange s.rx false (errorCallback s i2c lastError).rx none := by
  rw [errorCallback]
  split
  · exact .same
  dsimp only
  split
  · exact .refused s.selectedCommand
  rw [noteMalformedReceive]
  split
  · exact .refused s.selectedCommand
  · exact .same

theorem rx_endTransfer (s : AdcsI2cSlave) :
    (endTransfer s).rx = { s.rx with selectedCommand := 0,rxPhase := .idle } := by
  rw [endTransfer,noteMalformedReceive]
  split <;> rfl

/-- The effect of a STOP on the slots: a confirmed frame is published unless another waits. -/
def RxView.confirmed (v : RxView) : RxView :=
  if (v.rxPhase = .complete ∧ v.selectedCommand = cmdWriteFrame) ∧ v.rxReady = false then
    { v with
      rxReadyIndex := v.rxActiveIndex
      rxReadyLength := v.rxActiveLength
      rxReady := true
      rxActiveIndex := !v.rxActiveIndex }
  else v

theorem rx_confirmFrame (s : AdcsI2cSlave) : (confirmFrame s).rx = s.rx.confirmed := by
  rw [confirmFrame,RxView.confirmed]
  by_cases hc : s.rxPhase = .complete ∧ s.selectedCommand = cmdWriteFrame
  · rw [if_pos hc,publishReceivedFrame]
    by_cases hr : s.rxReady = true
    · have hbusy : ¬ ((s.rx.rxPhase = .complete ∧ s.rx.selectedCommand = cmdWriteFrame) ∧
          s.rx.rxReady = false) := fun h => absurd (hr.symm.trans h.2) (by decide)
      rw [if_pos hr,if_neg hbusy]
      rfl
    · have hfree : (s.rx.rxPhase = .complete ∧ s.rx.selectedCommand = cmdWriteFrame) ∧
          s.rx.rxReady = false := ⟨hc,Bool.eq_false_of_not_eq_true hr⟩
      rw [if_neg hr,if_pos hfree]
      rfl
  · rw [if_neg hc,if_neg fun h => hc h.1]

theorem listenCpltCallback_rx {s : AdcsI2cSlave} {i2c : I2cHandle} (h : s.i2c = some i2c)
    (hal : HalStatus) :
    (listenCpltCallback s i2c hal).1.rx =
      { s.rx.confirmed with selectedCommand := 0,rxPhase := .idle } := by
  have hrx : (listenCpltCallback s i2c hal).1.rx = (endTransfer (confirmFrame { s with
      stats.listenCompleteCount := s.stats.listenCompleteCount + 1#32 })).rx := by
    rw [listenCpltCallback,if_neg (not_not.mpr h)]
    dsimp only
    split <;> rfl
  rw [hrx,rx_endTransfer,rx_confirmFrame]
  rfl

theorem confirmFrame_overrun {s : AdcsI2cSlave} (hc : s.Confirmable) (hr : s.rxReady = true) :
    (confirmFrame s).stats.receiveOverrunCount = s.stats.receiveOverrunCount + 1#32 := by
  have hcond : s.rxPhase = .complete ∧ s.selectedCommand = cmdWriteFrame := hc
  rw [confirmFrame,if_pos hcond,publishReceivedFrame,if_pos hr]
  rfl

theorem listenCpltCallback_overrun {s : AdcsI2cSlave} {i2c : I2cHandle} (h : s.i2c = some i2c)
    (hal : HalStatus) (hc : s.Confirmable) (hr : s.rxReady = true) :
    (listenCpltCallback s i2c hal).1.stats.receiveOverrunCount =
      s.stats.receiveOverrunCount + 1#32 := by
  have hend : ∀ t : AdcsI2cSlave,
      (endTransfer t).stats.receiveOverrunCount = t.stats.receiveOverrunCount := by
    intro t
    rw [endTransfer,noteMalformedReceive]
    split <;> rfl
  have hstats : (listenCpltCallback s i2c hal).1.stats.receiveOverrunCount =
      (endTransfer (confirmFrame { s with
        stats.listenCompleteCount := s.stats.listenCompleteCount + 1#32 })
        ).stats.receiveOverrunCount := by
    rw [listenCpltCallback,if_neg (not_not.mpr h)]
    dsimp only
    split <;> rfl
  rw [hstats,hend]
  exact confirmFrame_overrun hc hr

/-! ### The invariant -/

/-- `length` is that of the frame whose header stands in the slot. -/
def Measured (length : BitVec 16) (slot : List Byte) : Prop :=
  length.toNat = frameHeaderSize + (readU16Be (slot.drop 2)).toNat ∧
    length.toNat ≤ maxFrameWireSize

structure RxInv (v : RxView) (armed : Option (RxBuffer × ℕ)) : Prop where
  sized : ∀ slot,(v.rxFrames slot).length = maxFrameWireSize
  /-- bytes go to the active slot only -/
  armedSlot : ∀ slot offset size,armed = some (.frame slot offset,size) → slot = v.rxActiveIndex
  disarmed : v.rxPhase = .complete → armed = none
  header : v.rxPhase = .writeHeader → v.rxActiveLength = BitVec.ofNat 16 frameHeaderSize
  /-- the payload does not overwrite the header -/
  behind : v.rxPhase = .writePayload →
    ∀ slot offset size,armed = some (.frame slot offset,size) → frameHeaderSize ≤ offset
  measured : v.rxPhase = .writePayload ∨
    (v.rxPhase = .complete ∧ v.selectedCommand = cmdWriteFrame) →
    Measured v.rxActiveLength (v.rxFrames v.rxActiveIndex)
  apart : v.rxReady = true → v.rxActiveIndex ≠ v.rxReadyIndex
  ready : v.rxReady = true → Measured v.rxReadyLength (v.rxFrames v.rxReadyIndex)

theorem measured_header {length : BitVec 16} (h : length.toNat ≤ maxFramePayload)
    {slot : List Byte} (hs : readU16Be (slot.drop 2) = length) :
    Measured (BitVec.ofNat 16 frameHeaderSize + length) slot := by
  have hmax : maxFramePayload = 264 := rfl
  have hwire : maxFrameWireSize = 268 := rfl
  have hheader : frameHeaderSize = 4 := rfl
  rw [Measured,hs,BitVec.toNat_add,BitVec.toNat_ofNat]
  omega

/-- A callback keeps the invariant, whether or not the HAL accepts what it asks for. -/
theorem RxInv.change {v v' : RxView} {done : Bool} {armed armed' region : Option (RxBuffer × ℕ)}
    (h : RxInv v armed) (hc : RxChange v done v' region) (hdone : done = true → armed = none)
    (harm : armed' = armed ∨ (region ≠ none ∧ armed' = region)) : RxInv v' armed' := by
  cases hc with
  | same =>
    obtain rfl | ⟨hr,-⟩ := harm
    · exact h
    · exact absurd rfl hr
  | addressed =>
    refine ⟨h.sized,?_,nofun,nofun,nofun,nofun,h.apart,h.ready⟩
    obtain rfl | ⟨-,rfl⟩ := harm
    · exact h.armedSlot
    · nofun
  | selected c hc =>
    obtain rfl | ⟨hr,-⟩ := harm
    · obtain rfl := hdone rfl
      exact ⟨h.sized,nofun,fun _ => rfl,nofun,nofun,by rintro (h | h); cases h; exact absurd h.2 hc,
        h.apart,h.ready⟩
    · exact absurd rfl hr
  | writeFrame =>
    refine ⟨h.sized,?_,nofun,fun _ => rfl,nofun,nofun,h.apart,h.ready⟩
    obtain rfl | ⟨-,rfl⟩ := harm
    · exact h.armedSlot
    · rintro slot offset size heq
      cases heq
      rfl
  | refused c =>
    obtain rfl | ⟨hr,-⟩ := harm
    · exact ⟨h.sized,h.armedSlot,nofun,nofun,nofun,nofun,h.apart,h.ready⟩
    · exact absurd rfl hr
  | headerOnly hp h0 =>
    obtain rfl | ⟨hr,-⟩ := harm
    · obtain rfl := hdone rfl
      refine ⟨h.sized,nofun,fun _ => rfl,nofun,nofun,fun _ => ?_,h.apart,h.ready⟩
      have hlen := h.header hp
      have hm := measured_header (by decide) h0
      rw [BitVec.add_zero,← hlen] at hm
      exact hm
    · exact absurd rfl hr
  | header hp hmax =>
    obtain rfl := hdone rfl
    refine ⟨h.sized,?_,nofun,nofun,?_,fun _ => measured_header hmax rfl,h.apart,h.ready⟩
    · obtain rfl | ⟨-,rfl⟩ := harm
      · nofun
      · rintro slot offset size heq
        cases heq
        rfl
    · obtain rfl | ⟨-,rfl⟩ := harm
      · nofun
      · rintro - slot offset size heq
        cases heq
        exact le_rfl
  | payload hp =>
    obtain rfl | ⟨hr,-⟩ := harm
    · obtain rfl := hdone rfl
      exact ⟨h.sized,nofun,fun _ => rfl,nofun,nofun,fun _ => h.measured (.inl hp),h.apart,h.ready⟩
    · exact absurd rfl hr
  | deselected =>
    obtain rfl | ⟨hr,-⟩ := harm
    · refine ⟨h.sized,h.armedSlot,h.disarmed,h.header,h.behind,?_,h.apart,h.ready⟩
      rintro (hp | ⟨-,hc⟩)
      · exact h.measured (.inl hp)
      · have hne : (0 : Byte) ≠ cmdWriteFrame := by decide
        exact absurd hc hne
    · exact absurd rfl hr
  | ended =>
    obtain rfl | ⟨hr,-⟩ := harm
    · exact ⟨h.sized,h.armedSlot,nofun,nofun,nofun,nofun,h.apart,h.ready⟩
    · exact absurd rfl hr

theorem RxInv.disarm {v : RxView} {armed : Option (RxBuffer × ℕ)} (h : RxInv v armed) :
    RxInv v none :=
  ⟨h.sized,nofun,fun _ => rfl,h.header,nofun,h.measured,h.apart,h.ready⟩

/-- Publishing moves the active slot away from the published one. -/
theorem RxInv.confirmed {v : RxView} {armed : Option (RxBuffer × ℕ)} (h : RxInv v armed) :
    RxInv { v.confirmed with selectedCommand := 0,rxPhase := .idle } armed := by
  rw [RxView.confirmed]
  split
  · rename_i hc
    obtain ⟨hconf,-⟩ := hc
    obtain rfl := h.disarmed hconf.1
    refine ⟨h.sized,nofun,nofun,nofun,nofun,nofun,fun _ => ?_,fun _ => h.measured (.inr hconf)⟩
    exact Bool.not_ne_self v.rxActiveIndex
  · exact ⟨h.sized,h.armedSlot,nofun,nofun,nofun,nofun,h.apart,h.ready⟩

theorem readU16Be_set {slot : List Byte} {i : ℕ} (hi : 4 ≤ i) (byte : Byte) :
    readU16Be ((slot.set i byte).drop 2) = readU16Be (slot.drop 2) := by
  have hbyte : ∀ j,j < 4 → byteAt (slot.set i byte) j = byteAt slot j := by
    intro j hj
    rw [byteAt,byteAt,List.getD_eq_getElem?_getD,List.getD_eq_getElem?_getD,
      List.getElem?_set_ne (by omega)]
  apply readU16Be_congr
  · rw [byteAt_drop,byteAt_drop,hbyte _ (by omega)]
  · rw [byteAt_drop,byteAt_drop,hbyte _ (by omega)]

/-- A byte stored by the HAL changes neither a measured header nor the published slot. -/
theorem RxInv.store {s : AdcsI2cSlave} {buffer : RxBuffer} {size : ℕ}
    (h : RxInv s.rx (some (buffer,size))) (offset : ℕ) (byte : Byte) :
    RxInv (storeByte s buffer offset byte).rx (some (buffer,size)) ∧
      (storeByte s buffer offset byte).rxReady = s.rxReady ∧
      (s.rxReady = true → (storeByte s buffer offset byte).readyFrame = s.readyFrame) := by
  cases buffer with
  | command => exact ⟨h,rfl,fun _ => rfl⟩
  | frame slot start =>
    -- the armed slot is the active one, which is never the published one
    obtain rfl := h.armedSlot slot start size rfl
    have hother : ∀ other,other ≠ s.rxActiveIndex →
        (storeByte s (.frame s.rxActiveIndex start) offset byte).rxFrames other =
          s.rxFrames other := fun other hne => Function.update_of_ne hne _ _
    have hactive : (storeByte s (.frame s.rxActiveIndex start) offset byte).rxFrames
        s.rxActiveIndex = (s.rxFrames s.rxActiveIndex).set (start+offset) byte :=
      Function.update_self _ _ _
    refine ⟨⟨?_,h.armedSlot,h.disarmed,h.header,h.behind,?_,h.apart,?_⟩,rfl,?_⟩
    · intro other
      by_cases heq : other = s.rxActiveIndex
      · subst heq
        exact (congrArg List.length hactive).trans (List.length_set.trans (h.sized _))
      · exact (congrArg List.length (hother other heq)).trans (h.sized other)
    · rintro (hp | ⟨hp,-⟩)
      · have hm := h.measured (.inl hp)
        have hbehind := h.behind hp _ _ _ rfl
        change Measured s.rxActiveLength
          ((storeByte s (.frame s.rxActiveIndex start) offset byte).rxFrames s.rxActiveIndex)
        rw [hactive,Measured,readU16Be_set (by simp only [frameHeaderSize] at hbehind; omega)]
        exact hm
      · exact absurd (h.disarmed hp) (Option.some_ne_none _)
    · intro hr
      change Measured s.rxReadyLength
        ((storeByte s (.frame s.rxActiveIndex start) offset byte).rxFrames s.rxReadyIndex)
      have hne : s.rxReadyIndex ≠ s.rxActiveIndex := (h.apart hr).symm
      rw [hother _ hne]
      exact h.ready hr
    · intro hr
      change AdcsI2cFrame.mk s.rxReadyLength
        (((storeByte s (.frame s.rxActiveIndex start) offset byte).rxFrames s.rxReadyIndex).take
          s.rxReadyLength.toNat) = _
      have hne : s.rxReadyIndex ≠ s.rxActiveIndex := (h.apart hr).symm
      rw [hother _ hne]
      rfl

/-! ### Whole runs -/

/-- A frame as long as its header says. -/
structure AdcsI2cFrame.Sound (frame : AdcsI2cFrame) : Prop where
  min : 4 ≤ frame.length.toNat
  max : frame.length.toNat ≤ 268
  header : frame.length.toNat = 4 + (readU16Be (frame.bytes.drop 2)).toNat
  bytes : frame.bytes.length = frame.length.toNat

theorem sound_of_measured {length : BitVec 16} {slot : List Byte} (h : Measured length slot)
    (hsized : slot.length = maxFrameWireSize) :
    (⟨length,slot.take length.toNat⟩ : AdcsI2cFrame).Sound := by
  obtain ⟨hlen,hmax⟩ := h
  have hwire : maxFrameWireSize = 268 := rfl
  have hheader : frameHeaderSize = 4 := rfl
  refine ⟨by dsimp only; omega,by dsimp only; omega,?_,?_⟩
  · have hread : readU16Be ((slot.take length.toNat).drop 2) = readU16Be (slot.drop 2) := by
      apply readU16Be_congr
      · rw [byteAt_drop,byteAt_drop,byteAt_take _ _ _ (by omega)]
      · rw [byteAt_drop,byteAt_drop,byteAt_take _ _ _ (by omega)]
    dsimp only
    rw [hread]
    omega
  · dsimp only
    rw [List.length_take]
    omega

structure I2cReceiver.Inv (r : I2cReceiver) : Prop where
  rx : RxInv r.slave.rx r.armed
  delivered : r.published =
    r.taken ++ if r.slave.rxReady = true then [r.slave.readyFrame] else []
  sound : ∀ frame ∈ r.published,frame.Sound

/-- The frame waiting to be taken, or nothing. -/
def RxView.pending (v : RxView) : List AdcsI2cFrame :=
  if v.rxReady = true then
    [⟨v.rxReadyLength,(v.rxFrames v.rxReadyIndex).take v.rxReadyLength.toNat⟩]
  else []

theorem RxChange.pending_eq {v v' : RxView} {done : Bool} {region : Option (RxBuffer × ℕ)}
    (h : RxChange v done v' region) : v'.pending = v.pending := by
  cases h <;> rfl

/-- A callback that publishes nothing keeps the invariant. -/
theorem I2cReceiver.Inv.change {r : I2cReceiver} (h : r.Inv) {slave : AdcsI2cSlave} {done : Bool}
    {armed region : Option (RxBuffer × ℕ)} (hc : RxChange r.slave.rx done slave.rx region)
    (hrx : RxInv slave.rx armed) : ({ r with slave := slave,armed := armed } : I2cReceiver).Inv :=
  ⟨hrx,h.delivered.trans (congrArg (r.taken ++ ·) hc.pending_eq.symm),h.sound⟩

theorem I2cReceiver.Inv.of_rx_eq {r : I2cReceiver} (h : r.Inv) {slave : AdcsI2cSlave}
    (hrx : slave.rx = r.slave.rx) : ({ r with slave := slave } : I2cReceiver).Inv := by
  have hc : RxChange r.slave.rx false slave.rx none := by
    rw [hrx]
    exact .same
  exact h.change hc (by rw [hrx]; exact h.rx)

theorem armedAfter_cases (armed : Option (RxBuffer × ℕ)) (request : Option HalRequest)
    (hal : HalStatus) :
    armedAfter armed request hal = armed ∨
      (HalRequest.region request ≠ none ∧
        armedAfter armed request hal = HalRequest.region request) := by
  rcases request with _ | ⟨buffer,size⟩ | ⟨buffer,size⟩ | _
  · exact .inl rfl
  · by_cases hok : hal = .ok
    · exact .inr ⟨Option.some_ne_none _,if_pos hok⟩
    · exact .inl (if_neg hok)
  · exact .inl rfl
  · exact .inl rfl

/-- Calls of the main loop other than taking a frame do not touch the receive side. -/
theorem queueTransmitFrame_rx (s : AdcsI2cSlave) (wireFrame : List Byte) :
    (adcsI2cSlaveQueueTransmitFrame s wireFrame).2.rx = s.rx := by
  rw [adcsI2cSlaveQueueTransmitFrame]
  split
  · rfl
  split <;> rfl

theorem process_rx (s : AdcsI2cSlave) (state : Byte) (hal : HalStatus) :
    (adcsI2cSlaveProcess s state hal).rx = s.rx := by
  rw [adcsI2cSlaveProcess]
  split
  · rfl
  dsimp only
  split
  · rfl
  split <;> rfl

theorem I2cReceiver.listen_inv {r : I2cReceiver} (h : r.Inv) {i2c : I2cHandle}
    (hi : r.slave.i2c = some i2c) (hal : HalStatus) :
    ({ r with
      slave := (listenCpltCallback r.slave i2c hal).1
      published := if r.slave.i2c = some i2c ∧ r.slave.Confirmable ∧ r.slave.rxReady = false then
          r.published ++ [r.slave.activeFrame]
        else r.published } : I2cReceiver).Inv := by
  have hrx := listenCpltCallback_rx hi hal
  have hinv : RxInv (listenCpltCallback r.slave i2c hal).1.rx r.armed := by
    rw [hrx]
    exact h.rx.confirmed
  by_cases hc : r.slave.Confirmable ∧ r.slave.rxReady = false
  · have hcond : (r.slave.rx.rxPhase = .complete ∧
        r.slave.rx.selectedCommand = cmdWriteFrame) ∧ r.slave.rx.rxReady = false := hc
    have hpending : (listenCpltCallback r.slave i2c hal).1.rx.pending =
        [r.slave.activeFrame] := by
      rw [hrx,RxView.confirmed,if_pos hcond]
      rfl
    have hdelivered := h.delivered
    rw [if_neg (by rw [hc.2]; decide),List.append_nil] at hdelivered
    rw [if_pos ⟨hi,hc.1,hc.2⟩]
    refine ⟨hinv,?_,?_⟩
    · change r.published ++ [r.slave.activeFrame] =
        r.taken ++ (listenCpltCallback r.slave i2c hal).1.rx.pending
      rw [hpending,hdelivered]
    · intro frame hframe
      rcases List.mem_append.mp hframe with hframe | hframe
      · exact h.sound frame hframe
      · rw [List.mem_singleton.mp hframe]
        exact sound_of_measured (h.rx.measured (.inr hc.1)) (h.rx.sized _)
  · have hcond : ¬ ((r.slave.rx.rxPhase = .complete ∧
        r.slave.rx.selectedCommand = cmdWriteFrame) ∧ r.slave.rx.rxReady = false) := hc
    rw [if_neg fun h => hc h.2]
    refine ⟨hinv,?_,h.sound⟩
    have hpending : (listenCpltCallback r.slave i2c hal).1.rx.pending = r.slave.rx.pending := by
      rw [hrx,RxView.confirmed,if_neg hcond]
      rfl
    exact h.delivered.trans (congrArg (r.taken ++ ·) hpending.symm)

theorem I2cReceiver.take_inv {r : I2cReceiver} (h : r.Inv) :
    ({ r with
      slave := (adcsI2cSlaveTakeReceivedFrame r.slave).2
      taken := r.taken ++ (adcsI2cSlaveTakeReceivedFrame r.slave).1.toList } : I2cReceiver).Inv := by
  have hdelivered := h.delivered
  rw [adcsI2cSlaveTakeReceivedFrame]
  by_cases hr : r.slave.rxReady = true
  · rw [if_pos hr] at hdelivered ⊢
    refine ⟨⟨h.rx.sized,h.rx.armedSlot,h.rx.disarmed,h.rx.header,h.rx.behind,h.rx.measured,nofun,
      nofun⟩,?_,h.sound⟩
    rw [hdelivered]
    exact (List.append_nil _).symm
  · rw [if_neg hr]
    exact ⟨h.rx,hdelivered.trans (by simp),h.sound⟩

/-- Every action keeps the invariant. -/
theorem I2cReceiver.step_inv (r : I2cReceiver) (a : RxAction) (r' : I2cReceiver) (h : r.Inv)
    (hs : r.step a = some r') : r'.Inv := by
  cases a with
  | store offset byte =>
    rw [step] at hs
    split at hs
    · rename_i buffer size harmed
      split at hs
      · obtain rfl := Option.some.inj hs
        have hrx := h.rx
        rw [harmed] at hrx
        obtain ⟨hinv,hready,hframe⟩ := hrx.store offset byte
        refine ⟨harmed ▸ hinv,?_,h.sound⟩
        rw [h.delivered]
        change _ = r.taken ++ if (storeByte r.slave buffer offset byte).rxReady = true then
          [(storeByte r.slave buffer offset byte).readyFrame] else []
        rw [hready]
        by_cases hr : r.slave.rxReady = true
        · rw [if_pos hr,if_pos hr,hframe hr]
        · rw [if_neg hr,if_neg hr]
      · cases hs
    · cases hs
  | addr i2c transferDirection addressMatchCode hal =>
    obtain rfl := Option.some.inj hs
    have hc := addrCallback_rx r.slave i2c transferDirection addressMatchCode hal
    exact h.change hc (h.rx.change hc nofun (armedAfter_cases _ _ hal))
  | rxCplt i2c hal =>
    obtain rfl := Option.some.inj hs
    have hc := slaveRxCpltCallback_rx r.slave i2c hal
    by_cases hi : r.slave.i2c = some i2c
    · rw [if_pos hi]
      -- the HAL has filled the region, so nothing is armed until the callback asks again
      exact h.change hc (h.rx.disarm.change hc (fun _ => rfl) (armedAfter_cases _ _ hal))
    · have hignored : slaveRxCpltCallback r.slave i2c hal = (r.slave,none) := if_pos hi
      change ({ r with
        slave := (slaveRxCpltCallback r.slave i2c hal).1
        armed := armedAfter (if r.slave.i2c = some i2c then none else r.armed)
          (slaveRxCpltCallback r.slave i2c hal).2 hal } : I2cReceiver).Inv
      rw [if_neg hi,hignored]
      exact h
  | txCplt i2c =>
    obtain rfl := Option.some.inj hs
    have hc := slaveTxCpltCallback_rx r.slave i2c
    exact h.change hc (h.rx.change hc nofun (.inl rfl))
  | listenCplt i2c hal =>
    obtain rfl := Option.some.inj hs
    by_cases hi : r.slave.i2c = some i2c
    · exact listen_inv h hi hal
    · rw [if_neg fun h => hi h.1,listenCpltCallback,if_pos hi]
      exact h
  | error i2c lastError =>
    obtain rfl := Option.some.inj hs
    have hc := errorCallback_rx r.slave i2c lastError
    exact h.change hc (h.rx.change hc nofun (.inl rfl))
  | take =>
    obtain rfl := Option.some.inj hs
    exact take_inv h
  | queue wireFrame =>
    obtain rfl := Option.some.inj hs
    exact h.of_rx_eq (queueTransmitFrame_rx r.slave wireFrame)
  | process state hal =>
    obtain rfl := Option.some.inj hs
    exact h.of_rx_eq (process_rx r.slave state hal)
  | takeEvents =>
    obtain rfl := Option.some.inj hs
    exact h.of_rx_eq rfl

/-- The handle registered at initialisation stays. -/
theorem I2cReceiver.step_i2c {r : I2cReceiver} {a : RxAction} {r' : I2cReceiver}
    (hs : r.step a = some r') : r'.slave.i2c = r.slave.i2c := by
  have hchange : ∀ {v v' : RxView} {done : Bool} {region : Option (RxBuffer × ℕ)},
      RxChange v done v' region → v'.i2c = v.i2c := by
    intro v v' done region hc
    cases hc <;> rfl
  cases a with
  | store offset byte =>
    rw [step] at hs
    split at hs
    · rename_i buffer size _
      split at hs
      · obtain rfl := Option.some.inj hs
        cases buffer <;> rfl
      · cases hs
    · cases hs
  | addr i2c transferDirection addressMatchCode hal =>
    obtain rfl := Option.some.inj hs
    exact hchange (addrCallback_rx r.slave i2c transferDirection addressMatchCode hal)
  | rxCplt i2c hal =>
    obtain rfl := Option.some.inj hs
    exact hchange (slaveRxCpltCallback_rx r.slave i2c hal)
  | txCplt i2c =>
    obtain rfl := Option.some.inj hs
    exact hchange (slaveTxCpltCallback_rx r.slave i2c)
  | listenCplt i2c hal =>
    obtain rfl := Option.some.inj hs
    by_cases hi : r.slave.i2c = some i2c
    · have hrx := congrArg RxView.i2c (listenCpltCallback_rx hi hal)
      rw [RxView.confirmed] at hrx
      exact hrx.trans (by split <;> rfl)
    · exact congrArg (fun x : AdcsI2cSlave × Option HalRequest => x.1.i2c) (if_pos hi)
  | error i2c lastError =>
    obtain rfl := Option.some.inj hs
    exact hchange (errorCallback_rx r.slave i2c lastError)
  | take =>
    obtain rfl := Option.some.inj hs
    change (adcsI2cSlaveTakeReceivedFrame r.slave).2.i2c = _
    rw [adcsI2cSlaveTakeReceivedFrame]
    split <;> rfl
  | queue wireFrame =>
    obtain rfl := Option.some.inj hs
    exact congrArg RxView.i2c (queueTransmitFrame_rx r.slave wireFrame)
  | process state hal =>
    obtain rfl := Option.some.inj hs
    exact congrArg RxView.i2c (process_rx r.slave state hal)
  | takeEvents =>
    obtain rfl := Option.some.inj hs
    rfl

theorem I2cReceiver.inv_initial {s : AdcsI2cSlave}
    (hs : ∀ slot,(s.rxFrames slot).length = maxFrameWireSize) (i2c : I2cHandle) :
    (I2cReceiver.initial s i2c).Inv :=
  ⟨⟨hs,nofun,nofun,nofun,nofun,nofun,nofun,nofun⟩,rfl,nofun⟩

/-- After initialisation, for callbacks and calls in any order. A frame waiting to be taken
is in the slot that is not active, and no armed region is in it. Every frame taken has the
length its header says. The frames published are those taken, in order, and the one that
waits, with the bytes they had when published. A STOP that confirms a frame publishes it if
none waits; otherwise it counts an overrun and the waiting frame stays as it is. -/
theorem received_frames_intact {s : AdcsI2cSlave} {i2c : I2cHandle} {actions : List RxAction}
    {r : I2cReceiver} (hs : ∀ slot,(s.rxFrames slot).length = maxFrameWireSize)
    (hrun : run I2cReceiver.step (I2cReceiver.initial s i2c) actions = some r) :
    (r.slave.rxReady = true → r.slave.rxActiveIndex ≠ r.slave.rxReadyIndex ∧
      ∀ slot offset size,r.armed = some (.frame slot offset,size) →
        slot ≠ r.slave.rxReadyIndex) ∧
    (∀ frame ∈ r.taken,4 ≤ frame.length.toNat ∧ frame.length.toNat ≤ 268 ∧
      frame.length.toNat = 4 + (readU16Be (frame.bytes.drop 2)).toNat ∧
      frame.bytes.length = frame.length.toNat) ∧
    r.published = r.taken ++ (if r.slave.rxReady = true then [r.slave.readyFrame] else []) ∧
    (∀ hal r',r.slave.Confirmable →
      r.step (.listenCplt i2c hal) = some r' →
      (r.slave.rxReady = false ∧ r'.slave.rxReady = true ∧
        r'.slave.readyFrame = r.slave.activeFrame ∧
        r'.published = r.published ++ [r.slave.activeFrame] ∧ r'.taken = r.taken) ∨
      (r.slave.rxReady = true ∧ r'.slave.rxReady = true ∧
        r'.slave.readyFrame = r.slave.readyFrame ∧ r'.published = r.published ∧
        r'.taken = r.taken ∧ r'.slave.stats.receiveOverrunCount =
          r.slave.stats.receiveOverrunCount + 1#32)) := by
  have h : r.Inv := run_invariant I2cReceiver.step_inv (I2cReceiver.inv_initial hs i2c) hrun
  have hi : r.slave.i2c = some i2c :=
    run_invariant (I := fun r : I2cReceiver => r.slave.i2c = some i2c)
      (fun r a r' hr hs => (I2cReceiver.step_i2c hs).trans hr) rfl hrun
  refine ⟨fun hr => ⟨h.rx.apart hr,?_⟩,?_,h.delivered,?_⟩
  · intro slot offset size harmed
    rw [h.rx.armedSlot slot offset size harmed]
    exact h.rx.apart hr
  · intro frame hframe
    obtain ⟨hmin,hmax,hheader,hbytes⟩ :=
      h.sound frame (by rw [h.delivered]; exact List.mem_append_left _ hframe)
    exact ⟨hmin,hmax,hheader,hbytes⟩
  · intro hal r' hc hstep
    obtain rfl := Option.some.inj hstep
    have hrx := listenCpltCallback_rx hi hal
    by_cases hr : r.slave.rxReady = true
    -- a frame waits: the new one is dropped and counted
    · have hbusy : ¬ ((r.slave.rx.rxPhase = .complete ∧
          r.slave.rx.selectedCommand = cmdWriteFrame) ∧ r.slave.rx.rxReady = false) :=
        fun h => absurd (hr.symm.trans h.2) (by decide)
      rw [RxView.confirmed,if_neg hbusy] at hrx
      have hkeep : ¬ (r.slave.i2c = some i2c ∧ r.slave.Confirmable ∧ r.slave.rxReady = false) :=
        fun h => absurd (hr.symm.trans h.2.2) (by decide)
      exact .inr ⟨hr,(congrArg RxView.rxReady hrx).trans hr,
        congrArg (fun v : RxView => (⟨v.rxReadyLength,
          (v.rxFrames v.rxReadyIndex).take v.rxReadyLength.toNat⟩ : AdcsI2cFrame)) hrx,
        if_neg hkeep,rfl,listenCpltCallback_overrun hi hal hc hr⟩
    · have hfree := Bool.eq_false_of_not_eq_true hr
      have hcond : (r.slave.rx.rxPhase = .complete ∧
          r.slave.rx.selectedCommand = cmdWriteFrame) ∧ r.slave.rx.rxReady = false := ⟨hc,hfree⟩
      rw [RxView.confirmed,if_pos hcond] at hrx
      exact .inl ⟨hfree,congrArg RxView.rxReady hrx,
        congrArg (fun v : RxView => (⟨v.rxReadyLength,
          (v.rxFrames v.rxReadyIndex).take v.rxReadyLength.toNat⟩ : AdcsI2cFrame)) hrx,
        if_pos ⟨hi,hc,hfree⟩,rfl⟩

def boardHandle : I2cHandle := ⟨1,0x54⟩

/-- The master writes a frame with a payload of one byte and the main loop takes it. -/
def writeFrameActions : List RxAction :=
  [.addr boardHandle i2cDirectionTransmit 0x54 .ok,.store 0 cmdWriteFrame,.rxCplt boardHandle .ok,
    .store 0 1,.store 1 2,.store 2 0,.store 3 1,.rxCplt boardHandle .ok,
    .store 0 0xAB,.rxCplt boardHandle .ok,.listenCplt boardHandle .ok,.take]

theorem written_frame_taken :
    ∃ r,run I2cReceiver.step (I2cReceiver.initial .zero boardHandle) writeFrameActions = some r ∧
      r.taken = [⟨5,[1,2,0,1,0xAB]⟩] ∧ ∀ frame ∈ r.taken,4 ≤ frame.length.toNat := by
  have htaken : (run I2cReceiver.step (I2cReceiver.initial .zero boardHandle)
      writeFrameActions).map I2cReceiver.taken = some [⟨5,[1,2,0,1,0xAB]⟩] := by decide
  obtain ⟨r,hr,hframes⟩ := Option.map_eq_some_iff.mp htaken
  exact ⟨r,hr,hframes,fun frame hframe =>
    ((received_frames_intact (fun _ => List.length_replicate) hr).2.1 frame hframe).1⟩

end FlightSoftware.Adcs
