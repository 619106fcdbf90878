import FlightSoftware.Adcs.I2cSlave
import FlightSoftware.Bus.Frame
import FlightSoftware.Lib.Run

/-!
# Frames from the slave to the master

The main loop of the ADCS board queues frames; the flight computer polls with
GET_STATUS and fetches with READ_FRAME, as `comms_i2c.c` does. A transaction is
cut into the events the slave sees, any of which may be the last: the address
for writing, the command byte, the address for reading, every byte clocked and
the end of the transfer. The HAL calls the slave back in this order, and reports
a completed transmission when all bytes it was given have been clocked and the
transfer succeeded. Other callbacks come between transactions.
-/

namespace FlightSoftware.Bus
open BigEndian Adcs Run

/-! ### The master -/

/-- `get_slave_status`, with the bytes of the transfer if it succeeded. -/
def getSlaveStatus (transfer : Option (List Byte)) : Option I2cStatus :=
  transfer.bind i2cStatusDecode

/-- `read_slave_frame`, with the bytes of the transfer if it succeeded. -/
def readSlaveFrame (announcedWireLength : BitVec 16) (transfer : Option (List Byte)) :
    Option Frame :=
  if announcedWireLength.toNat < Bus.frameHeaderSize ∨
      announcedWireLength.toNat > Bus.maxFrameWireSize then none
  else (transfer.bind frameDeserialize).bind fun frame =>
    if BitVec.ofNat 16 Bus.frameHeaderSize + frame.length ≠ announcedWireLength then none
    else some frame

/-! ### The bus -/

/-- How far a transaction has come. `reading` holds what the slave's HAL was given to
transmit and the bytes the master has. -/
inductive TxnPhase where
  | addressed
  | commanded
  | reading (source : TxBuffer) (size : ℕ) (got : List Byte)
  | stuck
  deriving DecidableEq,Repr

/-- What the master is doing: polling, or reading a frame of an announced length. -/
inductive Purpose where
  | status
  | frame (announced : BitVec 16)
  deriving DecidableEq,Repr

def Purpose.command : Purpose → Byte
  | .status => cmdGetStatus
  | .frame _ => cmdReadFrame

/-- The number of bytes the master reads. -/
def Purpose.length : Purpose → ℕ
  | .status => Bus.statusWireSize
  | .frame announced => announced.toNat

/-- The slave, the transaction on the bus, the length the master has been told of, the
frames the slave accepted and those the master returned. -/
structure I2cBus where
  slave : AdcsI2cSlave
  txn : Option (Purpose × TxnPhase)
  announced : Option (BitVec 16)
  accepted : List (List Byte)
  returned : List Frame

inductive BusAction where
  | queue (wireFrame : List Byte)
  | process (state : Byte) (hal : HalStatus)
  | takeReceived
  | takeEvents
  | beginStatus (hal : HalStatus)
  | beginRead (hal : HalStatus)
  | sendCommand (hal : HalStatus)
  | restart (hal : HalStatus)
  | clock
  | complete
  | abort
  | listenCplt (hal : HalStatus)
  | error (lastError : BitVec 32)

/-- The byte the slave's HAL puts on the bus; nothing drives it behind the last. -/
def txByte (s : AdcsI2cSlave) (source : TxBuffer) (size i : ℕ) : Byte :=
  if i < size then
    match source with
    | .status => byteAt s.statusResponse i
    | .frame slot => byteAt (s.txFrames slot) i
  else 0xFF#8

/-- The address the handle answers to. -/
def I2cHandle.ownAddress (i2c : I2cHandle) : BitVec 16 := (i2c.ownAddress1 &&& 0x03FE#32).setWidth 16

/-- The master addresses the slave for writing. -/
def I2cBus.begin (b : I2cBus) (i2c : I2cHandle) (purpose : Purpose) (hal : HalStatus) : I2cBus :=
  { b with
    slave := (addrCallback b.slave i2c i2cDirectionTransmit (I2cHandle.ownAddress i2c) hal).1
    txn := some (purpose,if hal = .ok then .addressed else .stuck) }

/-- The master has all the bytes it wanted. -/
def I2cBus.finish (b : I2cBus) (i2c : I2cHandle) (purpose : Purpose) (size : ℕ)
    (got : List Byte) : I2cBus :=
  let b := { b with
    slave := if size ≤ got.length then slaveTxCpltCallback b.slave i2c else b.slave
    txn := none }
  match purpose with
  | .status =>
    { b with announced := (getSlaveStatus (some got)).bind fun status =>
        if status.flags &&& Bus.statusDataReady = 0#8 then none else some status.frameLength }
  | .frame announced =>
    { b with
      announced := none
      returned := b.returned ++ (readSlaveFrame announced (some got)).toList }

def I2cBus.step (i2c : I2cHandle) (b : I2cBus) : BusAction → Option I2cBus
  | .queue wireFrame =>
    let (status,slave) := adcsI2cSlaveQueueTransmitFrame b.slave wireFrame
    some { b with
      slave := slave
      accepted := if status = .ok then b.accepted ++ [wireFrame] else b.accepted }
  | .process state hal => some { b with slave := adcsI2cSlaveProcess b.slave state hal }
  | .takeReceived => some { b with slave := (adcsI2cSlaveTakeReceivedFrame b.slave).2 }
  | .takeEvents => some { b with slave := (adcsI2cSlaveTakeEvents b.slave).2 }
  | .beginStatus hal =>
    if b.txn = none then some { b.begin i2c .status hal with announced := none } else none
  | .beginRead hal =>
    -- only the length of the last status is read; an interrupted transfer is tried again
    match b.txn,b.announced with
    | none,some announced => some (b.begin i2c (.frame announced) hal)
    | _,_ => none
  | .sendCommand hal => match b.txn with
    | some (purpose,.addressed) => some { b with
        slave := (slaveRxCpltCallback { b.slave with commandByte := purpose.command } i2c hal).1
        txn := some (purpose,.commanded) }
    | _ => none
  | .restart hal => match b.txn with
    | some (purpose,.commanded) =>
      let (slave,request) :=
        addrCallback b.slave i2c i2cDirectionReceive (I2cHandle.ownAddress i2c) hal
      some { b with
        slave := slave
        txn := some (purpose,match request with
          | some (.transmit source size) => if hal = .ok then .reading source size [] else .stuck
          | _ => .stuck) }
    | _ => none
  | .clock => match b.txn with
    | some (purpose,.reading source size got) =>
      if got.length < purpose.length then some { b with
        txn := some (purpose,
          .reading source size (got ++ [txByte b.slave source size got.length])) }
      else none
    | _ => none
  | .complete => match b.txn with
    | some (purpose,.reading _ size got) =>
      if got.length = purpose.length then some (b.finish i2c purpose size got) else none
    | _ => none
  | .abort => if b.txn = none then none else some { b with txn := none }
  | .listenCplt hal =>
    if b.txn = none then some { b with slave := (listenCpltCallback b.slave i2c hal).1 } else none
  | .error lastError =>
    if b.txn = none then some { b with slave := errorCallback b.slave i2c lastError } else none

def I2cBus.initial (s : AdcsI2cSlave) (i2c : I2cHandle) : I2cBus :=
  ⟨(adcsI2cSlaveInit s i2c .ok).2,none,none,[],[]⟩

/-! ### The variables of the transmit side -/

/-- The part of the slave's state the transmit side depends on. -/
structure TxView where
  i2c : Option I2cHandle
  selectedCommand : Byte
  rxPhase : AdcsRxPhase
  txKind : AdcsTxKind
  txFrames : Bool → List Byte
  txReadyIndex : Bool
  txReadyLength : BitVec 16
  txReady : Bool
  txInProgressIndex : Bool
  statusResponse : List Byte

def txView (s : AdcsI2cSlave) : TxView :=
  ⟨s.i2c,s.selectedCommand,s.rxPhase,s.txKind,s.txFrames,s.txReadyIndex,s.txReadyLength,s.txReady,
    s.txInProgressIndex,s.statusResponse⟩

@[simp] theorem txView_noteCallbackError (s : AdcsI2cSlave) :
    txView (noteCallbackError s) = txView s := rfl

@[simp] theorem txView_noteInvalidCommand (s : AdcsI2cSlave) :
    txView (noteInvalidCommand s) = txView s := rfl

@[simp] theorem txView_noteAddressMatch (s : AdcsI2cSlave) (transferDirection : Byte)
    (addressMatchCode : BitVec 16) :
    txView (noteAddressMatch s transferDirection addressMatchCode) = txView s := rfl

/-- The master writes: a new command is expected. -/
theorem txView_addressed {s : AdcsI2cSlave} {i2c : I2cHandle} (h : s.i2c = some i2c)
    (hal : HalStatus) :
    txView (addrCallback s i2c i2cDirectionTransmit (I2cHandle.ownAddress i2c) hal).1 =
      { txView s with selectedCommand := 0,rxPhase := .command } := by
  have hmatch : ¬ I2cHandle.ownAddress i2c ≠ (i2c.ownAddress1 &&& 0x03FE#32).setWidth 16 :=
    not_not.mpr rfl
  rw [addrCallback,if_neg (not_not.mpr h)]
  dsimp only
  rw [if_neg hmatch,if_pos rfl]
  split <;> rfl

/-- A command without data is selected. -/
theorem txView_commanded {s : AdcsI2cSlave} {i2c : I2cHandle} (h : s.i2c = some i2c)
    (hp : s.rxPhase = .command) {c : Byte} (hc : c = cmdGetStatus ∨ c = cmdReadFrame)
    (hal : HalStatus) :
    txView (slaveRxCpltCallback { s with commandByte := c } i2c hal).1 =
      { txView s with selectedCommand := c,rxPhase := .complete } := by
  have hi : ¬ ({ s with commandByte := c } : AdcsI2cSlave).i2c ≠ some i2c := not_not.mpr h
  have hphase : ({ s with commandByte := c } : AdcsI2cSlave).rxPhase = .command := hp
  rw [slaveRxCpltCallback,if_neg hi,hphase]
  dsimp only
  rw [commandReceived]
  dsimp only
  rw [if_pos hc]
  rfl

/-- The status the slave answers with. -/
def TxView.status (v : TxView) : List Byte :=
  statusWire (if v.txReady then Bus.statusDataReady else 0#8)
    (if v.txReady then v.txReadyLength else 0#16)

theorem startTransmit_status {s : AdcsI2cSlave} (h : s.selectedCommand = cmdGetStatus) :
    txView (startTransmit s).1 =
      { txView s with statusResponse := (txView s).status,txKind := .status } ∧
      (startTransmit s).2 = .transmit .status Adcs.statusWireSize := by
  rw [startTransmit,if_pos h]
  exact ⟨rfl,rfl⟩

theorem startTransmit_frame {s : AdcsI2cSlave} (h : s.selectedCommand = cmdReadFrame)
    (hr : s.txReady = true) :
    txView (startTransmit s).1 =
      { txView s with txInProgressIndex := s.txReadyIndex,txKind := .frame } ∧
      (startTransmit s).2 = .transmit (.frame s.txReadyIndex) s.txReadyLength.toNat := by
  have hne : ¬ s.selectedCommand = cmdGetStatus := by
    rw [h]
    decide
  rw [startTransmit,if_neg hne,if_pos ⟨h,hr⟩]
  exact ⟨rfl,rfl⟩

/-- The master reads: the slave's answer to the selected command is armed. -/
theorem txView_restarted {s : AdcsI2cSlave} {i2c : I2cHandle} (h : s.i2c = some i2c)
    (hal : HalStatus) :
    txView (addrCallback s i2c i2cDirectionReceive (I2cHandle.ownAddress i2c) hal).1 =
      txView (startTransmit (noteAddressMatch s i2cDirectionReceive
        (I2cHandle.ownAddress i2c))).1 ∧
      (addrCallback s i2c i2cDirectionReceive (I2cHandle.ownAddress i2c) hal).2 =
        some (startTransmit (noteAddressMatch s i2cDirectionReceive
          (I2cHandle.ownAddress i2c))).2 := by
  have hmatch : ¬ I2cHandle.ownAddress i2c ≠ (i2c.ownAddress1 &&& 0x03FE#32).setWidth 16 :=
    not_not.mpr rfl
  have hdir : ¬ i2cDirectionReceive = i2cDirectionTransmit := by decide
  rw [addrCallback,if_neg (not_not.mpr h)]
  dsimp only
  rw [if_neg hmatch,if_neg hdir,if_pos rfl]
  refine ⟨?_,rfl⟩
  split <;> rfl

/-- A completed transmission of the frame that waits releases it. -/
theorem txView_completed {s : AdcsI2cSlave} {i2c : I2cHandle} (h : s.i2c = some i2c) :
    txView (slaveTxCpltCallback s i2c) =
      if s.txKind = .frame ∧ s.txReady = true ∧ s.txInProgressIndex = s.txReadyIndex then
        { txView s with
          txReady := false
          txReadyLength := 0
          txKind := .none
          selectedCommand := 0 }
      else { txView s with txKind := .none,selectedCommand := 0 } := by
  rw [slaveTxCpltCallback,if_neg (not_not.mpr h)]
  dsimp only
  split <;> rfl

/-- Callbacks between transactions do not touch what is queued. -/
structure TxView.SameQueue (v v' : TxView) : Prop where
  i2c : v'.i2c = v.i2c
  frames : v'.txFrames = v.txFrames
  index : v'.txReadyIndex = v.txReadyIndex
  length : v'.txReadyLength = v.txReadyLength
  ready : v'.txReady = v.txReady

theorem TxView.SameQueue.trans {u v w : TxView} (h : u.SameQueue v) (h' : v.SameQueue w) :
    u.SameQueue w :=
  ⟨h'.i2c.trans h.i2c,h'.frames.trans h.frames,h'.index.trans h.index,h'.length.trans h.length,
    h'.ready.trans h.ready⟩

theorem sameQueue_listenCplt {s : AdcsI2cSlave} {i2c : I2cHandle} (hal : HalStatus) :
    (txView s).SameQueue (txView (listenCpltCallback s i2c hal).1) := by
  have hconfirm : ∀ t : AdcsI2cSlave,(txView t).SameQueue (txView (confirmFrame t)) := by
    intro t
    rw [confirmFrame,publishReceivedFrame]
    split
    · split <;> exact ⟨rfl,rfl,rfl,rfl,rfl⟩
    · exact ⟨rfl,rfl,rfl,rfl,rfl⟩
  have hend : ∀ t : AdcsI2cSlave,(txView t).SameQueue (txView (endTransfer t)) := by
    intro t
    rw [endTransfer,noteMalformedReceive]
    split <;> exact ⟨rfl,rfl,rfl,rfl,rfl⟩
  by_cases h : s.i2c = some i2c
  · have hview : txView (listenCpltCallback s i2c hal).1 = txView (endTransfer (confirmFrame { s with
        stats.listenCompleteCount := s.stats.listenCompleteCount + 1#32 })) := by
      rw [listenCpltCallback,if_neg (not_not.mpr h)]
      dsimp only
      split <;> rfl
    have hcounted : (txView s).SameQueue (txView (confirmFrame { s with
        stats.listenCompleteCount := s.stats.listenCompleteCount + 1#32 })) := hconfirm { s with
      stats.listenCompleteCount := s.stats.listenCompleteCount + 1#32 }
    rw [hview]
    exact hcounted.trans (hend _)
  · rw [listenCpltCallback,if_pos h]
    exact ⟨rfl,rfl,rfl,rfl,rfl⟩

theorem sameQueue_error {s : AdcsI2cSlave} {i2c : I2cHandle} (lastError : BitVec 32) :
    (txView s).SameQueue (txView (errorCallback s i2c lastError)) := by
  rw [errorCallback]
  split
  · exact ⟨rfl,rfl,rfl,rfl,rfl⟩
  dsimp only
  split
  · exact ⟨rfl,rfl,rfl,rfl,rfl⟩
  rw [noteMalformedReceive]
  split <;> exact ⟨rfl,rfl,rfl,rfl,rfl⟩

/-! ### The invariant -/

/-- The frame that is queued, byte for byte, or none. -/
def TxView.Holds (v : TxView) (outstanding : List (List Byte)) : Prop :=
  (v.txReady = false ∧ outstanding = []) ∨
    (v.txReady = true ∧ ∃ wire,outstanding = [wire] ∧ v.txReadyLength.toNat = wire.length ∧
      (v.txFrames v.txReadyIndex).take wire.length = wire ∧ adcsWireFrameValid wire = true)

/-- A length the master was told is that of the queued frame. -/
def TxView.Announces (v : TxView) (announced : BitVec 16) : Prop :=
  v.txReady = true ∧ v.txReadyLength = announced

/-- The status being read is true of the queued frame, or says that there is none. -/
def TxView.StatusTrue (v : TxView) : Prop :=
  v.statusResponse = statusWire 0#8 0#16 ∨
    ∃ announced,v.statusResponse = statusWire Bus.statusDataReady announced ∧
      v.Announces announced

/-- What the slave is in at each point of a transaction. -/
def TxView.InTxn (v : TxView) (purpose : Purpose) : TxnPhase → Prop
  | .stuck => True
  | .addressed => v.rxPhase = .command
  | .commanded => v.selectedCommand = purpose.command
  | .reading source size got => match purpose with
    | .status => source = .status ∧ size = Bus.statusWireSize ∧ v.txKind = .status ∧
        v.StatusTrue ∧ got <+: v.statusResponse
    | .frame announced => source = .frame v.txReadyIndex ∧ size = announced.toNat ∧
        v.txKind = .frame ∧ v.txInProgressIndex = v.txReadyIndex ∧
        got <+: v.txFrames v.txReadyIndex

structure I2cBus.Inv (b : I2cBus) (i2c : I2cHandle) (outstanding : List (List Byte)) : Prop where
  handle : (txView b.slave).i2c = some i2c
  delivered : b.accepted.map some =
    b.returned.map (fun frame => frameSerialize frame Bus.maxFrameWireSize) ++ outstanding.map some
  holds : (txView b.slave).Holds outstanding
  announced : ∀ announced,b.announced = some announced → (txView b.slave).Announces announced
  reading : ∀ announced phase,b.txn = some (.frame announced,phase) →
    (txView b.slave).Announces announced
  txn : ∀ purpose phase,b.txn = some (purpose,phase) → (txView b.slave).InTxn purpose phase

theorem adcsWireFrameValid_iff {wire : List Byte} :
    adcsWireFrameValid wire = true ↔ Bus.frameHeaderSize ≤ wire.length ∧
      wire.length ≤ Bus.maxFrameWireSize ∧
      wire.length = Bus.frameHeaderSize + (readU16Be (wire.drop 2)).toNat := by
  have hheader : Adcs.frameHeaderSize = 4 := rfl
  have hmax : Adcs.maxFramePayload = 264 := rfl
  have hwire : Adcs.maxFrameWireSize = 268 := rfl
  have hheader' : Bus.frameHeaderSize = 4 := rfl
  have hwire' : Bus.maxFrameWireSize = 268 := rfl
  rw [adcsWireFrameValid]
  split
  · simp only [Bool.false_eq_true,false_iff,not_and]
    omega
  · simp only [Bool.and_eq_true,decide_eq_true_eq,beq_iff_eq]
    omega

/-- An operation the transmit side does not see. -/
theorem I2cBus.Inv.of_view_eq {b : I2cBus} {i2c : I2cHandle} {outstanding : List (List Byte)}
    (h : b.Inv i2c outstanding) {slave : AdcsI2cSlave} (hv : txView slave = txView b.slave) :
    ({ b with slave := slave } : I2cBus).Inv i2c outstanding := by
  obtain ⟨h1,h2,h3,h4,h5,h6⟩ := h
  rw [← hv] at h1 h3 h4 h5 h6
  exact ⟨h1,h2,h3,h4,h5,h6⟩

/-- Between transactions only the queue matters. -/
theorem I2cBus.Inv.of_sameQueue {b : I2cBus} {i2c : I2cHandle} {outstanding : List (List Byte)}
    (h : b.Inv i2c outstanding) (hidle : b.txn = none) {slave : AdcsI2cSlave}
    (hv : (txView b.slave).SameQueue (txView slave)) :
    ({ b with slave := slave } : I2cBus).Inv i2c outstanding := by
  refine ⟨hv.i2c.trans h.handle,h.delivered,?_,?_,?_,?_⟩
  · have hh := h.holds
    rw [TxView.Holds] at hh ⊢
    rw [hv.ready,hv.length,hv.frames,hv.index]
    exact hh
  · intro announced ha
    have := h.announced announced ha
    exact ⟨hv.ready.trans this.1,hv.length.trans this.2⟩
  · intro announced phase ht
    exact absurd (hidle.symm.trans ht) nofun
  · intro purpose phase ht
    exact absurd (hidle.symm.trans ht) nofun

/-! ### Every action keeps it -/

theorem I2cBus.queue_inv {b : I2cBus} {i2c : I2cHandle} {outstanding : List (List Byte)}
    (h : b.Inv i2c outstanding) (wireFrame : List Byte) :
    ∃ outstanding',({ b with
      slave := (adcsI2cSlaveQueueTransmitFrame b.slave wireFrame).2
      accepted := if (adcsI2cSlaveQueueTransmitFrame b.slave wireFrame).1 = .ok then
          b.accepted ++ [wireFrame]
        else b.accepted } : I2cBus).Inv i2c outstanding' := by
  rw [adcsI2cSlaveQueueTransmitFrame]
  by_cases hvalid : adcsWireFrameValid wireFrame = false
  · rw [if_pos hvalid,if_neg nofun]
    exact ⟨outstanding,h⟩
  rw [if_neg hvalid]
  by_cases hready : b.slave.txReady = true
  · rw [if_pos hready,if_neg nofun]
    exact ⟨outstanding,h⟩
  rw [if_neg hready]
  dsimp only
  rw [if_pos rfl]
  have hfree := Bool.eq_false_of_not_eq_true hready
  -- nothing was queued, so no length is announced and no frame is being read
  have hnone : outstanding = [] := by
    obtain ⟨-,hnil⟩ | ⟨hr,-⟩ := h.holds
    · exact hnil
    · exact absurd hr hready
  have hsize := adcsWireFrameValid_iff.mp (Bool.eq_true_of_not_eq_false hvalid)
  have hwire : Bus.maxFrameWireSize = 268 := rfl
  subst hnone
  refine ⟨[wireFrame],h.handle,?_,.inr ⟨rfl,wireFrame,rfl,?_,?_,?_⟩,?_,?_,?_⟩
  · rw [List.map_append,h.delivered,List.append_assoc]
    rfl
  · change (BitVec.ofNat 16 wireFrame.length).toNat = _
    rw [BitVec.toNat_ofNat]
    omega
  · change (Function.update b.slave.txFrames (!b.slave.txReadyIndex)
      (Memory.copyIn (b.slave.txFrames (!b.slave.txReadyIndex)) 0 wireFrame)
      (!b.slave.txReadyIndex)).take wireFrame.length = wireFrame
    rw [Function.update_self,Memory.take_copyIn]
  · exact Bool.eq_true_of_not_eq_false hvalid
  · intro announced ha
    exact absurd (h.announced announced ha).1 hready
  · intro announced phase ht
    exact absurd (h.reading announced phase ht).1 hready
  · intro purpose phase ht
    have hin := h.txn purpose phase ht
    cases purpose with
    | frame announced => exact absurd (h.reading announced phase ht).1 hready
    | status =>
      cases phase with
      | reading source size got =>
        obtain ⟨hsource,hlen,hkind,hstatus,hgot⟩ := hin
        refine ⟨hsource,hlen,hkind,?_,hgot⟩
        obtain hzero | ⟨announced,-,ha⟩ := hstatus
        · exact .inl hzero
        · exact absurd ha.1 hready
      | addressed => exact hin
      | commanded => exact hin
      | stuck => trivial

theorem I2cBus.begin_inv {b : I2cBus} {i2c : I2cHandle} {outstanding : List (List Byte)}
    (h : b.Inv i2c outstanding) (purpose : Purpose) (hal : HalStatus)
    (hp : ∀ announced,purpose = .frame announced → (txView b.slave).Announces announced) :
    (b.begin i2c purpose hal).Inv i2c outstanding := by
  have hv : txView (b.begin i2c purpose hal).slave = _ := txView_addressed h.handle hal
  refine ⟨?_,h.delivered,?_,?_,?_,?_⟩
  · rw [hv]
    exact h.handle
  · rw [hv]
    exact h.holds
  · rw [hv]
    exact h.announced
  · rw [hv]
    intro announced phase ht
    cases ht
    exact hp announced rfl
  · rw [hv]
    intro purpose' phase ht
    cases ht
    split
    · rfl
    · trivial

theorem I2cBus.sendCommand_inv {b : I2cBus} {i2c : I2cHandle} {outstanding : List (List Byte)}
    (h : b.Inv i2c outstanding) {purpose : Purpose} (ht : b.txn = some (purpose,.addressed))
    (hal : HalStatus) :
    ({ b with
      slave := (slaveRxCpltCallback { b.slave with commandByte := purpose.command } i2c hal).1
      txn := some (purpose,.commanded) } : I2cBus).Inv i2c outstanding := by
  have hc : purpose.command = cmdGetStatus ∨ purpose.command = cmdReadFrame := by
    cases purpose
    · exact .inl rfl
    · exact .inr rfl
  have hv := txView_commanded h.handle (h.txn _ _ ht) hc hal
  refine ⟨?_,h.delivered,?_,?_,?_,?_⟩
  · rw [hv]
    exact h.handle
  · rw [hv]
    exact h.holds
  · rw [hv]
    exact h.announced
  · rw [hv]
    intro announced phase heq
    cases heq
    exact h.reading announced _ ht
  · rw [hv]
    intro purpose' phase heq
    cases heq
    rfl

theorem statusTrue_status (v : TxView) :
    ({ v with statusResponse := v.status,txKind := .status } : TxView).StatusTrue := by
  rw [TxView.StatusTrue,TxView.status]
  cases hr : v.txReady with
  | false => exact .inl rfl
  | true => exact .inr ⟨v.txReadyLength,rfl,rfl,rfl⟩

theorem I2cBus.restart_inv {b : I2cBus} {i2c : I2cHandle} {outstanding : List (List Byte)}
    (h : b.Inv i2c outstanding) {purpose : Purpose} (ht : b.txn = some (purpose,.commanded))
    (hal : HalStatus) :
    ({ b with
      slave := (addrCallback b.slave i2c i2cDirectionReceive (I2cHandle.ownAddress i2c) hal).1
      txn := some (purpose,
        match (addrCallback b.slave i2c i2cDirectionReceive (I2cHandle.ownAddress i2c) hal).2 with
        | some (.transmit source size) => if hal = .ok then .reading source size [] else .stuck
        | _ => .stuck) } : I2cBus).Inv i2c outstanding := by
  obtain ⟨hview,hrequest⟩ := txView_restarted h.handle hal
  have hselected := h.txn _ _ ht
  rw [hrequest]
  cases purpose with
  | status =>
    obtain ⟨hv,hreq⟩ := startTransmit_status (s := noteAddressMatch b.slave i2cDirectionReceive
      (I2cHandle.ownAddress i2c)) hselected
    rw [txView_noteAddressMatch] at hv
    rw [hreq]
    refine ⟨?_,h.delivered,?_,?_,?_,?_⟩
    · rw [hview,hv]
      exact h.handle
    · rw [hview,hv]
      exact h.holds
    · rw [hview,hv]
      exact h.announced
    · intro announced phase heq
      cases heq
    · rw [hview,hv]
      intro purpose' phase heq
      cases heq
      dsimp only
      split
      · exact ⟨rfl,rfl,rfl,statusTrue_status _, List.nil_prefix⟩
      · trivial
  | frame announced =>
    have hann := h.reading announced _ ht
    obtain ⟨hv,hreq⟩ := startTransmit_frame (s := noteAddressMatch b.slave i2cDirectionReceive
      (I2cHandle.ownAddress i2c)) hselected hann.1
    rw [txView_noteAddressMatch] at hv
    rw [hreq]
    refine ⟨?_,h.delivered,?_,?_,?_,?_⟩
    · rw [hview,hv]
      exact h.handle
    · rw [hview,hv]
      exact h.holds
    · rw [hview,hv]
      exact h.announced
    · rw [hview,hv]
      intro announced' phase heq
      cases heq
      exact hann
    · rw [hview,hv]
      intro purpose' phase heq
      cases heq
      dsimp only
      split
      · exact ⟨rfl,congrArg BitVec.toNat hann.2,rfl,rfl, List.nil_prefix⟩
      · trivial

/-- One more byte of a buffer. -/
theorem prefix_concat_byteAt {got buffer : List Byte} (h : got <+: buffer)
    (hlen : got.length < buffer.length) : got ++ [byteAt buffer got.length] <+: buffer := by
  obtain ⟨rest,rfl⟩ := h
  rw [List.length_append] at hlen
  cases rest with
  | nil => simp at hlen
  | cons x rest =>
    have hbyte : byteAt (got ++ x :: rest) got.length = x := byteAt_append_right got (x :: rest) 0
    rw [hbyte]
    exact ⟨rest,by simp⟩

theorem TxView.StatusTrue.length {v : TxView} (h : v.StatusTrue) :
    v.statusResponse.length = Bus.statusWireSize := by
  obtain h | ⟨announced,h,-⟩ := h <;> rw [h] <;> rfl

/-- The queued frame of an announced length. -/
theorem TxView.Holds.wire {v : TxView} {outstanding : List (List Byte)} {announced : BitVec 16}
    (h : v.Holds outstanding) (ha : v.Announces announced) :
    ∃ wire,outstanding = [wire] ∧ announced.toNat = wire.length ∧
      (v.txFrames v.txReadyIndex).take wire.length = wire ∧ adcsWireFrameValid wire = true := by
  obtain ⟨hr,-⟩ | ⟨-,wire,hout,hlen,htake,hvalid⟩ := h
  · exact absurd (hr.symm.trans ha.1) (by decide)
  · exact ⟨wire,hout,(congrArg BitVec.toNat ha.2).symm.trans hlen,htake,hvalid⟩

theorem I2cBus.clock_inv {b : I2cBus} {i2c : I2cHandle} {outstanding : List (List Byte)}
    (h : b.Inv i2c outstanding) {purpose : Purpose} {source : TxBuffer} {size : ℕ}
    {got : List Byte} (ht : b.txn = some (purpose,.reading source size got))
    (hmore : got.length < purpose.length) :
    ({ b with txn := some (purpose,
      .reading source size (got ++ [txByte b.slave source size got.length])) } : I2cBus).Inv i2c
        outstanding := by
  refine ⟨h.handle,h.delivered,h.holds,h.announced,?_,?_⟩
  · intro announced phase heq
    cases heq
    exact h.reading announced _ ht
  intro purpose' phase heq
  cases heq
  have hin := h.txn _ _ ht
  cases purpose with
  | status =>
    obtain ⟨rfl,rfl,hkind,hstatus,hgot⟩ := hin
    refine ⟨rfl,rfl,hkind,hstatus,?_⟩
    have hbyte : txByte b.slave .status Bus.statusWireSize got.length =
        byteAt (txView b.slave).statusResponse got.length := if_pos hmore
    rw [hbyte]
    exact prefix_concat_byteAt hgot (by rw [hstatus.length]; exact hmore)
  | frame announced =>
    obtain ⟨rfl,rfl,hkind,hindex,hgot⟩ := hin
    refine ⟨rfl,rfl,hkind,hindex,?_⟩
    have hbyte : txByte b.slave (.frame (txView b.slave).txReadyIndex) announced.toNat got.length =
        byteAt ((txView b.slave).txFrames (txView b.slave).txReadyIndex) got.length :=
      if_pos hmore
    rw [hbyte]
    obtain ⟨wire,-,hlen,htake,-⟩ := h.holds.wire (h.reading announced _ ht)
    have hle := congrArg List.length htake
    rw [List.length_take] at hle
    have hmore' : got.length < announced.toNat := hmore
    exact prefix_concat_byteAt hgot (by omega)

theorem getSlaveStatus_zero : getSlaveStatus (some (statusWire 0#8 0#16)) = some ⟨0#8,0#16⟩ := by
  decide

theorem getSlaveStatus_ready {announced : BitVec 16} (hmin : Bus.frameHeaderSize ≤ announced.toNat)
    (hmax : announced.toNat ≤ Bus.maxFrameWireSize) :
    getSlaveStatus (some (statusWire Bus.statusDataReady announced)) =
      some ⟨Bus.statusDataReady,announced⟩ := by
  have hknown : ¬ Bus.statusDataReady &&& ~~~Bus.statusDataReady ≠ 0#8 := by decide
  have hset : ¬ Bus.statusDataReady &&& Bus.statusDataReady = 0#8 := by decide
  have hvalid : statusFieldsValid ⟨Bus.statusDataReady,announced⟩ = true := by
    rw [statusFieldsValid,if_neg hknown,if_neg hset]
    simp only [Bool.and_eq_true,decide_eq_true_eq]
    exact ⟨hmin,hmax⟩
  exact i2cStatusDecode_wire hvalid

/-- A valid frame of the announced length is returned as it was queued. -/
theorem readSlaveFrame_wire {wire : List Byte} {announced : BitVec 16}
    (hvalid : adcsWireFrameValid wire = true) (hlen : announced.toNat = wire.length) :
    ∃ frame,readSlaveFrame announced (some wire) = some frame ∧
      frameSerialize frame Bus.maxFrameWireSize = some wire := by
  obtain ⟨hmin,hmax,hheader⟩ := adcsWireFrameValid_iff.mp hvalid
  have hframe := frameDeserialize_eq_some hmin hmax hheader
  obtain ⟨hser,hwire⟩ := frameSerialize_of_deserialize hframe
  refine ⟨_,?_,hser⟩
  have hfour : Bus.frameHeaderSize = 4 := rfl
  have hmaxWire : Bus.maxFrameWireSize = 268 := rfl
  have hdecoded : ¬ BitVec.ofNat 16 Bus.frameHeaderSize + readU16Be (wire.drop 2) ≠ announced := by
    rw [not_not]
    apply BitVec.eq_of_toNat_eq
    rw [BitVec.toNat_add,BitVec.toNat_ofNat]
    omega
  rw [readSlaveFrame,if_neg (by omega),Option.bind_some,hframe,Option.bind_some,if_neg hdecoded]

theorem eq_of_prefix_of_length {got buffer : List Byte} {n : ℕ} (h : got <+: buffer)
    (hn : got.length = n) : got = buffer.take n := by
  rw [← hn]
  exact List.prefix_iff_eq_take.mp h

theorem I2cBus.finish_status_inv {b : I2cBus} {i2c : I2cHandle} {outstanding : List (List Byte)}
    (h : b.Inv i2c outstanding) {source : TxBuffer} {size : ℕ} {got : List Byte}
    (ht : b.txn = some (.status,.reading source size got))
    (hall : got.length = Bus.statusWireSize) :
    (b.finish i2c .status size got).Inv i2c outstanding := by
  obtain ⟨-,rfl,hkind,hstatus,hgot⟩ := h.txn _ _ ht
  have hgot : got = (txView b.slave).statusResponse := by
    rw [eq_of_prefix_of_length hgot hall,← hstatus.length,List.take_length]
  have hslave : (b.finish i2c .status Bus.statusWireSize got).slave =
      slaveTxCpltCallback b.slave i2c := if_pos hall.ge
  have hnot : ¬ (b.slave.txKind = .frame ∧ b.slave.txReady = true ∧
      b.slave.txInProgressIndex = b.slave.txReadyIndex) := by
    rintro ⟨hk,-⟩
    exact absurd (hk.symm.trans hkind) nofun
  have hv : txView (b.finish i2c .status Bus.statusWireSize got).slave =
      { txView b.slave with txKind := .none,selectedCommand := 0 } := by
    rw [hslave,txView_completed h.handle,if_neg hnot]
  refine ⟨?_,h.delivered,?_,?_,nofun,nofun⟩
  · rw [hv]
    exact h.handle
  · rw [hv]
    exact h.holds
  · rw [hv]
    intro announced ha
    change ((getSlaveStatus (some got)).bind fun status =>
      if status.flags &&& Bus.statusDataReady = 0#8 then none else some status.frameLength) =
        some announced at ha
    rw [hgot] at ha
    obtain hzero | ⟨length,hready,hann⟩ := hstatus
    · rw [hzero,getSlaveStatus_zero] at ha
      cases ha
    · obtain ⟨wire,-,hlen,-,hvalid⟩ := h.holds.wire hann
      obtain ⟨hmin,hmax,-⟩ := adcsWireFrameValid_iff.mp hvalid
      have hset : ¬ Bus.statusDataReady &&& Bus.statusDataReady = 0#8 := by decide
      rw [hready,getSlaveStatus_ready (by omega) (by omega),Option.bind_some,if_neg hset] at ha
      obtain rfl := Option.some.inj ha
      exact hann

theorem I2cBus.finish_frame_inv {b : I2cBus} {i2c : I2cHandle} {outstanding : List (List Byte)}
    (h : b.Inv i2c outstanding) {source : TxBuffer} {size : ℕ} {got : List Byte}
    {announced : BitVec 16} (ht : b.txn = some (.frame announced,.reading source size got))
    (hall : got.length = announced.toNat) :
    (b.finish i2c (.frame announced) size got).Inv i2c [] ∧
      ∃ wire frame,outstanding = [wire] ∧ announced.toNat = wire.length ∧ got = wire ∧
        (b.finish i2c (.frame announced) size got).returned = b.returned ++ [frame] ∧
        frameSerialize frame Bus.maxFrameWireSize = some wire := by
  obtain ⟨-,rfl,hkind,hindex,hgot⟩ := h.txn _ _ ht
  have hann := h.reading announced _ ht
  obtain ⟨wire,hout,hlen,htake,hvalid⟩ := h.holds.wire hann
  have hgot : got = wire := by
    rw [eq_of_prefix_of_length hgot (hall.trans hlen),htake]
  obtain ⟨frame,hread,hser⟩ := readSlaveFrame_wire hvalid hlen
  have hslave : (b.finish i2c (.frame announced) announced.toNat got).slave =
      slaveTxCpltCallback b.slave i2c := if_pos hall.ge
  have hv : txView (b.finish i2c (.frame announced) announced.toNat got).slave =
      { txView b.slave with
        txReady := false
        txReadyLength := 0
        txKind := .none
        selectedCommand := 0 } := by
    rw [hslave,txView_completed h.handle]
    exact if_pos ⟨hkind,hann.1,hindex⟩
  have hreturned : (b.finish i2c (.frame announced) announced.toNat got).returned =
      b.returned ++ [frame] := by
    change b.returned ++ (readSlaveFrame announced (some got)).toList = _
    rw [hgot,hread]
    rfl
  refine ⟨⟨?_,?_,?_,nofun,nofun,nofun⟩,wire,frame,hout,hlen,hgot,hreturned,hser⟩
  · rw [hv]
    exact h.handle
  · rw [hreturned]
    change b.accepted.map some = _
    rw [h.delivered,hout,List.map_append,List.map_singleton,List.map_singleton,hser]
    simp
  · rw [hv]
    exact .inl ⟨rfl,rfl⟩

theorem txView_process (s : AdcsI2cSlave) (state : Byte) (hal : HalStatus) :
    txView (adcsI2cSlaveProcess s state hal) = txView s := by
  rw [adcsI2cSlaveProcess]
  split
  · rfl
  dsimp only
  split
  · rfl
  split <;> rfl

theorem txView_takeReceived (s : AdcsI2cSlave) :
    txView (adcsI2cSlaveTakeReceivedFrame s).2 = txView s := by
  rw [adcsI2cSlaveTakeReceivedFrame]
  split <;> rfl

/-- Every action keeps the invariant. -/
theorem I2cBus.step_inv {i2c : I2cHandle} (b : I2cBus) (a : BusAction) (b' : I2cBus)
    (h : ∃ outstanding,b.Inv i2c outstanding) (hs : b.step i2c a = some b') :
    ∃ outstanding,b'.Inv i2c outstanding := by
  obtain ⟨outstanding,h⟩ := h
  cases a with
  | queue wireFrame =>
    obtain rfl := Option.some.inj hs
    exact queue_inv h wireFrame
  | process state hal =>
    obtain rfl := Option.some.inj hs
    exact ⟨outstanding,h.of_view_eq (txView_process b.slave state hal)⟩
  | takeReceived =>
    obtain rfl := Option.some.inj hs
    exact ⟨outstanding,h.of_view_eq (txView_takeReceived b.slave)⟩
  | takeEvents =>
    obtain rfl := Option.some.inj hs
    exact ⟨outstanding,h.of_view_eq rfl⟩
  | beginStatus hal =>
    rw [step] at hs
    split at hs
    · obtain rfl := Option.some.inj hs
      have hb := begin_inv h .status hal nofun
      exact ⟨outstanding,hb.handle,hb.delivered,hb.holds,nofun,hb.reading,hb.txn⟩
    · cases hs
  | beginRead hal =>
    rw [step] at hs
    split at hs
    · rename_i announced _ ha
      obtain rfl := Option.some.inj hs
      refine ⟨outstanding,begin_inv h (.frame announced) hal ?_⟩
      intro announced' heq
      cases heq
      exact h.announced announced ha
    · cases hs
  | sendCommand hal =>
    rw [step] at hs
    split at hs
    · rename_i purpose ht
      obtain rfl := Option.some.inj hs
      exact ⟨outstanding,sendCommand_inv h ht hal⟩
    · cases hs
  | restart hal =>
    rw [step] at hs
    split at hs
    · rename_i purpose ht
      obtain rfl := Option.some.inj hs
      exact ⟨outstanding,restart_inv h ht hal⟩
    · cases hs
  | clock =>
    rw [step] at hs
    split at hs
    · rename_i purpose source size got ht
      split at hs
      · rename_i hmore
        obtain rfl := Option.some.inj hs
        exact ⟨outstanding,clock_inv h ht hmore⟩
      · cases hs
    · cases hs
  | complete =>
    rw [step] at hs
    split at hs
    · rename_i purpose source size got ht
      split at hs
      · rename_i hall
        obtain rfl := Option.some.inj hs
        cases purpose with
        | status => exact ⟨outstanding,finish_status_inv h ht hall⟩
        | frame announced => exact ⟨[],(finish_frame_inv h ht hall).1⟩
      · cases hs
    · cases hs
  | abort =>
    rw [step] at hs
    split at hs
    · cases hs
    · obtain rfl := Option.some.inj hs
      exact ⟨outstanding,h.handle,h.delivered,h.holds,h.announced,nofun,nofun⟩
  | listenCplt hal =>
    rw [step] at hs
    split at hs
    · rename_i hidle
      obtain rfl := Option.some.inj hs
      exact ⟨outstanding,h.of_sameQueue hidle (sameQueue_listenCplt hal)⟩
    · cases hs
  | error lastError =>
    rw [step] at hs
    split at hs
    · rename_i hidle
      obtain rfl := Option.some.inj hs
      exact ⟨outstanding,h.of_sameQueue hidle (sameQueue_error lastError)⟩
    · cases hs

theorem I2cBus.inv_initial (s : AdcsI2cSlave) (i2c : I2cHandle) :
    (I2cBus.initial s i2c).Inv i2c [] :=
  ⟨rfl,rfl,.inl ⟨rfl,rfl⟩,nofun,nofun,nofun⟩

/-- After initialisation, for any interleaving of queue attempts and transactions that may
fail at any point. The frames returned by the master are the first of those accepted by the
slave, in order and byte for byte, and at most one accepted frame is not yet returned. As
long as it is not, its slot holds the bytes and the length it was queued with. A length the
master was told, or is reading, is that of this frame, and a read that completes returns
it. -/
theorem slave_frames_arrive_once {s : AdcsI2cSlave} {i2c : I2cHandle} {actions : List BusAction}
    {b : I2cBus} (hrun : run (I2cBus.step i2c) (I2cBus.initial s i2c) actions = some b) :
    ∃ outstanding : List (List Byte),
      b.accepted.map some =
        b.returned.map (fun frame => frameSerialize frame Bus.maxFrameWireSize) ++
          outstanding.map some ∧
      outstanding.length ≤ 1 ∧
      (∀ wire ∈ outstanding,b.slave.txReady = true ∧
        b.slave.txReadyLength.toNat = wire.length ∧
        (b.slave.txFrames b.slave.txReadyIndex).take wire.length = wire) ∧
      (∀ announced,b.announced = some announced →
        ∃ wire,outstanding = [wire] ∧ announced.toNat = wire.length) ∧
      (∀ announced phase,b.txn = some (.frame announced,phase) →
        ∃ wire,outstanding = [wire] ∧ announced.toNat = wire.length) ∧
      (∀ announced phase b',b.txn = some (.frame announced,phase) →
        b.step i2c .complete = some b' → ∃ wire frame,outstanding = [wire] ∧
          b'.returned = b.returned ++ [frame] ∧ b'.accepted = b.accepted ∧
          frameSerialize frame Bus.maxFrameWireSize = some wire) := by
  obtain ⟨outstanding,h⟩ := run_invariant (I := fun b : I2cBus => ∃ o,b.Inv i2c o)
    I2cBus.step_inv ⟨[],I2cBus.inv_initial s i2c⟩ hrun
  refine ⟨outstanding,h.delivered,?_,?_,?_,?_,?_⟩
  · obtain ⟨-,rfl⟩ | ⟨-,wire,rfl,-⟩ := h.holds
    · exact Nat.zero_le 1
    · exact le_rfl
  · intro wire hwire
    obtain ⟨-,rfl⟩ | ⟨hr,wire',rfl,hlen,htake,-⟩ := h.holds
    · cases hwire
    · rw [List.mem_singleton.mp hwire]
      exact ⟨hr,hlen,htake⟩
  · intro announced ha
    obtain ⟨wire,hout,hlen,-⟩ := h.holds.wire (h.announced announced ha)
    exact ⟨wire,hout,hlen⟩
  · intro announced phase ht
    obtain ⟨wire,hout,hlen,-⟩ := h.holds.wire (h.reading announced phase ht)
    exact ⟨wire,hout,hlen⟩
  · intro announced phase b' ht hs
    rw [I2cBus.step] at hs
    split at hs
    · rename_i purpose source size got ht'
      split at hs
      · rename_i hall
        obtain rfl := Option.some.inj hs
        obtain ⟨hpurpose,-⟩ := Prod.mk.inj (Option.some.inj (ht.symm.trans ht'))
        subst hpurpose
        obtain ⟨-,wire,frame,hout,-,-,hreturned,hser⟩ := I2cBus.finish_frame_inv h ht' hall
        exact ⟨wire,frame,hout,hreturned,rfl,hser⟩
      · cases hs
    · cases hs

def adcsHandle : I2cHandle := ⟨1,0x54⟩

/-- A frame is queued, a poll breaks off after one byte, and another frame is refused. -/
def brokenPollActions : List BusAction :=
  [.queue [5,1,0,0],.beginStatus .ok,.sendCommand .ok,.restart .ok,.clock,.abort,.error 4,
    .listenCplt .ok,.queue [6,1,0,0]]

/-- The next poll is answered and all bytes of the frame are read. -/
def pollAndRead : List BusAction :=
  [.beginStatus .ok,.sendCommand .ok,.restart .ok] ++ List.replicate statusWireSize .clock ++
    [.complete,.listenCplt .ok,.beginRead .ok,.sendCommand .ok,.restart .ok] ++
    List.replicate 4 .clock

/-- The frame waits through the broken poll, and arrives when the read completes. -/
theorem broken_poll_keeps_frame :
    ∃ b b',run (I2cBus.step adcsHandle) (I2cBus.initial .zero adcsHandle)
        (brokenPollActions ++ pollAndRead) = some b ∧
      b.accepted = [[5,1,0,0]] ∧ b.returned.length = 0 ∧
      b.step adcsHandle .complete = some b' ∧ ∃ frame,b'.returned = b.returned ++ [frame] ∧
        frameSerialize frame Bus.maxFrameWireSize = some [5,1,0,0] := by
  have hany : (run (I2cBus.step adcsHandle) (I2cBus.initial .zero adcsHandle)
      (brokenPollActions ++ pollAndRead)).any (fun b => decide (b.accepted = [[5,1,0,0]] ∧
        b.returned.length = 0 ∧ b.txn.any (fun t => t.1 = .frame 4) = true) &&
        (b.step adcsHandle .complete).isSome) = true := by decide +kernel
  obtain ⟨b,hb,hstate⟩ := (Option.any_eq_true _ _).mp hany
  obtain ⟨hstate,hstep⟩ := Bool.and_eq_true_iff.mp hstate
  obtain ⟨haccepted,hnone,htxn⟩ := of_decide_eq_true hstate
  obtain ⟨⟨purpose,phase⟩,htxn,hpurpose⟩ := (Option.any_eq_true _ _).mp htxn
  obtain rfl := of_decide_eq_true hpurpose
  obtain ⟨b',hb'⟩ := Option.isSome_iff_exists.mp hstep
  obtain ⟨outstanding,hdelivered,-,-,-,-,harrives⟩ := slave_frames_arrive_once hb
  obtain ⟨wire,frame,rfl,hreturned,-,hwire⟩ := harrives 4 phase b' htxn hb'
  rw [haccepted,List.length_eq_zero_iff.mp hnone] at hdelivered
  obtain rfl : [5,1,0,0] = wire := Option.some.inj (List.cons.inj hdelivered).1
  exact ⟨b,b',hb,haccepted,hnone,hb',frame,hreturned,hwire⟩

end FlightSoftware.Bus
