import FlightSoftware.Adcs.FaultManager

/-!
# Mode manager

The manager owns the mode and the latest coherent state of the subsystem. Every
operation here is one call under the manager's lock.
-/

namespace FlightSoftware.Adcs

structure AdcsManagerConfig where
  detumbleEntryRateRadS : CFloat
  detumbleExitRateRadS : CFloat
  excessiveRateRadS : CFloat
  minimumEstimatorConfidence : CFloat
  detumbleSettleCycles : BitVec 32
  sunAcquisitionSettleCycles : BitVec 32
  sensorStaleAfterUs : BitVec 64
  estimateStaleAfterUs : BitVec 64

structure AdcsManagerState where
  mode : AdcsMode := .boot
  requestedMode : AdcsMode := .boot
  lastCommandedPosition : BitVec 32 := 0
  latestSensors : AdcsSensorPacket := {}
  latestOrbit : AdcsOrbitState := {}
  latestReferences : AdcsReferenceVectors := {}
  latestAttitude : AdcsAttitudeState := {}
  latestControl : AdcsControlOutput := {}
  guidanceTarget : AdcsGuidanceTarget := {}
  health : AdcsHealth := {}
  modeEnteredUs : BitVec 64 := 0
  lastCountedControlTimestampUs : BitVec 64 := 0
  stableCycles : BitVec 32 := 0
  actuatorsInhibited : BitVec 8 := 0
  initialized : BitVec 8 := 0

structure AdcsManager where
  state : AdcsManagerState
  config : AdcsManagerConfig

/-- `0.08F` -/
def managerDefaultMaximumTargetRateRadS : CFloat := .dyadic 5368709 26
/-- `0.174532925F` -/
def managerSunSettledErrorRad : CFloat := .dyadic 5856353 25

/-- The rates are `0.03F`, `0.008F` and `0.75F`, the confidence is `0.35F`. -/
def AdcsManagerConfig.default : AdcsManagerConfig where
  detumbleEntryRateRadS := .dyadic 16106127 29
  detumbleExitRateRadS := .dyadic 8589935 30
  excessiveRateRadS := .dyadic 3 2
  minimumEstimatorConfidence := .dyadic 11744051 25
  detumbleSettleCycles := 20
  sunAcquisitionSettleCycles := 20
  sensorStaleAfterUs := 250000
  estimateStaleAfterUs := 250000

/-- The checks of `adcs_manager_configure`. -/
def AdcsManagerConfig.accepted (config : AdcsManagerConfig) : Bool :=
  !(!config.detumbleEntryRateRadS.isfinite || !config.detumbleExitRateRadS.isfinite ||
    !config.excessiveRateRadS.isfinite || !config.minimumEstimatorConfidence.isfinite ||
    config.detumbleExitRateRadS.lt 0 ||
    config.detumbleEntryRateRadS.le config.detumbleExitRateRadS ||
    config.excessiveRateRadS.le config.detumbleEntryRateRadS ||
    config.minimumEstimatorConfidence.lt 0 ||
    (1 : CFloat).lt config.minimumEstimatorConfidence ||
    config.detumbleSettleCycles == 0 || config.sunAcquisitionSettleCycles == 0 ||
    config.sensorStaleAfterUs == 0 || config.estimateStaleAfterUs == 0)

def AdcsMode.needsAttitude : AdcsMode → Bool
  | .sunAcquisition | .sunPointing | .earthPointing | .slewing | .targetPointing
  | .science => true
  | _ => false

namespace AdcsManager

variable (p : Platform)

/-! ### Checks under the lock -/

def quaternionIsValid (q : Versor) : Bool := (adcsQuaternionNormalize p q).isSome

/-- The board needs only the gyroscope, the simulation the magnetometer too. -/
def sensorsReady (m : AdcsManager) : Bool :=
  let sensor := m.state.latestSensors
  let required :=
    if p.stm32 then adcsSensorValidGyroscope
    else adcsSensorValidGyroscope ||| adcsSensorValidMagnetometer
  sensor.timestampUs != 0 && sensor.validMask &&& required == required &&
    adcsValuesAreFinite sensor.angularRateRadS &&
    (p.stm32 || adcsValuesAreFinite sensor.magneticFieldT)

def attitudeReady (m : AdcsManager) : Bool :=
  m.state.latestAttitude.valid != 0 && m.state.latestAttitude.timestampUs != 0 &&
    m.config.minimumEstimatorConfidence.le m.state.latestAttitude.confidence &&
    quaternionIsValid p m.state.latestAttitude.quaternion

def sensorsFresh (nowUs : BitVec 64) (m : AdcsManager) : Bool :=
  let timestampUs := m.state.latestSensors.timestampUs
  nowUs != 0 && timestampUs != 0 && decide (timestampUs ≤ nowUs) &&
    decide (nowUs-timestampUs ≤ m.config.sensorStaleAfterUs)

def attitudeUsable (nowUs : BitVec 64) (m : AdcsManager) : Bool :=
  let timestampUs := m.state.latestAttitude.timestampUs
  m.attitudeReady p && m.state.health.activeFaults &&& adcsFaultAttitudeInvalid == 0 &&
    nowUs != 0 && decide (timestampUs ≤ nowUs) &&
    decide (nowUs-timestampUs ≤ m.config.estimateStaleAfterUs)

def transitionIsAllowed (requested : AdcsMode) (nowUs : BitVec 64) (m : AdcsManager) : Bool :=
  match requested with
  | .safe => true
  | .detumble => m.sensorsReady p
  | .sunAcquisition | .sunPointing =>
    m.attitudeUsable p nowUs && m.state.latestSensors.validMask &&& adcsSensorValidSun != 0 &&
      m.state.latestReferences.validMask &&& adcsReferenceValidSun != 0
  | .earthPointing =>
    m.attitudeUsable p nowUs && m.state.latestReferences.validMask &&& adcsReferenceValidNadir != 0
  | .slewing | .targetPointing | .science =>
    m.attitudeUsable p nowUs && quaternionIsValid p m.state.guidanceTarget.targetQuaternion
  | .boot | .unnamed _ => false

/-- The body rate that the latest gyroscope reading gives. -/
def bodyRate (m : AdcsManager) : CFloat := adcsVectorNorm p m.state.latestSensors.angularRateRadS

/-! ### Changes under the lock -/

def enterMode (mode : AdcsMode) (m : AdcsManager) : AdcsManager :=
  if m.state.mode = mode then m
  else
    { m with
      state.mode := mode
      state.modeEnteredUs := m.state.latestSensors.timestampUs
      state.stableCycles := 0
      state.lastCountedControlTimestampUs := 0
      state.health.modeTransitions := m.state.health.modeTransitions+1 }

/-- The target that the mode implies by itself, where it implies one. -/
def builtinTarget (m : AdcsManager) : Option AdcsGuidanceTarget :=
  let references := m.state.latestReferences
  if (m.state.mode = .sunAcquisition ∨ m.state.mode = .sunPointing) ∧
      references.validMask &&& adcsReferenceValidSun ≠ 0 then
    adcsGuidanceTargetFromVector p m.state.mode ![1,0,0] references.sunEciUnit
      managerDefaultMaximumTargetRateRadS
  else if m.state.mode = .earthPointing ∧
      references.validMask &&& adcsReferenceValidNadir ≠ 0 then
    adcsGuidanceTargetFromVector p m.state.mode ![0,0,1] references.nadirEciUnit
      managerDefaultMaximumTargetRateRadS
  else none

def refreshBuiltinTarget (m : AdcsManager) : AdcsManager :=
  { m with state.guidanceTarget := (m.builtinTarget p).getD m.state.guidanceTarget }

/-! ### Update

The update checks faults, sensors, rate and attitude, then lets the request change the mode,
and then runs the switch over the mode that results. -/

/-- The request, unless it is for SAFE or the rate calls for DETUMBLE first. -/
def applyRequest (nowUs : BitVec 64) (m : AdcsManager) : AdcsManager :=
  if m.state.requestedMode = .safe then m.enterMode .safe
  else if m.config.detumbleEntryRateRadS.lt (m.bodyRate p) then m.enterMode .detumble
  else if m.state.mode ≠ .detumble ∧ m.state.requestedMode ≠ m.state.mode ∧
      m.transitionIsAllowed p m.state.requestedMode nowUs = true then
    m.enterMode m.state.requestedMode
  else m

def advanceSafe (nowUs : BitVec 64) (m : AdcsManager) : AdcsManager :=
  if m.state.requestedMode = .safe then m
  else if m.config.detumbleEntryRateRadS.lt (m.bodyRate p) && m.sensorsReady p then
    m.enterMode .detumble
  else if m.transitionIsAllowed p m.state.requestedMode nowUs then
    m.enterMode m.state.requestedMode
  else m

def advanceDetumble (nowUs : BitVec 64) (m : AdcsManager) : AdcsManager :=
  if (m.bodyRate p).le m.config.detumbleExitRateRadS then
    let m := { m with state.stableCycles := m.state.stableCycles+1 }
    if m.config.detumbleSettleCycles ≤ m.state.stableCycles ∧
        m.state.requestedMode ≠ .detumble then
      if m.transitionIsAllowed p m.state.requestedMode nowUs then
        m.enterMode m.state.requestedMode
      else m.enterMode .safe
    else m
  else { m with state.stableCycles := 0 }

def advanceSunAcquisition (nowUs : BitVec 64) (m : AdcsManager) : AdcsManager :=
  let control := m.state.latestControl
  if control.sourceMode ≠ .sunAcquisition ∨ control.timestampUs ≤ m.state.modeEnteredUs ∨
      nowUs < control.timestampUs ∨
      m.config.sensorStaleAfterUs < nowUs-control.timestampUs then
    { m with state.stableCycles := 0 }
  else if control.timestampUs ≤ m.state.lastCountedControlTimestampUs then m
  else
    let m := { m with state.lastCountedControlTimestampUs := control.timestampUs }
    if control.pointingErrorValid != 0 && control.pointingErrorRad.isfinite &&
        control.pointingErrorRad.le managerSunSettledErrorRad &&
        (m.bodyRate p).le m.config.detumbleEntryRateRadS then
      let m := { m with state.stableCycles := m.state.stableCycles+1 }
      if m.config.sunAcquisitionSettleCycles ≤ m.state.stableCycles then
        { m with state.requestedMode := .sunPointing }.enterMode .sunPointing
      else m
    else { m with state.stableCycles := 0 }

def advanceSlewing (m : AdcsManager) : AdcsManager :=
  if m.state.latestControl.targetSettled ≠ 0 then
    { m with state.requestedMode := .targetPointing }.enterMode .targetPointing
  else m

/-- The switch over the mode. -/
def advanceMode (nowUs : BitVec 64) (m : AdcsManager) : AdcsManager :=
  match m.state.mode with
  | .safe => m.advanceSafe p nowUs
  | .detumble => m.advanceDetumble p nowUs
  | .sunAcquisition => m.advanceSunAcquisition p nowUs
  | .slewing => m.advanceSlewing
  | _ => m

/-- The update once BOOT is left: `m` is in some other mode. -/
def updateAfterBoot (nowUs : BitVec 64) (m : AdcsManager) : AdcsManager :=
  if !m.sensorsReady p || !m.sensorsFresh nowUs then m.enterMode .safe
  else if !(m.bodyRate p).isfinite || m.config.excessiveRateRadS.lt (m.bodyRate p) then
    m.enterMode .safe
  else if m.state.requestedMode ≠ .safe ∧ m.state.mode.needsAttitude = true ∧
      m.attitudeUsable p nowUs = false then
    m.enterMode .detumble
  else ((m.applyRequest p nowUs).advanceMode p nowUs).refreshBuiltinTarget p

def recordFaults (activeFaults : BitVec 32) (m : AdcsManager) : AdcsManager :=
  { m with state.health.activeFaults := activeFaults }

/-- The update once the active faults are recorded. -/
def updateRecorded (nowUs : BitVec 64) (m : AdcsManager) : AdcsManager :=
  if m.state.health.activeFaults &&& criticalFaults ≠ 0 then
    (m.enterMode .safe).refreshBuiltinTarget p
  else if m.state.mode = .boot then
    if m.sensorsReady p && m.sensorsFresh nowUs then
      (m.enterMode .safe).updateAfterBoot p nowUs
    else m
  else m.updateAfterBoot p nowUs

/-- `adcs_manager_update`, where `fault_management_get_active` returns `activeFaults`. -/
def update (activeFaults : BitVec 32) (nowUs : BitVec 64) (m : AdcsManager) : AdcsManager :=
  if m.state.initialized = 0 then m else (m.recordFaults activeFaults).updateRecorded p nowUs

/-! ### The other calls -/

/-- `adcs_manager_init`, which overwrites whatever was there. -/
def init : AdcsManager where
  config := .default
  state :=
    { mode := .boot
      requestedMode := .sunAcquisition
      latestAttitude := { quaternion := ![0,0,0,1] }
      guidanceTarget :=
        { targetQuaternion := ![0,0,0,1]
          pointingAxisBody := ![1,0,0]
          maximumRateRadS := managerDefaultMaximumTargetRateRadS }
      health := { actuatorsHealthy := 1 }
      initialized := 1 }

def configure (config : AdcsManagerConfig) (m : AdcsManager) : AdcsManager :=
  if config.accepted then { m with config := config } else m

def noteRejectedCommand (m : AdcsManager) : AdcsManager :=
  { m with state.health.rejectedCommands := m.state.health.rejectedCommands+1 }

def noteDroppedMessage (m : AdcsManager) : AdcsManager :=
  { m with state.health.droppedMessages := m.state.health.droppedMessages+1 }

def noteEstimatorReset (m : AdcsManager) : AdcsManager :=
  { m with state.health.estimatorResets := m.state.health.estimatorResets+1 }

def noteControllerError (m : AdcsManager) : AdcsManager :=
  { m with state.health.controllerErrors := m.state.health.controllerErrors+1 }

/-- The argument is an `int`; a negative one is a large unsigned value and not a mode. -/
def requestMode (mode : BitVec 32) (m : AdcsManager) : AdcsManager :=
  let requested := AdcsMode.ofNat mode.toNat
  if requested.isValid = true ∧ requested ≠ .boot then
    { m with state.requestedMode := requested }
  else m.noteRejectedCommand

def setSensors (sensors : AdcsSensorPacket) (m : AdcsManager) : AdcsManager :=
  if m.state.latestSensors.timestampUs ≤ sensors.timestampUs then
    let required := adcsSensorValidGyroscope ||| adcsSensorValidMagnetometer
    { m with
      state.latestSensors := sensors
      state.health.sensorsHealthy :=
        if p.stm32 then flag (sensors.validMask &&& adcsSensorValidGyroscope != 0)
        else flag (sensors.validMask &&& required == required) }
  else m

/-- Either argument may be absent. -/
def setReferences (orbit : Option AdcsOrbitState) (references : Option AdcsReferenceVectors)
    (m : AdcsManager) : AdcsManager :=
  { m with
    state.latestOrbit := orbit.getD m.state.latestOrbit
    state.latestReferences := references.getD m.state.latestReferences }

/-- An attitude whose quaternion cannot be normalized is stored as the identity, not valid. -/
def validatedAttitude (attitude : AdcsAttitudeState) : AdcsAttitudeState :=
  match adcsQuaternionNormalize p attitude.quaternion with
  | some quaternion => { attitude with quaternion := quaternion }
  | none => { attitude with quaternion := ![0,0,0,1],valid := 0 }

def setAttitude (attitude : AdcsAttitudeState) (m : AdcsManager) : AdcsManager :=
  let validated := validatedAttitude p attitude
  if m.state.latestAttitude.timestampUs ≤ validated.timestampUs then
    { m with
      state.latestAttitude := validated
      state.health.estimatorHealthy := validated.valid }
  else m

def setControlOutput (control : AdcsControlOutput) (m : AdcsManager) : AdcsManager :=
  if m.state.latestControl.timestampUs ≤ control.timestampUs then
    { m with state.latestControl := control }
  else m

/-- An absent or malformed target is counted as a rejected command. -/
def setGuidanceTarget (target : Option AdcsGuidanceTarget) (m : AdcsManager) : AdcsManager :=
  match target with
  | none => m.noteRejectedCommand
  | some target =>
    if !target.mode.isValid || !target.maximumRateRadS.isfinite ||
        target.maximumRateRadS.le 0 then m.noteRejectedCommand
    else
      match adcsQuaternionNormalize p target.targetQuaternion with
      | none => m.noteRejectedCommand
      | some quaternion =>
        { m with state.guidanceTarget := { target with targetQuaternion := quaternion } }

def setActuatorsInhibited (inhibited : BitVec 8) (m : AdcsManager) : AdcsManager :=
  { m with state.actuatorsInhibited := flag (inhibited != 0) }

/-- The counters are the manager's own and survive. -/
def setHealth (health : AdcsHealth) (m : AdcsManager) : AdcsManager :=
  let old := m.state.health
  { m with
    state.health :=
      { health with
        rejectedCommands := old.rejectedCommands
        droppedMessages := old.droppedMessages
        estimatorResets := old.estimatorResets
        controllerErrors := old.controllerErrors
        modeTransitions := old.modeTransitions } }

def setLegacyPosition (position : BitVec 32) (m : AdcsManager) : AdcsManager :=
  { m with state.lastCommandedPosition := position }

end AdcsManager

/-! ### Calls on the manager and the fault latch -/

structure AdcsSystem where
  manager : AdcsManager
  faults : FaultManager

inductive AdcsCall where
  | configure (config : AdcsManagerConfig)
  | update (nowUs : BitVec 64)
  | requestMode (mode : BitVec 32)
  | setSensors (sensors : AdcsSensorPacket)
  | setReferences (orbit : Option AdcsOrbitState) (references : Option AdcsReferenceVectors)
  | setAttitude (attitude : AdcsAttitudeState)
  | setControlOutput (control : AdcsControlOutput)
  | setGuidanceTarget (target : Option AdcsGuidanceTarget)
  | setActuatorsInhibited (inhibited : BitVec 8)
  | setHealth (health : AdcsHealth)
  | noteRejectedCommand
  | noteDroppedMessage
  | noteEstimatorReset
  | noteControllerError
  | setLegacyPosition (position : BitVec 32)
  | faultConfigure (config : AdcsFaultConfig)
  | faultReport (fault : BitVec 32)
  | faultClear (faultMask : BitVec 32)

namespace AdcsSystem

/-- One call. Only an update reads the fault latch. -/
def call (p : Platform) (s : AdcsSystem) : AdcsCall → AdcsSystem
  | .configure config => { s with manager := s.manager.configure config }
  | .update nowUs => { s with manager := s.manager.update p s.faults.getActive nowUs }
  | .requestMode mode => { s with manager := s.manager.requestMode mode }
  | .setSensors sensors => { s with manager := s.manager.setSensors p sensors }
  | .setReferences orbit references =>
    { s with manager := s.manager.setReferences orbit references }
  | .setAttitude attitude => { s with manager := s.manager.setAttitude p attitude }
  | .setControlOutput control => { s with manager := s.manager.setControlOutput control }
  | .setGuidanceTarget target => { s with manager := s.manager.setGuidanceTarget p target }
  | .setActuatorsInhibited inhibited =>
    { s with manager := s.manager.setActuatorsInhibited inhibited }
  | .setHealth health => { s with manager := s.manager.setHealth health }
  | .noteRejectedCommand => { s with manager := s.manager.noteRejectedCommand }
  | .noteDroppedMessage => { s with manager := s.manager.noteDroppedMessage }
  | .noteEstimatorReset => { s with manager := s.manager.noteEstimatorReset }
  | .noteControllerError => { s with manager := s.manager.noteControllerError }
  | .setLegacyPosition position => { s with manager := s.manager.setLegacyPosition position }
  | .faultConfigure config => { s with faults := s.faults.configure config }
  | .faultReport fault => { s with faults := s.faults.report fault }
  | .faultClear faultMask => { s with faults := s.faults.clear faultMask }

/-- The system after `adcs_manager_init`, whatever the fault latch holds. -/
def init (faults : FaultManager) : AdcsSystem := ⟨.init,faults⟩

/-- The system after a list of calls. -/
def calls (p : Platform) (s : AdcsSystem) (cs : List AdcsCall) : AdcsSystem := cs.foldl (call p) s

end AdcsSystem

end FlightSoftware.Adcs
