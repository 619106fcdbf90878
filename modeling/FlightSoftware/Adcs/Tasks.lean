import FlightSoftware.Adcs.Manager
import FlightSoftware.Lib.Run

/-!
# Tasks

The control and the housekeeping task as the calls they make, each of which is
atomic, with the computations between two calls joined to one of them. The
command task and the others enter as calls that may come at any point. Results of
the controller, the magnetorquer driver and the clock are arguments of the steps.
-/

namespace FlightSoftware.Adcs

/-! ### Magnetorquer -/

inductive MagnetorquerStatus where
  | ok
  | error
  | notReady
  deriving DecidableEq

structure MagnetorquerCommand where
  dipoleAM2 : Vector3 := 0
  enabled : BitVec 8 := 0

/-- `s_manual_override` and `s_manual_command` -/
structure ManualMagnetorquer where
  override : BitVec 8 := 0
  command : MagnetorquerCommand := {}

/-- The dipole is `0.20f` along the direction, and off for direction zero. -/
def manualDipole (direction : BitVec 8) : CFloat :=
  if (0#8).slt direction then .dyadic 13421773 26
  else if direction.slt 0#8 then .dyadic (-13421773) 26
  else 0

/-- `control_task_set_manual_magnetorquer` -/
def ManualMagnetorquer.set (manual : ManualMagnetorquer) (axis direction : BitVec 8) :
    ManualMagnetorquer :=
  if h : axis.toNat < 3 then
    let dipole := Function.update manual.command.dipoleAM2 ⟨axis.toNat,h⟩ (manualDipole direction)
    let enabled := flag ((List.finRange 3).any fun i => (dipole i).ne 0)
    ⟨enabled,⟨dipole,enabled⟩⟩
  else manual

/-! ### Control task -/

/-- Where the control task stands: the call it makes next, with the locals that live on. -/
inductive ControlPhase where
  | update
  | getState
  | compute (snapshot : AdcsManagerState)
  | noteError (snapshot : AdcsManagerState) (command : MagnetorquerCommand)
      (output : AdcsControlOutput)
  | actuate (snapshot : AdcsManagerState) (command : MagnetorquerCommand)
      (output : AdcsControlOutput)
  | report (output : AdcsControlOutput)
  | setOutput (output : AdcsControlOutput)

/-- The output with the marks that the task adds to what the controller returned. -/
def markOutput (snapshot : AdcsManagerState) (result : AdcsResult) (output : AdcsControlOutput) :
    AdcsControlOutput :=
  { output with
    sourceMode := snapshot.mode
    pointingErrorValid :=
      flag (result = .ok && (snapshot.mode = .sunAcquisition || snapshot.mode = .sunPointing) &&
        snapshot.actuatorsInhibited = 0) }

/-- The controller has returned: the command it asks for, if it may drive the coils, and
otherwise no command. -/
def controlCompute (snapshot : AdcsManagerState) (result : AdcsResult)
    (output : AdcsControlOutput) : ControlPhase :=
  let output := markOutput snapshot result output
  if result = .ok ∧ snapshot.actuatorsInhibited = 0 ∧ output.actuatorsEnabled ≠ 0 then
    .actuate snapshot ⟨output.requestedDipoleAM2,1⟩ output
  else
    let output := { output with actuatorsEnabled := 0,requestedDipoleAM2 := 0 }
    if result ≠ .ok ∧ snapshot.mode ≠ .boot ∧ snapshot.mode ≠ .safe then
      .noteError snapshot {} output
    else .actuate snapshot {} output

/-- The command that goes to `magnetorquer_set`: the manual one while it overrides. -/
def commandPassed (manual : ManualMagnetorquer) (command : MagnetorquerCommand) :
    MagnetorquerCommand :=
  if manual.override ≠ 0 then manual.command else command

/-- The output that goes with it. -/
def outputPassed (manual : ManualMagnetorquer) (output : AdcsControlOutput) :
    AdcsControlOutput :=
  if manual.override ≠ 0 then
    { output with
      actuatorsEnabled := manual.command.enabled
      requestedDipoleAM2 := manual.command.dipoleAM2 }
  else output

/-- What follows `magnetorquer_set`. -/
def controlActuated (status : MagnetorquerStatus) (output : AdcsControlOutput) : ControlPhase :=
  if status ≠ .ok then .report { output with actuatorsEnabled := 0 } else .setOutput output

/-! ### Housekeeping task -/

/-- Where the housekeeping task stands. -/
inductive HousekeepingPhase where
  | getState
  | evaluate (snapshot : AdcsManagerState)
  | getActive (snapshot : AdcsManagerState) (nowUs : BitVec 64) (observed : BitVec 32)
  | clear (snapshot : AdcsManagerState) (nowUs : BitVec 64) (observed latched : BitVec 32)
  | report (snapshot : AdcsManagerState) (nowUs : BitVec 64) (observed : BitVec 32)
  | getHealth (snapshot : AdcsManagerState) (nowUs : BitVec 64)
  | setHealth (nowUs : BitVec 64) (health : AdcsHealth)
  | update (nowUs : BitVec 64)

def allRecoverableFaults : BitVec 32 := adcsFaultAll

/-- The faults that housekeeping clears: latched, and not observed in its snapshot. -/
def clearMask (observed latched : BitVec 32) : BitVec 32 :=
  latched &&& allRecoverableFaults &&& ~~~observed

/-- The health record that housekeeping stores. -/
def housekeepingHealth (snapshot : AdcsManagerState) (nowUs : BitVec 64)
    (active : BitVec 32) (minimumStackMargin : CFloat) : AdcsHealth :=
  { snapshot.health with
    timestampUs := nowUs
    activeFaults := active
    sensorsHealthy := flag (active &&& (adcsFaultSensorStale ||| adcsFaultSensorRange) = 0)
    estimatorHealthy := flag (active &&& adcsFaultAttitudeInvalid = 0)
    actuatorsHealthy := flag (active &&& adcsFaultActuator = 0)
    minimumStackMarginWords := minimumStackMargin }

/-! ### Steps -/

structure AdcsTasks where
  system : AdcsSystem
  control : ControlPhase
  housekeeping : HousekeepingPhase
  manual : ManualMagnetorquer

/-- The calls of the control task, in their order in the cycle. -/
inductive ControlStep where
  | update (nowUs : BitVec 64)
  | getState
  | compute (result : AdcsResult) (output : AdcsControlOutput)
  | noteError
  | actuate (status : MagnetorquerStatus)
  | report
  | setOutput

/-- The calls of the housekeeping task, in their order in the cycle. -/
inductive HousekeepingStep where
  | getState
  | evaluate (nowUs : BitVec 64)
  | getActive
  | clear
  | report
  | getHealth (minimumStackMargin : CFloat)
  | setHealth
  | update

inductive TaskStep where
  | control (c : ControlStep)
  | housekeeping (h : HousekeepingStep)
  | setManualMagnetorquer (axis direction : BitVec 8)
  | other (c : AdcsCall)

/-- The calls that tasks other than these two make: none of them updates the manager, stores
its health, or touches the fault latch. -/
def AdcsCall.ofOtherTask : AdcsCall → Bool
  | .update _ | .setHealth _ | .faultReport _ | .faultClear _ => false
  | _ => true

namespace AdcsTasks

/-- After `adcs_manager_init` and `fault_management_init`, before the scheduler starts. -/
def init : AdcsTasks := ⟨.init .init,.update,.getState,{}⟩

variable (p : Platform)

def stepControl (s : AdcsTasks) (c : ControlStep) : Option AdcsTasks :=
  match c,s.control with
  | .update nowUs,.update =>
    some { s with system := s.system.call p (.update nowUs),control := .getState }
  | .getState,.getState => some { s with control := .compute s.system.manager.state }
  | .compute result output,.compute snapshot =>
    some { s with control := controlCompute snapshot result output }
  | .noteError,.noteError snapshot command output =>
    some { s with
      system := s.system.call p .noteControllerError
      control := .actuate snapshot command output }
  | .actuate status,.actuate _ _ output =>
    some { s with control := controlActuated status (outputPassed s.manual output) }
  | .report,.report output =>
    some { s with
      system := s.system.call p (.faultReport adcsFaultActuator)
      control := .setOutput output }
  | .setOutput,.setOutput output =>
    some { s with system := s.system.call p (.setControlOutput output),control := .update }
  | _,_ => none

def stepHousekeeping (s : AdcsTasks) (h : HousekeepingStep) : Option AdcsTasks :=
  match h,s.housekeeping with
  | .getState,.getState => some { s with housekeeping := .evaluate s.system.manager.state }
  | .evaluate nowUs,.evaluate snapshot =>
    some { s with
      housekeeping := .getActive snapshot nowUs (s.system.faults.evaluateAdcs p
        snapshot.latestSensors snapshot.latestAttitude snapshot.latestControl nowUs) }
  | .getActive,.getActive snapshot nowUs observed =>
    some { s with housekeeping := .clear snapshot nowUs observed s.system.faults.getActive }
  | .clear,.clear snapshot nowUs observed latched =>
    some { s with
      system := s.system.call p (.faultClear (clearMask observed latched))
      housekeeping :=
        if observed ≠ adcsFaultNone then .report snapshot nowUs observed
        else .getHealth snapshot nowUs }
  | .report,.report snapshot nowUs observed =>
    some { s with
      system := s.system.call p (.faultReport observed)
      housekeeping := .getHealth snapshot nowUs }
  | .getHealth minimumStackMargin,.getHealth snapshot nowUs =>
    some { s with
      housekeeping := .setHealth nowUs (housekeepingHealth snapshot nowUs
        s.system.faults.getActive minimumStackMargin) }
  | .setHealth,.setHealth nowUs health =>
    some { s with system := s.system.call p (.setHealth health),housekeeping := .update nowUs }
  | .update,.update nowUs =>
    some { s with system := s.system.call p (.update nowUs),housekeeping := .getState }
  | _,_ => none

/-- One step of one task. -/
def step (s : AdcsTasks) : TaskStep → Option AdcsTasks
  | .control c => s.stepControl p c
  | .housekeeping h => s.stepHousekeeping p h
  | .setManualMagnetorquer axis direction =>
    some { s with manual := s.manual.set axis direction }
  | .other c => if c.ofOtherTask then some { s with system := s.system.call p c } else none

end AdcsTasks

/-! ### Command task -/

/-- An `adcs_command_t`; `none` also stands for the types without a case of their own. -/
inductive AdcsCommand where
  | none
  | setMode (mode : BitVec 32)
  | setAttitude (attitude : Versor)
  | setPointingVector (bodyAxis inertialDirection : Vector3)
  | resetEstimator
  | disableActuators (inhibited : BitVec 8)
  | setUnixTime (unixTimeSec : BitVec 64)
  | simulatorFault (mask : BitVec 32)
  | legacyPosition (position : BitVec 32)
  | setMagnetorquer (axis direction : BitVec 8)

/-- What a command reaches outside the manager: the clock, the simulator, and the quaternion
of a legacy position, which takes a sine and a cosine. -/
structure CommandEnvironment where
  setUnixTimeUs : BitVec 64 → AdcsResult
  injectSimulatorFaults : BitVec 32 → AdcsResult
  legacyQuaternion : BitVec 32 → Versor

/-- `0.08F` -/
def commandDefaultMaximumRateRadS : CFloat := .dyadic 5368709 26

/-- The mode number that commands for a slew request. -/
def slewingValue : BitVec 32 := 6

/-- The calls for a generated target, or a rejected command where there is none. -/
def slewTo (target : Option AdcsGuidanceTarget) (extra : List TaskStep) : List TaskStep :=
  match target with
  | .some target =>
    .other (.setGuidanceTarget (.some target)) :: extra ++ [.other (.requestMode slewingValue)]
  | .none => [.other .noteRejectedCommand]

/-- The calls that `execute_command` makes, in order. Other tasks may run between them. -/
def executeCommand (p : Platform) (env : CommandEnvironment) : AdcsCommand → List TaskStep
  | .setMode mode => [.other (.requestMode mode)]
  | .setAttitude attitude =>
    slewTo (adcsGuidanceTargetFromAttitude p .slewing attitude commandDefaultMaximumRateRadS) []
  | .setPointingVector bodyAxis inertialDirection =>
    slewTo (adcsGuidanceTargetFromVector p .slewing bodyAxis inertialDirection
      commandDefaultMaximumRateRadS) []
  | .resetEstimator => []
  | .disableActuators inhibited => [.other (.setActuatorsInhibited inhibited)]
  | .setUnixTime unixTimeSec =>
    if 0 < unixTimeSec.toInt ∧ unixTimeSec.toNat ≤ (2^64-1)/1000000 ∧
        env.setUnixTimeUs (unixTimeSec*1000000) = .ok then []
    else [.other .noteRejectedCommand]
  | .simulatorFault mask =>
    if env.injectSimulatorFaults mask = .ok then [] else [.other .noteRejectedCommand]
  | .legacyPosition position =>
    slewTo (adcsGuidanceTargetFromAttitude p .slewing (env.legacyQuaternion position)
      commandDefaultMaximumRateRadS) [.other (.setLegacyPosition position)]
  | .setMagnetorquer axis direction => [.setManualMagnetorquer axis direction]
  | .none => [.other .noteRejectedCommand]

end FlightSoftware.Adcs
