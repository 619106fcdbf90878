import FlightSoftware.Adcs.ControlLaws
import FlightSoftware.Adcs.SlewEvidence

/-!
# Controller

`adcs_controller_update` and the control task that calls it, in place of the results that the
other models of the tasks leave open. A run of these tasks is a run of those, and the controller
keeps what they assume of it. It reports a settled target only after twenty updates on target.
-/

namespace FlightSoftware.Adcs
open Run

structure AdcsControllerConfig where
  bdot : AdcsBdotConfig
  slew : AdcsSlewConfig
  sunPointing : AdcsSunPointingConfig
  allocator : AdcsActuatorAllocatorConfig

structure AdcsController where
  config : AdcsControllerConfig
  bdot : AdcsBdotState
  slew : AdcsSlewState
  previousMode : AdcsMode

/-- A controller with a configuration is initialized. -/
def adcsControllerInit (config : AdcsControllerConfig) : AdcsController :=
  ⟨config,adcsBdotInit config.bdot,adcsSlewInit config.slew,.boot⟩

/-- `adcs_controller_update` starts the laws afresh in each new mode. -/
def AdcsController.inMode (mode : AdcsMode) (c : AdcsController) : AdcsController :=
  if mode ≠ c.previousMode then
    { c with bdot := adcsBdotReset c.bdot,slew := adcsSlewReset c.slew,previousMode := mode }
  else c

/-! ### Configuration of the control task -/

/-- `0.20F` -/
def maximumDipole : CFloat := .dyadic 13421773 26
/-- `0.000008F` -/
def slewMaximumTorqueNm : CFloat := .dyadic 8796093 40

/-- The gain is `30000`, the period lies between `0.01F` and `0.20F` seconds. -/
def bdotConfig : AdcsBdotConfig where
  gainAM2ST := .finite 30000
  derivativeFilterAlpha := .dyadic 1 2
  maximumDipoleAM2 := maximumDipole
  minimumDtS := .dyadic 5368709 29
  maximumDtS := .dyadic 13421773 26

/-- The gains are `0.02F` and `0.00100F`, the rate `0.08F`, the tolerances `0.05235988F` and
`0.008F`. -/
def slewConfig : AdcsSlewConfig where
  attitudeRateGainS := .dyadic 5368709 28
  ratePid :=
    { proportionalGain := .dyadic 8589935 33
      integratorLimit := .dyadic 13421773 26
      outputLimit := slewMaximumTorqueNm }
  maximumTorqueNm := slewMaximumTorqueNm
  maximumRateRadS := .dyadic 5368709 26
  settledAngleRad := .dyadic 878453 24
  settledRateRadS := .dyadic 8589935 30
  settledCyclesRequired := 20

/-- The gains are `0.00002F` and `0.00010F`, the torque `0.00002F`. -/
def sunPointingConfig : AdcsSunPointingConfig where
  proportionalGainNm := .dyadic 2748779 37
  rateDampingGainNmS := .dyadic 13743895 37
  maximumTorqueNm := .dyadic 2748779 37
  minimumSunIrradianceWM2 := .finite 100
  pointingAxisBody := ![1,0,0]

/-- The field is at least `1.0e-6F`. -/
def allocatorConfig : AdcsActuatorAllocatorConfig where
  maximumAxisDipoleAM2 := fun _ => maximumDipole
  minimumUsableFieldT := .dyadic 8796093 43

def controllerConfig : AdcsControllerConfig :=
  ⟨bdotConfig,slewConfig,sunPointingConfig,allocatorConfig⟩

/-! ### Update -/

section
variable (p : Platform) (lib : MathFunctions)

/-- The torque that a law asks for goes to the coils. -/
def allocateRequest (config : AdcsActuatorAllocatorConfig) (magneticFieldT : Vector3)
    (request : TorqueRequest) (settled : BitVec 8) (output : AdcsControlOutput) :
    AdcsResult × AdcsControlOutput :=
  let output := { output with pointingErrorRad := request.pointingErrorRad }
  match adcsActuatorAllocate p config request.torqueNm magneticFieldT with
  | .error result => (result,output)
  | .ok allocation =>
    (.ok,{ output with
      requestedTorqueNm := request.torqueNm
      requestedDipoleAM2 := allocation.dipoleAM2
      achievableTorqueNm := allocation.achievableTorqueNm
      actuatorsEnabled := 1
      saturated := flag (allocation.wasSaturated != 0 || request.wasLimited != 0)
      targetSettled := settled })

namespace AdcsController

/-- The branch of `ADCS_MODE_DETUMBLE`: the controller after it, the result and the output. -/
def detumble (sensors : AdcsSensorPacket) (dtS : CFloat) (output : AdcsControlOutput)
    (c : AdcsController) : AdcsController × AdcsResult × AdcsControlOutput :=
  match adcsBdotUpdate p sensors.magneticFieldT dtS c.bdot with
  | (bdot,none) => ({ c with bdot := bdot },.invalidArgument,output)
  | (bdot,some (dipole,saturated)) =>
    ({ c with bdot := bdot },.ok,{ output with
      requestedDipoleAM2 := dipole
      achievableTorqueNm := adcsVectorCross p dipole sensors.magneticFieldT
      actuatorsEnabled := 1
      saturated := saturated })

/-- The branch of the sun modes. -/
def pointAtSun (sensors : AdcsSensorPacket) (attitude : AdcsAttitudeState)
    (output : AdcsControlOutput) (c : AdcsController) :
    AdcsController × AdcsResult × AdcsControlOutput :=
  match adcsSunPointingUpdate p lib c.config.sunPointing sensors attitude with
  | (.ok,request) =>
    (c,allocateRequest p c.config.allocator sensors.magneticFieldT request 0 output)
  | (result,request) => (c,result,{ output with pointingErrorRad := request.pointingErrorRad })

/-- The branch of the modes that follow the guidance target. -/
def followTarget (target : AdcsGuidanceTarget) (sensors : AdcsSensorPacket)
    (attitude : AdcsAttitudeState) (dtS : CFloat) (output : AdcsControlOutput)
    (c : AdcsController) : AdcsController × AdcsResult × AdcsControlOutput :=
  match adcsSlewUpdate p lib attitude target.targetQuaternion target.maximumRateRadS dtS c.slew with
  | (slew,none) => ({ c with slew := slew },.invalidData,output)
  | (slew,some (request,settled)) =>
    ({ c with slew := slew },
      allocateRequest p c.config.allocator sensors.magneticFieldT request settled output)

def applyLaw (mode : AdcsMode) (target : AdcsGuidanceTarget) (sensors : AdcsSensorPacket)
    (attitude : AdcsAttitudeState) (dtS : CFloat) (output : AdcsControlOutput)
    (c : AdcsController) : AdcsController × AdcsResult × AdcsControlOutput :=
  match mode with
  | .detumble => c.detumble p sensors dtS output
  | .sunAcquisition | .sunPointing => c.pointAtSun p lib sensors attitude output
  | .slewing | .targetPointing | .earthPointing | .science =>
    c.followTarget p lib target sensors attitude dtS output
  | _ => (c,.invalidArgument,output)

end AdcsController

/-- The controller after `adcs_controller_update`, with the result and the output. -/
def adcsControllerUpdate (mode : AdcsMode) (target : AdcsGuidanceTarget)
    (sensors : AdcsSensorPacket) (attitude : AdcsAttitudeState) (dtS : CFloat)
    (c : AdcsController) : AdcsController × AdcsResult × AdcsControlOutput :=
  let output : AdcsControlOutput := { timestampUs := sensors.timestampUs }
  if !mode.isValid || !dtS.isfinite || dtS.le 0 then (c,.invalidArgument,output)
  else
    let c := c.inMode mode
    if mode = .boot || mode = .safe then (c,.ok,output)
    else if sensors.validMask &&& adcsSensorValidMagnetometer = 0 then (c,.unavailable,output)
    else c.applyLaw p lib mode target sensors attitude dtS output

/-! ### Tasks -/

/-- `(float)CONTROL_TASK_PERIOD_MS / 1000.0F` -/
def controlTaskPeriodS : CFloat := p.arith.div (.finite 50) (.finite 1000)

/-- The call of `adcs_controller_update` in a cycle with this snapshot. -/
def AdcsController.update (snapshot : AdcsManagerState) (c : AdcsController) :
    AdcsController × AdcsResult × AdcsControlOutput :=
  adcsControllerUpdate p lib snapshot.mode snapshot.guidanceTarget snapshot.latestSensors
    snapshot.latestAttitude (controlTaskPeriodS p) c

/-- A call of the controller, with the snapshot of its cycle and what it returned. -/
structure ControllerCall where
  snapshot : AdcsManagerState
  result : AdcsResult
  output : AdcsControlOutput

/-- The tasks with the controller that the control task owns, its calls so far, and the steps
that the tasks have performed. -/
structure ControlledTasks where
  tasks : AdcsTasks
  controller : AdcsController
  calls : List ControllerCall := []
  performed : List TaskStep := []

/-- The controller is called, or a task does anything else. -/
inductive ControlledStep where
  | compute
  | task (a : TaskStep)

/-- Results come from the controller alone, and only the control task stores its outputs. -/
def TaskStep.besideController : TaskStep → Bool
  | .control (.compute _ _) | .other (.setControlOutput _) => false
  | _ => true

namespace ControlledTasks

/-- After the tasks have been initialized. -/
def init : ControlledTasks := { tasks := .init,controller := adcsControllerInit controllerConfig }

def step (s : ControlledTasks) : ControlledStep → Option ControlledTasks
  | .compute =>
    match s.tasks.control with
    | .compute snapshot =>
      let r := s.controller.update p lib snapshot
      let a : TaskStep := .control (.compute r.2.1 r.2.2)
      (s.tasks.step p a).map fun tasks =>
        ⟨tasks,r.1,s.calls ++ [⟨snapshot,r.2.1,r.2.2⟩],s.performed ++ [a]⟩
    | _ => none
  | .task a =>
    if a.besideController then
      (s.tasks.step p a).map fun tasks =>
        { s with tasks := tasks,performed := s.performed ++ [a] }
    else none

end ControlledTasks

end

/-! ### What the controller returns -/

variable {p : Platform} {lib : MathFunctions}

/-- A dipole within its limit on either side. The clamp lets a NaN through. -/
def Within (limit x : CFloat) : Prop :=
  x.isnan = true ∨ (limit.neg.le x = true ∧ x.le limit = true)

theorem adcsActuatorAllocate_within {config : AdcsActuatorAllocatorConfig}
    {torque field : Vector3} {allocation : Allocation}
    (h : adcsActuatorAllocate p config torque field = .ok allocation) (axis : Fin 3) :
    Within (config.maximumAxisDipoleAM2 axis) (allocation.dipoleAM2 axis) := by
  rw [adcsActuatorAllocate] at h
  dsimp only at h
  split_ifs at h with hfinite hfield hlimits
  cases h
  simp only [adcsValuesAreFinite,Bool.or_eq_true,Bool.not_eq_true',not_or,
    Bool.not_eq_false,decide_eq_true_eq] at hfinite
  simp only [List.any_eq_true,List.mem_finRange,true_and,not_exists,Bool.not_eq_true] at hlimits
  obtain ⟨q,hq⟩ := CFloat.isfinite_iff.mp (hfinite.1.1.2 axis)
  have hpos : 0 < q := by
    have hlimit := hlimits axis
    rw [hq] at hlimit
    exact not_le.mp (of_decide_eq_false hlimit)
  have horder : (CFloat.finite q).lt (CFloat.finite q).neg = false :=
    decide_eq_false (by linarith)
  dsimp only
  rw [hq]
  exact adcsClampf_within horder rfl rfl

/-- How a call of the controller may end: with nothing for the coils, or with a dipole for them in
a mode that has one and on the data that its law needs. -/
inductive ControllerCase (config : AdcsControllerConfig) (snapshot : AdcsManagerState) :
    AdcsResult → AdcsControlOutput → Prop
  | quiet {result output} (henabled : output.actuatorsEnabled = 0)
      (hsettled : output.targetSettled = 0) : ControllerCase config snapshot result output
  | detumbles {output} (hmode : snapshot.mode = .detumble)
      (hfield : snapshot.latestSensors.validMask &&& adcsSensorValidMagnetometer ≠ 0)
      (hsettled : output.targetSettled = 0) : ControllerCase config snapshot .ok output
  | points {output} (hmode : snapshot.mode.needsAttitude = true)
      (hfield : snapshot.latestSensors.validMask &&& adcsSensorValidMagnetometer ≠ 0)
      (hattitude : snapshot.latestAttitude.valid ≠ 0)
      (hdipole : ∀ axis,Within (config.allocator.maximumAxisDipoleAM2 axis)
        (output.requestedDipoleAM2 axis))
      (hsettled : output.targetSettled ≠ 0 → snapshot.mode.followsTarget = true) :
      ControllerCase config snapshot .ok output

theorem adcsSunPointingUpdate_ok {config : AdcsSunPointingConfig} {sensors : AdcsSensorPacket}
    {attitude : AdcsAttitudeState} {request : TorqueRequest}
    (h : adcsSunPointingUpdate p lib config sensors attitude = (.ok,request)) :
    attitude.valid ≠ 0 := by
  rw [adcsSunPointingUpdate] at h
  split at h
  · cases h
  · next hguard =>
    simp only [Bool.or_eq_true,decide_eq_true_eq,not_or] at hguard
    exact hguard.1.1.1.1.1.1.1

theorem adcsSlewUpdate_valid {attitude : AdcsAttitudeState} {target : Versor}
    {rate dtS : CFloat} {state : AdcsSlewState}
    (h : (adcsSlewUpdate p lib attitude target rate dtS state).2.isSome = true) :
    attitude.valid ≠ 0 := by
  intro hvalid
  rw [adcsSlewUpdate,hvalid] at h
  cases h

/-- A request for a torque ends quietly, or in a dipole within the limits. -/
theorem allocateRequest_case {config : AdcsControllerConfig} {snapshot : AdcsManagerState}
    {request : TorqueRequest} {settled : BitVec 8} {output : AdcsControlOutput}
    (henabled : output.actuatorsEnabled = 0) (hquiet : output.targetSettled = 0)
    (hmode : snapshot.mode.needsAttitude = true)
    (hfield : snapshot.latestSensors.validMask &&& adcsSensorValidMagnetometer ≠ 0)
    (hattitude : snapshot.latestAttitude.valid ≠ 0)
    (hsettled : settled ≠ 0 → snapshot.mode.followsTarget = true) :
    let r := allocateRequest p config.allocator snapshot.latestSensors.magneticFieldT request
      settled output
    ControllerCase config snapshot r.1 r.2 := by
  intro r
  cases hallocate : adcsActuatorAllocate p config.allocator request.torqueNm
      snapshot.latestSensors.magneticFieldT with
  | error result =>
    have hr : r = (result,{ output with pointingErrorRad := request.pointingErrorRad }) := by
      show allocateRequest p _ _ _ _ _ = _
      rw [allocateRequest,hallocate]
    rw [hr]
    exact .quiet henabled hquiet
  | ok allocation =>
    have hok : r.1 = .ok := by
      show (allocateRequest p _ _ _ _ _).1 = _
      rw [allocateRequest,hallocate]
    have hdipole : r.2.requestedDipoleAM2 = allocation.dipoleAM2 := by
      show (allocateRequest p _ _ _ _ _).2.requestedDipoleAM2 = _
      rw [allocateRequest,hallocate]
    have htarget : r.2.targetSettled = settled := by
      show (allocateRequest p _ _ _ _ _).2.targetSettled = _
      rw [allocateRequest,hallocate]
    rw [hok]
    refine .points hmode hfield hattitude (fun axis => ?_) (htarget ▸ hsettled)
    rw [hdipole]
    exact adcsActuatorAllocate_within hallocate axis

/-- The controller of a mode in which it has been before has the configuration that it had. -/
@[simp] theorem AdcsController.inMode_config (mode : AdcsMode) (c : AdcsController) :
    (c.inMode mode).config = c.config := by
  rw [inMode]
  split <;> rfl

namespace AdcsController

variable {c : AdcsController} {snapshot : AdcsManagerState} {dtS : CFloat}
  {output : AdcsControlOutput}

theorem detumble_case (henabled : output.actuatorsEnabled = 0)
    (hquiet : output.targetSettled = 0) (hmode : snapshot.mode = .detumble)
    (hfield : snapshot.latestSensors.validMask &&& adcsSensorValidMagnetometer ≠ 0) :
    let r := c.detumble p snapshot.latestSensors dtS output
    ControllerCase c.config snapshot r.2.1 r.2.2 := by
  dsimp only
  rw [detumble]
  split
  · exact .quiet henabled hquiet
  · exact .detumbles hmode hfield hquiet

theorem pointAtSun_case (henabled : output.actuatorsEnabled = 0)
    (hquiet : output.targetSettled = 0) (hmode : snapshot.mode.needsAttitude = true)
    (hfield : snapshot.latestSensors.validMask &&& adcsSensorValidMagnetometer ≠ 0) :
    let r := c.pointAtSun p lib snapshot.latestSensors snapshot.latestAttitude output
    ControllerCase c.config snapshot r.2.1 r.2.2 := by
  dsimp only
  rw [pointAtSun]
  split
  · next request hrequest =>
    exact allocateRequest_case henabled hquiet hmode hfield (adcsSunPointingUpdate_ok hrequest)
      fun h => absurd rfl h
  · exact .quiet henabled hquiet

theorem followTarget_case (henabled : output.actuatorsEnabled = 0)
    (hquiet : output.targetSettled = 0) (hmode : snapshot.mode.needsAttitude = true)
    (hfollows : snapshot.mode.followsTarget = true)
    (hfield : snapshot.latestSensors.validMask &&& adcsSensorValidMagnetometer ≠ 0) :
    let r := c.followTarget p lib snapshot.guidanceTarget snapshot.latestSensors
      snapshot.latestAttitude dtS output
    ControllerCase c.config snapshot r.2.1 r.2.2 := by
  dsimp only
  rw [followTarget]
  split
  · exact .quiet henabled hquiet
  · next slew request settled hupdate =>
    have hvalid : snapshot.latestAttitude.valid ≠ 0 :=
      adcsSlewUpdate_valid (congrArg (fun r => r.2.isSome) hupdate)
    exact allocateRequest_case henabled hquiet hmode hfield hvalid fun _ => hfollows

theorem applyLaw_case (henabled : output.actuatorsEnabled = 0)
    (hquiet : output.targetSettled = 0)
    (hfield : snapshot.latestSensors.validMask &&& adcsSensorValidMagnetometer ≠ 0) :
    let r := c.applyLaw p lib snapshot.mode snapshot.guidanceTarget snapshot.latestSensors
      snapshot.latestAttitude dtS output
    ControllerCase c.config snapshot r.2.1 r.2.2 := by
  dsimp only
  rw [applyLaw.eq_def]
  split
  · next hmode => exact detumble_case henabled hquiet hmode hfield
  · next hmode => exact pointAtSun_case henabled hquiet (by rw [hmode]; rfl) hfield
  · next hmode => exact pointAtSun_case henabled hquiet (by rw [hmode]; rfl) hfield
  · next hmode =>
    exact followTarget_case henabled hquiet (by rw [hmode]; rfl) (by rw [hmode]; rfl) hfield
  · next hmode =>
    exact followTarget_case henabled hquiet (by rw [hmode]; rfl) (by rw [hmode]; rfl) hfield
  · next hmode =>
    exact followTarget_case henabled hquiet (by rw [hmode]; rfl) (by rw [hmode]; rfl) hfield
  · next hmode =>
    exact followTarget_case henabled hquiet (by rw [hmode]; rfl) (by rw [hmode]; rfl) hfield
  · exact .quiet henabled hquiet

theorem update_case (c : AdcsController) (snapshot : AdcsManagerState) :
    ControllerCase c.config snapshot (c.update p lib snapshot).2.1
      (c.update p lib snapshot).2.2 := by
  rw [update,adcsControllerUpdate]
  dsimp only
  split_ifs with hguard hidle hfield
  · exact .quiet rfl rfl
  · exact .quiet rfl rfl
  · exact .quiet rfl rfl
  · rw [← inMode_config snapshot.mode c]
    exact applyLaw_case rfl rfl hfield

theorem applyLaw_config (mode : AdcsMode) (target : AdcsGuidanceTarget)
    (sensors : AdcsSensorPacket) (attitude : AdcsAttitudeState) (output : AdcsControlOutput)
    (c : AdcsController) :
    (c.applyLaw p lib mode target sensors attitude dtS output).1.config = c.config := by
  rw [applyLaw.eq_def]
  split
  · rw [detumble]
    split <;> rfl
  · rw [pointAtSun]
    split <;> rfl
  · rw [pointAtSun]
    split <;> rfl
  all_goals
    try rw [followTarget]
    try split
    all_goals rfl

theorem update_config (c : AdcsController) (snapshot : AdcsManagerState) :
    (c.update p lib snapshot).1.config = c.config := by
  rw [update,adcsControllerUpdate]
  dsimp only
  split_ifs
  · rfl
  · exact inMode_config _ _
  · exact inMode_config _ _
  · exact (applyLaw_config _ _ _ _ _ _).trans (inMode_config _ _)

/-- A target is reported settled only with a good result, in a mode that follows it. -/
theorem update_settled {c : AdcsController} {snapshot : AdcsManagerState}
    (h : (c.update p lib snapshot).2.2.targetSettled ≠ 0) :
    (c.update p lib snapshot).2.1 = .ok ∧ snapshot.mode.followsTarget = true := by
  have hcase := @update_case p lib c snapshot
  generalize c.update p lib snapshot = r at h hcase ⊢
  obtain ⟨_,result,output⟩ := r
  cases hcase with
  | quiet _ hsettled => exact absurd hsettled h
  | detumbles _ _ hsettled => exact absurd hsettled h
  | points _ _ _ _ hsettled => exact ⟨rfl,hsettled h⟩

end AdcsController

namespace ControlledTasks

variable {s s' : ControlledTasks}

/-! ### Runs of the tasks -/

/-- What the tasks have performed is a run of the tasks with the controller's results left open,
which admits those of the controller. -/
def Refines (p : Platform) (s : ControlledTasks) : Prop :=
  ∃ h,run (SlewHistory.step p) .init s.performed = some h ∧ h.tasks = s.tasks

theorem next_tasks (h : SlewHistory) (a : TaskStep) (tasks : AdcsTasks) :
    (h.next p a tasks).tasks = tasks := by
  rw [SlewHistory.next.eq_def]
  split
  · rfl
  · split <;> rfl

theorem admits_of_besideController (h : SlewHistory) {a : TaskStep}
    (ha : a.besideController = true) : h.admits a = true := by
  rw [SlewHistory.admits.eq_def]
  split
  · cases ha
  · cases ha
  · rfl

theorem Refines.perform (hs : s.Refines p) {a : TaskStep} {tasks : AdcsTasks}
    (hstep : s.tasks.step p a = some tasks)
    (hadmits : ∀ h : SlewHistory,h.tasks = s.tasks → h.admits a = true) :
    ∃ h,run (SlewHistory.step p) .init (s.performed ++ [a]) = some h ∧ h.tasks = tasks := by
  obtain ⟨h,hrun,htasks⟩ := hs
  refine ⟨h.next p a tasks,?_,next_tasks h a tasks⟩
  rw [run_append,hrun,Option.bind_some,run_cons,SlewHistory.step,if_pos (hadmits h htasks),htasks,
    hstep]
  rfl

theorem Refines.step (hs : s.Refines p) {a : ControlledStep}
    (h : s.step p lib a = some s') : s'.Refines p := by
  rw [ControlledTasks.step.eq_def] at h
  cases a with
  | compute =>
    dsimp only at h
    split at h
    · next snapshot hphase =>
      obtain ⟨tasks,hstep,rfl⟩ := Option.map_eq_some_iff.mp h
      refine hs.perform hstep fun history hsame => ?_
      rw [SlewHistory.admits,hsame,hphase]
      show ((s.controller.update p lib snapshot).2.2.targetSettled == 0 ||
        decide ((s.controller.update p lib snapshot).2.1 = .ok) &&
          snapshot.mode.followsTarget) = true
      by_cases hsettled : (s.controller.update p lib snapshot).2.2.targetSettled = 0
      · rw [hsettled]
        rfl
      · obtain ⟨hok,hfollows⟩ := AdcsController.update_settled hsettled
        rw [hok,hfollows]
        exact Bool.or_true _
    · cases h
  | task a =>
    dsimp only at h
    split at h
    · next hbeside =>
      obtain ⟨tasks,hstep,rfl⟩ := Option.map_eq_some_iff.mp h
      exact hs.perform hstep fun history _ => admits_of_besideController history hbeside
    · cases h

/-! ### What reaches the coils -/

/-- The controller may drive the coils on this snapshot. -/
structure Controllable (snapshot : AdcsManagerState) : Prop where
  inhibited : snapshot.actuatorsInhibited = 0
  mode : snapshot.mode = .detumble ∨
    (snapshot.mode.needsAttitude = true ∧ snapshot.latestAttitude.valid ≠ 0)
  field : snapshot.latestSensors.validMask &&& adcsSensorValidMagnetometer ≠ 0

/-- A command of the controller: off, or on where it may be, and within the limits in every mode
but DETUMBLE, in which the law limits the length of the vector instead. -/
def Proper (snapshot : AdcsManagerState) (command : MagnetorquerCommand) : Prop :=
  command = {} ∨ (Controllable snapshot ∧
    (snapshot.mode ≠ .detumble → ∀ axis,Within maximumDipole (command.dipoleAM2 axis)))

/-- The command in hand is a proper one. -/
def ProperPhase : ControlPhase → Prop
  | .noteError snapshot command _ | .actuate snapshot command _ => Proper snapshot command
  | _ => True

/-- An axis of the manual command is off or driven fully. -/
def ManualDipole (x : CFloat) : Prop := x = 0 ∨ x = maximumDipole ∨ x = maximumDipole.neg

theorem manualDipole_full (direction : BitVec 8) : ManualDipole (manualDipole direction) := by
  rw [manualDipole]
  split_ifs
  · exact .inr (.inl rfl)
  · refine .inr (.inr ?_)
    show CFloat.finite _ = .finite _
    rw [Int.cast_neg,neg_div]
  · exact .inl rfl

theorem ManualDipole.within {x : CFloat} (h : ManualDipole x) : Within maximumDipole x := by
  rcases h with rfl | rfl | rfl
  · exact .inr (by decide +kernel)
  · exact .inr (by decide +kernel)
  · exact .inr (by decide +kernel)

structure Commanding (s : ControlledTasks) : Prop where
  config : s.controller.config = controllerConfig
  phase : ProperPhase s.tasks.control
  manual : ∀ axis,ManualDipole (s.tasks.manual.command.dipoleAM2 axis)

theorem commanding_init : init.Commanding where
  config := rfl
  phase := trivial
  manual _ := .inl rfl

theorem controlCompute_proper {config : AdcsControllerConfig} {snapshot : AdcsManagerState}
    {result : AdcsResult} {output : AdcsControlOutput}
    (hconfig : config.allocator = allocatorConfig)
    (hcase : ControllerCase config snapshot result output) :
    ProperPhase (controlCompute snapshot result output) := by
  rw [controlCompute]
  dsimp only
  split_ifs with hdrive
  · obtain ⟨-,hinhibited,henabled⟩ := hdrive
    show Proper snapshot ⟨output.requestedDipoleAM2,1⟩
    cases hcase with
    | quiet hoff => exact absurd hoff henabled
    | detumbles hmode hfield =>
      exact .inr ⟨⟨hinhibited,.inl hmode,hfield⟩,fun hother => absurd hmode hother⟩
    | points hmode hfield hattitude hdipole =>
      rw [hconfig] at hdipole
      exact .inr ⟨⟨hinhibited,.inr ⟨hmode,hattitude⟩,hfield⟩,fun _ => hdipole⟩
  · exact .inl rfl
  · exact .inl rfl

theorem Commanding.set {manual : ManualMagnetorquer}
    (h : ∀ axis,ManualDipole (manual.command.dipoleAM2 axis)) (axis direction : BitVec 8) :
    ∀ i,ManualDipole ((manual.set axis direction).command.dipoleAM2 i) := by
  intro i
  rw [ManualMagnetorquer.set]
  split
  · next haxis =>
    show ManualDipole (Function.update manual.command.dipoleAM2 ⟨axis.toNat,haxis⟩ _ i)
    by_cases hi : i = ⟨axis.toNat,haxis⟩
    · rw [hi,Function.update_self]
      exact manualDipole_full direction
    · rw [Function.update_of_ne hi]
      exact h i
  · exact h i

/-- The steps of the tasks other than `compute` pass the command in hand on. -/
theorem properPhase_step {tasks tasks' : AdcsTasks} {a : TaskStep}
    (ha : a.besideController = true) (hproper : ProperPhase tasks.control)
    (hstep : tasks.step p a = some tasks') : ProperPhase tasks'.control := by
  cases a with
  | control c =>
    rw [AdcsTasks.step,AdcsTasks.stepControl.eq_def] at hstep
    split at hstep
    case h_8 => cases hstep
    case h_3 => cases ha
    case h_4 hphase =>
      obtain rfl := Option.some.inj hstep
      rw [hphase] at hproper
      exact hproper
    case h_5 =>
      obtain rfl := Option.some.inj hstep
      show ProperPhase (controlActuated _ _)
      rw [controlActuated]
      split <;> trivial
    all_goals
      obtain rfl := Option.some.inj hstep
      trivial
  | housekeeping c =>
    rw [AdcsTasks.step,AdcsTasks.stepHousekeeping.eq_def] at hstep
    split at hstep
    case h_9 => cases hstep
    all_goals
      obtain rfl := Option.some.inj hstep
      exact hproper
  | setManualMagnetorquer axis direction =>
    obtain rfl := Option.some.inj hstep
    exact hproper
  | other c =>
    rw [AdcsTasks.step] at hstep
    split at hstep
    · obtain rfl := Option.some.inj hstep
      exact hproper
    · cases hstep

theorem manual_step {tasks tasks' : AdcsTasks} {a : TaskStep}
    (hmanual : ∀ axis,ManualDipole (tasks.manual.command.dipoleAM2 axis))
    (hstep : tasks.step p a = some tasks') (i : Fin 3) :
    ManualDipole (tasks'.manual.command.dipoleAM2 i) := by
  rw [AdcsTasks.step_manual hstep]
  cases a with
  | setManualMagnetorquer axis direction => exact Commanding.set hmanual axis direction i
  | _ => exact hmanual i

theorem Commanding.step (hs : s.Commanding) {a : ControlledStep}
    (h : s.step p lib a = some s') : s'.Commanding := by
  rw [ControlledTasks.step.eq_def] at h
  cases a with
  | compute =>
    dsimp only at h
    split at h
    · next snapshot hphase =>
      obtain ⟨tasks,hstep,rfl⟩ := Option.map_eq_some_iff.mp h
      refine ⟨(AdcsController.update_config s.controller snapshot).trans hs.config,?_,
        manual_step hs.manual hstep⟩
      simp only [AdcsTasks.step,AdcsTasks.stepControl,hphase] at hstep
      obtain rfl := Option.some.inj hstep
      refine controlCompute_proper ?_ (AdcsController.update_case s.controller snapshot)
      rw [hs.config]
      rfl
    · cases h
  | task a =>
    dsimp only at h
    split at h
    · next hbeside =>
      obtain ⟨tasks,hstep,rfl⟩ := Option.map_eq_some_iff.mp h
      exact ⟨hs.config,properPhase_step hbeside hs.phase hstep,manual_step hs.manual hstep⟩
    · cases h

/-- In every run of the tasks with their controller, the tasks do what the models of the tasks
allow that leave the controller's results open. Whatever the arithmetic, a command that goes to
the coils is off, is the manual one, or comes from the controller: not inhibited, on a valid
magnetic field, in DETUMBLE or on a valid attitude in a mode that needs one. Each of its axes is
within `0.20` either way, except for a command of the detumbling law, or a NaN. -/
theorem coils_driven_within_limits {steps : List ControlledStep}
    (hrun : run (ControlledTasks.step p lib) init steps = some s) :
    s.Refines p ∧ ∀ snapshot command,s.tasks.pending = some (snapshot,command) →
      (command.enabled ≠ 0 → s.tasks.manual.override = 0 → Controllable snapshot) ∧
      ((snapshot.mode = .detumble → s.tasks.manual.override ≠ 0) →
        ∀ axis,Within maximumDipole (command.dipoleAM2 axis)) := by
  have hrefines : s.Refines p := run_invariant (I := Refines p) (fun _ _ _ hs => hs.step)
    ⟨.init,rfl,rfl⟩ hrun
  have hs : s.Commanding := run_invariant (fun _ _ _ hs => hs.step) commanding_init hrun
  refine ⟨hrefines,fun snapshot command hpending => ?_⟩
  rw [AdcsTasks.pending] at hpending
  split at hpending
  · next snapshot' command' _ hphase =>
    have hproper := hs.phase
    rw [hphase] at hproper
    obtain ⟨rfl,rfl⟩ := Prod.mk.inj (Option.some.inj hpending)
    by_cases hmanual : s.tasks.manual.override = 0
    · rw [commandPassed,if_neg (not_not.mpr hmanual)]
      rcases hproper with rfl | ⟨hcontrollable,hwithin⟩
      · exact ⟨fun henabled => absurd rfl henabled,fun _ _ => ManualDipole.within (.inl rfl)⟩
      · exact ⟨fun _ _ => hcontrollable,
          fun hmode => hwithin fun hdetumble => hmode hdetumble hmanual⟩
    · rw [commandPassed,if_pos hmanual]
      exact ⟨fun _ hoff => absurd hoff hmanual,fun _ axis => (hs.manual axis).within⟩
  · cases hpending

/-! ### A body at rest -/

/-- Everything that the board measures of a body at rest in a field of about 30 µT. -/
def restInField (nowUs : BitVec 64) : List ControlledStep :=
  ([.other (.setSensors
      { timestampUs := nowUs
        magneticFieldT := ![.dyadic 1 15,0,0]
        validMask := adcsSensorValidGyroscope ||| adcsSensorValidMagnetometer }),
    .other (.setAttitude
      { timestampUs := nowUs
        quaternion := ![0,0,0,1]
        confidence := .dyadic 1 1
        valid := 1 })] : List TaskStep).map .task

/-- A control cycle up to the call of the driver. -/
def computeAt (nowUs : BitVec 64) : List ControlledStep :=
  [.task (.control (.update nowUs)),.task (.control .getState),.compute]

/-- The rest of the cycle. -/
def actuateAndStore : List ControlledStep :=
  [.task (.control (.actuate .ok)),.task (.control .setOutput)]

/-- Cycles of 50 ms each. -/
def cyclesFrom (cycles : ℕ) (startUs : BitVec 64) : List ControlledStep :=
  (List.range cycles).flatMap fun i =>
    let nowUs := startUs+50000*BitVec.ofNat 64 i
    restInField nowUs ++ computeAt nowUs ++ actuateAndStore

/-- The commanded attitude is the one that the body has. -/
def slewInPlace : List ControlledStep :=
  (executeCommand AdcsTasks.boardPlatform AdcsTasks.boardCommands
    (.setAttitude ![0,0,0,1])).map .task

/-- Neither function is called for an attitude without error. -/
def restFunctions : MathFunctions := ⟨fun _ _ => 0,fun _ => 0⟩

/-- In the first cycle of the slew the controller drives the coils. -/
theorem coils_driven_in_first_cycle :
    ∃ s snapshot command,run (ControlledTasks.step AdcsTasks.boardPlatform restFunctions) init
        (slewInPlace ++ restInField 1000000 ++ computeAt 1000000) = some s ∧
      s.tasks.pending = some (snapshot,command) ∧ Controllable snapshot ∧
      ∀ axis,Within maximumDipole (command.dipoleAM2 axis) := by
  have hflags : (run (ControlledTasks.step AdcsTasks.boardPlatform restFunctions) init
      (slewInPlace ++ restInField 1000000 ++ computeAt 1000000)).bind
      (fun s => s.tasks.pending.map fun x => (s.tasks.manual.override,x.1.mode,x.2.enabled)) =
        some (0,.slewing,1) := by decide +kernel
  obtain ⟨s,hrun,hpending⟩ := Option.bind_eq_some_iff.mp hflags
  obtain ⟨⟨snapshot,command⟩,hpending,heq⟩ := Option.map_eq_some_iff.mp hpending
  obtain ⟨hmanual,heq⟩ := Prod.mk.inj heq
  obtain ⟨hmode,henabled⟩ := Prod.mk.inj heq
  dsimp only at hmode henabled
  obtain ⟨hcontrollable,hwithin⟩ := (coils_driven_within_limits hrun).2 snapshot command hpending
  refine ⟨s,snapshot,command,hrun,hpending,hcontrollable ?_ hmanual,hwithin fun hdetumble => ?_⟩
  · rw [henabled]
    decide
  · rw [hmode] at hdetumble
    cases hdetumble

end ControlledTasks

end FlightSoftware.Adcs
