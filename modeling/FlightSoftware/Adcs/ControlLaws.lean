import FlightSoftware.Adcs.Manager

/-!
# Control laws

The laws that turn an attitude and a magnetic field into a torque and a dipole: detumbling,
pointing at the sun, slewing, and the allocation of a torque to the coils. As elsewhere nothing
is assumed about rounding; of the library functions only `fminf` is spelled out.
-/

namespace FlightSoftware.Adcs

/-- `fminf`: a NaN is a missing argument. -/
def fminf (a b : CFloat) : CFloat :=
  if a.isnan then b
  else if b.isnan then a
  else if b.lt a then b
  else a

variable (p : Platform) (lib : MathFunctions)

/-! ### Limits -/

/-- The limited vector and whether it has been shortened, where the code returns
`ADCS_RESULT_OK`. -/
def adcsVectorLimit (input : Vector3) (limit : CFloat) : Option (Vector3 × BitVec 8) :=
  if !limit.isfinite || limit.lt 0 || !adcsValuesAreFinite input then none
  else
    let norm := adcsVectorNorm p input
    let scale :=
      if limit.lt norm && adcsMathEpsilon.lt norm then p.arith.div limit norm else 1
    some (fun axis => p.arith.mul (input axis) scale,flag (scale.lt 1))

/-- What `adcs_clampf` returns is a NaN or lies between the limits, if these are in order. -/
theorem adcsClampf_within {value minimum maximum : CFloat}
    (horder : maximum.lt minimum = false) (hmin : minimum.isfinite = true)
    (hmax : maximum.isfinite = true) :
    (adcsClampf value minimum maximum).isnan = true ∨
      (minimum.le (adcsClampf value minimum maximum) = true ∧
        (adcsClampf value minimum maximum).le maximum = true) := by
  obtain ⟨a,rfl⟩ := CFloat.isfinite_iff.mp hmin
  obtain ⟨b,rfl⟩ := CFloat.isfinite_iff.mp hmax
  have hab : a ≤ b := not_lt.mp (of_decide_eq_false horder)
  by_cases hnan : value.isnan
  · left
    rw [adcsClampf,hnan]
    exact hnan
  · right
    rw [Bool.not_eq_true] at hnan
    have hguard : (value.isnan || (CFloat.finite a).isnan || (CFloat.finite b).isnan ||
        (CFloat.finite b).lt (.finite a)) = false := by
      rw [hnan,horder]
      rfl
    rw [adcsClampf,hguard,if_neg Bool.false_ne_true]
    cases value with
    | nan => cases hnan
    | infinite negative => cases negative <;> simp [CFloat.lt,CFloat.le,hab]
    | finite x =>
      simp only [CFloat.lt,decide_eq_true_eq]
      split_ifs with hlow hhigh
      · simp [CFloat.le,hab]
      · simp [CFloat.le,hab]
      · simp [CFloat.le,not_lt.mp hlow,not_lt.mp hhigh]

/-! ### PID -/

structure AdcsPidConfig where
  proportionalGain : CFloat := 0
  integralGain : CFloat := 0
  derivativeGain : CFloat := 0
  integratorLimit : CFloat := 0
  outputLimit : CFloat := 0

def pidConfigIsValid (config : AdcsPidConfig) : Bool :=
  config.proportionalGain.isfinite && config.integralGain.isfinite &&
    config.derivativeGain.isfinite && config.integratorLimit.isfinite &&
    config.outputLimit.isfinite && (0 : CFloat).le config.proportionalGain &&
    (0 : CFloat).le config.integralGain && (0 : CFloat).le config.derivativeGain &&
    (0 : CFloat).le config.integratorLimit && (0 : CFloat).lt config.outputLimit

structure AdcsPidState where
  config : AdcsPidConfig := {}
  integral : CFloat := 0
  previousError : CFloat := 0
  hasPreviousError : BitVec 8 := 0

def adcsPidInit (config : AdcsPidConfig) : AdcsPidState :=
  if pidConfigIsValid config then { config := config } else {}

def adcsPidReset (state : AdcsPidState) : AdcsPidState :=
  { state with integral := 0,previousError := 0,hasPreviousError := 0 }

/-- The state and the output after an update, where the code returns `ADCS_RESULT_OK`; otherwise
the state stays. -/
def adcsPidUpdate (error dtS : CFloat) (state : AdcsPidState) : Option (AdcsPidState × CFloat) :=
  let config := state.config
  if !error.isfinite || !dtS.isfinite || dtS.le 0 || !pidConfigIsValid config then none
  else
    let clampIntegral value :=
      adcsClampf value config.integratorLimit.neg config.integratorLimit
    let integral := clampIntegral (p.arith.add state.integral (p.arith.mul error dtS))
    let derivative :=
      if state.hasPreviousError ≠ 0 then p.arith.div (p.arith.sub error state.previousError) dtS
      else 0
    let rawOutput := p.arith.add (p.arith.add (p.arith.mul config.proportionalGain error)
      (p.arith.mul config.integralGain integral)) (p.arith.mul config.derivativeGain derivative)
    let output := adcsClampf rawOutput config.outputLimit.neg config.outputLimit
    -- a limited output takes what it lacks back out of the integral
    let unwound :=
      if adcsMathEpsilon.lt config.integralGain && rawOutput.ne output then
        clampIntegral (p.arith.sub integral
          (p.arith.div (p.arith.sub rawOutput output) config.integralGain))
      else integral
    some ({ state with integral := unwound,previousError := error,hasPreviousError := 1 },output)

/-! ### Detumbling -/

structure AdcsBdotConfig where
  gainAM2ST : CFloat := 0
  derivativeFilterAlpha : CFloat := 0
  maximumDipoleAM2 : CFloat := 0
  minimumDtS : CFloat := 0
  maximumDtS : CFloat := 0

structure AdcsBdotState where
  config : AdcsBdotConfig := {}
  previousFieldT : Vector3 := 0
  filteredDerivativeTS : Vector3 := 0
  hasPreviousSample : BitVec 8 := 0

def adcsBdotInit (config : AdcsBdotConfig) : AdcsBdotState :=
  if config.gainAM2ST.isfinite && config.derivativeFilterAlpha.isfinite &&
      config.maximumDipoleAM2.isfinite && config.minimumDtS.isfinite &&
      config.maximumDtS.isfinite && (0 : CFloat).le config.gainAM2ST &&
      (0 : CFloat).le config.derivativeFilterAlpha && config.derivativeFilterAlpha.le 1 &&
      (0 : CFloat).lt config.maximumDipoleAM2 && (0 : CFloat).lt config.minimumDtS &&
      config.minimumDtS.le config.maximumDtS then
    { config := config }
  else {}

def adcsBdotReset (state : AdcsBdotState) : AdcsBdotState :=
  { state with previousFieldT := 0,filteredDerivativeTS := 0,hasPreviousSample := 0 }

/-- The state after an update, and the dipole with its mark where the code returns
`ADCS_RESULT_OK`; the other result is `ADCS_RESULT_INVALID_ARGUMENT`. -/
def adcsBdotUpdate (magneticFieldT : Vector3) (dtS : CFloat) (state : AdcsBdotState) :
    AdcsBdotState × Option (Vector3 × BitVec 8) :=
  let config := state.config
  if !adcsValuesAreFinite magneticFieldT || !dtS.isfinite || dtS.lt config.minimumDtS ||
      config.maximumDtS.lt dtS || config.maximumDipoleAM2.le 0 then
    (state,none)
  else if state.hasPreviousSample = 0 then
    ({ state with previousFieldT := magneticFieldT,hasPreviousSample := 1 },some (0,0))
  else
    let rawDerivative : Vector3 := fun axis =>
      p.arith.div (p.arith.sub (magneticFieldT axis) (state.previousFieldT axis)) dtS
    let filtered : Vector3 := fun axis =>
      p.arith.add (p.arith.mul config.derivativeFilterAlpha (rawDerivative axis))
        (p.arith.mul (p.arith.sub 1 config.derivativeFilterAlpha)
          (state.filteredDerivativeTS axis))
    let requested : Vector3 := fun axis => p.arith.mul config.gainAM2ST.neg (filtered axis)
    ({ state with previousFieldT := magneticFieldT,filteredDerivativeTS := filtered },
      adcsVectorLimit p requested config.maximumDipoleAM2)

/-! ### Pointing at the sun -/

structure AdcsSunPointingConfig where
  proportionalGainNm : CFloat
  rateDampingGainNmS : CFloat
  maximumTorqueNm : CFloat
  minimumSunIrradianceWM2 : CFloat
  pointingAxisBody : Vector3

/-- What a law asks for: a torque, the pointing error, and whether the torque was shortened. -/
structure TorqueRequest where
  torqueNm : Vector3 := 0
  pointingErrorRad : CFloat := 0
  wasLimited : BitVec 8 := 0

/-- The result with what is stored through the pointers. The error is stored before the torque
is limited, so it is there even if that fails. -/
def adcsSunPointingUpdate (config : AdcsSunPointingConfig) (sensors : AdcsSensorPacket)
    (attitude : AdcsAttitudeState) : AdcsResult × TorqueRequest :=
  if attitude.valid = 0 || sensors.validMask &&& adcsSensorValidSun = 0 ||
      sensors.sunIrradianceWM2.lt config.minimumSunIrradianceWM2 ||
      !config.proportionalGainNm.isfinite || !config.rateDampingGainNmS.isfinite ||
      !config.maximumTorqueNm.isfinite || config.maximumTorqueNm.le 0 ||
      !adcsValuesAreFinite attitude.angularRateRadS then
    (.unavailable,{})
  else
    match adcsVectorNormalize p sensors.sunVectorBody,
        adcsVectorNormalize p config.pointingAxisBody with
    | some sunUnit,some axisUnit =>
      let cross := adcsVectorCross p axisUnit sunUnit
      let dot := (List.finRange 3).foldl
        (fun acc axis => p.arith.add acc (p.arith.mul (axisUnit axis) (sunUnit axis))) 0
      let torque : Vector3 := fun axis =>
        p.arith.sub (p.arith.mul config.proportionalGainNm (cross axis))
          (p.arith.mul config.rateDampingGainNmS (attitude.angularRateRadS axis))
      let pointingErrorRad := lib.acosf (adcsClampf dot (.finite (-1)) 1)
      match adcsVectorLimit p torque config.maximumTorqueNm with
      | some (limited,wasLimited) => (.ok,⟨limited,pointingErrorRad,wasLimited⟩)
      | none => (.invalidArgument,⟨0,pointingErrorRad,0⟩)
    | _,_ => (.unavailable,{})

/-! ### Slewing -/

structure AdcsSlewConfig where
  attitudeRateGainS : CFloat := 0
  ratePid : AdcsPidConfig := {}
  maximumTorqueNm : CFloat := 0
  maximumRateRadS : CFloat := 0
  settledAngleRad : CFloat := 0
  settledRateRadS : CFloat := 0
  settledCyclesRequired : BitVec 32 := 0

structure AdcsSlewState where
  config : AdcsSlewConfig := {}
  axisPid : Fin 3 → AdcsPidState := fun _ => {}
  settledCycles : BitVec 32 := 0

def adcsSlewInit (config : AdcsSlewConfig) : AdcsSlewState :=
  if !config.attitudeRateGainS.isfinite || !config.maximumTorqueNm.isfinite ||
      !config.maximumRateRadS.isfinite || !config.settledAngleRad.isfinite ||
      !config.settledRateRadS.isfinite || config.attitudeRateGainS.le 0 ||
      config.maximumTorqueNm.le 0 || config.maximumRateRadS.le 0 ||
      config.settledAngleRad.lt 0 || config.settledRateRadS.lt 0 ||
      config.settledCyclesRequired = 0 then
    {}
  else { config := config,axisPid := fun _ => adcsPidInit config.ratePid }

def adcsSlewReset (state : AdcsSlewState) : AdcsSlewState :=
  { state with settledCycles := 0,axisPid := fun axis => adcsPidReset (state.axisPid axis) }

/-- The updates of the rate controllers, axis after axis up to the first that fails, with the
torque if none does. -/
def slewAxisPids (rateError : Vector3) (dtS : CFloat) :
    List (Fin 3) → (Fin 3 → AdcsPidState) → Vector3 → (Fin 3 → AdcsPidState) × Option Vector3
  | [],pids,torque => (pids,some torque)
  | axis :: rest,pids,torque =>
    match adcsPidUpdate p (rateError axis) dtS (pids axis) with
    | none => (pids,none)
    | some (pid,output) =>
      slewAxisPids rateError dtS rest (Function.update pids axis pid)
        (Function.update torque axis output)

/-- Angle and rate of a completed update are within the settling tolerances. -/
def AdcsSlewConfig.within (config : AdcsSlewConfig) (attitudeError rate : Vector3) : Bool :=
  (adcsVectorNorm p attitudeError).le config.settledAngleRad &&
    (adcsVectorNorm p rate).le config.settledRateRadS

/-- The counter after a completed update, which is on target or not. -/
def countSettled (onTarget : Bool) (state : AdcsSlewState) : AdcsSlewState :=
  if onTarget then
    if state.settledCycles < state.config.settledCyclesRequired then
      { state with settledCycles := state.settledCycles+1 }
    else state
  else { state with settledCycles := 0 }

/-- The state after an update, and the request with the mark `is_settled` where the code returns
`ADCS_RESULT_OK`; the other result is `ADCS_RESULT_INVALID_DATA`. -/
def adcsSlewUpdate (attitude : AdcsAttitudeState) (targetQuaternion : Versor)
    (targetMaximumRateRadS dtS : CFloat) (state : AdcsSlewState) :
    AdcsSlewState × Option (TorqueRequest × BitVec 8) :=
  if attitude.valid = 0 || !dtS.isfinite || dtS.le 0 || !targetMaximumRateRadS.isfinite ||
      targetMaximumRateRadS.le 0 || !adcsValuesAreFinite attitude.angularRateRadS then
    (state,none)
  else
    match adcsQuaternionErrorVector p lib attitude.quaternion targetQuaternion with
    | none => (state,none)
    | some attitudeError =>
      let desiredRate : Vector3 := fun axis =>
        p.arith.mul state.config.attitudeRateGainS (attitudeError axis)
      match adcsVectorLimit p desiredRate
          (fminf state.config.maximumRateRadS targetMaximumRateRadS) with
      | none => (state,none)
      | some (limitedRate,_) =>
        let rateError : Vector3 := fun axis =>
          p.arith.sub (limitedRate axis) (attitude.angularRateRadS axis)
        let pids := slewAxisPids p rateError dtS (List.finRange 3) state.axisPid 0
        let driven := { state with axisPid := pids.1 }
        match pids.2 with
        | none => (driven,none)
        | some torque =>
          match adcsVectorLimit p torque state.config.maximumTorqueNm with
          | none => (driven,none)
          | some (requestedTorque,wasLimited) =>
            let counted :=
              countSettled (state.config.within p attitudeError attitude.angularRateRadS) driven
            (counted,some (⟨requestedTorque,adcsVectorNorm p attitudeError,wasLimited⟩,
              flag (counted.config.settledCyclesRequired ≤ counted.settledCycles)))

/-! ### Allocation -/

structure AdcsActuatorAllocatorConfig where
  maximumAxisDipoleAM2 : Vector3
  minimumUsableFieldT : CFloat

/-- The dipole of a torque, the torque that it can achieve and whether an axis was limited. -/
structure Allocation where
  dipoleAM2 : Vector3
  achievableTorqueNm : Vector3
  wasSaturated : BitVec 8

def adcsActuatorAllocate (config : AdcsActuatorAllocatorConfig)
    (requestedTorqueNm magneticFieldT : Vector3) : Except AdcsResult Allocation :=
  if !adcsValuesAreFinite requestedTorqueNm || !adcsValuesAreFinite magneticFieldT ||
      !adcsValuesAreFinite config.maximumAxisDipoleAM2 ||
      !config.minimumUsableFieldT.isfinite || config.minimumUsableFieldT.le 0 then
    .error .invalidArgument
  else
    let fieldNorm := adcsVectorNorm p magneticFieldT
    if !fieldNorm.isfinite || fieldNorm.lt config.minimumUsableFieldT then .error .unavailable
    else if (List.finRange 3).any fun axis => (config.maximumAxisDipoleAM2 axis).le 0 then
      .error .invalidArgument
    else
      let fieldSquared := p.arith.mul fieldNorm fieldNorm
      let fieldCrossTorque := adcsVectorCross p magneticFieldT requestedTorqueNm
      let requestedDipole : Vector3 := fun axis =>
        p.arith.div (fieldCrossTorque axis) fieldSquared
      let dipole : Vector3 := fun axis =>
        let limit := config.maximumAxisDipoleAM2 axis
        adcsClampf (requestedDipole axis) limit.neg limit
      .ok ⟨dipole,adcsVectorCross p dipole magneticFieldT,
        flag ((List.finRange 3).any fun axis => (dipole axis).ne (requestedDipole axis))⟩

end FlightSoftware.Adcs
