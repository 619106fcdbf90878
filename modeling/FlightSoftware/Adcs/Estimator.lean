import FlightSoftware.Adcs.ControlLaws

/-!
# Attitude estimator

An attitude is found from the directions of the sun and of the magnetic field where both are
known, and carried on by the gyroscope in between. The desktop build stops calling it valid
once the last such fix is old; the board, which has no magnetometer, goes on.
-/

namespace FlightSoftware.Adcs

/-- What the estimator needs of the target beside its arithmetic: two functions of `<math.h>` and
the conversion from `uint64_t` to `float`. -/
structure EstimatorFunctions where
  sinf : CFloat → CFloat
  cosf : CFloat → CFloat
  ofUint64 : BitVec 64 → CFloat

def adcsReferenceValidMagneticField : BitVec 32 := 1 <<< 1

variable (p : Platform) (lib : EstimatorFunctions)

section
-- the components of vectors and quaternions are written as numerals
local instance neZeroThree : NeZero 3 := ⟨Nat.succ_ne_zero 2⟩
local instance neZeroFour : NeZero 4 := ⟨Nat.succ_ne_zero 3⟩

/-! ### Filter -/

/-- An `adcs_kalman_filter_t`. Nothing uses its configuration yet, and of the covariance only the
diagonal is looked at. -/
structure AdcsKalmanFilter where
  initialized : BitVec 8 := 0
  seeded : BitVec 8 := 0
  quaternion : Versor := 0
  gyroBiasRadS : Vector3 := 0
  covarianceDiagonal : Fin 6 → CFloat := 0

namespace AdcsKalmanFilter

/-- `adcs_kalman_filter_init` -/
def init : AdcsKalmanFilter := { initialized := 1,quaternion := ![0,0,0,1] }

/-- `adcs_kalman_filter_reset` -/
def reset (quaternion : Versor) (gyroBiasRadS : Vector3) (f : AdcsKalmanFilter) :
    Except AdcsResult AdcsKalmanFilter :=
  if f.initialized = 0 then .error .notInitialized
  else
    match adcsQuaternionNormalize p quaternion with
    | none => .error .invalidData
    | some normalized =>
      if !adcsValuesAreFinite gyroBiasRadS then .error .invalidData
      else .ok { f with quaternion := normalized,gyroBiasRadS := gyroBiasRadS,seeded := 1 }

/-- The turn of the body in one step. -/
def deltaQuaternion (rate : Vector3) (rateNorm dtS : CFloat) : Versor :=
  let half := CFloat.dyadic 1 1
  -- the threshold is `1.0e-8f`
  if rateNorm.lt (.dyadic 11258999 50) then
    let small axis := p.arith.mul (p.arith.mul half.neg (rate axis)) dtS
    ![small 0,small 1,small 2,1]
  else
    let angle := p.arith.mul rateNorm dtS
    let scale := p.arith.div (lib.sinf (p.arith.mul half angle)).neg rateNorm
    ![p.arith.mul (rate 0) scale,p.arith.mul (rate 1) scale,p.arith.mul (rate 2) scale,
      lib.cosf (p.arith.mul half angle)]

/-- `adcs_kalman_filter_predict` -/
def predict (angularRateRadS : Vector3) (dtS : CFloat) (f : AdcsKalmanFilter) :
    Except AdcsResult AdcsKalmanFilter :=
  if !adcsValuesAreFinite angularRateRadS || !dtS.isfinite || dtS.le 0 then
    .error .invalidArgument
  else if f.initialized = 0 then .error .notInitialized
  else if f.seeded = 0 then .error .unavailable
  else
    let rate : Vector3 := fun i => p.arith.sub (angularRateRadS i) (f.gyroBiasRadS i)
    let rateNorm := adcsVectorNorm p rate
    if !rateNorm.isfinite then .error .invalidData
    else
      let updated :=
        adcsQuaternionMultiply p (deltaQuaternion p lib rate rateNorm dtS) f.quaternion
      match adcsQuaternionNormalize p updated with
      | some quaternion => .ok { f with quaternion := quaternion }
      | none => .error (if !adcsValuesAreFinite updated then .invalidArgument else .invalidData)

/-- `adcs_kalman_filter_get_state`: the result, and what it leaves in the attitude. -/
def getState (timestampUs : BitVec 64) (angularRateRadS : Vector3) (f : AdcsKalmanFilter) :
    AdcsResult × AdcsAttitudeState :=
  if timestampUs = 0 || !adcsValuesAreFinite angularRateRadS then (.invalidArgument,{})
  else if f.initialized = 0 then (.notInitialized,{})
  else if f.seeded = 0 then (.unavailable,{})
  else
    match adcsQuaternionNormalize p f.quaternion with
    | none => (.invalidData,{ timestampUs := timestampUs })
    | some quaternion =>
      (.ok,{
        timestampUs := timestampUs
        quaternion := quaternion
        gyroBiasRadS := f.gyroBiasRadS
        angularRateRadS := fun i => p.arith.sub (angularRateRadS i) (f.gyroBiasRadS i)
        confidence := .dyadic 1 1
        valid := 1 })

/-- `filter_state_is_corrupt` -/
def stateIsCorrupt (f : AdcsKalmanFilter) : Bool :=
  let normSquared := quaternionNormSquared p f.quaternion
  f.initialized == 0 || !adcsValuesAreFinite f.quaternion ||
    !adcsValuesAreFinite f.gyroBiasRadS || !normSquared.isfinite ||
    normSquared.lt (.dyadic 1 2) || (CFloat.dyadic 9 2).lt normSquared ||
    (List.finRange 6).any fun i =>
      !(f.covarianceDiagonal i).isfinite || (f.covarianceDiagonal i).lt 0 ||
        (CFloat.finite 1000000).lt (f.covarianceDiagonal i)

end AdcsKalmanFilter

/-! ### Fix from two directions -/

def rotationMatrixToQuaternion (m : Fin 3 → Fin 3 → CFloat) : Versor :=
  let sum a b := p.arith.add a b
  let difference a b := p.arith.sub a b
  let ratio a scale := p.arith.div a scale
  let scaleOf x := p.arith.mul (p.arith.sqrtf x) (.finite 2)
  let quarter scale := p.arith.mul (.dyadic 1 2) scale
  let trace := sum (sum (m 0 0) (m 1 1)) (m 2 2)
  let quaternion : Versor :=
    if (0 : CFloat).lt trace then
      let scale := scaleOf (sum trace 1)
      ![ratio (difference (m 2 1) (m 1 2)) scale,ratio (difference (m 0 2) (m 2 0)) scale,
        ratio (difference (m 1 0) (m 0 1)) scale,quarter scale]
    else if (m 1 1).lt (m 0 0) && (m 2 2).lt (m 0 0) then
      let scale := scaleOf (difference (difference (sum 1 (m 0 0)) (m 1 1)) (m 2 2))
      ![quarter scale,ratio (sum (m 0 1) (m 1 0)) scale,ratio (sum (m 0 2) (m 2 0)) scale,
        ratio (difference (m 2 1) (m 1 2)) scale]
    else if (m 2 2).lt (m 1 1) then
      let scale := scaleOf (difference (difference (sum 1 (m 1 1)) (m 0 0)) (m 2 2))
      ![ratio (sum (m 0 1) (m 1 0)) scale,quarter scale,ratio (sum (m 1 2) (m 2 1)) scale,
        ratio (difference (m 0 2) (m 2 0)) scale]
    else
      let scale := scaleOf (difference (difference (sum 1 (m 2 2)) (m 0 0)) (m 1 1))
      ![ratio (sum (m 0 2) (m 2 0)) scale,ratio (sum (m 1 2) (m 2 1)) scale,quarter scale,
        ratio (difference (m 1 0) (m 0 1)) scale]
  -- the result of the normalization is not looked at
  (adcsQuaternionNormalize p quaternion).getD quaternion

/-- Three orthogonal unit vectors, the first along `first` and the second across both. -/
def triadBasis (first second : Vector3) : Option (Fin 3 → Vector3) := do
  let along ← adcsVectorNormalize p first
  let across ← adcsVectorNormalize p (adcsVectorCross p along second)
  some ![along,across,adcsVectorCross p along across]

/-- The attitude that takes the two inertial directions to the two in the body, where the code
returns `ADCS_RESULT_OK`. -/
def triadAttitude (firstBody secondBody firstEci secondEci : Vector3) : Option Versor := do
  let bodyBasis ← triadBasis p firstBody secondBody
  let eciBasis ← triadBasis p firstEci secondEci
  let matrix row column := (List.finRange 3).foldl (fun acc basis =>
    p.arith.add acc (p.arith.mul (bodyBasis basis row) (eciBasis basis column))) 0
  some (rotationMatrixToQuaternion p matrix)

/-! ### Estimator -/

structure AdcsAttitudeEstimatorConfig where
  magnetometerMeasurementVariance : CFloat := 0
  sunSensorMeasurementVariance : CFloat := 0
  minimumMagneticFieldT : CFloat := 0
  maximumMagneticFieldT : CFloat := 0
  minimumSunIrradianceWM2 : CFloat := 0
  maximumSampleGapS : CFloat := 0
  maximumConsecutiveRejections : BitVec 32 := 0

def simpleEstimatorMaxFixAgeUs : BitVec 64 := 1000000

/-- An `adcs_attitude_estimator_t`, without two members that are only written. -/
structure AdcsAttitudeEstimator where
  config : AdcsAttitudeEstimatorConfig := {}
  filter : AdcsKalmanFilter := {}
  previousTimestampUs : BitVec 64 := 0
  lastAbsoluteFixUs : BitVec 64 := 0
  consecutiveRejectedUpdates : BitVec 32 := 0
  initialized : BitVec 8 := 0

namespace AdcsAttitudeEstimator

/-- `adcs_attitude_estimator_init` -/
def init (config : AdcsAttitudeEstimatorConfig) : AdcsAttitudeEstimator :=
  if !config.magnetometerMeasurementVariance.isfinite ||
      !config.sunSensorMeasurementVariance.isfinite || !config.minimumMagneticFieldT.isfinite ||
      !config.maximumMagneticFieldT.isfinite || !config.minimumSunIrradianceWM2.isfinite ||
      !config.maximumSampleGapS.isfinite || config.magnetometerMeasurementVariance.le 0 ||
      config.sunSensorMeasurementVariance.le 0 || config.minimumMagneticFieldT.le 0 ||
      config.maximumMagneticFieldT.le config.minimumMagneticFieldT ||
      config.maximumSampleGapS.le 0 || config.maximumConsecutiveRejections = 0 then
    {}
  else { config := config,filter := .init,initialized := 1 }

/-- `adcs_attitude_estimator_reset` -/
def reset (quaternion : Versor) (e : AdcsAttitudeEstimator) : AdcsResult × AdcsAttitudeEstimator :=
  if e.initialized = 0 then (.notInitialized,e)
  else
    match e.filter.reset p quaternion 0 with
    | .error result => (result,e)
    | .ok filter =>
      (.ok,{ e with
        filter := filter
        previousTimestampUs := 0
        lastAbsoluteFixUs := 0
        consecutiveRejectedUpdates := 0 })

/-- The field is one that may be used, and its direction is known. -/
def magneticAvailable (config : AdcsAttitudeEstimatorConfig) (sensors : AdcsSensorPacket)
    (references : AdcsReferenceVectors) : Bool :=
  let magneticNorm := adcsVectorNorm p sensors.magneticFieldT
  sensors.validMask &&& adcsSensorValidMagnetometer != 0 &&
    references.validMask &&& adcsReferenceValidMagneticField != 0 && magneticNorm.isfinite &&
    config.minimumMagneticFieldT.le magneticNorm && magneticNorm.le config.maximumMagneticFieldT

def sunAvailable (config : AdcsAttitudeEstimatorConfig) (sensors : AdcsSensorPacket)
    (references : AdcsReferenceVectors) : Bool :=
  sensors.validMask &&& adcsSensorValidSun != 0 &&
    references.validMask &&& adcsReferenceValidSun != 0 &&
    config.minimumSunIrradianceWM2.le sensors.sunIrradianceWM2

/-- The filter set to the attitude that the two directions give, if they give one. -/
def triadFix (sensors : AdcsSensorPacket) (references : AdcsReferenceVectors)
    (e : AdcsAttitudeEstimator) : Option AdcsKalmanFilter :=
  if magneticAvailable p e.config sensors references &&
      sunAvailable e.config sensors references then
    (triadAttitude p sensors.sunVectorBody sensors.magneticFieldT references.sunEciUnit
      references.magneticFieldEciT).bind fun quaternion => (e.filter.reset p quaternion 0).toOption
  else none

/-- The time since the previous sample, in seconds. -/
def sampleGapS (sensors : AdcsSensorPacket) (e : AdcsAttitudeEstimator) : CFloat :=
  p.arith.div (lib.ofUint64 (sensors.timestampUs-e.previousTimestampUs)) (.finite 1000000)

/-- The part of the update up to the gyroscope's step: after too long a gap the desktop build
forgets the attitude, and the board takes the longest step it trusts. -/
def propagate (sensors : AdcsSensorPacket) (e : AdcsAttitudeEstimator) :
    AdcsAttitudeEstimator × Except AdcsResult Unit :=
  if e.previousTimestampUs = 0 then (e,.ok ())
  else
    let gapS := e.sampleGapS p lib sensors
    let long := e.config.maximumSampleGapS.lt gapS
    let dtS := if p.stm32 && long then e.config.maximumSampleGapS else gapS
    let e :=
      if !p.stm32 && long then { e with filter.seeded := 0,lastAbsoluteFixUs := 0 } else e
    if e.filter.seeded ≠ 0 then
      match e.filter.predict p lib sensors.angularRateRadS dtS with
      | .ok filter => ({ e with filter := filter },.ok ())
      | .error result => (e,.error result)
    else (e,.ok ())

/-- The part of the update that takes a fix, or counts that there was none. -/
def correct (sensors : AdcsSensorPacket) (references : AdcsReferenceVectors)
    (e : AdcsAttitudeEstimator) : AdcsAttitudeEstimator :=
  match e.triadFix p sensors references with
  | some filter =>
    { e with
      filter := filter
      lastAbsoluteFixUs := sensors.timestampUs
      consecutiveRejectedUpdates := 0 }
  | none =>
    { e with
      consecutiveRejectedUpdates :=
        if e.consecutiveRejectedUpdates = -1 then e.consecutiveRejectedUpdates
        else e.consecutiveRejectedUpdates+1 }

/-- The last fix is missing or too old, in time or in updates. -/
def fixIsOld (sensors : AdcsSensorPacket) (e : AdcsAttitudeEstimator) : Bool :=
  e.lastAbsoluteFixUs == 0 ||
    decide (simpleEstimatorMaxFixAgeUs < sensors.timestampUs-e.lastAbsoluteFixUs) ||
    decide (e.config.maximumConsecutiveRejections < e.consecutiveRejectedUpdates)

/-- The result of the update, and the attitude that it leaves. -/
def publish (sensors : AdcsSensorPacket) (e : AdcsAttitudeEstimator) :
    AdcsResult × AdcsAttitudeState :=
  match e.filter.getState p sensors.timestampUs sensors.angularRateRadS with
  | (.unavailable,attitude) =>
    (.invalidData,{ attitude with
      timestampUs := sensors.timestampUs
      quaternion := Function.update attitude.quaternion 3 1
      valid := 0 })
  | (.ok,attitude) =>
    if p.stm32 then (.ok,{ attitude with valid := 1,confidence := .dyadic 1 1 })
    else if e.fixIsOld sensors then (.invalidData,{ attitude with valid := 0,confidence := 0 })
    else (.ok,attitude)
  | (result,attitude) =>
    (if e.filter.stateIsCorrupt p then .outOfRange else result,attitude)

/-- A sample that the update refuses, with the result. -/
def refusal (sensors : AdcsSensorPacket) (e : AdcsAttitudeEstimator) : Option AdcsResult :=
  if e.initialized = 0 || sensors.timestampUs = 0 ||
      sensors.validMask &&& adcsSensorValidGyroscope = 0 ||
      !adcsValuesAreFinite sensors.angularRateRadS then
    some .invalidArgument
  else if e.previousTimestampUs ≠ 0 ∧ sensors.timestampUs ≤ e.previousTimestampUs then
    some .invalidData
  else none

/-- `adcs_attitude_estimator_update` -/
def update (sensors : AdcsSensorPacket) (references : AdcsReferenceVectors)
    (e : AdcsAttitudeEstimator) : AdcsAttitudeEstimator × AdcsResult × AdcsAttitudeState :=
  match e.refusal sensors with
  | some result => (e,result,{})
  | none =>
    let r := e.propagate p lib sensors
    let e := { r.1 with previousTimestampUs := sensors.timestampUs }
    match r.2 with
    | .error result => (e,if e.filter.stateIsCorrupt p then .outOfRange else result,{})
    | .ok _ =>
      let e := e.correct p sensors references
      (e,e.publish p sensors)

end AdcsAttitudeEstimator

end

end FlightSoftware.Adcs
