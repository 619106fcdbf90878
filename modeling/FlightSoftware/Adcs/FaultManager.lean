import FlightSoftware.Adcs.ControlMath

/-!
# Fault latch

The word of latched faults with the operations on it, and the check of the latest
sensor, attitude and control data that says which faults are present.
-/

namespace FlightSoftware.Adcs

def adcsFaultNone : BitVec 32 := 0
def adcsFaultSensorStale : BitVec 32 := 1 <<< 0
def adcsFaultSensorRange : BitVec 32 := 1 <<< 1
def adcsFaultAttitudeInvalid : BitVec 32 := 1 <<< 2
def adcsFaultExcessiveRate : BitVec 32 := 1 <<< 3
def adcsFaultActuator : BitVec 32 := 1 <<< 4
def adcsFaultTaskDeadline : BitVec 32 := 1 <<< 5

def adcsFaultAll : BitVec 32 :=
  adcsFaultSensorStale ||| adcsFaultSensorRange ||| adcsFaultAttitudeInvalid |||
    adcsFaultExcessiveRate ||| adcsFaultActuator ||| adcsFaultTaskDeadline

/-- The faults that force SAFE: all but an invalid attitude. -/
def criticalFaults : BitVec 32 := adcsFaultAll &&& ~~~adcsFaultAttitudeInvalid

structure AdcsFaultConfig where
  maximumRateRadS : CFloat
  minimumMagneticFieldT : CFloat
  maximumMagneticFieldT : CFloat
  sensorStaleAfterUs : BitVec 64
  estimateStaleAfterUs : BitVec 64

structure FaultManager where
  faultConfig : AdcsFaultConfig
  activeFaults : BitVec 32

namespace FaultManager

/-- The rates and fields are `0.75F`, `1.0e-6F` and `1.0e-3F`. -/
def defaultConfig : AdcsFaultConfig where
  maximumRateRadS := .dyadic 3 2
  minimumMagneticFieldT := .dyadic 8796093 43
  maximumMagneticFieldT := .dyadic 8589935 33
  sensorStaleAfterUs := 500000
  estimateStaleAfterUs := 500000

def init : FaultManager := ⟨defaultConfig,adcsFaultNone⟩

def configure (config : AdcsFaultConfig) (f : FaultManager) : FaultManager :=
  if !config.maximumRateRadS.isfinite || !config.minimumMagneticFieldT.isfinite ||
      !config.maximumMagneticFieldT.isfinite || config.maximumRateRadS.le 0 ||
      config.minimumMagneticFieldT.le 0 ||
      config.maximumMagneticFieldT.le config.minimumMagneticFieldT ||
      config.sensorStaleAfterUs == 0 || config.estimateStaleAfterUs == 0 then f
  else { f with faultConfig := config }

def report (fault : BitVec 32) (f : FaultManager) : FaultManager :=
  { f with activeFaults := f.activeFaults ||| fault }

def getActive (f : FaultManager) : BitVec 32 := f.activeFaults

def clear (faultMask : BitVec 32) (f : FaultManager) : FaultManager :=
  { f with activeFaults := f.activeFaults &&& ~~~faultMask }

/-! ### The check of the latest data -/

variable (p : Platform)

/-- The fault bits of a sensor packet. -/
def sensorFaults (config : AdcsFaultConfig) (sensors : AdcsSensorPacket) (nowUs : BitVec 64) :
    BitVec 32 :=
  if sensors.timestampUs = 0 ∨ nowUs < sensors.timestampUs ∨
      config.sensorStaleAfterUs < nowUs-sensors.timestampUs then adcsFaultSensorStale
  else
    let required := adcsSensorValidGyroscope ||| adcsSensorValidMagnetometer
    if sensors.validMask &&& required ≠ required ∨
        adcsValuesAreFinite sensors.angularRateRadS = false ∨
        adcsValuesAreFinite sensors.magneticFieldT = false then adcsFaultSensorRange
    else
      let magneticNorm := adcsVectorNorm p sensors.magneticFieldT
      let rateNorm := adcsVectorNorm p sensors.angularRateRadS
      (if !magneticNorm.isfinite || magneticNorm.lt config.minimumMagneticFieldT ||
          config.maximumMagneticFieldT.lt magneticNorm then adcsFaultSensorRange
        else adcsFaultNone) |||
      (if !rateNorm.isfinite || config.maximumRateRadS.lt rateNorm then adcsFaultExcessiveRate
        else adcsFaultNone)

/-- The fault bit of an attitude estimate. The last threshold is `0.05F`. -/
def attitudeFaults (config : AdcsFaultConfig) (attitude : AdcsAttitudeState)
    (nowUs : BitVec 64) : BitVec 32 :=
  if attitude.valid = 0 ∨ attitude.timestampUs = 0 ∨ nowUs < attitude.timestampUs ∨
      config.estimateStaleAfterUs < nowUs-attitude.timestampUs ∨
      adcsValuesAreFinite attitude.quaternion = false ∨
      adcsValuesAreFinite attitude.angularRateRadS = false then adcsFaultAttitudeInvalid
  else
    let quaternionNorm := p.arith.sqrtf (quaternionNormSquared p attitude.quaternion)
    if !quaternionNorm.isfinite ||
        (CFloat.dyadic 13421773 28).lt (p.arith.sub quaternionNorm 1).fabsf ||
        !attitude.confidence.isfinite || attitude.confidence.lt 0 ||
        (1 : CFloat).lt attitude.confidence then adcsFaultAttitudeInvalid
    else adcsFaultNone

/-- The fault bit of a control output. A disabled output is not looked at. -/
def controlFaults (control : AdcsControlOutput) : BitVec 32 :=
  if control.actuatorsEnabled ≠ 0 ∧
      (adcsValuesAreFinite control.requestedTorqueNm = false ∨
        adcsValuesAreFinite control.requestedDipoleAM2 = false ∨
        adcsValuesAreFinite control.achievableTorqueNm = false ∨
        ∃ axis,(1 : CFloat).lt (control.requestedDipoleAM2 axis).fabsf = true) then
    adcsFaultActuator
  else adcsFaultNone

/-- `fault_management_evaluate_adcs` -/
def evaluateAdcs (f : FaultManager) (sensors : AdcsSensorPacket) (attitude : AdcsAttitudeState)
    (control : AdcsControlOutput) (nowUs : BitVec 64) : BitVec 32 :=
  sensorFaults p f.faultConfig sensors nowUs ||| attitudeFaults p f.faultConfig attitude nowUs |||
    controlFaults control

end FaultManager

/-- One critical bit is enough for an update to see a critical fault. -/
theorem critical_ne_zero_of_getLsbD {w : BitVec 32} {i : ℕ} (hw : w.getLsbD i = true)
    (hi : criticalFaults.getLsbD i = true) : w &&& criticalFaults ≠ 0 := by
  intro h
  have hbit := congrArg (fun v => v.getLsbD i) h
  simp [hw,hi] at hbit

end FlightSoftware.Adcs
