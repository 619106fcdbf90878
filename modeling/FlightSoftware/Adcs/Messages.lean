import FlightSoftware.Lib.CFloat

/-!
# Internal messages

The structures that pass between the sensor, estimation, control and manager
layers of the attitude controller. Arrays are functions of their index, and the
integers have the widths of the source.
-/

namespace FlightSoftware.Adcs

abbrev Vector3 := Fin 3 → CFloat
/-- The components `x`, `y`, `z`, `w` of a quaternion. -/
abbrev Versor := Fin 4 → CFloat

inductive AdcsResult where
  | ok
  | invalidArgument
  | notInitialized
  | invalidData
  | outOfRange
  | unavailable
  deriving DecidableEq

/-- An `adcs_mode_t`. A C enumeration also holds values without a name: `unnamed k` is the
value `ADCS_MODE_COUNT + k`. -/
inductive AdcsMode where
  | boot
  | safe
  | detumble
  | sunAcquisition
  | sunPointing
  | earthPointing
  | slewing
  | targetPointing
  | science
  | unnamed (excess : ℕ)
  deriving DecidableEq

/-- The mode whose value is `n`. -/
def AdcsMode.ofNat : ℕ → AdcsMode
  | 0 => .boot
  | 1 => .safe
  | 2 => .detumble
  | 3 => .sunAcquisition
  | 4 => .sunPointing
  | 5 => .earthPointing
  | 6 => .slewing
  | 7 => .targetPointing
  | 8 => .science
  | n+9 => .unnamed n

/-- The value of the mode. -/
def AdcsMode.toNat : AdcsMode → ℕ
  | .boot => 0
  | .safe => 1
  | .detumble => 2
  | .sunAcquisition => 3
  | .sunPointing => 4
  | .earthPointing => 5
  | .slewing => 6
  | .targetPointing => 7
  | .science => 8
  | .unnamed excess => excess + 9

theorem AdcsMode.ofNat_toNat (mode : AdcsMode) : AdcsMode.ofNat mode.toNat = mode := by
  cases mode <;> rfl

theorem AdcsMode.toNat_injective : Function.Injective AdcsMode.toNat :=
  Function.LeftInverse.injective AdcsMode.ofNat_toNat

def adcsSensorValidGyroscope : BitVec 32 := 1 <<< 0
def adcsSensorValidMagnetometer : BitVec 32 := 1 <<< 2
def adcsSensorValidSun : BitVec 32 := 1 <<< 3

def adcsReferenceValidSun : BitVec 32 := 1 <<< 0
def adcsReferenceValidNadir : BitVec 32 := 1 <<< 2

structure AdcsSensorPacket where
  sequence : BitVec 32 := 0
  timestampUs : BitVec 64 := 0
  angularRateRadS : Vector3 := 0
  accelerationMS2 : Vector3 := 0
  magneticFieldT : Vector3 := 0
  sunVectorBody : Vector3 := 0
  sunIrradianceWM2 : CFloat := 0
  validMask : BitVec 32 := 0

structure AdcsOrbitState where
  unixTimeUs : BitVec 64 := 0
  positionEciM : Vector3 := 0
  velocityEciMS : Vector3 := 0
  valid : BitVec 8 := 0

structure AdcsReferenceVectors where
  unixTimeUs : BitVec 64 := 0
  sunEciUnit : Vector3 := 0
  magneticFieldEciT : Vector3 := 0
  nadirEciUnit : Vector3 := 0
  validMask : BitVec 32 := 0

structure AdcsAttitudeState where
  timestampUs : BitVec 64 := 0
  quaternion : Versor := 0
  angularRateRadS : Vector3 := 0
  gyroBiasRadS : Vector3 := 0
  covarianceDiagonal : Fin 6 → CFloat := 0
  confidence : CFloat := 0
  valid : BitVec 8 := 0

structure AdcsGuidanceTarget where
  mode : AdcsMode := .boot
  targetQuaternion : Versor := 0
  pointingAxisBody : Vector3 := 0
  targetDirectionEci : Vector3 := 0
  maximumRateRadS : CFloat := 0

structure AdcsControlOutput where
  timestampUs : BitVec 64 := 0
  requestedTorqueNm : Vector3 := 0
  requestedDipoleAM2 : Vector3 := 0
  achievableTorqueNm : Vector3 := 0
  pointingErrorRad : CFloat := 0
  sourceMode : AdcsMode := .boot
  pointingErrorValid : BitVec 8 := 0
  actuatorsEnabled : BitVec 8 := 0
  saturated : BitVec 8 := 0
  targetSettled : BitVec 8 := 0

structure AdcsHealth where
  timestampUs : BitVec 64 := 0
  activeFaults : BitVec 32 := 0
  rejectedCommands : BitVec 32 := 0
  droppedMessages : BitVec 32 := 0
  estimatorResets : BitVec 32 := 0
  controllerErrors : BitVec 32 := 0
  modeTransitions : BitVec 32 := 0
  minimumStackMarginWords : CFloat := 0
  sensorsHealthy : BitVec 8 := 0
  estimatorHealthy : BitVec 8 := 0
  actuatorsHealthy : BitVec 8 := 0

/-- A truth value of C as it is stored in a `uint8_t`. -/
def flag (b : Bool) : BitVec 8 := if b then 1 else 0

end FlightSoftware.Adcs
