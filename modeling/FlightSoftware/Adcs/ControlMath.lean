import FlightSoftware.Adcs.Messages

/-!
# Vectors, quaternions and guidance targets

The arithmetic that the mode manager and the fault checks rest on. It is written
over the operations of a target, and nothing about rounding is assumed.
-/

namespace FlightSoftware.Adcs

/-- What the code depends on outside itself: the arithmetic of the target, and whether it
is built for the board (`ADCS_STM32`) or for the desktop simulation. -/
structure Platform where
  arith : FloatArith
  stm32 : Bool

variable (p : Platform)

/-- `1.0e-9F` -/
def adcsMathEpsilon : CFloat := .dyadic 9007199 53
/-- `1.0e-5F` -/
def guidanceOppositeVectorEpsilon : CFloat := .dyadic 2748779 38

def adcsValuesAreFinite {n : ℕ} (values : Fin n → CFloat) : Bool :=
  decide (∀ i,(values i).isfinite = true)

def adcsClampf (value minimum maximum : CFloat) : CFloat :=
  if value.isnan || minimum.isnan || maximum.isnan || maximum.lt minimum then value
  else if value.lt minimum then minimum
  else if maximum.lt value then maximum
  else value

def adcsVectorNorm (v : Vector3) : CFloat :=
  if adcsValuesAreFinite v then
    p.arith.sqrtf (p.arith.add (p.arith.add (p.arith.mul (v 0) (v 0)) (p.arith.mul (v 1) (v 1)))
      (p.arith.mul (v 2) (v 2)))
  else .nan

/-- The unit vector along the input, where the code returns `ADCS_RESULT_OK`. -/
def adcsVectorNormalize (input : Vector3) : Option Vector3 :=
  let norm := adcsVectorNorm p input
  if !norm.isfinite || norm.lt adcsMathEpsilon then none
  else some fun axis => p.arith.div (input axis) norm

def adcsVectorCross (left right : Vector3) : Vector3 :=
  ![p.arith.sub (p.arith.mul (left 1) (right 2)) (p.arith.mul (left 2) (right 1)),
    p.arith.sub (p.arith.mul (left 2) (right 0)) (p.arith.mul (left 0) (right 2)),
    p.arith.sub (p.arith.mul (left 0) (right 1)) (p.arith.mul (left 1) (right 0))]

/-- The sum of squares that a loop over the four components leaves. -/
def quaternionNormSquared (q : Versor) : CFloat :=
  (List.finRange 4).foldl (fun acc i => p.arith.add acc (p.arith.mul (q i) (q i))) 0

/-- The unit quaternion with `w` not negative, where the code returns `ADCS_RESULT_OK`. -/
def adcsQuaternionNormalize (input : Versor) : Option Versor :=
  if !adcsValuesAreFinite input then none
  else
    let normSquared := quaternionNormSquared p input
    if !normSquared.isfinite || normSquared.lt adcsMathEpsilon then none
    else
      let inverseNorm := p.arith.div 1 (p.arith.sqrtf normSquared)
      let normalized : Versor := fun i => p.arith.mul (input i) inverseNorm
      some (if (normalized 3).lt 0 then fun i => (normalized i).neg else normalized)

/-! ### Guidance targets -/

def AdcsMode.isValid : AdcsMode → Bool
  | .unnamed _ => false
  | _ => true

/-- The modes below `ADCS_MODE_COUNT`. -/
theorem AdcsMode.isValid_iff {mode : AdcsMode} : mode.isValid = true ↔ mode.toNat < 9 := by
  cases mode <;> simp [isValid,toNat]

def quaternionBetweenVectors (source destination : Vector3) : Option Versor := do
  let fromUnit ← adcsVectorNormalize p source
  let toUnit ← adcsVectorNormalize p destination
  let sum := (List.finRange 3).foldl
    (fun acc axis => p.arith.add acc (p.arith.mul (fromUnit axis) (toUnit axis))) 0
  let dot := adcsClampf sum (.finite (-1)) 1
  if (p.arith.sub 1 guidanceOppositeVectorEpsilon).lt dot then
    adcsQuaternionNormalize p ![0,0,0,1]
  else if dot.lt (p.arith.add (.finite (-1)) guidanceOppositeVectorEpsilon) then
    -- opposite vectors: turn about any axis across the first one; the threshold is `0.8F`
    let basis : Vector3 :=
      if (CFloat.dyadic 13421773 24).lt (fromUnit 0).fabsf then ![0,1,0] else ![1,0,0]
    let cross ← adcsVectorNormalize p (adcsVectorCross p fromUnit basis)
    adcsQuaternionNormalize p ![cross 0,cross 1,cross 2,0]
  else
    let cross := adcsVectorCross p fromUnit toUnit
    adcsQuaternionNormalize p ![cross 0,cross 1,cross 2,p.arith.add 1 dot]

def adcsGuidanceTargetFromVector (mode : AdcsMode) (bodyAxis inertialDirection : Vector3)
    (maximumRateRadS : CFloat) : Option AdcsGuidanceTarget :=
  if !mode.isValid || !maximumRateRadS.isfinite || maximumRateRadS.le 0 then none
  else do
    let pointingAxisBody ← adcsVectorNormalize p bodyAxis
    let targetDirectionEci ← adcsVectorNormalize p inertialDirection
    let targetQuaternion ← quaternionBetweenVectors p targetDirectionEci pointingAxisBody
    some ⟨mode,targetQuaternion,pointingAxisBody,targetDirectionEci,maximumRateRadS⟩

def adcsGuidanceTargetFromAttitude (mode : AdcsMode) (target : Versor)
    (maximumRateRadS : CFloat) : Option AdcsGuidanceTarget :=
  if !mode.isValid || !maximumRateRadS.isfinite || maximumRateRadS.le 0 then none
  else do
    let targetQuaternion ← adcsQuaternionNormalize p target
    some ⟨mode,targetQuaternion,![1,0,0],0,maximumRateRadS⟩

/-! ### Rotations -/

def adcsQuaternionMultiply (left right : Versor) : Versor :=
  let mul i j := p.arith.mul (left i) (right j)
  ![p.arith.sub (p.arith.add (p.arith.add (mul 3 0) (mul 0 3)) (mul 1 2)) (mul 2 1),
    p.arith.add (p.arith.add (p.arith.sub (mul 3 1) (mul 0 2)) (mul 1 3)) (mul 2 0),
    p.arith.add (p.arith.sub (p.arith.add (mul 3 2) (mul 0 1)) (mul 1 0)) (mul 2 3),
    p.arith.sub (p.arith.sub (p.arith.sub (mul 3 3) (mul 0 0)) (mul 1 1)) (mul 2 2)]

/-- The functions of `<math.h>` that the control laws call, as the target rounds them. -/
structure MathFunctions where
  atan2f : CFloat → CFloat → CFloat
  acosf : CFloat → CFloat

/-- The rotation vector from the target to the current attitude, where the code returns
`ADCS_RESULT_OK`. -/
def adcsQuaternionErrorVector (lib : MathFunctions) (current target : Versor) : Option Vector3 := do
  let currentUnit ← adcsQuaternionNormalize p current
  let targetUnit ← adcsQuaternionNormalize p target
  let currentConjugate : Versor :=
    ![(currentUnit 0).neg,(currentUnit 1).neg,(currentUnit 2).neg,currentUnit 3]
  let product := adcsQuaternionMultiply p targetUnit currentConjugate
  let mappingError : Versor := if (product 3).lt 0 then fun i => (product i).neg else product
  let vectorNorm := p.arith.sqrtf (p.arith.add (p.arith.add
    (p.arith.mul (mappingError 0) (mappingError 0))
    (p.arith.mul (mappingError 1) (mappingError 1)))
    (p.arith.mul (mappingError 2) (mappingError 2)))
  if vectorNorm.lt adcsMathEpsilon then some 0
  else
    let angle := p.arith.mul (.finite 2) (lib.atan2f vectorNorm (adcsClampf (mappingError 3) 0 1))
    some fun axis =>
      p.arith.div (p.arith.mul (mappingError axis.castSucc).neg angle) vectorNorm

end FlightSoftware.Adcs
