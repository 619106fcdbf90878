import Mathlib

/-!
# Proportional-integral control with conditional integration

A controller whose output is limited to the unit interval. A step adds its error to the
integral only where the output is inside the interval, and an error that is not positive
clears it. So the integral alone never saturates the output, whatever the errors and the
lengths of the steps were: it does not wind up.
-/

namespace FlightSoftware.AntiWindup

/-- The gains and the integral, which is not negative and alone asks for less than all. -/
structure Integrator (K : Type*) [Field K] [LinearOrder K] [IsStrictOrderedRing K] where
  proportionalGain : K
  integralGain : K
  integral : K
  proportional_nonneg : 0 ≤ proportionalGain
  gain_nonneg : 0 ≤ integralGain
  integral_nonneg : 0 ≤ integral
  unsaturated : integralGain * integral < 1

namespace Integrator

variable {K : Type*} [Field K] [LinearOrder K] [IsStrictOrderedRing K] (a : Integrator K)

/-- Gains with nothing integrated. -/
def ofGains (proportionalGain integralGain : K) (hproportional : 0 ≤ proportionalGain)
    (hgain : 0 ≤ integralGain) : Integrator K where
  proportionalGain := proportionalGain
  integralGain := integralGain
  integral := 0
  proportional_nonneg := hproportional
  gain_nonneg := hgain
  integral_nonneg := le_rfl
  unsaturated := by
    rw [mul_zero]
    exact zero_lt_one

def cleared : Integrator K :=
  ofGains a.proportionalGain a.integralGain a.proportional_nonneg a.gain_nonneg

/-- The integral with the error of a step. -/
def candidate (error elapsed : K) : K := a.integral + error * elapsed

/-- The output before it is limited. -/
def output (error elapsed : K) : K :=
  a.proportionalGain * error + a.integralGain * a.candidate error elapsed

/-- The output of a step: none where the error is not positive. -/
def power (error elapsed : K) : K :=
  if error ≤ 0 then 0 else max 0 (min 1 (a.output error elapsed))

theorem power_nonneg (error elapsed : K) : 0 ≤ a.power error elapsed := by
  rw [power]
  split
  · exact le_rfl
  · exact le_max_left _ _

theorem power_le_one (error elapsed : K) : a.power error elapsed ≤ 1 := by
  rw [power]
  split
  · exact zero_le_one
  · exact max_le zero_le_one (min_le_left _ _)

theorem power_of_nonpos {error : K} (h : error ≤ 0) (elapsed : K) : a.power error elapsed = 0 :=
  if_pos h

theorem candidate_nonneg {error elapsed : K} (herror : 0 < error) (helapsed : 0 < elapsed) :
    0 ≤ a.candidate error elapsed :=
  add_nonneg a.integral_nonneg (mul_pos herror helapsed).le

/-- An output below one leaves the integral alone below one as well. -/
theorem candidate_unsaturated {error elapsed : K} (herror : 0 < error)
    (houtput : a.output error elapsed < 1) :
    a.integralGain * a.candidate error elapsed < 1 := by
  have hproportional : 0 ≤ a.proportionalGain * error :=
    mul_nonneg a.proportional_nonneg herror.le
  exact (le_add_of_nonneg_left hproportional).trans_lt houtput

/-- A step that is not saturated and has a positive error. -/
def integrate {error elapsed : K} (herror : 0 < error) (helapsed : 0 < elapsed)
    (houtput : a.output error elapsed < 1) : Integrator K where
  proportionalGain := a.proportionalGain
  integralGain := a.integralGain
  integral := a.candidate error elapsed
  proportional_nonneg := a.proportional_nonneg
  gain_nonneg := a.gain_nonneg
  integral_nonneg := a.candidate_nonneg herror helapsed
  unsaturated := a.candidate_unsaturated herror houtput

/-- A step of the controller: the integral changes only where the output is strictly between the
limits, or is cleared. -/
def step (error elapsed : K) (helapsed : 0 < elapsed) : Integrator K :=
  if herror : error ≤ 0 then a.cleared
  else if houtput : 1 ≤ a.output error elapsed then a
  else if a.output error elapsed ≤ 0 then a
  else a.integrate (not_le.mp herror) helapsed (not_le.mp houtput)

variable {a}

theorem step_of_nonpos {error elapsed : K} (h : error ≤ 0) (helapsed : 0 < elapsed) :
    a.step error elapsed helapsed = a.cleared := dif_pos h

theorem step_of_saturated {error elapsed : K} (herror : ¬error ≤ 0) (helapsed : 0 < elapsed)
    (h : 1 ≤ a.output error elapsed ∨ a.output error elapsed ≤ 0) :
    a.step error elapsed helapsed = a := by
  rw [step,dif_neg herror]
  split
  · rfl
  · next houtput => rw [if_pos (h.resolve_left houtput)]

theorem step_of_unsaturated {error elapsed : K} (herror : ¬error ≤ 0) (helapsed : 0 < elapsed)
    (hone : ¬1 ≤ a.output error elapsed) (hzero : ¬a.output error elapsed ≤ 0) :
    a.step error elapsed helapsed =
      a.integrate (not_le.mp herror) helapsed (not_le.mp hone) := by
  rw [step,dif_neg herror,dif_neg hone,if_neg hzero]

theorem power_of_one_le {error elapsed : K} (herror : ¬error ≤ 0)
    (h : 1 ≤ a.output error elapsed) : a.power error elapsed = 1 := by
  rw [power,if_neg herror,min_eq_left h,max_eq_right zero_le_one]

theorem power_of_output_nonpos {error elapsed : K} (h : a.output error elapsed ≤ 0) :
    a.power error elapsed = 0 := by
  rw [power]
  split
  · rfl
  · rw [min_eq_right (h.trans zero_le_one),max_eq_left h]

theorem power_of_unsaturated {error elapsed : K} (herror : ¬error ≤ 0)
    (hone : ¬1 ≤ a.output error elapsed) (hzero : ¬a.output error elapsed ≤ 0) :
    a.power error elapsed = a.output error elapsed := by
  rw [power,if_neg herror,min_eq_right (not_le.mp hone).le,max_eq_right (not_le.mp hzero).le]

end Integrator

end FlightSoftware.AntiWindup
