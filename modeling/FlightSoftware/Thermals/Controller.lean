import FlightSoftware.Lib.AntiWindup
import FlightSoftware.Lib.CFloat

/-!
# The heater controller

`prop_int_controller.c`. Without rounding it is a proportional-integral controller with
conditional integration, for any sequence of calls: an update that fails leaves the
integral as it is, and every other one is a step of the controller.
-/

namespace FlightSoftware.Thermals
open AntiWindup

/-- The static variables. -/
structure PropIntController where
  proportionalGain : CFloat := 0
  integralGain : CFloat := 0
  integralError : CFloat := 0
  initialized : Bool := false

/-- What an update returns, and what it writes behind the pointer that it is given. -/
structure ControllerUpdate where
  ok : Bool
  powerFraction : Option CFloat
  controller : PropIntController

namespace PropIntController

/-- `prop_int_controller_init` -/
def init (proportionalGain integralGain : CFloat) (c : PropIntController) :
    Bool × PropIntController :=
  if !proportionalGain.isfinite || !integralGain.isfinite || proportionalGain.lt 0 ||
      integralGain.lt 0 then (false,{ c with initialized := false })
  else (true,⟨proportionalGain,integralGain,0,true⟩)

/-- `prop_int_controller_reset` -/
def reset (c : PropIntController) : PropIntController := { c with integralError := 0 }

/-- `prop_int_controller_update`; `out` says whether there is a place for the power. -/
def update (arith : FloatArith) (target current elapsed : CFloat) (out : Bool)
    (c : PropIntController) : ControllerUpdate :=
  if !out then ⟨false,none,c⟩
  else if !c.initialized || !target.isfinite || !current.isfinite || !elapsed.isfinite ||
      elapsed.le 0 then ⟨false,some 0,c⟩
  else
    let errorC := arith.sub target current
    let proportionalOutput := arith.mul c.proportionalGain errorC
    let candidateIntegralError := arith.add c.integralError (arith.mul errorC elapsed)
    let candidateOutput :=
      arith.add proportionalOutput (arith.mul c.integralGain candidateIntegralError)
    if errorC.le 0 then ⟨true,some 0,c.reset⟩
    else if (1 : CFloat).le candidateOutput then ⟨true,some 1,c⟩
    else if candidateOutput.le 0 then ⟨true,some 0,c⟩
    else ⟨true,some candidateOutput,{ c with integralError := candidateIntegralError }⟩

end PropIntController

inductive ControllerCall where
  | init (proportionalGain integralGain : CFloat)
  | reset
  | update (target current elapsed : CFloat) (out : Bool)

namespace PropIntController

def call (arith : FloatArith) (c : PropIntController) : ControllerCall → PropIntController
  | .init proportionalGain integralGain => (c.init proportionalGain integralGain).2
  | .reset => c.reset
  | .update target current elapsed out => (c.update arith target current elapsed out).controller

/-- The controller after a list of calls from the start of the program. -/
def after (arith : FloatArith) (calls : List ControllerCall) : PropIntController :=
  calls.foldl (call arith) {}

/-! ### The calls without rounding -/

/-- The variables are those of a controller that has not wound up. -/
structure Represents (c : PropIntController) (a : Integrator ℚ) : Prop where
  proportionalGain : c.proportionalGain = .finite a.proportionalGain
  integralGain : c.integralGain = .finite a.integralGain
  integralError : c.integralError = .finite a.integral

variable {c : PropIntController} {a : Integrator ℚ}

theorem represents_start : Represents {} (.ofGains 0 0 le_rfl le_rfl) := ⟨rfl,rfl,rfl⟩

theorem Represents.reset (h : c.Represents a) : c.reset.Represents a.cleared :=
  ⟨h.proportionalGain,h.integralGain,rfl⟩

theorem Represents.init (h : c.Represents a) (proportionalGain integralGain : CFloat) :
    ∃ a',(c.init proportionalGain integralGain).2.Represents a' := by
  rw [PropIntController.init]
  split_ifs with hrejected
  · exact ⟨a,h.proportionalGain,h.integralGain,h.integralError⟩
  · simp only [Bool.or_eq_true,Bool.not_eq_true',not_or,Bool.not_eq_false,
      Bool.not_eq_true] at hrejected
    obtain ⟨⟨⟨hkp,hki⟩,hkp0⟩,hki0⟩ := hrejected
    obtain ⟨kp,rfl⟩ := CFloat.isfinite_iff.mp hkp
    obtain ⟨ki,rfl⟩ := CFloat.isfinite_iff.mp hki
    have hkp' : 0 ≤ kp := not_lt.mp (of_decide_eq_false hkp0)
    have hki' : 0 ≤ ki := not_lt.mp (of_decide_eq_false hki0)
    exact ⟨.ofGains kp ki hkp' hki',rfl,rfl,rfl⟩

/-- An update either fails, and then changes nothing and asks for no power, or is a step. -/
inductive Updated (a : Integrator ℚ) (c : PropIntController) (target current : CFloat)
    (r : ControllerUpdate) : Prop
  | fails (hok : r.ok = false) (hpower : ∀ x ∈ r.powerFraction,x = 0) (hsame : r.controller = c)
  | steps (t x dt : ℚ) (hdt : 0 < dt) (htarget : target = .finite t)
      (hcurrent : current = .finite x)
      (hok : r.ok = true) (hpower : r.powerFraction = some (.finite (a.power (t-x) dt)))
      (hcontroller : r.controller.Represents (a.step (t-x) dt hdt))

theorem update_updated (h : c.Represents a) (target current elapsed : CFloat) (out : Bool) :
    Updated a c target current (c.update .exact target current elapsed out) := by
  rw [update]
  split_ifs with hout hinvalid
  · exact .fails rfl (fun x hx => absurd hx (Option.not_mem_none x)) rfl
  · exact .fails rfl (fun x hx => (Option.mem_some.mp hx).symm) rfl
  simp only [Bool.or_eq_true,Bool.not_eq_true',not_or,Bool.not_eq_false,
    Bool.not_eq_true] at hinvalid
  obtain ⟨⟨⟨⟨-,htarget⟩,hcurrent⟩,helapsed⟩,hpositive⟩ := hinvalid
  obtain ⟨t,rfl⟩ := CFloat.isfinite_iff.mp htarget
  obtain ⟨x,rfl⟩ := CFloat.isfinite_iff.mp hcurrent
  obtain ⟨dt,rfl⟩ := CFloat.isfinite_iff.mp helapsed
  have hdt : 0 < dt := not_le.mp (of_decide_eq_false hpositive)
  have hcandidate : FloatArith.exact.add c.integralError
      (FloatArith.exact.mul (FloatArith.exact.sub (.finite t) (.finite x)) (.finite dt)) =
        .finite (a.candidate (t-x) dt) := by
    rw [h.integralError]
    rfl
  have houtput : FloatArith.exact.add
      (FloatArith.exact.mul c.proportionalGain (FloatArith.exact.sub (.finite t) (.finite x)))
      (FloatArith.exact.mul c.integralGain (.finite (a.candidate (t-x) dt))) =
        .finite (a.output (t-x) dt) := by
    rw [h.proportionalGain,h.integralGain]
    rfl
  dsimp only
  rw [hcandidate,houtput]
  split_ifs with herror hone hzero
  · have hnonpos : t-x ≤ 0 := of_decide_eq_true herror
    refine .steps t x dt hdt rfl rfl rfl ?_ ?_
    · rw [a.power_of_nonpos hnonpos]
      rfl
    · rw [Integrator.step_of_nonpos hnonpos]
      exact h.reset
  all_goals have hpos : ¬t-x ≤ 0 := fun hle => herror (decide_eq_true hle)
  · have hle : 1 ≤ a.output (t-x) dt := of_decide_eq_true hone
    refine .steps t x dt hdt rfl rfl rfl ?_ ?_
    · rw [Integrator.power_of_one_le hpos hle]
      rfl
    · rwa [Integrator.step_of_saturated hpos hdt (.inl hle)]
  · have hle : a.output (t-x) dt ≤ 0 := of_decide_eq_true hzero
    refine .steps t x dt hdt rfl rfl rfl ?_ ?_
    · rw [Integrator.power_of_output_nonpos hle]
      rfl
    · rwa [Integrator.step_of_saturated hpos hdt (.inr hle)]
  · have hone' : ¬1 ≤ a.output (t-x) dt := fun hle => hone (decide_eq_true hle)
    have hzero' : ¬a.output (t-x) dt ≤ 0 := fun hle => hzero (decide_eq_true hle)
    refine .steps t x dt hdt rfl rfl rfl ?_ ?_
    · rw [Integrator.power_of_unsaturated hpos hone' hzero']
    · rw [Integrator.step_of_unsaturated hpos hdt hone' hzero']
      exact ⟨h.proportionalGain,h.integralGain,rfl⟩

/-- A call keeps the variables those of a controller that has not wound up. -/
theorem Represents.call (h : c.Represents a) (q : ControllerCall) :
    ∃ a',(c.call .exact q).Represents a' := by
  cases q with
  | init proportionalGain integralGain => exact h.init proportionalGain integralGain
  | reset => exact ⟨_,h.reset⟩
  | update target current elapsed out =>
    cases update_updated h target current elapsed out with
    | fails _ _ hsame =>
      refine ⟨a,?_⟩
      rw [PropIntController.call,hsame]
      exact h
    | steps t x dt hdt _ _ _ _ hcontroller => exact ⟨_,hcontroller⟩

theorem represents_after (calls : List ControllerCall) :
    ∃ a,(after .exact calls).Represents a := by
  refine List.foldlRecOn (motive := fun c => ∃ a,Represents c a) calls _
    ⟨_,represents_start⟩ ?_
  rintro c ⟨a,h⟩ q -
  exact h.call q

/-! ### What an update asks for -/

/-- A number from zero to one. -/
def IsFraction (x : CFloat) : Prop := ∃ q : ℚ,x = .finite q ∧ 0 ≤ q ∧ q ≤ 1

/-- The integral is not negative, and alone asks for less than all of the power. -/
def NotWoundUp (c : PropIntController) : Prop :=
  ∃ g i : ℚ,c.integralGain = .finite g ∧ c.integralError = .finite i ∧ 0 ≤ i ∧ g * i < 1

/-- What holds of the result of an update. -/
structure UpdateSafe (target current : CFloat) (r : ControllerUpdate) : Prop where
  unit : ∀ x ∈ r.powerFraction,IsFraction x
  off : r.ok = false ∨ target.le current = true → ∀ x ∈ r.powerFraction,x = 0
  cleared : r.ok = true → target.le current = true → r.controller.integralError = 0

theorem Represents.notWoundUp (h : c.Represents a) : c.NotWoundUp :=
  ⟨_,_,h.integralGain,h.integralError,a.integral_nonneg,a.unsaturated⟩

theorem Updated.safe {target current : CFloat} {r : ControllerUpdate}
    (h : Updated a c target current r) : UpdateSafe target current r := by
  cases h with
  | fails hok hpower hsame =>
    refine ⟨fun x hx => ⟨0,hpower x hx,le_rfl,zero_le_one⟩,fun _ => hpower,fun h => ?_⟩
    rw [hok] at h
    cases h
  | steps t x dt hdt htarget hcurrent hok hpower hcontroller =>
    have hmem : ∀ y ∈ r.powerFraction,y = .finite (a.power (t-x) dt) := by
      intro y hy
      rw [hpower] at hy
      exact (Option.mem_some.mp hy).symm
    have hnonpos : target.le current = true → t-x ≤ 0 := by
      intro hle
      rw [htarget,hcurrent] at hle
      exact sub_nonpos.mpr (of_decide_eq_true hle)
    refine ⟨fun y hy => ⟨_,hmem y hy,a.power_nonneg _ _,a.power_le_one _ _⟩,?_,?_⟩
    · rintro (hfail | hle) y hy
      · rw [hok] at hfail
        cases hfail
      · rw [hmem y hy,a.power_of_nonpos (hnonpos hle)]
        rfl
    · intro _ hle
      rw [hcontroller.integralError,Integrator.step_of_nonpos (hnonpos hle)]
      rfl

end PropIntController

end FlightSoftware.Thermals
