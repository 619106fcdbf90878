import FlightSoftware.Thermals.Controller

/-!
# The heater task

The shared thermal data, the heater driver and `heater_set_task`, one call at a time, with
the calls of the other tasks in between: sensors are read, targets are commanded, and the
thermal model may force the heater off. A period without an input, or in which the
controller or the driver fails, ends with the heater off and the integral cleared.
-/

namespace FlightSoftware.Thermals

/-! ### Thermal data -/

structure ThermalData where
  temperatures : Fin 2 → CFloat := 0
  validSensorMask : BitVec 32 := 0
  averageTemp : CFloat := 0
  targetTemp : CFloat := 0
  targetTempValid : BitVec 8 := 0

namespace ThermalData

def minTargetTempC : CFloat := .finite (-40)
def maxTargetTempC : CFloat := .finite 125

/-- `thermals_recalculate_average`: the loop over the sensors with its sum and its count. -/
def recalculateAverage (arith : FloatArith) (d : ThermalData) : ThermalData :=
  let r := (List.finRange 2).foldl (fun (r : CFloat × ℕ) i =>
    if d.validSensorMask &&& (1#32 <<< i.val) ≠ 0 then
      (arith.add r.1 (d.temperatures i),r.2+1)
    else r) (0,0)
  { d with averageTemp := if 0 < r.2 then arith.div r.1 (.finite r.2) else 0 }

/-- `thermals_set_current`; sensors are numbered from one. -/
def setCurrent (arith : FloatArith) (temp : CFloat) (sensorId : BitVec 32) (d : ThermalData) :
    ThermalData :=
  if h : 0 < sensorId.toNat ∧ sensorId.toNat ≤ 2 then
    recalculateAverage arith { d with
      temperatures := Function.update d.temperatures ⟨sensorId.toNat-1,by omega⟩ temp
      validSensorMask := d.validSensorMask ||| (1#32 <<< (sensorId.toNat-1)) }
  else d

/-- `thermals_invalidate_sensor` -/
def invalidateSensor (arith : FloatArith) (sensorId : BitVec 32) (d : ThermalData) :
    ThermalData :=
  if 0 < sensorId.toNat ∧ sensorId.toNat ≤ 2 then
    recalculateAverage arith { d with
      validSensorMask := d.validSensorMask &&& ~~~(1#32 <<< (sensorId.toNat-1)) }
  else d

def targetIsValid (target : CFloat) : Bool :=
  target.isfinite && minTargetTempC.le target && target.le maxTargetTempC

/-- `thermals_set_target` -/
def setTarget (target : CFloat) (d : ThermalData) : ThermalData :=
  if targetIsValid target then { d with targetTemp := target,targetTempValid := 1 } else d

/-- A sensor and the target are valid. -/
def HasInput (d : ThermalData) : Prop := d.validSensorMask ≠ 0 ∧ d.targetTempValid ≠ 0

instance (d : ThermalData) : Decidable d.HasInput := inferInstanceAs (Decidable (_ ∧ _))

end ThermalData

/-! ### Heater driver -/

structure Heater where
  appliedPowerFraction : CFloat := 0
  initialized : Bool := false

namespace Heater

def init (_ : Heater) : Bool × Heater := (true,⟨0,true⟩)

/-- `force_heater_off` -/
def forceOff (h : Heater) : Heater := { h with appliedPowerFraction := 0 }

/-- `heater_set_power` -/
def setPower (powerFraction : CFloat) (h : Heater) : Bool × Heater :=
  if !powerFraction.isfinite || powerFraction.lt 0 || (1 : CFloat).lt powerFraction then
    (false,h.forceOff)
  else if !h.initialized then (false,h)
  else (true,{ h with appliedPowerFraction := powerFraction })

end Heater

/-! ### The task -/

/-- What a period has come upon: the data that it read, and what the controller and the driver
returned where they were called. -/
structure HeaterPeriod where
  data : ThermalData
  updated : Option Bool := none
  accepted : Option Bool := none

/-- Where `heater_set_task` stands: the call that it makes next. -/
inductive HeaterPhase where
  | getData
  | update (data : ThermalData)
  | setPower (data : ThermalData) (requestedPowerFraction : CFloat)
  | reset (period : HeaterPeriod)
  | forceOff (period : HeaterPeriod)
  | delay (period : HeaterPeriod)

/-- `0.2f` -/
def piProportionalGain : CFloat := .dyadic 13421773 26
/-- `0.004f` -/
def piIntegralGain : CFloat := .dyadic 8589935 31

/-- A hundred milliseconds in seconds. -/
def piStepSeconds (arith : FloatArith) : CFloat := arith.div (.finite 100) (.finite 1000)

/-- The data that the tasks share, and where the heater task stands. -/
structure ThermalBoard where
  data : ThermalData := {}
  controller : PropIntController := {}
  heater : Heater := {}
  phase : HeaterPhase := .getData
  controlFaultReported : Bool := false

/-- The next call of the task, or one of another task. -/
inductive ThermalAction where
  | heaterSetTask
  | setCurrent (temp : CFloat) (sensorId : BitVec 32)
  | invalidateSensor (sensorId : BitVec 32)
  | setTarget (target : CFloat)
  | forceHeaterOff

namespace ThermalBoard

/-- The next call of `heater_set_task`. The flag keeps a fault from being printed again. -/
def heaterSetTask (arith : FloatArith) (s : ThermalBoard) : ThermalBoard :=
  match s.phase with
  | .getData =>
    if s.data.HasInput then { s with phase := .update s.data }
    else { s with phase := .reset { data := s.data } }
  | .update data =>
    let r := s.controller.update arith data.targetTemp data.averageTemp (piStepSeconds arith) true
    let s := { s with controller := r.controller }
    match r.ok,r.powerFraction with
    | true,some power => { s with phase := .setPower data power }
    | _,_ => { s with phase := .reset { data := data,updated := some false } }
  | .setPower data power =>
    let r := s.heater.setPower power
    let period : HeaterPeriod := { data := data,updated := some true,accepted := some r.1 }
    if r.1 then { s with heater := r.2,phase := .delay period,controlFaultReported := false }
    else { s with heater := r.2,phase := .reset period }
  | .reset period => { s with controller := s.controller.reset,phase := .forceOff period }
  | .forceOff period =>
    { s with
      heater := s.heater.forceOff
      phase := .delay period
      controlFaultReported := decide period.data.HasInput }
  | .delay _ => { s with phase := .getData }

def act (arith : FloatArith) (s : ThermalBoard) : ThermalAction → ThermalBoard
  | .heaterSetTask => s.heaterSetTask arith
  | .setCurrent temp sensorId => { s with data := s.data.setCurrent arith temp sensorId }
  | .invalidateSensor sensorId => { s with data := s.data.invalidateSensor arith sensorId }
  | .setTarget target => { s with data := s.data.setTarget target }
  | .forceHeaterOff => { s with heater := s.heater.forceOff }

/-- The state after a list of actions. -/
def after (arith : FloatArith) (s : ThermalBoard) (actions : List ThermalAction) : ThermalBoard :=
  actions.foldl (act arith) s

/-- After `heater_set_task_init`, where driver and controller have been initialized. -/
def boot : ThermalBoard where
  controller := (PropIntController.init piProportionalGain piIntegralGain {}).2
  heater := (Heater.init {}).2.forceOff

end ThermalBoard

/-! ### Periods that fail -/

/-- No sensor or no target is valid, or the controller or the driver has reported a failure. -/
def HeaterPeriod.Failed (period : HeaterPeriod) : Prop :=
  ¬period.data.HasInput ∨ period.updated = some false ∨ period.accepted = some false

namespace ThermalBoard

variable {arith : FloatArith} {s : ThermalBoard}

/-- The heater is off and nothing is integrated. -/
def HeaterSafe (s : ThermalBoard) : Prop :=
  s.heater.appliedPowerFraction = 0 ∧ s.controller.integralError = 0

/-- What the heater task has made sure of at each of its calls. -/
def Careful (s : ThermalBoard) : Prop :=
  match s.phase with
  | .update data => data.HasInput
  | .setPower data _ => data.HasInput
  | .forceOff _ => s.controller.integralError = 0
  | .delay period => period.Failed → s.HeaterSafe
  | _ => True

theorem Careful.heaterSetTask (h : s.Careful) : (s.heaterSetTask arith).Careful := by
  rw [ThermalBoard.heaterSetTask]
  cases hphase : s.phase with
  | getData =>
    dsimp only
    split
    · next hinput => exact hinput
    · exact trivial
  | update data =>
    rw [Careful,hphase] at h
    dsimp only
    split
    · exact h
    · exact trivial
  | setPower data power =>
    rw [Careful,hphase] at h
    dsimp only
    split
    · next haccepted =>
      rintro (hinput | hupdated | hrejected)
      · exact absurd h hinput
      · cases hupdated
      · rw [haccepted] at hrejected
        cases hrejected
    · exact trivial
  | reset period => exact rfl
  | forceOff period =>
    rw [Careful,hphase] at h
    exact fun _ => ⟨rfl,h⟩
  | delay period => exact trivial

/-- Other tasks leave the controller alone, and can only force the heater off. -/
theorem Careful.act (h : s.Careful) (a : ThermalAction) : (s.act arith a).Careful := by
  cases a with
  | heaterSetTask => exact h.heaterSetTask
  | setCurrent temp sensorId => exact h
  | invalidateSensor sensorId => exact h
  | setTarget target => exact h
  | forceHeaterOff =>
    rw [ThermalBoard.act,Careful]
    rw [Careful] at h
    cases hphase : s.phase with
    | delay period =>
      rw [hphase] at h
      exact fun hfailed => ⟨rfl,(h hfailed).2⟩
    | _ =>
      rw [hphase] at h
      exact h

theorem Careful.after (h : s.Careful) (actions : List ThermalAction) :
    (s.after arith actions).Careful :=
  List.foldlRecOn (motive := Careful) actions _ h fun _ ht a _ => ht.act a

end ThermalBoard

/-- Without rounding, after any calls of the controller: the integral alone asks for less than
all of the power, and an update asks for a fraction of it, which is nothing where the update
fails or the target is reached. An update that succeeds at or above the target clears the
integral. In the heater task every period that fails ends with the heater off and nothing
integrated, whatever the other tasks do. -/
theorem heater_control_safe (calls : List ControllerCall) :
    (PropIntController.after .exact calls).NotWoundUp ∧
    (∀ target current elapsed out,PropIntController.UpdateSafe target current
      ((PropIntController.after .exact calls).update .exact target current elapsed out)) ∧
    ∀ (arith : FloatArith) (s : ThermalBoard) (actions : List ThermalAction),s.phase = .getData →
      ∀ period,(s.after arith actions).phase = .delay period → period.Failed →
        (s.after arith actions).HeaterSafe := by
  obtain ⟨a,ha⟩ := PropIntController.represents_after calls
  refine ⟨ha.notWoundUp,fun target current elapsed out => ?_,?_⟩
  · exact (PropIntController.update_updated ha target current elapsed out).safe
  · intro arith s actions hstart period hphase hfailed
    have hcareful : s.Careful := by
      rw [ThermalBoard.Careful,hstart]
      exact trivial
    have h : (s.after arith actions).Careful := hcareful.after actions
    rw [ThermalBoard.Careful,hphase] at h
    exact h hfailed

/-- A period for which there is a target but no sensor. -/
theorem period_without_sensor_safe :
    (ThermalBoard.boot.after .exact [.setTarget (.finite 10),.heaterSetTask,.heaterSetTask,
      .heaterSetTask]).HeaterSafe := by
  obtain ⟨-,-,hsafe⟩ := heater_control_safe []
  exact hsafe .exact ThermalBoard.boot _ rfl _ rfl (.inl (by decide +kernel))

/-- An update that fails at the target leaves what was integrated: here a second at one degree
below it, then an update for no time. -/
theorem failed_update_keeps_integral :
    ¬∀ (calls : List ControllerCall) (target current elapsed : CFloat),
      target.isfinite = true → current.isfinite = true → elapsed.isfinite = true →
      target.le current = true →
      ((PropIntController.after .exact calls).update .exact target current elapsed
        true).controller.integralError = 0 := by
  intro h
  have hcleared := h [.init (.finite (1/5)) (.finite (1/250)),
    .update (.finite 10) (.finite 9) 1 true] (.finite 10) (.finite 10) 0 rfl rfl rfl
    (by decide)
  exact absurd hcleared (by decide +kernel)

/-! ### Periods that succeed -/

namespace ThermalBoard

variable {s : ThermalBoard}

theorem setPower_accepts {h : Heater} {power : CFloat} (hinit : h.initialized = true)
    (hpower : PropIntController.IsFraction power) :
    h.setPower power = (true,{ h with appliedPowerFraction := power }) := by
  obtain ⟨q,rfl,hnonneg,hle⟩ := hpower
  have hrange : (!(CFloat.finite q).isfinite || (CFloat.finite q).lt 0 ||
      (1 : CFloat).lt (.finite q)) = false := by
    simp only [Bool.or_eq_false_iff]
    exact ⟨⟨rfl,decide_eq_false (not_lt.mpr hnonneg)⟩,decide_eq_false (not_lt.mpr hle)⟩
  rw [Heater.setPower,hrange,hinit]
  rfl

/-- The power is a fraction on its way to the driver, which has not refused it. -/
def Undisputed : HeaterPhase → Prop
  | .setPower _ power => PropIntController.IsFraction power
  | .reset period | .forceOff period | .delay period => period.accepted ≠ some false
  | _ => True

/-- What holds from the initialization on, without rounding. -/
structure Heating (s : ThermalBoard) : Prop where
  controller : ∃ a,s.controller.Represents a
  initialized : s.heater.initialized = true
  applied : PropIntController.IsFraction s.heater.appliedPowerFraction
  phase : Undisputed s.phase

theorem isFraction_zero : PropIntController.IsFraction 0 := ⟨0,rfl,le_rfl,zero_le_one⟩

theorem heating_boot : boot.Heating :=
  ⟨PropIntController.represents_start.init _ _,rfl,isFraction_zero,trivial⟩

theorem Heating.heaterSetTask (h : s.Heating) : (s.heaterSetTask .exact).Heating := by
  have hphase := h.phase
  obtain ⟨a,ha⟩ := h.controller
  rw [ThermalBoard.heaterSetTask]
  cases hcase : s.phase with
  | getData =>
    dsimp only
    split
    · exact ⟨h.controller,h.initialized,h.applied,trivial⟩
    · refine ⟨h.controller,h.initialized,h.applied,?_⟩
      intro hrefused
      cases hrefused
  | update data =>
    have hcall := ha.call (.update data.targetTemp data.averageTemp (piStepSeconds .exact) true)
    have hsafe := (PropIntController.update_updated ha data.targetTemp data.averageTemp
      (piStepSeconds .exact) true).safe
    dsimp only
    split
    · next power _ hpower =>
      exact ⟨hcall,h.initialized,h.applied,hsafe.unit power hpower⟩
    · refine ⟨hcall,h.initialized,h.applied,?_⟩
      intro hrefused
      cases hrefused
  | setPower data power =>
    rw [hcase] at hphase
    dsimp only
    rw [setPower_accepts h.initialized hphase]
    refine ⟨h.controller,h.initialized,hphase,?_⟩
    intro hrefused
    cases hrefused
  | reset period =>
    rw [hcase] at hphase
    exact ⟨⟨_,ha.reset⟩,h.initialized,h.applied,hphase⟩
  | forceOff period =>
    rw [hcase] at hphase
    exact ⟨h.controller,h.initialized,isFraction_zero,hphase⟩
  | delay period => exact ⟨h.controller,h.initialized,h.applied,trivial⟩

theorem Heating.act (h : s.Heating) (a : ThermalAction) : (s.act .exact a).Heating := by
  cases a with
  | heaterSetTask => exact h.heaterSetTask
  | forceHeaterOff => exact ⟨h.controller,h.initialized,isFraction_zero,h.phase⟩
  | _ => exact ⟨h.controller,h.initialized,h.applied,h.phase⟩

end ThermalBoard

end FlightSoftware.Thermals
