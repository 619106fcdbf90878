import FlightSoftware.Lib.Rounding
import FlightSoftware.Thermals.System

/-!
# The thermal board in its simulation

The simulated bed, its sensors and `thermal_model_task` around the tasks of the board. With or
without the rounding of `float`, the bed stays between its initial temperature and the one that
full power can hold, whatever is commanded and in whatever order the tasks run; so no reading is
ever refused, and the model never has a reason to force the heater off.
-/

namespace FlightSoftware.Thermals
open Rounding Run
open PropIntController (IsFraction)

/-! ### The model -/

structure ThermalModel where
  temperatureC : CFloat
  initialized : Bool

def simInitialTemperatureC : CFloat := .finite (-20)
def simAmbientTemperatureC : CFloat := .finite (-5)
def simMaxHeaterPowerW : CFloat := .finite 15
def simThermalCapacityJPerC : CFloat := .finite 100
/-- `0.2f` -/
def simHeatLossWPerC : CFloat := .dyadic 13421773 26
def simMaxStepSeconds : CFloat := .finite 1
/-- `0.1f` -/
def thermalModelStepSeconds : CFloat := .dyadic 13421773 27
/-- `0.10f` -/
def simSensorOffsetC : CFloat := .dyadic 13421773 27

namespace ThermalModel

def init : ThermalModel := ⟨simInitialTemperatureC,true⟩

/-- `thermal_model_step` -/
def step (arith : FloatArith) (heaterPowerFraction elapsedSeconds : CFloat) (m : ThermalModel) :
    Bool × ThermalModel :=
  if !heaterPowerFraction.isfinite || !elapsedSeconds.isfinite || heaterPowerFraction.lt 0 ||
      (1 : CFloat).lt heaterPowerFraction || elapsedSeconds.le 0 ||
      simMaxStepSeconds.lt elapsedSeconds then (false,m)
  else if !m.initialized then (false,m)
  else
    let heaterPowerW := arith.mul heaterPowerFraction simMaxHeaterPowerW
    let heatLossW := arith.mul simHeatLossWPerC (arith.sub m.temperatureC simAmbientTemperatureC)
    let netPowerW := arith.sub heaterPowerW heatLossW
    let temperatureChangeC :=
      arith.mul (arith.div netPowerW simThermalCapacityJPerC) elapsedSeconds
    (true,{ m with temperatureC := arith.add m.temperatureC temperatureChangeC })

/-- `thermal_sensor_read` for one of the two sensors; their offsets have opposite signs. -/
def sensorRead (arith : FloatArith) (sensor : Fin 2) (m : ThermalModel) : Option CFloat :=
  if !m.temperatureC.isfinite then none
  else some (arith.add m.temperatureC
    (if sensor.val = 0 then simSensorOffsetC.neg else simSensorOffsetC))

end ThermalModel

/-! ### The loop -/

/-- Where `thermal_model_task` stands: the call that it makes next. -/
inductive ModelPhase where
  | getPower
  | step (power : CFloat)
  | forceOff

/-- `measured` are the sensors that have been read. -/
structure ClosedLoop where
  system : ThermalSystem
  model : ThermalModel
  phase : ModelPhase
  measured : Fin 2 → Bool

inductive LoopStep where
  | board (a : ThermalStep)
  | read (sensor : Fin 2)
  | thermalModelTask

/-- The steps of the board that do not come from the simulation. -/
def ThermalStep.ofBoard : ThermalStep → Bool
  | .read _ _ | .forceHeaterOff => false
  | _ => true

namespace ClosedLoop

def boot : ClosedLoop := ⟨.boot,.init,.getPower,fun _ => false⟩

variable (arith : FloatArith)

def step (s : ClosedLoop) : LoopStep → Option ClosedLoop
  | .board a =>
    if a.ofBoard then (s.system.step arith a).map fun system => { s with system := system }
    else none
  | .read sensor =>
    (s.system.step arith (.read sensor (s.model.sensorRead arith sensor))).map fun system =>
      { s with system := system,measured := Function.update s.measured sensor true }
  | .thermalModelTask =>
    match s.phase with
    | .getPower => some { s with phase := .step s.system.board.heater.appliedPowerFraction }
    | .step power =>
      let r := s.model.step arith power thermalModelStepSeconds
      some { s with model := r.2,phase := if r.1 then .getPower else .forceOff }
    | .forceOff =>
      (s.system.step arith .forceHeaterOff).map fun system =>
        { s with system := system,phase := .getPower }

end ClosedLoop

/-! ### Temperatures -/

/-- Between the initial temperature and that of full power. -/
def InRange (x : CFloat) : Prop := ∃ q : ℚ,x = .finite q ∧ -20 ≤ q ∧ q ≤ 70

/-- A rounding that carries nothing out of the range: not the lowest temperature, and not what its
own error may bring above the highest one. -/
structure Gentle (round : ℚ → ℚ) (e : ℚ) : Prop where
  accurate : Accurate round e
  small : e ≤ 1/2^20
  low : -20 ≤ round (-20)
  high : round (70+2*e) ≤ 70

theorem gentle_id : Gentle id 0 := ⟨accurate_id,by norm_num,le_rfl,by norm_num⟩

theorem gentle_binary32 : Gentle roundBinary32 (1/2^24) :=
  ⟨accurate_binary32,by norm_num,by decide +kernel,by decide +kernel⟩

section

variable (round : ℚ → ℚ) (q power : ℚ)

def heatLoss : ℚ := round (13421773/2^26*round (q - -5))

def netPower : ℚ := round (round (power*15)-heatLoss round q)

def temperatureChange : ℚ := round (round (netPower round q power/100)*(13421773/2^27))

variable {round q power} {e : ℚ} (hround : Gentle round e) (hlow : -20 ≤ q) (hhigh : q ≤ 70)
  (h0 : 0 ≤ power) (h1 : power ≤ 1)

include hround hlow hhigh

theorem difference_near : |round (q - -5)-(q+5)| ≤ 76*e := by
  have hnear := hround.accurate.near_of_le (x := q - -5) (b := 75) (abs_le.mpr (by
    constructor <;> linarith))
  rw [sub_neg_eq_add] at hnear ⊢
  linarith

theorem heatLoss_near : |heatLoss round q-13421773/2^26*(q+5)| ≤ 33*e := by
  have he := hround.accurate.nonneg
  have hsmall := hround.small
  have hdifference := difference_near hround hlow hhigh
  rw [heatLoss]
  generalize round (q - -5) = difference at hdifference ⊢
  obtain ⟨hdown,hup⟩ := abs_le.mp hdifference
  norm_num at hsmall
  obtain ⟨hlossDown,hlossUp⟩ := abs_le.mp (hround.accurate.near_of_le
    (x := 13421773/2^26*difference) (b := 16)
    (abs_le.mpr (by norm_num; constructor <;> linarith)))
  norm_num at hlossDown hlossUp ⊢
  rw [abs_le]
  constructor <;> linarith

include h0 h1

theorem netPower_near :
    |netPower round q power-(power*15-13421773/2^26*(q+5))| ≤ 70*e := by
  have he := hround.accurate.nonneg
  have hsmall := hround.small
  obtain ⟨hlossDown,hlossUp⟩ := abs_le.mp (heatLoss_near hround hlow hhigh)
  obtain ⟨hpowerDown,hpowerUp⟩ := abs_le.mp (hround.accurate.near_of_le (x := power*15)
    (b := 15) (abs_le.mpr (by constructor <;> linarith)))
  norm_num at hlossDown hlossUp hsmall
  obtain ⟨hdown,hup⟩ := abs_le.mp (hround.accurate.near_of_le
    (x := round (power*15)-heatLoss round q) (b := 19)
    (abs_le.mpr (by constructor <;> linarith)))
  rw [netPower,abs_le]
  norm_num
  constructor <;> linarith

/-- All roundings of a step together. -/
theorem temperatureChange_near : |temperatureChange round q power-
    (power*15-13421773/2^26*(q+5))/100*(13421773/2^27)| ≤ 2*e := by
  have he := hround.accurate.nonneg
  have hsmall := hround.small
  obtain ⟨hnetDown,hnetUp⟩ := abs_le.mp (netPower_near hround hlow hhigh h0 h1)
  norm_num at hnetDown hnetUp hsmall
  obtain ⟨hquotientDown,hquotientUp⟩ := abs_le.mp (hround.accurate.near_of_le
    (x := netPower round q power/100) (b := 1/5)
    (abs_le.mpr (by constructor <;> linarith)))
  obtain ⟨hdown,hup⟩ := abs_le.mp (hround.accurate.near_of_le
    (x := round (netPower round q power/100)*(13421773/2^27)) (b := 1/10)
    (abs_le.mpr (by norm_num; constructor <;> linarith)))
  rw [temperatureChange,abs_le]
  norm_num at hdown hup ⊢
  constructor <;> linarith

/-- The bed cools less than it is above the lowest temperature, and warms less than it is below
the highest one. -/
theorem nextTemperature_bounds : -20 ≤ round (q+temperatureChange round q power) ∧
    round (q+temperatureChange round q power) ≤ 70 := by
  have he := hround.accurate.nonneg
  have hsmall := hround.small
  obtain ⟨hdown,hup⟩ := abs_le.mp (temperatureChange_near hround hlow hhigh h0 h1)
  norm_num at hdown hup hsmall
  constructor
  · exact hround.low.trans (hround.accurate.mono (by linarith))
  · exact (hround.accurate.mono (by linarith)).trans hround.high

end

section

variable {arith : FloatArith} {round : ℚ → ℚ} {e : ℚ} {m : ThermalModel}

/-- A rough bound, for values that are far from an overflow. -/
theorem Gentle.magnitude (hround : Gentle round e) {x b : ℚ} (hlow : -b ≤ x)
    (hhigh : x ≤ b) : -(2*b+1) ≤ round x ∧ round x ≤ 2*b+1 := by
  have hsmall : e ≤ 1 := hround.small.trans (by norm_num)
  obtain ⟨hdown,hup⟩ := abs_le.mp (hround.accurate.near_of_le (abs_le.mpr ⟨hlow,hhigh⟩))
  have herror : e*(b+1) ≤ 1*(b+1) := mul_le_mul_of_nonneg_right hsmall (by linarith)
  constructor <;> linarith

/-- None of the operations of a step comes near an overflow. -/
theorem thermalModelStep_rounds (hround : Gentle round e) (harith : Rounds arith round) {q x : ℚ}
    (hlow : -20 ≤ q) (hhigh : q ≤ 70) (h0 : 0 ≤ x) (h1 : x ≤ 1) :
    arith.add (.finite q) (arith.mul (arith.div (arith.sub
      (arith.mul (.finite x) simMaxHeaterPowerW) (arith.mul simHeatLossWPerC
        (arith.sub (.finite q) simAmbientTemperatureC))) simThermalCapacityJPerC)
      thermalModelStepSeconds) = .finite (round (q+temperatureChange round q x)) := by
  have hloss : simHeatLossWPerC = .finite (13421773/2^26) := rfl
  have hseconds : thermalModelStepSeconds = .finite (13421773/2^27) := rfl
  rw [simMaxHeaterPowerW,harith.mul x 15 (abs_le.mpr (by constructor <;> linarith)),
    simAmbientTemperatureC,harith.sub q (-5) (abs_le.mpr (by constructor <;> linarith)),hloss]
  obtain ⟨hpowerLow,hpowerHigh⟩ := hround.magnitude (x := x*15) (b := 15) (by linarith)
    (by linarith)
  obtain ⟨hdifferenceLow,hdifferenceHigh⟩ := hround.magnitude (x := q - -5) (b := 75)
    (by linarith) (by linarith)
  rw [harith.mul _ _ (abs_le.mpr (by constructor <;> linarith))]
  obtain ⟨hlossLow,hlossHigh⟩ := hround.magnitude (x := 13421773/2^26*round (q - -5))
    (b := 151) (by linarith) (by linarith)
  rw [harith.sub _ _ (abs_le.mpr (by constructor <;> linarith)),simThermalCapacityJPerC]
  obtain ⟨hnetLow,hnetHigh⟩ := hround.magnitude (x := round (x*15)-heatLoss round q)
    (b := 334) (by rw [heatLoss]; linarith) (by rw [heatLoss]; linarith)
  rw [heatLoss] at hnetLow hnetHigh
  rw [harith.div _ 100 (by norm_num) (abs_le.mpr (by constructor <;> linarith)),hseconds]
  obtain ⟨hquotientLow,hquotientHigh⟩ := hround.magnitude (x := netPower round q x/100)
    (b := 7) (by rw [netPower,heatLoss]; linarith) (by rw [netPower,heatLoss]; linarith)
  rw [netPower,heatLoss] at hquotientLow hquotientHigh
  rw [harith.mul _ _ (abs_le.mpr (by constructor <;> linarith))]
  obtain ⟨hchangeLow,hchangeHigh⟩ := hround.magnitude
    (x := round (netPower round q x/100)*(13421773/2^27)) (b := 15)
    (by rw [netPower,heatLoss]; linarith) (by rw [netPower,heatLoss]; linarith)
  rw [netPower,heatLoss] at hchangeLow hchangeHigh
  exact harith.add _ _ (abs_le.mpr (by constructor <;> linarith))

/-- A step keeps the bed in the range. -/
theorem ThermalModel.step_inRange (hround : Gentle round e) (harith : Rounds arith round)
    (hm : InRange m.temperatureC) (hinit : m.initialized = true) {power : CFloat}
    (hpower : IsFraction power) :
    ∃ m',m.step arith power thermalModelStepSeconds = (true,m') ∧ InRange m'.temperatureC ∧
      m'.initialized = true := by
  obtain ⟨q,htemp,hlow,hhigh⟩ := hm
  obtain ⟨x,rfl,hx0,hx1⟩ := hpower
  have helapsed : thermalModelStepSeconds.isfinite = true ∧
      thermalModelStepSeconds.le 0 = false ∧
      simMaxStepSeconds.lt thermalModelStepSeconds = false := by decide +kernel
  have hx0' : (CFloat.finite x).lt 0 = false := decide_eq_false (not_lt.mpr hx0)
  have hx1' : (1 : CFloat).lt (.finite x) = false := decide_eq_false (not_lt.mpr hx1)
  have hchecks : (!(CFloat.finite x).isfinite || !thermalModelStepSeconds.isfinite ||
      (CFloat.finite x).lt 0 || (1 : CFloat).lt (.finite x) || thermalModelStepSeconds.le 0 ||
      simMaxStepSeconds.lt thermalModelStepSeconds) = false := by
    rw [helapsed.1,helapsed.2.1,helapsed.2.2,hx0',hx1']
    rfl
  have hnext : arith.add (.finite q) (arith.mul (arith.div (arith.sub
      (arith.mul (.finite x) simMaxHeaterPowerW) (arith.mul simHeatLossWPerC
        (arith.sub (.finite q) simAmbientTemperatureC))) simThermalCapacityJPerC)
      thermalModelStepSeconds) = .finite (round (q+temperatureChange round q x)) :=
    thermalModelStep_rounds hround harith hlow hhigh hx0 hx1
  obtain ⟨hnextlow,hnexthigh⟩ := nextTemperature_bounds hround hlow hhigh hx0 hx1
  refine ⟨{ m with temperatureC := .finite (round (q+temperatureChange round q x)) },?_,
    ⟨_,rfl,hnextlow,hnexthigh⟩,hinit⟩
  rw [ThermalModel.step,hchecks,hinit,htemp,← hnext]
  rfl

/-- The sensor task accepts what a sensor reads off a bed in this range. -/
theorem reading_accepted (hround : Gentle round e) (harith : Rounds arith round)
    (hm : InRange m.temperatureC) (sensor : Fin 2) :
    (acceptedReading (m.sensorRead arith sensor)).isSome = true := by
  obtain ⟨q,htemp,hlow,hhigh⟩ := hm
  obtain ⟨offset,hoffset,hdown,hup⟩ : ∃ offset : ℚ,
      (if sensor.val = 0 then simSensorOffsetC.neg else simSensorOffsetC) = .finite offset ∧
        -1 ≤ offset ∧ offset ≤ 1 := by
    by_cases hfirst : sensor.val = 0
    · rw [if_pos hfirst]
      exact ⟨-(13421773/2^27),rfl,by norm_num,by norm_num⟩
    · rw [if_neg hfirst]
      exact ⟨13421773/2^27,rfl,by norm_num,by norm_num⟩
  have hread : m.sensorRead arith sensor = some (.finite (round (q+offset))) := by
    have hfinite : (!(CFloat.finite q).isfinite) = false := rfl
    rw [ThermalModel.sensorRead,htemp,hfinite,if_neg Bool.false_ne_true,hoffset,
      harith.add q offset (abs_le.mpr (by constructor <;> linarith))]
  have hsmall := hround.small
  obtain ⟨hnearDown,hnearUp⟩ := abs_le.mp (hround.accurate.near_of_le (x := q+offset) (b := 71)
    (abs_le.mpr (by constructor <;> linarith)))
  norm_num at hsmall
  have hvalid : ((CFloat.finite (round (q+offset))).lt minValidTemperatureC ||
      maxValidTemperatureC.lt (.finite (round (q+offset)))) = false := by
    rw [Bool.or_eq_false_iff]
    exact ⟨decide_eq_false (by linarith),decide_eq_false (by linarith)⟩
  rw [hread,acceptedReading,hvalid]
  rfl

end

/-! ### Runs -/

/-- A step of the board reads no sensor. -/
theorem ThermalSystem.step_readings {arith : FloatArith} {s s' : ThermalSystem} {a : ThermalStep}
    (ha : a.ofBoard = true) (h : s.step arith a = some s') : s'.readings = s.readings := by
  cases step_moves h with
  | read | forceHeaterOff => cases ha
  | @execute command hrunning => cases command <;> rfl
  | _ => rfl

namespace ClosedLoop

variable {arith : FloatArith} {round : ℚ → ℚ} {e : ℚ} {s s' : ClosedLoop}

/-- The task of the model holds a fraction of the power, and has no failure to react to. -/
def Undisturbed : ModelPhase → Prop
  | .getPower => True
  | .step power => IsFraction power
  | .forceOff => False

structure Held (arith : FloatArith) (s : ClosedLoop) : Prop where
  system : s.system.Reporting arith
  temperature : InRange s.model.temperatureC
  initialized : s.model.initialized = true
  phase : Undisturbed s.phase
  measured : ∀ i,s.measured i = true → (s.system.readings i).isSome = true

theorem held_boot : boot.Held arith where
  system := ThermalSystem.reporting_boot
  temperature := ⟨-20,rfl,le_rfl,by norm_num⟩
  initialized := rfl
  phase := trivial
  measured i h := by cases h

theorem Held.step (hround : Gentle round e) (harith : Rounds arith round) (hs : s.Held arith)
    {a : LoopStep} (h : s.step arith a = some s') : s'.Held arith := by
  rw [ClosedLoop.step.eq_def] at h
  cases a with
  | board a =>
    dsimp only at h
    split_ifs at h with hboard
    obtain ⟨system,hstep,rfl⟩ := Option.map_eq_some_iff.mp h
    refine ⟨hs.system.step hstep,hs.temperature,hs.initialized,hs.phase,?_⟩
    exact (ThermalSystem.step_readings hboard hstep).symm ▸ hs.measured
  | read sensor =>
    obtain ⟨system,hstep,rfl⟩ := Option.map_eq_some_iff.mp h
    refine ⟨hs.system.step hstep,hs.temperature,hs.initialized,hs.phase,fun i hi => ?_⟩
    obtain rfl := Option.some.inj hstep
    dsimp only at hi ⊢
    by_cases hsensor : i = sensor
    · rw [hsensor,Function.update_self]
      exact reading_accepted hround harith hs.temperature sensor
    · rw [Function.update_of_ne hsensor] at hi ⊢
      exact hs.measured i hi
  | thermalModelTask =>
    have hphase := hs.phase
    cases hcase : s.phase with
    | getPower =>
      rw [hcase] at h
      obtain rfl := Option.some.inj h
      exact ⟨hs.system,hs.temperature,hs.initialized,hs.system.power,hs.measured⟩
    | step power =>
      rw [hcase] at h hphase
      obtain ⟨m,hstep,hrange,hinit⟩ :=
        ThermalModel.step_inRange hround harith hs.temperature hs.initialized hphase
      dsimp only at h
      rw [hstep] at h
      obtain rfl := Option.some.inj h
      exact ⟨hs.system,hrange,hinit,trivial,hs.measured⟩
    | forceOff =>
      rw [hcase] at hphase
      exact hphase.elim

/-- A step of the loop is one of the board, or none. -/
theorem step_system {a : LoopStep} (h : s.step arith a = some s') :
    s'.system = s.system ∨ ∃ b,s.system.step arith b = some s'.system := by
  rw [ClosedLoop.step.eq_def] at h
  cases a with
  | board b =>
    dsimp only at h
    split_ifs at h
    obtain ⟨system,hstep,rfl⟩ := Option.map_eq_some_iff.mp h
    exact .inr ⟨b,hstep⟩
  | read sensor =>
    obtain ⟨system,hstep,rfl⟩ := Option.map_eq_some_iff.mp h
    exact .inr ⟨_,hstep⟩
  | thermalModelTask =>
    cases hcase : s.phase with
    | getPower | step power =>
      rw [hcase] at h
      obtain rfl := Option.some.inj h
      exact .inl rfl
    | forceOff =>
      rw [hcase] at h
      obtain ⟨system,hstep,rfl⟩ := Option.map_eq_some_iff.mp h
      exact .inr ⟨_,hstep⟩

/-- In exact arithmetic the controller asks only for what the driver takes. -/
theorem heating_step (hs : s.system.board.Heating) {a : LoopStep}
    (h : s.step .exact a = some s') : s'.system.board.Heating := by
  obtain hsame | ⟨b,hstep⟩ := step_system h
  · rw [hsame]
    exact hs
  · obtain hsame | ⟨action,haction⟩ := ThermalSystem.step_board hstep
    · rw [hsame]
      exact hs
    · rw [haction]
      exact hs.act action

/-- In exact arithmetic and in that of `float`, whatever is commanded and in whatever order the
tasks run: the simulated bed stays between -20 and 70 degrees, its model never forces the heater
off, and once both sensors have been read both stay valid. In exact arithmetic the driver accepts
every power that the heater task gives it. -/
theorem simulated_bed_in_range {arith : FloatArith} {round : ℚ → ℚ}
    (hround : round = id ∨ round = roundBinary32) (harith : Rounds arith round)
    {steps : List LoopStep} {s : ClosedLoop}
    (hrun : run (ClosedLoop.step arith) boot steps = some s) :
    InRange s.model.temperatureC ∧ s.phase ≠ .forceOff ∧
      ((∀ i,s.measured i = true) → s.system.board.data.validSensorMask = 3) ∧
      (arith = .exact → ∀ period,s.system.board.phase = .delay period →
        period.accepted ≠ some false) := by
  obtain ⟨e,hgentle⟩ : ∃ e,Gentle round e := by
    obtain rfl | rfl := hround
    · exact ⟨_,gentle_id⟩
    · exact ⟨_,gentle_binary32⟩
  have hs : s.Held arith :=
    run_invariant (fun _ _ _ hs h => hs.step hgentle harith h) held_boot hrun
  refine ⟨hs.temperature,fun hoff => ?_,fun hall => ?_,?_⟩
  · have hphase := hs.phase
    rw [hoff] at hphase
    exact hphase
  · rw [hs.system.data.mask,maskOf,hs.measured 0 (hall 0),hs.measured 1 (hall 1)]
    rfl
  · rintro rfl period hphase
    have hheating : s.system.board.Heating :=
      run_invariant (I := fun s : ClosedLoop => s.system.board.Heating)
        (fun _ _ _ hs h => heating_step hs h) ThermalBoard.heating_boot hrun
    have hundisputed := hheating.phase
    rw [hphase] at hundisputed
    exact hundisputed

/-- The period is over. -/
def isDelay : HeaterPhase → Bool
  | .delay _ => true
  | _ => false

/-- Two readings and a step of the model. -/
def measureAndStep : List LoopStep :=
  (List.finRange 2).flatMap fun sensor => [.read sensor,.thermalModelTask]

/-- Ten degrees are commanded, and the heater is set once. -/
def heatOnce : List LoopStep :=
  [.board (.receive [80,0,0,0,1,0,0,0,0,0,32,65]),.board .begin,.board .execute] ++
    List.replicate 3 (.board .heaterSetTask)

/-- A run without rounding, and one with that of `float`. -/
theorem measure_and_step_in_range :
    (∃ s,run (ClosedLoop.step .exact) boot (measureAndStep ++ heatOnce) = some s ∧
      InRange s.model.temperatureC ∧ s.system.board.data.validSensorMask = 3 ∧
      ∃ period,s.system.board.phase = .delay period ∧ period.accepted ≠ some false) ∧
    ∃ s,run (ClosedLoop.step (rounded roundBinary32)) boot measureAndStep = some s ∧
      InRange s.model.temperatureC ∧ s.system.board.data.validSensorMask = 3 := by
  constructor
  · have hsome : (run (ClosedLoop.step .exact) boot (measureAndStep ++ heatOnce)).any (fun s =>
        decide (∀ i,s.measured i = true) && isDelay s.system.board.phase) = true := by
      decide +kernel
    obtain ⟨s,hrun,hs⟩ := (Option.any_eq_true _ _).mp hsome
    obtain ⟨hmeasured,hdelay⟩ := Bool.and_eq_true_iff.mp hs
    obtain ⟨hrange,-,hvalid,haccepted⟩ := simulated_bed_in_range (.inl rfl) rounds_exact hrun
    cases hphase : s.system.board.phase with
    | delay period =>
      exact ⟨s,hrun,hrange,hvalid (of_decide_eq_true hmeasured),period,hphase,
        haccepted rfl period hphase⟩
    | _ =>
      rw [hphase] at hdelay
      cases hdelay
  · have hsome : (run (ClosedLoop.step (rounded roundBinary32)) boot measureAndStep).any (fun s =>
        decide (∀ i,s.measured i = true)) = true := by decide +kernel
    obtain ⟨s,hrun,hs⟩ := (Option.any_eq_true _ _).mp hsome
    obtain ⟨hrange,-,hvalid,-⟩ := simulated_bed_in_range (.inr rfl) (rounds_rounded _) hrun
    exact ⟨s,hrun,hrange,hvalid (of_decide_eq_true hs)⟩

end ClosedLoop

end FlightSoftware.Thermals
