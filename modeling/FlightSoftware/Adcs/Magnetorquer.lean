import FlightSoftware.Adcs.Tasks

/-!
# The magnetorquer driver

Three coils on two bridge drivers. Each coil has two inputs, each driver a sleep line, and a
power rail and an indicator serve all of them. A command energises a coil where the dipole
leaves a dead band. The driver mixes up axes and lines in several places, so that the levels
match the command only where X is driven forward alone or with Z, or nothing is.
-/

namespace FlightSoftware.Adcs
open Run

/-! ### Pins -/

inductive GpioPort where
  | b
  | c
  | d
  deriving DecidableEq

structure GpioPin where
  port : GpioPort
  number : Fin 16
  deriving DecidableEq

/-- The levels that pins are set to, the pins configured as outputs and those written. -/
structure Gpio where
  level : GpioPin → Bool
  outputs : List GpioPin
  written : List GpioPin

namespace Gpio

/-- `HAL_GPIO_WritePin`; `true` is `GPIO_PIN_SET`. -/
def writePin (g : Gpio) (port : GpioPort) (number : Fin 16) (set : Bool) : Gpio :=
  { g with
    level := fun q => if q = ⟨port,number⟩ then set else g.level q
    written := ⟨port,number⟩ :: g.written }

/-- `HAL_GPIO_Init` with the mode `GPIO_MODE_OUTPUT_PP`. -/
def initOutputs (g : Gpio) (port : GpioPort) (numbers : List (Fin 16)) : Gpio :=
  { g with outputs := numbers.map (⟨port,·⟩) ++ g.outputs }

end Gpio

def coilPwrEnPort : GpioPort := .b
def coilPwrEnPin : Fin 16 := 5
def ledCoilPort : GpioPort := .c
def ledCoilPin : Fin 16 := 14
def drv1NSleepPort : GpioPort := .b
def drv1NSleepPin : Fin 16 := 10
def drv2NSleepPort : GpioPort := .d
def drv2NSleepPin : Fin 16 := 2
def coilZ1Port : GpioPort := .c
def coilZ1Pin : Fin 16 := 0
def coilZ2Port : GpioPort := .c
def coilZ2Pin : Fin 16 := 1
def coilX1Port : GpioPort := .c
def coilX1Pin : Fin 16 := 2
def coilX2Port : GpioPort := .c
def coilX2Pin : Fin 16 := 3
def coilY1Port : GpioPort := .c
def coilY1Pin : Fin 16 := 6
def coilY2Port : GpioPort := .c
def coilY2Pin : Fin 16 := 7

/-! ### The driver -/

inductive MagnetorquerAxis where
  | x
  | y
  | z
  | unnamed
  deriving DecidableEq

inductive MagnetorquerDir where
  | off
  | forward
  | reverse
  | unnamed
  deriving DecidableEq

/-- So that numerals index the axes of a dipole. -/
local instance three_axes : NeZero 3 := ⟨by decide⟩

structure Magnetorquer where
  gpio : Gpio
  lastCommand : MagnetorquerCommand
  initialized : Bool

/-- `0.0001f` -/
def dipoleDeadBand : CFloat := .dyadic 13743895 37

namespace Magnetorquer

/-- The mask of port C names `COILZ_2_PIN` twice. -/
def magnetorquerInitialize (m : Magnetorquer) : Magnetorquer :=
  let gpio := m.gpio
    |>.writePin coilPwrEnPort coilPwrEnPin false
    |>.writePin ledCoilPort ledCoilPin false
    |>.writePin drv1NSleepPort drv1NSleepPin false
    |>.writePin drv2NSleepPort drv2NSleepPin false
    |>.writePin coilZ1Port coilZ1Pin false
    |>.writePin coilZ2Port coilZ2Pin false
    |>.writePin coilX1Port coilX1Pin false
    |>.writePin coilX2Port coilX2Pin false
    |>.writePin coilY1Port coilY1Pin false
    |>.writePin coilY1Port coilY2Pin false
    |>.initOutputs .b [coilPwrEnPin,drv1NSleepPin]
    |>.initOutputs .c
      [ledCoilPin,coilZ1Pin,coilZ2Pin,coilX1Pin,coilZ2Pin,coilY1Pin,coilY2Pin]
    |>.initOutputs .d [drv2NSleepPin]
  ⟨gpio,{},true⟩

/-- `magnetorquer_disable` -/
def disable (m : Magnetorquer) : MagnetorquerStatus × Magnetorquer :=
  if !m.initialized then (.notReady,m)
  else
    let gpio := m.gpio
      |>.writePin coilZ1Port coilZ1Pin false
      |>.writePin coilZ2Port coilZ2Pin false
      |>.writePin coilX1Port coilX1Pin false
      |>.writePin coilX2Port coilX2Pin false
      |>.writePin coilY1Port coilY1Pin false
      |>.writePin coilY2Port coilY2Pin false
      |>.writePin drv1NSleepPort drv1NSleepPin false
      |>.writePin drv2NSleepPort drv2NSleepPin false
      |>.writePin coilPwrEnPort coilPwrEnPin false
      |>.writePin ledCoilPort ledCoilPin false
    (.ok,{ m with gpio := gpio, lastCommand := {} })

/-- One branch of `magnetorquer_set` per coil: the two inputs under the two tests made. -/
def writeCoil (g : Gpio) (pin1 pin2 : Fin 16) (forward reverse : Bool) : Gpio :=
  if forward then (g.writePin coilZ1Port pin1 true).writePin coilZ2Port pin2 false
  else if reverse then (g.writePin coilZ1Port pin1 false).writePin coilZ2Port pin2 true
  else (g.writePin coilZ1Port pin1 false).writePin coilZ2Port pin2 false

def needDrv1 (c : MagnetorquerCommand) : Bool :=
  dipoleDeadBand.lt (c.dipoleAM2 0) || (c.dipoleAM2 0).lt dipoleDeadBand.neg ||
    dipoleDeadBand.lt (c.dipoleAM2 2) || (c.dipoleAM2 2).lt dipoleDeadBand.neg

def needDrv2 (c : MagnetorquerCommand) : Bool :=
  dipoleDeadBand.lt (c.dipoleAM2 0) || (c.dipoleAM2 1).lt dipoleDeadBand.neg

/-- The writes of `magnetorquer_set`. Both drivers' needs go to the sleep line of the first, and
the reverse tests of X and Y are those of Z. -/
def energise (g : Gpio) (c : MagnetorquerCommand) : Gpio :=
  let mx := c.dipoleAM2 0
  let my := c.dipoleAM2 1
  let mz := c.dipoleAM2 2
  let g := g
    |>.writePin coilPwrEnPort coilPwrEnPin true
    |>.writePin ledCoilPort ledCoilPin true
    |>.writePin drv1NSleepPort drv1NSleepPin (needDrv1 c)
    |>.writePin drv1NSleepPort drv1NSleepPin (needDrv2 c)
  let g := writeCoil g coilX1Pin coilX2Pin (dipoleDeadBand.lt mx) (mz.lt dipoleDeadBand.neg)
  let g := writeCoil g coilY1Pin coilY2Pin (dipoleDeadBand.lt my) (mz.lt dipoleDeadBand.neg)
  writeCoil g coilZ1Pin coilZ2Pin (dipoleDeadBand.lt mz) (mz.lt dipoleDeadBand.neg)

/-- `magnetorquer_set` -/
def set (m : Magnetorquer) (command : Option MagnetorquerCommand) :
    MagnetorquerStatus × Magnetorquer :=
  if !m.initialized then (.notReady,m)
  else
    match command with
    | none => (.error,m)
    | some c =>
      if c.enabled = 0 then m.disable
      else if !needDrv1 c && !needDrv2 c then m.disable
      else (.ok,{ m with gpio := energise m.gpio c, lastCommand := c })

/-- `0.20f` along the direction. -/
def channelDipole : MagnetorquerDir → CFloat
  | .forward => .dyadic 13421773 26
  | .reverse => .dyadic (-13421773) 26
  | _ => 0

/-- `magnetorquer_set_channel` -/
def setChannel (m : Magnetorquer) (axis : MagnetorquerAxis) (dir : MagnetorquerDir) :
    MagnetorquerStatus × Magnetorquer :=
  let assign (i : Fin 3) : MagnetorquerStatus × Magnetorquer :=
    let dipole := Function.update m.lastCommand.dipoleAM2 i (channelDipole dir)
    let enabled := flag ((dipole 0).ne 0 || (dipole 1).ne 0 || (dipole 2).ne 0)
    m.set (some ⟨dipole,enabled⟩)
  match axis with
  | .x => assign 0
  | .y => assign 1
  | .z => assign 2
  | .unnamed => (.error,m)

end Magnetorquer

/-! ### Calls and what they ask for -/

inductive MagnetorquerCall where
  | set (command : Option MagnetorquerCommand)
  | setChannel (axis : MagnetorquerAxis) (dir : MagnetorquerDir)
  | disable

namespace MagnetorquerCall

def enter (m : Magnetorquer) : MagnetorquerCall → MagnetorquerStatus × Magnetorquer
  | set command => m.set command
  | setChannel axis dir => m.setChannel axis dir
  | disable => m.disable

/-- The dipoles asked for after the call, given those before: the command last put into effect. -/
def effective (last : Vector3) : MagnetorquerCall → Vector3
  | set (some c) => if c.enabled = 0 then 0 else c.dipoleAM2
  | set none => last
  | setChannel .x dir => Function.update last 0 (Magnetorquer.channelDipole dir)
  | setChannel .y dir => Function.update last 1 (Magnetorquer.channelDipole dir)
  | setChannel .z dir => Function.update last 2 (Magnetorquer.channelDipole dir)
  | setChannel .unnamed _ => last
  | disable => 0

end MagnetorquerCall

/-- A call that returns `MAGNETORQUER_OK`. -/
def Magnetorquer.okCall (m : Magnetorquer) (call : MagnetorquerCall) : Option Magnetorquer :=
  let r := call.enter m
  if r.1 = .ok then some r.2 else none

/-- The command last put into effect by a list of calls after initialization. -/
def effectiveDipole (calls : List MagnetorquerCall) : Vector3 :=
  calls.foldl MagnetorquerCall.effective 0

/-! ### Levels -/

/-- How a coil is energised. -/
inductive CoilDrive where
  | forward
  | reverse
  | idle
  deriving DecidableEq

def coilDrive (dipole : CFloat) : CoilDrive :=
  if dipoleDeadBand.lt dipole then .forward
  else if dipole.lt dipoleDeadBand.neg then .reverse
  else .idle

/-- The levels of the ten lines. -/
structure CoilLevels where
  x1 : Bool
  x2 : Bool
  y1 : Bool
  y2 : Bool
  z1 : Bool
  z2 : Bool
  drv1 : Bool
  drv2 : Bool
  rail : Bool
  led : Bool
  deriving DecidableEq

def Gpio.coilLevels (g : Gpio) : CoilLevels where
  x1 := g.level ⟨coilX1Port,coilX1Pin⟩
  x2 := g.level ⟨coilX2Port,coilX2Pin⟩
  y1 := g.level ⟨coilY1Port,coilY1Pin⟩
  y2 := g.level ⟨coilY2Port,coilY2Pin⟩
  z1 := g.level ⟨coilZ1Port,coilZ1Pin⟩
  z2 := g.level ⟨coilZ2Port,coilZ2Pin⟩
  drv1 := g.level ⟨drv1NSleepPort,drv1NSleepPin⟩
  drv2 := g.level ⟨drv2NSleepPort,drv2NSleepPin⟩
  rail := g.level ⟨coilPwrEnPort,coilPwrEnPin⟩
  led := g.level ⟨ledCoilPort,ledCoilPin⟩

/-- The levels that drive each coil as asked: its own inputs, the driver awake where one of
its coils is energised, rail and indicator on where any is. -/
def CoilLevels.wanted (x y z : CoilDrive) : CoilLevels where
  x1 := x = .forward
  x2 := x = .reverse
  y1 := y = .forward
  y2 := y = .reverse
  z1 := z = .forward
  z2 := z = .reverse
  drv1 := x ≠ .idle ∨ z ≠ .idle
  drv2 := y ≠ .idle
  rail := x ≠ .idle ∨ y ≠ .idle ∨ z ≠ .idle
  led := x ≠ .idle ∨ y ≠ .idle ∨ z ≠ .idle

/-- The levels that the driver leaves. -/
def CoilLevels.driven (x y z : CoilDrive) : CoilLevels where
  x1 := x = .forward
  x2 := x ≠ .forward ∧ z = .reverse
  y1 := y = .forward ∧ (x ≠ .idle ∨ z ≠ .idle)
  y2 := y ≠ .forward ∧ z = .reverse
  z1 := z = .forward
  z2 := z = .reverse
  drv1 := x = .forward ∨ y = .reverse
  drv2 := false
  rail := x ≠ .idle ∨ z ≠ .idle ∨ y = .reverse
  led := x ≠ .idle ∨ z ≠ .idle ∨ y = .reverse

/-! ### What each call leaves -/

theorem reverse_not_forward {d : CFloat} (h : d.lt dipoleDeadBand.neg = true) :
    dipoleDeadBand.lt d = false := by
  cases d with
  | nan => rfl
  | infinite negative =>
    cases negative with
    | true => rfl
    | false => exact absurd h (by decide)
  | finite q =>
    simp only [dipoleDeadBand,CFloat.dyadic,CFloat.neg,CFloat.lt,decide_eq_true_eq,
      decide_eq_false_iff_not,not_lt] at h ⊢
    have hpos : (0 : ℚ) ≤ 13743895/2^37 := by norm_num
    push_cast at h ⊢
    linarith

@[simp] theorem coilDrive_eq_forward (d : CFloat) :
    coilDrive d = .forward ↔ dipoleDeadBand.lt d = true := by
  rw [coilDrive]
  split
  · simp_all
  · split <;> simp_all

@[simp] theorem coilDrive_eq_reverse (d : CFloat) :
    coilDrive d = .reverse ↔ d.lt dipoleDeadBand.neg = true := by
  rw [coilDrive]
  split
  · next h => 
    constructor
    · exact fun hc => CoilDrive.noConfusion hc
    · intro hr
      rw [reverse_not_forward hr] at h
      exact Bool.noConfusion h
  · split <;> simp_all

@[simp] theorem coilDrive_eq_idle (d : CFloat) :
    coilDrive d = .idle ↔ dipoleDeadBand.lt d = false ∧ d.lt dipoleDeadBand.neg = false := by
  rw [coilDrive]
  split
  · simp_all
  · split <;> simp_all

theorem forward_test (d : CFloat) :
    dipoleDeadBand.lt d = decide (coilDrive d = .forward) := by
  rw [Bool.eq_iff_iff,decide_eq_true_eq,coilDrive_eq_forward]

theorem reverse_test (d : CFloat) :
    d.lt dipoleDeadBand.neg = decide (coilDrive d = .reverse) := by
  rw [Bool.eq_iff_iff,decide_eq_true_eq,coilDrive_eq_reverse]

namespace Magnetorquer

/-- The driver is ready, and the levels are those it leaves for the command it has on record. -/
structure Drives (m : Magnetorquer) : Prop where
  ready : m.initialized = true
  levels : m.gpio.coilLevels = CoilLevels.driven (coilDrive (m.lastCommand.dipoleAM2 0))
    (coilDrive (m.lastCommand.dipoleAM2 1)) (coilDrive (m.lastCommand.dipoleAM2 2))

@[simp] theorem coilDrive_zero : coilDrive 0 = .idle := by
  rw [coilDrive_eq_idle]
  change decide (_ < (0 : ℚ)) = false ∧ decide ((0 : ℚ) < _) = false
  norm_num

theorem initialize_drives (m : Magnetorquer) : m.magnetorquerInitialize.Drives where
  ready := rfl
  levels := by
    change _ = CoilLevels.driven (coilDrive 0) (coilDrive 0) (coilDrive 0)
    rw [coilDrive_zero]
    rfl

/-- Everything is low and the record is clear. -/
theorem Drives.disable {m : Magnetorquer} (h : m.Drives) :
    m.disable.1 = .ok ∧ m.disable.2.Drives ∧ m.disable.2.lastCommand.dipoleAM2 = 0 := by
  rw [Magnetorquer.disable,h.ready]
  refine ⟨rfl,⟨rfl,?_⟩,rfl⟩
  change _ = CoilLevels.driven (coilDrive 0) (coilDrive 0) (coilDrive 0)
  rw [coilDrive_zero]
  rfl

@[simp] theorem writePin_level (g : Gpio) (port : GpioPort) (number : Fin 16) (b : Bool)
    (q : GpioPin) :
    (g.writePin port number b).level q = if q = ⟨port,number⟩ then b else g.level q := rfl

theorem writeCoil_level (g : Gpio) (pin1 pin2 : Fin 16) (forward reverse : Bool)
    (q : GpioPin) : (writeCoil g pin1 pin2 forward reverse).level q =
      if q = ⟨coilZ2Port,pin2⟩ then !forward && reverse
      else if q = ⟨coilZ1Port,pin1⟩ then forward else g.level q := by
  cases forward with
  | true => rfl
  | false =>
    cases reverse with
    | true => rfl
    | false => rfl

theorem needDrv1_eq (c : MagnetorquerCommand) : needDrv1 c =
    decide (coilDrive (c.dipoleAM2 0) ≠ .idle ∨ coilDrive (c.dipoleAM2 2) ≠ .idle) := by
  rw [Bool.eq_iff_iff]
  simp only [needDrv1,Bool.or_eq_true,decide_eq_true_eq,ne_eq,coilDrive_eq_idle,not_and_or,
    Bool.not_eq_false]
  tauto

theorem needDrv2_eq (c : MagnetorquerCommand) : needDrv2 c =
    decide (coilDrive (c.dipoleAM2 0) = .forward ∨ coilDrive (c.dipoleAM2 1) = .reverse) := by
  rw [Bool.eq_iff_iff]
  simp only [needDrv2,Bool.or_eq_true,decide_eq_true_eq,coilDrive_eq_forward,
    coilDrive_eq_reverse]

theorem energise_levels (g : Gpio) (c : MagnetorquerCommand) :
    (energise g c).coilLevels =
      ⟨dipoleDeadBand.lt (c.dipoleAM2 0),
        !dipoleDeadBand.lt (c.dipoleAM2 0) && (c.dipoleAM2 2).lt dipoleDeadBand.neg,
        dipoleDeadBand.lt (c.dipoleAM2 1),
        !dipoleDeadBand.lt (c.dipoleAM2 1) && (c.dipoleAM2 2).lt dipoleDeadBand.neg,
        dipoleDeadBand.lt (c.dipoleAM2 2),
        !dipoleDeadBand.lt (c.dipoleAM2 2) && (c.dipoleAM2 2).lt dipoleDeadBand.neg,
        needDrv2 c,g.level ⟨drv2NSleepPort,drv2NSleepPin⟩,true,true⟩ := by
  simp only [Gpio.coilLevels,energise,writeCoil_level,writePin_level]
  rfl

/-- The writes of a command leave `CoilLevels.driven`, if a driver seems needed and the second
one was asleep. -/
theorem energise_driven (g : Gpio) (c : MagnetorquerCommand)
    (hneed : (!needDrv1 c && !needDrv2 c) = false)
    (hdrv2 : g.level ⟨drv2NSleepPort,drv2NSleepPin⟩ = false) :
    (energise g c).coilLevels = CoilLevels.driven (coilDrive (c.dipoleAM2 0))
      (coilDrive (c.dipoleAM2 1)) (coilDrive (c.dipoleAM2 2)) := by
  rw [energise_levels,hdrv2,needDrv2_eq]
  rw [needDrv1_eq,needDrv2_eq] at hneed
  simp only [forward_test,reverse_test]
  generalize coilDrive (c.dipoleAM2 0) = x at hneed ⊢
  generalize coilDrive (c.dipoleAM2 1) = y at hneed ⊢
  generalize coilDrive (c.dipoleAM2 2) = z at hneed ⊢
  revert hneed
  cases x <;> cases y <;> cases z <;> decide

/-- The command is put on record and driven, or everything is switched off because the command
is not enabled or neither driver seems needed. -/
theorem Drives.set {m : Magnetorquer} (h : m.Drives) (c : MagnetorquerCommand) :
    (m.set (some c)).1 = .ok ∧ (m.set (some c)).2.Drives ∧
      ((m.set (some c)).2.lastCommand.dipoleAM2 = c.dipoleAM2 ∧ c.enabled ≠ 0 ∨
        (m.set (some c)).2.lastCommand.dipoleAM2 = 0 ∧
          (c.enabled = 0 ∨ coilDrive (c.dipoleAM2 0) = .idle ∧
            coilDrive (c.dipoleAM2 1) ≠ .reverse ∧ coilDrive (c.dipoleAM2 2) = .idle)) := by
  have hoff := h.disable
  rw [Magnetorquer.set,h.ready]
  simp only [Bool.not_true,Bool.false_eq_true,if_false]
  by_cases henabled : c.enabled = 0
  · rw [if_pos henabled]
    exact ⟨hoff.1,hoff.2.1,.inr ⟨hoff.2.2,.inl henabled⟩⟩
  · rw [if_neg henabled]
    split
    · next hneed =>
      rw [needDrv1_eq,needDrv2_eq] at hneed
      simp only [ne_eq,Bool.and_eq_true,Bool.not_eq_true',decide_eq_false_iff_not,not_or,
        not_not] at hneed
      exact ⟨hoff.1,hoff.2.1,.inr ⟨hoff.2.2,.inr ⟨hneed.1.1,hneed.2.2,hneed.1.2⟩⟩⟩
    · next hneed =>
      -- The sleep line of the second driver is not written, and was low before.
      have hdrv2 : m.gpio.level ⟨drv2NSleepPort,drv2NSleepPin⟩ = false :=
        congrArg CoilLevels.drv2 h.levels
      exact ⟨rfl,⟨rfl,energise_driven m.gpio c (Bool.eq_false_iff.mpr hneed) hdrv2⟩,
        .inl ⟨rfl,henabled⟩⟩

/-! ### Record and command -/

/-- The record has the dipoles asked for, up to a Y coil asked forward and overlooked. -/
structure Records (record asked : Vector3) : Prop where
  x : coilDrive (record 0) = coilDrive (asked 0)
  y : coilDrive (record 1) = coilDrive (asked 1) ∨
    coilDrive (asked 1) = .forward ∧ coilDrive (record 1) = .idle
  z : coilDrive (record 2) = coilDrive (asked 2)

theorem Records.self (asked : Vector3) : Records asked asked := ⟨rfl,.inl rfl,rfl⟩

theorem Records.update {record asked : Vector3} (h : Records record asked) (i : Fin 3)
    (d : CFloat) : Records (Function.update record i d) (Function.update asked i d) := by
  fin_cases i
  · exact ⟨rfl,h.y,h.z⟩
  · exact ⟨h.x,.inl rfl,h.z⟩
  · exact ⟨h.x,h.y,rfl⟩

/-- A record cleared because neither driver seemed needed still has what was asked for. -/
theorem Records.clear {record asked : Vector3} (h : Records record asked)
    (hx : coilDrive (record 0) = .idle) (hy : coilDrive (record 1) ≠ .reverse)
    (hz : coilDrive (record 2) = .idle) : Records 0 asked := by
  refine ⟨coilDrive_zero.trans (hx.symm.trans h.x),?_,coilDrive_zero.trans (hz.symm.trans h.z)⟩
  obtain heq | ⟨hforward,-⟩ := h.y
  · rw [heq] at hy
    cases hd : coilDrive (asked 1) with
    | forward => exact .inr ⟨rfl,coilDrive_zero⟩
    | reverse => exact absurd hd hy
    | idle => exact .inl coilDrive_zero
  · exact .inr ⟨hforward,coilDrive_zero⟩

theorem coilDrive_of_ne_false {d : CFloat} (h : d.ne 0 = false) : coilDrive d = .idle := by
  cases d with
  | nan => exact Bool.noConfusion h
  | infinite negative => exact Bool.noConfusion h
  | finite q =>
    have hzero : CFloat.finite q = 0 := by simpa [CFloat.ne] using h
    rw [hzero,coilDrive_zero]

/-- A channel is set on the record, and so is it in what is asked for. -/
theorem Drives.setDipole {m : Magnetorquer} {asked : Vector3} (h : m.Drives) (i : Fin 3)
    (d : CFloat) (hrec : Records m.lastCommand.dipoleAM2 asked) :
    let dipole := Function.update m.lastCommand.dipoleAM2 i d
    let r := m.set (some ⟨dipole,flag ((dipole 0).ne 0 || (dipole 1).ne 0 || (dipole 2).ne 0)⟩)
    r.2.Drives ∧ Records r.2.lastCommand.dipoleAM2 (Function.update asked i d) := by
  intro dipole r
  have hupdate : Records dipole (Function.update asked i d) := hrec.update i d
  obtain ⟨-,hdrives,hlast⟩ := h.set
    ⟨dipole,flag ((dipole 0).ne 0 || (dipole 1).ne 0 || (dipole 2).ne 0)⟩
  refine ⟨hdrives,?_⟩
  obtain ⟨hlast,-⟩ | ⟨hlast,hoff⟩ := hlast
  · exact hlast ▸ hupdate
  · rw [show r.2.lastCommand.dipoleAM2 = 0 from hlast]
    obtain hoff | ⟨hx,hy,hz⟩ := hoff
    · have hall : ((dipole 0).ne 0 || (dipole 1).ne 0 || (dipole 2).ne 0) = false := by
        cases hc : (dipole 0).ne 0 || (dipole 1).ne 0 || (dipole 2).ne 0 with
        | false => rfl
        | true =>
          rw [hc] at hoff
          exact absurd hoff (show ¬flag true = 0 by decide)
      rw [Bool.or_eq_false_iff,Bool.or_eq_false_iff] at hall
      refine hupdate.clear (coilDrive_of_ne_false hall.1.1) ?_ (coilDrive_of_ne_false hall.2)
      rw [coilDrive_of_ne_false hall.1.2]
      exact fun hc => CoilDrive.noConfusion hc
    · exact hupdate.clear hx hy hz

/-- Every call keeps the levels those of the record, and the record that of what is asked for. -/
theorem Drives.step {m m' : Magnetorquer} {call : MagnetorquerCall} {asked : Vector3}
    (h : m.Drives) (hrec : Records m.lastCommand.dipoleAM2 asked)
    (hstep : m.okCall call = some m') :
    m'.Drives ∧ Records m'.lastCommand.dipoleAM2 (call.effective asked) := by
  have hm' : (call.enter m).1 = .ok ∧ (call.enter m).2 = m' := by
    rw [okCall] at hstep
    split at hstep
    · next hok => exact ⟨hok,Option.some.inj hstep⟩
    · cases hstep
  obtain ⟨hok,rfl⟩ := hm'
  cases call with
  | disable => exact ⟨h.disable.2.1,h.disable.2.2.symm ▸ Records.self 0⟩
  | set command =>
    cases command with
    | none =>
      simp only [MagnetorquerCall.enter,Magnetorquer.set,h.ready] at hok
      exact MagnetorquerStatus.noConfusion hok
    | some c =>
      obtain ⟨-,hdrives,hlast⟩ := h.set c
      refine ⟨hdrives,?_⟩
      change Records (m.set (some c)).2.lastCommand.dipoleAM2
        (if c.enabled = 0 then 0 else c.dipoleAM2)
      obtain ⟨hlast,henabled⟩ | ⟨hlast,hoff⟩ := hlast
      · rw [hlast,if_neg henabled]
        exact Records.self _
      · rw [hlast]
        by_cases henabled : c.enabled = 0
        · rw [if_pos henabled]
          exact Records.self 0
        · obtain ⟨hx,hy,hz⟩ := hoff.resolve_left henabled
          rw [if_neg henabled]
          exact (Records.self c.dipoleAM2).clear hx hy hz
  | setChannel axis dir =>
    cases axis with
    | x => exact h.setDipole 0 (channelDipole dir) hrec
    | y => exact h.setDipole 1 (channelDipole dir) hrec
    | z => exact h.setDipole 2 (channelDipole dir) hrec
    | unnamed => exact MagnetorquerStatus.noConfusion hok

/-! ### Pins written and configured -/

/-- The pin of the second X input is written, but not configured as an output. -/
structure StrayPin (g : Gpio) : Prop where
  written : ⟨coilX2Port,coilX2Pin⟩ ∈ g.written
  notOutput : (⟨coilX2Port,coilX2Pin⟩ : GpioPin) ∉ g.outputs

theorem StrayPin.writePin {g : Gpio} (h : StrayPin g) (port : GpioPort) (number : Fin 16)
    (b : Bool) : StrayPin (g.writePin port number b) :=
  ⟨List.mem_cons_of_mem _ h.written,h.notOutput⟩

theorem StrayPin.writeCoil {g : Gpio} (h : StrayPin g) (pin1 pin2 : Fin 16)
    (forward reverse : Bool) : StrayPin (writeCoil g pin1 pin2 forward reverse) := by
  rw [Magnetorquer.writeCoil]
  split
  · exact (h.writePin ..).writePin ..
  · split
    · exact (h.writePin ..).writePin ..
    · exact (h.writePin ..).writePin ..

theorem StrayPin.disable {m : Magnetorquer} (h : StrayPin m.gpio) : StrayPin m.disable.2.gpio := by
  rw [Magnetorquer.disable]
  split
  · exact h
  · exact ((((((((((h.writePin ..).writePin ..).writePin ..).writePin ..).writePin ..).writePin
      ..).writePin ..).writePin ..).writePin ..).writePin ..)

theorem StrayPin.set {m : Magnetorquer} (h : StrayPin m.gpio)
    (command : Option MagnetorquerCommand) : StrayPin (m.set command).2.gpio := by
  cases command with
  | none =>
    rw [Magnetorquer.set]
    split
    · exact h
    · exact h
  | some c =>
    rw [Magnetorquer.set]
    split
    · exact h
    · split
      · exact h.disable
      · split
        · exact h.disable
        · exact ((((((h.writePin ..).writePin ..).writePin ..).writePin ..).writeCoil ..).writeCoil
            ..).writeCoil ..

theorem StrayPin.step {m m' : Magnetorquer} {call : MagnetorquerCall} (h : StrayPin m.gpio)
    (hstep : m.okCall call = some m') : StrayPin m'.gpio := by
  have hall : StrayPin (call.enter m).2.gpio := by
    cases call with
    | set command => exact h.set command
    | disable => exact h.disable
    | setChannel axis dir =>
      cases axis with
      | x => exact h.set _
      | y => exact h.set _
      | z => exact h.set _
      | unnamed => exact h
  rw [okCall] at hstep
  split at hstep
  · exact Option.some.inj hstep ▸ hall
  · cases hstep

/-! ### Runs -/

/-- The driver before its first call, with the pins at any levels. -/
def powerOn (level : GpioPin → Bool) : Magnetorquer := ⟨⟨level,[],[]⟩,{},false⟩

theorem strayPin_initialized (level : GpioPin → Bool) :
    StrayPin (powerOn level).magnetorquerInitialize.gpio := by
  constructor
  · change _ ∈ [_,_,_,_,_,_,_,_,_,_]
    decide
  · change _ ∉ [_,_,_,_,_,_,_,_,_,_]
    decide

theorem Drives.run {m m' : Magnetorquer} {calls : List MagnetorquerCall} {asked : Vector3}
    (h : m.Drives) (hrec : Records m.lastCommand.dipoleAM2 asked)
    (hrun : run okCall m calls = some m') :
    m'.Drives ∧
      Records m'.lastCommand.dipoleAM2 (calls.foldl MagnetorquerCall.effective asked) := by
  induction calls generalizing m asked with
  | nil =>
    obtain rfl := Option.some.inj hrun
    exact ⟨h,hrec⟩
  | cons call calls ih =>
    obtain ⟨t,ht,hrest⟩ := run_cons_eq_some.mp hrun
    obtain ⟨hdrives,hrecords⟩ := h.step hrec ht
    exact ih hdrives hrecords hrest

/-- The driven levels are the wanted ones exactly where nothing is energised, or X is driven
forward, Y is idle and Z is not driven in reverse. -/
theorem Records.levels_iff {record asked : Vector3} (h : Records record asked) :
    CoilLevels.driven (coilDrive (record 0)) (coilDrive (record 1)) (coilDrive (record 2)) =
        CoilLevels.wanted (coilDrive (asked 0)) (coilDrive (asked 1)) (coilDrive (asked 2)) ↔
      coilDrive (asked 1) = .idle ∧
        (coilDrive (asked 0) = .idle ∧ coilDrive (asked 2) = .idle ∨
          coilDrive (asked 0) = .forward ∧ coilDrive (asked 2) ≠ .reverse) := by
  obtain ⟨hx,hy,hz⟩ := h
  rw [hx,hz]
  generalize coilDrive (asked 0) = x
  generalize coilDrive (asked 2) = z
  obtain hy | ⟨hforward,hidle⟩ := hy
  · rw [hy]
    generalize coilDrive (asked 1) = y
    cases x <;> cases y <;> cases z <;> decide
  · rw [hforward,hidle]
    cases x <;> cases z <;> decide

/-- After every run of calls that return OK the levels match the command in effect only where
nothing is energised or X is driven forward, Y idle and Z not in reverse. Even then a pin has
been written that was not configured as an output. -/
theorem pins_match_command_iff (level : GpioPin → Bool) (calls : List MagnetorquerCall)
    (m : Magnetorquer) (hrun : run okCall (powerOn level).magnetorquerInitialize calls = some m) :
    (m.gpio.coilLevels = CoilLevels.wanted (coilDrive (effectiveDipole calls 0))
        (coilDrive (effectiveDipole calls 1)) (coilDrive (effectiveDipole calls 2)) ↔
      coilDrive (effectiveDipole calls 1) = .idle ∧
        (coilDrive (effectiveDipole calls 0) = .idle ∧
            coilDrive (effectiveDipole calls 2) = .idle ∨
          coilDrive (effectiveDipole calls 0) = .forward ∧
            coilDrive (effectiveDipole calls 2) ≠ .reverse)) ∧
    ¬(m.gpio.coilLevels = CoilLevels.wanted (coilDrive (effectiveDipole calls 0))
        (coilDrive (effectiveDipole calls 1)) (coilDrive (effectiveDipole calls 2)) ∧
      ∀ p ∈ m.gpio.written,p ∈ m.gpio.outputs) := by
  obtain ⟨hdrives,hrecords⟩ := (initialize_drives (powerOn level)).run (Records.self 0) hrun
  have hstray : StrayPin m.gpio :=
    run_invariant (I := fun m : Magnetorquer => StrayPin m.gpio)
      (fun _ _ _ hs hstep => hs.step hstep) (strayPin_initialized level) hrun
  constructor
  · rw [hdrives.levels]
    exact hrecords.levels_iff
  · exact fun hboth => hstray.notOutput (hboth.2 _ hstray.written)

/-- X forward, then also Z: the levels match. -/
theorem pins_match_x_forward_with_z :
    let calls : List MagnetorquerCall := [.setChannel .x .forward,.setChannel .z .forward]
    ∃ m,run okCall (powerOn fun _ => true).magnetorquerInitialize calls = some m ∧
      m.gpio.coilLevels = CoilLevels.wanted (coilDrive (effectiveDipole calls 0))
        (coilDrive (effectiveDipole calls 1)) (coilDrive (effectiveDipole calls 2)) := by
  intro calls
  have hsome : (run okCall (powerOn fun _ => true).magnetorquerInitialize calls).isSome = true := by
    decide +kernel
  obtain ⟨m,hm⟩ := Option.isSome_iff_exists.mp hsome
  exact ⟨m,hm,(pins_match_command_iff _ calls m hm).1.mpr (by decide +kernel)⟩

/-- X asked in reverse: rail and indicator are on, but no input of a coil is, and both drivers
sleep. -/
theorem reverse_x_not_driven :
    (run okCall (powerOn fun _ => false).magnetorquerInitialize
        [.set (some ⟨![.dyadic (-13421773) 26,0,0],1⟩)]).map (·.gpio.coilLevels) =
      some ⟨false,false,false,false,false,false,false,false,true,true⟩ ∧
    coilDrive (effectiveDipole [.set (some ⟨![.dyadic (-13421773) 26,0,0],1⟩)] 0) = .reverse := by
  constructor
  · decide +kernel
  · decide +kernel

end Magnetorquer

end FlightSoftware.Adcs
