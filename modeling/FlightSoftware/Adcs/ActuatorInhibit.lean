import FlightSoftware.Adcs.Tasks

/-!
# Inhibited actuators

The control task drops the controller's command when its snapshot says that the
actuators are inhibited, and then replaces the command by the manual one while that
overrides. So an inhibited cycle drives nothing exactly when the override is off.
-/

namespace FlightSoftware.Adcs
open Run

/-- The snapshot of a cycle that is about to actuate, with the command it is about to pass to
`magnetorquer_set`. -/
def AdcsTasks.pending (s : AdcsTasks) : Option (AdcsManagerState × MagnetorquerCommand) :=
  match s.control with
  | .actuate snapshot command _ => some (snapshot,commandPassed s.manual command)
  | _ => none

/-! ### The invariant -/

/-- The controller's own command obeys the snapshot. -/
def ControlPhase.Obeys : ControlPhase → Prop
  | .noteError snapshot command _ | .actuate snapshot command _ =>
    snapshot.actuatorsInhibited ≠ 0 → command.enabled = 0
  | _ => True

/-- The override is on exactly while the manual command is enabled. -/
structure AdcsTasks.Commanded (s : AdcsTasks) : Prop where
  manual : s.manual.override = s.manual.command.enabled
  control : s.control.Obeys

theorem controlCompute_obeys (snapshot : AdcsManagerState) (result : AdcsResult)
    (output : AdcsControlOutput) : (controlCompute snapshot result output).Obeys := by
  simp only [controlCompute]
  split_ifs with hdrive
  · exact fun hinhibited => absurd hdrive.2.1 hinhibited
  · exact fun _ => rfl
  · exact fun _ => rfl

theorem controlActuated_obeys (status : MagnetorquerStatus) (output : AdcsControlOutput) :
    (controlActuated status output).Obeys := by
  rw [controlActuated]
  split <;> trivial

theorem ManualMagnetorquer.set_override {manual : ManualMagnetorquer}
    (h : manual.override = manual.command.enabled) (axis direction : BitVec 8) :
    (manual.set axis direction).override = (manual.set axis direction).command.enabled := by
  rw [ManualMagnetorquer.set]
  split
  · rfl
  · exact h

/-- What a step does to the manual command. -/
def TaskStep.onManual (manual : ManualMagnetorquer) : TaskStep → ManualMagnetorquer
  | .setManualMagnetorquer axis direction => manual.set axis direction
  | _ => manual

namespace AdcsTasks

variable {p : Platform} {s s' : AdcsTasks}

/-- Only the command task touches the manual command. -/
theorem step_manual {a : TaskStep} (hstep : s.step p a = some s') :
    s'.manual = a.onManual s.manual := by
  cases a with
  | control c =>
    rw [AdcsTasks.step,AdcsTasks.stepControl.eq_def] at hstep
    split at hstep
    case h_8 => cases hstep
    all_goals
      obtain rfl := Option.some.inj hstep
      rfl
  | housekeeping c =>
    rw [AdcsTasks.step,AdcsTasks.stepHousekeeping.eq_def] at hstep
    split at hstep
    case h_9 => cases hstep
    all_goals
      obtain rfl := Option.some.inj hstep
      rfl
  | setManualMagnetorquer axis direction =>
    obtain rfl := Option.some.inj hstep
    rfl
  | other c =>
    rw [AdcsTasks.step] at hstep
    split at hstep
    · obtain rfl := Option.some.inj hstep
      rfl
    · cases hstep

theorem Commanded.stepControl {c : ControlStep} (h : s.Commanded)
    (hstep : s.stepControl p c = some s') : s'.Commanded := by
  rw [AdcsTasks.stepControl.eq_def] at hstep
  split at hstep
  case h_8 => cases hstep
  all_goals obtain rfl := Option.some.inj hstep
  case h_3 => exact ⟨h.manual,controlCompute_obeys _ _ _⟩
  -- noting an error passes the command on
  case h_4 hphase =>
    refine ⟨h.manual,?_⟩
    have hobeys := h.control
    rw [hphase] at hobeys
    exact hobeys
  case h_5 => exact ⟨h.manual,controlActuated_obeys _ _⟩
  all_goals exact ⟨h.manual,trivial⟩

theorem Commanded.stepHousekeeping {c : HousekeepingStep} (h : s.Commanded)
    (hstep : s.stepHousekeeping p c = some s') : s'.Commanded := by
  rw [AdcsTasks.stepHousekeeping.eq_def] at hstep
  split at hstep
  case h_9 => cases hstep
  all_goals
    obtain rfl := Option.some.inj hstep
    exact ⟨h.manual,h.control⟩

theorem Commanded.step {a : TaskStep} (h : s.Commanded) (hstep : s.step p a = some s') :
    s'.Commanded := by
  cases a with
  | control c => exact h.stepControl hstep
  | housekeeping c => exact h.stepHousekeeping hstep
  | setManualMagnetorquer axis direction =>
    obtain rfl := Option.some.inj hstep
    exact ⟨ManualMagnetorquer.set_override h.manual axis direction,h.control⟩
  | other c =>
    simp only [AdcsTasks.step] at hstep
    split at hstep
    · obtain rfl := Option.some.inj hstep
      exact ⟨h.manual,h.control⟩
    · cases hstep

theorem commanded_init : init.Commanded := ⟨rfl,trivial⟩

theorem commanded_of_run {actions : List TaskStep}
    (hrun : run (AdcsTasks.step p) init actions = some s) : s.Commanded :=
  run_invariant (fun _ _ _ => Commanded.step) commanded_init hrun

/-- In every cycle of every run whose snapshot is inhibited, the coils stay off if and only if
the manual override is off. -/
theorem inhibited_off_iff_manual_off {actions : List TaskStep}
    (hrun : run (AdcsTasks.step p) init actions = some s) {snapshot : AdcsManagerState}
    {command : MagnetorquerCommand} (hpending : s.pending = some (snapshot,command))
    (hinhibited : snapshot.actuatorsInhibited ≠ 0) :
    command.enabled = 0 ↔ s.manual.override = 0 := by
  have hinv := commanded_of_run hrun
  rw [pending] at hpending
  split at hpending
  case h_2 => cases hpending
  case h_1 snapshot' command' output hphase =>
    have hobeys := hinv.control
    rw [hphase] at hobeys
    obtain ⟨rfl,rfl⟩ := Prod.mk.inj (Option.some.inj hpending)
    rw [commandPassed]
    split
    · -- the manual command is passed, and it is enabled while it overrides
      rw [hinv.manual]
    · next hoff => exact iff_of_true (hobeys hinhibited) (not_not.mp hoff)

/-! ### Two runs on the board -/

def boardPlatform : Platform := ⟨.exact,true⟩

def boardCommands : CommandEnvironment := ⟨fun _ => .ok,fun _ => .unavailable,fun _ => ![0,0,0,1]⟩

/-- A control cycle in BOOT up to the call of the driver. The controller has nothing to do
there and returns an empty output. -/
def bootCycle : List TaskStep :=
  [.control (.update 50000),.control .getState,.control (.compute .ok {})]

def inhibitedRun : List TaskStep :=
  executeCommand boardPlatform boardCommands (.disableActuators 1) ++ bootCycle

def manualInhibitedRun : List TaskStep :=
  executeCommand boardPlatform boardCommands (.setMagnetorquer 0 1) ++
    executeCommand boardPlatform boardCommands (.disableActuators 1) ++ bootCycle

/-- The inhibit flag of the snapshot and the enable flag of the command, in a cycle that is
about to actuate. -/
def pendingFlags (s : AdcsTasks) : Option (BitVec 8 × BitVec 8) :=
  s.pending.map fun x => (x.1.actuatorsInhibited,x.2.enabled)

theorem exists_pending_of_flags {actions : List TaskStep} {inhibited enabled : BitVec 8}
    (h : (run (AdcsTasks.step p) init actions).bind pendingFlags = some (inhibited,enabled)) :
    ∃ t snapshot command,run (AdcsTasks.step p) init actions = some t ∧
      t.pending = some (snapshot,command) ∧ snapshot.actuatorsInhibited = inhibited ∧
      command.enabled = enabled := by
  obtain ⟨t,hrun,hflags⟩ := Option.bind_eq_some_iff.mp h
  obtain ⟨⟨snapshot,command⟩,hpending,heq⟩ := Option.map_eq_some_iff.mp hflags
  obtain ⟨hinhibited,henabled⟩ := Prod.mk.inj heq
  exact ⟨t,snapshot,command,hrun,hpending,hinhibited,henabled⟩

/-- Without a manual command the next cycle is off. -/
theorem inhibited_cycle_off :
    ∃ t snapshot command,
      run (AdcsTasks.step boardPlatform) init inhibitedRun = some t ∧
      t.pending = some (snapshot,command) ∧ snapshot.actuatorsInhibited ≠ 0 ∧
      t.manual.override = 0 := by
  have hflags : (run (AdcsTasks.step boardPlatform) init inhibitedRun).bind pendingFlags =
      some (1,0) := by decide +kernel
  obtain ⟨t,snapshot,command,hrun,hpending,hinhibited,henabled⟩ := exists_pending_of_flags hflags
  have hne : snapshot.actuatorsInhibited ≠ 0 := by
    rw [hinhibited]
    decide
  exact ⟨t,snapshot,command,hrun,hpending,hne,
    (inhibited_off_iff_manual_off hrun hpending hne).mp henabled⟩

/-- A manual command stays on the coils after the actuators are inhibited. -/
theorem manual_command_ignores_inhibit :
    ∃ t snapshot command,
      run (AdcsTasks.step boardPlatform) init manualInhibitedRun = some t ∧
      t.pending = some (snapshot,command) ∧ snapshot.actuatorsInhibited ≠ 0 ∧
      command.enabled ≠ 0 := by
  have hflags : (run (AdcsTasks.step boardPlatform) init manualInhibitedRun).bind pendingFlags =
      some (1,1) := by decide +kernel
  obtain ⟨t,snapshot,command,hrun,hpending,hinhibited,henabled⟩ := exists_pending_of_flags hflags
  have hne : (1 : BitVec 8) ≠ 0 := by decide
  exact ⟨t,snapshot,command,hrun,hpending,hinhibited ▸ hne,henabled ▸ hne⟩

end AdcsTasks

end FlightSoftware.Adcs
