import FlightSoftware.Adcs.ModeSafety
import FlightSoftware.Adcs.ActuatorInhibit

/-!
# The switch over the mode

An update either ends in one of its checks or reaches the switch over the mode. From
this follows what an update does to the request, to the mode and to the guidance
target. A settled SUN_ACQUISITION or SLEWING goes on by itself and overwrites the
request, which may be for some other mode.
-/

namespace FlightSoftware.Adcs
open Run

namespace AdcsManager

/-! ### Where an update stands at the switch -/

section Switch

variable (p : Platform)

/-- The manager with which an update from a mode other than BOOT reaches the switch, if none
of the checks ends it. -/
def switchAfterBoot (nowUs : BitVec 64) (m : AdcsManager) : Option AdcsManager :=
  if !m.sensorsReady p || !m.sensorsFresh nowUs then none
  else if !(m.bodyRate p).isfinite || m.config.excessiveRateRadS.lt (m.bodyRate p) then none
  else if m.state.requestedMode ≠ .safe ∧ m.state.mode.needsAttitude = true ∧
      m.attitudeUsable p nowUs = false then none
  else some (m.applyRequest p nowUs)

/-- The manager with which an update reaches the switch, if it does. -/
def atSwitch (activeFaults : BitVec 32) (nowUs : BitVec 64) (m : AdcsManager) :
    Option AdcsManager :=
  if m.state.initialized = 0 ∨ activeFaults &&& criticalFaults ≠ 0 then none
  else
    let m := m.recordFaults activeFaults
    if m.state.mode = .boot then
      if m.sensorsReady p && m.sensorsFresh nowUs then
        (m.enterMode .safe).switchAfterBoot p nowUs
      else none
    else m.switchAfterBoot p nowUs

/-- The result of the controller is a new one of the present SUN_ACQUISITION. -/
def CountsControl (nowUs : BitVec 64) (m : AdcsManager) : Prop :=
  let control := m.state.latestControl
  control.sourceMode = .sunAcquisition ∧ m.state.modeEnteredUs < control.timestampUs ∧
    control.timestampUs ≤ nowUs ∧ nowUs-control.timestampUs ≤ m.config.sensorStaleAfterUs ∧
    m.state.lastCountedControlTimestampUs < control.timestampUs

/-- SUN_ACQUISITION completes with this result of the controller. -/
def SunSettles (nowUs : BitVec 64) (m : AdcsManager) : Prop :=
  let control := m.state.latestControl
  m.CountsControl nowUs ∧ (control.pointingErrorValid != 0 && control.pointingErrorRad.isfinite &&
      control.pointingErrorRad.le managerSunSettledErrorRad &&
      (m.bodyRate p).le m.config.detumbleEntryRateRadS) = true ∧
    m.config.sunAcquisitionSettleCycles ≤ m.state.stableCycles+1

instance (nowUs : BitVec 64) (m : AdcsManager) : Decidable (m.CountsControl nowUs) :=
  inferInstanceAs (Decidable (_ ∧ _ ∧ _ ∧ _ ∧ _))

instance (nowUs : BitVec 64) (m : AdcsManager) : Decidable (m.SunSettles p nowUs) :=
  inferInstanceAs (Decidable (_ ∧ _ ∧ _))

/-- The mode that the switch goes on to because the present one has settled. -/
def settledTo (nowUs : BitVec 64) (m : AdcsManager) : Option AdcsMode :=
  match m.state.mode with
  | .sunAcquisition => if m.SunSettles p nowUs then some .sunPointing else none
  | .slewing => if m.state.latestControl.targetSettled ≠ 0 then some .targetPointing else none
  | _ => none

/-- A request is pending, and the update goes on from a settled mode to one that the request
is not for. -/
def overwritesRequest (activeFaults : BitVec 32) (nowUs : BitVec 64) (m : AdcsManager) : Bool :=
  decide (m.state.requestedMode ≠ m.state.mode) &&
    (m.atSwitch p activeFaults nowUs).any fun m' =>
      (m'.settledTo p nowUs).any fun next => decide (next ≠ m.state.requestedMode)

/-- The update enters SLEWING, which it may leave again at the switch. -/
def entersSlewing (activeFaults : BitVec 32) (nowUs : BitVec 64) (m : AdcsManager) : Bool :=
  (m.atSwitch p activeFaults nowUs).any fun m' =>
    if m'.state.mode = .slewing then decide (m.state.mode ≠ .slewing)
    else decide ((m'.advanceMode p nowUs).state.mode = .slewing)

end Switch

variable {p : Platform} {activeFaults : BitVec 32} {nowUs : BitVec 64} {m m' : AdcsManager}

/-! ### What a change of mode leaves alone -/

/-- Everything that an update does not write before the switch, and that the switch leaves
alone unless it goes on from a settled mode. -/
structure SameRequest (m m' : AdcsManager) : Prop where
  requestedMode : m'.state.requestedMode = m.state.requestedMode
  latestControl : m'.state.latestControl = m.state.latestControl
  guidanceTarget : m'.state.guidanceTarget = m.state.guidanceTarget

theorem SameRequest.refl (m : AdcsManager) : SameRequest m m := ⟨rfl,rfl,rfl⟩

theorem SameRequest.trans {m'' : AdcsManager} (h : SameRequest m m') (h' : SameRequest m' m'') :
    SameRequest m m'' :=
  ⟨h'.requestedMode.trans h.requestedMode,h'.latestControl.trans h.latestControl,
    h'.guidanceTarget.trans h.guidanceTarget⟩

theorem enterMode_sameRequest (mode : AdcsMode) (m : AdcsManager) :
    SameRequest m (m.enterMode mode) := by
  rw [enterMode]
  split <;> exact ⟨rfl,rfl,rfl⟩

theorem applyRequest_sameRequest : SameRequest m (m.applyRequest p nowUs) := by
  rw [applyRequest]
  split_ifs
  · exact enterMode_sameRequest _ m
  · exact enterMode_sameRequest _ m
  · exact enterMode_sameRequest _ m
  · exact .refl m

theorem switchAfterBoot_sameRequest (h : m.switchAfterBoot p nowUs = some m') :
    SameRequest m m' := by
  rw [switchAfterBoot] at h
  split_ifs at h
  obtain rfl := Option.some.inj h
  exact applyRequest_sameRequest

theorem atSwitch_sameRequest (h : m.atSwitch p activeFaults nowUs = some m') :
    SameRequest m m' := by
  have hrecord : SameRequest m (m.recordFaults activeFaults) := ⟨rfl,rfl,rfl⟩
  simp only [atSwitch] at h
  split_ifs at h
  · exact (hrecord.trans (enterMode_sameRequest _ _)).trans (switchAfterBoot_sameRequest h)
  · exact hrecord.trans (switchAfterBoot_sameRequest h)

/-! ### Built-in targets -/

/-- Only the sun and earth modes imply a target. -/
theorem builtinTarget_eq_none (hacquisition : m.state.mode ≠ .sunAcquisition)
    (hsun : m.state.mode ≠ .sunPointing) (hearth : m.state.mode ≠ .earthPointing) :
    m.builtinTarget p = none := by
  have hmode : ¬(m.state.mode = .sunAcquisition ∨ m.state.mode = .sunPointing) :=
    not_or.mpr ⟨hacquisition,hsun⟩
  simp only [builtinTarget]
  rw [if_neg fun h => hmode h.1,if_neg fun h => hearth h.1]

theorem adcsGuidanceTargetFromVector_mode {mode : AdcsMode} {axis direction : Vector3}
    {rate : CFloat} {target : AdcsGuidanceTarget}
    (h : adcsGuidanceTargetFromVector p mode axis direction rate = some target) :
    target.mode = mode := by
  rw [adcsGuidanceTargetFromVector] at h
  split at h
  · cases h
  · simp only [Option.bind_eq_bind,Option.bind_eq_some_iff,Option.some.injEq] at h
    obtain ⟨-,-,-,-,-,-,rfl⟩ := h
    rfl

/-- A target that a mode implies carries that mode, which is not SLEWING. -/
theorem builtinTarget_mode {target : AdcsGuidanceTarget} (h : m.builtinTarget p = some target) :
    target.mode ≠ .slewing := by
  simp only [builtinTarget] at h
  split_ifs at h with hsun hearth
  · rw [adcsGuidanceTargetFromVector_mode h]
    rcases hsun.1 with hmode | hmode <;> rw [hmode] <;> nofun
  · rw [adcsGuidanceTargetFromVector_mode h,hearth.1]
    nofun

/-! ### The switch -/

theorem advanceSafe_sameRequest : SameRequest m (m.advanceSafe p nowUs) := by
  rw [advanceSafe]
  split_ifs
  · exact .refl m
  · exact enterMode_sameRequest _ m
  · exact enterMode_sameRequest _ m
  · exact .refl m

theorem advanceDetumble_sameRequest : SameRequest m (m.advanceDetumble p nowUs) := by
  have hcount (n : BitVec 32) : SameRequest m { m with state.stableCycles := n } := ⟨rfl,rfl,rfl⟩
  simp only [advanceDetumble]
  split_ifs
  · exact (hcount _).trans (enterMode_sameRequest _ _)
  · exact (hcount _).trans (enterMode_sameRequest _ _)
  · exact hcount _
  · exact hcount _

/-- What a case of the switch does: go on to the mode `next` and request it, or leave the
request alone. -/
inductive Advanced (m m' : AdcsManager) : Option AdcsMode → Prop
  | settled {next : AdcsMode} (hmode : m'.state.mode = next)
      (hrequested : m'.state.requestedMode = next)
      (hcontrol : m'.state.latestControl = m.state.latestControl)
      (htarget : m'.state.guidanceTarget = m.state.guidanceTarget) : Advanced m m' (some next)
  | unsettled (same : SameRequest m m') : Advanced m m' none

theorem advanced_enterMode {next : AdcsMode} (hrequested : m'.state.requestedMode = next)
    (hcontrol : m'.state.latestControl = m.state.latestControl)
    (htarget : m'.state.guidanceTarget = m.state.guidanceTarget) :
    Advanced m (m'.enterMode next) (some next) := by
  have same := enterMode_sameRequest next m'
  exact .settled (enterMode_mode _ _) (same.requestedMode.trans hrequested)
    (same.latestControl.trans hcontrol) (same.guidanceTarget.trans htarget)

theorem advanceSunAcquisition_advanced :
    Advanced m (m.advanceSunAcquisition p nowUs)
      (if m.SunSettles p nowUs then some .sunPointing else none) := by
  generalize hnext : (if m.SunSettles p nowUs then some AdcsMode.sunPointing else none) = next
  simp only [advanceSunAcquisition]
  split_ifs with hold hcounted hsettled hcycles
  · have hnot : ¬m.SunSettles p nowUs := by
      rintro ⟨⟨hsource,hentered,hnow,hstale,-⟩,-⟩
      rcases hold with h | h | h | h
      · exact h hsource
      · exact BitVec.not_lt.mpr h hentered
      · exact BitVec.not_lt.mpr hnow h
      · exact BitVec.not_lt.mpr hstale h
    obtain rfl := (if_neg hnot).symm.trans hnext
    exact .unsettled ⟨rfl,rfl,rfl⟩
  · obtain rfl := (if_neg fun h => BitVec.not_lt.mpr hcounted h.1.2.2.2.2).symm.trans hnext
    exact .unsettled (.refl m)
  · have hcount : m.CountsControl nowUs := by
      simp only [not_or,not_not,BitVec.not_le,BitVec.not_lt] at hold hcounted
      exact ⟨hold.1,hold.2.1,hold.2.2.1,hold.2.2.2,hcounted⟩
    obtain rfl := (if_pos ⟨hcount,hsettled,hcycles⟩).symm.trans hnext
    exact advanced_enterMode rfl rfl rfl
  · obtain rfl := (if_neg fun h => hcycles h.2.2).symm.trans hnext
    exact .unsettled ⟨rfl,rfl,rfl⟩
  · obtain rfl := (if_neg fun h => hsettled h.2.1).symm.trans hnext
    exact .unsettled ⟨rfl,rfl,rfl⟩

theorem advanceSlewing_advanced :
    Advanced m m.advanceSlewing
      (if m.state.latestControl.targetSettled ≠ 0 then some .targetPointing else none) := by
  rw [advanceSlewing]
  split
  · exact advanced_enterMode rfl rfl rfl
  · exact .unsettled (.refl m)

theorem advanceMode_advanced :
    Advanced m (m.advanceMode p nowUs) (m.settledTo p nowUs) := by
  rw [advanceMode,settledTo]
  cases m.state.mode with
  | safe => exact .unsettled advanceSafe_sameRequest
  | detumble => exact .unsettled advanceDetumble_sameRequest
  | sunAcquisition => exact advanceSunAcquisition_advanced
  | slewing => exact advanceSlewing_advanced
  | _ => exact .unsettled (.refl m)

/-- SLEWING is left at the switch only for TARGET_POINTING. -/
theorem advanceMode_of_slewing (hm : m.state.mode = .slewing) :
    (m.advanceMode p nowUs).state.mode =
      if m.state.latestControl.targetSettled ≠ 0 then .targetPointing else .slewing := by
  simp only [advanceMode,hm,advanceSlewing]
  split
  · exact enterMode_mode _ _
  · exact hm

/-! ### The update -/

theorem switchAfterBoot_spec (m : AdcsManager) :
    (m.switchAfterBoot p nowUs = none ∧
      ∃ mode,(mode = .safe ∨ mode = .detumble) ∧ m.updateAfterBoot p nowUs = m.enterMode mode) ∨
    ∃ m',m.switchAfterBoot p nowUs = some m' ∧
      m.updateAfterBoot p nowUs = (m'.advanceMode p nowUs).refreshBuiltinTarget p := by
  rw [switchAfterBoot,updateAfterBoot]
  split_ifs
  · exact .inl ⟨rfl,_,.inl rfl,rfl⟩
  · exact .inl ⟨rfl,_,.inl rfl,rfl⟩
  · exact .inl ⟨rfl,_,.inr rfl,rfl⟩
  · exact .inr ⟨_,rfl,rfl⟩

/-- An update that does not reach the switch does nothing, or stays in BOOT, or falls back to
a mode without a target of its own. -/
inductive Ended (m m' : AdcsManager) : Prop
  | uninitialized (h : m.state.initialized = 0) (heq : m' = m)
  | fallBack (same : SameRequest m m')
      (hmode : m'.state.mode = .boot ∨ m'.state.mode = .safe ∨ m'.state.mode = .detumble)

theorem Ended.requestedMode (h : Ended m m') : m'.state.requestedMode = m.state.requestedMode := by
  cases h with
  | uninitialized _ heq => rw [heq]
  | fallBack same _ => exact same.requestedMode

theorem ended_enterMode {mode : AdcsMode} (same : SameRequest m m')
    (hmode : mode = .safe ∨ mode = .detumble) : Ended m (m'.enterMode mode) := by
  refine .fallBack (same.trans (enterMode_sameRequest _ _)) (.inr ?_)
  rwa [enterMode_mode]

/-- An update ends in one of its checks, or it is the switch and then the target that the mode
implies. -/
theorem update_spec (p : Platform) (activeFaults : BitVec 32) (nowUs : BitVec 64)
    (m : AdcsManager) :
    (m.atSwitch p activeFaults nowUs = none ∧ Ended m (m.update p activeFaults nowUs)) ∨
    ∃ m',m.atSwitch p activeFaults nowUs = some m' ∧
      m.update p activeFaults nowUs = (m'.advanceMode p nowUs).refreshBuiltinTarget p := by
  have hrecord : SameRequest m (m.recordFaults activeFaults) := ⟨rfl,rfl,rfl⟩
  have hsafe (m : AdcsManager) :
      (m.enterMode .safe).refreshBuiltinTarget p = m.enterMode .safe := by
    rw [refreshBuiltinTarget,builtinTarget_eq_none]
    · rfl
    all_goals
      rw [enterMode_mode]
      nofun
  by_cases hinit : m.state.initialized = 0
  · refine .inl ⟨if_pos (.inl hinit),?_⟩
    rw [update,if_pos hinit]
    exact .uninitialized hinit rfl
  have hactive : (m.recordFaults activeFaults).state.health.activeFaults = activeFaults := rfl
  rw [update,if_neg hinit,updateRecorded,hactive]
  by_cases hcritical : activeFaults &&& criticalFaults ≠ 0
  · refine .inl ⟨if_pos (.inr hcritical),?_⟩
    rw [if_pos hcritical,hsafe]
    exact ended_enterMode hrecord (.inl rfl)
  rw [if_neg hcritical,atSwitch,if_neg (not_or.mpr ⟨hinit,hcritical⟩)]
  simp only
  split_ifs with hboot hsensors
  -- BOOT is left in this update, which then goes on as from SAFE
  · rcases switchAfterBoot_spec ((m.recordFaults activeFaults).enterMode .safe) with
      ⟨hnone,mode,hmode,heq⟩ | hswitch
    · rw [heq]
      exact .inl ⟨hnone,ended_enterMode (hrecord.trans (enterMode_sameRequest _ _)) hmode⟩
    · exact .inr hswitch
  · exact .inl ⟨rfl,.fallBack hrecord (.inl hboot)⟩
  · rcases switchAfterBoot_spec (m.recordFaults activeFaults) with
      ⟨hnone,mode,hmode,heq⟩ | hswitch
    · rw [heq]
      exact .inl ⟨hnone,ended_enterMode hrecord hmode⟩
    · exact .inr hswitch

/-- The guidance target after an update is the one that the mode it leaves implies, or the old
one. -/
theorem update_guidanceTarget (hinit : m.state.initialized ≠ 0) :
    (m.update p activeFaults nowUs).state.guidanceTarget =
      ((m.update p activeFaults nowUs).builtinTarget p).getD m.state.guidanceTarget := by
  rcases update_spec p activeFaults nowUs m with ⟨-,hended⟩ | ⟨m',hswitch,heq⟩
  · cases hended with
    | uninitialized h _ => exact absurd h hinit
    | fallBack same hmode =>
      rw [builtinTarget_eq_none,same.guidanceTarget]
      · rfl
      all_goals rcases hmode with h | h | h <;> rw [h] <;> nofun
  · have htarget : (m'.advanceMode p nowUs).state.guidanceTarget = m.state.guidanceTarget := by
      rw [← (atSwitch_sameRequest hswitch).guidanceTarget]
      have hadvance : Advanced m' (m'.advanceMode p nowUs) _ := advanceMode_advanced
      generalize m'.settledTo p nowUs = next at hadvance
      cases hadvance with
      | settled _ _ _ htarget => exact htarget
      | unsettled same => exact same.guidanceTarget
    rw [heq,← htarget]
    rfl

/-- An update that enters SLEWING leaves the guidance target alone. -/
theorem guidanceTarget_of_entersSlewing (h : m.entersSlewing p activeFaults nowUs = true)
    (hinit : m.state.initialized ≠ 0) :
    (m.update p activeFaults nowUs).state.guidanceTarget = m.state.guidanceTarget := by
  obtain ⟨m',hswitch,hm'⟩ := (Option.any_eq_true _ _).mp h
  rcases update_spec p activeFaults nowUs m with ⟨hnone,-⟩ | ⟨m₁,hm₁,heq⟩
  · rw [hnone] at hswitch
    cases hswitch
  rw [hswitch] at hm₁
  cases hm₁
  have hmode : (m.update p activeFaults nowUs).state.mode = .slewing ∨
      (m.update p activeFaults nowUs).state.mode = .targetPointing := by
    rw [heq,refreshBuiltinTarget_mode]
    split at hm'
    · next hslewing =>
      rw [advanceMode_of_slewing hslewing]
      split
      · exact .inr rfl
      · exact .inl rfl
    · exact .inl (of_decide_eq_true hm')
  rw [update_guidanceTarget hinit,builtinTarget_eq_none]
  · rfl
  all_goals rcases hmode with h | h <;> rw [h] <;> nofun

/-! ### Requests -/

/-- A pending request is still there, or it has been followed. -/
def RequestKept (m m' : AdcsManager) : Prop :=
  m.state.requestedMode ≠ m.state.mode →
    m'.state.requestedMode = m.state.requestedMode ∨ m'.state.mode = m.state.requestedMode

theorem update_requestKept_iff :
    RequestKept m (m.update p activeFaults nowUs) ↔
      m.overwritesRequest p activeFaults nowUs = false := by
  rcases update_spec p activeFaults nowUs m with ⟨hnone,hended⟩ | ⟨m',hswitch,heq⟩
  · rw [overwritesRequest,hnone,Option.any_none,Bool.and_false]
    exact iff_of_true (fun _ => .inl hended.requestedMode) rfl
  · have hsame := (atSwitch_sameRequest hswitch).requestedMode
    rw [overwritesRequest,hswitch,Option.any_some,heq]
    have hadvance : Advanced m' (m'.advanceMode p nowUs) _ := advanceMode_advanced
    generalize m'.settledTo p nowUs = next at hadvance ⊢
    cases hadvance with
    | settled hmode hrequested _ _ =>
      simp only [RequestKept,refreshBuiltinTarget,hmode,hrequested,or_self,Option.any_some,
        Bool.and_eq_false_iff,decide_eq_false_iff_not,not_not]
      exact Decidable.imp_iff_not_or.trans (by rw [not_not])
    | unsettled same =>
      rw [Option.any_none,Bool.and_false]
      exact iff_of_true (fun _ => .inl (same.requestedMode.trans hsame)) rfl

end AdcsManager

/-- Apart from an update, the target and the control output are changed only by the call that
stores them. -/
theorem AdcsSystem.call_keeps {p : Platform} (s : AdcsSystem) (c : AdcsCall)
    (hupdate : ∀ nowUs,c ≠ .update nowUs) :
    ((∀ target,c ≠ .setGuidanceTarget target) →
      (s.call p c).manager.state.guidanceTarget = s.manager.state.guidanceTarget) ∧
    ((∀ control,c ≠ .setControlOutput control) →
      (s.call p c).manager.state.latestControl = s.manager.state.latestControl) := by
  cases c with
  | update nowUs => exact absurd rfl (hupdate nowUs)
  | setGuidanceTarget target =>
    refine ⟨fun h => absurd rfl (h target),fun _ => ?_⟩
    cases target with
    | none => rfl
    | some target =>
      simp only [AdcsSystem.call,AdcsManager.setGuidanceTarget]
      split
      · rfl
      · split <;> rfl
  | setControlOutput control =>
    refine ⟨fun _ => ?_,fun h => absurd rfl (h control)⟩
    simp only [AdcsSystem.call,AdcsManager.setControlOutput]
    split <;> rfl
  | configure config =>
    simp only [AdcsSystem.call,AdcsManager.configure]
    split <;> exact ⟨fun _ => rfl,fun _ => rfl⟩
  | requestMode mode =>
    simp only [AdcsSystem.call,AdcsManager.requestMode]
    split <;> exact ⟨fun _ => rfl,fun _ => rfl⟩
  | setSensors sensors =>
    simp only [AdcsSystem.call,AdcsManager.setSensors]
    split <;> exact ⟨fun _ => rfl,fun _ => rfl⟩
  | setAttitude attitude =>
    simp only [AdcsSystem.call,AdcsManager.setAttitude]
    split <;> exact ⟨fun _ => rfl,fun _ => rfl⟩
  | _ => exact ⟨fun _ => rfl,fun _ => rfl⟩

namespace AdcsTasks

variable {p : Platform} {s s' : AdcsTasks} {a : TaskStep} {nowUs : BitVec 64}

/-! ### Calls of a step -/

/-- The call that the step makes, if it makes one. -/
def calling (s : AdcsTasks) : TaskStep → Option AdcsCall
  | .control (.update nowUs) => some (.update nowUs)
  | .control .noteError => some .noteControllerError
  | .control .report => some (.faultReport adcsFaultActuator)
  | .control .setOutput =>
    match s.control with
    | .setOutput output => some (.setControlOutput output)
    | _ => none
  | .housekeeping .clear =>
    match s.housekeeping with
    | .clear _ _ observed latched => some (.faultClear (clearMask observed latched))
    | _ => none
  | .housekeeping .report =>
    match s.housekeeping with
    | .report _ _ observed => some (.faultReport observed)
    | _ => none
  | .housekeeping .setHealth =>
    match s.housekeeping with
    | .setHealth _ health => some (.setHealth health)
    | _ => none
  | .housekeeping .update =>
    match s.housekeeping with
    | .update nowUs => some (.update nowUs)
    | _ => none
  | .other c => some c
  | _ => none

theorem stepControl_calling {c : ControlStep} (h : s.stepControl p c = some s') :
    s'.system = ((s.calling (.control c)).map (s.system.call p)).getD s.system := by
  rw [stepControl.eq_def] at h
  split at h
  case h_8 => cases h
  case h_7 hphase =>
    obtain rfl := Option.some.inj h
    simp only [calling,hphase]
    rfl
  all_goals
    obtain rfl := Option.some.inj h
    rfl

theorem stepHousekeeping_calling {c : HousekeepingStep} (h : s.stepHousekeeping p c = some s') :
    s'.system = ((s.calling (.housekeeping c)).map (s.system.call p)).getD s.system := by
  rw [stepHousekeeping.eq_def] at h
  split at h
  case h_9 => cases h
  case h_4 | h_5 | h_7 | h_8 =>
    rename_i hphase
    obtain rfl := Option.some.inj h
    simp only [calling,hphase]
    rfl
  all_goals
    obtain rfl := Option.some.inj h
    rfl

/-- A step changes the manager and the fault latch by the call that it makes. -/
theorem step_calling (h : s.step p a = some s') :
    s'.system = ((s.calling a).map (s.system.call p)).getD s.system := by
  cases a with
  | control c => exact stepControl_calling h
  | housekeeping c => exact stepHousekeeping_calling h
  | setManualMagnetorquer axis direction =>
    obtain rfl := Option.some.inj h
    rfl
  | other c =>
    simp only [step] at h
    split at h
    · obtain rfl := Option.some.inj h
      rfl
    · cases h

/-- The time that the step passes to `adcs_manager_update`, if it is a call of it. -/
def updating (s : AdcsTasks) (a : TaskStep) : Option (BitVec 64) :=
  (s.calling a).bind fun
    | .update nowUs => some nowUs
    | _ => none

theorem updating_eq_some : s.updating a = some nowUs ↔ s.calling a = some (.update nowUs) := by
  rw [updating,Option.bind_eq_some_iff]
  constructor
  · rintro ⟨c,hcall,hc⟩
    cases c <;> cases hc
    exact hcall
  · exact fun hcall => ⟨_,hcall,rfl⟩

/-- A step that is not an update, seen by a property that no other call of it changes. -/
theorem step_of_not_updating {α : Type*} (f : AdcsSystem → α) (h : s.step p a = some s')
    (hupdate : s.updating a = none)
    (hcall : ∀ c,s.calling a = some c → (∀ nowUs,c ≠ .update nowUs) →
      f (s.system.call p c) = f s.system) : f s'.system = f s.system := by
  rw [step_calling h]
  cases hc : s.calling a with
  | none => rfl
  | some c =>
    refine hcall c hc ?_
    rintro nowUs rfl
    rw [updating_eq_some.mpr hc] at hupdate
    cases hupdate

/-- The run takes `s` to `s'` by an update at `nowUs`. -/
def UpdateIn (p : Platform) (actions : List TaskStep) (s : AdcsTasks) (nowUs : BitVec 64)
    (s' : AdcsTasks) : Prop :=
  ∃ before a after,actions = before ++ a :: after ∧ run (step p) init before = some s ∧
    s.updating a = some nowUs ∧ s.step p a = some s'

theorem UpdateIn.manager {actions : List TaskStep} (h : UpdateIn p actions s nowUs s') :
    s'.system.manager = s.system.manager.update p s.system.faults.getActive nowUs := by
  obtain ⟨_,_,_,-,-,ha,hstep⟩ := h
  rw [step_calling hstep,updating_eq_some.mp ha]
  rfl

/-! ### A body at rest -/

/-- Everything that the board measures of a body at rest, without the nadir. -/
def restData (nowUs : BitVec 64) : List TaskStep :=
  [.other (.setReferences none (some { sunEciUnit := ![1,0,0],validMask := adcsReferenceValidSun })),
    .other (.setSensors
      { timestampUs := nowUs
        validMask := adcsSensorValidGyroscope ||| adcsSensorValidMagnetometer |||
          adcsSensorValidSun }),
    .other (.setAttitude
      { timestampUs := nowUs
        quaternion := ![0,0,0,1]
        confidence := .dyadic 1 1
        valid := 1 })]

/-- A control cycle, with what the controller reports about the target. -/
def cycleAt (nowUs : BitVec 64) (settled : Bool) : List TaskStep :=
  [.control (.update nowUs),.control .getState,
    .control (.compute .ok
      { timestampUs := nowUs
        actuatorsEnabled := 1
        targetSettled := flag settled }),
    .control (.actuate .ok),.control .setOutput]

/-- Cycles every 50 ms, in the last of which the controller reports the target settled. It does
so after twenty cycles on the target. -/
def settlingCycles (cycles : ℕ) (startUs : BitVec 64) : List TaskStep :=
  (List.range cycles).flatMap fun i =>
    let nowUs := startUs+50000*BitVec.ofNat 64 i
    restData nowUs ++ cycleAt nowUs (decide (i+1 = cycles))

/-! ### Requests of a run -/

/-- In every run, no update loses a request exactly if no update goes on from a settled mode
while the request is for another. -/
theorem requests_kept_iff (p : Platform) (actions : List TaskStep) :
    (∀ s nowUs s',UpdateIn p actions s nowUs s' →
        AdcsManager.RequestKept s.system.manager s'.system.manager) ↔
      ∀ s nowUs s',UpdateIn p actions s nowUs s' →
        s.system.manager.overwritesRequest p s.system.faults.getActive nowUs = false := by
  refine forall_congr' fun s => forall_congr' fun nowUs => forall_congr' fun s' => ?_
  refine forall_congr' fun hupdate => ?_
  rw [hupdate.manager]
  exact AdcsManager.update_requestKept_iff

/-- A settled slew, and then a request for EARTH_POINTING, which has to wait for the nadir. -/
def earthRequestedWhileSettled : List TaskStep :=
  executeCommand boardPlatform boardCommands (.setAttitude ![0,0,0,1]) ++
    settlingCycles 20 1000000 ++ executeCommand boardPlatform boardCommands (.setMode 5) ++
    restData 2000000

/-- The next update goes on to TARGET_POINTING, and the request is gone. -/
theorem earth_request_lost :
    ∃ s s',UpdateIn boardPlatform
        (earthRequestedWhileSettled ++ [.control (.update 2000000)]) s 2000000 s' ∧
      ¬AdcsManager.RequestKept s.system.manager s'.system.manager := by
  have hbefore : (run (step boardPlatform) init earthRequestedWhileSettled).any (fun s =>
      decide (s.system.manager.state.mode = .slewing ∧
        s.system.manager.state.requestedMode = .earthPointing) &&
      (s.step boardPlatform (.control (.update 2000000))).any fun s' =>
        decide (s'.system.manager.state.mode = .targetPointing ∧
          s'.system.manager.state.requestedMode = .targetPointing)) = true := by
    decide +kernel
  obtain ⟨s,hrun,hs⟩ := (Option.any_eq_true _ _).mp hbefore
  obtain ⟨hpending,hstep⟩ := Bool.and_eq_true_iff.mp hs
  obtain ⟨s',hstep,hlost⟩ := (Option.any_eq_true _ _).mp hstep
  obtain ⟨hmode,hrequested⟩ := of_decide_eq_true hpending
  obtain ⟨hmode',hrequested'⟩ := of_decide_eq_true hlost
  refine ⟨s,s',⟨_,_,[],rfl,hrun,rfl,hstep⟩,fun hkept => ?_⟩
  rw [AdcsManager.RequestKept,hmode,hrequested,hmode',hrequested'] at hkept
  exact absurd (hkept nofun) (by decide)

end AdcsTasks

end FlightSoftware.Adcs
