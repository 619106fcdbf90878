import FlightSoftware.Adcs.Manager

/-!
# Mode safety

Whatever calls came before, an update leaves the manager in BOOT or SAFE unless no
critical fault is active and the sensors and the rate allow more, and leaves it in a
pointing mode only with a usable attitude at a low rate. BOOT is left once.
-/

namespace FlightSoftware.Adcs

/-! ### Configurations -/

/-- What every configuration in use satisfies. -/
structure AdcsManagerConfig.Ordered (config : AdcsManagerConfig) : Prop where
  entryFinite : config.detumbleEntryRateRadS.isfinite = true
  exitFinite : config.detumbleExitRateRadS.isfinite = true
  excessiveFinite : config.excessiveRateRadS.isfinite = true
  exit_lt_entry : config.detumbleExitRateRadS.lt config.detumbleEntryRateRadS = true
  entry_lt_excessive : config.detumbleEntryRateRadS.lt config.excessiveRateRadS = true

theorem AdcsManagerConfig.default_ordered : AdcsManagerConfig.default.Ordered where
  entryFinite := rfl
  exitFinite := rfl
  excessiveFinite := rfl
  exit_lt_entry := by
    norm_num [AdcsManagerConfig.default,CFloat.lt,CFloat.dyadic]
  entry_lt_excessive := by
    norm_num [AdcsManagerConfig.default,CFloat.lt,CFloat.dyadic]

/-- The checks on a new configuration are enough. -/
theorem AdcsManagerConfig.ordered_of_accepted {config : AdcsManagerConfig}
    (h : config.accepted = true) : config.Ordered := by
  simp only [accepted,Bool.not_eq_true',Bool.or_eq_false_iff,Bool.not_eq_false'] at h
  obtain ⟨⟨⟨⟨⟨⟨⟨⟨⟨⟨⟨⟨hentry,hexit⟩,hexc⟩,-⟩,-⟩,hle⟩,hle'⟩,-⟩,-⟩,-⟩,-⟩,-⟩,-⟩ := h
  refine ⟨hentry,hexit,hexc,?_,?_⟩
  · rw [← Bool.not_eq_false,← CFloat.le_iff_not_lt hentry hexit,hle]
    exact Bool.false_ne_true
  · rw [← Bool.not_eq_false,← CFloat.le_iff_not_lt hexc hentry,hle']
    exact Bool.false_ne_true

namespace AdcsManager

variable {p : Platform} {nowUs : BitVec 64} {m m' : AdcsManager}

/-! ### What the checks read

A change of mode touches nothing that the checks of an update read. -/

/-- Two managers whose checks on sensors, rate and attitude have the same outcome. -/
structure SameInputs (m m' : AdcsManager) : Prop where
  config : m'.config = m.config
  sensors : m'.state.latestSensors = m.state.latestSensors
  attitude : m'.state.latestAttitude = m.state.latestAttitude
  faults : m'.state.health.activeFaults = m.state.health.activeFaults
  initialized : m'.state.initialized = m.state.initialized

namespace SameInputs

theorem refl (m : AdcsManager) : SameInputs m m := ⟨rfl,rfl,rfl,rfl,rfl⟩

theorem trans {m'' : AdcsManager} (h : SameInputs m m') (h' : SameInputs m' m'') :
    SameInputs m m'' :=
  ⟨h'.config.trans h.config,h'.sensors.trans h.sensors,h'.attitude.trans h.attitude,
    h'.faults.trans h.faults,h'.initialized.trans h.initialized⟩

theorem sensorsReady (h : SameInputs m m') : m'.sensorsReady p = m.sensorsReady p := by
  simp only [AdcsManager.sensorsReady,h.sensors]

theorem sensorsFresh (h : SameInputs m m') : m'.sensorsFresh nowUs = m.sensorsFresh nowUs := by
  simp only [AdcsManager.sensorsFresh,h.sensors,h.config]

theorem bodyRate (h : SameInputs m m') : m'.bodyRate p = m.bodyRate p := by
  simp only [AdcsManager.bodyRate,h.sensors]

theorem attitudeUsable (h : SameInputs m m') :
    m'.attitudeUsable p nowUs = m.attitudeUsable p nowUs := by
  simp only [AdcsManager.attitudeUsable,attitudeReady,h.attitude,h.config,h.faults]

end SameInputs

@[simp] theorem enterMode_mode (mode : AdcsMode) (m : AdcsManager) :
    (m.enterMode mode).state.mode = mode := by
  rw [enterMode]
  split
  · assumption
  · rfl

@[simp] theorem enterMode_requestedMode (mode : AdcsMode) (m : AdcsManager) :
    (m.enterMode mode).state.requestedMode = m.state.requestedMode := by
  rw [enterMode]
  split <;> rfl

theorem enterMode_sameInputs (mode : AdcsMode) (m : AdcsManager) :
    SameInputs m (m.enterMode mode) := by
  rw [enterMode]
  split
  · exact .refl m
  · exact ⟨rfl,rfl,rfl,rfl,rfl⟩

/-! ### Pointing modes -/

/-- The evidence that the mode rests on, if it is one that needs an attitude. -/
def Justified (p : Platform) (nowUs : BitVec 64) (m : AdcsManager) : Prop :=
  m.state.mode.needsAttitude = true → m.attitudeUsable p nowUs = true ∧
    (m.bodyRate p).le m.config.detumbleEntryRateRadS = true ∧ m.state.requestedMode ≠ .safe

theorem transitionIsAllowed_attitude {requested : AdcsMode}
    (h : m.transitionIsAllowed p requested nowUs = true)
    (hneeds : requested.needsAttitude = true) : m.attitudeUsable p nowUs = true := by
  cases requested <;> simp_all [transitionIsAllowed,AdcsMode.needsAttitude]

theorem transitionIsAllowed_ne_boot {requested : AdcsMode}
    (h : m.transitionIsAllowed p requested nowUs = true) : requested ≠ .boot := by
  rintro rfl
  exact Bool.false_ne_true h

/-- A mode that asks for no attitude needs no evidence. -/
theorem justified_enterMode_of_not_needs {mode : AdcsMode} (h : mode.needsAttitude = false) :
    Justified p nowUs (m.enterMode mode) := by
  intro hneeds
  rw [enterMode_mode,h] at hneeds
  cases hneeds

/-- The evidence before the request is followed is evidence after it. -/
theorem justified_enterMode
    (husable : m.state.requestedMode.needsAttitude = true → m.attitudeUsable p nowUs = true)
    (hrate : (m.bodyRate p).le m.config.detumbleEntryRateRadS = true) :
    Justified p nowUs (m.enterMode m.state.requestedMode) := by
  intro hneeds
  rw [enterMode_mode] at hneeds
  have same := enterMode_sameInputs m.state.requestedMode m
  rw [same.attitudeUsable,same.bodyRate,same.config,enterMode_requestedMode]
  refine ⟨husable hneeds,hrate,fun hsafe => ?_⟩
  rw [hsafe] at hneeds
  cases hneeds

theorem rate_le_entry (hconfig : m.config.Ordered) (hfinite : (m.bodyRate p).isfinite = true)
    (h : ¬m.config.detumbleEntryRateRadS.lt (m.bodyRate p) = true) :
    (m.bodyRate p).le m.config.detumbleEntryRateRadS = true :=
  (CFloat.le_iff_not_lt hfinite hconfig.entryFinite).mpr (Bool.eq_false_of_not_eq_true h)

/-! ### The request -/

theorem applyRequest_sameInputs : SameInputs m (m.applyRequest p nowUs) := by
  rw [applyRequest]
  split_ifs
  · exact enterMode_sameInputs _ m
  · exact enterMode_sameInputs _ m
  · exact enterMode_sameInputs _ m
  · exact .refl m

theorem applyRequest_ne_boot (hm : m.state.mode ≠ .boot) :
    (m.applyRequest p nowUs).state.mode ≠ .boot := by
  rw [applyRequest]
  split_ifs with hsafe hrate hallowed
  · rw [enterMode_mode]
    nofun
  · rw [enterMode_mode]
    nofun
  · rw [enterMode_mode]
    exact transitionIsAllowed_ne_boot hallowed.2.2
  · exact hm

/-- The request is followed only at a low rate, and an attitude that the old mode needs has
been checked before. -/
theorem applyRequest_justified (hconfig : m.config.Ordered)
    (hfinite : (m.bodyRate p).isfinite = true)
    (husable : m.state.requestedMode ≠ .safe → m.state.mode.needsAttitude = true →
      m.attitudeUsable p nowUs = true) :
    Justified p nowUs (m.applyRequest p nowUs) := by
  rw [applyRequest]
  split_ifs with hsafe hrate hallowed
  · exact justified_enterMode_of_not_needs rfl
  · exact justified_enterMode_of_not_needs rfl
  · exact justified_enterMode (transitionIsAllowed_attitude hallowed.2.2)
      (rate_le_entry hconfig hfinite hrate)
  · intro hneeds
    exact ⟨husable hsafe hneeds,rate_le_entry hconfig hfinite hrate,hsafe⟩

/-! ### The switch over the mode -/

/-- What a case of the switch can do: count, fall back to a mode that needs no attitude,
follow the request, or go on to the mode that a settled one leads to. The counters are not
looked at here. -/
inductive Outcome (p : Platform) (nowUs : BitVec 64) (m : AdcsManager) : AdcsManager → Prop
  | stay {m' : AdcsManager} (same : SameInputs m m') (hmode : m'.state.mode = m.state.mode)
      (hrequested : m'.state.requestedMode = m.state.requestedMode) : Outcome p nowUs m m'
  | retreat {m₁ : AdcsManager} {mode : AdcsMode} (same : SameInputs m m₁)
      (hmode : mode = .safe ∨ mode = .detumble) : Outcome p nowUs m (m₁.enterMode mode)
  | follow {m₁ : AdcsManager} (same : SameInputs m m₁)
      (hallowed : m₁.transitionIsAllowed p m₁.state.requestedMode nowUs = true)
      (hrate : m.sensorsReady p = true → (m.bodyRate p).le m.config.detumbleExitRateRadS = true ∨
        ¬m.config.detumbleEntryRateRadS.lt (m.bodyRate p) = true) :
      Outcome p nowUs m (m₁.enterMode m₁.state.requestedMode)
  | settle {m₁ : AdcsManager} (same : SameInputs m m₁)
      (hneeds : m.state.mode.needsAttitude = true)
      (hrequested : m₁.state.requestedMode.needsAttitude = true) :
      Outcome p nowUs m (m₁.enterMode m₁.state.requestedMode)

theorem advanceSafe_outcome : Outcome p nowUs m (m.advanceSafe p nowUs) := by
  rw [advanceSafe]
  split_ifs with hsafe hrate hallowed
  · exact .stay (.refl m) rfl rfl
  · exact .retreat (.refl m) (.inr rfl)
  · refine .follow (.refl m) hallowed fun hready => .inr fun hlt => hrate ?_
    rw [hlt,hready]
    rfl
  · exact .stay (.refl m) rfl rfl

theorem advanceDetumble_outcome : Outcome p nowUs m (m.advanceDetumble p nowUs) := by
  have hcount (n : BitVec 32) : SameInputs m { m with state.stableCycles := n } :=
    ⟨rfl,rfl,rfl,rfl,rfl⟩
  simp only [advanceDetumble]
  split_ifs with hrate hsettled hallowed
  · refine Outcome.follow ?_ hallowed fun _ => .inl hrate
    exact hcount _
  · exact .retreat (hcount _) (.inl rfl)
  · exact .stay (hcount _) rfl rfl
  · exact .stay (hcount _) rfl rfl

theorem advanceSunAcquisition_outcome (hm : m.state.mode = .sunAcquisition) :
    Outcome p nowUs m (m.advanceSunAcquisition p nowUs) := by
  have hneeds : m.state.mode.needsAttitude = true := by
    rw [hm]
    rfl
  simp only [advanceSunAcquisition]
  split_ifs
  · exact .stay ⟨rfl,rfl,rfl,rfl,rfl⟩ rfl rfl
  · exact .stay (.refl m) rfl rfl
  · refine .settle ?_ hneeds rfl
    exact ⟨rfl,rfl,rfl,rfl,rfl⟩
  · exact .stay ⟨rfl,rfl,rfl,rfl,rfl⟩ rfl rfl
  · exact .stay ⟨rfl,rfl,rfl,rfl,rfl⟩ rfl rfl

theorem advanceSlewing_outcome (hm : m.state.mode = .slewing) :
    Outcome p nowUs m m.advanceSlewing := by
  have hneeds : m.state.mode.needsAttitude = true := by
    rw [hm]
    rfl
  rw [advanceSlewing]
  split
  · refine .settle ?_ hneeds rfl
    exact ⟨rfl,rfl,rfl,rfl,rfl⟩
  · exact .stay (.refl m) rfl rfl

theorem advanceMode_outcome : Outcome p nowUs m (m.advanceMode p nowUs) := by
  rw [advanceMode]
  split
  case h_1 => exact advanceSafe_outcome
  case h_2 => exact advanceDetumble_outcome
  case h_3 hm => exact advanceSunAcquisition_outcome hm
  case h_4 hm => exact advanceSlewing_outcome hm
  case h_5 => exact .stay (.refl m) rfl rfl

theorem Outcome.sameInputs (h : Outcome p nowUs m m') : SameInputs m m' := by
  cases h with
  | stay same => exact same
  | retreat same => exact same.trans (enterMode_sameInputs _ _)
  | follow same => exact same.trans (enterMode_sameInputs _ _)
  | settle same => exact same.trans (enterMode_sameInputs _ _)

theorem Outcome.ne_boot (h : Outcome p nowUs m m') (hm : m.state.mode ≠ .boot) :
    m'.state.mode ≠ .boot := by
  cases h with
  | stay _ hmode =>
    rw [hmode]
    exact hm
  | retreat _ hmode =>
    rw [enterMode_mode]
    rcases hmode with rfl | rfl <;> nofun
  | follow _ hallowed =>
    rw [enterMode_mode]
    exact transitionIsAllowed_ne_boot hallowed
  | settle _ _ hrequested =>
    rw [enterMode_mode]
    rintro hboot
    rw [hboot] at hrequested
    cases hrequested

/-- No case of the switch leads to a pointing mode without the evidence. From SAFE a rate
above the entry threshold goes to DETUMBLE, because the sensors are ready; from DETUMBLE the
rate is below the exit threshold, which is the lower one. -/
theorem Outcome.justified (h : Outcome p nowUs m m') (hconfig : m.config.Ordered)
    (hfinite : (m.bodyRate p).isfinite = true) (hready : m.sensorsReady p = true)
    (hjust : Justified p nowUs m) : Justified p nowUs m' := by
  cases h with
  | stay same hmode hrequested =>
    rw [Justified,hmode,hrequested,same.attitudeUsable,same.bodyRate,same.config]
    exact hjust
  | retreat _ hmode => rcases hmode with rfl | rfl <;> exact justified_enterMode_of_not_needs rfl
  | follow same hallowed hrate =>
    refine justified_enterMode (transitionIsAllowed_attitude hallowed) ?_
    rw [same.bodyRate,same.config]
    rcases hrate hready with hle | hlt
    · exact CFloat.le_of_le_of_lt hle hconfig.exit_lt_entry hconfig.exitFinite
    · exact rate_le_entry hconfig hfinite hlt
  | settle same hneeds =>
    obtain ⟨husable,hrate,-⟩ := hjust hneeds
    refine justified_enterMode (fun _ => ?_) ?_
    · rw [same.attitudeUsable]
      exact husable
    · rw [same.bodyRate,same.config]
      exact hrate

/-! ### The update -/

/-- What an update at `nowUs` that saw `activeFaults` leaves. -/
structure ModeSafe (p : Platform) (activeFaults : BitVec 32) (nowUs : BitVec 64)
    (m : AdcsManager) : Prop where
  active : m.state.mode ≠ .boot → m.state.mode ≠ .safe →
    activeFaults &&& criticalFaults = 0 ∧ m.sensorsReady p = true ∧
      m.sensorsFresh nowUs = true ∧ (m.bodyRate p).isfinite = true ∧
      (m.bodyRate p).le m.config.excessiveRateRadS = true
  pointing : m.state.mode.needsAttitude = true →
    m.attitudeUsable p nowUs = true ∧
      (m.bodyRate p).le m.config.detumbleEntryRateRadS = true ∧ m.state.requestedMode ≠ .safe

theorem modeSafe_of_safe {activeFaults : BitVec 32} (h : m.state.mode = .safe) :
    ModeSafe p activeFaults nowUs m where
  active _ hsafe := absurd h hsafe
  pointing hneeds := by
    rw [h] at hneeds
    cases hneeds

theorem refreshBuiltinTarget_sameInputs : SameInputs m (m.refreshBuiltinTarget p) :=
  ⟨rfl,rfl,rfl,rfl,rfl⟩

theorem refreshBuiltinTarget_mode : (m.refreshBuiltinTarget p).state.mode = m.state.mode := rfl

theorem refreshBuiltinTarget_justified (h : Justified p nowUs m) :
    Justified p nowUs (m.refreshBuiltinTarget p) := h

/-- The checks passed by `m` carry over to a manager that reads the same. -/
theorem modeSafe_of_sameInputs {activeFaults : BitVec 32} (same : SameInputs m m')
    (hfaults : activeFaults &&& criticalFaults = 0) (hready : m.sensorsReady p = true)
    (hfresh : m.sensorsFresh nowUs = true) (hfinite : (m.bodyRate p).isfinite = true)
    (hrate : (m.bodyRate p).le m.config.excessiveRateRadS = true)
    (hjust : Justified p nowUs m') : ModeSafe p activeFaults nowUs m' where
  active _ _ := by
    rw [same.sensorsReady,same.sensorsFresh,same.bodyRate,same.config]
    exact ⟨hfaults,hready,hfresh,hfinite,hrate⟩
  pointing := hjust

theorem updateAfterBoot_modeSafe {activeFaults : BitVec 32} (hconfig : m.config.Ordered)
    (hfaults : activeFaults &&& criticalFaults = 0) :
    ModeSafe p activeFaults nowUs (m.updateAfterBoot p nowUs) := by
  rw [updateAfterBoot]
  split_ifs with hsensors hrate hattitude
  · exact modeSafe_of_safe (enterMode_mode _ m)
  · exact modeSafe_of_safe (enterMode_mode _ m)
  -- the checks on sensors and rate have passed in both cases that are left
  all_goals
    simp only [Bool.or_eq_true,Bool.not_eq_true',not_or,Bool.not_eq_false] at hsensors hrate
    obtain ⟨hready,hfresh⟩ := hsensors
    obtain ⟨hfinite,hlt⟩ := hrate
    have hle := (CFloat.le_iff_not_lt hfinite hconfig.excessiveFinite).mpr
      (Bool.eq_false_of_not_eq_true hlt)
  · -- the attitude is lost: DETUMBLE rests on the checks of sensors and rate alone
    exact modeSafe_of_sameInputs (enterMode_sameInputs _ m) hfaults hready hfresh hfinite hle
      (justified_enterMode_of_not_needs rfl)
  · have same : SameInputs m (m.applyRequest p nowUs) := applyRequest_sameInputs
    have hjust : Justified p nowUs (m.applyRequest p nowUs) := by
      refine applyRequest_justified hconfig hfinite fun hsafe hneeds => ?_
      by_contra husable
      exact hattitude ⟨hsafe,hneeds,Bool.eq_false_of_not_eq_true husable⟩
    have hadvance : Justified p nowUs ((m.applyRequest p nowUs).advanceMode p nowUs) := by
      refine advanceMode_outcome.justified ?_ ?_ ?_ hjust
      · rw [same.config]
        exact hconfig
      · rw [same.bodyRate]
        exact hfinite
      · rw [same.sensorsReady]
        exact hready
    exact modeSafe_of_sameInputs
      ((same.trans advanceMode_outcome.sameInputs).trans refreshBuiltinTarget_sameInputs)
      hfaults hready hfresh hfinite hle (refreshBuiltinTarget_justified hadvance)

theorem updateAfterBoot_ne_boot (hm : m.state.mode ≠ .boot) :
    (m.updateAfterBoot p nowUs).state.mode ≠ .boot := by
  rw [updateAfterBoot]
  split_ifs
  · rw [enterMode_mode]
    nofun
  · rw [enterMode_mode]
    nofun
  · rw [enterMode_mode]
    nofun
  · rw [refreshBuiltinTarget_mode]
    exact advanceMode_outcome.ne_boot (applyRequest_ne_boot hm)

theorem updateRecorded_ne_boot (hm : m.state.mode ≠ .boot) :
    (m.updateRecorded p nowUs).state.mode ≠ .boot := by
  rw [updateRecorded]
  split_ifs with hcritical
  · rw [refreshBuiltinTarget_mode,enterMode_mode]
    nofun
  · exact updateAfterBoot_ne_boot hm

theorem update_ne_boot {activeFaults : BitVec 32} (hm : m.state.mode ≠ .boot) :
    (m.update p activeFaults nowUs).state.mode ≠ .boot := by
  rw [update]
  split
  · exact hm
  · exact updateRecorded_ne_boot hm

theorem updateRecorded_modeSafe (hconfig : m.config.Ordered) :
    ModeSafe p m.state.health.activeFaults nowUs (m.updateRecorded p nowUs) := by
  rw [updateRecorded]
  split_ifs with hcritical hboot hsensors
  · refine modeSafe_of_safe ?_
    rw [refreshBuiltinTarget_mode,enterMode_mode]
  -- BOOT is left in this update, which then goes on as from SAFE
  · refine updateAfterBoot_modeSafe ?_ (not_not.mp hcritical)
    rw [(enterMode_sameInputs _ _).config]
    exact hconfig
  · -- still in BOOT, with nothing to justify
    refine ⟨fun h => absurd hboot h,fun hneeds => ?_⟩
    rw [hboot] at hneeds
    cases hneeds
  · exact updateAfterBoot_modeSafe hconfig (not_not.mp hcritical)

theorem update_modeSafe {activeFaults : BitVec 32} (hconfig : m.config.Ordered)
    (hinit : m.state.initialized ≠ 0) :
    ModeSafe p activeFaults nowUs (m.update p activeFaults nowUs) := by
  rw [update,if_neg hinit]
  exact updateRecorded_modeSafe (m := m.recordFaults activeFaults) hconfig

theorem updateAfterBoot_sameInputs : SameInputs m (m.updateAfterBoot p nowUs) := by
  rw [updateAfterBoot]
  split_ifs
  · exact enterMode_sameInputs _ m
  · exact enterMode_sameInputs _ m
  · exact enterMode_sameInputs _ m
  · exact (applyRequest_sameInputs.trans advanceMode_outcome.sameInputs).trans
      refreshBuiltinTarget_sameInputs

theorem updateRecorded_sameInputs : SameInputs m (m.updateRecorded p nowUs) := by
  rw [updateRecorded]
  split_ifs
  · exact (enterMode_sameInputs _ m).trans refreshBuiltinTarget_sameInputs
  · exact (enterMode_sameInputs _ m).trans updateAfterBoot_sameInputs
  · exact .refl m
  · exact updateAfterBoot_sameInputs

/-! ### Every sequence of calls -/

/-- What `adcs_manager_init` establishes and every call keeps. -/
structure Ready (m : AdcsManager) : Prop where
  ordered : m.config.Ordered
  initialized : m.state.initialized ≠ 0

theorem ready_init : Ready init := ⟨AdcsManagerConfig.default_ordered,by decide⟩

theorem Ready.update (h : Ready m) (activeFaults : BitVec 32) (nowUs : BitVec 64) :
    Ready (m.update p activeFaults nowUs) := by
  rw [AdcsManager.update,if_neg h.initialized]
  have same : SameInputs (m.recordFaults activeFaults)
      ((m.recordFaults activeFaults).updateRecorded p nowUs) := updateRecorded_sameInputs
  refine ⟨?_,?_⟩
  · rw [same.config]
    exact h.ordered
  · rw [same.initialized]
    exact h.initialized

/-- What a call other than an update can do to the mode, the mark of initialisation and the
configuration. -/
structure Kept (m m' : AdcsManager) : Prop where
  mode : m'.state.mode = m.state.mode
  initialized : m'.state.initialized = m.state.initialized
  config : m'.config = m.config ∨ m'.config.accepted = true

theorem Kept.refl (m : AdcsManager) : Kept m m := ⟨rfl,rfl,.inl rfl⟩

theorem Ready.of_kept (h : Ready m) (kept : Kept m m') : Ready m' := by
  refine ⟨?_,?_⟩
  · rcases kept.config with hconfig | haccepted
    · rw [hconfig]
      exact h.ordered
    · exact AdcsManagerConfig.ordered_of_accepted haccepted
  · rw [kept.initialized]
    exact h.initialized

theorem configure_kept (config : AdcsManagerConfig) : Kept m (m.configure config) := by
  rw [configure]
  split
  · exact ⟨rfl,rfl,.inr ‹_›⟩
  · exact .refl m

theorem requestMode_kept (mode : BitVec 32) : Kept m (m.requestMode mode) := by
  simp only [requestMode]
  split <;> exact ⟨rfl,rfl,.inl rfl⟩

theorem setSensors_kept (sensors : AdcsSensorPacket) : Kept m (m.setSensors p sensors) := by
  rw [setSensors]
  split <;> exact ⟨rfl,rfl,.inl rfl⟩

theorem setAttitude_kept (attitude : AdcsAttitudeState) : Kept m (m.setAttitude p attitude) := by
  simp only [setAttitude]
  split <;> exact ⟨rfl,rfl,.inl rfl⟩

theorem setControlOutput_kept (control : AdcsControlOutput) :
    Kept m (m.setControlOutput control) := by
  rw [setControlOutput]
  split <;> exact ⟨rfl,rfl,.inl rfl⟩

theorem setGuidanceTarget_kept (target : Option AdcsGuidanceTarget) :
    Kept m (m.setGuidanceTarget p target) := by
  cases target with
  | none => exact ⟨rfl,rfl,.inl rfl⟩
  | some target =>
    simp only [setGuidanceTarget]
    split
    · exact ⟨rfl,rfl,.inl rfl⟩
    · split <;> exact ⟨rfl,rfl,.inl rfl⟩

end AdcsManager

namespace AdcsSystem
open AdcsManager

variable {p : Platform} {s : AdcsSystem}

/-- A call is an update or keeps the mode. -/
theorem call_cases (s : AdcsSystem) (c : AdcsCall) :
    (∃ nowUs,c = .update nowUs) ∨ Kept s.manager (s.call p c).manager := by
  cases c with
  | configure config => exact .inr (configure_kept config)
  | update nowUs => exact .inl ⟨nowUs,rfl⟩
  | requestMode mode => exact .inr (requestMode_kept mode)
  | setSensors sensors => exact .inr (setSensors_kept sensors)
  | setAttitude attitude => exact .inr (setAttitude_kept attitude)
  | setControlOutput control => exact .inr (setControlOutput_kept control)
  | setGuidanceTarget target => exact .inr (setGuidanceTarget_kept target)
  | _ => exact .inr ⟨rfl,rfl,.inl rfl⟩

theorem call_ready (h : Ready s.manager) (c : AdcsCall) : Ready (s.call p c).manager := by
  rcases call_cases s c with ⟨nowUs,rfl⟩ | kept
  · exact h.update _ nowUs
  · exact h.of_kept kept

theorem call_ne_boot (h : s.manager.state.mode ≠ .boot) (c : AdcsCall) :
    (s.call p c).manager.state.mode ≠ .boot := by
  rcases call_cases s c with ⟨nowUs,rfl⟩ | kept
  · exact update_ne_boot h
  · rw [kept.mode]
    exact h

/-- What every call keeps, a list of calls keeps. -/
theorem calls_invariant {I : AdcsSystem → Prop} (hcall : ∀ s c,I s → I (s.call p c))
    (hs : I s) (cs : List AdcsCall) : I (s.calls p cs) := by
  induction cs generalizing s with
  | nil => exact hs
  | cons c cs ih => exact ih (hcall s c hs)

/-- After any calls since `adcs_manager_init`, an update leaves a mode that its checks
justify; and once BOOT is left no calls lead back to it. -/
theorem mode_safety (p : Platform) (faults : FaultManager) (cs : List AdcsCall)
    (nowUs : BitVec 64) :
    ModeSafe p ((init faults).calls p cs).faults.getActive nowUs
        (((init faults).calls p cs).call p (.update nowUs)).manager ∧
      (((init faults).calls p cs).manager.state.mode ≠ .boot →
        ∀ later,(((init faults).calls p cs).calls p later).manager.state.mode ≠ .boot) := by
  have hready : Ready ((init faults).calls p cs).manager :=
    calls_invariant (I := fun s => Ready s.manager) (fun _ c h => call_ready h c) ready_init cs
  refine ⟨update_modeSafe hready.ordered hready.initialized,fun hleft later => ?_⟩
  exact calls_invariant (I := fun s => s.manager.state.mode ≠ .boot)
    (fun _ c h => call_ne_boot h c) hleft later

/-- A body at rest with the sun in view and a valid estimate, one second after boot. -/
def atRestInSun : List AdcsCall :=
  [.setReferences none (some { sunEciUnit := ![1,0,0],validMask := adcsReferenceValidSun }),
    .setSensors
      { timestampUs := 1000000
        validMask := adcsSensorValidGyroscope ||| adcsSensorValidMagnetometer |||
          adcsSensorValidSun },
    .setAttitude
      { timestampUs := 1000000
        quaternion := ![0,0,0,1]
        confidence := .dyadic 1 1
        valid := 1 }]

/-- Sun acquisition starts with the first update, and is justified. -/
theorem sun_acquisition_from_rest :
    ((((init .init).calls ⟨.exact,true⟩ atRestInSun).call ⟨.exact,true⟩
        (.update 1000000)).manager.state.mode = .sunAcquisition) ∧
      (((init .init).calls ⟨.exact,true⟩ atRestInSun).call ⟨.exact,true⟩
        (.update 1000000)).manager.attitudeUsable ⟨.exact,true⟩ 1000000 = true := by
  have hmode : ((((init .init).calls ⟨.exact,true⟩ atRestInSun).call ⟨.exact,true⟩
      (.update 1000000)).manager.state.mode = .sunAcquisition) := by decide +kernel
  refine ⟨hmode,?_⟩
  refine ((mode_safety ⟨.exact,true⟩ .init atRestInSun 1000000).1.pointing ?_).1
  rw [hmode]
  rfl

end AdcsSystem

end FlightSoftware.Adcs
