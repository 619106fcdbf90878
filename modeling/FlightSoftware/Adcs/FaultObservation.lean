import FlightSoftware.Adcs.ModeSafety
import FlightSoftware.Adcs.Tasks

/-!
# Observation of reported faults

A critical fault should be seen by an update, and force SAFE, before it is cleared.
Housekeeping updates the manager after every report of its own and before it clears
again. The control task reports a failed actuator after its update, so a housekeeping
cycle that runs before the next update may clear the report unseen.
-/

namespace FlightSoftware.Adcs
open Run

/-! ### What a step does to the latch -/

/-- The step is a call of `adcs_manager_update`. -/
def TaskStep.isUpdate : TaskStep → Bool
  | .control (.update _) => true
  | .housekeeping .update => true
  | _ => false

namespace AdcsTasks

/-- The word that the step passes to `fault_management_report`. -/
def reported (s : AdcsTasks) : TaskStep → BitVec 32
  | .control .report => adcsFaultActuator
  | .housekeeping .report =>
    match s.housekeeping with
    | .report _ _ observed => observed
    | _ => 0
  | _ => 0

/-- The word that the step passes to `fault_management_clear`. -/
def cleared (s : AdcsTasks) : TaskStep → BitVec 32
  | .housekeeping .clear =>
    match s.housekeeping with
    | .clear _ _ observed latched => clearMask observed latched
    | _ => 0
  | _ => 0

variable (p : Platform)

/-- Every report of a critical fault in the run is observed before a clear removes it: between
the report and the clear there is an update that runs with the bit set and ends in SAFE. -/
def ObservedBeforeCleared (actions : List TaskStep) : Prop :=
  ∀ before report between clear after s s₁ t t₁ i,
    actions = before ++ report :: between ++ clear :: after →
    run (step p) init before = some s → s.step p report = some s₁ →
    run (step p) s₁ between = some t → t.step p clear = some t₁ →
    criticalFaults.getLsbD i = true → (s.reported report).getLsbD i = true →
    (t.cleared clear).getLsbD i = true →
    ∃ early update late u u₁,between = early ++ update :: late ∧ update.isUpdate = true ∧
      run (step p) s₁ early = some u ∧ u.step p update = some u₁ ∧
      u.system.faults.activeFaults.getLsbD i = true ∧ u₁.system.manager.state.mode = .safe

/-- No housekeeping clear takes away an actuator failure that the control task has reported
since the last update. -/
def NoClearBeforeUpdate (actions : List TaskStep) : Prop :=
  ∀ before between after s,
    actions = before ++ .control .report :: between ++ .housekeeping .clear :: after →
    (∀ a ∈ between,a.isUpdate = false) →
    run (step p) init (before ++ .control .report :: between) = some s →
    s.cleared (.housekeeping .clear) &&& adcsFaultActuator = 0

end AdcsTasks

/-! ### One step -/

/-- Only the calls on the latch itself change it. -/
theorem AdcsSystem.call_activeFaults {p : Platform} (s : AdcsSystem) (c : AdcsCall)
    (hreport : ∀ fault,c ≠ .faultReport fault) (hclear : ∀ mask,c ≠ .faultClear mask) :
    (s.call p c).faults.activeFaults = s.faults.activeFaults := by
  cases c with
  | faultReport fault => exact absurd rfl (hreport fault)
  | faultClear mask => exact absurd rfl (hclear mask)
  | faultConfigure config =>
    simp only [AdcsSystem.call,FaultManager.configure]
    split <;> rfl
  | _ => rfl

namespace AdcsTasks

variable {p : Platform} {s s' : AdcsTasks} {a : TaskStep} {i : ℕ}

/-- The latch after a report of one word and a clear of another. -/
def latchAfter (active reported cleared : BitVec 32) : BitVec 32 :=
  (active ||| reported) &&& ~~~cleared

@[simp] theorem latchAfter_zero_right (active reported : BitVec 32) :
    latchAfter active reported 0#32 = active ||| reported :=
  BitVec.and_allOnes

@[simp] theorem latchAfter_zero_left (active cleared : BitVec 32) :
    latchAfter active 0#32 cleared = active &&& ~~~cleared := by
  rw [latchAfter,BitVec.or_zero]

theorem stepControl_latch {c : ControlStep} (h : s.stepControl p c = some s') :
    s'.system.faults.activeFaults = latchAfter s.system.faults.activeFaults
      (s.reported (.control c)) (s.cleared (.control c)) := by
  rw [stepControl.eq_def] at h
  split at h
  case h_8 => cases h
  all_goals
    obtain rfl := Option.some.inj h
    simp [reported,cleared,AdcsSystem.call,FaultManager.report]

theorem stepHousekeeping_latch {c : HousekeepingStep} (h : s.stepHousekeeping p c = some s') :
    s'.system.faults.activeFaults = latchAfter s.system.faults.activeFaults
      (s.reported (.housekeeping c)) (s.cleared (.housekeeping c)) := by
  rw [stepHousekeeping.eq_def] at h
  split at h
  case h_9 => cases h
  case h_4 hphase =>
    obtain rfl := Option.some.inj h
    simp [reported,cleared,hphase,AdcsSystem.call,FaultManager.clear]
  case h_5 hphase =>
    obtain rfl := Option.some.inj h
    simp [reported,cleared,hphase,AdcsSystem.call,FaultManager.report]
  all_goals
    obtain rfl := Option.some.inj h
    simp [reported,cleared,AdcsSystem.call]

/-- What a step does to the latch. -/
theorem step_latch (h : s.step p a = some s') :
    s'.system.faults.activeFaults =
      latchAfter s.system.faults.activeFaults (s.reported a) (s.cleared a) := by
  cases a with
  | control c => exact stepControl_latch h
  | housekeeping c => exact stepHousekeeping_latch h
  | setManualMagnetorquer axis direction =>
    obtain rfl := Option.some.inj h
    simp [reported,cleared]
  | other c =>
    simp only [step] at h
    split at h
    case isFalse => cases h
    case isTrue hother =>
      obtain rfl := Option.some.inj h
      have hlatch := s.system.call_activeFaults (p := p) c (by rintro fault rfl; cases hother)
        (by rintro mask rfl; cases hother)
      simp [reported,cleared,hlatch]

/-- A bit of the latch that is set or reported, and not cleared, is set afterwards. -/
theorem step_bit (h : s.step p a = some s')
    (hset : s.system.faults.activeFaults.getLsbD i = true ∨ (s.reported a).getLsbD i = true)
    (hclear : (s.cleared a).getLsbD i = false) :
    s'.system.faults.activeFaults.getLsbD i = true := by
  have hi : i < 32 := by
    rcases hset with hset | hset
    · exact BitVec.lt_of_getLsbD hset
    · exact BitVec.lt_of_getLsbD hset
  rw [step_latch h,latchAfter,BitVec.getLsbD_and,BitVec.getLsbD_or,BitVec.getLsbD_not,hclear,
    decide_eq_true hi]
  rcases hset with hset | hset
  · simp [hset]
  · simp [hset]

/-- A step makes at most one call. -/
theorem step_system (h : s.step p a = some s') :
    s'.system = s.system ∨ ∃ c,s'.system = s.system.call p c := by
  cases a with
  | control c =>
    rw [step,stepControl.eq_def] at h
    split at h
    case h_8 => cases h
    all_goals
      obtain rfl := Option.some.inj h
      dsimp only
      first | exact .inl rfl | exact .inr ⟨_,rfl⟩
  | housekeeping c =>
    rw [step,stepHousekeeping.eq_def] at h
    split at h
    case h_9 => cases h
    all_goals
      obtain rfl := Option.some.inj h
      dsimp only
      first | exact .inl rfl | exact .inr ⟨_,rfl⟩
  | setManualMagnetorquer axis direction =>
    obtain rfl := Option.some.inj h
    exact .inl rfl
  | other c =>
    simp only [step] at h
    split at h
    · obtain rfl := Option.some.inj h
      exact .inr ⟨c,rfl⟩
    · cases h

theorem step_ready (hs : s.system.manager.Ready) (h : s.step p a = some s') :
    s'.system.manager.Ready := by
  rcases step_system h with hsame | ⟨c,hcall⟩
  · rw [hsame]
    exact hs
  · rw [hcall]
    exact AdcsSystem.call_ready hs c

theorem ready_of_run {actions : List TaskStep} (hrun : run (step p) init actions = some s) :
    s.system.manager.Ready :=
  run_invariant (I := fun s => s.system.manager.Ready) (fun _ _ _ => step_ready)
    AdcsManager.ready_init hrun

/-- An update step is a call of the manager's update. -/
theorem step_of_isUpdate (hupdate : a.isUpdate = true) (h : s.step p a = some s') :
    ∃ nowUs,s'.system = s.system.call p (.update nowUs) := by
  cases a with
  | control c =>
    rw [step,stepControl.eq_def] at h
    split at h
    case h_1 nowUs hphase =>
      obtain rfl := Option.some.inj h
      exact ⟨nowUs,rfl⟩
    case h_8 => cases h
    all_goals cases hupdate
  | housekeeping c =>
    rw [step,stepHousekeeping.eq_def] at h
    split at h
    case h_8 nowUs hphase =>
      obtain rfl := Option.some.inj h
      exact ⟨nowUs,rfl⟩
    case h_9 => cases h
    all_goals cases hupdate
  | _ => cases hupdate

end AdcsTasks

/-- An update that sees a critical fault ends in SAFE. -/
theorem AdcsManager.update_safe {p : Platform} {m : AdcsManager} {activeFaults : BitVec 32}
    {nowUs : BitVec 64} (hinit : m.state.initialized ≠ 0)
    (hcritical : activeFaults &&& criticalFaults ≠ 0) :
    (m.update p activeFaults nowUs).state.mode = .safe := by
  have hrecorded : (m.recordFaults activeFaults).state.health.activeFaults &&& criticalFaults ≠ 0 :=
    hcritical
  rw [update,if_neg hinit,updateRecorded,if_pos hrecorded,refreshBuiltinTarget_mode,enterMode_mode]

namespace AdcsTasks

variable {p : Platform} {s s' : AdcsTasks} {a : TaskStep} {i : ℕ}

theorem step_update_safe (hs : s.system.manager.Ready) (hupdate : a.isUpdate = true)
    (h : s.step p a = some s') (hcritical : criticalFaults.getLsbD i = true)
    (hset : s.system.faults.activeFaults.getLsbD i = true) :
    s'.system.manager.state.mode = .safe := by
  obtain ⟨nowUs,hcall⟩ := step_of_isUpdate hupdate h
  rw [hcall]
  exact AdcsManager.update_safe hs.initialized (critical_ne_zero_of_getLsbD hset hcritical)

/-! ### Between a report and an update -/

theorem eq_clear_of_cleared (h : (s.cleared a).getLsbD i = true) :
    a = .housekeeping .clear ∧ ∃ snapshot nowUs observed latched,
      s.housekeeping = .clear snapshot nowUs observed latched := by
  rw [cleared.eq_def] at h
  split at h
  · split at h
    · next hphase => exact ⟨rfl,_,_,_,_,hphase⟩
    · simp at h
  · simp at h

theorem eq_report_of_reported (h : (s.reported a).getLsbD i = true) :
    a = .control .report ∧ adcsFaultActuator.getLsbD i = true ∨ a = .housekeeping .report := by
  rw [reported.eq_def] at h
  split at h
  · exact .inl ⟨rfl,h⟩
  · exact .inr rfl
  · simp at h

/-- Housekeeping has reported and goes on to its update. -/
def UpdatesNext (s : AdcsTasks) : Prop :=
  match s.housekeeping with
  | .getHealth _ _ | .setHealth _ _ | .update _ => True
  | _ => False

theorem UpdatesNext.cleared (h : s.UpdatesNext) (a : TaskStep) (i : ℕ) :
    (s.cleared a).getLsbD i = false := by
  by_contra hset
  obtain ⟨-,_,_,_,_,hphase⟩ := eq_clear_of_cleared (Bool.eq_true_of_not_eq_false hset)
  rw [UpdatesNext,hphase] at h
  exact h

/-- It stays on its way until an update is made. -/
theorem UpdatesNext.step (h : s.UpdatesNext) (hupdate : a.isUpdate = false)
    (hstep : s.step p a = some s') : s'.UpdatesNext := by
  cases a with
  | control c =>
    rw [AdcsTasks.step,stepControl.eq_def] at hstep
    split at hstep
    case h_8 => cases hstep
    all_goals
      obtain rfl := Option.some.inj hstep
      exact h
  | housekeeping c =>
    rw [AdcsTasks.step,stepHousekeeping.eq_def] at hstep
    split at hstep
    -- the two steps on the way; the earlier phases are excluded and the update is not taken
    case h_6 => cases Option.some.inj hstep; trivial
    case h_7 => cases Option.some.inj hstep; trivial
    case h_8 => cases hupdate
    case h_9 => cases hstep
    all_goals
      rename_i hphase
      rw [UpdatesNext,hphase] at h
      exact h.elim
  | setManualMagnetorquer axis direction =>
    obtain rfl := Option.some.inj hstep
    exact h
  | other c =>
    simp only [AdcsTasks.step] at hstep
    split at hstep
    · obtain rfl := Option.some.inj hstep
      exact h
    · cases hstep

theorem updatesNext_of_report (hstep : s.step p (.housekeeping .report) = some s') :
    s'.UpdatesNext := by
  rw [step,stepHousekeeping.eq_def] at hstep
  split at hstep
  case h_5 => cases Option.some.inj hstep; trivial
  case h_9 => cases hstep
  all_goals contradiction

theorem updatesNext_of_run {actions : List TaskStep} (h : s.UpdatesNext)
    (hno : ∀ a ∈ actions,a.isUpdate = false) (hrun : run (step p) s actions = some s') :
    s'.UpdatesNext := by
  refine run_invariant_of (I := UpdatesNext) (P := fun _ a => a.isUpdate = false)
    (fun _ _ _ hI hP hs => hI.step hP hs) h ?_ hrun
  rintro before a after t rfl -
  exact hno a (by simp)

/-- A set bit that no step on the way clears is set at the end. -/
theorem bit_of_run {actions : List TaskStep}
    (hset : s.system.faults.activeFaults.getLsbD i = true)
    (hkeep : ∀ before a after t,actions = before ++ a :: after →
      run (step p) s before = some t → (t.cleared a).getLsbD i = false)
    (hrun : run (step p) s actions = some s') :
    s'.system.faults.activeFaults.getLsbD i = true :=
  run_invariant_of (I := fun s => s.system.faults.activeFaults.getLsbD i = true)
    (P := fun t a => (t.cleared a).getLsbD i = false)
    (fun _ _ _ hI hP hs => step_bit hs (.inl hI) hP) hset hkeep hrun

/-! ### Every run -/

/-- If no step takes the bit away until an update has been made, then a step that does take
it away comes after an update that saw it. -/
theorem observed_of_kept {clear : TaskStep} {between : List TaskStep} {t : AdcsTasks}
    (hs : s.system.manager.Ready) (hcritical : criticalFaults.getLsbD i = true)
    (hset : s.system.faults.activeFaults.getLsbD i = true)
    (hrun : run (step p) s between = some t)
    (hkeep : ∀ early a late u,between ++ [clear] = early ++ a :: late →
      (∀ b ∈ early,b.isUpdate = false) → run (step p) s early = some u →
      (u.cleared a).getLsbD i = false)
    (hcleared : (t.cleared clear).getLsbD i = true) :
    ∃ early update late u u₁,between = early ++ update :: late ∧ update.isUpdate = true ∧
      run (step p) s early = some u ∧ u.step p update = some u₁ ∧
      u.system.faults.activeFaults.getLsbD i = true ∧ u₁.system.manager.state.mode = .safe := by
  cases hfind : between.find? TaskStep.isUpdate with
  | none =>
    have hno : ∀ b ∈ between,b.isUpdate = false := by
      simpa using hfind
    rw [hkeep between clear [] t rfl hno hrun] at hcleared
    cases hcleared
  | some update =>
    -- the first update: nothing has cleared the bit before it
    obtain ⟨hupdate,early,late,rfl,hearly⟩ := List.find?_eq_some_iff_append.mp hfind
    have hno : ∀ b ∈ early,b.isUpdate = false := by
      simpa using hearly
    rw [run_append,Option.bind_eq_some_iff] at hrun
    obtain ⟨u,hu,hrest⟩ := hrun
    obtain ⟨u₁,hstep,-⟩ := run_cons_eq_some.mp hrest
    have hready : u.system.manager.Ready :=
      run_invariant (I := fun s => s.system.manager.Ready) (fun _ _ _ => step_ready) hs hu
    have hbit : u.system.faults.activeFaults.getLsbD i = true := by
      refine bit_of_run hset (fun b a c v hsplit hv => ?_) hu
      refine hkeep b a (c ++ update :: late ++ [clear]) v ?_ (fun x hx => ?_) hv
      · rw [hsplit]
        simp
      · rw [hsplit] at hno
        exact hno x (List.mem_append_left _ hx)
    exact ⟨early,update,late,u,u₁,rfl,hupdate,hu,hstep,hbit,
      step_update_safe hready hupdate hstep hcritical hbit⟩

theorem actuator_eq_twoPow : adcsFaultActuator = BitVec.twoPow 32 4 := by decide

theorem and_actuator_eq_zero_iff {w : BitVec 32} :
    w &&& adcsFaultActuator = 0 ↔ w.getLsbD 4 = false := by
  rw [actuator_eq_twoPow,BitVec.and_twoPow]
  split
  · next hset => simp [hset,BitVec.twoPow]
  · next hset => simpa using hset

theorem eq_four_of_actuator (h : adcsFaultActuator.getLsbD i = true) : i = 4 := by
  rw [actuator_eq_twoPow,BitVec.getLsbD_twoPow] at h
  simpa [eq_comm] using h

/-- An actuator failure that is cleared before an update is not observed. -/
theorem noClearBeforeUpdate_of_observed {actions : List TaskStep}
    (hobserved : ObservedBeforeCleared p actions) : NoClearBeforeUpdate p actions := by
  intro before between after s hactions hno hrun
  by_contra hne
  have hcleared : (s.cleared (.housekeeping .clear)).getLsbD 4 = true := by
    rw [and_actuator_eq_zero_iff] at hne
    exact Bool.eq_true_of_not_eq_false hne
  obtain ⟨-,snapshot,nowUs,observed,latched,hphase⟩ := eq_clear_of_cleared hcleared
  obtain ⟨t₁,ht₁⟩ : ∃ t₁,s.step p (.housekeeping .clear) = some t₁ := by
    simp [step,stepHousekeeping,hphase]
  rw [run_append,Option.bind_eq_some_iff] at hrun
  obtain ⟨s₀,hbefore,hrest⟩ := hrun
  obtain ⟨s₁,hreport,hbetween⟩ := run_cons_eq_some.mp hrest
  have hreported : (s₀.reported (.control .report)).getLsbD 4 = true :=
    show adcsFaultActuator.getLsbD 4 = true by decide
  obtain ⟨early,update,late,-,-,rfl,hupdate,-⟩ := hobserved before _ between _ after s₀ s₁ s t₁ 4
    hactions hbefore hreport hbetween ht₁ (by decide) hreported hcleared
  rw [hno update (by simp)] at hupdate
  cases hupdate

/-- In every run, all reported critical faults are observed before they are cleared if and
only if no actuator failure of the control task is cleared before the next update. -/
theorem faults_observed_iff (p : Platform) (actions : List TaskStep) :
    ObservedBeforeCleared p actions ↔ NoClearBeforeUpdate p actions := by
  constructor
  · exact noClearBeforeUpdate_of_observed
  · intro hno before report between clear after s s₁ t t₁ i hactions hbefore hreport hbetween
      hclear hcritical hreported hcleared
    have hready : s₁.system.manager.Ready := step_ready (ready_of_run hbefore) hreport
    have hset : s₁.system.faults.activeFaults.getLsbD i = true := by
      refine step_bit hreport (.inr hreported) ?_
      rcases eq_report_of_reported hreported with ⟨rfl,-⟩ | rfl
      · exact BitVec.getLsbD_zero
      · exact BitVec.getLsbD_zero
    refine observed_of_kept hready hcritical hset hbetween ?_ hcleared
    intro early a late u hsplit hearly hu
    rcases eq_report_of_reported hreported with ⟨rfl,hbit⟩ | rfl
    · -- a report of the control task: this is what the condition is about
      obtain rfl := eq_four_of_actuator hbit
      by_contra hset
      obtain ⟨rfl,-⟩ := eq_clear_of_cleared (Bool.eq_true_of_not_eq_false hset)
      refine hset (and_actuator_eq_zero_iff.mp (hno before early (late ++ after) u ?_ hearly ?_))
      · calc actions = before ++ .control .report :: (between ++ [clear]) ++ after := by
              rw [hactions]
              simp
          _ = before ++ .control .report :: early ++ .housekeeping .clear :: (late ++ after) := by
              rw [hsplit]
              simp
      · rw [run_append,hbefore]
        exact run_cons_eq_some.mpr ⟨s₁,hreport,hu⟩
    · exact (updatesNext_of_run (updatesNext_of_report hreport) hearly hu).cleared a i

/-! ### A lost failure in the simulation -/

def simPlatform : Platform := ⟨.exact,false⟩

/-- Good data: at rest in the sun, in a field of some 30 microtesla, with a valid estimate. -/
def goodData : List TaskStep :=
  [.other (.setReferences none
      (some { sunEciUnit := ![1,0,0],validMask := adcsReferenceValidSun })),
    .other (.setSensors
      { timestampUs := 1000000
        magneticFieldT := ![0,0,.dyadic 1 15]
        sunVectorBody := ![1,0,0]
        validMask := adcsSensorValidGyroscope ||| adcsSensorValidMagnetometer |||
          adcsSensorValidSun }),
    .other (.setAttitude
      { timestampUs := 1000000
        quaternion := ![0,0,0,1]
        confidence := .dyadic 1 1
        valid := 1 })]

/-- A control cycle in which the driver does not take the command. -/
def failingCycle : List TaskStep :=
  [.control (.update 1000000),
    .control .getState,
    .control (.compute .ok
      { timestampUs := 1000000,requestedDipoleAM2 := ![.dyadic 1 4,0,0],actuatorsEnabled := 1 }),
    .control (.actuate .error)]

/-- The control task goes to sleep and housekeeping runs up to its clear. -/
def housekeepingToClear : List TaskStep :=
  [.control .setOutput,.housekeeping .getState,.housekeeping (.evaluate 1000000),
    .housekeeping .getActive]

/-- Housekeeping ends its cycle, and the control task starts its next. -/
def afterClear : List TaskStep :=
  [.housekeeping (.getHealth 1),.housekeeping .setHealth,.housekeeping .update,
    .control (.update 1050000)]

def lostFailureRun : List TaskStep :=
  goodData ++ failingCycle ++ .control .report :: housekeepingToClear ++
    .housekeeping .clear :: afterClear

/-- The report is cleared unseen: no update has put the manager in SAFE, and the next ones
leave it in sun acquisition with no fault on record. -/
theorem actuator_failure_lost :
    ¬ObservedBeforeCleared simPlatform lostFailureRun ∧
      (run (step simPlatform) init lostFailureRun).map
        (fun s => (s.system.manager.state.mode,s.system.faults.activeFaults)) =
          some (.sunAcquisition,0) := by
  refine ⟨fun hobserved => ?_,by decide +kernel⟩
  have hmask : (run (step simPlatform) init
      (goodData ++ failingCycle ++ .control .report :: housekeepingToClear)).map
        (fun s => s.cleared (.housekeeping .clear) &&& adcsFaultActuator) =
          some adcsFaultActuator := by decide +kernel
  obtain ⟨s,hrun,hs⟩ := Option.map_eq_some_iff.mp hmask
  have hno : ∀ a ∈ housekeepingToClear,a.isUpdate = false := by
    simp [housekeepingToClear,TaskStep.isUpdate]
  rw [noClearBeforeUpdate_of_observed hobserved _ _ _ s rfl hno hrun] at hs
  exact absurd hs (by decide)

end AdcsTasks

end FlightSoftware.Adcs
