import FlightSoftware.Adcs.SlewTarget

/-!
# Evidence of a completed slew

SLEWING completes as soon as the latest control output says that its target is
settled, whatever mode, target or time that output is from. The history of a run keeps
for each output the snapshot that it was computed from. If every slew starts, and every
target is changed, with nothing settled left over, then every slew completes on a
snapshot of its own.
-/

namespace FlightSoftware.Adcs
open Run

/-! ### One update -/

namespace AdcsManager

/-- The update completes SLEWING. -/
def completesSlew (p : Platform) (activeFaults : BitVec 32) (nowUs : BitVec 64)
    (m : AdcsManager) : Bool :=
  (m.atSwitch p activeFaults nowUs).any fun m' =>
    decide (m'.state.mode = .slewing ∧ m'.state.latestControl.targetSettled ≠ 0)

variable {p : Platform} {activeFaults : BitVec 32} {nowUs : BitVec 64} {m m' : AdcsManager}

/-- A slew is completed on the output that is there before the update. -/
theorem settled_of_completesSlew (h : m.completesSlew p activeFaults nowUs = true) :
    m.state.latestControl.targetSettled ≠ 0 ∧
      (m.entersSlewing p activeFaults nowUs = true ∨ m.state.mode = .slewing) := by
  obtain ⟨m',hswitch,hm'⟩ := (Option.any_eq_true _ _).mp h
  obtain ⟨hmode,hsettled⟩ := of_decide_eq_true hm'
  rw [(atSwitch_sameRequest hswitch).latestControl] at hsettled
  refine ⟨hsettled,?_⟩
  rw [entersSlewing,hswitch,Option.any_some,if_pos hmode]
  by_cases hold : m.state.mode = .slewing
  · exact .inr hold
  · exact .inl (decide_eq_true hold)

/-- An update that leaves the manager in SLEWING has entered it or found it there, with the
target and the control output as before. -/
theorem update_of_slewing (h : (m.update p activeFaults nowUs).state.mode = .slewing) :
    (m.entersSlewing p activeFaults nowUs = true ∨ m.state.mode = .slewing) ∧
      (m.update p activeFaults nowUs).state.guidanceTarget = m.state.guidanceTarget ∧
      (m.update p activeFaults nowUs).state.latestControl = m.state.latestControl := by
  rcases update_spec p activeFaults nowUs m with ⟨-,hended⟩ | ⟨m',hswitch,heq⟩
  · cases hended with
    | uninitialized _ heq =>
      rw [heq] at h ⊢
      exact ⟨.inr h,rfl,rfl⟩
    | fallBack _ hmode =>
      rw [h] at hmode
      rcases hmode with hmode | hmode | hmode <;> cases hmode
  · have hbefore := atSwitch_sameRequest hswitch
    have hadvance : Advanced m' (m'.advanceMode p nowUs) _ := advanceMode_advanced
    rw [heq,refreshBuiltinTarget_mode] at h
    have hbuiltin : (m'.advanceMode p nowUs).builtinTarget p = none := by
      apply builtinTarget_eq_none <;> rw [h] <;> nofun
    rw [heq,refreshBuiltinTarget,hbuiltin,← hbefore.guidanceTarget,← hbefore.latestControl]
    refine ⟨?_,?_,?_⟩
    · rw [entersSlewing,hswitch,Option.any_some]
      by_cases hold : m.state.mode = .slewing
      · exact .inr hold
      · rw [decide_eq_true hold,decide_eq_true h,ite_self]
        exact .inl rfl
    · generalize m'.settledTo p nowUs = next at hadvance
      cases hadvance with
      | settled _ _ _ htarget => exact htarget
      | unsettled same => exact same.guidanceTarget
    · generalize m'.settledTo p nowUs = next at hadvance
      cases hadvance with
      | settled _ _ hcontrol _ => exact hcontrol
      | unsettled same => exact same.latestControl

end AdcsManager

/-! ### History of a run -/

/-- The modes in which the controller follows the guidance target, and may report it settled. -/
def AdcsMode.followsTarget : AdcsMode → Bool
  | .slewing | .targetPointing | .earthPointing | .science => true
  | _ => false

/-- What a control output rests on: the snapshot of its cycle, and how many slews had been
entered when it was taken. -/
structure ControlEvidence where
  snapshot : AdcsManagerState
  entries : ℕ

/-- A completed slew: its target, its number, and where the control output is from. -/
structure SlewCompletion where
  target : AdcsGuidanceTarget
  entries : ℕ
  evidence : Option ControlEvidence

/-- The evidence is of SLEWING, of the same target and since the same entry. -/
def Own (evidence : Option ControlEvidence) (target : AdcsGuidanceTarget) (entries : ℕ) : Prop :=
  ∃ snapshot,evidence = some ⟨snapshot,entries⟩ ∧ snapshot.mode = .slewing ∧
    snapshot.guidanceTarget = target

def SlewCompletion.Own (c : SlewCompletion) : Prop := Adcs.Own c.evidence c.target c.entries

/-- The tasks, with the entries into SLEWING so far, the evidence of the control cycle under way
and of the latest control output, and the completed slews. -/
structure SlewHistory where
  tasks : AdcsTasks
  entries : ℕ := 0
  cycle : Option ControlEvidence := none
  evidence : Option ControlEvidence := none
  completions : List SlewCompletion := []

/-- A control cycle is under way whose output may say that the target is settled. -/
def ControlPhase.maySettle : ControlPhase → Bool
  | .compute snapshot => snapshot.mode.followsTarget
  | .noteError _ _ output | .actuate _ _ output | .report output | .setOutput output =>
    output.targetSettled != 0
  | _ => false

namespace SlewHistory

def init : SlewHistory := ⟨.init,0,none,none,[]⟩

def state (s : SlewHistory) : AdcsManagerState := s.tasks.system.manager.state

/-- Only the control task stores outputs, and the controller reports a settled target only with
a good result in a mode that follows the target. -/
def admits (s : SlewHistory) : TaskStep → Bool
  | .other (.setControlOutput _) => false
  | .control (.compute result output) =>
    match s.tasks.control with
    | .compute snapshot =>
      output.targetSettled == 0 || decide (result = .ok) && snapshot.mode.followsTarget
    | _ => true
  | _ => true

/-- The history after a step that leaves `tasks`. -/
def next (p : Platform) (s : SlewHistory) (a : TaskStep) (tasks : AdcsTasks) : SlewHistory :=
  match s.tasks.updating a with
  | some nowUs =>
    let m := s.tasks.system.manager
    let active := s.tasks.system.faults.getActive
    let entries := if m.entersSlewing p active nowUs then s.entries+1 else s.entries
    let completion : SlewCompletion := ⟨m.state.guidanceTarget,entries,s.evidence⟩
    { s with
      tasks := tasks
      entries := entries
      completions :=
        if m.completesSlew p active nowUs then s.completions ++ [completion] else s.completions }
  | none =>
    match a,s.tasks.control with
    | .control .getState,_ => { s with tasks := tasks,cycle := some ⟨s.state,s.entries⟩ }
    | .control .setOutput,.setOutput output =>
      { s with
        tasks := tasks
        evidence :=
          if s.state.latestControl.timestampUs ≤ output.timestampUs then s.cycle else s.evidence }
    | _,_ => { s with tasks := tasks }

def step (p : Platform) (s : SlewHistory) (a : TaskStep) : Option SlewHistory :=
  if s.admits a then (s.tasks.step p a).map (s.next p a) else none

/-- The step enters SLEWING, or changes the target of a slew under way. -/
def restarts (p : Platform) (s : SlewHistory) (a : TaskStep) : Bool :=
  (s.tasks.updating a).any (fun nowUs =>
      s.tasks.system.manager.entersSlewing p s.tasks.system.faults.getActive nowUs) ||
    match a with
    | .other (.setGuidanceTarget (some target)) =>
      decide (s.state.mode = .slewing) && (acceptedTarget p target).isSome
    | _ => false

/-- No settled output is stored, and no control cycle under way may bring one. -/
def nothingSettled (s : SlewHistory) : Bool :=
  s.state.latestControl.targetSettled == 0 && !s.tasks.control.maySettle

/-- Slews start, and targets change, only when nothing settled is left over. -/
def startsFresh (p : Platform) (s : SlewHistory) (a : TaskStep) : Bool :=
  !s.restarts p a || s.nothingSettled

/-! ### The invariant -/

/-- What a settled output would be taken for in SLEWING is evidence of the slew under way. -/
structure Evident (s : SlewHistory) : Prop where
  completed : ∀ c ∈ s.completions,c.Own
  stored : s.state.mode = .slewing → s.state.latestControl.targetSettled ≠ 0 →
    Own s.evidence s.state.guidanceTarget s.entries
  pending : s.state.mode = .slewing → s.tasks.control.maySettle = true →
    Own s.cycle s.state.guidanceTarget s.entries

end SlewHistory

variable {p : Platform} {nowUs : BitVec 64} {a : TaskStep}

/-! ### Control cycles -/

theorem controlCompute_maySettle (snapshot : AdcsManagerState) (result : AdcsResult)
    (output : AdcsControlOutput) :
    (controlCompute snapshot result output).maySettle = (output.targetSettled != 0) := by
  simp only [controlCompute]
  split_ifs <;> rfl

theorem controlActuated_maySettle (status : MagnetorquerStatus) (manual : ManualMagnetorquer)
    (output : AdcsControlOutput) :
    (controlActuated status (outputPassed manual output)).maySettle =
      (output.targetSettled != 0) := by
  rw [controlActuated,outputPassed]
  split_ifs <;> rfl

namespace SlewHistory

variable {s s' : SlewHistory} {tasks : AdcsTasks}

/-- A cycle that may settle has just taken its snapshot, or could settle before. -/
theorem maySettle_of_step (hadmits : s.admits a = true) (hstep : s.tasks.step p a = some tasks)
    (h : tasks.control.maySettle = true) :
    a = .control .getState ∨ s.tasks.control.maySettle = true := by
  cases a with
  | control c =>
    rw [AdcsTasks.step,AdcsTasks.stepControl.eq_def] at hstep
    split at hstep
    case h_8 => cases hstep
    all_goals obtain rfl := Option.some.inj hstep
    case h_1 | h_7 => cases h
    case h_2 => exact .inl rfl
    case h_3 result output snapshot hphase =>
      rw [controlCompute_maySettle,bne_iff_ne] at h
      simp only [admits,hphase,Bool.or_eq_true,beq_iff_eq,h,false_or,Bool.and_eq_true] at hadmits
      rw [hphase]
      exact .inr hadmits.2
    case h_5 hphase =>
      rw [controlActuated_maySettle] at h
      rw [hphase]
      exact .inr h
    case h_4 hphase | h_6 hphase =>
      rw [hphase]
      exact .inr h
  | housekeeping c =>
    rw [AdcsTasks.step,AdcsTasks.stepHousekeeping.eq_def] at hstep
    split at hstep
    case h_9 => cases hstep
    all_goals
      obtain rfl := Option.some.inj hstep
      exact .inr h
  | setManualMagnetorquer axis direction =>
    obtain rfl := Option.some.inj hstep
    exact .inr h
  | other c =>
    simp only [AdcsTasks.step] at hstep
    split at hstep
    · obtain rfl := Option.some.inj hstep
      exact .inr h
    · cases hstep

theorem not_settled_of_nothingSettled (h : s.nothingSettled = true) :
    s.state.latestControl.targetSettled = 0 ∧ s.tasks.control.maySettle = false := by
  simpa only [nothingSettled,Bool.and_eq_true,beq_iff_eq,Bool.not_eq_true'] using h

/-! ### Updates -/

theorem Evident.update (h : s.Evident) (hadmits : s.admits a = true)
    (hupdate : s.tasks.updating a = some nowUs) (hstep : s.tasks.step p a = some tasks)
    (hfresh : s.startsFresh p a = true) : (s.next p a tasks).Evident := by
  have hsystem := AdcsTasks.step_calling hstep
  rw [AdcsTasks.updating_eq_some.mp hupdate] at hsystem
  have hmanager : tasks.system.manager =
      s.tasks.system.manager.update p s.tasks.system.faults.getActive nowUs := by
    rw [hsystem]
    rfl
  -- nothing is left over where the update enters SLEWING
  have hentered (henters : s.tasks.system.manager.entersSlewing p
      s.tasks.system.faults.getActive nowUs = true) : s.nothingSettled = true := by
    simpa [startsFresh,restarts,hupdate,henters] using hfresh
  -- and where it does not, the count of entries stays
  have hentries (hsettled : s.nothingSettled ≠ true) :
      (s.next p a tasks).entries = s.entries := by
    simp only [next,hupdate]
    exact if_neg fun henters => hsettled (hentered henters)
  have hcycle : (s.next p a tasks).cycle = s.cycle := by simp only [next,hupdate]
  have hevidence : (s.next p a tasks).evidence = s.evidence := by simp only [next,hupdate]
  have htasks : (s.next p a tasks).tasks = tasks := by simp only [next,hupdate]
  refine ⟨?_,?_,?_⟩
  · simp only [next,hupdate]
    split
    · next hcompletes =>
      obtain ⟨hsettled,hfrom⟩ := AdcsManager.settled_of_completesSlew hcompletes
      intro c hc
      rcases List.mem_append.mp hc with hc | hc
      · exact h.completed c hc
      · obtain rfl := List.mem_singleton.mp hc
        have hleft : s.nothingSettled ≠ true := fun hnothing =>
          hsettled (not_settled_of_nothingSettled hnothing).1
        rw [SlewCompletion.Own,if_neg fun henters => hleft (hentered henters)]
        rcases hfrom with henters | hmode
        · exact absurd (hentered henters) hleft
        · exact h.stored hmode hsettled
    · exact h.completed
  all_goals
    intro hmode hsettles
    rw [state,htasks,hmanager] at hmode
    obtain ⟨hfrom,htarget,hcontrol⟩ := AdcsManager.update_of_slewing hmode
    rw [state,htasks,hmanager,htarget]
  · rw [state,htasks,hmanager,hcontrol] at hsettles
    have hleft : s.nothingSettled ≠ true := fun hnothing =>
      hsettles (not_settled_of_nothingSettled hnothing).1
    rw [hevidence,hentries hleft]
    rcases hfrom with henters | hmode
    · exact absurd (hentered henters) hleft
    · exact h.stored hmode hsettles
  · rw [htasks] at hsettles
    have hbefore : s.tasks.control.maySettle = true := by
      rcases maySettle_of_step hadmits hstep hsettles with rfl | hbefore
      · cases hupdate
      · exact hbefore
    have hleft : s.nothingSettled ≠ true := fun hnothing => by
      rw [(not_settled_of_nothingSettled hnothing).2] at hbefore
      cases hbefore
    rw [hcycle,hentries hleft]
    rcases hfrom with henters | hmode
    · exact absurd (hentered henters) hleft
    · exact h.pending hmode hbefore

/-! ### Other steps -/

theorem mode_of_not_updating (hupdate : s.tasks.updating a = none)
    (hstep : s.tasks.step p a = some tasks) : tasks.system.manager.state.mode = s.state.mode :=
  AdcsTasks.step_of_not_updating (fun t => t.manager.state.mode) hstep hupdate fun c _ hc => by
    rcases s.tasks.system.call_cases (p := p) c with ⟨nowUs,rfl⟩ | kept
    · exact absurd rfl (hc nowUs)
    · exact kept.mode

theorem Evident.getState (h : s.Evident)
    (hstep : s.tasks.step p (.control .getState) = some tasks) :
    (s.next p (.control .getState) tasks).Evident := by
  have hsystem : tasks.system = s.tasks.system := AdcsTasks.step_calling hstep
  have hnext : s.next p (.control .getState) tasks =
      { s with tasks := tasks,cycle := some ⟨s.state,s.entries⟩ } := rfl
  rw [hnext]
  refine ⟨h.completed,?_,?_⟩
  · simp only [state,hsystem]
    exact h.stored
  · simp only [state,hsystem]
    exact fun hmode _ => ⟨_,rfl,hmode,rfl⟩

theorem setOutput_spec (hstep : s.tasks.step p (.control .setOutput) = some tasks) :
    ∃ output,s.tasks.control = .setOutput output ∧
      tasks = { s.tasks with
        system := s.tasks.system.call p (.setControlOutput output)
        control := .update } := by
  cases hphase : s.tasks.control with
  | setOutput output =>
    simp only [AdcsTasks.step,AdcsTasks.stepControl,hphase] at hstep
    exact ⟨output,rfl,(Option.some.inj hstep).symm⟩
  | _ =>
    simp only [AdcsTasks.step,AdcsTasks.stepControl,hphase] at hstep
    cases hstep

theorem Evident.setOutput (h : s.Evident)
    (hstep : s.tasks.step p (.control .setOutput) = some tasks) :
    (s.next p (.control .setOutput) tasks).Evident := by
  obtain ⟨output,hphase,htasks⟩ := setOutput_spec hstep
  have hupdate : s.tasks.updating (.control .setOutput) = none := by
    simp only [AdcsTasks.updating,AdcsTasks.calling,hphase]
    rfl
  have hcontrol : tasks.control = .update := by rw [htasks]
  have hmanager : tasks.system.manager = s.tasks.system.manager.setControlOutput output := by
    rw [htasks]
    rfl
  by_cases hnew : s.state.latestControl.timestampUs ≤ output.timestampUs
  -- the output is stored, and a settled one is from the cycle under way
  · have hnext : s.next p (.control .setOutput) tasks =
        { s with tasks := tasks,evidence := s.cycle } := by
      simp only [next,hupdate,hphase,if_pos hnew]
    have hstored : tasks.system.manager.state = { s.state with latestControl := output } := by
      rw [hmanager,AdcsManager.setControlOutput]
      exact congrArg AdcsManager.state (if_pos hnew)
    rw [hnext]
    refine ⟨h.completed,?_,?_⟩
    · simp only [state,hstored]
      intro hslewing hsettled
      refine h.pending hslewing ?_
      rw [hphase]
      exact bne_iff_ne.mpr hsettled
    · simp only [hcontrol]
      exact fun _ hsettles => Bool.noConfusion hsettles
  · have hnext : s.next p (.control .setOutput) tasks = { s with tasks := tasks } := by
      simp only [next,hupdate,hphase,if_neg hnew]
    have hkept : tasks.system.manager.state = s.state := by
      rw [hmanager,AdcsManager.setControlOutput]
      exact congrArg AdcsManager.state (if_neg hnew)
    rw [hnext]
    refine ⟨h.completed,?_,?_⟩
    · simp only [state,hkept]
      exact h.stored
    · simp only [hcontrol]
      exact fun _ hsettles => Bool.noConfusion hsettles

/-- A step that changes no guidance target in SLEWING. -/
theorem guidanceTarget_of_not_restarts (hupdate : s.tasks.updating a = none)
    (hstep : s.tasks.step p a = some tasks) (hmode : s.state.mode = .slewing)
    (hrestarts : s.restarts p a = false) :
    tasks.system.manager.state.guidanceTarget = s.state.guidanceTarget := by
  refine AdcsTasks.step_of_not_updating (fun t => t.manager.state.guidanceTarget) hstep hupdate
    fun c hcall hc => ?_
  by_cases hset : ∃ target,c = .setGuidanceTarget target
  · obtain ⟨target,rfl⟩ := hset
    rw [AdcsTasks.calling_setGuidanceTarget hcall] at hrestarts
    cases target with
    | none => rfl
    | some target =>
      simp only [restarts,hmode,Bool.or_eq_false_iff,decide_true,Bool.true_and,
        Option.isSome_eq_false_iff,Option.isNone_iff_eq_none] at hrestarts
      simp only [AdcsSystem.call,AdcsManager.setGuidanceTarget_eq,hrestarts.2]
      rfl
  · exact (s.tasks.system.call_keeps c hc).1 fun target heq => hset ⟨target,heq⟩

theorem latestControl_of_step (hadmits : s.admits a = true) (hupdate : s.tasks.updating a = none)
    (hstep : s.tasks.step p a = some tasks) (ha : a ≠ .control .setOutput) :
    tasks.system.manager.state.latestControl = s.state.latestControl := by
  refine AdcsTasks.step_of_not_updating (fun t => t.manager.state.latestControl) hstep hupdate
    fun c hcall hc => (s.tasks.system.call_keeps c hc).2 ?_
  rintro control rfl
  rw [AdcsTasks.calling.eq_def] at hcall
  split at hcall
  case h_4 => exact ha rfl
  case h_9 =>
    rw [Option.some.inj hcall] at hadmits
    cases hadmits
  case h_10 | h_1 | h_2 | h_3 => cases hcall
  all_goals split at hcall <;> cases hcall

/-- A step other than an update and the two that record evidence. -/
theorem Evident.other (h : s.Evident) (hadmits : s.admits a = true)
    (hupdate : s.tasks.updating a = none) (hstep : s.tasks.step p a = some tasks)
    (hfresh : s.startsFresh p a = true) (hget : a ≠ .control .getState)
    (hset : a ≠ .control .setOutput) :
    (s.next p a tasks).Evident := by
  have hnext : s.next p a tasks = { s with tasks := tasks } := by
    simp only [next,hupdate]
    split
    · exact absurd rfl hget
    · exact absurd rfl hset
    · rfl
  have hcontrol := latestControl_of_step hadmits hupdate hstep hset
  have hmode := mode_of_not_updating hupdate hstep
  have hsettle (hsettles : tasks.control.maySettle = true) : s.tasks.control.maySettle = true :=
    (maySettle_of_step hadmits hstep hsettles).resolve_left hget
  rw [hnext]
  simp only [startsFresh,Bool.or_eq_true,Bool.not_eq_true'] at hfresh
  refine ⟨h.completed,fun hslewing hsettled => ?_,fun hslewing hsettles => ?_⟩
  all_goals
    simp only [state] at hslewing
    rw [hmode] at hslewing
  · simp only [state] at hsettled
    rw [hcontrol] at hsettled
    rcases hfresh with hsame | hnothing
    · simp only [state]
      rw [guidanceTarget_of_not_restarts hupdate hstep hslewing hsame]
      exact h.stored hslewing hsettled
    · exact absurd (not_settled_of_nothingSettled hnothing).1 hsettled
  · have hbefore := hsettle hsettles
    rcases hfresh with hsame | hnothing
    · simp only [state]
      rw [guidanceTarget_of_not_restarts hupdate hstep hslewing hsame]
      exact h.pending hslewing hbefore
    · rw [(not_settled_of_nothingSettled hnothing).2] at hbefore
      cases hbefore

/-! ### Every run -/

theorem Evident.step (h : s.Evident) (hfresh : s.startsFresh p a = true)
    (hstep : s.step p a = some s') : s'.Evident := by
  rw [SlewHistory.step] at hstep
  split at hstep
  case isFalse => cases hstep
  case isTrue hadmits =>
    obtain ⟨tasks,htasks,rfl⟩ := Option.map_eq_some_iff.mp hstep
    cases hupdate : s.tasks.updating a with
    | some nowUs => exact h.update hadmits hupdate htasks hfresh
    | none =>
      by_cases hget : a = .control .getState
      · subst hget
        exact h.getState htasks
      by_cases hset : a = .control .setOutput
      · subst hset
        exact h.setOutput htasks
      · exact h.other hadmits hupdate htasks hfresh hget hset

theorem evident_init : init.Evident where
  completed _ hc := nomatch hc
  stored hmode := nomatch hmode
  pending _ hsettles := nomatch hsettles

/-- If in a run SLEWING is entered, and its target changed, only when no settled output is left
over or may still come, every slew completes on the output of a cycle of its own: one whose
snapshot is in SLEWING, has the target of the slew, and is from after the last entry. -/
theorem slews_complete_on_own_evidence {actions : List TaskStep}
    (hrun : run (step p) init actions = some s)
    (hfresh : ∀ before a after t,actions = before ++ a :: after →
      run (step p) init before = some t → t.startsFresh p a = true) :
    ∀ c ∈ s.completions,c.Own :=
  (run_invariant_of (I := Evident) (P := fun t a => t.startsFresh p a = true)
    (fun _ _ _ h hP hstep => h.step hP hstep) evident_init hfresh hrun).completed

/-! ### Two slews of a body at rest -/

open AdcsTasks (boardPlatform boardCommands restData cycleAt settlingCycles)

/-- A commanded slew to the attitude that the body has, up to its completion. -/
def firstSlew : List TaskStep :=
  executeCommand boardPlatform boardCommands (.setAttitude ![0,0,0,1]) ++
    settlingCycles 20 1000000 ++ restData 2000000 ++ [.control (.update 2000000)]

/-- The target is settled in TARGET_POINTING too, and then half a turn is commanded. -/
def secondSlew : List TaskStep :=
  firstSlew ++ (cycleAt 2000000 false).tail ++ settlingCycles 19 2050000 ++
    executeCommand boardPlatform boardCommands (.setAttitude ![0,0,1,0]) ++ restData 3000000 ++
    [.control (.update 3000000)]

/-- The number of the last completed slew, and what its evidence is from. -/
def lastCompleted (actions : List TaskStep) : Option (ℕ × AdcsMode × ℕ) := do
  let s ← run (step boardPlatform) init actions
  let c ← s.completions.getLast?
  let e ← c.evidence
  some (c.entries,e.snapshot.mode,e.entries)

theorem exists_of_lastCompleted {actions : List TaskStep} {n k : ℕ} {mode : AdcsMode}
    (h : lastCompleted actions = some (n,mode,k)) :
    ∃ s c e,run (step boardPlatform) init actions = some s ∧ c ∈ s.completions ∧
      c.evidence = some e ∧ c.entries = n ∧ e.snapshot.mode = mode ∧ e.entries = k := by
  simp only [lastCompleted,Option.bind_eq_bind,Option.bind_eq_some_iff,Option.some.injEq,
    Prod.mk.injEq] at h
  obtain ⟨s,hs,c,hc,e,he,hn,hmode,hk⟩ := h
  exact ⟨s,c,e,hs,List.mem_of_getLast? hc,he,hn,hmode,hk⟩

/-- The first slew completes on its own evidence. -/
theorem first_slew_on_own_evidence :
    ∃ s c,run (step boardPlatform) init firstSlew = some s ∧ c ∈ s.completions ∧ c.Own := by
  have hlast : lastCompleted firstSlew = some (1,.slewing,1) := by decide +kernel
  obtain ⟨s,c,e,hs,hc,-⟩ := exists_of_lastCompleted hlast
  have hallowed : allowed (step boardPlatform) (startsFresh boardPlatform) init firstSlew = true := by
    decide +kernel
  refine ⟨s,c,hs,hc,slews_complete_on_own_evidence hs ?_ c hc⟩
  exact fun _ _ _ _ hactions hrun => of_allowed hallowed hactions hrun

/-- The second completes in the update that enters it, on the output of a cycle in
TARGET_POINTING from before. -/
theorem second_slew_on_old_evidence :
    ∃ s c e,run (step boardPlatform) init secondSlew = some s ∧ c ∈ s.completions ∧
      c.evidence = some e ∧ e.snapshot.mode = .targetPointing ∧ e.entries < c.entries ∧
      ¬c.Own := by
  have hlast : lastCompleted secondSlew = some (2,.targetPointing,1) := by decide +kernel
  obtain ⟨s,c,e,hs,hc,he,hn,hmode,hk⟩ := exists_of_lastCompleted hlast
  refine ⟨s,c,e,hs,hc,he,hmode,by omega,?_⟩
  rintro ⟨snapshot,hevidence,hslewing,-⟩
  rw [he] at hevidence
  cases hevidence
  rw [hmode] at hslewing
  cases hslewing

end SlewHistory

end FlightSoftware.Adcs
