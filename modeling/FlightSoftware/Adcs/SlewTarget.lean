import FlightSoftware.Adcs.ModeSwitch
import FlightSoftware.Adcs.FaultObservation

/-!
# Target of a commanded slew

A command for a slew stores its target and then requests SLEWING, in two calls between
which other tasks run. Every update in a sun or earth mode rewrites the same target,
so the slew goes to the commanded one exactly when no update in between does so.
-/

namespace FlightSoftware.Adcs
open Run

/-! ### Targets of commands -/

/-- The target that the command generates, if it is a command for a slew. -/
def AdcsCommand.slewTarget (p : Platform) (env : CommandEnvironment) :
    AdcsCommand → Option AdcsGuidanceTarget
  | .setAttitude attitude =>
    adcsGuidanceTargetFromAttitude p .slewing attitude commandDefaultMaximumRateRadS
  | .setPointingVector bodyAxis inertialDirection =>
    adcsGuidanceTargetFromVector p .slewing bodyAxis inertialDirection commandDefaultMaximumRateRadS
  | .legacyPosition position =>
    adcsGuidanceTargetFromAttitude p .slewing (env.legacyQuaternion position)
      commandDefaultMaximumRateRadS
  | _ => Option.none

/-- What `adcs_manager_set_guidance_target` stores for the target, if it accepts it. -/
def acceptedTarget (p : Platform) (target : AdcsGuidanceTarget) : Option AdcsGuidanceTarget :=
  if !target.mode.isValid || !target.maximumRateRadS.isfinite || target.maximumRateRadS.le 0 then
    none
  else
    (adcsQuaternionNormalize p target.targetQuaternion).map fun quaternion =>
      { target with targetQuaternion := quaternion }

variable {p : Platform} {env : CommandEnvironment}

theorem AdcsManager.setGuidanceTarget_eq (target : AdcsGuidanceTarget) (m : AdcsManager) :
    m.setGuidanceTarget p (some target) =
      match acceptedTarget p target with
      | none => m.noteRejectedCommand
      | some accepted => { m with state.guidanceTarget := accepted } := by
  simp only [setGuidanceTarget,acceptedTarget]
  split
  · rfl
  · cases adcsQuaternionNormalize p target.targetQuaternion <;> rfl

theorem acceptedTarget_mode {target accepted : AdcsGuidanceTarget}
    (h : acceptedTarget p target = some accepted) : accepted.mode = target.mode := by
  rw [acceptedTarget] at h
  split at h
  · cases h
  · obtain ⟨quaternion,-,rfl⟩ := Option.map_eq_some_iff.mp h
    rfl

theorem adcsGuidanceTargetFromAttitude_mode {mode : AdcsMode} {attitude : Versor} {rate : CFloat}
    {target : AdcsGuidanceTarget}
    (h : adcsGuidanceTargetFromAttitude p mode attitude rate = some target) :
    target.mode = mode := by
  rw [adcsGuidanceTargetFromAttitude] at h
  split at h
  · cases h
  · simp only [Option.bind_eq_bind,Option.bind_eq_some_iff,Option.some.injEq] at h
    obtain ⟨-,-,rfl⟩ := h
    rfl

theorem AdcsCommand.slewTarget_mode {command : AdcsCommand} {target : AdcsGuidanceTarget}
    (h : command.slewTarget p env = some target) : target.mode = .slewing := by
  cases command with
  | setAttitude attitude => exact adcsGuidanceTargetFromAttitude_mode h
  | setPointingVector bodyAxis inertialDirection =>
    exact AdcsManager.adcsGuidanceTargetFromVector_mode h
  | legacyPosition position => exact adcsGuidanceTargetFromAttitude_mode h
  | _ => cases h

/-- The target that the command leaves in the manager, if it is a command for a slew. -/
def AdcsCommand.storedTarget (p : Platform) (env : CommandEnvironment) (command : AdcsCommand) :
    Option AdcsGuidanceTarget :=
  (command.slewTarget p env).bind (acceptedTarget p)

theorem AdcsCommand.storedTarget_mode {command : AdcsCommand} {stored : AdcsGuidanceTarget}
    (h : command.storedTarget p env = some stored) : stored.mode = .slewing := by
  obtain ⟨target,htarget,haccepted⟩ := Option.bind_eq_some_iff.mp h
  rw [acceptedTarget_mode haccepted,AdcsCommand.slewTarget_mode htarget]

theorem AdcsTasks.calling_setGuidanceTarget {t : AdcsTasks} {b : TaskStep}
    {target : Option AdcsGuidanceTarget} (h : t.calling b = some (.setGuidanceTarget target)) :
    b = .other (.setGuidanceTarget target) := by
  rw [AdcsTasks.calling.eq_def] at h
  split at h
  case h_9 => rw [Option.some.inj h]
  case h_10 | h_1 | h_2 | h_3 => cases h
  all_goals split at h <;> cases h

/-! ### A command among the other tasks -/

/-- A step that only the command task makes. -/
def TaskStep.ofCommandTask : TaskStep → Bool
  | .setManualMagnetorquer _ _ => true
  | .other (.setGuidanceTarget _) | .other (.requestMode _) | .other (.setLegacyPosition _)
  | .other (.setActuatorsInhibited _) => true
  | _ => false

/-- The tasks while the command task is in `execute_command`: the calls that it has left. -/
structure ExecutingCommand where
  tasks : AdcsTasks
  pending : List TaskStep

inductive ExecutingStep where
  | command
  | task (a : TaskStep)

namespace ExecutingCommand

/-- The command task makes its next call, or another task takes a step. -/
def step (p : Platform) (s : ExecutingCommand) : ExecutingStep → Option ExecutingCommand
  | .command =>
    match s.pending with
    | [] => none
    | a :: rest => (s.tasks.step p a).map fun tasks => ⟨tasks,rest⟩
  | .task a =>
    if a.ofCommandTask then none else (s.tasks.step p a).map fun tasks => ⟨tasks,s.pending⟩

/-- The time of the update that the step is, if it is one. -/
def updating (s : ExecutingCommand) : ExecutingStep → Option (BitVec 64)
  | .command => none
  | .task a => s.tasks.updating a

/-- The step is an update that replaces the target by the one that its mode implies. -/
def rewritesTarget (p : Platform) (s : ExecutingCommand) (a : ExecutingStep) : Bool :=
  let system := s.tasks.system
  (s.updating a).any fun nowUs =>
    ((system.manager.update p system.faults.getActive nowUs).builtinTarget p).isSome

/-- The step is an update that enters SLEWING. -/
def entersSlewing (p : Platform) (s : ExecutingCommand) (a : ExecutingStep) : Bool :=
  let system := s.tasks.system
  (s.updating a).any fun nowUs =>
    system.manager.entersSlewing p system.faults.getActive nowUs

def guidanceTarget (s : ExecutingCommand) : AdcsGuidanceTarget :=
  s.tasks.system.manager.state.guidanceTarget

variable {s s' : ExecutingCommand} {a : ExecutingStep}

/-- The calls that are left for a slew: none of them stores a target. -/
def RequestLeft (s : ExecutingCommand) : Prop :=
  ∀ a ∈ s.pending,a = .other (.requestMode slewingValue) ∨
    ∃ position,a = .other (.setLegacyPosition position)

/-- What holds from the first call of the command on. -/
structure TargetStored (s : ExecutingCommand) : Prop where
  ready : s.tasks.system.manager.Ready
  left : s.RequestLeft

/-- The calls that are left do not touch the target. -/
theorem step_command_target (hleft : s.RequestLeft) (hstep : s.step p .command = some s') :
    s'.RequestLeft ∧ s'.guidanceTarget = s.guidanceTarget := by
  simp only [step] at hstep
  split at hstep
  · cases hstep
  next a rest hpending =>
    obtain ⟨tasks,htasks,rfl⟩ := Option.map_eq_some_iff.mp hstep
    have hcalls := s.tasks.system.call_keeps (p := p)
    have hsystem := AdcsTasks.step_calling htasks
    refine ⟨fun b hb => hleft b (hpending ▸ List.mem_cons_of_mem a hb),?_⟩
    simp only [guidanceTarget]
    rw [hsystem]
    rcases hleft a (hpending ▸ List.mem_cons_self) with rfl | ⟨position,rfl⟩
    · exact (hcalls (.requestMode slewingValue) nofun).1 nofun
    · exact (hcalls (.setLegacyPosition position) nofun).1 nofun

/-- What a step of another task does to the target. -/
theorem step_task_target {b : TaskStep} (hready : s.tasks.system.manager.Ready)
    (hstep : s.step p (.task b) = some s') :
    (s.rewritesTarget p (.task b) = true → s'.guidanceTarget.mode ≠ .slewing) ∧
      (s.rewritesTarget p (.task b) = false → s'.guidanceTarget = s.guidanceTarget) := by
  simp only [step] at hstep
  split at hstep
  · cases hstep
  next hother =>
    obtain ⟨tasks,htasks,rfl⟩ := Option.map_eq_some_iff.mp hstep
    simp only [guidanceTarget,rewritesTarget,updating]
    cases hupdate : s.tasks.updating b with
    | none =>
      refine ⟨fun hrewrites => Bool.noConfusion hrewrites,fun _ => ?_⟩
      refine AdcsTasks.step_of_not_updating (fun t => t.manager.state.guidanceTarget) htasks hupdate
        fun c hcall hc => (s.tasks.system.call_keeps c hc).1 ?_
      rintro target rfl
      rw [AdcsTasks.calling_setGuidanceTarget hcall] at hother
      exact hother rfl
    | some nowUs =>
      rw [AdcsTasks.step_calling htasks,AdcsTasks.updating_eq_some.mp hupdate,Option.any_some]
      simp only [Option.map_some,Option.getD_some,AdcsSystem.call]
      rw [AdcsManager.update_guidanceTarget hready.initialized]
      cases hbuiltin : (s.tasks.system.manager.update p s.tasks.system.faults.getActive
          nowUs).builtinTarget p with
      | none => exact ⟨fun hrewrites => Bool.noConfusion hrewrites,fun _ => rfl⟩
      | some target =>
        exact ⟨fun _ => AdcsManager.builtinTarget_mode hbuiltin,fun hkeeps => Bool.noConfusion hkeeps⟩

theorem TargetStored.step (h : s.TargetStored) (hstep : s.step p a = some s') :
    s'.TargetStored ∧
      (s.rewritesTarget p a = true → s'.guidanceTarget.mode ≠ .slewing) ∧
      (s.rewritesTarget p a = false → s'.guidanceTarget = s.guidanceTarget) := by
  cases a with
  | command =>
    obtain ⟨hleft,htarget⟩ := step_command_target h.left hstep
    refine ⟨⟨?_,hleft⟩,nofun,fun _ => htarget⟩
    simp only [ExecutingCommand.step] at hstep
    split at hstep
    · cases hstep
    · obtain ⟨tasks,htasks,rfl⟩ := Option.map_eq_some_iff.mp hstep
      exact AdcsTasks.step_ready h.ready htasks
  | task b =>
    refine ⟨?_,step_task_target h.ready hstep⟩
    simp only [ExecutingCommand.step] at hstep
    split at hstep
    · cases hstep
    · obtain ⟨tasks,htasks,rfl⟩ := Option.map_eq_some_iff.mp hstep
      exact ⟨AdcsTasks.step_ready h.ready htasks,h.left⟩

/-! ### The steps in between -/

/-- No step of the run is an update that rewrites the target. -/
def NeverRewritten (p : Platform) (s : ExecutingCommand) (actions : List ExecutingStep) : Prop :=
  ∀ before a after t,actions = before ++ a :: after → run (step p) s before = some t →
    t.rewritesTarget p a = false

theorem neverRewritten_cons {actions : List ExecutingStep} (hstep : s.step p a = some s') :
    NeverRewritten p s (a :: actions) ↔
      s.rewritesTarget p a = false ∧ NeverRewritten p s' actions := by
  constructor
  · refine fun h => ⟨h [] a actions s rfl rfl,?_⟩
    rintro before b after t rfl hrun
    exact h (a :: before) b after t rfl (run_cons_eq_some.mpr ⟨s',hstep,hrun⟩)
  · rintro ⟨hfirst,hrest⟩ before b after t hactions hrun
    cases before with
    | nil =>
      obtain rfl := Option.some.inj hrun
      rw [← (List.cons.inj hactions).1]
      exact hfirst
    | cons c before =>
      obtain ⟨rfl,rfl⟩ := List.cons.inj hactions
      obtain ⟨u,hu,hrun⟩ := run_cons_eq_some.mp hrun
      rw [hstep] at hu
      cases hu
      exact hrest before b after t rfl hrun

/-- Over a run the target stays, or it becomes one that is not for SLEWING and stays such. -/
theorem TargetStored.run {actions : List ExecutingStep} (h : s.TargetStored)
    (hrun : run (ExecutingCommand.step p) s actions = some s') :
    s'.TargetStored ∧
      (NeverRewritten p s actions → s'.guidanceTarget = s.guidanceTarget) ∧
      (¬NeverRewritten p s actions ∨ s.guidanceTarget.mode ≠ .slewing →
        s'.guidanceTarget.mode ≠ .slewing) := by
  induction actions generalizing s with
  | nil =>
    obtain rfl := Option.some.inj hrun
    refine ⟨h,fun _ => rfl,?_⟩
    rintro (hrewritten | hmode)
    · exact absurd (fun before _ _ _ hnil _ => by cases before <;> cases hnil) hrewritten
    · exact hmode
  | cons a actions ih =>
    obtain ⟨t,ht,hrest⟩ := run_cons_eq_some.mp hrun
    obtain ⟨hstored,hrewritten,hsame⟩ := h.step ht
    obtain ⟨hstored',hkept,hlost⟩ := ih hstored hrest
    rw [neverRewritten_cons ht]
    refine ⟨hstored',?_,?_⟩
    · rintro ⟨hfirst,hnever⟩
      rw [hkept hnever,hsame hfirst]
    · intro hor
      cases hfirst : s.rewritesTarget p a with
      | true => exact hlost (.inr (hrewritten hfirst))
      | false =>
        refine hlost ?_
        rw [hsame hfirst]
        exact hor.imp_left fun hnot hnever => hnot ⟨hfirst,hnever⟩

/-! ### A commanded slew -/

theorem executeCommand_of_slewTarget {command : AdcsCommand} {target : AdcsGuidanceTarget}
    (h : command.slewTarget p env = some target) :
    ∃ rest,executeCommand p env command = .other (.setGuidanceTarget (some target)) :: rest ∧
      ∀ a ∈ rest,a = .other (.requestMode slewingValue) ∨
        ∃ position,a = .other (.setLegacyPosition position) := by
  cases command with
  | setAttitude attitude =>
    simp only [AdcsCommand.slewTarget] at h
    simp only [executeCommand,h,slewTo]
    exact ⟨_,rfl,fun a ha => .inl (List.mem_singleton.mp ha)⟩
  | setPointingVector bodyAxis inertialDirection =>
    simp only [AdcsCommand.slewTarget] at h
    simp only [executeCommand,h,slewTo]
    exact ⟨_,rfl,fun a ha => .inl (List.mem_singleton.mp ha)⟩
  | legacyPosition position =>
    simp only [AdcsCommand.slewTarget] at h
    simp only [executeCommand,h,slewTo]
    refine ⟨_,rfl,fun a ha => ?_⟩
    rcases List.mem_cons.mp ha with rfl | ha
    · exact .inr ⟨position,rfl⟩
    · exact .inl (List.mem_singleton.mp ha)
  | _ => cases h

/-- The first call of a command for a slew stores its target. -/
theorem targetStored_of_command {command : AdcsCommand} {stored : AdcsGuidanceTarget}
    {tasks : AdcsTasks} (hready : tasks.system.manager.Ready)
    (hset : command.storedTarget p env = some stored)
    (hstep : step p ⟨tasks,executeCommand p env command⟩ .command = some s) :
    s.TargetStored ∧ s.guidanceTarget = stored := by
  obtain ⟨target,htarget,haccepted⟩ := Option.bind_eq_some_iff.mp hset
  obtain ⟨rest,hcommand,hrest⟩ := executeCommand_of_slewTarget htarget
  rw [hcommand,step] at hstep
  obtain ⟨tasks',htasks,rfl⟩ := Option.map_eq_some_iff.mp hstep
  refine ⟨⟨AdcsTasks.step_ready hready htasks,hrest⟩,?_⟩
  simp only [guidanceTarget]
  rw [AdcsTasks.step_calling htasks]
  simp only [AdcsTasks.calling,Option.map_some,Option.getD_some,AdcsSystem.call]
  rw [AdcsManager.setGuidanceTarget_eq,haccepted]

/-- A command for a slew stores a target and makes its other calls while other tasks run.
When an update then enters SLEWING, the slew goes to that target exactly if no update since
it was stored has rewritten it. -/
theorem slew_goes_to_target_iff {earlier : List TaskStep} {tasks : AdcsTasks}
    {command : AdcsCommand} {stored : AdcsGuidanceTarget} {between : List ExecutingStep}
    {first : ExecutingCommand}
    (hearlier : run (AdcsTasks.step p) .init earlier = some tasks)
    (hset : command.storedTarget p env = some stored)
    (hfirst : step p ⟨tasks,executeCommand p env command⟩ .command = some first)
    (hbetween : run (step p) first between = some s)
    (henter : s.entersSlewing p a = true) (hstep : s.step p a = some s') :
    s'.guidanceTarget = stored ↔ NeverRewritten p first between := by
  obtain ⟨hstored,htarget⟩ :=
    targetStored_of_command (AdcsTasks.ready_of_run hearlier) hset hfirst
  obtain ⟨hlast,hkept,hlost⟩ := hstored.run hbetween
  -- the update that enters SLEWING leaves the target alone
  have hsame : s'.guidanceTarget = s.guidanceTarget := by
    obtain ⟨nowUs,hupdate,hentered⟩ := (Option.any_eq_true _ _).mp henter
    cases a with
    | command => cases hupdate
    | task b =>
      simp only [step] at hstep
      split at hstep
      · cases hstep
      obtain ⟨tasks,htasks,rfl⟩ := Option.map_eq_some_iff.mp hstep
      simp only [guidanceTarget]
      rw [AdcsTasks.step_calling htasks,AdcsTasks.updating_eq_some.mp hupdate]
      exact AdcsManager.guidanceTarget_of_entersSlewing hentered hlast.ready.initialized
  rw [hsame]
  constructor
  · intro heq
    by_contra hrewritten
    refine hlost (.inl hrewritten) ?_
    rw [heq]
    exact AdcsCommand.storedTarget_mode hset
  · intro hnever
    rw [hkept hnever,htarget]

/-! ### A slew from SUN_ACQUISITION -/

open AdcsTasks (boardPlatform boardCommands restData cycleAt)

/-- A command for half a turn about the third axis. -/
def halfTurn : AdcsCommand := .setAttitude ![0,0,1,0]

/-- The board in SUN_ACQUISITION, after one control cycle. -/
def acquiringSun : List TaskStep := restData 1000000 ++ cycleAt 1000000 false

/-- The request follows at once, and then comes new data. -/
def requestAtOnce : List ExecutingStep :=
  .command :: (restData 1050000).map .task

/-- A control cycle runs before the request. -/
def requestAfterCycle : List ExecutingStep :=
  (restData 1050000 ++ cycleAt 1050000 false).map .task ++
    .command :: (restData 1100000).map .task

/-- The mode that the target is for, after an update at `nowUs` has entered SLEWING. -/
def slewedTo (between : List ExecutingStep) (nowUs : BitVec 64) : Option AdcsMode := do
  let tasks ← run (AdcsTasks.step boardPlatform) .init acquiringSun
  let first ← step boardPlatform ⟨tasks,executeCommand boardPlatform boardCommands halfTurn⟩ .command
  let s ← run (step boardPlatform) first between
  let s' ← s.step boardPlatform (.task (.control (.update nowUs)))
  if s.entersSlewing boardPlatform (.task (.control (.update nowUs))) then
    some s'.guidanceTarget.mode
  else none

theorem exists_of_slewedTo {between : List ExecutingStep} {nowUs : BitVec 64} {mode : AdcsMode}
    (h : slewedTo between nowUs = some mode) :
    ∃ tasks first s s',run (AdcsTasks.step boardPlatform) .init acquiringSun = some tasks ∧
      step boardPlatform ⟨tasks,executeCommand boardPlatform boardCommands halfTurn⟩ .command =
        some first ∧
      run (step boardPlatform) first between = some s ∧
      s.entersSlewing boardPlatform (.task (.control (.update nowUs))) = true ∧
      s.step boardPlatform (.task (.control (.update nowUs))) = some s' ∧
      s'.guidanceTarget.mode = mode := by
  simp only [slewedTo,Option.bind_eq_bind,Option.bind_eq_some_iff] at h
  obtain ⟨tasks,htasks,first,hfirst,s,hs,s',hs',hmode⟩ := h
  split at hmode
  · exact ⟨tasks,first,s,s',htasks,hfirst,hs,‹_›,hs',Option.some.inj hmode⟩
  · cases hmode

theorem halfTurn_stored :
    ∃ stored,halfTurn.storedTarget boardPlatform boardCommands = some stored := by
  refine Option.isSome_iff_exists.mp ?_
  decide +kernel

theorem neverRewritten_of_allowed {actions : List ExecutingStep}
    (h : allowed (step p) (fun t a => !t.rewritesTarget p a) s actions = true) :
    NeverRewritten p s actions := by
  intro before b after t hactions hrun
  simpa using of_allowed h hactions hrun

/-- A slew requested at once goes to its target. -/
theorem slew_requested_at_once :
    ∃ (tasks : AdcsTasks) (first s s' : ExecutingCommand) (stored : AdcsGuidanceTarget),
      run (AdcsTasks.step boardPlatform) .init acquiringSun = some tasks ∧
      halfTurn.storedTarget boardPlatform boardCommands = some stored ∧
      step boardPlatform ⟨tasks,executeCommand boardPlatform boardCommands halfTurn⟩ .command =
        some first ∧
      run (step boardPlatform) first requestAtOnce = some s ∧
      s.step boardPlatform (.task (.control (.update 1050000))) = some s' ∧
      s'.guidanceTarget = stored := by
  obtain ⟨stored,hstored⟩ := halfTurn_stored
  have hslewed : slewedTo requestAtOnce 1050000 = some .slewing := by decide +kernel
  obtain ⟨tasks,first,s,s',htasks,hfirst,hs,henter,hs',-⟩ := exists_of_slewedTo hslewed
  have hallowed : ((run (AdcsTasks.step boardPlatform) .init acquiringSun).all fun tasks =>
      (step boardPlatform ⟨tasks,executeCommand boardPlatform boardCommands halfTurn⟩
        .command).all fun first =>
          allowed (step boardPlatform) (fun t a => !t.rewritesTarget boardPlatform a) first
            requestAtOnce) = true := by decide +kernel
  rw [htasks,Option.all_some,hfirst,Option.all_some] at hallowed
  exact ⟨tasks,first,s,s',stored,htasks,hstored,hfirst,hs,hs',
    (slew_goes_to_target_iff htasks hstored hfirst hs henter hs').mpr
      (neverRewritten_of_allowed hallowed)⟩

/-- A control cycle between the two calls of the command turns the slew to the sun. -/
theorem slew_turned_to_sun :
    ∃ tasks stored first s s',
      run (AdcsTasks.step boardPlatform) .init acquiringSun = some tasks ∧
      halfTurn.storedTarget boardPlatform boardCommands = some stored ∧
      step boardPlatform ⟨tasks,executeCommand boardPlatform boardCommands halfTurn⟩ .command =
        some first ∧
      run (step boardPlatform) first requestAfterCycle = some s ∧
      s.entersSlewing boardPlatform (.task (.control (.update 1100000))) = true ∧
      s.step boardPlatform (.task (.control (.update 1100000))) = some s' ∧
      s'.guidanceTarget.mode = .sunAcquisition ∧ s'.guidanceTarget ≠ stored := by
  obtain ⟨stored,hstored⟩ := halfTurn_stored
  have hslewed : slewedTo requestAfterCycle 1100000 = some .sunAcquisition := by decide +kernel
  obtain ⟨tasks,first,s,s',htasks,hfirst,hs,henter,hs',hmode⟩ := exists_of_slewedTo hslewed
  refine ⟨tasks,stored,first,s,s',htasks,hstored,hfirst,hs,henter,hs',hmode,?_⟩
  intro heq
  rw [heq,AdcsCommand.storedTarget_mode hstored] at hmode
  cases hmode

end ExecutingCommand

end FlightSoftware.Adcs
