import FlightSoftware.Adcs.Controller
import FlightSoftware.Lib.History

/-!
# Evidence of a settled target

The controller counts the updates on target and reports the target settled from the twentieth
on. The count survives calls that end in an error, and a change of the target that the body is
already close to; it does not survive a change of mode. So a completed slew rests on the last
calls of the controller, each of which was on its target if it returned anything.
-/

namespace FlightSoftware.Adcs
open Run

variable (p : Platform) (lib : MathFunctions)

/-- The attitude of the snapshot is on its target, in angle and in rate. -/
def AdcsManagerState.onTarget (snapshot : AdcsManagerState) : Bool :=
  (adcsQuaternionErrorVector p lib snapshot.latestAttitude.quaternion
    snapshot.guidanceTarget.targetQuaternion).any fun attitudeError =>
      slewConfig.within p attitudeError snapshot.latestAttitude.angularRateRadS

namespace ControllerCall

/-- The call does not speak against a settled target in this mode: the mode is this one, unless it
is none at all, and the attitude is on target, unless the call returned an error. -/
structure Agrees (mode : AdcsMode) (call : ControllerCall) : Prop where
  mode : call.snapshot.mode.isValid = true → call.snapshot.mode = mode
  onTarget : call.result = .ok → call.snapshot.onTarget p lib = true

/-- The call is one on target in this mode. -/
def counts (mode : AdcsMode) (call : ControllerCall) : Bool :=
  decide (call.snapshot.mode = mode) && call.snapshot.onTarget p lib

/-- The calls end with a block that agrees, with at least `n` calls on target. -/
def Block (mode : AdcsMode) (n : ℕ) (calls : List ControllerCall) : Prop :=
  ∃ block,block <:+ calls ∧ (∀ call ∈ block,call.Agrees p lib mode) ∧
    n ≤ block.countP (counts p lib mode)

/-- What a call that reports a settled target comes after. -/
def SettledLaw (before : List ControllerCall) (call : ControllerCall) : Prop :=
  call.output.targetSettled ≠ 0 → call.result = .ok ∧ call.snapshot.mode.followsTarget = true ∧
    Block p lib call.snapshot.mode 20 (before ++ [call])

end ControllerCall

variable {p : Platform} {lib : MathFunctions}

/-! ### One update of the slew law -/

/-- An update that fails leaves the count alone; one that completes counts it. -/
inductive SlewCase (p : Platform) (lib : MathFunctions) (attitude : AdcsAttitudeState)
    (target : Versor) (state : AdcsSlewState) :
    AdcsSlewState × Option (TorqueRequest × BitVec 8) → Prop
  | fails {state'} (hconfig : state'.config = state.config)
      (hcycles : state'.settledCycles = state.settledCycles) :
      SlewCase p lib attitude target state (state',none)
  | completes {driven request attitudeError} (hconfig : driven.config = state.config)
      (hcycles : driven.settledCycles = state.settledCycles)
      (herror : adcsQuaternionErrorVector p lib attitude.quaternion target = some attitudeError) :
      SlewCase p lib attitude target state
        (countSettled (state.config.within p attitudeError attitude.angularRateRadS) driven,
          some (request,flag
            (state.config.settledCyclesRequired ≤ (countSettled
              (state.config.within p attitudeError attitude.angularRateRadS)
              driven).settledCycles)))

theorem countSettled_config (onTarget : Bool) (state : AdcsSlewState) :
    (countSettled onTarget state).config = state.config := by
  rw [countSettled]
  split_ifs <;> rfl

theorem adcsSlewUpdate_case (attitude : AdcsAttitudeState) (target : Versor) (rate dtS : CFloat)
    (state : AdcsSlewState) :
    SlewCase p lib attitude target state
      (adcsSlewUpdate p lib attitude target rate dtS state) := by
  rw [adcsSlewUpdate]
  split
  · exact .fails rfl rfl
  cases herror : adcsQuaternionErrorVector p lib attitude.quaternion target with
  | none => exact .fails rfl rfl
  | some attitudeError =>
    dsimp only
    split
    · exact .fails rfl rfl
    split
    · exact .fails rfl rfl
    split
    · exact .fails rfl rfl
    · rw [countSettled_config]
      exact .completes rfl rfl herror

/-- A completed update that reports a settled target is on it. -/
theorem countSettled_onTarget {onTarget : Bool} {state : AdcsSlewState}
    (hrequired : state.config.settledCyclesRequired = 20)
    (h : state.config.settledCyclesRequired ≤ (countSettled onTarget state).settledCycles) :
    onTarget = true := by
  by_contra hoff
  rw [countSettled,if_neg hoff,hrequired] at h
  exact absurd h (by decide : ¬ (20 : BitVec 32) ≤ 0)

/-- The count goes up by one at most. -/
theorem countSettled_toNat_le (state : AdcsSlewState) :
    (countSettled true state).settledCycles.toNat ≤ state.settledCycles.toNat+1 := by
  rw [countSettled,if_pos rfl]
  split_ifs
  · show (state.settledCycles+1).toNat ≤ _
    rw [BitVec.toNat_add]
    exact Nat.mod_le _ _
  · exact Nat.le_succ _

theorem flag_ne_zero {b : Bool} (h : flag b ≠ 0) : b = true := by
  by_contra hb
  rw [flag,if_neg hb] at h
  exact h rfl

/-! ### Blocks of calls -/

namespace ControllerCall

variable {mode : AdcsMode} {n : ℕ} {calls : List ControllerCall} {call : ControllerCall}

theorem block_zero (mode : AdcsMode) (calls : List ControllerCall) :
    Block p lib mode 0 calls :=
  ⟨[],List.nil_suffix,List.forall_mem_nil _,Nat.zero_le _⟩

theorem Block.concat (h : Block p lib mode n calls) (hcall : call.Agrees p lib mode) :
    Block p lib mode n (calls ++ [call]) := by
  obtain ⟨block,⟨earlier,hsplit⟩,hall,hcount⟩ := h
  refine ⟨block ++ [call],⟨earlier,by rw [← hsplit,List.append_assoc]⟩,?_,?_⟩
  · intro x hx
    rcases List.mem_append.mp hx with hx | hx
    · exact hall x hx
    · rwa [List.mem_singleton.mp hx]
  · rw [List.countP_append]
    exact hcount.trans (Nat.le_add_right _ _)

theorem Block.count (h : Block p lib mode n calls) (hmode : call.snapshot.mode = mode)
    (hcall : call.snapshot.onTarget p lib = true) :
    Block p lib mode (n+1) (calls ++ [call]) := by
  obtain ⟨block,⟨earlier,hsplit⟩,hall,hcount⟩ := h
  refine ⟨block ++ [call],⟨earlier,by rw [← hsplit,List.append_assoc]⟩,?_,?_⟩
  · intro x hx
    rcases List.mem_append.mp hx with hx | hx
    · exact hall x hx
    · rw [List.mem_singleton.mp hx]
      exact ⟨fun _ => hmode,fun _ => hcall⟩
  · have hcounts : counts p lib mode call = true := by
      rw [counts,hcall,decide_eq_true hmode]
      rfl
    rw [List.countP_append,List.countP_singleton,if_pos hcounts]
    exact Nat.succ_le_succ hcount

theorem Block.mono {k : ℕ} (h : Block p lib mode n calls) (hk : k ≤ n) :
    Block p lib mode k calls := by
  obtain ⟨block,hsuffix,hall,hcount⟩ := h
  exact ⟨block,hsuffix,hall,hk.trans hcount⟩

end ControllerCall

/-! ### One call of the controller -/

open ControllerCall

/-- The period is one with which `adcs_controller_update` refuses to work. -/
def periodRefused (p : Platform) : Bool :=
  !(controlTaskPeriodS p).isfinite || (controlTaskPeriodS p).le 0

/-- The count is backed by the last calls. -/
structure Counting (p : Platform) (lib : MathFunctions) (c : AdcsController)
    (calls : List ControllerCall) : Prop where
  config : c.slew.config = slewConfig
  idle : c.previousMode.followsTarget = false → c.slew.settledCycles = 0
  period : periodRefused p = true → c.slew.settledCycles = 0
  block : Block p lib c.previousMode c.slew.settledCycles.toNat calls

section
variable {c : AdcsController} {calls : List ControllerCall} {snapshot : AdcsManagerState}

/-- A controller without a count needs no calls. -/
theorem Counting.of_zero (hconfig : c.slew.config = slewConfig)
    (hzero : c.slew.settledCycles = 0) : Counting p lib c calls where
  config := hconfig
  idle _ := hzero
  period _ := hzero
  block := by
    rw [hzero]
    exact block_zero _ _

theorem Counting.inMode (h : Counting p lib c calls) (mode : AdcsMode) :
    Counting p lib (c.inMode mode) calls ∧ (c.inMode mode).previousMode = mode := by
  rw [AdcsController.inMode]
  by_cases hmode : mode = c.previousMode
  · rw [if_neg (not_not.mpr hmode)]
    exact ⟨h,hmode.symm⟩
  · rw [if_pos hmode]
    exact ⟨.of_zero h.config rfl,rfl⟩

/-- A call that leaves the count alone and returns an error. -/
theorem Counting.skip (h : Counting p lib c calls) {c' : AdcsController} {call : ControllerCall}
    (hmode : call.snapshot.mode.isValid = true → call.snapshot.mode = c.previousMode)
    (herror : call.result ≠ .ok) (hprevious : c'.previousMode = c.previousMode)
    (hconfig : c'.slew.config = c.slew.config)
    (hcycles : c'.slew.settledCycles = c.slew.settledCycles) :
    Counting p lib c' (calls ++ [call]) where
  config := hconfig.trans h.config
  idle hidle := hcycles.trans (h.idle (hprevious ▸ hidle))
  period hrefused := hcycles.trans (h.period hrefused)
  block := by
    rw [hprevious,hcycles]
    exact h.block.concat ⟨hmode,fun hok => absurd hok herror⟩

theorem allocateRequest_settled {config : AdcsActuatorAllocatorConfig} {field : Vector3}
    {request : TorqueRequest} {settled : BitVec 8} {output : AdcsControlOutput}
    (hquiet : output.targetSettled = 0)
    (h : (allocateRequest p config field request settled output).2.targetSettled ≠ 0) :
    settled ≠ 0 := by
  rw [allocateRequest] at h
  dsimp only at h
  split at h
  · exact absurd hquiet h
  · exact h

theorem Counting.followTarget (h : Counting p lib c calls)
    (hmode : snapshot.mode = c.previousMode) (hfollows : snapshot.mode.followsTarget = true)
    (hperiod : periodRefused p = false) {dtS : CFloat} {output : AdcsControlOutput}
    (hquiet : output.targetSettled = 0) :
    let r := c.followTarget p lib snapshot.guidanceTarget snapshot.latestSensors
      snapshot.latestAttitude dtS output
    Counting p lib r.1 (calls ++ [⟨snapshot,r.2.1,r.2.2⟩]) ∧
      (r.2.2.targetSettled ≠ 0 →
        Block p lib snapshot.mode 20 (calls ++ [⟨snapshot,r.2.1,r.2.2⟩])) := by
  dsimp only
  have hcase := @adcsSlewUpdate_case p lib snapshot.latestAttitude
    snapshot.guidanceTarget.targetQuaternion snapshot.guidanceTarget.maximumRateRadS dtS c.slew
  rw [AdcsController.followTarget]
  generalize adcsSlewUpdate p lib snapshot.latestAttitude snapshot.guidanceTarget.targetQuaternion
    snapshot.guidanceTarget.maximumRateRadS dtS c.slew = r at hcase ⊢
  cases hcase with
  | fails hconfig hcycles =>
    exact ⟨h.skip (fun _ => hmode) (fun hok => (by cases hok)) rfl hconfig hcycles,
      fun hsettled => absurd hquiet hsettled⟩
  | @completes driven request attitudeError hconfig hcycles herror =>
    dsimp only
    have hslew : driven.config = slewConfig := hconfig.trans h.config
    have hrequired : driven.config.settledCyclesRequired = 20 := by
      rw [hslew]
      rfl
    rw [← hconfig]
    cases honTarget : driven.config.within p attitudeError snapshot.latestAttitude.angularRateRadS
      with
    | false =>
      refine ⟨.of_zero ((countSettled_config _ _).trans hslew) rfl,fun hsettled => ?_⟩
      have hreached := of_decide_eq_true (flag_ne_zero (allocateRequest_settled hquiet hsettled))
      exact absurd (countSettled_onTarget hrequired hreached) Bool.false_ne_true
    | true =>
      generalize hcall : ControllerCall.mk snapshot _ _ = call
      have hsnapshot : call.snapshot = snapshot := by rw [← hcall]
      have hcounts : call.snapshot.onTarget p lib = true := by
        rw [hsnapshot,AdcsManagerState.onTarget,herror,Option.any_some,← hslew]
        exact honTarget
      have hblock : Block p lib c.previousMode (countSettled true driven).settledCycles.toNat
          (calls ++ [call]) := by
        refine (h.block.count (hsnapshot ▸ hmode) hcounts).mono ?_
        rw [← hcycles]
        exact countSettled_toNat_le driven
      refine ⟨⟨(countSettled_config _ _).trans hslew,fun hidle => ?_,fun hrefused => ?_,hblock⟩,
        fun hsettled => ?_⟩
      · rw [← hmode,hfollows] at hidle
        cases hidle
      · rw [hperiod] at hrefused
        cases hrefused
      · have hreached := of_decide_eq_true (flag_ne_zero (allocateRequest_settled hquiet hsettled))
        rw [hrequired] at hreached
        rw [hmode]
        exact hblock.mono hreached

/-- A law that does not follow the target leaves the slew law as it is. -/
theorem applyLaw_slew (hfollows : snapshot.mode.followsTarget = false) {dtS : CFloat}
    {output : AdcsControlOutput} :
    (c.applyLaw p lib snapshot.mode snapshot.guidanceTarget snapshot.latestSensors
      snapshot.latestAttitude dtS output).1.slew = c.slew := by
  rw [AdcsController.applyLaw.eq_def]
  split
  · rw [AdcsController.detumble]
    split <;> rfl
  · rw [AdcsController.pointAtSun]
    split <;> rfl
  · rw [AdcsController.pointAtSun]
    split <;> rfl
  iterate 4
    next hmode =>
      rw [hmode] at hfollows
      cases hfollows
  · rfl

theorem applyLaw_follows (hfollows : snapshot.mode.followsTarget = true) {dtS : CFloat}
    {output : AdcsControlOutput} :
    c.applyLaw p lib snapshot.mode snapshot.guidanceTarget snapshot.latestSensors
        snapshot.latestAttitude dtS output =
      c.followTarget p lib snapshot.guidanceTarget snapshot.latestSensors snapshot.latestAttitude
        dtS output := by
  cases hmode : snapshot.mode with
  | slewing => rfl
  | targetPointing => rfl
  | earthPointing => rfl
  | science => rfl
  | _ =>
    rw [hmode] at hfollows
    cases hfollows

/-- Every call of the controller keeps its count backed, and reports a settled target only after
twenty calls on target. -/
theorem Counting.update (h : Counting p lib c calls) {snapshot : AdcsManagerState}
    {r : AdcsController × AdcsResult × AdcsControlOutput}
    (hr : c.update p lib snapshot = r) :
    Counting p lib r.1 (calls ++ [⟨snapshot,r.2.1,r.2.2⟩]) ∧
      SettledLaw p lib calls ⟨snapshot,r.2.1,r.2.2⟩ := by
  have hsettles (hsettled : r.2.2.targetSettled ≠ 0) :
      r.2.1 = .ok ∧ snapshot.mode.followsTarget = true := by
    subst hr
    exact AdcsController.update_settled hsettled
  have hlaw (hblock : r.2.2.targetSettled ≠ 0 →
      Block p lib snapshot.mode 20 (calls ++ [⟨snapshot,r.2.1,r.2.2⟩])) :
      SettledLaw p lib calls ⟨snapshot,r.2.1,r.2.2⟩ :=
    fun hsettled => ⟨(hsettles hsettled).1,(hsettles hsettled).2,hblock hsettled⟩
  rw [AdcsController.update,adcsControllerUpdate] at hr
  obtain ⟨hin,hprevious⟩ := h.inMode snapshot.mode
  dsimp only at hr
  split_ifs at hr with hguard hidle hfield
  all_goals subst hr
  · refine ⟨?_,hlaw fun hsettled => absurd rfl hsettled⟩
    cases hrefused : periodRefused p with
    | true => exact .of_zero h.config (h.period hrefused)
    | false =>
      -- the mode is none, so the call says nothing about it
      have hinvalid : snapshot.mode.isValid = false := by
        rw [Bool.or_assoc,← periodRefused,hrefused,Bool.or_false] at hguard
        simpa using hguard
      exact h.skip (fun hvalid => absurd hvalid (by rw [hinvalid]; decide))
        (fun hok => by cases hok) rfl rfl rfl
  · refine ⟨.of_zero hin.config (hin.idle ?_),hlaw fun hsettled => absurd rfl hsettled⟩
    rw [hprevious]
    rw [Bool.or_eq_true,decide_eq_true_eq,decide_eq_true_eq] at hidle
    rcases hidle with hmode | hmode <;> rw [hmode] <;> rfl
  · exact ⟨hin.skip (fun _ => hprevious.symm) (fun hok => by cases hok) rfl rfl rfl,
      hlaw fun hsettled => absurd rfl hsettled⟩
  · cases hfollows : snapshot.mode.followsTarget with
    | true =>
      rw [applyLaw_follows hfollows] at hlaw ⊢
      have hperiod : periodRefused p = false := by
        rw [Bool.or_assoc,← periodRefused,Bool.or_eq_true,not_or] at hguard
        exact Bool.eq_false_iff.mpr hguard.2
      exact ⟨(hin.followTarget hprevious.symm hfollows hperiod (by rfl)).1,
        hlaw (hin.followTarget hprevious.symm hfollows hperiod (by rfl)).2⟩
    | false =>
      refine ⟨.of_zero ?_ ?_,hlaw fun hsettled => ?_⟩
      · rw [applyLaw_slew hfollows]
        exact hin.config
      · rw [applyLaw_slew hfollows]
        refine hin.idle ?_
        rw [hprevious]
        exact hfollows
      · have hfollows' := (hsettles hsettled).2
        rw [hfollows] at hfollows'
        cases hfollows'

end

/-! ### Every run -/

namespace AdcsManager

/-- Updates do not touch the control output. -/
theorem update_latestControl (p : Platform) (activeFaults : BitVec 32) (nowUs : BitVec 64)
    (m : AdcsManager) :
    (m.update p activeFaults nowUs).state.latestControl = m.state.latestControl := by
  rcases update_spec p activeFaults nowUs m with ⟨-,hended⟩ | ⟨m',hswitch,heq⟩
  · cases hended with
    | uninitialized _ heq => rw [heq]
    | fallBack same => exact same.latestControl
  · have hadvance : Advanced m' (m'.advanceMode p nowUs) _ := advanceMode_advanced
    have hcontrol : (m'.advanceMode p nowUs).state.latestControl = m'.state.latestControl := by
      generalize m'.settledTo p nowUs = next at hadvance
      cases hadvance with
      | settled _ _ hcontrol => exact hcontrol
      | unsettled same => exact same.latestControl
    rw [heq,refreshBuiltinTarget,← (atSwitch_sameRequest hswitch).latestControl,← hcontrol]

end AdcsManager

namespace ControlledTasks

open History (Obeys obeys_nil obeys_concat)

/-- A settled target in this output was reported by a call of the controller. -/
def Reported (calls : List ControllerCall) (output : AdcsControlOutput) : Prop :=
  output.targetSettled ≠ 0 → ∃ call ∈ calls,call.output.targetSettled ≠ 0 ∧
    call.output.timestampUs = output.timestampUs ∧ call.snapshot.mode = output.sourceMode

/-- The output in hand, if there is one, is as good. -/
def ReportedPhase (calls : List ControllerCall) : ControlPhase → Prop
  | .noteError _ _ output | .actuate _ _ output | .report output | .setOutput output =>
    Reported calls output
  | _ => True

structure Backed (p : Platform) (lib : MathFunctions) (s : ControlledTasks) : Prop where
  counting : Counting p lib s.controller s.calls
  law : Obeys (SettledLaw p lib) s.calls
  phase : ReportedPhase s.calls s.tasks.control
  stored : Reported s.calls s.tasks.system.manager.state.latestControl

variable {s s' : ControlledTasks} {calls : List ControllerCall} {tasks tasks' : AdcsTasks}
  {a : TaskStep}

theorem Reported.concat {output : AdcsControlOutput} (h : Reported calls output)
    (call : ControllerCall) : Reported (calls ++ [call]) output := by
  intro hsettled
  obtain ⟨x,hx,hrest⟩ := h hsettled
  exact ⟨x,List.mem_append_left _ hx,hrest⟩

theorem reported_last {output output' : AdcsControlOutput} {snapshot : AdcsManagerState}
    {result : AdcsResult} (hsettled : output'.targetSettled = output.targetSettled)
    (htimestamp : output'.timestampUs = output.timestampUs)
    (hmode : output'.sourceMode = snapshot.mode) :
    Reported (calls ++ [⟨snapshot,result,output⟩]) output' :=
  fun h => ⟨_,List.mem_append_right _ List.mem_cons_self,hsettled ▸ h,htimestamp.symm,hmode.symm⟩

theorem controlCompute_reported (snapshot : AdcsManagerState) (result : AdcsResult)
    (output : AdcsControlOutput) :
    ReportedPhase (calls ++ [⟨snapshot,result,output⟩])
      (controlCompute snapshot result output) := by
  rw [controlCompute]
  dsimp only
  split_ifs <;> exact reported_last rfl rfl rfl

theorem controlActuated_reported {status : MagnetorquerStatus} {manual : ManualMagnetorquer}
    {output : AdcsControlOutput} (h : Reported calls output) :
    ReportedPhase calls (controlActuated status (outputPassed manual output)) := by
  rw [controlActuated,outputPassed]
  split_ifs <;> exact h

/-- The steps of the tasks other than `compute` pass the output in hand on. -/
theorem reportedPhase_step (ha : a.besideController = true)
    (hphase : ReportedPhase calls tasks.control) (hstep : tasks.step p a = some tasks') :
    ReportedPhase calls tasks'.control := by
  cases a with
  | control c =>
    rw [AdcsTasks.step,AdcsTasks.stepControl.eq_def] at hstep
    split at hstep
    case h_8 => cases hstep
    case h_3 => cases ha
    case h_5 hactuate =>
      obtain rfl := Option.some.inj hstep
      rw [hactuate] at hphase
      exact controlActuated_reported hphase
    case h_4 hsame | h_6 hsame =>
      obtain rfl := Option.some.inj hstep
      rw [hsame] at hphase
      exact hphase
    all_goals
      obtain rfl := Option.some.inj hstep
      trivial
  | housekeeping c =>
    rw [AdcsTasks.step,AdcsTasks.stepHousekeeping.eq_def] at hstep
    split at hstep
    case h_9 => cases hstep
    all_goals
      obtain rfl := Option.some.inj hstep
      exact hphase
  | setManualMagnetorquer axis direction =>
    obtain rfl := Option.some.inj hstep
    exact hphase
  | other c =>
    rw [AdcsTasks.step] at hstep
    split at hstep
    · obtain rfl := Option.some.inj hstep
      exact hphase
    · cases hstep

/-- Only the control task replaces the stored output, by the one in hand. -/
theorem reported_step (ha : a.besideController = true)
    (hphase : ReportedPhase calls tasks.control)
    (hstored : Reported calls tasks.system.manager.state.latestControl)
    (hstep : tasks.step p a = some tasks') :
    Reported calls tasks'.system.manager.state.latestControl := by
  let history : SlewHistory := { SlewHistory.init with tasks := tasks }
  by_cases hset : a = .control .setOutput
  · subst hset
    cases hcontrol : tasks.control with
    | setOutput output =>
      simp only [AdcsTasks.step,AdcsTasks.stepControl,hcontrol] at hstep
      obtain rfl := Option.some.inj hstep
      rw [hcontrol] at hphase
      show Reported calls (tasks.system.manager.setControlOutput output).state.latestControl
      rw [AdcsManager.setControlOutput]
      split
      · exact hphase
      · exact hstored
    | _ =>
      simp only [AdcsTasks.step,AdcsTasks.stepControl,hcontrol] at hstep
      cases hstep
  cases hupdate : tasks.updating a with
  | some nowUs =>
    rw [AdcsTasks.step_calling hstep,AdcsTasks.updating_eq_some.mp hupdate]
    show Reported calls (tasks.system.manager.update p _ nowUs).state.latestControl
    rw [AdcsManager.update_latestControl]
    exact hstored
  | none =>
    have hadmits := admits_of_besideController history ha
    rw [SlewHistory.latestControl_of_step hadmits hupdate hstep hset]
    exact hstored

theorem Backed.step (hs : s.Backed p lib) {step : ControlledStep}
    (h : s.step p lib step = some s') : s'.Backed p lib := by
  rw [ControlledTasks.step.eq_def] at h
  cases step with
  | compute =>
    dsimp only at h
    split at h
    · next snapshot hphase =>
      obtain ⟨tasks,hstep,rfl⟩ := Option.map_eq_some_iff.mp h
      obtain ⟨hcounting,hlaw⟩ := @Counting.update p lib _ _ hs.counting snapshot _ rfl
      simp only [AdcsTasks.step,AdcsTasks.stepControl,hphase] at hstep
      obtain rfl := Option.some.inj hstep
      exact ⟨hcounting,obeys_concat.mpr ⟨hs.law,hlaw⟩,controlCompute_reported _ _ _,
        hs.stored.concat _⟩
    · cases h
  | task a =>
    dsimp only at h
    split at h
    · next hbeside =>
      obtain ⟨tasks,hstep,rfl⟩ := Option.map_eq_some_iff.mp h
      exact ⟨hs.counting,hs.law,reportedPhase_step hbeside hs.phase hstep,
        reported_step hbeside hs.phase hs.stored hstep⟩
    · cases h

/-- The configuration is one that the slew law accepts, so it needs its twenty updates. -/
theorem adcsSlewInit_config : (adcsSlewInit slewConfig).config = slewConfig ∧
    (adcsSlewInit slewConfig).settledCycles = 0 := by
  rw [adcsSlewInit,if_neg (by decide +kernel)]
  exact ⟨rfl,rfl⟩

theorem backed_init (p : Platform) (lib : MathFunctions) : init.Backed p lib where
  counting := .of_zero adcsSlewInit_config.1 adcsSlewInit_config.2
  law := obeys_nil
  phase := trivial
  stored h := absurd rfl h

/-- In every run of the tasks with their controller and whatever the arithmetic, an update that
completes a slew does so on the output of a call of the controller that reported a settled target.
The call returned no error in a mode that follows the target, and is the last of a block of calls
without a change of the mode: at least twenty of them on target in angle and in rate, and the
others with an error. -/
theorem slew_completed_after_twenty_on_target {steps : List ControlledStep}
    (hrun : run (ControlledTasks.step p lib) init steps = some s) {nowUs : BitVec 64}
    (hcompletes : s.tasks.system.manager.completesSlew p s.tasks.system.faults.getActive nowUs =
      true) :
    ∃ before call after,s.calls = before ++ call :: after ∧
      call.output.targetSettled ≠ 0 ∧
      call.output.timestampUs = s.tasks.system.manager.state.latestControl.timestampUs ∧
      call.snapshot.mode = s.tasks.system.manager.state.latestControl.sourceMode ∧
      call.result = .ok ∧ call.snapshot.mode.followsTarget = true ∧
      Block p lib call.snapshot.mode 20 (before ++ [call]) := by
  have hs : s.Backed p lib :=
    run_invariant (I := Backed p lib) (fun _ _ _ hs => hs.step) (backed_init p lib) hrun
  have hsettled := (AdcsManager.settled_of_completesSlew hcompletes).1
  obtain ⟨call,hcall,hreported,htimestamp,hmode⟩ := hs.stored hsettled
  obtain ⟨before,after,hsplit⟩ := List.append_of_mem hcall
  obtain ⟨hok,hfollows,hblock⟩ := hs.law before call after hsplit hreported
  exact ⟨before,call,after,hsplit,hreported,htimestamp,hmode,hok,hfollows,hblock⟩

/-- A commanded slew to the attitude that the body has, up to its completion at two seconds. -/
def slewAndSettle : List ControlledStep :=
  slewInPlace ++ cyclesFrom 20 1000000 ++ restInField 2000000

theorem slew_in_place_after_twenty :
    ∃ s before call after,
      run (ControlledTasks.step AdcsTasks.boardPlatform restFunctions) init slewAndSettle = some s ∧
      s.calls = before ++ call :: after ∧ call.output.targetSettled ≠ 0 ∧
      call.snapshot.mode = s.tasks.system.manager.state.latestControl.sourceMode ∧
      call.snapshot.mode.followsTarget = true ∧
      Block AdcsTasks.boardPlatform restFunctions call.snapshot.mode 20 (before ++ [call]) := by
  have hcompletes : (run (ControlledTasks.step AdcsTasks.boardPlatform restFunctions) init
      slewAndSettle).any (fun s => s.tasks.system.manager.completesSlew AdcsTasks.boardPlatform
        s.tasks.system.faults.getActive 2000000) = true := by decide +kernel
  obtain ⟨s,hrun,hs⟩ := (Option.any_eq_true _ _).mp hcompletes
  obtain ⟨before,call,after,hsplit,hsettled,-,hmode,-,hfollows,hblock⟩ :=
    slew_completed_after_twenty_on_target hrun hs
  exact ⟨s,before,call,after,hrun,hsplit,hsettled,hmode,hfollows,hblock⟩

end ControlledTasks

end FlightSoftware.Adcs
