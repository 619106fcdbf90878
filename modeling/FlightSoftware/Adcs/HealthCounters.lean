import FlightSoftware.Adcs.SlewTarget
import FlightSoftware.Lib.Tally

/-!
# The counters of the health record

Housekeeping reads the health record in a snapshot and stores it back later, while other
tasks count events in it. `adcs_manager_set_health` keeps the manager's own counters, so
each of them is at any time the number of its events since `adcs_manager_init`, modulo
2^32, however old the snapshot is.
-/

namespace FlightSoftware.Adcs
open Run Tally

/-! ### Events -/

/-- What the health record counts. -/
inductive HealthEvent where
  | modeChange
  | rejectedCommand
  | droppedMessage
  | estimatorReset
  | controllerError
  deriving DecidableEq

def AdcsHealth.counter (health : AdcsHealth) : HealthEvent → BitVec 32
  | .modeChange => health.modeTransitions
  | .rejectedCommand => health.rejectedCommands
  | .droppedMessage => health.droppedMessages
  | .estimatorReset => health.estimatorResets
  | .controllerError => health.controllerErrors

/-- The changes, from one mode to another, on the way from a mode through others: the lines that
`enter_mode_locked` prints. -/
def modeChanges : AdcsMode → List AdcsMode → List (AdcsMode × AdcsMode)
  | _,[] => []
  | old,new :: rest => (if old = new then [] else [(old,new)]) ++ modeChanges new rest

namespace AdcsManager

variable (p : Platform)

/-- The modes after the checks, after the request and after the switch, between any two of which
the update calls `enter_mode_locked` once at most. -/
def modesAfterBoot (nowUs : BitVec 64) (m : AdcsManager) : List AdcsMode :=
  match m.switchAfterBoot p nowUs with
  | none => [(m.updateAfterBoot p nowUs).state.mode]
  | some m' => [m'.state.mode,(m'.advanceMode p nowUs).state.mode]

/-- The modes that an update goes through. -/
def modesPassed (activeFaults : BitVec 32) (nowUs : BitVec 64) (m : AdcsManager) :
    List AdcsMode :=
  if m.state.initialized = 0 then []
  else if activeFaults &&& criticalFaults ≠ 0 then [.safe]
  else
    let m := m.recordFaults activeFaults
    if m.state.mode = .boot then
      if m.sensorsReady p && m.sensorsFresh nowUs then
        .safe :: (m.enterMode .safe).modesAfterBoot p nowUs
      else []
    else m.modesAfterBoot p nowUs

/-- The changes of mode in an update. -/
def updateChanges (activeFaults : BitVec 32) (nowUs : BitVec 64) (m : AdcsManager) :
    List (AdcsMode × AdcsMode) :=
  modeChanges m.state.mode (m.modesPassed p activeFaults nowUs)

end AdcsManager

/-- The number is that of a mode that may be requested. -/
def requestable (mode : BitVec 32) : Bool :=
  let requested := AdcsMode.ofNat mode.toNat
  requested.isValid && decide (requested ≠ .boot)

/-- The events that a call is to count. -/
def AdcsSystem.healthEvents (p : Platform) (s : AdcsSystem) : AdcsCall → List HealthEvent
  | .update nowUs =>
    (s.manager.updateChanges p s.faults.getActive nowUs).map fun _ => .modeChange
  | .requestMode mode => if requestable mode then [] else [.rejectedCommand]
  | .setGuidanceTarget target =>
    if (target.bind (acceptedTarget p)).isSome then [] else [.rejectedCommand]
  | .noteRejectedCommand => [.rejectedCommand]
  | .noteDroppedMessage => [.droppedMessage]
  | .noteEstimatorReset => [.estimatorReset]
  | .noteControllerError => [.controllerError]
  | _ => []

namespace AdcsManager

variable {p : Platform} {activeFaults : BitVec 32} {nowUs : BitVec 64} {m m' m'' : AdcsManager}

/-- The mode and the counters agree. -/
structure SameCounts (m m' : AdcsManager) : Prop where
  mode : m'.state.mode = m.state.mode
  counter : m'.state.health.counter = m.state.health.counter

theorem SameCounts.refl (m : AdcsManager) : SameCounts m m := ⟨rfl,rfl⟩

theorem SameCounts.trans (h : SameCounts m m') (h' : SameCounts m' m'') : SameCounts m m'' :=
  ⟨h'.mode.trans h.mode,h'.counter.trans h.counter⟩

theorem enterMode_counter (mode : AdcsMode) (m : AdcsManager) (k : HealthEvent) :
    (m.enterMode mode).state.health.counter k = m.state.health.counter k +
      added 32 ((modeChanges m.state.mode [mode]).map fun _ => .modeChange) k := by
  rw [enterMode,modeChanges,modeChanges,List.append_nil]
  by_cases hmode : m.state.mode = mode
  · rw [if_pos hmode,if_pos hmode]
    exact (BitVec.add_zero _).symm
  · rw [if_neg hmode,if_neg hmode]
    cases k with
    | modeChange => rfl
    | _ => exact (BitVec.add_zero _).symm

theorem SameCounts.enterMode (h : SameCounts m m') (mode : AdcsMode) :
    SameCounts (m.enterMode mode) (m'.enterMode mode) := by
  refine ⟨?_,?_⟩
  · rw [enterMode_mode,enterMode_mode]
  · funext k
    rw [enterMode_counter,enterMode_counter,h.mode,h.counter]

/-- What happens amounts to one call of `enter_mode_locked`, with the mode that is there then. -/
def EntersOnce (m m' : AdcsManager) : Prop := SameCounts (m.enterMode m'.state.mode) m'

theorem SameCounts.entersOnce (h : SameCounts m m') : EntersOnce m m' := by
  rw [EntersOnce,h.mode,AdcsManager.enterMode,if_pos rfl]
  exact h

theorem SameCounts.entersOnce_enterMode (h : SameCounts m m') (mode : AdcsMode) :
    EntersOnce m (m'.enterMode mode) := by
  rw [EntersOnce,enterMode_mode]
  exact h.enterMode mode

theorem entersOnce_enterMode (mode : AdcsMode) (m : AdcsManager) :
    EntersOnce m (m.enterMode mode) :=
  (SameCounts.refl m).entersOnce_enterMode mode

theorem applyRequest_entersOnce : EntersOnce m (m.applyRequest p nowUs) := by
  rw [applyRequest]
  split_ifs
  · exact entersOnce_enterMode _ m
  · exact entersOnce_enterMode _ m
  · exact entersOnce_enterMode _ m
  · exact (SameCounts.refl m).entersOnce

theorem advanceSafe_entersOnce : EntersOnce m (m.advanceSafe p nowUs) := by
  rw [advanceSafe]
  split_ifs
  · exact (SameCounts.refl m).entersOnce
  · exact entersOnce_enterMode _ m
  · exact entersOnce_enterMode _ m
  · exact (SameCounts.refl m).entersOnce

theorem advanceDetumble_entersOnce : EntersOnce m (m.advanceDetumble p nowUs) := by
  have hcounted : ∀ cycles,SameCounts m { m with state.stableCycles := cycles } :=
    fun _ => ⟨rfl,rfl⟩
  simp only [advanceDetumble]
  split_ifs
  · exact (hcounted _).entersOnce_enterMode _
  · exact (hcounted _).entersOnce_enterMode _
  · exact (hcounted _).entersOnce
  · exact (hcounted _).entersOnce

theorem advanceSunAcquisition_entersOnce : EntersOnce m (m.advanceSunAcquisition p nowUs) := by
  simp only [advanceSunAcquisition]
  split_ifs
  · exact SameCounts.entersOnce ⟨rfl,rfl⟩
  · exact (SameCounts.refl m).entersOnce
  · refine SameCounts.entersOnce_enterMode ?_ _
    exact ⟨rfl,rfl⟩
  · exact SameCounts.entersOnce ⟨rfl,rfl⟩
  · exact SameCounts.entersOnce ⟨rfl,rfl⟩

theorem advanceSlewing_entersOnce : EntersOnce m m.advanceSlewing := by
  rw [advanceSlewing]
  split_ifs
  · refine SameCounts.entersOnce_enterMode ?_ _
    exact ⟨rfl,rfl⟩
  · exact (SameCounts.refl m).entersOnce

theorem advanceMode_entersOnce : EntersOnce m (m.advanceMode p nowUs) := by
  rw [advanceMode]
  cases m.state.mode with
  | safe => exact advanceSafe_entersOnce
  | detumble => exact advanceDetumble_entersOnce
  | sunAcquisition => exact advanceSunAcquisition_entersOnce
  | slewing => exact advanceSlewing_entersOnce
  | _ => exact (SameCounts.refl m).entersOnce

/-! ### Updates -/

/-- What happens amounts to calls of `enter_mode_locked` with these modes, one after another. -/
def Enters (m : AdcsManager) (modes : List AdcsMode) (m' : AdcsManager) : Prop :=
  SameCounts (modes.foldl (fun m mode => m.enterMode mode) m) m'

theorem SameCounts.enters (h : SameCounts m m') : Enters m [] m' := h

theorem SameCounts.foldl (h : SameCounts m m') (modes : List AdcsMode) :
    SameCounts (modes.foldl (fun m mode => m.enterMode mode) m)
      (modes.foldl (fun m mode => m.enterMode mode) m') := by
  induction modes generalizing m m' with
  | nil => exact h
  | cons mode modes ih => exact ih (h.enterMode mode)

theorem Enters.of_same {modes : List AdcsMode} (h : SameCounts m m')
    (henters : Enters m' modes m'') : Enters m modes m'' :=
  (h.foldl modes).trans henters

theorem Enters.same {modes : List AdcsMode} (henters : Enters m modes m')
    (h : SameCounts m' m'') : Enters m modes m'' :=
  SameCounts.trans henters h

theorem EntersOnce.enters {modes : List AdcsMode} (h : EntersOnce m m')
    (henters : Enters m' modes m'') : Enters m (m'.state.mode :: modes) m'' :=
  (SameCounts.foldl h modes).trans henters

theorem EntersOnce.single (h : EntersOnce m m') : Enters m [m'.state.mode] m' :=
  h.enters (SameCounts.refl m').enters

theorem refreshBuiltinTarget_sameCounts (m : AdcsManager) :
    SameCounts m (m.refreshBuiltinTarget p) := ⟨rfl,rfl⟩

theorem recordFaults_sameCounts (m : AdcsManager) (activeFaults : BitVec 32) :
    SameCounts m (m.recordFaults activeFaults) := by
  refine ⟨rfl,?_⟩
  funext k
  cases k <;> rfl

theorem updateAfterBoot_enters :
    Enters m (m.modesAfterBoot p nowUs) (m.updateAfterBoot p nowUs) := by
  rw [modesAfterBoot]
  have hspec : (m.switchAfterBoot p nowUs = none ∧ _) ∨ _ := switchAfterBoot_spec m
  obtain ⟨hnone,mode,-,heq⟩ | ⟨m',hswitch,heq⟩ := hspec
  · rw [hnone,heq]
    exact (entersOnce_enterMode mode m).single
  · have hrequest : EntersOnce m m' := by
      rw [switchAfterBoot] at hswitch
      split_ifs at hswitch
      obtain rfl := Option.some.inj hswitch
      exact applyRequest_entersOnce
    rw [hswitch,heq]
    have hadvance : EntersOnce m' (m'.advanceMode p nowUs) := advanceMode_entersOnce
    exact hrequest.enters (hadvance.single.same (refreshBuiltinTarget_sameCounts _))

/-- An update enters the modes that it is said to go through. -/
theorem update_enters :
    Enters m (m.modesPassed p activeFaults nowUs) (m.update p activeFaults nowUs) := by
  have hactive : (m.recordFaults activeFaults).state.health.activeFaults = activeFaults := rfl
  have hrecord := recordFaults_sameCounts m activeFaults
  rw [modesPassed,update,updateRecorded,hactive]
  dsimp only
  split_ifs with hinit hcritical hboot hsensors
  · exact (SameCounts.refl m).enters
  · refine Enters.same ?_ (refreshBuiltinTarget_sameCounts _)
    exact .of_same hrecord (SameCounts.refl _).enters
  · refine .of_same hrecord ?_
    exact updateAfterBoot_enters
  · exact hrecord.enters
  · exact .of_same hrecord updateAfterBoot_enters

theorem Enters.counter {modes : List AdcsMode} (h : Enters m modes m') (k : HealthEvent) :
    m'.state.health.counter k = m.state.health.counter k +
      added 32 ((modeChanges m.state.mode modes).map fun _ => .modeChange) k := by
  induction modes generalizing m with
  | nil =>
    rw [SameCounts.counter h]
    exact (BitVec.add_zero _).symm
  | cons mode modes ih =>
    have hchanges : modeChanges m.state.mode (mode :: modes) =
        modeChanges m.state.mode [mode] ++ modeChanges mode modes := by
      rw [modeChanges,modeChanges,modeChanges,List.append_nil]
    rw [ih (m := m.enterMode mode) h,enterMode_counter,enterMode_mode,hchanges,List.map_append,
      added_append,BitVec.add_assoc]

end AdcsManager

/-! ### Every call -/

/-- One counter goes up by one and the others stay. -/
theorem AdcsHealth.counter_counts {health health' : AdcsHealth} (e : HealthEvent)
    (h : ∀ k,health'.counter k = if k = e then health.counter k+1 else health.counter k)
    (k : HealthEvent) : health'.counter k = health.counter k + added 32 [e] k := by
  by_cases hk : k = e
  · rw [h k,if_pos hk,hk,added_self]
    rfl
  · rw [h k,if_neg hk,added_of_ne (Ne.symm hk),BitVec.add_zero]

namespace AdcsManager

variable {p : Platform}

theorem noteRejectedCommand_counter (m : AdcsManager) (k : HealthEvent) :
    m.noteRejectedCommand.state.health.counter k =
      m.state.health.counter k + added 32 [.rejectedCommand] k :=
  AdcsHealth.counter_counts .rejectedCommand (fun k => by cases k <;> rfl) k

theorem noteDroppedMessage_counter (m : AdcsManager) (k : HealthEvent) :
    m.noteDroppedMessage.state.health.counter k =
      m.state.health.counter k + added 32 [.droppedMessage] k :=
  AdcsHealth.counter_counts .droppedMessage (fun k => by cases k <;> rfl) k

theorem noteEstimatorReset_counter (m : AdcsManager) (k : HealthEvent) :
    m.noteEstimatorReset.state.health.counter k =
      m.state.health.counter k + added 32 [.estimatorReset] k :=
  AdcsHealth.counter_counts .estimatorReset (fun k => by cases k <;> rfl) k

theorem noteControllerError_counter (m : AdcsManager) (k : HealthEvent) :
    m.noteControllerError.state.health.counter k =
      m.state.health.counter k + added 32 [.controllerError] k :=
  AdcsHealth.counter_counts .controllerError (fun k => by cases k <;> rfl) k

theorem requestMode_counter (mode : BitVec 32) (m : AdcsManager) (k : HealthEvent) :
    (m.requestMode mode).state.health.counter k = m.state.health.counter k +
      added 32 (if requestable mode then [] else [.rejectedCommand]) k := by
  have hiff : requestable mode = true ↔ (AdcsMode.ofNat mode.toNat).isValid = true ∧
      AdcsMode.ofNat mode.toNat ≠ .boot := by
    rw [requestable,Bool.and_eq_true,decide_eq_true_iff]
  rw [requestMode]
  by_cases hmode : requestable mode = true
  · rw [if_pos (hiff.mp hmode),if_pos hmode]
    exact (BitVec.add_zero _).symm
  · rw [if_neg (fun h => hmode (hiff.mpr h)),if_neg hmode]
    exact noteRejectedCommand_counter m k

theorem setGuidanceTarget_counter (target : Option AdcsGuidanceTarget) (m : AdcsManager)
    (k : HealthEvent) :
    (m.setGuidanceTarget p target).state.health.counter k = m.state.health.counter k +
      added 32 (if (target.bind (acceptedTarget p)).isSome then [] else [.rejectedCommand]) k := by
  cases target with
  | none => exact noteRejectedCommand_counter m k
  | some target =>
    rw [setGuidanceTarget_eq,Option.bind_some]
    cases acceptedTarget p target with
    | none => exact noteRejectedCommand_counter m k
    | some accepted => exact (BitVec.add_zero _).symm

/-- Whatever record is stored, and however old it is, the counters are those of the manager. -/
theorem setHealth_counter (health : AdcsHealth) (m : AdcsManager) :
    (m.setHealth health).state.health.counter = m.state.health.counter := by
  funext k
  cases k <;> rfl

theorem setSensors_counter (sensors : AdcsSensorPacket) (m : AdcsManager) :
    (m.setSensors p sensors).state.health.counter = m.state.health.counter := by
  rw [setSensors]
  split
  · funext k
    cases k <;> rfl
  · rfl

theorem setAttitude_counter (attitude : AdcsAttitudeState) (m : AdcsManager) :
    (m.setAttitude p attitude).state.health.counter = m.state.health.counter := by
  simp only [setAttitude]
  split
  · funext k
    cases k <;> rfl
  · rfl

theorem configure_counter (config : AdcsManagerConfig) (m : AdcsManager) :
    (m.configure config).state.health.counter = m.state.health.counter := by
  rw [configure]
  split <;> rfl

theorem setControlOutput_counter (control : AdcsControlOutput) (m : AdcsManager) :
    (m.setControlOutput control).state.health.counter = m.state.health.counter := by
  rw [setControlOutput]
  split <;> rfl

end AdcsManager

namespace AdcsSystem

variable {p : Platform}

/-- A call adds the events that it is to count, and nothing else. -/
theorem call_counter (s : AdcsSystem) (c : AdcsCall) (k : HealthEvent) :
    (s.call p c).manager.state.health.counter k =
      s.manager.state.health.counter k + added 32 (s.healthEvents p c) k := by
  have hkept {health : AdcsHealth} (h : health.counter = s.manager.state.health.counter) :
      health.counter k = s.manager.state.health.counter k + added 32 [] k := by
    rw [h,added_nil,BitVec.add_zero]
  cases c with
  | update nowUs => exact AdcsManager.update_enters.counter k
  | requestMode mode => exact AdcsManager.requestMode_counter mode _ k
  | setGuidanceTarget target => exact AdcsManager.setGuidanceTarget_counter target _ k
  | noteRejectedCommand => exact AdcsManager.noteRejectedCommand_counter _ k
  | noteDroppedMessage => exact AdcsManager.noteDroppedMessage_counter _ k
  | noteEstimatorReset => exact AdcsManager.noteEstimatorReset_counter _ k
  | noteControllerError => exact AdcsManager.noteControllerError_counter _ k
  | setHealth health => exact hkept (AdcsManager.setHealth_counter health _)
  | setSensors sensors => exact hkept (AdcsManager.setSensors_counter sensors _)
  | setAttitude attitude => exact hkept (AdcsManager.setAttitude_counter attitude _)
  | configure config => exact hkept (AdcsManager.configure_counter config _)
  | setControlOutput control => exact hkept (AdcsManager.setControlOutput_counter control _)
  | _ => exact hkept rfl

end AdcsSystem

/-! ### Every run -/

/-- A step of the control or the housekeeping task, or a call of any task, at any time. -/
inductive HealthStep where
  | task (a : TaskStep)
  | call (c : AdcsCall)

namespace AdcsTasks

def stepOrCall (p : Platform) (s : AdcsTasks) : HealthStep → Option AdcsTasks
  | .task a => s.step p a
  | .call c => some { s with system := s.system.call p c }

/-- The events that happen in a step. -/
def healthEvents (p : Platform) (s : AdcsTasks) : HealthStep → List HealthEvent
  | .task a =>
    match s.calling a with
    | none => []
    | some c => s.system.healthEvents p c
  | .call c => s.system.healthEvents p c

/-- The events of a run since `adcs_manager_init`. -/
def healthEventsOf (p : Platform) (actions : List HealthStep) : List HealthEvent :=
  eventsOf (stepOrCall p) (healthEvents p) init actions

def health (s : AdcsTasks) : AdcsHealth := s.system.manager.state.health

variable {p : Platform}

theorem stepOrCall_countsEvents :
    CountsEvents (stepOrCall p) (healthEvents p) fun s => s.health.counter := by
  intro s a s' hstep k
  cases a with
  | call c =>
    obtain rfl := Option.some.inj hstep
    exact s.system.call_counter c k
  | task a =>
    have hsystem := step_calling (show s.step p a = some s' from hstep)
    change s'.system.manager.state.health.counter k =
      s.system.manager.state.health.counter k + added 32 (s.healthEvents p (.task a)) k
    rw [hsystem,healthEvents]
    cases s.calling a with
    | none => exact (BitVec.add_zero _).symm
    | some c => exact s.system.call_counter c k

/-- At any time after `adcs_manager_init`, each counter is the number of its events modulo 2^32,
wherever other tasks' calls come between the steps of housekeeping. -/
theorem health_counts_all_events {actions : List HealthStep} {s : AdcsTasks}
    (hrun : run (stepOrCall p) init actions = some s) :
    s.health.modeTransitions =
      BitVec.ofNat 32 ((healthEventsOf p actions).count .modeChange) ∧
    s.health.rejectedCommands =
      BitVec.ofNat 32 ((healthEventsOf p actions).count .rejectedCommand) ∧
    s.health.droppedMessages =
      BitVec.ofNat 32 ((healthEventsOf p actions).count .droppedMessage) ∧
    s.health.estimatorResets =
      BitVec.ofNat 32 ((healthEventsOf p actions).count .estimatorReset) ∧
    s.health.controllerErrors =
      BitVec.ofNat 32 ((healthEventsOf p actions).count .controllerError) := by
  have hcount {k : HealthEvent} (hzero : init.health.counter k = 0) :
      s.health.counter k = BitVec.ofNat 32 ((healthEventsOf p actions).count k) :=
    stepOrCall_countsEvents.count hzero hrun
  exact ⟨hcount (k := .modeChange) rfl,hcount (k := .rejectedCommand) rfl,
    hcount (k := .droppedMessage) rfl,hcount (k := .estimatorReset) rfl,
    hcount (k := .controllerError) rfl⟩

/-- Events of other tasks while housekeeping holds its snapshot, and a change of its own. -/
def eventsDuringHousekeeping : List HealthStep :=
  [.task (.housekeeping .getState),.call .noteDroppedMessage,
    .task (.housekeeping (.evaluate 5)),.task (.housekeeping .getActive),
    .task (.housekeeping .clear),.task (.housekeeping .report),.call (.requestMode 99),
    .task (.housekeeping (.getHealth 0)),.call .noteEstimatorReset,
    .task (.housekeeping .setHealth),.task (.housekeeping .update)]

theorem events_during_housekeeping_counted :
    ∃ s,run (stepOrCall simPlatform) init eventsDuringHousekeeping = some s ∧
      s.health.modeTransitions = 1 ∧ s.health.rejectedCommands = 1 ∧
      s.health.droppedMessages = 1 ∧ s.health.estimatorResets = 1 ∧
      s.health.controllerErrors = 0 := by
  have hsome : (run (stepOrCall simPlatform) init eventsDuringHousekeeping).isSome = true := by
    decide +kernel
  have hevents : healthEventsOf simPlatform eventsDuringHousekeeping =
      [.droppedMessage,.rejectedCommand,.estimatorReset,.modeChange] := by
    decide +kernel
  obtain ⟨s,hs⟩ := Option.isSome_iff_exists.mp hsome
  have h := health_counts_all_events hs
  rw [hevents] at h
  exact ⟨s,hs,h⟩

end AdcsTasks

end FlightSoftware.Adcs
