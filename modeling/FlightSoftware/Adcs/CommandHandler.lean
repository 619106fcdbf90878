import FlightSoftware.Adcs.ActuatorInhibit
import FlightSoftware.Adcs.Clock
import FlightSoftware.Adcs.HealthCounters
import FlightSoftware.Lib.BoundedQueue
import FlightSoftware.Lib.LittleEndian

/-!
# Commands to the attitude controller

`command_handler.c` and `command_task.c`: the receiver checks a packet, puts the command into a
queue and acknowledges it, and the command task takes the commands out and executes them, call
by call between those of the other tasks. What is acknowledged is executed once, in order, and
has passed the checks that the execution makes.
-/

namespace FlightSoftware.Adcs
open LittleEndian Run

/-! ### Decoding -/

/-- The commands on the wire: the shared ones and `adcs_wire_command_id_t`. -/
inductive WireCommand where
  | moveToPosition
  | reset
  | shutdown
  | timeSync
  | pointToSun
  | setMode
  | setAttitude
  | setPointingVector
  | resetEstimator
  | setActuatorInhibit
  | simulatorFault
  | setMagnetorquer
  deriving DecidableEq

def WireCommand.ofByte (b : Byte) : Option WireCommand :=
  match b.toNat with
  | 1 => some moveToPosition
  | 2 => some reset
  | 3 => some shutdown
  | 4 => some timeSync
  | 5 => some pointToSun
  | 64 => some setMode
  | 65 => some setAttitude
  | 66 => some setPointingVector
  | 67 => some resetEstimator
  | 68 => some setActuatorInhibit
  | 69 => some simulatorFault
  | 70 => some setMagnetorquer
  | _ => none

/-- `sizeof(command_envelope_t)`: the command, three bytes of padding and the sequence number. -/
def envelopeSize : ℕ := 8

/-- What `decode_command` does with a packet; a command is yet to be put into the queue. -/
inductive Decoded where
  | nack
  | reset
  | shutdown
  | enqueue (command : AdcsCommand)

/-- The status of a packet that is answered without the queue, or its command. -/
def Decoded.verdict : Decoded → Except Bool AdcsCommand
  | .nack => .error false
  | .reset | .shutdown => .error true
  | .enqueue command => .ok command

/-- A payload is read only if the packet has all of it. -/
def withPayload (packet : List Byte) (size : ℕ) (decoded : Decoded) : Decoded :=
  if size ≤ packet.length then decoded else .nack

def floatAt (packet : List Byte) (offset : ℕ) : CFloat := readFloatLe (packet.drop offset)

def decodeTimeSync (unixTimeSec : BitVec 64) : Decoded :=
  if unixTimeSec.toInt ≤ 0 ∨ (2^64-1)/1000000 < unixTimeSec.toNat then .nack
  else .enqueue (.setUnixTime unixTimeSec)

def decodeSetMode (mode : Byte) : Decoded :=
  if 9 ≤ mode.toNat ∨ mode.toNat = 0 then .nack else .enqueue (.setMode (mode.setWidth 32))

def decodeSetMagnetorquer (axis direction : Byte) : Decoded :=
  if 2 < axis.toNat ∨ direction.toInt < -1 ∨ 1 < direction.toInt then .nack
  else .enqueue (.setMagnetorquer axis direction)

/-- `decode_command`. The sizes are those of the payload structures. -/
def decodeCommand (p : Platform) (packet : List Byte) : Decoded :=
  match WireCommand.ofByte (byteAt packet 0) with
  | some .moveToPosition =>
    withPayload packet 12 (.enqueue (.legacyPosition (readU32Le (packet.drop 8))))
  | some .reset => .reset
  | some .shutdown => .shutdown
  | some .timeSync => withPayload packet 16 (decodeTimeSync (readU64Le (packet.drop 8)))
  -- the number of SUN_ACQUISITION
  | some .pointToSun => .enqueue (.setMode 3)
  | some .setMode => withPayload packet 12 (decodeSetMode (byteAt packet 8))
  | some .setAttitude =>
    withPayload packet 24 (.enqueue (.setAttitude fun i => floatAt packet (8+4*i.val)))
  | some .setPointingVector =>
    withPayload packet 32 (.enqueue (.setPointingVector (fun i => floatAt packet (8+4*i.val))
      fun i => floatAt packet (20+4*i.val)))
  | some .resetEstimator => .enqueue .resetEstimator
  | some .setActuatorInhibit =>
    withPayload packet 12 (.enqueue (.disableActuators (flag (byteAt packet 8 != 0))))
  | some .setMagnetorquer =>
    withPayload packet 12 (decodeSetMagnetorquer (byteAt packet 8) (byteAt packet 9))
  | some .simulatorFault =>
    if p.stm32 then .nack
    else withPayload packet 12 (.enqueue (.simulatorFault (readU32Le (packet.drop 8))))
  | none => .nack

/-! ### Queue and execution -/

def commandQueueLength : ℕ := 8

def commandVerdict (p : Platform) (packet : List Byte) : Except Bool AdcsCommand :=
  (decodeCommand p packet).verdict

/-- The receiver, the queue and the command task beside the other tasks. `running` are the calls
that the command being executed has left; `calls` are all those made before. -/
structure CommandSystem where
  tasks : AdcsTasks
  inbox : Inbox (List Byte) AdcsCommand
  running : List TaskStep
  begun : List (AdcsCommand × CommandEnvironment)
  calls : List TaskStep
  rejections : ℕ
  stopping : Bool

/-- The calls that only the command task makes. -/
def TaskStep.ofCommands : TaskStep → Bool
  | .setManualMagnetorquer _ _ => true
  | .other (.setGuidanceTarget _) | .other (.requestMode _) | .other (.setLegacyPosition _)
  | .other (.setActuatorsInhibited _) | .other .noteRejectedCommand => true
  | _ => false

inductive CommandStep where
  | receive (packet : List Byte)
  | begin (env : CommandEnvironment)
  | next
  | task (t : TaskStep)

namespace CommandSystem

variable (p : Platform)

def init : CommandSystem := ⟨.init,.empty,[],[],[],0,false⟩

/-- `command_task_send` counts a command that finds no room. -/
def noteDropped (packet : List Byte) (s : CommandSystem) : AdcsTasks :=
  match commandVerdict p packet with
  | .error _ => s.tasks
  | .ok command =>
    match s.inbox.queue.offer commandQueueLength command with
    | some _ => s.tasks
    | none => { s.tasks with system := s.tasks.system.call p .noteDroppedMessage }

/-- One packet for `ADCS_CMD_PORT`. After a reset or a shutdown the receiver does not come back. -/
def receive (packet : List Byte) (s : CommandSystem) : CommandSystem :=
  if packet.length < envelopeSize then s
  else
    { s with
      inbox := s.inbox.receive commandQueueLength (commandVerdict p) packet
      tasks := s.noteDropped p packet
      stopping :=
        match decodeCommand p packet with
        | .reset | .shutdown => true
        | _ => false }

/-- How many commands are counted as rejected in a step of the tasks. -/
def rejectionsIn (tasks : AdcsTasks) (t : TaskStep) : ℕ :=
  (tasks.healthEvents p (.task t)).count .rejectedCommand

def step (s : CommandSystem) : CommandStep → Option CommandSystem
  | .receive packet => if s.stopping then none else some (s.receive p packet)
  | .begin env =>
    if s.running = [] then
      s.inbox.queue.poll.map fun r =>
        { s with
          inbox := { s.inbox with queue := r.2 }
          running := executeCommand p env r.1
          begun := s.begun ++ [(r.1,env)] }
    else none
  | .next =>
    match s.running with
    | [] => none
    | t :: rest =>
      (s.tasks.step p t).map fun tasks =>
        { s with
          tasks := tasks
          running := rest
          calls := s.calls ++ [t]
          rejections := s.rejections + rejectionsIn p s.tasks t }
  | .task t =>
    if t.ofCommands then none else (s.tasks.step p t).map fun tasks => { s with tasks := tasks }

/-! ### Order -/

variable {p : Platform} {s s' : CommandSystem}

/-- The command task has begun the commands that were taken out of the queue. -/
structure Serving (p : Platform) (s : CommandSystem) : Prop where
  inbox : s.inbox.Sound commandQueueLength (commandVerdict p)
  taken : s.inbox.queue.taken = s.begun.map Prod.fst
  calls : s.calls ++ s.running = s.begun.flatMap fun b => executeCommand p b.2 b.1

theorem serving_init : Serving p init := ⟨Inbox.sound_empty,rfl,rfl⟩

theorem Serving.receive (hs : s.Serving p) (packet : List Byte) :
    (s.receive p packet).Serving p := by
  rw [CommandSystem.receive]
  by_cases hshort : packet.length < envelopeSize
  · rw [if_pos hshort]
    exact hs
  · rw [if_neg hshort]
    exact ⟨hs.inbox.receive packet,(Inbox.receive_taken packet s.inbox).trans hs.taken,hs.calls⟩

theorem Serving.step (hs : s.Serving p) {c : CommandStep} (h : s.step p c = some s') :
    s'.Serving p := by
  cases c with
  | receive packet =>
    rw [CommandSystem.step] at h
    split_ifs at h
    obtain rfl := Option.some.inj h
    exact hs.receive packet
  | begin env =>
    rw [CommandSystem.step] at h
    split_ifs at h with hidle
    obtain ⟨⟨command,queue⟩,hpoll,rfl⟩ := Option.map_eq_some_iff.mp h
    obtain ⟨-,-,htaken⟩ := BoundedQueue.poll_eq_some hpoll
    have hcalls := hs.calls
    rw [hidle,List.append_nil] at hcalls
    refine ⟨hs.inbox.poll hpoll,?_,?_⟩
    · rw [htaken,hs.taken,List.map_append,List.map_singleton]
    · rw [List.flatMap_append,List.flatMap_singleton,hcalls]
  | next =>
    rw [CommandSystem.step] at h
    cases hrunning : s.running with
    | nil =>
      rw [hrunning] at h
      cases h
    | cons t rest =>
      rw [hrunning] at h
      obtain ⟨tasks,-,rfl⟩ := Option.map_eq_some_iff.mp h
      refine ⟨hs.inbox,hs.taken,?_⟩
      rw [List.append_assoc,List.singleton_append,← hrunning]
      exact hs.calls
  | task t =>
    rw [CommandSystem.step] at h
    split_ifs at h
    obtain ⟨tasks,-,rfl⟩ := Option.map_eq_some_iff.mp h
    exact ⟨hs.inbox,hs.taken,hs.calls⟩

theorem run_serving {steps : List CommandStep} (hrun : run (step p) init steps = some s) :
    s.Serving p :=
  run_invariant (fun _ _ _ hs h => hs.step h) serving_init hrun

/-- At any time the commands that the command task has begun, and then those that wait, are those of
the acknowledged packets in the order of their arrival; the calls made so far and those that are
left are what the begun commands call for, one command after another. No more than eight wait, and a
valid command is refused only when there are as many. -/
theorem acknowledged_commands_executed_in_order {steps : List CommandStep}
    (hrun : run (step p) init steps = some s) :
    s.begun.map Prod.fst ++ s.inbox.queue.waiting =
        s.inbox.answers.filterMap (Answer.accepted (commandVerdict p)) ∧
      s.calls ++ s.running = (s.begun.flatMap fun b => executeCommand p b.2 b.1) ∧
      s.inbox.queue.waiting.length ≤ commandQueueLength ∧
      ∀ a ∈ s.inbox.answers,∀ command,decodeCommand p a.packet = .enqueue command →
        (a.ack = false ↔ a.waiting = commandQueueLength) := by
  have hs := run_serving hrun
  refine ⟨?_,hs.calls,hs.inbox.fifo.bounded,fun a ha command hdecode => ?_⟩
  · rw [← hs.taken,← hs.inbox.put]
    exact hs.inbox.fifo.order
  · exact hs.inbox.full a ha command (congrArg Decoded.verdict hdecode)

/-- A command for a mode, one for a coil and one for no mode; the first one is executed while the
second arrives. -/
def modeThenCoil : List CommandStep :=
  [.receive [64,0,0,0,1,0,0,0,4,0,0,0],.begin ⟨fun _ => .ok,fun _ => .ok,fun _ => 0⟩,
    .receive [70,0,0,0,2,0,0,0,1,255,0,0],.next,.receive [64,0,0,0,3,0,0,0,9,0,0,0],
    .task (.control (.update 5))]

theorem mode_then_coil_in_order :
    ∃ s,run (step AdcsTasks.simPlatform) init modeThenCoil = some s ∧
      s.inbox.answers.map Answer.ack = [true,true,false] ∧ s.inbox.queue.waiting.length = 1 ∧
      s.begun.map Prod.fst ++ s.inbox.queue.waiting =
        s.inbox.answers.filterMap (Answer.accepted (commandVerdict AdcsTasks.simPlatform)) := by
  obtain ⟨s,hrun,hacks,hwaiting⟩ : ∃ s,run (step AdcsTasks.simPlatform) init modeThenCoil = some s ∧
      s.inbox.answers.map Answer.ack = [true,true,false] ∧
      s.inbox.queue.waiting.length = 1 :=
    ⟨_,rfl,rfl,rfl⟩
  exact ⟨s,hrun,hacks,hwaiting,(acknowledged_commands_executed_in_order hrun).1⟩

end CommandSystem

/-! ### Checks before and after the acknowledgement -/

/-- What the receiver has checked before it acknowledges the command. -/
def AdcsCommand.Checked : AdcsCommand → Prop
  | .setMode mode => requestable mode = true
  | .setUnixTime unixTimeSec => 0 < unixTimeSec.toInt ∧ unixTimeSec.toNat ≤ (2^64-1)/1000000
  | .setMagnetorquer axis direction =>
    axis.toNat < 3 ∧ -1 ≤ direction.toInt ∧ direction.toInt ≤ 1
  | .none => False
  | _ => True

/-- The execution may still refuse the command: its target cannot be used, or the clock or the
simulator refuses. -/
def AdcsCommand.refusable : AdcsCommand → Bool
  | .setAttitude _ | .setPointingVector _ _ | .legacyPosition _ | .setUnixTime _
  | .simulatorFault _ => true
  | _ => false

section

variable {p : Platform}

theorem requestable_setWidth {mode : Byte} (hlt : mode.toNat < 9) (hpos : mode.toNat ≠ 0) :
    requestable (mode.setWidth 32) = true := by
  have hnat : (mode.setWidth 32).toNat = mode.toNat := by
    rw [BitVec.toNat_setWidth]
    omega
  rw [requestable,hnat]
  interval_cases mode.toNat
  · exact absurd rfl hpos
  all_goals rfl

theorem withPayload_eq_enqueue {packet : List Byte} {size : ℕ} {decoded : Decoded}
    {command : AdcsCommand} (h : withPayload packet size decoded = .enqueue command) :
    decoded = .enqueue command := by
  rw [withPayload] at h
  split_ifs at h
  exact h

theorem decodeCommand_checked {packet : List Byte} {command : AdcsCommand}
    (h : decodeCommand p packet = .enqueue command) : command.Checked := by
  rw [decodeCommand] at h
  cases hwire : WireCommand.ofByte (byteAt packet 0) with
  | none =>
    rw [hwire] at h
    cases h
  | some wire =>
    rw [hwire] at h
    cases wire with
    | reset | shutdown => cases h
    | timeSync =>
      have h := withPayload_eq_enqueue h
      rw [decodeTimeSync] at h
      split_ifs at h with hrange
      cases h
      rw [not_or,not_le,not_lt] at hrange
      exact hrange
    | setMode =>
      have h := withPayload_eq_enqueue h
      rw [decodeSetMode] at h
      split_ifs at h with hrange
      cases h
      rw [not_or,not_le] at hrange
      exact requestable_setWidth hrange.1 hrange.2
    | setMagnetorquer =>
      have h := withPayload_eq_enqueue h
      rw [decodeSetMagnetorquer] at h
      split_ifs at h with hrange
      cases h
      rw [not_or,not_or,not_lt,not_lt,not_lt] at hrange
      exact ⟨Nat.lt_succ_of_le hrange.1,hrange.2⟩
    | pointToSun =>
      cases h
      rfl
    | resetEstimator =>
      cases h
      trivial
    | simulatorFault =>
      dsimp only at h
      split_ifs at h
      cases withPayload_eq_enqueue h
      trivial
    | moveToPosition | setAttitude | setPointingVector | setActuatorInhibit =>
      cases withPayload_eq_enqueue h
      trivial

/-! ### The manual command -/

/-- The direction that a call commands for the axis. -/
def TaskStep.direction? (i : Fin 3) : TaskStep → Option (BitVec 8)
  | .setManualMagnetorquer axis direction => if axis.toNat = i.val then some direction else none
  | _ => none

/-- The direction that was last commanded for the axis, zero before there is one. -/
def lastDirection (calls : List TaskStep) (i : Fin 3) : BitVec 8 :=
  (calls.reverse.findSome? (TaskStep.direction? i)).getD 0

theorem lastDirection_concat (calls : List TaskStep) (t : TaskStep) (i : Fin 3) :
    lastDirection (calls ++ [t]) i = (t.direction? i).getD (lastDirection calls i) := by
  rw [lastDirection,List.reverse_append,List.reverse_singleton,List.singleton_append,
    List.findSome?_cons]
  cases t.direction? i with
  | none => rfl
  | some direction => rfl

/-- The manual command has a dipole for each direction, and overrides unless all are zero. -/
structure ManualMagnetorquer.Follows (manual : ManualMagnetorquer) (directions : Fin 3 → BitVec 8) :
    Prop where
  dipole : ∀ i,manual.command.dipoleAM2 i = manualDipole (directions i)
  enabled : manual.command.enabled = flag ((List.finRange 3).any fun i => directions i != 0)
  override : manual.override = manual.command.enabled

theorem manualDipole_ne_zero (direction : BitVec 8) :
    (manualDipole direction).ne 0 = (direction != 0) := by
  revert direction
  decide +kernel

theorem ManualMagnetorquer.follows_init :
    ({} : ManualMagnetorquer).Follows (lastDirection []) := ⟨fun _ => rfl,rfl,rfl⟩

theorem ManualMagnetorquer.Follows.set {manual : ManualMagnetorquer} {directions : Fin 3 → BitVec 8}
    (h : manual.Follows directions) (axis direction : BitVec 8) :
    (manual.set axis direction).Follows
      fun i => if axis.toNat = i.val then direction else directions i := by
  rw [ManualMagnetorquer.set]
  split_ifs with haxis
  · have hdipole : ∀ i : Fin 3,
        Function.update manual.command.dipoleAM2 ⟨axis.toNat,haxis⟩ (manualDipole direction) i =
          manualDipole (if axis.toNat = i.val then direction else directions i) := by
      intro i
      by_cases hi : axis.toNat = i.val
      · obtain rfl : ⟨axis.toNat,haxis⟩ = i := Fin.ext hi
        rw [Function.update_self,if_pos rfl]
      · rw [Function.update_of_ne fun h => hi (congrArg Fin.val h).symm,if_neg hi,h.dipole]
    refine ⟨hdipole,?_,rfl⟩
    simp only [hdipole,manualDipole_ne_zero]
  · -- No axis has such a number.
    have hsame : (fun i : Fin 3 => if axis.toNat = i.val then direction else directions i) =
        directions := by
      funext i
      rw [if_neg (by omega)]
    rw [hsame]
    exact h

theorem ManualMagnetorquer.Follows.onManual {manual : ManualMagnetorquer} {calls : List TaskStep}
    (h : manual.Follows (lastDirection calls)) (t : TaskStep) :
    (t.onManual manual).Follows (lastDirection (calls ++ [t])) := by
  have hconcat : lastDirection (calls ++ [t]) =
      fun i => (t.direction? i).getD (lastDirection calls i) :=
    funext fun i => lastDirection_concat calls t i
  rw [hconcat]
  cases t with
  | setManualMagnetorquer axis direction =>
    have hcases : (fun i => ((TaskStep.setManualMagnetorquer axis direction).direction? i).getD
        (lastDirection calls i)) =
        fun i => if axis.toNat = i.val then direction else lastDirection calls i := by
      funext i
      rw [TaskStep.direction?]
      split_ifs
      · rfl
      · rfl
    rw [hcases]
    exact h.set axis direction
  | _ => exact h

/-- What is about to go to the coils is the manual command, when one of its directions is on. -/
theorem ManualMagnetorquer.Follows.pending {tasks : AdcsTasks} {directions : Fin 3 → BitVec 8}
    (h : tasks.manual.Follows directions) {snapshot : AdcsManagerState}
    {command : MagnetorquerCommand} (hpending : tasks.pending = some (snapshot,command))
    (hon : ∃ i,directions i ≠ 0) :
    command.enabled = 1 ∧ ∀ i,command.dipoleAM2 i = manualDipole (directions i) := by
  have henabled : tasks.manual.command.enabled = 1 := by
    have hany : ((List.finRange 3).any fun i => directions i != 0) = true := by
      obtain ⟨i,hi⟩ := hon
      exact List.any_eq_true.mpr ⟨i,List.mem_finRange i,bne_iff_ne.mpr hi⟩
    rw [h.enabled,hany]
    rfl
  have hoverride : tasks.manual.override ≠ 0 := by
    rw [h.override,henabled]
    decide
  rw [AdcsTasks.pending] at hpending
  split at hpending
  · obtain ⟨-,rfl⟩ := Prod.mk.inj (Option.some.inj hpending)
    rw [commandPassed,if_pos hoverride]
    exact ⟨henabled,h.dipole⟩
  · cases hpending

/-! ### Rejections -/

/-- The calls that may count a rejected command. -/
def TaskStep.mayReject : TaskStep → Bool
  | .other (.setGuidanceTarget _) | .other .noteRejectedCommand => true
  | .other (.requestMode mode) => !requestable mode
  | _ => false

theorem count_map_modeChange {β : Type*} (l : List β) :
    (l.map fun _ => HealthEvent.modeChange).count .rejectedCommand = 0 := by
  rw [List.count_eq_zero]
  intro h
  obtain ⟨_,_,h⟩ := List.mem_map.mp h
  cases h

theorem calling_eq_other {tasks : AdcsTasks} {t : TaskStep} {c : AdcsCall}
    (hcall : tasks.calling t = some c)
    (hc : (∃ mode,c = .requestMode mode) ∨ c = .noteRejectedCommand) : t = .other c := by
  rw [AdcsTasks.calling.eq_def] at hcall
  split at hcall
  case h_9 => rw [Option.some.inj hcall]
  case h_10 => cases hcall
  case h_1 | h_2 | h_3 =>
    obtain rfl := Option.some.inj hcall
    obtain ⟨_,hc⟩ | hc := hc <;> cases hc
  all_goals
    split at hcall
    · obtain rfl := Option.some.inj hcall
      obtain ⟨_,hc⟩ | hc := hc <;> cases hc
    · cases hcall

theorem rejectionsIn_le (tasks : AdcsTasks) (t : TaskStep) :
    CommandSystem.rejectionsIn p tasks t ≤ if t.mayReject then 1 else 0 := by
  rw [CommandSystem.rejectionsIn,AdcsTasks.healthEvents.eq_def]
  dsimp only
  cases hcall : tasks.calling t with
  | none => exact Nat.zero_le _
  | some c =>
    dsimp only
    cases c with
    | update nowUs =>
      rw [AdcsSystem.healthEvents,count_map_modeChange]
      exact Nat.zero_le _
    | setGuidanceTarget target =>
      rw [AdcsTasks.calling_setGuidanceTarget hcall,TaskStep.mayReject,if_pos rfl]
      rw [AdcsSystem.healthEvents]
      split
      · exact Nat.zero_le _
      · exact le_rfl
    | requestMode mode =>
      obtain rfl := calling_eq_other hcall (.inl ⟨mode,rfl⟩)
      rw [AdcsSystem.healthEvents,TaskStep.mayReject]
      cases requestable mode
      · exact le_rfl
      · exact le_rfl
    | noteRejectedCommand =>
      obtain rfl := calling_eq_other hcall (.inr rfl)
      exact le_rfl
    | _ => exact Nat.zero_le _

/-- Steps of the other tasks reject nothing. -/
theorem rejectionsIn_of_other {tasks : AdcsTasks} {t : TaskStep} (h : t.ofCommands = false) :
    CommandSystem.rejectionsIn p tasks t = 0 := by
  have hreject : t.mayReject = false := by
    cases t with
    | other c =>
      cases c with
      | setGuidanceTarget _ | requestMode _ | noteRejectedCommand => cases h
      | _ => rfl
    | _ => rfl
  have hle := rejectionsIn_le (p := p) tasks t
  rw [hreject,if_neg Bool.false_ne_true] at hle
  exact Nat.le_zero.mp hle

theorem slewTo_mayReject (target : Option AdcsGuidanceTarget) {extra : List TaskStep}
    (hextra : extra.countP TaskStep.mayReject = 0) :
    (slewTo target extra).countP TaskStep.mayReject = 1 := by
  cases target with
  | none => rfl
  | some target =>
    show (TaskStep.other (.setGuidanceTarget (some target)) :: extra ++
      [TaskStep.other (.requestMode slewingValue)]).countP TaskStep.mayReject = 1
    rw [List.cons_append,List.countP_cons_of_pos rfl,List.countP_append,hextra]
    rfl

/-- A checked command is rejected at most once, and only if it may be refused at all. -/
theorem executeCommand_mayReject (env : CommandEnvironment) {command : AdcsCommand}
    (hchecked : command.Checked) : (executeCommand p env command).countP TaskStep.mayReject ≤
      if command.refusable then 1 else 0 := by
  cases command with
  | none => exact hchecked.elim
  | setMode mode =>
    have haccepted : (TaskStep.other (.requestMode mode)).mayReject = false :=
      congrArg not (show requestable mode = true from hchecked)
    show [TaskStep.other (.requestMode mode)].countP TaskStep.mayReject ≤ 0
    rw [List.countP_singleton,haccepted]
    exact le_rfl
  | setAttitude attitude => exact (slewTo_mayReject _ rfl).le
  | setPointingVector bodyAxis inertialDirection => exact (slewTo_mayReject _ rfl).le
  | legacyPosition position => exact (slewTo_mayReject _ rfl).le
  | resetEstimator | disableActuators _ | setMagnetorquer _ _ => exact le_rfl
  | setUnixTime unixTimeSec | simulatorFault mask =>
    rw [executeCommand]
    split
    · exact Nat.zero_le _
    · exact le_rfl

end

namespace CommandSystem

variable {p : Platform} {s s' : CommandSystem}

/-- Every command in the system has been checked, the manual command is what the calls made it,
and the counter of the health record counts the rejections, of which there are no more than
commands that may be refused. -/
structure Checking (p : Platform) (s : CommandSystem) : Prop where
  serving : s.Serving p
  checked : ∀ command ∈ s.inbox.queue.put,command.Checked
  manual : s.tasks.manual.Follows (lastDirection s.calls)
  counted : s.tasks.health.rejectedCommands = BitVec.ofNat 32 s.rejections
  bounded : s.rejections + s.running.countP TaskStep.mayReject ≤
    (s.begun.map Prod.fst).countP AdcsCommand.refusable

theorem checking_init : Checking p init where
  serving := serving_init
  checked command h := by cases h
  manual := ManualMagnetorquer.follows_init
  counted := rfl
  bounded := le_rfl

/-- A step of the tasks adds its rejections to the counter. -/
theorem rejections_counted {tasks tasks' : AdcsTasks} {t : TaskStep} {n : ℕ}
    (hcounted : tasks.health.rejectedCommands = BitVec.ofNat 32 n)
    (hstep : tasks.step p t = some tasks') :
    tasks'.health.rejectedCommands = BitVec.ofNat 32 (n + rejectionsIn p tasks t) := by
  have h := AdcsTasks.stepOrCall_countsEvents (p := p) tasks (.task t) tasks' hstep .rejectedCommand
  rw [BitVec.ofNat_add,← hcounted]
  exact h

theorem answers_checked (hs : s.Serving p) : ∀ command ∈ s.inbox.queue.put,command.Checked := by
  refine hs.inbox.put_of_decode fun packet command h => ?_
  rw [commandVerdict] at h
  cases hdecode : decodeCommand p packet with
  | enqueue c =>
    rw [hdecode] at h
    obtain rfl := Except.ok.inj h
    exact decodeCommand_checked hdecode
  | nack | reset | shutdown =>
    rw [hdecode] at h
    cases h

/-- Receiving a packet counts dropped commands, and rejects none. -/
theorem noteDropped_rejected (packet : List Byte) :
    (s.noteDropped p packet).health.rejectedCommands = s.tasks.health.rejectedCommands := by
  rw [noteDropped]
  cases commandVerdict p packet with
  | error ack => rfl
  | ok command =>
    dsimp only
    cases s.inbox.queue.offer commandQueueLength command <;> rfl

theorem noteDropped_manual (packet : List Byte) :
    (s.noteDropped p packet).manual = s.tasks.manual := by
  rw [noteDropped]
  cases commandVerdict p packet with
  | error ack => rfl
  | ok command =>
    dsimp only
    cases s.inbox.queue.offer commandQueueLength command <;> rfl

theorem Checking.step (hs : s.Checking p) {c : CommandStep} (h : s.step p c = some s') :
    s'.Checking p := by
  have hserving := hs.serving.step h
  have hchecked := answers_checked hserving
  have hbounded := hs.bounded
  rw [CommandSystem.step.eq_def] at h
  cases c with
  | receive packet =>
    dsimp only at h
    split_ifs at h
    obtain rfl := Option.some.inj h
    rw [receive] at hserving hchecked ⊢
    split_ifs at hserving hchecked ⊢
    · exact hs
    · refine ⟨hserving,hchecked,?_,(noteDropped_rejected packet).trans hs.counted,hbounded⟩
      show (s.noteDropped p packet).manual.Follows (lastDirection s.calls)
      rw [noteDropped_manual]
      exact hs.manual
  | begin env =>
    dsimp only at h
    split_ifs at h with hidle
    obtain ⟨⟨command,queue⟩,hpoll,rfl⟩ := Option.map_eq_some_iff.mp h
    obtain ⟨hwaiting,-,-⟩ := BoundedQueue.poll_eq_some hpoll
    have hcommand : command.Checked := hs.serving.inbox.fifo.waiting_of_put hs.checked command
      (hwaiting ▸ List.mem_cons_self)
    have hreject := executeCommand_mayReject (p := p) env hcommand
    refine ⟨hserving,hchecked,hs.manual,hs.counted,?_⟩
    rw [hidle,List.countP_nil,Nat.add_zero] at hbounded
    show s.rejections + (executeCommand p env command).countP TaskStep.mayReject ≤
      ((s.begun ++ [(command,env)]).map Prod.fst).countP AdcsCommand.refusable
    rw [List.map_append,List.countP_append,List.map_singleton,List.countP_singleton]
    dsimp only
    omega
  | next =>
    cases hrunning : s.running with
    | nil =>
      rw [hrunning] at h
      cases h
    | cons t rest =>
      rw [hrunning] at h
      obtain ⟨tasks,htasks,rfl⟩ := Option.map_eq_some_iff.mp h
      have hmanual : tasks.manual.Follows (lastDirection (s.calls ++ [t])) := by
        rw [AdcsTasks.step_manual htasks]
        exact hs.manual.onManual t
      refine ⟨hserving,hchecked,hmanual,rejections_counted hs.counted htasks,?_⟩
      have hreject := rejectionsIn_le (p := p) s.tasks t
      rw [hrunning,List.countP_cons] at hbounded
      show s.rejections + rejectionsIn p s.tasks t + rest.countP TaskStep.mayReject ≤
        (s.begun.map Prod.fst).countP AdcsCommand.refusable
      omega
  | task t =>
    dsimp only at h
    split_ifs at h with hother
    obtain ⟨tasks,htasks,rfl⟩ := Option.map_eq_some_iff.mp h
    have hcounted := rejections_counted hs.counted htasks
    rw [rejectionsIn_of_other (Bool.eq_false_of_not_eq_true hother),Nat.add_zero] at hcounted
    have hmanual : tasks.manual = s.tasks.manual := by
      rw [AdcsTasks.step_manual htasks]
      cases t with
      | setManualMagnetorquer axis direction => exact absurd rfl hother
      | _ => rfl
    refine ⟨hserving,hchecked,?_,hcounted,hbounded⟩
    show tasks.manual.Follows (lastDirection s.calls)
    rw [hmanual]
    exact hs.manual

theorem run_checking {steps : List CommandStep}
    (hrun : run (CommandSystem.step p) init steps = some s) : s.Checking p :=
  run_invariant (fun _ _ _ hs h => hs.step h) checking_init hrun

theorem Checking.begun_checked (hs : s.Checking p) {command : AdcsCommand}
    (h : command ∈ s.begun.map Prod.fst) : command.Checked :=
  hs.serving.inbox.fifo.taken_of_put hs.checked command (hs.serving.taken ▸ h)

/-- The board's clock takes a checked time as it was sent, unless ten more years do not fit. -/
theorem clock_accepts_iff {seconds : BitVec 64} (hpos : 0 < seconds.toInt)
    (hle : seconds.toNat ≤ (2^64-1)/1000000) (now : BitVec 32) (clock : AdcsClock) :
    (clock.setUnixTimeUs now (seconds*1000000)).1 = .ok ↔
      seconds.toNat*1000000 + unixSyncRoomUs.toNat < 2^64 := by
  have hseconds : seconds.toNat ≠ 0 := by
    intro hzero
    rw [BitVec.toInt_eq_toNat_cond,hzero] at hpos
    exact absurd hpos (by decide)
  have hnat : (seconds*1000000).toNat = seconds.toNat*1000000 := by
    rw [BitVec.toNat_mul]
    exact Nat.mod_eq_of_lt (by show seconds.toNat*1000000 < 2^64; omega)
  have hzero : seconds*1000000 ≠ 0 := by
    intro hzero
    have := congrArg BitVec.toNat hzero
    rw [hnat] at this
    exact hseconds (by simpa using this)
  have hroom : (BitVec.allOnes 64-unixSyncRoomUs).toNat+unixSyncRoomUs.toNat = 2^64-1 := by decide
  have hlate : seconds*1000000 = 0 ∨ BitVec.allOnes 64-unixSyncRoomUs < seconds*1000000 ↔
      (BitVec.allOnes 64-unixSyncRoomUs).toNat < seconds.toNat*1000000 := by
    rw [or_iff_right hzero,BitVec.lt_def,hnat]
  rw [AdcsClock.setUnixTimeUs]
  by_cases hrefused : seconds*1000000 = 0 ∨ BitVec.allOnes 64-unixSyncRoomUs < seconds*1000000
  · have := hlate.mp hrefused
    rw [if_pos hrefused]
    exact iff_of_false (fun h => AdcsResult.noConfusion h) (by omega)
  · have := mt hlate.mpr hrefused
    rw [if_neg hrefused]
    exact iff_of_true rfl (by omega)

/-- The calls of a begun command are made, or are left to be made. -/
theorem Checking.call_of_begun (hs : s.Checking p) {command : AdcsCommand}
    (h : command ∈ s.begun.map Prod.fst) :
    ∃ env,∀ t ∈ executeCommand p env command,t ∈ s.calls ++ s.running := by
  obtain ⟨⟨command',env⟩,hmem,rfl⟩ := List.mem_map.mp h
  refine ⟨env,fun t ht => ?_⟩
  rw [hs.serving.calls]
  exact List.mem_flatMap.mpr ⟨(command',env),hmem,ht⟩

/-- A command is acknowledged after the checks that its execution makes: a mode is always requested,
an axis always set in the manual command, and the board's clock set unless it is within ten years
of its end. The manual command always has the dipoles for the directions that the calls so far
commanded last, and is given to the driver in place of the controller's in every cycle while one of
them is not zero. No more commands are counted as rejected than have been begun that name a target,
a time or a simulated fault. -/
theorem acknowledged_commands_carried_out {steps : List CommandStep}
    (hrun : run (CommandSystem.step p) init steps = some s) :
    (∀ mode,.setMode mode ∈ s.begun.map Prod.fst → ∀ m : AdcsManager,
      m.requestMode mode = { m with state.requestedMode := AdcsMode.ofNat mode.toNat }) ∧
    (∀ axis direction,.setMagnetorquer axis direction ∈ s.begun.map Prod.fst →
      axis.toNat < 3 ∧ -1 ≤ direction.toInt ∧ direction.toInt ≤ 1 ∧
        .setManualMagnetorquer axis direction ∈ s.calls ++ s.running) ∧
    s.tasks.manual.Follows (lastDirection s.calls) ∧
    (∀ snapshot command,s.tasks.pending = some (snapshot,command) →
      (∃ i,lastDirection s.calls i ≠ 0) → command.enabled = 1 ∧
        ∀ i,command.dipoleAM2 i = manualDipole (lastDirection s.calls i)) ∧
    (∀ seconds,.setUnixTime seconds ∈ s.begun.map Prod.fst → ∀ (now : BitVec 32)
      (clock : AdcsClock),(clock.setUnixTimeUs now (seconds*1000000)).1 = .ok ↔
        seconds.toNat*1000000 + 315576000000000 < 2^64) ∧
    ∃ n ≤ (s.begun.map Prod.fst).countP AdcsCommand.refusable,
      s.tasks.health.rejectedCommands = BitVec.ofNat 32 n := by
  have hs := run_checking hrun
  refine ⟨?_,?_,hs.manual,fun _ _ => hs.manual.pending,?_,s.rejections,
    (Nat.le_add_right ..).trans hs.bounded,hs.counted⟩
  · intro mode hmode m
    have hrequestable : requestable mode = true := hs.begun_checked hmode
    rw [requestable,Bool.and_eq_true,decide_eq_true_eq] at hrequestable
    exact if_pos hrequestable
  · intro axis direction hmem
    obtain ⟨haxis,hlow,hhigh⟩ : (AdcsCommand.setMagnetorquer axis direction).Checked :=
      hs.begun_checked hmem
    obtain ⟨env,hcalls⟩ := hs.call_of_begun hmem
    exact ⟨haxis,hlow,hhigh,hcalls _ List.mem_cons_self⟩
  · intro seconds hmem now clock
    obtain ⟨hpos,hle⟩ : (AdcsCommand.setUnixTime seconds).Checked := hs.begun_checked hmem
    exact clock_accepts_iff hpos hle now clock

/-- The command for the coil is executed in the middle of a control cycle, which then comes to
actuate. -/
def coilInCycle : List CommandStep :=
  [.begin ⟨fun _ => .ok,fun _ => .ok,fun _ => 0⟩,.next,.task (.control .getState),
    .task (.control (.compute .ok {}))]

/-- The mode of `modeThenCoil` is requested and nothing rejected, and the cycle passes on the
manual dipole of the second axis. -/
theorem mode_then_coil_carried_out :
    ∃ s,run (CommandSystem.step AdcsTasks.simPlatform) init (modeThenCoil ++ coilInCycle) = some s ∧
      (∀ m : AdcsManager,m.requestMode 4 = { m with state.requestedMode := .sunPointing }) ∧
      (∃ snapshot command,s.tasks.pending = some (snapshot,command) ∧ command.enabled = 1 ∧
        ∀ i,command.dipoleAM2 i = manualDipole (if i.val = 1 then 255 else 0)) ∧
      s.tasks.health.rejectedCommands = 0 := by
  obtain ⟨s,hrun,hbegun,hpending,hlast⟩ : ∃ s,run (CommandSystem.step AdcsTasks.simPlatform) init
      (modeThenCoil ++ coilInCycle) = some s ∧
      s.begun.map Prod.fst = [.setMode 4,.setMagnetorquer 1 255] ∧
      s.tasks.pending.isSome = true ∧
      ∀ i,lastDirection s.calls i = if i.val = 1 then 255 else 0 :=
    ⟨_,rfl,rfl,rfl,by decide⟩
  obtain ⟨⟨snapshot,command⟩,hpending⟩ := Option.isSome_iff_exists.mp hpending
  obtain ⟨hmode,-,-,hcoils,-,n,hn,hcounter⟩ := acknowledged_commands_carried_out hrun
  rw [hbegun] at hmode hn
  have hon : ∃ i,lastDirection s.calls i ≠ 0 := ⟨⟨1,by decide⟩,by rw [hlast]; decide⟩
  obtain ⟨henabled,hdipole⟩ := hcoils snapshot command hpending hon
  refine ⟨s,hrun,hmode 4 List.mem_cons_self,⟨snapshot,command,hpending,henabled,fun i => ?_⟩,?_⟩
  · rw [hdipole,hlast]
  · obtain rfl := Nat.le_zero.mp hn
    exact hcounter

end CommandSystem

end FlightSoftware.Adcs
