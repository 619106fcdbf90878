import FlightSoftware.Lib.BoundedQueue
import FlightSoftware.Lib.LittleEndian
import FlightSoftware.Lib.Run
import FlightSoftware.Thermals.HeaterTask

/-!
# The tasks of the thermal board

The command receiver and its queue, the command task, the sensor task, the heater task and the
telemetry task over the shared thermal data, one call at a time in any order. The data are at
any time those of the last readings and of the last executed target, and so are the telemetry
packets that were made from them.
-/

namespace FlightSoftware.Thermals
open LittleEndian Run

/-! ### Commands -/

/-- A `thermals_command_t`. -/
inductive ThermalsCommand where
  | setTargetTemp (target : CFloat)
  | requestTelemetry
  deriving DecidableEq

def ThermalsCommand.target : ThermalsCommand → Option CFloat
  | .setTargetTemp target => some target
  | .requestTelemetry => none

/-- `decode_command`: a packet is refused, or its command goes to the queue. -/
def decodeCommand (packet : List Byte) : Except Bool ThermalsCommand :=
  if (byteAt packet 0).toNat = 80 then
    if packet.length < 12 then .error false
    else
      let target := readFloatLe (packet.drop 8)
      if ThermalData.targetIsValid target then .ok (.setTargetTemp target) else .error false
  else if (byteAt packet 0).toNat = 81 then .ok .requestTelemetry
  else .error false

def commandQueueLength : ℕ := 8

/-- `sizeof(command_envelope_t)` -/
def envelopeSize : ℕ := 8

/-! ### Sensors -/

def minValidTemperatureC : CFloat := .finite (-40)
def maxValidTemperatureC : CFloat := .finite 125

/-- The reading, if the sensor task accepts it; `none` is a sensor that could not be read. -/
def acceptedReading : Option CFloat → Option CFloat
  | none => none
  | some temp =>
    if temp.lt minValidTemperatureC || maxValidTemperatureC.lt temp then none else some temp

/-- `sensor_read_task` for one sensor. -/
def sensorRead (arith : FloatArith) (sensor : Fin 2) (reading : Option CFloat)
    (d : ThermalData) : ThermalData :=
  match acceptedReading reading with
  | none => d.invalidateSensor arith (BitVec.ofNat 32 (sensor.val+1))
  | some temp => d.setCurrent arith temp (BitVec.ofNat 32 (sensor.val+1))

/-! ### Telemetry -/

/-- `thermals_telemetry_t` -/
structure ThermalsTelemetry where
  currentTemps : Fin 2 → CFloat
  validSensorMask : BitVec 32
  averageTemp : CFloat
  targetTemp : CFloat
  heaterPowerFraction : CFloat
  targetTempValid : BitVec 8

/-- The packet that `telemetry_send_thermal_values` sends. -/
def telemetryOf (d : ThermalData) (appliedPower : CFloat) : ThermalsTelemetry where
  currentTemps := d.temperatures
  validSensorMask := d.validSensorMask
  averageTemp := d.averageTemp
  targetTemp := d.targetTemp
  heaterPowerFraction := appliedPower
  targetTempValid := d.targetTempValid

/-! ### Steps -/

/-- `running` is a command that has been taken out of the queue; `notified` is the notification of
the telemetry task, and `snapshot` the data that it has read. The accepted readings are the last
ones. -/
structure ThermalSystem where
  board : ThermalBoard
  inbox : Inbox (List Byte) ThermalsCommand
  running : Option ThermalsCommand
  executed : List ThermalsCommand
  notified : Bool
  snapshot : Option ThermalData
  sent : List ThermalsTelemetry
  readings : Fin 2 → Option CFloat

inductive ThermalStep where
  | receive (packet : List Byte)
  | begin
  | execute
  | read (sensor : Fin 2) (reading : Option CFloat)
  | heaterSetTask
  | forceHeaterOff
  | notice
  | send (connected : Bool)

namespace ThermalSystem

variable (arith : FloatArith)

def boot : ThermalSystem := ⟨.boot,.empty,none,[],false,none,[],fun _ => none⟩

/-- `command_task` for one command. -/
def executeCommand (s : ThermalSystem) : ThermalsCommand → ThermalSystem
  | .setTargetTemp target => { s with board := s.board.act arith (.setTarget target) }
  | .requestTelemetry => { s with notified := true }

def step (s : ThermalSystem) : ThermalStep → Option ThermalSystem
  | .receive packet =>
    if packet.length < envelopeSize then some s
    else some { s with inbox := s.inbox.receive commandQueueLength decodeCommand packet }
  | .begin =>
    if s.running = none then
      s.inbox.queue.poll.map fun r =>
        { s with inbox := { s.inbox with queue := r.2 },running := some r.1 }
    else none
  | .execute =>
    s.running.map fun command =>
      { s.executeCommand arith command with running := none,executed := s.executed ++ [command] }
  | .read sensor reading =>
    some { s with
      board := { s.board with data := sensorRead arith sensor reading s.board.data }
      readings := Function.update s.readings sensor (acceptedReading reading) }
  | .heaterSetTask => some { s with board := s.board.act arith .heaterSetTask }
  | .forceHeaterOff => some { s with board := s.board.act arith .forceHeaterOff }
  | .notice =>
    if s.notified ∧ s.snapshot = none then
      some { s with notified := false,snapshot := some s.board.data }
    else none
  | .send connected =>
    s.snapshot.map fun data =>
      { s with
        snapshot := none
        sent := if connected then s.sent ++ [telemetryOf data s.board.heater.appliedPowerFraction]
          else s.sent }

end ThermalSystem

/-! ### What a step can do -/

/-- The steps of the system. -/
inductive ThermalMove (arith : FloatArith) (s : ThermalSystem) : ThermalStep → ThermalSystem → Prop
  | tooShort {packet : List Byte} (hshort : packet.length < envelopeSize) :
    ThermalMove arith s (.receive packet) s
  | receive {packet : List Byte} (hlong : ¬packet.length < envelopeSize) :
    ThermalMove arith s (.receive packet)
      { s with inbox := s.inbox.receive commandQueueLength decodeCommand packet }
  | begin {command : ThermalsCommand} {queue : BoundedQueue ThermalsCommand}
    (hidle : s.running = none) (hpoll : s.inbox.queue.poll = some (command,queue)) :
    ThermalMove arith s .begin
      { s with inbox := { s.inbox with queue := queue },running := some command }
  | execute {command : ThermalsCommand} (hrunning : s.running = some command) :
    ThermalMove arith s .execute
      { s.executeCommand arith command with running := none,executed := s.executed ++ [command] }
  | read (sensor : Fin 2) (reading : Option CFloat) : ThermalMove arith s (.read sensor reading)
      { s with
        board := { s.board with data := sensorRead arith sensor reading s.board.data }
        readings := Function.update s.readings sensor (acceptedReading reading) }
  | heaterSetTask : ThermalMove arith s .heaterSetTask
      { s with board := s.board.act arith .heaterSetTask }
  | forceHeaterOff : ThermalMove arith s .forceHeaterOff
      { s with board := s.board.act arith .forceHeaterOff }
  | notice (hnotified : s.notified = true) (hnone : s.snapshot = none) :
    ThermalMove arith s .notice { s with notified := false,snapshot := some s.board.data }
  | lost {data : ThermalData} (hdata : s.snapshot = some data) :
    ThermalMove arith s (.send false) { s with snapshot := none }
  | send {data : ThermalData} (hdata : s.snapshot = some data) :
    ThermalMove arith s (.send true)
      { s with
        snapshot := none
        sent := s.sent ++ [telemetryOf data s.board.heater.appliedPowerFraction] }

theorem ThermalSystem.step_moves {arith : FloatArith} {s s' : ThermalSystem} {a : ThermalStep}
    (h : s.step arith a = some s') : ThermalMove arith s a s' := by
  rw [ThermalSystem.step.eq_def] at h
  cases a with
  | receive packet =>
    dsimp only at h
    split_ifs at h with hshort
    · obtain rfl := Option.some.inj h
      exact .tooShort hshort
    · obtain rfl := Option.some.inj h
      exact .receive hshort
  | begin =>
    dsimp only at h
    split_ifs at h with hidle
    obtain ⟨_,hpoll,rfl⟩ := Option.map_eq_some_iff.mp h
    exact .begin hidle hpoll
  | execute =>
    obtain ⟨_,hrunning,rfl⟩ := Option.map_eq_some_iff.mp h
    exact .execute hrunning
  | read sensor reading =>
    obtain rfl := Option.some.inj h
    exact .read sensor reading
  | heaterSetTask =>
    obtain rfl := Option.some.inj h
    exact .heaterSetTask
  | forceHeaterOff =>
    obtain rfl := Option.some.inj h
    exact .forceHeaterOff
  | notice =>
    dsimp only at h
    split_ifs at h with hguard
    obtain rfl := Option.some.inj h
    exact .notice hguard.1 hguard.2
  | send connected =>
    obtain ⟨_,hdata,rfl⟩ := Option.map_eq_some_iff.mp h
    cases connected with
    | false => exact .lost hdata
    | true => exact .send hdata

/-! ### Commands in force -/

namespace ThermalSystem

variable {arith : FloatArith} {s s' : ThermalSystem}

/-- The targets of the executed commands. -/
def targets (s : ThermalSystem) : List CFloat := s.executed.filterMap ThermalsCommand.target

/-- The commands come from the queue, and the target in force is that of the last one. -/
structure Serving (s : ThermalSystem) : Prop where
  inbox : s.inbox.Sound commandQueueLength decodeCommand
  taken : s.inbox.queue.taken = s.executed ++ s.running.toList
  target : s.board.data.targetTemp = s.targets.getLast?.getD 0
  valid : s.board.data.targetTempValid = if s.targets = [] then 0 else 1

/-- The target of a command that decoding yields is in range. -/
theorem decodeCommand_target {packet : List Byte} {command : ThermalsCommand} {target : CFloat}
    (h : decodeCommand packet = .ok command) (htarget : command.target = some target) :
    ThermalData.targetIsValid target = true := by
  rw [decodeCommand] at h
  by_cases hset : (byteAt packet 0).toNat = 80
  · rw [if_pos hset] at h
    by_cases hshort : packet.length < 12
    · rw [if_pos hshort] at h
      cases h
    · rw [if_neg hshort] at h
      by_cases hvalid : ThermalData.targetIsValid (readFloatLe (packet.drop 8)) = true
      · rw [if_pos hvalid] at h
        obtain rfl := Except.ok.inj h
        obtain rfl := Option.some.inj htarget
        exact hvalid
      · rw [if_neg hvalid] at h
        cases h
  · rw [if_neg hset] at h
    split_ifs at h
    obtain rfl := Except.ok.inj h
    cases htarget

theorem Serving.taken_valid (hs : s.Serving) {command : ThermalsCommand}
    (h : command ∈ s.executed ++ s.running.toList) {target : CFloat}
    (htarget : command.target = some target) : ThermalData.targetIsValid target = true := by
  have hput : ∀ c ∈ s.inbox.queue.put,∀ t,c.target = some t → ThermalData.targetIsValid t = true :=
    hs.inbox.put_of_decode fun packet c hdecode t ht => decodeCommand_target hdecode ht
  exact hs.inbox.fifo.taken_of_put hput command (hs.taken ▸ h) target htarget

/-- Readings leave the target alone. -/
theorem sensorRead_target (sensor : Fin 2) (reading : Option CFloat) (d : ThermalData) :
    (sensorRead arith sensor reading d).targetTemp = d.targetTemp ∧
      (sensorRead arith sensor reading d).targetTempValid = d.targetTempValid := by
  rw [sensorRead]
  cases acceptedReading reading with
  | none =>
    dsimp only
    rw [ThermalData.invalidateSensor]
    split_ifs <;> exact ⟨rfl,rfl⟩
  | some temp =>
    dsimp only
    rw [ThermalData.setCurrent]
    split_ifs <;> exact ⟨rfl,rfl⟩

theorem heaterSetTask_data (b : ThermalBoard) : (b.heaterSetTask arith).data = b.data := by
  rw [ThermalBoard.heaterSetTask]
  cases b.phase with
  | getData =>
    dsimp only
    split_ifs <;> rfl
  | update data =>
    dsimp only
    split <;> rfl
  | setPower data power =>
    dsimp only
    split_ifs <;> rfl
  | _ => rfl

theorem targets_concat (executed : List ThermalsCommand) (command : ThermalsCommand) :
    (executed ++ [command]).filterMap ThermalsCommand.target =
      executed.filterMap ThermalsCommand.target ++ command.target.toList := by
  rw [List.filterMap_append]
  cases command <;> rfl

theorem Serving.execute (hs : s.Serving) {command : ThermalsCommand}
    (hrunning : s.running = some command) : Serving { s.executeCommand arith command with
      running := none,executed := s.executed ++ [command] } := by
  have htaken := hs.taken
  rw [hrunning,Option.toList_some] at htaken
  cases command with
  | requestTelemetry =>
    refine ⟨hs.inbox,htaken.trans (List.append_nil _).symm,?_,?_⟩
    · rw [targets,targets_concat,ThermalsCommand.target,Option.toList_none,List.append_nil]
      exact hs.target
    · rw [targets,targets_concat,ThermalsCommand.target,Option.toList_none,List.append_nil]
      exact hs.valid
  | setTargetTemp target =>
    have hvalid : ThermalData.targetIsValid target = true :=
      hs.taken_valid (by rw [hrunning]; exact List.mem_append_right _ List.mem_cons_self) rfl
    have hdata : s.board.data.setTarget target =
        { s.board.data with targetTemp := target,targetTempValid := 1 } := if_pos hvalid
    refine ⟨hs.inbox,htaken.trans (List.append_nil _).symm,?_,?_⟩
    · show (s.board.data.setTarget target).targetTemp = _
      rw [hdata,targets,targets_concat,ThermalsCommand.target,Option.toList_some,
        List.getLast?_concat]
      rfl
    · show (s.board.data.setTarget target).targetTempValid = _
      rw [hdata,targets,targets_concat,ThermalsCommand.target,Option.toList_some,
        if_neg (List.append_ne_nil_of_right_ne_nil _ (List.cons_ne_nil _ _))]

theorem Serving.step (hs : s.Serving) {a : ThermalStep} (h : s.step arith a = some s') :
    s'.Serving := by
  cases step_moves h with
  | tooShort => exact hs
  | receive =>
    exact ⟨hs.inbox.receive _,(Inbox.receive_taken _ s.inbox).trans hs.taken,hs.target,hs.valid⟩
  | begin hidle hpoll =>
    have htaken := hs.taken
    rw [hidle,Option.toList_none,List.append_nil] at htaken
    refine ⟨hs.inbox.poll hpoll,?_,hs.target,hs.valid⟩
    exact (BoundedQueue.poll_eq_some hpoll).2.2.trans (congrArg (· ++ [_]) htaken)
  | execute hrunning => exact hs.execute hrunning
  | read sensor reading =>
    obtain ⟨htarget,hvalid⟩ := @sensorRead_target arith sensor reading s.board.data
    exact ⟨hs.inbox,hs.taken,htarget.trans hs.target,hvalid.trans hs.valid⟩
  | heaterSetTask =>
    have hdata := @heaterSetTask_data arith s.board
    exact ⟨hs.inbox,hs.taken,(congrArg ThermalData.targetTemp hdata).trans hs.target,
      (congrArg ThermalData.targetTempValid hdata).trans hs.valid⟩
  | forceHeaterOff | notice | lost | send => exact ⟨hs.inbox,hs.taken,hs.target,hs.valid⟩

theorem serving_boot : boot.Serving := ⟨Inbox.sound_empty,rfl,rfl,rfl⟩

theorem run_serving {steps : List ThermalStep} (hrun : run (step arith) boot steps = some s) :
    s.Serving :=
  run_invariant (fun _ _ _ hs h => hs.step h) serving_boot hrun

/-- At any time the executed commands, the one that the command task has in hand and those that wait
are those of the acknowledged packets in order. The target in force is that of the last executed
command for one, none was refused by then, and there is one as soon as such a command has been
executed. -/
theorem target_is_last_executed {steps : List ThermalStep}
    (hrun : run (step arith) boot steps = some s) :
    s.executed ++ s.running.toList ++ s.inbox.queue.waiting =
        s.inbox.answers.filterMap (Answer.accepted decodeCommand) ∧
      s.board.data.targetTemp = s.targets.getLast?.getD 0 ∧
      (s.board.data.targetTempValid ≠ 0 ↔ s.targets ≠ []) ∧
      (∀ target ∈ s.targets,ThermalData.targetIsValid target = true) ∧
      s.inbox.queue.waiting.length ≤ commandQueueLength ∧
      ∀ a ∈ s.inbox.answers,∀ command,decodeCommand a.packet = .ok command →
        (a.ack = false ↔ a.waiting = commandQueueLength) := by
  have hs := run_serving hrun
  refine ⟨?_,hs.target,?_,fun target htarget => ?_,hs.inbox.fifo.bounded,hs.inbox.full⟩
  · rw [← hs.taken,← hs.inbox.put]
    exact hs.inbox.fifo.order
  · rw [hs.valid]
    by_cases hnil : s.targets = []
    · rw [if_pos hnil]
      exact iff_of_false (fun h => h rfl) (fun h => h hnil)
    · rw [if_neg hnil]
      exact iff_of_true (by decide) hnil
  · obtain ⟨command,hmem,hcommand⟩ := List.mem_filterMap.mp htarget
    exact hs.taken_valid (List.mem_append_left _ hmem) hcommand

/-- Ten degrees as a target, a request for telemetry, and a target that is no number. -/
def targetThenRequest : List ThermalStep :=
  [.receive [80,0,0,0,1,0,0,0,0,0,32,65],.receive [81,0,0,0,2,0,0,0],.begin,.execute,
    .receive [80,0,0,0,3,0,0,0,0,0,192,127]]

theorem target_then_request_in_force :
    ∃ s,run (step .exact) boot targetThenRequest = some s ∧
      s.inbox.answers.map Answer.ack = [true,true,false] ∧
      s.board.data.targetTemp = .finite 10 ∧ s.board.data.targetTempValid ≠ 0 := by
  have hsome : (run (step .exact) boot targetThenRequest).any (fun s =>
      decide (s.inbox.answers.map Answer.ack = [true,true,false] ∧
        s.executed = [.setTargetTemp (.finite 10)])) = true := by decide +kernel
  obtain ⟨s,hrun,hs⟩ := (Option.any_eq_true _ _).mp hsome
  obtain ⟨hacks,hexecuted⟩ := of_decide_eq_true hs
  obtain ⟨-,htarget,hvalid,-⟩ := target_is_last_executed hrun
  rw [targets,hexecuted] at htarget hvalid
  exact ⟨s,hrun,hacks,htarget,hvalid.mpr (List.cons_ne_nil _ _)⟩

end ThermalSystem

/-! ### Data and readings -/

/-- The mask of the sensors that have a reading. -/
def maskBits (first second : Bool) : BitVec 32 :=
  (if first then 1 else 0) ||| (if second then 2 else 0)

def maskOf (r : Fin 2 → Option CFloat) : BitVec 32 := maskBits (r 0).isSome (r 1).isSome

/-- The mean of the readings that there are, or zero. -/
def averageOf (arith : FloatArith) (r : Fin 2 → Option CFloat) : CFloat :=
  match r 0,r 1 with
  | none,none => 0
  | some a,none => arith.div (arith.add 0 a) (.finite 1)
  | none,some b => arith.div (arith.add 0 b) (.finite 1)
  | some a,some b => arith.div (arith.add (arith.add 0 a) b) (.finite 2)

/-- The data are those of the readings, each of which the sensor task accepts, and a target that is
marked as valid is. -/
structure Coherent (arith : FloatArith) (r : Fin 2 → Option CFloat) (d : ThermalData) : Prop where
  mask : d.validSensorMask = maskOf r
  temperature : ∀ i temp,r i = some temp → d.temperatures i = temp
  average : d.averageTemp = averageOf arith r
  accepted : ∀ i temp,r i = some temp → acceptedReading (some temp) = some temp
  target : d.targetTempValid ≠ 0 → ThermalData.targetIsValid d.targetTemp = true

section

variable {arith : FloatArith} {r : Fin 2 → Option CFloat} {d : ThermalData}

theorem maskOf_update (r : Fin 2 → Option CFloat) (i : Fin 2) (reading : Option CFloat) :
    maskOf (Function.update r i reading) =
      if reading.isSome then maskOf r ||| (1#32 <<< i.val)
      else maskOf r &&& ~~~(1#32 <<< i.val) := by
  have hbits (a b c : Bool) :
      maskBits c b = (if c then maskBits a b ||| (1#32 <<< 0)
        else maskBits a b &&& ~~~(1#32 <<< 0)) ∧
      maskBits a c = (if c then maskBits a b ||| (1#32 <<< 1)
        else maskBits a b &&& ~~~(1#32 <<< 1)) := by
    revert a b c
    decide
  match i with
  | 0 => exact (hbits (r 0).isSome (r 1).isSome reading.isSome).1
  | 1 => exact (hbits (r 0).isSome (r 1).isSome reading.isSome).2

theorem recalculateAverage_eq (hmask : d.validSensorMask = maskOf r)
    (htemperature : ∀ i temp,r i = some temp → d.temperatures i = temp) :
    (d.recalculateAverage arith).averageTemp = averageOf arith r := by
  have hfin : List.finRange 2 = [0,1] := rfl
  have hfirst (a b : Bool) : (maskBits a b &&& 1#32 ≠ 0) ↔ a = true := by
    revert a b
    decide
  have hsecond (a b : Bool) : (maskBits a b &&& 1#32 <<< 1 ≠ 0) ↔ b = true := by
    revert a b
    decide
  have hbits : (d.validSensorMask &&& 1#32 <<< (0 : Fin 2).val ≠ 0 ↔ (r 0).isSome = true) ∧
      (d.validSensorMask &&& 1#32 <<< (1 : Fin 2).val ≠ 0 ↔ (r 1).isSome = true) := by
    rw [hmask]
    exact ⟨hfirst _ _,hsecond _ _⟩
  rw [ThermalData.recalculateAverage,averageOf,hfin,List.foldl_cons,List.foldl_cons,List.foldl_nil]
  simp only [hbits.1,hbits.2]
  cases h0 : r 0 with
  | none =>
    cases h1 : r 1 with
    | none => simp
    | some b => simp [htemperature 1 b h1]
  | some a =>
    cases h1 : r 1 with
    | none => simp [htemperature 0 a h0]
    | some b => simp [htemperature 0 a h0,htemperature 1 b h1]

theorem setCurrent_sensor (i : Fin 2) (temp : CFloat) (d : ThermalData) :
    d.setCurrent arith temp (BitVec.ofNat 32 (i.val+1)) = ThermalData.recalculateAverage arith
      { d with
        temperatures := Function.update d.temperatures i temp
        validSensorMask := d.validSensorMask ||| (1#32 <<< i.val) } := by
  match i with
  | 0 => rfl
  | 1 => rfl

theorem invalidateSensor_sensor (i : Fin 2) (d : ThermalData) :
    d.invalidateSensor arith (BitVec.ofNat 32 (i.val+1)) = ThermalData.recalculateAverage arith
      { d with validSensorMask := d.validSensorMask &&& ~~~(1#32 <<< i.val) } := by
  match i with
  | 0 => rfl
  | 1 => rfl

theorem acceptedReading_idem {reading : Option CFloat} {temp : CFloat}
    (h : acceptedReading reading = some temp) : acceptedReading (some temp) = some temp := by
  cases reading with
  | none => cases h
  | some t =>
    have h' := h
    rw [acceptedReading] at h
    split_ifs at h
    obtain rfl := Option.some.inj h
    exact h'

/-- A reading and the recalculation of the average keep the data coherent. -/
theorem Coherent.sensorRead (hd : Coherent arith r d) (i : Fin 2) (reading : Option CFloat) :
    Coherent arith (Function.update r i (acceptedReading reading))
      (sensorRead arith i reading d) := by
  have hmask := maskOf_update r i (acceptedReading reading)
  have haccepted : ∀ j temp,Function.update r i (acceptedReading reading) j = some temp →
      acceptedReading (some temp) = some temp := by
    intro j temp h
    by_cases hij : j = i
    · rw [hij,Function.update_self] at h
      exact acceptedReading_idem h
    · rw [Function.update_of_ne hij] at h
      exact hd.accepted j temp h
  rw [← hd.mask] at hmask
  rw [Thermals.sensorRead]
  cases hreading : acceptedReading reading with
  | none =>
    rw [hreading] at hmask haccepted
    have hkept : ∀ j temp,Function.update r i none j = some temp → d.temperatures j = temp := by
      intro j temp h
      by_cases hij : j = i
      · rw [hij,Function.update_self] at h
        cases h
      · rw [Function.update_of_ne hij] at h
        exact hd.temperature j temp h
    dsimp only
    rw [invalidateSensor_sensor]
    exact ⟨hmask.symm,hkept,recalculateAverage_eq hmask.symm hkept,haccepted,hd.target⟩
  | some temp =>
    rw [hreading] at hmask haccepted
    have hkept : ∀ j t,Function.update r i (some temp) j = some t →
        Function.update d.temperatures i temp j = t := by
      intro j t h
      by_cases hij : j = i
      · rw [hij,Function.update_self] at h ⊢
        exact Option.some.inj h
      · rw [Function.update_of_ne hij] at h ⊢
        exact hd.temperature j t h
    dsimp only
    rw [setCurrent_sensor]
    exact ⟨hmask.symm,hkept,recalculateAverage_eq hmask.symm hkept,haccepted,hd.target⟩

theorem Coherent.setTarget (hd : Coherent arith r d) (target : CFloat) :
    Coherent arith r (d.setTarget target) := by
  rw [ThermalData.setTarget]
  by_cases hvalid : ThermalData.targetIsValid target = true
  · rw [if_pos hvalid]
    exact ⟨hd.mask,hd.temperature,hd.average,hd.accepted,fun _ => hvalid⟩
  · rw [if_neg hvalid]
    exact hd

end

/-! ### The board -/

/-- A step does to the board what one of its actions does, or leaves it alone. -/
theorem ThermalSystem.step_board {arith : FloatArith} {s s' : ThermalSystem} {a : ThermalStep}
    (h : s.step arith a = some s') :
    s'.board = s.board ∨ ∃ action,s'.board = s.board.act arith action := by
  cases step_moves h with
  | tooShort | receive | begin | notice | lost | send => exact .inl rfl
  | @execute command hrunning =>
    cases command with
    | setTargetTemp target => exact .inr ⟨.setTarget target,rfl⟩
    | requestTelemetry => exact .inl rfl
  | read sensor reading =>
    dsimp only
    rw [sensorRead]
    cases acceptedReading reading with
    | none => exact .inr ⟨.invalidateSensor _,rfl⟩
    | some temp => exact .inr ⟨.setCurrent temp _,rfl⟩
  | heaterSetTask => exact .inr ⟨.heaterSetTask,rfl⟩
  | forceHeaterOff => exact .inr ⟨.forceHeaterOff,rfl⟩

/-! ### Power -/

open PropIntController (IsFraction)

/-- The driver lets nothing but a fraction through, whatever the arithmetic of the controller. -/
theorem setPower_isFraction {h : Heater} (hfraction : IsFraction h.appliedPowerFraction)
    (power : CFloat) : IsFraction (h.setPower power).2.appliedPowerFraction := by
  rw [Heater.setPower]
  by_cases hrefused : (!power.isfinite || power.lt 0 || (1 : CFloat).lt power) = true
  · rw [if_pos hrefused]
    exact ThermalBoard.isFraction_zero
  · rw [if_neg hrefused]
    simp only [Bool.or_eq_true,Bool.not_eq_true',not_or,Bool.not_eq_false,
      Bool.not_eq_true] at hrefused
    obtain ⟨⟨hfinite,hnonneg⟩,hle⟩ := hrefused
    split_ifs
    · exact hfraction
    · obtain ⟨q,rfl⟩ := CFloat.isfinite_iff.mp hfinite
      exact ⟨q,rfl,not_lt.mp (of_decide_eq_false hnonneg),not_lt.mp (of_decide_eq_false hle)⟩

theorem heaterSetTask_isFraction {arith : FloatArith} {b : ThermalBoard}
    (h : IsFraction b.heater.appliedPowerFraction) :
    IsFraction (b.heaterSetTask arith).heater.appliedPowerFraction := by
  rw [ThermalBoard.heaterSetTask]
  cases b.phase with
  | getData =>
    dsimp only
    split_ifs <;> exact h
  | update data =>
    dsimp only
    split <;> exact h
  | setPower data power =>
    have hpower := setPower_isFraction h power
    dsimp only
    split_ifs <;> exact hpower
  | reset period => exact h
  | forceOff period => exact ThermalBoard.isFraction_zero
  | delay period => exact h

/-! ### Packets -/

namespace ThermalSystem

variable {arith : FloatArith} {s s' : ThermalSystem}

/-- The shared data are those of the last readings, the power is a fraction, and each packet of the
telemetry task answers a request. -/
structure Reporting (arith : FloatArith) (s : ThermalSystem) : Prop where
  data : Coherent arith s.readings s.board.data
  power : IsFraction s.board.heater.appliedPowerFraction
  answers : s.sent.length + s.snapshot.toList.length + s.notified.toNat ≤
    s.executed.count .requestTelemetry

theorem reporting_boot : Reporting arith boot where
  data := ⟨rfl,fun _ _ h => (by cases h),rfl,fun _ _ h => (by cases h),fun h => absurd rfl h⟩
  power := ThermalBoard.isFraction_zero
  answers := le_rfl

theorem Reporting.execute (hs : s.Reporting arith) (command : ThermalsCommand) :
    Reporting arith { s.executeCommand arith command with
      running := none,executed := s.executed ++ [command] } := by
  have hanswers := hs.answers
  cases command with
  | setTargetTemp target =>
    refine ⟨hs.data.setTarget target,hs.power,?_⟩
    rw [List.count_append]
    exact hanswers.trans (Nat.le_add_right ..)
  | requestTelemetry =>
    refine ⟨hs.data,hs.power,?_⟩
    show s.sent.length + s.snapshot.toList.length + 1 ≤
      (s.executed ++ [ThermalsCommand.requestTelemetry]).count ThermalsCommand.requestTelemetry
    rw [List.count_append,List.count_singleton_self]
    omega

theorem Reporting.step (hs : s.Reporting arith) {a : ThermalStep}
    (h : s.step arith a = some s') : s'.Reporting arith := by
  have hanswers := hs.answers
  cases step_moves h with
  | tooShort => exact hs
  | receive | begin => exact ⟨hs.data,hs.power,hanswers⟩
  | execute => exact hs.execute _
  | read sensor reading => exact ⟨hs.data.sensorRead sensor reading,hs.power,hanswers⟩
  | heaterSetTask =>
    refine ⟨?_,heaterSetTask_isFraction hs.power,hanswers⟩
    exact (heaterSetTask_data s.board).symm ▸ hs.data
  | forceHeaterOff => exact ⟨hs.data,ThermalBoard.isFraction_zero,hanswers⟩
  | notice hnotified hnone =>
    refine ⟨hs.data,hs.power,?_⟩
    rw [hnotified,hnone] at hanswers
    exact hanswers
  | lost hdata =>
    rw [hdata,Option.toList_some,List.length_singleton] at hanswers
    refine ⟨hs.data,hs.power,?_⟩
    show s.sent.length + 0 + s.notified.toNat ≤ _
    dsimp only
    omega
  | send hdata =>
    rw [hdata,Option.toList_some,List.length_singleton] at hanswers
    refine ⟨hs.data,hs.power,?_⟩
    show (s.sent ++ [_]).length + 0 + s.notified.toNat ≤ _
    rw [List.length_append]
    exact hanswers

theorem run_reporting {steps : List ThermalStep}
    (hrun : run (ThermalSystem.step arith) boot steps = some s) : s.Reporting arith :=
  run_invariant (fun _ _ _ hs h => hs.step h) reporting_boot hrun

/-- The telemetry task holds data that were the shared ones, and each packet is made of such data
and of a power applied later on. -/
structure Drawn (arith : FloatArith) (steps : List ThermalStep) (s : ThermalSystem) : Prop where
  snapshot : ∀ d,s.snapshot = some d → ∃ pre t,pre <+: steps ∧
    run (ThermalSystem.step arith) boot pre = some t ∧ d = t.board.data
  sent : ∀ x ∈ s.sent,∃ pre pre' t u,pre <+: pre' ∧ pre' <+: steps ∧
    run (ThermalSystem.step arith) boot pre = some t ∧
    run (ThermalSystem.step arith) boot pre' = some u ∧
    x = telemetryOf t.board.data u.board.heater.appliedPowerFraction

/-- A step that concerns neither the data in hand nor the packets. -/
theorem Drawn.concat {steps : List ThermalStep} (hs : s.Drawn arith steps) (a : ThermalStep)
    (hsnapshot : s'.snapshot = s.snapshot) (hsent : s'.sent = s.sent) :
    s'.Drawn arith (steps ++ [a]) := by
  have hmore : steps <+: steps ++ [a] := List.prefix_append _ _
  constructor
  · intro d hd
    obtain ⟨pre,t,hpre,hrun,hdata⟩ := hs.snapshot d (hsnapshot ▸ hd)
    exact ⟨pre,t,hpre.trans hmore,hrun,hdata⟩
  · intro x hx
    obtain ⟨pre,pre',t,u,hpre,hpre',hrun⟩ := hs.sent x (hsent ▸ hx)
    exact ⟨pre,pre',t,u,hpre,hpre'.trans hmore,hrun⟩

theorem Drawn.step {steps : List ThermalStep} (hs : s.Drawn arith steps)
    (hrun : run (ThermalSystem.step arith) boot steps = some s) {a : ThermalStep}
    (h : s.step arith a = some s') : s'.Drawn arith (steps ++ [a]) := by
  cases step_moves h with
  | @execute command hrunning =>
    cases command with
    | setTargetTemp target => exact hs.concat _ rfl rfl
    | requestTelemetry => exact hs.concat _ rfl rfl
  | notice hnotified hnone =>
    have hbefore : s.Drawn arith (steps ++ [.notice]) := hs.concat _ rfl rfl
    refine ⟨fun d hd => ?_,hbefore.sent⟩
    exact ⟨steps,s,List.prefix_append _ _,hrun,(Option.some.inj hd).symm⟩
  | lost hdata =>
    have hbefore : s.Drawn arith (steps ++ [.send false]) := hs.concat _ rfl rfl
    exact ⟨fun d hd => (by cases hd),hbefore.sent⟩
  | send hdata =>
    have hbefore : s.Drawn arith (steps ++ [.send true]) := hs.concat _ rfl rfl
    refine ⟨fun d hd => (by cases hd),fun x hx => ?_⟩
    obtain hx | hx := List.mem_append.mp hx
    · exact hbefore.sent x hx
    · obtain ⟨pre,t,hpre,ht,rfl⟩ := hs.snapshot _ hdata
      exact ⟨pre,steps,t,s,hpre,List.prefix_append _ _,ht,hrun,List.mem_singleton.mp hx⟩
  | _ => exact hs.concat _ rfl rfl

theorem run_drawn {steps : List ThermalStep}
    (hrun : run (ThermalSystem.step arith) boot steps = some s) : s.Drawn arith steps :=
  run_trace_invariant (fun _ _ _ _ hpre hs h => hs.step hpre h)
    ⟨fun d hd => (by cases hd),fun x hx => (by cases hx)⟩ hrun

/-- Whatever the arithmetic, at any time the shared data are those of the last reading of each
sensor: the mask has the sensors whose last reading was accepted, and the average is over these. A
telemetry packet has the shared data of an earlier state of the run, so they are as consistent and
a target that is marked as valid is in range, and the heater power of a later one, which is a
fraction. There are no more packets than executed requests. -/
theorem telemetry_coherent {steps : List ThermalStep}
    (hrun : run (ThermalSystem.step arith) boot steps = some s) :
    Coherent arith s.readings s.board.data ∧
      (∀ x ∈ s.sent,∃ pre pre' t u,pre <+: pre' ∧ pre' <+: steps ∧
        run (ThermalSystem.step arith) boot pre = some t ∧
        run (ThermalSystem.step arith) boot pre' = some u ∧
        Coherent arith t.readings t.board.data ∧ IsFraction u.board.heater.appliedPowerFraction ∧
        x = telemetryOf t.board.data u.board.heater.appliedPowerFraction) ∧
      s.sent.length ≤ s.executed.count .requestTelemetry := by
  have hs := run_reporting hrun
  have hanswers := hs.answers
  refine ⟨hs.data,fun x hx => ?_,by omega⟩
  obtain ⟨pre,pre',t,u,hpre,hpre',ht,hu,hpacket⟩ := (run_drawn hrun).sent x hx
  exact ⟨pre,pre',t,u,hpre,hpre',ht,hu,(run_reporting ht).data,(run_reporting hu).power,hpacket⟩

/-- One sensor reads ten degrees, the other one fails, and a request is answered. -/
def requestOfOneReading : List ThermalStep :=
  [.read 0 (some (.finite 10)),.read 1 none,.receive [81,0,0,0,1,0,0,0],.begin,.execute,.notice,
    .send true]

theorem request_of_one_reading_coherent :
    ∃ s,run (ThermalSystem.step .exact) boot requestOfOneReading = some s ∧
      s.board.data.averageTemp = .finite 10 ∧ s.board.data.validSensorMask = 1 ∧
      ∃ x ∈ s.sent,∃ pre pre' t u,pre <+: pre' ∧ pre' <+: requestOfOneReading ∧
        run (ThermalSystem.step .exact) boot pre = some t ∧
        run (ThermalSystem.step .exact) boot pre' = some u ∧
        Coherent .exact t.readings t.board.data ∧ IsFraction u.board.heater.appliedPowerFraction ∧
        x = telemetryOf t.board.data u.board.heater.appliedPowerFraction := by
  have hsome : (run (ThermalSystem.step .exact) boot requestOfOneReading).any (fun s =>
      decide (s.sent ≠ [] ∧ s.board.data.averageTemp = .finite 10 ∧
        s.board.data.validSensorMask = 1)) = true := by decide +kernel
  obtain ⟨s,hrun,hs⟩ := (Option.any_eq_true _ _).mp hsome
  obtain ⟨hsent,haverage,hmask⟩ := of_decide_eq_true hs
  obtain ⟨x,hx⟩ := List.exists_mem_of_ne_nil _ hsent
  exact ⟨s,hrun,haverage,hmask,x,hx,(telemetry_coherent hrun).2.1 x hx⟩

end ThermalSystem

end FlightSoftware.Thermals
