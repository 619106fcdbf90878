import FlightSoftware.Lib.Run
import FlightSoftware.Lib.Timespec
import FlightSoftware.Mission.StateFile

/-!
# The mission scheduler and its crashes

`scheduler_thread` of `scheduler.c`: the cycle of taking, compressing and
downlinking a photo. The phase is saved at every transition. A crash loses the
retry counter and the start of a cooldown, and the next process resumes with the
phase that was saved last.
-/

namespace FlightSoftware.Mission
def ascentWaitSec : ℤ := 5400
def stepRetryLimit : ℕ := 3
def cooldownSec : ℤ := 600
def telemetryDownlinkIntervalSec : ℤ := 30

/-- A number of seconds that an environment variable may replace by a positive one. -/
def secondsFromEnv (default : ℤ) : Option ℤ → ℤ
  | none => default
  | some val => if 0 < val then val else default

def getAscentWaitSec (env : Option ℤ) : ℤ := secondsFromEnv ascentWaitSec env

def getTelemetryDownlinkIntervalSec (env : Option ℤ) : ℤ :=
  secondsFromEnv telemetryDownlinkIntervalSec env

/-- The operations of `payload_commander.c` that a cycle consists of. -/
inductive Operation where
  | takePhoto | compressPhoto | downlinkPhoto
  deriving DecidableEq,Repr

/-- The state in which an operation is tried. -/
def Operation.state : Operation → MissionState
  | .takePhoto => .takingPhoto
  | .compressPhoto => .compressing
  | .downlinkPhoto => .downlinking

/-- What an observer sees of the processes, one after another. -/
inductive MissionEvent where
  /-- A process starts. -/
  | started
  /-- An iteration reads the clocks. `elapsed` is the wall clock less `mission_start_unix`. -/
  | iterated (now : Timespec) (elapsed ascentWait : ℤ)
  | attempted (op : Operation)
  | finished (op : Operation) (result : ℤ)
  /-- The operation has failed too often, and the cycle is to be abandoned. -/
  | abandoned (op : Operation)
  /-- Cooldown with this `cooldown_start` was saved by a process or restored by one. -/
  | cooldown (start : Timespec)
  deriving DecidableEq

/-- Where the thread is. Behind a point comes what can be lost in a crash. -/
inductive Point where
  | load | freshSave | top
  | operating (op : Operation)
  | enterCooldown | transitionSave | telemetry | batch | telemetrySave | telemetryDone
  deriving DecidableEq

/-- A process. `clock` is its latest reading of the monotonic clock. -/
structure Life where
  point : Point
  clock : Timespec
  ascentWait : ℤ
  telemetryInterval : ℤ
  state : SavedState
  retryCount : ℕ
  cooldownStart : Timespec
  lastTelemetryAttempt : Timespec
  deriving DecidableEq

/-- The state file, the running process and what has been seen. -/
structure Scheduler where
  file : Option (List Byte)
  life : Option Life
  log : List MissionEvent
  deriving DecidableEq

def Scheduler.initial : Scheduler := ⟨none,none,[]⟩

inductive SchedulerAction where
  | start (now : Timespec) (waitEnv intervalEnv : Option ℤ)
  /-- `mission_state_load` with the readings of the two clocks that it may ask for. -/
  | load (now : Timespec) (unixTime : BitVec 64)
  /-- The `mission_state_save` that is due. -/
  | save
  | iterate (now : Timespec) (unixTime : BitVec 64)
  /-- The operation returns. -/
  | result (result : ℤ)
  | enterCooldown (now : Timespec)
  | telemetry (now : Timespec)
  /-- The telemetry batch returns, with the cursor where it wants it. -/
  | batch (cursor : BitVec 64)
  | telemetryDone (now : Timespec)
  | crash

def Life.begin (now : Timespec) (waitEnv intervalEnv : Option ℤ) : Life where
  point := .load
  clock := now
  ascentWait := getAscentWaitSec waitEnv
  telemetryInterval := getTelemetryDownlinkIntervalSec intervalEnv
  state := ⟨.waitingForAscent,0#64,0#64⟩
  retryCount := 0
  cooldownStart := .ofSeconds 0
  lastTelemetryAttempt := .ofSeconds 0

/-- A reading of the monotonic clock, which never goes back. -/
def Life.read (life : Life) (now : Timespec) : Option Life :=
  if life.clock.nanos ≤ now.nanos then some { life with clock := now } else none

/-- `set_state`, up to its save. -/
def Life.setState (life : Life) (next : MissionState) : Life :=
  { life with
    state := { life.state with currentState := next }
    retryCount := 0
    point := .transitionSave }

/-- `mission_state_load`. A fresh mission is still to be saved. -/
def Life.load (life : Life) (file : Option (List Byte)) (now : Timespec) (unixTime : BitVec 64) :
    Life × List MissionEvent :=
  match missionStateLoad file with
  | some saved =>
    if saved.currentState = .cooldown then
      ({ life with state := saved,cooldownStart := now,point := .top },[.cooldown now])
    else ({ life with state := saved,point := .top },[])
  | none => ({ life with state := ⟨.waitingForAscent,unixTime,0#64⟩,point := .freshSave },[])

/-- The top of an iteration, up to the call of an operation. -/
def Life.iterate (life : Life) (now : Timespec) (unixTime : BitVec 64) :
    Life × List MissionEvent :=
  let elapsed := unixTime.toInt - life.state.missionStart.toInt
  let seen := MissionEvent.iterated now elapsed life.ascentWait
  match life.state.currentState with
  | .waitingForAscent =>
    (if life.ascentWait ≤ elapsed then life.setState .takingPhoto
      else { life with point := .telemetry },[seen])
  | .takingPhoto => ({ life with point := .operating .takePhoto },[seen,.attempted .takePhoto])
  | .compressing =>
    ({ life with point := .operating .compressPhoto },[seen,.attempted .compressPhoto])
  | .downlinking =>
    ({ life with point := .operating .downlinkPhoto },[seen,.attempted .downlinkPhoto])
  | .cooldown =>
    (if Timespec.seconds cooldownSec ≤ now.since life.cooldownStart then
        life.setState .takingPhoto
      else { life with point := .telemetry },[seen])

/-- The case of an operation behind its return. -/
def Life.finish (life : Life) (op : Operation) (result : ℤ) : Life × List MissionEvent :=
  if result = 0 then
    match op with
    | .takePhoto => (life.setState .compressing,[.finished op result])
    | .compressPhoto => (life.setState .downlinking,[.finished op result])
    | .downlinkPhoto => ({ life with point := .enterCooldown },[.finished op result])
  else if stepRetryLimit ≤ life.retryCount + 1 then
    ({ life with retryCount := life.retryCount + 1,point := .enterCooldown },
      [.finished op result,.abandoned op])
  else
    ({ life with retryCount := life.retryCount + 1,point := .telemetry },[.finished op result])

/-- What the process does behind its save, if one is due. -/
def Life.saved (life : Life) : Option (Life × List MissionEvent) :=
  match life.point with
  | .freshSave => some ({ life with point := .top },[])
  | .transitionSave =>
    some ({ life with point := .telemetry },
      if life.state.currentState = .cooldown then [.cooldown life.cooldownStart] else [])
  | .telemetrySave => some ({ life with point := .telemetryDone },[])
  | _ => none

/-- The steps of a process that leave the file alone. -/
def Life.step (life : Life) (file : Option (List Byte)) :
    SchedulerAction → Option (Life × List MissionEvent)
  | .load now unixTime =>
    if life.point = .load then (life.read now).map fun life => life.load file now unixTime
    else none
  | .iterate now unixTime =>
    if life.point = .top then (life.read now).map fun life => life.iterate now unixTime
    else none
  | .result result =>
    match life.point with
    | .operating op => some (life.finish op result)
    | _ => none
  | .enterCooldown now =>
    if life.point = .enterCooldown then
      (life.read now).map fun life => ({ life with cooldownStart := now }.setState .cooldown,[])
    else none
  | .telemetry now =>
    if life.point = .telemetry then
      (life.read now).map fun life =>
        ({ life with
          point := if Timespec.seconds life.telemetryInterval ≤
            now.since life.lastTelemetryAttempt then .batch else .top },[])
    else none
  | .batch cursor =>
    if life.point = .batch then
      some ({ life with
        state := { life.state with telemetryCursor := cursor }
        point := if cursor ≠ life.state.telemetryCursor then .telemetrySave
          else .telemetryDone },[])
    else none
  | .telemetryDone now =>
    if life.point = .telemetryDone then
      (life.read now).map fun life =>
        ({ life with lastTelemetryAttempt := now,point := .top },[])
    else none
  | .start _ _ _ | .save | .crash => none

/-- One step. A save replaces the file as a whole. -/
def Scheduler.step (s : Scheduler) : SchedulerAction → Option Scheduler
  | .start now waitEnv intervalEnv =>
    match s.life with
    | some _ => none
    | none => some { s with
        life := some (.begin now waitEnv intervalEnv)
        log := s.log ++ [.started] }
  | .crash =>
    match s.life with
    | some _ => some { s with life := none }
    | none => none
  | .save =>
    s.life.bind fun life => life.saved.map fun (after,events) =>
      { s with file := some (stateText life.state),life := some after,log := s.log ++ events }
  | action =>
    s.life.bind fun life => (life.step s.file action).map fun (after,events) =>
      { s with life := some after,log := s.log ++ events }

end FlightSoftware.Mission
