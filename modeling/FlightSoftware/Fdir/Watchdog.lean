import FlightSoftware.Fdir.Fallback
import FlightSoftware.Lib.History
import FlightSoftware.Lib.Run
import FlightSoftware.Lib.Timespec

/-!
# The watchdog over the OBC processes

`watchdog.c` and the heartbeats of `health_monitor.c`. Two threads share the times
of the last heartbeats. The watchdog checks the roles one after another, and a
heartbeat may be recorded between two checks of the same tick.
-/

namespace FlightSoftware.Fdir
open Obc Supervisor

def roleHeartbeatTimeoutSec : ℤ := 5

/-- `monitored_roles` of the watchdog. -/
def monitoredRoles : List ObcRole := [.commands,.compute,.data,.mission,.time]

/-- The roles whose heartbeats the health monitor records. -/
def isMonitoredRole : ObcRole → Bool
  | .commands | .compute | .data | .mission | .time => true
  | _ => false

/-- `role_is_stale`, with the time of the last heartbeat if there was one. -/
def roleIsStale (lastSeen : Option Timespec) (watchdogStarted now : Timespec) : Bool :=
  match lastSeen with
  | none => Timespec.seconds roleHeartbeatTimeoutSec < now.since watchdogStarted
  | some lastSeen => Timespec.seconds roleHeartbeatTimeoutSec < now.since lastSeen

/-- A message to Supervisor, and what `IPC_send` returned for it. -/
structure Request where
  message : SupervisorRequest
  rc : ℤ
  deriving DecidableEq

inductive FdirEvent where
  /-- The watchdog starts. -/
  | started (time : Timespec)
  /-- A heartbeat with this time is recorded. -/
  | heartbeat (role : ObcRole) (time : Timespec)
  | ticked (now : Timespec)
  /-- A role is checked, and perhaps a restart requested. -/
  | checked (role : ObcRole) (now : Timespec) (stale : Bool) (request : Option Request)
  deriving DecidableEq

/-- Both threads. `stamped` is a heartbeat that has read the clock and is still to be recorded,
`tick` the time of a tick and the roles that it is still to check, and `requests` counts the
requests for each role. -/
structure Watchdog where
  clock : Timespec
  stamped : Option (ObcRole × Timespec)
  lastHeartbeat : ObcRole → Option Timespec
  watchdogStarted : Option Timespec
  tick : Option (Timespec × List ObcRole)
  faultLatched : ObcRole → Bool
  requests : ObcRole → ℕ
  log : List FdirEvent

def Watchdog.initial (clock : Timespec) : Watchdog :=
  ⟨clock,none,fun _ => none,none,none,fun _ => false,fun _ => 0,[]⟩

inductive WatchdogAction where
  /-- `record_role_heartbeat` on an empty message, up to the reading of the clock. -/
  | receive (role : ObcRole) (now : Timespec)
  | record
  | start (now : Timespec)
  | tick (now : Timespec)
  /-- The tick checks the next role. -/
  | check
  /-- The end of the tick. -/
  | sleep

/-- The pass of the loop over a role. -/
def Watchdog.check (channel : ObcRole → ℕ → ℤ) (s : Watchdog) (role : ObcRole)
    (watchdogStarted now : Timespec) : Watchdog :=
  let stale := roleIsStale (s.lastHeartbeat role) watchdogStarted now
  if stale && !s.faultLatched role then
    let rc := channel role (s.requests role)
    let (message,result) := fallbackHandleFault ⟨role,.unresponsive⟩ rc
    { s with
      faultLatched := if result = 0 then Function.update s.faultLatched role true
        else s.faultLatched
      requests := Function.update s.requests role (s.requests role + 1)
      log := s.log ++ [.checked role now stale (some ⟨message,rc⟩)] }
  else
    { s with
      faultLatched := if !stale && s.faultLatched role then
        Function.update s.faultLatched role false else s.faultLatched
      log := s.log ++ [.checked role now stale none] }

/-- One step. `channel` tells what `IPC_send` returns for each request for a role. -/
def Watchdog.step (channel : ObcRole → ℕ → ℤ) (s : Watchdog) : WatchdogAction → Option Watchdog
  | .receive role now =>
    if s.stamped = none ∧ s.clock.nanos ≤ now.nanos then
      some { s with
        clock := now
        stamped := if isMonitoredRole role then some (role,now) else none }
    else none
  | .record =>
    match s.stamped with
    | some (role,time) =>
      some { s with
        stamped := none
        lastHeartbeat := Function.update s.lastHeartbeat role (some time)
        log := s.log ++ [.heartbeat role time] }
    | none => none
  | .start now =>
    if s.watchdogStarted = none ∧ s.clock.nanos ≤ now.nanos then
      some { s with clock := now,watchdogStarted := some now,log := s.log ++ [.started now] }
    else none
  | .tick now =>
    if s.watchdogStarted ≠ none ∧ s.tick = none ∧ s.clock.nanos ≤ now.nanos then
      some { s with
        clock := now
        tick := some (now,monitoredRoles)
        log := s.log ++ [.ticked now] }
    else none
  | .check =>
    match s.watchdogStarted,s.tick with
    | some watchdogStarted,some (now,role :: roles) =>
      some ({ s with tick := some (now,roles) }.check channel role watchdogStarted now)
    | _,_ => none
  | .sleep =>
    match s.tick with
    | some (_,[]) => some { s with tick := none }
    | _ => none

end FlightSoftware.Fdir
