import FlightSoftware.Lib.Run
import FlightSoftware.Obc.Ipc

/-!
# The supervisor's processes

`processes.c`, with the threads of `supervisor.c` and `main.c` that call into it.
What a thread does while it holds a lifecycle lock is one step; between two such
steps the other threads and the children go on. Results of the system calls are
arguments of the steps.
-/

namespace FlightSoftware.Supervisor
open Obc

abbrev numProcesses : ℕ := 6
def maxCrashRestarts : ℕ := 5

/-- An index of the table. -/
abbrev Slot := Fin numProcesses

/-- `posix_spawn` yields the number of a process, which is positive. -/
structure Pid where
  value : ℤ
  positive : 0 < value
  deriving DecidableEq

/-- A child that no `waitpid` has collected yet. -/
structure Child where
  pid : ℤ
  exited : Bool
  deriving DecidableEq,Repr

/-- A slot of the table, with the children that were spawned for it. `restartCount` counts
without overflow, which is undefined for the `int` of the source. -/
structure Process where
  pid : ℤ
  restartCount : ℕ
  children : List Child
  deriving DecidableEq,Repr

/-- One call of `posix_spawn`: for which slot, by whom, with what result, and what the flag and
the slot's uncollected children were at that time. -/
structure SpawnCall where
  slot : Slot
  byReap : Bool
  shuttingDown : Bool
  children : List Child
  pid : Option Pid
  deriving DecidableEq

/-- What the system calls of one locked section do. -/
structure SectionIo where
  /-- The `waitpid` of the reaper fails. -/
  waitFails : Bool
  /-- `kill(SIGTERM)` fails, other than for want of a process. -/
  termFails : Bool
  /-- A `waitpid` of the polling loop fails. -/
  pollFails : Bool
  /-- The process that `posix_spawn` starts, if it succeeds. -/
  spawn : Option Pid
  deriving DecidableEq

/-- `kill` and `waitpid` succeed. -/
def SectionIo.Succeeds (io : SectionIo) : Prop :=
  io.waitFails = false ∧ io.termFails = false ∧ io.pollFails = false

/-- The slot and the `posix_spawn` calls after a locked section. -/
structure Section where
  result : ℤ
  process : Process
  spawns : List SpawnCall
  deriving DecidableEq

/-! ### Locked sections -/

/-- The slot after `waitpid` has returned its child. -/
def Process.collected (p : Process) : Process :=
  { p with pid := -1,children := p.children.filter (·.pid ≠ p.pid) }

/-- `supervisor_shutdown_process_locked`. A child that is still alive at the deadline is killed,
and the blocking `waitpid` returns it, so it makes no difference whether it exits in time.
`waitpid` fails for a number that is not that of a child. -/
def supervisorShutdownProcessLocked (io : SectionIo) (p : Process) : ℤ × Process :=
  if p.pid ≤ 0 then (0,p)
  else if io.termFails then (-1,p)
  else if io.pollFails ∨ p.pid ∉ p.children.map Child.pid then (-1,p)
  else (0,p.collected)

/-- `supervisor_restart_process_locked` -/
def supervisorRestartProcessLocked (io : SectionIo) (slot : Slot)
    (byReap shuttingDown : Bool) (p : Process) : Section :=
  let stopped := supervisorShutdownProcessLocked io p
  if stopped.1 ≠ 0 then ⟨-1,stopped.2,[]⟩
  else
    let call : SpawnCall := ⟨slot,byReap,shuttingDown,stopped.2.children,io.spawn⟩
    match io.spawn with
    | none => ⟨-1,stopped.2,[call]⟩
    | some pid =>
      ⟨0,{ stopped.2 with
        pid := pid.value
        children := stopped.2.children ++ [⟨pid.value,false⟩] },[call]⟩

/-- The body of the loop in `supervisor_reap`. -/
def supervisorReapSlot (io : SectionIo) (slot : Slot) (shuttingDown : Bool)
    (p : Process) : Section :=
  if p.pid ≤ 0 then ⟨0,p,[]⟩
  else if io.waitFails ∨ (⟨p.pid,true⟩ : Child) ∉ p.children then ⟨0,p,[]⟩
  else if shuttingDown then ⟨0,p.collected,[]⟩
  else
    let counted := { p.collected with restartCount := p.restartCount+1 }
    if counted.restartCount > maxCrashRestarts then ⟨0,counted,[]⟩
    else supervisorRestartProcessLocked io slot true shuttingDown counted

/-! ### Threads -/

/-- Where the heartbeat thread stands: before a slot of `supervisor_reap`, before the flag is
read in `supervisor_check_frozen`, before a slot of the loop there, between reading the pid of
the slot and asking whether it is frozen, or about to restart it. -/
inductive HeartbeatPhase where
  | reap (slot : Slot)
  | checkFlag
  | checkPid (slot : Slot)
  | checkFrozen (slot : Slot)
  | restart (slot : Slot)
  deriving DecidableEq

/-- Where the main thread stands: before `supervisor_shutdown_all`, before a slot of the loop
there, or behind it. -/
inductive MainPhase where
  | running
  | stopping (slot : Slot)
  | returned
  deriving DecidableEq

/-- The roles of the table. -/
def processRole : Slot → ObcRole :=
  ![.fdir,.commands,.compute,.data,.mission,.time]

/-- `supervisor_find_process` -/
def supervisorFindProcess (role : Byte) : Option (Slot) :=
  (List.finRange numProcesses).find? fun slot => (processRole slot).value = role

inductive SupervisorCmd where
  | shutdown | restart
  deriving DecidableEq

/-- The command of a request, if it is one of the two that are known. -/
def SupervisorCmd.ofByte (cmd : Byte) : Option SupervisorCmd :=
  if cmd = 1#8 then some .shutdown else if cmd = 2#8 then some .restart else none

structure Supervision where
  processes : Slot → Process
  shuttingDown : Bool
  heartbeat : HeartbeatPhase
  main : MainPhase
  spawns : List SpawnCall

/-- After `start_all_processes` has returned 0. -/
def Supervision.started (pids : Slot → Pid) : Supervision where
  processes slot := ⟨(pids slot).value,0,[⟨(pids slot).value,false⟩]⟩
  shuttingDown := false
  heartbeat := .reap 0
  main := .running
  spawns := []

/-- A step. `frozen` is the answer of `supervisor_is_frozen`, which depends on the clock. -/
inductive SupervisorAction where
  | heartbeat (io : SectionIo) (frozen : Bool)
  /-- `shutdown_thread` handles a request. -/
  | request (source : ObcRole) (cmd role : Byte) (io : SectionIo)
  | exits (slot : Slot) (pid : ℤ)
  /-- `supervisor_shutdown_all` sets the flag. -/
  | shutdownAll
  | shutdownNext (io : SectionIo)

/-- The state after a locked section of a slot. -/
def Supervision.locked (s : Supervision) (slot : Slot) (done : Section) : Supervision :=
  { s with
    processes := Function.update s.processes slot done.process
    spawns := s.spawns ++ done.spawns }

def Supervision.shutdownProcess (s : Supervision) (io : SectionIo) (slot : Slot) :
    Supervision :=
  let stopped := supervisorShutdownProcessLocked io (s.processes slot)
  s.locked slot ⟨stopped.1,stopped.2,[]⟩

def Supervision.restartProcess (s : Supervision) (io : SectionIo) (slot : Slot) :
    Supervision :=
  s.locked slot
    (supervisorRestartProcessLocked io slot false s.shuttingDown (s.processes slot))

/-- The slot after this one in a loop over the table, or what follows the loop. -/
def nextSlot {α : Type*} (slot : Slot) (next : Slot → α) (after : α) : α :=
  if h : slot.val+1 < numProcesses then next ⟨slot.val+1,h⟩ else after

/-- The next step of the heartbeat thread. -/
def Supervision.heartbeatStep (s : Supervision) (io : SectionIo) (frozen : Bool) : Supervision :=
  match s.heartbeat with
  | .reap slot =>
    { s.locked slot (supervisorReapSlot io slot s.shuttingDown (s.processes slot)) with
      heartbeat := nextSlot slot .reap .checkFlag }
  | .checkFlag => { s with heartbeat := if s.shuttingDown then .reap 0 else .checkPid 0 }
  | .checkPid slot =>
    { s with
      heartbeat :=
        if processRole slot ≠ .fdir ∨ (s.processes slot).pid ≤ 0 then
          nextSlot slot .checkPid (.reap 0)
        else .checkFrozen slot }
  | .checkFrozen slot =>
    { s with heartbeat := if frozen then .restart slot else nextSlot slot .checkPid (.reap 0) }
  | .restart slot =>
    { s.restartProcess io slot with heartbeat := nextSlot slot .checkPid (.reap 0) }

/-- A control request. Only FDIR may ask, and only for a role of the table. -/
def Supervision.handleRequest (s : Supervision) (source : ObcRole) (cmd role : Byte)
    (io : SectionIo) : Supervision :=
  if source ≠ .fdir then s
  else
    match supervisorFindProcess role,SupervisorCmd.ofByte cmd with
    | some slot,some .shutdown => s.shutdownProcess io slot
    | some slot,some .restart => s.restartProcess io slot
    | _,_ => s

def Supervision.step (s : Supervision) : SupervisorAction → Option Supervision
  | .heartbeat io frozen => some (s.heartbeatStep io frozen)
  | .request source cmd role io => some (s.handleRequest source cmd role io)
  | .exits slot pid =>
    some { s with
      processes := Function.update s.processes slot { s.processes slot with
        children := (s.processes slot).children.map fun child =>
          if child.pid = pid then { child with exited := true } else child } }
  | .shutdownAll =>
    match s.main with
    | .running => some { s with shuttingDown := true,main := .stopping 0 }
    | _ => none
  | .shutdownNext io =>
    match s.main with
    | .stopping slot =>
      some { s.shutdownProcess io slot with main := nextSlot slot .stopping .returned }
    | _ => none

end FlightSoftware.Supervisor
