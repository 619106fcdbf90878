import FlightSoftware.Obc.Ipc
import FlightSoftware.Supervisor.Processes

/-!
# Reactions to faults

`fallback.c` of FDIR: the messages that ask Supervisor for a restart and Commands
to relay a shutdown to a board. `rc` is what `IPC_send` returns.
-/

namespace FlightSoftware.Fdir
open Obc Supervisor

/-- `fault_type_t`. -/
inductive FaultType where
  | unresponsive | outOfBounds
  deriving DecidableEq

structure FaultReport where
  role : ObcRole
  faultType : FaultType
  deriving DecidableEq

/-- `supervisor_request_t`, as it is sent to Supervisor. -/
structure SupervisorRequest where
  cmd : Byte
  role : Byte
  deriving DecidableEq

def supervisorCmdRestart : Byte := 2#8

/-- `fallback_request`: the message and the result. -/
def fallbackRequest (cmd : Byte) (role : ObcRole) (rc : ℤ) : SupervisorRequest × ℤ :=
  (⟨cmd,role.value⟩,if rc < 0 then -1 else 0)

/-- `fallback_handle_fault`. -/
def fallbackHandleFault (report : FaultReport) (rc : ℤ) : SupervisorRequest × ℤ :=
  let cmd :=
    match report.faultType with
    | .unresponsive => supervisorCmdRestart
    | .outOfBounds => supervisorCmdRestart
  let (request,result) := fallbackRequest cmd report.role rc
  (request,if result ≠ 0 then 2 else 0)

def cmdShutdown : Byte := 3#8

/-- `command_envelope_t`. -/
structure CommandEnvelope where
  commandId : Byte
  seq : BitVec 32
  deriving DecidableEq

/-- `relay_request_t`, as it is sent to Commands. -/
structure RelayRequest where
  destAddr : Byte
  destPort : Byte
  payload : CommandEnvelope
  deriving DecidableEq

/-- `fallback_shutdown_board`. -/
def fallbackShutdownBoard (boardAddr boardPort : Byte) (rc : ℤ) : RelayRequest × ℤ :=
  (⟨boardAddr,boardPort,⟨cmdShutdown,1#32⟩⟩,if rc < 0 then -1 else 0)

def cmdReset : Byte := 2#8

/-- `fallback_reset_board`. -/
def fallbackResetBoard (boardAddr boardPort : Byte) (rc : ℤ) : RelayRequest × ℤ :=
  (⟨boardAddr,boardPort,⟨cmdReset,1#32⟩⟩,if rc < 0 then -1 else 0)

theorem fallbackHandleFault_eq_zero_iff (report : FaultReport) (rc : ℤ) :
    (fallbackHandleFault report rc).2 = 0 ↔ 0 ≤ rc := by
  simp only [fallbackHandleFault,fallbackRequest]
  split <;> simp <;> omega

end FlightSoftware.Fdir
