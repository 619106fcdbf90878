import FlightSoftware.Lib.BigEndian

/-!
# Messages between the OBC processes

What the programs see of `obc_ipc.h`: the roles, and the size of the largest
payload. Arrays in messages are filled from the front. A message carries the role
of its sender, which the receiving side checks before it hands the message on.
-/

namespace FlightSoftware.Obc

def ipcMaxPayload : ℕ := 256

/-- `OBC_Roles_t`. A frame with another role number is dropped by the receiver. -/
inductive ObcRole where
  | commands | compute | data | fdir | mission | supervisor | time | cam
  deriving DecidableEq,Repr

def ObcRole.value : ObcRole → Byte
  | .commands => 1
  | .compute => 2
  | .data => 3
  | .fdir => 4
  | .mission => 5
  | .supervisor => 6
  | .time => 7
  | .cam => 8

/-- The array of a message after a chunk was copied to its front, zero elsewhere. -/
def padTo (size : ℕ) (chunk : List Byte) : List Byte :=
  chunk.take size ++ List.replicate (size - chunk.length) 0#8

theorem padTo_length (size : ℕ) (chunk : List Byte) : (padTo size chunk).length = size := by
  rw [padTo,List.length_append,List.length_take,List.length_replicate]
  omega

theorem take_padTo {size : ℕ} {chunk : List Byte} (h : chunk.length ≤ size) :
    (padTo size chunk).take chunk.length = chunk := by
  rw [padTo,List.take_of_length_le h,List.take_left]

end FlightSoftware.Obc
