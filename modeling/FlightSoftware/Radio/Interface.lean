import FlightSoftware.Ccsds.Profile

/-!
# The radio interface

Packet sizes and counters of `radio.h`, and the three functions of
`radio_queue.c` that count on the receive side. Counters are 32 bits wide and
wrap.
-/

namespace FlightSoftware.Radio

def radioMaxPacketSize : ℕ := 240
def radioFrameOverhead : ℕ := 26
def radioMaxPayload : ℕ := radioMaxPacketSize - radioFrameOverhead

structure RadioStats where
  packetsSent : BitVec 32
  packetsResent : BitVec 32
  packetsRetried : BitVec 32
  packetsDropped : BitVec 32
  queueRejects : BitVec 32
  queueHighWater : BitVec 32
  rxPackets : BitVec 32
  rxInvalid : BitVec 32
  rxBytesSkipped : BitVec 32
  deriving DecidableEq,Repr

def RadioStats.zero : RadioStats := ⟨0,0,0,0,0,0,0,0,0⟩

def radioStatsRxPacket (stats : RadioStats) : RadioStats :=
  { stats with rxPackets := stats.rxPackets + 1#32 }

def radioStatsRxInvalid (stats : RadioStats) : RadioStats :=
  { stats with rxInvalid := stats.rxInvalid + 1#32 }

def radioStatsRxSkipped (stats : RadioStats) (bytes : ℕ) : RadioStats :=
  { stats with rxBytesSkipped := stats.rxBytesSkipped + BitVec.ofNat 32 bytes }

/-- A call the receive side makes to count something. -/
inductive RxCall where
  | packet | invalid | skipped (bytes : ℕ)
  deriving DecidableEq,Repr

def RxCall.apply (stats : RadioStats) : RxCall → RadioStats
  | .packet => radioStatsRxPacket stats
  | .invalid => radioStatsRxInvalid stats
  | .skipped bytes => radioStatsRxSkipped stats bytes

/-- The bytes a call reports as skipped. -/
def RxCall.bytes : RxCall → ℕ
  | .skipped bytes => bytes
  | _ => 0

def skippedBytes (calls : List RxCall) : ℕ := (calls.map RxCall.bytes).sum

@[simp] theorem skippedBytes_nil : skippedBytes [] = 0 := rfl

@[simp] theorem skippedBytes_cons (c : RxCall) (calls : List RxCall) :
    skippedBytes (c :: calls) = c.bytes + skippedBytes calls := by simp [skippedBytes]

@[simp] theorem skippedBytes_append (as bs : List RxCall) :
    skippedBytes (as ++ bs) = skippedBytes as + skippedBytes bs := by simp [skippedBytes]

/-- The counter of skipped bytes is the number reported, modulo `2^32`. -/
theorem rxBytesSkipped_foldl (calls : List RxCall) (stats : RadioStats) :
    (calls.foldl RxCall.apply stats).rxBytesSkipped =
      stats.rxBytesSkipped + BitVec.ofNat 32 (skippedBytes calls) := by
  induction calls generalizing stats with
  | nil => simp
  | cons c calls ih =>
    rw [List.foldl_cons,ih,skippedBytes_cons,BitVec.ofNat_add,← BitVec.add_assoc]
    cases c <;> simp [RxCall.apply,RxCall.bytes,radioStatsRxPacket,radioStatsRxInvalid,
      radioStatsRxSkipped]

end FlightSoftware.Radio
