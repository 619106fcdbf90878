import FlightSoftware.Bus.CspInterface

/-!
# Frames from a stream

The simulated bus is a stream socket: a read may end anywhere. `receive_one_frame` keeps the
bytes behind the last frame in a leftover buffer, looks for a frame there, and only reads when
there is none. Whatever the reads, the frames come out as they went in.
-/

namespace FlightSoftware.Bus
open BigEndian Run

/-! ### The leftover buffer -/

def leftoverBufSize : ℕ := 2*(4+maxFramePayload)

/-- The bytes that a buffer claims for its first frame. -/
def neededBytes (leftover : List Byte) : ℕ :=
  frameHeaderSize+(readU16Be (leftover.drop 2)).toNat

/-- What the bytes already collected are. -/
inductive Inspection where
  | incomplete
  | malformed
  | frame (frame : Frame) (rest : List Byte)
  deriving DecidableEq

def inspectLeftover (leftover : List Byte) : Inspection :=
  if leftover.length < frameHeaderSize then .incomplete
  else if neededBytes leftover > leftoverBufSize then .malformed
  else if leftover.length < neededBytes leftover then .incomplete
  else
    match frameDeserialize (leftover.take (neededBytes leftover)) with
    | none => .malformed
    | some frame => .frame frame (leftover.drop (neededBytes leftover))

/-- The length is read from the first four bytes alone. -/
theorem neededBytes_append {leftover : List Byte} (h : frameHeaderSize ≤ leftover.length)
    (rest : List Byte) : neededBytes (leftover ++ rest) = neededBytes leftover := by
  have hheader : frameHeaderSize = 4 := rfl
  have hdrop : (leftover ++ rest).drop 2 = leftover.drop 2 ++ rest :=
    List.drop_append_of_le_length (by omega)
  have hlen : (leftover.drop 2).length = leftover.length-2 := List.length_drop
  rw [neededBytes,neededBytes,hdrop]
  congr 2
  exact readU16Be_congr (byteAt_append_left _ _ 0 (by omega))
    (byteAt_append_left _ _ 1 (by omega))

theorem neededBytes_wire {frame : Frame} (h : frame.Fits) :
    neededBytes frame.wire = frame.wire.length := by
  rw [neededBytes,frame.readU16Be_wire,h.wire_length]

/-- A buffer without a frame has room. -/
theorem length_lt_of_incomplete {leftover : List Byte}
    (h : inspectLeftover leftover = .incomplete) : leftover.length < leftoverBufSize := by
  have hheader : frameHeaderSize = 4 := rfl
  have hsize : leftoverBufSize = 536 := rfl
  rw [inspectLeftover] at h
  split at h
  · omega
  split at h
  · cases h
  split at h
  · omega
  · split at h
    · cases h
    · cases h

/-! ### Receiving one frame -/

/-- What one pass of the loop meets after the inspection. A read of `count` bytes is
interrupted `retries` times before, and of 0 bytes when the peer has closed. -/
inductive ReceivePass where
  | clockFailed
  | expired
  | quiet
  | interrupted
  | pollFailed
  | hungUp
  | readFailed (retries : ℕ)
  | read (retries count : ℕ)
  deriving DecidableEq

/-- One call of `receive_one_frame`: whether its first clock reading fails, and the passes. -/
structure ReceiveCall where
  clockFails : Bool
  passes : List ReceivePass
  deriving DecidableEq

/-- One end of a stream: the leftover buffer, and the bytes sent that were not read yet. -/
structure Connection where
  leftover : List Byte
  pending : List Byte
  deriving DecidableEq

inductive ReceiveResult where
  | frame (frame : Frame)
  | timeout
  | error
  deriving DecidableEq

/-- The result, the connection after the call, and the sizes that `read` was called with. -/
structure Reception where
  result : ReceiveResult
  connection : Connection
  asked : List ℕ
  deriving DecidableEq

/-- The loop of `receive_one_frame`; nothing when the passes do not come to a return, or read
from a stream with nothing pending. -/
def receiveLoop (c : Connection) (passes : List ReceivePass) : Option Reception :=
  match inspectLeftover c.leftover with
  | .malformed => some ⟨.error,c,[]⟩
  | .frame frame rest => some ⟨.frame frame,{ c with leftover := rest },[]⟩
  | .incomplete =>
    let available := leftoverBufSize-c.leftover.length
    match passes with
    | [] => none
    | .clockFailed :: _ => some ⟨.error,c,[]⟩
    | .expired :: _ => some ⟨.timeout,c,[]⟩
    | .quiet :: _ => some ⟨.timeout,c,[]⟩
    | .interrupted :: passes => receiveLoop c passes
    | .pollFailed :: _ => some ⟨.error,c,[]⟩
    | .hungUp :: _ => some ⟨.error,c,[]⟩
    | .readFailed retries :: _ => some ⟨.error,c,List.replicate (retries+1) available⟩
    | .read retries count :: passes =>
      let bytesRead := c.pending.take (min count available)
      if 0 < count ∧ c.pending = [] then none
      else if bytesRead = [] then some ⟨.error,c,List.replicate (retries+1) available⟩
      else
        (receiveLoop ⟨c.leftover ++ bytesRead,c.pending.drop (min count available)⟩ passes).map
          fun r => { r with asked := List.replicate (retries+1) available ++ r.asked }

def receiveOneFrame (c : Connection) (call : ReceiveCall) : Option Reception :=
  if call.clockFails then some ⟨.error,c,[]⟩
  else receiveLoop c call.passes

/-- Calls one after another on one connection. -/
def receptions : Connection → List ReceiveCall → Option (List Reception)
  | _,[] => some []
  | c,call :: calls =>
    (receiveOneFrame c call).bind fun r => (receptions r.connection calls).map (r :: ·)

/-- The connection after some receptions. -/
def Connection.after (c : Connection) (rs : List Reception) : Connection :=
  rs.foldl (fun _ r => r.connection) c

/-! ### What a call does to the bytes -/

/-- Nothing fails in the pass, and the peer has not closed. -/
def ReceivePass.Calm : ReceivePass → Prop
  | .expired | .quiet | .interrupted => True
  | .read _ count => 0 < count
  | _ => False

def ReceiveCall.Calm (call : ReceiveCall) : Prop :=
  call.clockFails = false ∧ ∀ pass ∈ call.passes,pass.Calm

instance (pass : ReceivePass) : Decidable pass.Calm :=
  match pass with
  | .expired | .quiet | .interrupted => isTrue trivial
  | .read _ count => inferInstanceAs (Decidable (0 < count))
  | .clockFailed | .pollFailed | .hungUp | .readFailed _ => isFalse id

instance (call : ReceiveCall) : Decidable call.Calm := inferInstanceAs (Decidable (_ ∧ _))

/-- The bytes that the reads of the passes bring. -/
def offered : List ReceivePass → ℕ
  | [] => 0
  | .read _ count :: passes => count+offered passes
  | .interrupted :: passes => offered passes
  | _ :: _ => 0

/-- The connection once the bytes of all reads are in the buffer. -/
def Connection.filled (c : Connection) (passes : List ReceivePass) : Connection :=
  ⟨c.leftover ++ c.pending.take (offered passes),c.pending.drop (offered passes)⟩

theorem Connection.filled_of_offered_eq_zero (c : Connection) {passes : List ReceivePass}
    (h : offered passes = 0) : c.filled passes = c := by
  rw [Connection.filled,h,List.take_zero,List.append_nil,List.drop_zero]

theorem Connection.length_le_filled (c : Connection) (passes : List ReceivePass) :
    c.leftover.length ≤ (c.filled passes).leftover.length := by
  rw [Connection.filled,List.length_append]
  exact Nat.le_add_right _ _

/-- Reads that fit into the buffer, or that take all there is, add up. -/
theorem Connection.filled_read (c : Connection) (retries count available : ℕ)
    (passes : List ReceivePass) (h : count ≤ available ∨ c.pending.length ≤ available) :
    Connection.filled ⟨c.leftover ++ c.pending.take (min count available),
      c.pending.drop (min count available)⟩ passes = c.filled (.read retries count :: passes) := by
  have hoffered : offered (.read retries count :: passes) = count+offered passes := rfl
  by_cases hcount : count ≤ available
  · rw [Connection.filled,Connection.filled,hoffered,min_eq_left hcount,List.append_assoc,
      List.take_add,List.drop_drop]
  · have hlen : c.pending.length ≤ available := h.resolve_left hcount
    have htake : c.pending.take available = c.pending := List.take_of_length_le hlen
    have hdrop : c.pending.drop available = [] := List.drop_of_length_le hlen
    rw [Connection.filled,Connection.filled,hoffered,min_eq_right (by omega)]
    dsimp only
    rw [htake,hdrop,List.take_nil,List.append_nil,List.drop_nil,
      List.take_of_length_le (by omega),List.drop_of_length_le (by omega)]

/-- A read moves bytes from the stream to the buffer. -/
theorem Connection.read_append (c : Connection) (n : ℕ) :
    (c.leftover ++ c.pending.take n) ++ c.pending.drop n = c.leftover ++ c.pending := by
  rw [List.append_assoc,List.take_append_drop]

theorem receiveLoop_malformed {c : Connection} (passes : List ReceivePass)
    (h : inspectLeftover c.leftover = .malformed) :
    receiveLoop c passes = some ⟨.error,c,[]⟩ := by
  rw [receiveLoop.eq_def,h]

theorem receiveLoop_frame {c : Connection} (passes : List ReceivePass) {frame : Frame}
    {rest : List Byte} (h : inspectLeftover c.leftover = .frame frame rest) :
    receiveLoop c passes = some ⟨.frame frame,{ c with leftover := rest },[]⟩ := by
  rw [receiveLoop.eq_def,h]

/-- The call has read `bytes` from the stream, and has taken a frame off them or kept them behind
the leftover ones. -/
structure Reception.From (r : Reception) (c : Connection) (bytes : List Byte) : Prop where
  pending : c.pending = bytes ++ r.connection.pending
  frame : ∀ frame,r.result = .frame frame →
    inspectLeftover (c.leftover ++ bytes) = .frame frame r.connection.leftover
  kept : r.result = .timeout ∨ r.result = .error →
    r.connection.leftover = c.leftover ++ bytes

/-- A call that returns without reading or taking a frame. -/
theorem Reception.From.same (c : Connection) {result : ReceiveResult} (asked : List ℕ)
    (h : result = .timeout ∨ result = .error) : Reception.From ⟨result,c,asked⟩ c [] := by
  refine ⟨rfl,?_,fun _ => (List.append_nil _).symm⟩
  intro frame hframe
  obtain rfl | rfl := h
  · cases hframe
  · cases hframe

/-- Bytes read in a pass come before those of the rest of the call. -/
theorem Reception.From.read {c : Connection} {r : Reception} {rest : List Byte} {n : ℕ}
    (asked : List ℕ) (h : r.From ⟨c.leftover ++ c.pending.take n,c.pending.drop n⟩ rest) :
    Reception.From { r with asked := asked } c (c.pending.take n ++ rest) := by
  have happ : c.leftover ++ (c.pending.take n ++ rest) = c.leftover ++ c.pending.take n ++ rest :=
    (List.append_assoc ..).symm
  constructor
  · rw [List.append_assoc,← h.pending,List.take_append_drop]
  · rw [happ]
    exact h.frame
  · rw [happ]
    exact h.kept

/-- A call that finds its result in the buffer reads nothing. -/
theorem receiveLoop_from_buffer {c : Connection} {passes : List ReceivePass} {r : Reception}
    (h : receiveLoop c passes = some r) (hinspect : inspectLeftover c.leftover ≠ .incomplete) :
    r.From c [] := by
  cases hcase : inspectLeftover c.leftover with
  | incomplete => exact absurd hcase hinspect
  | malformed =>
    rw [receiveLoop_malformed _ hcase] at h
    obtain rfl := Option.some.inj h
    exact .same c [] (.inr rfl)
  | frame frame rest =>
    rw [receiveLoop_frame _ hcase] at h
    obtain rfl := Option.some.inj h
    refine ⟨rfl,?_,?_⟩
    · intro frame' hframe
      obtain rfl := ReceiveResult.frame.inj hframe
      rw [List.append_nil,hcase]
    · rintro (htimeout | herror)
      · exact ReceiveResult.noConfusion htimeout
      · exact ReceiveResult.noConfusion herror

theorem receiveLoop_from {c : Connection} {passes : List ReceivePass} {r : Reception}
    (h : receiveLoop c passes = some r) : ∃ bytes,r.From c bytes := by
  induction passes generalizing c r with
  | nil =>
    by_cases hinspect : inspectLeftover c.leftover = .incomplete
    · rw [receiveLoop.eq_def,hinspect] at h
      cases h
    · exact ⟨[],receiveLoop_from_buffer h hinspect⟩
  | cons pass passes ih =>
    by_cases hinspect : inspectLeftover c.leftover = .incomplete
    · rw [receiveLoop.eq_def,hinspect] at h
      cases pass with
      | interrupted => exact ih h
      | read retries count =>
        dsimp only at h
        split_ifs at h
        · obtain rfl := Option.some.inj h
          exact ⟨[],.same c _ (.inr rfl)⟩
        · obtain ⟨r',hr',rfl⟩ := Option.map_eq_some_iff.mp h
          obtain ⟨bytes,hfrom⟩ := ih hr'
          exact ⟨_,hfrom.read _⟩
      | expired | quiet =>
        obtain rfl := Option.some.inj h
        exact ⟨[],.same c _ (.inl rfl)⟩
      | _ =>
        obtain rfl := Option.some.inj h
        exact ⟨[],.same c _ (.inr rfl)⟩
    · exact ⟨[],receiveLoop_from_buffer h hinspect⟩

theorem inspectLeftover_rest {leftover rest : List Byte} {frame : Frame}
    (h : inspectLeftover leftover = .frame frame rest) : rest.length ≤ leftover.length := by
  rw [inspectLeftover] at h
  split at h
  · cases h
  split at h
  · cases h
  split at h
  · cases h
  · split at h
    · cases h
    · obtain ⟨-,rfl⟩ := Inspection.frame.inj h
      rw [List.length_drop]
      omega

theorem receiveLoop_fits_from_buffer {c : Connection} {passes : List ReceivePass} {r : Reception}
    (hfits : c.leftover.length ≤ leftoverBufSize) (h : receiveLoop c passes = some r)
    (hinspect : inspectLeftover c.leftover ≠ .incomplete) :
    r.connection.leftover.length ≤ leftoverBufSize ∧ ∀ size ∈ r.asked,0 < size := by
  have hnone : ∀ size ∈ ([] : List ℕ),0 < size := fun _ hmem => absurd hmem List.not_mem_nil
  cases hcase : inspectLeftover c.leftover with
  | incomplete => exact absurd hcase hinspect
  | malformed =>
    rw [receiveLoop_malformed _ hcase] at h
    obtain rfl := Option.some.inj h
    exact ⟨hfits,hnone⟩
  | frame frame rest =>
    rw [receiveLoop_frame _ hcase] at h
    obtain rfl := Option.some.inj h
    exact ⟨(inspectLeftover_rest hcase).trans hfits,hnone⟩

/-- The buffer never overflows, and no read asks for nothing. -/
theorem receiveLoop_fits {c : Connection} {passes : List ReceivePass} {r : Reception}
    (hfits : c.leftover.length ≤ leftoverBufSize) (h : receiveLoop c passes = some r) :
    r.connection.leftover.length ≤ leftoverBufSize ∧ ∀ size ∈ r.asked,0 < size := by
  induction passes generalizing c r with
  | nil =>
    by_cases hinspect : inspectLeftover c.leftover = .incomplete
    · rw [receiveLoop.eq_def,hinspect] at h
      cases h
    · exact receiveLoop_fits_from_buffer hfits h hinspect
  | cons pass passes ih =>
    by_cases hinspect : inspectLeftover c.leftover = .incomplete
    · have hroom := length_lt_of_incomplete hinspect
      rw [receiveLoop.eq_def,hinspect] at h
      have hasked : ∀ retries,∀ size ∈ List.replicate (retries+1)
          (leftoverBufSize-c.leftover.length),0 < size := by
        intro retries size hmem
        rw [List.eq_of_mem_replicate hmem]
        omega
      cases pass with
      | interrupted => exact ih hfits h
      | readFailed retries =>
        obtain rfl := Option.some.inj h
        exact ⟨hfits,hasked retries⟩
      | read retries count =>
        dsimp only at h
        split at h
        · cases h
        split at h
        · obtain rfl := Option.some.inj h
          exact ⟨hfits,hasked retries⟩
        · obtain ⟨r',hr',rfl⟩ := Option.map_eq_some_iff.mp h
          obtain ⟨hle,hsizes⟩ := ih (by
            rw [List.length_append,List.length_take]
            omega) hr'
          refine ⟨hle,fun size hmem => ?_⟩
          obtain hmem | hmem := List.mem_append.mp hmem
          · exact hasked retries size hmem
          · exact hsizes size hmem
      | _ =>
        obtain rfl := Option.some.inj h
        exact ⟨hfits,fun _ hmem => absurd hmem List.not_mem_nil⟩
    · exact receiveLoop_fits_from_buffer hfits h hinspect

/-! ### Streams of frames -/

/-- The front of a stream of frames holds the first of them, or too little of it. -/
theorem inspectLeftover_wires {leftover pending : List Byte} {frames : List Frame}
    (hfits : ∀ frame ∈ frames,frame.Fits)
    (h : leftover ++ pending = frames.flatMap Frame.wire) :
    inspectLeftover leftover = .incomplete ∧
        (∀ frame,frames.head? = some frame → leftover.length < frame.wire.length) ∨
      ∃ frame rest,frames.head? = some frame ∧ frame.wire.length ≤ leftover.length ∧
        inspectLeftover leftover = .frame frame.trim rest ∧
        rest ++ pending = frames.tail.flatMap Frame.wire := by
  cases frames with
  | nil =>
    obtain ⟨rfl,-⟩ := List.append_eq_nil_iff.mp h
    exact .inl ⟨rfl,fun _ hnone => absurd hnone.symm (Option.some_ne_none _)⟩
  | cons frame frames =>
    have hframe : frame.Fits := hfits frame (List.mem_cons_self ..)
    have hwire := hframe.wire_length
    have hlen := hframe.length_le
    have hheader : frameHeaderSize = 4 := rfl
    have hmax : maxFramePayload = 264 := rfl
    have hsize : leftoverBufSize = 536 := rfl
    rw [List.flatMap_cons] at h
    by_cases hwhole : frame.wire.length ≤ leftover.length
    · -- The whole first frame is there, and maybe more.
      obtain ⟨rest,hrest⟩ : ∃ rest,leftover = frame.wire ++ rest := by
        refine ⟨leftover.drop frame.wire.length,?_⟩
        have htake := congrArg (List.take frame.wire.length) h
        rw [List.take_append_of_le_length hwhole,List.take_left] at htake
        rw [← htake,List.length_take,min_eq_left hwhole,List.take_append_drop]
      subst hrest
      refine .inr ⟨frame,rest,rfl,hwhole,?_,?_⟩
      · have hneeded : neededBytes (frame.wire ++ rest) = frame.wire.length := by
          rw [neededBytes_append (by omega),neededBytes_wire hframe]
        rw [List.length_append] at hwhole
        rw [inspectLeftover,hneeded,if_neg (by rw [List.length_append]; omega),
          if_neg (by omega),if_neg (by rw [List.length_append]; omega),List.take_left,
          List.drop_left,hframe.deserialize]
      · exact List.append_cancel_left ((List.append_assoc ..).symm.trans h)
    · -- Too few bytes, with or without the length among them.
      refine .inl ⟨?_,?_⟩
      · rw [inspectLeftover]
        by_cases hmin : leftover.length < frameHeaderSize
        · rw [if_pos hmin]
        · have hneeded : neededBytes leftover = frame.wire.length := by
            rw [← neededBytes_append (by omega) pending,h,neededBytes_append (by omega),
              neededBytes_wire hframe]
          rw [if_neg hmin,hneeded,if_neg (by omega),if_pos (by omega)]
      · intro frame' hhead
        obtain rfl := Option.some.inj hhead
        exact Nat.lt_of_not_le hwhole

/-- A full buffer has room for more than the first frame. -/
theorem exists_head_of_full {leftover pending : List Byte} {frames : List Frame}
    (hfits : ∀ frame ∈ frames,frame.Fits)
    (h : leftover ++ pending = frames.flatMap Frame.wire)
    (hfull : leftoverBufSize ≤ leftover.length) :
    ∃ frame,frames.head? = some frame ∧ frame.wire.length ≤ leftoverBufSize := by
  have hheader : frameHeaderSize = 4 := rfl
  have hmax : maxFramePayload = 264 := rfl
  have hsize : leftoverBufSize = 536 := rfl
  cases frames with
  | nil =>
    obtain ⟨rfl,-⟩ := List.append_eq_nil_iff.mp h
    rw [List.length_nil] at hfull
    omega
  | cons frame frames =>
    have hframe : frame.Fits := hfits frame (List.mem_cons_self ..)
    have hwire := hframe.wire_length
    have hlen := hframe.length_le
    exact ⟨frame,rfl,by omega⟩

/-! ### What a call comes to -/

/-- What a call comes to on a stream that goes on with `next`: that frame when the buffer and
the reads bring all of it, and otherwise a timeout with all that was read in the buffer. -/
def Reception.Serves (r : Reception) (c : Connection) (passes : List ReceivePass)
    (next : Option Frame) : Prop :=
  (∃ frame,next = some frame ∧ frame.wire.length ≤ (c.filled passes).leftover.length ∧
    r.result = .frame frame.trim) ∨
  (∀ frame,next = some frame → (c.filled passes).leftover.length < frame.wire.length) ∧
    r.result = .timeout ∧ r.connection = c.filled passes

/-- Where the reads of a call begin does not matter, nor which sizes they asked for. -/
theorem Reception.Serves.of_filled {r : Reception} {c c' : Connection}
    {passes passes' : List ReceivePass} {next : Option Frame} (h : r.Serves c' passes' next)
    (hfilled : c'.filled passes' = c.filled passes) (asked : List ℕ) :
    Reception.Serves { r with asked := asked } c passes next := by
  rw [Reception.Serves,← hfilled]
  exact h

theorem receiveLoop_serves {c : Connection} {passes : List ReceivePass} {r : Reception}
    {frames : List Frame} (hfits : ∀ frame ∈ frames,frame.Fits)
    (hcalm : ∀ pass ∈ passes,pass.Calm)
    (hwires : c.leftover ++ c.pending = frames.flatMap Frame.wire)
    (h : receiveLoop c passes = some r) :
    r.Serves c passes frames.head? ∧ (r.result ≠ .timeout →
      r.connection.leftover ++ r.connection.pending = frames.tail.flatMap Frame.wire) := by
  induction passes generalizing c r with
  | nil =>
    obtain ⟨hincomplete,-⟩ | ⟨frame,rest,hhead,hwhole,hinspect,hrest⟩ :=
      inspectLeftover_wires hfits hwires
    · rw [receiveLoop.eq_def,hincomplete] at h
      cases h
    · rw [receiveLoop_frame _ hinspect] at h
      obtain rfl := Option.some.inj h
      exact ⟨.inl ⟨frame,hhead,hwhole.trans (c.length_le_filled _),rfl⟩,fun _ => hrest⟩
  | cons pass passes ih =>
    obtain ⟨hincomplete,hshort⟩ | ⟨frame,rest,hhead,hwhole,hinspect,hrest⟩ :=
      inspectLeftover_wires hfits hwires
    · have hroom := length_lt_of_incomplete hincomplete
      have hrest : ∀ pass ∈ passes,pass.Calm := fun p hp => hcalm p (List.mem_cons_of_mem _ hp)
      have hpass : pass.Calm := hcalm pass (List.mem_cons_self ..)
      have htimeout : offered (pass :: passes) = 0 → r = ⟨.timeout,c,[]⟩ →
          r.Serves c (pass :: passes) frames.head? ∧ (r.result ≠ .timeout →
            r.connection.leftover ++ r.connection.pending =
              frames.tail.flatMap Frame.wire) := by
        rintro hzero rfl
        have hfilled := c.filled_of_offered_eq_zero hzero
        exact ⟨.inr ⟨hfilled.symm ▸ hshort,rfl,hfilled.symm⟩,fun hne => absurd rfl hne⟩
      rw [receiveLoop.eq_def,hincomplete] at h
      cases pass with
      | expired => exact htimeout rfl (Option.some.inj h).symm
      | quiet => exact htimeout rfl (Option.some.inj h).symm
      | interrupted => exact ih hrest hwires h
      | read retries count =>
        have hcount : 0 < count := hpass
        dsimp only at h
        split_ifs at h with hempty hnil
        · -- A read of nothing is one of a closed stream: there is room, and bytes are pending.
          obtain hzero | hnone := List.take_eq_nil_iff.mp hnil
          · omega
          · exact absurd ⟨hcount,hnone⟩ hempty
        · obtain ⟨r',hr',rfl⟩ := Option.map_eq_some_iff.mp h
          set available := leftoverBufSize-c.leftover.length with havailable
          have hwires' : (c.leftover ++ c.pending.take (min count available)) ++
              c.pending.drop (min count available) = frames.flatMap Frame.wire :=
            (c.read_append _).trans hwires
          obtain ⟨hserves,htail⟩ := ih hrest hwires' hr'
          refine ⟨?_,htail⟩
          by_cases hfit : count ≤ available ∨ c.pending.length ≤ available
          · exact hserves.of_filled (c.filled_read retries count available passes hfit) _
          · -- The buffer is full, and so holds the frame whatever comes behind it.
            obtain ⟨frame,hhead,hwire⟩ := exists_head_of_full hfits hwires' (by
              rw [List.length_append,List.length_take]
              omega)
            have hfull : leftoverBufSize ≤ (Connection.filled ⟨c.leftover ++
                c.pending.take (min count available),c.pending.drop (min count available)⟩
                passes).leftover.length := by
              refine le_trans ?_ (Connection.length_le_filled _ passes)
              rw [List.length_append,List.length_take]
              omega
            obtain ⟨frame',hhead',-,hresult⟩ | ⟨hshort',-,-⟩ := hserves
            · refine .inl ⟨frame',hhead',?_,hresult⟩
              obtain rfl := Option.some.inj (hhead.symm.trans hhead')
              have hoffered : offered (.read retries count :: passes) = count+offered passes :=
                rfl
              rw [Connection.filled,List.length_append,List.length_take,hoffered]
              omega
            · have hlt := hshort' frame hhead
              omega
      | _ => exact absurd hpass id
    · rw [receiveLoop_frame _ hinspect] at h
      obtain rfl := Option.some.inj h
      exact ⟨.inl ⟨frame,hhead,hwhole.trans (c.length_le_filled _),rfl⟩,fun _ => hrest⟩

/-- A calm call comes to a return when there is something to read for each of its reads, and it
has a timeout at the end or a frame to return. -/
theorem receiveLoop_returns {c : Connection} {passes : List ReceivePass} {frames : List Frame}
    (hfits : ∀ frame ∈ frames,frame.Fits) (hcalm : ∀ pass ∈ passes,pass.Calm)
    (hwires : c.leftover ++ c.pending = frames.flatMap Frame.wire)
    (hoffered : offered passes ≤ c.pending.length)
    (hend : .expired ∈ passes ∨ .quiet ∈ passes ∨ ∃ frame,frames.head? = some frame ∧
      frame.wire.length ≤ c.leftover.length+offered passes) :
    ∃ r,receiveLoop c passes = some r := by
  induction passes generalizing c with
  | nil =>
    obtain ⟨hincomplete,hshort⟩ | ⟨frame,rest,hhead,hwhole,hinspect,hrest⟩ :=
      inspectLeftover_wires hfits hwires
    · obtain hmem | hmem | ⟨frame,hhead,hle⟩ := hend
      · exact absurd hmem List.not_mem_nil
      · exact absurd hmem List.not_mem_nil
      · have hlt := hshort frame hhead
        have hzero : offered [] = 0 := rfl
        omega
    · exact ⟨_,receiveLoop_frame _ hinspect⟩
  | cons pass passes ih =>
    obtain ⟨hincomplete,hshort⟩ | ⟨frame,rest,hhead,hwhole,hinspect,hrest⟩ :=
      inspectLeftover_wires hfits hwires
    · have hroom := length_lt_of_incomplete hincomplete
      have hrest : ∀ pass ∈ passes,pass.Calm := fun p hp => hcalm p (List.mem_cons_of_mem _ hp)
      have hpass : pass.Calm := hcalm pass (List.mem_cons_self ..)
      rw [receiveLoop.eq_def,hincomplete]
      cases pass with
      | expired => exact ⟨_,rfl⟩
      | quiet => exact ⟨_,rfl⟩
      | interrupted =>
        have hsame : offered (.interrupted :: passes) = offered passes := rfl
        refine ih hrest hwires hoffered ?_
        simpa [hsame] using hend
      | read retries count =>
        have hcount : 0 < count := hpass
        have hsum : offered (.read retries count :: passes) = count+offered passes := rfl
        rw [hsum] at hoffered hend
        dsimp only
        set available := leftoverBufSize-c.leftover.length with havailable
        have hpending : c.pending ≠ [] := List.ne_nil_of_length_pos (by omega)
        have hbytes : c.pending.take (min count available) ≠ [] := by
          rw [Ne,List.take_eq_nil_iff]
          rintro (hzero | hnone)
          · omega
          · exact hpending hnone
        rw [if_neg fun hempty => hpending hempty.2,if_neg hbytes]
        have hwires' : (c.leftover ++ c.pending.take (min count available)) ++
            c.pending.drop (min count available) = frames.flatMap Frame.wire :=
          (c.read_append _).trans hwires
        have hleft : offered passes ≤ (c.pending.drop (min count available)).length := by
          rw [List.length_drop]
          omega
        have hnext : .expired ∈ passes ∨ .quiet ∈ passes ∨ ∃ frame,frames.head? = some frame ∧
            frame.wire.length ≤ (c.leftover ++ c.pending.take (min count available)).length+
              offered passes := by
          rw [List.length_append,List.length_take]
          by_cases hfit : count ≤ available
          · rw [min_eq_left hfit,min_eq_left (by omega),Nat.add_assoc]
            simpa using hend
          · obtain ⟨frame,hhead,hwire⟩ := exists_head_of_full hfits hwires' (by
              rw [List.length_append,List.length_take]
              omega)
            exact .inr (.inr ⟨frame,hhead,by omega⟩)
        obtain ⟨r,hr⟩ := ih (c := ⟨_,_⟩) hrest hwires' hleft hnext
        exact ⟨_,Option.map_eq_some_iff.mpr ⟨r,hr,rfl⟩⟩
      | _ => exact absurd hpass id
    · exact ⟨_,receiveLoop_frame _ hinspect⟩

/-- The results that are not timeouts. -/
def delivered (rs : List Reception) : List ReceiveResult :=
  (rs.map Reception.result).filter (· ≠ .timeout)

theorem delivered_cons_timeout {r : Reception} (rs : List Reception) (h : r.result = .timeout) :
    delivered (r :: rs) = delivered rs := by
  rw [delivered,List.map_cons,h,List.filter_cons_of_neg (by decide)]
  rfl

theorem delivered_cons_frame {r : Reception} (rs : List Reception) {frame : Frame}
    (h : r.result = .frame frame) : delivered (r :: rs) = .frame frame :: delivered rs := by
  have hne : decide (ReceiveResult.frame frame ≠ .timeout) = true :=
    decide_eq_true fun h => ReceiveResult.noConfusion h
  rw [delivered,List.map_cons,h,List.filter_cons,if_pos hne]
  rfl

theorem delivered_concat_timeout (rs : List Reception) {r : Reception} (h : r.result = .timeout) :
    delivered (rs ++ [r]) = delivered rs := by
  have hnone : delivered [r] = [] := delivered_cons_timeout [] h
  rw [delivered,List.map_append,List.filter_append]
  exact (congrArg (delivered rs ++ ·) hnone).trans (List.append_nil _)

theorem Connection.after_concat (c : Connection) (rs : List Reception) (r : Reception) :
    c.after (rs ++ [r]) = r.connection := by
  rw [Connection.after,List.foldl_append]
  rfl

/-- A calm call on a stream of frames, and the frames that are left after it. -/
theorem receiveOneFrame_serves {c : Connection} {call : ReceiveCall} {r : Reception}
    {frames : List Frame} (hfits : ∀ frame ∈ frames,frame.Fits) (hcalm : call.Calm)
    (hwires : c.leftover ++ c.pending = frames.flatMap Frame.wire)
    (h : receiveOneFrame c call = some r) :
    r.Serves c call.passes frames.head? ∧ (r.result = .timeout ∧
        r.connection.leftover ++ r.connection.pending = frames.flatMap Frame.wire ∨
      ∃ frame,frames = frame :: frames.tail ∧ r.result = .frame frame.trim ∧
        r.connection.leftover ++ r.connection.pending = frames.tail.flatMap Frame.wire) := by
  rw [receiveOneFrame,hcalm.1] at h
  obtain ⟨hserves,htail⟩ := receiveLoop_serves hfits hcalm.2 hwires h
  refine ⟨hserves,?_⟩
  obtain ⟨frame,hhead,-,hresult⟩ | ⟨-,hresult,hfilled⟩ := hserves
  · refine .inr ⟨frame,(List.cons_head?_tail hhead).symm,hresult,htail ?_⟩
    rw [hresult]
    exact fun h => ReceiveResult.noConfusion h
  · refine .inl ⟨hresult,?_⟩
    rw [hfilled,Connection.filled,List.append_assoc,List.take_append_drop,hwires]

theorem receiveOneFrame_fits {c : Connection} {call : ReceiveCall} {r : Reception}
    (hfits : c.leftover.length ≤ leftoverBufSize) (h : receiveOneFrame c call = some r) :
    r.connection.leftover.length ≤ leftoverBufSize ∧ ∀ size ∈ r.asked,0 < size := by
  rw [receiveOneFrame] at h
  split at h
  · obtain rfl := Option.some.inj h
    exact ⟨hfits,fun _ hmem => absurd hmem List.not_mem_nil⟩
  · exact receiveLoop_fits hfits h

theorem receptions_cons_eq_some {c : Connection} {call : ReceiveCall} {calls : List ReceiveCall}
    {rs : List Reception} (h : receptions c (call :: calls) = some rs) :
    ∃ r rest,receiveOneFrame c call = some r ∧ receptions r.connection calls = some rest ∧
      rs = r :: rest := by
  rw [receptions,Option.bind_eq_some_iff] at h
  obtain ⟨r,hr,hmap⟩ := h
  obtain ⟨rest,hrest,rfl⟩ := Option.map_eq_some_iff.mp hmap
  exact ⟨r,rest,hr,hrest,rfl⟩

/-- What holds of every call alone, calm or not. -/
theorem receptions_fit {c : Connection} {calls : List ReceiveCall} {rs : List Reception}
    (hfits : c.leftover.length ≤ leftoverBufSize) (h : receptions c calls = some rs) :
    ∀ r ∈ rs,r.connection.leftover.length ≤ leftoverBufSize ∧ ∀ size ∈ r.asked,0 < size := by
  induction calls generalizing c rs with
  | nil =>
    obtain rfl := Option.some.inj h
    exact fun _ hmem => absurd hmem List.not_mem_nil
  | cons call calls ih =>
    obtain ⟨r,rest,hr,hrest,rfl⟩ := receptions_cons_eq_some h
    have hfit := receiveOneFrame_fits hfits hr
    intro r' hmem
    obtain rfl | hmem := List.mem_cons.mp hmem
    · exact hfit
    · exact ih hfit.1 hrest r' hmem

/-- The frames come out in order, and each call serves the first of those that did not yet. -/
theorem receptions_serve {c : Connection} {calls : List ReceiveCall} {rs : List Reception}
    {frames : List Frame} (hfits : ∀ frame ∈ frames,frame.Fits)
    (hcalm : ∀ call ∈ calls,call.Calm)
    (hwires : c.leftover ++ c.pending = frames.flatMap Frame.wire)
    (h : receptions c calls = some rs) :
    (∃ k ≤ frames.length,
      delivered rs = (frames.take k).map (fun frame => .frame frame.trim) ∧
      (c.after rs).leftover ++ (c.after rs).pending = (frames.drop k).flatMap Frame.wire) ∧
    ∀ pre r post,rs = pre ++ r :: post → ∃ call,calls[pre.length]? = some call ∧
      r.Serves (c.after pre) call.passes frames[(delivered pre).length]? := by
  induction calls generalizing c rs frames with
  | nil =>
    obtain rfl := Option.some.inj h
    refine ⟨⟨0,Nat.zero_le _,rfl,hwires⟩,?_⟩
    intro pre r post hrs
    exact absurd hrs.symm (List.append_ne_nil_of_right_ne_nil _ (List.cons_ne_nil _ _))
  | cons call calls ih =>
    obtain ⟨r,rest,hr,hrest,rfl⟩ := receptions_cons_eq_some h
    have hcalls : ∀ call ∈ calls,call.Calm := fun b hb => hcalm b (List.mem_cons_of_mem _ hb)
    obtain ⟨hserves,hleft⟩ :=
      receiveOneFrame_serves hfits (hcalm call (List.mem_cons_self ..)) hwires hr
    rw [List.head?_eq_getElem?] at hserves
    obtain ⟨htimeout,hwires'⟩ | ⟨frame,hframes,hframe,hwires'⟩ := hleft
    · obtain ⟨⟨k,hk,hresults,hbytes⟩,hall⟩ := ih hfits hcalls hwires' hrest
      refine ⟨⟨k,hk,?_,hbytes⟩,?_⟩
      · rw [delivered_cons_timeout _ htimeout,hresults]
      · intro pre r' post hrs
        cases pre with
        | nil =>
          obtain ⟨rfl,-⟩ := List.cons.inj hrs
          exact ⟨call,rfl,hserves⟩
        | cons r₀ pre =>
          obtain ⟨rfl,hrs'⟩ := List.cons.inj hrs
          rw [delivered_cons_timeout _ htimeout]
          exact hall pre r' post hrs'
    · have hmem : ∀ f ∈ frames.tail,f ∈ frames := fun f hf => List.mem_of_mem_tail hf
      obtain ⟨⟨k,hk,hresults,hbytes⟩,hall⟩ :=
        ih (fun f hf => hfits f (hmem f hf)) hcalls hwires' hrest
      have hlen : frames.length = frames.tail.length+1 := congrArg List.length hframes
      refine ⟨⟨k+1,by omega,?_,?_⟩,?_⟩
      · rw [delivered_cons_frame _ hframe,hresults,hframes]
        rfl
      · rw [hframes]
        exact hbytes
      · intro pre r' post hrs
        cases pre with
        | nil =>
          obtain ⟨rfl,-⟩ := List.cons.inj hrs
          exact ⟨call,rfl,hserves⟩
        | cons r₀ pre =>
          obtain ⟨rfl,hrs'⟩ := List.cons.inj hrs
          rw [delivered_cons_frame _ hframe,hframes]
          exact hall pre r' post hrs'

/-- The bytes that the frames are sent as. -/
def streamOf (frames : List Frame) : List Byte :=
  frames.flatMap fun frame => (frameSerialize frame maxFrameWireSize).getD []

theorem streamOf_eq {frames : List Frame} (hfits : ∀ frame ∈ frames,frame.Fits) :
    streamOf frames = frames.flatMap Frame.wire := by
  rw [streamOf]
  refine List.flatMap_congr fun frame hmem => ?_
  rw [(hfits frame hmem).serialize]
  rfl

/-- Frames sent as a stream come out one by one as they went in, however the reads split the
stream and wherever calls time out or are interrupted: each call returns the next frame once its
last byte is there, and comes to a return when it has that frame or a timeout. So all frames are
out once a call times out with nothing left to read. Timeouts lose no byte, the buffer never
overflows, and no read asks for nothing. -/
theorem stream_reassembled (frames : List Frame) (hfits : ∀ frame ∈ frames,frame.Fits)
    (calls : List ReceiveCall) (hcalm : ∀ call ∈ calls,call.Calm) (rs : List Reception)
    (hrs : receptions ⟨[],streamOf frames⟩ calls = some rs) :
    (∃ k ≤ frames.length,
      delivered rs = (frames.take k).map (fun frame => .frame frame.trim) ∧
      (Connection.after ⟨[],streamOf frames⟩ rs).leftover ++
        (Connection.after ⟨[],streamOf frames⟩ rs).pending = streamOf (frames.drop k) ∧
      ∀ pre r,rs = pre ++ [r] → r.result = .timeout → r.connection.pending = [] →
        k = frames.length) ∧
    (∀ pre r post,rs = pre ++ r :: post →
      r.connection.leftover.length ≤ leftoverBufSize ∧ (∀ size ∈ r.asked,0 < size) ∧
      ∃ call,calls[pre.length]? = some call ∧
        r.Serves (Connection.after ⟨[],streamOf frames⟩ pre) call.passes
          frames[(delivered pre).length]?) ∧
    ∀ call : ReceiveCall,call.Calm →
      offered call.passes ≤ (Connection.after ⟨[],streamOf frames⟩ rs).pending.length →
      (.expired ∈ call.passes ∨ .quiet ∈ call.passes ∨
        ∃ frame,frames[(delivered rs).length]? = some frame ∧ frame.wire.length ≤
          (Connection.after ⟨[],streamOf frames⟩ rs).leftover.length+offered call.passes) →
      ∃ r,receiveOneFrame (Connection.after ⟨[],streamOf frames⟩ rs) call = some r := by
  obtain ⟨⟨k,hk,hresults,hbytes⟩,hall⟩ := receptions_serve (c := ⟨[],streamOf frames⟩) hfits
    hcalm (streamOf_eq hfits) hrs
  have hcount : (delivered rs).length = k := by
    rw [hresults,List.length_map,List.length_take,min_eq_left hk]
  have hdrop : ∀ frame ∈ frames.drop k,frame.Fits :=
    fun frame hmem => hfits frame (List.mem_of_mem_drop hmem)
  have hhead : (frames.drop k).head? = frames[k]? := List.head?_drop
  refine ⟨⟨k,hk,hresults,?_,?_⟩,?_,?_⟩
  · rw [hbytes,streamOf_eq hdrop]
  · intro pre r hsplit htimeout hpending
    obtain ⟨call,-,⟨frame,-,-,hframe⟩ | ⟨hshort,-,hfilled⟩⟩ := hall pre r [] hsplit
    · rw [htimeout] at hframe
      cases hframe
    · rw [hsplit,Connection.after_concat,hpending,List.append_nil] at hbytes
      rw [← hfilled,← delivered_concat_timeout pre htimeout,← hsplit,hcount,hbytes] at hshort
      refine le_antisymm hk (Nat.le_of_not_lt fun hlt => ?_)
      -- The frame that is missing would be in the buffer.
      have hlong := hshort frames[k] (List.getElem?_eq_getElem hlt)
      rw [List.drop_eq_getElem_cons hlt,List.flatMap_cons,List.length_append] at hlong
      omega
  · intro pre r post hsplit
    have hmem : r ∈ rs := by
      rw [hsplit]
      exact List.mem_append_right _ (List.mem_cons_self ..)
    have hfit := receptions_fit (Nat.zero_le _) hrs r hmem
    exact ⟨hfit.1,hfit.2,hall pre r post hsplit⟩
  · intro call hcall hoffered hend
    rw [hcount,← hhead] at hend
    rw [receiveOneFrame,hcall.1]
    exact receiveLoop_returns hdrop hcall.2 hbytes hoffered hend

/-- Two frames in reads of 3, 6 and 2 bytes, with a timeout and an interruption. -/
theorem two_frames_reassembled :
    let frames : List Frame := [⟨1#8,2#8,3#16,[7#8,8#8,9#8]⟩,⟨1#8,3#8,0#16,[]⟩]
    let calls : List ReceiveCall := [⟨false,[.read 0 3,.quiet]⟩,⟨false,[.interrupted,.read 1 6]⟩,
      ⟨false,[.read 0 2]⟩,⟨false,[.expired]⟩]
    ∃ rs,receptions ⟨[],streamOf frames⟩ calls = some rs ∧
      delivered rs = [.frame ⟨1#8,2#8,3#16,[7#8,8#8,9#8]⟩,.frame ⟨1#8,3#8,0#16,[]⟩] := by
  intro frames calls
  have hlast : ((receptions ⟨[],streamOf frames⟩ calls).any fun rs => rs.getLast?.any fun r =>
      decide (r.result = .timeout ∧ r.connection.pending = [])) = true := by decide +kernel
  obtain ⟨rs,hrs,hany⟩ := (Option.any_eq_true _ _).mp hlast
  obtain ⟨r,hr,htimeout⟩ := (Option.any_eq_true _ _).mp hany
  obtain ⟨hresult,hpending⟩ := of_decide_eq_true htimeout
  obtain ⟨pre,hpre⟩ := List.getLast?_eq_some_iff.mp hr
  have hfits : ∀ frame ∈ frames,frame.Fits := by
    simp only [frames,List.forall_mem_cons]
    exact ⟨⟨by decide,by decide⟩,⟨by decide,by decide⟩,fun _ h => absurd h List.not_mem_nil⟩
  have hcalm : ∀ call ∈ calls,call.Calm := by decide
  obtain ⟨⟨k,-,hresults,-,hk⟩,-⟩ := stream_reassembled frames hfits calls hcalm rs hrs
  -- The last call finds nothing more, so both frames are out.
  rw [hk pre r hpre hresult hpending] at hresults
  exact ⟨rs,hrs,hresults⟩

end FlightSoftware.Bus
