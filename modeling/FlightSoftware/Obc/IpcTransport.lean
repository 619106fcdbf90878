import FlightSoftware.Obc.Ipc
import FlightSoftware.Lib.Run

/-!
# The sockets between the OBC processes

`obc_ipc.c`: every message has a connection of its own to the socket of its receiver, over
which it goes as one frame. Senders write as much of their frames at a time as the system
takes, and may die in the middle of one; the receiver takes the connections in the order in
which they were made and reads from one until the frame is complete or something fails.
-/

namespace FlightSoftware.Obc
open BigEndian Run

/-- `path_for_role` -/
def pathForRole : ObcRole → Option String
  | .commands => some "/tmp/obc_ipc_commands.sock"
  | .compute => some "/tmp/obc_ipc_compute.sock"
  | .data => some "/tmp/obc_ipc_data.sock"
  | .fdir => some "/tmp/obc_ipc_fdir.sock"
  | .mission => some "/tmp/obc_ipc_mission.sock"
  | .supervisor => some "/tmp/obc_ipc_supervisor.sock"
  | .time => some "/tmp/obc_ipc_time.sock"
  | .cam => none

/-- `role_is_valid` -/
def roleIsValid (v : ℕ) : Bool := 1 ≤ v ∧ v < 9

theorem roleIsValid_value (role : ObcRole) : roleIsValid role.value.toNat = true := by
  cases role <;> rfl

structure IpcFrame where
  dest : Byte
  src : Byte
  length : BitVec 16
  payload : List Byte

/-- `ipc_frame_serialize` -/
def ipcFrameSerialize (f : IpcFrame) (outSize : ℕ) : Option (List Byte) :=
  if outSize < 4 + f.length.toNat then none
  else some (f.dest :: f.src :: writeU16Be f.length ++ f.payload.take f.length.toNat)

/-- What `IPC_send` writes to the socket of the other role, unless it refuses to. -/
def ipcSendWire (myRole roleDest : ObcRole) (data : List Byte) : Option (List Byte) :=
  if ipcMaxPayload < data.length then none
  else if pathForRole roleDest = none then none
  else ipcFrameSerialize ⟨roleDest.value,myRole.value,BitVec.ofNat 16 data.length,
    padTo ipcMaxPayload data⟩ (4 + ipcMaxPayload)

theorem ipcSendWire_eq_some {myRole roleDest : ObcRole} {data wire : List Byte}
    (h : ipcSendWire myRole roleDest data = some wire) :
    data.length ≤ ipcMaxPayload ∧ wire =
      roleDest.value :: myRole.value :: writeU16Be (BitVec.ofNat 16 data.length) ++ data := by
  rw [ipcSendWire] at h
  by_cases hlong : ipcMaxPayload < data.length
  · rw [if_pos hlong] at h
    cases h
  · have hmax : ipcMaxPayload = 256 := rfl
    have hlen : (BitVec.ofNat 16 data.length).toNat = data.length := by
      rw [BitVec.toNat_ofNat]
      omega
    rw [if_neg hlong] at h
    by_cases hpath : pathForRole roleDest = none
    · rw [if_pos hpath] at h
      cases h
    · rw [if_neg hpath,ipcFrameSerialize,hlen,if_neg (by omega),
        take_padTo (not_lt.mp hlong)] at h
      exact ⟨not_lt.mp hlong,(Option.some.inj h).symm⟩

theorem ipcSendWire_of_le {myRole roleDest : ObcRole} {data : List Byte}
    (hdata : data.length ≤ ipcMaxPayload) (hpath : pathForRole roleDest ≠ none) :
    ipcSendWire myRole roleDest data = some
      (roleDest.value :: myRole.value :: writeU16Be (BitVec.ofNat 16 data.length) ++ data) := by
  have hmax : ipcMaxPayload = 256 := rfl
  have hlen : (BitVec.ofNat 16 data.length).toNat = data.length := by
    rw [BitVec.toNat_ofNat]
    omega
  rw [ipcSendWire,if_neg (not_lt.mpr hdata),if_neg hpath,ipcFrameSerialize,hlen,
    if_neg (by omega),take_padTo hdata]

/-- What `IPC_receive_timeout` gives its caller with a message. -/
structure IpcReceived where
  src : Byte
  payload : List Byte
  deriving DecidableEq

/-- `payload_len`, once the header has been read. -/
def payloadLen (got : List Byte) : ℕ := (readU16Be (got.drop 2)).toNat

/-- How many bytes of the frame the calls of `read_full` have asked for so far. -/
def wanted (got : List Byte) : ℕ := if got.length < 4 then 4 else 4 + payloadLen got

/-- The result of `IPC_receive_timeout` after these bytes, unless it goes on reading. The inner
`none` is an error. -/
def ipcResult (maxLength : ℕ) (got : List Byte) : Option (Option IpcReceived) :=
  if got.length < 4 then none
  else if maxLength < payloadLen got then some none
  else if got.length < 4 + payloadLen got then none
  else if roleIsValid (byteAt got 1).toNat then some (some ⟨byteAt got 1,got.drop 4⟩)
  else some none

/-! ### Connections -/

/-- A call of `IPC_send` that does not refuse its message. -/
structure Outgoing where
  src : ObcRole
  dest : ObcRole
  data : List Byte
  wire : List Byte
  serialized : ipcSendWire src dest data = some wire

/-- The message as the receiver should get it. -/
def Outgoing.message (call : Outgoing) : IpcReceived := ⟨call.src.value,call.data⟩

structure Connection where
  call : Outgoing
  written : ℕ
  closed : Bool

/-- What `IPC_send` returns, once it has closed the connection. It has left its loop with all
bytes written, or because of an error. -/
def Connection.returned (c : Connection) : Option ℤ :=
  if c.closed = false then none
  else if c.written = c.call.wire.length then some c.call.data.length
  else some (-1)

/-- A call of `IPC_receive_timeout` that has accepted a connection. -/
structure Reading where
  maxLength : ℕ
  got : List Byte

/-- One receiver and all who send to it. Connections are in the order in which they were made,
which is the order in which they are accepted; `results` has what became of them. -/
structure Transport where
  connections : List Connection
  reading : Option Reading
  results : List (Option IpcReceived)

def Transport.initial : Transport := ⟨[],none,[]⟩

/-- What can happen. Interrupted system calls are made again, and a poll that runs out does not
touch a connection, so neither is a step of its own. -/
inductive IpcEvent where
  | connect (call : Outgoing)
  | write (i k : ℕ)
  | close (i : ℕ)
  | accept (maxLength : ℕ)
  | read (k : ℕ)
  | readFails
  | restart

/-- The connection that is being read, or accepted next. -/
def Transport.current (s : Transport) : Option Connection := s.connections[s.results.length]?

def Transport.finish (s : Transport) (result : Option IpcReceived) : Transport :=
  { s with reading := none, results := s.results ++ [result] }

def Transport.readMore (s : Transport) (r : Reading) : Transport :=
  match ipcResult r.maxLength r.got with
  | none => { s with reading := some r }
  | some result => s.finish result

def Transport.step (s : Transport) : IpcEvent → Option Transport
  | .connect call => some { s with connections := s.connections ++ [⟨call,0,false⟩] }
  | .write i k =>
    match s.connections[i]? with
    | none => none
    | some c =>
      if c.closed ∨ c.call.wire.length < c.written + k then none
      else some { s with connections := s.connections.set i { c with written := c.written + k } }
  | .close i =>
    match s.connections[i]? with
    | none => none
    | some c =>
      if c.closed then none
      else some { s with connections := s.connections.set i { c with closed := true } }
  | .accept maxLength =>
    if s.reading.isSome ∨ s.current = none then none
    else some { s with reading := some ⟨maxLength,[]⟩ }
  | .read k =>
    match s.reading,s.current with
    | some r,some c =>
      if 0 < k ∧ r.got.length + k ≤ wanted r.got ∧ r.got.length + k ≤ c.written then
        some (s.readMore ⟨r.maxLength,r.got ++ (c.call.wire.drop r.got.length).take k⟩)
      else none
    | _,_ => none
  -- The peer is gone or silent for too long, or the system reports an error.
  | .readFails => if s.reading.isSome then some (s.finish none) else none
  -- A new process unlinks the socket and makes a new one.
  | .restart =>
    some { s with
      reading := none
      results := s.results ++ List.replicate (s.connections.length - s.results.length) none }

/-! ### What a step leaves -/

/-- Except for new connections, the calls stay. -/
theorem Transport.calls_of_step {ipc ipc' : Transport} {event : IpcEvent}
    (h : ipc.step event = some ipc') (hevent : ∀ call,event ≠ .connect call) :
    ipc'.connections.map Connection.call = ipc.connections.map Connection.call := by
  have hset {i : ℕ} {c c' : Connection} (hc : ipc.connections[i]? = some c)
      (hcall : c'.call = c.call) :
      (ipc.connections.set i c').map Connection.call = ipc.connections.map Connection.call := by
    have hcalls : (ipc.connections.map Connection.call)[i]? = some c.call := by
      rw [List.getElem?_map,hc]
      rfl
    obtain ⟨_,hget⟩ := List.getElem?_eq_some_iff.mp hcalls
    rw [List.map_set,hcall,← hget]
    exact List.set_getElem_self _
  cases event with
  | connect call => exact absurd rfl (hevent call)
  | write i k | close i =>
    rw [Transport.step] at h
    cases hc : ipc.connections[i]? with
    | none =>
      rw [hc] at h
      cases h
    | some c =>
      rw [hc] at h
      dsimp only at h
      split_ifs at h
      obtain rfl := Option.some.inj h
      exact hset hc rfl
  | accept maxLength =>
    rw [Transport.step] at h
    split_ifs at h
    obtain rfl := Option.some.inj h
    rfl
  | read k =>
    rw [Transport.step] at h
    split at h
    · split_ifs at h
      obtain rfl := Option.some.inj h
      rw [Transport.readMore]
      split <;> rfl
    · cases h
  | readFails =>
    rw [Transport.step] at h
    split_ifs at h
    obtain rfl := Option.some.inj h
    rfl
  | restart =>
    obtain rfl := Option.some.inj h
    rfl

theorem Transport.results_le_of_step {ipc ipc' : Transport} {event : IpcEvent}
    (h : ipc.step event = some ipc') : ipc.results.length ≤ ipc'.results.length := by
  cases event with
  | connect call | restart =>
    obtain rfl := Option.some.inj h
    simp
  | write i k | close i =>
    rw [Transport.step] at h
    split at h
    · cases h
    · split_ifs at h
      obtain rfl := Option.some.inj h
      exact le_rfl
  | accept maxLength =>
    rw [Transport.step] at h
    split_ifs at h
    obtain rfl := Option.some.inj h
    exact le_rfl
  | read k =>
    rw [Transport.step] at h
    split at h
    · split_ifs at h
      obtain rfl := Option.some.inj h
      rw [Transport.readMore]
      split
      · exact le_rfl
      · simp [Transport.finish]
    · cases h
  | readFails =>
    rw [Transport.step] at h
    split_ifs at h
    obtain rfl := Option.some.inj h
    simp [Transport.finish]

/-! ### What is read off a frame -/

section

variable {call : Outgoing} {got : List Byte} {n : ℕ}

theorem Outgoing.data_length_le (call : Outgoing) : call.data.length ≤ ipcMaxPayload :=
  (ipcSendWire_eq_some call.serialized).1

theorem Outgoing.wire_eq (call : Outgoing) :
    call.wire = call.dest.value :: call.src.value ::
      writeU16Be (BitVec.ofNat 16 call.data.length) ++ call.data :=
  (ipcSendWire_eq_some call.serialized).2

theorem Outgoing.wire_length (call : Outgoing) : call.wire.length = 4 + call.data.length := by
  rw [call.wire_eq,List.length_append,List.length_cons,List.length_cons,writeU16Be_length]

/-- Four bytes tell the length of the payload. -/
theorem payloadLen_take (h : 4 ≤ n) : payloadLen (call.wire.take n) = call.data.length := by
  have hmax : ipcMaxPayload = 256 := rfl
  have hlen := call.data_length_le
  obtain ⟨k,rfl⟩ := Nat.exists_eq_add_of_le h
  have hdrop : (call.wire.take (4+k)).drop 2 =
      writeU16Be (BitVec.ofNat 16 call.data.length) ++ call.data.take k := by
    rw [call.wire_eq,List.drop_take,show 4 + k - 2 = 2 + k by omega]
    show List.take ((writeU16Be (BitVec.ofNat 16 call.data.length)).length + k) (_ ++ _) = _
    exact List.take_length_add_append k
  rw [payloadLen,hdrop,readU16Be_write,BitVec.toNat_ofNat]
  omega

theorem byteAt_take_wire (h : 4 ≤ n) : byteAt (call.wire.take n) 1 = call.src.value := by
  rw [byteAt_take _ _ _ (by omega),call.wire_eq]
  rfl

theorem wanted_take_le : wanted (call.wire.take n) ≤ call.wire.length := by
  rw [wanted]
  split_ifs with hshort
  · rw [call.wire_length]
    omega
  · rw [List.length_take,call.wire_length] at hshort
    rw [payloadLen_take (by omega),call.wire_length]

/-- Once the header is there, a call gives up for want of room, or goes on to the end of the
frame. -/
theorem ipcResult_take (maxLength : ℕ) (h : 4 ≤ n) (hn : n ≤ call.wire.length) :
    ipcResult maxLength (call.wire.take n) =
      if maxLength < call.data.length then some none
      else if n < call.wire.length then none
      else some (some call.message) := by
  have hlen : (call.wire.take n).length = n := List.length_take_of_le hn
  rw [ipcResult,hlen,if_neg (by omega),payloadLen_take h,byteAt_take_wire h,roleIsValid_value,
    if_pos rfl,← call.wire_length]
  by_cases hroom : maxLength < call.data.length
  · rw [if_pos hroom,if_pos hroom]
  · rw [if_neg hroom,if_neg hroom]
    by_cases hpart : n < call.wire.length
    · rw [if_pos hpart,if_pos hpart]
    · rw [if_neg hpart,if_neg hpart,List.take_of_length_le (not_lt.mp hpart),call.wire_eq]
      rfl

theorem ipcResult_take_short (maxLength : ℕ) (h : n < 4) :
    ipcResult maxLength (call.wire.take n) = none := by
  have hlen := List.length_take_le n call.wire
  rw [ipcResult,if_pos (by omega)]

/-- A call that ends well has got the message of the frame, and the frame is complete. -/
theorem message_of_ipcResult {maxLength : ℕ} {m : IpcReceived} (hn : n ≤ call.wire.length)
    (h : ipcResult maxLength (call.wire.take n) = some (some m)) :
    n = call.wire.length ∧ m = call.message := by
  by_cases hshort : n < 4
  · rw [ipcResult_take_short _ hshort] at h
    cases h
  · rw [ipcResult_take _ (by omega) hn] at h
    by_cases hroom : maxLength < call.data.length
    · rw [if_pos hroom] at h
      cases h
    · rw [if_neg hroom] at h
      by_cases hpart : n < call.wire.length
      · rw [if_pos hpart] at h
        cases h
      · rw [if_neg hpart] at h
        exact ⟨hn.antisymm (not_lt.mp hpart),(Option.some.inj (Option.some.inj h)).symm⟩

/-- With room for the payload a call only ends well. -/
theorem ipcResult_ne_error {maxLength : ℕ} (hmax : call.data.length ≤ maxLength)
    (hn : n ≤ call.wire.length) : ipcResult maxLength (call.wire.take n) ≠ some none := by
  by_cases hshort : n < 4
  · rw [ipcResult_take_short _ hshort]
    exact Option.some_ne_none _ |>.symm
  · rw [ipcResult_take _ (by omega) hn,if_neg (not_lt.mpr hmax)]
    by_cases hpart : n < call.wire.length
    · rw [if_pos hpart]
      exact Option.some_ne_none _ |>.symm
    · rw [if_neg hpart]
      intro h
      cases h

/-- A call that goes on reading waits for bytes of the frame. -/
theorem length_lt_wanted {maxLength : ℕ} (h : ipcResult maxLength got = none) :
    got.length < wanted got := by
  rw [ipcResult] at h
  rw [wanted]
  split_ifs at h ⊢ with hshort hlong hpart
  · exact hshort
  · exact hpart

end

/-! ### No message comes that was not sent -/

/-- What is delivered is the message of the connection, all of which was written; what has been
read of the current one is its front. -/
structure Transport.Sound (s : Transport) : Prop where
  count : s.results.length ≤ s.connections.length
  written : ∀ c ∈ s.connections,c.written ≤ c.call.wire.length
  delivered : ∀ (i : ℕ) (m : IpcReceived),s.results[i]? = some (some m) →
    ∃ c,s.connections[i]? = some c ∧ c.written = c.call.wire.length ∧ m = c.call.message
  heard : ∀ r,s.reading = some r → ∃ c,s.current = some c ∧ r.got.length ≤ c.written ∧
    r.got = c.call.wire.take r.got.length ∧ ipcResult r.maxLength r.got = none

theorem Transport.sound_initial : Transport.initial.Sound where
  count := le_rfl
  written c hc := by cases hc
  delivered i m h := by cases h
  heard r h := by cases h

section

variable {s s' : Transport}

theorem Transport.Sound.connect (hs : s.Sound) (call : Outgoing) :
    Transport.Sound { s with connections := s.connections ++ [⟨call,0,false⟩] } where
  count := by
    rw [List.length_append]
    exact hs.count.trans (Nat.le_add_right ..)
  written c hc := by
    obtain hc | hc := List.mem_append.mp hc
    · exact hs.written c hc
    · obtain rfl := List.mem_singleton.mp hc
      exact Nat.zero_le _
  delivered i m h := by
    obtain ⟨c,hc,hrest⟩ := hs.delivered i m h
    exact ⟨c,List.getElem?_append_left (List.getElem?_eq_some_iff.mp hc).1 ▸ hc,hrest⟩
  heard r h := by
    obtain ⟨c,hc,hrest⟩ := hs.heard r h
    exact ⟨c,(List.getElem?_append_left (List.getElem?_eq_some_iff.mp hc).1).trans hc,hrest⟩

/-- A connection may get on with its frame. -/
theorem Transport.Sound.set (hs : s.Sound) {i : ℕ} {c c' : Connection}
    (hc : s.connections[i]? = some c) (hcall : c'.call = c.call) (hle : c.written ≤ c'.written)
    (hwire : c'.written ≤ c'.call.wire.length) :
    Transport.Sound { s with connections := s.connections.set i c' } := by
  have hget (j : ℕ) (d : Connection) (hd : s.connections[j]? = some d) :
      ∃ d',(s.connections.set i c')[j]? = some d' ∧ d'.call = d.call ∧ d.written ≤ d'.written := by
    by_cases hij : i = j
    · subst hij
      obtain rfl := Option.some.inj (hc.symm.trans hd)
      exact ⟨c',List.getElem?_set_self (List.getElem?_eq_some_iff.mp hc).1,hcall,hle⟩
    · exact ⟨d,(List.getElem?_set_ne hij).trans hd,rfl,le_rfl⟩
  constructor
  case count =>
    rw [List.length_set]
    exact hs.count
  case written =>
    intro d hd
    obtain hd | rfl := List.mem_or_eq_of_mem_set hd
    · exact hs.written d hd
    · exact hwire
  case delivered =>
    intro j m h
    obtain ⟨d,hd,hall,rfl⟩ := hs.delivered j m h
    obtain ⟨d',hd',hcall',hle'⟩ := hget j d hd
    have hbound : d'.written ≤ d'.call.wire.length := by
      obtain hmem | rfl := List.mem_or_eq_of_mem_set (List.mem_of_getElem? hd')
      · exact hs.written d' hmem
      · exact hwire
    rw [← hcall'] at hall ⊢
    exact ⟨d',hd',hbound.antisymm (hall ▸ hle'),rfl⟩
  case heard =>
    intro r h
    obtain ⟨d,hd,hgot,hfront,hmore⟩ := hs.heard r h
    obtain ⟨d',hd',hcall',hle'⟩ := hget _ d hd
    rw [← hcall'] at hfront
    exact ⟨d',hd',hgot.trans hle',hfront,hmore⟩

/-- The call ends, with an error or with the message of the connection. -/
theorem Transport.Sound.finish (hs : s.Sound) {c : Connection} (hc : s.current = some c)
    {result : Option IpcReceived} (hresult : ∀ m,result = some m →
      c.written = c.call.wire.length ∧ m = c.call.message) : (s.finish result).Sound where
  count := by
    rw [Transport.finish,List.length_append]
    exact (List.getElem?_eq_some_iff.mp hc).1
  written := hs.written
  delivered i m h := by
    rw [Transport.finish,List.getElem?_append] at h
    split_ifs at h with hold
    · exact hs.delivered i m h
    · obtain ⟨hi,hm⟩ := List.getElem?_eq_some_iff.mp h
      rw [List.length_singleton] at hi
      obtain rfl : i = s.results.length := by omega
      rw [List.getElem_singleton] at hm
      exact ⟨c,hc,hresult m hm⟩
  heard r h := by cases h

theorem Transport.Sound.readMore (hs : s.Sound) {c : Connection} (hc : s.current = some c)
    {maxLength n : ℕ} (hn : n ≤ c.written) :
    (s.readMore ⟨maxLength,c.call.wire.take n⟩).Sound := by
  have hwire : n ≤ c.call.wire.length := hn.trans (hs.written c (List.mem_of_getElem? hc))
  have hlen : (c.call.wire.take n).length = n := List.length_take_of_le hwire
  rw [Transport.readMore]
  cases hresult : ipcResult maxLength (c.call.wire.take n) with
  | none =>
    refine ⟨hs.count,hs.written,hs.delivered,fun r h => ?_⟩
    obtain rfl := Option.some.inj h
    exact ⟨c,hc,hlen.trans_le hn,by rw [hlen],hresult⟩
  | some result =>
    refine hs.finish hc fun m hm => ?_
    obtain ⟨hall,rfl⟩ := message_of_ipcResult hwire (hresult.trans (congrArg some hm))
    exact ⟨(hs.written c (List.mem_of_getElem? hc)).antisymm (hall ▸ hn),rfl⟩

theorem Transport.Sound.restart (hs : s.Sound) :
    Transport.Sound { s with
      reading := none
      results := s.results ++
        List.replicate (s.connections.length - s.results.length) none } where
  count := by
    have hcount := hs.count
    rw [List.length_append,List.length_replicate]
    dsimp only
    omega
  written := hs.written
  delivered i m h := by
    rw [List.getElem?_append] at h
    split_ifs at h with hold
    · exact hs.delivered i m h
    · have := List.eq_of_mem_replicate (List.mem_of_getElem? h)
      cases this
  heard r h := by cases h

/-- Reading on takes the bytes that follow in the frame. -/
theorem take_append_drop_take (wire : List Byte) (n k : ℕ) :
    wire.take n ++ (wire.drop n).take k = wire.take (n+k) := (List.take_add ..).symm

theorem Transport.Sound.step (hs : s.Sound) {event : IpcEvent} (h : s.step event = some s') :
    s'.Sound := by
  cases event with
  | connect call =>
    obtain rfl := Option.some.inj h
    exact hs.connect call
  | write i k =>
    rw [Transport.step] at h
    cases hc : s.connections[i]? with
    | none =>
      rw [hc] at h
      cases h
    | some c =>
      rw [hc] at h
      dsimp only at h
      split_ifs at h with hguard
      obtain rfl := Option.some.inj h
      rw [not_or,not_lt] at hguard
      exact hs.set hc rfl (Nat.le_add_right ..) hguard.2
  | close i =>
    rw [Transport.step] at h
    cases hc : s.connections[i]? with
    | none =>
      rw [hc] at h
      cases h
    | some c =>
      rw [hc] at h
      dsimp only at h
      split_ifs at h
      obtain rfl := Option.some.inj h
      exact hs.set hc rfl le_rfl (hs.written c (List.mem_of_getElem? hc))
  | accept maxLength =>
    rw [Transport.step] at h
    split_ifs at h with hguard
    obtain rfl := Option.some.inj h
    obtain ⟨c,hc⟩ := Option.ne_none_iff_exists'.mp (not_or.mp hguard).2
    refine ⟨hs.count,hs.written,hs.delivered,fun r hr => ?_⟩
    obtain rfl := Option.some.inj hr
    exact ⟨c,hc,Nat.zero_le _,rfl,rfl⟩
  | read k =>
    rw [Transport.step] at h
    cases hr : s.reading with
    | none =>
      rw [hr] at h
      cases h
    | some r =>
      obtain ⟨c,hc,hgot,hfront,-⟩ := hs.heard r hr
      rw [hr,hc] at h
      dsimp only at h
      split_ifs at h with hguard
      obtain rfl := Option.some.inj h
      rw [hfront,List.length_take_of_le (hgot.trans (hs.written c (List.mem_of_getElem? hc))),
        take_append_drop_take]
      exact hs.readMore hc hguard.2.2
  | readFails =>
    rw [Transport.step] at h
    split_ifs at h with hreading
    obtain rfl := Option.some.inj h
    obtain ⟨r,hr⟩ := Option.isSome_iff_exists.mp hreading
    obtain ⟨c,hc,-⟩ := hs.heard r hr
    exact hs.finish hc fun m hm => by cases hm
  | restart =>
    obtain rfl := Option.some.inj h
    exact hs.restart

end

theorem Transport.run_sound {events : List IpcEvent} {s : Transport}
    (hrun : run Transport.step .initial events = some s) : s.Sound :=
  run_invariant (fun _ _ _ hs h => hs.step h) Transport.sound_initial hrun

/-- Each connection gives one result at most, in the order in which they were made; a message that
comes is the one that its sender passed to `IPC_send`, all of which was written. So none comes
twice, and none for which `IPC_send` reports failure. -/
theorem ipc_delivers_what_was_sent {events : List IpcEvent} {s : Transport}
    (hrun : run Transport.step .initial events = some s) :
    s.results.length ≤ s.connections.length ∧
      ∀ (i : ℕ) (m : IpcReceived),s.results[i]? = some (some m) →
        ∃ c,s.connections[i]? = some c ∧ m = ⟨c.call.src.value,c.call.data⟩ ∧
          c.written = c.call.wire.length ∧ c.returned ≠ some (-1) := by
  have hs := Transport.run_sound hrun
  refine ⟨hs.count,fun i m h => ?_⟩
  obtain ⟨c,hc,hall,hm⟩ := hs.delivered i m h
  refine ⟨c,hc,hm,hall,?_⟩
  rw [Connection.returned,if_pos hall]
  split_ifs
  · exact Option.some_ne_none _ |>.symm
  · intro h
    have := Option.some.inj h
    omega

/-- A ping and a message of two bytes to FDIR. -/
def pingCall : Outgoing := ⟨.mission,.fdir,[],[4,5,0,0],rfl⟩

def twoByteCall : Outgoing := ⟨.compute,.fdir,[7,9],[4,2,0,2,7,9],rfl⟩

/-- The first sender dies with half of its header written; the bytes of the second message arrive in
pieces. -/
def brokenFrameRun : List IpcEvent :=
  [.connect pingCall,.connect twoByteCall,.write 0 2,.close 0,.write 1 5,.accept 256,.read 2,
    .readFails,.accept 256,.read 3,.read 1,.read 1,.write 1 1,.close 1,.read 1]

theorem ipc_delivers_after_a_broken_frame :
    ∃ s,run Transport.step .initial brokenFrameRun = some s ∧ s.results = [none,some ⟨2,[7,9]⟩] ∧
      ∃ c,s.connections[1]? = some c ∧
        (⟨2,[7,9]⟩ : IpcReceived) = ⟨c.call.src.value,c.call.data⟩ ∧
        c.written = c.call.wire.length ∧ c.returned ≠ some (-1) := by
  obtain ⟨s,hrun,hresults⟩ : ∃ s,run Transport.step .initial brokenFrameRun = some s ∧
      s.results = [none,some ⟨2,[7,9]⟩] := ⟨_,rfl,rfl⟩
  exact ⟨s,hrun,hresults,(ipc_delivers_what_was_sent hrun).2 1 _ (by rw [hresults]; rfl)⟩

/-! ### Nothing is lost without a failure -/

/-- A step after which nothing is lost: no read fails, the receiver goes on, and its buffer has room
for every message. -/
def IpcEvent.Undisturbed : IpcEvent → Prop
  | .accept maxLength => ipcMaxPayload ≤ maxLength
  | .readFails => False
  | .restart => False
  | _ => True

/-- The same with buffers that have room for messages of some size, when all messages are of that
size at most. -/
def IpcEvent.UndisturbedFor (size : ℕ) : IpcEvent → Prop
  | .connect call => call.data.length ≤ size
  | .accept maxLength => size ≤ maxLength
  | .readFails => False
  | .restart => False
  | _ => True

theorem IpcEvent.Undisturbed.of_max {event : IpcEvent} (h : event.Undisturbed) :
    event.UndisturbedFor ipcMaxPayload := by
  cases event with
  | connect call => exact call.data_length_le
  | accept | readFails | restart => exact h
  | write | close | read => trivial

/-- Every call so far has ended well, and the one that is reading has room. -/
structure Transport.Complete (size : ℕ) (s : Transport) : Prop extends Transport.Sound s where
  fits : ∀ c ∈ s.connections,c.call.data.length ≤ size
  room : ∀ r,s.reading = some r → size ≤ r.maxLength
  well : none ∉ s.results

theorem Transport.complete_initial {size : ℕ} : Transport.initial.Complete size where
  toSound := Transport.sound_initial
  fits c h := by cases h
  room r h := by cases h
  well h := by cases h

section

variable {size : ℕ} {s s' : Transport}

theorem Transport.Complete.readMore (hs : s.Complete size) {c : Connection}
    (hc : s.current = some c) {maxLength n : ℕ} (hroom : size ≤ maxLength) (hn : n ≤ c.written) :
    (s.readMore ⟨maxLength,c.call.wire.take n⟩).Complete size := by
  have hfits := hs.fits c (List.mem_of_getElem? hc)
  refine ⟨hs.toSound.readMore hc hn,?_,?_,?_⟩
  · rw [Transport.readMore]
    split <;> exact hs.fits
  all_goals
    rw [Transport.readMore]
    cases hresult : ipcResult maxLength (c.call.wire.take n) with
    | none =>
      first
      | exact fun r hr => Option.some.inj hr ▸ hroom
      | exact hs.well
    | some result => ?_
  · intro r hr
    cases hr
  · refine fun hmem => (List.mem_append.mp hmem).elim hs.well fun hlast => ?_
    obtain rfl := List.mem_singleton.mp hlast
    exact ipcResult_ne_error (hfits.trans hroom)
      (hn.trans (hs.written c (List.mem_of_getElem? hc))) hresult

theorem Transport.Complete.step (hs : s.Complete size) {event : IpcEvent}
    (hevent : event.UndisturbedFor size) (h : s.step event = some s') : s'.Complete size := by
  have hsound := hs.toSound.step h
  cases event with
  | connect call =>
    obtain rfl := Option.some.inj h
    refine ⟨hsound,fun c hc => ?_,hs.room,hs.well⟩
    obtain hc | hc := List.mem_append.mp hc
    · exact hs.fits c hc
    · exact List.mem_singleton.mp hc ▸ hevent
  | write i k | close i =>
    rw [Transport.step] at h
    cases hc : s.connections[i]? with
    | none =>
      rw [hc] at h
      cases h
    | some c =>
      rw [hc] at h
      dsimp only at h
      split_ifs at h
      obtain rfl := Option.some.inj h
      refine ⟨hsound,fun d hd => ?_,hs.room,hs.well⟩
      obtain hd | rfl := List.mem_or_eq_of_mem_set hd
      · exact hs.fits d hd
      · exact hs.fits c (List.mem_of_getElem? hc)
  | accept maxLength =>
    rw [Transport.step] at h
    split_ifs at h
    obtain rfl := Option.some.inj h
    exact ⟨hsound,hs.fits,fun r hr => Option.some.inj hr ▸ hevent,hs.well⟩
  | read k =>
    rw [Transport.step] at h
    cases hr : s.reading with
    | none =>
      rw [hr] at h
      cases h
    | some r =>
      obtain ⟨c,hc,hgot,hfront,-⟩ := hs.heard r hr
      rw [hr,hc] at h
      dsimp only at h
      split_ifs at h with hguard
      obtain rfl := Option.some.inj h
      rw [hfront,List.length_take_of_le (hgot.trans (hs.written c (List.mem_of_getElem? hc))),
        take_append_drop_take]
      exact hs.readMore hc (hs.room r hr) hguard.2.2
  | readFails => exact hevent.elim
  | restart => exact hevent.elim

/-- What the receiver does by itself. -/
def IpcEvent.ByReceiver : IpcEvent → Prop
  | .accept maxLength => maxLength = ipcMaxPayload
  | .read _ => True
  | _ => False

/-- Once a frame has been written, the receiver needs nobody to get to its end. -/
theorem Transport.Complete.finish_reading (hs : s.Complete size) {r : Reading}
    (hr : s.reading = some r) {c : Connection} (hc : s.current = some c)
    (hall : c.written = c.call.wire.length) :
    ∃ more s',(∀ event ∈ more,event.ByReceiver) ∧ run Transport.step s more = some s' ∧
      s'.connections = s.connections ∧ s'.results = s.results ++ [some c.call.message] := by
  induction hrest : c.call.wire.length - r.got.length using Nat.strong_induction_on
    generalizing s r with
  | _ n ih =>
    obtain ⟨d,hd,hgot,hfront,hmore⟩ := hs.heard r hr
    obtain rfl := Option.some.inj (hc.symm.trans hd)
    have hroom := hs.room r hr
    have hlt := length_lt_wanted hmore
    have hwanted : wanted r.got ≤ c.call.wire.length := hfront ▸ wanted_take_le
    have hstep : s.step (.read (wanted r.got - r.got.length)) =
        some (s.readMore ⟨r.maxLength,c.call.wire.take (wanted r.got)⟩) := by
      have hnext : r.got.length + (wanted r.got - r.got.length) = wanted r.got := by omega
      have hbytes : r.got ++ (c.call.wire.drop r.got.length).take
          (wanted r.got - r.got.length) = c.call.wire.take (wanted r.got) := by
        calc r.got ++ (c.call.wire.drop r.got.length).take (wanted r.got - r.got.length)
          _ = c.call.wire.take r.got.length ++
              (c.call.wire.drop r.got.length).take (wanted r.got - r.got.length) :=
            congrArg (· ++ _) hfront
          _ = c.call.wire.take (r.got.length + (wanted r.got - r.got.length)) :=
            take_append_drop_take ..
          _ = c.call.wire.take (wanted r.got) := congrArg (c.call.wire.take ·) hnext
      rw [Transport.step,hr,hc]
      dsimp only
      rw [hbytes,hnext,if_pos ⟨by omega,le_rfl,by omega⟩]
    have hcomplete := hs.step (show IpcEvent.UndisturbedFor size (.read _) from trivial) hstep
    rw [Transport.readMore] at hstep hcomplete
    cases hresult : ipcResult r.maxLength (c.call.wire.take (wanted r.got)) with
    | none =>
      simp only [hresult] at hstep hcomplete
      obtain ⟨more,s',hby,hrun,hconnections,hresults⟩ :=
        ih _ (by rw [List.length_take_of_le hwanted]; omega) hcomplete rfl hc rfl
      refine ⟨.read _ :: more,s',?_,run_cons_eq_some.mpr ⟨_,hstep,hrun⟩,hconnections,hresults⟩
      rintro event (_ | ⟨_,hevent⟩)
      · trivial
      · exact hby event hevent
    | some result =>
      simp only [hresult] at hstep
      refine ⟨[.read _],_,?_,run_cons_eq_some.mpr ⟨_,hstep,rfl⟩,rfl,?_⟩
      · rintro event (_ | ⟨_,⟨⟩⟩)
        trivial
      · cases result with
        | none =>
          exact absurd hresult (ipcResult_ne_error
            ((hs.fits c (List.mem_of_getElem? hc)).trans hroom) hwanted)
        | some m =>
          obtain ⟨-,rfl⟩ := message_of_ipcResult hwanted hresult
          rfl

theorem Transport.Complete.receive (hs : s.Complete size) (hmax : size ≤ ipcMaxPayload)
    {c : Connection} (hc : s.current = some c)
    (hall : c.written = c.call.wire.length) :
    ∃ more s',(∀ event ∈ more,event.ByReceiver) ∧ run Transport.step s more = some s' ∧
      s'.connections = s.connections ∧ s'.results = s.results ++ [some c.call.message] := by
  cases hr : s.reading with
  | some r => exact hs.finish_reading hr hc hall
  | none =>
    have hstep : s.step (.accept ipcMaxPayload) =
        some { s with reading := some ⟨ipcMaxPayload,[]⟩ } := by
      rw [Transport.step,hr,hc,if_neg (by simp)]
    obtain ⟨more,s',hby,hrun,hrest⟩ :=
      (hs.step (show IpcEvent.UndisturbedFor size (.accept ipcMaxPayload) from hmax)
        hstep).finish_reading rfl hc hall
    refine ⟨.accept _ :: more,s',?_,run_cons_eq_some.mpr ⟨_,hstep,hrun⟩,hrest⟩
    rintro event (_ | ⟨_,hevent⟩)
    · exact rfl
    · exact hby event hevent

end

/-- While nothing fails, the messages come as they were sent, none left out and in the order of the
connections; and one whose frame has been written whole is received without anybody else doing
anything. -/
theorem ipc_loses_nothing {events : List IpcEvent} {s : Transport}
    (hrun : run Transport.step .initial events = some s)
    (hundisturbed : ∀ event ∈ events,event.Undisturbed) :
    s.results = (s.connections.take s.results.length).map (fun c => some c.call.message) ∧
      ∀ c,s.connections[s.results.length]? = some c → c.written = c.call.wire.length →
        ∃ more s',(∀ event ∈ more,event.ByReceiver) ∧ run Transport.step s more = some s' ∧
          s'.connections = s.connections ∧ s'.results = s.results ++ [some c.call.message] := by
  have hs : s.Complete ipcMaxPayload := run_invariant_of
    (P := fun _ event => event.Undisturbed) (fun _ _ _ hs hevent h => hs.step hevent.of_max h)
    Transport.complete_initial
    (fun pre event post _ has _ => hundisturbed event
      (by rw [has]; exact List.mem_append_right _ List.mem_cons_self)) hrun
  refine ⟨?_,fun c hc hall => hs.receive le_rfl hc hall⟩
  apply List.ext_getElem
  · rw [List.length_map,List.length_take_of_le hs.count]
  · intro i hi hi'
    rw [List.getElem_map,List.getElem_take]
    cases hresult : s.results[i] with
    | none => exact absurd (hresult ▸ List.getElem_mem hi) hs.well
    | some m =>
      obtain ⟨c,hc,-,rfl⟩ := hs.delivered i m (List.getElem?_eq_some_iff.mpr ⟨hi,hresult⟩)
      rw [(List.getElem?_eq_some_iff.mp hc).2]

/-- The ping is received while the other message is on its way. -/
def pingFirstRun : List IpcEvent :=
  [.connect pingCall,.write 0 4,.accept 256,.connect twoByteCall,.write 1 6,.read 4]

theorem ipc_loses_nothing_after_a_ping :
    ∃ s,run Transport.step .initial pingFirstRun = some s ∧ s.results = [some ⟨5,[]⟩] ∧
      ∃ more s',(∀ event ∈ more,event.ByReceiver) ∧ run Transport.step s more = some s' ∧
        s'.connections = s.connections ∧
        s'.results = s.results ++ [some ⟨2,[7,9]⟩] := by
  have hundisturbed : ∀ event ∈ pingFirstRun,event.Undisturbed := by
    simp [pingFirstRun,IpcEvent.Undisturbed,ipcMaxPayload]
  obtain ⟨s,hrun,hresults,hsecond⟩ : ∃ s,run Transport.step .initial pingFirstRun = some s ∧
      s.results = [some ⟨5,[]⟩] ∧ s.connections[1]? = some ⟨twoByteCall,6,false⟩ :=
    ⟨_,rfl,rfl,rfl⟩
  exact ⟨s,hrun,hresults,(ipc_loses_nothing hrun hundisturbed).2
    ⟨twoByteCall,6,false⟩ (by rw [hresults]; exact hsecond) rfl⟩

end FlightSoftware.Obc
