import FlightSoftware.Obc.Mailbox
import FlightSoftware.Telemetry.Ingest
import FlightSoftware.Telemetry.LogWalk

/-!
# From a board to the ground station

Telemetry of a board goes over the bus to Commands, from there through a socket to Data, into the
log, and from the log by way of Mission to the radio. Whatever is lost on that way, what comes out
was sent by a board.
-/

namespace FlightSoftware.Telemetry
open Obc Run

/-- `received` are the packets that the ingest thread has read; `mailbox` is that of Data. -/
structure TelemetryPath where
  received : List (BusPacket × IngestClock)
  mailbox : Mailbox
  downlink : Downlink

inductive TelemetryStep where
  | ingest (packet : BusPacket) (clock : IngestClock) (connected : Bool)
  /-- another process sends something to Data, but nothing to be written into the log -/
  | other (call : Outgoing)
  | ipc (event : IpcEvent)
  | store (io : AppendIo)
  | downlink (action : DownlinkAction)

/-- What `telemetry_log_path` returns unless the environment has another path. -/
def defaultTelemetryLogPath : List Byte :=
  "/tmp/obc_telemetry.bin".toList.map fun c => BitVec.ofNat 8 c.toNat

/-- `sizeof(data_write_chunk_t)` -/
def dataWriteChunkBytes : ℕ := 200

/-- The string in the `path` of a message; `storage_thread` ends it at the last of its 64 bytes. -/
def pathField (data : List Byte) : List Byte := (data.take 63).takeWhile (· ≠ 0)

/-- `storage_thread` takes the message for a chunk to be written into this file. -/
def writesTo (path : List Byte) (call : Outgoing) : Bool :=
  call.data.length = dataWriteChunkBytes ∧ pathField call.data = path

/-- `storage_thread` with a result of `IPC_receive_timeout`: what comes from Commands is appended to
the log. What comes from others leaves the log as it is, also a chunk for another file. -/
def Downlink.store (io : AppendIo) (result : Option IpcReceived) (d : Downlink) : Downlink :=
  match result with
  | none => d
  | some m =>
    if m.src = ObcRole.commands.value then
      { d with
        log := (telemetryStoreAppend io m.payload d.log).2
        records :=
          if (telemetryStoreAppend io m.payload d.log).1 = 0 then d.records ++ [m.payload]
          else d.records }
    else d

/-- The call of `IPC_send` for a packet that is for Data. -/
def ingestCall (packet : BusPacket) (clock : IngestClock) : Option Outgoing :=
  match ingestPacket packet clock with
  | some (.data,message) => ipcCall .commands .data message
  | _ => none

namespace TelemetryPath

/-- Nothing has been received, and Mission's cursor is at the start of an absent log. -/
def init : TelemetryPath := ⟨[],.initial,⟨none,[],0,0,false,none,none,[],[],0⟩⟩

/-- `logPath` is the path of the log. -/
def step (logPath : List Byte) (s : TelemetryPath) : TelemetryStep → Option TelemetryPath
  | .ingest packet clock connected =>
    some { s with
      received := s.received ++ [(packet,clock)]
      mailbox :=
        match ingestCall packet clock,connected with
        | some call,true => s.mailbox.connect call
        | _,_ => s.mailbox }
  | .other call =>
    if call.src = .commands ∨ writesTo logPath call then none
    else some { s with mailbox := s.mailbox.connect call }
  | .ipc event =>
    (s.mailbox.step ipcMaxPayload event).map fun mailbox => { s with mailbox := mailbox }
  | .store io =>
    s.mailbox.take.map fun (result,mailbox) =>
      { s with mailbox := mailbox,downlink := s.downlink.store io result }
  | .downlink (.append _) => none
  | .downlink action => (s.downlink.step action).map fun downlink => { s with downlink := downlink }

/-- The telemetry that has come from the boards, in its order. -/
def telemetry (s : TelemetryPath) : List TelemetryRecord :=
  s.received.filterMap fun r => boardTelemetry r.1 r.2

/-- The message of a call, if it is one of Commands. -/
def fromCommands (call : Outgoing) : Option (List Byte) :=
  if call.src = .commands then some call.data else none

end TelemetryPath

/-- No append is cut short. -/
def TelemetryStep.Whole : TelemetryStep → Prop
  | .store (.cutShort _) => False
  | _ => True

namespace TelemetryPath

/-- Each stage has, in their order, some of the records of the one before. The log holds the records
unless it has grown to the largest size of a file. -/
structure Bringing (s : TelemetryPath) : Prop where
  mailbox : s.mailbox.Sound
  called : (s.mailbox.calls.filterMap fromCommands).Sublist
    (s.telemetry.map TelemetryRecord.encoded)
  stored : s.downlink.records.Sublist
    ((s.mailbox.calls.take s.mailbox.handled).filterMap fromCommands)
  exact : (s.downlink.log.getD []).length < int64Max → s.downlink.Exact 0 0

theorem bringing_init : init.Bringing where
  mailbox := Mailbox.sound_initial
  called := List.Sublist.refl _
  stored := List.Sublist.refl _
  exact _ := by
    refine ⟨rfl,?_,?_,le_rfl,rfl,List.prefix_refl _,rfl,rfl,?_⟩
    · intro r hr
      cases hr
    · intro reply hreply
      cases hreply
    · intro call read hcall
      cases hcall

/-! ### Steps -/

variable {logPath : List Byte} {s s' : TelemetryPath}

theorem role_value_injective {r r' : ObcRole} (h : r.value = r'.value) : r = r' := by
  revert h
  cases r <;> cases r' <;> decide

/-- What Commands sends to Data for a packet is its telemetry. -/
theorem fromCommands_ingestCall (packet : BusPacket) (clock : IngestClock) :
    (ingestCall packet clock).bind fromCommands =
      (boardTelemetry packet clock).map TelemetryRecord.encoded := by
  cases htelemetry : (boardTelemetry packet clock).map TelemetryRecord.encoded with
  | none =>
    rw [ingestCall]
    split
    · next message hpacket =>
      rw [(ingestPacket_data packet clock message).mp hpacket] at htelemetry
      cases htelemetry
    · rfl
  | some message =>
    have hpacket := (ingestPacket_data packet clock message).mpr htelemetry
    obtain ⟨record,hrecord,rfl⟩ := Option.map_eq_some_iff.mp htelemetry
    have hsize : record.encoded.length ≤ ipcMaxPayload := by
      rw [boardTelemetry] at hrecord
      split_ifs at hrecord
      exact (obcTelemetryDecode_eq_ok_iff.mp (decode_forwarded hrecord)).1.length_le
    rw [ingestCall,hpacket]
    dsimp only
    rw [ipcCall,dif_pos ⟨hsize,Option.some_ne_none _⟩]
    rfl

theorem telemetry_concat (received : List (BusPacket × IngestClock)) (packet : BusPacket)
    (clock : IngestClock) :
    (received ++ [(packet,clock)]).filterMap (fun r => boardTelemetry r.1 r.2) =
      received.filterMap (fun r => boardTelemetry r.1 r.2) ++
        (boardTelemetry packet clock).toList := by
  rw [List.filterMap_append]
  cases hrecord : boardTelemetry packet clock with
  | none => simp [hrecord]
  | some record => simp [hrecord]

theorem Bringing.ingest (hs : s.Bringing) {packet : BusPacket} {clock : IngestClock}
    {connected : Bool} (h : s.step logPath (.ingest packet clock connected) = some s') :
    s'.Bringing := by
  have hcall := fromCommands_ingestCall packet clock
  have hnew : ((s.received ++ [(packet,clock)]).filterMap fun r => boardTelemetry r.1 r.2).map
      TelemetryRecord.encoded = s.telemetry.map TelemetryRecord.encoded ++
        ((boardTelemetry packet clock).map TelemetryRecord.encoded).toList := by
    rw [telemetry_concat,List.map_append,telemetry]
    cases boardTelemetry packet clock <;> rfl
  obtain rfl := Option.some.inj h
  split
  · next call hingest =>
    rw [hingest,Option.bind_some] at hcall
    refine ⟨hs.mailbox.connect call,?_,?_,hs.exact⟩
    · dsimp only [telemetry]
      rw [Mailbox.calls_connect,List.filterMap_append,hnew,← hcall]
      refine hs.called.append ?_
      cases hmessage : fromCommands call with
      | none => rw [List.filterMap_cons_none hmessage]; exact List.nil_sublist _
      | some message => rw [List.filterMap_cons_some hmessage]; exact List.Sublist.refl _
    · dsimp only
      rw [Mailbox.calls_connect,Mailbox.handled_connect,
        List.take_append_of_le_length hs.mailbox.handled_le_calls]
      exact hs.stored
  · refine ⟨hs.mailbox,hs.called.trans ?_,hs.stored,hs.exact⟩
    dsimp only [telemetry]
    rw [hnew]
    exact List.sublist_append_left _ _

theorem Bringing.other (hs : s.Bringing) {call : Outgoing} (hsrc : call.src ≠ .commands) :
    Bringing { s with mailbox := s.mailbox.connect call } := by
  refine ⟨hs.mailbox.connect call,?_,?_,hs.exact⟩
  · have hnone : fromCommands call = none := if_neg hsrc
    rw [Mailbox.calls_connect,List.filterMap_append,List.filterMap_cons_none hnone]
    exact (List.append_nil _).symm ▸ hs.called
  · dsimp only
    rw [Mailbox.calls_connect,Mailbox.handled_connect,
      List.take_append_of_le_length hs.mailbox.handled_le_calls]
    exact hs.stored

/-- An append that is not cut short adds the whole record or nothing, unless the file becomes as
large as it can be. -/
theorem telemetryStoreAppend_whole {io : AppendIo} (hio : ∀ reached,io ≠ .cutShort reached)
    (encoded : List Byte) {log : Option (List Byte)}
    (hsize : ((telemetryStoreAppend io encoded log).2.getD []).length < int64Max) :
    (log.getD []).length < int64Max ∧
      ((io = .openFails ∨ ¬ Decodes encoded) ∧ telemetryStoreAppend io encoded log = (-1,log) ∨
        io = .complete ∧ (telemetryStoreAppend io encoded log).1 = 0) := by
  by_cases hdecodes : Decodes encoded
  · cases io with
    | cutShort reached => exact absurd rfl (hio reached)
    | openFails =>
      rw [telemetryStoreAppend.eq_def,if_neg (not_not.mpr hdecodes)] at hsize ⊢
      exact ⟨hsize,.inl ⟨.inl rfl,rfl⟩⟩
    | complete =>
      rw [telemetryStoreAppend.eq_def,if_neg (not_not.mpr hdecodes)] at hsize ⊢
      dsimp only at hsize ⊢
      rw [Option.getD_some,List.length_take] at hsize
      have hfits : (log.getD [] ++ encoded).length < int64Max := by omega
      rw [if_pos hfits.le]
      rw [List.length_append] at hfits
      exact ⟨by omega,.inr ⟨rfl,rfl⟩⟩
  · rw [telemetryStoreAppend.eq_def,if_pos hdecodes] at hsize ⊢
    exact ⟨hsize,.inl ⟨.inr hdecodes,rfl⟩⟩

/-- The records and the log after a result. -/
theorem store_exact {d : Downlink} {io : AppendIo} (hio : ∀ reached,io ≠ .cutShort reached)
    {result : Option IpcReceived} (hsize : ((d.store io result).log.getD []).length < int64Max)
    (hexact : (d.log.getD []).length < int64Max → d.Exact 0 0) :
    (d.store io result).Exact 0 0 := by
  cases result with
  | none => exact hexact hsize
  | some m =>
    rw [Downlink.store] at hsize ⊢
    by_cases hsrc : m.src = ObcRole.commands.value
    · rw [if_pos hsrc] at hsize ⊢
      obtain ⟨hbefore,⟨-,hfailed⟩ | ⟨rfl,hzero⟩⟩ :=
        telemetryStoreAppend_whole hio m.payload hsize
      · rw [hfailed,if_neg (show ¬ (-1 : ℤ) = 0 by decide)]
        exact hexact hbefore
      · rw [if_pos hzero]
        exact (hexact hbefore).append (Prod.ext hzero rfl)
    · rw [if_neg hsrc] at hsize ⊢
      exact hexact hsize

/-- Data stores the record of the call that it has come to, if that is one of Commands. -/
theorem Bringing.store (hs : s.Bringing) {io : AppendIo}
    (hio : ∀ reached,io ≠ .cutShort reached) (h : s.step logPath (.store io) = some s') :
    s'.Bringing := by
  rw [step] at h
  obtain ⟨⟨result,mailbox⟩,htake,rfl⟩ := Option.map_eq_some_iff.mp h
  obtain ⟨hsound,hcalls,hhandled,call,hcall,hresult⟩ := hs.mailbox.take htake
  refine ⟨hsound,by dsimp only; rw [hcalls]; exact hs.called,?_,
    fun hsize => store_exact hio hsize hs.exact⟩
  have hmore : (s.downlink.store io result).records.Sublist
      (s.downlink.records ++ (fromCommands call).toList) := by
    obtain rfl | rfl := hresult
    · exact List.sublist_append_left _ _
    · rw [Downlink.store]
      by_cases hsrc : call.message.src = ObcRole.commands.value
      · have hcommands : fromCommands call = some call.data :=
          if_pos (role_value_injective hsrc)
        rw [if_pos hsrc,hcommands]
        dsimp only
        split_ifs
        · exact List.Sublist.refl _
        · exact List.sublist_append_left _ _
      · rw [if_neg hsrc]
        exact List.sublist_append_left _ _
  refine hmore.trans ?_
  dsimp only
  rw [hcalls,hhandled,List.take_add_one,hcall,List.filterMap_append]
  refine hs.stored.append ?_
  cases hmessage : fromCommands call with
  | none => exact List.nil_sublist _
  | some message => simp [hmessage]

theorem recordReturned_records (d : Downlink) (call : BatchCall) (nextCursor : ℕ)
    (recordReachedEnd : Bool) :
    (d.recordReturned call nextCursor recordReachedEnd).log = d.log ∧
      (d.recordReturned call nextCursor recordReachedEnd).records = d.records := by
  rw [Downlink.recordReturned]
  split_ifs <;> exact ⟨rfl,rfl⟩

theorem received_records (d : Downlink) (call : BatchCall) (radioResult : ℤ)
    (pass : ReceivePass) : (d.received call radioResult pass).log = d.log ∧
      (d.received call radioResult pass).records = d.records := by
  cases pass with
  | again read | failed => exact ⟨rfl,rfl⟩
  | ended nextOffset => exact recordReturned_records ..
  | transmit encoded nextOffset endOfLog =>
    rw [Downlink.received]
    by_cases hradio : radioResult ≠ 0
    · rw [if_pos hradio]
      exact ⟨rfl,rfl⟩
    · rw [if_neg hradio]
      exact recordReturned_records ..

/-- Only an append changes the log. -/
theorem downlink_step_records {d d' : Downlink} {action : DownlinkAction}
    (haction : ∀ record,action ≠ .append record) (h : d.step action = some d') :
    d'.log = d.log ∧ d'.records = d.records := by
  cases action with
  | append record => exact absurd rfl (haction record)
  | serve io requester offset delivered =>
    obtain rfl := Option.some.inj h
    exact ⟨rfl,rfl⟩
  | batch maxRecords =>
    rw [Downlink.step] at h
    split at h
    · cases h
    · split_ifs at h <;> obtain rfl := Option.some.inj h <;> exact ⟨rfl,rfl⟩
  | request sent =>
    rw [Downlink.step] at h
    split at h
    · split_ifs at h <;> obtain rfl := Option.some.inj h <;> exact ⟨rfl,rfl⟩
    · cases h
  | receive message radioResult =>
    rw [Downlink.step] at h
    split at h
    · split_ifs at h
      obtain rfl := Option.some.inj h
      exact received_records ..
    · cases h

theorem Bringing.of_downlink (hs : s.Bringing) {d : Downlink} {action : DownlinkAction}
    (haction : ∀ record,action ≠ .append record) (h : s.downlink.step action = some d) :
    Bringing { s with downlink := d } := by
  obtain ⟨hlog,hrecords⟩ := downlink_step_records haction h
  refine ⟨hs.mailbox,hs.called,?_,fun hsize => ?_⟩
  · dsimp only
    rw [hrecords]
    exact hs.stored
  · dsimp only at hsize
    rw [hlog] at hsize
    exact (hs.exact hsize).step h

theorem Bringing.step (hs : s.Bringing) {e : TelemetryStep} (he : e.Whole)
    (h : s.step logPath e = some s') : s'.Bringing := by
  cases e with
  | ingest packet clock connected => exact hs.ingest h
  | other call =>
    rw [TelemetryPath.step] at h
    split_ifs at h with hsrc
    obtain rfl := Option.some.inj h
    exact hs.other fun hcommands => hsrc (.inl hcommands)
  | ipc event =>
    rw [TelemetryPath.step] at h
    obtain ⟨mailbox,hmailbox,rfl⟩ := Option.map_eq_some_iff.mp h
    obtain ⟨hsound,hle⟩ := hs.mailbox.step hmailbox
    have hcalls := Mailbox.calls_step hmailbox
    refine ⟨hsound,by dsimp only; rw [hcalls]; exact hs.called,?_,hs.exact⟩
    dsimp only
    rw [hcalls]
    exact hs.stored.trans ((List.take_prefix_take_left hle).sublist.filterMap _)
  | store io => exact hs.store (fun reached hio => by rw [hio] at he; exact he) h
  | downlink action =>
    cases action with
    | append record => cases h
    | serve | batch | request | receive =>
      dsimp only [TelemetryPath.step] at h
      obtain ⟨d,hd,rfl⟩ := Option.map_eq_some_iff.mp h
      exact hs.of_downlink (fun _ hc => by cases hc) hd

/-! ### What comes to the ground -/

theorem decode_telemetry {record : TelemetryRecord} (h : record ∈ s.telemetry) :
    obcTelemetryDecode record.encoded = .ok record := by
  obtain ⟨⟨packet,clock⟩,-,hrecord⟩ := List.mem_filterMap.mp h
  rw [boardTelemetry] at hrecord
  split_ifs at hrecord
  exact decode_forwarded hrecord

/-- While no append is cut short, the log is made of the records of packets that the boards have
sent, in their order and none twice; the radio has got the first of them, and each decodes to the
source, the port, the time and the data of its packet. -/
theorem ground_gets_board_telemetry {steps : List TelemetryStep}
    (hrun : run (TelemetryPath.step logPath) init steps = some s) (hwhole : ∀ e ∈ steps,e.Whole)
    (hsize : (s.downlink.log.getD []).length < int64Max) :
    ∃ kept : List TelemetryRecord,kept.Sublist s.telemetry ∧
      s.downlink.log.getD [] = (kept.map TelemetryRecord.encoded).flatten ∧
      s.downlink.accepted <+: kept.map TelemetryRecord.encoded ∧
      ∀ record ∈ kept,obcTelemetryDecode record.encoded = .ok record := by
  have hs : s.Bringing := run_invariant_of (P := fun _ e => e.Whole)
    (fun _ _ _ hs he h => hs.step he h) bringing_init
    (fun pre e post _ has _ => hwhole e
      (by rw [has]; exact List.mem_append_right _ List.mem_cons_self)) hrun
  have hexact := hs.exact hsize
  have hrecords : s.downlink.records.Sublist (s.telemetry.map TelemetryRecord.encoded) :=
    (hs.stored.trans ((List.take_sublist ..).filterMap _)).trans hs.called
  obtain ⟨kept,hkept,heq⟩ := List.sublist_map_iff.mp hrecords
  refine ⟨kept,hkept,heq ▸ hexact.log,?_,fun record h => decode_telemetry (hkept.subset h)⟩
  rw [← heq]
  exact hexact.accepted

/-- Three bytes of telemetry of the attitude controller, and the notice that it was reset. -/
def threeBytes : BusPacket := ⟨adcsTelemPort,2,[1,2,3],by decide⟩

def resetNotice : BusPacket := ⟨adcsStatusPort,2,[2,1],by decide⟩

def threeBytesRecord : TelemetryRecord := ingestRecord threeBytes (1700000000,5000)

/-- The telemetry is stored and goes to the ground; the notice does not go to Data. -/
def threeBytesRun : List TelemetryStep :=
  [.ingest threeBytes (some (1700000000,5000)) true,
    .ingest resetNotice (some (1700000000,9000)) true,.ipc (.write 0 25),.ipc (.accept 256),
    .ipc (.read 4),.ipc (.read 21),.store .complete,
    .downlink (.serve .sound .mission 0 1),.downlink (.batch 4),.downlink (.request true),
    .downlink (.receive (.sized .data
      (telemetryChunkReply 0 ⟨.ok,threeBytesRecord.encoded,21,21,true⟩ 0)) 0)]

theorem three_bytes_on_the_ground :
    ∃ s,run (TelemetryPath.step defaultTelemetryLogPath) init threeBytesRun = some s ∧
      s.downlink.accepted = [threeBytesRecord.encoded] ∧
      ∃ kept : List TelemetryRecord,kept.Sublist s.telemetry ∧
        s.downlink.log.getD [] = (kept.map TelemetryRecord.encoded).flatten ∧
        s.downlink.accepted <+: kept.map TelemetryRecord.encoded ∧
        ∀ record ∈ kept,obcTelemetryDecode record.encoded = .ok record := by
  have hany : (run (TelemetryPath.step defaultTelemetryLogPath) init threeBytesRun).any (fun s =>
      s.downlink.accepted = [threeBytesRecord.encoded] ∧
        (s.downlink.log.getD []).length < int64Max) = true := by
    decide +kernel
  obtain ⟨s,hrun,hs⟩ := (Option.any_eq_true _ _).mp hany
  obtain ⟨haccepted,hsize⟩ := of_decide_eq_true hs
  have hwhole : ∀ e ∈ threeBytesRun,e.Whole := by
    simp [threeBytesRun,TelemetryStep.Whole]
  exact ⟨s,hrun,haccepted,ground_gets_board_telemetry hrun hwhole hsize⟩

end TelemetryPath

/-! ### Nothing is lost without a failure -/

/-- A step in which no telemetry is lost: Commands gets its connection, no read fails, Data goes on,
and the append is complete. -/
def TelemetryStep.Undisturbed : TelemetryStep → Prop
  | .ingest _ _ connected => connected = true
  | .ipc .readFails | .ipc .restart => False
  | .store io => io = .complete
  | _ => True

namespace TelemetryPath

variable {logPath : List Byte} {s s' : TelemetryPath}

/-- Each stage has all the records of the one before. -/
structure Lossless (s : TelemetryPath) : Prop extends Bringing s where
  complete : s.mailbox.Complete ipcMaxPayload
  called_eq : s.mailbox.calls.filterMap fromCommands = s.telemetry.map TelemetryRecord.encoded
  stored_eq : (s.downlink.log.getD []).length < int64Max →
    s.downlink.records = (s.mailbox.calls.take s.mailbox.handled).filterMap fromCommands

theorem lossless_init : init.Lossless where
  toBringing := bringing_init
  complete := Mailbox.complete_initial
  called_eq := rfl
  stored_eq _ := rfl

theorem whole_of_undisturbed {e : TelemetryStep} (he : e.Undisturbed) : e.Whole := by
  cases e with
  | store io =>
    obtain rfl : io = .complete := he
    trivial
  | ingest | other | ipc | downlink => trivial

theorem Lossless.ingest (hs : s.Lossless) {packet : BusPacket} {clock : IngestClock}
    (h : s.step logPath (.ingest packet clock true) = some s') : s'.Lossless := by
  have hbringing := hs.toBringing.ingest h
  have hcall := fromCommands_ingestCall packet clock
  obtain rfl := Option.some.inj h
  cases hingest : ingestCall packet clock with
  | none =>
    rw [hingest,Option.bind_none] at hcall
    have hrecord := Option.map_eq_none_iff.mp hcall.symm
    simp only [hingest] at hbringing ⊢
    refine ⟨hbringing,hs.complete,?_,hs.stored_eq⟩
    dsimp only [telemetry]
    rw [telemetry_concat,hrecord,Option.toList_none,List.append_nil]
    exact hs.called_eq
  | some call =>
    rw [hingest,Option.bind_some] at hcall
    simp only [hingest] at hbringing ⊢
    refine ⟨hbringing,hs.complete.connect call.data_length_le,?_,?_⟩
    · dsimp only [telemetry]
      rw [Mailbox.calls_connect,List.filterMap_append,hs.called_eq,telemetry_concat,
        List.map_append]
      refine congrArg₂ (· ++ ·) rfl ?_
      cases hrecord : boardTelemetry packet clock with
      | none =>
        rw [hrecord] at hcall
        rw [List.filterMap_cons_none hcall]
        rfl
      | some record =>
        rw [hrecord] at hcall
        rw [List.filterMap_cons_some hcall]
        rfl
    · dsimp only
      rw [Mailbox.calls_connect,Mailbox.handled_connect,
        List.take_append_of_le_length hs.mailbox.handled_le_calls]
      exact hs.stored_eq

/-- What Commands sends to Data is a record. -/
theorem Lossless.decodes (hs : s.Lossless) {call : Outgoing} (hcall : call ∈ s.mailbox.calls)
    (hsrc : call.src = .commands) : Decodes call.data := by
  have hmem : call.data ∈ s.mailbox.calls.filterMap fromCommands :=
    List.mem_filterMap.mpr ⟨call,hcall,if_pos hsrc⟩
  rw [hs.called_eq] at hmem
  obtain ⟨record,hrecord,heq⟩ := List.mem_map.mp hmem
  rw [← heq]
  exact (obcTelemetryDecode_eq_ok_iff.mp (decode_telemetry hrecord)).1

theorem Lossless.store (hs : s.Lossless) (h : s.step logPath (.store .complete) = some s') :
    s'.Lossless := by
  have hbringing := hs.toBringing.store (fun _ hio => by cases hio) h
  rw [step] at h
  obtain ⟨⟨result,mailbox⟩,htake,rfl⟩ := Option.map_eq_some_iff.mp h
  obtain ⟨-,hcalls,hhandled,-⟩ := hs.mailbox.take htake
  obtain ⟨hcomplete,call,hcall,rfl⟩ := hs.complete.take htake
  refine ⟨hbringing,hcomplete,by dsimp only; rw [hcalls]; exact hs.called_eq,fun hsize => ?_⟩
  dsimp only at hsize ⊢
  rw [hcalls,hhandled,List.take_add_one,hcall,List.filterMap_append]
  rw [Downlink.store] at hsize ⊢
  by_cases hsrc : call.message.src = ObcRole.commands.value
  · have hrole := role_value_injective hsrc
    have hmessage : fromCommands call = some call.data := if_pos hrole
    have hdecodes := hs.decodes (List.mem_of_getElem? hcall) hrole
    rw [if_pos hsrc] at hsize ⊢
    obtain ⟨hbefore,⟨hrefused,-⟩ | ⟨-,hzero⟩⟩ :=
      telemetryStoreAppend_whole (fun _ hio => by cases hio) _ hsize
    · exact (hrefused.resolve_left fun hio => by cases hio).elim hdecodes
    · rw [if_pos hzero,hs.stored_eq hbefore]
      simp [hmessage,Outgoing.message]
  · have hmessage : fromCommands call = none :=
      if_neg fun hrole => hsrc (by rw [Outgoing.message,hrole])
    rw [if_neg hsrc] at hsize ⊢
    rw [hs.stored_eq hsize]
    simp [hmessage]

theorem Lossless.step (hs : s.Lossless) {e : TelemetryStep} (he : e.Undisturbed)
    (h : s.step logPath e = some s') : s'.Lossless := by
  have hbringing := hs.toBringing.step (whole_of_undisturbed he) h
  cases e with
  | ingest packet clock connected =>
    obtain rfl : connected = true := he
    exact hs.ingest h
  | other call =>
    rw [TelemetryPath.step] at h
    split_ifs at h with hsrc
    obtain rfl := Option.some.inj h
    have hnone : fromCommands call = none := if_neg fun hcommands => hsrc (.inl hcommands)
    refine ⟨hbringing,hs.complete.connect call.data_length_le,?_,?_⟩
    · rw [Mailbox.calls_connect,List.filterMap_append,List.filterMap_cons_none hnone]
      exact (List.append_nil _).trans hs.called_eq
    · dsimp only
      rw [Mailbox.calls_connect,Mailbox.handled_connect,
        List.take_append_of_le_length hs.mailbox.handled_le_calls]
      exact hs.stored_eq
  | ipc event =>
    rw [TelemetryPath.step] at h
    obtain ⟨mailbox,hmailbox,rfl⟩ := Option.map_eq_some_iff.mp h
    obtain ⟨hcomplete,hhandled⟩ := hs.complete.step (fun hevent => by rw [hevent] at he; exact he)
      (fun hevent => by rw [hevent] at he; exact he) hmailbox
    have hcalls := Mailbox.calls_step hmailbox
    refine ⟨hbringing,hcomplete,by dsimp only; rw [hcalls]; exact hs.called_eq,?_⟩
    dsimp only
    rw [hcalls,hhandled]
    exact hs.stored_eq
  | store io =>
    obtain rfl : io = .complete := he
    exact hs.store h
  | downlink action =>
    cases action with
    | append record => cases h
    | serve | batch | request | receive =>
      dsimp only [TelemetryPath.step] at h
      obtain ⟨d,hd,rfl⟩ := Option.map_eq_some_iff.mp h
      obtain ⟨hlog,hrecords⟩ := downlink_step_records (fun _ hc => by cases hc) hd
      refine ⟨hbringing,hs.complete,hs.called_eq,?_⟩
      dsimp only
      rw [hlog,hrecords]
      exact hs.stored_eq

/-- A prefix of records that is as long as all of them is all of them. -/
theorem eq_of_boundary {records accepted : List (List Byte)} (hall : ∀ r ∈ records,Decodes r)
    (hfront : accepted <+: records)
    (hend : boundary records accepted.length = records.flatten.length) : accepted = records := by
  obtain ⟨rest,rfl⟩ := hfront
  have hrest : rest.flatten.length = 0 := by
    rw [boundary,List.take_left,List.flatten_append,List.length_append] at hend
    omega
  cases rest with
  | nil => exact (List.append_nil _).symm
  | cons record rest =>
    have hpos := (hall record (List.mem_append_right _ List.mem_cons_self)).header_le
    have hheader : 0 < headerSize := by decide
    rw [List.flatten_cons,List.length_append] at hrest
    omega

/-- While nothing fails, the log has the telemetry of the first packets, of all when Data has looked
at all its messages; and when Mission's cursor is at the end of the log, the radio has got all that
is in it. -/
theorem telemetry_path_loses_nothing {steps : List TelemetryStep}
    (hrun : run (TelemetryPath.step logPath) init steps = some s)
    (hundisturbed : ∀ e ∈ steps,e.Undisturbed)
    (hsize : (s.downlink.log.getD []).length < int64Max) :
    ∃ n,s.downlink.log.getD [] = ((s.telemetry.take n).map TelemetryRecord.encoded).flatten ∧
      (s.mailbox.handled = s.mailbox.calls.length → n = s.telemetry.length) ∧
      (s.downlink.cursor = (s.downlink.log.getD []).length →
        s.downlink.accepted = (s.telemetry.take n).map TelemetryRecord.encoded) := by
  have hs : s.Lossless := run_invariant_of (P := fun _ e => e.Undisturbed)
    (fun _ _ _ hs he h => hs.step he h) lossless_init
    (fun pre e post _ has _ => hundisturbed e
      (by rw [has]; exact List.mem_append_right _ List.mem_cons_self)) hrun
  have hexact := hs.exact hsize
  have hstored := hs.stored_eq hsize
  have hfront : s.downlink.records <+: s.telemetry.map TelemetryRecord.encoded := by
    rw [hstored,← hs.called_eq]
    exact (List.take_prefix ..).filterMap _
  have hrecords : s.downlink.records =
      (s.telemetry.take s.downlink.records.length).map TelemetryRecord.encoded := by
    rw [List.map_take]
    exact List.prefix_iff_eq_take.mp hfront
  refine ⟨s.downlink.records.length,?_,fun hhandled => ?_,fun hcursor => ?_⟩
  · rw [← hrecords]
    exact hexact.log
  · rw [hstored,hhandled,List.take_length,hs.called_eq,List.length_map]
  · rw [← hrecords]
    refine eq_of_boundary hexact.decodes hexact.accepted ?_
    have hboundary := hexact.cursor
    rw [hcursor,hexact.log,Nat.zero_add] at hboundary
    exact hboundary.symm

theorem three_bytes_not_lost :
    ∃ s,run (TelemetryPath.step defaultTelemetryLogPath) init threeBytesRun = some s ∧
      s.telemetry.length = 1 ∧
      s.downlink.accepted = s.telemetry.map TelemetryRecord.encoded := by
  have hany : (run (TelemetryPath.step defaultTelemetryLogPath) init threeBytesRun).any (fun s =>
      s.telemetry.length = 1 ∧ s.mailbox.handled = s.mailbox.calls.length ∧
        s.downlink.cursor = (s.downlink.log.getD []).length ∧
        (s.downlink.log.getD []).length < int64Max) = true := by
    decide +kernel
  obtain ⟨s,hrun,hs⟩ := (Option.any_eq_true _ _).mp hany
  obtain ⟨htelemetry,hhandled,hcursor,hsize⟩ := of_decide_eq_true hs
  have hundisturbed : ∀ e ∈ threeBytesRun,e.Undisturbed := by
    simp [threeBytesRun,TelemetryStep.Undisturbed]
  obtain ⟨n,-,hn,haccepted⟩ := telemetry_path_loses_nothing hrun hundisturbed hsize
  refine ⟨s,hrun,htelemetry,?_⟩
  rw [haccepted hcursor,hn hhandled,List.take_length]

end TelemetryPath

end FlightSoftware.Telemetry
