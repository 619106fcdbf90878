import FlightSoftware.Telemetry.Downlink
import FlightSoftware.Telemetry.TornAppend

/-!
# The downlink loses and repeats nothing

Whatever becomes of the replies, the records that the radio accepts are those of
the log from the initial cursor on, in order. A reply names the offset of its
record, and the record at a boundary of an append-only log never changes, so
chunks of different answers to requests for one offset fit together.
-/

namespace FlightSoftware.Telemetry
open Obc Run RecordLog

/-! ### Records at a boundary -/

/-- The offset of the record with the given index. -/
def boundary (records : List (List Byte)) (n : ℕ) : ℕ := (records.take n).flatten.length

theorem boundary_succ {records : List (List Byte)} {n : ℕ} {record : List Byte}
    (h : records[n]? = some record) :
    boundary records (n+1) = boundary records n + record.length := by
  rw [boundary,boundary,List.take_add_one,h]
  simp

theorem boundary_append {records : List (List Byte)} {n : ℕ} (h : n ≤ records.length)
    (more : List (List Byte)) : boundary (records ++ more) n = boundary records n := by
  rw [boundary,boundary,List.take_append_of_le_length h]

/-- A byte string starts with at most one record. -/
theorem Decodes.front_unique {r r' t t' : List Byte} (hr : Decodes r) (hr' : Decodes r')
    (h : r ++ t = r' ++ t') : r = r' := by
  have hfield : lengthField r = lengthField r' := by
    rw [← lengthField_append hr.header_le t,h,lengthField_append hr'.header_le]
  refine (List.append_inj h ?_).1
  rw [hr.length,hr'.length,hfield]

/-- Behind a boundary stands the record with its index. -/
theorem drop_boundary {records : List (List Byte)} {n : ℕ} {record : List Byte}
    (h : records[n]? = some record) :
    records.flatten.drop (boundary records n) = record ++ (records.drop (n+1)).flatten := by
  obtain ⟨hn,hget⟩ := List.getElem?_eq_some_iff.mp h
  have hsplit : records = records.take n ++ record :: records.drop (n+1) := by
    rw [← hget,← List.drop_eq_getElem_cons hn,List.take_append_drop]
  conv_lhs => rw [hsplit,List.flatten_append]
  rw [boundary,← hsplit,List.drop_left,List.flatten_cons]

/-- A record that was read at a boundary of the present log, when the log was perhaps shorter,
is the one with that index. -/
theorem record_at_boundary {earlier later : List (List Byte)} {n : ℕ} {record rest : List Byte}
    (hall : ∀ r ∈ earlier,Decodes r) (hrecord : Decodes record)
    (h : earlier.flatten.drop (boundary (earlier ++ later) n) = record ++ rest) :
    (earlier ++ later)[n]? = some record := by
  rcases Nat.lt_or_ge n earlier.length with hn | hn
  · have hget : earlier[n]? = some earlier[n] := List.getElem?_eq_getElem hn
    rw [boundary_append hn.le,drop_boundary hget] at h
    rw [List.getElem?_append_left hn,hget,
      Decodes.front_unique (hall _ (List.getElem_mem hn)) hrecord h]
  · -- The log ended before the boundary, so nothing was read there.
    have hle : earlier.flatten.length ≤ boundary (earlier ++ later) n := by
      rw [boundary,List.take_append,List.take_of_length_le hn,List.flatten_append,
        List.length_append]
      omega
    rw [List.drop_eq_nil_of_le hle] at h
    have hempty := (List.append_eq_nil_iff.mp h.symm).1
    have := hrecord.header_le
    rw [hempty] at this
    exact absurd this (by decide)

/-! ### Replies -/

/-- What a reply says of the record at an offset. -/
structure ChunkOf (offset : ℕ) (record : List Byte) (reply : TelemetryReadReply) : Prop where
  nextOffset : reply.nextOffset = offset + record.length
  recordLength : reply.recordLength = record.length
  payload : reply.payload.take reply.chunkLength =
    (record.drop reply.chunkOffset).take reply.chunkLength

theorem telemetryChunkReply_chunkOf (offset : ℕ) (record : List Byte) (endOfLog : Bool)
    (chunkOffset : ℕ) :
    ChunkOf offset record (telemetryChunkReply offset
      ⟨.ok,record,record.length,offset + record.length,endOfLog⟩ chunkOffset) where
  nextOffset := rfl
  recordLength := rfl
  payload := by
    dsimp only [telemetryChunkReply]
    set chunkLength := min (record.length - chunkOffset) readChunkSize with hmin
    have hlength : ((record.drop chunkOffset).take chunkLength).length = chunkLength := by
      rw [List.length_take,List.length_drop]
      omega
    have hchunk : ((record.drop chunkOffset).take chunkLength).length ≤ readChunkSize := by omega
    have := take_padTo hchunk
    rwa [hlength] at this

theorem mem_telemetryChunkReplies {offset chunkOffset : ℕ} {read : ReadResult}
    {reply : TelemetryReadReply} (h : reply ∈ telemetryChunkReplies offset read chunkOffset) :
    ∃ c,reply = telemetryChunkReply offset read c := by
  induction chunkOffset using telemetryChunkReplies.induct read with
  | case1 chunkOffset hlt ih =>
    rw [telemetryChunkReplies,if_pos hlt,List.mem_cons] at h
    rcases h with rfl | h
    · exact ⟨chunkOffset,rfl⟩
    · exact ih h
  | case2 chunkOffset hge =>
    rw [telemetryChunkReplies,if_neg hge] at h
    cases h

theorem ReadStatus.value_ne_zero {status : ReadStatus} (h : status ≠ .ok) : status.value ≠ 0 := by
  cases status with
  | ok => exact absurd rfl h
  | endOfLog => decide
  | ioError => decide
  | invalidRecord => decide
  | invalidArgument => decide

/-- A reply that Data sent when the log had perhaps fewer records. -/
def Authentic (records : List (List Byte)) (reply : TelemetryReadReply) : Prop :=
  ∃ earlier later log io requester offset,records = earlier ++ later ∧
    log.getD [] = earlier.flatten ∧ reply ∈ handleTelemetryRead io log requester offset

theorem Authentic.append {records : List (List Byte)} {reply : TelemetryReadReply}
    (h : Authentic records reply) (more : List (List Byte)) :
    Authentic (records ++ more) reply := by
  obtain ⟨earlier,later,log,io,requester,offset,rfl,hlog,hmem⟩ := h
  exact ⟨earlier,later ++ more,log,io,requester,offset,List.append_assoc _ _ _,hlog,hmem⟩

/-- A chunk for a boundary of the log is a chunk of the record there. -/
theorem Authentic.chunkOf {records : List (List Byte)} {reply : TelemetryReadReply} {n : ℕ}
    (h : Authentic records reply) (hall : ∀ r ∈ records,Decodes r)
    (hoffset : reply.recordOffset = boundary records n) (hstatus : reply.status = 0) :
    ∃ record,records[n]? = some record ∧ ChunkOf (boundary records n) record reply := by
  obtain ⟨earlier,later,log,io,requester,offset,rfl,hlog,hmem⟩ := h
  unfold handleTelemetryRead at hmem
  split at hmem
  · cases hmem
  dsimp only at hmem
  split at hmem
  · rename_i hread
    rw [List.mem_singleton] at hmem
    rw [hmem] at hstatus
    exact absurd hstatus (ReadStatus.value_ne_zero hread)
  · rename_i hread
    obtain ⟨bytes,record,rest,rfl,hbytes,hrecord,hresult⟩ :=
      telemetryStoreReadRecord_ok (not_not.mp hread)
    rw [hresult] at hmem
    obtain ⟨c,rfl⟩ := mem_telemetryChunkReplies hmem
    obtain rfl : offset = boundary (earlier ++ later) n := hoffset
    rw [Option.getD_some] at hlog
    rw [hlog] at hbytes
    exact ⟨record,record_at_boundary (fun r hr => hall r (List.mem_append_left _ hr)) hrecord hbytes,
      telemetryChunkReply_chunkOf _ _ _ _⟩

/-! ### One pass of the receive loop -/

/-- What has been put together is the front of the record at the cursor. -/
def Partial (records : List (List Byte)) (n : ℕ) (read : RecordRead) : Prop :=
  read.encoded = [] ∨ ∃ record,records[n]? = some record ∧ read.encoded <+: record

theorem Partial.append {records : List (List Byte)} {n : ℕ} {read : RecordRead}
    (h : Partial records n read) (more : List (List Byte)) : Partial (records ++ more) n read := by
  obtain h | ⟨record,hget,hfront⟩ := h
  · exact .inl h
  · exact .inr ⟨record,List.getElem?_append_left (List.getElem?_eq_some_iff.mp hget).1 ▸ hget,hfront⟩

/-- What a pass over any message that can arrive comes to. -/
def PassExact (records : List (List Byte)) (n : ℕ) : ReceivePass → Prop
  | .again read => Partial records n read
  | .failed => True
  | .ended nextOffset => nextOffset = boundary records n
  | .transmit encoded nextOffset _ =>
    records[n]? = some encoded ∧ nextOffset = boundary records n + encoded.length

theorem receiveChunk_exact {records : List (List Byte)} {n : ℕ} {read : RecordRead}
    {reply : TelemetryReadReply} (hread : Partial records n read)
    (hall : ∀ r ∈ records,Decodes r) (hreply : Authentic records reply)
    (hstatus : reply.status = 0) :
    PassExact records n (receiveChunk (boundary records n) read reply) := by
  unfold receiveChunk
  split
  · trivial
  rename_i hchecks
  simp only [not_or,not_not] at hchecks
  obtain ⟨hoffset,-,-,-,hchunk,-⟩ := hchecks
  obtain ⟨record,hget,hof⟩ := hreply.chunkOf hall hoffset hstatus
  have hfront : read.encoded <+: record := by
    obtain hnil | ⟨record',hget',hfront⟩ := hread
    · rw [hnil]
      exact List.nil_prefix
    · rw [hget] at hget'
      exact Option.some.inj hget' ▸ hfront
  have hfront : read.encoded ++ reply.payload.take reply.chunkLength <+: record := by
    obtain ⟨rest,rfl⟩ := hfront
    rw [hof.payload,hchunk,List.drop_left]
    exact List.prefix_append_right_inj _ |>.mpr (List.take_prefix _ _)
  split
  · trivial
  dsimp only
  split
  · split
    · trivial
    · exact .inr ⟨record,hget,hfront⟩
  · split
    · trivial
    rename_i hlength
    split
    · trivial
    have hwhole := hfront.eq_of_length ((not_not.mp hlength).trans hof.recordLength)
    exact ⟨hwhole ▸ hget,hwhole ▸ hof.nextOffset⟩

theorem receivePass_exact {s : Downlink} {n : ℕ} {read : RecordRead} {message : Received}
    (hread : Partial s.records n read) (hall : ∀ r ∈ s.records,Decodes r)
    (hreplies : ∀ reply ∈ s.replies,Authentic s.records reply) (harrives : s.Arrives message) :
    PassExact s.records n (receivePass (boundary s.records n) read message) := by
  cases message with
  | timeout => trivial
  | unsized => exact hread
  | sized source reply =>
    rw [receivePass]
    split
    · exact hread
    rename_i hdata
    obtain ⟨hsource,-⟩ := not_or.mp hdata
    split
    · split
      · trivial
      · rename_i hend
        simp only [not_or,not_not] at hend
        exact hend.2.2.2.2
    · split
      · trivial
      · rename_i hstatus
        exact receiveChunk_exact hread hall
          (hreplies reply (harrives.resolve_left hsource))
          (not_not.mp hstatus)

/-! ### The invariant -/

/-- The radio has accepted the records from the one with index `n`, at the offset `origin`, on
up to the cursor. -/
structure Downlink.Exact (n origin : ℕ) (s : Downlink) : Prop where
  log : s.log.getD [] = s.records.flatten
  decodes : ∀ r ∈ s.records,Decodes r
  authentic : ∀ reply ∈ s.replies,Authentic s.records reply
  start : n ≤ s.records.length
  origin : boundary s.records n = origin
  accepted : s.accepted <+: s.records.drop n
  cursor : s.cursor = boundary s.records (n + s.accepted.length)
  sent : s.recordsSent + s.acceptedBefore = s.accepted.length
  reading : ∀ call read,s.call = some call → call.waiting = some read →
    Partial s.records (n + s.accepted.length) read

namespace Downlink.Exact

variable {s : Downlink} {n origin : ℕ}

theorem accepted_le (h : s.Exact n origin) : n + s.accepted.length ≤ s.records.length := by
  have := h.accepted.length_le
  rw [List.length_drop] at this
  have := h.start
  omega

/-- Everything but the call may be as it was. -/
theorem with_call (h : s.Exact n origin) {call : Option BatchCall} {endOfLog : Bool}
    {returned : Option ℤ} (hcall : ∀ c read,call = some c → c.waiting = some read →
      Partial s.records (n + s.accepted.length) read) :
    Downlink.Exact n origin { s with call,endOfLog,returned } :=
  ⟨h.log,h.decodes,h.authentic,h.start,h.origin,h.accepted,h.cursor,h.sent,hcall⟩

theorem finish (h : s.Exact n origin) (result : ℤ) : (s.finish result).Exact n origin :=
  h.with_call (by rintro c read ⟨⟩)

theorem append (h : s.Exact n origin) {record : List Byte} {log : Option (List Byte)}
    (happend : telemetryStoreAppend .complete record s.log = (0,log)) :
    Downlink.Exact n origin { s with log,records := s.records ++ [record] } := by
  obtain ⟨hdecodes,rfl,-⟩ := telemetryStoreAppend_zero happend
  constructor
  case log =>
    change s.log.getD [] ++ record = (s.records ++ [record]).flatten
    rw [h.log,List.flatten_append,List.flatten_singleton]
  case decodes =>
    intro r hr
    rcases List.mem_append.mp hr with hr | hr
    · exact h.decodes r hr
    · exact List.mem_singleton.mp hr ▸ hdecodes
  case authentic => exact fun reply hreply => (h.authentic reply hreply).append _
  case start =>
    have := h.start
    simp only [List.length_append]
    omega
  case origin => rw [boundary_append h.start,h.origin]
  case accepted =>
    dsimp only
    rw [List.drop_append_of_le_length h.start]
    exact h.accepted.trans (List.prefix_append _ _)
  case cursor =>
    rw [h.cursor]
    exact (boundary_append h.accepted_le _).symm
  case sent => exact h.sent
  case reading => exact fun call read hcall hwaiting => (h.reading call read hcall hwaiting).append _

theorem serve (h : s.Exact n origin) (io : ReadIo) (requester : ObcRole) (offset delivered : ℕ) :
    Downlink.Exact n origin { s with
      replies := s.replies ++ (handleTelemetryRead io s.log requester offset).take delivered } := by
  refine ⟨h.log,h.decodes,?_,h.start,h.origin,h.accepted,h.cursor,h.sent,h.reading⟩
  intro reply hreply
  rcases List.mem_append.mp hreply with hreply | hreply
  · exact h.authentic reply hreply
  · exact ⟨s.records,[],s.log,io,requester,offset,(List.append_nil _).symm,h.log,
      List.mem_of_mem_take hreply⟩

/-- The record at the cursor is accepted, and the cursor moves behind it. -/
theorem accept (h : s.Exact n origin) {record : List Byte} {call : Option BatchCall} {endOfLog : Bool}
    {returned : Option ℤ} (hrecord : s.records[n + s.accepted.length]? = some record)
    (hcall : ∀ c,call = some c → c.waiting = none) :
    Downlink.Exact n origin { s with
      call,endOfLog,returned
      accepted := s.accepted ++ [record]
      cursor := s.cursor + record.length
      recordsSent := s.recordsSent+1 } := by
  refine ⟨h.log,h.decodes,h.authentic,h.start,h.origin,?_,?_,?_,?_⟩
  · obtain ⟨rest,hrest⟩ := h.accepted
    rw [← List.getElem?_drop,← hrest,List.getElem?_append_right le_rfl,Nat.sub_self] at hrecord
    cases rest with
    | nil => cases hrecord
    | cons first rest =>
      obtain rfl := Option.some.inj hrecord
      refine ⟨rest,?_⟩
      rw [← hrest,List.append_assoc,List.singleton_append]
  · dsimp only
    rw [List.length_append,List.length_singleton,← Nat.add_assoc,boundary_succ hrecord,h.cursor]
  · have := h.sent
    simp only [List.length_append,List.length_singleton]
    omega
  · intro c read hc hwaiting
    rw [hcall c hc] at hwaiting
    cases hwaiting

theorem recordReturned_end (h : s.Exact n origin) (call : BatchCall) :
    (s.recordReturned call s.cursor true).Exact n origin := by
  rw [Downlink.recordReturned,if_pos rfl,if_neg (by decide)]
  exact h.with_call (by rintro c read ⟨⟩)

theorem recordReturned_accept (h : s.Exact n origin) {record : List Byte}
    (hrecord : s.records[n + s.accepted.length]? = some record) (call : BatchCall)
    (endOfLog : Bool) :
    ({ s with accepted := s.accepted ++ [record] }.recordReturned call (s.cursor + record.length)
      endOfLog).Exact n origin := by
  have hpos : 0 < record.length :=
    lt_of_lt_of_le (by decide) (h.decodes record (List.mem_of_getElem? hrecord)).header_le
  unfold Downlink.recordReturned
  rw [if_neg (by dsimp only; omega)]
  dsimp only
  split
  · exact h.accept hrecord (by rintro c ⟨⟩)
  · split
    · refine h.accept hrecord ?_
      rintro c ⟨⟩
      rfl
    · exact h.accept hrecord (by rintro c ⟨⟩)

theorem received (h : s.Exact n origin) (call : BatchCall) (radioResult : ℤ) {pass : ReceivePass}
    (hpass : PassExact s.records (n + s.accepted.length) pass) :
    (s.received call radioResult pass).Exact n origin := by
  cases pass with
  | again read =>
    refine h.with_call ?_
    rintro c read' ⟨⟩ ⟨⟩
    exact hpass
  | failed => exact h.finish (-1)
  | ended nextOffset =>
    obtain rfl : nextOffset = s.cursor := hpass.trans h.cursor.symm
    exact h.recordReturned_end call
  | transmit encoded nextOffset endOfLog =>
    rw [Downlink.received]
    split
    · exact h.finish (-1)
    · obtain ⟨hrecord,hnext⟩ := hpass
      rw [hnext,← h.cursor]
      exact h.recordReturned_accept hrecord call endOfLog

theorem step (h : s.Exact n origin) {a : DownlinkAction} {s' : Downlink} (hs : s.step a = some s') :
    s'.Exact n origin := by
  cases a with
  | append record =>
    rw [Downlink.step] at hs
    split at hs
    · rename_i hzero
      obtain rfl := Option.some.inj hs
      exact h.append (Prod.ext hzero rfl)
    · cases hs
  | serve io requester offset delivered =>
    obtain rfl := Option.some.inj hs
    exact h.serve io requester offset delivered
  | batch maxRecords =>
    rw [Downlink.step] at hs
    split at hs
    · cases hs
    · split at hs
      · obtain rfl := Option.some.inj hs
        exact h.finish (-1)
      · obtain rfl := Option.some.inj hs
        refine ⟨h.log,h.decodes,h.authentic,h.start,h.origin,h.accepted,h.cursor,Nat.zero_add _,?_⟩
        rintro call read ⟨⟩ ⟨⟩
  | request sent =>
    rw [Downlink.step] at hs
    split at hs
    · split at hs
      · obtain rfl := Option.some.inj hs
        refine h.with_call ?_
        rintro call read ⟨⟩ ⟨⟩
        exact .inl rfl
      · obtain rfl := Option.some.inj hs
        exact h.finish (-1)
    · cases hs
  | receive message radioResult =>
    rw [Downlink.step] at hs
    split at hs
    · rename_i maxRecords i read hcall
      split at hs
      · rename_i harrives
        obtain rfl := Option.some.inj hs
        refine h.received _ radioResult ?_
        rw [h.cursor]
        exact receivePass_exact (h.reading _ read hcall rfl) h.decodes h.authentic harrives
      · cases hs
    · cases hs

end Downlink.Exact

/-! ### Every run -/

/-- No call has begun, the cursor is at the record with index `n`, and all replies that are
still to arrive answer requests of the past. -/
structure Downlink.Ready (n : ℕ) (s : Downlink) : Prop where
  log : Appended none s.records s.log
  authentic : ∀ reply ∈ s.replies,Authentic s.records reply
  start : n ≤ s.records.length
  cursor : s.cursor = boundary s.records n
  call : s.call = none
  accepted : s.accepted = []
  sent : s.recordsSent = 0 ∧ s.acceptedBefore = 0

theorem Downlink.Ready.exact {n : ℕ} {s : Downlink} (h : s.Ready n) : s.Exact n s.cursor := by
  obtain ⟨hdecodes,hlog,-⟩ := h.log.spec (Nat.zero_le _)
  refine ⟨hlog,hdecodes,h.authentic,h.start,h.cursor.symm,?_,?_,?_,?_⟩
  · rw [h.accepted]
    exact List.nil_prefix
  · rw [h.accepted,h.cursor]
    rfl
  · rw [h.accepted,h.sent.1,h.sent.2]
    rfl
  · intro call read hcall
    rw [h.call] at hcall
    cases hcall

/-- In every run the records that the radio has accepted are those of the log from the initial
cursor on, in order and each once, the cursor is the offset of the next one, and `records_sent`
is the number accepted since the call began. -/
theorem telemetry_downlink_exact {start s : Downlink} {actions : List DownlinkAction} {n : ℕ}
    (hstart : start.Ready n) (hrun : run Downlink.step start actions = some s) :
    s.log.getD [] = s.records.flatten ∧ boundary s.records n = start.cursor ∧
      s.accepted <+: s.records.drop n ∧
      s.cursor = boundary s.records (n + s.accepted.length) ∧
      s.recordsSent + s.acceptedBefore = s.accepted.length := by
  have h := run_invariant (I := Downlink.Exact n start.cursor) (fun s a s' h hs => h.step hs)
    hstart.exact hrun
  exact ⟨h.log,h.origin,h.accepted,h.cursor,h.sent⟩

/-- Mission with its cursor at the start of a log of one record. -/
def Downlink.oneRecord : Downlink :=
  ⟨some emptyRecord,[],0,0,false,none,none,[emptyRecord],[],0⟩

/-- Data answers twice and the log grows in between; a batch sends the first record, and the
radio refuses the second. -/
def twoAnswers : List DownlinkAction :=
  [.serve .sound .mission 0 1,.append emptyRecord,.serve .sound .mission 0 1,.batch 4,.request true,
    .receive (.sized .data (telemetryChunkReply 0 ⟨.ok,emptyRecord,18,18,false⟩ 0)) 0,.request true,
    .receive .unsized 0,.serve .sound .mission 18 1,
    .receive (.sized .data (telemetryChunkReply 18 ⟨.ok,emptyRecord,18,36,true⟩ 0)) (-1)]

theorem one_record_sent : ∃ s,run Downlink.step .oneRecord twoAnswers = some s ∧
    s.accepted = [emptyRecord] ∧ s.returned = some (-1) ∧
    s.cursor = boundary s.records (0 + s.accepted.length) ∧
    s.recordsSent + s.acceptedBefore = s.accepted.length := by
  have hready : Downlink.oneRecord.Ready 0 := by
    have happend : telemetryStoreAppend .complete emptyRecord none = (0,some emptyRecord) := by
      decide +kernel
    refine ⟨.cons happend (.nil _),?_,Nat.zero_le _,rfl,rfl,rfl,rfl,rfl⟩
    rintro reply ⟨⟩
  have hrun : (run Downlink.step .oneRecord twoAnswers).map (fun s => (s.accepted,s.returned)) =
      some ([emptyRecord],some (-1)) := by
    decide +kernel
  obtain ⟨s,hs,hfields⟩ := Option.map_eq_some_iff.mp hrun
  obtain ⟨-,-,-,hcursor,hsent⟩ := telemetry_downlink_exact hready hs
  exact ⟨s,hs,congrArg Prod.fst hfields,congrArg Prod.snd hfields,hcursor,hsent⟩

end FlightSoftware.Telemetry
