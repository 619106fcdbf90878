import FlightSoftware.Telemetry.DownlinkIntegrity

/-!
# Replies that cannot be trusted

One call of `payload_commander_downlink_telemetry_record` and the batches around it, with
any messages in Mission's inbox. Of the fields of a reply `next_offset` is taken as it is,
and a reply for another offset ends the call.
-/

namespace FlightSoftware.Telemetry
open Obc Run

/-! ### One call -/

/-- What a call comes to: -1, 0 at the end of the log, or 0 after the radio has accepted a
record. -/
inductive RecordResult where
  | failed
  | ended (nextOffset : ℕ)
  | sent (encoded : List Byte) (nextOffset : ℕ) (endOfLog : Bool)
  deriving DecidableEq

/-- The receive loop over the messages that arrive before the deadline. -/
def receiveLoop (offset : ℕ) (radioResult : ℤ) : RecordRead → List Received → RecordResult
  | _,[] => .failed
  | read,message :: messages =>
    match receivePass offset read message with
    | .again read => receiveLoop offset radioResult read messages
    | .failed => .failed
    | .ended nextOffset => .ended nextOffset
    | .transmit encoded nextOffset endOfLog =>
      if radioResult ≠ 0 then .failed else .sent encoded nextOffset endOfLog

/-- `payload_commander_downlink_telemetry_record`, where `sent` says that the request is. -/
def downlinkTelemetryRecord (offset : ℕ) (sent : Bool) (messages : List Received)
    (radioResult : ℤ) : RecordResult :=
  if sent then receiveLoop offset radioResult (.start offset) messages else .failed

/-! ### The cursor -/

/-- The reply that completes a record in the receive loop. -/
def completingReply (offset : ℕ) : RecordRead → List Received → Option TelemetryReadReply
  | _,[] => none
  | read,message :: messages =>
    match receivePass offset read message,message with
    | .again read,_ => completingReply offset read messages
    | .transmit _ _ _,.sized _ reply => some reply
    | _,_ => none

/-- The reply says that the next record begins where this one ends. -/
def TelemetryReadReply.Consistent (reply : TelemetryReadReply) : Prop :=
  reply.nextOffset = reply.recordOffset + reply.recordLength

/-- The cursor moves behind the record that was sent. -/
def RecordResult.Advances (offset : ℕ) : RecordResult → Prop
  | .sent encoded nextOffset _ => nextOffset = offset + encoded.length ∧ offset < nextOffset
  | _ => True

/-- What the checks of a pass make sure of: a record that goes to the radio is as long as the
reply says, for the offset that was asked for, and the cursor is the one of the reply. The end
of the log is believed only at that offset. -/
def PassChecked (offset : ℕ) (reply : TelemetryReadReply) : ReceivePass → Prop
  | .ended nextOffset => nextOffset = offset
  | .transmit encoded nextOffset _ =>
    nextOffset = reply.nextOffset ∧ reply.recordOffset = offset ∧
      encoded.length = reply.recordLength ∧ 0 < reply.recordLength
  | _ => True

theorem receiveChunk_checked (offset : ℕ) (read : RecordRead) (reply : TelemetryReadReply) :
    PassChecked offset reply (receiveChunk offset read reply) := by
  unfold receiveChunk
  split
  · trivial
  rename_i hchecks
  simp only [not_or,not_not] at hchecks
  split
  · trivial
  dsimp only
  split
  · split <;> trivial
  split
  · trivial
  rename_i hlength
  split
  · trivial
  exact ⟨rfl,hchecks.1,not_not.mp hlength,Nat.pos_of_ne_zero hchecks.2.1⟩

theorem receivePass_checked (offset : ℕ) (read : RecordRead) (source : ObcRole)
    (reply : TelemetryReadReply) :
    PassChecked offset reply (receivePass offset read (.sized source reply)) := by
  rw [receivePass]
  split
  · trivial
  split
  · split
    · trivial
    rename_i hend
    simp only [not_or,not_not] at hend
    exact hend.2.2.2.2
  split
  · trivial
  exact receiveChunk_checked offset read reply

theorem receivePass_transmit {offset : ℕ} {read : RecordRead} {message : Received}
    {encoded : List Byte} {nextOffset : ℕ} {endOfLog : Bool}
    (h : receivePass offset read message = .transmit encoded nextOffset endOfLog) :
    ∃ source reply,message = .sized source reply ∧ nextOffset = reply.nextOffset ∧
      reply.recordOffset = offset ∧ encoded.length = reply.recordLength ∧
      0 < reply.recordLength := by
  cases message with
  | timeout | unsized => cases h
  | sized source reply =>
    have hchecked := receivePass_checked offset read source reply
    rw [h] at hchecked
    exact ⟨source,reply,rfl,hchecked⟩

theorem receiveLoop_advances_iff {offset : ℕ} {radioResult : ℤ} {read : RecordRead}
    {messages : List Received} :
    (receiveLoop offset radioResult read messages).Advances offset ↔
      (radioResult = 0 → ∀ reply,completingReply offset read messages = some reply →
        reply.Consistent) := by
  induction messages generalizing read with
  | nil => exact iff_of_true trivial nofun
  | cons message messages ih =>
    unfold receiveLoop completingReply
    cases hpass : receivePass offset read message with
    | again read' => exact ih
    | failed => exact iff_of_true trivial nofun
    | ended nextOffset => exact iff_of_true trivial nofun
    | transmit encoded nextOffset endOfLog =>
      obtain ⟨source,reply,rfl,rfl,rfl,hlength,hpos⟩ := receivePass_transmit hpass
      dsimp only
      -- an accepted record moves the cursor to what its last reply says
      by_cases hradio : radioResult = 0
      · rw [if_neg (not_not.mpr hradio)]
        constructor
        · rintro ⟨hnext,-⟩ - other hother
          obtain rfl := Option.some.inj hother
          rw [TelemetryReadReply.Consistent,hnext,hlength]
        · intro hconsistent
          have hnext := hconsistent hradio reply rfl
          rw [TelemetryReadReply.Consistent] at hnext
          exact ⟨by omega,by omega⟩
      · rw [if_pos hradio]
        exact iff_of_true trivial fun hzero => absurd hzero hradio

theorem record_call_advances_iff {offset : ℕ} {sent : Bool} {messages : List Received}
    {radioResult : ℤ} :
    (downlinkTelemetryRecord offset sent messages radioResult).Advances offset ↔
      (sent = true → radioResult = 0 →
        ∀ reply,completingReply offset (.start offset) messages = some reply →
          reply.Consistent) := by
  unfold downlinkTelemetryRecord
  cases sent with
  | false => exact iff_of_true trivial nofun
  | true => simpa using receiveLoop_advances_iff

/-! ### Batches with any messages -/

/-- The steps of a downlink in which any message may arrive. -/
def Downlink.stepAny (s : Downlink) : DownlinkAction → Option Downlink
  | .receive message radioResult =>
    match s.call with
    | some ⟨maxRecords,i,some read⟩ =>
      some (s.received ⟨maxRecords,i,some read⟩ radioResult (receivePass s.cursor read message))
    | _ => none
  | action => s.step action

/-- A message that completes a record says where the next one begins. -/
def Downlink.Trusts (s : Downlink) : DownlinkAction → Prop
  | .receive message _ => ∀ call read source reply,s.call = some call →
      call.waiting = some read → message = .sized source reply →
      (∃ encoded nextOffset endOfLog,
        receivePass s.cursor read message = .transmit encoded nextOffset endOfLog) →
      reply.Consistent
  | _ => True

/-- Every record that the radio has accepted has moved the cursor by its length, and counts. -/
structure Downlink.Counted (origin : ℕ) (s : Downlink) : Prop where
  cursor : s.cursor = origin + s.accepted.flatten.length
  sent : s.recordsSent + s.acceptedBefore = s.accepted.length

namespace Downlink.Counted

variable {s s' : Downlink} {origin : ℕ}

theorem same (h : s.Counted origin) (hcursor : s'.cursor = s.cursor)
    (haccepted : s'.accepted = s.accepted) (hsent : s'.recordsSent = s.recordsSent)
    (hbefore : s'.acceptedBefore = s.acceptedBefore) : s'.Counted origin := by
  refine ⟨?_,?_⟩
  · rw [hcursor,haccepted,h.cursor]
  · rw [hsent,hbefore,haccepted,h.sent]

theorem accept (h : s.Counted origin) {record : List Byte} {call : Option BatchCall}
    {endOfLog : Bool} {returned : Option ℤ} :
    Downlink.Counted origin { s with
      call,endOfLog,returned
      accepted := s.accepted ++ [record]
      cursor := s.cursor + record.length
      recordsSent := s.recordsSent+1 } := by
  refine ⟨?_,?_⟩
  · dsimp only
    rw [h.cursor,List.flatten_append,List.flatten_singleton,List.length_append,Nat.add_assoc]
  · have := h.sent
    simp only [List.length_append,List.length_singleton]
    omega

theorem recordReturned_end (h : s.Counted origin) (call : BatchCall) :
    (s.recordReturned call s.cursor true).Counted origin := by
  rw [Downlink.recordReturned,if_pos rfl,if_neg (by decide)]
  exact h.same rfl rfl rfl rfl

theorem recordReturned_accept (h : s.Counted origin) {record : List Byte} (hpos : 0 < record.length)
    (call : BatchCall) (endOfLog : Bool) :
    ({ s with accepted := s.accepted ++ [record] }.recordReturned call (s.cursor + record.length)
      endOfLog).Counted origin := by
  unfold Downlink.recordReturned
  rw [if_neg (by dsimp only; omega)]
  dsimp only
  split
  · exact h.accept
  · split
    · exact h.accept
    · exact h.accept

theorem received (h : s.Counted origin) {call : BatchCall} {radioResult : ℤ} {pass : ReceivePass}
    (hended : ∀ nextOffset,pass = .ended nextOffset → nextOffset = s.cursor)
    (htransmit : ∀ encoded nextOffset endOfLog,pass = .transmit encoded nextOffset endOfLog →
      0 < encoded.length ∧ nextOffset = s.cursor + encoded.length) :
    (s.received call radioResult pass).Counted origin := by
  cases pass with
  | again read => exact h.same rfl rfl rfl rfl
  | failed => exact h.same rfl rfl rfl rfl
  | ended nextOffset =>
    obtain rfl := hended nextOffset rfl
    exact h.recordReturned_end call
  | transmit encoded nextOffset endOfLog =>
    obtain ⟨hpos,rfl⟩ := htransmit encoded nextOffset endOfLog rfl
    rw [Downlink.received]
    split
    · exact h.same rfl rfl rfl rfl
    · exact h.recordReturned_accept hpos call endOfLog

theorem receivePass_ended {offset : ℕ} {read : RecordRead} {message : Received} {nextOffset : ℕ}
    (h : receivePass offset read message = .ended nextOffset) : nextOffset = offset := by
  cases message with
  | timeout | unsized => cases h
  | sized source reply =>
    have hchecked := receivePass_checked offset read source reply
    rw [h] at hchecked
    exact hchecked

theorem step (h : s.Counted origin) {action : DownlinkAction} (htrusts : s.Trusts action)
    (hstep : s.stepAny action = some s') : s'.Counted origin := by
  cases action with
  | append record =>
    change s.step (.append record) = some s' at hstep
    rw [Downlink.step] at hstep
    split at hstep
    · obtain rfl := Option.some.inj hstep
      exact h.same rfl rfl rfl rfl
    · cases hstep
  | serve io requester offset delivered =>
    obtain rfl := Option.some.inj hstep
    exact h.same rfl rfl rfl rfl
  | batch maxRecords =>
    change s.step (.batch maxRecords) = some s' at hstep
    rw [Downlink.step] at hstep
    split at hstep
    · cases hstep
    · split at hstep
      · obtain rfl := Option.some.inj hstep
        exact h.same rfl rfl rfl rfl
      · obtain rfl := Option.some.inj hstep
        exact ⟨h.cursor,Nat.zero_add _⟩
  | request sent =>
    change s.step (.request sent) = some s' at hstep
    rw [Downlink.step] at hstep
    split at hstep
    · split at hstep
      · obtain rfl := Option.some.inj hstep
        exact h.same rfl rfl rfl rfl
      · obtain rfl := Option.some.inj hstep
        exact h.same rfl rfl rfl rfl
    · cases hstep
  | receive message radioResult =>
    rw [stepAny] at hstep
    split at hstep
    · rename_i maxRecords i read hcall
      obtain rfl := Option.some.inj hstep
      refine h.received (fun nextOffset => receivePass_ended) ?_
      intro encoded nextOffset endOfLog hpass
      obtain ⟨source,reply,rfl,rfl,hoffset,hlength,hpos⟩ := receivePass_transmit hpass
      have hnext := htrusts _ read source reply hcall rfl rfl ⟨_,_,_,hpass⟩
      rw [TelemetryReadReply.Consistent] at hnext
      exact ⟨by omega,by omega⟩
    · cases hstep

end Downlink.Counted

/-- A call advances the cursor by the record that it sent exactly when the reply that completed
the record is consistent. As long as such replies are, every record that the radio has accepted
in a run has moved the cursor by its length and counts in `records_sent`. -/
theorem cursor_follows_records (offset : ℕ) (sent : Bool) (messages : List Received)
    (radioResult : ℤ) :
    ((downlinkTelemetryRecord offset sent messages radioResult).Advances offset ↔
      (sent = true → radioResult = 0 →
        ∀ reply,completingReply offset (.start offset) messages = some reply →
          reply.Consistent)) ∧
    ∀ (start s : Downlink) (actions : List DownlinkAction),start.accepted = [] →
      start.recordsSent = 0 → start.acceptedBefore = 0 →
      (∀ before action after t,actions = before ++ action :: after →
        run Downlink.stepAny start before = some t → t.Trusts action) →
      run Downlink.stepAny start actions = some s → s.Counted start.cursor := by
  refine ⟨record_call_advances_iff,?_⟩
  intro start s actions haccepted hsent hbefore htrusts hrun
  have hstart : start.Counted start.cursor := by
    refine ⟨?_,?_⟩
    · rw [haccepted]
      rfl
    · rw [haccepted,hsent,hbefore]
      rfl
  exact run_invariant_of (I := Downlink.Counted start.cursor) (P := Downlink.Trusts)
    (fun t a t' h ha hstep => h.step ha hstep) hstart htrusts hrun

/-- A batch sends the record of a reply that says where the next one begins. -/
def oneGoodReply : List DownlinkAction :=
  [.batch 1,.request true,
    .receive (.sized .data (telemetryChunkReply 0 ⟨.ok,emptyRecord,18,18,true⟩ 0)) 0]

theorem good_reply_counted :
    (downlinkTelemetryRecord 0 true
      [.sized .data (telemetryChunkReply 0 ⟨.ok,emptyRecord,18,18,true⟩ 0)] 0).Advances 0 ∧
    ∃ s,run Downlink.stepAny .oneRecord oneGoodReply = some s ∧ s.accepted = [emptyRecord] ∧
      s.cursor = emptyRecord.length ∧ s.recordsSent = 1 := by
  have hcall := fun messages => (cursor_follows_records 0 true messages 0).1
  refine ⟨(hcall _).mpr fun _ _ reply hreply => ?_,?_⟩
  · have hlast : completingReply 0 (.start 0)
        [.sized .data (telemetryChunkReply 0 ⟨.ok,emptyRecord,18,18,true⟩ 0)] =
          some (telemetryChunkReply 0 ⟨.ok,emptyRecord,18,18,true⟩ 0) := by decide +kernel
    obtain rfl := Option.some.inj (hlast.symm.trans hreply)
    rfl
  · have hany : (run Downlink.stepAny .oneRecord oneGoodReply).any (fun s =>
        decide (s.accepted = [emptyRecord] ∧ s.acceptedBefore = 0)) = true := by decide +kernel
    obtain ⟨s,hrun,hstate⟩ := (Option.any_eq_true _ _).mp hany
    obtain ⟨haccepted,hbefore⟩ := of_decide_eq_true hstate
    have htrusts : ∀ before action after t,oneGoodReply = before ++ action :: after →
        run Downlink.stepAny .oneRecord before = some t → t.Trusts action := by
      intro before action after t hsplit _
      have hmem : action ∈ oneGoodReply := by
        rw [hsplit]
        exact List.mem_append_right _ List.mem_cons_self
      simp only [oneGoodReply,List.mem_cons,List.not_mem_nil,or_false] at hmem
      obtain rfl | rfl | rfl := hmem
      · trivial
      · trivial
      · rintro _ _ _ _ - - ⟨⟩ -
        rfl
    have hcounted := (cursor_follows_records 0 true [] 0).2 .oneRecord s oneGoodReply rfl rfl rfl
      htrusts hrun
    have hcursor := hcounted.cursor
    have hsent := hcounted.sent
    rw [haccepted] at hcursor hsent
    rw [hbefore] at hsent
    exact ⟨s,hrun,haccepted,hcursor.trans (Nat.zero_add _),hsent⟩

/-- The record at offset 0, with 0 for the next offset. -/
def stuckReply : TelemetryReadReply :=
  { telemetryChunkReply 0 ⟨.ok,emptyRecord,18,18,true⟩ 0 with nextOffset := 0 }

/-- The radio has the record, but the cursor stays and the batch counts no record. -/
theorem stuck_cursor :
    downlinkTelemetryRecord 0 true [.sized .data stuckReply] 0 = .sent emptyRecord 0 true ∧
      ¬ (downlinkTelemetryRecord 0 true [.sized .data stuckReply] 0).Advances 0 ∧
      (run Downlink.stepAny .oneRecord
          [.batch 1,.request true,.receive (.sized .data stuckReply) 0]).map
        (fun s => (s.accepted,s.cursor,s.recordsSent,s.returned)) =
          some ([emptyRecord],0,0,some 0) := by
  have hcall : downlinkTelemetryRecord 0 true [.sized .data stuckReply] 0 =
      .sent emptyRecord 0 true := by
    decide +kernel
  refine ⟨hcall,?_,by decide +kernel⟩
  rw [hcall]
  rintro ⟨-,hpos⟩
  exact lt_irrefl _ hpos

/-! ### Replies to earlier requests -/

/-- A reply that Data sent to Mission for a request at another offset. -/
def Stale (offset : ℕ) (reply : TelemetryReadReply) : Prop :=
  ∃ io log requested,requested ≠ offset ∧ reply ∈ handleTelemetryRead io log .mission requested

/-- A reply for another offset is not ignored, it ends the call. -/
theorem Stale.failed {offset : ℕ} {reply : TelemetryReadReply} (h : Stale offset reply)
    (read : RecordRead) : receivePass offset read (.sized .data reply) = .failed := by
  obtain ⟨io,log,requested,hne,hmem⟩ := h
  have hfields : reply.magic = readReplyMagic ∧ reply.recordOffset = requested := by
    unfold handleTelemetryRead at hmem
    rw [if_neg (by decide)] at hmem
    dsimp only at hmem
    split at hmem
    · obtain rfl := List.mem_singleton.mp hmem
      exact ⟨rfl,rfl⟩
    · obtain ⟨c,rfl⟩ := mem_telemetryChunkReplies hmem
      exact ⟨rfl,rfl⟩
  obtain ⟨hmagic,rfl⟩ := hfields
  unfold receivePass
  dsimp only
  rw [if_neg (by simp [hmagic])]
  split
  · rw [if_pos (by simp [hne])]
  · split
    · rfl
    · rw [receiveChunk,if_pos (.inl hne)]

/-- A chunk that continues what has been received is taken, and the last one completes the
record. -/
theorem receivePass_chunk {record : List Byte} {offset nextOffset c : ℕ} {endOfLog : Bool}
    (hrecord : Decodes record) (hc : c < record.length) {read : RecordRead}
    (hencoded : read.encoded = record.take c)
    (hexpected : read.receivedFirstChunk = true →
      read.expectedRecordLength = record.length ∧ read.expectedNextOffset = nextOffset) :
    receivePass offset read (.sized .data (telemetryChunkReply offset
        ⟨.ok,record,record.length,nextOffset,endOfLog⟩ c)) =
      if c + min (record.length - c) readChunkSize = record.length then
        .transmit record nextOffset endOfLog
      else .again ⟨record.take (c + min (record.length - c) readChunkSize),record.length,
        nextOffset,true⟩ := by
  set reply := telemetryChunkReply offset ⟨.ok,record,record.length,nextOffset,endOfLog⟩ c
    with hreply
  set len := min (record.length - c) readChunkSize with hlen
  have hlength : read.encoded.length = c := by rw [hencoded,List.length_take_of_le hc.le]
  have hpayload : reply.payload.take len = (record.drop c).take len := by
    have hfits : ((record.drop c).take len).length = len := by
      rw [List.length_take,List.length_drop]
      omega
    have htake := take_padTo (show ((record.drop c).take len).length ≤ readChunkSize by omega)
    rwa [hfits] at htake
  have hjoin : read.encoded ++ reply.payload.take reply.chunkLength = record.take (c+len) := by
    change read.encoded ++ reply.payload.take len = _
    rw [hpayload,hencoded,← List.take_add]
  have hmax : record.length ≤ ipcMaxPayload := hrecord.length_le
  -- none of the checks stops the chunk
  have hchecks : ¬(reply.recordOffset ≠ offset ∨ reply.recordLength = 0 ∨
      reply.recordLength > ipcMaxPayload ∨ reply.chunkLength > readChunkSize ∨
      reply.chunkOffset ≠ read.encoded.length ∨
      reply.chunkOffset + reply.chunkLength > reply.recordLength) := by
    change ¬(offset ≠ offset ∨ record.length = 0 ∨ record.length > ipcMaxPayload ∨
      len > readChunkSize ∨ c ≠ read.encoded.length ∨ c + len > record.length)
    omega
  have hsame : ¬(read.receivedFirstChunk = true ∧
      (reply.recordLength ≠ read.expectedRecordLength ∨
        reply.nextOffset ≠ read.expectedNextOffset)) := by
    rintro ⟨hfirst,hdiffers⟩
    obtain ⟨hrecordLength,hnext⟩ := hexpected hfirst
    rw [hrecordLength,hnext] at hdiffers
    exact hdiffers.elim (fun h => h rfl) fun h => h rfl
  have hpass : receivePass offset read (.sized .data reply) = receiveChunk offset read reply := rfl
  rw [hpass,receiveChunk,if_neg hchecks,if_neg hsame]
  dsimp only
  rw [hjoin]
  -- the chunk completes the record, or the loop goes on with one that is longer
  have hlast : reply.isLastChunk = decide (c + len = record.length) := rfl
  have hend : reply.endOfLog = (decide (c + len = record.length) && endOfLog) := rfl
  by_cases hwhole : c + len = record.length
  · rw [decide_eq_true hwhole] at hlast
    rw [decide_eq_true hwhole,Bool.true_and] at hend
    have hcomplete : ¬record.length ≠ reply.recordLength := not_not.mpr rfl
    rw [hlast,if_neg (by decide),hwhole,List.take_length,if_neg hcomplete,
      if_neg (not_not.mpr hrecord),if_pos rfl,hend]
    rfl
  · rw [decide_eq_false hwhole] at hlast
    rw [decide_eq_false hwhole,Bool.false_and] at hend
    rw [hlast,if_pos rfl,hend,if_neg (by decide),if_neg hwhole]
    rfl

/-- The receive loop puts the chunks of a record together, from any of them on. -/
theorem receiveLoop_chunks {record : List Byte} {offset nextOffset c : ℕ} {endOfLog : Bool}
    (hrecord : Decodes record) (hc : c < record.length) {read : RecordRead}
    (hencoded : read.encoded = record.take c)
    (hexpected : read.receivedFirstChunk = true →
      read.expectedRecordLength = record.length ∧ read.expectedNextOffset = nextOffset) :
    receiveLoop offset 0 read
        ((telemetryChunkReplies offset ⟨.ok,record,record.length,nextOffset,endOfLog⟩ c).map
          (Received.sized .data)) =
      .sent record nextOffset endOfLog := by
  induction c using telemetryChunkReplies.induct
    ⟨.ok,record,record.length,nextOffset,endOfLog⟩ generalizing read with
  | case1 c _ ih =>
    dsimp only at ih
    rw [telemetryChunkReplies,if_pos hc,List.map_cons,receiveLoop,
      receivePass_chunk hrecord hc hencoded hexpected]
    by_cases hwhole : c + min (record.length - c) readChunkSize = record.length
    · rw [if_pos hwhole]
      rfl
    · rw [if_neg hwhole]
      exact ih (by omega) rfl fun _ => ⟨rfl,rfl⟩
  | case2 c hend => exact absurd hc hend

/-- Where a record stands at the offset, a call with Data's whole reply in the inbox behind stale
replies sends the record exactly when there are none. -/
theorem stale_replies_ignored_iff {bytes record rest : List Byte} {offset : ℕ}
    {backlog : List TelemetryReadReply} (hoffset : offset ≤ int64Max)
    (hbytes : bytes.drop offset = record ++ rest) (hrecord : Decodes record)
    (hstale : ∀ reply ∈ backlog,Stale offset reply) :
    downlinkTelemetryRecord offset true
        ((backlog ++ handleTelemetryRead .sound (some bytes) .mission offset).map
          (Received.sized .data)) 0 =
      .sent record (offset + record.length) rest.isEmpty ↔ backlog = [] := by
  rw [downlinkTelemetryRecord,if_pos rfl]
  cases backlog with
  | nil =>
    refine iff_of_true ?_ rfl
    have hread := telemetryStoreReadRecord_sound (le_refl ipcMaxPayload) hoffset hbytes hrecord
    rw [List.nil_append,handleTelemetryRead,if_neg (by decide),hread]
    exact receiveLoop_chunks hrecord (lt_of_lt_of_le (by decide) hrecord.header_le) rfl nofun
  | cons reply backlog =>
    refine iff_of_false ?_ (List.cons_ne_nil _ _)
    rw [List.cons_append,List.map_cons,receiveLoop,(hstale reply List.mem_cons_self).failed]
    nofun

theorem fresh_reply_sent : downlinkTelemetryRecord 0 true
    (([] ++ handleTelemetryRead .sound (some emptyRecord) .mission 0).map
      (Received.sized .data)) 0 = .sent emptyRecord 18 true := by
  have hbytes : emptyRecord.drop 0 = emptyRecord ++ [] := (List.append_nil _).symm
  exact (stale_replies_ignored_iff (Nat.zero_le _) hbytes (by decide)
    (List.forall_mem_nil _)).mpr rfl

/-- Mission has sent the record at 0 after a retry. The second answer to its first request is
still in the inbox, and the request for the record at 18 fails. -/
theorem stale_reply_fails :
    Stale 18 (telemetryChunkReply 0 ⟨.ok,emptyRecord,18,18,false⟩ 0) ∧
      downlinkTelemetryRecord 18 true
        (([telemetryChunkReply 0 ⟨.ok,emptyRecord,18,18,false⟩ 0] ++
          handleTelemetryRead .sound (some (emptyRecord ++ emptyRecord)) .mission 18).map
            (Received.sized .data)) 0 = .failed := by
  have hstale : Stale 18 (telemetryChunkReply 0 ⟨.ok,emptyRecord,18,18,false⟩ 0) := by
    refine ⟨.sound,some (emptyRecord ++ emptyRecord),0,by decide,?_⟩
    have hread : telemetryStoreReadRecord .sound (some (emptyRecord ++ emptyRecord)) 0
        ipcMaxPayload = ⟨.ok,emptyRecord,18,18,false⟩ := by
      decide +kernel
    rw [handleTelemetryRead,if_neg (by decide),hread]
    dsimp only
    rw [if_neg (by decide),telemetryChunkReplies,if_pos (by decide)]
    exact List.mem_cons_self
  refine ⟨hstale,?_⟩
  rw [downlinkTelemetryRecord,if_pos rfl,List.singleton_append,List.map_cons,receiveLoop,
    hstale.failed]

end FlightSoftware.Telemetry
