import FlightSoftware.Ccsds.ProfileCodec
import FlightSoftware.Lib.Run
import FlightSoftware.Radio.Queue

/-!
# Integrity of the transmit queue

Any interleaving of pushes, resends and critical sections of the thread. The
bytes in the ring are always the rest of the message being sent and the whole
messages behind it, so the thread parses headers where messages start and takes
every accepted message out once, in order and unchanged.
-/

namespace FlightSoftware.Radio
open Ccsds BigEndian Run

/-! ### The ring -/

theorem sizeAdd_eq {a b : ℕ} (h : a + b < 2^64) : sizeAdd a b = a + b := Nat.mod_eq_of_lt h

theorem sizeSub_eq {a b : ℕ} (hb : b ≤ a) (ha : a < 2^64) : sizeSub a b = a - b := by
  rw [sizeSub,show a + (2^64 - b) = a - b + 2^64 by omega,Nat.add_mod_right,
    Nat.mod_eq_of_lt (by omega)]

/-- Head and count are in range. -/
structure RadioQueue.WellFormed (q : RadioQueue) : Prop where
  buffer : q.buffer.length = radioQueueSize
  head : q.head < radioQueueSize
  count : q.count ≤ radioQueueSize

/-- The `count` bytes read circularly from `head`. -/
def RadioQueue.contents (q : RadioQueue) : List Byte := Ring.contents q.buffer q.head q.count

theorem RadioQueue.WellFormed.contents_length {q : RadioQueue} (h : q.WellFormed) :
    q.contents.length = q.count :=
  Ring.contents_length q.head (by rw [h.buffer]; exact h.count)

/-- Below the size of the queue, the arithmetic of `ring_read` and `ring_write` is exact. -/
theorem beforeWrap_eq {offset : ℕ} (n : ℕ) (h : offset < radioQueueSize) :
    (if sizeSub radioQueueSize offset > n then n else sizeSub radioQueueSize offset) =
      Ring.beforeWrap radioQueueSize offset n := by
  rw [sizeSub_eq h.le (by decide)]
  rfl

theorem ringRead_bytes {q : RadioQueue} {n : ℕ} (h : q.WellFormed) (hn : n ≤ q.count) :
    (ringRead q n).1 = q.contents.take n := by
  have hb := h.buffer
  have hc := h.count
  have hsize : radioQueueSize = 131072 := rfl
  have hle := Ring.beforeWrap_le radioQueueSize q.head n
  have hread : (ringRead q n).1 = Ring.read q.buffer q.head n := by
    rw [ringRead,beforeWrap_eq n h.head]
    dsimp only
    rw [sizeSub_eq hle (by omega),Ring.read,hb]
  rw [hread,Ring.read_eq_contents (by rw [hb]; exact h.head) (by omega),RadioQueue.contents,
    Ring.contents_take hn]

theorem ringRead_contents {q : RadioQueue} {n : ℕ} (h : q.WellFormed) (hn : n ≤ q.count) :
    (ringRead q n).2.contents = q.contents.drop n := by
  have hb := h.buffer
  have hh := h.head
  have hc := h.count
  have hsize : radioQueueSize = 131072 := rfl
  rw [RadioQueue.contents,RadioQueue.contents,Ring.contents_drop hn (by omega),ringRead]
  dsimp only
  rw [sizeAdd_eq (by omega),sizeSub_eq hn (by omega),hb]

theorem ringRead_wellFormed {q : RadioQueue} {n : ℕ} (h : q.WellFormed) (hn : n ≤ q.count) :
    (ringRead q n).2.WellFormed := by
  have hc := h.count
  have hsize : radioQueueSize = 131072 := rfl
  refine ⟨h.buffer,Nat.mod_lt _ (by omega),?_⟩
  change sizeSub q.count n ≤ _
  rw [sizeSub_eq hn (by omega)]
  omega

theorem ringWrite_spec {q : RadioQueue} (src : List Byte) (h : q.WellFormed)
    (hroom : q.count + src.length ≤ radioQueueSize) :
    (ringWrite q src).WellFormed ∧ (ringWrite q src).contents = q.contents ++ src ∧
      (ringWrite q src).count = q.count + src.length := by
  have hb := h.buffer
  have hh := h.head
  have hsize : radioQueueSize = 131072 := rfl
  have htail : sizeAdd q.head q.count % radioQueueSize = (q.head+q.count) % q.buffer.length := by
    rw [sizeAdd_eq (by omega),hb]
  have hlt : (q.head+q.count) % q.buffer.length < q.buffer.length := Nat.mod_lt _ (by omega)
  have hcount : (ringWrite q src).count = q.count + src.length := sizeAdd_eq (by omega)
  have hbuffer : (ringWrite q src).buffer =
      Ring.write q.buffer ((q.head+q.count) % q.buffer.length) src := by
    rw [ringWrite,htail,beforeWrap_eq _ (by omega),Ring.write,hb]
  refine ⟨⟨?_,hh,by omega⟩,?_,hcount⟩
  · rw [hbuffer,Ring.write_length hlt (by omega),hb]
  · rw [RadioQueue.contents,hcount,hbuffer]
    exact Ring.contents_write (by omega) (by omega)

/-! ### Messages -/

/-- A message as it was accepted. -/
structure Message where
  type : Byte
  payload : List Byte
  deriving DecidableEq,Repr

/-- The bytes of a message in the ring. -/
def Message.encode (m : Message) : List Byte :=
  m.type :: writeU32Be (BitVec.ofNat 32 m.payload.length) ++ m.payload

/-- What is accepted: not empty, its length fits the header, and its type is a
content type or that of a packet kept for resending. -/
structure Message.Sound (m : Message) : Prop where
  pos : 0 < m.payload.length
  fits : m.payload.length < 2^32
  type : m.type.toNat < contentTypes ∨
    (m.type = rawFrame ∧ m.payload.length ≤ radioMaxPacketSize)

theorem Message.encode_length (m : Message) : m.encode.length = m.payload.length + 5 := by
  simp only [encode,List.length_append,List.length_cons,writeU32Be_length]
  omega

theorem pushLocked_spec {q : RadioQueue} (h : q.WellFormed) (m : Message)
    (hlen : m.payload.length < 2^32) :
    ((pushLocked q m.type m.payload).1 = -1 ∧ (pushLocked q m.type m.payload).2 = q) ∨
    ((pushLocked q m.type m.payload).1 = 0 ∧ (pushLocked q m.type m.payload).2.WellFormed ∧
      (pushLocked q m.type m.payload).2.contents = q.contents ++ m.encode ∧
      (pushLocked q m.type m.payload).2.history = q.history ∧
      (pushLocked q m.type m.payload).2.threadStarted = q.threadStarted) := by
  have hc := h.count
  have hsize : radioQueueSize = 131072 := rfl
  have hheader : messageHeader = 5 := rfl
  unfold pushLocked
  rw [sizeAdd_eq (by omega),sizeSub_eq hc (by omega)]
  by_cases hfull : m.payload.length + messageHeader > radioQueueSize - q.count
  · rw [if_pos hfull]
    exact .inl ⟨rfl,rfl⟩
  rw [if_neg hfull]
  right
  -- two writes, the header and the payload, append one encoded message
  obtain ⟨hwf1,hcontents1,hcount1⟩ := ringWrite_spec
    (m.type :: writeU32Be (BitVec.ofNat 32 m.payload.length)) h
    (by rw [List.length_cons,writeU32Be_length]; omega)
  rw [List.length_cons,writeU32Be_length] at hcount1
  obtain ⟨hwf2,hcontents2,-⟩ := ringWrite_spec m.payload hwf1 (by omega)
  rw [hcontents1,List.append_assoc] at hcontents2
  dsimp only
  split
  · exact ⟨rfl,⟨hwf2.buffer,hwf2.head,hwf2.count⟩,hcontents2,rfl,rfl⟩
  · exact ⟨rfl,hwf2,hcontents2,rfl,rfl⟩

/-- The ring is untouched. -/
structure RadioQueue.SameRing (q q' : RadioQueue) : Prop where
  buffer : q'.buffer = q.buffer
  head : q'.head = q.head
  count : q'.count = q.count
  history : q'.history = q.history

theorem RadioQueue.SameRing.wellFormed {q q' : RadioQueue} (h : q.SameRing q')
    (hq : q.WellFormed) : q'.WellFormed :=
  ⟨h.buffer ▸ hq.buffer,h.head ▸ hq.head,h.count ▸ hq.count⟩

/-- Packets kept for resending can be resent. -/
def RadioQueue.HistorySound (q : RadioQueue) : Prop :=
  ∀ slot ∈ q.history,slot.used = true →
    0 < slot.packet.length ∧ slot.packet.length ≤ radioMaxPacketSize

theorem startThread_sameRing (q : RadioQueue) (sendPacket : Option Sender) (created : Bool) :
    q.SameRing (startThread q sendPacket created).2 := by
  unfold startThread
  split
  · exact ⟨rfl,rfl,rfl,rfl⟩
  · split <;> exact ⟨rfl,rfl,rfl,rfl⟩

theorem sound_of_badArgs {content : LgCcsdsContentType} {data : Option (List Byte)}
    {sendPacket : Option Sender} (h : badArgs content data sendPacket = false) :
    (⟨content.value.setWidth 8,data.getD []⟩ : Message).Sound ∧
      content.value.toNat < contentTypes ∧
      (content = .ssdv → (data.getD []).length % ssdvPacketSize = 0) := by
  cases data with
  | none => cases h
  | some data =>
    simp only [badArgs,Bool.or_eq_false_iff,beq_eq_false_iff_ne,decide_eq_false_iff_not,
      Bool.and_eq_false_imp,bne_eq_false_iff_eq,beq_iff_eq] at h
    obtain ⟨⟨⟨⟨hpos,hfits⟩,-⟩,htype⟩,hssdv⟩ := h
    have hcontent : contentTypes = 4 := rfl
    refine ⟨⟨Nat.pos_of_ne_zero hpos,?_,.inl ?_⟩,by omega,hssdv⟩
    · change data.length < 2^32
      omega
    · change (content.value.setWidth 8).toNat < contentTypes
      rw [BitVec.toNat_setWidth]
      omega

theorem radioQueuePush_cases {q : RadioQueue} (h : q.WellFormed) (content : LgCcsdsContentType)
    (data : Option (List Byte)) (sendPacket : Option Sender) (created : Bool) :
    ((radioQueuePush q content data sendPacket created).1 = -1 ∧
      q.SameRing (radioQueuePush q content data sendPacket created).2) ∨
    ((radioQueuePush q content data sendPacket created).1 = 0 ∧
      badArgs content data sendPacket = false ∧
      (radioQueuePush q content data sendPacket created).2.WellFormed ∧
      (radioQueuePush q content data sendPacket created).2.contents =
        q.contents ++ (⟨content.value.setWidth 8,data.getD []⟩ : Message).encode ∧
      (radioQueuePush q content data sendPacket created).2.history = q.history) := by
  unfold radioQueuePush
  by_cases hbad : badArgs content data sendPacket = true
  · rw [if_pos hbad]
    exact .inl ⟨rfl,rfl,rfl,rfl,rfl⟩
  rw [if_neg hbad]
  rw [Bool.not_eq_true] at hbad
  have hstart := startThread_sameRing q sendPacket created
  cases hs : startThread q sendPacket created with
  | mk started q1 =>
    rw [hs] at hstart
    cases started with
    | false => exact .inl ⟨rfl,hstart.buffer,hstart.head,hstart.count,hstart.history⟩
    | true =>
      -- the thread may have been started on the way, which leaves the ring alone
      have hcontents : q1.contents = q.contents := by
        rw [RadioQueue.contents,RadioQueue.contents,hstart.buffer,hstart.head,hstart.count]
      dsimp only
      obtain ⟨hres,hq⟩ | ⟨hres,hwf,hc,hh,-⟩ := pushLocked_spec (hstart.wellFormed h)
        ⟨content.value.setWidth 8,data.getD []⟩ (sound_of_badArgs hbad).1.fits
      · dsimp only at hres hq
        rw [hres,hq,if_pos (by decide)]
        exact .inl ⟨rfl,hstart.buffer,hstart.head,hstart.count,hstart.history⟩
      · dsimp only at hres hwf hc hh
        rw [hres,if_neg (by decide)]
        exact .inr ⟨rfl,hbad,hwf,by rw [hc,hcontents],hh.trans hstart.history⟩

theorem pushLocked_threadStarted (q : RadioQueue) (content : Byte) (data : List Byte) :
    (pushLocked q content data).2.threadStarted = q.threadStarted := by
  unfold pushLocked
  split
  · rfl
  · dsimp only
    split <;> rfl

theorem startThread_started {q q' : RadioQueue} {sendPacket : Option Sender} {created : Bool}
    (h : startThread q sendPacket created = (true,q')) : q'.threadStarted = true := by
  unfold startThread at h
  split at h
  · rename_i hq
    obtain rfl := (Prod.mk.inj h).2
    exact hq
  · split at h
    · obtain rfl := (Prod.mk.inj h).2
      rfl
    · cases h

/-- A thread that runs keeps running, and one runs once a push has been accepted. -/
theorem radioQueuePush_threadStarted (q : RadioQueue) (content : LgCcsdsContentType)
    (data : Option (List Byte)) (sendPacket : Option Sender) (created : Bool)
    (h : q.threadStarted = true ∨ (radioQueuePush q content data sendPacket created).1 = 0) :
    (radioQueuePush q content data sendPacket created).2.threadStarted = true := by
  have hne : (-1 : ℤ) ≠ 0 := by decide
  unfold radioQueuePush at h ⊢
  by_cases hbad : badArgs content data sendPacket = true
  · rw [if_pos hbad] at h ⊢
    exact h.resolve_right hne
  rw [if_neg hbad] at h ⊢
  cases hs : startThread q sendPacket created with
  | mk started q1 =>
    rw [hs] at h
    cases started with
    | false =>
      have hq : q.threadStarted = true := h.resolve_right hne
      rw [startThread,if_pos hq] at hs
      cases hs
    | true =>
      have hq1 := startThread_started hs
      dsimp only
      split <;> exact (pushLocked_threadStarted ..).trans hq1

theorem radioResend_threadStarted (q : RadioQueue) (apid sequenceCount : BitVec 16) :
    (radioResend q apid sequenceCount).2.threadStarted = q.threadStarted := by
  unfold radioResend
  split
  · rfl
  · split
    · exact pushLocked_threadStarted ..
    · rfl

theorem mem_history_of_findSent {q : RadioQueue} {apid sequenceCount : BitVec 16}
    {slot : SentPacket} (h : findSent q apid sequenceCount = some slot) :
    slot ∈ q.history ∧ slot.used = true := by
  obtain ⟨i,-,hi⟩ := List.exists_of_findSome?_eq_some h
  dsimp only at hi
  split at hi
  · rename_i hmatch
    obtain rfl := Option.some.inj hi
    simp only [Bool.and_eq_true] at hmatch
    have hused := hmatch.1.1
    refine ⟨?_,hused⟩
    rw [List.getD_eq_getElem?_getD] at hused ⊢
    cases hget : q.history[(q.historyNext + historySize - 1 - i) % historySize]? with
    | none =>
      rw [hget] at hused
      cases hused
    | some slot => exact List.mem_of_getElem? hget
  · cases hi

theorem radioResend_cases {q : RadioQueue} (h : q.WellFormed) (hhistory : q.HistorySound)
    (apid sequenceCount : BitVec 16) :
    ((radioResend q apid sequenceCount).1 = -1 ∧ (radioResend q apid sequenceCount).2 = q) ∨
    ∃ slot,findSent q apid sequenceCount = some slot ∧
      (⟨rawFrame,slot.packet⟩ : Message).Sound ∧
      (radioResend q apid sequenceCount).1 = 0 ∧
      (radioResend q apid sequenceCount).2.WellFormed ∧
      (radioResend q apid sequenceCount).2.contents =
        q.contents ++ (⟨rawFrame,slot.packet⟩ : Message).encode ∧
      (radioResend q apid sequenceCount).2.history = q.history := by
  unfold radioResend
  cases hfind : findSent q apid sequenceCount with
  | none => exact .inl ⟨rfl,rfl⟩
  | some slot =>
    obtain ⟨hmem,hused⟩ := mem_history_of_findSent hfind
    obtain ⟨hpos,hmax⟩ := hhistory slot hmem hused
    have hsound : (⟨rawFrame,slot.packet⟩ : Message).Sound :=
      ⟨hpos,lt_of_le_of_lt hmax (by decide),.inr ⟨rfl,hmax⟩⟩
    dsimp only
    split
    · obtain ⟨hres,hq⟩ | ⟨hres,hwf,hc,hh,-⟩ := pushLocked_spec h ⟨rawFrame,slot.packet⟩ hsound.fits
      · exact .inl ⟨hres,hq⟩
      · exact .inr ⟨slot,rfl,hsound,hres,hwf,hc,hh⟩
    · exact .inl ⟨rfl,rfl⟩

/-! ### The critical sections of the thread -/

theorem startMessage_spec {q : RadioQueue} {tx : TxThread} {m : Message} {rest : List Byte}
    (h : q.WellFormed) (hleft : tx.messageLeft = 0) (hcontents : q.contents = m.encode ++ rest)
    (hlen : m.payload.length < 2^32) :
    messageHeader ≤ q.count ∧
    (startMessage q tx).1.WellFormed ∧ (startMessage q tx).1.contents = m.payload ++ rest ∧
      (startMessage q tx).1.history = q.history ∧
      (startMessage q tx).1.threadStarted = q.threadStarted ∧
      (startMessage q tx).2.1 =
        { tx with content := m.type,messageLeft := m.payload.length } ∧
      (startMessage q tx).2.2 = [⟨messageHeader,q.count⟩] := by
  have hcount : messageHeader ≤ q.count := by
    rw [← h.contents_length,hcontents,List.length_append,m.encode_length]
    simp only [messageHeader]
    omega
  have hheader : (m.type :: writeU32Be (BitVec.ofNat 32 m.payload.length)).length =
      messageHeader := rfl
  have hbytes := ringRead_bytes h hcount
  have hrest := ringRead_contents h hcount
  rw [hcontents,Message.encode,List.append_assoc,← hheader,List.take_left] at hbytes
  rw [hcontents,Message.encode,List.append_assoc,← hheader,List.drop_left] at hrest
  rw [startMessage,if_pos hleft]
  refine ⟨hcount,ringRead_wellFormed h hcount,hrest,rfl,rfl,?_,rfl⟩
  change ({ tx with content := _,messageLeft := _ } : TxThread) = _
  rw [← hheader,hbytes,List.drop_one,List.tail_cons,byteAt_cons_zero,
    ← List.append_nil (writeU32Be _),readU32Be_write,BitVec.toNat_ofNat,Nat.mod_eq_of_lt hlen]

/-- The number of bytes the next chunk of a message has. -/
def chunkLength (type : Byte) (left : ℕ) : ℕ :=
  if type = rawFrame then left else min left radioMaxPayload

theorem takeChunk_spec {q : RadioQueue} (tx : TxThread) {tail rest : List Byte}
    (h : q.WellFormed) (hcontents : q.contents = tail ++ rest)
    (hleft : tail.length = tx.messageLeft) :
    chunkLength tx.content tail.length ≤ q.count ∧
    (takeChunk q tx).reads = [⟨chunkLength tx.content tail.length,q.count⟩] ∧
    (takeChunk q tx).job.bytes = tail.take (chunkLength tx.content tail.length) ∧
    (takeChunk q tx).job.content = tx.content ∧
    (takeChunk q tx).thread.job = some (takeChunk q tx).job ∧
    (takeChunk q tx).thread.content = tx.content ∧
    (takeChunk q tx).thread.messageLeft =
      (tail.drop (chunkLength tx.content tail.length)).length ∧
    (takeChunk q tx).queue.WellFormed ∧
    (takeChunk q tx).queue.contents =
      tail.drop (chunkLength tx.content tail.length) ++ rest ∧
    (takeChunk q tx).queue.history = q.history ∧
    (takeChunk q tx).queue.threadStarted = q.threadStarted := by
  have hc := h.count
  have hsize : radioQueueSize = 131072 := rfl
  have hpayload : radioMaxPayload = 214 := rfl
  have hlen := h.contents_length
  rw [hcontents,List.length_append] at hlen
  have hle : chunkLength tx.content tail.length ≤ tail.length := by
    rw [chunkLength]
    split <;> omega
  have hn : chunkLength tx.content tail.length ≤ q.count := by omega
  have hbytes := ringRead_bytes h hn
  rw [hcontents,List.take_append_of_le_length hle] at hbytes
  have hrest := ringRead_contents h hn
  rw [hcontents,List.drop_append_of_le_length hle] at hrest
  have hwf := ringRead_wellFormed h hn
  refine ⟨hn,?_⟩
  unfold takeChunk
  by_cases hraw : tx.content = rawFrame
  · have hchunk : chunkLength tx.content tail.length = tx.messageLeft := by
      rw [chunkLength,if_pos hraw,hleft]
    rw [hchunk] at hbytes hrest hwf ⊢
    rw [if_pos hraw]
    refine ⟨rfl,hbytes,rfl,rfl,rfl,?_,⟨hwf.buffer,hwf.head,hwf.count⟩,hrest,rfl,rfl⟩
    rw [List.length_drop,hleft,Nat.sub_self]
  · have hchunk : chunkLength tx.content tail.length =
        if tx.messageLeft < radioMaxPayload then tx.messageLeft else radioMaxPayload := by
      rw [chunkLength,if_neg hraw,hleft]
      split <;> omega
    rw [if_neg hraw]
    rw [← hchunk]
    refine ⟨rfl,hbytes,rfl,rfl,rfl,?_,⟨hwf.buffer,hwf.head,hwf.count⟩,hrest,rfl,rfl⟩
    change sizeSub tx.messageLeft _ = _
    rw [List.length_drop,sizeSub_eq (by omega) (by omega),hleft]

/-! ### The whole transmit side -/

/-- The shared state and the thread, with what has happened so far: the messages
accepted, the messages taken out, the part taken of the one being sent, and the
packets handed to the sender. -/
structure RadioTx where
  queue : RadioQueue
  thread : TxThread
  accepted : List Message
  taken : List Message
  part : List Byte
  handed : List (List Byte)

def RadioTx.initial : RadioTx := ⟨.initial,.initial,[],[],[],[]⟩

inductive TxAction where
  | push (content : LgCcsdsContentType) (data : Option (List Byte)) (sendPacket : Option Sender)
      (created : Bool)
  | resend (apid sequenceCount : BitVec 16)
  | take
  | finish (replies : ℕ → ℤ)

/-- Add the bytes just taken to the message they belong to. -/
def RadioTx.recordTake (s : RadioTx) (r : TakeResult) : RadioTx :=
  let part := (if s.thread.messageLeft = 0 then [] else s.part) ++ r.job.bytes
  if r.thread.messageLeft = 0 then
    { s with queue := r.queue,thread := r.thread
             taken := s.taken ++ [⟨r.job.content,part⟩],part := [] }
  else { s with queue := r.queue,thread := r.thread,part := part }

theorem RadioTx.recordTake_same (s : RadioTx) (r : TakeResult) :
    (s.recordTake r).accepted = s.accepted ∧ (s.recordTake r).handed = s.handed ∧
      (s.recordTake r).thread = r.thread ∧ (s.recordTake r).queue = r.queue := by
  unfold recordTake
  dsimp only
  split <;> exact ⟨rfl,rfl,rfl,rfl⟩

/-- A call that returned `result.1`; the messages count as accepted if that is 0. -/
def RadioTx.called (s : RadioTx) (result : ℤ × RadioQueue) (messages : List Message) : RadioTx :=
  { s with
    queue := result.2
    accepted := if result.1 = 0 then s.accepted ++ messages else s.accepted }

/-- A call changes the shared state and nothing of the thread. -/
theorem RadioTx.called_queue (s : RadioTx) (result : ℤ × RadioQueue) (messages : List Message) :
    (s.called result messages).queue = result.2 := rfl

theorem RadioTx.called_thread (s : RadioTx) (result : ℤ × RadioQueue) (messages : List Message) :
    (s.called result messages).thread = s.thread ∧ (s.called result messages).part = s.part ∧
      (s.called result messages).taken = s.taken := ⟨rfl,rfl,rfl⟩

def RadioTx.sent (s : RadioTx) (job : TxJob) (outcome : TxOutcome) : RadioTx :=
  { s with
    queue := finishSection s.queue job outcome
    thread := { s.thread with job := none }
    handed := s.handed ++ List.replicate outcome.attempts outcome.packet }

def RadioTx.step (s : RadioTx) : TxAction → Option RadioTx
  | .push content data sendPacket created =>
    some (s.called (radioQueuePush s.queue content data sendPacket created)
      [⟨content.value.setWidth 8,data.getD []⟩])
  | .resend apid sequenceCount =>
    some (s.called (radioResend s.queue apid sequenceCount)
      ((findSent s.queue apid sequenceCount).toList.map fun slot => ⟨rawFrame,slot.packet⟩))
  | .take =>
    if s.queue.threadStarted ∧ s.thread.job = none then
      (takeSection s.queue s.thread).map s.recordTake
    else none
  | .finish replies => s.thread.job.map fun job => s.sent job (transmit job replies)

/-- What the ring holds: `tail`, still to be sent of the message `current`, and the whole
messages `pending`. -/
structure RadioTx.Holds (s : RadioTx) (current : Option Message) (tail : List Byte)
    (pending : List Message) : Prop where
  queue : s.queue.WellFormed
  contents : s.queue.contents = tail ++ pending.flatMap Message.encode
  left : tail.length = s.thread.messageLeft
  idle : current = none ↔ tail = []
  whole : s.part ++ tail = (current.map Message.payload).getD []
  type : ∀ m ∈ current,s.thread.content = m.type ∧ m.type ≠ rawFrame
  accepted : s.accepted = s.taken ++ current.toList ++ pending
  sound : ∀ m ∈ s.accepted,m.Sound
  history : s.queue.HistorySound

def RadioTx.Intact (s : RadioTx) : Prop := ∃ current tail pending,s.Holds current tail pending

theorem RadioTx.intact_initial : RadioTx.initial.Intact := by
  refine ⟨none,[],[],⟨?_,by decide,Nat.zero_le _⟩,rfl,rfl,by decide,rfl,by simp,rfl,?_,?_⟩
  · exact List.length_replicate
  · intro m hm
    cases hm
  · intro slot hslot hused
    rw [(List.mem_replicate.mp hslot).2] at hused
    cases hused

/-- Appending a message at the back, whoever does it. -/
theorem RadioTx.Holds.append {s : RadioTx} {current : Option Message} {tail : List Byte}
    {pending : List Message} (h : s.Holds current tail pending) {m : Message} (hm : m.Sound)
    {result : ℤ × RadioQueue} (hres : result.1 = 0) (hwf : result.2.WellFormed)
    (hcontents : result.2.contents = s.queue.contents ++ m.encode)
    (hhistory : result.2.history = s.queue.history) :
    (s.called result [m]).Holds current tail (pending ++ [m]) := by
  have haccepted : (s.called result [m]).accepted = s.accepted ++ [m] := if_pos hres
  refine ⟨hwf,?_,h.left,h.idle,h.whole,h.type,?_,?_,?_⟩
  · change result.2.contents = _
    rw [hcontents,h.contents,List.flatMap_append,List.flatMap_singleton,List.append_assoc]
  · rw [haccepted,h.accepted,List.append_assoc _ pending]
    rfl
  · intro m' hm'
    rw [haccepted] at hm'
    rcases List.mem_append.mp hm' with hm' | hm'
    · exact h.sound m' hm'
    · rwa [List.mem_singleton.mp hm']
  · intro slot hslot
    change slot ∈ result.2.history at hslot
    rw [hhistory] at hslot
    exact h.history slot hslot

/-- A change that leaves the ring and the thread's place in it alone. -/
theorem RadioTx.Holds.congr {s s' : RadioTx} {current : Option Message} {tail : List Byte}
    {pending : List Message} (h : s.Holds current tail pending)
    (hbuffer : s'.queue.buffer = s.queue.buffer) (hhead : s'.queue.head = s.queue.head)
    (hcount : s'.queue.count = s.queue.count) (hhistory : s'.queue.HistorySound)
    (hleft : s'.thread.messageLeft = s.thread.messageLeft)
    (hcontent : s'.thread.content = s.thread.content) (hpart : s'.part = s.part)
    (haccepted : s'.accepted = s.accepted) (htaken : s'.taken = s.taken) :
    s'.Holds current tail pending where
  queue := ⟨hbuffer ▸ h.queue.buffer,hhead ▸ h.queue.head,hcount ▸ h.queue.count⟩
  contents := by
    rw [← h.contents,RadioQueue.contents,RadioQueue.contents,hbuffer,hhead,hcount]
  left := hleft ▸ h.left
  idle := h.idle
  whole := hpart ▸ h.whole
  type := hcontent ▸ h.type
  accepted := by rw [haccepted,htaken,h.accepted]
  sound := haccepted ▸ h.sound
  history := hhistory

/-- One first critical section: it takes a chunk of the front of `tail`, which is what
remains of the message `m` after `part`, and the messages `rest` stay behind it. -/
structure RadioTx.TakesFrom (s : RadioTx) (r : TakeResult) (m : Message) (part tail : List Byte)
    (rest : List Message) : Prop where
  payload : part ++ tail = m.payload
  pos : 0 < tail.length
  whole : m.type = rawFrame → part = []
  resumes : part = [] ∨ s.thread.content = m.type
  before : (if s.thread.messageLeft = 0 then [] else s.part) = part
  accepted : s.accepted = s.taken ++ m :: rest
  start : s.thread.messageLeft = 0 → s.queue.contents = (m :: rest).flatMap Message.encode
  stored : tail.length + (rest.flatMap Message.encode).length ≤ s.queue.count
  reads : ∀ call ∈ r.reads,call.n ≤ call.count
  bytes : r.job.bytes = tail.take (chunkLength m.type tail.length)
  content : r.job.content = m.type
  unframed : m.type ≠ rawFrame → r.job.framed = false ∧
    r.job.seq = s.thread.sequence.getD m.type.toNat 0 ∧
    r.thread.sequence =
      s.thread.sequence.set m.type.toNat ((r.job.seq + 1#16) &&& maxSequenceCount)
  job : r.thread.job = some r.job
  type : r.thread.content = m.type
  left : r.thread.messageLeft = (tail.drop (chunkLength m.type tail.length)).length
  queue : r.queue.WellFormed
  contents : r.queue.contents =
    tail.drop (chunkLength m.type tail.length) ++ rest.flatMap Message.encode
  history : r.queue.history = s.queue.history
  started : r.queue.threadStarted = s.queue.threadStarted

theorem takeChunk_unframed {q : RadioQueue} {tx : TxThread} (h : tx.content ≠ rawFrame) :
    (takeChunk q tx).job.framed = false ∧
    (takeChunk q tx).job.seq = tx.sequence.getD tx.content.toNat 0 ∧
    (takeChunk q tx).thread.sequence =
      tx.sequence.set tx.content.toNat (((takeChunk q tx).job.seq + 1#16) &&& maxSequenceCount) := by
  rw [takeChunk,if_neg h]
  exact ⟨rfl,rfl,rfl⟩

theorem takeSection_eq {q : RadioQueue} {tx : TxThread} (h : q.count ≠ 0) :
    takeSection q tx = some
      { takeChunk (startMessage q tx).1 (startMessage q tx).2.1 with
        reads := (startMessage q tx).2.2 ++
          (takeChunk (startMessage q tx).1 (startMessage q tx).2.1).reads } := by
  rw [takeSection,if_neg h]

theorem startMessage_sequence (q : RadioQueue) (tx : TxThread) :
    (startMessage q tx).2.1.sequence = tx.sequence ∧
      (startMessage q tx).1.history = q.history ∧
      (startMessage q tx).1.historyNext = q.historyNext := by
  unfold startMessage
  split <;> exact ⟨rfl,rfl,rfl⟩

/-- A section numbers a chunk with the counter of its content type, which moves on; a kept
packet leaves the counters alone. The history is not touched. -/
theorem takeSection_numbers {q : RadioQueue} {tx : TxThread} {r : TakeResult}
    (h : takeSection q tx = some r) :
    ((r.job.framed = true ∧ r.thread.sequence = tx.sequence) ∨
      (r.job.framed = false ∧ r.job.content ≠ rawFrame ∧
        r.job.seq = tx.sequence.getD r.job.content.toNat 0 ∧
        r.thread.sequence =
          tx.sequence.set r.job.content.toNat ((r.job.seq + 1#16) &&& maxSequenceCount))) ∧
    r.thread.job = some r.job ∧ r.queue.history = q.history ∧
      r.queue.historyNext = q.historyNext := by
  have hcount : q.count ≠ 0 := by
    intro h0
    rw [takeSection,if_pos h0] at h
    cases h
  rw [takeSection_eq hcount] at h
  obtain rfl := Option.some.inj h
  obtain ⟨hsequence,hhistory,hnext⟩ := startMessage_sequence q tx
  generalize startMessage q tx = loaded at hsequence hhistory hnext ⊢
  obtain ⟨q1,tx1,reads⟩ := loaded
  dsimp only at hsequence hhistory hnext ⊢
  unfold takeChunk
  split
  · exact ⟨.inl ⟨rfl,hsequence⟩,rfl,hhistory,hnext⟩
  · rename_i hraw
    exact ⟨.inr ⟨rfl,hraw,by rw [hsequence],by rw [← hsequence]⟩,rfl,hhistory,hnext⟩

/-- Once the header, if there was one, has been read, the section takes its chunk. -/
theorem RadioTx.takesFrom_of_loaded {s : RadioTx} {r : TakeResult} {m : Message}
    {part tail : List Byte} {rest : List Message}
    (hcount : s.queue.count ≠ 0) (hr : takeSection s.queue s.thread = some r)
    (hwf : (startMessage s.queue s.thread).1.WellFormed)
    (hcontents : (startMessage s.queue s.thread).1.contents =
      tail ++ rest.flatMap Message.encode)
    (hhist : (startMessage s.queue s.thread).1.history = s.queue.history)
    (hstarted : (startMessage s.queue s.thread).1.threadStarted = s.queue.threadStarted)
    (htx : (startMessage s.queue s.thread).2.1 =
      { s.thread with content := m.type,messageLeft := tail.length })
    (hreads : ∀ call ∈ (startMessage s.queue s.thread).2.2,call.n ≤ call.count)
    (hpayload : part ++ tail = m.payload) (hpos : 0 < tail.length)
    (hwhole : m.type = rawFrame → part = [])
    (hresumes : part = [] ∨ s.thread.content = m.type)
    (hbefore : (if s.thread.messageLeft = 0 then [] else s.part) = part)
    (haccepted : s.accepted = s.taken ++ m :: rest)
    (hstart : s.thread.messageLeft = 0 → s.queue.contents = (m :: rest).flatMap Message.encode)
    (hstored : tail.length + (rest.flatMap Message.encode).length ≤ s.queue.count) :
    s.TakesFrom r m part tail rest := by
  rw [takeSection_eq hcount] at hr
  obtain rfl := Option.some.inj hr
  -- from here on only what the header's reading left matters, not whether there was one
  generalize startMessage s.queue s.thread = loaded at hwf hcontents hhist hstarted htx hreads ⊢
  obtain ⟨q1,tx1,reads⟩ := loaded
  dsimp only at hwf hcontents hhist hstarted htx hreads ⊢
  subst htx
  obtain ⟨hn,hchunk,hbytes,hcontent,hjob,htype,hleft,hwf',hc',hhist',hstarted'⟩ :=
    takeChunk_spec { s.thread with content := m.type,messageLeft := tail.length }
      hwf hcontents rfl
  refine ⟨hpayload,hpos,hwhole,hresumes,hbefore,haccepted,hstart,hstored,?_,hbytes,hcontent,
    fun hraw => takeChunk_unframed hraw,hjob,htype,hleft,hwf',hc',hhist'.trans hhist,
    hstarted'.trans hstarted⟩
  intro call hcall
  rcases List.mem_append.mp hcall with hcall | hcall
  · exact hreads call hcall
  · rw [hchunk,List.mem_singleton] at hcall
    rw [hcall]
    exact hn

theorem RadioTx.Holds.takesFrom {s : RadioTx} {current : Option Message} {tail : List Byte}
    {pending : List Message} (h : s.Holds current tail pending) {r : TakeResult}
    (hr : takeSection s.queue s.thread = some r) :
    ∃ m part tail rest,s.TakesFrom r m part tail rest := by
  have hcount : s.queue.count ≠ 0 := by
    intro h0
    rw [takeSection,if_pos h0] at hr
    cases hr
  by_cases hleft : s.thread.messageLeft = 0
  · -- a message starts: the ring holds whole messages and is not empty
    have htail : tail = [] := List.length_eq_zero_iff.mp (h.left.trans hleft)
    have hcur := h.idle.mpr htail
    have hcontents := h.contents
    have haccepted := h.accepted
    subst htail hcur
    rw [List.nil_append] at hcontents
    cases pending with
    | nil =>
      have := h.queue.contents_length
      rw [hcontents] at this
      exact absurd this.symm hcount
    | cons m rest =>
      have hsound := h.sound m (by rw [haccepted]; simp)
      obtain ⟨hfive,hwf,hc,hhist,hstarted,htx,hreads⟩ :=
        startMessage_spec h.queue hleft (by rw [hcontents,List.flatMap_cons]) hsound.fits
      have hlen := h.queue.contents_length
      rw [hcontents,List.flatMap_cons,List.length_append,m.encode_length] at hlen
      refine ⟨m,[],m.payload,rest,takesFrom_of_loaded hcount hr hwf hc hhist hstarted htx ?_ rfl
        hsound.pos (fun _ => rfl) (.inl rfl) (if_pos hleft) (by simpa using haccepted)
        (fun _ => hcontents) (by omega)⟩
      intro call hcall
      rw [hreads,List.mem_singleton] at hcall
      rw [hcall]
      exact hfive
  · -- the message goes on
    have hne : tail ≠ [] := by
      rintro rfl
      exact hleft h.left.symm
    cases hcur : current with
    | none => exact absurd (h.idle.mp hcur) hne
    | some m =>
      subst hcur
      obtain ⟨htype,hraw⟩ := h.type m rfl
      have hstart : startMessage s.queue s.thread = (s.queue,s.thread,[]) := if_neg hleft
      exact ⟨m,s.part,tail,pending,takesFrom_of_loaded hcount hr (by rw [hstart]; exact h.queue)
        (by rw [hstart]; exact h.contents) (by rw [hstart]) (by rw [hstart])
        (by rw [hstart,← htype,h.left])
        (by rw [hstart]; intro call hcall; cases hcall) h.whole (List.length_pos_iff.mpr hne)
        (fun hr => absurd hr hraw) (.inr htype) (if_neg hleft) (by rw [h.accepted]; simp)
        (fun h0 => absurd h0 hleft)
        (by rw [← h.queue.contents_length,h.contents,List.length_append])⟩

/-- The message of a section goes on with what the section left of it. -/
theorem RadioTx.TakesFrom.holds {s : RadioTx} {r : TakeResult} {m : Message}
    {part tail : List Byte} {rest : List Message} (h : s.TakesFrom r m part tail rest)
    (hsound : ∀ m ∈ s.accepted,m.Sound) (hhistory : s.queue.HistorySound) :
    (s.recordTake r).Holds
      (if tail.drop (chunkLength m.type tail.length) = [] then none else some m)
      (tail.drop (chunkLength m.type tail.length)) rest := by
  have hbytes := h.bytes
  have hleft := h.left
  have hhist : r.queue.HistorySound := by
    intro slot hslot
    rw [h.history] at hslot
    exact hhistory slot hslot
  have hwhole : part ++ tail.take (chunkLength m.type tail.length) ++
      tail.drop (chunkLength m.type tail.length) = m.payload := by
    rw [List.append_assoc,List.take_append_drop,h.payload]
  unfold recordTake
  dsimp only
  rw [h.before,hbytes,hleft,h.content]
  by_cases hdone : tail.drop (chunkLength m.type tail.length) = []
  · rw [hdone,List.append_nil] at hwhole
    rw [if_pos hdone,if_pos (by rw [hdone]; rfl),hdone]
    exact {
      queue := h.queue
      contents := by rw [h.contents,hdone]
      left := by rw [hleft,hdone]
      idle := ⟨fun _ => rfl,fun _ => rfl⟩
      whole := rfl
      type := fun m hm => by cases hm
      accepted := by rw [h.accepted,hwhole]; simp
      sound := hsound
      history := hhist }
  -- a kept packet is taken in one piece, so only other messages go on
  · have hraw : m.type ≠ rawFrame := by
      intro hraw
      apply hdone
      rw [chunkLength,if_pos hraw,List.drop_length]
    rw [if_neg hdone,if_neg (by rwa [List.length_eq_zero_iff])]
    exact {
      queue := h.queue
      contents := h.contents
      left := hleft.symm
      idle := ⟨fun hm => absurd hm (Option.some_ne_none m),fun ht => absurd ht hdone⟩
      whole := hwhole
      type := fun m' hm' => by
        obtain rfl := Option.some.inj hm'
        exact ⟨h.type,hraw⟩
      accepted := by rw [h.accepted]; simp
      sound := hsound
      history := hhist }

theorem framePacket_length {job : TxJob} {packet : List Byte} (hf : job.framed = false)
    (h : framePacket job = some packet) :
    packet.length = job.bytes.length + 26 ∧ packet.length ≤ radioMaxPacketSize := by
  rw [framePacket,if_neg (by rw [hf]; decide)] at h
  split at h
  · rename_i out hbuild
    obtain rfl := Option.some.inj h
    obtain ⟨-,-,hcap,-,apid,type,-,rfl⟩ := lgCcsdsProfileBuild_eq_ok_iff.mp hbuild
    rw [builtPacket_length]
    exact ⟨rfl,hcap⟩
  · cases h

theorem transmit_packet {job : TxJob} {replies : ℕ → ℤ} (h : (transmit job replies).sent = 0) :
    framePacket job = some (transmit job replies).packet := by
  unfold transmit at h ⊢
  cases hf : framePacket job with
  | none =>
    rw [hf] at h
    have hne : ¬ (-1 : ℤ) = 0 := by decide
    exact absurd h hne
  | some packet => rfl

/-- The second critical section leaves the ring alone. -/
theorem finishSection_ring (q : RadioQueue) (job : TxJob) (outcome : TxOutcome) :
    (finishSection q job outcome).buffer = q.buffer ∧
      (finishSection q job outcome).head = q.head ∧
      (finishSection q job outcome).count = q.count ∧
      (finishSection q job outcome).threadStarted = q.threadStarted := by
  unfold finishSection
  dsimp only
  split <;> split <;> (try split) <;> exact ⟨rfl,rfl,rfl,rfl⟩

theorem finishSection_history (q : RadioQueue) (job : TxJob) (outcome : TxOutcome) :
    (finishSection q job outcome).history = q.history ∨
      (outcome.sent = 0 ∧ job.framed = false ∧ ∃ apid,
        (finishSection q job outcome).history = q.history.set q.historyNext
           ⟨true,apid,job.seq,outcome.packet⟩) := by
  unfold finishSection
  dsimp only
  by_cases hsent : outcome.sent = 0
  · rw [if_pos hsent]
    cases hframed : job.framed with
    | true =>
      left
      rw [if_pos rfl]
      split <;> rfl
    | false =>
      right
      rw [if_neg (by decide)]
      refine ⟨hsent,rfl,((byteAt outcome.packet 0 &&& 0x07#8).setWidth 16 <<< 8) |||
        (byteAt outcome.packet 1).setWidth 16,?_⟩
      split <;> rfl
  · left
    rw [if_neg hsent]
    split <;> rfl

theorem finishSection_historySound {q : RadioQueue} (h : q.HistorySound) (job : TxJob)
    (replies : ℕ → ℤ) : (finishSection q job (transmit job replies)).HistorySound := by
  obtain hsame | ⟨hsent,hframed,apid,hset⟩ := finishSection_history q job (transmit job replies)
  · intro slot hslot
    rw [hsame] at hslot
    exact h slot hslot
  · intro slot hslot hused
    rw [hset] at hslot
    rcases List.mem_or_eq_of_mem_set hslot with hslot | rfl
    · exact h slot hslot hused
    · obtain ⟨hlen,hmax⟩ := framePacket_length hframed (transmit_packet hsent)
      exact ⟨by dsimp only; omega,hmax⟩

theorem RadioTx.called_of_rejected {s : RadioTx} {result : ℤ × RadioQueue}
    (h : result.1 = -1) (messages : List Message) :
    s.called result messages = { s with queue := result.2 } := by
  have hne : ¬ result.1 = 0 := by
    rw [h]
    decide
  rw [called,if_neg hne]

/-- Every action keeps the queue intact. -/
theorem RadioTx.step_intact (s : RadioTx) (a : TxAction) (s' : RadioTx) (h : s.Intact)
    (hs : s.step a = some s') : s'.Intact := by
  -- `take` moves the boundary between sent and pending; the other actions leave it or append
  obtain ⟨current,tail,pending,h⟩ := h
  cases a with
  | push content data sendPacket created =>
    obtain rfl := Option.some.inj hs
    obtain ⟨hres,hsame⟩ | ⟨hres,hbad,hwf,hc,hhist⟩ :=
      radioQueuePush_cases h.queue content data sendPacket created
    · rw [called_of_rejected hres]
      refine ⟨current,tail,pending,h.congr hsame.buffer hsame.head hsame.count ?_
        rfl rfl rfl rfl rfl⟩
      intro slot hslot
      rw [hsame.history] at hslot
      exact h.history slot hslot
    · exact ⟨current,tail,_,h.append (sound_of_badArgs hbad).1 hres hwf hc hhist⟩
  | resend apid sequenceCount =>
    obtain rfl := Option.some.inj hs
    obtain ⟨hres,hsame⟩ | ⟨slot,hfind,hsound,hres,hwf,hc,hhist⟩ :=
      radioResend_cases h.queue h.history apid sequenceCount
    · rw [called_of_rejected hres,hsame]
      exact ⟨current,tail,pending,h⟩
    · rw [hfind]
      exact ⟨current,tail,_,h.append hsound hres hwf hc hhist⟩
  | take =>
    rw [step] at hs
    split at hs
    · obtain ⟨r,hr,rfl⟩ := Option.map_eq_some_iff.mp hs
      obtain ⟨m,part,tail,rest,ht⟩ := h.takesFrom hr
      exact ⟨_,_,_,ht.holds h.sound h.history⟩
    · cases hs
  | finish replies =>
    obtain ⟨job,hjob,rfl⟩ := Option.map_eq_some_iff.mp hs
    obtain ⟨hbuffer,hhead,hcount,-⟩ := finishSection_ring s.queue job (transmit job replies)
    exact ⟨current,tail,pending,h.congr hbuffer hhead hcount
      (finishSection_historySound h.history job replies) rfl rfl rfl rfl rfl⟩

theorem RadioTx.run_intact {actions : List TxAction} {s : RadioTx}
    (h : run RadioTx.step .initial actions = some s) : s.Intact :=
  run_invariant step_intact intact_initial h

/-- The bytes left of a payload of which `part` has been taken. -/
theorem rtake_of_append {part tail payload : List Byte} (h : part ++ tail = payload) {n : ℕ}
    (hn : tail.length = n) : payload.rtake n = tail ∧ payload.rdrop n = part := by
  subst h hn
  rw [List.rtake,List.rdrop,List.length_append,Nat.add_sub_cancel]
  exact ⟨List.drop_left,List.take_left⟩

/-- In every state the transmit side can reach, head and count are in range and the ring
holds the last `messageLeft` bytes of the message being sent followed by the whole pending
messages. All accepted messages are those taken out, the one being sent and the pending
ones, in this order. A section of the thread reads no more than is there and parses a
header exactly where a message starts, and a rejected call leaves the ring as it was. -/
theorem transmit_queue_integrity {actions : List TxAction} {s : RadioTx}
    (h : run RadioTx.step .initial actions = some s) :
    s.queue.head < radioQueueSize ∧ s.queue.count ≤ radioQueueSize ∧
    (∃ (current : Option Message) (pending : List Message),
      s.accepted = s.taken ++ current.toList ++ pending ∧
      (current = none ↔ s.thread.messageLeft = 0) ∧
      (∀ m ∈ current,s.thread.content = m.type ∧ s.thread.messageLeft ≤ m.payload.length ∧
        s.part = m.payload.rdrop s.thread.messageLeft) ∧
      s.queue.contents = ((current.map Message.payload).getD []).rtake s.thread.messageLeft ++
        pending.flatMap Message.encode ∧
      ∀ r,takeSection s.queue s.thread = some r →
        (∀ call ∈ r.reads,call.n ≤ call.count) ∧
        (s.thread.messageLeft = 0 → ∃ m rest,pending = m :: rest ∧ r.job.content = m.type ∧
          r.job.bytes <+: m.payload ∧
          r.thread.messageLeft = m.payload.length - r.job.bytes.length)) ∧
    (∀ content data sendPacket created,
      (radioQueuePush s.queue content data sendPacket created).1 ≠ 0 →
      (radioQueuePush s.queue content data sendPacket created).1 = -1 ∧
        s.queue.SameRing (radioQueuePush s.queue content data sendPacket created).2) ∧
    (∀ apid sequenceCount,(radioResend s.queue apid sequenceCount).1 ≠ 0 →
      (radioResend s.queue apid sequenceCount).1 = -1 ∧
        s.queue.SameRing (radioResend s.queue apid sequenceCount).2) := by
  obtain ⟨current,tail,pending,hh⟩ := RadioTx.run_intact h
  refine ⟨hh.queue.head,hh.queue.count,⟨current,pending,hh.accepted,?_,?_,?_,?_⟩,?_,?_⟩
  · rw [hh.idle,← hh.left,List.length_eq_zero_iff]
  · intro m hm
    have hwhole := hh.whole
    rw [Option.mem_def.mp hm] at hwhole
    have hlen : (s.part ++ tail).length = m.payload.length := congrArg List.length hwhole
    rw [List.length_append,hh.left] at hlen
    exact ⟨(hh.type m hm).1,by omega,(rtake_of_append hwhole hh.left).2.symm⟩
  · rw [hh.contents,(rtake_of_append hh.whole hh.left).1]
  · intro r hr
    obtain ⟨m,part,tail',rest,ht⟩ := hh.takesFrom hr
    refine ⟨ht.reads,fun hleft => ⟨m,rest,?_,ht.content,?_,?_⟩⟩
    · have hcur := hh.idle.mpr (List.length_eq_zero_iff.mp (hh.left.trans hleft))
      have hacc := hh.accepted
      rw [ht.accepted,hcur,Option.toList_none,List.append_nil] at hacc
      exact (List.append_cancel_left hacc).symm
    · have hpart := ht.before
      rw [if_pos hleft] at hpart
      rw [ht.bytes,← ht.payload,← hpart]
      exact List.take_prefix _ _
    · have hpart := ht.before
      rw [if_pos hleft] at hpart
      rw [ht.left,ht.bytes,← ht.payload,← hpart,List.nil_append,List.length_drop,List.length_take]
      omega
  · intro content data sendPacket created hne
    obtain hrej | ⟨hres,-⟩ := radioQueuePush_cases hh.queue content data sendPacket created
    · exact hrej
    · exact absurd hres hne
  · intro apid sequenceCount hne
    obtain ⟨hres,hsame⟩ | ⟨-,-,-,hres,-⟩ :=
      radioResend_cases hh.queue hh.history apid sequenceCount
    · exact ⟨hres,by rw [hsame]; exact ⟨rfl,rfl,rfl,rfl⟩⟩
    · exact absurd hres hne

/-- A command of three bytes and raw telemetry of two chunks, taken out and sent chunk by chunk. -/
def commandThenTelemetry : List TxAction :=
  [.push .command (some [1,2,3]) (some 1) true,
    .push .rawTelemetry (some (List.replicate 300 7)) (some 1) true,
    .take,.finish fun _ => 0,.take,.finish fun _ => 0,.take,.finish fun _ => 0]

/-- Between the two chunks, the ring holds the rest of the telemetry. -/
theorem command_taken_out :
    ∃ s,run RadioTx.step .initial (commandThenTelemetry.take 6) = some s ∧
      s.taken = [⟨3,[1,2,3]⟩] ∧ s.queue.head < radioQueueSize ∧
      s.queue.count ≤ radioQueueSize ∧
      ∃ (current : Option Message) (pending : List Message),
        ⟨3,[1,2,3]⟩ :: ⟨0,List.replicate 300 7⟩ :: [] = s.taken ++ current.toList ++ pending ∧
        (current = none ↔ s.thread.messageLeft = 0) ∧ s.thread.messageLeft = 86 ∧
        s.queue.contents = ((current.map Message.payload).getD []).rtake 86 ++
          pending.flatMap Message.encode := by
  have hany : (run RadioTx.step .initial (commandThenTelemetry.take 6)).any (fun s => decide
      (s.taken = [⟨3,[1,2,3]⟩] ∧ s.accepted = [⟨3,[1,2,3]⟩,⟨0,List.replicate 300 7⟩] ∧
        s.thread.messageLeft = 86)) = true := by decide +kernel
  obtain ⟨s,hs,hstate⟩ := (Option.any_eq_true _ _).mp hany
  obtain ⟨htaken,haccepted,hleft⟩ := of_decide_eq_true hstate
  obtain ⟨hhead,hcount,⟨current,pending,horder,hidle,-,hcontents,-⟩,-⟩ := transmit_queue_integrity hs
  rw [haccepted] at horder
  rw [hleft] at hcontents
  exact ⟨s,hs,htaken,hhead,hcount,current,pending,horder,hidle,hleft,hcontents⟩

end FlightSoftware.Radio
