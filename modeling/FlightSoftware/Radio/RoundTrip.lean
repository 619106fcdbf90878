import FlightSoftware.Lib.Chunks
import FlightSoftware.Radio.Deframer
import FlightSoftware.Radio.QueueIntegrity

/-!
# From one queue to the other end

Messages pushed without resends, sent by a sender that always succeeds and fed to
a deframer on the other side. Every message arrives as its consecutive chunks,
with its content type and gap-free sequence counts.
-/

namespace FlightSoftware.Radio
open Ccsds BigEndian StreamScan Run

/-! ### Packets behind each other are found one by one -/

theorem firstByte_of_accepted {packet : List Byte} {contentType : LgCcsdsContentType}
    {config : Ccsds121Config} {ptr : Option Ccsds121Config}
    (h : Accepted packet contentType config ptr) :
    byteAt packet 0 &&& firstByteMask = firstByteOk := by
  have hversion := h.version
  have hsecondary := h.secondary
  simp only [headerOf,readU16Be,bne_iff_ne] at hsecondary
  generalize byteAt packet 0 = a at hversion hsecondary ⊢
  generalize byteAt packet 1 = b at hsecondary
  have hshift : (a.setWidth 16 <<< 8 ||| b.setWidth 16) >>> 11 = (a >>> 3).setWidth 16 := by
    ext i hi
    interval_cases i <;> simp
  rw [hshift] at hsecondary
  clear hshift
  revert a
  decide

theorem verdict_of_accepted {packet : List Byte} {view : LgCcsdsProfileView}
    (h : lgCcsdsProfileParse packet = .ok view) (hmax : packet.length ≤ radioMaxPacketSize)
    (t : List Byte) : radioJudge.verdict (packet ++ t) = .take packet.length := by
  obtain ⟨contentType,config,ptr,hacc,-⟩ := lgCcsdsProfileParse_eq_ok_iff.mp h
  have hlong := hacc.long
  have hlen := hacc.length
  have hv : verdict packet = .take packet.length := by
    have hne : packet ≠ [] := by
      rintro rfl
      simp at hlong
    have hrange : ¬ (packet.length < 26 ∨ 240 < packet.length) := by
      simp only [radioMaxPacketSize] at hmax
      omega
    rw [verdict,if_neg hne,if_neg (not_not.mpr (firstByte_of_accepted hacc)),if_neg (by omega)]
    dsimp only
    rw [hlen,if_neg hrange,if_neg (by omega),List.take_length,h]
    rfl
  have hstable := verdict_stable packet t (by rw [hv]; exact Verdict.noConfusion)
  exact hstable.trans hv

theorem scan_flatten {packets : List (List Byte)} {views : List LgCcsdsProfileView}
    (h : List.Forall₂ (fun packet view => lgCcsdsProfileParse packet = .ok view ∧
      packet.length ≤ radioMaxPacketSize) packets views) :
    scan radioJudge packets.flatten = packets := by
  induction h with
  | nil => exact scan_wait _ radioJudge.nil
  | cons hview _ ih =>
    rw [List.flatten_cons,scan_take _ (verdict_of_accepted hview.1 hview.2 _),List.take_left,
      List.drop_left,ih]

/-! ### What is sent -/

/-- An action of a run without resends, compressed content or failing sends. -/
def TxAction.Plain : TxAction → Prop
  | .push content _ _ _ => content ≠ .compressedTelemetry
  | .resend _ _ => False
  | .take => True
  | .finish replies => ∀ i,replies i = 0

def Message.contentType (m : Message) : LgCcsdsContentType := .ofValue (m.type.setWidth 32)

/-- The consecutive chunks of a message, each with its content type. -/
def Message.chunks (m : Message) : List (LgCcsdsContentType × List Byte) :=
  (Chunks.chunks radioMaxPayload m.payload).map fun chunk => (m.contentType,chunk)

/-- A message every chunk of which can be framed. -/
structure Message.Plain (m : Message) : Prop where
  content : m.contentType = .rawTelemetry ∨ m.contentType = .ssdv ∨ m.contentType = .command
  ssdv : m.contentType = .ssdv → ssdvPacketSize ∣ m.payload.length

theorem value_injective : Function.Injective LgCcsdsContentType.value := by
  have hleft : Function.LeftInverse LgCcsdsContentType.ofValue LgCcsdsContentType.value := by
    intro contentType
    cases contentType with
    | other v hv =>
      rw [LgCcsdsContentType.value,LgCcsdsContentType.ofValue,dif_pos hv]
    | _ => rfl
  exact hleft.injective

theorem Message.value_contentType (m : Message) : m.contentType.value.toNat = m.type.toNat := by
  rw [contentType,LgCcsdsContentType.value_ofValue,BitVec.toNat_setWidth,
    Nat.mod_eq_of_lt (lt_of_lt_of_le m.type.isLt (by decide))]

theorem Message.Plain.type_lt {m : Message} (h : m.Plain) : m.type.toNat < contentTypes := by
  rw [← m.value_contentType]
  rcases h.content with hc | hc | hc <;> rw [hc] <;> decide

theorem Message.Plain.type_ne_rawFrame {m : Message} (h : m.Plain) : m.type ≠ rawFrame := by
  intro hraw
  have := h.type_lt
  rw [hraw] at this
  exact absurd this (by decide)

theorem plain_of_push {content : LgCcsdsContentType} {data : Option (List Byte)}
    {sendPacket : Option Sender} (h : badArgs content data sendPacket = false)
    (hplain : content ≠ .compressedTelemetry) :
    (⟨content.value.setWidth 8,data.getD []⟩ : Message).Plain ∧
      (⟨content.value.setWidth 8,data.getD []⟩ : Message).contentType = content := by
  obtain ⟨-,htype,hssdv⟩ := sound_of_badArgs h
  have heq : (⟨content.value.setWidth 8,data.getD []⟩ : Message).contentType = content := by
    cases content with
    | other v hv =>
      have hle : (4#32).toNat ≤ v.toNat := hv
      exact absurd htype (by simpa [LgCcsdsContentType.value,contentTypes] using hle)
    | _ => rfl
  refine ⟨⟨?_,?_⟩,heq⟩
  · rw [heq]
    cases content with
    | compressedTelemetry => exact absurd rfl hplain
    | other v hv =>
      have hle : (4#32).toNat ≤ v.toNat := hv
      exact absurd htype (by simpa [LgCcsdsContentType.value,contentTypes] using hle)
    | rawTelemetry => exact .inl rfl
    | ssdv => exact .inr (.inl rfl)
    | command => exact .inr (.inr rfl)
  · rw [heq]
    exact fun hs => Nat.dvd_of_mod_eq_zero (hssdv hs)

/-- The chunks taken out so far. -/
def RadioTx.takenChunks (s : RadioTx) : List (LgCcsdsContentType × List Byte) :=
  s.taken.flatMap Message.chunks ++ (⟨s.thread.content,s.part⟩ : Message).chunks

/-- The sequence count after `k` packets. -/
def countOf (k : ℕ) : BitVec 16 := BitVec.ofNat 16 (k % 2^14)

theorem countOf_toNat (k : ℕ) : (countOf k).toNat = k % 2^14 := by
  rw [countOf,BitVec.toNat_ofNat]
  omega

theorem countOf_succ (k : ℕ) : (countOf k + 1#16) &&& maxSequenceCount = countOf (k+1) := by
  apply BitVec.eq_of_toNat_eq
  have hmask : maxSequenceCount.toNat = 2^14 - 1 := rfl
  rw [BitVec.toNat_and,hmask,Nat.and_two_pow_sub_one_eq_mod,BitVec.toNat_add,countOf_toNat,
    countOf_toNat]
  simp only [BitVec.reduceToNat]
  omega

theorem countOf_le (k : ℕ) : ¬ countOf k > maxSequenceCount := by
  have hmask : maxSequenceCount.toNat = 2^14 - 1 := rfl
  rw [gt_iff_lt,BitVec.lt_def,countOf_toNat,hmask]
  omega

/-- How many packets of a content type are among these. -/
def sentOf (contentType : LgCcsdsContentType) (views : List LgCcsdsProfileView) : ℕ :=
  views.countP fun view => decide (view.metadata.contentType = contentType)

/-- The invariant of a plain run: the packets handed over parse to `views`, which are the
chunks taken out but for the one still in the thread's hands, numbered per content type. -/
structure RadioTx.Emits (s : RadioTx) (views : List LgCcsdsProfileView) : Prop where
  plain : ∀ m ∈ s.accepted,m.Plain
  boundary : radioMaxPayload ∣ s.part.length
  parsed : List.Forall₂ (fun packet view => lgCcsdsProfileParse packet = .ok view ∧
    packet.length ≤ radioMaxPacketSize) s.handed views
  chunks : s.takenChunks = views.map (fun view => (view.metadata.contentType,view.payload)) ++
    s.thread.job.toList.map fun job => (.ofValue (job.content.setWidth 32),job.bytes)
  numbered : ∀ pre view post,views = pre ++ view :: post →
    view.metadata.itemCount = 1#32 ∧
      view.metadata.sequenceCount = countOf (sentOf view.metadata.contentType pre)
  sequence : ∀ contentType : LgCcsdsContentType,contentType.value.toNat < contentTypes →
    s.thread.sequence[contentType.value.toNat]? =
      some (countOf (s.takenChunks.countP fun chunk => decide (chunk.1 = contentType)))
  job : ∀ job ∈ s.thread.job,job.framed = false ∧
    job.seq = countOf (sentOf (.ofValue (job.content.setWidth 32)) views) ∧
    ∃ packet,lgCcsdsProfileBuild (.ofValue (job.content.setWidth 32)) job.seq 1#32 none job.bytes
      radioMaxPacketSize = .ok packet
  started : s.accepted ≠ [] → s.queue.threadStarted = true

theorem RadioTx.emits_initial : RadioTx.initial.Emits [] := by
  refine ⟨?_,by decide,.nil,?_,?_,?_,?_,fun h => absurd rfl h⟩
  · intro m hm
    cases hm
  · rw [takenChunks]
    simp [initial,TxThread.initial,Message.chunks]
  · intro pre view post h
    simp at h
  · intro contentType hlt
    have hnone : RadioTx.initial.takenChunks = [] := by
      simp [takenChunks,initial,TxThread.initial,Message.chunks]
    rw [hnone]
    exact List.getElem?_replicate_of_lt hlt
  · intro job hjob
    cases hjob

/-- A chunk of a plain message can be framed. -/
theorem build_of_chunk {contentType : LgCcsdsContentType} {chunk : List Byte}
    {sequenceCount : BitVec 16} (hsequence : ¬ sequenceCount > maxSequenceCount)
    (hcontent : contentType = .rawTelemetry ∨ contentType = .ssdv ∨ contentType = .command)
    (hlen : chunk.length ≤ radioMaxPayload)
    (hssdv : contentType = .ssdv → chunk.length = ssdvPacketSize) :
    ∃ packet,lgCcsdsProfileBuild contentType sequenceCount 1#32 none chunk radioMaxPacketSize =
      .ok packet := by
  have hmax : radioMaxPayload = 214 := rfl
  have hcap : radioMaxPacketSize = 240 := rfl
  rcases hcontent with rfl | rfl | rfl
  · exact ⟨_,lgCcsdsProfileBuild_eq_ok_iff.mpr ⟨hsequence,by omega,by omega,rfl,_,_,rfl,rfl⟩⟩
  · refine ⟨_,lgCcsdsProfileBuild_eq_ok_iff.mpr
      ⟨hsequence,by omega,by omega,?_,_,_,rfl,rfl⟩⟩
    rw [hssdv rfl]
    rfl
  · exact ⟨_,lgCcsdsProfileBuild_eq_ok_iff.mpr ⟨hsequence,by omega,by omega,rfl,_,_,rfl,rfl⟩⟩

theorem Message.chunks_append {type : Byte} {part chunk : List Byte}
    (hpart : radioMaxPayload ∣ part.length) (hpos : 0 < chunk.length)
    (hlen : chunk.length ≤ radioMaxPayload) :
    (⟨type,part ++ chunk⟩ : Message).chunks =
      (⟨type,part⟩ : Message).chunks ++ [((⟨type,part⟩ : Message).contentType,chunk)] := by
  rw [chunks,Chunks.chunks_append hpart,
    Chunks.chunks_of_length_le (List.length_pos_iff.mp hpos) hlen,List.map_append]
  rfl

/-- A section of the thread adds one chunk. -/
theorem RadioTx.TakesFrom.takenChunks {s : RadioTx} {r : TakeResult} {m : Message}
    {part tail : List Byte} {rest : List Message} (h : s.TakesFrom r m part tail rest)
    (hpart : s.part = part) (hboundary : radioMaxPayload ∣ s.part.length)
    (hraw : m.type ≠ rawFrame) :
    (s.recordTake r).takenChunks = s.takenChunks ++ [(m.contentType,r.job.bytes)] := by
  have hbefore : (⟨s.thread.content,s.part⟩ : Message).chunks =
      (⟨m.type,part⟩ : Message).chunks := by
    rw [hpart]
    rcases h.resumes with hnil | htype
    · rw [hnil]
      simp [Message.chunks]
    · rw [htype]
  have hbytes : r.job.bytes.length = min tail.length radioMaxPayload := by
    rw [h.bytes,List.length_take,chunkLength,if_neg hraw]
    omega
  have hpos := h.pos
  have hmax : 0 < radioMaxPayload := by decide
  have hadd : (⟨m.type,part ++ r.job.bytes⟩ : Message).chunks =
      (⟨m.type,part⟩ : Message).chunks ++ [(m.contentType,r.job.bytes)] :=
    Message.chunks_append (hpart ▸ hboundary) (by omega) (by omega)
  rw [RadioTx.takenChunks,RadioTx.takenChunks,hbefore,List.append_assoc,← hadd,recordTake,h.before]
  split
  · rw [h.content,List.flatMap_append,List.flatMap_singleton]
    simp [Message.chunks]
  · rw [h.type]

theorem RadioTx.take_emits {s : RadioTx} {r : TakeResult} {m : Message} {part tail : List Byte}
    {rest : List Message} {views : List LgCcsdsProfileView} (h : s.TakesFrom r m part tail rest)
    (he : s.Emits views) (hjob : s.thread.job = none) (hpart : s.part = part) :
    (s.recordTake r).Emits views := by
  have hplain := he.plain m (by rw [h.accepted]; simp)
  have hraw := hplain.type_ne_rawFrame
  have hchunks := h.takenChunks hpart he.boundary hraw
  obtain ⟨hframed,hseq,hsequence⟩ := h.unframed hraw
  have hcontent : LgCcsdsContentType.ofValue (r.job.content.setWidth 32) = m.contentType := by
    rw [h.content]
    rfl
  have hpos := h.pos
  have hmax : radioMaxPayload = 214 := rfl
  have hn : chunkLength m.type tail.length = min tail.length radioMaxPayload := if_neg hraw
  have hlen : r.job.bytes.length = min tail.length radioMaxPayload := by
    rw [h.bytes,List.length_take,hn]
    omega
  obtain ⟨haccepted,hhanded,hthread,hqueue⟩ := recordTake_same s r
  -- nothing was in the thread's hands, so all chunks taken before have been sent
  have hviews := he.chunks
  rw [hjob,Option.toList_none,List.map_nil,List.append_nil] at hviews
  have hcount : ∀ c,s.takenChunks.countP (fun chunk => decide (chunk.1 = c)) =
      sentOf c views := by
    intro c
    rw [hviews,List.countP_map]
    rfl
  have hslot := he.sequence m.contentType (by rw [m.value_contentType]; exact hplain.type_lt)
  rw [m.value_contentType] at hslot
  have hseq' : r.job.seq = countOf (sentOf m.contentType views) := by
    rw [hseq,List.getD_eq_getElem?_getD,hslot,Option.getD_some,hcount]
  refine ⟨haccepted ▸ he.plain,?_,hhanded ▸ he.parsed,?_,he.numbered,?_,?_,?_⟩
  · rw [recordTake,h.before]
    split
    · exact dvd_zero _
    · rename_i hmore
      rw [h.left,List.length_drop,hn] at hmore
      rw [List.length_append,hlen,← hpart]
      exact dvd_add he.boundary ⟨1,by omega⟩
  · rw [hchunks,hviews,hthread,h.job,Option.toList_some,List.map_singleton,hcontent]
  -- the counter of this content type has moved by one and the others stand still
  · intro c hc
    have hbound := (List.getElem?_eq_some_iff.mp hslot).1
    rw [hthread,hsequence,hchunks,List.countP_append,List.countP_singleton,hcount,hseq',
      List.getElem?_set]
    by_cases heq : m.contentType = c
    · subst heq
      rw [if_pos m.value_contentType.symm,if_pos hbound,decide_eq_true rfl,if_pos rfl,countOf_succ]
    · have hne : m.type.toNat ≠ c.value.toNat := by
        rw [← m.value_contentType]
        exact fun h => heq (value_injective (BitVec.eq_of_toNat_eq h))
      rw [if_neg hne,decide_eq_false heq,if_neg (by decide),Nat.add_zero,he.sequence c hc,hcount]
  · intro job hj
    rw [hthread,h.job] at hj
    obtain rfl := Option.some.inj hj
    rw [hcontent]
    refine ⟨hframed,hseq',?_⟩
    rw [hseq']
    refine build_of_chunk (countOf_le _) hplain.content (by omega) fun hssdv => ?_
    -- an ssdv message is a multiple of the packet size, and so is what remains of it
    have hdvd := hplain.ssdv hssdv
    rw [← h.payload,List.length_append] at hdvd
    have htail : ssdvPacketSize ∣ tail.length :=
      (Nat.dvd_add_right (hpart ▸ he.boundary)).mp hdvd
    have hge := Nat.le_of_dvd hpos htail
    have : ssdvPacketSize = 214 := rfl
    omega
  · rw [haccepted,hqueue,h.started]
    exact he.started

theorem transmit_eq {job : TxJob} {replies : ℕ → ℤ} {packet : List Byte}
    (hframed : job.framed = false) (hreplies : ∀ i,replies i = 0)
    (hbuild : lgCcsdsProfileBuild (.ofValue (job.content.setWidth 32)) job.seq 1#32 none job.bytes
      radioMaxPacketSize = .ok packet) : transmit job replies = ⟨packet,0,1⟩ := by
  have hsend : sendLoop replies sendAttempts 0 (-1) = (0,1) := by
    have hne : (-1 : ℤ) ≠ 0 := by decide
    rw [sendAttempts,sendLoop,if_pos hne,hreplies,sendLoop,if_neg (not_not.mpr rfl)]
  have hframe : framePacket job = some packet := by
    rw [framePacket,if_neg (by rw [hframed]; decide),hbuild]
  rw [transmit,hframe]
  dsimp only
  rw [hsend]

theorem RadioTx.finish_emits {s : RadioTx} {views : List LgCcsdsProfileView} {job : TxJob}
    {replies : ℕ → ℤ} (he : s.Emits views) (hjob : s.thread.job = some job)
    (hreplies : ∀ i,replies i = 0) :
    ∃ view,(s.sent job (transmit job replies)).Emits (views ++ [view]) := by
  obtain ⟨hframed,hseq,packet,hbuild⟩ := he.job job hjob
  obtain ⟨view,hview,hmeta,hpayload,-⟩ := parse_of_build hbuild
  have hpacket : framePacket job = some packet := by
    rw [framePacket,if_neg (by rw [hframed]; decide),hbuild]
  have hmax := (framePacket_length hframed hpacket).2
  have hchunks := he.chunks
  rw [hjob,Option.toList_some,List.map_singleton] at hchunks
  rw [transmit_eq hframed hreplies hbuild]
  refine ⟨view,he.plain,he.boundary,?_,?_,?_,he.sequence,?_,?_⟩
  · exact List.rel_append he.parsed (.cons ⟨hview,hmax⟩ .nil)
  · change s.takenChunks = _
    rw [hchunks,List.map_append,List.map_singleton,hmeta,hpayload]
    simp [sent]
  · intro pre v post hsplit
    -- the new view is the last one; those before it were numbered already
    rcases List.eq_nil_or_concat post with rfl | ⟨post,w,rfl⟩
    · obtain ⟨rfl,hv⟩ := List.append_inj' hsplit rfl
      obtain rfl := (List.cons.inj hv).1
      rw [hmeta]
      exact ⟨rfl,hseq⟩
    · rw [List.concat_eq_append,← List.cons_append,← List.append_assoc] at hsplit
      exact he.numbered pre v post (List.append_inj' hsplit rfl).1
  · intro job hj
    cases hj
  · change _ → (finishSection s.queue job _).threadStarted = true
    rw [(finishSection_ring s.queue job _).2.2.2]
    exact he.started

theorem RadioTx.push_emits {s : RadioTx} {views : List LgCcsdsProfileView} (he : s.Emits views)
    (hq : s.queue.WellFormed) {content : LgCcsdsContentType} (hplain : content ≠ .compressedTelemetry)
    (data : Option (List Byte)) (sendPacket : Option Sender) (created : Bool) :
    (s.called (radioQueuePush s.queue content data sendPacket created)
      [⟨content.value.setWidth 8,data.getD []⟩]).Emits views := by
  refine ⟨?_,he.boundary,he.parsed,he.chunks,he.numbered,he.sequence,he.job,?_⟩
  · obtain ⟨hres,-⟩ | ⟨hres,hbad,-⟩ := radioQueuePush_cases hq content data sendPacket created
    · rw [called_of_rejected hres]
      exact he.plain
    · intro m hm
      rw [called,if_pos hres] at hm
      rcases List.mem_append.mp hm with hm | hm
      · exact he.plain m hm
      · rw [List.mem_singleton.mp hm]
        exact (plain_of_push hbad hplain).1
  · intro haccepted
    apply radioQueuePush_threadStarted
    obtain ⟨hres,-⟩ | ⟨hres,-⟩ := radioQueuePush_cases hq content data sendPacket created
    · rw [called_of_rejected hres] at haccepted
      exact .inl (he.started haccepted)
    · exact .inr hres

/-- Every plain action keeps the invariant. -/
theorem RadioTx.step_emits (s : RadioTx) (a : TxAction) (s' : RadioTx)
    (h : s.Intact ∧ ∃ views,s.Emits views) (ha : a.Plain) (hs : s.step a = some s') :
    s'.Intact ∧ ∃ views,s'.Emits views := by
  obtain ⟨hintact,views,he⟩ := h
  refine ⟨step_intact s a s' hintact hs,?_⟩
  obtain ⟨current,tail,pending,hh⟩ := hintact
  cases a with
  | push content data sendPacket created =>
    obtain rfl := Option.some.inj hs
    exact ⟨views,push_emits he hh.queue ha data sendPacket created⟩
  | resend apid sequenceCount => exact absurd ha id
  | take =>
    rw [step] at hs
    split at hs
    · rename_i hidle
      obtain ⟨r,hr,rfl⟩ := Option.map_eq_some_iff.mp hs
      obtain ⟨m,part,tail',rest,ht⟩ := hh.takesFrom hr
      refine ⟨views,take_emits ht he hidle.2 ?_⟩
      -- between two messages nothing is kept of the one that has ended
      rw [← ht.before]
      split
      · rename_i hleft
        have htail : tail = [] := List.length_eq_zero_iff.mp (hh.left.trans hleft)
        have hwhole := hh.whole
        rw [htail,List.append_nil,hh.idle.mpr htail] at hwhole
        exact hwhole
      · rfl
    · cases hs
  | finish replies =>
    obtain ⟨job,hjob,rfl⟩ := Option.map_eq_some_iff.mp hs
    obtain ⟨view,hview⟩ := finish_emits he hjob ha
    exact ⟨_,hview⟩

theorem RadioTx.run_emits {actions : List TxAction} {s s' : RadioTx}
    (h : s.Intact ∧ ∃ views,s.Emits views) (hplain : ∀ a ∈ actions,a.Plain)
    (hrun : run RadioTx.step s actions = some s') : s'.Intact ∧ ∃ views,s'.Emits views := by
  refine run_invariant_of (I := fun s : RadioTx => s.Intact ∧ ∃ views,s.Emits views)
    (P := fun _ a => TxAction.Plain a) step_emits h ?_ hrun
  rintro pre a post t rfl -
  exact hplain a (by simp)

/-! ### The thread empties the queue -/

/-- The queue is intact, and the thread runs once something has been accepted. -/
structure RadioTx.Live (s : RadioTx) : Prop where
  intact : s.Intact
  started : s.accepted ≠ [] → s.queue.threadStarted = true

theorem RadioTx.step_live (s : RadioTx) (a : TxAction) (s' : RadioTx) (h : s.Live)
    (hs : s.step a = some s') : s'.Live := by
  refine ⟨step_intact s a s' h.intact hs,?_⟩
  obtain ⟨current,tail,pending,hh⟩ := h.intact
  cases a with
  | push content data sendPacket created =>
    obtain rfl := Option.some.inj hs
    intro haccepted
    apply radioQueuePush_threadStarted
    obtain ⟨hres,-⟩ | ⟨hres,-⟩ := radioQueuePush_cases hh.queue content data sendPacket created
    · rw [called_of_rejected hres] at haccepted
      exact .inl (h.started haccepted)
    · exact .inr hres
  | resend apid sequenceCount =>
    obtain rfl := Option.some.inj hs
    intro haccepted
    by_cases hstarted : s.queue.threadStarted = true
    · rw [called_queue,radioResend_threadStarted]
      exact hstarted
    -- without a thread the resend is refused, so something was accepted before it
    · have hres : (radioResend s.queue apid sequenceCount).1 = -1 := by
        unfold radioResend
        split
        · rfl
        · rw [if_neg hstarted]
      rw [called_of_rejected hres] at haccepted
      exact absurd (h.started haccepted) hstarted
  | take =>
    rw [step] at hs
    split at hs
    · rename_i hidle
      obtain ⟨r,hr,rfl⟩ := Option.map_eq_some_iff.mp hs
      obtain ⟨m,part,tail',rest,ht⟩ := hh.takesFrom hr
      intro _
      rw [(recordTake_same s r).2.2.2,ht.started]
      exact hidle.1
    · cases hs
  | finish replies =>
    obtain ⟨job,hjob,rfl⟩ := Option.map_eq_some_iff.mp hs
    intro haccepted
    exact (finishSection_ring s.queue job _).2.2.2.trans (h.started haccepted)

theorem RadioTx.live_initial : RadioTx.initial.Live := ⟨intact_initial,fun h => absurd rfl h⟩

/-- A queue that is not empty gets emptier by one more chunk. -/
theorem RadioTx.take_progress {s : RadioTx} (h : s.Live) (hjob : s.thread.job = none)
    (hcount : s.queue.count ≠ 0) :
    ∃ r,takeSection s.queue s.thread = some r ∧ s.step .take = some (s.recordTake r) ∧
      (s.recordTake r).queue.count < s.queue.count := by
  obtain ⟨current,tail,pending,hh⟩ := h.intact
  obtain ⟨r,hr⟩ : ∃ r,takeSection s.queue s.thread = some r := ⟨_,takeSection_eq hcount⟩
  obtain ⟨m,part,tail',rest,ht⟩ := hh.takesFrom hr
  have haccepted : s.accepted ≠ [] := by
    rw [ht.accepted]
    simp
  refine ⟨r,hr,?_,?_⟩
  · rw [step,if_pos ⟨h.started haccepted,hjob⟩,hr]
    rfl
  -- a chunk has at least one byte, so the count goes down
  · have hlen := ht.queue.contents_length
    have hstored := ht.stored
    have hpos := ht.pos
    have hmax : 0 < radioMaxPayload := by decide
    have hchunk : 0 < chunkLength m.type tail'.length := by
      rw [chunkLength]
      split <;> omega
    rw [ht.contents,List.length_append,List.length_drop] at hlen
    rw [(recordTake_same s r).2.2.2]
    omega

/-- The thread's own actions. -/
def TxAction.OfThread : TxAction → Prop
  | .take => True
  | .finish replies => ∀ i,replies i = 0
  | _ => False

/-- The thread gets rid of the packet in its hands. -/
theorem RadioTx.exists_idle {s : RadioTx} (h : s.Live) :
    ∃ actions s',(∀ a ∈ actions,a.OfThread) ∧ run RadioTx.step s actions = some s' ∧
      s'.Live ∧ s'.thread.job = none ∧ s'.queue.count = s.queue.count ∧
      s'.accepted = s.accepted ∧ s'.taken = s.taken := by
  cases hjob : s.thread.job with
  | none => exact ⟨[],s,by simp,rfl,h,hjob,rfl,rfl,rfl⟩
  | some job =>
    have hstep : s.step (.finish fun _ => 0) = some (s.sent job (transmit job fun _ => 0)) := by
      rw [step,hjob]
      rfl
    refine ⟨[.finish fun _ => 0],_,?_,run_cons_eq_some.mpr ⟨_,hstep,rfl⟩,
      step_live _ _ _ h hstep,rfl,(finishSection_ring s.queue job _).2.2.1,rfl,rfl⟩
    intro a ha
    rw [List.mem_singleton.mp ha]
    exact fun _ => rfl

/-- From every state of a run, the thread alone empties the queue. -/
theorem RadioTx.exists_drain (s : RadioTx) (h : s.Live) :
    ∃ actions s',(∀ a ∈ actions,a.OfThread) ∧ run RadioTx.step s actions = some s' ∧
      s'.queue.count = 0 ∧ s'.thread.job = none ∧ s'.accepted = s.accepted := by
  induction hn : s.queue.count using Nat.strong_induction_on generalizing s with
  | _ n ih =>
    obtain ⟨early,t,hearly,hrun,ht,hjob,hcount,hacc,-⟩ := exists_idle h
    by_cases h0 : t.queue.count = 0
    · exact ⟨early,t,hearly,hrun,h0,hjob,hacc⟩
    obtain ⟨r,-,hstep,hless⟩ := take_progress ht hjob h0
    obtain ⟨late,s',hlate,hrest,hzero,hjob',hacc'⟩ := ih _ (by omega) _
      (step_live _ _ _ ht hstep) rfl
    refine ⟨early ++ .take :: late,s',?_,?_,hzero,hjob',?_⟩
    · intro a ha
      rcases List.mem_append.mp ha with ha | ha
      · exact hearly a ha
      · rcases List.mem_cons.mp ha with rfl | ha
        · trivial
        · exact hlate a ha
    · rw [run_append,hrun]
      exact run_cons_eq_some.mpr ⟨_,hstep,hrest⟩
    · rw [hacc',(recordTake_same t r).1,hacc]

/-! ### The round trip -/

/-- The chunks taken out are the first chunks of the accepted messages, and all of them
once the queue is empty. -/
theorem RadioTx.takenChunks_isPrefixOf {s : RadioTx} {current : Option Message} {tail : List Byte}
    {pending : List Message} (h : s.Holds current tail pending)
    (hboundary : radioMaxPayload ∣ s.part.length) :
    s.takenChunks <+: s.accepted.flatMap Message.chunks ∧
      (s.queue.count = 0 → s.takenChunks = s.accepted.flatMap Message.chunks) := by
  have hwhole := h.whole
  cases hcur : current with
  | none =>
    have htail := h.idle.mp hcur
    have hpart : s.part = [] := by
      rw [htail,hcur,List.append_nil] at hwhole
      exact hwhole
    have htaken : s.takenChunks = s.taken.flatMap Message.chunks := by
      rw [takenChunks,hpart]
      simp [Message.chunks]
    have hacc := h.accepted
    rw [hcur,Option.toList_none,List.append_nil] at hacc
    rw [htaken,hacc,List.flatMap_append]
    refine ⟨List.prefix_append _ _,fun hcount => ?_⟩
    have hlen := h.queue.contents_length
    rw [h.contents,hcount,htail,List.nil_append,List.length_eq_zero_iff] at hlen
    cases pending with
    | nil => simp
    | cons m rest => simp [Message.encode] at hlen
  -- the cut falls between two chunks of the message that is being sent
  | some m =>
    rw [hcur] at hwhole
    change s.part ++ tail = m.payload at hwhole
    have hchunks : m.chunks = (⟨s.thread.content,s.part⟩ : Message).chunks ++
        (⟨s.thread.content,tail⟩ : Message).chunks := by
      have hm : m = ⟨s.thread.content,s.part ++ tail⟩ := by rw [hwhole,(h.type m hcur).1]
      rw [hm,Message.chunks,Chunks.chunks_append hboundary,List.map_append]
      rfl
    have hacc := h.accepted
    rw [hcur,Option.toList_some,List.append_assoc,List.singleton_append] at hacc
    constructor
    · refine ⟨(⟨s.thread.content,tail⟩ : Message).chunks ++ pending.flatMap Message.chunks,?_⟩
      rw [hacc,List.flatMap_append,List.flatMap_cons,hchunks,takenChunks]
      simp only [List.append_assoc]
    · intro hcount
      have hlen := h.queue.contents_length
      rw [h.contents,hcount,List.length_eq_zero_iff,List.append_eq_nil_iff] at hlen
      rw [h.idle.mpr hlen.1] at hcur
      cases hcur

/-- Messages pushed in any interleaving, without resends and with a sender that always
returns 0. Feeding the packets handed to the sender to a deframer returns these packets.
Their views are the consecutive chunks of the messages in acceptance order: a prefix of
them at any time, all of them once the queue is empty and the thread idle, which the thread
always gets to. Each has item count 1, and the sequence counts of a content type go up by
one modulo `2^14`. -/
theorem radio_round_trip {actions : List TxAction} {s : RadioTx}
    (hplain : ∀ a ∈ actions,a.Plain) (hrun : run RadioTx.step .initial actions = some s) :
    (Receiver.reset.feed s.handed.flatten).drain.packets = s.handed ∧
    (∃ views : List LgCcsdsProfileView,
      List.Forall₂ (fun packet view => lgCcsdsProfileParse packet = .ok view)
        (Receiver.reset.feed s.handed.flatten).drain.packets views ∧
      views.map (fun view => (view.metadata.contentType,view.payload)) <+:
        s.accepted.flatMap Message.chunks ∧
      (s.queue.count = 0 → s.thread.job = none →
        views.map (fun view => (view.metadata.contentType,view.payload)) =
          s.accepted.flatMap Message.chunks) ∧
      ∀ pre view post,views = pre ++ view :: post → view.metadata.itemCount = 1#32 ∧
        view.metadata.sequenceCount = BitVec.ofNat 16
          (pre.countP (fun v => v.metadata.contentType = view.metadata.contentType) % 2^14)) ∧
    (∀ m ∈ s.accepted,(m.contentType = .rawTelemetry ∨ m.contentType = .ssdv ∨
        m.contentType = .command) ∧
      (m.chunks.map Prod.snd).flatten = m.payload ∧
      (∀ chunk ∈ m.chunks,chunk.1 = m.contentType) ∧
      ∀ chunk ∈ m.chunks.dropLast,chunk.2.length = 214) ∧
    (∃ more s',(∀ a ∈ more,a.OfThread) ∧ run RadioTx.step s more = some s' ∧
      s'.queue.count = 0 ∧ s'.thread.job = none ∧ s'.accepted = s.accepted) := by
  have hinv := RadioTx.run_emits ⟨RadioTx.intact_initial,[],RadioTx.emits_initial⟩ hplain hrun
  have hdrain := RadioTx.exists_drain s (run_invariant RadioTx.step_live RadioTx.live_initial hrun)
  obtain ⟨⟨current,tail,pending,hh⟩,views,he⟩ := hinv
  obtain ⟨hpre,hall⟩ := RadioTx.takenChunks_isPrefixOf hh he.boundary
  have hreceived : (Receiver.reset.feed s.handed.flatten).drain.packets = s.handed := by
    rw [Receiver.feed_drain_packets]
    exact scan_flatten he.parsed
  refine ⟨hreceived,⟨views,?_,?_,?_,?_⟩,?_,hdrain⟩
  · rw [hreceived]
    exact he.parsed.imp fun packet view h => h.1
  · rw [he.chunks] at hpre
    exact (List.prefix_append _ _).trans hpre
  · intro hcount hjob
    rw [← hall hcount,he.chunks,hjob]
    simp
  · exact he.numbered
  · intro m hm
    refine ⟨(he.plain m hm).content,?_,?_,?_⟩
    · rw [Message.chunks,List.map_map]
      exact (congrArg List.flatten (List.map_id _)).trans
        (Chunks.flatten_chunks (by decide) m.payload)
    · intro chunk hc
      obtain ⟨_,-,rfl⟩ := List.mem_map.mp hc
      rfl
    · intro chunk hc
      rw [Message.chunks,← List.map_dropLast] at hc
      obtain ⟨c,hmem,rfl⟩ := List.mem_map.mp hc
      exact Chunks.length_of_mem_dropLast hmem

/-- A command and two chunks of telemetry go through the whole chain. -/
theorem command_round_trip :
    ∃ (s : RadioTx) (views : List LgCcsdsProfileView),
      run RadioTx.step .initial commandThenTelemetry = some s ∧
      List.Forall₂ (fun packet view => lgCcsdsProfileParse packet = .ok view)
        (Receiver.reset.feed s.handed.flatten).drain.packets views ∧
      views.map (fun view => (view.metadata.contentType,view.payload)) =
        [(.command,[1,2,3]),(.rawTelemetry,List.replicate 214 7),
          (.rawTelemetry,List.replicate 86 7)] := by
  have hany : (run RadioTx.step .initial commandThenTelemetry).any (fun s => decide
      (s.accepted = [⟨3,[1,2,3]⟩,⟨0,List.replicate 300 7⟩] ∧ s.queue.count = 0 ∧
        s.thread.job = none)) = true := by decide +kernel
  obtain ⟨s,hs,hstate⟩ := (Option.any_eq_true _ _).mp hany
  obtain ⟨haccepted,hcount,hjob⟩ := of_decide_eq_true hstate
  have hplain : ∀ a ∈ commandThenTelemetry,a.Plain := by
    simp only [commandThenTelemetry,List.forall_mem_cons]
    exact ⟨LgCcsdsContentType.noConfusion,LgCcsdsContentType.noConfusion,trivial,fun _ => rfl,
      trivial,fun _ => rfl,trivial,fun _ => rfl,fun _ h => absurd h List.not_mem_nil⟩
  obtain ⟨-,⟨views,hviews,-,hall,-⟩,-⟩ := radio_round_trip hplain hs
  refine ⟨s,views,hs,hviews,?_⟩
  rw [hall hcount hjob,haccepted]
  decide +kernel

end FlightSoftware.Radio
