import FlightSoftware.Radio.RoundTrip

/-!
# Admission and framing

`radio_queue_push` admits four content types. The thread frames every chunk with
item count 1 and without a compression configuration, which the profile refuses
for compressed telemetry, so a message of that type is accepted and never sent.
Every chunk of the other three can be framed, in every state of the queue.
-/

namespace FlightSoftware.Radio
open Ccsds Run

/-! ### What the thread can rely on -/

/-- Whole SSDV packets were admitted, the message being sent was cut between two chunks, and
no counter is out of range. -/
structure RadioTx.Admits (s : RadioTx) : Prop where
  live : s.Live
  whole : ∀ m ∈ s.accepted,m.contentType = .ssdv → ssdvPacketSize ∣ m.payload.length
  boundary : radioMaxPayload ∣ s.part.length
  numbered : ∀ count ∈ s.thread.sequence,¬ count > maxSequenceCount

theorem RadioTx.admits_initial : RadioTx.initial.Admits := by
  refine ⟨live_initial,by simp [initial],by simp [initial],?_⟩
  intro count hcount
  rw [List.eq_of_mem_replicate hcount]
  decide

theorem contentType_of_push {content : LgCcsdsContentType} {data : Option (List Byte)}
    {sendPacket : Option Sender} (h : badArgs content data sendPacket = false) :
    (⟨content.value.setWidth 8,data.getD []⟩ : Message).contentType = content := by
  cases content with
  | other v hv =>
    have hle : (4#32).toNat ≤ v.toNat := hv
    exact absurd (sound_of_badArgs h).2.1 (by simpa [LgCcsdsContentType.value,contentTypes] using hle)
  | _ => rfl

theorem contentType_rawFrame {m : Message} (h : m.type = rawFrame) : m.contentType ≠ .ssdv := by
  rw [Message.contentType,h]
  decide

theorem and_maxSequenceCount_le (w : BitVec 16) :
    ¬ w &&& maxSequenceCount > maxSequenceCount := by
  rw [gt_iff_lt,BitVec.lt_def,BitVec.toNat_and,not_lt]
  exact Nat.and_le_right

/-- What is left of a message after a chunk of it has been taken is cut between two chunks. -/
theorem RadioTx.TakesFrom.boundary {s : RadioTx} {r : TakeResult} {m : Message}
    {part tail : List Byte} {rest : List Message} (h : s.TakesFrom r m part tail rest)
    (hs : radioMaxPayload ∣ s.part.length) : radioMaxPayload ∣ (s.recordTake r).part.length := by
  unfold recordTake
  dsimp only
  split
  · simp
  rename_i hleft
  rw [h.left,List.length_drop] at hleft
  have hraw : m.type ≠ rawFrame := by
    intro hraw
    rw [chunkLength,if_pos hraw] at hleft
    omega
  rw [chunkLength,if_neg hraw] at hleft
  have hbytes : r.job.bytes.length = radioMaxPayload := by
    rw [h.bytes,List.length_take,chunkLength,if_neg hraw]
    omega
  rw [List.length_append,hbytes]
  refine dvd_add ?_ dvd_rfl
  split
  · simp
  · exact hs

theorem takeSection_numbered {q : RadioQueue} {tx : TxThread} {r : TakeResult}
    (h : takeSection q tx = some r) (hs : ∀ count ∈ tx.sequence,¬ count > maxSequenceCount) :
    ∀ count ∈ r.thread.sequence,¬ count > maxSequenceCount := by
  obtain ⟨⟨-,hsame⟩ | ⟨-,-,-,hset⟩,-⟩ := takeSection_numbers h
  · rw [hsame]
    exact hs
  · intro count hcount
    rw [hset] at hcount
    rcases List.mem_or_eq_of_mem_set hcount with hcount | rfl
    · exact hs count hcount
    · exact and_maxSequenceCount_le _

theorem RadioTx.step_admits (s : RadioTx) (a : TxAction) (s' : RadioTx) (h : s.Admits)
    (hs : s.step a = some s') : s'.Admits := by
  have hlive := step_live s a s' h.live hs
  obtain ⟨current,tail,pending,hh⟩ := h.live.intact
  cases a with
  | push content data sendPacket created =>
    obtain rfl := Option.some.inj hs
    refine ⟨hlive,?_,h.boundary,h.numbered⟩
    obtain ⟨hres,-⟩ | ⟨hres,hbad,-⟩ :=
      radioQueuePush_cases hh.queue content data sendPacket created
    · rw [called_of_rejected hres]
      exact h.whole
    · intro m hm
      rw [called,if_pos hres] at hm
      rcases List.mem_append.mp hm with hm | hm
      · exact h.whole m hm
      · rw [List.mem_singleton.mp hm,contentType_of_push hbad]
        exact fun hssdv => Nat.dvd_of_mod_eq_zero ((sound_of_badArgs hbad).2.2 hssdv)
  | resend apid sequenceCount =>
    obtain rfl := Option.some.inj hs
    obtain ⟨hthread,hpart,-⟩ := called_thread s (radioResend s.queue apid sequenceCount)
      ((findSent s.queue apid sequenceCount).toList.map fun slot => ⟨rawFrame,slot.packet⟩)
    refine ⟨hlive,?_,by rw [hpart]; exact h.boundary,by rw [hthread]; exact h.numbered⟩
    intro m hm hssdv
    rw [called] at hm
    dsimp only at hm
    split at hm
    · rcases List.mem_append.mp hm with hm | hm
      · exact h.whole m hm hssdv
      · obtain ⟨slot,-,rfl⟩ := List.mem_map.mp hm
        exact absurd hssdv (contentType_rawFrame rfl)
    · exact h.whole m hm hssdv
  | take =>
    rw [step] at hs
    split at hs
    · obtain ⟨r,hr,rfl⟩ := Option.map_eq_some_iff.mp hs
      obtain ⟨m,part,tail',rest,ht⟩ := hh.takesFrom hr
      refine ⟨hlive,?_,ht.boundary h.boundary,?_⟩
      · rw [(recordTake_same s r).1]
        exact h.whole
      · rw [(recordTake_same s r).2.2.1]
        exact takeSection_numbered hr h.numbered
    · cases hs
  | finish replies =>
    obtain ⟨job,hjob,rfl⟩ := Option.map_eq_some_iff.mp hs
    exact ⟨hlive,h.whole,h.boundary,h.numbered⟩

/-! ### A chunk in the thread's hands -/

/-- A chunk that was framed and not sent has been refused three times. -/
theorem refused_of_unsent {job : TxJob} {replies : ℕ → ℤ} {packet : List Byte}
    (hframe : framePacket job = some packet) (hunsent : (transmit job replies).sent ≠ 0) :
    (transmit job replies).attempts = sendAttempts ∧ ∀ i < sendAttempts,replies i ≠ 0 := by
  have hfirst : (-1 : ℤ) ≠ 0 := by decide
  simp only [transmit,hframe,sendAttempts,sendLoop,if_pos hfirst] at hunsent ⊢
  by_cases h0 : replies 0 = 0
  · simp [h0] at hunsent
  by_cases h1 : replies 1 = 0
  · simp [h0,h1] at hunsent
  by_cases h2 : replies 2 = 0
  · simp [h0,h1,h2] at hunsent
  refine ⟨by simp [h0,h1],fun i hi => ?_⟩
  interval_cases i
  · exact h0
  · exact h1
  · exact h2

/-- The chunk that a section takes of an admitted message, other than compressed telemetry,
can be framed. -/
theorem RadioTx.TakesFrom.frames {s : RadioTx} {r : TakeResult} {m : Message}
    {part tail : List Byte} {rest : List Message} (h : s.TakesFrom r m part tail rest)
    (hs : s.Admits) (hcontent : m.contentType = .rawTelemetry ∨ m.contentType = .ssdv ∨
      m.contentType = .command) :
    r.job.framed = false ∧ ∃ packet,lgCcsdsProfileBuild m.contentType r.job.seq 1#32 none
      r.job.bytes radioMaxPacketSize = .ok packet := by
  have hraw : m.type ≠ rawFrame := by
    intro hraw
    rw [Message.contentType,hraw] at hcontent
    exact absurd hcontent (by decide)
  obtain ⟨hframed,hseq,-⟩ := h.unframed hraw
  have hpos := h.pos
  have hmax : radioMaxPayload = 214 := rfl
  have hlen : r.job.bytes.length = min tail.length radioMaxPayload := by
    rw [h.bytes,List.length_take,chunkLength,if_neg hraw]
    omega
  refine ⟨hframed,build_of_chunk ?_ hcontent (by omega) fun hssdv => ?_⟩
  · rw [hseq,List.getD_eq_getElem?_getD]
    cases hget : s.thread.sequence[m.type.toNat]? with
    | none => decide
    | some count => exact hs.numbered count (List.mem_of_getElem? hget)
  -- what is left of whole packets, after whole chunks, is whole packets
  · have hdvd := hs.whole m (by rw [h.accepted]; simp) hssdv
    rw [← h.payload,List.length_append] at hdvd
    have hpart : radioMaxPayload ∣ part.length := by
      rw [← h.before]
      split
      · simp
      · exact hs.boundary
    have htail : ssdvPacketSize ∣ tail.length := (Nat.dvd_add_right hpart).mp hdvd
    have hge := Nat.le_of_dvd hpos htail
    have : ssdvPacketSize = 214 := rfl
    omega

/-- Without a configuration, compressed telemetry is refused whatever the chunk is. -/
theorem build_compressed (sequenceCount : BitVec 16) (chunk packet : List Byte) :
    lgCcsdsProfileBuild .compressedTelemetry sequenceCount 1#32 none chunk radioMaxPacketSize ≠
      .ok packet := by
  intro h
  obtain ⟨-,-,-,hvalid,-⟩ := lgCcsdsProfileBuild_eq_ok_iff.mp h
  cases hvalid

/-! ### The messages of a run -/

theorem RadioTx.step_accepted {s s' : RadioTx} {a : TxAction} (hs : s.step a = some s') :
    s.accepted <+: s'.accepted := by
  have hcalled : ∀ result messages,s.accepted <+: (s.called result messages).accepted := by
    intro result messages
    rw [called]
    dsimp only
    split
    · exact List.prefix_append _ _
    · exact List.prefix_rfl
  cases a with
  | push content data sendPacket created =>
    obtain rfl := Option.some.inj hs
    exact hcalled _ _
  | resend apid sequenceCount =>
    obtain rfl := Option.some.inj hs
    exact hcalled _ _
  | take =>
    rw [step] at hs
    split at hs
    · obtain ⟨r,-,rfl⟩ := Option.map_eq_some_iff.mp hs
      rw [(recordTake_same s r).1]
    · cases hs
  | finish replies =>
    obtain ⟨job,-,rfl⟩ := Option.map_eq_some_iff.mp hs
    exact List.prefix_rfl

theorem RadioTx.run_accepted {s t : RadioTx} {more : List TxAction}
    (h : run RadioTx.step s more = some t) : s.accepted <+: t.accepted :=
  run_invariant (I := fun t : RadioTx => s.accepted <+: t.accepted)
    (fun _ _ _ hI hstep => hI.trans (step_accepted hstep)) List.prefix_rfl h

/-- A message that has not been taken out is waiting in the ring. -/
theorem RadioTx.count_ne_zero {s : RadioTx} (h : s.Live)
    (hwaiting : s.taken.length < s.accepted.length) : s.queue.count ≠ 0 := by
  obtain ⟨current,tail,pending,hh⟩ := h.intact
  intro hcount
  have hlen := hh.queue.contents_length
  rw [hh.contents,hcount,List.length_append,Nat.add_eq_zero_iff] at hlen
  have hcurrent : current = none := hh.idle.mpr (List.length_eq_zero_iff.mp hlen.1)
  have hpending : pending = [] := by
    cases pending with
    | nil => rfl
    | cons m rest => simp [Message.encode_length] at hlen
  rw [hh.accepted,hcurrent,hpending] at hwaiting
  simp at hwaiting

/-- The thread gets to every message that has been accepted and not taken out. -/
theorem RadioTx.exists_take {s : RadioTx} (h : s.Live) {k : ℕ} (hk : s.taken.length ≤ k)
    (hwaiting : k < s.accepted.length) :
    ∃ more t t',run RadioTx.step s more = some t ∧ t.taken.length = k ∧
      t.step .take = some t' := by
  induction hn : s.queue.count using Nat.strong_induction_on generalizing s with
  | _ n ih =>
    obtain ⟨early,t,-,hrun,ht,hjob,hcount,hacc,htaken⟩ := exists_idle h
    have hne : t.queue.count ≠ 0 := count_ne_zero ht (by rw [hacc,htaken]; omega)
    obtain ⟨r,hr,hstep,hless⟩ := take_progress ht hjob hne
    rcases Nat.eq_or_lt_of_le hk with hthere | hbefore
    · exact ⟨early,t,_,hrun,by rw [htaken]; exact hthere,hstep⟩
    -- not there yet: one more chunk, which ends at most one message
    have hnext : (t.recordTake r).taken.length ≤ k := by
      rw [recordTake]
      split
      · rw [List.length_append,List.length_singleton,htaken]
        omega
      · rw [htaken]
        omega
    obtain ⟨late,u,u',hlate,hu,hustep⟩ := ih _ (by omega) (step_live _ _ _ ht hstep) hnext
      (by rw [(recordTake_same t r).1,hacc]; exact hwaiting) rfl
    refine ⟨early ++ .take :: late,u,u',?_,hu,hustep⟩
    rw [run_append,hrun]
    exact run_cons_eq_some.mpr ⟨_,hstep,hlate⟩

/-- However the run goes on, each call of `lg_ccsds_profile_build` for a chunk of the message
with number `k` succeeds, so that the chunk is dropped only by a sender that fails three
times. -/
def RadioTx.Sendable (s : RadioTx) (k : ℕ) : Prop :=
  ∀ more t t' job,run RadioTx.step s more = some t → t.taken.length = k →
    t.step .take = some t' → t'.thread.job = some job →
    (∃ packet,lgCcsdsProfileBuild (.ofValue (job.content.setWidth 32)) job.seq 1#32 none job.bytes
      radioMaxPacketSize = .ok packet) ∧
    ∀ replies,(transmit job replies).sent ≠ 0 →
      (transmit job replies).attempts = sendAttempts ∧ ∀ i < sendAttempts,replies i ≠ 0

/-- The chunk a section takes belongs to the first message that has not been taken out. -/
theorem RadioTx.take_cases {s s' : RadioTx} {job : TxJob} (h : s.Live)
    (hs : s.step .take = some s') (hjob : s'.thread.job = some job) :
    ∃ r m part tail rest,r.job = job ∧ s.accepted[s.taken.length]? = some m ∧
      s.TakesFrom r m part tail rest := by
  obtain ⟨current,tail,pending,hh⟩ := h.intact
  rw [step] at hs
  split at hs
  · obtain ⟨r,hr,rfl⟩ := Option.map_eq_some_iff.mp hs
    obtain ⟨m,part,tail',rest,ht⟩ := hh.takesFrom hr
    rw [(recordTake_same s r).2.2.1,ht.job] at hjob
    exact ⟨r,m,part,tail',rest,Option.some.inj hjob,by rw [ht.accepted]; simp,ht⟩
  · cases hs

/-- In every state of the transmit side, a message that `radio_queue_push` accepts can be sent
if and only if it is not compressed telemetry. -/
theorem accepted_sendable_iff {actions : List TxAction} {s s' : RadioTx}
    {content : LgCcsdsContentType} {data : Option (List Byte)} {sendPacket : Option Sender}
    {created : Bool} (hrun : run RadioTx.step .initial actions = some s)
    (hpush : (radioQueuePush s.queue content data sendPacket created).1 = 0)
    (hs : s.step (.push content data sendPacket created) = some s') :
    s'.Sendable s.accepted.length ↔ content ≠ .compressedTelemetry := by
  have hadmits := run_invariant RadioTx.step_admits RadioTx.admits_initial hrun
  have hadmits' := RadioTx.step_admits _ _ _ hadmits hs
  obtain ⟨current,tail,pending,hh⟩ := hadmits.live.intact
  obtain ⟨hres,-⟩ | ⟨-,hbad,-⟩ := radioQueuePush_cases hh.queue content data sendPacket created
  · rw [hpush] at hres
    exact absurd hres (by decide)
  have haccepted : s'.accepted = s.accepted ++ [⟨content.value.setWidth 8,data.getD []⟩] := by
    obtain rfl := Option.some.inj hs
    rw [RadioTx.called,if_pos hpush]
  have htaken : s'.taken.length ≤ s.accepted.length := by
    obtain rfl := Option.some.inj hs
    rw [(RadioTx.called_thread ..).2.2,hh.accepted]
    simp
  -- the chunks in question are those of this message
  have hmessage : ∀ more t m,run RadioTx.step s' more = some t →
      t.accepted[s.accepted.length]? = some m → m.contentType = content := by
    intro more t m ht hm
    obtain ⟨later,hlater⟩ := RadioTx.run_accepted ht
    rw [← hlater,haccepted] at hm
    simp only [List.append_assoc,List.getElem?_append_right (Nat.le_refl _),Nat.sub_self] at hm
    obtain rfl := Option.some.inj hm
    exact contentType_of_push hbad
  constructor
  · rintro hsendable rfl
    obtain ⟨more,t,t',ht,hk,hstep⟩ := RadioTx.exists_take hadmits'.live htaken
      (by rw [haccepted]; simp)
    have hlive := (run_invariant RadioTx.step_admits hadmits' ht).live
    obtain ⟨job,hjob⟩ : ∃ job,t'.thread.job = some job := by
      rw [RadioTx.step] at hstep
      split at hstep
      · obtain ⟨r,hr,rfl⟩ := Option.map_eq_some_iff.mp hstep
        exact ⟨r.job,by rw [(RadioTx.recordTake_same t r).2.2.1,(takeSection_numbers hr).2.1]⟩
      · cases hstep
    obtain ⟨r,m,part,tail',rest,rfl,hm,hfrom⟩ := RadioTx.take_cases hlive hstep hjob
    rw [hk] at hm
    obtain ⟨⟨packet,hbuild⟩,-⟩ := hsendable more t t' r.job ht hk hstep hjob
    rw [hfrom.content,show LgCcsdsContentType.ofValue (m.type.setWidth 32) = .compressedTelemetry
      from hmessage more t m ht hm] at hbuild
    exact build_compressed _ _ _ hbuild
  · intro hplain more t t' job ht hk hstep hjob
    have hadmitsT := run_invariant RadioTx.step_admits hadmits' ht
    obtain ⟨r,m,part,tail',rest,rfl,hm,hfrom⟩ := RadioTx.take_cases hadmitsT.live hstep hjob
    rw [hk] at hm
    have hcontent := hmessage more t m ht hm
    obtain ⟨hframed,packet,hbuild⟩ := hfrom.frames hadmitsT
      (by rw [hcontent]; exact (plain_of_push hbad hplain).2 ▸ (plain_of_push hbad hplain).1.content)
    have htype : LgCcsdsContentType.ofValue (r.job.content.setWidth 32) = m.contentType := by
      rw [hfrom.content]
      rfl
    have hframe : framePacket r.job = some packet := by
      rw [framePacket,if_neg (by rw [hframed]; decide),htype,hbuild]
    exact ⟨⟨packet,by rw [htype]; exact hbuild⟩,fun replies hunsent =>
      refused_of_unsent hframe hunsent⟩

/-- A command of three bytes can be sent. -/
theorem command_sendable :
    ∃ s,RadioTx.initial.step (.push .command (some [1,2,3]) (some 1) true) = some s ∧
      s.Sendable 0 := by
  refine ⟨_,rfl,(@accepted_sendable_iff [] .initial _ _ _ _ _ rfl ?_ rfl).mpr
    LgCcsdsContentType.noConfusion⟩
  decide

/-- Three bytes of compressed telemetry are accepted, and the thread drops them without
having tried to send anything. -/
theorem compressed_never_sent :
    ∃ s t job,RadioTx.initial.step (.push .compressedTelemetry (some [1,2,3]) (some 1) true) =
        some s ∧
      (radioQueuePush .initial .compressedTelemetry (some [1,2,3]) (some 1) true).1 = 0 ∧
      s.step .take = some t ∧ t.thread.job = some job ∧ ¬ s.Sendable 0 ∧
      ∀ replies,(transmit job replies).sent = -1 ∧ (transmit job replies).attempts = 0 := by
  have hjob : ((RadioTx.initial.step (.push .compressedTelemetry (some [1,2,3]) (some 1) true)).bind
      fun s => (s.step .take).bind fun t => t.thread.job) =
        some ⟨false,1,0,[1,2,3],some 1⟩ := by decide
  obtain ⟨s,hs,hrest⟩ := Option.bind_eq_some_iff.mp hjob
  obtain ⟨t,ht,hjob⟩ := Option.bind_eq_some_iff.mp hrest
  refine ⟨s,t,_,hs,by decide,ht,hjob,fun hsendable => ?_,fun replies => ⟨rfl,rfl⟩⟩
  obtain rfl := Option.some.inj hs
  obtain ⟨⟨packet,hbuild⟩,-⟩ := hsendable [] _ t _ rfl rfl ht hjob
  exact build_compressed _ _ _ hbuild

end FlightSoftware.Radio
