import FlightSoftware.Lib.Recent
import FlightSoftware.Radio.RoundTrip

/-!
# Resending from the history

The thread keeps the packets it has sent for the first time in a circular array
of 600 slots, for the ground to ask for again. The reference is the list of all
first transmissions that were sent, in order: a resend finds the newest of the
last 600 with the wanted APID and sequence count. Resends travel through the
same ring, and leave the history and the counters alone.
-/

namespace FlightSoftware.Radio
open Ccsds BigEndian Run Recent

/-! ### First transmissions -/

/-- The packet that the action sends for the first time. -/
def RadioTx.firstSent (s : RadioTx) : TxAction → List (List Byte)
  | .finish replies =>
    match s.thread.job with
    | some job =>
      if job.framed = false ∧ (transmit job replies).sent = 0 then [(transmit job replies).packet]
      else []
    | none => []
  | _ => []

/-- The content type and sequence count of the chunk that the action, a section that ended in
this state, has taken out. -/
def RadioTx.dequeuedBy (s : RadioTx) : TxAction → List (Byte × BitVec 16)
  | .take => s.thread.job.toList.filterMap fun job =>
      if job.framed then none else some (job.content,job.seq)
  | _ => []

/-- The transmit side, with the first transmissions that were sent and the chunks that were
taken out for one, all in order. -/
structure RadioArq where
  tx : RadioTx
  sentFirst : List (List Byte)
  dequeued : List (Byte × BitVec 16)

def RadioArq.initial : RadioArq := ⟨.initial,[],[]⟩

def RadioArq.step (s : RadioArq) (a : TxAction) : Option RadioArq :=
  (s.tx.step a).map fun tx =>
    ⟨tx,s.sentFirst ++ s.tx.firstSent a,s.dequeued ++ tx.dequeuedBy a⟩

theorem RadioArq.step_eq_some {s s' : RadioArq} {a : TxAction} (h : s.step a = some s') :
    ∃ tx,s.tx.step a = some tx ∧
      s' = ⟨tx,s.sentFirst ++ s.tx.firstSent a,s.dequeued ++ tx.dequeuedBy a⟩ := by
  obtain ⟨tx,htx,rfl⟩ := Option.map_eq_some_iff.mp h
  exact ⟨tx,htx,rfl⟩

/-- A packet with this APID and sequence count. -/
def Carries (apid sequenceCount : BitVec 16) (packet : List Byte) : Prop :=
  (headerOf packet).apid = apid ∧ (headerOf packet).sequenceCount = sequenceCount

/-- The most recent first transmission with this APID and sequence count, if it is one of the
last 600. -/
def RadioArq.Resendable (s : RadioArq) (apid sequenceCount : BitVec 16) (packet : List Byte) :
    Prop :=
  ∃ older newer,s.sentFirst = older ++ packet :: newer ∧ newer.length < historySize ∧
    Carries apid sequenceCount packet ∧ ∀ p ∈ newer,¬ Carries apid sequenceCount p

/-! ### The slots -/

/-- The slot of a packet. -/
def slotOf (packet : List Byte) : SentPacket :=
  ⟨true,(headerOf packet).apid,(headerOf packet).sequenceCount,packet⟩

/-- The APID that the thread reads from the first two bytes is that of the header. -/
theorem apid_of_bytes (packet : List Byte) :
    ((byteAt packet 0 &&& 0x07#8).setWidth 16 <<< 8) ||| (byteAt packet 1).setWidth 16 =
      (headerOf packet).apid := by
  change _ = readU16Be packet &&& maxApid
  rw [readU16Be,maxApid]
  generalize byteAt packet 0 = a
  generalize byteAt packet 1 = b
  ext i hi
  interval_cases i <;> simp

/-- A packet is built with the sequence count of its job in the header. -/
theorem sequence_of_frame {job : TxJob} {packet : List Byte} (hframed : job.framed = false)
    (h : framePacket job = some packet) : (headerOf packet).sequenceCount = job.seq := by
  rw [framePacket,if_neg (by rw [hframed]; decide)] at h
  split at h
  · rename_i out hbuild
    obtain rfl := Option.some.inj h
    obtain ⟨hs,-,-,-,apid,type,hroute,rfl⟩ := lgCcsdsProfileBuild_eq_ok_iff.mp hbuild
    rw [headerOf_builtPacket hs hroute]
  · cases h

/-- The second section keeps what was sent for the first time, and nothing else. -/
theorem finishSection_keeps {q : RadioQueue} {sent : List (List Byte)} (job : TxJob)
    (replies : ℕ → ℤ) (hlen : q.history.length = historySize)
    (h : Keeps q.history q.historyNext .zero (sent.map slotOf)) :
    (finishSection q job (transmit job replies)).history.length = historySize ∧
    Keeps (finishSection q job (transmit job replies)).history
      (finishSection q job (transmit job replies)).historyNext .zero
      ((sent ++ if job.framed = false ∧ (transmit job replies).sent = 0 then
        [(transmit job replies).packet] else []).map slotOf) := by
  by_cases hfirst : job.framed = false ∧ (transmit job replies).sent = 0
  · obtain ⟨hframed,hsent⟩ := hfirst
    have hslot : (⟨true,((byteAt (transmit job replies).packet 0 &&& 0x07#8).setWidth 16 <<< 8) |||
        (byteAt (transmit job replies).packet 1).setWidth 16,job.seq,
        (transmit job replies).packet⟩ : SentPacket) = slotOf (transmit job replies).packet := by
      rw [apid_of_bytes,slotOf,sequence_of_frame hframed (transmit_packet hsent)]
    have hstored : (finishSection q job (transmit job replies)).history =
        q.history.set q.historyNext (slotOf (transmit job replies).packet) ∧
        (finishSection q job (transmit job replies)).historyNext =
          (q.historyNext + 1) % historySize := by
      rw [← hslot]
      unfold finishSection
      dsimp only
      rw [if_pos hsent,if_neg (by rw [hframed]; decide)]
      split <;> exact ⟨rfl,rfl⟩
    rw [hstored.1,hstored.2,if_pos ⟨hframed,hsent⟩,List.map_append,List.map_singleton,← hlen]
    exact ⟨by rw [List.length_set],h.put _⟩
  · have hsame : (finishSection q job (transmit job replies)).history = q.history ∧
        (finishSection q job (transmit job replies)).historyNext = q.historyNext := by
      unfold finishSection
      dsimp only
      by_cases hsent : (transmit job replies).sent = 0
      · have hframed : job.framed = true := by
          rw [← Bool.not_eq_false]
          exact fun hf => hfirst ⟨hf,hsent⟩
        rw [if_pos hsent,if_pos hframed]
        split <;> exact ⟨rfl,rfl⟩
      · rw [if_neg hsent]
        split <;> exact ⟨rfl,rfl⟩
    rw [hsame.1,hsame.2,if_neg hfirst,List.append_nil]
    exact ⟨hlen,h⟩

/-- A packet that was framed already is not kept again. -/
theorem finishSection_resent (q : RadioQueue) {job : TxJob} (h : job.framed = true)
    (outcome : TxOutcome) :
    (finishSection q job outcome).history = q.history ∧
      (finishSection q job outcome).historyNext = q.historyNext := by
  unfold finishSection
  dsimp only
  rw [if_pos h]
  split <;> split <;> exact ⟨rfl,rfl⟩

/-- The search of `radio_resend`, from the newest slot to the oldest. -/
theorem findSent_eq {q : RadioQueue} {sent : List (List Byte)}
    (hlen : q.history.length = historySize)
    (h : Keeps q.history q.historyNext .zero (sent.map slotOf)) (apid sequenceCount : BitVec 16) :
    findSent q apid sequenceCount =
      ((sent.map slotOf).reverse.take historySize).find? fun slot =>
        slot.used && slot.apid == apid && slot.sequence == sequenceCount := by
  have hsearch := h.search (p := fun slot =>
    slot.used && slot.apid == apid && slot.sequence == sequenceCount) rfl
  rw [hlen] at hsearch
  exact hsearch

/-- On a list and its last `n` entries: the newest match, if it is among them, is the one that
searching these backwards finds. -/
theorem find_reverse_take_iff {xs : List (List Byte)} {p : List Byte → Bool} {x : List Byte}
    (n : ℕ) :
    (xs.reverse.take n).find? p = some x ↔
      ∃ older newer,xs = older ++ x :: newer ∧ newer.length < n ∧ p x = true ∧
        ∀ y ∈ newer,p y = false := by
  rw [List.find?_eq_some_iff_append]
  constructor
  · rintro ⟨hx,before,behind,hsplit,hbefore⟩
    refine ⟨(behind ++ xs.reverse.drop n).reverse,before.reverse,?_,?_,hx,?_⟩
    · have hall := congrArg List.reverse (List.take_append_drop n xs.reverse)
      rw [hsplit,List.reverse_reverse] at hall
      refine hall.symm.trans ?_
      simp
    · have hlen := congrArg List.length hsplit
      simp only [List.length_take,List.length_append,List.length_cons] at hlen
      rw [List.length_reverse]
      omega
    · intro y hy
      simpa using hbefore y (List.mem_reverse.mp hy)
  · rintro ⟨older,newer,rfl,hlen,hx,hnewer⟩
    refine ⟨hx,newer.reverse,older.reverse.take (n - newer.length - 1),?_,?_⟩
    · rw [List.reverse_append,List.reverse_cons,List.append_assoc,List.take_append,
        List.take_of_length_le (by rw [List.length_reverse]; omega),List.length_reverse,
        List.singleton_append,show n - newer.length = n - newer.length - 1 + 1 by omega,
        List.take_succ_cons]
      rfl
    · intro y hy
      simpa using hnewer y (List.mem_reverse.mp hy)

/-! ### Every run -/

/-- The invariant: the slots keep the last first transmissions, and the counters have counted
the chunks taken out. -/
structure RadioArq.Inv (s : RadioArq) : Prop where
  live : s.tx.Live
  slots : s.tx.queue.history.length = historySize
  keeps : Keeps s.tx.queue.history s.tx.queue.historyNext .zero (s.sentFirst.map slotOf)
  numbered : ∀ before chunk after,s.dequeued = before ++ chunk :: after →
    chunk.2 = countOf (before.countP fun c => decide (c.1 = chunk.1))
  counters : ∀ content : Byte,content.toNat < contentTypes →
    s.tx.thread.sequence[content.toNat]? =
      some (countOf (s.dequeued.countP fun c => decide (c.1 = content)))

theorem RadioArq.inv_initial : RadioArq.initial.Inv := by
  refine ⟨RadioTx.live_initial,List.length_replicate,keeps_replicate (by decide) _,?_,?_⟩
  · intro before chunk after h
    exact absurd h (by simp [initial])
  · intro content hcontent
    exact List.getElem?_replicate_of_lt hcontent

/-- Calls leave the history alone. -/
theorem pushLocked_history (q : RadioQueue) (content : Byte) (data : List Byte) :
    (pushLocked q content data).2.history = q.history ∧
      (pushLocked q content data).2.historyNext = q.historyNext := by
  unfold pushLocked
  split
  · exact ⟨rfl,rfl⟩
  · dsimp only
    split <;> exact ⟨rfl,rfl⟩

theorem radioQueuePush_history (q : RadioQueue) (content : LgCcsdsContentType)
    (data : Option (List Byte)) (sendPacket : Option Sender) (created : Bool) :
    (radioQueuePush q content data sendPacket created).2.history = q.history ∧
      (radioQueuePush q content data sendPacket created).2.historyNext = q.historyNext := by
  have hstart : (startThread q sendPacket created).2.history = q.history ∧
      (startThread q sendPacket created).2.historyNext = q.historyNext := by
    unfold startThread
    split
    · exact ⟨rfl,rfl⟩
    · split <;> exact ⟨rfl,rfl⟩
  unfold radioQueuePush
  split
  · exact ⟨rfl,rfl⟩
  cases hs : startThread q sendPacket created with
  | mk started q1 =>
    rw [hs] at hstart
    cases started with
    | false => exact hstart
    | true =>
      have hpush := pushLocked_history q1 (content.value.setWidth 8) (data.getD [])
      rw [hstart.1,hstart.2] at hpush
      dsimp only
      split <;> exact hpush

theorem radioResend_history (q : RadioQueue) (apid sequenceCount : BitVec 16) :
    (radioResend q apid sequenceCount).2.history = q.history ∧
      (radioResend q apid sequenceCount).2.historyNext = q.historyNext := by
  unfold radioResend
  split
  · exact ⟨rfl,rfl⟩
  · split
    · exact pushLocked_history ..
    · exact ⟨rfl,rfl⟩

/-- A call keeps the invariant. -/
theorem RadioArq.Inv.called {s : RadioArq} (h : s.Inv) {result : ℤ × RadioQueue}
    {messages : List Message} (hlive : (s.tx.called result messages).Live)
    (hhistory : result.2.history = s.tx.queue.history ∧
      result.2.historyNext = s.tx.queue.historyNext) :
    RadioArq.Inv ⟨s.tx.called result messages,s.sentFirst ++ [],s.dequeued ++ []⟩ := by
  obtain ⟨hthread,-⟩ := RadioTx.called_thread s.tx result messages
  rw [List.append_nil,List.append_nil]
  refine ⟨hlive,?_,?_,h.numbered,?_⟩
  · rw [RadioTx.called_queue,hhistory.1]
    exact h.slots
  · rw [RadioTx.called_queue,hhistory.1,hhistory.2]
    exact h.keeps
  · rw [hthread]
    exact h.counters

/-- A chunk taken out gets the next count of its content type; a kept packet gets none. -/
theorem RadioArq.Inv.take {s : RadioArq} {r : TakeResult} (h : s.Inv)
    (hlive : (s.tx.recordTake r).Live)
    (hr : takeSection s.tx.queue s.tx.thread = some r) :
    RadioArq.Inv ⟨s.tx.recordTake r,s.sentFirst ++ [],
      s.dequeued ++ (s.tx.recordTake r).dequeuedBy .take⟩ := by
  obtain ⟨-,-,hthread,hqueue⟩ := RadioTx.recordTake_same s.tx r
  obtain ⟨hnumbers,hjob,hhistory,hnext⟩ := takeSection_numbers hr
  obtain ⟨current,tail,pending,hh⟩ := h.live.intact
  obtain ⟨m,part,tail',rest,ht⟩ := hh.takesFrom hr
  rw [List.append_nil]
  obtain ⟨hframed,hsequence⟩ | ⟨hframed,hraw,hseq,hsequence⟩ := hnumbers
  · have hnone : (s.tx.recordTake r).dequeuedBy .take = [] := by
      simp [RadioTx.dequeuedBy,hthread,hjob,hframed]
    rw [hnone,List.append_nil]
    refine ⟨hlive,by rw [hqueue,hhistory]; exact h.slots,by rw [hqueue,hhistory,hnext]; exact h.keeps,
      h.numbered,by rw [hthread,hsequence]; exact h.counters⟩
  · have hone : (s.tx.recordTake r).dequeuedBy .take = [(r.job.content,r.job.seq)] := by
      simp [RadioTx.dequeuedBy,hthread,hjob,hframed]
    have hknown : r.job.content.toNat < contentTypes := by
      rw [ht.content] at hraw ⊢
      exact (hh.sound m (by rw [ht.accepted]; simp)).type.resolve_right fun h => hraw h.1
    have hcount := h.counters r.job.content hknown
    rw [List.getD_eq_getElem?_getD,hcount,Option.getD_some] at hseq
    rw [hone]
    refine ⟨hlive,by rw [hqueue,hhistory]; exact h.slots,by rw [hqueue,hhistory,hnext]; exact h.keeps,
      ?_,?_⟩
    · intro before chunk after hsplit
      rcases List.eq_nil_or_concat after with rfl | ⟨after,last,rfl⟩
      · obtain ⟨rfl,hlast⟩ := List.append_inj' hsplit rfl
        obtain rfl := (List.cons.inj hlast).1
        exact hseq
      · rw [List.concat_eq_append,← List.cons_append,← List.append_assoc] at hsplit
        exact h.numbered before chunk after (List.append_inj' hsplit rfl).1
    -- one counter has moved by one, the others stand still
    · intro content hcontent
      rw [hthread,hsequence,hseq,List.countP_append,List.countP_singleton]
      by_cases heq : r.job.content = content
      · subst heq
        rw [List.getElem?_set_self (List.getElem?_eq_some_iff.mp hcount).1,countOf_succ]
        simp
      · rw [List.getElem?_set_ne fun hn => heq (BitVec.eq_of_toNat_eq hn),h.counters content hcontent]
        simp [heq]

theorem RadioArq.step_inv (s : RadioArq) (a : TxAction) (s' : RadioArq) (h : s.Inv)
    (hs : s.step a = some s') : s'.Inv := by
  obtain ⟨tx,htx,rfl⟩ := step_eq_some hs
  have hlive := RadioTx.step_live _ _ _ h.live htx
  cases a with
  | push content data sendPacket created =>
    obtain rfl := Option.some.inj htx
    exact h.called hlive (radioQueuePush_history ..)
  | resend apid sequenceCount =>
    obtain rfl := Option.some.inj htx
    exact h.called hlive (radioResend_history ..)
  | take =>
    rw [RadioTx.step] at htx
    split at htx
    · obtain ⟨r,hr,rfl⟩ := Option.map_eq_some_iff.mp htx
      exact h.take hlive hr
    · cases htx
  | finish replies =>
    obtain ⟨job,hjob,rfl⟩ := Option.map_eq_some_iff.mp htx
    obtain ⟨hslots,hkeeps⟩ := finishSection_keeps job replies h.slots h.keeps
    have hfirst : s.tx.firstSent (.finish replies) =
        if job.framed = false ∧ (transmit job replies).sent = 0 then
          [(transmit job replies).packet] else [] := by
      rw [RadioTx.firstSent,hjob]
    have hnone : (s.tx.sent job (transmit job replies)).dequeuedBy (.finish replies) = [] := rfl
    rw [hfirst,hnone,List.append_nil]
    exact ⟨hlive,hslots,hkeeps,h.numbered,h.counters⟩

/-- `radio_resend` in a state of a run: what it finds is the newest kept packet. -/
theorem RadioArq.Inv.findSent {s : RadioArq} (h : s.Inv) (apid sequenceCount : BitVec 16)
    {slot : SentPacket} :
    Radio.findSent s.tx.queue apid sequenceCount = some slot ↔
      ∃ packet,slot = slotOf packet ∧ s.Resendable apid sequenceCount packet := by
  rw [findSent_eq h.slots h.keeps,← List.map_reverse,← List.map_take,List.find?_map,
    Option.map_eq_some_iff]
  have hmatch : ∀ packet,((fun slot : SentPacket =>
      slot.used && slot.apid == apid && slot.sequence == sequenceCount) ∘ slotOf) packet = true ↔
        Carries apid sequenceCount packet := by
    intro packet
    simp [slotOf,Carries]
  constructor
  · rintro ⟨packet,hfind,rfl⟩
    obtain ⟨older,newer,hsent,hlen,hmatches,hnewer⟩ := (find_reverse_take_iff _).mp hfind
    refine ⟨packet,rfl,older,newer,hsent,hlen,(hmatch packet).mp hmatches,fun p hp hcarries => ?_⟩
    have hnot := hnewer p hp
    rw [(hmatch p).mpr hcarries] at hnot
    cases hnot
  · rintro ⟨packet,rfl,older,newer,hsent,hlen,hcarries,hnewer⟩
    refine ⟨packet,(find_reverse_take_iff _).mpr ⟨older,newer,hsent,hlen,
      (hmatch packet).mpr hcarries,fun p hp => ?_⟩,rfl⟩
    rw [← Bool.not_eq_true,hmatch]
    exact hnewer p hp

theorem radioResend_of_findSent {q : RadioQueue} {apid sequenceCount : BitVec 16}
    {slot : SentPacket} (hfind : findSent q apid sequenceCount = some slot)
    (hstarted : q.threadStarted = true) :
    radioResend q apid sequenceCount = pushLocked q rawFrame slot.packet := by
  unfold radioResend
  rw [hfind]
  exact if_pos hstarted

/-- There is room for a message exactly when it fits with its header. -/
theorem pushLocked_result {q : RadioQueue} (h : q.WellFormed) (content : Byte) {data : List Byte}
    (hlen : data.length < 2^32) :
    (q.count + data.length + messageHeader ≤ radioQueueSize → (pushLocked q content data).1 = 0) ∧
      (radioQueueSize < q.count + data.length + messageHeader →
        pushLocked q content data = (-1,q)) := by
  have hc := h.count
  have hsize : radioQueueSize = 131072 := rfl
  have hheader : messageHeader = 5 := rfl
  unfold pushLocked
  rw [sizeAdd_eq (by omega),sizeSub_eq hc (by omega)]
  constructor
  · intro hroom
    rw [if_neg (by omega)]
  · intro hfull
    rw [if_pos (by omega)]

/-- A kept packet for which there is room is enqueued byte for byte. -/
theorem RadioArq.Inv.resend_enqueues {s : RadioArq} (h : s.Inv)
    (hstarted : s.tx.queue.threadStarted = true) {apid sequenceCount : BitVec 16}
    {packet : List Byte} (hpacket : s.Resendable apid sequenceCount packet)
    (hroom : s.tx.queue.count + packet.length + messageHeader ≤ radioQueueSize) :
    (radioResend s.tx.queue apid sequenceCount).1 = 0 ∧
      ∃ s',s.step (.resend apid sequenceCount) = some s' ∧
        s'.tx.queue.contents = s.tx.queue.contents ++ (⟨rawFrame,packet⟩ : Message).encode ∧
        s'.tx.accepted = s.tx.accepted ++ [⟨rawFrame,packet⟩] ∧
        s'.tx.queue.history = s.tx.queue.history ∧ s'.tx.thread = s.tx.thread := by
  obtain ⟨current,tail,pending,hh⟩ := h.live.intact
  have hfind := (h.findSent apid sequenceCount).mpr ⟨packet,rfl,hpacket⟩
  have hresult : (radioResend s.tx.queue apid sequenceCount).1 = 0 := by
    rw [radioResend_of_findSent hfind hstarted]
    change (pushLocked s.tx.queue rawFrame packet).1 = 0
    refine (pushLocked_result hh.queue rawFrame ?_).1 hroom
    have hsize : radioQueueSize = 131072 := rfl
    omega
  obtain ⟨hres,-⟩ | ⟨slot,hslot,-,-,-,hcontents,-⟩ :=
    radioResend_cases hh.queue hh.history apid sequenceCount
  · rw [hresult] at hres
    exact absurd hres (by decide)
  rw [hfind] at hslot
  obtain rfl := Option.some.inj hslot
  obtain ⟨tx,htx⟩ : ∃ tx,tx = s.tx.called (radioResend s.tx.queue apid sequenceCount)
    ((Radio.findSent s.tx.queue apid sequenceCount).toList.map fun slot =>
      ⟨rawFrame,slot.packet⟩) := ⟨_,rfl⟩
  have hstep : s.step (.resend apid sequenceCount) =
      some ⟨tx,s.sentFirst ++ [],s.dequeued ++ []⟩ := by
    rw [htx]
    rfl
  have haccepted : tx.accepted = s.tx.accepted ++ [⟨rawFrame,packet⟩] := by
    rw [htx,RadioTx.called,if_pos hresult,hfind]
    rfl
  refine ⟨hresult,_,hstep,?_,haccepted,?_,?_⟩
  · rw [htx,RadioTx.called_queue]
    exact hcontents
  · rw [htx,RadioTx.called_queue]
    exact (radioResend_history ..).1
  · rw [htx]
    exact (RadioTx.called_thread ..).1

/-- Without a kept packet that fits, `radio_resend` returns -1 and changes nothing. -/
theorem RadioArq.Inv.resend_refused {s : RadioArq} (h : s.Inv)
    (hstarted : s.tx.queue.threadStarted = true) {apid sequenceCount : BitVec 16}
    (hfull : ∀ packet,s.Resendable apid sequenceCount packet →
      radioQueueSize < s.tx.queue.count + packet.length + messageHeader) :
    radioResend s.tx.queue apid sequenceCount = (-1,s.tx.queue) := by
  obtain ⟨current,tail,pending,hh⟩ := h.live.intact
  unfold radioResend
  split
  · rfl
  · rename_i slot hfind
    obtain ⟨packet,rfl,hpacket⟩ := (h.findSent apid sequenceCount).mp hfind
    obtain ⟨hmem,hused⟩ := mem_history_of_findSent hfind
    rw [if_pos hstarted]
    exact (pushLocked_result hh.queue rawFrame
      (lt_of_le_of_lt (hh.history _ hmem hused).2 (by decide))).2 (hfull packet hpacket)

/-- A kept packet taken out takes no count. -/
theorem RadioArq.take_framed {s s' : RadioArq} (hstep : s.step .take = some s') {job : TxJob}
    (hjob : job ∈ s'.tx.thread.job) (hframed : job.framed = true) :
    s'.tx.thread.sequence = s.tx.thread.sequence ∧ s'.dequeued = s.dequeued := by
  obtain ⟨tx,htx,rfl⟩ := RadioArq.step_eq_some hstep
  rw [RadioTx.step] at htx
  split at htx
  · obtain ⟨r,hr,rfl⟩ := Option.map_eq_some_iff.mp htx
    obtain ⟨hnumbers,hjob',-⟩ := takeSection_numbers hr
    have hthread := (RadioTx.recordTake_same s.tx r).2.2.1
    have heq : r.job = job := by
      have hboth := Option.mem_def.mp hjob
      rw [hthread,hjob'] at hboth
      exact Option.some.inj hboth
    subst heq
    obtain ⟨-,hsequence⟩ | ⟨hnot,-⟩ := hnumbers
    · exact ⟨by rw [hthread,hsequence],by simp [RadioTx.dequeuedBy,hthread,hjob',hframed]⟩
    · rw [hframed] at hnot
      cases hnot
  · cases htx

/-- A kept packet that has been sent adds nothing to the history. -/
theorem RadioArq.finish_framed {s s' : RadioArq} {replies : ℕ → ℤ}
    (hstep : s.step (.finish replies) = some s') {job : TxJob}
    (hjob : job ∈ s.tx.thread.job) (hframed : job.framed = true) :
    s'.tx.thread.sequence = s.tx.thread.sequence ∧
      s'.tx.queue.history = s.tx.queue.history ∧
      s'.tx.queue.historyNext = s.tx.queue.historyNext ∧ s'.sentFirst = s.sentFirst := by
  obtain ⟨tx,htx,rfl⟩ := RadioArq.step_eq_some hstep
  obtain ⟨job',hjob',rfl⟩ := Option.map_eq_some_iff.mp htx
  obtain rfl := Option.some.inj (hjob'.symm.trans hjob)
  refine ⟨rfl,?_,?_,by simp [RadioTx.firstSent,hjob',hframed]⟩
  · exact (finishSection_resent s.tx.queue hframed _).1
  · exact (finishSection_resent s.tx.queue hframed _).2

/-- Once the thread runs, in every state of the transmit side: if the most recent first
transmission with an APID and sequence count is one of the last 600 and there is room for it,
a resend enqueues it byte for byte; otherwise it returns -1 and changes nothing. A kept packet
that is taken out and sent adds nothing to the history and takes no count, so that the counts
of the chunks of one content type are consecutive modulo `2^14`. -/
theorem resend_history {actions : List TxAction} {s : RadioArq}
    (hrun : run RadioArq.step .initial actions = some s)
    (hstarted : s.tx.queue.threadStarted = true) (apid sequenceCount : BitVec 16) :
    (∀ packet,s.Resendable apid sequenceCount packet →
      s.tx.queue.count + packet.length + messageHeader ≤ radioQueueSize →
      (radioResend s.tx.queue apid sequenceCount).1 = 0 ∧
      ∃ s',s.step (.resend apid sequenceCount) = some s' ∧
        s'.tx.queue.contents = s.tx.queue.contents ++ (⟨rawFrame,packet⟩ : Message).encode ∧
        s'.tx.accepted = s.tx.accepted ++ [⟨rawFrame,packet⟩] ∧
        s'.tx.queue.history = s.tx.queue.history ∧ s'.tx.thread = s.tx.thread) ∧
    ((∀ packet,s.Resendable apid sequenceCount packet →
        radioQueueSize < s.tx.queue.count + packet.length + messageHeader) →
      radioResend s.tx.queue apid sequenceCount = (-1,s.tx.queue)) ∧
    (∀ s',s.step .take = some s' → ∀ job ∈ s'.tx.thread.job,job.framed = true →
      s'.tx.thread.sequence = s.tx.thread.sequence ∧ s'.dequeued = s.dequeued) ∧
    (∀ replies s',s.step (.finish replies) = some s' → ∀ job ∈ s.tx.thread.job,
      job.framed = true → s'.tx.thread.sequence = s.tx.thread.sequence ∧
        s'.tx.queue.history = s.tx.queue.history ∧
        s'.tx.queue.historyNext = s.tx.queue.historyNext ∧ s'.sentFirst = s.sentFirst) ∧
    (∀ before chunk after,s.dequeued = before ++ chunk :: after →
      chunk.2 = BitVec.ofNat 16 (before.countP (fun c => decide (c.1 = chunk.1)) % 2^14)) := by
  have h := run_invariant RadioArq.step_inv RadioArq.inv_initial hrun
  refine ⟨?_,h.resend_refused hstarted,?_,?_,h.numbered⟩
  · intro packet hpacket hroom
    exact h.resend_enqueues hstarted hpacket hroom
  · intro s' hs' job hjob hframed
    exact RadioArq.take_framed hs' hjob hframed
  · intro replies s' hs' job hjob hframed
    exact RadioArq.finish_framed hs' hjob hframed

/-- A command is sent, and found again for a resend. -/
theorem command_resent :
    ∃ s packet,run RadioArq.step .initial
        [.push .command (some [1,2,3]) (some 1) true,.take,.finish fun _ => 0] = some s ∧
      s.sentFirst = [packet] ∧ (radioResend s.tx.queue 0x100#16 0#16).1 = 0 := by
  have hsent : (run RadioArq.step .initial
      [.push .command (some [1,2,3]) (some 1) true,.take,.finish fun _ => 0]).map
        (fun s => (s.sentFirst.map fun p =>
          (p.length,(headerOf p).apid,(headerOf p).sequenceCount),
          s.tx.queue.threadStarted,s.tx.queue.count)) =
        some ([(29,0x100#16,0#16)],true,0) := by decide +kernel
  obtain ⟨s,hs,hall⟩ := Option.map_eq_some_iff.mp hsent
  simp only [Prod.mk.injEq] at hall
  obtain ⟨hmap,hstarted,hcount⟩ := hall
  obtain ⟨packet,hpacket,hheader⟩ := List.map_eq_singleton_iff.mp hmap
  simp only [Prod.mk.injEq] at hheader
  obtain ⟨hlen,hapid,hsequence⟩ := hheader
  refine ⟨s,packet,hs,hpacket,((resend_history hs hstarted 0x100#16 0#16).1 packet
    ⟨[],[],hpacket,by decide,⟨hapid,hsequence⟩,by simp⟩ ?_).1⟩
  rw [hlen,hcount]
  decide

end FlightSoftware.Radio
