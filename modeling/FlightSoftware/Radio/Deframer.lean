import FlightSoftware.Lib.StreamScan
import FlightSoftware.Ccsds.ProfileCodec
import FlightSoftware.Radio.Interface

/-!
# The receive state machine

`radio_deframer.c`: bytes from the radio go in one at a time, whole packets come
out. The buffer is the list of its `len` bytes. `receive_equals_reference_scan`
says that the packets found are those of one scan over the whole stream.
-/

namespace FlightSoftware.Radio
open Ccsds BigEndian StreamScan

def firstByteMask : Byte := 0xE8#8
def firstByteOk : Byte := 0x08#8

/-- `radio_deframer_t`: never more bytes than the array holds. -/
structure RadioDeframer where
  buf : List Byte
  fits : buf.length ≤ radioMaxPacketSize

def radioDeframerReset : RadioDeframer := ⟨[],by decide⟩

def radioDeframerBuffered (d : RadioDeframer) : ℕ := d.buf.length

/-- Add one received byte. A full buffer first gives up its oldest byte. -/
def radioDeframerPush (d : RadioDeframer) (byte : Byte) : RadioDeframer × List RxCall :=
  if h : d.buf.length = radioMaxPacketSize then
    (⟨d.buf.drop 1 ++ [byte],by
      have : 0 < radioMaxPacketSize := by decide
      rw [List.length_append,List.length_drop,List.length_singleton]
      omega⟩,[.skipped 1])
  else
    (⟨d.buf ++ [byte],by
      have := d.fits
      rw [List.length_append,List.length_singleton]
      omega⟩,[])

/-- The result of `radio_deframer_next`: the packet copied out, if one is
returned, the bytes left in the buffer and the counting calls made. -/
structure NextResult where
  packet : Option (List Byte)
  buf : List Byte
  calls : List RxCall
  deriving DecidableEq,Repr

/-- Drop the first byte, count it and look again. -/
def NextResult.afterSkip (r : NextResult) : NextResult :=
  { r with calls := .skipped 1 :: r.calls }

/-- The loop of `radio_deframer_next` on the buffered bytes. -/
def nextLoop : List Byte → NextResult
  | [] => ⟨none,[],[]⟩
  | b :: rest =>
    let buf := b :: rest
    if b &&& firstByteMask ≠ firstByteOk then (nextLoop rest).afterSkip
    else if buf.length < primaryHeaderSize then ⟨none,buf,[]⟩
    else
      -- ccsds length field = data bytes - 1
      let total := primaryHeaderSize + (readU16Be (buf.drop 4)).toNat + 1
      if total < radioFrameOverhead ∨ total > radioMaxPacketSize then (nextLoop rest).afterSkip
      else if buf.length < total then ⟨none,buf,[]⟩
      else match lgCcsdsProfileParse (buf.take total) with
        | .ok _ => ⟨some (buf.take total),buf.drop total,[.packet]⟩
        | .error _ =>
          { (nextLoop rest).afterSkip with
            calls := .invalid :: (nextLoop rest).afterSkip.calls }

/-! ### The loop as a judge -/

/-- What the loop does with the bytes at the front of the buffer. -/
def verdict (buf : List Byte) : Verdict :=
  if buf = [] then .wait
  else if byteAt buf 0 &&& firstByteMask ≠ firstByteOk then .skip
  else if buf.length < 6 then .wait
  else
    let total := (readU16Be (buf.drop 4)).toNat + 7
    if total < 26 ∨ 240 < total then .skip
    else if buf.length < total then .wait
    else if (lgCcsdsProfileParse (buf.take total)).isOk then .take total else .skip

theorem verdict_stable (s t : List Byte) (h : verdict s ≠ .wait) : verdict (s ++ t) = verdict s := by
  unfold verdict at h ⊢
  by_cases hs : s = []
  · rw [if_pos hs] at h
    exact absurd rfl h
  have hpos := List.length_pos_iff.mpr hs
  have hs' : s ++ t ≠ [] := by simp [hs]
  rw [if_neg hs] at h ⊢
  rw [if_neg hs',byteAt_append_left s t 0 hpos]
  by_cases hb : byteAt s 0 &&& firstByteMask ≠ firstByteOk
  · rw [if_pos hb,if_pos hb]
  rw [if_neg hb] at h ⊢
  rw [if_neg hb]
  by_cases h6 : s.length < 6
  · rw [if_pos h6] at h
    exact absurd rfl h
  have h6' : ¬ (s ++ t).length < 6 := by rw [List.length_append]; omega
  have hw : readU16Be ((s ++ t).drop 4) = readU16Be (s.drop 4) := by
    apply readU16Be_congr
    · rw [byteAt_drop,byteAt_drop,byteAt_append_left _ _ _ (by omega)]
    · rw [byteAt_drop,byteAt_drop,byteAt_append_left _ _ _ (by omega)]
  rw [if_neg h6] at h ⊢
  rw [if_neg h6',hw]
  dsimp only at h ⊢
  generalize (readU16Be (s.drop 4)).toNat + 7 = total at h ⊢
  by_cases hr : total < 26 ∨ 240 < total
  · rw [if_pos hr,if_pos hr]
  rw [if_neg hr] at h ⊢
  rw [if_neg hr]
  by_cases hl : s.length < total
  · rw [if_pos hl] at h
    exact absurd rfl h
  have hl' : ¬ (s ++ t).length < total := by rw [List.length_append]; omega
  rw [if_neg hl,if_neg hl',List.take_append_of_le_length (by omega)]

theorem verdict_bounded (s : List Byte) (n : ℕ) (h : verdict s = .take n) :
    26 ≤ n ∧ n ≤ 240 ∧ n ≤ s.length := by
  unfold verdict at h
  dsimp only at h
  generalize (readU16Be (s.drop 4)).toNat + 7 = total at h
  split at h
  · cases h
  split at h
  · cases h
  split at h
  · cases h
  split at h
  · cases h
  split at h
  · cases h
  split at h
  · obtain rfl := Verdict.take.inj h
    omega
  · cases h

/-- The decisions of `radio_deframer_next` as a judge of byte streams. -/
def radioJudge : Judge Byte where
  verdict := verdict
  nil := rfl
  stable := verdict_stable
  bounded s n h := ⟨by have := verdict_bounded s n h; omega,(verdict_bounded s n h).2.2⟩

/-- A buffer that has to wait is not full. -/
theorem length_of_wait {s : List Byte} (h : verdict s = .wait) : s.length < radioMaxPacketSize := by
  unfold verdict at h
  dsimp only at h
  generalize (readU16Be (s.drop 4)).toNat + 7 = total at h
  split at h
  · rename_i hs
    rw [hs]
    decide
  split at h
  · cases h
  split at h
  · simp only [radioMaxPacketSize]
    omega
  split at h
  · cases h
  split at h
  · simp only [radioMaxPacketSize]
    omega
  split at h <;> cases h

theorem nextLoop_cons (b : Byte) (rest : List Byte) :
    (verdict (b :: rest) = .wait ∧ nextLoop (b :: rest) = ⟨none,b :: rest,[]⟩) ∨
    (∃ n,verdict (b :: rest) = .take n ∧
      nextLoop (b :: rest) = ⟨some ((b :: rest).take n),(b :: rest).drop n,[.packet]⟩) ∨
    (verdict (b :: rest) = .skip ∧ ∃ calls,skippedBytes calls = 1 ∧
      nextLoop (b :: rest) =
        ⟨(nextLoop rest).packet,(nextLoop rest).buf,calls ++ (nextLoop rest).calls⟩) := by
  rw [nextLoop,verdict,if_neg (List.cons_ne_nil _ _),byteAt_cons_zero]
  have htotal : primaryHeaderSize + (readU16Be ((b :: rest).drop 4)).toNat + 1 =
      (readU16Be ((b :: rest).drop 4)).toNat + 7 := by
    simp only [primaryHeaderSize]
    omega
  -- the loop and the verdict test the same conditions in the same order
  simp only [htotal,radioFrameOverhead,radioMaxPacketSize,gt_iff_lt]
  generalize (readU16Be ((b :: rest).drop 4)).toNat + 7 = total
  by_cases hb : b &&& firstByteMask ≠ firstByteOk
  · exact .inr (.inr ⟨by rw [if_pos hb],[.skipped 1],rfl,by rw [if_pos hb]; rfl⟩)
  rw [if_neg hb,if_neg hb]
  by_cases h6 : (b :: rest).length < 6
  · exact .inl ⟨by rw [if_pos h6],if_pos h6⟩
  rw [if_neg h6,if_neg (show ¬ (b :: rest).length < primaryHeaderSize from h6)]
  by_cases hr : total < 26 ∨ 240 < total
  · exact .inr (.inr ⟨by rw [if_pos hr],[.skipped 1],rfl,by rw [if_pos hr]; rfl⟩)
  rw [if_neg hr,if_neg hr]
  by_cases hl : (b :: rest).length < total
  · exact .inl ⟨by rw [if_pos hl],if_pos hl⟩
  rw [if_neg hl,if_neg hl]
  cases hp : lgCcsdsProfileParse ((b :: rest).take total) with
  | ok view => exact .inr (.inl ⟨total,rfl,rfl⟩)
  | error e => exact .inr (.inr ⟨rfl,[.invalid,.skipped 1],rfl,rfl⟩)

/-- The loop finds what the incremental scan finds and counts what it skips. -/
theorem nextLoop_eq_next (buf : List Byte) :
    (nextLoop buf).packet = (next radioJudge buf).block ∧
      (nextLoop buf).buf = (next radioJudge buf).rest ∧
      skippedBytes (nextLoop buf).calls = (next radioJudge buf).skipped := by
  induction buf with
  | nil => exact ⟨rfl,rfl,rfl⟩
  | cons b rest ih =>
    obtain ⟨hp,hb,hc⟩ := ih
    obtain ⟨hv,hn⟩ | ⟨n,hv,hn⟩ | ⟨hv,calls,hcalls,hn⟩ := nextLoop_cons b rest
    · have hj : radioJudge.verdict (b :: rest) = .wait := hv
      rw [hn,next,hj]
      exact ⟨rfl,rfl,rfl⟩
    · have hj : radioJudge.verdict (b :: rest) = .take n := hv
      rw [hn,next,hj]
      exact ⟨rfl,rfl,rfl⟩
    · have hj : radioJudge.verdict (b :: rest) = .skip := hv
      rw [hn,next,hj]
      refine ⟨hp,hb,?_⟩
      rw [skippedBytes_append,hcalls,hc]
      exact Nat.add_comm _ _

theorem nextLoop_length (buf : List Byte) :
    ((nextLoop buf).packet.getD []).length + skippedBytes (nextLoop buf).calls +
      (nextLoop buf).buf.length = buf.length := by
  obtain ⟨hp,hb,hc⟩ := nextLoop_eq_next buf
  rw [hp,hb,hc]
  exact next_length radioJudge buf

/-- `radio_deframer_next`: the packet returned, the deframer and the counting calls. -/
def radioDeframerNext (d : RadioDeframer) : Option (List Byte) × RadioDeframer × List RxCall :=
  ((nextLoop d.buf).packet,
    ⟨(nextLoop d.buf).buf,by
      have := nextLoop_length d.buf
      have := d.fits
      omega⟩,
    (nextLoop d.buf).calls)

/-! ### Receiving a stream -/

/-- A receiver: its deframer, the packets handed out and the counting calls made. -/
structure Receiver where
  deframer : RadioDeframer
  packets : List (List Byte)
  calls : List RxCall

def Receiver.reset : Receiver := ⟨radioDeframerReset,[],[]⟩

def Receiver.push (r : Receiver) (byte : Byte) : Receiver :=
  ⟨(radioDeframerPush r.deframer byte).1,r.packets,
    r.calls ++ (radioDeframerPush r.deframer byte).2⟩

def Receiver.next (r : Receiver) : Receiver :=
  ⟨(radioDeframerNext r.deframer).2.1,r.packets ++ (radioDeframerNext r.deframer).1.toList,
    r.calls ++ (radioDeframerNext r.deframer).2.2⟩

/-- One byte is pushed and followed by one `radio_deframer_next`. -/
def Receiver.feedByte (r : Receiver) (byte : Byte) : Receiver := (r.push byte).next

def Receiver.feed (r : Receiver) (s : List Byte) : Receiver := s.foldl Receiver.feedByte r

/-- Call `radio_deframer_next` until it returns 0. -/
def Receiver.drain (r : Receiver) : Receiver :=
  match _h : (radioDeframerNext r.deframer).1 with
  | none => r.next
  | some _ => r.next.drain
termination_by r.deframer.buf.length
decreasing_by
  have hn := nextLoop_eq_next r.deframer.buf
  have hpos := next_some radioJudge (hn.1.symm.trans _h)
  have hlen := nextLoop_length r.deframer.buf
  have hp : (nextLoop r.deframer.buf).packet = some _ := _h
  rw [hp,Option.getD_some] at hlen
  change (nextLoop r.deframer.buf).buf.length < _
  omega

/-- The scan of the whole stream, from position `p`. -/
def referenceScan (s : List Byte) (p : ℕ) : List (List Byte) :=
  if s.length ≤ p then []
  else if byteAt s p &&& 0xE8#8 ≠ 0x08#8 then referenceScan s (p+1)
  else if s.length - p < 6 then []
  else
    let total := 7 + (readU16Be (s.drop (p+4))).toNat
    if total < 26 ∨ 240 < total then referenceScan s (p+1)
    else if s.length - p < total then []
    else if (lgCcsdsProfileParse ((s.drop p).take total)).isOk then
      (s.drop p).take total :: referenceScan s (p+total)
    else referenceScan s (p+1)
termination_by s.length - p

/-- The scan and the judge ask the same questions in the same order. -/
theorem verdict_drop (s : List Byte) (p : ℕ) (hp : p < s.length) :
    radioJudge.verdict (s.drop p) =
      if byteAt s p &&& 0xE8#8 ≠ 0x08#8 then .skip
      else if s.length - p < 6 then .wait
      else if 7 + (readU16Be (s.drop (p+4))).toNat < 26 ∨
          240 < 7 + (readU16Be (s.drop (p+4))).toNat then .skip
      else if s.length - p < 7 + (readU16Be (s.drop (p+4))).toNat then .wait
      else if (lgCcsdsProfileParse
          ((s.drop p).take (7 + (readU16Be (s.drop (p+4))).toNat))).isOk then
        .take (7 + (readU16Be (s.drop (p+4))).toNat) else .skip := by
  have hne : s.drop p ≠ [] := by
    rw [Ne,List.drop_eq_nil_iff]
    omega
  change verdict (s.drop p) = _
  rw [verdict,if_neg hne,byteAt_drop,List.length_drop,List.drop_drop,Nat.add_comm 7]
  rfl

theorem referenceScan_eq_scan (s : List Byte) (p : ℕ) :
    referenceScan s p = scan radioJudge (s.drop p) := by
  have hskip : ∀ p,radioJudge.verdict (s.drop p) = .skip →
      scan radioJudge (s.drop p) = scan radioJudge (s.drop (p+1)) := by
    intro p hv
    rw [scan_skip _ hv,List.tail_drop]
  -- one case for each branch of the scan, against the verdict at the same position
  induction p using referenceScan.induct s with
  | case1 p hp =>
    rw [referenceScan,if_pos hp,List.drop_eq_nil_of_le hp,scan_wait _ radioJudge.nil]
  | case2 p hp hb ih =>
    have hv := verdict_drop s p (by omega)
    rw [if_pos hb] at hv
    rw [referenceScan,if_neg hp,if_pos hb,hskip p hv]
    exact ih
  | case3 p hp hb h6 =>
    have hv := verdict_drop s p (by omega)
    rw [if_neg hb,if_pos h6] at hv
    rw [referenceScan,if_neg hp,if_neg hb,if_pos h6,scan_wait _ hv]
  | case4 p hp hb h6 total hr ih =>
    have hv := verdict_drop s p (by omega)
    rw [if_neg hb,if_neg h6,if_pos hr] at hv
    rw [referenceScan,if_neg hp,if_neg hb,if_neg h6,if_pos hr,hskip p hv]
    exact ih
  | case5 p hp hb h6 total hr hl =>
    have hv := verdict_drop s p (by omega)
    rw [if_neg hb,if_neg h6,if_neg hr,if_pos hl] at hv
    rw [referenceScan,if_neg hp,if_neg hb,if_neg h6,if_neg hr,if_pos hl,scan_wait _ hv]
  | case6 p hp hb h6 total hr hl hok ih =>
    have hv := verdict_drop s p (by omega)
    rw [if_neg hb,if_neg h6,if_neg hr,if_neg hl,if_pos hok] at hv
    rw [referenceScan,if_neg hp,if_neg hb,if_neg h6,if_neg hr,if_neg hl,if_pos hok,
      scan_take _ hv,List.drop_drop]
    rw [ih]
  | case7 p hp hb h6 total hr hl hok ih =>
    have hv := verdict_drop s p (by omega)
    rw [if_neg hb,if_neg h6,if_neg hr,if_neg hl,if_neg hok] at hv
    rw [referenceScan,if_neg hp,if_neg hb,if_neg h6,if_neg hr,if_neg hl,if_neg hok,
      hskip p hv]
    exact ih

/-- Bytes of the packets handed out. -/
def Receiver.emitted (r : Receiver) : ℕ := (r.packets.map List.length).sum

/-- Every one of `n` bytes has been emitted, counted as skipped, or is still buffered,
and the counter of skipped bytes has moved by the number skipped. -/
def Receiver.Accounts (r : Receiver) (n : ℕ) : Prop :=
  r.emitted + skippedBytes r.calls + radioDeframerBuffered r.deframer = n ∧
    ∀ stats : RadioStats,(r.calls.foldl RxCall.apply stats).rxBytesSkipped =
      stats.rxBytesSkipped + BitVec.ofNat 32 (skippedBytes r.calls)

theorem Receiver.accounts_iff (r : Receiver) (n : ℕ) :
    r.Accounts n ↔ r.emitted + skippedBytes r.calls + r.deframer.buf.length = n :=
  ⟨fun h => h.1,fun h => ⟨h,fun stats => rxBytesSkipped_foldl r.calls stats⟩⟩

theorem Receiver.accounts_push {r : Receiver} {n : ℕ} (h : r.Accounts n) (byte : Byte) :
    (r.push byte).Accounts (n+1) := by
  rw [accounts_iff] at h ⊢
  have hpos : 0 < radioMaxPacketSize := by decide
  by_cases hfull : r.deframer.buf.length = radioMaxPacketSize
  · simp only [push,radioDeframerPush,dif_pos hfull,emitted,skippedBytes_append,
      skippedBytes_cons,RxCall.bytes,skippedBytes_nil,List.length_append,List.length_drop,
      List.length_singleton] at h ⊢
    omega
  · simp only [push,radioDeframerPush,dif_neg hfull,emitted,List.append_nil,List.length_append,
      List.length_singleton] at h ⊢
    omega

theorem Receiver.accounts_next {r : Receiver} {n : ℕ} (h : r.Accounts n) : r.next.Accounts n := by
  rw [accounts_iff] at h ⊢
  have hlen := nextLoop_length r.deframer.buf
  have hsum : ((nextLoop r.deframer.buf).packet.toList.map List.length).sum =
      ((nextLoop r.deframer.buf).packet.getD []).length := by
    cases (nextLoop r.deframer.buf).packet <;> simp
  simp only [next,radioDeframerNext,emitted,List.map_append,List.sum_append,
    skippedBytes_append] at h ⊢
  omega

theorem Receiver.accounts_iterate {r : Receiver} {n : ℕ} (h : r.Accounts n) (k : ℕ) :
    (Receiver.next^[k] r).Accounts n := by
  induction k generalizing r with
  | zero => exact h
  | succ k ih => exact ih (accounts_next h)

theorem Receiver.accounts_feed {r : Receiver} {n : ℕ} (h : r.Accounts n) (s : List Byte) :
    (r.feed s).Accounts (n+s.length) := by
  induction s generalizing r n with
  | nil => exact h
  | cons b s ih =>
    have := ih (accounts_next (accounts_push h b))
    rw [List.length_cons,Nat.add_comm s.length,← Nat.add_assoc]
    exact this

/-- The packets still to come from the buffer, whatever arrives later. -/
theorem Receiver.scan_next (r : Receiver) (t : List Byte) :
    r.next.packets ++ scan radioJudge (r.next.deframer.buf ++ t) =
      r.packets ++ scan radioJudge (r.deframer.buf ++ t) := by
  obtain ⟨hp,hb,-⟩ := nextLoop_eq_next r.deframer.buf
  rw [StreamScan.scan_next radioJudge r.deframer.buf t,← hp,← hb,← List.append_assoc]
  rfl

theorem Receiver.scan_iterate (r : Receiver) (k : ℕ) (t : List Byte) :
    (Receiver.next^[k] r).packets ++ scan radioJudge ((Receiver.next^[k] r).deframer.buf ++ t) =
      r.packets ++ scan radioJudge (r.deframer.buf ++ t) := by
  induction k generalizing r with
  | zero => rfl
  | succ k ih => exact (ih r.next).trans (scan_next r t)

/-- After a call of `next` the buffer has room: either it waits for bytes, or a
packet has left it. -/
theorem Receiver.room_next (r : Receiver) : r.next.deframer.buf.length < radioMaxPacketSize := by
  obtain ⟨hp,hb,-⟩ := nextLoop_eq_next r.deframer.buf
  change (nextLoop r.deframer.buf).buf.length < _
  cases hblock : (nextLoop r.deframer.buf).packet with
  -- a verdict of waiting is only given below the largest packet
  | none =>
    rw [hb]
    exact length_of_wait (next_none radioJudge (hp.symm.trans hblock))
  | some packet =>
    have hpos := next_some radioJudge (hp.symm.trans hblock)
    have hlen := nextLoop_length r.deframer.buf
    rw [hblock,Option.getD_some] at hlen
    have := r.deframer.fits
    omega

theorem Receiver.push_of_room {r : Receiver} (h : r.deframer.buf.length < radioMaxPacketSize)
    (byte : Byte) :
    (r.push byte).deframer.buf = r.deframer.buf ++ [byte] ∧ (r.push byte).packets = r.packets := by
  have hfull : ¬ r.deframer.buf.length = radioMaxPacketSize := by omega
  simp only [push,radioDeframerPush,dif_neg hfull,and_self]

/-- The receiver lags behind the scan of the stream `s` fed so far by what its buffer holds. -/
structure Receiver.Tracks (r : Receiver) (s : List Byte) : Prop where
  room : r.deframer.buf.length < radioMaxPacketSize
  scan : ∀ t,r.packets ++ scan radioJudge (r.deframer.buf ++ t) = scan radioJudge (s ++ t)

theorem Receiver.tracks_reset : Receiver.reset.Tracks [] := ⟨by decide,fun _ => rfl⟩

theorem Receiver.tracks_feedByte {r : Receiver} {s : List Byte} (h : r.Tracks s) (byte : Byte) :
    (r.feedByte byte).Tracks (s ++ [byte]) := by
  refine ⟨room_next _,fun t => ?_⟩
  obtain ⟨hbuf,hpackets⟩ := push_of_room h.room byte
  rw [feedByte,scan_next,hbuf,hpackets,List.append_assoc,List.append_assoc]
  exact h.scan ([byte] ++ t)

theorem Receiver.tracks_feed {r : Receiver} {s : List Byte} (h : r.Tracks s) (t : List Byte) :
    (r.feed t).Tracks (s ++ t) := by
  induction t generalizing r s with
  | nil => rwa [List.append_nil]
  | cons b t ih =>
    have := ih (tracks_feedByte h b)
    rwa [List.append_assoc,List.singleton_append] at this

theorem Receiver.drain_eq_iterate (r : Receiver) :
    (∃ k,r.drain = Receiver.next^[k] r) ∧ verdict r.drain.deframer.buf = .wait := by
  induction r using Receiver.drain.induct with
  | case1 r h =>
    rw [drain]
    split
    · refine ⟨⟨1,rfl⟩,?_⟩
      obtain ⟨hp,hb,-⟩ := nextLoop_eq_next r.deframer.buf
      change verdict (nextLoop r.deframer.buf).buf = _
      rw [hb]
      exact next_none radioJudge (hp.symm.trans h)
    · simp_all
  | case2 r packet h ih =>
    rw [drain]
    split
    · simp_all
    · obtain ⟨⟨k,hk⟩,hw⟩ := ih
      exact ⟨⟨k+1,hk⟩,hw⟩

/-- A deframer that waits returns 0 and changes nothing. -/
theorem radioDeframerNext_of_wait {d : RadioDeframer} (h : verdict d.buf = .wait) :
    (radioDeframerNext d).1 = none := by
  obtain ⟨hp,-,-⟩ := nextLoop_eq_next d.buf
  change (nextLoop d.buf).packet = none
  rw [hp]
  cases hb : d.buf with
  | nil => rfl
  | cons b rest =>
    have hj : radioJudge.verdict (b :: rest) = .wait := hb ▸ h
    rw [StreamScan.next,hj]

theorem Receiver.feed_drain_packets (s : List Byte) :
    (Receiver.reset.feed s).drain.packets = scan radioJudge s := by
  obtain ⟨⟨k,hk⟩,hw⟩ := drain_eq_iterate (Receiver.reset.feed s)
  have htrack := tracks_feed tracks_reset s
  have hscan := scan_iterate (Receiver.reset.feed s) k []
  rw [← hk,htrack.scan,List.append_nil,List.append_nil,scan_wait _ hw,List.append_nil] at hscan
  exact hscan

/-- Feeding a stream byte by byte, with one `radio_deframer_next` each, and draining the
deframer at the end returns the packets of the reference scan of the whole stream. The
buffer is never full when a byte arrives, the packets returned on the way are a prefix of
the final list, and every byte pushed is accounted for at every point. -/
theorem receive_equals_reference_scan (s : List Byte) :
    (Receiver.reset.feed s).drain.packets = referenceScan s 0 ∧
    (radioDeframerNext (Receiver.reset.feed s).drain.deframer).1 = none ∧
    (∀ t b,t ++ [b] <+: s → (Receiver.reset.feed t).deframer.buf.length ≠ radioMaxPacketSize) ∧
    (∀ t k,t <+: s → (Receiver.next^[k] (Receiver.reset.feed t)).packets <+:
      (Receiver.reset.feed s).drain.packets) ∧
    (∀ t k,t <+: s → (Receiver.next^[k] (Receiver.reset.feed t)).Accounts t.length) ∧
    (∀ t b,t ++ [b] <+: s → ((Receiver.reset.feed t).push b).Accounts (t.length+1)) ∧
    (Receiver.reset.feed s).drain.Accounts s.length := by
  have hreset : Receiver.reset.Accounts 0 := by
    rw [Receiver.accounts_iff]
    rfl
  have hfeed : ∀ t : List Byte,(Receiver.reset.feed t).Accounts t.length := by
    intro t
    have := Receiver.accounts_feed hreset t
    rwa [Nat.zero_add] at this
  -- draining is a number of calls of `next`, so that what holds for any number holds for it
  obtain ⟨⟨k,hk⟩,hw⟩ := Receiver.drain_eq_iterate (Receiver.reset.feed s)
  refine ⟨?_,radioDeframerNext_of_wait hw,?_,?_,?_,?_,?_⟩
  · rw [Receiver.feed_drain_packets,referenceScan_eq_scan,List.drop_zero]
  · intro t b _
    exact (Receiver.tracks_feed Receiver.tracks_reset t).room.ne
  · rintro t k ⟨u,rfl⟩
    have htrack := Receiver.tracks_feed Receiver.tracks_reset t
    rw [Receiver.feed_drain_packets,← List.nil_append t,← htrack.scan u,
      ← Receiver.scan_iterate _ k u]
    exact List.prefix_append _ _
  · intro t k _
    exact Receiver.accounts_iterate (hfeed t) k
  · intro t b _
    exact Receiver.accounts_push (hfeed t) b
  · rw [hk]
    exact Receiver.accounts_iterate (hfeed s) k

end FlightSoftware.Radio
