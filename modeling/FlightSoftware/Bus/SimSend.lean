import FlightSoftware.Bus.CspInterface
import FlightSoftware.Lib.PrefixCode

/-!
# Sending on the simulated bus

The master writes a frame to every live connection of its snapshot and keeps the result of the
last write only. A connection whose write fails is closed, one that takes only a part of the
frame is not, so its peer sees the next frame begin inside this one.
-/

namespace FlightSoftware.Bus
open BigEndian Run

open scoped Computability

/-! ### Frames as words -/

/-- The wire forms of frames. -/
def frameWires : Language Byte := {w | ∃ frame : Frame,frame.Fits ∧ w = frame.wire}

/-- A frame tells its own length, so no frame is the front of another. -/
theorem frameWires_prefixCode : IsPrefixCode frameWires := by
  have hheader : frameHeaderSize = 4 := rfl
  constructor
  · rintro w ⟨frame,hframe,rfl⟩ hnil
    have hlen := hframe.wire_length
    rw [hnil,List.length_nil] at hlen
    omega
  · rintro v ⟨frame,hframe,rfl⟩ w ⟨frame',hframe',rfl⟩ hfront
    have hlen := hframe.wire_length
    have hlen' := hframe'.wire_length
    obtain ⟨rest,hrest⟩ := hfront
    have hsame : frame.length = frame'.length := by
      rw [← frame.readU16Be_wire,← frame'.readU16Be_wire,← hrest,
        List.drop_append_of_le_length (by omega)]
      exact readU16Be_congr (byteAt_append_left _ _ 0 (by rw [List.length_drop]; omega)).symm
        (byteAt_append_left _ _ 1 (by rw [List.length_drop]; omega)).symm
    rw [hsame] at hlen
    exact List.IsPrefix.eq_of_length_le ⟨rest,hrest⟩ (by omega)

/-! ### The code -/

/-- A payload to send; the buffer has the bytes that the length claims. -/
structure SendRequest where
  destAddr : Byte
  data : List Byte
  length : BitVec 16
  covers : length.toNat ≤ data.length

/-- The frame that `comms_bus_send` makes. -/
def SendRequest.frame (myAddress : Byte) (q : SendRequest) : Frame :=
  ⟨q.destAddr,myAddress,q.length,q.data.take q.length.toNat⟩

/-- A connection of the master, with the bytes written to it since it was accepted. -/
structure SendSlot where
  live : Bool
  written : List Byte
  deriving DecidableEq

/-- What `write` comes to after being interrupted some times: a negative result, or a count of
bytes taken. -/
inductive WriteOutcome where
  | failed (retries : ℕ)
  | wrote (retries count : ℕ)
  deriving DecidableEq

/-- The result of `write`, `none` where it is negative. -/
def WriteOutcome.result (wire : List Byte) : WriteOutcome → Option ℕ
  | failed _ => none
  | wrote _ count => some (min count wire.length)

/-- A slot of the snapshot after its write; a connection whose write failed is marked dead. -/
def SendSlot.write (wire : List Byte) (s : SendSlot) : WriteOutcome → SendSlot
  | .failed _ => { s with live := false }
  | .wrote _ count => { s with written := s.written ++ wire.take count }

/-- The loop of `comms_bus_send` over the snapshot: `ret` and the slots afterwards. -/
def writeSlots (wire : List Byte) :
    Option ℕ → List (SendSlot × WriteOutcome) → Option ℕ × List SendSlot
  | ret,[] => (ret,[])
  | ret,(s,outcome) :: rest =>
    if !s.live then
      let r := writeSlots wire ret rest
      (r.1,s :: r.2)
    else
      let r := writeSlots wire (outcome.result wire) rest
      (r.1,s.write wire outcome :: r.2)

/-- `comms_bus_send` on the master; the result is the length, or `none` for `COMMS_BUS_ERROR`. -/
def sendOnMaster (myAddress : Byte) (q : SendRequest) (slots : List (SendSlot × WriteOutcome)) :
    Option (BitVec 16) × List SendSlot :=
  if q.length.toNat > maxFramePayload then (none,slots.map Prod.fst)
  else
    let wire := (frameSerialize (q.frame myAddress) maxFrameWireSize).getD []
    let r := writeSlots wire none slots
    (if r.1 = some wire.length then some q.length else none,r.2)

/-! ### Runs -/

inductive SendAction where
  | accept
  | lose (slot : ℕ)
  | send (q : SendRequest) (outcomes : List WriteOutcome)

/-- New connections come, connections are marked dead by a receive, and the master sends, with
an outcome for each of its slots. -/
def sendStep (myAddress : Byte) (slots : List SendSlot) : SendAction → Option (List SendSlot)
  | .accept => some (slots ++ [⟨true,[]⟩])
  | .lose slot => some (slots.modify slot fun s => { s with live := false })
  | .send q outcomes =>
    if outcomes.length = slots.length then some (sendOnMaster myAddress q (slots.zip outcomes)).2
    else none

/-- Every live connection has been written whole frames only. -/
def WholeFrames (slots : List SendSlot) : Prop :=
  ∀ s ∈ slots,s.live = true → s.written ∈ frameWires∗

/-- The call returns the length only if the frame went to every connection that is still live,
and leaves whole frames on these. -/
def SendTruthful (myAddress : Byte) (q : SendRequest) (slots : List (SendSlot × WriteOutcome)) :
    Prop :=
  ((sendOnMaster myAddress q slots).1 = some q.length →
    ∀ p ∈ slots,p.1.live = true → (p.1.write (q.frame myAddress).wire p.2).live = true →
      (p.1.write (q.frame myAddress).wire p.2).written =
        p.1.written ++ (q.frame myAddress).wire) ∧
  WholeFrames (sendOnMaster myAddress q slots).2

/-- No write takes a part of the frame, and none takes nothing before a last one that takes all. -/
def NoShortWrite (myAddress : Byte) (q : SendRequest) (slots : List (SendSlot × WriteOutcome)) :
    Prop :=
  q.length.toNat ≤ maxFramePayload →
    (∀ p ∈ slots,p.1.live = true → ∀ n,p.2.result (q.frame myAddress).wire = some n →
      n = 0 ∨ n = (q.frame myAddress).wire.length) ∧
    (∀ pre s outcome post,slots = pre ++ (s,outcome) :: post → s.live = true →
      (∀ p ∈ post,p.1.live = false) →
      outcome.result (q.frame myAddress).wire = some (q.frame myAddress).wire.length →
      ∀ p ∈ slots,p.1.live = true → p.2.result (q.frame myAddress).wire ≠ some 0)

/-! ### One call -/

theorem SendRequest.frame_fits (myAddress : Byte) {q : SendRequest}
    (h : q.length.toNat ≤ maxFramePayload) : (q.frame myAddress).Fits where
  length_le := h
  payload := by
    change q.length.toNat ≤ (q.data.take q.length.toNat).length
    rw [List.length_take,min_eq_left q.covers]

theorem sendOnMaster_eq (myAddress : Byte) {q : SendRequest} (h : q.length.toNat ≤ maxFramePayload)
    (slots : List (SendSlot × WriteOutcome)) : sendOnMaster myAddress q slots =
      (if (writeSlots (q.frame myAddress).wire none slots).1 =
          some (q.frame myAddress).wire.length then some q.length else none,
        (writeSlots (q.frame myAddress).wire none slots).2) := by
  rw [sendOnMaster,if_neg (by omega),(SendRequest.frame_fits myAddress h).serialize]
  rfl

theorem writeSlots_slots (wire : List Byte) (ret : Option ℕ)
    (slots : List (SendSlot × WriteOutcome)) : (writeSlots wire ret slots).2 =
      slots.map fun p => if p.1.live = true then p.1.write wire p.2 else p.1 := by
  induction slots generalizing ret with
  | nil => rfl
  | cons p slots ih =>
    obtain ⟨s,outcome⟩ := p
    cases hlive : s.live with
    | false => simp [writeSlots,hlive,ih]
    | true => simp [writeSlots,hlive,ih]

theorem writeSlots_dead (wire : List Byte) (ret : Option ℕ)
    {slots : List (SendSlot × WriteOutcome)} (h : ∀ p ∈ slots,p.1.live = false) :
    (writeSlots wire ret slots).1 = ret := by
  induction slots with
  | nil => rfl
  | cons p slots ih =>
    obtain ⟨s,outcome⟩ := p
    have hs : s.live = false := h _ (List.mem_cons_self ..)
    rw [writeSlots,hs]
    exact ih fun p hp => h p (List.mem_cons_of_mem _ hp)

/-- The result is that of the last live connection. -/
theorem writeSlots_last (wire : List Byte) (ret : Option ℕ)
    (pre : List (SendSlot × WriteOutcome)) {s : SendSlot} (outcome : WriteOutcome)
    {post : List (SendSlot × WriteOutcome)} (hlive : s.live = true)
    (hpost : ∀ p ∈ post,p.1.live = false) :
    (writeSlots wire ret (pre ++ (s,outcome) :: post)).1 = outcome.result wire := by
  induction pre generalizing ret with
  | nil =>
    rw [List.nil_append,writeSlots,hlive]
    exact writeSlots_dead wire _ hpost
  | cons p pre ih =>
    obtain ⟨s',outcome'⟩ := p
    rw [List.cons_append,writeSlots]
    split
    · exact ih ret
    · exact ih _

theorem dead_or_last_live (slots : List (SendSlot × WriteOutcome)) :
    (∀ p ∈ slots,p.1.live = false) ∨ ∃ pre s outcome post,
      slots = pre ++ (s,outcome) :: post ∧ s.live = true ∧ ∀ p ∈ post,p.1.live = false := by
  induction slots with
  | nil => exact .inl fun _ hp => absurd hp List.not_mem_nil
  | cons p slots ih =>
    obtain hdead | ⟨pre,s,outcome,post,rfl,hs,hpost⟩ := ih
    · cases hlive : p.1.live with
      | true => exact .inr ⟨[],p.1,p.2,slots,rfl,hlive,hdead⟩
      | false =>
        refine .inl fun p' hp' => ?_
        obtain rfl | hp' := List.mem_cons.mp hp'
        · exact hlive
        · exact hdead p' hp'
    · exact .inr ⟨p :: pre,s,outcome,post,rfl,hs,hpost⟩

/-- A write leaves whole frames where it takes nothing or all. -/
theorem SendSlot.write_whole_iff {wire : List Byte} (hwire : wire ∈ frameWires) {s : SendSlot}
    (hlive : s.live = true) (hs : s.written ∈ frameWires∗) (outcome : WriteOutcome) :
    ((s.write wire outcome).live = true → (s.write wire outcome).written ∈ frameWires∗) ↔
      ∀ n,outcome.result wire = some n → n = 0 ∨ n = wire.length := by
  cases outcome with
  | failed retries =>
    constructor
    · intro _ n hn
      cases hn
    · intro _ hdead
      cases hdead
  | wrote retries count =>
    have hword : wire.take count ∈ frameWires∗ ↔ min count wire.length = 0 ∨
        min count wire.length = wire.length := by
      rw [frameWires_prefixCode.prefix_mem_kstar_iff hwire (List.take_prefix ..),
        ← List.length_take]
      refine or_congr List.length_eq_zero_iff.symm ⟨congrArg List.length,fun hlen => ?_⟩
      exact List.IsPrefix.eq_of_length (List.take_prefix ..) hlen
    constructor
    · intro hwhole n hn
      obtain rfl := Option.some.inj hn
      exact hword.mp (frameWires_prefixCode.kstar_cancel hs (hwhole hlive))
    · intro hall _
      exact IsPrefixCode.kstar_append hs (hword.mpr (hall _ rfl))

/-- A write leaves the frame behind what was there where it takes all. -/
theorem SendSlot.write_complete_iff {wire : List Byte} {s : SendSlot} (hlive : s.live = true)
    (outcome : WriteOutcome) :
    ((s.write wire outcome).live = true → (s.write wire outcome).written = s.written ++ wire) ↔
      ∀ n,outcome.result wire = some n → n = wire.length := by
  cases outcome with
  | failed retries =>
    constructor
    · intro _ n hn
      cases hn
    · intro _ hdead
      cases hdead
  | wrote retries count =>
    constructor
    · intro hcomplete n hn
      obtain rfl := Option.some.inj hn
      have htake : wire.take count = wire := List.append_cancel_left (hcomplete hlive)
      rw [← List.length_take,htake]
    · intro hall _
      have htake : wire.take count = wire :=
        List.IsPrefix.eq_of_length (List.take_prefix ..)
          (by rw [List.length_take]; exact hall _ rfl)
      change s.written ++ wire.take count = s.written ++ wire
      rw [htake]

/-- What a call leaves is whole exactly where every write took nothing or all. -/
theorem sendOnMaster_whole_iff (myAddress : Byte) {q : SendRequest}
    (hle : q.length.toNat ≤ maxFramePayload) {slots : List (SendSlot × WriteOutcome)}
    (hwhole : WholeFrames (slots.map Prod.fst)) :
    WholeFrames (sendOnMaster myAddress q slots).2 ↔
      ∀ p ∈ slots,p.1.live = true → ∀ n,p.2.result (q.frame myAddress).wire = some n →
        n = 0 ∨ n = (q.frame myAddress).wire.length := by
  have hwire : (q.frame myAddress).wire ∈ frameWires :=
    ⟨_,SendRequest.frame_fits myAddress hle,rfl⟩
  rw [sendOnMaster_eq myAddress hle,WholeFrames,writeSlots_slots,List.forall_mem_map]
  refine forall₂_congr fun p hp => ?_
  cases hlive : p.1.live with
  | false => simp [hlive]
  | true =>
    simp only [if_true,forall_const]
    exact SendSlot.write_whole_iff hwire hlive (hwhole p.1 (List.mem_map_of_mem hp) hlive) p.2

/-- The length is returned where the last write took the whole frame. -/
theorem sendOnMaster_result_iff (myAddress : Byte) {q : SendRequest}
    (hle : q.length.toNat ≤ maxFramePayload) (slots : List (SendSlot × WriteOutcome)) :
    (sendOnMaster myAddress q slots).1 = some q.length ↔
      (writeSlots (q.frame myAddress).wire none slots).1 =
        some (q.frame myAddress).wire.length := by
  rw [sendOnMaster_eq myAddress hle]
  split
  · next hfull => exact iff_of_true rfl hfull
  · next hfull =>
    exact iff_of_false (fun hnone => Option.noConfusion rfl (heq_of_eq hnone)) hfull

/-- From whole frames a call is truthful and leaves whole frames exactly where it has no short
write. -/
theorem sendTruthful_iff (myAddress : Byte) (q : SendRequest)
    {slots : List (SendSlot × WriteOutcome)} (hwhole : WholeFrames (slots.map Prod.fst)) :
    SendTruthful myAddress q slots ↔ NoShortWrite myAddress q slots := by
  by_cases hle : q.length.toNat ≤ maxFramePayload
  · have hpos : (q.frame myAddress).wire.length ≠ 0 := by
      have hheader : frameHeaderSize = 4 := rfl
      rw [(SendRequest.frame_fits myAddress hle).wire_length]
      omega
    have hleft := sendOnMaster_whole_iff myAddress hle hwhole
    have hresult := sendOnMaster_result_iff myAddress hle slots
    constructor
    · rintro ⟨hreturn,hafter⟩ _
      refine ⟨hleft.mp hafter,?_⟩
      rintro pre s outcome post rfl hs hpost hlast p hp hlive hzero
      have hret := hresult.mpr ((writeSlots_last _ _ pre outcome hs hpost).trans hlast)
      exact hpos ((SendSlot.write_complete_iff hlive p.2).mp (hreturn hret p hp hlive) 0 hzero).symm
    · intro hno
      obtain ⟨hnone,hlast⟩ := hno hle
      refine ⟨fun hret p hp hlive => ?_,hleft.mpr hnone⟩
      refine (SendSlot.write_complete_iff hlive p.2).mpr fun n hn => ?_
      obtain hdead | ⟨pre,s,outcome,post,rfl,hs,hpost⟩ := dead_or_last_live slots
      · rw [hdead p hp] at hlive
        cases hlive
      · have hfull :=
          (writeSlots_last (q.frame myAddress).wire none pre outcome hs hpost).symm.trans
            (hresult.mp hret)
        have hzero := hlast pre s outcome post rfl hs hpost hfull p hp hlive
        refine (hnone p hp hlive n hn).resolve_left ?_
        rintro rfl
        exact hzero hn
  · have heq : sendOnMaster myAddress q slots = (none,slots.map Prod.fst) := by
      rw [sendOnMaster,if_pos (by omega)]
    rw [SendTruthful,heq]
    refine iff_of_true ⟨fun hret => ?_,hwhole⟩ fun hfits => absurd hfits hle
    cases hret

/-! ### Every run -/

theorem wholeFrames_zip {slots : List SendSlot} (h : WholeFrames slots)
    (outcomes : List WriteOutcome) : WholeFrames ((slots.zip outcomes).map Prod.fst) := by
  intro s hs
  obtain ⟨p,hp,rfl⟩ := List.mem_map.mp hs
  exact h p.1 (List.of_mem_zip hp).1

/-- Every action but an untruthful send leaves whole frames. -/
theorem wholeFrames_step {myAddress : Byte} {slots slots' : List SendSlot} {a : SendAction}
    (h : WholeFrames slots)
    (hsend : ∀ q outcomes,a = .send q outcomes → SendTruthful myAddress q (slots.zip outcomes))
    (hstep : sendStep myAddress slots a = some slots') : WholeFrames slots' := by
  cases a with
  | accept =>
    obtain rfl := Option.some.inj hstep
    intro s hs hlive
    obtain hs | hs := List.mem_append.mp hs
    · exact h s hs hlive
    · rw [List.mem_singleton.mp hs]
      exact Language.nil_mem_kstar frameWires
  | lose slot =>
    obtain rfl := Option.some.inj hstep
    intro s hs hlive
    obtain ⟨i,hi,rfl⟩ := List.mem_iff_getElem.mp hs
    rw [List.getElem_modify] at hlive ⊢
    split at hlive
    · cases hlive
    · next hne =>
      rw [if_neg hne]
      exact h _ (List.getElem_mem _) hlive
  | send q outcomes =>
    rw [sendStep] at hstep
    split at hstep
    · obtain rfl := Option.some.inj hstep
      exact (hsend q outcomes rfl).2
    · cases hstep

/-- In every run, each send reports the truth and leaves whole frames on the live connections
exactly when no write of a send is short: none takes a part of the frame, and none takes
nothing where the last write of its call takes all. -/
theorem sends_truthful_iff (myAddress : Byte) (actions : List SendAction) :
    (∀ pre q outcomes post slots,actions = pre ++ .send q outcomes :: post →
        run (sendStep myAddress) [] pre = some slots →
        SendTruthful myAddress q (slots.zip outcomes)) ↔
      ∀ pre q outcomes post slots,actions = pre ++ .send q outcomes :: post →
        run (sendStep myAddress) [] pre = some slots →
        NoShortWrite myAddress q (slots.zip outcomes) := by
  have hempty : WholeFrames [] := fun _ hs => absurd hs List.not_mem_nil
  constructor
  · rintro hall pre q outcomes post slots rfl hpre
    have hwhole : WholeFrames slots := by
      refine run_invariant_of (I := WholeFrames)
        (P := fun t a => ∀ q outcomes,a = .send q outcomes →
          SendTruthful myAddress q (t.zip outcomes))
        (fun t a t' ht ha hstep => wholeFrames_step ht ha hstep) hempty ?_ hpre
      rintro pre' a post' t rfl ht q' outcomes' rfl
      exact hall pre' q' outcomes' _ t (List.append_assoc ..) ht
    exact (sendTruthful_iff myAddress q (wholeFrames_zip hwhole outcomes)).mp
      (hall pre q outcomes post slots rfl hpre)
  · rintro hall pre q outcomes post slots rfl hpre
    have hwhole : WholeFrames slots := by
      refine run_invariant_of (I := WholeFrames)
        (P := fun t a => ∀ q outcomes,a = .send q outcomes →
          NoShortWrite myAddress q (t.zip outcomes))
        (fun t a t' ht ha hstep => wholeFrames_step ht (fun q outcomes hsend =>
          (sendTruthful_iff myAddress q (wholeFrames_zip ht outcomes)).mpr
            (ha q outcomes hsend)) hstep) hempty ?_ hpre
      rintro pre' a post' t rfl ht q' outcomes' rfl
      exact hall pre' q' outcomes' _ t (List.append_assoc ..) ht
    exact (sendTruthful_iff myAddress q (wholeFrames_zip hwhole outcomes)).mpr
      (hall pre q outcomes post slots rfl hpre)

/-- Two boards; the first takes three bytes of the frame and the second all five. -/
theorem short_write_hidden :
    let q : SendRequest := ⟨2#8,[9#8],1#16,by decide⟩
    let slots : List (SendSlot × WriteOutcome) :=
      [(⟨true,[]⟩,.wrote 0 3),(⟨true,[]⟩,.wrote 0 5)]
    sendOnMaster 1#8 q slots =
        (some 1#16,[⟨true,[2#8,1#8,0#8]⟩,⟨true,[2#8,1#8,0#8,1#8,9#8]⟩]) ∧
      [2#8,1#8,0#8] ∉ frameWires∗ := by
  intro q slots
  have hword : (q.frame 1#8).wire ∈ frameWires :=
    ⟨_,SendRequest.frame_fits 1#8 (by decide),rfl⟩
  refine ⟨by decide,fun hwhole => ?_⟩
  have hfront : [2#8,1#8,0#8] <+: (q.frame 1#8).wire := ⟨[1#8,9#8],by decide⟩
  obtain hnil | hall := (frameWires_prefixCode.prefix_mem_kstar_iff hword hfront).mp hwhole
  · cases hnil
  · exact absurd (congrArg List.length hall) (by decide)

end FlightSoftware.Bus
