import FlightSoftware.Radio.Deframer
import FlightSoftware.Lib.Run

/-!
# Receiving packets

`radio_receive` of the real driver. It feeds the deframer byte by byte and throws away
what is buffered when the line goes quiet. A call returns at the first packet, and
the deframer is asked for another one only behind the next byte: a second whole packet
may be in the buffer by then.
-/

namespace FlightSoftware.Radio
open Ccsds StreamScan Run

def rxTimeoutMs : ℤ := 1000
def rxPacketMaxMs : ℤ := 500

/-! ### The driver -/

/-- What `uart_read_byte` comes to. -/
inductive UartRead where
  | byte (b : Byte)
  | quiet
  | error
  deriving DecidableEq

/-- A pass of the receive loop: the clock at its beginning, and what the read comes to if there
is one. -/
structure RxPass where
  now : ℤ
  read : UartRead

/-- How the receive loop ends. -/
inductive RxEnd where
  | packet (packet : List Byte)
  | silent
  | failed
  deriving DecidableEq

/-- A run of bytes without a gap behind it: the packets that were taken from it, and what the
deframer held when it was reset. -/
structure Reception where
  bytes : List Byte
  packets : List (List Byte)
  discarded : RadioDeframer

/-- What `radio_receive` returns, with the bytes that it copied to the caller's buffer. -/
structure RxResult where
  value : ℤ
  payload : List Byte
  deriving DecidableEq

/-- A packet that a call took, with the room in the caller's buffer and what the call returned. -/
structure Returned where
  packet : List Byte
  maxLength : BitVec 16
  result : RxResult
  deriving DecidableEq

/-- The receive side of the driver. The receiver has the packets since the last gap, and `bytes`
what was read since. `earlier` records the runs of bytes before, and `returned` what the calls
returned that took a packet. -/
structure RadioRx where
  ready : Bool
  receiver : Receiver
  bytes : List Byte
  earlier : List Reception
  returned : List Returned

def RadioRx.initial : RadioRx := ⟨false,.reset,[],[],[]⟩

/-- `radio_deframer_reset` behind a gap. -/
def RadioRx.discard (s : RadioRx) : RadioRx :=
  { s with
    receiver := ⟨radioDeframerReset,[],
      s.receiver.calls ++ [.skipped (radioDeframerBuffered s.receiver.deframer)]⟩
    bytes := []
    earlier := s.earlier ++ [⟨s.bytes,s.receiver.packets,s.receiver.deframer⟩] }

/-- The time is up, or there is none left to wait for a first byte. -/
def RadioRx.givesUp (s : RadioRx) (start now : ℤ) : Bool :=
  now ≥ start + rxTimeoutMs + rxPacketMaxMs ∨
    radioDeframerBuffered s.receiver.deframer = 0 ∧ start + rxTimeoutMs - now ≤ 0

/-- One pass of the loop of `radio_receive`. -/
def RadioRx.pass (s : RadioRx) (start : ℤ) (pass : RxPass) : RadioRx × Option RxEnd :=
  if s.givesUp start pass.now then (s,some .silent)
  else match pass.read with
    | .error => (s,some .failed)
    | .quiet => (s.discard,none)
    | .byte b =>
      ({ s with receiver := s.receiver.feedByte b,bytes := s.bytes ++ [b] },
        (radioDeframerNext (s.receiver.push b).deframer).1.map .packet)

/-- The loop, up to its end or through all the passes. -/
def RadioRx.receiveLoop (s : RadioRx) (start : ℤ) : List RxPass → RadioRx × Option RxEnd
  | [] => (s,none)
  | pass :: passes =>
    match s.pass start pass with
    | (t,some e) => (t,some e)
    | (t,none) => t.receiveLoop start passes

/-- `ensure_ready`. `opened` is what `radio_init` comes to, if it is time to try. -/
def RadioRx.ensureReady (s : RadioRx) (opened : Option Bool) : RadioRx :=
  if s.ready then s
  else match opened with
    | none => s
    | some ok => { s with
        ready := ok
        receiver := { s.receiver with deframer := radioDeframerReset } }

/-- The end of `radio_receive` with a packet, which the deframer has parsed before. -/
def receiveResult (packet : List Byte) (maxLength : BitVec 16) : RxResult :=
  match lgCcsdsProfileParse packet with
  | .ok view =>
    if view.payloadLength > maxLength.toNat then ⟨-1,[]⟩ else ⟨view.payloadLength,view.payload⟩
  | .error _ => ⟨0,[]⟩

/-- A call of `radio_receive`: its arguments, and what it meets. -/
structure ReceiveCall where
  hasBuffer : Bool
  maxLength : BitVec 16
  opened : Option Bool
  start : ℤ
  passes : List RxPass

/-- `radio_receive`, when the passes bring its loop to the end. -/
def RadioRx.radioReceive (s : RadioRx) (call : ReceiveCall) : Option (RadioRx × RxResult) :=
  if call.hasBuffer = false ∨ call.maxLength = 0 then some (s,⟨-1,[]⟩)
  else
    let s := s.ensureReady call.opened
    if s.ready = false then some (s,⟨-1,[]⟩)
    else match s.receiveLoop call.start call.passes with
      | (_,none) => none
      | (t,some .failed) => some ({ t with ready := false },⟨-1,[]⟩)
      | (t,some .silent) => some (t,⟨0,[]⟩)
      | (t,some (.packet packet)) =>
        let result := receiveResult packet call.maxLength
        some ({ t with returned := t.returned ++ [⟨packet,call.maxLength,result⟩] },result)

def RadioRx.step (s : RadioRx) (call : ReceiveCall) : Option RadioRx :=
  (s.radioReceive call).map Prod.fst

/-! ### What the deframer leaves -/

theorem verdict_take_ok {s : List Byte} {n : ℕ} (h : verdict s = .take n) :
    (lgCcsdsProfileParse (s.take n)).isOk = true := by
  unfold verdict at h
  dsimp only at h
  split_ifs at h
  obtain rfl := Verdict.take.inj h
  assumption

/-- What the deframer returns is a packet. -/
theorem nextLoop_packet {buf packet : List Byte} (h : (nextLoop buf).packet = some packet) :
    ∃ view,lgCcsdsProfileParse packet = .ok view := by
  induction buf with
  | nil => cases h
  | cons b rest ih =>
    obtain ⟨-,hn⟩ | ⟨n,hv,hn⟩ | ⟨-,calls,-,hn⟩ := nextLoop_cons b rest
    · rw [hn] at h
      cases h
    · rw [hn] at h
      obtain rfl := Option.some.inj h
      have hok := verdict_take_ok hv
      cases hparse : lgCcsdsProfileParse ((b :: rest).take n) with
      | ok view => exact ⟨view,rfl⟩
      | error e =>
        rw [hparse] at hok
        cases hok
    · rw [hn] at h
      exact ih h

/-- No packet is left for another `radio_deframer_next`. -/
def RadioDeframer.Settled (d : RadioDeframer) : Prop := (radioDeframerNext d).1 = none

instance (d : RadioDeframer) : Decidable d.Settled := inferInstanceAs (Decidable (_ = none))

theorem RadioDeframer.settled_reset : radioDeframerReset.Settled := rfl

theorem RadioDeframer.Settled.scan {d : RadioDeframer} (h : d.Settled) :
    scan radioJudge d.buf = [] := by
  have hblock : (StreamScan.next radioJudge d.buf).block = none :=
    (nextLoop_eq_next d.buf).1.symm.trans h
  have hscan := StreamScan.scan_next radioJudge d.buf []
  rw [hblock,List.append_nil,List.append_nil,scan_wait _ (next_none radioJudge hblock)] at hscan
  exact hscan

/-- A deframer that has just returned 0 would do so again. -/
theorem RadioDeframer.settled_next {d : RadioDeframer} (h : d.Settled) :
    (radioDeframerNext d).2.1.Settled := by
  obtain ⟨hp,hb,-⟩ := nextLoop_eq_next d.buf
  refine radioDeframerNext_of_wait ?_
  change verdict (nextLoop d.buf).buf = _
  rw [hb]
  exact next_none radioJudge (hp.symm.trans h)

/-! ### One pass -/

namespace RadioRx

variable {s t : RadioRx} {start : ℤ} {p : RxPass} {ending : Option RxEnd}

/-- The passes of the loop. -/
inductive Passes (s : RadioRx) (start : ℤ) (p : RxPass) : RadioRx → Option RxEnd → Prop
  | givesUp (h : s.givesUp start p.now = true) : Passes s start p s (some .silent)
  | fails (h : s.givesUp start p.now = false) (hread : p.read = .error) :
    Passes s start p s (some .failed)
  | gap (h : s.givesUp start p.now = false) (hread : p.read = .quiet) :
    Passes s start p s.discard none
  | feeds {b : Byte} (h : s.givesUp start p.now = false) (hread : p.read = .byte b) :
    Passes s start p { s with receiver := s.receiver.feedByte b,bytes := s.bytes ++ [b] }
      ((radioDeframerNext (s.receiver.push b).deframer).1.map .packet)

theorem pass_passes (h : s.pass start p = (t,ending)) : Passes s start p t ending := by
  unfold pass at h
  split_ifs at h with hup
  · cases h
    exact .givesUp hup
  · have hup := Bool.eq_false_iff.mpr hup
    split at h
    · cases h
      exact .fails hup ‹_›
    · cases h
      exact .gap hup ‹_›
    · cases h
      exact .feeds hup ‹_›

/-- When the loop goes on, the deframer has nothing more to return. -/
theorem Passes.settled (h : Passes s start p t none) : t.receiver.deframer.Settled := by
  generalize hend : (none : Option RxEnd) = ending at h
  cases h with
  | givesUp | fails => cases hend
  | gap => exact RadioDeframer.settled_reset
  | feeds => exact RadioDeframer.settled_next (Option.map_eq_none_iff.mp hend.symm)

/-- The first read of the loop comes to nothing while the deframer holds a packet. -/
def LosesPacket (s : RadioRx) (start : ℤ) : List RxPass → Prop
  | [] => False
  | p :: _ => s.givesUp start p.now = false ∧ p.read = .quiet ∧ ¬s.receiver.deframer.Settled

theorem LosesPacket.not_settled {passes : List RxPass} (h : s.LosesPacket start passes) :
    ¬s.receiver.deframer.Settled := by
  cases passes with
  | nil => exact h.elim
  | cons p passes => exact h.2.2

/-- What a pass throws away. -/
theorem Passes.earlier (h : Passes s start p t ending) :
    (t.earlier = s.earlier ∧ ¬(s.givesUp start p.now = false ∧ p.read = .quiet)) ∨
      (t.earlier = s.earlier ++ [⟨s.bytes,s.receiver.packets,s.receiver.deframer⟩] ∧
        s.givesUp start p.now = false ∧ p.read = .quiet ∧ ending = none) := by
  cases h with
  | givesUp h => exact .inl ⟨rfl,by simp [h]⟩
  | fails h hread => exact .inl ⟨rfl,by simp [hread]⟩
  | gap h hread => exact .inr ⟨rfl,h,hread,rfl⟩
  | feeds h hread => exact .inl ⟨rfl,by simp [hread]⟩

theorem receiveLoop_cons (s : RadioRx) (start : ℤ) (p : RxPass) (passes : List RxPass) :
    ∃ t ending,Passes s start p t ending ∧
      s.receiveLoop start (p :: passes) =
        match ending with
        | some e => (t,some e)
        | none => t.receiveLoop start passes := by
  refine ⟨(s.pass start p).1,(s.pass start p).2,pass_passes rfl,?_⟩
  rw [receiveLoop]
  split <;> rename_i h <;> rw [h]

/-- The loop throws away no packet unless it loses one with its first read. -/
theorem receiveLoop_discards (s : RadioRx) (start : ℤ) (passes : List RxPass) :
    ∃ more,(s.receiveLoop start passes).1.earlier = s.earlier ++ more ∧
      ((∀ r ∈ more,r.discarded.Settled) ↔ ¬s.LosesPacket start passes) := by
  induction passes generalizing s with
  | nil => exact ⟨[],(List.append_nil _).symm,iff_of_true nofun id⟩
  | cons p passes ih =>
    obtain ⟨t,ending,hpass,hloop⟩ := s.receiveLoop_cons start p passes
    rw [hloop]
    obtain ⟨hsame,hno⟩ | ⟨hmore,hup,hread,rfl⟩ := hpass.earlier
    · have hkeeps : ¬s.LosesPacket start (p :: passes) := fun h => hno ⟨h.1,h.2.1⟩
      cases ending with
      | some e => exact ⟨[],by rw [hsame,List.append_nil],iff_of_true nofun hkeeps⟩
      | none =>
        obtain ⟨more,hearlier,hiff⟩ := ih t
        refine ⟨more,by rw [hearlier,hsame],iff_of_true ?_ hkeeps⟩
        exact hiff.mpr fun h => h.not_settled hpass.settled
    · obtain ⟨more,hearlier,hiff⟩ := ih t
      have hrest := hiff.mpr fun h => h.not_settled hpass.settled
      refine ⟨⟨s.bytes,s.receiver.packets,s.receiver.deframer⟩ :: more,?_,?_⟩
      · rw [hearlier,hmore,List.append_assoc,List.singleton_append]
      · rw [List.forall_mem_cons]
        simp only [LosesPacket,hup,hread,true_and,not_not]
        exact and_iff_left hrest

/-! ### Runs of calls -/

/-- The packets taken so far. -/
def found (s : RadioRx) : List (List Byte) :=
  s.earlier.flatMap Reception.packets ++ s.receiver.packets

/-- The packet that a loop ends with. -/
def taken : Option RxEnd → List (List Byte)
  | some (.packet packet) => [packet]
  | _ => []

/-- What a call returned for a packet: its payload, unless the caller's buffer is too small. -/
def Delivers (r : Returned) : Prop :=
  ∃ view,lgCcsdsProfileParse r.packet = .ok view ∧
    r.result = if view.payloadLength > r.maxLength.toNat then ⟨-1,[]⟩
      else ⟨view.payloadLength,view.payload⟩

/-- The packets taken are those of the reference scan of each run of bytes, as far as the deframer
does not hold them. -/
structure Keeps (s : RadioRx) : Prop where
  tracks : s.receiver.Tracks s.bytes
  earlier : ∀ r ∈ s.earlier,r.discarded.Settled ∧ r.packets = referenceScan r.bytes 0
  fresh : s.ready = false → s.receiver.deframer = radioDeframerReset

theorem keeps_initial : initial.Keeps := ⟨Receiver.tracks_reset,nofun,fun _ => rfl⟩

theorem Passes.keeps (hp : Passes s start p t ending) (h : s.Keeps) (hready : s.ready = true)
    (hgap : s.givesUp start p.now = false → p.read = .quiet → s.receiver.deframer.Settled) :
    t.Keeps ∧ t.ready = true := by
  cases hp with
  | givesUp | fails => exact ⟨h,hready⟩
  | gap hup hread =>
    have hsettled := hgap hup hread
    have hempty : 0 < radioMaxPacketSize := by decide
    refine ⟨⟨⟨hempty,fun _ => rfl⟩,?_,fun _ => rfl⟩,hready⟩
    intro r hr
    rcases List.mem_append.mp hr with hr | hr
    · exact h.earlier r hr
    · obtain rfl := List.mem_singleton.mp hr
      refine ⟨hsettled,?_⟩
      have hscan := h.tracks.scan []
      rw [List.append_nil,List.append_nil,hsettled.scan,List.append_nil] at hscan
      rw [referenceScan_eq_scan,List.drop_zero]
      exact hscan
  | feeds hup hread =>
    refine ⟨⟨Receiver.tracks_feedByte h.tracks _,h.earlier,fun hunready => ?_⟩,hready⟩
    exact absurd (hready.symm.trans hunready) (by decide)

theorem Passes.found (hp : Passes s start p t ending) :
    t.found = s.found ++ taken ending ∧ t.returned = s.returned := by
  cases hp with
  | givesUp | fails => exact ⟨(List.append_nil _).symm,rfl⟩
  | gap =>
    refine ⟨?_,rfl⟩
    simp only [RadioRx.found,discard,List.flatMap_append,List.flatMap_singleton,taken,
      List.append_nil]
  | @feeds b =>
    refine ⟨?_,rfl⟩
    have htaken : taken ((radioDeframerNext (s.receiver.push b).deframer).1.map .packet) =
        (radioDeframerNext (s.receiver.push b).deframer).1.toList := by
      cases (radioDeframerNext (s.receiver.push b).deframer).1 <;> rfl
    rw [htaken]
    exact (List.append_assoc _ _ _).symm

theorem receiveLoop_keeps (h : s.Keeps) (hready : s.ready = true) {passes : List RxPass}
    (hlose : ¬s.LosesPacket start passes) :
    (s.receiveLoop start passes).1.Keeps := by
  induction passes generalizing s with
  | nil => exact h
  | cons p passes ih =>
    obtain ⟨t,ending,hpass,hloop⟩ := s.receiveLoop_cons start p passes
    have ht := hpass.keeps h hready fun hup hread => by
      by_contra hheld
      exact hlose ⟨hup,hread,hheld⟩
    rw [hloop]
    cases ending with
    | some e => exact ht.1
    | none => exact ih ht.1 ht.2 fun hl => hl.not_settled hpass.settled

theorem receiveLoop_found (s : RadioRx) (start : ℤ) (passes : List RxPass) :
    (s.receiveLoop start passes).1.found = s.found ++ taken (s.receiveLoop start passes).2 ∧
      (s.receiveLoop start passes).1.returned = s.returned := by
  induction passes generalizing s with
  | nil => exact ⟨(List.append_nil _).symm,rfl⟩
  | cons p passes ih =>
    obtain ⟨t,ending,hpass,hloop⟩ := s.receiveLoop_cons start p passes
    obtain ⟨hfound,hreturned⟩ := hpass.found
    rw [hloop]
    cases ending with
    | some e => exact ⟨hfound,hreturned⟩
    | none =>
      obtain ⟨hfound',hreturned'⟩ := ih t
      have hnone : taken none = [] := rfl
      rw [hnone,List.append_nil] at hfound
      exact ⟨by rw [hfound',hfound],hreturned'.trans hreturned⟩

theorem Passes.ends (hp : Passes s start p t ending) :
    (∀ packet,ending = some (.packet packet) → ∃ view,lgCcsdsProfileParse packet = .ok view) ∧
      (ending = some .failed → p.read = .error) := by
  cases hp with
  | givesUp | gap => exact ⟨nofun,nofun⟩
  | fails hup hread => exact ⟨nofun,fun _ => hread⟩
  | feeds =>
    refine ⟨fun packet h => ?_,fun h => ?_⟩
    · obtain ⟨packet',hnext,heq⟩ := Option.map_eq_some_iff.mp h
      cases heq
      exact nextLoop_packet hnext
    · obtain ⟨packet',-,heq⟩ := Option.map_eq_some_iff.mp h
      cases heq

/-- The loop ends with a packet that parses, and it fails only if a read does. -/
theorem receiveLoop_ending (s : RadioRx) (start : ℤ) (passes : List RxPass) :
    (∀ packet,(s.receiveLoop start passes).2 = some (.packet packet) →
        ∃ view,lgCcsdsProfileParse packet = .ok view) ∧
      ((s.receiveLoop start passes).2 = some .failed → ∃ p ∈ passes,p.read = .error) := by
  induction passes generalizing s with
  | nil => exact ⟨nofun,nofun⟩
  | cons p passes ih =>
    obtain ⟨t,ending,hpass,hloop⟩ := s.receiveLoop_cons start p passes
    rw [hloop]
    cases ending with
    | some e =>
      obtain ⟨hpacket,hfailed⟩ := hpass.ends
      exact ⟨hpacket,fun h => ⟨p,List.mem_cons_self,hfailed h⟩⟩
    | none =>
      obtain ⟨hpacket,hfailed⟩ := ih t
      refine ⟨hpacket,fun h => ?_⟩
      obtain ⟨q,hq,hread⟩ := hfailed h
      exact ⟨q,List.mem_cons_of_mem _ hq,hread⟩

/-- The call comes to the loop. -/
def Enters (s : RadioRx) (call : ReceiveCall) : Prop :=
  call.hasBuffer = true ∧ call.maxLength ≠ 0 ∧ (s.ensureReady call.opened).ready = true

/-- No read of the call fails, and if it comes to the loop it does not lose a packet with the first
read. -/
def Allows (s : RadioRx) (call : ReceiveCall) : Prop :=
  (∀ p ∈ call.passes,p.read ≠ .error) ∧
    (s.Enters call → ¬(s.ensureReady call.opened).LosesPacket call.start call.passes)

/-- What holds between calls: all packets that were found were returned. -/
structure Sound (s : RadioRx) : Prop where
  keeps : s.Keeps
  found : s.found = s.returned.map Returned.packet
  delivers : ∀ r ∈ s.returned,Delivers r

theorem sound_initial : initial.Sound := ⟨keeps_initial,rfl,nofun⟩

/-- Before the first call that opens the radio the deframer is empty, so that opening it loses
nothing. -/
theorem Sound.ensureReady (h : s.Sound) (opened : Option Bool) : (s.ensureReady opened).Sound := by
  unfold RadioRx.ensureReady
  split_ifs with hready
  · exact h
  · have hfresh := h.keeps.fresh (Bool.eq_false_iff.mpr hready)
    cases opened with
    | none => exact h
    | some ok =>
      have hsame : { s.receiver with deframer := radioDeframerReset } = s.receiver := by
        rw [← hfresh]
      dsimp only
      rw [hsame]
      exact ⟨⟨h.keeps.tracks,h.keeps.earlier,fun _ => hfresh⟩,h.found,h.delivers⟩

theorem Sound.receive (h : s.Sound) {call : ReceiveCall} (hallows : s.Allows call)
    {result : RxResult} (hcall : s.radioReceive call = some (t,result)) : t.Sound := by
  unfold radioReceive at hcall
  dsimp only at hcall
  split_ifs at hcall with hargs hready
  · cases hcall
    exact h
  · cases hcall
    exact h.ensureReady call.opened
  have hready : (s.ensureReady call.opened).ready = true := Bool.not_eq_false _ ▸ hready
  have hs := h.ensureReady call.opened
  have henters : s.Enters call := by
    simp only [not_or,Bool.not_eq_false] at hargs
    exact ⟨hargs.1,hargs.2,hready⟩
  have hkeeps := receiveLoop_keeps hs.keeps hready (hallows.2 henters)
  obtain ⟨hfound,hreturned⟩ := receiveLoop_found (s.ensureReady call.opened) call.start call.passes
  obtain ⟨hpacket,hfailed⟩ := receiveLoop_ending (s.ensureReady call.opened) call.start call.passes
  rw [hs.found] at hfound
  -- the loop ends with a UART error, which is excluded, without a packet, or with one
  split at hcall
  · cases hcall
  · rename_i u hloop
    rw [hloop] at hfailed
    obtain ⟨p,hp,hread⟩ := hfailed rfl
    exact absurd hread (hallows.1 p hp)
  · rename_i u hloop
    rw [hloop] at hkeeps hfound hreturned
    cases hcall
    refine ⟨hkeeps,?_,?_⟩
    · rw [hreturned]
      exact hfound.trans (List.append_nil _)
    · rw [hreturned]
      exact hs.delivers
  · rename_i u packet hloop
    rw [hloop] at hkeeps hfound hreturned hpacket
    cases hcall
    obtain ⟨view,hview⟩ := hpacket packet rfl
    have hdelivers : Delivers ⟨packet,call.maxLength,receiveResult packet call.maxLength⟩ :=
      ⟨view,hview,by rw [receiveResult,hview]⟩
    refine ⟨⟨hkeeps.tracks,hkeeps.earlier,hkeeps.fresh⟩,?_,?_⟩
    · rw [hreturned,List.map_append]
      exact hfound
    · rw [hreturned]
      intro r hr
      rcases List.mem_append.mp hr with hr | hr
      · exact hs.delivers r hr
      · obtain rfl := List.mem_singleton.mp hr
        exact hdelivers

theorem Sound.step (h : s.Sound) {call : ReceiveCall} (hallows : s.Allows call)
    (hstep : s.step call = some t) : t.Sound := by
  obtain ⟨⟨u,result⟩,hcall,rfl⟩ := Option.map_eq_some_iff.mp hstep
  exact h.receive hallows hcall

end RadioRx

/-- The deframer with the packets that were taken since the last gap. -/
theorem Receiver.Tracks.drain {r : Receiver} {s : List Byte} (h : r.Tracks s) :
    r.drain.packets = referenceScan s 0 := by
  obtain ⟨⟨k,hk⟩,hw⟩ := Receiver.drain_eq_iterate r
  have hscan := Receiver.scan_iterate r k []
  rw [← hk,h.scan,List.append_nil,List.append_nil,scan_wait _ hw,List.append_nil] at hscan
  rw [referenceScan_eq_scan,List.drop_zero]
  exact hscan

/-- A loop throws away a packet exactly if its first read comes to nothing while the deframer holds
one. In a run of calls without such reads, nothing that is thrown away holds a packet, so the
packets of each run of bytes up to a gap are those of its reference scan, the deframer holds those
of the last run that were not taken, and every packet taken was returned by a call. -/
theorem receive_loses_packet_iff (s : RadioRx) (start : ℤ) (passes : List RxPass) :
    (∃ more,(s.receiveLoop start passes).1.earlier = s.earlier ++ more ∧
      ((∀ r ∈ more,(radioDeframerNext r.discarded).1 = none) ↔ ¬s.LosesPacket start passes)) ∧
    ∀ (calls : List ReceiveCall) (t : RadioRx),
      (∀ pre call post u,calls = pre ++ call :: post →
        run RadioRx.step .initial pre = some u → u.Allows call) →
      run RadioRx.step .initial calls = some t →
      (∀ r ∈ t.earlier,(radioDeframerNext r.discarded).1 = none ∧
        r.packets = referenceScan r.bytes 0) ∧
      t.receiver.drain.packets = referenceScan t.bytes 0 ∧
      t.earlier.flatMap Reception.packets ++ t.receiver.packets =
        t.returned.map Returned.packet ∧
      ∀ r ∈ t.returned,∃ view,lgCcsdsProfileParse r.packet = .ok view ∧
        r.result = if view.payloadLength > r.maxLength.toNat then ⟨-1,[]⟩
          else ⟨view.payloadLength,view.payload⟩ := by
  refine ⟨s.receiveLoop_discards start passes,fun calls t hallows hrun => ?_⟩
  have ht : t.Sound := run_invariant_of
    (fun u call u' hu ha hstep => RadioRx.Sound.step hu ha hstep) RadioRx.sound_initial hallows hrun
  exact ⟨ht.keeps.earlier,ht.keeps.tracks.drain,ht.found,ht.delivers⟩

/-- A command of one byte. -/
def onePacket : List Byte := (lgCcsdsProfileBuild .command 0 1 none [1] 240).toOption.getD []

/-- Six bytes that look like the header of a packet of 60, and two packets. -/
def noisyStream : List Byte := [0x08,0,0,0,0,53] ++ onePacket ++ onePacket

def noisyCall : ReceiveCall := ⟨true,255,some true,0,noisyStream.map fun b => ⟨0,.byte b⟩⟩

/-- The line is quiet from the first read on. -/
def quietCall : ReceiveCall := ⟨true,255,some true,0,[⟨0,.quiet⟩,⟨1000,.quiet⟩]⟩

theorem noisy_call_keeps_packets : ∃ s,run RadioRx.step .initial [noisyCall] = some s ∧
    s.receiver.drain.packets = referenceScan s.bytes 0 := by
  obtain ⟨s,hs⟩ := Option.isSome_iff_exists.mp
    (show (run RadioRx.step .initial [noisyCall]).isSome = true by decide +kernel)
  refine ⟨s,hs,((receive_loses_packet_iff s 0 []).2 [noisyCall] s ?_ hs).2.1⟩
  intro pre call post t hsplit hpre
  obtain ⟨rfl,rfl,-⟩ : pre = [] ∧ noisyCall = call ∧ post = [] := by
    cases pre <;> simp_all
  obtain rfl := Option.some.inj hpre
  refine ⟨?_,fun _ hloses => hloses.not_settled RadioDeframer.settled_reset⟩
  intro p hp
  obtain ⟨b,-,rfl⟩ := List.mem_map.mp hp
  nofun

theorem noisyStream_scan : referenceScan noisyStream 0 = [onePacket,onePacket] := by
  have hskip : ∀ k < 6,radioJudge.verdict (noisyStream.drop k) = .skip := by decide +kernel
  have hscan : ∀ k ≤ 6,scan radioJudge noisyStream = scan radioJudge (noisyStream.drop k) := by
    intro k hk
    induction k with
    | zero => rfl
    | succ k ih => rw [ih (by omega),scan_skip _ (hskip k (by omega)),List.tail_drop]
  have hfirst : radioJudge.verdict (noisyStream.drop 6) = .take 27 := by decide +kernel
  have hsecond : radioJudge.verdict ((noisyStream.drop 6).drop 27) = .take 27 := by decide +kernel
  have hend : radioJudge.verdict (((noisyStream.drop 6).drop 27).drop 27) = .wait := by
    decide +kernel
  rw [referenceScan_eq_scan,List.drop_zero,hscan 6 le_rfl,scan_take _ hfirst,scan_take _ hsecond,
    scan_wait _ hend]
  decide +kernel

/-- The first call returns the first packet, and the second call throws the other one away. -/
theorem quiet_line_loses_packet :
    (∃ s,run RadioRx.step .initial [noisyCall,quietCall] = some s ∧
      s.earlier.map (fun r => (r.bytes,r.packets,(radioDeframerNext r.discarded).1)) =
        [(noisyStream,[onePacket],some onePacket)]) ∧
      referenceScan noisyStream 0 = [onePacket,onePacket] := by
  refine ⟨?_,noisyStream_scan⟩
  have hrun : (run RadioRx.step .initial [noisyCall,quietCall]).map (fun s =>
      s.earlier.map fun r => (r.bytes,r.packets,(radioDeframerNext r.discarded).1)) =
        some [(noisyStream,[onePacket],some onePacket)] := by decide +kernel
  obtain ⟨s,hs,hearlier⟩ := Option.map_eq_some_iff.mp hrun
  exact ⟨s,hs,hearlier⟩

end FlightSoftware.Radio
