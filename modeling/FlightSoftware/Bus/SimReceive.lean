import FlightSoftware.Bus.SimStream

/-!
# Receiving on the simulated bus

`comms_bus_receive` reads one frame from the slave's connection, or from the first of the
master's connections that has one. The master closes a connection whose bytes are malformed.
The slave returns the error and keeps both the connection and the bytes, so that every later
call finds them again.
-/

namespace FlightSoftware.Bus
open BigEndian Run

/-! ### The code -/

/-- An entry of `connections_fd`, `live` unless it is -1, with that of `master_leftover`. -/
structure MasterSlot where
  live : Bool
  connection : Connection
  deriving DecidableEq

/-- `mark_connection_dead` -/
def MasterSlot.markDead (s : MasterSlot) : MasterSlot := { s with live := false }

inductive BusReceipt where
  | received (src : Byte) (payload : List Byte)
  | timeout
  | error
  deriving DecidableEq

/-- The end of `comms_bus_receive`, once a frame has been found. -/
def deliverFrame (frame : Frame) (maxLength : BitVec 16) : BusReceipt :=
  if frame.length > maxLength then .error
  else .received frame.srcAddr (frame.payload.take frame.length.toNat)

/-- `comms_bus_receive` on the slave. -/
def receiveOnSlave (myAddress : Byte) (c : Connection) (call : ReceiveCall)
    (maxLength : BitVec 16) : Option (BusReceipt × Reception) :=
  (receiveOneFrame c call).map fun r =>
    (match r.result with
      | .timeout => .timeout
      | .error => .error
      | .frame frame =>
        if frame.destAddr ≠ myAddress then .timeout else deliverFrame frame maxLength,r)

/-- The frame found for the master, the slots afterwards and the receptions slot by slot. -/
structure SlotsReception where
  found : Option Frame
  slots : List MasterSlot
  receptions : List (Option Reception)
  deriving DecidableEq

def SlotsReception.cons (s : MasterSlot) (r : Option Reception) (rest : SlotsReception) :
    SlotsReception :=
  ⟨rest.found,s :: rest.slots,r :: rest.receptions⟩

/-- The loop of `comms_bus_receive` over the slots of the master, with one call of
`receive_one_frame` for each. -/
def receiveSlots (myAddress : Byte) : List MasterSlot → List ReceiveCall → Option SlotsReception
  | [],_ => some ⟨none,[],[]⟩
  | _ :: _,[] => none
  | s :: slots,call :: calls =>
    if !s.live then (receiveSlots myAddress slots calls).map (.cons s none)
    else
      (receiveOneFrame s.connection call).bind fun r =>
        let s' : MasterSlot := { s with connection := r.connection }
        match r.result with
        | .timeout => (receiveSlots myAddress slots calls).map (.cons s' (some r))
        | .error => (receiveSlots myAddress slots calls).map (.cons s'.markDead (some r))
        | .frame frame =>
          if frame.destAddr ≠ myAddress then
            (receiveSlots myAddress slots calls).map (.cons s' (some r))
          else some ⟨some frame,s' :: slots,some r :: slots.map fun _ => none⟩

/-- `comms_bus_receive` on the master. -/
def receiveOnMaster (myAddress : Byte) (slots : List MasterSlot) (calls : List ReceiveCall)
    (maxLength : BitVec 16) : Option (BusReceipt × SlotsReception) :=
  if slots.all (!·.live) then some (.timeout,⟨none,slots,[]⟩)
  else
    (receiveSlots myAddress slots calls).map fun r =>
      (match r.found with
        | none => .timeout
        | some frame => deliverFrame frame maxLength,r)

/-! ### Runs -/

inductive SimBus where
  | slave (connection : Connection)
  | master (slots : List MasterSlot)
  deriving DecidableEq

inductive SimBusAction where
  | receive (calls : List ReceiveCall) (maxLength : BitVec 16)
  | accept (stream : List Byte)
  deriving DecidableEq

/-- The bus after an action, what `comms_bus_receive` returned, and the receptions on each of
the connections. -/
structure SimBusStep where
  bus : SimBus
  receipt : Option BusReceipt
  receptions : List (Option Reception)
  deriving DecidableEq

def SimBus.act (myAddress : Byte) : SimBus → SimBusAction → Option SimBusStep
  | .slave c,.receive (call :: _) maxLength =>
    (receiveOnSlave myAddress c call maxLength).map fun r =>
      ⟨.slave r.2.connection,some r.1,[some r.2]⟩
  | .slave _,_ => none
  | .master slots,.receive calls maxLength =>
    (receiveOnMaster myAddress slots calls maxLength).map fun r =>
      ⟨.master r.2.slots,some r.1,r.2.receptions⟩
  | .master slots,.accept stream =>
    some ⟨.master (slots ++ [⟨true,⟨[],stream⟩⟩]),none,[]⟩

def SimBus.steps (myAddress : Byte) : SimBus → List SimBusAction → Option (List SimBusStep)
  | _,[] => some []
  | b,a :: as =>
    (b.act myAddress a).bind fun step => (step.bus.steps myAddress as).map (step :: ·)

/-- The connection that the next call uses under an index, unless it is closed. -/
def SimBus.openConnection : SimBus → ℕ → Option Connection
  | .slave c,0 => some c
  | .slave _,_+1 => none
  | .master slots,i => (slots[i]?).bind fun s => if s.live then some s.connection else none

/-- Where malformed bytes made a call fail, the connection is closed afterwards or a byte of
them is gone. -/
def SimBusStep.Handled (step : SimBusStep) : Prop :=
  ∀ i r,step.receptions[i]? = some (some r) → r.result = .error →
    inspectLeftover r.connection.leftover = .malformed →
    ∀ c,step.bus.openConnection i = some c → c.leftover.length < r.connection.leftover.length

inductive BusRole where
  | master
  | slave (stream : List Byte)
  deriving DecidableEq

/-- The bus initialized; a slave has connected, and the master will send it the stream. -/
def BusRole.boot : BusRole → SimBus
  | .master => .master []
  | .slave stream => .slave ⟨[],stream⟩

/-- Behind some frames the stream has bytes that are malformed as far as the buffer holds them. -/
def StreamMalformed (stream : List Byte) : Prop :=
  ∃ (frames : List Frame) (rest : List Byte) (n : ℕ),(∀ frame ∈ frames,frame.Fits) ∧
    stream = frames.flatMap Frame.wire ++ rest ∧ n ≤ leftoverBufSize ∧
    inspectLeftover (rest.take n) = .malformed

/-! ### The master -/

/-- Every slot whose call failed is dead afterwards. -/
def SlotsReception.FailedDead (out : SlotsReception) : Prop :=
  ∀ (i : ℕ) (r : Reception),out.receptions[i]? = some (some r) → r.result = .error →
    ∃ s : MasterSlot,out.slots[i]? = some s ∧ s.live = false

theorem receiveSlots_failedDead {myAddress : Byte} {slots : List MasterSlot}
    {calls : List ReceiveCall} {out : SlotsReception}
    (h : receiveSlots myAddress slots calls = some out) : out.FailedDead := by
  induction slots generalizing calls out with
  | nil =>
    obtain rfl := Option.some.inj h
    intro i r hr
    cases hr
  | cons s slots ih =>
    cases calls with
    | nil => cases h
    | cons call calls =>
      have hcons : ∀ (s' : MasterSlot) (r : Option Reception),
          (∀ r',r = some r' → r'.result = .error → s'.live = false) →
          (receiveSlots myAddress slots calls).map (.cons s' r) = some out →
          out.FailedDead := by
        intro s' r hfirst hmap i r' hr' herror
        obtain ⟨rest,hrest,rfl⟩ := Option.map_eq_some_iff.mp hmap
        cases i with
        | zero => exact ⟨s',rfl,hfirst r' (Option.some.inj hr') herror⟩
        | succ i => exact ih hrest i r' hr' herror
      rw [receiveSlots] at h
      split at h
      · refine hcons s none (fun r' hr' => ?_) h
        cases hr'
      · obtain ⟨r,hr,hnext⟩ := Option.bind_eq_some_iff.mp h
        dsimp only at hnext
        split at hnext
        · next htimeout =>
          refine hcons _ _ (fun r' hr' herror => ?_) hnext
          rw [← Option.some.inj hr',htimeout] at herror
          cases herror
        · exact hcons _ _ (fun _ _ _ => rfl) hnext
        · next frame hframe =>
          split at hnext
          · refine hcons _ _ (fun r' hr' herror => ?_) hnext
            rw [← Option.some.inj hr',hframe] at herror
            cases herror
          · obtain rfl := Option.some.inj hnext
            intro i r' hr' herror
            cases i with
            | zero =>
              rw [← Option.some.inj (Option.some.inj hr'),hframe] at herror
              cases herror
            | succ i =>
              change (slots.map fun _ => none)[i]? = some (some r') at hr'
              rw [List.getElem?_map] at hr'
              obtain ⟨_,-,hnone⟩ := Option.map_eq_some_iff.mp hr'
              cases hnone

theorem handled_on_master {myAddress : Byte} {slots : List MasterSlot} {a : SimBusAction}
    {step : SimBusStep} (h : (SimBus.master slots).act myAddress a = some step) :
    step.Handled ∧ ∃ slots',step.bus = .master slots' := by
  cases a with
  | accept stream =>
    obtain rfl := Option.some.inj h
    refine ⟨fun i r hr => ?_,_,rfl⟩
    cases hr
  | receive calls maxLength =>
    obtain ⟨out,hout,rfl⟩ := Option.map_eq_some_iff.mp h
    refine ⟨?_,_,rfl⟩
    rw [receiveOnMaster] at hout
    split at hout
    · obtain rfl := Option.some.inj hout
      intro i r hr
      cases hr
    · obtain ⟨received,hreceived,rfl⟩ := Option.map_eq_some_iff.mp hout
      intro i r hr herror _ c hopen
      obtain ⟨s,hs,hdead⟩ := receiveSlots_failedDead hreceived i r hr herror
      change (received.slots[i]?).bind _ = some c at hopen
      rw [hs] at hopen
      change (if s.live then some s.connection else none) = some c at hopen
      rw [hdead] at hopen
      cases hopen

/-! ### The slave -/

/-- A frame found in the buffer is the front of its bytes. -/
theorem inspectLeftover_frame {leftover rest : List Byte} {frame : Frame}
    (h : inspectLeftover leftover = .frame frame rest) :
    frame.Fits ∧ leftover = frame.wire ++ rest := by
  rw [inspectLeftover] at h
  split at h
  · cases h
  split at h
  · cases h
  split at h
  · cases h
  · split at h
    · cases h
    · next hframe =>
      obtain ⟨rfl,rfl⟩ := Inspection.frame.inj h
      refine ⟨frameDeserialize_fits hframe,?_⟩
      have hwire := (frameSerialize_eq_some (frameSerialize_of_deserialize hframe).1).2
      rw [← hwire,List.take_append_drop]

/-- What a call leaves of a stream without malformed bytes, and that it does not meet any. -/
theorem sound_stream_call {c : Connection} {call : ReceiveCall} {r : Reception}
    (hfits : c.leftover.length ≤ leftoverBufSize)
    (hsound : ¬StreamMalformed (c.leftover ++ c.pending)) (h : receiveOneFrame c call = some r) :
    ¬StreamMalformed (r.connection.leftover ++ r.connection.pending) ∧
      inspectLeftover r.connection.leftover ≠ .malformed := by
  have hfits' := (receiveOneFrame_fits hfits h).1
  have hsame : ¬StreamMalformed (r.connection.leftover ++ r.connection.pending) := by
    rw [receiveOneFrame] at h
    split at h
    · obtain rfl := Option.some.inj h
      exact hsound
    · obtain ⟨bytes,hfrom⟩ := receiveLoop_from h
      cases hresult : r.result with
      | frame frame =>
        obtain ⟨hframe,hsplit⟩ := inspectLeftover_frame (hfrom.frame frame hresult)
        rintro ⟨frames,rest,n,hframes,hstream,hn,hmalformed⟩
        refine hsound ⟨frame :: frames,rest,n,?_,?_,hn,hmalformed⟩
        · intro f hf
          obtain rfl | hf := List.mem_cons.mp hf
          · exact hframe
          · exact hframes f hf
        · rw [hfrom.pending,← List.append_assoc,hsplit,List.append_assoc,hstream,
            List.flatMap_cons,List.append_assoc]
      | timeout =>
        rwa [hfrom.kept (.inl hresult),List.append_assoc,← hfrom.pending]
      | error =>
        rwa [hfrom.kept (.inr hresult),List.append_assoc,← hfrom.pending]
  refine ⟨hsame,fun hmalformed => hsame ?_⟩
  refine ⟨[],r.connection.leftover ++ r.connection.pending,r.connection.leftover.length,
    fun _ hf => absurd hf List.not_mem_nil,rfl,hfits',?_⟩
  rw [List.take_left,hmalformed]

theorem handled_on_slave {myAddress : Byte} {c : Connection} {a : SimBusAction}
    {step : SimBusStep} (hfits : c.leftover.length ≤ leftoverBufSize)
    (hsound : ¬StreamMalformed (c.leftover ++ c.pending))
    (h : (SimBus.slave c).act myAddress a = some step) :
    step.Handled ∧ ∃ c',step.bus = .slave c' ∧ c'.leftover.length ≤ leftoverBufSize ∧
      ¬StreamMalformed (c'.leftover ++ c'.pending) := by
  cases a with
  | accept stream => cases h
  | receive calls maxLength =>
    cases calls with
    | nil => cases h
    | cons call calls =>
      obtain ⟨out,hout,rfl⟩ := Option.map_eq_some_iff.mp h
      obtain ⟨r,hr,rfl⟩ := Option.map_eq_some_iff.mp hout
      obtain ⟨hsound',hnot⟩ := sound_stream_call hfits hsound hr
      refine ⟨?_,_,rfl,(receiveOneFrame_fits hfits hr).1,hsound'⟩
      intro i r' hr' _ hmalformed
      cases i with
      | zero =>
        rw [← Option.some.inj (Option.some.inj hr')] at hmalformed
        exact absurd hmalformed hnot
      | succ i => cases hr'

/-! ### Every run -/

theorem SimBus.steps_cons_eq_some {myAddress : Byte} {b : SimBus} {a : SimBusAction}
    {as : List SimBusAction} {steps : List SimBusStep}
    (h : b.steps myAddress (a :: as) = some steps) :
    ∃ step rest,b.act myAddress a = some step ∧ step.bus.steps myAddress as = some rest ∧
      steps = step :: rest := by
  rw [SimBus.steps] at h
  obtain ⟨step,hstep,hmap⟩ := Option.bind_eq_some_iff.mp h
  obtain ⟨rest,hrest,rfl⟩ := Option.map_eq_some_iff.mp hmap
  exact ⟨step,rest,hstep,hrest,rfl⟩

theorem SimBus.steps_cons {myAddress : Byte} {b : SimBus} {a : SimBusAction}
    {as : List SimBusAction} {step : SimBusStep} {rest : List SimBusStep}
    (hact : b.act myAddress a = some step) (hrest : step.bus.steps myAddress as = some rest) :
    b.steps myAddress (a :: as) = some (step :: rest) := by
  rw [SimBus.steps,hact,Option.bind_some,hrest]
  rfl

/-- The bus is the master, or its stream has no malformed bytes to come. -/
def SimBus.Sound : SimBus → Prop
  | .master _ => True
  | .slave c => c.leftover.length ≤ leftoverBufSize ∧ ¬StreamMalformed (c.leftover ++ c.pending)

theorem SimBus.Sound.step {myAddress : Byte} {b : SimBus} {a : SimBusAction} {step : SimBusStep}
    (hsound : b.Sound) (h : b.act myAddress a = some step) : step.Handled ∧ step.bus.Sound := by
  cases b with
  | master slots =>
    obtain ⟨hhandled,slots',hslots⟩ := handled_on_master h
    rw [hslots]
    exact ⟨hhandled,trivial⟩
  | slave c =>
    obtain ⟨hhandled,c',hc,hfits,hstream⟩ := handled_on_slave hsound.1 hsound.2 h
    rw [hc]
    exact ⟨hhandled,hfits,hstream⟩

theorem SimBus.Sound.run {myAddress : Byte} {b : SimBus} {as : List SimBusAction}
    {steps : List SimBusStep} (hsound : b.Sound) (h : b.steps myAddress as = some steps) :
    ∀ step ∈ steps,step.Handled := by
  induction as generalizing b steps with
  | nil =>
    obtain rfl := Option.some.inj h
    exact fun _ hmem => absurd hmem List.not_mem_nil
  | cons a as ih =>
    obtain ⟨step,rest,hstep,hrest,rfl⟩ := SimBus.steps_cons_eq_some h
    obtain ⟨hhandled,hnext⟩ := hsound.step hstep
    intro s hs
    obtain rfl | hs := List.mem_cons.mp hs
    · exact hhandled
    · exact ih hnext hrest s hs

/-! ### Where malformed bytes come -/

/-- On the slave malformed bytes in the buffer stay, and every call returns the error. -/
theorem slave_wedged (myAddress : Byte) {c : Connection} (call : ReceiveCall)
    (calls : List ReceiveCall) (maxLength : BitVec 16)
    (h : inspectLeftover c.leftover = .malformed) :
    (SimBus.slave c).act myAddress (.receive (call :: calls) maxLength) =
      some ⟨.slave c,some .error,[some ⟨.error,c,[]⟩]⟩ := by
  have hcall : receiveOneFrame c call = some ⟨.error,c,[]⟩ := by
    rw [receiveOneFrame]
    split
    · rfl
    · exact receiveLoop_malformed _ h
  rw [SimBus.act,receiveOnSlave,hcall]
  rfl

/-- One read into an empty buffer. -/
theorem receiveLoop_read {stream : List Byte} {n : ℕ} (hn : 0 < n) (hle : n ≤ leftoverBufSize)
    (hstream : stream ≠ []) (passes : List ReceivePass) :
    receiveLoop ⟨[],stream⟩ (.read 0 n :: passes) =
      (receiveLoop ⟨stream.take n,stream.drop n⟩ passes).map
        fun r => { r with asked := leftoverBufSize :: r.asked } := by
  have hmin : min n (leftoverBufSize-([] : List Byte).length) = n := min_eq_left hle
  have hempty : inspectLeftover (⟨[],stream⟩ : Connection).leftover = .incomplete := rfl
  have htake : stream.take n ≠ [] := fun hnil =>
    (List.take_eq_nil_iff.mp hnil).elim (fun hzero => hn.ne' hzero) hstream
  rw [receiveLoop.eq_def,hempty]
  simp only [hmin]
  rw [if_neg (fun hnone => hstream hnone.2),if_neg htake,List.nil_append]
  rfl

/-- One read of malformed bytes ends the reception with an error and leaves them buffered. -/
theorem receiveOneFrame_malformed {rest : List Byte} {n : ℕ} (hn : n ≤ leftoverBufSize)
    (hmalformed : inspectLeftover (rest.take n) = .malformed) :
    receiveOneFrame ⟨[],rest⟩ ⟨false,[.read 0 n]⟩ =
      some ⟨.error,⟨rest.take n,rest.drop n⟩,[leftoverBufSize]⟩ := by
  have hpos : 0 < n ∧ rest ≠ [] := by
    refine ⟨Nat.pos_of_ne_zero ?_,?_⟩
    · rintro rfl
      rw [List.take_zero] at hmalformed
      cases hmalformed
    · rintro rfl
      rw [List.take_nil] at hmalformed
      cases hmalformed
  change receiveLoop _ _ = _
  rw [receiveLoop_read hpos.1 hn hpos.2,
    receiveLoop_malformed (c := ⟨rest.take n,rest.drop n⟩) _ hmalformed]
  rfl

theorem inspectLeftover_wire {frame : Frame} (hframe : frame.Fits) :
    inspectLeftover frame.wire = .frame frame.trim [] := by
  have hone : ∀ f ∈ [frame],f.Fits := fun f hf => (List.mem_singleton.mp hf) ▸ hframe
  have hwire : frame.wire ++ [] = [frame].flatMap Frame.wire := by simp
  obtain ⟨-,hshort⟩ | ⟨f,rest,hf,-,hinspect,hrest⟩ := inspectLeftover_wires hone hwire
  · exact absurd (hshort frame rfl) (Nat.lt_irrefl _)
  · obtain rfl := Option.some.inj hf
    rw [hinspect,(List.append_eq_nil_iff.mp hrest).1]

/-- One read of a whole frame receives it. -/
theorem receiveOneFrame_wire {frame : Frame} (hframe : frame.Fits) (stream : List Byte) :
    receiveOneFrame ⟨[],frame.wire ++ stream⟩ ⟨false,[.read 0 frame.wire.length]⟩ =
      some ⟨.frame frame.trim,⟨[],stream⟩,[leftoverBufSize]⟩ := by
  have hwire := hframe.wire_length
  have hlen := hframe.length_le
  have hheader : frameHeaderSize = 4 := rfl
  have hmax : maxFramePayload = 264 := rfl
  have hsize : leftoverBufSize = 536 := rfl
  have hstream : frame.wire ++ stream ≠ [] := by
    intro hnil
    have hzero := congrArg List.length hnil
    rw [List.length_append,List.length_nil] at hzero
    omega
  change receiveLoop _ _ = _
  rw [receiveLoop_read (by omega) (by omega) hstream,List.take_left,List.drop_left,
    receiveLoop_frame (c := ⟨frame.wire,stream⟩) _ (inspectLeftover_wire hframe)]
  rfl

/-- A slave that reads its stream frame by frame comes to the malformed bytes. -/
theorem reaches_malformed (myAddress : Byte) {frames : List Frame} {rest : List Byte} {n : ℕ}
    (hframes : ∀ frame ∈ frames,frame.Fits) (hn : n ≤ leftoverBufSize)
    (hmalformed : inspectLeftover (rest.take n) = .malformed) :
    ∃ actions steps,
      (SimBus.slave ⟨[],frames.flatMap Frame.wire ++ rest⟩).steps myAddress actions =
        some steps ∧ ∃ step ∈ steps,¬step.Handled := by
  induction frames with
  | nil =>
    refine ⟨[.receive [⟨false,[.read 0 n]⟩] 0],[⟨.slave ⟨rest.take n,rest.drop n⟩,some .error,
      [some ⟨.error,⟨rest.take n,rest.drop n⟩,[leftoverBufSize]⟩]⟩],?_,_,List.mem_cons_self ..,?_⟩
    · rw [List.flatMap_nil,List.nil_append,SimBus.steps,SimBus.act,receiveOnSlave,
        receiveOneFrame_malformed hn hmalformed]
      rfl
    · intro hhandled
      exact absurd (hhandled 0 _ rfl rfl hmalformed _ rfl) (lt_irrefl _)
  | cons frame frames ih =>
    have hframe : frame.Fits := hframes frame (List.mem_cons_self ..)
    obtain ⟨actions,steps,hsteps,hbad⟩ := ih fun f hf => hframes f (List.mem_cons_of_mem _ hf)
    set stream := frames.flatMap Frame.wire ++ rest with hstream
    have hact : (SimBus.slave ⟨[],frame.wire ++ stream⟩).act myAddress
        (.receive [⟨false,[.read 0 frame.wire.length]⟩] 0) = some ⟨.slave ⟨[],stream⟩,
          some (if frame.trim.destAddr ≠ myAddress then .timeout else deliverFrame frame.trim 0),
          [some ⟨.frame frame.trim,⟨[],stream⟩,[leftoverBufSize]⟩]⟩ := by
      rw [SimBus.act,receiveOnSlave,receiveOneFrame_wire hframe]
      rfl
    obtain ⟨step,hmem,hunhandled⟩ := hbad
    have hall := SimBus.steps_cons hact hsteps
    rw [List.flatMap_cons,List.append_assoc,← hstream]
    exact ⟨_,_,hall,step,List.mem_cons_of_mem _ hmem,hunhandled⟩

/-- On every run each error for malformed bytes is followed by closing the connection or by
discarding a byte, exactly where the bus is the master or the slave's stream has no malformed
bytes behind its frames. Where they come to its buffer, the slave fails for ever. -/
theorem malformed_handled_iff (myAddress : Byte) (role : BusRole) :
    ((∀ actions steps,role.boot.steps myAddress actions = some steps →
        ∀ step ∈ steps,step.Handled) ↔
      ∀ stream,role = .slave stream → ¬StreamMalformed stream) ∧
    ∀ (c : Connection) (call : ReceiveCall) (calls : List ReceiveCall) (maxLength : BitVec 16),
      inspectLeftover c.leftover = .malformed →
      (SimBus.slave c).act myAddress (.receive (call :: calls) maxLength) =
        some ⟨.slave c,some .error,[some ⟨.error,c,[]⟩]⟩ := by
  refine ⟨⟨?_,?_⟩,fun c call calls maxLength => slave_wedged myAddress call calls maxLength⟩
  · rintro hall stream rfl ⟨frames,rest,n,hframes,rfl,hn,hmalformed⟩
    obtain ⟨actions,steps,hsteps,step,hmem,hunhandled⟩ :=
      reaches_malformed myAddress hframes hn hmalformed
    exact hunhandled (hall actions steps hsteps step hmem)
  · intro hsound actions steps hsteps
    refine SimBus.Sound.run ?_ hsteps
    cases role with
    | master => trivial
    | slave stream => exact ⟨Nat.zero_le _,hsound stream rfl⟩

/-- A header that claims 65535 bytes: the slave's call fails, and the next one finds the same. -/
theorem oversized_claim_wedges :
    (BusRole.slave [1#8,2#8,0xFF#8,0xFF#8]).boot.steps 1#8
        [.receive [⟨false,[.read 0 4]⟩] 260#16,.receive [⟨false,[.read 0 1]⟩] 260#16] =
      some [⟨.slave ⟨[1#8,2#8,0xFF#8,0xFF#8],[]⟩,some .error,
          [some ⟨.error,⟨[1#8,2#8,0xFF#8,0xFF#8],[]⟩,[536]⟩]⟩,
        ⟨.slave ⟨[1#8,2#8,0xFF#8,0xFF#8],[]⟩,some .error,
          [some ⟨.error,⟨[1#8,2#8,0xFF#8,0xFF#8],[]⟩,[]⟩]⟩] ∧
    inspectLeftover [1#8,2#8,0xFF#8,0xFF#8] = .malformed := by
  constructor
  · decide +kernel
  · decide +kernel

end FlightSoftware.Bus
