import FlightSoftware.Obc.BoardCommands
import FlightSoftware.Obc.Mailbox

/-!
# The way of a command to the attitude controller

From a process of the OBC through a socket to the relay thread, or from the ground station through
the radio, over the bus and into the queue of the attitude controller. Senders and receivers may
die, and the bus may lose packets; yet no command is executed that nobody asked for.
-/

namespace FlightSoftware.Obc
open Adcs Run

/-- The two threads that send commands over the bus. -/
inductive Via where
  | relay
  | radio
  deriving DecidableEq

/-- What was sent by one of the threads. -/
def Via.pick {α : Type*} (via : Via) (x : Via × α) : Option α :=
  if x.1 = via then some x.2 else none

/-- The packet that the relay thread sends in a pass. -/
def RelayMail.packet (mail : RelayMail) (io : RelayIo) : Option RelayPacket :=
  match mail with
  | .request req => relayRequest req io
  | _ => none

/-- `asked` are the requests in the order of their connections and `frames` the telecommands.
Packets are on the `link` until they are lost or `heard` by the attitude controller. -/
structure CommandPath where
  mailbox : Mailbox
  asked : List (BoardRequest × BitVec 24)
  relay : RelayThread
  frames : List (List Byte)
  radioed : List RelayPacket
  link : List (Via × RelayPacket)
  heard : List (Via × RelayPacket)
  board : CommandSystem

inductive PathStep where
  | ask (request : BoardRequest) (padding : BitVec 24)
  | ipc (event : IpcEvent)
  | handle (io : RelayIo)
  | pollTimeout
  | telecommand (buffer : List Byte) (io : RelayIo)
  | lose (i : ℕ)
  | deliver
  | board (c : CommandStep)

namespace CommandPath

variable (p : Platform)

def init : CommandPath := ⟨.initial,[],⟨[],0⟩,[],[],[],[],.init⟩

def put (s : CommandPath) (via : Via) (packet : Option RelayPacket) : List (Via × RelayPacket) :=
  s.link ++ packet.toList.map (via,·)

def step (s : CommandPath) : PathStep → Option CommandPath
  | .ask request padding =>
    some { s with
      mailbox := s.mailbox.connect (request.call padding)
      asked := s.asked ++ [(request,padding)] }
  | .ipc event =>
    (s.mailbox.step relayRequestSize event).map fun mailbox => { s with mailbox := mailbox }
  | .handle io =>
    s.mailbox.take.map fun (result,mailbox) =>
      { s with
        mailbox := mailbox
        relay := s.relay.pass (relayMail result) io
        link := s.put .relay ((relayMail result).packet io) }
  | .pollTimeout => some { s with relay := s.relay.pass .timeout ⟨false,false,[]⟩ }
  | .telecommand buffer io =>
    if radioRxBufSize < buffer.length then none
    else
      some { s with
        frames := s.frames ++ [buffer]
        radioed := s.radioed ++ (radioRxPacket buffer io).toList
        link := s.put .radio (radioRxPacket buffer io) }
  | .lose i => if i < s.link.length then some { s with link := s.link.eraseIdx i } else none
  | .deliver =>
    match s.link with
    | [] => none
    | x :: rest =>
      if x.2.forAdcs then
        (s.board.step p (.receive x.2.data)).map fun board =>
          { s with link := rest, heard := s.heard ++ [x], board := board }
      else some { s with link := rest }
  | .board (.receive _) => none
  | .board c => (s.board.step p c).map fun board => { s with board := board }

/-- The packets that a thread has sent. -/
def sent (s : CommandPath) : Via → List RelayPacket
  | .relay => s.relay.sent
  | .radio => s.radioed

/-- Each stage has, in their order, some of the packets of the one before. -/
structure Carrying (s : CommandPath) : Prop where
  mailbox : s.mailbox.Sound
  calls : s.mailbox.calls = s.asked.map fun a => a.1.call a.2
  relayed : s.relay.sent.Sublist ((s.asked.take s.mailbox.handled).map fun a => a.1.packet a.2)
  radioed : s.radioed.Sublist (s.frames.filterMap telecommandPacket)
  carried : ∀ via : Via,((s.heard ++ s.link).filterMap via.pick).Sublist (s.sent via)
  addressed : ∀ x ∈ s.heard,x.2.forAdcs = true
  board : s.board.Serving p
  received : (s.board.inbox.answers.map Answer.packet).Sublist (s.heard.map fun x => x.2.data)
  stopped : s.board.stopping = true → ∃ x ∈ s.heard,x.2.stopsAdcs p = true

theorem carrying_init : init.Carrying p where
  mailbox := Mailbox.sound_initial
  calls := rfl
  relayed := List.Sublist.refl _
  radioed := List.Sublist.refl _
  carried via := by cases via <;> exact List.Sublist.refl _
  addressed x hx := by cases hx
  board := CommandSystem.serving_init
  received := List.Sublist.refl _
  stopped h := by cases h

/-! ### The socket -/

section

variable {p : Platform} {s s' : CommandPath}

theorem pass_sent (relay : RelayThread) (mail : RelayMail) (io : RelayIo) :
    (relay.pass mail io).sent = relay.sent ++ (mail.packet io).toList := by
  cases mail with
  | timeout | error | otherSize => exact (List.append_nil _).symm
  | request req => rfl

/-- A result that is looked at is an error, or the request that the connection was made for. -/
theorem Carrying.take (hs : s.Carrying p) {result : Option IpcReceived} {mailbox : Mailbox}
    (htake : s.mailbox.take = some (result,mailbox)) :
    mailbox.Sound ∧ mailbox.calls = s.mailbox.calls ∧
      ∃ a,s.asked.take mailbox.handled = s.asked.take s.mailbox.handled ++ [a] ∧
        (relayMail result = .error ∨ relayMail result = .request (a.1.relayRequest a.2)) := by
  obtain ⟨hsound,hcalls,hhandled,call,hcall,hresult⟩ := hs.mailbox.take htake
  rw [hs.calls,List.getElem?_map] at hcall
  obtain ⟨a,ha,rfl⟩ := Option.map_eq_some_iff.mp hcall
  refine ⟨hsound,hcalls,a,by rw [hhandled,List.take_add_one,ha]; rfl,?_⟩
  obtain rfl | rfl := hresult
  · exact .inl rfl
  · exact .inr (relayMail_bytes _ _)

/-- What the relay thread sends for a request is its packet, if anything. -/
theorem packet_sublist {mail : RelayMail} {a : BoardRequest × BitVec 24} (io : RelayIo)
    (hmail : mail = .error ∨ mail = .request (a.1.relayRequest a.2)) :
    (mail.packet io).toList.Sublist [a.1.packet a.2] := by
  obtain rfl | rfl := hmail
  · exact List.nil_sublist _
  · cases hpacket : (RelayMail.request (a.1.relayRequest a.2)).packet io with
    | none => exact List.nil_sublist _
    | some packet =>
      rw [BoardRequest.relayRequest_eq_some hpacket]
      exact List.Sublist.refl _

/-- A thread puts a packet on the link and adds it to those it has sent. -/
theorem carried_put
    (hcarried : ∀ via : Via,((s.heard ++ s.link).filterMap via.pick).Sublist (s.sent via))
    (via : Via) (packet : Option RelayPacket) (other : Via) :
    ((s.heard ++ s.put via packet).filterMap other.pick).Sublist
      (s.sent other ++ if via = other then packet.toList else []) := by
  rw [put,← List.append_assoc,List.filterMap_append]
  refine (hcarried other).append ?_
  rw [List.filterMap_map]
  by_cases hvia : via = other
  · subst hvia
    rw [if_pos rfl]
    have hpick : via.pick ∘ (fun packet : RelayPacket => (via,packet)) = some :=
      funext fun _ => if_pos rfl
    rw [hpick,List.filterMap_some]
  · have hpick : other.pick ∘ (fun packet : RelayPacket => (via,packet)) = fun _ => none :=
      funext fun _ => if_neg hvia
    rw [hpick,List.filterMap_none]
    exact List.nil_sublist _

theorem Carrying.handle (hs : s.Carrying p) {io : RelayIo} (h : s.step p (.handle io) = some s') :
    s'.Carrying p := by
  rw [step] at h
  obtain ⟨⟨result,mailbox⟩,htake,rfl⟩ := Option.map_eq_some_iff.mp h
  obtain ⟨hsound,hcalls,a,hasked,hmail⟩ := hs.take htake
  refine ⟨hsound,hcalls.trans hs.calls,?_,hs.radioed,fun via => ?_,hs.addressed,hs.board,
    hs.received,hs.stopped⟩
  · dsimp only
    rw [pass_sent,hasked,List.map_append]
    exact hs.relayed.append (packet_sublist io hmail)
  · have hput := carried_put hs.carried .relay ((relayMail result).packet io) via
    cases via with
    | relay =>
      show List.Sublist _ (s.relay.pass (relayMail result) io).sent
      rw [pass_sent]
      exact hput
    | radio =>
      rw [if_neg (fun h => Via.noConfusion h),List.append_nil] at hput
      exact hput

theorem Carrying.telecommand (hs : s.Carrying p) {buffer : List Byte} {io : RelayIo}
    (h : s.step p (.telecommand buffer io) = some s') : s'.Carrying p := by
  rw [step] at h
  split_ifs at h
  obtain rfl := Option.some.inj h
  refine ⟨hs.mailbox,hs.calls,hs.relayed,?_,fun via => ?_,hs.addressed,hs.board,hs.received,
    hs.stopped⟩
  · dsimp only
    rw [List.filterMap_append]
    refine hs.radioed.append ?_
    cases hpacket : radioRxPacket buffer io with
    | none => exact List.nil_sublist _
    | some packet =>
      rw [List.filterMap_cons_some (radioRxPacket_eq_some hpacket)]
      exact List.Sublist.refl _
  · have hput := carried_put hs.carried .radio (radioRxPacket buffer io) via
    cases via with
    | relay =>
      rw [if_neg (fun h => Via.noConfusion h),List.append_nil] at hput
      exact hput
    | radio => exact hput

/-- Taking packets off the link. -/
theorem Carrying.unlink (hs : s.Carrying p) {link : List (Via × RelayPacket)}
    (hlink : link.Sublist s.link) : Carrying p { s with link := link } :=
  { hs with
    carried := fun via =>
      (((List.Sublist.refl s.heard).append hlink).filterMap _).trans (hs.carried via) }

theorem answers_receive {board : CommandSystem} (packet : List Byte) :
    ((board.receive p packet).inbox.answers.map Answer.packet).Sublist
      (board.inbox.answers.map Answer.packet ++ [packet]) := by
  rw [CommandSystem.receive]
  by_cases hshort : packet.length < envelopeSize
  · rw [if_pos hshort]
    exact List.sublist_append_left _ _
  · rw [if_neg hshort]
    dsimp only
    rw [Inbox.receive_answers]

theorem Carrying.deliver (hs : s.Carrying p) (h : s.step p .deliver = some s') :
    s'.Carrying p := by
  rw [step] at h
  cases hlink : s.link with
  | nil =>
    rw [hlink] at h
    cases h
  | cons x rest =>
    rw [hlink] at h
    dsimp only at h
    have hrest : rest.Sublist s.link := hlink ▸ List.sublist_cons_self x rest
    by_cases hfor : x.2.forAdcs = true
    · rw [if_pos hfor] at h
      obtain ⟨board,hboard,rfl⟩ := Option.map_eq_some_iff.mp h
      have hserving := hs.board.step hboard
      rw [CommandSystem.step] at hboard
      split_ifs at hboard with hstopping
      obtain rfl := Option.some.inj hboard
      refine ⟨hs.mailbox,hs.calls,hs.relayed,hs.radioed,fun via => ?_,fun y hy => ?_,
        hserving,?_,fun hstopped => ?_⟩
      · have hcarried := hs.carried via
        rw [hlink] at hcarried
        rwa [List.append_assoc]
      · obtain hy | hy := List.mem_append.mp hy
        · exact hs.addressed y hy
        · exact List.mem_singleton.mp hy ▸ hfor
      · rw [List.map_append]
        exact (answers_receive x.2.data).trans (hs.received.append_right _)
      · refine ⟨x,List.mem_append_right _ List.mem_cons_self,?_⟩
        rw [CommandSystem.receive] at hstopped
        split_ifs at hstopped with hshort
        · exact absurd hstopped hstopping
        · rw [RelayPacket.stopsAdcs,hfor,Bool.true_and]
          exact hstopped
    · rw [if_neg hfor] at h
      obtain rfl := Option.some.inj h
      exact hs.unlink hrest

theorem board_step_inbox {board board' : CommandSystem} {c : CommandStep}
    (hc : ∀ packet,c ≠ .receive packet) (h : board.step p c = some board') :
    board'.inbox.answers = board.inbox.answers ∧ board'.stopping = board.stopping := by
  cases c with
  | receive packet => exact absurd rfl (hc packet)
  | begin env =>
    rw [CommandSystem.step] at h
    split_ifs at h
    obtain ⟨_,-,rfl⟩ := Option.map_eq_some_iff.mp h
    exact ⟨rfl,rfl⟩
  | next =>
    rw [CommandSystem.step] at h
    split at h
    · cases h
    · obtain ⟨_,-,rfl⟩ := Option.map_eq_some_iff.mp h
      exact ⟨rfl,rfl⟩
  | task t =>
    rw [CommandSystem.step] at h
    split_ifs at h
    obtain ⟨_,-,rfl⟩ := Option.map_eq_some_iff.mp h
    exact ⟨rfl,rfl⟩

theorem Carrying.of_board (hs : s.Carrying p) {board : CommandSystem} {c : CommandStep}
    (hc : ∀ packet,c ≠ .receive packet) (h : s.board.step p c = some board) :
    Carrying p { s with board := board } := by
  obtain ⟨hanswers,hstopping⟩ := board_step_inbox hc h
  exact { hs with
    board := hs.board.step h
    received := by dsimp only; rw [hanswers]; exact hs.received
    stopped := fun hstopped => hs.stopped (hstopping ▸ hstopped) }

theorem Carrying.step (hs : s.Carrying p) {e : PathStep} (h : s.step p e = some s') :
    s'.Carrying p := by
  cases e with
  | ask request padding =>
    obtain rfl := Option.some.inj h
    refine { hs with mailbox := hs.mailbox.connect _,calls := ?_,relayed := hs.relayed.trans ?_ }
    · rw [Mailbox.calls_connect,hs.calls,List.map_append]
      rfl
    · dsimp only
      rw [Mailbox.handled_connect,List.take_append,List.map_append]
      exact List.sublist_append_left _ _
  | ipc event =>
    rw [CommandPath.step] at h
    obtain ⟨mailbox,hmailbox,rfl⟩ := Option.map_eq_some_iff.mp h
    obtain ⟨hsound,hle⟩ := hs.mailbox.step hmailbox
    exact { hs with
      mailbox := hsound
      calls := (Mailbox.calls_step hmailbox).trans hs.calls
      relayed := hs.relayed.trans ((List.take_prefix_take_left hle).sublist.map _) }
  | handle io => exact hs.handle h
  | pollTimeout =>
    obtain rfl := Option.some.inj h
    exact { hs with carried := fun via => by cases via <;> exact hs.carried _ }
  | telecommand buffer io => exact hs.telecommand h
  | lose i =>
    rw [CommandPath.step] at h
    split_ifs at h
    obtain rfl := Option.some.inj h
    exact hs.unlink (List.eraseIdx_sublist _ _)
  | deliver => exact hs.deliver h
  | board c =>
    cases c with
    | receive packet => cases h
    | begin | next | task =>
      obtain ⟨board,hboard,rfl⟩ := Option.map_eq_some_iff.mp h
      exact hs.of_board (fun _ hc => by cases hc) hboard

theorem run_carrying {steps : List PathStep} (hrun : run (CommandPath.step p) init steps = some s) :
    s.Carrying p :=
  run_invariant (fun _ _ _ hs h => hs.step h) (carrying_init p) hrun

end

/-! ### What was asked for -/

/-- The commands for the attitude controller that came to a thread. -/
def commandsAsked (s : CommandPath) : Via → List AdcsCommand
  | .relay => s.asked.filterMap fun a => a.1.adcsCommand
  | .radio => s.frames.filterMap fun buffer =>
    (telecommandPacket buffer).bind (RelayPacket.adcsCommand p)

section

variable {p : Platform} {s : CommandPath}

/-- The commands in the packets that a thread has sent were asked for. -/
theorem Carrying.commands_sent (hs : s.Carrying p) (via : Via) :
    ((s.sent via).filterMap (RelayPacket.adcsCommand p)).Sublist (s.commandsAsked p via) := by
  cases via with
  | relay =>
    have hasked := (hs.relayed.trans ((List.take_sublist ..).map _)).filterMap
      (RelayPacket.adcsCommand p)
    rw [List.filterMap_map] at hasked
    have hmeant : RelayPacket.adcsCommand p ∘ (fun a : BoardRequest × BitVec 24 =>
        a.1.packet a.2) = fun a => a.1.adcsCommand :=
      funext fun a => BoardRequest.adcsCommand_packet p a.2 a.1
    rw [hmeant] at hasked
    exact hasked
  | radio =>
    have hasked := hs.radioed.filterMap (RelayPacket.adcsCommand p)
    rw [List.filterMap_filterMap] at hasked
    exact hasked

theorem Carrying.heard_sent (hs : s.Carrying p) {x : Via × RelayPacket} (hx : x ∈ s.heard) :
    x.2 ∈ s.sent x.1 := by
  refine (hs.carried x.1).subset (List.mem_filterMap.mpr ⟨x,List.mem_append_left _ hx,?_⟩)
  exact if_pos rfl

/-- The commands of the packets that were heard, each with its thread. -/
theorem pick_commands (hheard : ∀ x ∈ s.heard,x.2.forAdcs = true) (via : Via) :
    (s.heard.filterMap fun x => (commandVerdict p x.2.data).toOption.map fun a => (x,a)).filterMap
        (fun t => via.pick (t.1.1,t.2)) =
      (s.heard.filterMap via.pick).filterMap (RelayPacket.adcsCommand p) := by
  rw [List.filterMap_filterMap,List.filterMap_filterMap]
  refine List.filterMap_congr fun x hx => ?_
  by_cases hvia : x.1 = via
  · have hpick {α : Type} (a : α) : via.pick (x.1,a) = some a := if_pos hvia
    rw [show via.pick x = some x.2 from hpick x.2,Option.bind_some,RelayPacket.adcsCommand,
      if_pos (hheard x hx)]
    cases (commandVerdict p x.2.data).toOption with
    | none => rfl
    | some a => exact hpick a
  · have hpick {α : Type} (a : α) : via.pick (x.1,a) = none := if_neg hvia
    rw [show via.pick x = none from hpick x.2,Option.bind_none]
    cases (commandVerdict p x.2.data).toOption with
    | none => rfl
    | some a => exact hpick a

/-- Each command that the attitude controller has begun or that waits there was asked for by a
process of the OBC or by the ground station, no two by the same call; those of the processes are
executed in the order of their requests, and those of the ground station in the order of the
telecommands. The attitude controller ends its command handler only on a request for a reset or a
shutdown. -/
theorem adcs_executes_what_was_asked {steps : List PathStep}
    (hrun : run (step p) init steps = some s) :
    (∃ traced : List (Via × AdcsCommand),
      traced.map Prod.snd = s.board.begun.map Prod.fst ++ s.board.inbox.queue.waiting ∧
        ∀ via : Via,(traced.filterMap via.pick).Sublist (s.commandsAsked p via)) ∧
    (s.board.stopping = true → (∃ a ∈ s.asked,a.1.stopsAdcs = true) ∨
      ∃ buffer ∈ s.frames,(telecommandPacket buffer).any (RelayPacket.stopsAdcs p) = true) := by
  have hs := run_carrying hrun
  constructor
  · obtain ⟨traced,hitems,hsub⟩ := Inbox.accepted_traced (commandVerdict p)
      (fun x : Via × RelayPacket => x.2.data) hs.received
    refine ⟨traced.map fun t => (t.1.1,t.2),?_,fun via => ?_⟩
    · have hbegun : s.board.begun.map Prod.fst ++ s.board.inbox.queue.waiting =
          s.board.inbox.queue.put := by
        rw [← hs.board.taken]
        exact hs.board.inbox.fifo.order
      rw [hbegun,hs.board.inbox.put,← hitems,List.map_map]
      rfl
    · rw [List.filterMap_map]
      have hpackets : ((s.heard.filterMap via.pick).filterMap (RelayPacket.adcsCommand p)).Sublist
          ((s.sent via).filterMap (RelayPacket.adcsCommand p)) :=
        (((List.sublist_append_left ..).filterMap _).trans (hs.carried via)).filterMap _
      rw [← pick_commands hs.addressed via] at hpackets
      exact ((hsub.filterMap _).trans hpackets).trans (hs.commands_sent via)
  · intro hstopping
    obtain ⟨⟨via,packet⟩,hx,hstops⟩ := hs.stopped hstopping
    have hsent := hs.heard_sent hx
    cases via with
    | relay =>
      obtain ⟨a,ha,rfl⟩ := List.mem_map.mp (hs.relayed.subset hsent)
      rw [BoardRequest.stopsAdcs_packet] at hstops
      exact .inl ⟨a,List.mem_of_mem_take ha,hstops⟩
    | radio =>
      obtain ⟨buffer,hbuffer,hpacket⟩ := List.mem_filterMap.mp (hs.radioed.subset hsent)
      exact .inr ⟨buffer,hbuffer,by rw [hpacket]; exact hstops⟩

/-- Time and Mission ask for commands while one comes from the ground; the packet of the ground
station overtakes that of Mission. -/
def overtakingRun : List PathStep :=
  [.ask (.sendTimeSyncTo 2 10 0 1700000000) 0xabcdef,.ask .pointToSun 0,.ipc (.write 0 136),
    .ipc (.write 1 136),.ipc (.accept 132),.ipc (.read 4),.ipc (.read 132),
    .handle ⟨true,true,[0x5a]⟩,.telecommand [2,10,64,0,0,0,1,0,0,0,4,0,0,0] ⟨true,true,[]⟩,
    .ipc (.accept 132),.ipc (.read 4),.ipc (.read 132),.handle ⟨true,true,[]⟩,.deliver,
    .board (.begin ⟨fun _ => .ok,fun _ => .ok,fun _ => 0⟩),.deliver,.deliver]

theorem overtaking_commands_asked :
    ∃ s,run (step AdcsTasks.simPlatform) init overtakingRun = some s ∧
      s.board.begun.length = 1 ∧ s.board.inbox.queue.waiting.length = 2 ∧
      ∃ traced : List (Via × AdcsCommand),
        traced.map Prod.snd = s.board.begun.map Prod.fst ++ s.board.inbox.queue.waiting ∧
        ∀ via : Via,(traced.filterMap via.pick).Sublist
          (s.commandsAsked AdcsTasks.simPlatform via) := by
  have hany : (run (step AdcsTasks.simPlatform) init overtakingRun).any (fun s =>
      s.board.begun.length = 1 ∧ s.board.inbox.queue.waiting.length = 2) = true := by
    decide +kernel
  obtain ⟨s,hrun,hs⟩ := (Option.any_eq_true _ _).mp hany
  obtain ⟨hbegun,hwaiting⟩ := of_decide_eq_true hs
  exact ⟨s,hrun,hbegun,hwaiting,(adcs_executes_what_was_asked hrun).1⟩

end

end CommandPath

/-! ### Nothing is lost without a failure -/

/-- A step in which no command is lost: no read fails, Commands goes on, and CSP has a connection
and a buffer for each packet and delivers it. -/
def PathStep.Undisturbed : PathStep → Prop
  | .ipc .readFails | .ipc .restart | .lose _ => False
  | .handle io | .telecommand _ io => io.connected = true ∧ io.buffer = true
  | _ => True

namespace CommandPath

/-- The packets that a thread was to send so far. -/
def packetsAsked (s : CommandPath) : Via → List RelayPacket
  | .relay => (s.asked.take s.mailbox.handled).map fun a => a.1.packet a.2
  | .radio => s.frames.filterMap telecommandPacket

/-- Each stage has all the packets of the one before. -/
structure Lossless (p : Platform) (s : CommandPath) : Prop extends Carrying p s where
  complete : s.mailbox.Complete relayRequestSize
  sent_eq : ∀ via : Via,s.sent via = s.packetsAsked via
  carried_eq : ∀ via : Via,
    (s.heard ++ s.link.filter fun x => x.2.forAdcs).filterMap via.pick =
      (s.sent via).filter RelayPacket.forAdcs
  received_eq : s.board.inbox.answers.map Answer.packet =
    (s.heard.map fun x => x.2.data).filter (envelopeSize ≤ ·.length)

section

variable {p : Platform} {s s' : CommandPath}

theorem lossless_init : init.Lossless p where
  toCarrying := carrying_init p
  complete := Mailbox.complete_initial
  sent_eq via := by cases via <;> rfl
  carried_eq via := by cases via <;> rfl
  received_eq := rfl

theorem filter_put (via : Via) (packet : Option RelayPacket) (other : Via) :
    ((packet.toList.map (via,·)).filter fun x => x.2.forAdcs).filterMap other.pick =
      (if via = other then packet.toList else []).filter RelayPacket.forAdcs := by
  cases packet with
  | none => by_cases hvia : via = other <;> simp [hvia]
  | some packet =>
    by_cases hvia : via = other <;> by_cases hfor : packet.forAdcs <;>
      simp [hvia,hfor,Via.pick]

theorem carried_eq_put (hcarried : ∀ via : Via,
      (s.heard ++ s.link.filter fun x => x.2.forAdcs).filterMap via.pick =
        (s.sent via).filter RelayPacket.forAdcs) (via : Via) (packet : Option RelayPacket)
    (other : Via) :
    (s.heard ++ (s.put via packet).filter fun x => x.2.forAdcs).filterMap other.pick =
      (s.sent other ++ if via = other then packet.toList else []).filter RelayPacket.forAdcs := by
  rw [put,List.filter_append,← List.append_assoc,List.filterMap_append,hcarried,filter_put,
    List.filter_append]

/-- CSP fails for no request, so its packet is sent. -/
theorem packet_eq {io : RelayIo} (hio : io.connected = true ∧ io.buffer = true)
    (a : BoardRequest × BitVec 24) :
    ((RelayMail.request (a.1.relayRequest a.2)).packet io).toList = [a.1.packet a.2] := by
  have hpacket : relayRequest (a.1.relayRequest a.2) io =
      some ⟨(a.1.relayRequest a.2).destAddr,(a.1.relayRequest a.2).destPort,
        copyOut (a.1.relayRequest a.2).payload io.beyond
          (a.1.relayRequest a.2).length.toNat⟩ := by
    rw [relayRequest,hio.1,hio.2,if_neg Bool.noConfusion,if_neg Bool.noConfusion]
  rw [RelayMail.packet,hpacket,BoardRequest.relayRequest_eq_some hpacket]
  rfl

theorem Lossless.handle (hs : s.Lossless p) {io : RelayIo}
    (hio : io.connected = true ∧ io.buffer = true) (h : s.step p (.handle io) = some s') :
    s'.Lossless p := by
  have hcarrying := hs.toCarrying.handle h
  rw [step] at h
  obtain ⟨⟨result,mailbox⟩,htake,rfl⟩ := Option.map_eq_some_iff.mp h
  obtain ⟨hcomplete,call,hcall,rfl⟩ := hs.complete.take htake
  obtain ⟨-,-,a,hasked,hmail⟩ := hs.take htake
  have hrequest : relayMail (some call.message) = .request (a.1.relayRequest a.2) := by
    refine hmail.resolve_left fun herror => ?_
    rw [relayMail] at herror
    split_ifs at herror
  have hpacket := packet_eq hio a
  rw [← hrequest] at hpacket
  refine ⟨hcarrying,hcomplete,fun via => ?_,fun via => ?_,hs.received_eq⟩
  · cases via with
    | relay =>
      show (s.relay.pass (relayMail (some call.message)) io).sent =
        (s.asked.take mailbox.handled).map fun a => a.1.packet a.2
      rw [pass_sent,hpacket,hasked,List.map_append]
      exact congrArg (· ++ [a.1.packet a.2]) (hs.sent_eq .relay)
    | radio => exact hs.sent_eq .radio
  · have hput := carried_eq_put hs.carried_eq .relay
      ((relayMail (some call.message)).packet io) via
    cases via with
    | relay =>
      show _ = List.filter _ (s.relay.pass (relayMail (some call.message)) io).sent
      rw [pass_sent]
      exact hput
    | radio =>
      rw [if_neg (fun h => Via.noConfusion h),List.append_nil] at hput
      exact hput

theorem Lossless.telecommand (hs : s.Lossless p) {buffer : List Byte} {io : RelayIo}
    (hio : io.connected = true ∧ io.buffer = true)
    (h : s.step p (.telecommand buffer io) = some s') : s'.Lossless p := by
  have hcarrying := hs.toCarrying.telecommand h
  have hpacket : radioRxPacket buffer io = telecommandPacket buffer := by
    rw [telecommandPacket,radioRxPacket,radioRxPacket,hio.1,hio.2]
  rw [step] at h
  split_ifs at h
  obtain rfl := Option.some.inj h
  refine ⟨hcarrying,hs.complete,fun via => ?_,fun via => ?_,hs.received_eq⟩
  · cases via with
    | relay => exact hs.sent_eq .relay
    | radio =>
      show s.radioed ++ (radioRxPacket buffer io).toList =
        (s.frames ++ [buffer]).filterMap telecommandPacket
      rw [List.filterMap_append,hpacket]
      refine congrArg₂ (· ++ ·) (hs.sent_eq .radio) ?_
      cases htelecommand : telecommandPacket buffer with
      | none => rw [List.filterMap_cons_none htelecommand]; rfl
      | some packet => rw [List.filterMap_cons_some htelecommand]; rfl
  · have hput := carried_eq_put hs.carried_eq .radio (radioRxPacket buffer io) via
    cases via with
    | relay =>
      rw [if_neg (fun h => Via.noConfusion h),List.append_nil] at hput
      exact hput
    | radio => exact hput

theorem Lossless.deliver (hs : s.Lossless p) (h : s.step p .deliver = some s') :
    s'.Lossless p := by
  have hcarrying := hs.toCarrying.deliver h
  rw [step] at h
  cases hlink : s.link with
  | nil =>
    rw [hlink] at h
    cases h
  | cons x rest =>
    rw [hlink] at h
    dsimp only at h
    by_cases hfor : x.2.forAdcs = true
    · rw [if_pos hfor] at h
      obtain ⟨board,hboard,rfl⟩ := Option.map_eq_some_iff.mp h
      rw [CommandSystem.step] at hboard
      split_ifs at hboard
      obtain rfl := Option.some.inj hboard
      refine ⟨hcarrying,hs.complete,hs.sent_eq,fun via => ?_,?_⟩
      · have hcarried := hs.carried_eq via
        rw [hlink,List.filter_cons_of_pos (by exact hfor)] at hcarried
        rw [List.append_assoc]
        exact hcarried
      · dsimp only
        rw [List.map_append,List.filter_append,← hs.received_eq,CommandSystem.receive]
        by_cases hshort : x.2.data.length < envelopeSize
        · rw [if_pos hshort,List.map_singleton,
            List.filter_cons_of_neg (by simpa using hshort),List.filter_nil,List.append_nil]
        · rw [if_neg hshort,List.map_singleton,
            List.filter_cons_of_pos (by simpa using hshort),List.filter_nil]
          exact Inbox.receive_answers _ _
    · rw [if_neg hfor] at h
      obtain rfl := Option.some.inj h
      refine ⟨hcarrying,hs.complete,hs.sent_eq,fun via => ?_,hs.received_eq⟩
      have hcarried := hs.carried_eq via
      rw [hlink,List.filter_cons_of_neg (by exact hfor)] at hcarried
      exact hcarried

theorem Lossless.step (hs : s.Lossless p) {e : PathStep} (he : e.Undisturbed)
    (h : s.step p e = some s') : s'.Lossless p := by
  have hcarrying := hs.toCarrying.step h
  cases e with
  | ask request padding =>
    obtain rfl := Option.some.inj h
    have hsize : (request.call padding).data.length ≤ relayRequestSize :=
      (RelayRequest.bytes_length _).le
    refine ⟨hcarrying,hs.complete.connect hsize,fun via => ?_,hs.carried_eq,hs.received_eq⟩
    cases via with
    | relay =>
      refine (hs.sent_eq .relay).trans ?_
      show (s.asked.take s.mailbox.handled).map _ =
        ((s.asked ++ [_]).take s.mailbox.handled).map _
      have hle := hs.mailbox.handled_le_calls
      rw [hs.calls,List.length_map] at hle
      rw [List.take_append_of_le_length hle]
    | radio => exact hs.sent_eq .radio
  | ipc event =>
    rw [CommandPath.step] at h
    obtain ⟨mailbox,hmailbox,rfl⟩ := Option.map_eq_some_iff.mp h
    obtain ⟨hcomplete,hhandled⟩ := hs.complete.step (fun hevent => by rw [hevent] at he; exact he)
      (fun hevent => by rw [hevent] at he; exact he) hmailbox
    refine ⟨hcarrying,hcomplete,fun via => ?_,hs.carried_eq,hs.received_eq⟩
    cases via with
    | relay =>
      refine (hs.sent_eq .relay).trans ?_
      show (s.asked.take s.mailbox.handled).map _ = (s.asked.take mailbox.handled).map _
      rw [hhandled]
    | radio => exact hs.sent_eq .radio
  | lose i => exact he.elim
  | handle io => exact hs.handle he h
  | pollTimeout =>
    obtain rfl := Option.some.inj h
    exact ⟨hcarrying,hs.complete,hs.sent_eq,hs.carried_eq,hs.received_eq⟩
  | telecommand buffer io => exact hs.telecommand he h
  | deliver => exact hs.deliver h
  | board c =>
    cases c with
    | receive packet => cases h
    | begin | next | task =>
      obtain ⟨board,hboard,rfl⟩ := Option.map_eq_some_iff.mp h
      obtain ⟨hanswers,-⟩ := board_step_inbox (fun _ hc => by cases hc) hboard
      refine ⟨hcarrying,hs.complete,hs.sent_eq,hs.carried_eq,?_⟩
      dsimp only
      rw [hanswers]
      exact hs.received_eq

/-- While nothing fails, the packets for the attitude controller that it has heard from a thread and
those that are on their way are all that the thread was to send there, in their order; and it
answers each packet that is long enough. -/
theorem path_loses_nothing {steps : List PathStep}
    (hrun : run (CommandPath.step p) init steps = some s)
    (hundisturbed : ∀ e ∈ steps,e.Undisturbed) :
    (∀ via : Via,(s.heard ++ s.link.filter fun x => x.2.forAdcs).filterMap via.pick =
      (s.packetsAsked via).filter RelayPacket.forAdcs) ∧
    s.board.inbox.answers.map Answer.packet =
      (s.heard.map fun x => x.2.data).filter (envelopeSize ≤ ·.length) := by
  have hs : s.Lossless p := run_invariant_of (P := fun _ e => e.Undisturbed)
    (fun _ _ _ hs he h => hs.step he h) lossless_init
    (fun pre e post _ has _ => hundisturbed e
      (by rw [has]; exact List.mem_append_right _ List.mem_cons_self)) hrun
  exact ⟨fun via => (hs.carried_eq via).trans (congrArg _ (hs.sent_eq via)),hs.received_eq⟩

/-- The relay thread has sent two of the three packets that are heard. -/
theorem overtaking_packets_heard :
    ∃ s,run (CommandPath.step AdcsTasks.simPlatform) init overtakingRun = some s ∧
      s.heard.length = 3 ∧
      (s.heard ++ s.link.filter fun x => x.2.forAdcs).filterMap Via.relay.pick =
        (s.packetsAsked .relay).filter RelayPacket.forAdcs ∧
      s.board.inbox.answers.map Answer.packet =
        (s.heard.map fun x => x.2.data).filter (envelopeSize ≤ ·.length) := by
  have hundisturbed : ∀ e ∈ overtakingRun,e.Undisturbed := by
    simp [overtakingRun,PathStep.Undisturbed]
  have hany : (run (CommandPath.step AdcsTasks.simPlatform) init overtakingRun).any (fun s =>
      s.heard.length = 3) = true := by
    decide +kernel
  obtain ⟨s,hrun,hheard⟩ := (Option.any_eq_true _ _).mp hany
  obtain ⟨hpackets,hanswers⟩ := path_loses_nothing hrun hundisturbed
  exact ⟨s,hrun,of_decide_eq_true hheard,hpackets .relay,hanswers⟩

end

end CommandPath

end FlightSoftware.Obc
