import FlightSoftware.Obc.IpcTransport

/-!
# A thread that receives messages

The threads of the OBC processes call `IPC_receive_timeout` in a loop and look at each result before
they call again. A mailbox is the socket with the number of results that its thread has looked at;
what lies in between is lost when the process is started anew.
-/

namespace FlightSoftware.Obc

structure Mailbox where
  ipc : Transport
  handled : ℕ

/-- A call of `IPC_send` that gets a connection. -/
def ipcCall (src dest : ObcRole) (data : List Byte) : Option Outgoing :=
  if h : data.length ≤ ipcMaxPayload ∧ pathForRole dest ≠ none then
    some ⟨src,dest,data,_,ipcSendWire_of_le h.1 h.2⟩
  else none

namespace Mailbox

def initial : Mailbox := ⟨.initial,0⟩

/-- The calls that have a connection, in the order of these. -/
def calls (b : Mailbox) : List Outgoing := b.ipc.connections.map Connection.call

def connect (call : Outgoing) (b : Mailbox) : Mailbox :=
  { b with ipc.connections := b.ipc.connections ++ [⟨call,0,false⟩] }

/-- What happens at the socket after a connection was made. The thread calls again, with its buffer
of some size, when it is done with what it got before. -/
def step (size : ℕ) (b : Mailbox) (event : IpcEvent) : Option Mailbox :=
  match event with
  | .connect _ => none
  | .accept maxLength =>
    if maxLength = size ∧ b.handled = b.ipc.results.length then
      (b.ipc.step (.accept maxLength)).map fun ipc => { b with ipc := ipc }
    else none
  | .restart => (b.ipc.step .restart).map fun ipc => ⟨ipc,ipc.results.length⟩
  | event => (b.ipc.step event).map fun ipc => { b with ipc := ipc }

/-- The next result, for the thread to look at. -/
def take (b : Mailbox) : Option (Option IpcReceived × Mailbox) :=
  b.ipc.results[b.handled]?.map fun result => (result,{ b with handled := b.handled+1 })

structure Sound (b : Mailbox) : Prop where
  ipc : b.ipc.Sound
  handled : b.handled ≤ b.ipc.results.length

/-- No result is an error, and none was missed. -/
structure Complete (size : ℕ) (b : Mailbox) : Prop extends Sound b where
  complete : b.ipc.Complete size

variable {size : ℕ} {b b' : Mailbox}

theorem sound_initial : initial.Sound := ⟨Transport.sound_initial,le_rfl⟩

theorem complete_initial : initial.Complete size := ⟨sound_initial,Transport.complete_initial⟩

@[simp] theorem calls_connect (call : Outgoing) (b : Mailbox) :
    (b.connect call).calls = b.calls ++ [call] := List.map_append

@[simp] theorem handled_connect (call : Outgoing) (b : Mailbox) :
    (b.connect call).handled = b.handled := rfl

/-- A step of the mailbox is one of the socket, and only a restart has the thread miss results. -/
theorem step_cases {event : IpcEvent} (h : b.step size event = some b') :
    b.ipc.step event = some b'.ipc ∧ (∀ call,event ≠ .connect call) ∧
      ((event = .restart ∧ b'.handled = b'.ipc.results.length) ∨
        (event ≠ .restart ∧ b'.handled = b.handled ∧
          (event = .accept size ∨ ∀ maxLength,event ≠ .accept maxLength))) := by
  cases event with
  | connect call => cases h
  | accept maxLength =>
    rw [step] at h
    split_ifs at h with hguard
    obtain ⟨rfl,-⟩ := hguard
    obtain ⟨ipc,hipc,rfl⟩ := Option.map_eq_some_iff.mp h
    exact ⟨hipc,(fun _ h => by cases h),.inr ⟨(fun h => by cases h),rfl,.inl rfl⟩⟩
  | restart =>
    dsimp only [step] at h
    obtain ⟨ipc,hipc,rfl⟩ := Option.map_eq_some_iff.mp h
    exact ⟨hipc,(fun _ h => by cases h),.inl ⟨rfl,rfl⟩⟩
  | write | close | read | readFails =>
    dsimp only [step] at h
    obtain ⟨ipc,hipc,rfl⟩ := Option.map_eq_some_iff.mp h
    exact ⟨hipc,(fun _ h => by cases h),
      .inr ⟨(fun h => by cases h),rfl,.inr fun _ h => by cases h⟩⟩

theorem calls_step {event : IpcEvent} (h : b.step size event = some b') : b'.calls = b.calls :=
  Transport.calls_of_step (step_cases h).1 (step_cases h).2.1

theorem Sound.handled_le_calls (hb : b.Sound) : b.handled ≤ b.calls.length := by
  rw [calls,List.length_map]
  exact hb.handled.trans hb.ipc.count

theorem Sound.connect (hb : b.Sound) (call : Outgoing) : (b.connect call).Sound :=
  ⟨hb.ipc.connect call,hb.handled⟩

theorem Sound.step (hb : b.Sound) {event : IpcEvent} (h : b.step size event = some b') :
    b'.Sound ∧ b.handled ≤ b'.handled := by
  obtain ⟨hipc,-,hhandled⟩ := step_cases h
  have hresults := Transport.results_le_of_step hipc
  have hle := hb.handled
  obtain ⟨-,hmissed⟩ | ⟨-,hsame,-⟩ := hhandled
  · exact ⟨⟨hb.ipc.step hipc,hmissed.le⟩,by omega⟩
  · exact ⟨⟨hb.ipc.step hipc,by omega⟩,hsame.ge⟩

/-- A result is an error, or the message of the call that the thread has come to. -/
theorem Sound.take (hb : b.Sound) {result : Option IpcReceived} (h : b.take = some (result,b')) :
    b'.Sound ∧ b'.calls = b.calls ∧ b'.handled = b.handled+1 ∧
      ∃ call,b.calls[b.handled]? = some call ∧ (result = none ∨ result = some call.message) := by
  obtain ⟨r,hr,heq⟩ := Option.map_eq_some_iff.mp h
  obtain ⟨rfl,rfl⟩ := Prod.mk.inj heq
  have hlt := (List.getElem?_eq_some_iff.mp hr).1
  refine ⟨⟨hb.ipc,hlt⟩,rfl,rfl,?_⟩
  have hcount := hlt.trans_le hb.ipc.count
  refine ⟨b.ipc.connections[b.handled].call,?_,?_⟩
  · rw [calls,List.getElem?_map,List.getElem?_eq_getElem hcount]
    rfl
  · cases r with
    | none => exact .inl rfl
    | some m =>
      obtain ⟨c,hc,-,rfl⟩ := hb.ipc.delivered _ m hr
      rw [(List.getElem?_eq_some_iff.mp hc).2]
      exact .inr rfl

theorem Complete.connect (hb : b.Complete size) {call : Outgoing}
    (hfits : call.data.length ≤ size) : (b.connect call).Complete size :=
  ⟨hb.toSound.connect call,
    hb.complete.step (show IpcEvent.UndisturbedFor size (.connect call) from hfits) rfl⟩

theorem Complete.step (hb : b.Complete size) {event : IpcEvent} (hfails : event ≠ .readFails)
    (hrestart : event ≠ .restart) (h : b.step size event = some b') :
    b'.Complete size ∧ b'.handled = b.handled := by
  obtain ⟨hipc,hconnect,⟨hmissed,-⟩ | ⟨-,hsame,haccept⟩⟩ := step_cases h
  · exact absurd hmissed hrestart
  · refine ⟨⟨(hb.toSound.step h).1,hb.complete.step ?_ hipc⟩,hsame⟩
    cases event with
    | connect call => exact absurd rfl (hconnect call)
    | accept maxLength =>
      obtain haccept | hother := haccept
      · exact (IpcEvent.accept.inj haccept).ge
      · exact absurd rfl (hother maxLength)
    | readFails => exact absurd rfl hfails
    | restart => exact absurd rfl hrestart
    | write | close | read => trivial

theorem Complete.take (hb : b.Complete size) {result : Option IpcReceived}
    (h : b.take = some (result,b')) :
    b'.Complete size ∧ ∃ call,b.calls[b.handled]? = some call ∧ result = some call.message := by
  obtain ⟨hsound,-,-,call,hcall,hresult⟩ := hb.toSound.take h
  obtain ⟨r,hr,heq⟩ := Option.map_eq_some_iff.mp h
  obtain ⟨rfl,rfl⟩ := Prod.mk.inj heq
  refine ⟨⟨hsound,hb.complete⟩,call,hcall,hresult.resolve_left fun hnone => ?_⟩
  exact hb.complete.well (hnone ▸ List.mem_of_getElem? hr)

end Mailbox

end FlightSoftware.Obc
