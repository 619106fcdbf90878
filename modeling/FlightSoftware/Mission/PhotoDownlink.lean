import FlightSoftware.Data.Filesystem
import FlightSoftware.Lib.Run

/-!
# Downlink of a photo

`payload_commander_downlink_photo` of `payload_commander.c` asks Data for a file
and passes what it receives to the radio. It takes every reply that arrives for
one to its own request, so a reply to an earlier call that was given up becomes
part of the photo. Calls that begin with nothing of earlier calls on its way send
exactly the file they asked for.
-/

namespace FlightSoftware.Mission
open Obc Data Run

def maxPhotoSize : ℕ := 64 * 1024
def dataMaxPath : ℕ := 64

/-- The path in the request, cut by `snprintf`. -/
def requestPath (photoPath : List Byte) : List Byte := photoPath.take (dataMaxPath-1)

/-- A message in Mission's inbox: a reply of Data, or one of another size. -/
inductive Mail where
  | data (reply : DataReadReply)
  | other
  deriving DecidableEq

def Mail.toReply : Mail → Option DataReadReply
  | .data reply => some reply
  | .other => none

/-- A read request on its way to Data. `number` is that of the call that sent it. -/
structure ReadRequest where
  number : ℕ
  path : List Byte
  deriving DecidableEq

/-- A call of `payload_commander_downlink_photo` in its receive loop. `received` is what it has
in `photo_buf`, and its length is `total`. -/
structure PhotoCall where
  number : ℕ
  path : List Byte
  received : List Byte
  deriving DecidableEq

/-- A file that Data opened for a request, or a photo that a call returned 0 for. -/
structure Photo where
  number : ℕ
  path : List Byte
  bytes : List Byte
  deriving DecidableEq

/-- Mission's inbox, Data's requests and the replies that it is still to send, and the call in
progress. `opened` and `sent` record the files that were read and the photos that went to the
radio with result 0. -/
structure PhotoDownlink where
  inbox : List Mail
  requests : List ReadRequest
  sending : List DataReadReply
  call : Option PhotoCall
  returned : Option ℤ
  calls : ℕ
  opened : List Photo
  sent : List Photo
  deriving DecidableEq

def PhotoDownlink.initial : PhotoDownlink := ⟨[],[],[],none,none,0,[],[]⟩

inductive PhotoAction where
  /-- Mission calls; the request may get lost, which is not noticed. -/
  | call (photoPath : List Byte) (delivered : Bool)
  /-- Data opens the file of the next request, with what it finds there. -/
  | serve (file : Option (List Byte)) (failsAfter : Option ℕ)
  /-- Data sends the next reply, or gives up on it and ends the stream. -/
  | send (delivered : Bool)
  /-- Another message reaches Mission. -/
  | arrive
  /-- The call takes the next message. -/
  | receive (radioResult : ℤ)
  /-- The call waits in vain. -/
  | timeout
  /-- Between two calls Mission takes a message and ignores it. -/
  | discard

def PhotoDownlink.finish (s : PhotoDownlink) (result : ℤ) : PhotoDownlink :=
  { s with call := none,returned := some result }

/-- The call behind its receive loop. -/
def PhotoDownlink.transmit (s : PhotoDownlink) (call : PhotoCall) (radioResult : ℤ) :
    PhotoDownlink :=
  if call.received.length = 0 then s.finish (-1)
  else if radioResult ≠ 0 then s.finish (-1)
  else
    let photo : Photo := ⟨call.number,call.path,call.received⟩
    { s with sent := s.sent ++ [photo] }.finish 0

/-- The pass of the receive loop over a reply. -/
def PhotoDownlink.receiveReply (s : PhotoDownlink) (call : PhotoCall) (reply : DataReadReply)
    (radioResult : ℤ) : PhotoDownlink :=
  if reply.status ≠ 0 then s.finish (-1)
  else if call.received.length + reply.length > maxPhotoSize then s.finish (-1)
  else
    let call := { call with received := call.received ++ reply.chunk }
    if reply.isLast then s.transmit call radioResult else { s with call := some call }

def PhotoDownlink.step (s : PhotoDownlink) : PhotoAction → Option PhotoDownlink
  | .call photoPath delivered =>
    match s.call with
    | some _ => none
    | none =>
      let path := requestPath photoPath
      some { s with
        requests := if delivered then s.requests ++ [⟨s.calls,path⟩] else s.requests
        call := some ⟨s.calls,path,[]⟩
        calls := s.calls+1 }
  | .serve file failsAfter =>
    match s.requests,s.sending with
    | request :: requests,[] =>
      some { s with
        requests := requests
        sending := filesystemStreamFile file failsAfter
        opened := s.opened ++ file.toList.map fun content =>
          ⟨request.number,request.path,content⟩ }
    | _,_ => none
  | .send delivered =>
    match s.sending with
    | reply :: sending =>
      if delivered then some { s with inbox := s.inbox ++ [.data reply],sending := sending }
      else some { s with sending := [] }
    | [] => none
  | .arrive => some { s with inbox := s.inbox ++ [.other] }
  | .receive radioResult =>
    match s.call,s.inbox with
    | some call,.data reply :: inbox =>
      some ({ s with inbox := inbox }.receiveReply call reply radioResult)
    | some _,.other :: inbox => some { s with inbox := inbox }
    | _,_ => none
  | .timeout =>
    match s.call,s.inbox with
    | some _,[] => some (s.finish (-1))
    | _,_ => none
  | .discard =>
    match s.call,s.inbox with
    | none,_ :: inbox => some { s with inbox := inbox }
    | _,_ => none

/-! ### A call that starts clean -/

/-- The replies that the call would still take: those in the inbox and those that Data is about
to send. -/
def PhotoDownlink.pending (s : PhotoDownlink) : List DataReadReply :=
  s.inbox.filterMap Mail.toReply ++ s.sending

/-- Nothing of an earlier call is on its way. -/
def PhotoDownlink.Clean (s : PhotoDownlink) : Prop := s.pending = [] ∧ s.requests = []

/-- A call starts clean, and no read of Data fails while a call waits for it. -/
def PhotoDownlink.Undisturbed (s : PhotoDownlink) : PhotoAction → Prop
  | .call _ _ => s.Clean
  | .serve _ failsAfter => s.call ≠ none → failsAfter = none
  | _ => True

/-- What is on its way belongs to the call: its request, the error, or replies that go on where
it stands in the file that Data opened for it. -/
def PhotoDownlink.Own (s : PhotoDownlink) (call : PhotoCall) : Prop :=
  (s.pending = [] ∧ call.received = [] ∧
    (s.requests = [] ∨ s.requests = [⟨call.number,call.path⟩])) ∨
  (s.pending = [errorReply] ∧ call.received = [] ∧ s.requests = []) ∨
  (s.requests = [] ∧ ∃ content,⟨call.number,call.path,content⟩ ∈ s.opened ∧
    Continues content call.received s.pending)

structure PhotoDownlink.Honest (s : PhotoDownlink) : Prop where
  own : ∀ call,s.call = some call → s.Own call
  sent : ∀ photo ∈ s.sent,photo ∈ s.opened

namespace PhotoDownlink

variable {s s' : PhotoDownlink} {call : PhotoCall}

theorem Own.same (h : s.Own call) (hpending : s'.pending = s.pending)
    (hrequests : s'.requests = s.requests) (hopened : s'.opened = s.opened) : s'.Own call := by
  unfold Own at h ⊢
  rw [hpending,hrequests,hopened]
  exact h

theorem honest_finish (h : ∀ photo ∈ s.sent,photo ∈ s.opened) (result : ℤ) :
    (s.finish result).Honest := ⟨by rintro call ⟨⟩,h⟩

/-- A call waits for the request that it has just sent. -/
theorem Honest.begin_call (h : s.Honest) (hclean : s.Clean) (path : List Byte) (delivered : Bool) :
    Honest { s with
      requests := if delivered then s.requests ++ [⟨s.calls,path⟩] else s.requests
      call := some ⟨s.calls,path,[]⟩
      calls := s.calls+1 } := by
  refine ⟨?_,h.sent⟩
  rintro call ⟨⟩
  refine .inl ⟨hclean.1,rfl,?_⟩
  cases delivered with
  | true =>
    right
    change s.requests ++ _ = _
    rw [hclean.2]
    rfl
  | false => exact .inl hclean.2

/-- Data opens the file for the call's own request. -/
theorem Honest.serve (h : s.Honest) {request : ReadRequest} {requests : List ReadRequest}
    (hrequests : s.requests = request :: requests) {file : Option (List Byte)}
    {failsAfter : Option ℕ} (hreads : s.call ≠ none → failsAfter = none) :
    Honest { s with
      requests := requests
      sending := filesystemStreamFile file failsAfter
      opened := s.opened ++ file.toList.map fun content =>
        ⟨request.number,request.path,content⟩ } := by
  refine ⟨fun call hcall => ?_,fun photo hphoto => List.mem_append_left _ (h.sent photo hphoto)⟩
  have hcall : s.call = some call := hcall
  obtain rfl : failsAfter = none := hreads (by rw [hcall]; exact Option.some_ne_none call)
  obtain ⟨hpending,hreceived,hown⟩ | ⟨-,-,hnone⟩ | ⟨hnone,-⟩ := h.own call hcall
  · obtain hnone | hone := hown
    · rw [hnone] at hrequests
      cases hrequests
    rw [hone] at hrequests
    obtain ⟨rfl,rfl⟩ := List.cons.inj hrequests
    have hinbox : s.inbox.filterMap Mail.toReply = [] := (List.append_eq_nil_iff.mp hpending).1
    have hnow : ∀ opened,PhotoDownlink.pending { s with
        requests := [],sending := filesystemStreamFile file none,opened := opened } =
        filesystemStreamFile file none := by
      intro opened
      change s.inbox.filterMap Mail.toReply ++ _ = _
      rw [hinbox,List.nil_append]
    cases file with
    | none => exact .inr (.inl ⟨hnow _,hreceived,rfl⟩)
    | some content =>
      refine .inr (.inr ⟨rfl,content,List.mem_append_right _ (List.mem_singleton_self _),?_⟩)
      rw [hnow,hreceived]
      exact (streamReplies_completes content 0).continues
  · rw [hnone] at hrequests
    cases hrequests
  · rw [hnone] at hrequests
    cases hrequests

theorem Honest.send (h : s.Honest) {reply : DataReadReply} {sending : List DataReadReply}
    (hsending : s.sending = reply :: sending) :
    Honest { s with inbox := s.inbox ++ [.data reply],sending := sending } := by
  refine ⟨fun call hcall => (h.own call hcall).same ?_ rfl rfl,h.sent⟩
  change (s.inbox ++ [Mail.data reply]).filterMap Mail.toReply ++ sending = _
  rw [List.filterMap_append,pending,hsending,List.append_assoc]
  rfl

/-- The replies that will not be sent are no loss to the invariant. -/
theorem Honest.giveUp (h : s.Honest) : Honest { s with sending := [] } := by
  refine ⟨fun call hcall => ?_,h.sent⟩
  have hpending : PhotoDownlink.pending { s with sending := [] } =
      s.inbox.filterMap Mail.toReply := List.append_nil _
  unfold Own
  rw [hpending]
  obtain ⟨hnone,hrest⟩ | ⟨herror,hreceived,hrequests⟩ | ⟨hrequests,content,hopened,hcontinues⟩ :=
    h.own call hcall
  · exact .inl ⟨(List.append_eq_nil_iff.mp hnone).1,hrest⟩
  · obtain ⟨hinbox,-⟩ | ⟨hinbox,-⟩ := List.append_eq_singleton_iff.mp herror
    · exact .inl ⟨hinbox,hreceived,.inl hrequests⟩
    · exact .inr (.inl ⟨hinbox,hreceived,hrequests⟩)
  · exact .inr (.inr ⟨hrequests,content,hopened,hcontinues.left⟩)

/-- A photo is sent with the content of the file. -/
theorem honest_transmit (h : ∀ photo ∈ s.sent,photo ∈ s.opened)
    (hopened : ⟨call.number,call.path,call.received⟩ ∈ s.opened) (radioResult : ℤ) :
    (s.transmit call radioResult).Honest := by
  unfold PhotoDownlink.transmit
  split
  · exact honest_finish h (-1)
  · split
    · exact honest_finish h (-1)
    · refine honest_finish ?_ 0
      intro photo hphoto
      rcases List.mem_append.mp hphoto with hphoto | hphoto
      · exact h photo hphoto
      · exact List.mem_singleton.mp hphoto ▸ hopened

/-- The call takes the next reply, which is its own. -/
theorem Honest.receiveReply (h : s.Honest) {reply : DataReadReply} {inbox : List Mail}
    (hcall : s.call = some call) (hinbox : s.inbox = .data reply :: inbox) (radioResult : ℤ) :
    ({ s with inbox := inbox }.receiveReply call reply radioResult).Honest := by
  have hpending : s.pending = reply :: PhotoDownlink.pending { s with inbox := inbox } := by
    rw [pending,hinbox]
    rfl
  unfold PhotoDownlink.receiveReply
  split
  · refine honest_finish ?_ (-1)
    exact h.sent
  rename_i hstatus
  split
  · refine honest_finish ?_ (-1)
    exact h.sent
  obtain ⟨hnone,-⟩ | ⟨herror,-⟩ | ⟨hrequests,content,hopened,hcontinues⟩ := h.own call hcall
  · rw [hnone] at hpending
    cases hpending
  · rw [herror] at hpending
    obtain ⟨rfl,-⟩ := List.cons.inj hpending
    exact absurd (by decide) hstatus
  · rw [hpending] at hcontinues
    obtain ⟨-,hlast,hmore⟩ := hcontinues.next
    dsimp only
    split
    · rename_i hisLast
      obtain ⟨-,hcontent⟩ := hlast hisLast
      refine honest_transmit ?_ ?_ radioResult
      · exact h.sent
      · rw [hcontent]
        exact hopened
    · rename_i hisLast
      refine ⟨?_,h.sent⟩
      rintro call' ⟨⟩
      exact .inr (.inr ⟨hrequests,content,hopened,hmore (Bool.eq_false_iff.mpr hisLast)⟩)

theorem Honest.step (h : s.Honest) {a : PhotoAction} (ha : s.Undisturbed a)
    (hs : s.step a = some s') : s'.Honest := by
  cases a with
  | call photoPath delivered =>
    rw [PhotoDownlink.step] at hs
    split at hs
    · cases hs
    · obtain rfl := Option.some.inj hs
      exact h.begin_call ha _ delivered
  | serve file failsAfter =>
    rw [PhotoDownlink.step] at hs
    split at hs
    · rename_i hrequests hsending
      obtain rfl := Option.some.inj hs
      exact h.serve hrequests ha
    · cases hs
  | send delivered =>
    rw [PhotoDownlink.step] at hs
    split at hs
    · rename_i hsending
      split at hs
      · obtain rfl := Option.some.inj hs
        exact h.send hsending
      · obtain rfl := Option.some.inj hs
        exact h.giveUp
    · cases hs
  | arrive =>
    obtain rfl := Option.some.inj hs
    refine ⟨fun call hcall => (h.own call hcall).same ?_ rfl rfl,h.sent⟩
    change (s.inbox ++ [Mail.other]).filterMap Mail.toReply ++ s.sending = _
    rw [List.filterMap_append,pending]
    exact congrArg (· ++ s.sending) (List.append_nil _)
  | receive radioResult =>
    rw [PhotoDownlink.step] at hs
    split at hs
    · rename_i hcall hinbox
      obtain rfl := Option.some.inj hs
      exact h.receiveReply hcall hinbox radioResult
    · rename_i hcall hinbox
      obtain rfl := Option.some.inj hs
      refine ⟨fun call hcall => (h.own call hcall).same ?_ rfl rfl,h.sent⟩
      rw [pending,pending,hinbox]
      rfl
    · cases hs
  | timeout =>
    rw [PhotoDownlink.step] at hs
    split at hs
    · obtain rfl := Option.some.inj hs
      exact honest_finish h.sent (-1)
    · cases hs
  | discard =>
    rw [PhotoDownlink.step] at hs
    split at hs
    · rename_i hcall hinbox
      obtain rfl := Option.some.inj hs
      refine ⟨fun call hsome => ?_,h.sent⟩
      rw [show s.call = some call from hsome] at hcall
      cases hcall
    · cases hs

end PhotoDownlink

/-- In every run whose calls all start with nothing of earlier calls on its way, and in which no
read fails while a call waits, each photo sent with result 0 is the file that Data opened for
the request of that very call. -/
theorem photo_downlink_exact {actions : List PhotoAction} {s : PhotoDownlink}
    (hrun : run PhotoDownlink.step .initial actions = some s)
    (hundisturbed : ∀ pre a post t,actions = pre ++ a :: post →
      run PhotoDownlink.step .initial pre = some t → t.Undisturbed a) :
    ∀ photo ∈ s.sent,photo ∈ s.opened := by
  have hinitial : PhotoDownlink.initial.Honest := by
    refine ⟨?_,?_⟩
    · rintro call ⟨⟩
    · rintro photo ⟨⟩
  exact (run_invariant_of (I := PhotoDownlink.Honest) (fun s a s' h ha hs => h.step ha hs)
    hinitial hundisturbed hrun).sent

/-- A file of 450 bytes, and the path it is asked for by. -/
def photoFile : List Byte := List.replicate 450 0x5A#8

def photoPath : List Byte := [0x2F#8,0x70#8]

/-- One call, without a backlog. -/
def plainCall : List PhotoAction :=
  [.call photoPath true,.serve (some photoFile) none,.send true,.receive 0,.send true,.arrive,
    .receive 0,.receive 0,.send true,.receive 0]

theorem plain_call_sends_file : ∃ s,run PhotoDownlink.step .initial plainCall = some s ∧
    s.returned = some 0 ∧ s.sent = [⟨0,photoPath,photoFile⟩] ∧
    ∀ photo ∈ s.sent,photo ∈ s.opened := by
  have hrun : (run PhotoDownlink.step .initial plainCall).map (fun s => (s.returned,s.sent)) =
      some (some 0,[⟨0,photoPath,photoFile⟩]) := by
    decide +kernel
  obtain ⟨s,hs,hfields⟩ := Option.map_eq_some_iff.mp hrun
  refine ⟨s,hs,congrArg Prod.fst hfields,congrArg Prod.snd hfields,photo_downlink_exact hs ?_⟩
  intro pre a post t hsplit hpre
  cases pre with
  | nil =>
    obtain ⟨rfl,-⟩ := List.cons.inj hsplit
    obtain rfl := Option.some.inj hpre
    exact ⟨rfl,rfl⟩
  | cons first pre =>
    -- Only the first action is a call.
    have hmem : a ∈ plainCall.tail := by
      rw [hsplit]
      exact List.mem_append_right pre List.mem_cons_self
    simp only [plainCall,List.tail_cons,List.mem_cons,List.not_mem_nil,or_false] at hmem
    obtain rfl | rfl | rfl | rfl | rfl | rfl | rfl | rfl | rfl := hmem
    · exact fun _ => rfl
    all_goals trivial

/-- The first call gives up after one chunk. The second takes the rest of the first stream for
its own file and sends these 250 bytes, before Data has even seen its request. -/
def retryCall : List PhotoAction :=
  [.call photoPath true,.serve (some photoFile) none,.send true,.receive 0,.timeout,
    .call photoPath true,.send true,.send true,.receive 0,.receive 0]

theorem retry_sends_stale_tail : ∃ s,run PhotoDownlink.step .initial retryCall = some s ∧
    s.returned = some 0 ∧ s.sent = [⟨1,photoPath,photoFile.drop 200⟩] ∧
    s.opened = [⟨0,photoPath,photoFile⟩] ∧ ¬ ∀ photo ∈ s.sent,photo ∈ s.opened := by
  have hrun : (run PhotoDownlink.step .initial retryCall).map
      (fun s => (s.returned,s.sent,s.opened)) =
        some (some 0,[⟨1,photoPath,photoFile.drop 200⟩],[⟨0,photoPath,photoFile⟩]) := by
    decide +kernel
  obtain ⟨s,hs,hfields⟩ := Option.map_eq_some_iff.mp hrun
  obtain ⟨hreturned,hsent,hopened⟩ : s.returned = some 0 ∧ _ ∧ _ := by
    simpa only [Prod.mk.injEq] using hfields
  refine ⟨s,hs,hreturned,hsent,hopened,fun hall => ?_⟩
  rw [hsent,hopened] at hall
  have hmem := hall _ (List.mem_singleton_self _)
  rw [List.mem_singleton] at hmem
  exact absurd (congrArg Photo.number hmem) (by decide)

end FlightSoftware.Mission
