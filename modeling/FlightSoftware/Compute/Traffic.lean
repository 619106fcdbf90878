import FlightSoftware.Compute.Orderly

/-!
# Requests and replies on their way

What Compute and Data have sent each other and not consumed yet, job by job. Most
steps pass messages on or lose some; requests are sent by workers and turned into
replies by Data. A job that has not sent its read request has nothing on its way.
-/

namespace FlightSoftware.Compute
open Obc Run

def DispatchPhase.inHand : DispatchPhase → List TaggedReply
  | .deliver reply _ => [reply]
  | _ => []

/-- The replies on their way to a worker, in their order. -/
def ComputeState.replies (s : ComputeState) : List TaggedReply :=
  s.mailbox.slot.toList ++ (s.dispatch.inHand ++ (s.socket ++ s.sending))

/-- The replies that Compute has received. -/
def ComputeState.arrived (s : ComputeState) : List TaggedReply :=
  s.mailbox.slot.toList ++ (s.dispatch.inHand ++ s.socket)

def ComputeState.repliesOf (s : ComputeState) (number : ℕ) : List TaggedReply :=
  s.replies.filter fun reply => reply.job = number

def ComputeState.requestsOf (s : ComputeState) (number : ℕ) : List TaggedRequest :=
  s.requests.filter fun request => request.job = number

/-- Messages are passed on, and some replies may be lost. -/
structure Quiet (s s' : ComputeState) : Prop where
  requests : s'.requests = s.requests
  replies : s'.replies.Sublist s.replies
  arrived : ∀ reply ∈ s'.arrived,reply ∈ s.arrived ∨ ∀ e ∈ reply.ackEvent,e ∈ s'.events
  events : ∃ more,s'.events = s.events ++ more ∧ ∀ number offset,.wrote number offset ∉ more

section

variable {s s' : ComputeState}

/-- The same for the messages of one job. -/
structure QuietFor (number : ℕ) (s s' : ComputeState) : Prop where
  requests : s'.requestsOf number = s.requestsOf number
  replies : (s'.repliesOf number).Sublist (s.repliesOf number)
  events : ∃ more,s'.events = s.events ++ more ∧ ∀ offset,.wrote number offset ∉ more

theorem Quiet.job (h : Quiet s s') (number : ℕ) : QuietFor number s s' := by
  obtain ⟨more,hevents,hmore⟩ := h.events
  refine ⟨?_,h.replies.filter _,more,hevents,hmore number⟩
  rw [ComputeState.requestsOf,ComputeState.requestsOf,h.requests]

theorem QuietFor.wrote {number offset : ℕ} (h : QuietFor number s s')
    (hwrote : .wrote number offset ∈ s'.events) : .wrote number offset ∈ s.events := by
  obtain ⟨more,hevents,hmore⟩ := h.events
  rw [hevents] at hwrote
  exact (List.mem_append.mp hwrote).resolve_right (hmore _)

theorem QuietFor.mem {number : ℕ} (h : QuietFor number s s') {e : Event} (he : e ∈ s.events) :
    e ∈ s'.events := by
  obtain ⟨more,hevents,-⟩ := h.events
  rw [hevents]
  exact List.mem_append_left _ he

/-! ### Quiet steps -/

theorem one_event (events : List Event) {e : Event} (h : ∀ number offset,e ≠ .wrote number offset) :
    ∃ more,events ++ [e] = events ++ more ∧ ∀ number offset,.wrote number offset ∉ more :=
  ⟨[e],rfl,fun number offset hm => h number offset (List.mem_singleton.mp hm).symm⟩

theorem no_chunks (events : List Event) : ∃ more,events = events ++ more ∧
    ∀ number offset,.wrote number offset ∉ more :=
  ⟨[],(List.append_nil _).symm,fun _ _ => List.not_mem_nil⟩

/-- A step that has nothing to do with messages, except that it may clear the slot. -/
theorem quiet_of_eq (hrequests : s'.requests = s.requests)
    (hslot : s'.mailbox.slot = s.mailbox.slot ∨ s'.mailbox.slot = none)
    (hhand : s'.dispatch.inHand = s.dispatch.inHand) (hsocket : s'.socket = s.socket)
    (hsending : s'.sending = s.sending)
    (hevents : ∃ more,s'.events = s.events ++ more ∧ ∀ number offset,.wrote number offset ∉ more) :
    Quiet s s' := by
  refine ⟨hrequests,?_,?_,hevents⟩
  · rw [ComputeState.replies,ComputeState.replies,hhand,hsocket,hsending]
    rcases hslot with hslot | hslot
    · rw [hslot]
    · rw [hslot]
      exact List.sublist_append_right _ _
  · intro reply hreply
    left
    rw [ComputeState.arrived,hhand,hsocket] at hreply
    rcases hslot with hslot | hslot
    · rwa [hslot] at hreply
    · rw [hslot] at hreply
      exact List.mem_append_right _ hreply

theorem dispatchJobEnd_cases (m : Mailbox) (epoch : BitVec 32) :
    m.dispatchJobEnd epoch = m ∨ (m.dispatchJobEnd epoch).slot = none := by
  unfold Mailbox.dispatchJobEnd
  split_ifs
  · exact .inr rfl
  · exact .inl rfl

/-- An effect other than a request leaves the requests, and takes the reply out of the slot or
leaves it there. -/
theorem ComputeState.perform_quiet (s : ComputeState) (number : ℕ) (job : WorkerJob)
    (effect : WorkerEffect) (h : ∀ request delivered,effect ≠ .request request delivered) :
    Quiet s (s.perform number job effect) := by
  cases effect with
  | request request delivered => exact absurd rfl (h _ _)
  | none | load | endWatch | release =>
    exact quiet_of_eq rfl (.inl rfl) rfl rfl rfl (no_chunks _)
  | sendResult status outputSize =>
    exact quiet_of_eq rfl (.inl rfl) rfl rfl rfl
      (one_event _ (by simp))
  | take =>
    refine quiet_of_eq rfl (.inr rfl) rfl rfl rfl ⟨_,rfl,?_⟩
    intro number offset hm
    obtain ⟨reply,-,heq⟩ := List.mem_map.mp hm
    cases heq
  | endEpoch =>
    exact quiet_of_eq rfl ((dispatchJobEnd_cases _ _).imp (congrArg Mailbox.slot) id) rfl rfl rfl
      (no_chunks _)

theorem Quiet.withWorkers (h : Quiet s s') (ws : List Worker) :
    Quiet s { s' with workers := ws } := ⟨h.requests,h.replies,h.arrived,h.events⟩

/-- The reply that a worker takes was the first one on its way. -/
theorem take_replies {number : ℕ} (job : WorkerJob) (ws : List Worker) {reply : TaggedReply}
    (hslot : s.mailbox.slot = some reply) (hjob : reply.job = number) :
    s.repliesOf number =
      reply :: ComputeState.repliesOf { s.perform number job .take with workers := ws } number := by
  simp [ComputeState.repliesOf,ComputeState.replies,ComputeState.perform,hslot,hjob]

/-- The worker's own request is the last one on its way to Data. -/
theorem request_requests (s : ComputeState) (number : ℕ) (job : WorkerJob) (ws : List Worker)
    (request : DataRequest) (delivered : Bool) :
    ComputeState.requestsOf
        { s.perform number job (.request request delivered) with workers := ws } number =
      s.requestsOf number ++ if delivered then [⟨request,number⟩] else [] := by
  cases delivered <;> simp [ComputeState.requestsOf,ComputeState.perform]

theorem deliverStep_quiet {reply : TaggedReply} {entryEpoch : Option (BitVec 32)}
    (hdispatch : s.dispatch = .deliver reply entryEpoch) (epoch : BitVec 32) (expired : Bool) :
    Quiet s (s.deliverStep reply epoch expired) := by
  have hreplies : s.replies = s.mailbox.slot.toList ++ (reply :: (s.socket ++ s.sending)) := by
    rw [ComputeState.replies,hdispatch]
    rfl
  have harrived : s.arrived = s.mailbox.slot.toList ++ (reply :: s.socket) := by
    rw [ComputeState.arrived,hdispatch]
    rfl
  unfold ComputeState.deliverStep
  split
  case h_1 =>
    refine ⟨rfl,?_,?_,no_chunks _⟩
    · rw [hreplies]
      exact List.Sublist.refl _
    · rw [harrived]
      exact fun r hr => .inl hr
  case h_2 =>
    refine ⟨rfl,?_,?_,no_chunks _⟩
    · rw [hreplies]
      exact (List.sublist_cons_self _ _).append_left _
    · rw [harrived]
      exact fun r hr => .inl (((List.sublist_cons_self _ _).append_left _).subset hr)
  case h_3 hstore =>
    have hempty := (deliverReply_store hstore).1
    refine ⟨rfl,?_,?_,no_chunks _⟩
    · rw [hreplies,hempty]
      exact List.Sublist.refl _
    · rw [harrived,hempty]
      exact fun r hr => .inl hr

/-- The dispatch thread sends nothing to Data. -/
theorem dispatchStep_quiet {io : DispatchIo} (h : s.dispatchStep io = some s') : Quiet s s' := by
  cases dispatchStep_move h with
  | deliver hdispatch => exact deliverStep_quiet hdispatch _ _
  | handle hdispatch =>
    unfold ComputeState.handleCompressRequest
    dsimp only
    split_ifs
    · exact quiet_of_eq rfl (.inl rfl) (by rw [hdispatch]; rfl) rfl rfl
        (one_event _ (by simp))
    · exact quiet_of_eq rfl (.inl rfl) (by rw [hdispatch]; rfl) rfl rfl
        (one_event _ (by simp))
  | refuse hdispatch =>
    exact quiet_of_eq rfl (.inl rfl) (by rw [hdispatch]; rfl) rfl rfl
      (one_event _ (by simp))
  | begin hdispatch =>
    exact quiet_of_eq rfl (.inr rfl) (by rw [hdispatch]; rfl) rfl rfl (no_chunks _)
  | watch hdispatch | create hdispatch | createFails hdispatch =>
    exact quiet_of_eq rfl (.inl rfl) (by rw [hdispatch]; rfl) rfl rfl (no_chunks _)
  | @failed number req src stage hdispatch =>
    have hquiet := s.perform_quiet number { s.currentJob with jobId := req.jobId,requester := src }
      (finishStep stage .failed 0).2 (by cases stage <;> simp [finishStep])
    have hhand : DispatchPhase.inHand (if stage = .release then .receive
        else .failed number req src (finishStep stage .failed 0).1) = s.dispatch.inHand := by
      rw [hdispatch]
      split_ifs <;> rfl
    have hreplies := hquiet.replies
    have harrived := hquiet.arrived
    rw [ComputeState.replies,s.perform_dispatch,← hhand] at hreplies
    rw [ComputeState.arrived,s.perform_dispatch,← hhand] at harrived
    exact ⟨hquiet.requests,hreplies,harrived,hquiet.events⟩

/-- Requests are sent by workers, and served by Data. All other steps are quiet. -/
theorem step_quiet {action : ComputeAction} (h : s.step action = some s')
    (hworker : ∀ i io,action ≠ .worker i io) (hserve : ∀ io,action ≠ .serve io) : Quiet s s' := by
  cases action with
  | worker i io => exact absurd rfl (hworker i io)
  | serve io => exact absurd rfl (hserve io)
  | compress req src =>
    obtain ⟨⟨hreceive,-⟩,hs'⟩ := Option.ite_none_right_eq_some.mp h
    cases hs'
    exact quiet_of_eq rfl (.inl rfl) (by rw [hreceive]; rfl) rfl rfl (no_chunks _)
  | cancel jobId =>
    obtain ⟨-,hs'⟩ := Option.ite_none_right_eq_some.mp h
    cases hs'
    exact quiet_of_eq rfl (.inl rfl) rfl rfl rfl
      (one_event _ (by simp))
  | takeReply =>
    obtain ⟨reply,socket,hreceive,hsocket,rfl⟩ := takeReply_eq_some h
    refine ⟨rfl,?_,?_,no_chunks _⟩
    · rw [ComputeState.replies,ComputeState.replies,hreceive,hsocket]
      exact List.Sublist.refl _
    · rw [ComputeState.arrived,ComputeState.arrived,hreceive,hsocket]
      exact fun r hr => .inl hr
  | dispatch io => exact dispatchStep_quiet h
  | send delivered =>
    obtain ⟨reply,sending,hsending,rfl | rfl⟩ := send_eq_some h
    · refine ⟨rfl,?_,?_,_,rfl,?_⟩
      · rw [ComputeState.replies,ComputeState.replies,hsending,List.append_assoc]
        exact List.Sublist.refl _
      · intro r hr
        have hcases : r ∈ s.arrived ∨ r = reply := by
          simp only [ComputeState.arrived,List.mem_append,List.mem_singleton] at hr ⊢
          tauto
        refine hcases.imp id ?_
        rintro rfl e he
        exact List.mem_append_right _ he
      · intro number offset hm
        obtain ⟨status,heq⟩ := mem_ackEvent hm
        cases heq
    · refine ⟨rfl,?_,fun r hr => .inl hr,no_chunks _⟩
      rw [ComputeState.replies,ComputeState.replies,List.append_nil]
      exact ((List.sublist_append_left _ _).append_left _).append_left _

/-! ### Requests served -/

/-- The replies of Data to a request, and the content it streams. -/
inductive Answers (q : TaggedRequest) : List TaggedReply → List (ℕ × List Byte) → Prop
  | read (path : List Byte) (io : ServeIo) (hrequest : q.request = .read path) :
    Answers q ((Data.filesystemStreamFile io.file io.failsAfter).map fun reply =>
      ⟨.read reply,q.job,0⟩) (io.readable.toList.map fun content => (q.job,content))
  | ack (path : List Byte) (offset : ℕ) (isLast : Bool) (payload : List Byte) (status : ℤ)
    (hrequest : q.request = .write path offset isLast payload) :
    Answers q [⟨.ack status,q.job,offset⟩] []

theorem Answers.job {q : TaggedRequest} {replies : List TaggedReply} {opened : List (ℕ × List Byte)}
    (h : Answers q replies opened) : ∀ reply ∈ replies,reply.job = q.job := by
  intro reply hm
  cases h with
  | read path io hrequest =>
    obtain ⟨r,-,rfl⟩ := List.mem_map.mp hm
    rfl
  | ack path offset isLast payload status hrequest =>
    rw [List.mem_singleton.mp hm]

theorem serve_eq_some {io : ServeIo} (h : s.serve io = some s') :
    ∃ q rest replies opened,s.requests = q :: rest ∧ s.sending = [] ∧ Answers q replies opened ∧
      s' = { s with requests := rest,sending := replies,opened := s.opened ++ opened } := by
  unfold ComputeState.serve at h
  split at h
  case h_1 path job requests hsending hrequests =>
    exact ⟨_,_,_,_,hrequests,hsending,.read path io rfl,(Option.some.inj h).symm⟩
  case h_2 path offset isLast payload job requests hsending hrequests =>
    refine ⟨_,_,_,_,hrequests,hsending,
      .ack path offset isLast payload (if io.written then 0 else -1) rfl,?_⟩
    rw [List.append_nil]
    exact (Option.some.inj h).symm
  case h_3 => cases h

/-- The requests of the other jobs stay, and so do the replies to them. -/
theorem serve_other {q : TaggedRequest} {rest : List TaggedRequest} {replies : List TaggedReply}
    {opened : List (ℕ × List Byte)} (hrequests : s.requests = q :: rest)
    (hsending : s.sending = []) (h : Answers q replies opened) {number : ℕ} (hne : q.job ≠ number) :
    let s' := { s with requests := rest,sending := replies,opened := s.opened ++ opened }
    s'.requestsOf number = s.requestsOf number ∧ s'.repliesOf number = s.repliesOf number := by
  constructor
  · simp [ComputeState.requestsOf,hrequests,hne]
  · have hnone : replies.filter (fun reply => reply.job = number) = [] := by
      rw [List.filter_eq_nil_iff]
      intro reply hm
      simp [h.job reply hm,hne]
    simp [ComputeState.repliesOf,ComputeState.replies,hsending,hnone]

theorem serve_quiet {q : TaggedRequest} {rest : List TaggedRequest} {replies : List TaggedReply}
    {opened : List (ℕ × List Byte)} (hrequests : s.requests = q :: rest)
    (hsending : s.sending = []) (h : Answers q replies opened) {number : ℕ} (hne : q.job ≠ number) :
    QuietFor number s
      { s with requests := rest,sending := replies,opened := s.opened ++ opened } := by
  obtain ⟨hrequestsOf,hrepliesOf⟩ := serve_other hrequests hsending h hne
  refine ⟨hrequestsOf,?_,[],(List.append_nil _).symm,fun _ => List.not_mem_nil⟩
  rw [hrepliesOf]

/-- The request of the job itself becomes the replies to it. -/
theorem serve_own {q : TaggedRequest} {rest : List TaggedRequest} {replies : List TaggedReply}
    {opened : List (ℕ × List Byte)} (hrequests : s.requests = q :: rest)
    (hsending : s.sending = []) (h : Answers q replies opened) :
    let s' := { s with requests := rest,sending := replies,opened := s.opened ++ opened }
    s.requestsOf q.job = q :: s'.requestsOf q.job ∧
      s'.repliesOf q.job = s.repliesOf q.job ++ replies := by
  constructor
  · simp [ComputeState.requestsOf,hrequests]
  · have hall : replies.filter (fun reply => reply.job = q.job) = replies := by
      rw [List.filter_eq_self]
      intro reply hm
      simp [h.job reply hm]
    simp [ComputeState.repliesOf,ComputeState.replies,hsending,hall]

/-! ### Jobs that have not sent their read request -/

def DispatchPhase.starting : DispatchPhase → List ℕ
  | .begin number _ _ => [number]
  | .watch number _ _ => [number]
  | .create number _ _ => [number]
  | _ => []

/-- The job is accepted, and its read request still to be sent. -/
def ComputeState.Unserved (s : ComputeState) (number : ℕ) : Prop :=
  number ∈ s.dispatch.starting ∨
    ∃ w ∈ s.workers,w.number = number ∧ (w.phase = .start ∨ w.phase = .sendRead)

/-- Nothing of the job is on its way. -/
structure ComputeState.Untouched (s : ComputeState) (number : ℕ) : Prop where
  requests : s.requestsOf number = []
  replies : s.repliesOf number = []
  wrote : ∀ offset,.wrote number offset ∉ s.events

theorem QuietFor.untouched {number : ℕ} (hq : QuietFor number s s') (h : s.Untouched number) :
    s'.Untouched number := by
  refine ⟨hq.requests.trans h.requests,?_,fun offset hm => h.wrote offset (hq.wrote hm)⟩
  have := hq.replies
  rw [h.replies] at this
  exact List.sublist_nil.mp this

theorem WorkerMove.fresh {m : Mailbox} {cancelled : Bool} {job : WorkerJob}
    {phase phase' : WorkerPhase} {effect : WorkerEffect}
    (h : WorkerMove m cancelled job phase phase' effect)
    (hphase' : phase' = .start ∨ phase' = .sendRead) : phase = .start := by
  cases h with
  | load => rfl
  | chunk hslot hreply =>
    unfold readChunk at hphase'
    split_ifs at hphase' <;> simp [WorkerPhase.giveUp] at hphase'
  | ack hslot =>
    unfold ackChunk at hphase'
    split at hphase'
    · split_ifs at hphase' <;> simp [WorkerPhase.giveUp] at hphase'
    · simp [WorkerPhase.giveUp] at hphase'
  | readOn | beginWriting | writeOn => cases cancelled <;> simp [WorkerPhase.giveUp] at hphase'
  | _ => simp [WorkerPhase.giveUp] at hphase'

theorem dispatchStep_unserved {io : DispatchIo} (h : s.dispatchStep io = some s') {number : ℕ}
    (hnumber : s'.Unserved number) : s.Unserved number ∨ number = s.handled := by
  cases dispatchStep_move h with
  | deliver hdispatch =>
    unfold ComputeState.deliverStep at hnumber
    split at hnumber <;> exact .inl (.inr (hnumber.resolve_left List.not_mem_nil))
  | handle hdispatch =>
    unfold ComputeState.handleCompressRequest at hnumber
    dsimp only at hnumber
    split_ifs at hnumber
    · exact .inl (.inr (hnumber.resolve_left List.not_mem_nil))
    · rcases hnumber with hnumber | hnumber
      · exact .inr (List.mem_singleton.mp hnumber)
      · exact .inl (.inr hnumber)
  | refuse hdispatch | createFails hdispatch =>
    exact .inl (.inr (hnumber.resolve_left List.not_mem_nil))
  | begin hdispatch | watch hdispatch =>
    refine .inl (hnumber.imp ?_ id)
    rw [hdispatch]
    exact id
  | create hdispatch =>
    obtain ⟨w,hw,hw'⟩ := hnumber.resolve_left List.not_mem_nil
    rcases List.mem_append.mp hw with hw | hw
    · exact .inl (.inr ⟨w,hw,hw'⟩)
    · left
      left
      rw [hdispatch,← hw'.1,List.mem_singleton.mp hw]
      exact List.mem_singleton_self _
  | @failed n req src stage hdispatch =>
    refine .inl (.inr ?_)
    rcases hnumber with hnumber | hnumber
    · change number ∈ DispatchPhase.starting (if stage = .release then .receive
        else .failed n req src (finishStep stage .failed 0).1) at hnumber
      split_ifs at hnumber <;> cases hnumber
    · cases stage <;> exact hnumber

theorem mem_workersAfter {i : ℕ} {w v : Worker} {phase : WorkerPhase} {effect : WorkerEffect}
    (h : v ∈ s.workersAfter i w phase effect) :
    v ∈ s.workers ∨ v.number = w.number ∧ v.phase = phase := by
  cases effect with
  | release => exact .inl (List.mem_of_mem_eraseIdx h)
  | none | load | request | take | sendResult | endEpoch | endWatch =>
    refine (List.mem_or_eq_of_mem_set h).imp id ?_
    rintro rfl
    exact ⟨rfl,rfl⟩

/-- Only the acceptance of a request makes a job that has nothing on its way. -/
theorem step_unserved {action : ComputeAction} (h : s.step action = some s') {number : ℕ}
    (hnumber : s'.Unserved number) : s.Unserved number ∨ number = s.handled := by
  cases action with
  | compress req src =>
    obtain ⟨⟨hreceive,-⟩,hs'⟩ := Option.ite_none_right_eq_some.mp h
    cases hs'
    exact .inl (.inr (hnumber.resolve_left List.not_mem_nil))
  | cancel jobId =>
    obtain ⟨-,hs'⟩ := Option.ite_none_right_eq_some.mp h
    cases hs'
    exact .inl hnumber
  | takeReply =>
    obtain ⟨reply,socket,-,-,rfl⟩ := takeReply_eq_some h
    exact .inl (.inr (hnumber.resolve_left List.not_mem_nil))
  | dispatch io => exact dispatchStep_unserved h hnumber
  | worker i io =>
    obtain ⟨w,phase,effect,hget,hnext,rfl⟩ := workerStep_eq_some h
    refine .inl (hnumber.imp ?_ ?_)
    · change number ∈ (s.perform w.number w.job effect).dispatch.starting → _
      rw [s.perform_dispatch]
      exact id
    · rintro ⟨v,hv,hnumber,hfresh⟩
      have hw : w ∈ s.workers := List.mem_of_getElem? hget
      rcases mem_workersAfter hv with hv | ⟨hnumber',hphase⟩
      · exact ⟨v,hv,hnumber,hfresh⟩
      · rw [hphase] at hfresh
        exact ⟨w,hw,hnumber' ▸ hnumber,.inl ((workerNext_move hnext).fresh hfresh)⟩
  | serve io =>
    obtain ⟨q,rest,replies,opened,-,-,-,rfl⟩ := serve_eq_some h
    exact .inl hnumber
  | send delivered =>
    obtain ⟨reply,sending,-,rfl | rfl⟩ := send_eq_some h
    · exact .inl hnumber
    · exact .inl hnumber

/-- A worker comes into being at its start. -/
theorem step_workers {action : ComputeAction} (h : s.step action = some s')
    (haction : ∀ i io,action ≠ .worker i io) {v : Worker} (hv : v ∈ s'.workers) :
    v ∈ s.workers ∨ v.phase = .start := by
  cases action with
  | worker i io => exact absurd rfl (haction i io)
  | compress req src | cancel jobId =>
    obtain ⟨-,hs'⟩ := Option.ite_none_right_eq_some.mp h
    cases hs'
    exact .inl hv
  | takeReply =>
    obtain ⟨reply,socket,-,-,rfl⟩ := takeReply_eq_some h
    exact .inl hv
  | dispatch io =>
    cases dispatchStep_move h with
    | deliver =>
      unfold ComputeState.deliverStep at hv
      split at hv <;> exact .inl hv
    | handle =>
      unfold ComputeState.handleCompressRequest at hv
      dsimp only at hv
      split_ifs at hv <;> exact .inl hv
    | create =>
      refine (List.mem_append.mp hv).imp id fun hv => ?_
      rw [List.mem_singleton.mp hv]
    | @failed number req src stage => cases stage <;> exact .inl hv
    | refuse | begin | watch | createFails => exact .inl hv
  | serve io =>
    obtain ⟨q,rest,replies,opened,-,-,-,rfl⟩ := serve_eq_some h
    exact .inl hv
  | send delivered =>
    obtain ⟨reply,sending,-,rfl | rfl⟩ := send_eq_some h
    · exact .inl hv
    · exact .inl hv

/-- A property of the workers survives a step of the other threads, if a worker has it at its
start. -/
theorem step_forall_workers {Q : Worker → Prop} {action : ComputeAction}
    (h : s.step action = some s') (haction : ∀ i io,action ≠ .worker i io)
    (hstart : ∀ v,v.phase = .start → Q v) (hold : ∀ w ∈ s.workers,Q w) : ∀ v ∈ s'.workers,Q v :=
  fun v hv => (step_workers h haction hv).elim (hold v) (hstart v)

/-- Messages belong to jobs that have been accepted, and there are none of a job that has not
sent its read request. -/
structure ComputeState.Dated (s : ComputeState) : Prop where
  requests : ∀ q ∈ s.requests,q.job < s.handled
  replies : ∀ reply ∈ s.replies,reply.job < s.handled
  wrote : ∀ {number offset},.wrote number offset ∈ s.events → number < s.handled
  unserved : ∀ {number},s.Unserved number → s.Untouched number
  sent : ∀ reply ∈ s.arrived,∀ e ∈ reply.ackEvent,e ∈ s.events

theorem ComputeState.dated_initial : ComputeState.initial.Dated where
  requests q hq := by cases hq
  replies reply hreply := by cases hreply
  wrote hwrote := by cases hwrote
  unserved h := by
    obtain h | ⟨w,hw,-⟩ := h
    · cases h
    · cases hw
  sent reply hreply := by cases hreply

/-- A job that has not been accepted yet has nothing on its way. -/
theorem ComputeState.Dated.untouched (h : s.Dated) : s.Untouched s.handled := by
  refine ⟨?_,?_,fun offset hm => lt_irrefl _ (h.wrote hm)⟩
  · rw [ComputeState.requestsOf,List.filter_eq_nil_iff]
    intro q hq
    simpa using (h.requests q hq).ne
  · rw [ComputeState.repliesOf,List.filter_eq_nil_iff]
    intro reply hreply
    simpa using (h.replies reply hreply).ne

theorem ComputeState.perform_handled (s : ComputeState) (number : ℕ) (job : WorkerJob)
    (effect : WorkerEffect) : (s.perform number job effect).handled = s.handled := by
  cases effect <;> rfl

theorem step_handled {action : ComputeAction} (h : s.step action = some s') :
    s.handled ≤ s'.handled := by
  cases action with
  | compress req src | cancel jobId =>
    obtain ⟨-,hs'⟩ := Option.ite_none_right_eq_some.mp h
    cases hs'
    exact le_refl _
  | takeReply =>
    obtain ⟨reply,socket,-,-,rfl⟩ := takeReply_eq_some h
    exact le_refl _
  | dispatch io =>
    cases dispatchStep_move h with
    | deliver =>
      unfold ComputeState.deliverStep
      split <;> exact le_refl _
    | handle =>
      unfold ComputeState.handleCompressRequest
      dsimp only
      split_ifs <;> exact Nat.le_succ _
    | failed => exact (s.perform_handled _ _ _).ge
    | _ => exact le_refl _
  | worker i io =>
    obtain ⟨w,phase,effect,-,-,rfl⟩ := workerStep_eq_some h
    exact (s.perform_handled _ _ _).ge
  | serve io =>
    obtain ⟨q,rest,replies,opened,-,-,-,rfl⟩ := serve_eq_some h
    exact le_refl _
  | send delivered =>
    obtain ⟨reply,sending,-,rfl | rfl⟩ := send_eq_some h
    · exact le_refl _
    · exact le_refl _

/-- The invariant is kept by a quiet step. -/
theorem ComputeState.Dated.quiet (h : s.Dated) (hq : Quiet s s') {action : ComputeAction}
    (hstep : s.step action = some s') : s'.Dated where
  requests q hm := by
    rw [hq.requests] at hm
    exact (h.requests q hm).trans_le (step_handled hstep)
  replies reply hm := (h.replies reply (hq.replies.subset hm)).trans_le (step_handled hstep)
  wrote hm := (h.wrote ((hq.job _).wrote hm)).trans_le (step_handled hstep)
  unserved hnumber := by
    rcases step_unserved hstep hnumber with hold | rfl
    · exact (hq.job _).untouched (h.unserved hold)
    · exact (hq.job _).untouched h.untouched
  sent reply hreply := by
    obtain ⟨more,hevents,-⟩ := hq.events
    refine (hq.arrived reply hreply).elim (fun hold e he => ?_) id
    rw [hevents]
    exact List.mem_append_left _ (h.sent reply hold e he)

theorem DispatchPhase.starting_eq_nil {phase : DispatchPhase} (h : phase.holders = []) :
    phase.starting = [] := by
  cases phase with
  | begin | watch | create => cases h
  | _ => rfl

/-- A worker that sends a request has sent its read request then. -/
theorem ComputeState.Orderly.request_served (ho : s.Orderly) {i : ℕ} {w : Worker}
    (hget : s.workers[i]? = some w) {phase : WorkerPhase} {request : DataRequest} {delivered : Bool}
    (hmove : WorkerMove s.mailbox (s.checkCancelled w.job.jobId) w.job w.phase phase
      (.request request delivered)) (number : ℕ) :
    ¬ ComputeState.Unserved { s.perform w.number w.job (.request request delivered) with
      workers := s.workersAfter i w phase (.request request delivered) } number := by
  obtain ⟨rfl,hw,hholders,-⟩ := ho.worker_only hget
  rintro (hstarting | ⟨v,hv,-,hfresh⟩)
  · change number ∈ s.dispatch.starting at hstarting
    rw [DispatchPhase.starting_eq_nil hholders] at hstarting
    cases hstarting
  · change v ∈ s.workers.set 0 _ at hv
    rw [hw] at hv
    rw [List.mem_singleton.mp hv] at hfresh
    obtain ⟨-,-,rfl⟩ | ⟨output,written,-,-,rfl⟩ := hmove.requests rfl
    · simp at hfresh
    · simp at hfresh

theorem ComputeState.Dated.request (h : s.Dated) (ho : s.Orderly) {i : ℕ} {w : Worker}
    (hget : s.workers[i]? = some w) {phase : WorkerPhase} {request : DataRequest} {delivered : Bool}
    (hmove : WorkerMove s.mailbox (s.checkCancelled w.job.jobId) w.job w.phase phase
      (.request request delivered)) :
    ComputeState.Dated { s.perform w.number w.job (.request request delivered) with
      workers := s.workersAfter i w phase (.request request delivered) } := by
  have hnumber : w.number < s.handled :=
    ho.logbook.numbers (ho.workers w (List.mem_of_getElem? hget)).handled
  refine ⟨?_,h.replies,?_,fun hunserved => absurd hunserved (ho.request_served hget hmove _),
    fun reply hreply e he => List.mem_append_left _ (h.sent reply hreply e he)⟩
  · intro q hq
    change q ∈ (if delivered then s.requests ++ [⟨request,w.number⟩] else s.requests) at hq
    split_ifs at hq
    · rcases List.mem_append.mp hq with hq | hq
      · exact h.requests q hq
      · rw [List.mem_singleton.mp hq]
        exact hnumber
    · exact h.requests q hq
  · intro number offset hwrote
    rcases List.mem_append.mp hwrote with hwrote | hwrote
    · exact h.wrote hwrote
    · obtain ⟨offset',heq⟩ := mem_wroteEvent hwrote
      cases heq
      exact hnumber

/-- Data turns a request into replies. -/
theorem ComputeState.Dated.serve (h : s.Dated) {io : ServeIo} (hstep : s.serve io = some s') :
    s'.Dated := by
  obtain ⟨q,rest,replies,opened,hrequests,hsending,hanswers,rfl⟩ := serve_eq_some hstep
  have hq : q.job < s.handled := h.requests q (by simp [hrequests])
  refine ⟨?_,?_,h.wrote,?_,h.sent⟩
  · intro q' hq'
    refine h.requests q' ?_
    rw [hrequests]
    exact List.mem_cons_of_mem _ hq'
  · intro reply hreply
    have hcases : reply ∈ s.replies ∨ reply ∈ replies := by
      simp only [ComputeState.replies,List.mem_append] at hreply ⊢
      tauto
    rcases hcases with hreply | hreply
    · exact h.replies reply hreply
    · rw [hanswers.job reply hreply]
      exact hq
  · intro number hnumber
    have huntouched : s.Untouched number := h.unserved hnumber
    have hne : q.job ≠ number := by
      rintro rfl
      have := (serve_own hrequests hsending hanswers).1
      rw [huntouched.requests] at this
      cases this
    exact (serve_quiet hrequests hsending hanswers hne).untouched huntouched

theorem ComputeState.Dated.step {action : ComputeAction} (h : s.Dated) (ho : s.Orderly)
    (hstep : s.step action = some s') : s'.Dated := by
  cases action with
  | worker i io =>
    obtain ⟨w,phase,effect,hget,hnext,rfl⟩ := workerStep_eq_some hstep
    by_cases heffect : ∃ request delivered,effect = .request request delivered
    · obtain ⟨request,delivered,rfl⟩ := heffect
      exact h.request ho hget (workerNext_move hnext)
    · have hquiet := s.perform_quiet w.number w.job effect
        fun request delivered heq => heffect ⟨_,_,heq⟩
      exact h.quiet (hquiet.withWorkers _) hstep
  | serve io => exact h.serve hstep
  | compress | cancel | takeReply | dispatch | send =>
    exact h.quiet (step_quiet hstep (by simp) (by simp)) hstep

end

end FlightSoftware.Compute
