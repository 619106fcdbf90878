import FlightSoftware.Compute.Addressed

/-!
# Replies and the jobs they answer

The epoch keeps the replies of Data to the job they answer when they come in time.
It is a tag on the moment at which a reply is delivered, not on the request, so a
reply that is late by a whole job is taken for one to the next.
-/

namespace FlightSoftware.Compute
open Obc Data Run

/-! ### What a worker has to expect -/

/-- Chunks of a file, of which only the last may be marked as such. -/
def ReadsOnly : List TaggedReply → Prop
  | [] => True
  | reply :: more =>
    (∃ chunk,reply.reply = .read chunk ∧ (chunk.isLast = true → more = [])) ∧ ReadsOnly more

theorem ReadsOnly.sublist {replies replies' : List TaggedReply} (hs : replies'.Sublist replies)
    (h : ReadsOnly replies) : ReadsOnly replies' := by
  induction hs with
  | slnil => exact h
  | cons reply hs ih => exact ih h.2
  | cons_cons reply hs ih =>
    obtain ⟨⟨chunk,hreply,hlast⟩,hmore⟩ := h
    refine ⟨⟨chunk,hreply,fun hl => ?_⟩,ih hmore⟩
    have hnil := hlast hl
    subst hnil
    exact List.sublist_nil.mp hs

theorem readsOnly_of_completes {content received : List Byte} {replies : List DataReadReply}
    (h : Completes content received replies) (job : ℕ) :
    ReadsOnly (replies.map fun reply => ⟨.read reply,job,0⟩) := by
  induction replies generalizing received with
  | nil => trivial
  | cons reply more ih =>
    obtain ⟨-,h⟩ := h
    split_ifs at h with hlast
    · obtain ⟨rfl,-⟩ := h
      exact ⟨⟨reply,rfl,fun _ => rfl⟩,trivial⟩
    · exact ⟨⟨reply,rfl,fun hl => absurd hl hlast⟩,ih h⟩

theorem readsOnly_stream (file : Option (List Byte)) (failsAfter : Option ℕ) (job : ℕ) :
    ReadsOnly ((filesystemStreamFile file failsAfter).map fun reply => ⟨.read reply,job,0⟩) := by
  unfold filesystemStreamFile
  split
  · exact ⟨⟨errorReply,rfl,fun _ => rfl⟩,trivial⟩
  · split <;> exact readsOnly_of_completes (streamReplies_completes _ 0) job

/-- Data has acknowledged every chunk that the job has sent. -/
def Acknowledged (events : List Event) (number : ℕ) : Prop :=
  ∀ offset,.wrote number offset ∈ events → .acked number offset 0 ∈ events

/-- The job is reading: Data has its request, or is answering it. -/
structure ComputeState.Reading (s : ComputeState) (number : ℕ) : Prop where
  acknowledged : Acknowledged s.events number
  traffic : (∃ path,s.requestsOf number = [⟨.read path,number⟩] ∧ s.repliesOf number = []) ∨
    s.requestsOf number = [] ∧ ReadsOnly (s.repliesOf number)

/-- Data owes the job nothing. -/
structure ComputeState.Settled (s : ComputeState) (number : ℕ) : Prop where
  acknowledged : Acknowledged s.events number
  requests : s.requestsOf number = []
  replies : s.repliesOf number = []

/-- The job has sent a chunk: Data has it, or has acknowledged it. -/
structure ComputeState.Writing (s : ComputeState) (number written : ℕ) : Prop where
  acknowledged : ∀ offset,.wrote number offset ∈ s.events →
    offset = written ∨ .acked number offset 0 ∈ s.events
  traffic : (∃ path isLast payload,
      s.requestsOf number = [⟨.write path written isLast payload,number⟩] ∧
        s.repliesOf number = []) ∨
    s.requestsOf number = [] ∧
      ∃ status,(s.repliesOf number).Sublist [⟨.ack status,number,written⟩]

/-- What is on its way to a worker in a phase. -/
def WorkerPhase.Expects (s : ComputeState) (number : ℕ) : WorkerPhase → Prop
  | .start => True
  | .sendRead => True
  | .awaitRead _ => s.Reading number
  | .gotRead _ => s.Reading number
  | .awaitAck _ written _ => s.Writing number written
  | .finish _ status _ => status = .ok → Acknowledged s.events number
  | _ => s.Settled number

section

variable {s s' : ComputeState}

theorem QuietFor.acknowledged {number : ℕ} (hq : QuietFor number s s')
    (h : Acknowledged s.events number) : Acknowledged s'.events number :=
  fun offset hwrote => hq.mem (h offset (hq.wrote hwrote))

theorem QuietFor.reading {number : ℕ} (hq : QuietFor number s s') (h : s.Reading number) :
    s'.Reading number := by
  refine ⟨hq.acknowledged h.acknowledged,?_⟩
  have hreplies := hq.replies
  rw [hq.requests]
  rcases h.traffic with ⟨path,hrequests,hnone⟩ | ⟨hrequests,hreads⟩
  · rw [hnone] at hreplies
    exact .inl ⟨path,hrequests,List.sublist_nil.mp hreplies⟩
  · exact .inr ⟨hrequests,hreads.sublist hreplies⟩

theorem QuietFor.settled {number : ℕ} (hq : QuietFor number s s') (h : s.Settled number) :
    s'.Settled number := by
  have hreplies := hq.replies
  rw [h.replies] at hreplies
  exact ⟨hq.acknowledged h.acknowledged,hq.requests.trans h.requests,
    List.sublist_nil.mp hreplies⟩

theorem QuietFor.writing {number written : ℕ} (hq : QuietFor number s s')
    (h : s.Writing number written) : s'.Writing number written := by
  refine ⟨fun offset hwrote => (h.acknowledged offset (hq.wrote hwrote)).imp id hq.mem,?_⟩
  have hreplies := hq.replies
  rw [hq.requests]
  rcases h.traffic with ⟨path,isLast,payload,hrequests,hnone⟩ | ⟨hrequests,status,hack⟩
  · rw [hnone] at hreplies
    exact .inl ⟨path,isLast,payload,hrequests,List.sublist_nil.mp hreplies⟩
  · exact .inr ⟨hrequests,status,hreplies.trans hack⟩

/-- A worker that does not move expects the same after a step that is quiet for its job. -/
theorem QuietFor.expects {number : ℕ} (hq : QuietFor number s s') {phase : WorkerPhase}
    (h : phase.Expects s number) : phase.Expects s' number := by
  cases phase with
  | start => trivial
  | sendRead => trivial
  | awaitRead => exact hq.reading h
  | gotRead => exact hq.reading h
  | awaitAck => exact hq.writing h
  | finish => exact fun hok => hq.acknowledged (h hok)
  | encode | encoded | sendChunk | acked => exact hq.settled h

/-! ### Data answers -/

/-- Data answers the request of a worker that waits for it. -/
theorem serve_expects {io : ServeIo} (hstep : s.serve io = some s') {number : ℕ}
    {phase : WorkerPhase} (h : phase.Expects s number) : phase.Expects s' number := by
  obtain ⟨q,rest,replies,opened,hrequests,hsending,hanswers,rfl⟩ := serve_eq_some hstep
  by_cases hjob : q.job = number
  swap
  · exact (serve_quiet hrequests hsending hanswers hjob).expects h
  subst hjob
  obtain ⟨hrequestsOf,hrepliesOf⟩ := serve_own hrequests hsending hanswers
  cases phase with
  | start => trivial
  | sendRead => trivial
  | finish => exact h
  | encode | encoded | sendChunk | acked =>
    have := h.requests
    rw [hrequestsOf] at this
    cases this
  | awaitRead | gotRead =>
    refine ⟨h.acknowledged,.inr ?_⟩
    rcases h.traffic with ⟨path,hown,hnone⟩ | ⟨hown,-⟩
    · rw [hrequestsOf] at hown
      obtain ⟨hq,hrest⟩ := List.cons.inj hown
      refine ⟨hrest,?_⟩
      rw [hrepliesOf,hnone,List.nil_append]
      cases hanswers with
      | read path io hrequest => exact readsOnly_stream _ _ _
      | ack path offset isLast payload status hrequest =>
        rw [hq] at hrequest
        cases hrequest
    · rw [hrequestsOf] at hown
      cases hown
  | awaitAck output written chunkLen =>
    refine ⟨h.acknowledged,.inr ?_⟩
    rcases h.traffic with ⟨path,isLast,payload,hown,hnone⟩ | ⟨hown,-⟩
    · rw [hrequestsOf] at hown
      obtain ⟨hq,hrest⟩ := List.cons.inj hown
      refine ⟨hrest,?_⟩
      rw [hrepliesOf,hnone,List.nil_append]
      cases hanswers with
      | read path io hrequest =>
        rw [hq] at hrequest
        cases hrequest
      | ack path offset isLast payload status hrequest =>
        rw [hq] at hrequest
        cases hrequest
        exact ⟨status,List.Sublist.refl _⟩
    · rw [hrequestsOf] at hown
      cases hown

/-! ### Steps of the worker -/

theorem Acknowledged.giveUp {status : ComputeStatus} (hstatus : status ≠ .ok) (number : ℕ) :
    (WorkerPhase.giveUp status).Expects s number := fun hok => absurd hok hstatus

section

variable {number : ℕ} {job : WorkerJob} {ws : List Worker}

/-- The worker takes a chunk of its own file. -/
theorem ComputeState.Reading.readChunk (h : s.Reading number) {input : List Byte}
    {reply : TaggedReply} {chunk : DataReadReply} (hslot : s.mailbox.slot = some reply)
    (hjob : reply.job = number) (hreply : reply.reply = .read chunk) :
    (readChunk input chunk).Expects { s.perform number job .take with workers := ws } number := by
  have hq := ((s.perform_quiet number job .take (by simp)).withWorkers ws).job number
  have hfirst := take_replies job ws hslot hjob
  obtain ⟨hrequests,⟨chunk',hreply',hlast⟩,hmore⟩ : s.requestsOf number = [] ∧ ReadsOnly (reply ::
      ComputeState.repliesOf { s.perform number job .take with workers := ws } number) := by
    rcases h.traffic with ⟨path,-,hnone⟩ | hreads
    · rw [hnone] at hfirst
      cases hfirst
    · rwa [hfirst] at hreads
  rw [hreply] at hreply'
  cases hreply'
  unfold Compute.readChunk
  split_ifs with hstatus hlength hisLast
  · exact Acknowledged.giveUp (by decide) number
  · exact Acknowledged.giveUp (by decide) number
  · exact ⟨hq.acknowledged h.acknowledged,hq.requests.trans hrequests,hlast hisLast⟩
  · exact ⟨hq.acknowledged h.acknowledged,.inr ⟨hq.requests.trans hrequests,hmore⟩⟩

/-- The worker takes the acknowledgement of the chunk that it has sent. -/
theorem ComputeState.Writing.ackChunk {written : ℕ} (h : s.Writing number written)
    (hsent : ∀ reply ∈ s.arrived,∀ e ∈ reply.ackEvent,e ∈ s.events) {output : List Byte}
    {chunkLen : ℕ} {reply : TaggedReply} (hslot : s.mailbox.slot = some reply)
    (hjob : reply.job = number) :
    (ackChunk output written chunkLen reply.reply).Expects
      { s.perform number job .take with workers := ws } number := by
  have hq := ((s.perform_quiet number job .take (by simp)).withWorkers ws).job number
  have hfirst := take_replies job ws hslot hjob
  obtain ⟨hrequests,status,hsub⟩ : s.requestsOf number = [] ∧ ∃ status,(reply ::
      ComputeState.repliesOf { s.perform number job .take with workers := ws } number).Sublist
        [⟨.ack status,number,written⟩] := by
    rcases h.traffic with ⟨path,isLast,payload,-,hnone⟩ | hacks
    · rw [hnone] at hfirst
      cases hfirst
    · rwa [hfirst] at hacks
  obtain ⟨hreply,hnone⟩ : reply = ⟨.ack status,number,written⟩ ∧
      ComputeState.repliesOf { s.perform number job .take with workers := ws } number = [] := by
    cases hsub with
    | cons _ hsub => cases hsub
    | cons_cons _ hsub => exact ⟨rfl,List.sublist_nil.mp hsub⟩
  rw [hreply]
  unfold Compute.ackChunk
  dsimp only
  split_ifs with hstatus
  · exact Acknowledged.giveUp (by decide) number
  · refine ⟨fun offset hwrote => hq.mem ?_,hq.requests.trans hrequests,hnone⟩
    rcases h.acknowledged offset (hq.wrote hwrote) with rfl | hacked
    · have hzero : status = 0 := not_not.mp hstatus
      have hack : .acked number offset status ∈ s.events := by
        refine hsent reply ?_ _ ?_
        · rw [ComputeState.arrived,hslot]
          exact List.mem_cons_self
        · rw [hreply]
          exact List.mem_singleton_self _
      rwa [hzero] at hack
    · exact hacked

/-- A worker that has sent a chunk waits for its acknowledgement. -/
theorem ComputeState.Settled.write (h : s.Settled number) (path output : List Byte) (written : ℕ)
    (delivered : Bool) :
    ComputeState.Writing { s.perform number job
      (.request (writeChunk path output written) delivered) with workers := ws } number written := by
  constructor
  case acknowledged =>
    intro offset hwrote
    rcases List.mem_append.mp hwrote with hwrote | hwrote
    · exact .inr (List.mem_append_left _ (h.acknowledged offset hwrote))
    · cases List.mem_singleton.mp hwrote
      exact .inl rfl
  case traffic =>
    have hrequests := request_requests s number job ws (writeChunk path output written) delivered
    rw [h.requests,List.nil_append] at hrequests
    rw [hrequests]
    have hnone : ComputeState.repliesOf { s.perform number job
        (.request (writeChunk path output written) delivered) with workers := ws } number = [] :=
      h.replies
    cases delivered with
    | true => exact .inl ⟨path,_,_,rfl,hnone⟩
    | false =>
      refine .inr ⟨rfl,0,?_⟩
      rw [hnone]
      exact List.nil_sublist _

/-- A worker that has sent its read request waits for the file. -/
theorem ComputeState.Untouched.read (h : s.Untouched number) (path : List Byte) (delivered : Bool) :
    ComputeState.Reading { s.perform number job (.request (.read path) delivered) with
      workers := ws } number := by
  constructor
  case acknowledged =>
    intro offset hwrote
    rcases List.mem_append.mp hwrote with hwrote | hwrote
    · exact absurd hwrote (h.wrote offset)
    · cases hwrote
  case traffic =>
    have hrequests := request_requests s number job ws (.read path) delivered
    rw [h.requests,List.nil_append] at hrequests
    rw [hrequests]
    have hnone : ComputeState.repliesOf { s.perform number job (.request (.read path) delivered) with
      workers := ws } number = [] := h.replies
    rw [hnone]
    cases delivered with
    | true => exact .inl ⟨path,rfl,rfl⟩
    | false => exact .inr ⟨rfl,trivial⟩

/-- A step of the worker leads to a phase that expects what is on its way then, if the reply in
the slot is for its job. -/
theorem WorkerMove.expects {cancelled : Bool} {phase phase' : WorkerPhase} {effect : WorkerEffect}
    (hmove : WorkerMove s.mailbox cancelled job phase phase' effect)
    (h : phase.Expects s number) (hfresh : phase = .sendRead → s.Untouched number)
    (hown : ∀ reply,s.mailbox.slot = some reply → reply.job = number)
    (hsent : ∀ reply ∈ s.arrived,∀ e ∈ reply.ackEvent,e ∈ s.events) :
    phase'.Expects { s.perform number job effect with workers := ws } number := by
  have hq : (∀ request delivered,effect ≠ .request request delivered) →
      QuietFor number s { s.perform number job effect with workers := ws } :=
    fun heffect => ((s.perform_quiet number job effect heffect).withWorkers ws).job number
  cases hmove with
  | load => trivial
  | request delivered => exact (hfresh rfl).read _ _
  | noChunk | encodeFails | noAck | noRoom => exact Acknowledged.giveUp (by decide) number
  | skipAck hslot hreply =>
    -- there is no acknowledgement among the replies to a read request
    have hfirst := take_replies job ws hslot (hown _ hslot)
    rcases h.traffic with ⟨path,-,hnone⟩ | ⟨-,hreads⟩
    · rw [hnone] at hfirst
      cases hfirst
    · rw [hfirst] at hreads
      obtain ⟨chunk,hchunk,-⟩ := hreads.1
      rw [hreply] at hchunk
      cases hchunk
  | chunk hslot hreply => exact h.readChunk hslot (hown _ hslot) hreply
  | readOn =>
    cases cancelled with
    | true => exact Acknowledged.giveUp (by decide) number
    | false => exact (hq (by simp)).reading h
  | encode => exact (hq (by simp)).settled h
  | beginWriting | writeOn =>
    cases cancelled with
    | true => exact Acknowledged.giveUp (by decide) number
    | false => exact (hq (by simp)).settled h
  | write delivered => exact h.write _ _ _ _
  | done => exact fun _ => (hq (by simp)).acknowledged h.acknowledged
  | ack hslot => exact h.ackChunk hsent hslot (hown _ hslot)
  | @finish stage =>
    refine fun hok => (hq ?_).acknowledged (h hok)
    cases stage <;> simp [finishStep]

end

/-! ### Every run in which replies come in time -/

/-- All replies matter. -/
abbrev ComputeState.Timely (s : ComputeState) (action : ComputeAction) : Prop :=
  s.TimelyFor (fun _ => True) action

structure ComputeState.InTime (s : ComputeState) : Prop where
  orderly : s.Orderly
  dated : s.Dated
  addressed : s.Addressed fun _ => True
  expects : ∀ w ∈ s.workers,w.phase.Expects s w.number
  succeeded : ∀ {number jobId src outputSize},
    .result number jobId src .ok outputSize ∈ s.events → Acknowledged s.events number

theorem ComputeState.inTime_initial : ComputeState.initial.InTime where
  orderly := orderly_initial
  dated := dated_initial
  addressed := addressed_initial
  expects w hw := by cases hw
  succeeded h := by cases h

theorem expects_start {w : Worker} (h : w.phase = .start) : w.phase.Expects s w.number := by
  rw [h]
  trivial

theorem ComputeState.InTime.step_expects (h : s.InTime) {action : ComputeAction}
    (hstep : s.step action = some s') : ∀ v ∈ s'.workers,v.phase.Expects s' v.number := by
  cases action with
  | worker i io =>
    obtain ⟨w,phase,effect,ws,hw,hmove,rfl,hws⟩ := h.orderly.worker_moves hstep
    intro v hv
    obtain ⟨hnumber,hphase⟩ := hws v hv
    rw [hnumber,hphase]
    refine hmove.expects (h.expects w hw) ?_ ?_ h.dated.sent
    · exact fun hfresh => h.dated.unserved (.inr ⟨w,hw,rfl,.inr hfresh⟩)
    · exact fun reply hslot => h.addressed.slot hslot trivial w.holder (s.holder_mem hw)
  | serve io =>
    exact step_forall_workers hstep (by simp) (fun _ => expects_start)
      fun w hw => serve_expects hstep (h.expects w hw)
  | compress | cancel | takeReply | dispatch | send =>
    exact step_forall_workers hstep (by simp) (fun _ => expects_start)
      fun w hw => ((step_quiet hstep (by simp) (by simp)).job _).expects (h.expects w hw)

theorem perform_succeeded {n number : ℕ} {job : WorkerJob} {effect : WorkerEffect}
    {jobId : BitVec 32} {src : ObcRole} {outputSize : ℕ}
    (hresult : .result number jobId src .ok outputSize ∈ (s.perform n job effect).events) :
    .result number jobId src .ok outputSize ∈ s.events ∨
      effect = .sendResult .ok outputSize ∧ n = number := by
  cases effect with
  | none | load | endEpoch | endWatch | release => exact .inl hresult
  | request request delivered =>
    left
    refine (List.mem_append.mp hresult).resolve_right fun hm => ?_
    obtain ⟨offset,heq⟩ := mem_wroteEvent hm
    cases heq
  | take =>
    left
    refine (List.mem_append.mp hresult).resolve_right fun hm => ?_
    obtain ⟨reply,-,heq⟩ := List.mem_map.mp hm
    cases heq
  | sendResult status outputSize' =>
    refine (List.mem_append.mp hresult).imp id fun hm => ?_
    cases List.mem_singleton.mp hm
    exact ⟨rfl,rfl⟩

/-- A result OK is that of a worker which has had all its chunks acknowledged. -/
theorem step_succeeded {action : ComputeAction} (h : s.step action = some s') {number : ℕ}
    {jobId : BitVec 32} {src : ObcRole} {outputSize : ℕ}
    (hresult : .result number jobId src .ok outputSize ∈ s'.events) :
    .result number jobId src .ok outputSize ∈ s.events ∨
      ∃ w ∈ s.workers,w.number = number ∧ w.phase = .finish .send .ok outputSize := by
  cases action with
  | compress req src =>
    obtain ⟨-,hs'⟩ := Option.ite_none_right_eq_some.mp h
    cases hs'
    exact .inl hresult
  | cancel jobId =>
    obtain ⟨-,hs'⟩ := Option.ite_none_right_eq_some.mp h
    cases hs'
    exact .inl (old_event hresult (by simp))
  | takeReply =>
    obtain ⟨reply,socket,-,-,rfl⟩ := takeReply_eq_some h
    exact .inl hresult
  | dispatch io =>
    left
    cases dispatchStep_move h with
    | deliver =>
      unfold ComputeState.deliverStep at hresult
      split at hresult <;> exact hresult
    | handle =>
      unfold ComputeState.handleCompressRequest at hresult
      dsimp only at hresult
      split_ifs at hresult <;> exact old_event hresult (by simp)
    | refuse => exact old_event hresult (by simp)
    | begin | watch | create | createFails => exact hresult
    | @failed n req src stage =>
      refine (perform_succeeded hresult).resolve_right ?_
      rintro ⟨heffect,-⟩
      cases stage <;> cases heffect
  | worker i io =>
    obtain ⟨w,phase,effect,hget,hnext,rfl⟩ := workerStep_eq_some h
    refine (perform_succeeded hresult).imp id ?_
    rintro ⟨heffect,hnumber⟩
    exact ⟨w,List.mem_of_getElem? hget,hnumber,(workerNext_move hnext).result heffect⟩
  | serve io =>
    obtain ⟨q,rest,replies,opened,-,-,-,rfl⟩ := serve_eq_some h
    exact .inl hresult
  | send delivered =>
    obtain ⟨reply,sending,-,rfl | rfl⟩ := send_eq_some h
    · left
      refine (List.mem_append.mp hresult).resolve_right fun hm => ?_
      obtain ⟨status,heq⟩ := mem_ackEvent hm
      cases heq
    · exact .inl hresult

/-- A worker that has not come to its result has none recorded. -/
theorem ComputeState.Orderly.no_result (h : s.Orderly) {w : Worker} (hw : w ∈ s.workers)
    (hphase : w.phase.step = .work) {jobId : BitVec 32} {src : ObcRole} {status : ComputeStatus}
    {outputSize : ℕ} : .result w.number jobId src status outputSize ∉ s.events := by
  intro hresult
  have hpending : w.number ∈ s.pending := by
    refine List.mem_append_right _ (List.mem_flatMap.mpr ⟨w.holder,s.holder_mem hw,?_⟩)
    rw [Holder.pending,Worker.holder,hphase]
    exact List.mem_singleton_self _
  have hcount := h.logbook.counted w.number
  rw [if_neg (fun hc => hc.2 hpending),resultsOf,List.countP_eq_zero] at hcount
  exact hcount _ hresult (by simp [Event.isResultOf])

/-- A new chunk is one of a job that has no result yet. -/
theorem step_wrote {action : ComputeAction} (h : s.step action = some s') {number offset : ℕ}
    (hwrote : .wrote number offset ∈ s'.events) : .wrote number offset ∈ s.events ∨
      ∃ w ∈ s.workers,w.number = number ∧ w.phase.step = .work := by
  cases action with
  | worker i io =>
    obtain ⟨w,phase,effect,hget,hnext,rfl⟩ := workerStep_eq_some h
    by_cases heffect : ∃ request delivered,effect = .request request delivered
    · obtain ⟨request,delivered,rfl⟩ := heffect
      refine (List.mem_append.mp hwrote).imp id fun hm => ?_
      obtain ⟨offset',heq⟩ := mem_wroteEvent hm
      cases heq
      refine ⟨w,List.mem_of_getElem? hget,rfl,?_⟩
      obtain ⟨hphase,-⟩ | ⟨output,written,hphase,-⟩ := (workerNext_move hnext).requests rfl
      · rw [hphase]
        rfl
      · rw [hphase]
        rfl
    · have hquiet := s.perform_quiet w.number w.job effect
        fun request delivered heq => heffect ⟨_,_,heq⟩
      exact .inl (((hquiet.withWorkers _).job _).wrote hwrote)
  | serve io =>
    obtain ⟨q,rest,replies,opened,-,-,-,rfl⟩ := serve_eq_some h
    exact .inl hwrote
  | compress | cancel | takeReply | dispatch | send =>
    exact .inl (((step_quiet h (by simp) (by simp)).job _).wrote hwrote)

theorem step_events {action : ComputeAction} (h : s.step action = some s') {e : Event}
    (he : e ∈ s.events) : e ∈ s'.events := by
  cases action with
  | worker i io =>
    obtain ⟨w,phase,effect,hget,hnext,rfl⟩ := workerStep_eq_some h
    cases effect with
    | none | load | endEpoch | endWatch | release => exact he
    | request | take | sendResult => exact List.mem_append_left _ he
  | serve io =>
    obtain ⟨q,rest,replies,opened,-,-,-,rfl⟩ := serve_eq_some h
    exact he
  | compress | cancel | takeReply | dispatch | send =>
    exact ((step_quiet h (by simp) (by simp)).job 0).mem he

theorem ComputeState.InTime.step {action : ComputeAction} (h : s.InTime)
    (htimely : s.Timely action) (hstep : s.step action = some s') : s'.InTime where
  orderly := h.orderly.step hstep
  dated := h.dated.step h.orderly hstep
  addressed := h.addressed.step h.orderly htimely hstep
  expects := h.step_expects hstep
  succeeded := by
    intro number jobId src outputSize hresult offset hwrote
    refine step_events hstep ?_
    rcases step_succeeded hstep hresult with hold | ⟨w,hw,rfl,hphase⟩
    · rcases step_wrote hstep hwrote with hwrote | ⟨w,hw,rfl,hphase⟩
      · exact h.succeeded hold offset hwrote
      · exact absurd hold (h.orderly.no_result hw hphase)
    · have hacknowledged := h.expects w hw
      rw [hphase] at hacknowledged
      rcases step_wrote hstep hwrote with hwrote | ⟨w',hw',-,hphase'⟩
      · exact hacknowledged rfl offset hwrote
      · rw [h.orderly.worker_unique hw' hw,hphase] at hphase'
        cases hphase'

end

/-- In a run in which no reply reaches `deliver_reply` while the epoch of another job is open, a
worker gets replies to requests of its own job only, and a job that ends with OK has had every one
of its chunks acknowledged with status 0. -/
theorem replies_stay_with_job {as : List ComputeAction} {s : ComputeState}
    (hrun : run ComputeState.step .initial as = some s)
    (htimely : ∀ pre a post t,as = pre ++ a :: post →
      run ComputeState.step .initial pre = some t → t.Timely a) :
    (∀ number reply,.took number reply ∈ s.events → reply.job = number) ∧
      ∀ number jobId src outputSize,.result number jobId src .ok outputSize ∈ s.events →
        ∀ offset,.wrote number offset ∈ s.events → .acked number offset 0 ∈ s.events := by
  have h : s.InTime := run_invariant_of (fun _ _ _ h htimely hstep => h.step htimely hstep)
    ComputeState.inTime_initial htimely hrun
  exact ⟨fun number reply htook => h.addressed.took htook trivial,
    fun number jobId src outputSize hresult => h.succeeded hresult⟩

/-- The steps from a compress request to the start of its worker. -/
def acceptance (jobId : BitVec 32) : List ComputeAction :=
  [.compress ⟨jobId,[],[]⟩ .mission,.dispatch ⟨false,true⟩,.dispatch ⟨false,true⟩,
    .dispatch ⟨false,true⟩,.dispatch ⟨false,true⟩]

/-- Steps of the worker whose calls go well, with `output` from the encoder. -/
def workerSteps (output : List Byte) (count : ℕ) : List ComputeAction :=
  List.replicate count (.worker 0 ⟨true,false,some output⟩)

/-- The worker waits in vain and goes through `send_result`. -/
def timeoutSteps : List ComputeAction := List.replicate 5 (.worker 0 ⟨true,true,none⟩)

/-- Data serves a request with one reply, and Compute receives it. -/
def replySteps : List ComputeAction :=
  [.serve ⟨some [],none,true⟩,.send true,.takeReply,.dispatch ⟨false,true⟩]

/-- A job whose replies come in time. -/
def timelyReplies : List ComputeAction :=
  acceptance 1 ++ workerSteps [7] 2 ++ replySteps ++ workerSteps [7] 4 ++ replySteps ++
    workerSteps [7] 4

theorem own_replies_taken : ∃ s,run ComputeState.step .initial timelyReplies = some s ∧
    .took 0 ⟨.read (readReply 0 []),0,0⟩ ∈ s.events ∧ .acked 0 0 0 ∈ s.events := by
  have hend : (run ComputeState.step .initial timelyReplies).map (fun s =>
      (decide (.took 0 ⟨.read (readReply 0 []),0,0⟩ ∈ s.events),
        decide (.result 0 1 .mission .ok 1 ∈ s.events),decide (.wrote 0 0 ∈ s.events))) =
      some (true,true,true) := by
    decide +kernel
  have hallowed : allowed ComputeState.step (fun s a => decide (s.Timely a)) .initial
      timelyReplies = true := by decide +kernel
  obtain ⟨s,hrun,hs⟩ := Option.map_eq_some_iff.mp hend
  simp only [Prod.mk.injEq,decide_eq_true_eq] at hs
  obtain ⟨htook,hresult,hwrote⟩ := hs
  have hown := replies_stay_with_job hrun fun pre a post t has hpre =>
    of_decide_eq_true (of_allowed hallowed has hpre)
  exact ⟨s,hrun,htook,hown.2 0 1 .mission 1 hresult 0 hwrote⟩

/-- Data is so slow that each job gets what the one before it has asked for. -/
def lateReplies : List ComputeAction :=
  acceptance 1 ++ workerSteps [7] 2 ++ timeoutSteps ++
    acceptance 2 ++ workerSteps [7] 2 ++ replySteps ++ workerSteps [7] 4 ++ timeoutSteps ++
    acceptance 3 ++ workerSteps [7] 2 ++ replySteps ++ workerSteps [7] 3 ++ replySteps ++
    workerSteps [7] 5

/-- The worker of the second job takes the file of the first, and that of the third ends with OK
on the acknowledgement of a chunk of the second. -/
theorem late_replies_taken : ∃ s,run ComputeState.step .initial lateReplies = some s ∧
    (∃ number reply,.took number reply ∈ s.events ∧ reply.job < number) ∧
    ∃ number jobId src outputSize offset,.result number jobId src .ok outputSize ∈ s.events ∧
      .wrote number offset ∈ s.events ∧ .acked number offset 0 ∉ s.events := by
  have hend : (run ComputeState.step .initial lateReplies).map (fun s =>
      (decide (.took 1 ⟨.read (readReply 0 []),0,0⟩ ∈ s.events),
        decide (.result 2 3 .mission .ok 1 ∈ s.events),decide (.wrote 2 0 ∈ s.events),
        decide (.acked 2 0 0 ∈ s.events))) = some (true,true,true,false) := by
    decide +kernel
  obtain ⟨s,hrun,hs⟩ := Option.map_eq_some_iff.mp hend
  simp only [Prod.mk.injEq,decide_eq_true_eq,decide_eq_false_iff_not] at hs
  obtain ⟨htook,hresult,hwrote,hacked⟩ := hs
  exact ⟨s,hrun,⟨1,_,htook,Nat.zero_lt_one⟩,2,3,.mission,1,0,hresult,hwrote,hacked⟩

end FlightSoftware.Compute
