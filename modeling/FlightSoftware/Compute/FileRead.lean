import FlightSoftware.Compute.Replies

/-!
# The file that a job reads

Chunks carry their offset, but the worker appends whatever comes next. What it has
read is the beginning of its file as long as it gets its own chunks only and
`deliver_reply` drops none that is followed by another.
-/

namespace FlightSoftware.Compute
open Obc Data Run

def TaggedReply.isRead (reply : TaggedReply) : Bool :=
  match reply.reply with
  | .read _ => true
  | .ack _ => false

/-- A chunk that others follow. -/
def TaggedReply.isMiddle (reply : TaggedReply) : Bool :=
  match reply.reply with
  | .read chunk => !chunk.isLast
  | .ack _ => false

/-- The grace of `deliver_reply` is not over while the slot is full and there is a chunk in hand
that others follow. -/
def ComputeState.HasTime (s : ComputeState) : ComputeAction → Prop
  | .dispatch io => io.expired = true → s.mailbox.isOpen = true → s.mailbox.slot.isSome = true →
    ∀ reply ∈ s.dispatch.inHand,reply.isMiddle = false
  | _ => True

instance (s : ComputeState) : (action : ComputeAction) → Decidable (s.HasTime action)
  | .dispatch io => inferInstanceAs (Decidable (io.expired = true → s.mailbox.isOpen = true →
      s.mailbox.slot.isSome = true → ∀ reply ∈ s.dispatch.inHand,reply.isMiddle = false))
  | .compress _ _ => .isTrue trivial
  | .cancel _ => .isTrue trivial
  | .takeReply => .isTrue trivial
  | .worker _ _ => .isTrue trivial
  | .serve _ => .isTrue trivial
  | .send _ => .isTrue trivial

/-- Chunks of files come while their job is running, and none is dropped that others follow. -/
abbrev ComputeState.KeepsChunks (s : ComputeState) (action : ComputeAction) : Prop :=
  s.TimelyFor (fun reply => reply.isRead = true) action ∧ s.HasTime action

/-- The contents that Data has streamed for a job. -/
def ComputeState.openedFor (s : ComputeState) (number : ℕ) : List (List Byte) :=
  (s.opened.filter fun file => file.1 = number).map Prod.snd

/-- The job has read `input`, and the rest of the file is on its way or the request for it, unless
it has been lost. A file that cannot be opened gives replies with an error only. -/
inductive ComputeState.ReadingFile (s : ComputeState) (number : ℕ) (input : List Byte) : Prop
  | asked (path : List Byte) (hrequests : s.requestsOf number = [⟨.read path,number⟩])
    (hreplies : s.repliesOf number = []) (hopened : s.openedFor number = []) (hinput : input = [])
  | failed (replies : List DataReadReply) (hrequests : s.requestsOf number = [])
    (hreplies : s.repliesOf number = replies.map fun reply => ⟨.read reply,number,0⟩)
    (hstatus : ∀ reply ∈ replies,reply.status ≠ 0)
  | streams (content : List Byte) (replies : List DataReadReply)
    (hrequests : s.requestsOf number = [])
    (hreplies : s.repliesOf number = replies.map fun reply => ⟨.read reply,number,0⟩)
    (hopened : s.openedFor number = [content]) (hcontinues : Continues content input replies)

/-- What a worker has read in a phase. -/
def WorkerPhase.Reads (s : ComputeState) (number : ℕ) : WorkerPhase → Prop
  | .awaitRead input => s.ReadingFile number input
  | .gotRead input => s.ReadingFile number input
  | .encode input => s.requestsOf number = [] ∧ s.openedFor number = [input]
  | _ => True

section

variable {s s' : ComputeState}

/-- Replies may be lost from the end on. -/
theorem ComputeState.ReadingFile.kept {number : ℕ} {input : List Byte}
    (h : s.ReadingFile number input) (hrequests : s'.requestsOf number = s.requestsOf number)
    (hreplies : s'.repliesOf number <+: s.repliesOf number)
    (hopened : s'.openedFor number = s.openedFor number) : s'.ReadingFile number input := by
  cases h with
  | asked path hrequests' hreplies' hopened' hinput =>
    rw [hreplies'] at hreplies
    exact .asked path (hrequests.trans hrequests') (List.prefix_nil.mp hreplies)
      (hopened.trans hopened') hinput
  | failed replies hrequests' hreplies' hstatus =>
    rw [hreplies'] at hreplies
    obtain ⟨kept,hkept,heq⟩ := List.prefix_map_iff.mp hreplies
    refine .failed kept (hrequests.trans hrequests') heq fun reply hm => ?_
    exact hstatus reply (hkept.subset hm)
  | streams content replies hrequests' hreplies' hopened' hcontinues =>
    rw [hreplies'] at hreplies
    obtain ⟨kept,⟨lost,rfl⟩,heq⟩ := List.prefix_map_iff.mp hreplies
    exact .streams content kept (hrequests.trans hrequests') heq (hopened.trans hopened')
      hcontinues.left

/-- A reply that no other chunk follows may be lost. -/
theorem ComputeState.ReadingFile.lost {number : ℕ} {input : List Byte}
    (h : s.ReadingFile number input) {before after : List TaggedReply} {reply : TaggedReply}
    (hreplies : s.repliesOf number = before ++ reply :: after)
    (hreplies' : s'.repliesOf number = before ++ after) (hend : reply.isMiddle = false)
    (hrequests : s'.requestsOf number = s.requestsOf number)
    (hopened : s'.openedFor number = s.openedFor number) : s'.ReadingFile number input := by
  cases h with
  | asked path hrequests' hnone =>
    rw [hnone] at hreplies
    simp at hreplies
  | failed replies hrequests' hown hstatus =>
    rw [hown] at hreplies
    obtain ⟨a,rest,rfl,rfl,hrest⟩ := List.map_eq_append_iff.mp hreplies
    obtain ⟨r,b,rfl,rfl,rfl⟩ := List.map_eq_cons_iff.mp hrest
    refine .failed (a ++ b) (hrequests.trans hrequests') (by rw [hreplies',List.map_append]) ?_
    intro r' hr'
    refine hstatus r' ?_
    rw [List.mem_append] at hr' ⊢
    exact hr'.imp id (List.mem_cons_of_mem _)
  | streams content replies hrequests' hown hopened' hcontinues =>
    rw [hown] at hreplies
    obtain ⟨a,rest,rfl,rfl,hrest⟩ := List.map_eq_append_iff.mp hreplies
    obtain ⟨r,b,rfl,rfl,rfl⟩ := List.map_eq_cons_iff.mp hrest
    have hlast : r.isLast = true := by simpa [TaggedReply.isMiddle] using hend
    obtain rfl := hcontinues.last_end hlast
    refine .streams content a (hrequests.trans hrequests') ?_ (hopened.trans hopened')
      hcontinues.left
    rw [hreplies',List.map_nil,List.append_nil]

theorem ComputeState.ReadingFile.deliverStep {number : ℕ} {input : List Byte}
    (h : s.ReadingFile number input) {reply : TaggedReply} {entryEpoch : Option (BitVec 32)}
    (hdispatch : s.dispatch = .deliver reply entryEpoch) {expired : Bool}
    (hopen : s.mailbox.isOpen = true)
    (htime : expired = true → s.mailbox.slot.isSome = true → reply.isMiddle = false) :
    (s.deliverStep reply s.mailbox.epoch expired).ReadingFile number input := by
  have hreplies : s.replies = s.mailbox.slot.toList ++ (reply :: (s.socket ++ s.sending)) := by
    rw [ComputeState.replies,hdispatch]
    rfl
  have hsame : ∀ t : ComputeState,t.replies = s.replies → t.requests = s.requests →
      t.opened = s.opened → t.ReadingFile number input := by
    intro t hreplies' hrequests hopened
    refine h.kept ?_ ?_ ?_
    · rw [ComputeState.requestsOf,hrequests]
      rfl
    · rw [ComputeState.repliesOf,hreplies']
      exact List.prefix_refl _
    · rw [ComputeState.openedFor,hopened]
      rfl
  unfold ComputeState.deliverStep
  split
  case h_1 => exact hsame _ hreplies.symm rfl rfl
  case h_2 hdrop =>
    obtain ⟨hfull,hexpired⟩ := deliverReply_drop hopen hdrop
    have hbefore : s.repliesOf number = s.mailbox.slot.toList.filter (fun r => r.job = number) ++
        (reply :: (s.socket ++ s.sending)).filter fun r => r.job = number := by
      rw [ComputeState.repliesOf,hreplies,List.filter_append]
    have hafter : ComputeState.repliesOf { s with dispatch := .receive } number =
        s.mailbox.slot.toList.filter (fun r => r.job = number) ++
          (s.socket ++ s.sending).filter fun r => r.job = number := by
      rw [← List.filter_append]
      rfl
    by_cases hjob : reply.job = number
    · rw [List.filter_cons_of_pos (by simpa using hjob)] at hbefore
      exact h.lost hbefore hafter (htime hexpired hfull) rfl rfl
    · rw [List.filter_cons_of_neg (by simpa using hjob)] at hbefore
      exact h.kept rfl (by rw [hbefore,hafter]) rfl
  case h_3 hstore =>
    have hempty := (deliverReply_store hstore).1
    refine hsame _ ?_ rfl rfl
    rw [hreplies,hempty]
    rfl

/-- A worker that does not move has read the same after a step that loses replies from the end on
at most. -/
theorem WorkerPhase.Reads.kept {number : ℕ} {phase : WorkerPhase} (h : phase.Reads s number)
    (hrequests : s'.requests = s.requests) (hreplies : s'.replies <+: s.replies)
    (hopened : s'.opened = s.opened) : phase.Reads s' number := by
  have hrequestsOf : s'.requestsOf number = s.requestsOf number := by
    rw [ComputeState.requestsOf,ComputeState.requestsOf,hrequests]
  have hopenedFor : s'.openedFor number = s.openedFor number := by
    rw [ComputeState.openedFor,ComputeState.openedFor,hopened]
  have hrepliesOf : s'.repliesOf number <+: s.repliesOf number := hreplies.filter _
  cases phase with
  | awaitRead input | gotRead input =>
    exact ComputeState.ReadingFile.kept h hrequestsOf hrepliesOf hopenedFor
  | encode input => exact ⟨hrequestsOf.trans h.1,hopenedFor.trans h.2⟩
  | start | sendRead | encoded | sendChunk | awaitAck | acked | finish => trivial

theorem WorkerPhase.Reads.deliverStep {number : ℕ} {phase : WorkerPhase} (h : phase.Reads s number)
    {reply : TaggedReply} {entryEpoch : Option (BitVec 32)}
    (hdispatch : s.dispatch = .deliver reply entryEpoch) {expired : Bool}
    (hopen : phase.step = .work → s.mailbox.isOpen = true)
    (htime : expired = true → s.mailbox.isOpen = true → s.mailbox.slot.isSome = true →
      reply.isMiddle = false) :
    phase.Reads (s.deliverStep reply s.mailbox.epoch expired) number := by
  cases phase with
  | awaitRead input | gotRead input =>
    exact ComputeState.ReadingFile.deliverStep h hdispatch (hopen rfl)
      fun hexpired => htime hexpired (hopen rfl)
  | encode input =>
    have hrequests : (s.deliverStep reply s.mailbox.epoch expired).requests = s.requests :=
      (deliverStep_quiet hdispatch _ _).requests
    have hopened : (s.deliverStep reply s.mailbox.epoch expired).opened = s.opened := by
      unfold ComputeState.deliverStep
      split <;> rfl
    refine ⟨?_,?_⟩
    · rw [ComputeState.requestsOf,hrequests]
      exact h.1
    · rw [ComputeState.openedFor,hopened]
      exact h.2
  | start | sendRead | encoded | sendChunk | awaitAck | acked | finish => trivial

/-! ### Data serves a request -/

/-- The replies to a read request complete the content that Data streams, unless they report an
error. -/
theorem filesystemStreamFile_completes (io : ServeIo) :
    (io.readable = none ∧ ∀ reply ∈ filesystemStreamFile io.file io.failsAfter,reply.status ≠ 0) ∨
      ∃ content,io.readable = some content ∧
        Completes content [] (filesystemStreamFile io.file io.failsAfter) := by
  unfold ServeIo.readable filesystemStreamFile
  cases io.file with
  | none =>
    refine .inl ⟨rfl,fun reply hreply => ?_⟩
    rw [List.mem_singleton.mp hreply]
    decide
  | some content =>
    right
    cases io.failsAfter with
    | none => exact ⟨content,rfl,streamReplies_completes content 0⟩
    | some k => exact ⟨content.take k,rfl,streamReplies_completes (content.take k) 0⟩

theorem Answers.opened {q : TaggedRequest} {replies : List TaggedReply}
    {opened : List (ℕ × List Byte)} (h : Answers q replies opened) :
    ∀ file ∈ opened,file.1 = q.job := by
  intro file hfile
  cases h with
  | read path io hrequest =>
    obtain ⟨content,-,rfl⟩ := List.mem_map.mp hfile
    rfl
  | ack => cases hfile

/-- The contents streamed for the other jobs are those before. -/
theorem Answers.openedFor {q : TaggedRequest} {replies : List TaggedReply}
    {opened : List (ℕ × List Byte)} (h : Answers q replies opened) {number : ℕ}
    (hne : q.job ≠ number) (rest : List TaggedRequest) :
    ComputeState.openedFor { s with requests := rest,sending := replies,opened := s.opened ++ opened }
      number = s.openedFor number := by
  have hnone : opened.filter (fun file => file.1 = number) = [] := by
    rw [List.filter_eq_nil_iff]
    intro file hfile
    simp [h.opened file hfile,hne]
  simp [ComputeState.openedFor,hnone]

/-- Data streams the file that a worker has asked for. -/
theorem serve_reads {io : ServeIo} (hstep : s.serve io = some s') {number : ℕ}
    {phase : WorkerPhase} (h : phase.Reads s number) : phase.Reads s' number := by
  obtain ⟨q,rest,replies,opened,hrequests,hsending,hanswers,rfl⟩ := serve_eq_some hstep
  by_cases hjob : q.job = number
  swap
  · obtain ⟨hrequestsOf,hrepliesOf⟩ := serve_other hrequests hsending hanswers hjob
    have hopenedFor := hanswers.openedFor (s := s) hjob rest
    cases phase with
    | awaitRead input | gotRead input =>
      exact ComputeState.ReadingFile.kept h hrequestsOf (by rw [hrepliesOf]) hopenedFor
    | encode input => exact ⟨hrequestsOf.trans h.1,hopenedFor.trans h.2⟩
    | start | sendRead | encoded | sendChunk | awaitAck | acked | finish => trivial
  subst hjob
  obtain ⟨hrequestsOf,hrepliesOf⟩ := serve_own hrequests hsending hanswers
  cases phase with
  | awaitRead input | gotRead input =>
    cases h with
    | asked path hasked hreplies hopened hinput =>
      rw [hrequestsOf] at hasked
      obtain ⟨hq,hrest⟩ := List.cons.inj hasked
      rw [hreplies,List.nil_append] at hrepliesOf
      cases hanswers with
      | ack path offset isLast payload status hrequest =>
        rw [hq] at hrequest
        cases hrequest
      | read path io hrequest =>
        rcases filesystemStreamFile_completes io with ⟨-,hstatus⟩ | ⟨content,hreadable,hcompletes⟩
        · exact .failed _ hrest hrepliesOf hstatus
        · subst hinput
          refine .streams content _ hrest hrepliesOf ?_ hcompletes.continues
          rw [ComputeState.openedFor] at hopened ⊢
          rw [List.filter_append,List.map_append,hopened,hreadable]
          simp
    | failed replies hnone =>
      rw [hrequestsOf] at hnone
      cases hnone
    | streams content replies hnone =>
      rw [hrequestsOf] at hnone
      cases hnone
  | encode input =>
    have := h.1
    rw [hrequestsOf] at this
    cases this
  | start | sendRead | encoded | sendChunk | awaitAck | acked | finish => trivial

/-! ### Steps of the worker -/

theorem reads_giveUp (status : ComputeStatus) (number : ℕ) :
    (WorkerPhase.giveUp status).Reads s number := trivial

section

variable {number : ℕ} {job : WorkerJob} {ws : List Worker}

/-- The worker appends a chunk of its file. -/
theorem ComputeState.ReadingFile.readChunk {input : List Byte} (h : s.ReadingFile number input)
    {reply : TaggedReply} {chunk : DataReadReply} (hslot : s.mailbox.slot = some reply)
    (hjob : reply.job = number) (hreply : reply.reply = .read chunk) :
    (readChunk input chunk).Reads { s.perform number job .take with workers := ws } number := by
  have hfirst := take_replies job ws hslot hjob
  cases h with
  | asked path hrequests hnone =>
    rw [hnone] at hfirst
    cases hfirst
  | failed replies hrequests hown hstatus =>
    rw [hown] at hfirst
    obtain ⟨c,more,rfl,rfl,hmore⟩ := List.map_eq_cons_iff.mp hfirst
    cases hreply
    rw [Compute.readChunk,if_pos (hstatus _ List.mem_cons_self)]
    exact reads_giveUp _ _
  | streams content replies hrequests hown hopened hcontinues =>
    rw [hown] at hfirst
    obtain ⟨c,more,rfl,rfl,hmore⟩ := List.map_eq_cons_iff.mp hfirst
    cases hreply
    obtain ⟨-,hend,hnext⟩ := hcontinues.next
    unfold Compute.readChunk
    split_ifs with hstatus hlength hlast
    · exact reads_giveUp _ _
    · exact reads_giveUp _ _
    · refine ⟨hrequests,?_⟩
      rw [(hend hlast).2]
      exact hopened
    · exact .streams content more hrequests hmore.symm hopened
        (hnext (Bool.eq_false_iff.mpr hlast))

/-- A message that is not a chunk is none of the job's own. -/
theorem ComputeState.ReadingFile.skip {input : List Byte} (h : s.ReadingFile number input)
    {reply : TaggedReply} {status : ℤ} (hslot : s.mailbox.slot = some reply)
    (hreply : reply.reply = .ack status) :
    ComputeState.ReadingFile { s.perform number job .take with workers := ws } number input := by
  have hother : reply.job ≠ number := by
    intro hjob
    have hfirst := take_replies job ws hslot hjob
    cases h with
    | asked path hrequests hnone =>
      rw [hnone] at hfirst
      cases hfirst
    | failed replies hrequests hown | streams content replies hrequests hown =>
      rw [hown] at hfirst
      obtain ⟨c,more,rfl,rfl,hmore⟩ := List.map_eq_cons_iff.mp hfirst
      cases hreply
  refine h.kept rfl ?_ rfl
  have hsame : s.repliesOf number =
      ComputeState.repliesOf { s.perform number job .take with workers := ws } number := by
    simp [ComputeState.repliesOf,ComputeState.replies,ComputeState.perform,hslot,hother]
  rw [hsame]

theorem WorkerMove.reads {cancelled : Bool} {phase phase' : WorkerPhase} {effect : WorkerEffect}
    (hmove : WorkerMove s.mailbox cancelled job phase phase' effect)
    (h : phase.Reads s number)
    (hfresh : phase = .sendRead → s.Untouched number ∧ s.openedFor number = [])
    (hown : ∀ reply,s.mailbox.slot = some reply → reply.isRead = true → reply.job = number) :
    phase'.Reads { s.perform number job effect with workers := ws } number := by
  cases hmove with
  | load | encode | write | done | finish => trivial
  | noChunk | encodeFails | noAck | noRoom => exact reads_giveUp _ _
  | request delivered =>
    obtain ⟨huntouched,hopened⟩ := hfresh rfl
    have hrequests := request_requests s number job ws (.read job.inPath) delivered
    rw [huntouched.requests,List.nil_append] at hrequests
    cases delivered with
    | true => exact .asked job.inPath hrequests huntouched.replies hopened rfl
    | false =>
      exact .failed [] hrequests huntouched.replies (List.forall_mem_nil _)
  | skipAck hslot hreply => exact ComputeState.ReadingFile.skip h hslot hreply
  | @chunk input reply chunk hslot hreply =>
    refine ComputeState.ReadingFile.readChunk h hslot (hown _ hslot ?_) hreply
    rw [TaggedReply.isRead,hreply]
  | readOn =>
    cases cancelled with
    | true => exact reads_giveUp _ _
    | false => exact ComputeState.ReadingFile.kept h rfl (List.prefix_refl _) rfl
  | beginWriting | writeOn =>
    cases cancelled with
    | true => exact reads_giveUp _ _
    | false => trivial
  | ack =>
    unfold ackChunk
    split
    · split_ifs
      · exact reads_giveUp _ _
      · trivial
    · exact reads_giveUp _ _

end

/-! ### Every run that keeps its chunks -/

/-- Only Data opens files. -/
theorem step_opened {action : ComputeAction} (h : s.step action = some s')
    (hserve : ∀ io,action ≠ .serve io) : s'.opened = s.opened := by
  have hperform : ∀ number job effect,(s.perform number job effect).opened = s.opened := by
    intro number job effect
    cases effect <;> rfl
  cases action with
  | compress req src | cancel jobId =>
    obtain ⟨-,hs'⟩ := Option.ite_none_right_eq_some.mp h
    cases hs'
    rfl
  | takeReply =>
    obtain ⟨reply,socket,-,-,rfl⟩ := takeReply_eq_some h
    rfl
  | dispatch io =>
    cases dispatchStep_move h with
    | deliver =>
      unfold ComputeState.deliverStep
      split <;> rfl
    | handle =>
      unfold ComputeState.handleCompressRequest
      dsimp only
      split_ifs <;> rfl
    | failed => exact hperform _ _ _
    | refuse | begin | watch | create | createFails => rfl
  | worker i io =>
    obtain ⟨w,phase,effect,-,-,rfl⟩ := workerStep_eq_some h
    exact hperform _ _ _
  | serve io => exact absurd rfl (hserve io)
  | send delivered =>
    obtain ⟨reply,sending,-,rfl | rfl⟩ := send_eq_some h
    · rfl
    · rfl

/-- While the dispatch thread waits with a reply no epoch begins. -/
theorem step_entry {action : ComputeAction} (h : s.step action = some s')
    (hentry : ∀ {reply epoch},s.dispatch = .deliver reply (some epoch) → epoch = s.mailbox.epoch)
    {reply : TaggedReply} {epoch : BitVec 32}
    (hdispatch' : s'.dispatch = .deliver reply (some epoch)) : epoch = s'.mailbox.epoch := by
  cases action with
  | compress req src =>
    obtain ⟨-,hs'⟩ := Option.ite_none_right_eq_some.mp h
    cases hs'
    cases hdispatch'
  | cancel jobId =>
    obtain ⟨-,hs'⟩ := Option.ite_none_right_eq_some.mp h
    cases hs'
    exact hentry hdispatch'
  | takeReply =>
    obtain ⟨r,socket,-,-,rfl⟩ := takeReply_eq_some h
    cases hdispatch'
  | dispatch io =>
    cases dispatchStep_move h with
    | @deliver r entryEpoch hdispatch =>
      unfold ComputeState.deliverStep at hdispatch' ⊢
      split at hdispatch'
      · cases hdispatch'
        cases entryEpoch with
        | none => rfl
        | some epoch => exact hentry hdispatch
      · cases hdispatch'
      · cases hdispatch'
    | handle =>
      unfold ComputeState.handleCompressRequest at hdispatch'
      dsimp only at hdispatch'
      split_ifs at hdispatch'
    | refuse | begin | watch | create | createFails => cases hdispatch'
    | @failed number req src stage =>
      dsimp only at hdispatch'
      split_ifs at hdispatch'
  | worker i io =>
    obtain ⟨w,phase,effect,-,-,rfl⟩ := workerStep_eq_some h
    have hepoch : (s.perform w.number w.job effect).mailbox.epoch = s.mailbox.epoch := by
      cases effect with
      | endEpoch =>
        change (s.mailbox.dispatchJobEnd w.job.epoch).epoch = _
        unfold Mailbox.dispatchJobEnd
        split_ifs <;> rfl
      | _ => rfl
    change (s.perform w.number w.job effect).dispatch = _ at hdispatch'
    rw [s.perform_dispatch] at hdispatch'
    exact (hentry hdispatch').trans hepoch.symm
  | serve io =>
    obtain ⟨q,rest,replies,opened,-,-,-,rfl⟩ := serve_eq_some h
    exact hentry hdispatch'
  | send delivered =>
    obtain ⟨r,sending,-,rfl | rfl⟩ := send_eq_some h
    · exact hentry hdispatch'
    · exact hentry hdispatch'

structure ComputeState.Faithful (s : ComputeState) : Prop where
  orderly : s.Orderly
  dated : s.Dated
  addressed : s.Addressed fun reply => reply.isRead = true
  entry : ∀ {reply epoch},s.dispatch = .deliver reply (some epoch) → epoch = s.mailbox.epoch
  opened_lt : ∀ file ∈ s.opened,file.1 < s.handled
  unopened : ∀ {number},s.Unserved number → s.openedFor number = []
  reads : ∀ w ∈ s.workers,w.phase.Reads s w.number

theorem ComputeState.faithful_initial : ComputeState.initial.Faithful where
  orderly := orderly_initial
  dated := dated_initial
  addressed := addressed_initial
  entry h := by cases h
  opened_lt file hfile := by cases hfile
  unopened _ := rfl
  reads w hw := by cases hw

theorem ComputeState.Faithful.worker_reads (h : s.Faithful) {i : ℕ} {io : WorkerIo}
    (hstep : s.workerStep i io = some s') : ∀ v ∈ s'.workers,v.phase.Reads s' v.number := by
  obtain ⟨w,phase,effect,ws,hw,hmove,rfl,hws⟩ := h.orderly.worker_moves hstep
  intro v hv
  obtain ⟨hnumber,hphase⟩ := hws v hv
  rw [hnumber,hphase]
  refine hmove.reads (h.reads w hw) ?_ ?_
  · intro hfresh
    have hunserved : s.Unserved w.number := .inr ⟨w,hw,rfl,.inr hfresh⟩
    exact ⟨h.dated.unserved hunserved,h.unopened hunserved⟩
  · exact fun reply hslot hread => h.addressed.slot hslot hread w.holder (s.holder_mem hw)

/-- The dispatch thread drops no chunk that the worker needs. -/
theorem ComputeState.Faithful.dispatch_reads (h : s.Faithful) {io : DispatchIo}
    (htime : s.HasTime (.dispatch io)) (hstep : s.dispatchStep io = some s') {w : Worker}
    (hw : w ∈ s.workers) : w.phase.Reads s' w.number := by
  have hreads := h.reads w hw
  obtain ⟨i,hget⟩ := List.mem_iff_getElem?.mp hw
  obtain ⟨-,-,hholders,hbusy⟩ := h.orderly.worker_only hget
  have hmem : w.holder ∈ s.holders := s.holder_mem hw
  cases dispatchStep_move hstep with
  | @deliver reply entryEpoch hdispatch =>
    have hepoch : entryEpoch.getD s.mailbox.epoch = s.mailbox.epoch := by
      cases entryEpoch with
      | none => rfl
      | some epoch => exact h.entry hdispatch
    rw [hepoch]
    refine hreads.deliverStep hdispatch ?_ ?_
    · intro hwork
      rw [(h.orderly.held w.holder hmem).1,Worker.holder,hwork]
      rfl
    · intro hexpired hopen hfull
      refine htime hexpired hopen hfull reply ?_
      rw [hdispatch]
      exact List.mem_singleton_self _
  | handle hdispatch =>
    unfold ComputeState.handleCompressRequest
    dsimp only
    rw [if_pos hbusy]
    refine hreads.kept rfl ?_ rfl
    rw [ComputeState.replies,ComputeState.replies,hdispatch]
    exact List.prefix_refl _
  | refuse hdispatch =>
    refine hreads.kept rfl ?_ rfl
    rw [ComputeState.replies,ComputeState.replies,hdispatch]
    exact List.prefix_refl _
  | begin hdispatch | watch hdispatch | create hdispatch | createFails hdispatch
  | failed hdispatch =>
    rw [hdispatch] at hholders
    cases hholders

theorem ComputeState.Faithful.step_reads (h : s.Faithful) {action : ComputeAction}
    (htime : s.HasTime action) (hstep : s.step action = some s') :
    ∀ v ∈ s'.workers,v.phase.Reads s' v.number := by
  -- a worker that comes into being has read nothing
  have hstart : ∀ v : Worker,v.phase = .start → v.phase.Reads s' v.number := by
    intro v hphase
    rw [hphase]
    trivial
  have hold := fun haction => step_forall_workers (Q := fun v => v.phase.Reads s' v.number) hstep
    haction hstart
  cases action with
  | worker i io => exact h.worker_reads hstep
  | serve io => exact hold (by simp) fun w hw => serve_reads hstep (h.reads w hw)
  | dispatch io => exact hold (by simp) fun w hw => h.dispatch_reads htime hstep hw
  | compress req src =>
    refine hold (by simp) fun w hw => ?_
    obtain ⟨⟨hreceive,-⟩,hs'⟩ := Option.ite_none_right_eq_some.mp hstep
    cases hs'
    refine (h.reads w hw).kept rfl ?_ rfl
    rw [ComputeState.replies,ComputeState.replies,hreceive]
    exact List.prefix_refl _
  | cancel jobId =>
    refine hold (by simp) fun w hw => ?_
    obtain ⟨-,hs'⟩ := Option.ite_none_right_eq_some.mp hstep
    cases hs'
    exact (h.reads w hw).kept rfl (List.prefix_refl _) rfl
  | takeReply =>
    refine hold (by simp) fun w hw => ?_
    obtain ⟨reply,socket,hreceive,hsocket,rfl⟩ := takeReply_eq_some hstep
    refine (h.reads w hw).kept rfl ?_ rfl
    rw [ComputeState.replies,ComputeState.replies,hreceive,hsocket]
    exact List.prefix_refl _
  | send delivered =>
    refine hold (by simp) fun w hw => ?_
    obtain ⟨reply,sending,hsending,rfl | rfl⟩ := send_eq_some hstep
    · refine (h.reads w hw).kept rfl ?_ rfl
      rw [ComputeState.replies,ComputeState.replies,hsending,List.append_assoc]
      exact List.prefix_refl _
    · refine (h.reads w hw).kept rfl ?_ rfl
      rw [ComputeState.replies,ComputeState.replies,List.append_nil]
      exact ⟨s.sending,by simp⟩

theorem ComputeState.Faithful.step_unopened (h : s.Faithful) {action : ComputeAction}
    (hstep : s.step action = some s') {number : ℕ} (hunserved : s'.Unserved number) :
    s'.openedFor number = [] := by
  have hbefore : s.openedFor number = [] := by
    rcases step_unserved hstep hunserved with hunserved | rfl
    · exact h.unopened hunserved
    · rw [ComputeState.openedFor,List.map_eq_nil_iff,List.filter_eq_nil_iff]
      intro file hfile
      simpa using (h.opened_lt file hfile).ne
  cases action with
  | serve io =>
    obtain ⟨q,rest,replies,opened,hrequests,hsending,hanswers,rfl⟩ := serve_eq_some hstep
    have huntouched : s.Untouched number := h.dated.unserved hunserved
    have hne : q.job ≠ number := by
      rintro rfl
      have := (serve_own hrequests hsending hanswers).1
      rw [huntouched.requests] at this
      cases this
    exact (hanswers.openedFor hne rest).trans hbefore
  | compress | cancel | takeReply | dispatch | worker | send =>
    rw [ComputeState.openedFor,step_opened hstep (by simp)]
    exact hbefore

theorem ComputeState.Faithful.step {action : ComputeAction} (h : s.Faithful)
    (hkeeps : s.KeepsChunks action) (hstep : s.step action = some s') : s'.Faithful where
  orderly := h.orderly.step hstep
  dated := h.dated.step h.orderly hstep
  addressed := h.addressed.step h.orderly hkeeps.1 hstep
  entry := step_entry hstep h.entry
  opened_lt := by
    intro file hfile
    refine lt_of_lt_of_le ?_ (step_handled hstep)
    cases action with
    | serve io =>
      obtain ⟨q,rest,replies,opened,hrequests,-,hanswers,rfl⟩ := serve_eq_some hstep
      rcases List.mem_append.mp hfile with hfile | hfile
      · exact h.opened_lt file hfile
      · rw [hanswers.opened file hfile]
        exact h.dated.requests q (by simp [hrequests])
    | compress | cancel | takeReply | dispatch | worker | send =>
      rw [step_opened hstep (by simp)] at hfile
      exact h.opened_lt file hfile
  unopened := h.step_unopened hstep
  reads := h.step_reads hkeeps.2 hstep

end

/-- In a run in which chunks come while their job is running, and `deliver_reply` drops none that
others follow, a worker that has left the read phase has the whole content that Data has streamed
for its job, which is the only one. -/
theorem whole_file_read {as : List ComputeAction} {s : ComputeState}
    (hrun : run ComputeState.step .initial as = some s)
    (hkeeps : ∀ pre a post t,as = pre ++ a :: post →
      run ComputeState.step .initial pre = some t → t.KeepsChunks a) :
    ∀ w ∈ s.workers,∀ input,w.phase = .encode input → s.openedFor w.number = [input] := by
  have h : s.Faithful := run_invariant_of (fun _ _ _ h hkeeps hstep => h.step hkeeps hstep)
    ComputeState.faithful_initial hkeeps hrun
  intro w hw input hphase
  have hreads := h.reads w hw
  rw [hphase] at hreads
  exact hreads.2

/-- A file of two full chunks and one byte. -/
def threeChunks : List Byte := (List.range 401).map (BitVec.ofNat 8)

/-- The dispatch thread receives the next reply and looks at the slot. -/
def deliverySteps : List ComputeAction := [.takeReply,.dispatch ⟨false,true⟩]

/-- The worker takes each chunk before the next one comes. -/
def promptRead : List ComputeAction :=
  acceptance 1 ++ workerSteps [] 2 ++
    [.serve ⟨some threeChunks,none,true⟩,.send true,.send true,.send true] ++
    deliverySteps ++ workerSteps [] 2 ++ deliverySteps ++ workerSteps [] 2 ++
    deliverySteps ++ workerSteps [] 1

theorem prompt_read_whole : ∃ s,run ComputeState.step .initial promptRead = some s ∧
    ∃ w ∈ s.workers,w.phase = .encode threeChunks ∧ s.openedFor w.number = [threeChunks] := by
  have hend : (run ComputeState.step .initial promptRead).map (fun s =>
      s.workers.map Worker.phase) = some [.encode threeChunks] := by
    decide +kernel
  have hallowed : allowed ComputeState.step (fun s a => decide (s.KeepsChunks a)) .initial
      promptRead = true := by decide +kernel
  obtain ⟨s,hrun,hs⟩ := Option.map_eq_some_iff.mp hend
  obtain ⟨w,hw,hphase⟩ := List.map_eq_singleton_iff.mp hs
  have hmem : w ∈ s.workers := by simp [hw]
  have hread := whole_file_read hrun fun pre a post t has hpre =>
    of_decide_eq_true (of_allowed hallowed has hpre)
  exact ⟨s,hrun,w,hmem,hphase,hread w hmem threeChunks hphase⟩

/-- The worker is slow: the first chunk is still in the slot when the grace for the second one is
over. -/
def slowRead : List ComputeAction :=
  acceptance 1 ++ workerSteps [] 2 ++
    [.serve ⟨some threeChunks,none,true⟩,.send true,.send true,.send true] ++
    deliverySteps ++ deliverySteps ++ [.dispatch ⟨true,true⟩] ++ workerSteps [] 2 ++
    deliverySteps ++ workerSteps [] 1

/-- The second chunk is dropped, and the worker takes the first and the last for the file. -/
theorem slow_read_misses_chunk : ∃ s,run ComputeState.step .initial slowRead = some s ∧
    ∃ w ∈ s.workers,∃ input,w.phase = .encode input ∧
      s.openedFor w.number = [threeChunks] ∧ input ≠ threeChunks := by
  have hend : (run ComputeState.step .initial slowRead).map (fun s =>
      s.workers.map fun w => (w.phase,s.openedFor w.number)) =
      some [(.encode (threeChunks.take 200 ++ threeChunks.drop 400),[threeChunks])] := by
    decide +kernel
  obtain ⟨s,hrun,hs⟩ := Option.map_eq_some_iff.mp hend
  obtain ⟨w,hw,hfields⟩ := List.map_eq_singleton_iff.mp hs
  obtain ⟨hphase,hopened⟩ := Prod.mk.inj hfields
  exact ⟨s,hrun,w,by simp [hw],_,hphase,hopened,by decide +kernel⟩

end FlightSoftware.Compute
