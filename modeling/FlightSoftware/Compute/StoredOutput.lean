import FlightSoftware.Compute.Logbook
import FlightSoftware.Data.StoredFile

/-!
# The stored output

Compute and Data with the files that Data reads and writes. From the return of the
encoder on, the worker stores the output chunk by chunk, while the dispatch thread
may refuse other jobs.
-/

namespace FlightSoftware.Compute
open Obc Data Run

/-! ### The system with the files -/

structure StoredState where
  compute : ComputeState
  disk : Disk

inductive StoredAction where
  /-- Data serves the next request with the files as they are. -/
  | serve (io : WriteIo) (failsAfter : Option ℕ)
  | compute (action : ComputeAction)

def StoredState.step (s : StoredState) : StoredAction → Option StoredState
  | .serve io failsAfter =>
    match s.compute.requests with
    | [] => none
    | ⟨.read path,_⟩ :: _ =>
      (s.compute.step (.serve ⟨s.disk path,failsAfter,false⟩)).map fun c => ⟨c,s.disk⟩
    | ⟨.write path offset _ payload,_⟩ :: _ =>
      let stored := filesystemWriteChunk s.disk path (BitVec.ofNat 32 offset) payload io
      (s.compute.step (.serve ⟨none,none,stored.2 = 0⟩)).map fun c => ⟨c,stored.1⟩
  | .compute (.serve _) => none
  | .compute action => (s.compute.step action).map fun c => ⟨c,s.disk⟩

/-- With the files the system does nothing that it does not do without them. -/
theorem StoredState.step_compute {s s' : StoredState} {action : StoredAction}
    (h : s.step action = some s') : ∃ b,s.compute.step b = some s'.compute := by
  have hmap : ∀ {b : ComputeAction} {disk : Disk},
      (s.compute.step b).map (fun c => (⟨c,disk⟩ : StoredState)) = some s' →
        ∃ b,s.compute.step b = some s'.compute := by
    intro b disk hmap
    obtain ⟨c,hc,rfl⟩ := Option.map_eq_some_iff.mp hmap
    exact ⟨b,hc⟩
  unfold StoredState.step at h
  split at h
  · split at h
    · cases h
    · exact hmap h
    · exact hmap h
  · cases h
  · exact hmap h

/-- Data writes a chunk and is about to acknowledge it. -/
theorem StoredState.step_write {s : StoredState} {path payload : List Byte} {offset job : ℕ}
    {isLast : Bool} {requests : List TaggedRequest} {io : WriteIo} {failsAfter : Option ℕ}
    (hrequests : s.compute.requests = ⟨.write path offset isLast payload,job⟩ :: requests)
    (hsending : s.compute.sending = []) :
    s.step (.serve io failsAfter) =
      let stored := filesystemWriteChunk s.disk path (BitVec.ofNat 32 offset) payload io
      some ⟨{ s.compute with
        requests := requests
        sending := [⟨.ack (if stored.2 = 0 then 0 else -1),job,offset⟩] },stored.1⟩ := by
  simp only [StoredState.step,ComputeState.step,ComputeState.serve,hrequests,hsending,
    Option.map_some,decide_eq_true_eq]

theorem StoredState.run_compute {s s' : StoredState} {actions : List StoredAction}
    (h : run StoredState.step s actions = some s') :
    ∃ bs,run ComputeState.step s.compute bs = some s'.compute := by
  induction actions generalizing s with
  | nil =>
    obtain rfl := Option.some.inj h
    exact ⟨[],rfl⟩
  | cons action actions ih =>
    obtain ⟨t,ht,hrest⟩ := run_cons_eq_some.mp h
    obtain ⟨b,hb⟩ := StoredState.step_compute ht
    obtain ⟨bs,hbs⟩ := ih hrest
    exact ⟨b :: bs,run_cons_eq_some.mpr ⟨_,hb,hbs⟩⟩

/-- No file operation and no message fails, Data answers in time, and the job is not
cancelled. -/
def StoredAction.Succeeds (jobId : BitVec 32) : StoredAction → Prop
  | .serve io failsAfter => io = .succeeds ∧ failsAfter = none
  | .compute (.worker _ io) => io.delivered = true ∧ io.timedOut = false
  | .compute (.send delivered) => delivered = true
  | .compute (.cancel id) => id ≠ jobId
  | .compute _ => True

/-- The steps of the dispatch thread for a message that is none of the job's. -/
def StoredAction.aside : StoredAction → ℕ
  | .compute (.compress _ _) => 3
  | .compute (.cancel _) => 1
  | _ => 0

/-! ### The positions of the write loop -/

/-- A job with what the encoder has left in `compressed_buf` for it. -/
structure OutputJob where
  number : ℕ
  job : WorkerJob
  output : List Byte

/-- Where the write loop stands: before its first round, or in the round that began with a
number of bytes written, or behind the last round. -/
inductive WritePosition where
  | encoded
  | ready (written : ℕ)
  | requested (written : ℕ)
  | served (written : ℕ)
  | sent (written : ℕ)
  | taken (written : ℕ)
  | delivered (written : ℕ)
  | acked (written : ℕ)
  | done

/-- What is seen at a position: the phase of the worker, the reply in the slot and the one that
the dispatch thread holds, what is on its way, and how much of the output is in the file. -/
structure WriteView where
  phase : WorkerPhase
  slot : Option TaggedReply
  held : Option TaggedReply
  requests : List TaggedRequest
  sending : List TaggedReply
  socket : List TaggedReply
  stored : ℕ

namespace OutputJob

variable (o : OutputJob)

def chunkLen (written : ℕ) : ℕ := min (o.output.length - written) dataWriteChunkSize

def ack (written : ℕ) : TaggedReply := ⟨.ack 0,o.number,written⟩

def waiting (written : ℕ) : WorkerPhase := .awaitAck o.output written (o.chunkLen written)

def view : WritePosition → WriteView
  | .encoded => ⟨.encoded o.output,none,none,[],[],[],0⟩
  | .ready w => ⟨.sendChunk o.output w,none,none,[],[],[],w⟩
  | .requested w =>
    ⟨o.waiting w,none,none,[⟨writeChunk o.job.outPath o.output w,o.number⟩],[],[],w⟩
  | .served w => ⟨o.waiting w,none,none,[],[o.ack w],[],w + o.chunkLen w⟩
  | .sent w => ⟨o.waiting w,none,none,[],[],[o.ack w],w + o.chunkLen w⟩
  | .taken w => ⟨o.waiting w,none,some (o.ack w),[],[],[],w + o.chunkLen w⟩
  | .delivered w => ⟨o.waiting w,some (o.ack w),none,[],[],[],w + o.chunkLen w⟩
  | .acked w => ⟨.acked o.output w,none,none,[],[],[],w⟩
  | .done => ⟨.finish .send .ok o.output.length,none,none,[],[],[],o.output.length⟩

/-- What is written is a part of the output, and a round begins only if there is more. -/
def Within : WritePosition → Prop
  | .encoded => True
  | .ready w => w ≤ o.output.length
  | .acked w => w ≤ o.output.length
  | .requested w => w < o.output.length
  | .served w => w < o.output.length
  | .sent w => w < o.output.length
  | .taken w => w < o.output.length
  | .delivered w => w < o.output.length
  | .done => True

/-- A bound on the steps that are left up to the result. A round has seven. -/
def rank : WritePosition → ℕ
  | .encoded => 7*o.output.length+3
  | .ready w => 7*(o.output.length-w)+2
  | .requested w => 7*(o.output.length-w)+1
  | .served w => 7*(o.output.length-w)
  | .sent w => 7*(o.output.length-w)-1
  | .taken w => 7*(o.output.length-w)-2
  | .delivered w => 7*(o.output.length-w)-3
  | .acked w => 7*(o.output.length-w)+3
  | .done => 1

end OutputJob

/-- The dispatch thread waits, or refuses a job with another number. -/
def DispatchPhase.Refusing (number : ℕ) : DispatchPhase → Prop
  | .receive => True
  | .compress _ _ => True
  | .busy n _ _ => n ≠ number
  | _ => False

def DispatchPhase.refusalSteps : DispatchPhase → ℕ
  | .compress _ _ => 2
  | .busy _ _ _ => 1
  | _ => 0

/-- With a reply in hand the dispatch thread is about to deliver it. -/
def DispatchPhase.Holds (number : ℕ) : Option TaggedReply → DispatchPhase → Prop
  | some reply,d => d = .deliver reply none
  | none,d => d.Refusing number

/-- Busy with something else than a delivery, the dispatch thread has no reply in hand. -/
theorem DispatchPhase.Holds.eq_none {number : ℕ} {held : Option TaggedReply} {d : DispatchPhase}
    (h : d.Holds number held) (hd : ∀ reply,d ≠ .deliver reply none) : held = none := by
  cases held with
  | none => rfl
  | some reply => exact absurd h (hd reply)

/-- The dispatch thread goes on with a message that is none of the job's. -/
theorem DispatchPhase.Holds.refuses {number : ℕ} {held : Option TaggedReply} {d d' : DispatchPhase}
    (h : d.Holds number held) (hd : ∀ reply,d ≠ .deliver reply none) (hd' : d'.Refusing number) :
    d'.Holds number held := by
  rw [h.eq_none hd]
  exact hd'

/-- The system is at a position of the write loop, and the file holds the bytes that the
position says in place of what it held before. -/
structure OutputJob.Writing (o : OutputJob) (before : Disk) (pos : WritePosition)
    (s : StoredState) : Prop where
  within : o.Within pos
  workers : s.compute.workers = [⟨o.number,o.job,(o.view pos).phase⟩]
  mailbox : s.compute.mailbox = ⟨(o.view pos).slot,o.job.epoch,true⟩
  dispatch : s.compute.dispatch.Holds o.number (o.view pos).held
  requests : s.compute.requests = (o.view pos).requests
  sending : s.compute.sending = (o.view pos).sending
  socket : s.compute.socket = (o.view pos).socket
  busy : s.compute.jobBusy = true
  running : s.compute.jobIdRunning = o.job.jobId
  wanted : s.compute.jobCancelRequested = false
  handled : o.number < s.compute.handled
  silent : resultsOf s.compute.events o.number = 0
  disk : s.disk = storedUpTo before o.job.outPath o.output (o.view pos).stored

/-! ### The steps of the worker -/

theorem wroteEvent_neutral (number : ℕ) (request : DataRequest) :
    ∀ e ∈ wroteEvent number request,e.Neutral := by
  intro e he
  obtain ⟨offset,rfl⟩ := mem_wroteEvent he
  trivial

theorem ackEvent_neutral (reply : TaggedReply) : ∀ e ∈ reply.ackEvent,e.Neutral := by
  intro e he
  obtain ⟨status,rfl⟩ := mem_ackEvent he
  trivial

/-- Only a result breaks the silence. -/
theorem resultsOf_silent {events more : List Event} {number : ℕ}
    (h : resultsOf events number = 0) (hmore : ∀ e ∈ more,e.Neutral) :
    resultsOf (events ++ more) number = 0 := by
  rw [resultsOf_append,h,resultsOf_neutral hmore]

namespace OutputJob

variable {o : OutputJob} {before : Disk} {pos : WritePosition} {s : StoredState}

theorem chunkLen_le {written : ℕ} (h : written < o.output.length) :
    0 < o.chunkLen written ∧ written + o.chunkLen written ≤ o.output.length := by
  have hsize : 0 < dataWriteChunkSize := by decide
  unfold chunkLen
  omega

theorem Writing.not_cancelled (h : o.Writing before pos s) :
    s.compute.checkCancelled o.job.jobId = false := by
  rw [ComputeState.checkCancelled,h.wanted,Bool.and_false]

/-- The step of the worker at each position: what it does, and where it goes. It sleeps at the
positions that are not listed. -/
inductive WorkerTurn (o : OutputJob) : WritePosition → WorkerPhase → WorkerEffect → Prop
  | start : o.WorkerTurn .encoded (o.view (.ready 0)).phase .none
  | request {written : ℕ} (h : written < o.output.length) : o.WorkerTurn (.ready written)
      (o.view (.requested written)).phase
      (.request (writeChunk o.job.outPath o.output written) true)
  | finish : o.WorkerTurn (.ready o.output.length) (o.view .done).phase .none
  | take {written : ℕ} : o.WorkerTurn (.delivered written)
      (o.view (.acked (written + o.chunkLen written))).phase .take
  | next {written : ℕ} :
    o.WorkerTurn (.acked written) (o.view (.ready written)).phase .none
  | report : o.WorkerTurn .done (.finish .endEpoch .ok o.output.length)
      (.sendResult .ok o.output.length)

/-- The worker waits for its acknowledgement while the slot is empty. -/
theorem waiting_sleeps {io : WorkerIo} (hio : io.timedOut = false) {m : Mailbox} (written : ℕ)
    (hm : m = ⟨none,o.job.epoch,true⟩) :
    workerNext m false io ⟨o.number,o.job,o.waiting written⟩ = none := by
  subst hm
  simp [workerNext,waiting,Mailbox.waitForReply,hio]

theorem Writing.workerTurn (h : o.Writing before pos s) {io : WorkerIo}
    (hio : io.delivered = true ∧ io.timedOut = false) {phase : WorkerPhase} {effect : WorkerEffect}
    (hnext : workerNext s.compute.mailbox false io ⟨o.number,o.job,(o.view pos).phase⟩ =
      some (phase,effect)) : o.WorkerTurn pos phase effect := by
  have hwithin := h.within
  have hmailbox := h.mailbox
  cases pos with
  | encoded =>
    cases hnext
    exact .start
  | ready written =>
    change written ≤ o.output.length at hwithin
    by_cases hmore : written < o.output.length
    · rw [workerNext,view] at hnext
      dsimp only at hnext
      rw [if_pos hmore,hio.1] at hnext
      cases hnext
      exact .request hmore
    · obtain rfl : written = o.output.length := by omega
      rw [workerNext,view] at hnext
      dsimp only at hnext
      rw [if_neg hmore] at hnext
      cases hnext
      exact .finish
  | requested written | served written | sent written | taken written =>
    have hsleep := waiting_sleeps hio.2 written hmailbox
    exact absurd (hnext.symm.trans hsleep) (Option.some_ne_none _)
  | delivered written =>
    rw [hmailbox] at hnext
    cases hnext
    exact .take
  | acked written =>
    cases hnext
    exact .next
  | done =>
    cases hnext
    exact .report

/-- The step reports the whole output, with the file complete. -/
structure Reports (o : OutputJob) (before : Disk) (s s' : StoredState) : Prop where
  first : resultsOf s.compute.events o.number = 0
  result : s'.compute.events =
    s.compute.events ++ [.result o.number o.job.jobId o.job.requester .ok o.output.length]
  disk : s'.disk = storedUpTo before o.job.outPath o.output o.output.length

/-- The step leads to another position, with less to do. -/
def Advances (o : OutputJob) (before : Disk) (pos : WritePosition) (s s' : StoredState) : Prop :=
  ∃ pos',o.Writing before pos' s' ∧ o.rank pos' + 1 ≤ o.rank pos ∧
    s'.compute.dispatch.refusalSteps = s.compute.dispatch.refusalSteps

theorem Writing.worker (h : o.Writing before pos s) {i : ℕ} {io : WorkerIo}
    (hio : io.delivered = true ∧ io.timedOut = false) {c : ComputeState}
    (hstep : s.compute.workerStep i io = some c) :
    o.Advances before pos s ⟨c,s.disk⟩ ∨ o.Reports before s ⟨c,s.disk⟩ := by
  obtain ⟨w,phase,effect,hget,hnext,rfl⟩ := workerStep_eq_some hstep
  rw [h.workers] at hget
  obtain ⟨rfl,rfl⟩ : i = 0 ∧ ⟨o.number,o.job,(o.view pos).phase⟩ = w := by
    cases i with
    | zero => exact ⟨rfl,Option.some.inj hget⟩
    | succ i => cases hget
  have hworkers (phase : WorkerPhase) :
      s.compute.workers.set 0 ⟨o.number,o.job,phase⟩ = [⟨o.number,o.job,phase⟩] := by
    rw [h.workers]
    rfl
  rw [h.not_cancelled] at hnext
  cases h.workerTurn hio hnext with
  | start => exact .inl ⟨.ready 0,{ h with within := Nat.zero_le _,workers := hworkers _ },
      by simp only [rank]; omega,rfl⟩
  | @request written hmore =>
    refine .inl ⟨.requested written,?_,by simp only [rank]; omega,rfl⟩
    exact { h with
      within := hmore
      workers := hworkers _
      requests := congrArg (· ++ _) h.requests
      silent := resultsOf_silent h.silent (wroteEvent_neutral _ _) }
  | finish => exact .inl ⟨.done,{ h with within := trivial,workers := hworkers _ },
      by simp only [rank]; omega,rfl⟩
  | @take written =>
    obtain ⟨hpos,hle⟩ := chunkLen_le h.within
    refine .inl ⟨.acked (written + o.chunkLen written),?_,by simp only [rank]; omega,rfl⟩
    exact { h with
      within := hle
      workers := hworkers _
      mailbox := by
        change ({ s.compute.mailbox with slot := none } : Mailbox) = _
        rw [h.mailbox]
        rfl
      silent := resultsOf_silent h.silent (by simp [Event.Neutral]) }
  | @next written => exact .inl ⟨.ready written,{ h with workers := hworkers _ },
      by simp only [rank]; omega,rfl⟩
  | report => exact .inr ⟨h.silent,rfl,h.disk⟩

/-! ### The steps of Data and of the dispatch thread -/

theorem Writing.serve (h : o.Writing before pos s) (hcap : o.output.length < 2^32)
    {s' : StoredState} (hstep : s.step (.serve .succeeds none) = some s') :
    o.Advances before pos s s' := by
  have hrequests := h.requests
  cases pos with
  | requested written =>
    have hmore : written < o.output.length := h.within
    obtain ⟨hpos,-⟩ := chunkLen_le hmore
    have hdisk : s.disk = storedUpTo before o.job.outPath o.output written := h.disk
    have hstored := filesystemWriteChunk_next before o.job.outPath o.output hpos
      (show written < 2^32 by omega)
    rw [← hdisk] at hstored
    rw [StoredState.step_write hrequests h.sending,← chunkLen,hstored] at hstep
    obtain rfl := Option.some.inj hstep
    refine ⟨.served written,{ h with requests := rfl,sending := rfl,disk := rfl },?_,rfl⟩
    simp only [rank]
    omega
  | _ =>
    unfold StoredState.step at hstep
    rw [hrequests] at hstep
    cases hstep

theorem Writing.send (h : o.Writing before pos s) {c : ComputeState}
    (hstep : s.compute.step (.send true) = some c) : o.Advances before pos s ⟨c,s.disk⟩ := by
  have hsending := h.sending
  have hsocket := h.socket
  unfold ComputeState.step at hstep
  dsimp only at hstep
  rw [hsending] at hstep
  cases pos with
  | served written =>
    have hmore : written < o.output.length := h.within
    cases hstep
    refine ⟨.sent written,?_,by simp only [rank]; omega,rfl⟩
    exact { h with
      sending := rfl
      socket := congrArg (· ++ _) hsocket
      silent := resultsOf_silent h.silent (ackEvent_neutral _) }
  | _ => cases hstep

theorem Writing.takeReply (h : o.Writing before pos s) {c : ComputeState}
    (hstep : s.compute.step .takeReply = some c) : o.Advances before pos s ⟨c,s.disk⟩ := by
  obtain ⟨reply,socket,hreceive,hreply,rfl⟩ := takeReply_eq_some hstep
  have hsocket := h.socket
  rw [hreply] at hsocket
  cases pos with
  | sent written =>
    have hmore : written < o.output.length := h.within
    obtain ⟨rfl,rfl⟩ := List.cons.inj hsocket
    refine ⟨.taken written,{ h with dispatch := rfl,socket := rfl },
      by simp only [rank]; omega,?_⟩
    rw [hreceive]
    rfl
  | _ => cases hsocket

/-- A position at which the dispatch thread has no reply in hand. -/
theorem Writing.refusing (h : o.Writing before pos s) (hheld : (o.view pos).held = none) :
    s.compute.dispatch.Refusing o.number := by
  have hdispatch := h.dispatch
  rwa [hheld] at hdispatch

/-- The dispatch thread with a reply in hand stores it, as the slot is empty. -/
theorem Writing.deliver (h : o.Writing before pos s) {reply : TaggedReply}
    {entryEpoch : Option (BitVec 32)} (hdispatch : s.compute.dispatch = .deliver reply entryEpoch)
    {expired : Bool} : o.Advances before pos s
      ⟨s.compute.deliverStep reply (entryEpoch.getD s.compute.mailbox.epoch) expired,s.disk⟩ := by
  have hholds := h.dispatch
  rw [hdispatch] at hholds
  cases pos with
  | taken written =>
    have hmore : written < o.output.length := h.within
    obtain ⟨rfl,rfl⟩ := DispatchPhase.deliver.inj hholds
    have hmailbox : s.compute.mailbox = ⟨none,o.job.epoch,true⟩ := h.mailbox
    have hstored : s.compute.mailbox.deliverReply s.compute.mailbox.epoch expired = .store := by
      rw [hmailbox]
      simp [Mailbox.deliverReply]
    rw [Option.getD_none,ComputeState.deliverStep,hstored]
    refine ⟨.delivered written,?_,by simp only [rank]; omega,?_⟩
    · exact { h with
        mailbox := by
          change ({ s.compute.mailbox with slot := some (o.ack written) } : Mailbox) = _
          rw [hmailbox]
          rfl
        dispatch := trivial }
    · rw [hdispatch]
      rfl
  | _ => exact hholds.elim

/-! ### Messages that are none of the job's -/

theorem Writing.compress (h : o.Writing before pos s) {req : CompressRequest} {src : ObcRole}
    {c : ComputeState} (hstep : s.compute.step (.compress req src) = some c) :
    o.Writing before pos ⟨c,s.disk⟩ ∧
      c.dispatch.refusalSteps = s.compute.dispatch.refusalSteps + 2 := by
  obtain ⟨⟨hreceive,-⟩,heq⟩ := Option.ite_none_right_eq_some.mp hstep
  cases heq
  refine ⟨{ h with dispatch := h.dispatch.refuses (by simp [hreceive]) trivial },?_⟩
  rw [hreceive]
  rfl

theorem Writing.cancel (h : o.Writing before pos s) {jobId : BitVec 32} (hne : jobId ≠ o.job.jobId)
    {c : ComputeState} (hstep : s.compute.step (.cancel jobId) = some c) :
    o.Writing before pos ⟨c,s.disk⟩ ∧
      c.dispatch.refusalSteps = s.compute.dispatch.refusalSteps := by
  obtain ⟨hreceive,heq⟩ := Option.ite_none_right_eq_some.mp hstep
  cases heq
  have hother : decide (s.compute.jobIdRunning = jobId) = false := by
    rw [h.running]
    exact decide_eq_false fun heq => hne heq.symm
  refine ⟨?_,rfl⟩
  exact { h with
    wanted := by
      change (s.compute.jobCancelRequested || _ && _) = false
      rw [h.wanted,hother,Bool.and_false,Bool.or_false]
    silent := resultsOf_silent h.silent (by simp [Event.Neutral]) }

/-- A job that comes meanwhile is refused, as this one is running. -/
theorem Writing.dispatchStep (h : o.Writing before pos s) {io : DispatchIo} {c : ComputeState}
    (hstep : s.compute.dispatchStep io = some c) :
    o.Advances before pos s ⟨c,s.disk⟩ ∨ (o.Writing before pos ⟨c,s.disk⟩ ∧
      c.dispatch.refusalSteps + 1 = s.compute.dispatch.refusalSteps) := by
  cases dispatchStep_move hstep with
  | deliver hdispatch => exact .inl (h.deliver hdispatch)
  | @handle req src hdispatch =>
    right
    have hrefuse : (DispatchPhase.busy s.compute.handled req src).Refusing o.number := h.handled.ne'
    rw [ComputeState.handleCompressRequest,if_pos h.busy,hdispatch]
    refine ⟨?_,rfl⟩
    exact { h with
      dispatch := h.dispatch.refuses (by simp [hdispatch]) hrefuse
      handled := Nat.lt_succ_of_lt h.handled
      silent := by
        rw [resultsOf_append,h.silent]
        rfl }
  | @refuse number req src hdispatch =>
    right
    have hnumber := h.refusing (h.dispatch.eq_none (by simp [hdispatch]))
    rw [hdispatch] at hnumber
    refine ⟨?_,by rw [hdispatch]; rfl⟩
    exact { h with
      dispatch := h.dispatch.refuses (by simp [hdispatch]) trivial
      silent := by
        change number ≠ o.number at hnumber
        rw [resultsOf_append,h.silent]
        simp [resultsOf,Event.isResultOf,hnumber] }
  | begin hdispatch | watch hdispatch | create hdispatch | createFails hdispatch
  | failed hdispatch =>
    have hrefuse := h.refusing (h.dispatch.eq_none (by simp [hdispatch]))
    rw [hdispatch] at hrefuse
    exact hrefuse.elim

/-! ### Every step -/

/-- The system is at a position of the write loop and has no more than a number of steps to do
up to the result. -/
def Left (o : OutputJob) (before : Disk) (steps : ℕ) (s : StoredState) : Prop :=
  ∃ pos,o.Writing before pos s ∧ steps = o.rank pos + s.compute.dispatch.refusalSteps

theorem Advances.left {s' : StoredState} (h : o.Advances before pos s s') :
    ∃ k,o.Left before k s' ∧ k + 1 ≤ o.rank pos + s.compute.dispatch.refusalSteps := by
  obtain ⟨pos',h',hrank,hsteps⟩ := h
  exact ⟨_,⟨pos',h',rfl⟩,by omega⟩

theorem Left.step {k : ℕ} (h : o.Left before k s) (hcap : o.output.length < 2^32)
    {action : StoredAction} (haction : action.Succeeds o.job.jobId) {s' : StoredState}
    (hstep : s.step action = some s') :
    (∃ k',o.Left before k' s' ∧ k' + 1 ≤ k + action.aside) ∨ o.Reports before s s' := by
  obtain ⟨pos,h,rfl⟩ := h
  cases action with
  | serve io failsAfter =>
    obtain ⟨rfl,rfl⟩ := haction
    exact .inl (h.serve hcap hstep).left
  | compute action =>
    cases action with
    | serve io => cases hstep
    | compress req src =>
      obtain ⟨c,hc,rfl⟩ := Option.map_eq_some_iff.mp hstep
      obtain ⟨h',hsteps⟩ := h.compress hc
      exact .inl ⟨_,⟨pos,h',rfl⟩,by simp only [hsteps,StoredAction.aside]; omega⟩
    | cancel jobId =>
      obtain ⟨c,hc,rfl⟩ := Option.map_eq_some_iff.mp hstep
      obtain ⟨h',hsteps⟩ := h.cancel haction hc
      exact .inl ⟨_,⟨pos,h',rfl⟩,by simp only [hsteps,StoredAction.aside]; omega⟩
    | takeReply =>
      obtain ⟨c,hc,rfl⟩ := Option.map_eq_some_iff.mp hstep
      exact .inl (h.takeReply hc).left
    | dispatch io =>
      obtain ⟨c,hc,rfl⟩ := Option.map_eq_some_iff.mp hstep
      obtain h' | ⟨h',hsteps⟩ := h.dispatchStep hc
      · exact .inl h'.left
      · exact .inl ⟨_,⟨pos,h',rfl⟩,by simp only [StoredAction.aside]; omega⟩
    | worker i io =>
      obtain ⟨c,hc,rfl⟩ := Option.map_eq_some_iff.mp hstep
      obtain h' | h' := h.worker haction hc
      · exact .inl h'.left
      · exact .inr h'
    | send delivered =>
      obtain ⟨c,hc,rfl⟩ := Option.map_eq_some_iff.mp hstep
      obtain rfl : delivered = true := haction
      exact .inl (h.send hc).left

/-! ### The system goes on -/

/-- Some step of the job is possible that does not fail. -/
def CanGoOn (o : OutputJob) (s : StoredState) : Prop :=
  ∃ action t,action.Succeeds o.job.jobId ∧ action.aside = 0 ∧ s.step action = some t

/-- The calls of a step of the worker in which nothing fails. -/
def promptIo : WorkerIo := ⟨true,false,none⟩

theorem Writing.worker_can (h : o.Writing before pos s) {turn : WorkerPhase × WorkerEffect}
    (hnext : workerNext s.compute.mailbox false promptIo
      ⟨o.number,o.job,(o.view pos).phase⟩ = some turn) : o.CanGoOn s := by
  refine ⟨.compute (.worker 0 promptIo),⟨{ s.compute.perform o.number o.job turn.2 with
    workers := s.compute.workersAfter 0 ⟨o.number,o.job,(o.view pos).phase⟩ turn.1 turn.2 },
    s.disk⟩,⟨rfl,rfl⟩,rfl,?_⟩
  change (s.compute.workerStep 0 promptIo).map _ = _
  unfold ComputeState.workerStep
  rw [h.workers]
  simp only [List.getElem?_cons_zero,h.not_cancelled,hnext,Option.map_some]

theorem dispatch_can (hdispatch : s.compute.dispatch ≠ .receive) : o.CanGoOn s := by
  obtain ⟨c,hc⟩ : ∃ c,s.compute.dispatchStep ⟨false,true⟩ = some c := by
    unfold ComputeState.dispatchStep
    split
    · exact absurd ‹_› hdispatch
    · exact ⟨_,rfl⟩
    · exact ⟨_,rfl⟩
    · exact ⟨_,rfl⟩
    · exact ⟨_,rfl⟩
    · exact ⟨_,rfl⟩
    · exact ⟨_,if_pos rfl⟩
    · exact ⟨_,rfl⟩
  exact ⟨.compute (.dispatch ⟨false,true⟩),⟨c,s.disk⟩,trivial,rfl,
    Option.map_eq_some_iff.mpr ⟨c,hc,rfl⟩⟩

theorem Writing.can_go_on (h : o.Writing before pos s) : o.CanGoOn s := by
  by_cases hreceive : s.compute.dispatch = .receive
  · have hmailbox := h.mailbox
    have hsending := h.sending
    cases pos with
    | encoded | acked written | done => exact h.worker_can rfl
    | ready written =>
      obtain ⟨turn,hturn⟩ : ∃ turn,workerNext s.compute.mailbox false promptIo
          ⟨o.number,o.job,.sendChunk o.output written⟩ = some turn := by
        unfold workerNext
        dsimp only
        split_ifs
        · exact ⟨_,rfl⟩
        · exact ⟨_,rfl⟩
      exact h.worker_can hturn
    | delivered written =>
      rw [view] at hmailbox
      exact h.worker_can (by rw [hmailbox]; rfl)
    | requested written =>
      exact ⟨.serve .succeeds none,_,⟨rfl,rfl⟩,rfl,StoredState.step_write h.requests hsending⟩
    | served written =>
      obtain ⟨c,hc⟩ : ∃ c,s.compute.step (.send true) = some c := by
        unfold ComputeState.step
        rw [hsending]
        exact ⟨_,rfl⟩
      exact ⟨.compute (.send true),⟨c,s.disk⟩,rfl,rfl,
        Option.map_eq_some_iff.mpr ⟨c,hc,rfl⟩⟩
    | sent written =>
      obtain ⟨c,hc⟩ : ∃ c,s.compute.step .takeReply = some c := by
        unfold ComputeState.step
        rw [hreceive,h.socket]
        exact ⟨_,rfl⟩
      exact ⟨.compute .takeReply,⟨c,s.disk⟩,trivial,rfl,
        Option.map_eq_some_iff.mpr ⟨c,hc,rfl⟩⟩
    | taken written =>
      have hholds := h.dispatch
      rw [hreceive] at hholds
      cases hholds
  · exact dispatch_can hreceive

/-! ### The round trip -/

/-- The encoder has returned the output, nothing that Data has sent or is to do is left over,
and the dispatch thread may have a job in hand that it will refuse. -/
structure Begins (o : OutputJob) (s : StoredState) : Prop where
  workers : s.compute.workers = [⟨o.number,o.job,.encoded o.output⟩]
  mailbox : s.compute.mailbox = ⟨none,o.job.epoch,true⟩
  dispatch : s.compute.dispatch.Refusing o.number
  requests : s.compute.requests = []
  sending : s.compute.sending = []
  socket : s.compute.socket = []
  busy : s.compute.jobBusy = true
  running : s.compute.jobIdRunning = o.job.jobId
  wanted : s.compute.jobCancelRequested = false
  handled : o.number < s.compute.handled
  silent : resultsOf s.compute.events o.number = 0

theorem Begins.writing (h : o.Begins s) : o.Writing s.disk .encoded s where
  within := trivial
  workers := h.workers
  mailbox := h.mailbox
  dispatch := h.dispatch
  requests := h.requests
  sending := h.sending
  socket := h.socket
  busy := h.busy
  running := h.running
  wanted := h.wanted
  handled := h.handled
  silent := h.silent
  disk := rfl

theorem Begins.left (h : o.Begins s) : ∃ k,o.Left s.disk k s ∧ k ≤ 7*o.output.length+5 := by
  refine ⟨_,⟨.encoded,h.writing,rfl⟩,?_⟩
  have hsteps : s.compute.dispatch.refusalSteps ≤ 2 := by
    unfold DispatchPhase.refusalSteps
    split <;> omega
  simp only [rank]
  omega

end OutputJob

/-- If nothing fails, the worker comes to its result in a number of steps that the size of the
output bounds, whatever the dispatch thread does meanwhile. It reports the whole output, the file
then holds the output in place of anything that it held before, and a stream of the
file carries the output. -/
theorem output_stored_and_streamed {o : OutputJob} (hpos : 1 ≤ o.output.length)
    (hcap : o.output.length ≤ computeCompressedCap) {s s' : StoredState} (hs : o.Begins s)
    {actions : List StoredAction} (hok : ∀ action ∈ actions,action.Succeeds o.job.jobId)
    (hrun : run StoredState.step s actions = some s') :
    (resultsOf s'.compute.events o.number = 0 ∧
      actions.length ≤ 7*o.output.length + 5 + (actions.map StoredAction.aside).sum ∧
      o.CanGoOn s') ∨
    ∃ pre action post t t',actions = pre ++ action :: post ∧
      run StoredState.step s pre = some t ∧ t.step action = some t' ∧
      resultsOf t.compute.events o.number = 0 ∧
      t'.compute.events = t.compute.events ++
        [.result o.number o.job.jobId o.job.requester .ok o.output.length] ∧
      t'.disk = Function.update s.disk o.job.outPath (some o.output) ∧
      Streams o.output 0 (filesystemStreamFile (t'.disk o.job.outPath) none) := by
  have h32 : o.output.length < 2^32 := lt_of_le_of_lt hcap (by decide)
  obtain ⟨k,hk,hle⟩ := hs.left
  have hranked := run_ranked (R := o.Left s.disk) (P := StoredAction.Succeeds o.job.jobId)
    (E := fun t _ t' => o.Reports s.disk t t') StoredAction.aside
    (fun k t a t' h ha hstep => h.step h32 ha hstep) hk hok hrun
  obtain ⟨k',⟨pos,hpos',rfl⟩,hlength⟩ | ⟨pre,a,post,t,t',has,hpre,hstep,hreport⟩ := hranked
  · exact .inl ⟨hpos'.silent,by omega,hpos'.can_go_on⟩
  · have hne : o.output ≠ [] := List.ne_nil_of_length_pos hpos
    have hdisk : t'.disk = Function.update s.disk o.job.outPath (some o.output) := by
      rw [hreport.disk,storedUpTo_length hne]
    refine .inr ⟨pre,a,post,t,t',has,hpre,hstep,hreport.first,hreport.result,hdisk,?_⟩
    rw [hdisk,Function.update_self]
    exact filesystemStreamFile_streams h32

/-- A job with two chunks for a file that holds five bytes before. -/
def twoChunkJob : OutputJob where
  number := 0
  job := ⟨7,.mission,1,[105],[111]⟩
  output := List.replicate 130 5

def twoChunkBegin : StoredState where
  compute := { ComputeState.initial with
    mailbox := ⟨none,1,true⟩
    jobBusy := true
    jobIdRunning := 7
    workers := [⟨0,twoChunkJob.job,.encoded twoChunkJob.output⟩]
    handled := 1 }
  disk := Function.update (fun _ => none) [111] (some [9,9,9,9,9])

theorem twoChunkJob_length : twoChunkJob.output.length = 130 := List.length_replicate

theorem twoChunkJob_begins : twoChunkJob.Begins twoChunkBegin where
  workers := rfl
  mailbox := rfl
  dispatch := trivial
  requests := rfl
  sending := rfl
  socket := rfl
  busy := rfl
  running := rfl
  wanted := rfl
  handled := by decide
  silent := rfl

/-- A run with another job refused while the first chunk is on its way. -/
def twoChunkRun : List StoredAction :=
  let work : StoredAction := .compute (.worker 0 OutputJob.promptIo)
  let dispatch : StoredAction := .compute (.dispatch ⟨false,true⟩)
  let answer : List StoredAction :=
    [.serve .succeeds none,.compute (.send true),.compute .takeReply,dispatch]
  [work,work,.compute (.compress ⟨8,[],[]⟩ .commands),dispatch,dispatch] ++ answer ++
    [work,work,work] ++ answer ++ [work,work,work,work]

theorem twoChunkRun_succeeds :
    ∀ action ∈ twoChunkRun,action.Succeeds twoChunkJob.job.jobId := by
  simp [twoChunkRun,StoredAction.Succeeds,OutputJob.promptIo]

/-- The run of a job of two chunks comes to the result, with both in the file. -/
theorem small_output_stored : ∃ s' pre action post t t',
    run StoredState.step twoChunkBegin twoChunkRun = some s' ∧
      twoChunkRun = pre ++ action :: post ∧
      run StoredState.step twoChunkBegin pre = some t ∧ t.step action = some t' ∧
      t'.compute.events = t.compute.events ++ [.result 0 7 .mission .ok 130] ∧
      t'.disk = Function.update twoChunkBegin.disk [111] (some (List.replicate 130 5)) ∧
      Streams (List.replicate 130 5) 0 (filesystemStreamFile (t'.disk [111]) none) := by
  have hany : (run StoredState.step twoChunkBegin twoChunkRun).any (fun s' =>
      resultsOf s'.compute.events twoChunkJob.number == 1) = true := by decide +kernel
  obtain ⟨s',hrun,hresult⟩ := (Option.any_eq_true _ _).mp hany
  obtain ⟨hsilent,-⟩ | ⟨pre,action,post,t,t',hsplit,hpre,hstep,-,hevents,hdisk,hstreams⟩ :=
    output_stored_and_streamed (o := twoChunkJob) (by rw [twoChunkJob_length]; decide)
      (by rw [twoChunkJob_length]; decide) twoChunkJob_begins twoChunkRun_succeeds hrun
  · rw [beq_iff_eq,hsilent] at hresult
    cases hresult
  · exact ⟨s',pre,action,post,t,t',hrun,hsplit,hpre,hstep,hevents,hdisk,hstreams⟩

end FlightSoftware.Compute
