import FlightSoftware.Compute.Worker
import FlightSoftware.Lib.Run

/-!
# Compute and Data

The dispatch thread of `dispatch.c` with the request handlers of `worker.c`, the
worker threads, and Data, which answers their requests in order. The events record
what the program does, for the properties to talk about.
-/

namespace FlightSoftware.Compute
open Obc Data

structure CompressRequest where
  jobId : BitVec 32
  inPath : List Byte
  outPath : List Byte
  deriving DecidableEq

/-- A path with the zero that the handler writes into its last byte. -/
def terminated (path : List Byte) : List Byte := path.take (computeMaxPath-1)

/-- Where the dispatch thread stands. While it delivers a reply it knows the epoch at the time
it took the lock. -/
inductive DispatchPhase where
  | receive
  | deliver (reply : TaggedReply) (entryEpoch : Option (BitVec 32))
  | compress (req : CompressRequest) (src : ObcRole)
  | busy (number : ℕ) (req : CompressRequest) (src : ObcRole)
  | begin (number : ℕ) (req : CompressRequest) (src : ObcRole)
  | watch (number : ℕ) (req : CompressRequest) (src : ObcRole)
  | create (number : ℕ) (req : CompressRequest) (src : ObcRole)
  | failed (number : ℕ) (req : CompressRequest) (src : ObcRole) (stage : FinishStage)
  deriving DecidableEq

/-- A compress request was handled: with `job_busy` as it was then, and whether an epoch was
open and a worker watched. A cancel request was handled. A result was sent. A reply was returned
to the worker of a job. A chunk was sent to Data, and Data sent its acknowledgement. -/
inductive Event where
  | handled (number : ℕ) (jobId : BitVec 32) (src : ObcRole) (busy epochOpen watched : Bool)
  | cancel (jobId : BitVec 32)
  | result (number : ℕ) (jobId : BitVec 32) (requester : ObcRole) (status : ComputeStatus)
      (outputSize : ℕ)
  | took (number : ℕ) (reply : TaggedReply)
  | wrote (number offset : ℕ)
  | acked (job offset : ℕ) (status : ℤ)
  deriving DecidableEq

/-- Compute's variables and threads, and Data with the requests it has received, the replies
it is about to send and those in Compute's socket. `handled` counts the compress requests, and
`opened` has the contents that Data streamed for the jobs. -/
structure ComputeState where
  mailbox : Mailbox
  jobBusy : Bool
  jobIdRunning : BitVec 32
  jobCancelRequested : Bool
  currentJob : WorkerJob
  watched : Bool
  dispatch : DispatchPhase
  workers : List Worker
  requests : List TaggedRequest
  sending : List TaggedReply
  socket : List TaggedReply
  handled : ℕ
  opened : List (ℕ × List Byte)
  events : List Event

/-- `current_job` before the first job. -/
def WorkerJob.unset : WorkerJob := ⟨0,.commands,0,[],[]⟩

def ComputeState.initial : ComputeState where
  mailbox := ⟨none,0,false⟩
  jobBusy := false
  jobIdRunning := 0
  jobCancelRequested := false
  currentJob := .unset
  watched := false
  dispatch := .receive
  workers := []
  requests := []
  sending := []
  socket := []
  handled := 0
  opened := []
  events := []

def ComputeState.checkCancelled (s : ComputeState) (jobId : BitVec 32) : Bool :=
  s.jobBusy && decide (s.jobIdRunning = jobId) && s.jobCancelRequested

/-! ### Worker threads -/

/-- The event of sending a request to Data. -/
def wroteEvent (number : ℕ) : DataRequest → List Event
  | .read _ => []
  | .write _ offset _ _ => [.wrote number offset]

theorem mem_wroteEvent {number : ℕ} {request : DataRequest} {e : Event}
    (h : e ∈ wroteEvent number request) : ∃ offset,e = .wrote number offset := by
  cases request with
  | read path => cases h
  | write path offset isLast payload => exact ⟨offset,List.mem_singleton.mp h⟩

/-- The effect of a step on everything but the threads. -/
def ComputeState.perform (s : ComputeState) (number : ℕ) (job : WorkerJob) :
    WorkerEffect → ComputeState
  | .none => s
  | .load => s
  | .request request delivered =>
    { s with
      requests := if delivered then s.requests ++ [⟨request,number⟩] else s.requests
      events := s.events ++ wroteEvent number request }
  | .take =>
    { s with
      mailbox := { s.mailbox with slot := none }
      events := s.events ++ s.mailbox.slot.toList.map (.took number) }
  | .sendResult status outputSize =>
    { s with events := s.events ++ [.result number job.jobId job.requester status outputSize] }
  | .endEpoch => { s with mailbox := s.mailbox.dispatchJobEnd job.epoch }
  | .endWatch => { s with watched := false }
  | .release => { s with jobBusy := false }

/-- The workers after the step of one of them: it copies the job, or is gone. -/
def ComputeState.workersAfter (s : ComputeState) (i : ℕ) (w : Worker) (phase : WorkerPhase) :
    WorkerEffect → List Worker
  | .load => s.workers.set i { w with job := s.currentJob,phase := phase }
  | .release => s.workers.eraseIdx i
  | _ => s.workers.set i { w with phase := phase }

def ComputeState.workerStep (s : ComputeState) (i : ℕ) (io : WorkerIo) : Option ComputeState :=
  match s.workers[i]? with
  | none => none
  | some w =>
    match workerNext s.mailbox (s.checkCancelled w.job.jobId) io w with
    | none => none
    | some (phase,effect) =>
      some { s.perform w.number w.job effect with workers := s.workersAfter i w phase effect }

theorem ComputeState.perform_dispatch (s : ComputeState) (number : ℕ) (job : WorkerJob)
    (effect : WorkerEffect) : (s.perform number job effect).dispatch = s.dispatch := by
  cases effect <;> rfl

/-! ### The dispatch thread -/

/-- What the calls of one step of the dispatch thread do. -/
structure DispatchIo where
  expired : Bool
  created : Bool

/-- `deliver_reply` with the lock held. -/
def ComputeState.deliverStep (s : ComputeState) (reply : TaggedReply) (entryEpoch : BitVec 32)
    (expired : Bool) : ComputeState :=
  match s.mailbox.deliverReply entryEpoch expired with
  | .wait => { s with dispatch := .deliver reply (some entryEpoch) }
  | .drop => { s with dispatch := .receive }
  | .store => { s with mailbox := { s.mailbox with slot := some reply },dispatch := .receive }

/-- `handle_compress_request` up to the release of the lock. -/
def ComputeState.handleCompressRequest (s : ComputeState) (req : CompressRequest) (src : ObcRole) :
    ComputeState :=
  let event := Event.handled s.handled req.jobId src s.jobBusy s.mailbox.isOpen s.watched
  let s' := { s with handled := s.handled+1,events := s.events ++ [event] }
  if s.jobBusy then { s' with dispatch := .busy s.handled req src }
  else
    { s' with
      jobBusy := true
      jobIdRunning := req.jobId
      jobCancelRequested := false
      dispatch := .begin s.handled req src }

/-- The dispatch thread is about to take a message, or does its next step on the last one. -/
def ComputeState.dispatchStep (s : ComputeState) (io : DispatchIo) : Option ComputeState :=
  match s.dispatch with
  | .receive => none
  | .deliver reply entryEpoch =>
    some (s.deliverStep reply (entryEpoch.getD s.mailbox.epoch) io.expired)
  | .compress req src => some (s.handleCompressRequest req src)
  | .busy number req src =>
    some { s with
      events := s.events ++ [.result number req.jobId src .busy 0]
      dispatch := .receive }
  | .begin number req src =>
    some { s with
      mailbox := s.mailbox.dispatchJobBegin
      currentJob := ⟨req.jobId,src,s.mailbox.dispatchJobBegin.epoch,req.inPath,req.outPath⟩
      dispatch := .watch number req src }
  | .watch number req src => some { s with watched := true,dispatch := .create number req src }
  | .create number req src =>
    if io.created then
      some { s with workers := s.workers ++ [⟨number,.unset,.start⟩],dispatch := .receive }
    else some { s with dispatch := .failed number req src .send }
  | .failed number req src stage =>
    let job : WorkerJob := { s.currentJob with jobId := req.jobId,requester := src }
    some { s.perform number job (finishStep stage .failed 0).2 with
      dispatch := if stage = .release then .receive
        else .failed number req src (finishStep stage .failed 0).1 }

/-! ### The system -/

/-- What Data finds when it serves a request. -/
structure ServeIo where
  file : Option (List Byte)
  failsAfter : Option ℕ
  written : Bool

/-- The bytes of a file that Data can read. -/
def ServeIo.readable (io : ServeIo) : Option (List Byte) :=
  io.file.map fun content => match io.failsAfter with | none => content | some k => content.take k

/-- Data serves the next request, when it has sent all replies to the one before. -/
def ComputeState.serve (s : ComputeState) (io : ServeIo) : Option ComputeState :=
  match s.sending,s.requests with
  | [],⟨.read _,job⟩ :: requests =>
    some { s with
      requests := requests
      sending := (filesystemStreamFile io.file io.failsAfter).map fun reply => ⟨.read reply,job,0⟩
      opened := s.opened ++ io.readable.toList.map fun content => (job,content) }
  | [],⟨.write _ offset _ _,job⟩ :: requests =>
    some { s with
      requests := requests
      sending := [⟨.ack (if io.written then 0 else -1),job,offset⟩] }
  | _,_ => none

/-- The event of an acknowledgement being sent. -/
def TaggedReply.ackEvent (reply : TaggedReply) : List Event :=
  match reply.reply with
  | .read _ => []
  | .ack status => [.acked reply.job reply.offset status]

theorem mem_ackEvent {reply : TaggedReply} {e : Event} (h : e ∈ reply.ackEvent) :
    ∃ status,e = .acked reply.job reply.offset status := by
  unfold TaggedReply.ackEvent at h
  split at h
  · cases h
  · exact ⟨_,List.mem_singleton.mp h⟩

/-- An event was recorded before a step, unless it is the one that the step records. -/
theorem old_event {events : List Event} {e new : Event} (h : e ∈ events ++ [new])
    (hne : e ≠ new) : e ∈ events :=
  (List.mem_append.mp h).resolve_right fun hm => hne (List.mem_singleton.mp hm)

inductive ComputeAction where
  /-- The dispatch thread receives a compress request. What Data sends is taken for a reply. -/
  | compress (req : CompressRequest) (src : ObcRole)
  /-- The dispatch thread receives a cancel request. -/
  | cancel (jobId : BitVec 32)
  /-- The dispatch thread receives the next reply of Data. -/
  | takeReply
  | dispatch (io : DispatchIo)
  | worker (i : ℕ) (io : WorkerIo)
  | serve (io : ServeIo)
  /-- Data sends its next reply, or gives up on it and on those after it. -/
  | send (delivered : Bool)

def ComputeState.step (s : ComputeState) : ComputeAction → Option ComputeState
  | .compress req src =>
    if s.dispatch = .receive ∧ src ≠ .data then
      some { s with
        dispatch := .compress ⟨req.jobId,terminated req.inPath,terminated req.outPath⟩ src }
    else none
  | .cancel jobId =>
    if s.dispatch = .receive then
      some { s with
        jobCancelRequested := s.jobCancelRequested || (s.jobBusy && decide (s.jobIdRunning = jobId))
        events := s.events ++ [.cancel jobId] }
    else none
  | .takeReply =>
    match s.dispatch,s.socket with
    | .receive,reply :: socket =>
      some { s with socket := socket,dispatch := .deliver reply none }
    | _,_ => none
  | .dispatch io => s.dispatchStep io
  | .worker i io => s.workerStep i io
  | .serve io => s.serve io
  | .send delivered =>
    match s.sending with
    | [] => none
    | reply :: sending =>
      if delivered then
        some { s with
          sending := sending
          socket := s.socket ++ [reply]
          events := s.events ++ reply.ackEvent }
      else some { s with sending := [] }

/-! ### What a step can do -/

/-- The steps of the dispatch thread. -/
inductive DispatchMove (s : ComputeState) (io : DispatchIo) : ComputeState → Prop
  | deliver {reply : TaggedReply} {entryEpoch : Option (BitVec 32)}
    (hdispatch : s.dispatch = .deliver reply entryEpoch) : DispatchMove s io
      (s.deliverStep reply (entryEpoch.getD s.mailbox.epoch) io.expired)
  | handle {req : CompressRequest} {src : ObcRole} (hdispatch : s.dispatch = .compress req src) :
    DispatchMove s io (s.handleCompressRequest req src)
  | refuse {number : ℕ} {req : CompressRequest} {src : ObcRole}
    (hdispatch : s.dispatch = .busy number req src) : DispatchMove s io
      { s with
        events := s.events ++ [.result number req.jobId src .busy 0]
        dispatch := .receive }
  | begin {number : ℕ} {req : CompressRequest} {src : ObcRole}
    (hdispatch : s.dispatch = .begin number req src) : DispatchMove s io
      { s with
        mailbox := s.mailbox.dispatchJobBegin
        currentJob := ⟨req.jobId,src,s.mailbox.dispatchJobBegin.epoch,req.inPath,req.outPath⟩
        dispatch := .watch number req src }
  | watch {number : ℕ} {req : CompressRequest} {src : ObcRole}
    (hdispatch : s.dispatch = .watch number req src) : DispatchMove s io
      { s with watched := true,dispatch := .create number req src }
  | create {number : ℕ} {req : CompressRequest} {src : ObcRole}
    (hdispatch : s.dispatch = .create number req src) : DispatchMove s io
      { s with workers := s.workers ++ [⟨number,.unset,.start⟩],dispatch := .receive }
  | createFails {number : ℕ} {req : CompressRequest} {src : ObcRole}
    (hdispatch : s.dispatch = .create number req src) : DispatchMove s io
      { s with dispatch := .failed number req src .send }
  | failed {number : ℕ} {req : CompressRequest} {src : ObcRole} {stage : FinishStage}
    (hdispatch : s.dispatch = .failed number req src stage) : DispatchMove s io
      { s.perform number { s.currentJob with jobId := req.jobId,requester := src }
          (finishStep stage .failed 0).2 with
        dispatch := if stage = .release then .receive
          else .failed number req src (finishStep stage .failed 0).1 }

section

variable {s s' : ComputeState}

theorem dispatchStep_move {io : DispatchIo} (h : s.dispatchStep io = some s') :
    DispatchMove s io s' := by
  unfold ComputeState.dispatchStep at h
  split at h
  case h_1 => cases h
  case h_2 hdispatch =>
    obtain rfl := Option.some.inj h
    exact .deliver hdispatch
  case h_3 hdispatch =>
    obtain rfl := Option.some.inj h
    exact .handle hdispatch
  case h_4 hdispatch =>
    obtain rfl := Option.some.inj h
    exact .refuse hdispatch
  case h_5 hdispatch =>
    obtain rfl := Option.some.inj h
    exact .begin hdispatch
  case h_6 hdispatch =>
    obtain rfl := Option.some.inj h
    exact .watch hdispatch
  case h_7 hdispatch =>
    split_ifs at h
    · obtain rfl := Option.some.inj h
      exact .create hdispatch
    · obtain rfl := Option.some.inj h
      exact .createFails hdispatch
  case h_8 hdispatch =>
    obtain rfl := Option.some.inj h
    exact .failed hdispatch

/-- The step of a worker in terms of what it does next. -/
theorem workerStep_eq_some {i : ℕ} {io : WorkerIo} (h : s.workerStep i io = some s') :
    ∃ w phase effect,s.workers[i]? = some w ∧
      workerNext s.mailbox (s.checkCancelled w.job.jobId) io w = some (phase,effect) ∧
      s' = { s.perform w.number w.job effect with workers := s.workersAfter i w phase effect } := by
  unfold ComputeState.workerStep at h
  split at h
  · cases h
  rename_i w hget
  split at h
  · cases h
  rename_i phase effect hnext
  exact ⟨w,phase,effect,hget,hnext,(Option.some.inj h).symm⟩

theorem takeReply_eq_some (h : s.step .takeReply = some s') :
    ∃ reply socket,s.dispatch = .receive ∧ s.socket = reply :: socket ∧
      s' = { s with socket := socket,dispatch := .deliver reply none } := by
  unfold ComputeState.step at h
  dsimp only at h
  split at h
  case h_1 hreceive hsocket => exact ⟨_,_,hreceive,hsocket,(Option.some.inj h).symm⟩
  case h_2 => cases h

theorem send_eq_some {delivered : Bool} (h : s.step (.send delivered) = some s') :
    ∃ reply sending,s.sending = reply :: sending ∧
      ((s' = { s with
        sending := sending
        socket := s.socket ++ [reply]
        events := s.events ++ reply.ackEvent }) ∨
      s' = { s with sending := [] }) := by
  unfold ComputeState.step at h
  dsimp only at h
  split at h
  · cases h
  · rename_i reply sending hsending
    refine ⟨reply,sending,hsending,?_⟩
    split_ifs at h
    · exact .inl (Option.some.inj h).symm
    · exact .inr (Option.some.inj h).symm

end

end FlightSoftware.Compute
