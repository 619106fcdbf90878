import FlightSoftware.Data.Filesystem

/-!
# The compression worker

`worker_thread` of `worker.c` and the reply slot of `dispatch.c` that it waits on.
The worker is a sequence of phases; in each it makes one call or holds one lock.
Replies and requests carry the number of the job they belong to, which the program
does not see.
-/

namespace FlightSoftware.Compute
open Obc Data

def computeMaxDataSize : ℕ := 64 * 1024
def computeCompressedCap : ℕ := computeMaxDataSize + 1024
def computeMaxPath : ℕ := 64
def dataWriteChunkSize : ℕ := 128
def dataReadReplySize : ℕ := 212
def dataWriteAckSize : ℕ := 4

inductive ComputeStatus where
  | ok | failed | cancelled | busy | timeout
  deriving DecidableEq,Repr

/-! ### Messages exchanged with Data -/

/-- A message from Data: a chunk of a file, or the acknowledgement of a written chunk. -/
inductive DataReply where
  | read (reply : DataReadReply)
  | ack (status : ℤ)
  deriving DecidableEq

def DataReply.size : DataReply → ℕ
  | .read _ => dataReadReplySize
  | .ack _ => dataWriteAckSize

/-- A reply with the number of the job and, for an acknowledgement, the offset of the chunk
that it answers. -/
structure TaggedReply where
  reply : DataReply
  job : ℕ
  offset : ℕ
  deriving DecidableEq

inductive DataRequest where
  | read (path : List Byte)
  | write (path : List Byte) (offset : ℕ) (isLast : Bool) (payload : List Byte)
  deriving DecidableEq

structure TaggedRequest where
  request : DataRequest
  job : ℕ
  deriving DecidableEq

/-! ### The reply slot -/

/-- `reply_buf` while `reply_ready`, `reply_epoch` and `epoch_open`. -/
structure Mailbox where
  slot : Option TaggedReply
  epoch : BitVec 32
  isOpen : Bool
  deriving DecidableEq

def Mailbox.dispatchJobBegin (m : Mailbox) : Mailbox := ⟨none,m.epoch+1,true⟩

def Mailbox.dispatchJobEnd (m : Mailbox) (epoch : BitVec 32) : Mailbox :=
  if m.epoch = epoch ∧ m.isOpen then { m with isOpen := false,slot := none } else m

/-- What `deliver_reply` does when it holds the lock: wait on, drop the reply or store it. -/
inductive Delivery where
  | wait | drop | store
  deriving DecidableEq

/-- `expired` says that the grace of 250 ms is over. -/
def Mailbox.deliverReply (m : Mailbox) (entryEpoch : BitVec 32) (expired : Bool) : Delivery :=
  if m.slot.isSome ∧ m.isOpen ∧ m.epoch = entryEpoch ∧ expired = false then .wait
  else if m.isOpen = false ∨ m.epoch ≠ entryEpoch ∨ m.slot.isSome then .drop
  else .store

theorem deliverReply_store {m : Mailbox} {entryEpoch : BitVec 32} {expired : Bool}
    (h : m.deliverReply entryEpoch expired = .store) : m.slot = none ∧ m.isOpen = true := by
  unfold Mailbox.deliverReply at h
  split_ifs at h with hwait hdrop
  simp only [not_or,Bool.not_eq_false,Option.not_isSome_iff_eq_none] at hdrop
  exact ⟨hdrop.2.2,hdrop.1⟩

/-- A reply is dropped for want of time only, as long as the epoch is open and the same. -/
theorem deliverReply_drop {m : Mailbox} {expired : Bool} (hopen : m.isOpen = true)
    (h : m.deliverReply m.epoch expired = .drop) : m.slot.isSome = true ∧ expired = true := by
  unfold Mailbox.deliverReply at h
  split_ifs at h with hwait hdrop
  have hfull : m.slot.isSome = true := by simpa [hopen] using hdrop
  refine ⟨hfull,?_⟩
  by_contra htime
  exact hwait ⟨hfull,hopen,rfl,Bool.eq_false_iff.mpr htime⟩

/-- What `wait_for_reply` comes to: it sleeps on, or returns a negative number, or a reply. -/
inductive WaitReply where
  | sleep
  | timeout
  | aborted
  | tooBig (reply : TaggedReply)
  | reply (reply : TaggedReply)
  deriving DecidableEq

/-- `timedOut` says that the deadline has passed. -/
def Mailbox.waitForReply (m : Mailbox) (bufSize : ℕ) (epoch : BitVec 32) (timedOut : Bool) :
    WaitReply :=
  match m.slot with
  | some reply => if reply.reply.size ≤ bufSize then .reply reply else .tooBig reply
  | none =>
    if m.isOpen = false ∨ m.epoch ≠ epoch then .aborted
    else if timedOut then .timeout else .sleep

/-! ### Phases -/

/-- The statements of `send_result`. -/
inductive FinishStage where
  | send | endEpoch | endWatch | release
  deriving DecidableEq

/-- Where the worker stands. `input` is what it has in `input_buf`, `output` what the encoder
has left in `compressed_buf`, and `written` how much of it has been acknowledged. -/
inductive WorkerPhase where
  | start
  | sendRead
  | awaitRead (input : List Byte)
  | gotRead (input : List Byte)
  | encode (input : List Byte)
  | encoded (output : List Byte)
  | sendChunk (output : List Byte) (written : ℕ)
  | awaitAck (output : List Byte) (written chunkLen : ℕ)
  | acked (output : List Byte) (written : ℕ)
  | finish (stage : FinishStage) (status : ComputeStatus) (outputSize : ℕ)
  deriving DecidableEq

/-- `worker_job_t` -/
structure WorkerJob where
  jobId : BitVec 32
  requester : ObcRole
  epoch : BitVec 32
  inPath : List Byte
  outPath : List Byte
  deriving DecidableEq

/-- A worker thread. `job` is what it has copied out of `current_job`. -/
structure Worker where
  number : ℕ
  job : WorkerJob
  phase : WorkerPhase
  deriving DecidableEq

/-- What a step of the worker does besides changing its phase. -/
inductive WorkerEffect where
  | none
  | load
  | request (request : DataRequest) (delivered : Bool)
  | take
  | sendResult (status : ComputeStatus) (outputSize : ℕ)
  | endEpoch
  | endWatch
  | release
  deriving DecidableEq

/-- What the calls of one step of the worker do: whether a message is sent, whether the deadline
has passed, and what the encoder returns. -/
structure WorkerIo where
  delivered : Bool
  timedOut : Bool
  encoded : Option (List Byte)

/-- The job ends with a status other than OK. -/
def WorkerPhase.giveUp (status : ComputeStatus) : WorkerPhase := .finish .send status 0

/-- The read loop after a message of the right size. -/
def readChunk (input : List Byte) (reply : DataReadReply) : WorkerPhase :=
  if reply.status ≠ 0 then .giveUp .failed
  else if reply.length > chunkSize ∨ input.length + reply.length ≥ computeMaxDataSize then
    .giveUp .failed
  else if reply.isLast then .encode (input ++ reply.chunk)
  else .gotRead (input ++ reply.chunk)

/-- The write loop after an acknowledgement. -/
def ackChunk (output : List Byte) (written chunkLen : ℕ) : DataReply → WorkerPhase
  | .ack status => if status ≠ 0 then .giveUp .failed else .acked output (written + chunkLen)
  | .read _ => .giveUp .failed

/-- The next chunk to be written. -/
def writeChunk (path output : List Byte) (written : ℕ) : DataRequest :=
  let chunkLen := min (output.length - written) dataWriteChunkSize
  .write path written (written + chunkLen ≥ output.length) ((output.drop written).take chunkLen)

/-- `send_result`, statement by statement. -/
def finishStep (stage : FinishStage) (status : ComputeStatus) (outputSize : ℕ) :
    FinishStage × WorkerEffect :=
  match stage with
  | .send => (.endEpoch,.sendResult status outputSize)
  | .endEpoch => (.endWatch,.endEpoch)
  | .endWatch => (.release,.endWatch)
  | .release => (.release,.release)

/-- The next step of a worker, unless it sleeps in `wait_for_reply`. `cancelled` is what
`check_cancelled` returns. -/
def workerNext (m : Mailbox) (cancelled : Bool) (io : WorkerIo) (w : Worker) :
    Option (WorkerPhase × WorkerEffect) :=
  match w.phase with
  | .start => some (.sendRead,.load)
  | .sendRead => some (.awaitRead [],.request (.read w.job.inPath) io.delivered)
  | .awaitRead input =>
    match m.waitForReply dataReadReplySize w.job.epoch io.timedOut with
    | .sleep => none
    | .timeout => some (.giveUp .timeout,.none)
    | .aborted => some (.giveUp .timeout,.none)
    | .tooBig _ => some (.giveUp .timeout,.take)
    | .reply reply =>
      match reply.reply with
      | .ack _ => some (.awaitRead input,.take)
      | .read reply => some (readChunk input reply,.take)
  | .gotRead input => some (if cancelled then .giveUp .cancelled else .awaitRead input,.none)
  | .encode _ =>
    match io.encoded with
    | none => some (.giveUp .failed,.none)
    | some output => some (.encoded output,.none)
  | .encoded output =>
    some (if cancelled then .giveUp .cancelled else .sendChunk output 0,.none)
  | .sendChunk output written =>
    if written < output.length then
      some (.awaitAck output written (min (output.length - written) dataWriteChunkSize),
        .request (writeChunk w.job.outPath output written) io.delivered)
    else some (.finish .send .ok output.length,.none)
  | .awaitAck output written chunkLen =>
    match m.waitForReply dataWriteAckSize w.job.epoch io.timedOut with
    | .sleep => none
    | .timeout => some (.giveUp .timeout,.none)
    | .aborted => some (.giveUp .timeout,.none)
    | .tooBig _ => some (.giveUp .timeout,.take)
    | .reply reply => some (ackChunk output written chunkLen reply.reply,.take)
  | .acked output written =>
    some (if cancelled then .giveUp .cancelled else .sendChunk output written,.none)
  | .finish stage status outputSize =>
    some (.finish (finishStep stage status outputSize).1 status outputSize,
      (finishStep stage status outputSize).2)

/-! ### What a step can do -/

/-- The steps of a worker: where it stands, where it goes, and the effect. -/
inductive WorkerMove (m : Mailbox) (cancelled : Bool) (job : WorkerJob) :
    WorkerPhase → WorkerPhase → WorkerEffect → Prop
  | load : WorkerMove m cancelled job .start .sendRead .load
  | request (delivered : Bool) : WorkerMove m cancelled job .sendRead (.awaitRead [])
      (.request (.read job.inPath) delivered)
  | noChunk {input : List Byte} (hslot : m.slot = none) :
    WorkerMove m cancelled job (.awaitRead input) (.giveUp .timeout) .none
  | skipAck {input : List Byte} {reply : TaggedReply} {status : ℤ} (hslot : m.slot = some reply)
    (hreply : reply.reply = .ack status) :
    WorkerMove m cancelled job (.awaitRead input) (.awaitRead input) .take
  | chunk {input : List Byte} {reply : TaggedReply} {chunk : DataReadReply}
    (hslot : m.slot = some reply) (hreply : reply.reply = .read chunk) :
    WorkerMove m cancelled job (.awaitRead input) (readChunk input chunk) .take
  | readOn {input : List Byte} : WorkerMove m cancelled job (.gotRead input)
      (if cancelled then .giveUp .cancelled else .awaitRead input) .none
  | encodeFails {input : List Byte} :
    WorkerMove m cancelled job (.encode input) (.giveUp .failed) .none
  | encode {input output : List Byte} :
    WorkerMove m cancelled job (.encode input) (.encoded output) .none
  | beginWriting {output : List Byte} : WorkerMove m cancelled job (.encoded output)
      (if cancelled then .giveUp .cancelled else .sendChunk output 0) .none
  | write {output : List Byte} {written : ℕ} (delivered : Bool) (hmore : written < output.length) :
    WorkerMove m cancelled job (.sendChunk output written)
      (.awaitAck output written (min (output.length - written) dataWriteChunkSize))
      (.request (writeChunk job.outPath output written) delivered)
  | done {output : List Byte} {written : ℕ} (hall : ¬ written < output.length) :
    WorkerMove m cancelled job (.sendChunk output written) (.finish .send .ok output.length) .none
  | noAck {output : List Byte} {written chunkLen : ℕ} (hslot : m.slot = none) :
    WorkerMove m cancelled job (.awaitAck output written chunkLen) (.giveUp .timeout) .none
  | noRoom {output : List Byte} {written chunkLen : ℕ} {reply : TaggedReply}
    (hslot : m.slot = some reply) :
    WorkerMove m cancelled job (.awaitAck output written chunkLen) (.giveUp .timeout) .take
  | ack {output : List Byte} {written chunkLen : ℕ} {reply : TaggedReply}
    (hslot : m.slot = some reply) : WorkerMove m cancelled job (.awaitAck output written chunkLen)
      (ackChunk output written chunkLen reply.reply) .take
  | writeOn {output : List Byte} {written : ℕ} : WorkerMove m cancelled job (.acked output written)
      (if cancelled then .giveUp .cancelled else .sendChunk output written) .none
  | finish {stage : FinishStage} {status : ComputeStatus} {outputSize : ℕ} :
    WorkerMove m cancelled job (.finish stage status outputSize)
      (.finish (finishStep stage status outputSize).1 status outputSize)
      (finishStep stage status outputSize).2

/-- `wait_for_reply` returns what is in the slot, or nothing. -/
def WaitReply.Found (m : Mailbox) (bufSize : ℕ) : WaitReply → Prop
  | .sleep => True
  | .timeout => m.slot = none
  | .aborted => m.slot = none
  | .tooBig found => m.slot = some found ∧ bufSize < found.reply.size
  | .reply found => m.slot = some found

theorem waitForReply_found {m : Mailbox} {bufSize : ℕ} {epoch : BitVec 32} {timedOut : Bool}
    {result : WaitReply} (h : m.waitForReply bufSize epoch timedOut = result) :
    result.Found m bufSize := by
  subst h
  unfold Mailbox.waitForReply
  cases hslot : m.slot with
  | none =>
    dsimp only
    split_ifs
    · exact hslot
    · exact hslot
    · trivial
  | some reply =>
    dsimp only
    split_ifs with hsize
    · exact hslot
    · exact ⟨hslot,by omega⟩

/-- Every message of Data fits into the buffer of the read loop. -/
theorem DataReply.size_le (reply : DataReply) : reply.size ≤ dataReadReplySize := by
  cases reply with
  | read reply => exact le_refl _
  | ack status => exact (by decide : dataWriteAckSize ≤ dataReadReplySize)

theorem workerNext_move {m : Mailbox} {cancelled : Bool} {io : WorkerIo} {w : Worker}
    {phase : WorkerPhase} {effect : WorkerEffect}
    (h : workerNext m cancelled io w = some (phase,effect)) :
    WorkerMove m cancelled w.job w.phase phase effect := by
  unfold workerNext at h
  cases hphase : w.phase with
  | start =>
    rw [hphase] at h
    cases h
    exact .load
  | sendRead =>
    rw [hphase] at h
    cases h
    exact .request _
  | awaitRead input =>
    rw [hphase] at h
    dsimp only at h
    split at h
    case h_1 => cases h
    case h_2 hwait | h_3 hwait =>
      cases h
      exact .noChunk (waitForReply_found hwait)
    case h_4 hwait =>
      obtain ⟨-,hbig⟩ := waitForReply_found hwait
      exact absurd (DataReply.size_le _) (not_le.mpr hbig)
    case h_5 hwait =>
      split at h
      · rename_i hreply
        cases h
        exact .skipAck (waitForReply_found hwait) hreply
      · rename_i hreply
        cases h
        exact .chunk (waitForReply_found hwait) hreply
  | gotRead input =>
    rw [hphase] at h
    cases h
    exact .readOn
  | encode input =>
    rw [hphase] at h
    dsimp only at h
    split at h
    · cases h
      exact .encodeFails
    · cases h
      exact .encode
  | encoded output =>
    rw [hphase] at h
    cases h
    exact .beginWriting
  | sendChunk output written =>
    rw [hphase] at h
    dsimp only at h
    split_ifs at h with hmore
    · cases h
      exact .write _ hmore
    · cases h
      exact .done hmore
  | awaitAck output written chunkLen =>
    rw [hphase] at h
    dsimp only at h
    split at h
    case h_1 => cases h
    case h_2 hwait | h_3 hwait =>
      cases h
      exact .noAck (waitForReply_found hwait)
    case h_4 hwait =>
      cases h
      exact .noRoom (waitForReply_found hwait).1
    case h_5 hwait =>
      cases h
      exact .ack (waitForReply_found hwait)
  | acked output written =>
    rw [hphase] at h
    cases h
    exact .writeOn
  | finish stage status outputSize =>
    rw [hphase] at h
    cases h
    exact .finish

/-! ### Before `send_result` -/

/-- The effects that come before `send_result`. -/
def WorkerEffect.Early : WorkerEffect → Prop
  | .none => True
  | .load => True
  | .request _ _ => True
  | .take => True
  | _ => False

/-- A phase that the worker may go to before `send_result`: one of the phases before it, or the
beginning of it, and with CANCELLED only if the job was cancelled. -/
def WorkerPhase.Follows (cancelled : Bool) : WorkerPhase → Prop
  | .start => False
  | .finish stage status _ =>
    stage = .send ∧ status ≠ .busy ∧ (status = .cancelled → cancelled = true)
  | _ => True

theorem readChunk_follows (cancelled : Bool) (input : List Byte) (reply : DataReadReply) :
    (readChunk input reply).Follows cancelled := by
  unfold readChunk
  split_ifs <;> simp [WorkerPhase.Follows,WorkerPhase.giveUp]

theorem ackChunk_follows (cancelled : Bool) (output : List Byte) (written chunkLen : ℕ)
    (reply : DataReply) : (ackChunk output written chunkLen reply).Follows cancelled := by
  unfold ackChunk
  split
  · split_ifs <;> simp [WorkerPhase.Follows,WorkerPhase.giveUp]
  · simp [WorkerPhase.Follows,WorkerPhase.giveUp]

/-- The job is copied first of all, and `send_result` is still ahead. -/
theorem WorkerMove.follows {m : Mailbox} {cancelled : Bool} {job : WorkerJob}
    {phase phase' : WorkerPhase} {effect : WorkerEffect}
    (h : WorkerMove m cancelled job phase phase' effect)
    (hphase : ∀ stage status outputSize,phase ≠ .finish stage status outputSize) :
    effect.Early ∧ phase'.Follows cancelled ∧ (effect = .load ↔ phase = .start) := by
  cases h with
  | load | request | skipAck | encode | write | done =>
    simp [WorkerEffect.Early,WorkerPhase.Follows]
  | noChunk | encodeFails | noAck | noRoom =>
    simp [WorkerEffect.Early,WorkerPhase.Follows,WorkerPhase.giveUp]
  | chunk => simp [WorkerEffect.Early,readChunk_follows]
  | ack => simp [WorkerEffect.Early,ackChunk_follows]
  | readOn | beginWriting | writeOn =>
    cases cancelled <;> simp [WorkerEffect.Early,WorkerPhase.Follows,WorkerPhase.giveUp]
  | finish => exact absurd rfl (hphase _ _ _)

/-- A worker sends its read request first, and then chunk after chunk. -/
theorem WorkerMove.requests {m : Mailbox} {cancelled : Bool} {job : WorkerJob}
    {phase phase' : WorkerPhase} {effect : WorkerEffect} {request : DataRequest} {delivered : Bool}
    (h : WorkerMove m cancelled job phase phase' effect)
    (heffect : effect = .request request delivered) :
    (phase = .sendRead ∧ request = .read job.inPath ∧ phase' = .awaitRead []) ∨
      ∃ output written,phase = .sendChunk output written ∧
        request = writeChunk job.outPath output written ∧
        phase' = .awaitAck output written (min (output.length - written) dataWriteChunkSize) := by
  cases h with
  | request =>
    cases heffect
    exact .inl ⟨rfl,rfl,rfl⟩
  | write =>
    cases heffect
    exact .inr ⟨_,_,rfl,rfl,rfl⟩
  | @finish stage => cases stage <;> cases heffect
  | _ => cases heffect

theorem WorkerMove.result {m : Mailbox} {cancelled : Bool} {job : WorkerJob}
    {phase phase' : WorkerPhase} {effect : WorkerEffect} {status : ComputeStatus} {outputSize : ℕ}
    (h : WorkerMove m cancelled job phase phase' effect)
    (heffect : effect = .sendResult status outputSize) : phase = .finish .send status outputSize := by
  cases h with
  | @finish stage =>
    cases stage with
    | send =>
      cases heffect
      rfl
    | endEpoch | endWatch | release => cases heffect
  | _ => cases heffect

end FlightSoftware.Compute
