import FlightSoftware.Lib.DeadlineLoop
import FlightSoftware.Lib.Timespec
import FlightSoftware.Mission.PhotoDownlink
import FlightSoftware.Telemetry.Downlink

/-!
# Deadlines of the payload commander

The receive loops of `payload_commander.c` and the clock that they read. The loop
of `payload_commander_downlink_telemetry_record` returns when no time remains. The
other two receive first, and leave it to `IPC_receive_timeout` to tell them that
the time is over; with a message at hand it does not.
-/

namespace FlightSoftware.Mission
open Obc Data Telemetry DeadlineLoop

def compressTotalTimeoutMs : ℕ := 90000
def downlinkChunkTimeoutMs : ℕ := 10000
def downlinkTotalTimeoutMs : ℕ := 120000
def telemetryReadTimeoutMs : ℕ := 10000

/-! ### The clock -/

/-- `deadline_in_ms` -/
def deadlineInMs (now : Timespec) (ms : ℕ) : Timespec :=
  if h : now.nsec + ms % 1000 * 1000000 < 1000000000 then
    ⟨now.sec + (ms/1000 : ℕ),now.nsec + ms % 1000 * 1000000,h⟩
  else
    ⟨now.sec + (ms/1000 : ℕ) + 1,now.nsec + ms % 1000 * 1000000 - 1000000000,by
      have := now.nsec_lt
      omega⟩

/-- `remaining_ms`. Division truncates. The conversion to `int` changes nothing, as no more
remains than what the deadline was set to. -/
def remainingMs (deadline now : Timespec) : ℤ :=
  let ms := (deadline.sec - now.sec) * 1000 + ((deadline.nsec : ℤ) - now.nsec).tdiv 1000000
  if ms > 0 then ms else 0

theorem tdiv_million (a : ℤ) :
    a.tdiv 1000000 = if 0 ≤ a then a/1000000 else -((-a)/1000000) := by
  split_ifs with h
  · exact Int.tdiv_eq_ediv_of_nonneg h
  · obtain ⟨b,rfl⟩ : ∃ b,a = -b := ⟨-a,by ring⟩
    rw [Int.neg_tdiv,Int.tdiv_eq_ediv_of_nonneg (by omega),neg_neg]

theorem remainingMs_nonneg (deadline now : Timespec) : 0 ≤ remainingMs deadline now := by
  unfold remainingMs
  dsimp only
  split_ifs <;> omega

/-- As time goes on, less remains. -/
theorem remainingMs_antitone (deadline : Timespec) {now now' : Timespec}
    (h : now.nanos ≤ now'.nanos) : remainingMs deadline now' ≤ remainingMs deadline now := by
  have hd := deadline.nsec_lt
  have hn := now.nsec_lt
  have hn' := now'.nsec_lt
  rw [Timespec.nanos,Timespec.nanos] at h
  unfold remainingMs
  rw [tdiv_million,tdiv_million]
  dsimp only
  -- a later second takes off more than the nanoseconds can put on
  have horder : now.sec = now'.sec ∧ now.nsec ≤ now'.nsec ∨ now.sec+1 ≤ now'.sec := by omega
  rcases horder with ⟨hsec,hnsec⟩ | hsec
  · rw [hsec]
    split_ifs <;> omega
  · split_ifs <;> omega

theorem deadlineInMs_nanos (now : Timespec) (ms : ℕ) :
    (deadlineInMs now ms).nanos = now.nanos + ms * 1000000 := by
  unfold deadlineInMs Timespec.nanos
  split_ifs with h
  all_goals
    dsimp only
    omega

/-- Nothing remains behind the deadline. -/
theorem remainingMs_eq_zero {deadline now : Timespec} (h : deadline.nanos ≤ now.nanos) :
    remainingMs deadline now = 0 := by
  have hself : remainingMs deadline deadline = 0 := by simp [remainingMs]
  exact le_antisymm ((remainingMs_antitone deadline h).trans_eq hself) (remainingMs_nonneg _ _)

/-- The readings of `CLOCK_MONOTONIC`, one after another. -/
structure Clock where
  reading : ℕ → Timespec
  mono : ∀ n,(reading n).nanos ≤ (reading (n+1)).nanos

theorem Clock.le (clock : Clock) {m n : ℕ} (h : m ≤ n) :
    (clock.reading m).nanos ≤ (clock.reading n).nanos :=
  monotone_nat_of_le_succ (f := fun n => (clock.reading n).nanos) clock.mono h

/-! ### The receive loops -/

/-- The outcome of `IPC_receive_timeout` into a message of a certain size: an error, or a message
of another size, is `unsized`. -/
inductive Outcome (μ : Type) where
  | timeout
  | unsized
  | sized (message : μ)
  deriving DecidableEq

/-- `compute_result_t` -/
structure ComputeResult where
  jobId : BitVec 32
  status : ℤ
  outputSize : BitVec 32
  deriving DecidableEq

def computeStatusOk : ℤ := 0

/-- What happens in a pass of the loop of `payload_commander_compress_photo`: the reading of the
clock, and the outcome of a receive that waits for so many milliseconds. -/
structure CompressInput where
  now : Timespec
  receive : ℤ → Outcome ComputeResult

def compressPass (jobId : BitVec 32) (deadline : Timespec) (_ : Unit) (input : CompressInput) :
    Pass Unit ℤ :=
  match input.receive (remainingMs deadline input.now) with
  | .timeout => .returns (-1)
  | .unsized => .again ()
  | .sized result =>
    if result.jobId ≠ jobId then .again ()
    else if result.status ≠ computeStatusOk then .returns (-1)
    else .returns 0

/-- What happens in a pass of the loop of `payload_commander_downlink_photo`, which reads the
clock three times. -/
structure ChunkInput where
  chunkStart : Timespec
  chunkNow : Timespec
  totalNow : Timespec
  receive : ℤ → Outcome DataReadReply

/-- How the loop is left: with -1, or with so many bytes in `photo_buf`. -/
inductive PhotoRead where
  | failed
  | complete (total : ℕ)
  deriving DecidableEq

/-- The chunk's deadline is set anew in each pass. -/
def chunkWait (totalDeadline : Timespec) (input : ChunkInput) : ℤ :=
  let wait := remainingMs (deadlineInMs input.chunkStart downlinkChunkTimeoutMs) input.chunkNow
  let totalLeft := remainingMs totalDeadline input.totalNow
  if totalLeft < wait then totalLeft else wait

def chunkPass (totalDeadline : Timespec) (total : ℕ) (input : ChunkInput) : Pass ℕ PhotoRead :=
  match input.receive (chunkWait totalDeadline input) with
  | .timeout => .returns .failed
  | .unsized => .again total
  | .sized reply =>
    if reply.status ≠ 0 then .returns .failed
    else if total + reply.length > maxPhotoSize then .returns .failed
    else if reply.isLast then .returns (.complete (total + reply.length))
    else .again (total + reply.length)

/-- With replies of the size that Data sends, the passes are those of the photo's downlink. -/
theorem receiveReply_chunkPass (s : PhotoDownlink) (call : PhotoCall) {reply : DataReadReply}
    (radioResult : ℤ) {totalDeadline : Timespec} {input : ChunkInput}
    (hreply : input.receive (chunkWait totalDeadline input) = .sized reply)
    (hlength : reply.length ≤ chunkSize) :
    let pass := chunkPass totalDeadline call.received.length input
    let call' := { call with received := call.received ++ reply.chunk }
    (pass = .returns .failed ∧ s.receiveReply call reply radioResult = s.finish (-1)) ∨
    (pass = .returns (.complete call'.received.length) ∧
      s.receiveReply call reply radioResult = s.transmit call' radioResult) ∨
    (pass = .again call'.received.length ∧
      s.receiveReply call reply radioResult = { s with call := some call' }) := by
  have htotal : (call.received ++ reply.chunk).length =
      call.received.length + reply.length := by
    rw [List.length_append,DataReadReply.chunk,List.length_take,reply.payloadSize,
      min_eq_left hlength]
  dsimp only
  unfold chunkPass PhotoDownlink.receiveReply
  rw [hreply,htotal]
  dsimp only
  split_ifs
  · exact .inl ⟨rfl,rfl⟩
  · exact .inl ⟨rfl,rfl⟩
  · exact .inr (.inl ⟨rfl,rfl⟩)
  · exact .inr (.inr ⟨rfl,rfl⟩)

/-- What happens in a pass of the loop of `payload_commander_downlink_telemetry_record`. -/
structure RecordInput where
  now : Timespec
  receive : ℤ → Received

def recordPass (offset : ℕ) (deadline : Timespec) (read : RecordRead) (input : RecordInput) :
    Pass RecordRead ReceivePass :=
  let waitMs := remainingMs deadline input.now
  if waitMs = 0 then .early .failed
  else
    match receivePass offset read (input.receive waitMs) with
    | .again read => .again read
    | result => .returns result

/-! ### What ends a loop -/

/-- Whether a pass returns with this outcome; `answers` says so of messages. -/
def Outcome.Ends {μ : Type} (answers : μ → Prop) : Outcome μ → Prop
  | .timeout => True
  | .unsized => False
  | .sized message => answers message

/-- The result of the job, whatever it says. -/
def ComputeResult.Answers (jobId : BitVec 32) (result : ComputeResult) : Prop :=
  result.jobId = jobId

/-- A reply that fails, does not fit behind what has been received, or is the last one. -/
def endsPhoto (total : ℕ) (reply : DataReadReply) : Prop :=
  reply.status ≠ 0 ∨ total + reply.length > maxPhotoSize ∨ reply.isLast = true

theorem compressPass_ends {jobId : BitVec 32} {deadline : Timespec} {input : CompressInput} :
    (compressPass jobId deadline () input).next = none ↔
      (input.receive (remainingMs deadline input.now)).Ends (ComputeResult.Answers jobId) := by
  unfold compressPass
  cases input.receive (remainingMs deadline input.now) with
  | timeout => exact iff_of_true rfl trivial
  | unsized => exact iff_of_false (Pass.next_again _) id
  | sized result =>
    dsimp only [Outcome.Ends,ComputeResult.Answers]
    split_ifs with hother hfailed
    · exact iff_of_false (Pass.next_again _) hother
    · exact iff_of_true rfl (not_not.mp hother)
    · exact iff_of_true rfl (not_not.mp hother)

theorem chunkPass_ends {deadline : Timespec} {total : ℕ} {input : ChunkInput} :
    (chunkPass deadline total input).next = none ↔
      (input.receive (chunkWait deadline input)).Ends (endsPhoto total) := by
  unfold chunkPass
  cases input.receive (chunkWait deadline input) with
  | timeout => exact iff_of_true rfl trivial
  | unsized => exact iff_of_false (Pass.next_again _) id
  | sized reply =>
    dsimp only [Outcome.Ends,endsPhoto]
    split_ifs with hfailed hlarge hlast
    · exact iff_of_true rfl (.inl hfailed)
    · exact iff_of_true rfl (.inr (.inl hlarge))
    · exact iff_of_true rfl (.inr (.inr hlast))
    · exact iff_of_false (Pass.next_again _) (by tauto)

theorem compressPass_receives (jobId : BitVec 32) (deadline : Timespec) (s : Unit)
    (input : CompressInput) : (compressPass jobId deadline s input).receives = true := by
  unfold compressPass
  split
  · rfl
  · rfl
  · split_ifs <;> rfl

theorem chunkPass_receives (deadline : Timespec) (total : ℕ) (input : ChunkInput) :
    (chunkPass deadline total input).receives = true := by
  unfold chunkPass
  split
  · rfl
  · rfl
  · split_ifs <;> rfl

/-- When no time remains for the photo, the receive does not wait. -/
theorem chunkWait_zero {deadline : Timespec} {input : ChunkInput}
    (h : remainingMs deadline input.totalNow = 0) : chunkWait deadline input = 0 := by
  have hchunk := remainingMs_nonneg
    (deadlineInMs input.chunkStart downlinkChunkTimeoutMs) input.chunkNow
  unfold chunkWait
  rw [h]
  dsimp only
  split_ifs <;> omega

/-! ### Calls -/

/-- A call of `payload_commander_compress_photo` in its receive loop, with all that happens: the
clock, and the outcomes of the receives. -/
structure CompressWait where
  clock : Clock
  jobId : BitVec 32
  receive : ℕ → ℤ → Outcome ComputeResult

namespace CompressWait

variable (c : CompressWait)

def deadline : Timespec := deadlineInMs (c.clock.reading 0) compressTotalTimeoutMs

def input (k : ℕ) : CompressInput := ⟨c.clock.reading (k+1),c.receive k⟩

def Expired (input : CompressInput) : Prop := remainingMs c.deadline input.now = 0

/-- The call is still in its loop. -/
def Running (k : ℕ) : Prop := running (compressPass c.jobId c.deadline) () c.input k = some ()

/-- A message is received in this pass although no time remains. -/
def Late (k : ℕ) : Prop :=
  DeadlineLoop.Late (compressPass c.jobId c.deadline) c.Expired () c.input k

/-- At most one more message is received once no time remains. -/
def Bounded : Prop :=
  AtMostOneLate (compressPass c.jobId c.deadline) c.Expired () c.input

end CompressWait

/-- A call of `payload_commander_downlink_photo` in its receive loop. -/
structure PhotoWait where
  clock : Clock
  receive : ℕ → ℤ → Outcome DataReadReply

namespace PhotoWait

variable (c : PhotoWait)

def deadline : Timespec := deadlineInMs (c.clock.reading 0) downlinkTotalTimeoutMs

def input (k : ℕ) : ChunkInput :=
  ⟨c.clock.reading (3*k+1),c.clock.reading (3*k+2),c.clock.reading (3*k+3),c.receive k⟩

def Expired (input : ChunkInput) : Prop := remainingMs c.deadline input.totalNow = 0

/-- The call is still in its loop, and has received so many bytes. -/
def Running (k total : ℕ) : Prop := running (chunkPass c.deadline) 0 c.input k = some total

def Late (k : ℕ) : Prop := DeadlineLoop.Late (chunkPass c.deadline) c.Expired 0 c.input k

def Bounded : Prop := AtMostOneLate (chunkPass c.deadline) c.Expired 0 c.input

end PhotoWait

/-- A call of `payload_commander_downlink_telemetry_record` in its receive loop. -/
structure RecordWait where
  clock : Clock
  offset : ℕ
  receive : ℕ → ℤ → Received

namespace RecordWait

variable (c : RecordWait)

def deadline : Timespec := deadlineInMs (c.clock.reading 0) telemetryReadTimeoutMs

def input (k : ℕ) : RecordInput := ⟨c.clock.reading (k+1),c.receive k⟩

def Expired (input : RecordInput) : Prop := remainingMs c.deadline input.now = 0

def Late (k : ℕ) : Prop :=
  DeadlineLoop.Late (recordPass c.offset c.deadline) c.Expired (.start c.offset) c.input k

end RecordWait

/-- Time that is over stays over. -/
theorem expired_later (deadline : Timespec) {now now' : Timespec} (h : now.nanos ≤ now'.nanos)
    (hover : remainingMs deadline now = 0) : remainingMs deadline now' = 0 :=
  le_antisymm ((remainingMs_antitone deadline h).trans_eq hover) (remainingMs_nonneg _ _)

theorem CompressWait.bounded_iff (c : CompressWait) : c.Bounded ↔
    ∀ k,c.Running k → c.Expired (c.input k) →
      (c.receive k 0).Ends (ComputeResult.Answers c.jobId) := by
  have hexpired : ∀ k,c.Expired (c.input k) → c.Expired (c.input (k+1)) :=
    fun k hover => expired_later c.deadline (c.clock.mono _) hover
  refine (atMostOneLate_iff (compressPass_receives c.jobId c.deadline) hexpired).trans ?_
  constructor
  · intro hall k hrunning hover
    have hends := compressPass_ends.mp (hall k () hrunning hover)
    rwa [show remainingMs c.deadline (c.input k).now = 0 from hover] at hends
  · intro hall k s hrunning hover
    refine compressPass_ends.mpr ?_
    rw [show remainingMs c.deadline (c.input k).now = 0 from hover]
    exact hall k hrunning hover

theorem PhotoWait.bounded_iff (c : PhotoWait) : c.Bounded ↔
    ∀ k total,c.Running k total → c.Expired (c.input k) →
      (c.receive k 0).Ends (endsPhoto total) := by
  have hexpired : ∀ k,c.Expired (c.input k) → c.Expired (c.input (k+1)) :=
    fun k hover => expired_later c.deadline (c.clock.le (by omega)) hover
  refine (atMostOneLate_iff (chunkPass_receives c.deadline) hexpired).trans ?_
  constructor
  · intro hall k total hrunning hover
    have hends := chunkPass_ends.mp (hall k total hrunning hover)
    rwa [chunkWait_zero hover] at hends
  · intro hall k total hrunning hover
    refine chunkPass_ends.mpr ?_
    rw [chunkWait_zero hover]
    exact hall k total hrunning hover

/-- The record call looks at the time before it receives. -/
theorem RecordWait.not_late (c : RecordWait) (k : ℕ) : ¬ c.Late k := by
  refine never_late ?_ k
  intro read input hover
  unfold recordPass
  dsimp only
  rw [if_pos (show remainingMs c.deadline input.now = 0 from hover)]
  rfl

/-- Once no time remains, the two calls that receive a photo's data receive at most one more
message, if and only if every message that they receive then ends their loop: for a compression
the result of its job, or none at all; for a downlink a reply that fails, is too large or is the
last one, or none at all. The call for a telemetry record receives none. -/
theorem waits_bounded_iff (compress : CompressWait) (photo : PhotoWait) (record : RecordWait) :
    (compress.Bounded ↔ ∀ k,compress.Running k → compress.Expired (compress.input k) →
      (compress.receive k 0).Ends (ComputeResult.Answers compress.jobId)) ∧
    (photo.Bounded ↔ ∀ k total,photo.Running k total → photo.Expired (photo.input k) →
      (photo.receive k 0).Ends (endsPhoto total)) ∧
    ∀ k,¬ record.Late k :=
  ⟨compress.bounded_iff,photo.bounded_iff,record.not_late⟩

/-- A clock on which all deadlines have passed at the second reading. -/
def slowClock : Clock where
  reading n := .ofSeconds (120*n)
  mono n := by
    unfold Timespec.ofSeconds Timespec.nanos
    push_cast
    omega

/-- Other messages keep both calls in their loops for ever. -/
theorem late_for_ever :
    (∀ k,CompressWait.Late ⟨slowClock,1,fun _ _ => .unsized⟩ k) ∧
      ∀ k,PhotoWait.Late ⟨slowClock,fun _ _ => .unsized⟩ k := by
  have hover : ∀ ms n : ℕ,ms ≤ 120000 → 1 ≤ n →
      remainingMs (deadlineInMs (slowClock.reading 0) ms) (slowClock.reading n) = 0 := by
    intro ms n hms hn
    refine remainingMs_eq_zero ?_
    rw [deadlineInMs_nanos]
    unfold slowClock Timespec.ofSeconds Timespec.nanos
    push_cast
    omega
  constructor
  · intro k
    refine ⟨(),running_again (fun _ => rfl) k,?_,rfl⟩
    exact hover _ _ (by decide) (by omega)
  · intro k
    refine ⟨0,running_again (fun _ => rfl) k,?_,rfl⟩
    exact hover _ _ (by decide) (by omega)

end FlightSoftware.Mission
