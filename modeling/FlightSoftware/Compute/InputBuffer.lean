import FlightSoftware.Compute.Worker

/-!
# The input buffer of the worker

The read loop of `worker_thread` copies the payload of a reply into `input_buf` before
it looks at the length, so a reply that does not fit is stored beyond the end first and
refused then. A file that fills the buffer to the last byte is refused as well.
-/

namespace FlightSoftware.Compute
open Obc Data

/-! ### The loop -/

/-- One round of the read loop: what `wait_for_reply` comes to, and whether the job has been
cancelled when the round ends. -/
structure ReadRound where
  wait : WaitReply
  cancelled : Bool

/-- The message of the round, if it has the size of a read reply. -/
def ReadRound.reply (round : ReadRound) : Option DataReadReply :=
  match round.wait with
  | .reply ⟨.read reply,_,_⟩ => some reply
  | _ => none

/-- The body of the read loop. -/
def readRound (input : List Byte) (round : ReadRound) : WorkerPhase :=
  match round.wait with
  | .sleep => .awaitRead input
  | .timeout => .giveUp .timeout
  | .aborted => .giveUp .timeout
  | .tooBig _ => .giveUp .timeout
  | .reply ⟨.ack _,_,_⟩ => .awaitRead input
  | .reply ⟨.read reply,_,_⟩ =>
    match readChunk input reply with
    | .gotRead input => if round.cancelled then .giveUp .cancelled else .awaitRead input
    | phase => phase

/-- The places in `input_buf` that the round stores to: all that the length field says, wherever
they are. -/
def ReadRound.stores (input : List Byte) (round : ReadRound) : List ℕ :=
  match round.reply with
  | none => []
  | some reply => if reply.status ≠ 0 then [] else List.range' input.length reply.length

/-- The read loop with what it has in `input_buf`: where it leaves the worker, and the places
that it stores to. -/
def readPhase (input : List Byte) : List ReadRound → WorkerPhase × List ℕ
  | [] => (.awaitRead input,[])
  | round :: rounds =>
    match readRound input round with
    | .awaitRead input' =>
      ((readPhase input' rounds).1,round.stores input ++ (readPhase input' rounds).2)
    | phase => (phase,round.stores input)

/-- A round is a step of the worker, and behind a chunk that is not the last one another step,
which looks for the cancellation. -/
theorem workerNext_round {m : Mailbox} {cancelled : Bool} {io : WorkerIo} {w : Worker}
    {input : List Byte} {phase : WorkerPhase} {effect : WorkerEffect}
    (hphase : w.phase = .awaitRead input)
    (h : workerNext m cancelled io w = some (phase,effect)) (m' : Mailbox) (cancelled' : Bool)
    (io' : WorkerIo) :
    let round := ReadRound.mk (m.waitForReply dataReadReplySize w.job.epoch io.timedOut) cancelled'
    readRound input round = phase ∨ ∃ input',phase = .gotRead input' ∧
      workerNext m' cancelled' io' { w with phase := phase } =
        some (readRound input round,.none) := by
  simp only [workerNext,hphase] at h
  dsimp only
  cases hwait : m.waitForReply dataReadReplySize w.job.epoch io.timedOut with
  | sleep =>
    rw [hwait] at h
    cases h
  | timeout | aborted | tooBig =>
    rw [hwait] at h
    cases h
    exact .inl rfl
  | reply reply =>
    rw [hwait] at h
    obtain ⟨reply,job,offset⟩ := reply
    cases reply with
    | ack status =>
      cases h
      exact .inl rfl
    | read reply =>
      cases h
      simp only [readRound]
      -- only a chunk that is kept takes a second step, back to the wait
      cases hchunk : readChunk input reply with
      | gotRead input' => exact .inr ⟨input',rfl,rfl⟩
      | _ => exact .inl rfl

/-! ### Every sequence of messages -/

/-- The loop goes on behind the round, as long as there is room. -/
def ReadRound.GoesOn (round : ReadRound) : Prop :=
  match round.wait with
  | .sleep => True
  | .reply ⟨.ack _,_,_⟩ => True
  | .reply ⟨.read reply,_,_⟩ => reply.status = 0 ∧ reply.length ≤ chunkSize ∧
      reply.isLast = false ∧ round.cancelled = false
  | _ => False

/-- The bytes that the round adds. -/
def ReadRound.size (round : ReadRound) : ℕ := round.reply.elim 0 DataReadReply.length

/-- With a number of bytes in the buffer the loop comes to a reply without an error whose length
field takes the total beyond the buffer. -/
inductive Overruns : ℕ → List ReadRound → Prop
  | here {total : ℕ} {round : ReadRound} {rounds : List ReadRound} (reply : DataReadReply)
    (hreply : round.reply = some reply) (hstatus : reply.status = 0)
    (hover : computeMaxDataSize < total + reply.length) : Overruns total (round :: rounds)
  | later {total : ℕ} {round : ReadRound} {rounds : List ReadRound} (hon : round.GoesOn)
    (hroom : total + round.size < computeMaxDataSize)
    (hlater : Overruns (total + round.size) rounds) : Overruns total (round :: rounds)

theorem overruns_cons_iff {total : ℕ} {round : ReadRound} {rounds : List ReadRound} :
    Overruns total (round :: rounds) ↔
      (∃ reply,round.reply = some reply ∧ reply.status = 0 ∧
        computeMaxDataSize < total + reply.length) ∨
      (round.GoesOn ∧ total + round.size < computeMaxDataSize) ∧
        Overruns (total + round.size) rounds := by
  constructor
  · intro h
    cases h with
    | here reply hreply hstatus hover => exact .inl ⟨reply,hreply,hstatus,hover⟩
    | later hon hroom hlater => exact .inr ⟨⟨hon,hroom⟩,hlater⟩
  · rintro (⟨reply,hreply,hstatus,hover⟩ | ⟨⟨hon,hroom⟩,hlater⟩)
    · exact .here reply hreply hstatus hover
    · exact .later hon hroom hlater

theorem DataReadReply.chunk_length {reply : DataReadReply} (h : reply.length ≤ chunkSize) :
    reply.chunk.length = reply.length := by
  rw [DataReadReply.chunk,List.length_take,reply.payloadSize,min_eq_left h]

/-- A round stores beyond the buffer by a reply that does not fit. -/
theorem ReadRound.stores_inside_iff (input : List Byte) (hroom : input.length < computeMaxDataSize)
    (round : ReadRound) : (∀ a ∈ round.stores input,a < computeMaxDataSize) ↔
      ¬∃ reply,round.reply = some reply ∧ reply.status = 0 ∧
        computeMaxDataSize < input.length + reply.length := by
  unfold ReadRound.stores
  cases round.reply with
  | none => simp
  | some reply =>
    by_cases hstatus : reply.status = 0
    · simp only [hstatus,ne_eq,not_true_eq_false,if_false,List.mem_range'_1,Option.some.injEq,
        exists_eq_left',true_and,not_lt]
      constructor
      · intro h
        by_contra hover
        have := h (input.length + reply.length - 1) ⟨by omega,by omega⟩
        omega
      · rintro h a ⟨-,ha⟩
        omega
    · simp [hstatus]

/-- The loop goes on behind a round exactly if the round lets it and there is room. -/
theorem readRound_awaitRead {input input' : List Byte} {round : ReadRound}
    (hroom : input.length < computeMaxDataSize) : readRound input round = .awaitRead input' ↔
      round.GoesOn ∧ input.length + round.size < computeMaxDataSize ∧
        input' = input ++ round.reply.elim [] DataReadReply.chunk := by
  obtain ⟨wait,cancelled⟩ := round
  unfold readRound ReadRound.GoesOn ReadRound.size ReadRound.reply
  rcases wait with _ | _ | _ | reply | ⟨reply | status,job,offset⟩
  case reply.read =>
    simp only [readChunk]
    by_cases hstatus : reply.status = 0
    · by_cases hfits : chunkSize < reply.length ∨ computeMaxDataSize ≤ input.length + reply.length
      · rw [if_neg (not_not.mpr hstatus),if_pos hfits]
        refine iff_of_false (by simp [WorkerPhase.giveUp]) ?_
        rintro ⟨⟨-,hlength,-⟩,hroom,-⟩
        change input.length + reply.length < computeMaxDataSize at hroom
        omega
      · have hlength : reply.length ≤ chunkSize := by omega
        have hroom : input.length + reply.length < computeMaxDataSize := by omega
        rw [if_neg (not_not.mpr hstatus),if_neg hfits]
        cases reply.isLast <;> cases cancelled <;>
          simp [WorkerPhase.giveUp,hstatus,hlength,hroom,eq_comm]
    · simp [hstatus,WorkerPhase.giveUp]
  all_goals simp [WorkerPhase.giveUp,hroom,eq_comm]

theorem ReadRound.GoesOn.length {round : ReadRound} (h : round.GoesOn) (input : List Byte) :
    (input ++ round.reply.elim [] DataReadReply.chunk).length = input.length + round.size := by
  obtain ⟨wait,cancelled⟩ := round
  rw [List.length_append]
  congr 1
  unfold ReadRound.GoesOn at h
  unfold ReadRound.size ReadRound.reply
  rcases wait with _ | _ | _ | reply | ⟨reply | status,job,offset⟩
  case reply.read => exact DataReadReply.chunk_length h.2.1
  all_goals rfl

/-- Where the loop goes on, it stores what this round does and what the others do. -/
theorem readPhase_goesOn {input input' : List Byte} {round : ReadRound}
    (h : readRound input round = .awaitRead input') (rounds : List ReadRound) :
    readPhase input (round :: rounds) =
      ((readPhase input' rounds).1,round.stores input ++ (readPhase input' rounds).2) := by
  rw [readPhase,h]

theorem readPhase_ends {input : List Byte} {round : ReadRound} {phase : WorkerPhase}
    (hround : readRound input round = phase) (hphase : ∀ input',phase ≠ .awaitRead input')
    (rounds : List ReadRound) :
    readPhase input (round :: rounds) = (phase,round.stores input) := by
  subst hround
  rw [readPhase]
  split
  · rename_i input' hnext
    exact absurd hnext (hphase input')
  · rfl

/-- The loop stores beyond the buffer exactly if it comes to a reply that does not fit. -/
theorem readPhase_inside_iff (input : List Byte) (rounds : List ReadRound)
    (hroom : input.length < computeMaxDataSize) :
    (∀ a ∈ (readPhase input rounds).2,a < computeMaxDataSize) ↔
      ¬Overruns input.length rounds := by
  -- along the rounds, with the bytes that are in the buffer by then
  induction rounds generalizing input with
  | nil => exact iff_of_true nofun nofun
  | cons round rounds ih =>
    by_cases hon : round.GoesOn ∧ input.length + round.size < computeMaxDataSize
    · obtain ⟨hon,hsize⟩ := hon
      have hlength := hon.length input
      have hnext := (readRound_awaitRead hroom).mpr ⟨hon,hsize,rfl⟩
      have hrest := ih _ (hlength.trans_lt hsize)
      rw [hlength] at hrest
      rw [overruns_cons_iff,readPhase_goesOn hnext]
      simp only [List.mem_append,or_imp,forall_and,ReadRound.stores_inside_iff input hroom,hrest,
        hon,hsize,true_and,not_or]
    · have hend : ∀ input',readRound input round ≠ .awaitRead input' := by
        intro input' hnext
        obtain ⟨hgo,hsize,-⟩ := (readRound_awaitRead hroom).mp hnext
        exact hon ⟨hgo,hsize⟩
      rw [overruns_cons_iff,readPhase_ends rfl hend,ReadRound.stores_inside_iff input hroom]
      simp only [hon,false_and,or_false]

/-! ### Every file -/

def replyRound (job : ℕ) (reply : DataReadReply) : ReadRound := ⟨.reply ⟨.read reply,job,0⟩,false⟩

/-- The rounds of the loop when Data streams a file and every reply arrives. -/
def streamedRounds (content : List Byte) (job : ℕ) : List ReadRound :=
  (filesystemStreamFile (some content) none).map (replyRound job)

/-- One reply of the stream: refused when it fills the buffer, and otherwise the last one ends
the loop and another one is added. -/
theorem readRound_readReply (input bytes : List Byte) (job offset : ℕ)
    (hbytes : bytes.length ≤ chunkSize) :
    readRound input (replyRound job (readReply offset bytes)) =
      if computeMaxDataSize ≤ input.length + bytes.length then .giveUp .failed
      else if bytes.length < chunkSize then .encode (input ++ bytes)
      else .awaitRead (input ++ bytes) := by
  have hchunk := readReply_chunk hbytes offset
  have hlength : (readReply offset bytes).length = bytes.length := rfl
  have hlast : (readReply offset bytes).isLast = decide (bytes.length < chunkSize) := rfl
  have hstatus : (readReply offset bytes).status = 0 := rfl
  simp only [replyRound,readRound,readChunk,hchunk,hlength,hlast,hstatus]
  split_ifs <;> simp_all [WorkerPhase.giveUp] <;> omega

theorem stores_readReply (input bytes : List Byte) (job offset : ℕ)
    (hroom : input.length < computeMaxDataSize) :
    (∀ a ∈ (replyRound job (readReply offset bytes)).stores input,a < computeMaxDataSize) ↔
      input.length + bytes.length ≤ computeMaxDataSize := by
  rw [ReadRound.stores_inside_iff input hroom]
  constructor
  · exact fun h => not_lt.mp fun hover => h ⟨_,rfl,rfl,hover⟩
  · rintro hfits ⟨reply,⟨⟩,-,hover⟩
    exact absurd hover (not_lt.mpr hfits)

/-- What the loop does with the rest of a streamed file, when it has the whole chunks before. -/
theorem readPhase_streamReplies (content : List Byte) (job : ℕ) {start : ℕ}
    (hstart : start ≤ content.length) (hroom : start < computeMaxDataSize)
    (hwhole : chunkSize ∣ start) :
    let rounds := (streamReplies content start).map (replyRound job)
    let result := readPhase (content.take start) rounds
    result.1 = (if content.length < computeMaxDataSize then .encode content else .giveUp .failed) ∧
      ((∀ a ∈ result.2,a < computeMaxDataSize) ↔ content.length ≤ computeMaxDataSize) := by
  have hlength : ∀ start ≤ content.length,(content.take start).length = start :=
    fun start h => List.length_take_of_le h
  induction start using streamReplies.induct content with
  | case1 start hlast =>
    have hend : start + ((content.drop start).take chunkSize).length = content.length := by
      rw [chunk_of_last hlast,List.length_drop]
      omega
    have hcontent : content.take start ++ (content.drop start).take chunkSize = content := by
      rw [chunk_of_last hlast,List.take_append_drop]
    have hround := readRound_readReply (content.take start) _ job start hlast.le
    have hstores := stores_readReply (content.take start) ((content.drop start).take chunkSize) job
      start (by rwa [hlength start hstart])
    rw [hlength start hstart,hend] at hround hstores
    rw [if_pos hlast,hcontent] at hround
    rw [streamReplies,if_pos hlast,List.map_singleton]
    dsimp only
    have hphase : ∀ input',(if computeMaxDataSize ≤ content.length then WorkerPhase.giveUp .failed
        else .encode content) ≠ .awaitRead input' := by
      intro input' hnext
      split_ifs at hnext
      cases hnext
    rw [readPhase_ends hround hphase]
    refine ⟨?_,hstores⟩
    simp only [← not_lt,ite_not]
  | case2 start hfull ih =>
    obtain ⟨hchunk,hnext⟩ := chunk_of_full hfull
    have hround := readRound_readReply (content.take start) _ job start hchunk.le
    have hstores := stores_readReply (content.take start) ((content.drop start).take chunkSize) job
      start (by rwa [hlength start hstart])
    rw [hlength start hstart,hchunk] at hround hstores
    rw [if_neg (by omega : ¬ chunkSize < chunkSize),← List.take_add] at hround
    rw [streamReplies,if_neg hfull,List.map_cons]
    rw [hchunk] at ih ⊢
    dsimp only at ih ⊢
    by_cases hover : computeMaxDataSize ≤ start + chunkSize
    · -- no whole number of chunks fills the buffer
      have hne : start + chunkSize ≠ computeMaxDataSize := by
        intro heq
        have : chunkSize ∣ computeMaxDataSize := heq ▸ hwhole.add (dvd_refl chunkSize)
        revert this
        decide
      rw [if_pos hover] at hround
      rw [readPhase_ends hround fun _ hnext => WorkerPhase.noConfusion hnext,if_neg (by omega)]
      refine ⟨rfl,hstores.trans (iff_of_false ?_ ?_)⟩ <;> omega
    · rw [if_neg hover] at hround
      obtain ⟨hphase,hrest⟩ := ih hnext (by omega) (hwhole.add (dvd_refl chunkSize))
      rw [readPhase_goesOn hround]
      refine ⟨hphase,?_⟩
      simp only [List.mem_append,or_imp,forall_and,hrest,hstores]
      omega

/-- A streamed file is stored within the buffer if it is no longer than that. -/
theorem streamed_inside_iff (content : List Byte) (job : ℕ) :
    (∀ a ∈ (readPhase [] (streamedRounds content job)).2,a < computeMaxDataSize) ↔
      content.length ≤ computeMaxDataSize :=
  (readPhase_streamReplies content job (Nat.zero_le _) (by decide) (dvd_zero _)).2

/-- A streamed file is taken if it leaves a byte of the buffer free, and refused otherwise. -/
theorem readPhase_streamed (content : List Byte) (job : ℕ) :
    (readPhase [] (streamedRounds content job)).1 =
      if content.length < computeMaxDataSize then .encode content else .giveUp .failed :=
  (readPhase_streamReplies content job (Nat.zero_le _) (by decide) (dvd_zero _)).1

/-- The loop stores within the buffer unless it comes to a reply that does not fit, and it takes
the files up to the limit except those of exactly that length. -/
theorem read_phase_in_bounds_iff (rounds : List ReadRound) (content : List Byte) (job : ℕ) :
    ((∀ a ∈ (readPhase [] rounds).2,a < computeMaxDataSize) ↔ ¬Overruns 0 rounds) ∧
      ((readPhase [] (streamedRounds content job)).1 =
          (if content.length ≤ computeMaxDataSize then .encode content else .giveUp .failed) ↔
        content.length ≠ computeMaxDataSize) := by
  refine ⟨readPhase_inside_iff [] rounds (by decide),?_⟩
  rw [readPhase_streamed]
  split_ifs with hlt hle hle
  · exact iff_of_true rfl hlt.ne
  · omega
  · exact iff_of_false nofun (by omega)
  · exact iff_of_true rfl (by omega)

/-- The length field of the second reply takes the total beyond the buffer. -/
theorem overruns_second (job : ℕ) {bytes : List Byte} (reply : DataReadReply)
    (hbytes : bytes.length = chunkSize) (hstatus : reply.status = 0)
    (hover : computeMaxDataSize < chunkSize + reply.length) :
    Overruns 0 [replyRound job (readReply 0 bytes),replyRound job reply] := by
  have hsize : (replyRound job (readReply 0 bytes)).size = chunkSize := hbytes
  have hlast : (readReply 0 bytes).isLast = false := decide_eq_false (by omega)
  refine .later ⟨rfl,hbytes.le,hlast,rfl⟩ ?_ (.here reply rfl hstatus ?_)
  · rw [hsize]
    decide
  · rwa [hsize,zero_add]

/-- A reply with the largest length field. -/
def corruptReply : DataReadReply := { readReply 200 [] with length := 0xffff }

/-- Behind a chunk, the bytes of the corrupt reply go far beyond the buffer. And a file that just
fits into the buffer is refused. -/
theorem length_field_overruns :
    (∃ a ∈ (readPhase [] [replyRound 0 (readReply 0 (List.replicate chunkSize 0)),
        replyRound 0 corruptReply]).2,computeMaxDataSize ≤ a) ∧
      (readPhase [] (streamedRounds (List.replicate computeMaxDataSize 0) 0)).1 =
        .giveUp .failed := by
  constructor
  · by_contra! hinside
    exact (readPhase_inside_iff [] _ (by decide)).mp hinside
      (overruns_second 0 corruptReply List.length_replicate rfl (by decide))
  · rw [readPhase_streamed,if_neg (by rw [List.length_replicate]; exact lt_irrefl _)]

end FlightSoftware.Compute
