import FlightSoftware.Compute.Replies
import FlightSoftware.Compute.StoredOutput

/-!
# Acknowledged output

The write loop when calls fail, messages get lost, deadlines pass or the job is
cancelled. A chunk that Data acknowledges with zero is in the file unless the flush in
`fclose` lost a part of it; where no flush does, the worker reports OK only when the
file is complete.
-/

namespace FlightSoftware.Compute
open Obc Data Run

/-! ### The positions of the write loop -/

/-- Where an acknowledgement is: in Data, in the socket, with the dispatch thread or in the
slot. -/
inductive AckPlace where
  | sending | socket | held | slot

/-- Where the write loop stands: as long as nothing fails it is at a `WritePosition`. An
acknowledgement comes with any status, and when a message got lost nothing will come. -/
inductive AckPosition where
  | encoded
  | ready (written : ℕ)
  | requested (written : ℕ)
  | answered (written : ℕ) (status : ℤ) (place : AckPlace)
  | lost (written : ℕ)
  | acked (written : ℕ)
  | done

/-- The worker is at the end, and will not send OK. -/
def WorkerPhase.NotOk : WorkerPhase → Prop
  | .finish stage status _ => stage = .send → status ≠ .ok
  | _ => False

/-- The dispatch thread is not about to create a thread for the job. -/
def DispatchPhase.Apart (number : ℕ) : DispatchPhase → Prop
  | .begin n _ _ => n ≠ number
  | .watch n _ _ => n ≠ number
  | .create n _ _ => n ≠ number
  | _ => True

namespace OutputJob

variable (o : OutputJob)

def answer (written : ℕ) (status : ℤ) : TaggedReply := ⟨.ack status,o.number,written⟩

/-- What is seen at a position, with the bytes that the file holds if all is well. -/
def ackView : AckPosition → WriteView
  | .encoded => o.view .encoded
  | .ready w => o.view (.ready w)
  | .requested w => o.view (.requested w)
  | .answered w status .sending =>
    ⟨o.waiting w,none,none,[],[o.answer w status],[],w + o.chunkLen w⟩
  | .answered w status .socket =>
    ⟨o.waiting w,none,none,[],[],[o.answer w status],w + o.chunkLen w⟩
  | .answered w status .held =>
    ⟨o.waiting w,none,some (o.answer w status),[],[],[],w + o.chunkLen w⟩
  | .answered w status .slot =>
    ⟨o.waiting w,some (o.answer w status),none,[],[],[],w + o.chunkLen w⟩
  | .lost w => ⟨o.waiting w,none,none,[],[],[],w⟩
  | .acked w => o.view (.acked w)
  | .done => o.view .done

/-- All is well: no chunk was refused or lost. -/
def Credited : AckPosition → Prop
  | .answered _ status _ => status = 0
  | .lost _ => False
  | _ => True

def AckWithin : AckPosition → Prop
  | .ready w => w ≤ o.output.length
  | .acked w => w ≤ o.output.length
  | .requested w => w < o.output.length
  | .answered w _ _ => w < o.output.length
  | .lost w => w < o.output.length
  | _ => True

/-- The system is at a position of the write loop, and if all is well the file holds the bytes
that the position says. -/
structure Acking (before : Disk) (pos : AckPosition) (s : StoredState) : Prop where
  within : o.AckWithin pos
  workers : s.compute.workers = [⟨o.number,o.job,(o.ackView pos).phase⟩]
  mailbox : s.compute.mailbox = ⟨(o.ackView pos).slot,o.job.epoch,true⟩
  dispatch : s.compute.dispatch.Holds o.number (o.ackView pos).held
  requests : s.compute.requests = (o.ackView pos).requests
  sending : s.compute.sending = (o.ackView pos).sending
  socket : s.compute.socket = (o.ackView pos).socket
  busy : s.compute.jobBusy = true
  handled : o.number < s.compute.handled
  disk : Credited pos →
    s.disk = storedUpTo before o.job.outPath o.output (o.ackView pos).stored

/-- The job is at its end or behind it, without OK or with OK already sent. -/
structure Over (s : ComputeState) : Prop where
  workers : ∀ w ∈ s.workers,w.number = o.number → w.phase.NotOk
  dispatch : s.dispatch.Apart o.number
  handled : o.number < s.handled

end OutputJob

/-- When Data serves a chunk, the flush in `fclose` loses no part of it that `fwrite` took. -/
def StoredState.Flushes (s : StoredState) : StoredAction → Prop
  | .serve io _ =>
    match s.compute.requests with
    | ⟨.write _ _ _ payload,_⟩ :: _ => ¬io.LosesTail payload.length
    | _ => True
  | .compute _ => True

theorem StoredAction.Succeeds.flushes {jobId : BitVec 32} {action : StoredAction}
    (h : action.Succeeds jobId) (s : StoredState) : s.Flushes action := by
  cases action with
  | compute action => trivial
  | serve io failsAfter =>
    obtain ⟨rfl,-⟩ := h
    dsimp only [StoredState.Flushes]
    split
    · exact WriteIo.succeeds_stores _
    · trivial

/-! ### Behind the end of the job -/

theorem notOk_finishStep {stage : FinishStage} {status : ComputeStatus} {outputSize : ℕ} :
    (WorkerPhase.finish (finishStep stage status outputSize).1 status outputSize).NotOk := by
  cases stage <;> exact nofun

namespace OutputJob

variable {o : OutputJob}

theorem Over.same {s s' : ComputeState} (h : o.Over s) (hworkers : s'.workers = s.workers)
    (hdispatch : s'.dispatch.Apart o.number) (hhandled : s.handled ≤ s'.handled) : o.Over s' :=
  ⟨by rw [hworkers]; exact h.workers,hdispatch,h.handled.trans_le hhandled⟩

/-- A worker of the job can only go on to its end. -/
theorem Over.workerStep {s s' : ComputeState} (h : o.Over s) {i : ℕ} {io : WorkerIo}
    (hstep : s.workerStep i io = some s') : o.Over s' := by
  obtain ⟨w,phase,effect,hget,hnext,rfl⟩ := workerStep_eq_some hstep
  have hphase : w.number = o.number → phase.NotOk := by
    intro hnumber
    have hend := h.workers w (List.mem_of_getElem? hget) hnumber
    cases hw : w.phase with
    | finish stage status outputSize =>
      simp only [workerNext,hw,Option.some.injEq,Prod.mk.injEq] at hnext
      rw [← hnext.1]
      exact notOk_finishStep
    | _ =>
      rw [hw] at hend
      exact hend.elim
  refine ⟨fun v hv hnumber => ?_,?_,?_⟩
  · rcases mem_workersAfter hv with hv | ⟨hnumber',hphase'⟩
    · exact h.workers v hv hnumber
    · rw [hphase']
      exact hphase (hnumber'.symm.trans hnumber)
  · change (s.perform w.number w.job effect).dispatch.Apart o.number
    rw [ComputeState.perform_dispatch]
    exact h.dispatch
  · change o.number < (s.perform w.number w.job effect).handled
    rw [ComputeState.perform_handled]
    exact h.handled

theorem Over.dispatchStep {s s' : ComputeState} (h : o.Over s) {io : DispatchIo}
    (hstep : s.dispatchStep io = some s') : o.Over s' := by
  have happart := h.dispatch
  cases dispatchStep_move hstep with
  | deliver =>
    unfold ComputeState.deliverStep
    split <;> exact h.same rfl trivial le_rfl
  | @handle req src =>
    unfold ComputeState.handleCompressRequest
    dsimp only
    split_ifs
    · exact h.same rfl trivial (Nat.le_succ _)
    · exact h.same rfl h.handled.ne' (Nat.le_succ _)
  | refuse => exact h.same rfl trivial le_rfl
  | begin hdispatch =>
    rw [hdispatch] at happart
    exact h.same rfl happart le_rfl
  | watch hdispatch =>
    rw [hdispatch] at happart
    exact h.same rfl happart le_rfl
  | createFails => exact h.same rfl trivial le_rfl
  | @failed number req src stage =>
    cases stage <;> exact h.same rfl trivial le_rfl
  | @create number req src hdispatch =>
    rw [hdispatch] at happart
    -- the new worker has a number of its own
    refine ⟨fun v hv hnumber => ?_,trivial,h.handled⟩
    rcases List.mem_append.mp hv with hv | hv
    · exact h.workers v hv hnumber
    · obtain rfl := List.mem_singleton.mp hv
      exact absurd hnumber happart

theorem Over.step {s s' : ComputeState} (h : o.Over s) {action : ComputeAction}
    (hstep : s.step action = some s') : o.Over s' := by
  cases action with
  | compress req src =>
    obtain ⟨-,hs'⟩ := Option.ite_none_right_eq_some.mp hstep
    cases hs'
    exact h.same rfl trivial le_rfl
  | cancel jobId =>
    obtain ⟨-,hs'⟩ := Option.ite_none_right_eq_some.mp hstep
    cases hs'
    exact h.same rfl h.dispatch le_rfl
  | takeReply =>
    obtain ⟨reply,socket,-,-,rfl⟩ := takeReply_eq_some hstep
    exact h.same rfl trivial le_rfl
  | dispatch io => exact h.dispatchStep hstep
  | worker i io => exact h.workerStep hstep
  | serve io =>
    obtain ⟨q,rest,replies,opened,-,-,-,rfl⟩ := serve_eq_some hstep
    exact h.same rfl h.dispatch le_rfl
  | send delivered =>
    obtain ⟨reply,sending,-,rfl | rfl⟩ := send_eq_some hstep
    · exact h.same rfl h.dispatch le_rfl
    · exact h.same rfl h.dispatch le_rfl

/-- A result OK comes from a worker of the job that stands right before it. -/
theorem Over.not_ok {s s' : ComputeState} (h : o.Over s) {action : ComputeAction}
    (hstep : s.step action = some s') {jobId : BitVec 32} {src : ObcRole} {outputSize : ℕ}
    (hresult : .result o.number jobId src .ok outputSize ∈ s'.events) :
    .result o.number jobId src .ok outputSize ∈ s.events := by
  rcases step_succeeded hstep hresult with hold | ⟨w,hw,hnumber,hphase⟩
  · exact hold
  · have hend := h.workers w hw hnumber
    rw [hphase] at hend
    exact absurd rfl (hend rfl)

/-! ### The steps of the worker -/

variable {before : Disk} {pos : AckPosition} {s : StoredState}

/-- The step of the worker at each position: it goes on as if nothing had failed, or gives up. -/
inductive AckTurn (o : OutputJob) : AckPosition → WorkerPhase → WorkerEffect → Prop
  | start : o.AckTurn .encoded (o.view (.ready 0)).phase .none
  | request {written : ℕ} (delivered : Bool) (h : written < o.output.length) :
    o.AckTurn (.ready written) (o.waiting written)
      (.request (writeChunk o.job.outPath o.output written) delivered)
  | finish : o.AckTurn (.ready o.output.length) (o.view .done).phase .none
  | take {written : ℕ} : o.AckTurn (.answered written 0 .slot)
      (o.view (.acked (written + o.chunkLen written))).phase .take
  | next {written : ℕ} : o.AckTurn (.acked written) (o.view (.ready written)).phase .none
  | report : o.AckTurn .done (.finish .endEpoch .ok o.output.length)
      (.sendResult .ok o.output.length)
  | giveUp {pos : AckPosition} {status : ComputeStatus} {effect : WorkerEffect}
    (h : status ≠ .ok) (heffect : effect = .none ∨ effect = .take) :
    o.AckTurn pos (.giveUp status) effect

/-- While the slot is empty the worker can only give up. -/
theorem waiting_givesUp {m : Mailbox} (hslot : m.slot = none) {cancelled : Bool} {io : WorkerIo}
    {written : ℕ} {phase : WorkerPhase} {effect : WorkerEffect}
    (hnext : workerNext m cancelled io ⟨o.number,o.job,o.waiting written⟩ = some (phase,effect))
    (pos : AckPosition) : o.AckTurn pos phase effect := by
  have hmove := workerNext_move hnext
  dsimp only [waiting] at hmove
  cases hmove with
  | noAck => exact .giveUp nofun (.inl rfl)
  | noRoom hreply | ack hreply =>
    rw [hslot] at hreply
    cases hreply

theorem Acking.ackTurn (h : o.Acking before pos s) {cancelled : Bool} {io : WorkerIo}
    {phase : WorkerPhase} {effect : WorkerEffect}
    (hnext : workerNext s.compute.mailbox cancelled io
      ⟨o.number,o.job,(o.ackView pos).phase⟩ = some (phase,effect)) :
    o.AckTurn pos phase effect := by
  have hwithin := h.within
  have hmailbox := h.mailbox
  cases pos with
  | encoded =>
    cases workerNext_move hnext
    cases cancelled with
    | true => exact .giveUp nofun (.inl rfl)
    | false => exact .start
  | ready written =>
    change written ≤ o.output.length at hwithin
    have hmove := workerNext_move hnext
    dsimp only [ackView,view] at hmove
    cases hmove with
    | write delivered hmore => exact .request delivered hmore
    | done hall =>
      obtain rfl : written = o.output.length := by omega
      exact .finish
  | requested written | lost written => exact waiting_givesUp (by rw [hmailbox]; rfl) hnext _
  | answered written status place =>
    cases place with
    -- the reply is still on its way, and all that can happen is a timeout
    | sending | socket | held => exact waiting_givesUp (by rw [hmailbox]; rfl) hnext _
    | slot =>
      rw [hmailbox] at hnext
      by_cases hstatus : status = 0
      · subst hstatus
        cases hnext
        exact .take
      · have hfailed : ackChunk o.output written (o.chunkLen written) (.ack status) =
            .giveUp .failed := if_pos hstatus
        cases hnext
        exact hfailed ▸ .giveUp nofun (.inr rfl)
  | acked written =>
    cases hnext
    cases cancelled with
    | true => exact .giveUp nofun (.inl rfl)
    | false => exact .next
  | done =>
    cases hnext
    exact .report

/-- The job is at a position of the write loop, or over. -/
def Trusted (o : OutputJob) (before : Disk) (s : StoredState) : Prop :=
  (∃ pos,o.Acking before pos s) ∨ o.Over s.compute

/-- The dispatch thread has nothing to do with a job of the same number. -/
theorem Acking.apart (h : o.Acking before pos s) : s.compute.dispatch.Apart o.number := by
  have hholds := h.dispatch
  revert hholds
  cases (o.ackView pos).held with
  | some reply =>
    intro hdeliver
    rw [show s.compute.dispatch = _ from hdeliver]
    trivial
  | none => cases s.compute.dispatch <;> first | exact fun _ => trivial | exact False.elim

/-- The worker of the job goes to its end. -/
theorem Acking.over (h : o.Acking before pos s) {phase : WorkerPhase} (hphase : phase.NotOk)
    {c : ComputeState} (hworkers : c.workers = [⟨o.number,o.job,phase⟩])
    (hdispatch : c.dispatch = s.compute.dispatch) (hhandled : c.handled = s.compute.handled) :
    o.Over c := by
  refine ⟨fun w hw _ => ?_,hdispatch ▸ h.apart,hhandled ▸ h.handled⟩
  rw [hworkers] at hw
  obtain rfl := List.mem_singleton.mp hw
  exact hphase

theorem Acking.worker (h : o.Acking before pos s) {i : ℕ} {io : WorkerIo} {c : ComputeState}
    (hstep : s.compute.workerStep i io = some c) : o.Trusted before ⟨c,s.disk⟩ := by
  obtain ⟨w,phase,effect,hget,hnext,rfl⟩ := workerStep_eq_some hstep
  rw [h.workers] at hget
  -- there is no other worker
  obtain ⟨rfl,rfl⟩ : i = 0 ∧ ⟨o.number,o.job,(o.ackView pos).phase⟩ = w := by
    cases i with
    | zero => exact ⟨rfl,Option.some.inj hget⟩
    | succ i => cases hget
  have hworkers (phase : WorkerPhase) :
      s.compute.workers.set 0 ⟨o.number,o.job,phase⟩ = [⟨o.number,o.job,phase⟩] := by
    rw [h.workers]
    rfl
  cases h.ackTurn hnext with
  | start => exact .inl ⟨.ready 0,{ h with within := Nat.zero_le _,workers := hworkers _ }⟩
  | @request written delivered hmore =>
    cases delivered with
    | true => exact .inl ⟨.requested written,{ h with
        within := hmore
        workers := hworkers _
        requests := congrArg (· ++ _) h.requests }⟩
    | false => exact .inl ⟨.lost written,{ h with
        within := hmore
        workers := hworkers _
        disk := False.elim }⟩
  | finish => exact .inl ⟨.done,{ h with within := trivial,workers := hworkers _ }⟩
  | @take written =>
    obtain ⟨-,hle⟩ := chunkLen_le h.within
    exact .inl ⟨.acked (written + o.chunkLen written),{ h with
      within := hle
      workers := hworkers _
      mailbox := by
        change ({ s.compute.mailbox with slot := none } : Mailbox) = _
        rw [h.mailbox]
        rfl
      disk := fun _ => h.disk rfl }⟩
  | @next written => exact .inl ⟨.ready written,{ h with workers := hworkers _ }⟩
  | report =>
    have hend : (WorkerPhase.finish .endEpoch .ok o.output.length).NotOk := nofun
    exact .inr (h.over hend (hworkers _) rfl rfl)
  | @giveUp _ status _ hstatus heffect =>
    have hend : (WorkerPhase.giveUp status).NotOk := fun _ => hstatus
    rcases heffect with rfl | rfl <;> exact .inr (h.over hend (hworkers _) rfl rfl)

/-! ### The steps of Data and of the dispatch thread -/

/-- What an acknowledged chunk leaves is the file that the next position says. -/
theorem chunkFile_next (before : Disk) {written : ℕ} (hmore : written < o.output.length)
    (h32 : written < 2^32) :
    let disk := storedUpTo before o.job.outPath o.output written
    let payload := (o.output.drop written).take (o.chunkLen written)
    Function.update disk o.job.outPath
        (some (chunkFile disk o.job.outPath (BitVec.ofNat 32 written) payload)) =
      storedUpTo before o.job.outPath o.output (written + o.chunkLen written) := by
  obtain ⟨hpos,-⟩ := chunkLen_le hmore
  intro disk payload
  have hnext := filesystemWriteChunk_next before o.job.outPath o.output hpos h32
  have hstored := (filesystemWriteChunk_acked_iff disk o.job.outPath (BitVec.ofNat 32 written)
    payload .succeeds).mpr (WriteIo.succeeds_stores _)
  rw [← hstored (by rw [hnext]),hnext]

theorem Acking.serve (h : o.Acking before pos s) (hcap : o.output.length < 2^32) {io : WriteIo}
    {failsAfter : Option ℕ} (hflush : s.Flushes (.serve io failsAfter)) {s' : StoredState}
    (hstep : s.step (.serve io failsAfter) = some s') : o.Trusted before s' := by
  have hrequests := h.requests
  cases pos with
  | requested written =>
    have hmore : written < o.output.length := h.within
    have hdisk : s.disk = storedUpTo before o.job.outPath o.output written := h.disk trivial
    unfold StoredState.Flushes at hflush
    rw [hrequests] at hflush
    rw [StoredState.step_write hrequests h.sending] at hstep
    obtain rfl := Option.some.inj hstep
    refine .inl ⟨.answered written _ .sending,{ h with
      requests := rfl
      sending := rfl
      disk := fun hcredit => ?_ }⟩
    have hack : (filesystemWriteChunk s.disk o.job.outPath (BitVec.ofNat 32 written)
        ((o.output.drop written).take (o.chunkLen written)) io).2 = 0 := by
      by_contra hne
      have hrefused : (if _ then (0 : ℤ) else -1) = -1 := if_neg hne
      exact absurd (hrefused.symm.trans hcredit) (by decide)
    -- this is where the flush must not lose a part
    have hstored := (filesystemWriteChunk_acked_iff _ _ _ _ _).mpr hflush hack
    refine hstored.trans ?_
    rw [hdisk]
    exact chunkFile_next before hmore (hmore.trans hcap)
  | answered written status place =>
    unfold StoredState.step at hstep
    cases place <;> rw [hrequests] at hstep <;> cases hstep
  | _ =>
    unfold StoredState.step at hstep
    rw [hrequests] at hstep
    cases hstep

theorem Acking.send (h : o.Acking before pos s) {delivered : Bool} {c : ComputeState}
    (hstep : s.compute.step (.send delivered) = some c) : o.Trusted before ⟨c,s.disk⟩ := by
  obtain ⟨reply,sending,hreply,hc⟩ := send_eq_some hstep
  have hsending := h.sending
  rw [hreply] at hsending
  cases pos with
  | answered written status place =>
    cases place with
    | sending =>
      obtain ⟨rfl,rfl⟩ := List.cons.inj hsending
      rcases hc with rfl | rfl
      · exact .inl ⟨.answered written status .socket,{ h with
          sending := rfl
          socket := congrArg (· ++ _) h.socket }⟩
      · exact .inl ⟨.lost written,{ h with sending := rfl,disk := False.elim }⟩
    | socket | held | slot => cases hsending
  | _ => cases hsending

theorem Acking.takeReply (h : o.Acking before pos s) {c : ComputeState}
    (hstep : s.compute.step .takeReply = some c) : o.Trusted before ⟨c,s.disk⟩ := by
  obtain ⟨reply,socket,-,hreply,rfl⟩ := takeReply_eq_some hstep
  have hsocket := h.socket
  rw [hreply] at hsocket
  cases pos with
  | answered written status place =>
    cases place with
    | socket =>
      obtain ⟨rfl,rfl⟩ := List.cons.inj hsocket
      exact .inl ⟨.answered written status .held,{ h with dispatch := rfl,socket := rfl }⟩
    | sending | held | slot => cases hsocket
  | _ => cases hsocket

/-- The dispatch thread with a reply in hand stores it, as the slot is empty. -/
theorem Acking.deliver (h : o.Acking before pos s) {reply : TaggedReply}
    {entryEpoch : Option (BitVec 32)} (hdispatch : s.compute.dispatch = .deliver reply entryEpoch)
    {expired : Bool} : o.Trusted before
      ⟨s.compute.deliverStep reply (entryEpoch.getD s.compute.mailbox.epoch) expired,s.disk⟩ := by
  have hholds := h.dispatch
  rw [hdispatch] at hholds
  cases pos with
  | answered written status place =>
    cases place with
    | held =>
      obtain ⟨rfl,rfl⟩ := DispatchPhase.deliver.inj hholds
      have hmailbox : s.compute.mailbox = ⟨none,o.job.epoch,true⟩ := h.mailbox
      have hstored : s.compute.mailbox.deliverReply s.compute.mailbox.epoch expired = .store := by
        rw [hmailbox]
        simp [Mailbox.deliverReply]
      rw [Option.getD_none,ComputeState.deliverStep,hstored]
      exact .inl ⟨.answered written status .slot,{ h with
        mailbox := by
          change ({ s.compute.mailbox with slot := some (o.answer written status) } : Mailbox) = _
          rw [hmailbox]
          rfl
        dispatch := trivial }⟩
    | sending | socket | slot => exact hholds.elim
  | _ => exact hholds.elim

/-- A job that comes meanwhile is refused, as this one is running. -/
theorem Acking.dispatchStep (h : o.Acking before pos s) {io : DispatchIo} {c : ComputeState}
    (hstep : s.compute.dispatchStep io = some c) : o.Trusted before ⟨c,s.disk⟩ := by
  cases dispatchStep_move hstep with
  | deliver hdispatch => exact h.deliver hdispatch
  | @handle req src hdispatch =>
    have hrefuse : (DispatchPhase.busy s.compute.handled req src).Refusing o.number := h.handled.ne'
    rw [ComputeState.handleCompressRequest,if_pos h.busy]
    exact .inl ⟨pos,{ h with
      dispatch := h.dispatch.refuses (by simp [hdispatch]) hrefuse
      handled := Nat.lt_succ_of_lt h.handled }⟩
  | refuse hdispatch =>
    exact .inl ⟨pos,{ h with dispatch := h.dispatch.refuses (by simp [hdispatch]) trivial }⟩
  | begin hdispatch | watch hdispatch | create hdispatch | createFails hdispatch
  | failed hdispatch =>
    have hrefuse := h.dispatch
    rw [h.dispatch.eq_none (by simp [hdispatch]),hdispatch] at hrefuse
    exact hrefuse.elim

/-! ### Every step -/

theorem Trusted.step (h : o.Trusted before s) (hcap : o.output.length < 2^32)
    {action : StoredAction} (hflush : s.Flushes action) {s' : StoredState}
    (hstep : s.step action = some s') : o.Trusted before s' := by
  obtain ⟨pos,h⟩ | h := h
  · cases action with
    | serve io failsAfter => exact h.serve hcap hflush hstep
    | compute action =>
      cases action with
      | serve io => cases hstep
      | compress req src =>
        obtain ⟨c,hc,rfl⟩ := Option.map_eq_some_iff.mp hstep
        obtain ⟨⟨hreceive,-⟩,heq⟩ := Option.ite_none_right_eq_some.mp hc
        cases heq
        exact .inl ⟨pos,{ h with dispatch := h.dispatch.refuses (by simp [hreceive]) trivial }⟩
      | cancel jobId =>
        obtain ⟨c,hc,rfl⟩ := Option.map_eq_some_iff.mp hstep
        obtain ⟨-,heq⟩ := Option.ite_none_right_eq_some.mp hc
        cases heq
        exact .inl ⟨pos,{ h with }⟩
      | takeReply =>
        obtain ⟨c,hc,rfl⟩ := Option.map_eq_some_iff.mp hstep
        exact h.takeReply hc
      | dispatch io =>
        obtain ⟨c,hc,rfl⟩ := Option.map_eq_some_iff.mp hstep
        exact h.dispatchStep hc
      | worker i io =>
        obtain ⟨c,hc,rfl⟩ := Option.map_eq_some_iff.mp hstep
        exact h.worker hc
      | send delivered =>
        obtain ⟨c,hc,rfl⟩ := Option.map_eq_some_iff.mp hstep
        exact h.send hc
  · obtain ⟨b,hb⟩ := StoredState.step_compute hstep
    exact .inr (h.step hb)

theorem Begins.trusted (h : o.Begins s) : o.Trusted s.disk s :=
  .inl ⟨.encoded,{ h with within := trivial,disk := fun _ => rfl }⟩

/-- A step that sends OK finds the whole output in the file. -/
theorem Trusted.ok_stored (h : o.Trusted before s) {action : StoredAction} {s' : StoredState}
    (hstep : s.step action = some s') {jobId : BitVec 32} {src : ObcRole} {outputSize : ℕ}
    (hresult : .result o.number jobId src .ok outputSize ∈ s'.compute.events)
    (hnew : .result o.number jobId src .ok outputSize ∉ s.compute.events) :
    outputSize = o.output.length ∧
      s'.disk = storedUpTo before o.job.outPath o.output o.output.length := by
  obtain ⟨b,hb⟩ := StoredState.step_compute hstep
  obtain ⟨pos,h⟩ | h := h
  · obtain ⟨w,hw,-,hphase⟩ := (step_succeeded hb hresult).resolve_left hnew
    rw [h.workers] at hw
    obtain rfl := List.mem_singleton.mp hw
    obtain ⟨rfl,hsize⟩ : pos = .done ∧ outputSize = o.output.length := by
      cases pos with
      | done =>
        cases hphase
        exact ⟨rfl,rfl⟩
      | answered written status place => cases place <;> cases hphase
      | _ => cases hphase
    -- the step that sends the result writes no file
    refine ⟨hsize,Eq.trans ?_ (h.disk trivial)⟩
    cases action with
    | serve io failsAfter =>
      unfold StoredState.step at hstep
      rw [h.requests] at hstep
      cases hstep
    | compute action =>
      cases action with
      | serve io => cases hstep
      | _ =>
        obtain ⟨c,-,rfl⟩ := Option.map_eq_some_iff.mp hstep
        rfl
  · exact absurd (h.not_ok hb hresult) hnew

end OutputJob

/-- A chunk that is acknowledged with zero is in the file exactly if the flush in `fclose` does
not lose a part that `fwrite` took. Where no flush does, a worker that sends OK finds its whole
output in the file, whatever else fails. -/
theorem acknowledged_chunks_stored_iff (disk : Disk) (path : List Byte) (offset : BitVec 32)
    (payload : List Byte) (io : WriteIo) :
    (((filesystemWriteChunk disk path offset payload io).2 = 0 →
      (filesystemWriteChunk disk path offset payload io).1 =
        Function.update disk path (some (chunkFile disk path offset payload))) ↔
      ¬io.LosesTail payload.length) ∧
      ∀ (o : OutputJob) (s t t' : StoredState) (actions : List StoredAction) (action : StoredAction)
        (jobId : BitVec 32) (src : ObcRole) (outputSize : ℕ),
        1 ≤ o.output.length → o.output.length ≤ computeCompressedCap → o.Begins s →
        (∀ pre a post u,actions = pre ++ a :: post → run StoredState.step s pre = some u →
          u.Flushes a) →
        run StoredState.step s actions = some t → t.step action = some t' →
        .result o.number jobId src .ok outputSize ∈ t'.compute.events →
        .result o.number jobId src .ok outputSize ∉ t.compute.events →
        outputSize = o.output.length ∧
          t'.disk = Function.update s.disk o.job.outPath (some o.output) := by
  refine ⟨filesystemWriteChunk_acked_iff _ _ _ _ _,?_⟩
  intro o s t t' actions action jobId src outputSize hpos hcap hs hflush hrun hstep hresult hnew
  have h32 : o.output.length < 2^32 := lt_of_le_of_lt hcap (by decide)
  have htrusted : o.Trusted s.disk t := run_invariant_of
    (fun u a u' hu ha hstep => OutputJob.Trusted.step hu h32 ha hstep) hs.trusted hflush hrun
  obtain ⟨hsize,hdisk⟩ := htrusted.ok_stored hstep hresult hnew
  exact ⟨hsize,hdisk.trans (storedUpTo_length (List.ne_nil_of_length_pos hpos) _ _)⟩

/-- The run of a job of two chunks sends OK at its end, and both are in the file. -/
theorem small_output_acknowledged : ∃ t t' : StoredState,
    run StoredState.step twoChunkBegin twoChunkRun.dropLast = some t ∧
      t.step (.compute (.worker 0 OutputJob.promptIo)) = some t' ∧
      .result 0 7 .mission .ok 130 ∉ t.compute.events ∧
      .result 0 7 .mission .ok 130 ∈ t'.compute.events ∧
      t'.disk = Function.update twoChunkBegin.disk [111] (some (List.replicate 130 5)) := by
  have hany : (run StoredState.step twoChunkBegin twoChunkRun.dropLast).any (fun t =>
      decide (.result 0 7 .mission .ok 130 ∉ t.compute.events) &&
        (t.step (.compute (.worker 0 OutputJob.promptIo))).any fun t' =>
          decide (.result 0 7 .mission .ok 130 ∈ t'.compute.events)) = true := by decide +kernel
  obtain ⟨t,hrun,hstate⟩ := (Option.any_eq_true _ _).mp hany
  obtain ⟨hnew,hlast⟩ := Bool.and_eq_true_iff.mp hstate
  obtain ⟨t',hstep,hresult⟩ := (Option.any_eq_true _ _).mp hlast
  have hflush : ∀ pre a post u,twoChunkRun.dropLast = pre ++ a :: post →
      run StoredState.step twoChunkBegin pre = some u → u.Flushes a := by
    intro pre a post u hsplit _
    have ha : a ∈ twoChunkRun.dropLast := by
      rw [hsplit]
      exact List.mem_append_right _ List.mem_cons_self
    exact (twoChunkRun_succeeds a (List.mem_of_mem_dropLast ha)).flushes u
  obtain ⟨-,hdisk⟩ := (acknowledged_chunks_stored_iff twoChunkBegin.disk [111] 0 [1,2,3]
    ⟨true,none,none⟩).2 twoChunkJob twoChunkBegin t t' _ _ 7 .mission 130
    (by rw [twoChunkJob_length]; decide) (by rw [twoChunkJob_length]; decide)
    twoChunkJob_begins hflush hrun hstep (of_decide_eq_true hresult) (of_decide_eq_true hnew)
  exact ⟨t,t',hrun,hstep,of_decide_eq_true hnew,of_decide_eq_true hresult,hdisk⟩

/-- A job with three bytes for a file of five. -/
def smallJob : OutputJob where
  number := 0
  job := ⟨7,.mission,1,[105],[111]⟩
  output := [1,2,3]

def smallBegin : StoredState where
  compute := { ComputeState.initial with
    mailbox := ⟨none,1,true⟩
    jobBusy := true
    jobIdRunning := 7
    workers := [⟨0,smallJob.job,.encoded [1,2,3]⟩]
    handled := 1 }
  disk := Function.update (fun _ => none) [111] (some [9,9,9,9,9])

/-- A run with another job refused while the only chunk is on its way. -/
def smallRun : List StoredAction :=
  let work : StoredAction := .compute (.worker 0 OutputJob.promptIo)
  let dispatch : StoredAction := .compute (.dispatch ⟨false,true⟩)
  [work,work,.compute (.compress ⟨8,[],[]⟩ .commands),dispatch,dispatch,.serve .succeeds none,
    .compute (.send true),.compute .takeReply,dispatch,work,work,work,work]

/-- The run of a small job, but the flush writes one byte of the three. -/
def fullDiskRun : List StoredAction :=
  smallRun.map fun action =>
    match action with
    | .serve _ failsAfter => .serve ⟨true,none,some 1⟩ failsAfter
    | action => action

/-- The chunk is acknowledged with zero and the worker sends OK for an incomplete file. -/
theorem lost_flush_reports_ok :
    filesystemWriteChunk (fun _ => none) [111] 0 [1,2,3] ⟨true,none,some 1⟩ =
        (Function.update (fun _ => none) [111] (some [1]),0) ∧
      ∃ t,run StoredState.step smallBegin fullDiskRun = some t ∧
        .result 0 7 .mission .ok 3 ∈ t.compute.events ∧ t.disk [111] = some [1] := by
  refine ⟨rfl,_,rfl,?_,rfl⟩
  exact List.mem_append_right _ (List.mem_singleton_self _)

end FlightSoftware.Compute
