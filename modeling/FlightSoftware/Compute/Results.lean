import FlightSoftware.Compute.Orderly

/-!
# One result for each request

What the order of the statements of `send_result` is for. Nothing can keep the
threads from finishing a job: the worker's waits have a deadline, and that of the
dispatch thread has its grace.
-/

namespace FlightSoftware.Compute
open Obc Run

/-! ### Jobs can be finished -/

/-- The steps that a worker has ahead when Data sends nothing. -/
def WorkerPhase.ahead : WorkerPhase → ℕ
  | .start => 7
  | .sendRead => 6
  | .awaitRead _ => 5
  | .gotRead _ => 6
  | .encode _ => 5
  | .encoded _ => 7
  | .sendChunk _ _ => 6
  | .awaitAck _ _ _ => 5
  | .acked _ _ => 7
  | .finish .send _ _ => 4
  | .finish .endEpoch _ _ => 3
  | .finish .endWatch _ _ => 2
  | .finish .release _ _ => 1

/-- A reply in the slot may take the worker back by a few phases. -/
def Mailbox.ahead (m : Mailbox) : ℕ := if m.slot.isSome then 10 else 0

/-- Every call of the worker fails that can fail. -/
def WorkerIo.failing : WorkerIo := ⟨false,true,none⟩

theorem readChunk_ahead (input : List Byte) (reply : Data.DataReadReply) :
    (readChunk input reply).ahead ≤ 6 := by
  unfold readChunk
  split_ifs <;> simp [WorkerPhase.ahead,WorkerPhase.giveUp]

theorem ackChunk_ahead (output : List Byte) (written chunkLen : ℕ) (reply : DataReply) :
    (ackChunk output written chunkLen reply).ahead ≤ 7 := by
  unfold ackChunk
  split
  · split_ifs <;> simp [WorkerPhase.ahead,WorkerPhase.giveUp]
  · simp [WorkerPhase.ahead,WorkerPhase.giveUp]

/-- A worker whose calls fail does not sleep, and comes closer to the end. -/
theorem workerNext_ahead (m : Mailbox) (cancelled : Bool) (w : Worker) :
    ∃ phase effect,workerNext m cancelled .failing w = some (phase,effect) ∧
      (effect = .release ∨
        phase.ahead + (if effect = .take then 0 else m.ahead) < w.phase.ahead + m.ahead) := by
  unfold workerNext
  cases hphase : w.phase with
  | start | sendRead => exact ⟨_,_,rfl,.inr (by simp [WorkerPhase.ahead])⟩
  | gotRead | encoded | acked =>
    refine ⟨_,_,rfl,.inr ?_⟩
    cases cancelled <;> simp [WorkerPhase.ahead,WorkerPhase.giveUp]
  | encode => exact ⟨_,_,rfl,.inr (by simp [WorkerPhase.ahead,WorkerPhase.giveUp])⟩
  | sendChunk output written =>
    dsimp only
    split_ifs <;> exact ⟨_,_,rfl,.inr (by simp [WorkerPhase.ahead])⟩
  | finish stage status outputSize =>
    refine ⟨_,_,rfl,?_⟩
    cases stage <;> simp [finishStep,WorkerPhase.ahead]
  | awaitRead input =>
    cases hslot : m.slot with
    | none =>
      refine ⟨.giveUp .timeout,.none,?_,.inr (by simp [WorkerPhase.ahead,WorkerPhase.giveUp])⟩
      simp only [Mailbox.waitForReply,hslot,WorkerIo.failing]
      split_ifs <;> rfl
    | some reply =>
      have hfull : m.ahead = 10 := by rw [Mailbox.ahead,hslot]; rfl
      rw [hfull]
      simp only [Mailbox.waitForReply,hslot]
      split_ifs
      · dsimp only
        split
        · exact ⟨_,_,rfl,.inr (by simp [WorkerPhase.ahead])⟩
        · rename_i chunk _
          have := readChunk_ahead input chunk
          refine ⟨_,_,rfl,.inr ?_⟩
          rw [if_pos rfl]
          change _ < 5+10
          omega
      · exact ⟨_,_,rfl,.inr (by simp [WorkerPhase.ahead,WorkerPhase.giveUp])⟩
  | awaitAck output written chunkLen =>
    cases hslot : m.slot with
    | none =>
      refine ⟨.giveUp .timeout,.none,?_,.inr (by simp [WorkerPhase.ahead,WorkerPhase.giveUp])⟩
      simp only [Mailbox.waitForReply,hslot,WorkerIo.failing]
      split_ifs <;> rfl
    | some reply =>
      have hfull : m.ahead = 10 := by rw [Mailbox.ahead,hslot]; rfl
      rw [hfull]
      simp only [Mailbox.waitForReply,hslot]
      split_ifs
      · have := ackChunk_ahead output written chunkLen reply.reply
        refine ⟨_,_,rfl,.inr ?_⟩
        rw [if_pos rfl]
        change _ < 5+10
        omega
      · exact ⟨_,_,rfl,.inr (by simp [WorkerPhase.ahead,WorkerPhase.giveUp])⟩

section

variable {s s' : ComputeState}

/-- What an effect leaves in the slot. -/
theorem ComputeState.perform_ahead (s : ComputeState) (number : ℕ) (job : WorkerJob)
    (effect : WorkerEffect) :
    (s.perform number job effect).mailbox.ahead ≤ if effect = .take then 0 else s.mailbox.ahead := by
  cases effect with
  | take => simp [ComputeState.perform,Mailbox.ahead]
  | endEpoch =>
    simp only [ComputeState.perform,Mailbox.dispatchJobEnd,reduceCtorEq,if_false]
    split_ifs <;> simp [Mailbox.ahead]
  | none | load | request | sendResult | endWatch | release => simp [ComputeState.perform]

/-- The worker comes closer to its end. -/
theorem worker_closer {w : Worker} (hw : s.workers = [w]) :
    ∃ t,s.step (.worker 0 .failing) = some t ∧ t.dispatch = s.dispatch ∧
      (t.workers = [] ∨ ∃ w',t.workers = [w'] ∧
        w'.phase.ahead + t.mailbox.ahead < w.phase.ahead + s.mailbox.ahead) := by
  obtain ⟨phase,effect,hnext,hcloser⟩ :=
    workerNext_ahead s.mailbox (s.checkCancelled w.job.jobId) w
  refine ⟨{ s.perform w.number w.job effect with
    workers := s.workersAfter 0 w phase effect },?_,s.perform_dispatch _ _ _,?_⟩
  · change s.workerStep 0 .failing = _
    unfold ComputeState.workerStep
    rw [hw]
    simp only [List.getElem?_cons_zero,hnext]
  · by_cases hrelease : effect = .release
    · left
      change s.workersAfter 0 w phase effect = []
      rw [hrelease,ComputeState.workersAfter,hw]
      rfl
    · right
      refine ⟨_,ComputeState.workersAfter_only hw phase hrelease,?_⟩
      have hslot := s.perform_ahead w.number w.job effect
      have hless := hcloser.resolve_left hrelease
      change phase.ahead + (s.perform w.number w.job effect).mailbox.ahead < _
      omega

/-- The worker can go on to its end. -/
theorem worker_can_finish {w : Worker} (hw : s.workers = [w]) :
    ∃ as s',run ComputeState.step s as = some s' ∧ s'.dispatch = s.dispatch ∧ s'.workers = [] := by
  induction hn : w.phase.ahead + s.mailbox.ahead using Nat.strong_induction_on generalizing s w with
  | _ n ih =>
  obtain ⟨t,hstep,hdispatch,hgone | ⟨w',hw',hless⟩⟩ := worker_closer hw
  · exact ⟨[.worker 0 .failing],t,run_cons_eq_some.mpr ⟨t,hstep,rfl⟩,hdispatch,hgone⟩
  · obtain ⟨as,s',hrun,hsame,hgone⟩ := ih _ (hn ▸ hless) hw' rfl
    refine ⟨.worker 0 .failing :: as,s',?_,hsame.trans hdispatch,hgone⟩
    exact run_cons_eq_some.mpr ⟨t,hstep,hrun⟩

/-- The steps that the dispatch thread has ahead when the worker cannot be created. -/
def DispatchPhase.ahead : DispatchPhase → ℕ
  | .receive => 0
  | .deliver _ _ => 1
  | .busy _ _ _ => 1
  | .compress _ _ => 8
  | .begin _ _ _ => 7
  | .watch _ _ _ => 6
  | .create _ _ _ => 5
  | .failed _ _ _ .send => 4
  | .failed _ _ _ .endEpoch => 3
  | .failed _ _ _ .endWatch => 2
  | .failed _ _ _ .release => 1

theorem dispatch_closer (h : s.dispatch ≠ .receive) :
    ∃ t,s.step (.dispatch ⟨true,false⟩) = some t ∧ t.dispatch.ahead < s.dispatch.ahead := by
  change ∃ t,s.dispatchStep ⟨true,false⟩ = some t ∧ t.dispatch.ahead < s.dispatch.ahead
  unfold ComputeState.dispatchStep
  cases hdispatch : s.dispatch with
  | receive => exact absurd hdispatch h
  | deliver reply entryEpoch =>
    refine ⟨_,rfl,?_⟩
    simp only [ComputeState.deliverStep,Mailbox.deliverReply,Bool.true_eq_false,and_false,if_false]
    split_ifs <;> exact Nat.zero_lt_one
  | compress req src =>
    refine ⟨_,rfl,?_⟩
    simp only [ComputeState.handleCompressRequest]
    split_ifs <;> simp [DispatchPhase.ahead]
  | busy number req src => exact ⟨_,rfl,Nat.zero_lt_one⟩
  | begin number req src => exact ⟨_,rfl,Nat.lt_succ_self 6⟩
  | watch number req src => exact ⟨_,rfl,Nat.lt_succ_self 5⟩
  | create number req src => exact ⟨_,rfl,Nat.lt_succ_self 4⟩
  | failed number req src stage =>
    refine ⟨_,rfl,?_⟩
    cases stage <;> simp [finishStep,DispatchPhase.ahead]

/-- The dispatch thread can go on to its next message. -/
theorem dispatch_can_finish (s : ComputeState) :
    ∃ as s',run ComputeState.step s as = some s' ∧ s'.dispatch = .receive := by
  induction hn : s.dispatch.ahead using Nat.strong_induction_on generalizing s with
  | _ n ih =>
  by_cases hreceive : s.dispatch = .receive
  · exact ⟨[],s,rfl,hreceive⟩
  · obtain ⟨t,hstep,hless⟩ := dispatch_closer hreceive
    obtain ⟨as,s',hrun,hend⟩ := ih _ (hn ▸ hless) t rfl
    exact ⟨_ :: as,s',run_cons_eq_some.mpr ⟨t,hstep,hrun⟩,hend⟩

/-- Both threads can finish what they have begun. -/
theorem ComputeState.Orderly.can_finish (h : s.Orderly) :
    ∃ as s',run ComputeState.step s as = some s' ∧ s'.dispatch = .receive ∧ s'.workers = [] := by
  obtain ⟨as,t,hrun,hreceive⟩ := dispatch_can_finish s
  have hone := (h.after hrun).one
  rw [ComputeState.holders,hreceive,List.length_append,List.length_map] at hone
  cases hworkers : t.workers with
  | nil => exact ⟨as,t,hrun,hreceive,hworkers⟩
  | cons w rest =>
    have hrest : rest = [] := by
      rw [hworkers,List.length_cons] at hone
      refine List.length_eq_zero_iff.mp ?_
      split_ifs at hone
      omega
    rw [hrest] at hworkers
    obtain ⟨bs,s',hrun',hdispatch,hgone⟩ := worker_can_finish hworkers
    refine ⟨as ++ bs,s',?_,hdispatch.trans hreceive,hgone⟩
    rw [run_append,hrun]
    exact hrun'

/-! ### The results -/

/-- A thread is still occupied with the request. -/
def ComputeState.InProgress (s : ComputeState) (number : ℕ) : Prop :=
  number ∈ s.dispatch.refusing ∨ ∃ k ∈ s.holders,k.number = number

theorem ComputeState.pending_inProgress {number : ℕ} (h : number ∈ s.pending) :
    s.InProgress number := by
  rcases List.mem_append.mp h with h | h
  · exact .inl h
  · obtain ⟨k,hk,hnumber⟩ := List.mem_flatMap.mp h
    rw [Holder.pending] at hnumber
    split_ifs at hnumber
    · cases hnumber
    · exact .inr ⟨k,hk,(List.mem_singleton.mp hnumber).symm⟩

/-- A request has its result when no thread is occupied with it any more. -/
theorem ComputeState.Orderly.result_sent (h : s.Orderly) {number : ℕ} {jobId : BitVec 32}
    {src : ObcRole} {busy : Bool} (hhandled : HandledAs s.events number jobId src busy)
    (hdone : ¬ s.InProgress number) : resultsOf s.events number = 1 := by
  rw [h.logbook.counted,if_pos]
  exact ⟨h.logbook.numbers hhandled,fun hp => hdone (s.pending_inProgress hp)⟩

theorem ComputeState.Orderly.at_most_one_result (h : s.Orderly) (number : ℕ) :
    resultsOf s.events number ≤ 1 := by
  rw [h.logbook.counted]
  split_ifs <;> omega

/-- Every compress request that was handled gets exactly one result, for its job and to its
requester, which is BUSY if and only if `job_busy` was set: no more than one is sent, and one has
been sent when no thread is occupied with the request. At most one thread is between acceptance
and release. A result is CANCELLED only after a cancel request that came after the acceptance. A
job is accepted only when no epoch is open and no worker watched. And wherever the threads stand,
they can finish what they have begun. -/
theorem one_result_per_request {as : List ComputeAction} {s : ComputeState}
    (hrun : run ComputeState.step .initial as = some s) :
    (∀ number jobId src busy epochOpen watched,
      .handled number jobId src busy epochOpen watched ∈ s.events →
        resultsOf s.events number ≤ 1 ∧
        (¬ s.InProgress number → resultsOf s.events number = 1) ∧
        (∀ jobId' requester status outputSize,
          .result number jobId' requester status outputSize ∈ s.events →
            jobId' = jobId ∧ requester = src ∧ (status = .busy ↔ busy = true)) ∧
        (busy = false → epochOpen = false ∧ watched = false)) ∧
    (∀ number jobId requester status outputSize,
      .result number jobId requester status outputSize ∈ s.events →
        ∃ busy,HandledAs s.events number jobId requester busy) ∧
    s.holders.length ≤ 1 ∧
    (∀ before after number jobId requester outputSize,
      s.events = before ++ .result number jobId requester .cancelled outputSize :: after →
        CancelledIn before number jobId) ∧
    ∃ more s',run ComputeState.step s more = some s' ∧ s'.jobBusy = false ∧
      ∀ number,¬ s'.InProgress number := by
  have h : s.Orderly := ComputeState.orderly_initial.after hrun
  refine ⟨?_,?_,?_,?_,?_⟩
  · intro number jobId src busy epochOpen watched hm
    have hhandled : HandledAs s.events number jobId src busy := ⟨epochOpen,watched,hm⟩
    refine ⟨h.at_most_one_result number,h.result_sent hhandled,?_,?_⟩
    · intro jobId' requester status outputSize hresult
      obtain ⟨busy',hhandled',hbusy⟩ := h.logbook.named hresult
      obtain ⟨rfl,rfl,rfl⟩ := h.logbook.unique hhandled hhandled'
      exact ⟨rfl,rfl,hbusy⟩
    · rintro rfl
      exact h.logbook.accepted hm
  · intro number jobId requester status outputSize hresult
    obtain ⟨busy,hhandled,-⟩ := h.logbook.named hresult
    exact ⟨busy,hhandled⟩
  · rw [h.one]
    split_ifs <;> omega
  · intro before after number jobId requester outputSize hsplit
    exact h.logbook.cancelled hsplit
  · obtain ⟨more,s',hmore,hreceive,hgone⟩ := h.can_finish
    have hholders : s'.holders = [] := by
      rw [ComputeState.holders,hreceive,hgone]
      rfl
    have hone := (h.after hmore).one
    rw [hholders] at hone
    refine ⟨more,s',hmore,?_,?_⟩
    · by_contra hbusy
      rw [if_pos (by simpa using hbusy)] at hone
      cases hone
    · rintro number (hbusy | ⟨k,hk,-⟩)
      · rw [hreceive] at hbusy
        cases hbusy
      · rw [hholders] at hk
        cases hk

end

/-- A job whose request never reaches Data, and a second one that is refused meanwhile. -/
def refusedRun : List ComputeAction :=
  let io : DispatchIo := ⟨false,true⟩
  [.compress ⟨7,[],[]⟩ .mission,.dispatch io,.dispatch io,.dispatch io,.dispatch io,
    .worker 0 .failing,.worker 0 .failing,.compress ⟨8,[],[]⟩ .commands,.dispatch io,.dispatch io,
    .worker 0 .failing,.worker 0 .failing,.worker 0 .failing,.worker 0 .failing,.worker 0 .failing]

theorem refused_meanwhile : ∃ s,run ComputeState.step .initial refusedRun = some s ∧
    resultsOf s.events 0 = 1 ∧ resultsOf s.events 1 = 1 := by
  have hend : (run ComputeState.step .initial refusedRun).map
      (fun s => (s.events,s.dispatch,s.workers)) =
      some ([.handled 0 7 .mission false false false,.handled 1 8 .commands true true true,
        .result 1 8 .commands .busy 0,.result 0 7 .mission .timeout 0],.receive,[]) := by
    decide +kernel
  obtain ⟨s,hrun,hs⟩ := Option.map_eq_some_iff.mp hend
  simp only [Prod.mk.injEq] at hs
  obtain ⟨hevents,hdispatch,hworkers⟩ := hs
  have hdone : ∀ number,¬ s.InProgress number := by
    intro number
    simp [ComputeState.InProgress,ComputeState.holders,hdispatch,hworkers,DispatchPhase.refusing,
      DispatchPhase.holders]
  have hresults := (one_result_per_request hrun).1
  refine ⟨s,hrun,?_,?_⟩
  · exact (hresults 0 7 .mission false false false (by simp [hevents])).2.1 (hdone 0)
  · exact (hresults 1 8 .commands true true true (by simp [hevents])).2.1 (hdone 1)

end FlightSoftware.Compute
