import FlightSoftware.Compute.Traffic

/-!
# Replies that belong to the running job

`deliver_reply` compares epochs, but the epoch that it knows is the one at its own
entry. If the replies that it has in hand while an epoch is open answer the job of
that epoch, then so do those that its worker gets. `P` stands for the replies that
matter.
-/

namespace FlightSoftware.Compute
open Obc Run

/-- Whenever `deliver_reply` is about to look at the slot while an epoch is open, the reply in its
hand answers a request of the job that is running. -/
def ComputeState.TimelyFor (P : TaggedReply → Prop) (s : ComputeState) : ComputeAction → Prop
  | .dispatch _ => ∀ reply ∈ s.dispatch.inHand,P reply → s.mailbox.isOpen = true →
    ∀ k ∈ s.holders,reply.job = k.number
  | _ => True

instance {P : TaggedReply → Prop} [DecidablePred P] (s : ComputeState) :
    (action : ComputeAction) → Decidable (s.TimelyFor P action)
  | .dispatch _ => inferInstanceAs (Decidable (∀ reply ∈ s.dispatch.inHand,P reply →
      s.mailbox.isOpen = true → ∀ k ∈ s.holders,reply.job = k.number))
  | .compress _ _ => .isTrue trivial
  | .cancel _ => .isTrue trivial
  | .takeReply => .isTrue trivial
  | .worker _ _ => .isTrue trivial
  | .serve _ => .isTrue trivial
  | .send _ => .isTrue trivial

/-- The reply in the slot is for the running job, and so were those that workers have taken. -/
structure ComputeState.Addressed (P : TaggedReply → Prop) (s : ComputeState) : Prop where
  isOpen : s.mailbox.slot.isSome = true → s.mailbox.isOpen = true
  slot : ∀ {reply},s.mailbox.slot = some reply → P reply → ∀ k ∈ s.holders,reply.job = k.number
  took : ∀ {number reply},.took number reply ∈ s.events → P reply → reply.job = number

section

variable {P : TaggedReply → Prop} {s s' : ComputeState}

theorem ComputeState.addressed_initial : ComputeState.initial.Addressed P where
  isOpen h := by cases h
  slot h := by cases h
  took h := by cases h

/-- The holder of the job, if any, is one of those before. -/
def Inherits (s s' : ComputeState) : Prop :=
  ∀ k' ∈ s'.holders,∃ k ∈ s.holders,k'.number = k.number

theorem inherits_refl (s : ComputeState) : Inherits s s := fun k hk => ⟨k,hk,rfl⟩

/-- The workers are the same, and the dispatch thread holds no other job. -/
theorem inherits_of_workers (hworkers : s'.workers = s.workers)
    (hdispatch : ∀ k' ∈ s'.dispatch.holders,∃ k ∈ s.dispatch.holders,k'.number = k.number) :
    Inherits s s' := by
  intro k' hk'
  rcases List.mem_append.mp hk' with hk' | hk'
  · obtain ⟨k,hk,hnumber⟩ := hdispatch k' hk'
    exact ⟨k,List.mem_append_left _ hk,hnumber⟩
  · rw [hworkers] at hk'
    exact ⟨k',List.mem_append_right _ hk',rfl⟩

/-- A worker goes on with its job, or is gone. -/
theorem inherits_of_workersAfter {i : ℕ} {w : Worker} {phase : WorkerPhase} {effect : WorkerEffect}
    (hget : s.workers[i]? = some w) (hworkers : s'.workers = s.workersAfter i w phase effect)
    (hdispatch : s'.dispatch = s.dispatch) : Inherits s s' := by
  intro k' hk'
  rw [ComputeState.holders,hworkers,hdispatch] at hk'
  rcases List.mem_append.mp hk' with hk' | hk'
  · exact ⟨k',List.mem_append_left _ hk',rfl⟩
  · obtain ⟨v,hv,rfl⟩ := List.mem_map.mp hk'
    rcases mem_workersAfter hv with hv | ⟨hnumber,-⟩
    · exact ⟨_,List.mem_append_right _ (List.mem_map_of_mem hv),rfl⟩
    · exact ⟨_,s.holder_mem (List.mem_of_getElem? hget),hnumber⟩

/-- The dispatch thread hands its job to a worker. -/
theorem inherits_create {number : ℕ} {req : CompressRequest} {src : ObcRole}
    (hdispatch : s.dispatch = .create number req src) :
    Inherits s { s with
      workers := s.workers ++ [⟨number,.unset,.start⟩]
      dispatch := .receive } := by
  intro k' hk'
  rw [ComputeState.holders,hdispatch]
  obtain ⟨v,hv,rfl⟩ := List.mem_map.mp hk'
  rcases List.mem_append.mp hv with hv | hv
  · exact ⟨_,List.mem_append_right _ (List.mem_map_of_mem hv),rfl⟩
  · rw [List.mem_singleton.mp hv]
    exact ⟨_,List.mem_append_left _ (List.mem_singleton_self _),rfl⟩

/-- The dispatch thread ends the job that it could not create a worker for. -/
theorem inherits_failed {number : ℕ} {req : CompressRequest} {src : ObcRole} {stage : FinishStage}
    (hdispatch : s.dispatch = .failed number req src stage) (hworkers : s'.workers = s.workers)
    (hdispatch' : s'.dispatch = if stage = .release then .receive
      else .failed number req src (finishStep stage .failed 0).1) : Inherits s s' := by
  refine inherits_of_workers hworkers fun k' hk' => ?_
  rw [hdispatch]
  refine ⟨_,List.mem_singleton_self _,?_⟩
  rw [hdispatch'] at hk'
  split_ifs at hk'
  · cases hk'
  · rw [List.mem_singleton.mp hk']

/-- The reply in the slot, if any, has been there before. -/
theorem ComputeState.Addressed.keep (h : s.Addressed P)
    (hslot : s'.mailbox.slot = none ∨ s'.mailbox.slot = s.mailbox.slot ∧
      s'.mailbox.isOpen = s.mailbox.isOpen ∧ Inherits s s')
    (htook : ∀ number reply,.took number reply ∈ s'.events →
      .took number reply ∈ s.events ∨ (P reply → reply.job = number)) : s'.Addressed P := by
  constructor
  case isOpen =>
    intro hsome
    rcases hslot with hslot | ⟨hslot,hopen,-⟩
    · rw [hslot] at hsome
      cases hsome
    · rw [hopen]
      rw [hslot] at hsome
      exact h.isOpen hsome
  case slot =>
    intro reply hreply hP k' hk'
    rcases hslot with hslot | ⟨hslot,-,hinherits⟩
    · rw [hslot] at hreply
      cases hreply
    · obtain ⟨k,hk,hnumber⟩ := hinherits k' hk'
      rw [hslot] at hreply
      rw [hnumber]
      exact h.slot hreply hP k hk
  case took =>
    intro number reply hm hP
    rcases htook number reply hm with hold | hnew
    · exact h.took hold hP
    · exact hnew hP

/-- The dispatch thread puts the reply in the slot, drops it, or waits with it. -/
theorem ComputeState.Addressed.deliverStep (h : s.Addressed P) {reply : TaggedReply}
    {entryEpoch : Option (BitVec 32)} (hdispatch : s.dispatch = .deliver reply entryEpoch)
    (hmine : P reply → s.mailbox.isOpen = true → ∀ k ∈ s.holders,reply.job = k.number)
    (epoch : BitVec 32) (expired : Bool) : (s.deliverStep reply epoch expired).Addressed P := by
  have hholders : s.holders = s.workers.map Worker.holder := by
    rw [ComputeState.holders,hdispatch]
    rfl
  unfold ComputeState.deliverStep
  split
  case h_1 | h_2 =>
    refine h.keep (.inr ⟨rfl,rfl,?_⟩) fun _ _ hm => .inl hm
    exact inherits_of_workers rfl (List.forall_mem_nil _)
  case h_3 hstore =>
    have hopen := (deliverReply_store hstore).2
    refine ⟨fun _ => hopen,?_,h.took⟩
    intro r hr hP k hk
    obtain rfl := Option.some.inj hr
    exact hmine hP hopen k (hholders ▸ hk)

theorem ComputeState.Addressed.handle (h : s.Addressed P) (ho : s.Orderly) (req : CompressRequest)
    (src : ObcRole) : (s.handleCompressRequest req src).Addressed P := by
  unfold ComputeState.handleCompressRequest
  dsimp only
  split_ifs with hbusy
  · refine h.keep (.inr ⟨rfl,rfl,?_⟩) fun number reply hm => .inl (old_event hm (by simp))
    exact inherits_of_workers rfl (List.forall_mem_nil _)
  · -- no epoch is open, so the slot is empty
    have hempty : s.mailbox.slot = none := by
      by_contra hfull
      have hopen := h.isOpen (Option.isSome_iff_ne_none.mpr hfull)
      rw [(ho.idle (Bool.eq_false_iff.mpr hbusy)).1] at hopen
      cases hopen
    exact h.keep (.inl hempty) fun number reply hm => .inl (old_event hm (by simp))

/-- The effects of a worker's steps. Only the reply in the slot can be taken. -/
theorem ComputeState.Addressed.perform (h : s.Addressed P) {number : ℕ} (job : WorkerJob)
    (effect : WorkerEffect) {ws : List Worker} {d : DispatchPhase}
    (hown : ∀ reply,s.mailbox.slot = some reply → P reply → reply.job = number)
    (hinherits : ∀ t : ComputeState,t.workers = ws → t.dispatch = d → Inherits s t) :
    ComputeState.Addressed P { s.perform number job effect with workers := ws,dispatch := d } := by
  cases effect with
  | none | load | endWatch | release =>
    exact h.keep (.inr ⟨rfl,rfl,hinherits _ rfl rfl⟩) fun _ _ hm => .inl hm
  | request request delivered =>
    refine h.keep (.inr ⟨rfl,rfl,hinherits _ rfl rfl⟩) fun n reply hm => .inl ?_
    refine (List.mem_append.mp hm).resolve_right fun hm => ?_
    obtain ⟨offset,heq⟩ := mem_wroteEvent hm
    cases heq
  | take =>
    refine h.keep (.inl rfl) fun n reply hm => (List.mem_append.mp hm).imp id fun hm => ?_
    obtain ⟨r,hr,heq⟩ := List.mem_map.mp hm
    cases heq
    exact hown _ (Option.mem_toList.mp hr)
  | sendResult status outputSize =>
    exact h.keep (.inr ⟨rfl,rfl,hinherits _ rfl rfl⟩)
      fun n reply hm => .inl (old_event hm (by simp))
  | endEpoch =>
    refine h.keep ?_ fun _ _ hm => .inl hm
    rcases dispatchJobEnd_cases s.mailbox job.epoch with hsame | hempty
    · exact .inr ⟨congrArg Mailbox.slot hsame,congrArg Mailbox.isOpen hsame,hinherits _ rfl rfl⟩
    · exact .inl hempty

theorem ComputeState.Addressed.failed (h : s.Addressed P) {number : ℕ} {req : CompressRequest}
    {src : ObcRole} {stage : FinishStage} (hdispatch : s.dispatch = .failed number req src stage) :
    ComputeState.Addressed P { s.perform number
        { s.currentJob with jobId := req.jobId,requester := src } (finishStep stage .failed 0).2 with
      dispatch := if stage = .release then .receive
        else .failed number req src (finishStep stage .failed 0).1 } := by
  have hmem : ⟨number,.finish stage⟩ ∈ s.holders := by
    rw [ComputeState.holders,hdispatch]
    exact List.mem_cons_self
  have := h.perform { s.currentJob with jobId := req.jobId,requester := src }
    (finishStep stage .failed 0).2 (fun reply hslot hP => h.slot hslot hP _ hmem)
    fun t hworkers hdispatch' => inherits_failed hdispatch hworkers hdispatch'
  cases stage <;> exact this

theorem ComputeState.Addressed.dispatchStep (h : s.Addressed P) (ho : s.Orderly) {io : DispatchIo}
    (hmine : ∀ reply ∈ s.dispatch.inHand,P reply → s.mailbox.isOpen = true →
      ∀ k ∈ s.holders,reply.job = k.number) (hstep : s.dispatchStep io = some s') :
    s'.Addressed P := by
  cases dispatchStep_move hstep with
  | deliver hdispatch =>
    refine h.deliverStep hdispatch (hmine _ ?_) _ _
    rw [hdispatch]
    exact List.mem_singleton_self _
  | handle => exact h.handle ho _ _
  | refuse hdispatch =>
    exact h.keep (.inr ⟨rfl,rfl,inherits_of_workers rfl (List.forall_mem_nil _)⟩)
      fun number reply hm => .inl (old_event hm (by simp))
  | begin hdispatch => exact h.keep (.inl rfl) fun _ _ hm => .inl hm
  | watch hdispatch | createFails hdispatch =>
    refine h.keep (.inr ⟨rfl,rfl,inherits_of_workers rfl fun k' hk' => ?_⟩) fun _ _ hm => .inl hm
    rw [hdispatch]
    exact ⟨_,List.mem_singleton_self _,by rw [List.mem_singleton.mp hk']⟩
  | create hdispatch =>
    exact h.keep (.inr ⟨rfl,rfl,inherits_create hdispatch⟩) fun _ _ hm => .inl hm
  | failed hdispatch => exact h.failed hdispatch

theorem ComputeState.Addressed.workerStep (h : s.Addressed P) {i : ℕ} {io : WorkerIo}
    (hstep : s.workerStep i io = some s') : s'.Addressed P := by
  obtain ⟨w,phase,effect,hget,hnext,rfl⟩ := workerStep_eq_some hstep
  have hmem : w.holder ∈ s.holders := s.holder_mem (List.mem_of_getElem? hget)
  refine h.perform w.job effect (fun reply hslot hP => h.slot hslot hP _ hmem) ?_
  intro t hworkers hdispatch
  rw [s.perform_dispatch] at hdispatch
  exact inherits_of_workersAfter hget hworkers hdispatch

theorem ComputeState.Addressed.step {action : ComputeAction} (h : s.Addressed P) (ho : s.Orderly)
    (htimely : s.TimelyFor P action) (hstep : s.step action = some s') : s'.Addressed P := by
  cases action with
  | compress req src =>
    obtain ⟨-,hs'⟩ := Option.ite_none_right_eq_some.mp hstep
    cases hs'
    exact h.keep (.inr ⟨rfl,rfl,inherits_of_workers rfl (List.forall_mem_nil _)⟩)
      fun _ _ hm => .inl hm
  | cancel jobId =>
    obtain ⟨-,hs'⟩ := Option.ite_none_right_eq_some.mp hstep
    cases hs'
    exact h.keep (.inr ⟨rfl,rfl,inherits_refl s⟩)
      fun n reply hm => .inl (old_event hm (by simp))
  | takeReply =>
    obtain ⟨reply,socket,-,-,rfl⟩ := takeReply_eq_some hstep
    exact h.keep (.inr ⟨rfl,rfl,inherits_of_workers rfl (List.forall_mem_nil _)⟩)
      fun _ _ hm => .inl hm
  | dispatch io => exact h.dispatchStep ho htimely hstep
  | worker i io => exact h.workerStep hstep
  | serve io =>
    obtain ⟨q,rest,replies,opened,-,-,-,rfl⟩ := serve_eq_some hstep
    exact h.keep (.inr ⟨rfl,rfl,inherits_refl s⟩) fun _ _ hm => .inl hm
  | send delivered =>
    obtain ⟨reply,sending,-,rfl | rfl⟩ := send_eq_some hstep
    · refine h.keep (.inr ⟨rfl,rfl,inherits_refl s⟩) fun n r hm => .inl ?_
      refine (List.mem_append.mp hm).resolve_right fun hm => ?_
      obtain ⟨status,heq⟩ := mem_ackEvent hm
      cases heq
    · exact h.keep (.inr ⟨rfl,rfl,inherits_refl s⟩) fun _ _ hm => .inl hm

end

end FlightSoftware.Compute
