import FlightSoftware.Compute.Logbook

/-!
# The job and its holder

Between acceptance and release a job is in the hands of one thread: first of the
dispatch thread, then of its worker, or of the dispatch thread again when the
worker cannot be created. The epoch, the watch and the result follow from how far
the holder has come.
-/

namespace FlightSoftware.Compute
open Obc Run

/-! ### The holder of the job -/

/-- How far the thread that holds the accepted job has come. -/
inductive HolderStep where
  | begin | watch | create | work
  | finish (stage : FinishStage)
  deriving DecidableEq

/-- The job's epoch is open. -/
def HolderStep.epochOpen : HolderStep → Bool
  | .begin => false
  | .finish .endWatch => false
  | .finish .release => false
  | _ => true

/-- The worker is watched. -/
def HolderStep.watched : HolderStep → Bool
  | .begin => false
  | .watch => false
  | .finish .release => false
  | _ => true

/-- The result has been sent. -/
def HolderStep.sent : HolderStep → Bool
  | .finish .endEpoch => true
  | .finish .endWatch => true
  | .finish .release => true
  | _ => false

structure Holder where
  number : ℕ
  step : HolderStep
  deriving DecidableEq

def WorkerPhase.step : WorkerPhase → HolderStep
  | .finish stage _ _ => .finish stage
  | _ => .work

def Worker.holder (w : Worker) : Holder := ⟨w.number,w.phase.step⟩

def DispatchPhase.holders : DispatchPhase → List Holder
  | .begin number _ _ => [⟨number,.begin⟩]
  | .watch number _ _ => [⟨number,.watch⟩]
  | .create number _ _ => [⟨number,.create⟩]
  | .failed number _ _ stage => [⟨number,.finish stage⟩]
  | _ => []

/-- The threads that are between the acceptance of a job and its release. -/
def ComputeState.holders (s : ComputeState) : List Holder :=
  s.dispatch.holders ++ s.workers.map Worker.holder

def DispatchPhase.refusing : DispatchPhase → List ℕ
  | .busy number _ _ => [number]
  | _ => []

def Holder.pending (h : Holder) : List ℕ := if h.step.sent then [] else [h.number]

/-- The requests whose result has not been sent. -/
def ComputeState.pending (s : ComputeState) : List ℕ :=
  s.dispatch.refusing ++ s.holders.flatMap Holder.pending

/-- The request was accepted, and is the one in `current_job`. -/
structure ComputeState.Started (s : ComputeState) (number : ℕ) (req : CompressRequest)
    (src : ObcRole) : Prop where
  handled : HandledAs s.events number req.jobId src false
  running : s.jobIdRunning = req.jobId
  jobId : s.currentJob.jobId = req.jobId
  requester : s.currentJob.requester = src
  epoch : s.currentJob.epoch = s.mailbox.epoch

/-- The dispatch thread knows the request that it is handling. -/
def DispatchPhase.Sound (s : ComputeState) : DispatchPhase → Prop
  | .busy number req src => HandledAs s.events number req.jobId src true
  | .begin number req src =>
    HandledAs s.events number req.jobId src false ∧ s.jobIdRunning = req.jobId
  | .watch number req src => s.Started number req src
  | .create number req src => s.Started number req src
  | .failed number req src _ => s.Started number req src
  | _ => True

/-- A worker works on the job in `current_job`, and is cancelled on request only. -/
structure Worker.Sound (s : ComputeState) (w : Worker) : Prop where
  handled : HandledAs s.events w.number s.jobIdRunning s.currentJob.requester false
  jobId : s.currentJob.jobId = s.jobIdRunning
  epoch : s.currentJob.epoch = s.mailbox.epoch
  loaded : w.phase ≠ .start → w.job = s.currentJob
  status : ∀ stage status outputSize,w.phase = .finish stage status outputSize →
    status ≠ .busy ∧ (status = .cancelled → CancelledIn s.events w.number s.jobIdRunning)

structure ComputeState.Orderly (s : ComputeState) : Prop where
  logbook : Logbook s.events s.handled s.pending
  one : s.holders.length = if s.jobBusy then 1 else 0
  idle : s.jobBusy = false → s.mailbox.isOpen = false ∧ s.watched = false
  held : ∀ h ∈ s.holders,s.mailbox.isOpen = h.step.epochOpen ∧ s.watched = h.step.watched
  dispatch : s.dispatch.Sound s
  workers : ∀ w ∈ s.workers,w.Sound s
  cancel : s.jobCancelRequested = true → ∀ h ∈ s.holders,
    CancelledIn s.events h.number s.jobIdRunning

theorem ComputeState.orderly_initial : ComputeState.initial.Orderly where
  logbook := .initial
  one := rfl
  idle _ := ⟨rfl,rfl⟩
  held h hh := by cases hh
  dispatch := trivial
  workers w hw := by cases hw
  cancel h := by cases h

/-! ### What the job's state rests on -/

/-- The record has grown at most, and the running job is the same. -/
structure SameJob (s s' : ComputeState) : Prop where
  events : ∃ more,s'.events = s.events ++ more
  jobIdRunning : s'.jobIdRunning = s.jobIdRunning
  currentJob : s'.currentJob = s.currentJob
  epoch : s'.mailbox.epoch = s.mailbox.epoch

section

variable {s s' : ComputeState}

theorem SameJob.handledAs (hs : SameJob s s') {number : ℕ} {jobId : BitVec 32} {src : ObcRole}
    {busy : Bool} (h : HandledAs s.events number jobId src busy) :
    HandledAs s'.events number jobId src busy := by
  obtain ⟨more,hevents⟩ := hs.events
  rw [hevents]
  exact h.append more

theorem SameJob.cancelledIn (hs : SameJob s s') {number : ℕ} {jobId : BitVec 32}
    (h : CancelledIn s.events number jobId) : CancelledIn s'.events number jobId := by
  obtain ⟨more,hevents⟩ := hs.events
  rw [hevents]
  exact h.append more

theorem SameJob.started (hs : SameJob s s') {number : ℕ} {req : CompressRequest} {src : ObcRole}
    (h : s.Started number req src) : s'.Started number req src := by
  refine ⟨hs.handledAs h.handled,?_,?_,?_,?_⟩
  · rw [hs.jobIdRunning,h.running]
  · rw [hs.currentJob,h.jobId]
  · rw [hs.currentJob,h.requester]
  · rw [hs.currentJob,hs.epoch,h.epoch]

theorem DispatchPhase.Sound.later {phase : DispatchPhase} (h : phase.Sound s) (hs : SameJob s s') :
    phase.Sound s' := by
  cases phase with
  | receive => trivial
  | deliver reply entryEpoch => trivial
  | compress req src => trivial
  | busy number req src => exact hs.handledAs h
  | begin number req src => exact ⟨hs.handledAs h.1,by rw [hs.jobIdRunning,h.2]⟩
  | watch number req src => exact hs.started h
  | create number req src => exact hs.started h
  | failed number req src stage => exact hs.started h

theorem Worker.Sound.later {w : Worker} (h : w.Sound s) (hs : SameJob s s') : w.Sound s' := by
  refine ⟨?_,?_,?_,?_,?_⟩
  · rw [hs.jobIdRunning,hs.currentJob]
    exact hs.handledAs h.handled
  · rw [hs.jobIdRunning,hs.currentJob,h.jobId]
  · rw [hs.currentJob,hs.epoch,h.epoch]
  · rw [hs.currentJob]
    exact h.loaded
  · intro stage status outputSize hphase
    rw [hs.jobIdRunning]
    exact ⟨(h.status _ _ _ hphase).1,fun hc => hs.cancelledIn ((h.status _ _ _ hphase).2 hc)⟩

/-- The state is orderly when one thread holds the job, and the flags are as that thread has
set them. -/
theorem ComputeState.orderly_of_holder {k : Holder} (hholders : s.holders = [k])
    (hlog : Logbook s.events s.handled s.pending) (hbusy : s.jobBusy = true)
    (hopen : s.mailbox.isOpen = k.step.epochOpen) (hwatched : s.watched = k.step.watched)
    (hdispatch : s.dispatch.Sound s) (hworkers : ∀ w ∈ s.workers,w.Sound s)
    (hcancel : s.jobCancelRequested = true → CancelledIn s.events k.number s.jobIdRunning) :
    s.Orderly := by
  constructor
  case logbook => exact hlog
  case one => rw [hholders,hbusy,List.length_singleton,if_pos rfl]
  case idle =>
    intro hidle
    rw [hbusy] at hidle
    cases hidle
  case held =>
    intro k' hk'
    rw [hholders] at hk'
    rw [List.mem_singleton.mp hk']
    exact ⟨hopen,hwatched⟩
  case dispatch => exact hdispatch
  case workers => exact hworkers
  case cancel =>
    intro hrequested k' hk'
    rw [hholders] at hk'
    rw [List.mem_singleton.mp hk']
    exact hcancel hrequested

/-- The job may pass from one thread to another and the worker may go on, as long as the epoch
and the watch are what they were. -/
theorem ComputeState.Orderly.same (h : s.Orderly) (hs : SameJob s s')
    (hflags : s'.jobBusy = s.jobBusy ∧ s'.mailbox.isOpen = s.mailbox.isOpen ∧
      s'.watched = s.watched)
    (hlog : Logbook s'.events s'.handled s'.pending)
    (hlength : s'.holders.length = s.holders.length)
    (hholders : ∀ k ∈ s'.holders,∃ k₀ ∈ s.holders,k.number = k₀.number ∧
      k.step.epochOpen = k₀.step.epochOpen ∧ k.step.watched = k₀.step.watched)
    (hdispatch : s'.dispatch.Sound s') (hworkers : ∀ w ∈ s'.workers,w.Sound s')
    (hcancel : s'.jobCancelRequested = true → ∀ k ∈ s.holders,
      CancelledIn s'.events k.number s.jobIdRunning) : s'.Orderly := by
  obtain ⟨hbusy,hopen,hwatch⟩ := hflags
  constructor
  case logbook => exact hlog
  case one => rw [hlength,hbusy,h.one]
  case idle =>
    rw [hbusy,hopen,hwatch]
    exact h.idle
  case held =>
    intro k hk
    obtain ⟨k₀,hk₀,-,hepoch,hwatched⟩ := hholders k hk
    rw [hopen,hwatch,hepoch,hwatched]
    exact h.held k₀ hk₀
  case dispatch => exact hdispatch
  case workers => exact hworkers
  case cancel =>
    intro hrequested k hk
    obtain ⟨k₀,hk₀,hnumber,-⟩ := hholders k hk
    rw [hnumber,hs.jobIdRunning]
    exact hcancel hrequested k₀ hk₀

/-- A cancel request stays in force. -/
theorem ComputeState.Orderly.still_cancelled (h : s.Orderly) (hs : SameJob s s')
    (hcancel : s'.jobCancelRequested = s.jobCancelRequested) :
    s'.jobCancelRequested = true → ∀ k ∈ s.holders,
      CancelledIn s'.events k.number s.jobIdRunning := by
  intro hrequested k hk
  rw [hcancel] at hrequested
  exact hs.cancelledIn (h.cancel hrequested k hk)

/-- A dispatch phase that has to do with no request. -/
def DispatchPhase.Idle (phase : DispatchPhase) : Prop :=
  phase.holders = [] ∧ phase.refusing = [] ∧ ∀ s,phase.Sound s

theorem idle_receive : DispatchPhase.receive.Idle := ⟨rfl,rfl,fun _ => trivial⟩

theorem idle_deliver (reply : TaggedReply) (entryEpoch : Option (BitVec 32)) :
    (DispatchPhase.deliver reply entryEpoch).Idle := ⟨rfl,rfl,fun _ => trivial⟩

theorem idle_compress (req : CompressRequest) (src : ObcRole) :
    (DispatchPhase.compress req src).Idle := ⟨rfl,rfl,fun _ => trivial⟩

/-- The dispatch thread goes from one idle phase to another, or stays where it is, and nothing
that concerns the job happens. -/
theorem ComputeState.Orderly.aside (h : s.Orderly) (hs : SameJob s s')
    (hneutral : ∃ more,(∀ e ∈ more,e.Neutral) ∧ s'.events = s.events ++ more)
    (hflags : s'.jobBusy = s.jobBusy ∧ s'.mailbox.isOpen = s.mailbox.isOpen ∧
      s'.watched = s.watched) (hhandled : s'.handled = s.handled)
    (hworkers : s'.workers = s.workers)
    (hdispatch : s'.dispatch = s.dispatch ∨ s.dispatch.Idle ∧ s'.dispatch.Idle)
    (hcancel : s'.jobCancelRequested = true → ∀ k ∈ s.holders,
      CancelledIn s'.events k.number s.jobIdRunning) : s'.Orderly := by
  have hparts : s'.dispatch.holders = s.dispatch.holders ∧
      s'.dispatch.refusing = s.dispatch.refusing ∧ s'.dispatch.Sound s' := by
    rcases hdispatch with hsame | ⟨hidle,hidle'⟩
    · rw [hsame]
      exact ⟨rfl,rfl,h.dispatch.later hs⟩
    · rw [hidle.1,hidle'.1,hidle.2.1,hidle'.2.1]
      exact ⟨rfl,rfl,hidle'.2.2 s'⟩
  obtain ⟨hheld,hrefusing,hsound⟩ := hparts
  have hholders : s'.holders = s.holders := by
    rw [ComputeState.holders,ComputeState.holders,hheld,hworkers]
  refine h.same hs hflags ?_ (by rw [hholders]) ?_ hsound ?_ hcancel
  · obtain ⟨more,hmore,hevents⟩ := hneutral
    rw [ComputeState.pending,hholders,hrefusing,hevents,hhandled]
    exact h.logbook.neutral hmore
  · rw [hholders]
    exact fun k hk => ⟨k,hk,rfl,rfl,rfl⟩
  · rw [hworkers]
    exact fun w hw => (h.workers w hw).later hs

/-! ### Steps that leave the job alone -/

/-- No event was recorded. -/
theorem no_events (events : List Event) :
    ∃ more,(∀ e ∈ more,Event.Neutral e) ∧ events = events ++ more :=
  ⟨[],by simp,(List.append_nil _).symm⟩

theorem ComputeState.Orderly.deliverStep (h : s.Orderly) {reply : TaggedReply}
    {entryEpoch : Option (BitVec 32)} (hdispatch : s.dispatch = .deliver reply entryEpoch)
    (epoch : BitVec 32) (expired : Bool) : (s.deliverStep reply epoch expired).Orderly := by
  have hidle : s.dispatch.Idle := by
    rw [hdispatch]
    exact idle_deliver reply entryEpoch
  have hnone : ∃ more,s.events = s.events ++ more := ⟨[],(List.append_nil _).symm⟩
  unfold ComputeState.deliverStep
  split
  · exact h.aside ⟨hnone,rfl,rfl,rfl⟩ (no_events _) ⟨rfl,rfl,rfl⟩ rfl rfl
      (.inr ⟨hidle,idle_deliver _ _⟩) h.cancel
  · exact h.aside ⟨hnone,rfl,rfl,rfl⟩ (no_events _) ⟨rfl,rfl,rfl⟩ rfl rfl
      (.inr ⟨hidle,idle_receive⟩) h.cancel
  · exact h.aside ⟨hnone,rfl,rfl,rfl⟩ (no_events _) ⟨rfl,rfl,rfl⟩ rfl rfl
      (.inr ⟨hidle,idle_receive⟩) h.cancel

/-- The job that is held was accepted under the number in `job_id_running`. -/
theorem ComputeState.Orderly.holder_handled (h : s.Orderly) {k : Holder} (hk : k ∈ s.holders) :
    ∃ src,HandledAs s.events k.number s.jobIdRunning src false := by
  rcases List.mem_append.mp hk with hk | hk
  · have hsound := h.dispatch
    cases hdispatch : s.dispatch with
    | begin number req src =>
      rw [hdispatch] at hk hsound
      obtain rfl := List.mem_singleton.mp hk
      exact ⟨src,hsound.2 ▸ hsound.1⟩
    | watch number req src | create number req src | failed number req src stage =>
      rw [hdispatch] at hk hsound
      obtain rfl := List.mem_singleton.mp hk
      exact ⟨src,hsound.running ▸ hsound.handled⟩
    | receive | deliver | compress | busy =>
      rw [hdispatch] at hk
      cases hk
  · obtain ⟨w,hw,rfl⟩ := List.mem_map.mp hk
    exact ⟨_,(h.workers w hw).handled⟩

/-- A cancel request counts for the job that is running. -/
theorem ComputeState.Orderly.cancel_step (h : s.Orderly) (jobId : BitVec 32) :
    ComputeState.Orderly { s with
      jobCancelRequested := s.jobCancelRequested || (s.jobBusy && decide (s.jobIdRunning = jobId))
      events := s.events ++ [.cancel jobId] } := by
  have hneutral : ∀ e ∈ [Event.cancel jobId],e.Neutral := by
    intro e he
    rw [List.mem_singleton.mp he]
    trivial
  refine h.aside ⟨⟨_,rfl⟩,rfl,rfl,rfl⟩ ⟨_,hneutral,rfl⟩ ⟨rfl,rfl,rfl⟩ rfl rfl (.inl rfl) ?_
  intro hrequested k hk
  rcases (Bool.or_eq_true _ _).mp hrequested with hbefore | hnow
  · exact (h.cancel hbefore k hk).append _
  · obtain ⟨-,hid⟩ := (Bool.and_eq_true _ _).mp hnow
    obtain ⟨src,epochOpen,watched,hmem⟩ := h.holder_handled hk
    obtain ⟨before,since,hsplit⟩ := List.append_of_mem hmem
    refine ⟨before,since ++ [.cancel jobId],src,epochOpen,watched,?_,?_⟩
    · change s.events ++ _ = _
      rw [hsplit,List.append_assoc,List.cons_append]
    · rw [of_decide_eq_true hid]
      exact List.mem_append_right _ (List.mem_singleton_self _)

theorem ComputeState.Orderly.serve (h : s.Orderly) {io : ServeIo} (hstep : s.serve io = some s') :
    s'.Orderly := by
  have hnone : ∃ more,s.events = s.events ++ more := ⟨[],(List.append_nil _).symm⟩
  unfold ComputeState.serve at hstep
  split at hstep
  · obtain rfl := Option.some.inj hstep
    exact h.aside ⟨hnone,rfl,rfl,rfl⟩ (no_events _) ⟨rfl,rfl,rfl⟩ rfl rfl (.inl rfl) h.cancel
  · obtain rfl := Option.some.inj hstep
    exact h.aside ⟨hnone,rfl,rfl,rfl⟩ (no_events _) ⟨rfl,rfl,rfl⟩ rfl rfl (.inl rfl) h.cancel
  · cases hstep

/-- Data sends an acknowledgement, a chunk of a file, or nothing more. -/
theorem ComputeState.Orderly.send (h : s.Orderly) {delivered : Bool}
    (hstep : s.step (.send delivered) = some s') : s'.Orderly := by
  obtain ⟨reply,sending,-,rfl | rfl⟩ := send_eq_some hstep
  · have hneutral : ∀ e ∈ reply.ackEvent,e.Neutral := by
      intro e he
      obtain ⟨status,rfl⟩ := mem_ackEvent he
      trivial
    exact h.aside ⟨⟨_,rfl⟩,rfl,rfl,rfl⟩ ⟨_,hneutral,rfl⟩ ⟨rfl,rfl,rfl⟩ rfl rfl (.inl rfl)
      fun hrequested k hk => (h.cancel hrequested k hk).append _
  · exact h.aside ⟨⟨[],(List.append_nil _).symm⟩,rfl,rfl,rfl⟩ (no_events _) ⟨rfl,rfl,rfl⟩ rfl rfl
      (.inl rfl) h.cancel

/-! ### Acceptance and refusal -/

/-- The next compress request is refused or accepted. -/
theorem ComputeState.Orderly.handleCompressRequest (h : s.Orderly) {req : CompressRequest}
    {src : ObcRole} (hdispatch : s.dispatch = .compress req src) :
    (s.handleCompressRequest req src).Orderly := by
  have hholders : s.holders = s.workers.map Worker.holder := by
    rw [ComputeState.holders,hdispatch]
    rfl
  have hpending : s.pending = (s.workers.map Worker.holder).flatMap Holder.pending := by
    rw [ComputeState.pending,hdispatch,hholders]
    rfl
  have hmine : HandledAs (s.events ++ [.handled s.handled req.jobId src s.jobBusy s.mailbox.isOpen
      s.watched]) s.handled req.jobId src s.jobBusy :=
    ⟨_,_,List.mem_append_right _ (List.mem_singleton_self _)⟩
  have hlog := h.logbook.handle req.jobId src h.idle
  rw [hpending] at hlog
  unfold ComputeState.handleCompressRequest
  dsimp only
  split
  case isTrue hbusy =>
    rw [hbusy] at hmine
    refine h.same ⟨⟨_,rfl⟩,rfl,rfl,rfl⟩ ⟨rfl,rfl,rfl⟩ hlog ?_ ?_ ?_ ?_ ?_
    · rw [hholders]
      rfl
    · intro k hk
      rw [hholders]
      exact ⟨k,hk,rfl,rfl,rfl⟩
    · change HandledAs (s.events ++ _) s.handled req.jobId src true
      rw [hbusy]
      exact hmine
    · exact fun w hw => (h.workers w hw).later ⟨⟨_,rfl⟩,rfl,rfl,rfl⟩
    · exact h.still_cancelled ⟨⟨_,rfl⟩,rfl,rfl,rfl⟩ rfl
  case isFalse hbusy =>
    -- nobody holds a job, so this thread is the only one
    have hidle : s.jobBusy = false := Bool.eq_false_iff.mpr hbusy
    have hworkers : s.workers = [] := by
      have := h.one
      rw [hholders,List.length_map,hidle] at this
      exact List.length_eq_zero_iff.mp this
    obtain ⟨hclosed,hunwatched⟩ := h.idle hidle
    refine ComputeState.orderly_of_holder (k := ⟨s.handled,.begin⟩) ?_ ?_ rfl hclosed hunwatched
      ?_ ?_ (fun hrequested => by cases hrequested)
    · change (⟨s.handled,.begin⟩ : Holder) :: s.workers.map Worker.holder = _
      rw [hworkers]
      rfl
    · change Logbook (s.events ++ _) (s.handled+1)
        (s.handled :: (s.workers.map Worker.holder).flatMap Holder.pending)
      exact hlog
    · rw [hidle] at hmine ⊢
      exact ⟨hmine,rfl⟩
    · intro w hw
      have : w ∈ s.workers := hw
      rw [hworkers] at this
      cases this

/-- The requester of a refused request is told so. -/
theorem ComputeState.Orderly.refuse (h : s.Orderly) {number : ℕ} {req : CompressRequest}
    {src : ObcRole} (hdispatch : s.dispatch = .busy number req src) :
    ComputeState.Orderly { s with
      events := s.events ++ [.result number req.jobId src .busy 0]
      dispatch := .receive } := by
  have hhandled : HandledAs s.events number req.jobId src true := by
    have := h.dispatch
    rwa [hdispatch] at this
  have hholders : s.holders = s.workers.map Worker.holder := by
    rw [ComputeState.holders,hdispatch]
    rfl
  have hlog := h.logbook
  rw [ComputeState.pending,hholders,hdispatch] at hlog
  have hnodup := List.nodup_cons.mp hlog.nodup
  refine h.same ⟨⟨_,rfl⟩,rfl,rfl,rfl⟩ ⟨rfl,rfl,rfl⟩ ?_ (by rw [hholders]; rfl) ?_ trivial ?_
    (h.still_cancelled ⟨⟨_,rfl⟩,rfl,rfl,rfl⟩ rfl)
  · refine hlog.result hhandled (by simp) (fun hc => by cases hc) List.mem_cons_self hnodup.2 ?_
    intro n
    constructor
    · intro hn
      refine ⟨List.mem_cons_of_mem _ hn,?_⟩
      rintro rfl
      exact hnodup.1 hn
    · rintro ⟨hn,hne⟩
      exact (List.mem_cons.mp hn).resolve_left hne
  · intro k hk
    rw [hholders]
    exact ⟨k,hk,rfl,rfl,rfl⟩
  · exact fun w hw => (h.workers w hw).later ⟨⟨_,rfl⟩,rfl,rfl,rfl⟩

/-! ### The holder alone -/

/-- While the dispatch thread holds the job there is no worker. -/
theorem ComputeState.Orderly.dispatch_only (h : s.Orderly) {k : Holder}
    (hdispatch : s.dispatch.holders = [k]) : s.workers = [] ∧ s.holders = [k] := by
  have hone := h.one
  rw [ComputeState.holders,hdispatch,List.length_append,List.length_singleton,
    List.length_map] at hone
  have hbusy : s.jobBusy = true := by
    by_contra hidle
    rw [if_neg hidle] at hone
    omega
  rw [if_pos hbusy] at hone
  have hworkers : s.workers = [] := List.length_eq_zero_iff.mp (by omega)
  refine ⟨hworkers,?_⟩
  rw [ComputeState.holders,hdispatch,hworkers]
  rfl

/-- A worker is the only one, and the dispatch thread holds no job besides. -/
theorem ComputeState.Orderly.worker_only (h : s.Orderly) {i : ℕ} {w : Worker}
    (hw : s.workers[i]? = some w) :
    i = 0 ∧ s.workers = [w] ∧ s.dispatch.holders = [] ∧ s.jobBusy = true := by
  have hone := h.one
  rw [ComputeState.holders,List.length_append,List.length_map] at hone
  obtain ⟨hi,-⟩ := List.getElem?_eq_some_iff.mp hw
  have hbusy : s.jobBusy = true := by
    by_contra hidle
    rw [if_neg hidle] at hone
    omega
  rw [if_pos hbusy] at hone
  obtain ⟨w',hw'⟩ := List.length_eq_one_iff.mp (show s.workers.length = 1 by omega)
  obtain rfl : i = 0 := by omega
  rw [hw'] at hw
  obtain rfl := Option.some.inj hw
  exact ⟨rfl,hw',List.length_eq_zero_iff.mp (by omega),hbusy⟩

theorem ComputeState.holder_mem {w : Worker} (hw : w ∈ s.workers) : w.holder ∈ s.holders :=
  List.mem_append_right _ (List.mem_map_of_mem hw)

theorem ComputeState.Orderly.worker_unique (h : s.Orderly) {w w' : Worker} (hw : w ∈ s.workers)
    (hw' : w' ∈ s.workers) : w = w' := by
  obtain ⟨i,hget⟩ := List.mem_iff_getElem?.mp hw
  obtain ⟨-,honly,-⟩ := h.worker_only hget
  rw [honly] at hw'
  exact (List.mem_singleton.mp hw').symm

/-- The holder goes on, or passes the job to another thread, with the result as it was. -/
theorem ComputeState.Orderly.turn (h : s.Orderly) {k : Holder} (k' : Holder) (hk : s.holders = [k])
    (hk' : s'.holders = [k']) (hnumber : k'.number = k.number) (hsent : k'.step.sent = k.step.sent)
    (hrefusing : s'.dispatch.refusing = s.dispatch.refusing)
    (hneutral : ∃ more,(∀ e ∈ more,e.Neutral) ∧ s'.events = s.events ++ more)
    (hsame : s'.handled = s.handled ∧ s'.jobBusy = s.jobBusy ∧ s'.jobIdRunning = s.jobIdRunning ∧
      s'.jobCancelRequested = s.jobCancelRequested)
    (hopen : s'.mailbox.isOpen = k'.step.epochOpen) (hwatched : s'.watched = k'.step.watched)
    (hdispatch : s'.dispatch.Sound s') (hworkers : ∀ w ∈ s'.workers,w.Sound s') :
    s'.Orderly := by
  obtain ⟨more,hmore,hevents⟩ := hneutral
  obtain ⟨hhandled,hbusy,hrunning,hcancel⟩ := hsame
  have hpending : s'.pending = s.pending := by
    have hholder : k'.pending = k.pending := by rw [Holder.pending,Holder.pending,hsent,hnumber]
    rw [ComputeState.pending,ComputeState.pending,hk,hk',hrefusing,List.flatMap_singleton,
      List.flatMap_singleton,hholder]
  refine ComputeState.orderly_of_holder hk' ?_ ?_ hopen hwatched hdispatch hworkers ?_
  · rw [hevents,hhandled,hpending]
    exact h.logbook.neutral hmore
  · have hone := h.one
    rw [hk,List.length_singleton] at hone
    rw [hbusy]
    by_contra hidle
    rw [if_neg hidle] at hone
    cases hone
  · intro hrequested
    rw [hcancel] at hrequested
    rw [hevents,hnumber,hrunning]
    exact (h.cancel hrequested k (by simp [hk])).append more

/-- The dispatch thread opens the job's epoch. -/
theorem ComputeState.Orderly.begin (h : s.Orderly) {number : ℕ} {req : CompressRequest}
    {src : ObcRole} (hdispatch : s.dispatch = .begin number req src) :
    ComputeState.Orderly { s with
      mailbox := s.mailbox.dispatchJobBegin
      currentJob := ⟨req.jobId,src,s.mailbox.dispatchJobBegin.epoch,req.inPath,req.outPath⟩
      dispatch := .watch number req src } := by
  have hheld : s.dispatch.holders = [⟨number,.begin⟩] := by rw [hdispatch,DispatchPhase.holders]
  obtain ⟨hworkers,hholders⟩ := h.dispatch_only hheld
  have hsound := h.dispatch
  rw [hdispatch] at hsound
  have hwatched : s.watched = false := (h.held ⟨number,.begin⟩ (by simp [hholders])).2
  refine h.turn ⟨number,.watch⟩ hholders ?_ rfl rfl (by rw [hdispatch]; rfl) (no_events _)
    ⟨rfl,rfl,rfl,rfl⟩ rfl hwatched ⟨hsound.1,hsound.2,rfl,rfl,rfl⟩ ?_
  · rw [ComputeState.holders,hworkers]
    rfl
  · rw [hworkers]
    exact List.forall_mem_nil _

/-- The dispatch thread goes on with a job that has been started. -/
theorem ComputeState.Orderly.dispatch_turn (h : s.Orderly) {number : ℕ} {req : CompressRequest}
    {src : ObcRole} {step : HolderStep} (step' : HolderStep)
    (hheld : s.dispatch.holders = [⟨number,step⟩])
    (hheld' : s'.dispatch.holders = [⟨number,step'⟩]) (hsent : step'.sent = step.sent)
    (hrefusing : s'.dispatch.refusing = s.dispatch.refusing) (hevents : s'.events = s.events)
    (hsame : s'.handled = s.handled ∧ s'.jobBusy = s.jobBusy ∧ s'.jobIdRunning = s.jobIdRunning ∧
      s'.jobCancelRequested = s.jobCancelRequested) (hworkers : s'.workers = s.workers)
    (hstarted : s.Started number req src) (hjob : s'.currentJob = s.currentJob)
    (hepoch : s'.mailbox.epoch = s.mailbox.epoch)
    (hopen : s'.mailbox.isOpen = step'.epochOpen) (hwatched : s'.watched = step'.watched)
    (hsound : s'.Started number req src → s'.dispatch.Sound s') : s'.Orderly := by
  obtain ⟨hnone,hholders⟩ := h.dispatch_only hheld
  have hs : SameJob s s' := ⟨⟨[],by rw [hevents,List.append_nil]⟩,hsame.2.2.1,hjob,hepoch⟩
  refine h.turn ⟨number,step'⟩ hholders ?_ rfl hsent hrefusing ?_ hsame hopen hwatched
    (hsound (hs.started hstarted)) ?_
  · rw [ComputeState.holders,hheld',hworkers,hnone]
    rfl
  · rw [hevents]
    exact no_events _
  · rw [hworkers,hnone]
    exact List.forall_mem_nil _

/-- The watch begins. -/
theorem ComputeState.Orderly.watch (h : s.Orderly) {number : ℕ} {req : CompressRequest}
    {src : ObcRole} (hdispatch : s.dispatch = .watch number req src) :
    ComputeState.Orderly { s with watched := true,dispatch := .create number req src } := by
  have hheld : s.dispatch.holders = [⟨number,.watch⟩] := by rw [hdispatch,DispatchPhase.holders]
  have hsound := h.dispatch
  rw [hdispatch] at hsound
  have hopen := (h.held ⟨number,.watch⟩ (by simp [(h.dispatch_only hheld).2])).1
  exact h.dispatch_turn .create hheld rfl rfl (by rw [hdispatch]; rfl) rfl
    ⟨rfl,rfl,rfl,rfl⟩ rfl hsound rfl rfl hopen rfl id

/-- The worker cannot be created. -/
theorem ComputeState.Orderly.create_failed (h : s.Orderly) {number : ℕ} {req : CompressRequest}
    {src : ObcRole} (hdispatch : s.dispatch = .create number req src) :
    ComputeState.Orderly { s with dispatch := .failed number req src .send } := by
  have hheld : s.dispatch.holders = [⟨number,.create⟩] := by rw [hdispatch,DispatchPhase.holders]
  have hsound := h.dispatch
  rw [hdispatch] at hsound
  obtain ⟨hopen,hwatched⟩ := h.held ⟨number,.create⟩ (by simp [(h.dispatch_only hheld).2])
  exact h.dispatch_turn (.finish .send) hheld rfl rfl (by rw [hdispatch]; rfl) rfl
    ⟨rfl,rfl,rfl,rfl⟩ rfl hsound rfl rfl hopen hwatched id

/-- The job passes to its worker. -/
theorem ComputeState.Orderly.create (h : s.Orderly) {number : ℕ} {req : CompressRequest}
    {src : ObcRole} (hdispatch : s.dispatch = .create number req src) :
    ComputeState.Orderly { s with
      workers := s.workers ++ [⟨number,.unset,.start⟩]
      dispatch := .receive } := by
  have hheld : s.dispatch.holders = [⟨number,.create⟩] := by rw [hdispatch,DispatchPhase.holders]
  obtain ⟨hworkers,hholders⟩ := h.dispatch_only hheld
  have hsound : s.Started number req src := by
    have := h.dispatch
    rwa [hdispatch] at this
  obtain ⟨hopen,hwatched⟩ := h.held ⟨number,.create⟩ (by simp [hholders])
  refine h.turn ⟨number,.work⟩ hholders ?_ rfl rfl (by rw [hdispatch]; rfl) (no_events _)
    ⟨rfl,rfl,rfl,rfl⟩ hopen hwatched trivial ?_
  · rw [ComputeState.holders,hworkers]
    rfl
  · rw [hworkers]
    intro w hw
    obtain rfl := List.mem_singleton.mp hw
    refine ⟨?_,?_,hsound.epoch,fun hstart => absurd rfl hstart,?_⟩
    · change HandledAs s.events number s.jobIdRunning s.currentJob.requester false
      rw [hsound.running,hsound.requester]
      exact hsound.handled
    · change s.currentJob.jobId = s.jobIdRunning
      rw [hsound.jobId,hsound.running]
    · intro stage status outputSize hphase
      cases hphase

/-! ### The statements of `send_result` -/

section

variable {number : ℕ} {job : WorkerJob} {ws : List Worker} {d : DispatchPhase}

/-- The holder sends the job's result. -/
theorem ComputeState.Orderly.sendResult (h : s.Orderly) {status : ComputeStatus} {outputSize : ℕ}
    (hk : s.holders = [⟨number,.finish .send⟩])
    (hk' : d.holders ++ ws.map Worker.holder = [⟨number,.finish .endEpoch⟩])
    (hrefusing : d.refusing = s.dispatch.refusing)
    (hhandled : HandledAs s.events number job.jobId job.requester false) (hbusy : status ≠ .busy)
    (hcancelled : status = .cancelled → CancelledIn s.events number job.jobId)
    (hdispatch : d.Sound s) (hworkers : ∀ w ∈ ws,w.Sound s) :
    ComputeState.Orderly { s with
      events := s.events ++ [.result number job.jobId job.requester status outputSize]
      workers := ws
      dispatch := d } := by
  have hs : ∃ more,s.events ++ [Event.result number job.jobId job.requester status outputSize] =
    s.events ++ more := ⟨_,rfl⟩
  obtain ⟨hopen,hwatched⟩ := h.held ⟨number,.finish .send⟩ (by simp [hk])
  have hlog := h.logbook
  rw [ComputeState.pending,hk,List.flatMap_singleton] at hlog
  have hnodup := List.nodup_append.mp hlog.nodup
  refine ComputeState.orderly_of_holder hk' ?_ ?_ hopen hwatched
    (hdispatch.later ⟨hs,rfl,rfl,rfl⟩)
    (fun w hw => (hworkers w hw).later ⟨hs,rfl,rfl,rfl⟩)
    (fun hrequested => (h.cancel hrequested ⟨number,.finish .send⟩ (by simp [hk])).append _)
  · refine hlog.result hhandled (by simp [hbusy]) hcancelled ?_ ?_ ?_
    · exact List.mem_append_right _ (List.mem_singleton_self _)
    · rw [ComputeState.pending,ComputeState.holders,hk',hrefusing]
      exact (List.append_nil _).symm ▸ hnodup.1
    · intro n
      rw [ComputeState.pending,ComputeState.holders,hk',hrefusing]
      change n ∈ s.dispatch.refusing ++ [] ↔ n ∈ s.dispatch.refusing ++ [number] ∧ n ≠ number
      rw [List.append_nil,List.mem_append,List.mem_singleton]
      have hother : n ∈ s.dispatch.refusing → n ≠ number := fun hn => hnodup.2.2 n hn number
        (List.mem_singleton_self _)
      tauto
  · have hone := h.one
    rw [hk,List.length_singleton] at hone
    by_contra hidle
    rw [if_neg hidle] at hone
    cases hone

/-- The holder closes the job's epoch. -/
theorem ComputeState.Orderly.endEpoch (h : s.Orderly) (hk : s.holders = [⟨number,.finish .endEpoch⟩])
    (hk' : d.holders ++ ws.map Worker.holder = [⟨number,.finish .endWatch⟩])
    (hrefusing : d.refusing = s.dispatch.refusing) (hepoch : job.epoch = s.mailbox.epoch)
    (hdispatch : d.Sound s) (hworkers : ∀ w ∈ ws,w.Sound s) :
    ComputeState.Orderly { s with
      mailbox := s.mailbox.dispatchJobEnd job.epoch
      workers := ws
      dispatch := d } := by
  obtain ⟨hopen,hwatched⟩ := h.held ⟨number,.finish .endEpoch⟩ (by simp [hk])
  have hclosed : s.mailbox.dispatchJobEnd job.epoch =
      { s.mailbox with isOpen := false,slot := none } := if_pos ⟨hepoch.symm,hopen⟩
  rw [hclosed]
  have hs : ∃ more,s.events = s.events ++ more := ⟨[],(List.append_nil _).symm⟩
  exact h.turn _ hk hk' rfl rfl hrefusing (no_events _) ⟨rfl,rfl,rfl,rfl⟩ rfl hwatched
    (hdispatch.later ⟨hs,rfl,rfl,rfl⟩)
    (fun w hw => (hworkers w hw).later ⟨hs,rfl,rfl,rfl⟩)

/-- The holder ends the watch. -/
theorem ComputeState.Orderly.endWatch (h : s.Orderly) (hk : s.holders = [⟨number,.finish .endWatch⟩])
    (hk' : d.holders ++ ws.map Worker.holder = [⟨number,.finish .release⟩])
    (hrefusing : d.refusing = s.dispatch.refusing) (hdispatch : d.Sound s)
    (hworkers : ∀ w ∈ ws,w.Sound s) :
    ComputeState.Orderly { s with watched := false,workers := ws,dispatch := d } := by
  obtain ⟨hopen,-⟩ := h.held ⟨number,.finish .endWatch⟩ (by simp [hk])
  have hs : ∃ more,s.events = s.events ++ more := ⟨[],(List.append_nil _).symm⟩
  exact h.turn _ hk hk' rfl rfl hrefusing (no_events _) ⟨rfl,rfl,rfl,rfl⟩ hopen rfl
    (hdispatch.later ⟨hs,rfl,rfl,rfl⟩)
    (fun w hw => (hworkers w hw).later ⟨hs,rfl,rfl,rfl⟩)

/-- The holder gives the job up, and nobody holds one. -/
theorem ComputeState.Orderly.release (h : s.Orderly) (hk : s.holders = [⟨number,.finish .release⟩])
    (hk' : d.holders = []) (hrefusing : d.refusing = s.dispatch.refusing) (hdispatch : d.Sound s) :
    ComputeState.Orderly { s with jobBusy := false,workers := [],dispatch := d } := by
  obtain ⟨hopen,hwatched⟩ := h.held ⟨number,.finish .release⟩ (by simp [hk])
  have hs : ∃ more,s.events = s.events ++ more := ⟨[],(List.append_nil _).symm⟩
  have hlog := h.logbook
  rw [ComputeState.pending,hk] at hlog
  have hholders :
      ComputeState.holders { s with jobBusy := false,workers := [],dispatch := d } = [] := by
    rw [ComputeState.holders,hk']
    rfl
  constructor
  case logbook =>
    rw [ComputeState.pending,hholders,hrefusing]
    exact hlog
  case one => rw [hholders]; rfl
  case idle => exact fun _ => ⟨hopen,hwatched⟩
  case held => rw [hholders]; exact List.forall_mem_nil _
  case dispatch => exact hdispatch.later ⟨hs,rfl,rfl,rfl⟩
  case workers => exact List.forall_mem_nil _
  case cancel => rw [hholders]; exact fun _ => List.forall_mem_nil _

end

/-- The dispatch thread sends the result of a job whose worker could not be created. -/
theorem ComputeState.Orderly.failed (h : s.Orderly) {number : ℕ} {req : CompressRequest}
    {src : ObcRole} {stage : FinishStage} (hdispatch : s.dispatch = .failed number req src stage) :
    ComputeState.Orderly { s.perform number { s.currentJob with jobId := req.jobId,requester := src }
        (finishStep stage .failed 0).2 with
      dispatch := if stage = .release then .receive
        else .failed number req src (finishStep stage .failed 0).1 } := by
  have hheld : s.dispatch.holders = [⟨number,.finish stage⟩] := by
    rw [hdispatch,DispatchPhase.holders]
  obtain ⟨hworkers,hholders⟩ := h.dispatch_only hheld
  have hsound : s.Started number req src := by
    have := h.dispatch
    rwa [hdispatch] at this
  have hrefusing : s.dispatch.refusing = [] := by rw [hdispatch]; rfl
  have hnext : ∀ next,(DispatchPhase.failed number req src next).holders ++
      s.workers.map Worker.holder = [⟨number,.finish next⟩] := by
    intro next
    rw [hworkers]
    rfl
  cases stage with
  | send =>
    exact h.sendResult hholders (hnext .endEpoch) hrefusing.symm hsound.handled (by decide)
      (fun hc => by cases hc) hsound h.workers
  | endEpoch =>
    exact h.endEpoch hholders (hnext .endWatch) hrefusing.symm hsound.epoch hsound h.workers
  | endWatch => exact h.endWatch hholders (hnext .release) hrefusing.symm hsound h.workers
  | release =>
    have := h.release (d := .receive) hholders rfl hrefusing.symm trivial
    rw [← hworkers] at this
    exact this

/-! ### Steps of the worker -/

theorem WorkerPhase.Follows.step {cancelled : Bool} {phase : WorkerPhase}
    (h : phase.Follows cancelled) : phase.step = .work ∨ phase.step = .finish .send := by
  cases phase with
  | start => exact h.elim
  | finish stage status outputSize => exact .inr (by rw [WorkerPhase.step,h.1])
  | _ => exact .inl rfl

/-- What comes before `send_result` changes neither the job nor the flags. -/
theorem ComputeState.perform_early (s : ComputeState) {effect : WorkerEffect} (h : effect.Early)
    (number : ℕ) (job : WorkerJob) :
    let s' := s.perform number job effect
    (∃ more,(∀ e ∈ more,e.Neutral) ∧ s'.events = s.events ++ more) ∧
      (s'.handled = s.handled ∧ s'.jobBusy = s.jobBusy ∧ s'.jobIdRunning = s.jobIdRunning ∧
        s'.jobCancelRequested = s.jobCancelRequested) ∧
      s'.currentJob = s.currentJob ∧ s'.mailbox.epoch = s.mailbox.epoch ∧
      s'.mailbox.isOpen = s.mailbox.isOpen ∧ s'.watched = s.watched ∧ s'.dispatch = s.dispatch := by
  cases effect with
  | none => exact ⟨no_events _,⟨rfl,rfl,rfl,rfl⟩,rfl,rfl,rfl,rfl,rfl⟩
  | load => exact ⟨no_events _,⟨rfl,rfl,rfl,rfl⟩,rfl,rfl,rfl,rfl,rfl⟩
  | request request delivered =>
    refine ⟨⟨_,?_,rfl⟩,⟨rfl,rfl,rfl,rfl⟩,rfl,rfl,rfl,rfl,rfl⟩
    intro e he
    obtain ⟨offset,rfl⟩ := mem_wroteEvent he
    trivial
  | take =>
    refine ⟨⟨_,?_,rfl⟩,⟨rfl,rfl,rfl,rfl⟩,rfl,rfl,rfl,rfl,rfl⟩
    intro e he
    obtain ⟨reply,-,rfl⟩ := List.mem_map.mp he
    trivial
  | sendResult | endEpoch | endWatch | release => exact h.elim

/-- The only worker goes on, with its copy of the job. -/
theorem ComputeState.workersAfter_only {w : Worker} (hw : s.workers = [w]) (phase : WorkerPhase)
    {effect : WorkerEffect} (h : effect ≠ .release) :
    s.workersAfter 0 w phase effect =
      [⟨w.number,if effect = .load then s.currentJob else w.job,phase⟩] := by
  cases effect with
  | release => exact absurd rfl h
  | load =>
    rw [ComputeState.workersAfter,hw]
    rfl
  | none | request | take | sendResult | endEpoch | endWatch =>
    change s.workers.set 0 _ = _
    rw [hw]
    rfl

/-- A worker that has not come to `send_result` yet takes a step. -/
theorem ComputeState.Orderly.work (h : s.Orderly) {w : Worker} (hw : s.workers = [w])
    (hholders : s.dispatch.holders = []) (hworking : w.phase.step = .work) {phase : WorkerPhase}
    {effect : WorkerEffect} (heffect : effect.Early)
    (hphase : phase.Follows (s.checkCancelled w.job.jobId))
    (hload : effect = .load ↔ w.phase = .start) :
    ComputeState.Orderly { s.perform w.number w.job effect with
      workers := s.workersAfter 0 w phase effect } := by
  have hmem : w ∈ s.workers := by simp [hw]
  have hsound := h.workers w hmem
  have hk : s.holders = [w.holder] := by
    rw [ComputeState.holders,hholders,hw]
    rfl
  obtain ⟨hopen,hwatched⟩ := h.held w.holder (by simp [hk])
  obtain ⟨hneutral,hsame,hcurrent,hepoch,hopen',hwatched',hdispatch⟩ :=
    s.perform_early heffect w.number w.job
  -- the worker has copied the job by the end of this step
  obtain ⟨w',hw',hnumber,hphase',hjob⟩ : ∃ w',s.workersAfter 0 w phase effect = [w'] ∧
      w'.number = w.number ∧ w'.phase = phase ∧ w'.job = s.currentJob := by
    have hrelease : effect ≠ .release := by
      rintro rfl
      exact heffect
    refine ⟨_,ComputeState.workersAfter_only hw phase hrelease,rfl,rfl,?_⟩
    change (if effect = .load then s.currentJob else w.job) = s.currentJob
    split_ifs with hstart
    · rfl
    · exact hsound.loaded fun hp => hstart (hload.mpr hp)
  have hstep : w'.holder.step = .work ∨ w'.holder.step = .finish .send := by
    rw [Worker.holder,hphase']
    exact hphase.step
  have hflags : w'.holder.step.sent = w.holder.step.sent ∧
      w'.holder.step.epochOpen = w.holder.step.epochOpen ∧
      w'.holder.step.watched = w.holder.step.watched := by
    rw [show w.holder.step = .work from hworking]
    rcases hstep with hstep | hstep <;> rw [hstep] <;> exact ⟨rfl,rfl,rfl⟩
  have hs : SameJob s { s.perform w.number w.job effect with
      workers := s.workersAfter 0 w phase effect } := by
    obtain ⟨more,-,hevents⟩ := hneutral
    exact ⟨⟨more,hevents⟩,hsame.2.2.1,hcurrent,hepoch⟩
  refine h.turn w'.holder hk ?_ hnumber hflags.1 (by rw [hdispatch]) hneutral hsame ?_ ?_ ?_ ?_
  · change (s.perform w.number w.job effect).dispatch.holders ++
      (s.workersAfter 0 w phase effect).map Worker.holder = _
    rw [hdispatch,hholders,hw']
    rfl
  · rw [hflags.2.1,← hopen]
    exact hopen'
  · rw [hflags.2.2,← hwatched]
    exact hwatched'
  · change (s.perform w.number w.job effect).dispatch.Sound _
    rw [hdispatch]
    exact h.dispatch.later hs
  · intro v hv
    rw [show v = w' from List.mem_singleton.mp (hw' ▸ hv)]
    refine Worker.Sound.later (s := s) ⟨?_,hsound.jobId,hsound.epoch,fun _ => hjob,?_⟩ hs
    · rw [hnumber]
      exact hsound.handled
    · intro stage status outputSize hfinish
      rw [hphase'] at hfinish
      rw [hfinish] at hphase
      obtain ⟨-,hbusy,hcancelled⟩ := hphase
      refine ⟨hbusy,fun hc => ?_⟩
      have hrequested := (Bool.and_eq_true _ _).mp (hcancelled hc)
      rw [hnumber]
      exact h.cancel hrequested.2 w.holder (by simp [hk])

/-- The worker goes through `send_result`. -/
theorem ComputeState.Orderly.workerFinish (h : s.Orderly) {w : Worker} (hw : s.workers = [w])
    (hholders : s.dispatch.holders = []) {stage : FinishStage} {status : ComputeStatus}
    {outputSize : ℕ} (hphase : w.phase = .finish stage status outputSize) :
    ComputeState.Orderly { s.perform w.number w.job (finishStep stage status outputSize).2 with
      workers := s.workersAfter 0 w
        (.finish (finishStep stage status outputSize).1 status outputSize)
        (finishStep stage status outputSize).2 } := by
  have hsound := h.workers w (by simp [hw])
  have hloaded : w.job = s.currentJob := hsound.loaded (by simp [hphase])
  obtain ⟨hbusy,hcancelled⟩ := hsound.status _ _ _ hphase
  have hk : s.holders = [⟨w.number,.finish stage⟩] := by
    rw [ComputeState.holders,hholders,hw,List.nil_append,List.map_singleton,Worker.holder,hphase]
    rfl
  have hset : ∀ next,s.workers.set 0 { w with phase := .finish next status outputSize } =
      [{ w with phase := .finish next status outputSize }] := by
    intro next
    rw [hw]
    rfl
  have hnext : ∀ next,s.dispatch.holders ++ (s.workers.set 0
      { w with phase := .finish next status outputSize }).map Worker.holder =
        [⟨w.number,.finish next⟩] := by
    intro next
    rw [hset,hholders]
    rfl
  have hworkers : ∀ next,∀ v ∈ s.workers.set 0 { w with phase := .finish next status outputSize },
      v.Sound s := by
    intro next v hv
    rw [hset] at hv
    rw [List.mem_singleton.mp hv]
    refine ⟨hsound.handled,hsound.jobId,hsound.epoch,fun _ => hloaded,?_⟩
    intro stage' status' outputSize' heq
    cases heq
    exact ⟨hbusy,hcancelled⟩
  cases stage with
  | send =>
    refine h.sendResult hk (hnext .endEpoch) rfl ?_ hbusy ?_ h.dispatch (hworkers _)
    · rw [hloaded,hsound.jobId]
      exact hsound.handled
    · rw [hloaded,hsound.jobId]
      exact hcancelled
  | endEpoch =>
    refine h.endEpoch hk (hnext .endWatch) rfl ?_ h.dispatch (hworkers _)
    rw [hloaded,hsound.epoch]
  | endWatch => exact h.endWatch hk (hnext .release) rfl h.dispatch (hworkers _)
  | release =>
    have := h.release hk hholders rfl h.dispatch
    rw [show [] = s.workers.eraseIdx 0 by rw [hw]; rfl] at this
    exact this

/-- The step of a worker is one of the only worker, and if there is a worker after it then it is
still the same, in the next phase. -/
theorem ComputeState.Orderly.worker_moves (h : s.Orderly) {i : ℕ} {io : WorkerIo}
    (hstep : s.workerStep i io = some s') : ∃ w phase effect ws,w ∈ s.workers ∧
      WorkerMove s.mailbox (s.checkCancelled w.job.jobId) w.job w.phase phase effect ∧
      s' = { s.perform w.number w.job effect with workers := ws } ∧
      ∀ v ∈ ws,v.number = w.number ∧ v.phase = phase := by
  obtain ⟨w,phase,effect,hget,hnext,rfl⟩ := workerStep_eq_some hstep
  obtain ⟨rfl,hw,-⟩ := h.worker_only hget
  refine ⟨w,phase,effect,_,by simp [hw],workerNext_move hnext,rfl,?_⟩
  intro v hv
  by_cases hrelease : effect = .release
  · rw [hrelease,ComputeState.workersAfter,hw] at hv
    cases hv
  · rw [ComputeState.workersAfter_only hw phase hrelease] at hv
    rw [List.mem_singleton.mp hv]
    exact ⟨rfl,rfl⟩

/-- A worker takes a step. -/
theorem ComputeState.Orderly.workerStep (h : s.Orderly) {i : ℕ} {io : WorkerIo}
    (hstep : s.workerStep i io = some s') : s'.Orderly := by
  obtain ⟨w,phase,effect,hget,hnext,rfl⟩ := workerStep_eq_some hstep
  obtain ⟨rfl,hw,hholders,-⟩ := h.worker_only hget
  by_cases hfinish : ∃ stage status outputSize,w.phase = .finish stage status outputSize
  · obtain ⟨stage,status,outputSize,hphase⟩ := hfinish
    rw [workerNext,hphase] at hnext
    cases hnext
    exact h.workerFinish hw hholders hphase
  · have hworking : w.phase.step = .work := by
      cases hphase : w.phase with
      | finish stage status outputSize => exact absurd ⟨_,_,_,hphase⟩ hfinish
      | _ => rfl
    obtain ⟨hearly,hfollows,hload⟩ := (workerNext_move hnext).follows
      fun stage status outputSize hphase => hfinish ⟨_,_,_,hphase⟩
    exact h.work hw hholders hworking hearly hfollows hload

/-! ### Every run -/

theorem ComputeState.Orderly.dispatchStep (h : s.Orderly) {io : DispatchIo}
    (hstep : s.dispatchStep io = some s') : s'.Orderly := by
  cases dispatchStep_move hstep with
  | deliver hdispatch => exact h.deliverStep hdispatch _ _
  | handle hdispatch => exact h.handleCompressRequest hdispatch
  | refuse hdispatch => exact h.refuse hdispatch
  | begin hdispatch => exact h.begin hdispatch
  | watch hdispatch => exact h.watch hdispatch
  | create hdispatch => exact h.create hdispatch
  | createFails hdispatch => exact h.create_failed hdispatch
  | failed hdispatch => exact h.failed hdispatch

theorem ComputeState.Orderly.step {action : ComputeAction} (h : s.Orderly)
    (hstep : s.step action = some s') : s'.Orderly := by
  have hnone : ∃ more,s.events = s.events ++ more := ⟨[],(List.append_nil _).symm⟩
  cases action with
  | compress req src =>
    obtain ⟨⟨hreceive,-⟩,hs'⟩ := Option.ite_none_right_eq_some.mp hstep
    cases hs'
    refine h.aside ⟨hnone,rfl,rfl,rfl⟩ (no_events _) ⟨rfl,rfl,rfl⟩ rfl rfl ?_ h.cancel
    exact .inr ⟨hreceive ▸ idle_receive,idle_compress _ _⟩
  | cancel jobId =>
    obtain ⟨-,hs'⟩ := Option.ite_none_right_eq_some.mp hstep
    cases hs'
    exact h.cancel_step jobId
  | takeReply =>
    obtain ⟨reply,socket,hreceive,-,rfl⟩ := takeReply_eq_some hstep
    refine h.aside ⟨hnone,rfl,rfl,rfl⟩ (no_events _) ⟨rfl,rfl,rfl⟩ rfl rfl ?_ h.cancel
    exact .inr ⟨hreceive ▸ idle_receive,idle_deliver _ _⟩
  | dispatch io => exact h.dispatchStep hstep
  | worker i io => exact h.workerStep hstep
  | serve io => exact h.serve hstep
  | send delivered => exact h.send hstep

/-- The job has one holder at any time, and every request its result. -/
theorem ComputeState.Orderly.after {as : List ComputeAction} (h : s.Orderly)
    (hrun : run ComputeState.step s as = some s') : s'.Orderly :=
  run_invariant (fun _ _ _ hs hstep => hs.step hstep) h hrun

end

end FlightSoftware.Compute
