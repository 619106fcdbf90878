import FlightSoftware.Compute.Replies
import FlightSoftware.Compute.Results

/-!
# Requesters of compressions

The programs on the other side of Compute's socket. A requester sends compress
requests and reads the results sent to it, in their order. The slot is released
after the result is sent, so a requester that knows its result may still find the
slot taken.
-/

namespace FlightSoftware.Compute
open Obc Run

/-! ### Accepted jobs -/

/-- The number of the job that was accepted, and its requester. -/
def Event.accepted : Event → Option (ℕ × ObcRole)
  | .handled number _ src false _ _ => some (number,src)
  | _ => none

def accepted (events : List Event) : List (ℕ × ObcRole) := events.filterMap Event.accepted

/-- The job that was accepted last. -/
def lastJob (events : List Event) : Option (ℕ × ObcRole) := (accepted events).getLast?

def Event.isRequest : Event → Bool
  | .handled _ _ _ _ _ _ => true
  | _ => false

theorem accepted_append (events more : List Event) :
    accepted (events ++ more) = accepted events ++ accepted more := List.filterMap_append

theorem accepted_of_requestless {more : List Event} (h : ∀ e ∈ more,e.isRequest = false) :
    accepted more = [] := by
  rw [accepted,List.filterMap_eq_nil_iff]
  intro e he
  have := h e he
  cases e with
  | handled => cases this
  | _ => rfl

theorem mem_accepted {events : List Event} {number : ℕ} {src : ObcRole} :
    (number,src) ∈ accepted events ↔ ∃ jobId,HandledAs events number jobId src false := by
  rw [accepted,List.mem_filterMap]
  constructor
  · rintro ⟨e,he,haccepted⟩
    cases e with
    | handled n jobId owner busy epochOpen watched =>
      cases busy with
      | false =>
        cases haccepted
        exact ⟨jobId,epochOpen,watched,he⟩
      | true => cases haccepted
    | _ => cases haccepted
  · rintro ⟨jobId,epochOpen,watched,hm⟩
    exact ⟨_,hm,rfl⟩

/-- No request is recorded but those before. -/
theorem handledAs_append {events more : List Event} (h : ∀ e ∈ more,e.isRequest = false)
    {number : ℕ} {jobId : BitVec 32} {src : ObcRole} {busy : Bool} :
    HandledAs (events ++ more) number jobId src busy ↔ HandledAs events number jobId src busy := by
  refine ⟨?_,fun hm => hm.append more⟩
  rintro ⟨epochOpen,watched,hm⟩
  refine ⟨epochOpen,watched,(List.mem_append.mp hm).resolve_right fun hm => ?_⟩
  exact absurd (h _ hm) (by simp [Event.isRequest])

/-! ### Requesters and requests -/

/-- A requester has taken some of the results sent to it out of its socket, and knows those that
were not lost. -/
structure Requester where
  taken : ℕ
  known : List ℕ

/-- A compress request on its way, with what its requester knew when it was sent. -/
structure Asked where
  req : CompressRequest
  src : ObcRole
  known : List ℕ

/-- Compute, its requesters and the requests in its socket. `current` is what was known to the
requester of the request that the dispatch thread has taken last, and `informed` has the numbers of
the requests that were sent after the result of the previous job, as said below. -/
structure Exchange where
  compute : ComputeState
  requesters : ObcRole → Requester
  queue : List Asked
  current : List ℕ
  informed : List ℕ

def Exchange.initial : Exchange := ⟨.initial,fun _ => ⟨0,[]⟩,[],[],[]⟩

def Event.resultFor (src : ObcRole) : Event → Option ℕ
  | .result number _ requester _ _ => if requester = src then some number else none
  | _ => none

/-- The results sent to a requester. -/
def ComputeState.resultsFor (s : ComputeState) (src : ObcRole) : List ℕ :=
  s.events.filterMap (Event.resultFor src)

/-- The requester knows the result of the previous job, if that was its own, and no other one has
a job running. -/
def ComputeState.Informed (s : ComputeState) (src : ObcRole) (known : List ℕ) : Prop :=
  (∀ job ∈ lastJob s.events,job.2 = src → job.1 ∈ known) ∧
    ∀ k ∈ s.holders,(k.number,src) ∈ accepted s.events

instance (s : ComputeState) (src : ObcRole) (known : List ℕ) : Decidable (s.Informed src known) :=
  inferInstanceAs (Decidable (_ ∧ _))

/-- The dispatch thread is about to look at `job_busy` for an informed requester. -/
def Exchange.informs (s : Exchange) : ComputeAction → Bool
  | .dispatch _ =>
    match s.compute.dispatch with
    | .compress _ src => decide (s.compute.Informed src s.current)
    | _ => false
  | _ => false

inductive ExchangeAction where
  /-- A compress request is sent to Compute, or gets lost. What Data sends is no request. -/
  | ask (req : CompressRequest) (src : ObcRole) (delivered : Bool)
  /-- A requester reads its next result, or that has got lost. -/
  | read (src : ObcRole) (delivered : Bool)
  /-- The dispatch thread receives the next request. -/
  | take
  | compute (action : ComputeAction)

def ComputeAction.isCompress : ComputeAction → Bool
  | .compress _ _ => true
  | _ => false

def Exchange.step (s : Exchange) : ExchangeAction → Option Exchange
  | .ask req src delivered =>
    if src = .data then none
    else some { s with
      queue := if delivered then s.queue ++ [⟨req,src,(s.requesters src).known⟩] else s.queue }
  | .read src delivered =>
    match (s.compute.resultsFor src)[(s.requesters src).taken]? with
    | none => none
    | some number =>
      let known := (s.requesters src).known
      some { s with
        requesters := Function.update s.requesters src
          ⟨(s.requesters src).taken+1,if delivered then known ++ [number] else known⟩ }
  | .take =>
    match s.queue with
    | [] => none
    | asked :: queue =>
      (s.compute.step (.compress asked.req asked.src)).map fun compute =>
        { s with compute := compute,queue := queue,current := asked.known }
  | .compute action =>
    if action.isCompress then none
    else (s.compute.step action).map fun compute =>
      { s with
        compute := compute
        informed := if s.informs action then s.informed ++ [s.compute.handled] else s.informed }

/-! ### What a step records -/

section

variable {s s' : ComputeState}

/-- What a step of Compute leaves as it was, unless it handles a compress request. -/
structure Requestless (s s' : ComputeState) : Prop where
  events : ∃ more,s'.events = s.events ++ more ∧ ∀ e ∈ more,e.isRequest = false
  handled : s'.handled = s.handled
  inherits : Inherits s s'

theorem no_requests (events : List Event) :
    ∃ more,events = events ++ more ∧ ∀ e ∈ more,e.isRequest = false :=
  ⟨[],(List.append_nil _).symm,List.forall_mem_nil _⟩

/-- One event is recorded. -/
theorem one_requestless (events : List Event) {e : Event} (h : e.isRequest = false) :
    ∃ more,events ++ [e] = events ++ more ∧ ∀ e ∈ more,e.isRequest = false := by
  refine ⟨_,rfl,?_⟩
  intro e' he'
  rw [List.mem_singleton.mp he']
  exact h

theorem ComputeState.perform_requestless (s : ComputeState) (number : ℕ) (job : WorkerJob)
    (effect : WorkerEffect) :
    (∃ more,(s.perform number job effect).events = s.events ++ more ∧
      ∀ e ∈ more,e.isRequest = false) ∧ (s.perform number job effect).handled = s.handled := by
  cases effect with
  | none | load | endEpoch | endWatch | release => exact ⟨no_requests _,rfl⟩
  | request request delivered =>
    refine ⟨⟨_,rfl,?_⟩,rfl⟩
    intro e he
    obtain ⟨offset,rfl⟩ := mem_wroteEvent he
    rfl
  | take =>
    refine ⟨⟨_,rfl,?_⟩,rfl⟩
    intro e he
    obtain ⟨reply,-,rfl⟩ := List.mem_map.mp he
    rfl
  | sendResult => exact ⟨one_requestless _ rfl,rfl⟩

theorem worker_requestless {i : ℕ} {io : WorkerIo} (h : s.workerStep i io = some s') :
    Requestless s s' := by
  obtain ⟨w,phase,effect,hget,hnext,rfl⟩ := workerStep_eq_some h
  obtain ⟨hevents,hhandled⟩ := s.perform_requestless w.number w.job effect
  exact ⟨hevents,hhandled,inherits_of_workersAfter hget rfl (s.perform_dispatch _ _ _)⟩

theorem deliver_requestless (reply : TaggedReply) (epoch : BitVec 32) (expired : Bool) :
    Requestless s (s.deliverStep reply epoch expired) := by
  unfold ComputeState.deliverStep
  split
  all_goals
    exact ⟨no_requests _,rfl,inherits_of_workers rfl (List.forall_mem_nil _)⟩

/-- The dispatch thread goes on with its message, unless that is a request just received. -/
theorem dispatch_requests {io : DispatchIo} (h : s.dispatchStep io = some s') :
    (∃ req src,s.dispatch = .compress req src ∧ s' = s.handleCompressRequest req src) ∨
      (∀ req src,s.dispatch ≠ .compress req src) ∧ Requestless s s' := by
  cases dispatchStep_move h with
  | handle hdispatch => exact .inl ⟨_,_,hdispatch,rfl⟩
  | deliver hdispatch =>
    rw [hdispatch]
    exact .inr ⟨by simp,deliver_requestless _ _ _⟩
  | refuse hdispatch =>
    rw [hdispatch]
    exact .inr ⟨by simp,one_requestless _ rfl,rfl,inherits_of_workers rfl (List.forall_mem_nil _)⟩
  | begin hdispatch | watch hdispatch | createFails hdispatch =>
    refine .inr ⟨by simp [hdispatch],no_requests _,rfl,inherits_of_workers rfl fun k' hk' => ?_⟩
    rw [hdispatch]
    exact ⟨_,List.mem_singleton_self _,by rw [List.mem_singleton.mp hk']⟩
  | create hdispatch =>
    exact .inr ⟨by simp [hdispatch],no_requests _,rfl,inherits_create hdispatch⟩
  | @failed number req src stage hdispatch =>
    obtain ⟨hevents,hhandled⟩ := s.perform_requestless number
      { s.currentJob with jobId := req.jobId,requester := src } (finishStep stage .failed 0).2
    refine .inr ⟨by simp [hdispatch],hevents,hhandled,inherits_failed hdispatch ?_ rfl⟩
    cases stage <;> rfl

/-- Only the dispatch thread handles requests. -/
theorem step_requests {action : ComputeAction} (h : s.step action = some s') :
    (∃ io req src,action = .dispatch io ∧ s.dispatch = .compress req src ∧
      s' = s.handleCompressRequest req src) ∨
    (∀ io req src,action = .dispatch io → s.dispatch ≠ .compress req src) ∧ Requestless s s' := by
  cases action with
  | dispatch io =>
    rcases dispatch_requests h with ⟨req,src,hdispatch,hs'⟩ | ⟨hdispatch,hsame⟩
    · exact .inl ⟨io,req,src,rfl,hdispatch,hs'⟩
    · exact .inr ⟨fun _ req src _ => hdispatch req src,hsame⟩
  | compress req src =>
    obtain ⟨-,hs'⟩ := Option.ite_none_right_eq_some.mp h
    cases hs'
    exact .inr ⟨by simp,no_requests _,rfl,inherits_of_workers rfl (List.forall_mem_nil _)⟩
  | cancel jobId =>
    obtain ⟨-,hs'⟩ := Option.ite_none_right_eq_some.mp h
    cases hs'
    exact .inr ⟨by simp,one_requestless _ rfl,rfl,inherits_refl s⟩
  | takeReply =>
    obtain ⟨reply,socket,-,-,rfl⟩ := takeReply_eq_some h
    exact .inr ⟨by simp,no_requests _,rfl,inherits_of_workers rfl (List.forall_mem_nil _)⟩
  | worker i io => exact .inr ⟨by simp,worker_requestless h⟩
  | serve io =>
    obtain ⟨q,rest,replies,opened,-,-,-,rfl⟩ := serve_eq_some h
    exact .inr ⟨by simp,no_requests _,rfl,inherits_refl s⟩
  | send delivered =>
    obtain ⟨reply,sending,-,rfl | rfl⟩ := send_eq_some h
    · refine .inr ⟨by simp,⟨_,rfl,?_⟩,rfl,inherits_refl s⟩
      intro e he
      obtain ⟨status,rfl⟩ := mem_ackEvent he
      rfl
    · exact .inr ⟨by simp,no_requests _,rfl,inherits_refl s⟩

/-! ### The holder has the last job -/

/-- The job that is held is the one accepted last. -/
def ComputeState.HoldsLast (s : ComputeState) : Prop :=
  ∀ k ∈ s.holders,∃ owner,lastJob s.events = some (k.number,owner)

theorem Requestless.lastJob (h : Requestless s s') : lastJob s'.events = lastJob s.events := by
  obtain ⟨more,hevents,hmore⟩ := h.events
  rw [Compute.lastJob,hevents,accepted_append,accepted_of_requestless hmore,List.append_nil]
  rfl

theorem ComputeState.HoldsLast.requestless (h : s.HoldsLast) (hs : Requestless s s') :
    s'.HoldsLast := by
  intro k' hk'
  obtain ⟨k,hk,hnumber⟩ := hs.inherits k' hk'
  rw [hs.lastJob,hnumber]
  exact h k hk

theorem ComputeState.HoldsLast.handle (h : s.HoldsLast) (ho : s.Orderly) {req : CompressRequest}
    {src : ObcRole} (hdispatch : s.dispatch = .compress req src) :
    (s.handleCompressRequest req src).HoldsLast := by
  have hholders : s.holders = s.workers.map Worker.holder := by
    rw [ComputeState.holders,hdispatch]
    rfl
  unfold ComputeState.handleCompressRequest
  dsimp only
  split_ifs with hbusy
  · intro k hk
    have hk : k ∈ s.holders := hholders ▸ hk
    rw [hbusy,lastJob,accepted_append]
    rw [show accepted [_] = [] from rfl,List.append_nil]
    exact h k hk
  · -- nobody holds a job yet
    have hidle : s.jobBusy = false := Bool.eq_false_iff.mpr hbusy
    have hone := ho.one
    rw [hidle,hholders,List.length_map] at hone
    have hworkers : s.workers = [] := List.length_eq_zero_iff.mp hone
    intro k hk
    rw [ComputeState.holders,hworkers] at hk
    rw [List.mem_singleton.mp hk,hidle,lastJob,accepted_append]
    exact ⟨src,List.getLast?_concat⟩

theorem ComputeState.HoldsLast.step {action : ComputeAction} (h : s.HoldsLast) (ho : s.Orderly)
    (hstep : s.step action = some s') : s'.HoldsLast := by
  rcases step_requests hstep with ⟨io,req,src,-,hdispatch,rfl⟩ | ⟨-,hs⟩
  · exact h.handle ho hdispatch
  · exact h.requestless hs

/-! ### Refused requests -/

/-- A request is answered with BUSY, or about to be. -/
def ComputeState.Refused (s : ComputeState) (number : ℕ) : Prop :=
  number ∈ s.dispatch.refusing ∨
    ∃ jobId requester outputSize,.result number jobId requester .busy outputSize ∈ s.events

/-- A request is refused if and only if it found the slot taken. -/
theorem ComputeState.Orderly.refused_iff (h : s.Orderly) {number : ℕ} :
    s.Refused number ↔ ∃ jobId src,HandledAs s.events number jobId src true := by
  constructor
  · rintro (hrefusing | ⟨jobId,requester,outputSize,hresult⟩)
    · have hsound := h.dispatch
      cases hdispatch : s.dispatch with
      | busy n req src =>
        rw [hdispatch] at hrefusing hsound
        rw [List.mem_singleton.mp hrefusing]
        exact ⟨_,_,hsound⟩
      | _ =>
        rw [hdispatch] at hrefusing
        cases hrefusing
    · obtain ⟨busy,hhandled,hbusy⟩ := h.logbook.named hresult
      rw [hbusy.mp rfl] at hhandled
      exact ⟨_,_,hhandled⟩
  · rintro ⟨jobId,src,hhandled⟩
    by_cases hpending : number ∈ s.pending
    · left
      refine (List.mem_append.mp hpending).resolve_right fun hheld => ?_
      obtain ⟨k,hk,hnumber⟩ := List.mem_flatMap.mp hheld
      rw [Holder.pending] at hnumber
      split_ifs at hnumber
      · cases hnumber
      · obtain ⟨owner,haccepted⟩ := h.holder_handled hk
        rw [← List.mem_singleton.mp hnumber] at haccepted
        cases (h.logbook.unique hhandled haccepted).2.2
    · right
      have hcount := h.logbook.counted number
      rw [if_pos ⟨h.logbook.numbers hhandled,hpending⟩] at hcount
      obtain ⟨e,he,hresult⟩ := List.countP_pos_iff.mp (hcount ▸ Nat.one_pos)
      cases e with
      | result n jobId' requester status outputSize =>
        obtain rfl : n = number := of_decide_eq_true hresult
        obtain ⟨busy,hhandled',hbusy⟩ := h.logbook.named he
        rw [hbusy.mpr (h.logbook.unique hhandled hhandled').2.2] at he
        exact ⟨_,_,_,he⟩
      | _ => cases hresult

/-- The thread that holds a job with a result has sent it. -/
theorem ComputeState.Orderly.sent_of_result (h : s.Orderly) {k : Holder} (hk : k ∈ s.holders)
    (hresult : 0 < resultsOf s.events k.number) : k.step.sent = true := by
  by_contra hsent
  have hpending : k.number ∈ s.pending := by
    refine List.mem_append_right _ (List.mem_flatMap.mpr ⟨k,hk,?_⟩)
    rw [Holder.pending,if_neg hsent]
    exact List.mem_singleton_self _
  rw [h.logbook.counted,if_neg fun hc => hc.2 hpending] at hresult
  exact absurd hresult (lt_irrefl _)

/-- The slot is found taken for an informed requester if and only if the thread that sent the
result has not released it. -/
theorem ComputeState.Orderly.busy_iff (h : s.Orderly) (hlast : s.HoldsLast) {src : ObcRole}
    {known : List ℕ} (hinformed : s.Informed src known)
    (hknown : ∀ n ∈ known,0 < resultsOf s.events n) :
    s.jobBusy = true ↔ ∃ k ∈ s.holders,k.step.sent = true := by
  constructor
  · intro hbusy
    have hone := h.one
    rw [if_pos hbusy] at hone
    obtain ⟨k,hk⟩ := List.length_eq_one_iff.mp hone
    have hk : k ∈ s.holders := by simp [hk]
    obtain ⟨owner,hlast⟩ := hlast k hk
    -- the job is the requester's own, so it knows the result
    have howner : owner = src := by
      obtain ⟨jobId,hmine⟩ := mem_accepted.mp (hinformed.2 k hk)
      obtain ⟨jobId',hlast⟩ := mem_accepted.mp (List.mem_of_getLast? hlast)
      exact (h.logbook.unique hmine hlast).2.1
    exact ⟨k,hk,h.sent_of_result hk (hknown _ (hinformed.1 _ hlast howner))⟩
  · rintro ⟨k,hk,-⟩
    by_contra hidle
    have hone := h.one
    rw [if_neg hidle] at hone
    rw [List.length_eq_zero_iff.mp hone] at hk
    cases hk

end

/-! ### Runs of the exchange -/

/-- What is known of jobs has been sent. -/
structure Exchange.Sound (s : Exchange) : Prop where
  orderly : s.compute.Orderly
  last : s.compute.HoldsLast
  requesters : ∀ src,∀ n ∈ (s.requesters src).known,0 < resultsOf s.compute.events n
  queue : ∀ asked ∈ s.queue,∀ n ∈ asked.known,0 < resultsOf s.compute.events n
  current : ∀ n ∈ s.current,0 < resultsOf s.compute.events n
  informed : ∀ n ∈ s.informed,n < s.compute.handled

theorem Exchange.sound_initial : Exchange.initial.Sound where
  orderly := ComputeState.orderly_initial
  last k hk := by cases hk
  requesters src n hn := by cases hn
  queue asked hasked := by cases hasked
  current n hn := by cases hn
  informed n hn := by cases hn

/-- The dispatch thread looks at `job_busy` for an informed requester only after the thread that
sent the result has released it. -/
def Exchange.Released (s : Exchange) : ExchangeAction → Prop
  | .compute action => s.informs action = true → ∀ k ∈ s.compute.holders,k.step.sent = false
  | _ => True

instance (s : Exchange) : (action : ExchangeAction) → Decidable (s.Released action)
  | .compute action => inferInstanceAs (Decidable (s.informs action = true →
      ∀ k ∈ s.compute.holders,k.step.sent = false))
  | .ask _ _ _ => .isTrue trivial
  | .read _ _ => .isTrue trivial
  | .take => .isTrue trivial

section

variable {s s' : Exchange}

theorem results_grow {t t' : ComputeState} {action : ComputeAction}
    (h : t.step action = some t') {n : ℕ} (hn : 0 < resultsOf t.events n) :
    0 < resultsOf t'.events n := by
  obtain ⟨e,he,hresult⟩ := List.countP_pos_iff.mp hn
  exact List.countP_pos_iff.mpr ⟨e,step_events h he,hresult⟩

theorem handled_grows {t t' : ComputeState} {action : ComputeAction}
    (h : t.step action = some t') : t.handled ≤ t'.handled := by
  rcases step_requests h with ⟨io,req,src,-,-,rfl⟩ | ⟨-,hs⟩
  · unfold ComputeState.handleCompressRequest
    dsimp only
    split_ifs <;> exact Nat.le_succ _
  · exact hs.handled.ge

/-- The result that a requester reads has been sent. -/
theorem resultsFor_sent {t : ComputeState} {src : ObcRole} {i n : ℕ}
    (h : (t.resultsFor src)[i]? = some n) : 0 < resultsOf t.events n := by
  obtain ⟨e,he,hresult⟩ := List.mem_filterMap.mp (List.mem_of_getElem? h)
  refine List.countP_pos_iff.mpr ⟨e,he,?_⟩
  cases e with
  | result number jobId requester status outputSize =>
    rw [Event.resultFor] at hresult
    split_ifs at hresult
    cases hresult
    exact decide_eq_true rfl
  | _ => cases hresult

/-- Compute takes a step, and what is known stays. -/
theorem Exchange.Sound.compute (h : s.Sound) {t : ComputeState} {action : ComputeAction}
    (hstep : s.compute.step action = some t) {queue : List Asked} {current informed : List ℕ}
    (hqueue : ∀ asked ∈ queue,∀ n ∈ asked.known,0 < resultsOf s.compute.events n)
    (hcurrent : ∀ n ∈ current,0 < resultsOf s.compute.events n)
    (hinformed : ∀ n ∈ informed,n < t.handled) :
    Exchange.Sound ⟨t,s.requesters,queue,current,informed⟩ where
  orderly := h.orderly.step hstep
  last := h.last.step h.orderly hstep
  requesters src n hn := results_grow hstep (h.requesters src n hn)
  queue asked hasked n hn := results_grow hstep (hqueue asked hasked n hn)
  current n hn := results_grow hstep (hcurrent n hn)
  informed := hinformed

theorem informs_eq_true {action : ComputeAction} (h : s.informs action = true) :
    ∃ io req src,action = .dispatch io ∧ s.compute.dispatch = .compress req src ∧
      s.compute.Informed src s.current := by
  cases action with
  | dispatch io =>
    unfold Exchange.informs at h
    dsimp only at h
    split at h
    · rename_i req src hdispatch
      exact ⟨io,req,src,rfl,hdispatch,of_decide_eq_true h⟩
    · cases h
  | _ => cases h

/-- A request that is handled gets the next number. -/
theorem informed_handled {action : ComputeAction} {t : ComputeState}
    (hstep : s.compute.step action = some t) (h : s.informs action = true) :
    ∃ src jobId epochOpen watched,s.compute.Informed src s.current ∧
      t.handled = s.compute.handled+1 ∧ t.events = s.compute.events ++
        [.handled s.compute.handled jobId src s.compute.jobBusy epochOpen watched] := by
  obtain ⟨io,req,src,rfl,hdispatch,hinformed⟩ := informs_eq_true h
  rcases step_requests hstep with ⟨io',req',src',-,hdispatch',rfl⟩ | ⟨hnot,-⟩
  · obtain ⟨rfl,rfl⟩ := DispatchPhase.compress.inj (hdispatch.symm.trans hdispatch')
    refine ⟨src,req.jobId,s.compute.mailbox.isOpen,s.compute.watched,hinformed,?_⟩
    unfold ComputeState.handleCompressRequest
    dsimp only
    split_ifs <;> exact ⟨rfl,rfl⟩
  · exact absurd hdispatch (hnot io req src rfl)

theorem Exchange.Sound.step {action : ExchangeAction} (h : s.Sound)
    (hstep : s.step action = some s') : s'.Sound := by
  cases action with
  | ask req src delivered =>
    obtain ⟨-,hs'⟩ := Option.ite_none_left_eq_some.mp hstep
    cases hs'
    refine ⟨h.orderly,h.last,h.requesters,?_,h.current,h.informed⟩
    intro asked hasked
    dsimp only at hasked
    split_ifs at hasked
    · rcases List.mem_append.mp hasked with hasked | hasked
      · exact h.queue asked hasked
      · rw [List.mem_singleton.mp hasked]
        exact h.requesters src
    · exact h.queue asked hasked
  | read src delivered =>
    unfold Exchange.step at hstep
    dsimp only at hstep
    split at hstep
    · cases hstep
    rename_i number hread
    cases hstep
    refine ⟨h.orderly,h.last,?_,h.queue,h.current,h.informed⟩
    intro src' n hn
    dsimp only at hn
    by_cases hsrc : src' = src
    · subst hsrc
      rw [Function.update_self] at hn
      dsimp only at hn
      split_ifs at hn
      · rcases List.mem_append.mp hn with hn | hn
        · exact h.requesters src' n hn
        · rw [List.mem_singleton.mp hn]
          exact resultsFor_sent hread
      · exact h.requesters src' n hn
    · rw [Function.update_of_ne hsrc] at hn
      exact h.requesters src' n hn
  | take =>
    unfold Exchange.step at hstep
    dsimp only at hstep
    split at hstep
    · cases hstep
    rename_i asked queue hqueue
    obtain ⟨t,ht,rfl⟩ := Option.map_eq_some_iff.mp hstep
    have hall : ∀ other ∈ asked :: queue,∀ n ∈ other.known,0 < resultsOf s.compute.events n :=
      hqueue ▸ h.queue
    refine h.compute ht (fun other hother => hall other (List.mem_cons_of_mem _ hother))
      (hall asked List.mem_cons_self) ?_
    exact fun n hn => lt_of_lt_of_le (h.informed n hn) (handled_grows ht)
  | compute action =>
    obtain ⟨-,hstep⟩ := Option.ite_none_left_eq_some.mp hstep
    obtain ⟨t,ht,rfl⟩ := Option.map_eq_some_iff.mp hstep
    refine h.compute ht h.queue h.current ?_
    intro n hn
    split_ifs at hn with hinforms
    · obtain ⟨src,jobId,epochOpen,watched,-,hhandled,-⟩ := informed_handled ht hinforms
      rw [hhandled]
      rcases List.mem_append.mp hn with hn | hn
      · exact Nat.lt_succ_of_lt (h.informed n hn)
      · rw [List.mem_singleton.mp hn]
        exact Nat.lt_succ_self _
    · exact lt_of_lt_of_le (h.informed n hn) (handled_grows ht)

/-- A request sent after the result of the previous job is refused. -/
def Exchange.FalseBusy (s : Exchange) : Prop :=
  ∃ number ∈ s.informed,s.compute.Refused number

theorem Exchange.Sound.falseBusy_iff (h : s.Sound) : s.FalseBusy ↔
    ∃ number ∈ s.informed,∃ jobId src,HandledAs s.compute.events number jobId src true := by
  simp only [Exchange.FalseBusy,h.orderly.refused_iff]

/-- Nothing is handled for the requesters. -/
theorem Exchange.Sound.falseBusy_same (h : s.Sound) (h' : s'.Sound)
    (hinformed : s'.informed = s.informed)
    (hrequests : ∀ number ∈ s.informed,∀ jobId src,
      HandledAs s'.compute.events number jobId src true ↔
        HandledAs s.compute.events number jobId src true) :
    s'.FalseBusy ↔ s.FalseBusy := by
  rw [h.falseBusy_iff,h'.falseBusy_iff,hinformed]
  constructor
  · rintro ⟨number,hnumber,jobId,src,hhandled⟩
    exact ⟨number,hnumber,jobId,src,(hrequests number hnumber jobId src).mp hhandled⟩
  · rintro ⟨number,hnumber,jobId,src,hhandled⟩
    exact ⟨number,hnumber,jobId,src,(hrequests number hnumber jobId src).mpr hhandled⟩

/-- What a handled request adds to the record is about that request only. -/
theorem handledAs_next {events : List Event} {next : ℕ} {jobId : BitVec 32} {src : ObcRole}
    {busy epochOpen watched : Bool} {number : ℕ} {jobId' : BitVec 32} {src' : ObcRole}
    {busy' : Bool} (h : number < next) :
    HandledAs (events ++ [.handled next jobId src busy epochOpen watched]) number jobId' src'
      busy' ↔ HandledAs events number jobId' src' busy' := by
  refine ⟨?_,fun hm => hm.append _⟩
  rintro ⟨epochOpen',watched',hm⟩
  refine ⟨epochOpen',watched',old_event hm ?_⟩
  intro heq
  cases heq
  exact absurd h (lt_irrefl _)

/-- A request of an informed requester is handled. -/
theorem Exchange.Sound.falseBusy_informed (h : s.Sound) {action : ComputeAction} {t : ComputeState}
    (ht : s.compute.step action = some t) (hinforms : s.informs action = true)
    (h' : s'.Sound) (hcompute : s'.compute = t)
    (hinformed : s'.informed = s.informed ++ [s.compute.handled]) :
    ¬ s'.FalseBusy ↔ ¬ s.FalseBusy ∧ s.Released (.compute action) := by
  obtain ⟨src,jobId,epochOpen,watched,hknows,-,hevents⟩ := informed_handled ht hinforms
  have hbusy := h.orderly.busy_iff h.last hknows h.current
  have hold : ∀ {number : ℕ} {jobId' : BitVec 32} {src' : ObcRole},number ∈ s.informed →
      (HandledAs t.events number jobId' src' true ↔
        HandledAs s.compute.events number jobId' src' true) := by
    intro number jobId' src' hnumber
    rw [hevents]
    exact handledAs_next (h.informed number hnumber)
  have hnew : (∃ jobId' src',HandledAs t.events s.compute.handled jobId' src' true) ↔
      s.compute.jobBusy = true := by
    constructor
    · rintro ⟨jobId',src',epochOpen',watched',hm⟩
      rw [hevents] at hm
      rcases List.mem_append.mp hm with hm | hm
      · exact absurd (h.orderly.logbook.numbers ⟨_,_,hm⟩) (lt_irrefl _)
      · exact (Event.handled.inj (List.mem_singleton.mp hm)).2.2.2.1.symm
    · intro htaken
      rw [hevents,htaken]
      exact ⟨jobId,src,_,_,List.mem_append_right _ (List.mem_singleton_self _)⟩
  have hreleased : s.Released (.compute action) ↔ ¬ s.compute.jobBusy = true := by
    rw [hbusy]
    constructor
    · rintro hreleased ⟨k,hk,hsent⟩
      rw [hreleased hinforms k hk] at hsent
      cases hsent
    · intro hnone _ k hk
      exact Bool.eq_false_iff.mpr fun hsent => hnone ⟨k,hk,hsent⟩
  rw [hreleased,← hnew,h.falseBusy_iff,h'.falseBusy_iff,hcompute,hinformed,← not_or,not_iff_not]
  constructor
  · rintro ⟨number,hnumber,hhandled⟩
    rcases List.mem_append.mp hnumber with hnumber | hnumber
    · obtain ⟨jobId',src',hhandled⟩ := hhandled
      exact .inl ⟨number,hnumber,jobId',src',(hold hnumber).mp hhandled⟩
    · rw [List.mem_singleton.mp hnumber] at hhandled
      exact .inr hhandled
  · rintro (⟨number,hnumber,jobId',src',hhandled⟩ | hhandled)
    · exact ⟨number,List.mem_append_left _ hnumber,jobId',src',(hold hnumber).mpr hhandled⟩
    · exact ⟨_,List.mem_append_right _ (List.mem_singleton_self _),hhandled⟩

theorem Exchange.Sound.falseBusy_step {action : ExchangeAction} (h : s.Sound)
    (hstep : s.step action = some s') : ¬ s'.FalseBusy ↔ ¬ s.FalseBusy ∧ s.Released action := by
  have h' := h.step hstep
  cases action with
  | ask req src delivered =>
    obtain ⟨-,hs'⟩ := Option.ite_none_left_eq_some.mp hstep
    cases hs'
    exact (and_iff_left trivial).symm
  | read src delivered =>
    unfold Exchange.step at hstep
    dsimp only at hstep
    split at hstep
    · cases hstep
    · cases hstep
      exact (and_iff_left trivial).symm
  | take =>
    rw [and_iff_left (show s.Released .take from trivial),not_iff_not]
    unfold Exchange.step at hstep
    dsimp only at hstep
    split at hstep
    · cases hstep
    obtain ⟨t,ht,rfl⟩ := Option.map_eq_some_iff.mp hstep
    obtain ⟨-,hs'⟩ := Option.ite_none_right_eq_some.mp ht
    cases hs'
    exact h.falseBusy_same h' rfl fun _ _ _ _ => Iff.rfl
  | compute action =>
    obtain ⟨-,hstep⟩ := Option.ite_none_left_eq_some.mp hstep
    obtain ⟨t,ht,rfl⟩ := Option.map_eq_some_iff.mp hstep
    by_cases hinforms : s.informs action = true
    · exact h.falseBusy_informed ht hinforms h' rfl (if_pos hinforms)
    · have hreleased : s.Released (.compute action) := fun hc => absurd hc hinforms
      rw [and_iff_left hreleased,not_iff_not]
      refine h.falseBusy_same h' (if_neg hinforms) ?_
      intro number hnumber jobId src
      rcases step_requests ht with ⟨io,req,src',-,-,rfl⟩ | ⟨-,hs⟩
      · unfold ComputeState.handleCompressRequest
        dsimp only
        split_ifs <;> exact handledAs_next (h.informed number hnumber)
      · obtain ⟨more,hevents,hmore⟩ := hs.events
        dsimp only
        rw [hevents]
        exact handledAs_append hmore

/-- In every run, no request that was sent after the result of the previous job, while no other
requester has a job running, is answered with BUSY, if and only if `job_busy` is looked at for such
requests only when the thread that sent the result has released it. -/
theorem no_busy_after_result_iff {as : List ExchangeAction}
    (hrun : run Exchange.step .initial as = some s) :
    (∀ number ∈ s.informed,¬ s.compute.Refused number) ↔
      ∀ pre action post t,as = pre ++ action :: post → run Exchange.step .initial pre = some t →
        t.Released action := by
  have hnone : ¬ Exchange.initial.FalseBusy := by
    rintro ⟨number,hnumber,-⟩
    cases hnumber
  have hflag := run_flag_iff (B := Exchange.FalseBusy) (P := Exchange.Released)
    (fun _ _ _ h hstep => h.step hstep) (fun _ _ _ h hstep => h.falseBusy_step hstep)
    Exchange.sound_initial hrun
  rw [and_iff_right hnone] at hflag
  rw [← hflag]
  constructor
  · rintro hall ⟨number,hnumber,hrefused⟩
    exact hall number hnumber hrefused
  · exact fun hno number hnumber hrefused => hno ⟨number,hnumber,hrefused⟩

end

/-- A job whose request never reaches Data, up to its result TIMEOUT. -/
def timedOutJob : List ExchangeAction :=
  [.ask ⟨7,[],[]⟩ .mission true,.take] ++
    List.replicate 4 (.compute (.dispatch ⟨false,true⟩)) ++
      List.replicate 4 (.compute (.worker 0 .failing))

/-- The requester reads the result and sends its next request at once. -/
def nextAttempt : List ExchangeAction :=
  [.read .mission true,.ask ⟨8,[],[]⟩ .mission true,.take] ++
    List.replicate 2 (.compute (.dispatch ⟨false,true⟩))

theorem accepted_after_release : ∃ s,
    run Exchange.step .initial (timedOutJob ++
      List.replicate 3 (.compute (.worker 0 .failing)) ++ nextAttempt) = some s ∧
      1 ∈ s.informed ∧ ¬ s.compute.Refused 1 := by
  have hend : (run Exchange.step .initial (timedOutJob ++
      List.replicate 3 (.compute (.worker 0 .failing)) ++ nextAttempt)).map
        (fun s => s.informed) = some [0,1] := by
    decide +kernel
  have hallowed : allowed Exchange.step (fun s a => decide (s.Released a)) .initial
      (timedOutJob ++ List.replicate 3 (.compute (.worker 0 .failing)) ++ nextAttempt) = true := by
    decide +kernel
  obtain ⟨s,hrun,hinformed⟩ := Option.map_eq_some_iff.mp hend
  have hmem : 1 ∈ s.informed := by simp [hinformed]
  refine ⟨s,hrun,hmem,(no_busy_after_result_iff hrun).mpr ?_ 1 hmem⟩
  exact fun pre a post t has hpre => of_decide_eq_true (of_allowed hallowed has hpre)

/-- The requester is told BUSY while the worker is still in `send_result` of the job whose result
it has read. -/
theorem busy_after_result : ∃ s,run Exchange.step .initial (timedOutJob ++ nextAttempt) = some s ∧
    s.informed = [0,1] ∧
    s.compute.events = [.handled 0 7 .mission false false false,.result 0 7 .mission .timeout 0,
      .handled 1 8 .mission true true true,.result 1 8 .mission .busy 0] := by
  have hend : (run Exchange.step .initial (timedOutJob ++ nextAttempt)).map
      (fun s => (s.informed,s.compute.events)) = some ([0,1],
        [.handled 0 7 .mission false false false,.result 0 7 .mission .timeout 0,
          .handled 1 8 .mission true true true,.result 1 8 .mission .busy 0]) := by
    decide +kernel
  obtain ⟨s,hrun,hs⟩ := Option.map_eq_some_iff.mp hend
  obtain ⟨hinformed,hevents⟩ := Prod.mk.inj hs
  exact ⟨s,hrun,hinformed,hevents⟩

end FlightSoftware.Compute
