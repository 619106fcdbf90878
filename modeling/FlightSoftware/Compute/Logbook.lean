import FlightSoftware.Compute.Dispatch

/-!
# The record of requests and results

What the events of a run say about the compress requests so far: each was handled
once, has its result unless that is pending, and the result goes with the request.
-/

namespace FlightSoftware.Compute
open Obc

/-- A compress request was handled, as the job with this number. -/
def HandledAs (events : List Event) (number : ℕ) (jobId : BitVec 32) (src : ObcRole)
    (busy : Bool) : Prop :=
  ∃ epochOpen watched,.handled number jobId src busy epochOpen watched ∈ events

/-- The job was accepted and a cancel request for it handled since. -/
def CancelledIn (events : List Event) (number : ℕ) (jobId : BitVec 32) : Prop :=
  ∃ before since src epochOpen watched,
    events = before ++ .handled number jobId src false epochOpen watched :: since ∧
      .cancel jobId ∈ since

def Event.isResultOf (number : ℕ) : Event → Bool
  | .result n _ _ _ _ => n = number
  | _ => false

/-- The number of results sent for a job. -/
def resultsOf (events : List Event) (number : ℕ) : ℕ := events.countP (Event.isResultOf number)

/-- An event that is neither a request nor a result. -/
def Event.Neutral : Event → Prop
  | .handled _ _ _ _ _ _ => False
  | .result _ _ _ _ _ => False
  | _ => True

theorem HandledAs.append {events : List Event} {number : ℕ} {jobId : BitVec 32} {src : ObcRole}
    {busy : Bool} (h : HandledAs events number jobId src busy) (more : List Event) :
    HandledAs (events ++ more) number jobId src busy := by
  obtain ⟨epochOpen,watched,h⟩ := h
  exact ⟨epochOpen,watched,List.mem_append_left _ h⟩

theorem CancelledIn.append {events : List Event} {number : ℕ} {jobId : BitVec 32}
    (h : CancelledIn events number jobId) (more : List Event) :
    CancelledIn (events ++ more) number jobId := by
  obtain ⟨before,since,src,epochOpen,watched,rfl,hcancel⟩ := h
  exact ⟨before,since ++ more,src,epochOpen,watched,by simp,List.mem_append_left _ hcancel⟩

theorem resultsOf_append (events more : List Event) (number : ℕ) :
    resultsOf (events ++ more) number = resultsOf events number + resultsOf more number :=
  List.countP_append ..

theorem resultsOf_neutral {more : List Event} (h : ∀ e ∈ more,e.Neutral) (number : ℕ) :
    resultsOf more number = 0 := by
  rw [resultsOf,List.countP_eq_zero]
  intro e he hresult
  have := h e he
  cases e <;> first | exact this | cases hresult

/-- An event of a record that has grown was there before, or is one of the new ones. -/
theorem split_append {events more before after : List Event} {e : Event}
    (h : events ++ more = before ++ e :: after) :
    (∃ after',events = before ++ e :: after') ∨
      ∃ mid,more = mid ++ e :: after ∧ before = events ++ mid := by
  obtain ⟨mid,hbefore,hmore⟩ | ⟨rest,hevents,hrest⟩ := List.append_eq_append_iff.mp h
  · exact .inr ⟨mid,hmore,hbefore⟩
  · cases rest with
    | nil =>
      rw [List.append_nil] at hevents
      exact .inr ⟨[],hrest.symm,by rw [hevents,List.append_nil]⟩
    | cons first rest =>
      obtain ⟨rfl,-⟩ := List.cons.inj hrest
      exact .inl ⟨rest,hevents⟩

/-- The requests so far are numbered in order, and none was accepted while an epoch was open or
a worker watched. -/
structure Requests (events : List Event) (handled : ℕ) : Prop where
  numbers : ∀ {n jobId src busy},HandledAs events n jobId src busy → n < handled
  unique : ∀ {n jobId src busy jobId' src' busy'},HandledAs events n jobId src busy →
    HandledAs events n jobId' src' busy' → jobId' = jobId ∧ src' = src ∧ busy' = busy
  accepted : ∀ {n jobId src epochOpen watched},
    .handled n jobId src false epochOpen watched ∈ events → epochOpen = false ∧ watched = false

theorem Requests.append {events more : List Event} {handled : ℕ} (h : Requests events handled)
    (hmore : ∀ n jobId src busy epochOpen watched,
      .handled n jobId src busy epochOpen watched ∉ more) :
    Requests (events ++ more) handled := by
  have hold : ∀ {n jobId src busy epochOpen watched},
      .handled n jobId src busy epochOpen watched ∈ events ++ more →
        .handled n jobId src busy epochOpen watched ∈ events :=
    fun hm => (List.mem_append.mp hm).resolve_right (hmore _ _ _ _ _ _)
  constructor
  case numbers =>
    rintro n jobId src busy ⟨epochOpen,watched,hm⟩
    exact h.numbers ⟨epochOpen,watched,hold hm⟩
  case unique =>
    rintro n jobId src busy jobId' src' busy' ⟨epochOpen,watched,hm⟩ ⟨epochOpen',watched',hm'⟩
    exact h.unique ⟨epochOpen,watched,hold hm⟩ ⟨epochOpen',watched',hold hm'⟩
  case accepted =>
    intro n jobId src epochOpen watched hm
    exact h.accepted (hold hm)

/-- The next request is handled. -/
theorem Requests.handle {events : List Event} {handled : ℕ} (h : Requests events handled)
    (jobId : BitVec 32) (src : ObcRole) {busy epochOpen watched : Bool}
    (haccept : busy = false → epochOpen = false ∧ watched = false) :
    Requests (events ++ [.handled handled jobId src busy epochOpen watched]) (handled+1) where
  numbers := by
    rintro n jobId' src' busy' ⟨epochOpen',watched',hm⟩
    rcases List.mem_append.mp hm with hm | hm
    · exact Nat.lt_succ_of_lt (h.numbers ⟨_,_,hm⟩)
    · obtain ⟨⟩ := List.mem_singleton.mp hm
      exact Nat.lt_succ_self _
  unique := by
    rintro n jobId₁ src₁ busy₁ jobId₂ src₂ busy₂ ⟨epochOpen₁,watched₁,hm₁⟩ ⟨epochOpen₂,watched₂,hm₂⟩
    rcases List.mem_append.mp hm₁ with hm₁ | hm₁
    · rcases List.mem_append.mp hm₂ with hm₂ | hm₂
      · exact h.unique ⟨_,_,hm₁⟩ ⟨_,_,hm₂⟩
      · obtain ⟨⟩ := List.mem_singleton.mp hm₂
        exact absurd (h.numbers ⟨_,_,hm₁⟩) (lt_irrefl _)
    · obtain ⟨⟩ := List.mem_singleton.mp hm₁
      rcases List.mem_append.mp hm₂ with hm₂ | hm₂
      · exact absurd (h.numbers ⟨_,_,hm₂⟩) (lt_irrefl _)
      · obtain ⟨⟩ := List.mem_singleton.mp hm₂
        exact ⟨rfl,rfl,rfl⟩
  accepted := by
    intro n jobId' src' epochOpen' watched' hm
    rcases List.mem_append.mp hm with hm | hm
    · exact h.accepted hm
    · obtain ⟨⟩ := List.mem_singleton.mp hm
      exact haccept rfl

/-- The requests so far have one result each, except those that are pending. -/
structure Logbook (events : List Event) (handled : ℕ) (pending : List ℕ) : Prop
    extends Requests events handled where
  counted : ∀ n,resultsOf events n = if n < handled ∧ n ∉ pending then 1 else 0
  named : ∀ {n jobId src status outputSize},.result n jobId src status outputSize ∈ events →
    ∃ busy,HandledAs events n jobId src busy ∧ (status = .busy ↔ busy = true)
  cancelled : ∀ {before after n jobId src outputSize},
    events = before ++ .result n jobId src .cancelled outputSize :: after →
      CancelledIn before n jobId
  nodup : pending.Nodup
  pending_lt : ∀ n ∈ pending,n < handled

namespace Logbook

variable {events : List Event} {handled : ℕ} {pending : List ℕ}

theorem initial : Logbook [] 0 [] where
  numbers h := by obtain ⟨_,_,⟨⟩⟩ := h
  unique h := by obtain ⟨_,_,⟨⟩⟩ := h
  accepted h := by cases h
  counted n := by simp [resultsOf]
  named h := by cases h
  cancelled h := by simp at h
  nodup := List.nodup_nil
  pending_lt n h := by cases h

theorem neutral (h : Logbook events handled pending) {more : List Event}
    (hmore : ∀ e ∈ more,e.Neutral) : Logbook (events ++ more) handled pending where
  toRequests := h.toRequests.append fun _ _ _ _ _ _ hm => hmore _ hm
  counted n := by rw [resultsOf_append,resultsOf_neutral hmore,h.counted n,Nat.add_zero]
  named := by
    intro n jobId src status outputSize hm
    obtain ⟨busy,hhandled,hbusy⟩ :=
      h.named ((List.mem_append.mp hm).resolve_right fun hm => hmore _ hm)
    exact ⟨busy,hhandled.append more,hbusy⟩
  cancelled := by
    intro before after n jobId src outputSize hsplit
    obtain ⟨after',hevents⟩ | ⟨mid,hmid,-⟩ := split_append hsplit
    · exact h.cancelled hevents
    · refine (hmore (.result n jobId src .cancelled outputSize) ?_).elim
      rw [hmid]
      exact List.mem_append_right _ List.mem_cons_self
  nodup := h.nodup
  pending_lt := h.pending_lt

/-- The next request is handled. -/
theorem handle (h : Logbook events handled pending) (jobId : BitVec 32) (src : ObcRole)
    {busy epochOpen watched : Bool} (haccept : busy = false → epochOpen = false ∧ watched = false) :
    Logbook (events ++ [.handled handled jobId src busy epochOpen watched]) (handled+1)
      (handled :: pending) where
  toRequests := h.toRequests.handle jobId src haccept
  counted n := by
    have hzero : resultsOf [.handled handled jobId src busy epochOpen watched] n = 0 := rfl
    rw [resultsOf_append,hzero,Nat.add_zero,h.counted n]
    by_cases hn : n = handled
    · subst hn
      rw [if_neg (by simp),if_neg (by simp)]
    · simp only [List.mem_cons,not_or,hn,not_false_eq_true,true_and]
      congr 1
      have : n < handled ↔ n < handled+1 := by omega
      rw [this]
  named := by
    intro n jobId' src' status outputSize hm
    obtain hm | hm := List.mem_append.mp hm
    · obtain ⟨busy',hhandled,hbusy⟩ := h.named hm
      exact ⟨busy',hhandled.append _,hbusy⟩
    · cases List.mem_singleton.mp hm
  cancelled := by
    intro before after n jobId' src' outputSize hsplit
    obtain ⟨after',hevents⟩ | ⟨mid,hmid,-⟩ := split_append hsplit
    · exact h.cancelled hevents
    · rw [eq_comm,List.append_eq_singleton_iff] at hmid
      simp at hmid
  nodup := List.nodup_cons.mpr ⟨fun hm => absurd (h.pending_lt _ hm) (lt_irrefl _),h.nodup⟩
  pending_lt := by
    intro n hn
    rcases List.mem_cons.mp hn with rfl | hn
    · exact Nat.lt_succ_self _
    · exact Nat.lt_succ_of_lt (h.pending_lt n hn)

/-- The result of a pending request is sent. -/
theorem result (h : Logbook events handled pending) {number : ℕ} {jobId : BitVec 32}
    {src : ObcRole} {busy : Bool} {status : ComputeStatus} {outputSize : ℕ}
    {pending' : List ℕ} (hhandled : HandledAs events number jobId src busy)
    (hbusy : status = .busy ↔ busy = true)
    (hcancelled : status = .cancelled → CancelledIn events number jobId)
    (hpending : number ∈ pending) (hnodup : pending'.Nodup)
    (hmem : ∀ n,n ∈ pending' ↔ n ∈ pending ∧ n ≠ number) :
    Logbook (events ++ [.result number jobId src status outputSize]) handled pending' where
  toRequests := h.toRequests.append fun _ _ _ _ _ _ hm => by cases List.mem_singleton.mp hm
  counted n := by
    rw [resultsOf_append,h.counted n]
    by_cases hn : n = number
    · subst hn
      have hone : resultsOf [.result n jobId src status outputSize] n = 1 := by
        simp [resultsOf,Event.isResultOf]
      rw [hone,if_neg (by simp [hpending]),if_pos ⟨h.pending_lt n hpending,by simp [hmem]⟩]
    · have hzero : resultsOf [.result number jobId src status outputSize] n = 0 := by
        simp [resultsOf,Event.isResultOf,Ne.symm hn]
      have hsame : n ∈ pending' ↔ n ∈ pending := by simp [hmem,hn]
      rw [hzero,Nat.add_zero]
      simp only [hsame]
  named := by
    intro n jobId' src' status' outputSize' hm
    obtain hm | hm := List.mem_append.mp hm
    · obtain ⟨busy',hhandled',hbusy'⟩ := h.named hm
      exact ⟨busy',hhandled'.append _,hbusy'⟩
    · obtain ⟨⟩ := List.mem_singleton.mp hm
      exact ⟨busy,hhandled.append _,hbusy⟩
  cancelled := by
    intro before after n jobId' src' outputSize' hsplit
    obtain ⟨after',hevents⟩ | ⟨mid,hmid,hbefore⟩ := split_append hsplit
    · exact h.cancelled hevents
    · have hnil : mid = [] := by
        cases mid with
        | nil => rfl
        | cons first mid => simp at hmid
      subst hnil
      obtain ⟨⟩ := List.cons.inj hmid |>.1
      rw [hbefore,List.append_nil]
      exact hcancelled rfl
  nodup := hnodup
  pending_lt n hn := h.pending_lt n ((hmem n).mp hn).1

end Logbook

end FlightSoftware.Compute
