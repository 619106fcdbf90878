import FlightSoftware.Fdir.Watchdog

/-!
# One restart for each outage

What the watchdog does about a role is what a watch over this role alone would do
with the role's heartbeats, the times of the checks and the results of the role's
requests. Such a watch is latched as long as a delivered request has not been
followed by a check that found the role alive.
-/

namespace FlightSoftware.Fdir
open History Obc Run

/-! ### A watch over one role -/

/-- What a watch over one role gets to know. -/
inductive RoleInput where
  | started (time : Timespec)
  | heartbeat (time : Timespec)
  | check (now : Timespec)
  deriving DecidableEq

/-- What concerns one role, in the order in which it happens. -/
inductive RoleEvent where
  | started (time : Timespec)
  | heartbeat (time : Timespec)
  | checked (now : Timespec) (stale : Bool) (request : Option Request)
  deriving DecidableEq

def RoleEvent.input : RoleEvent → RoleInput
  | .started time => .started time
  | .heartbeat time => .heartbeat time
  | .checked now _ _ => .check now

structure RoleWatch where
  role : ObcRole
  watchdogStarted : Option Timespec
  lastHeartbeat : Option Timespec
  latched : Bool
  requests : ℕ
  deriving DecidableEq

def RoleWatch.initial (role : ObcRole) : RoleWatch := ⟨role,none,none,false,0⟩

/-- A check of the role, once the watch has started. `outcomes` tells what `IPC_send` returns for
each request. -/
def RoleWatch.check (outcomes : ℕ → ℤ) (w : RoleWatch) (watchdogStarted now : Timespec) :
    RoleWatch × RoleEvent :=
  let stale := roleIsStale w.lastHeartbeat watchdogStarted now
  if stale && !w.latched then
    let rc := outcomes w.requests
    ({ w with latched := decide (0 ≤ rc),requests := w.requests+1 },
      .checked now stale (some ⟨⟨supervisorCmdRestart,w.role.value⟩,rc⟩))
  else ({ w with latched := stale && w.latched },.checked now stale none)

def RoleWatch.feed (outcomes : ℕ → ℤ) (w : RoleWatch) : RoleInput → RoleWatch × RoleEvent
  | .started time => ({ w with watchdogStarted := some time },.started time)
  | .heartbeat time => ({ w with lastHeartbeat := some time },.heartbeat time)
  | .check now => w.check outcomes (w.watchdogStarted.getD now) now

/-- The watch after some inputs, and all that happened. -/
def RoleWatch.history (outcomes : ℕ → ℤ) (role : ObcRole) (inputs : List RoleInput) :
    RoleWatch × List RoleEvent :=
  inputs.foldl (fun done input =>
    ((done.1.feed outcomes input).1,done.2 ++ [(done.1.feed outcomes input).2]))
    (.initial role,[])

theorem RoleWatch.history_concat (outcomes : ℕ → ℤ) (role : ObcRole) (inputs : List RoleInput)
    (input : RoleInput) :
    RoleWatch.history outcomes role (inputs ++ [input]) =
      (((RoleWatch.history outcomes role inputs).1.feed outcomes input).1,
        (RoleWatch.history outcomes role inputs).2 ++
          [((RoleWatch.history outcomes role inputs).1.feed outcomes input).2]) := by
  rw [RoleWatch.history,List.foldl_append]
  rfl

/-! ### What a watch over one role does -/

def RoleEvent.isStart : RoleEvent → Prop
  | .started _ => True
  | _ => False

def RoleEvent.isHeartbeat : RoleEvent → Prop
  | .heartbeat _ => True
  | _ => False

/-- A check that found the role alive. -/
def RoleEvent.fresh : RoleEvent → Prop
  | .checked _ stale _ => stale = false
  | _ => False

/-- A check with a request that was delivered. -/
def RoleEvent.delivered : RoleEvent → Prop
  | .checked _ _ request => ∃ r ∈ request,0 ≤ r.rc
  | _ => False

/-- A check with a request that could not be delivered. -/
def RoleEvent.failed : RoleEvent → Prop
  | .checked _ _ request => ∃ r ∈ request,r.rc < 0
  | _ => False

/-- The deadline is counted from the last heartbeat, and from the start as long as there is
none. -/
def CountsFrom (past : List RoleEvent) (time : Timespec) : Prop :=
  Since (· = .heartbeat time) RoleEvent.isHeartbeat past ∨
    (∀ e ∈ past,¬ e.isHeartbeat) ∧ Since (· = .started time) RoleEvent.isStart past

/-- The role has missed its deadline. -/
def Late (past : List RoleEvent) (now : Timespec) : Prop :=
  ∃ time,CountsFrom past time ∧ Timespec.seconds roleHeartbeatTimeoutSec < now.since time

/-- What a check of a role finds and does, after what has happened before. -/
structure Handled (role : ObcRole) (past : List RoleEvent) (now : Timespec) (stale : Bool)
    (request : Option Request) : Prop where
  stale_iff : stale = true ↔ Late past now
  message : ∀ r ∈ request,r.message = ⟨supervisorCmdRestart,role.value⟩
  only_stale : request.isSome → stale = true
  /-- Between two deliveries the role was found alive. -/
  once : (∃ r ∈ request,0 ≤ r.rc) → ¬ Since RoleEvent.delivered RoleEvent.fresh past
  /-- A failed request is repeated until one is delivered. -/
  retried : stale = true → Since RoleEvent.failed RoleEvent.delivered past → request.isSome
  /-- A role that was alive is armed again. -/
  armed : stale = true → Since RoleEvent.fresh RoleEvent.delivered past → request.isSome
  /-- So is a role for which nothing was requested yet. -/
  first : stale = true → (∀ e ∈ past,¬ e.delivered) → request.isSome

def outageLaw (role : ObcRole) (past : List RoleEvent) : RoleEvent → Prop
  | .checked now stale request => Handled role past now stale request
  | _ => True

/-- The latch after what has happened. -/
structure Latch (latched : Bool) (past : List RoleEvent) : Prop where
  still_open : latched = false → ¬ Since RoleEvent.delivered RoleEvent.fresh past
  delivered : latched = true → ∃ e ∈ past,e.delivered
  not_failed : latched = true → ¬ Since RoleEvent.failed RoleEvent.delivered past
  not_fresh : latched = true → ¬ Since RoleEvent.fresh RoleEvent.delivered past

/-- The times that a watch keeps. -/
structure Times (watchdogStarted lastHeartbeat : Option Timespec) (past : List RoleEvent) :
    Prop where
  started : ∀ time,watchdogStarted = some time →
    Since (· = .started time) RoleEvent.isStart past
  not_started : watchdogStarted = none → ∀ e ∈ past,¬ e.isStart
  heartbeat : ∀ time,lastHeartbeat = some time →
    Since (· = .heartbeat time) RoleEvent.isHeartbeat past
  no_heartbeat : lastHeartbeat = none → ∀ e ∈ past,¬ e.isHeartbeat

/-- How a watch stands after what has happened. -/
structure RoleWatch.Follows (w : RoleWatch) (past : List RoleEvent) : Prop where
  obeys : Obeys (outageLaw w.role) past
  times : Times w.watchdogStarted w.lastHeartbeat past
  latch : Latch w.latched past

theorem roleWatch_initial_follows (role : ObcRole) : (RoleWatch.initial role).Follows [] where
  obeys := obeys_nil
  times := by constructor <;> simp [RoleWatch.initial]
  latch := by constructor <;> simp [RoleWatch.initial,not_since_nil]

/-- The deadline is counted from one time only. -/
theorem CountsFrom.unique {past : List RoleEvent} {s t : Timespec} (hs : CountsFrom past s)
    (ht : CountsFrom past t) : s = t := by
  rcases hs with hs | ⟨hnone,hs⟩
  · rcases ht with ht | ⟨hnone,-⟩
    · cases hs.latest_unique ht trivial trivial
      rfl
    · obtain ⟨e,he,rfl⟩ := hs.exists_mem
      exact absurd trivial (hnone _ he)
  · rcases ht with ht | ⟨-,ht⟩
    · obtain ⟨e,he,rfl⟩ := ht.exists_mem
      exact absurd trivial (hnone _ he)
    · cases hs.latest_unique ht trivial trivial
      rfl

theorem late_iff {past : List RoleEvent} {time : Timespec} (h : CountsFrom past time)
    (now : Timespec) :
    Late past now ↔ Timespec.seconds roleHeartbeatTimeoutSec < now.since time := by
  constructor
  · rintro ⟨other,hother,hlong⟩
    rwa [hother.unique h] at hlong
  · intro hlong
    exact ⟨time,h,hlong⟩

section
variable {past : List RoleEvent} {watchdogStarted lastHeartbeat : Option Timespec}

/-- A watch finds a role stale when the role has missed its deadline. -/
theorem Times.stale_iff (h : Times watchdogStarted lastHeartbeat past) (now : Timespec) :
    roleIsStale lastHeartbeat (watchdogStarted.getD now) now = true ↔ Late past now := by
  cases lastHeartbeat with
  | some time => rw [late_iff (.inl (h.heartbeat time rfl)),roleIsStale,decide_eq_true_iff]
  | none =>
    have hnone := h.no_heartbeat rfl
    cases watchdogStarted with
    | some time =>
      rw [late_iff (.inr ⟨hnone,h.started time rfl⟩),roleIsStale,decide_eq_true_iff]
      rfl
    | none =>
      simp only [roleIsStale,Option.getD_none,Timespec.since_self,decide_eq_true_eq]
      constructor
      · intro hlong
        exact absurd hlong (by decide)
      · rintro ⟨time,hfrom | ⟨-,hfrom⟩,-⟩
        · obtain ⟨e,he,rfl⟩ := hfrom.exists_mem
          exact absurd trivial (hnone _ he)
        · obtain ⟨e,he,rfl⟩ := hfrom.exists_mem
          exact absurd trivial (h.not_started rfl _ he)

theorem forall_mem_concat_not {p : RoleEvent → Prop} {e : RoleEvent} (h : ∀ e ∈ past,¬ p e)
    (he : ¬ p e) : ∀ e' ∈ past ++ [e],¬ p e' := by
  intro e' hmem
  rcases List.mem_append.mp hmem with hmem | hmem
  · exact h e' hmem
  · rwa [List.mem_singleton.mp hmem]

/-- What is no start and no heartbeat changes no time. -/
theorem Times.concat (h : Times watchdogStarted lastHeartbeat past) {e : RoleEvent}
    (hstart : ¬ e.isStart) (hheartbeat : ¬ e.isHeartbeat) :
    Times watchdogStarted lastHeartbeat (past ++ [e]) where
  started := fun time htime => (h.started time htime).concat hstart
  not_started := fun hnone => forall_mem_concat_not (h.not_started hnone) hstart
  heartbeat := fun time htime => (h.heartbeat time htime).concat hheartbeat
  no_heartbeat := fun hnone => forall_mem_concat_not (h.no_heartbeat hnone) hheartbeat

theorem Times.start (h : Times watchdogStarted lastHeartbeat past) (time : Timespec) :
    Times (some time) lastHeartbeat (past ++ [.started time]) where
  started := by
    intro _ htime
    cases htime
    exact since_concat_self rfl
  not_started := nofun
  heartbeat := fun time htime => (h.heartbeat time htime).concat id
  no_heartbeat := fun hnone => forall_mem_concat_not (h.no_heartbeat hnone) id

theorem Times.beat (h : Times watchdogStarted lastHeartbeat past) (time : Timespec) :
    Times watchdogStarted (some time) (past ++ [.heartbeat time]) where
  started := fun time htime => (h.started time htime).concat id
  not_started := fun hnone => forall_mem_concat_not (h.not_started hnone) id
  heartbeat := by
    intro _ htime
    cases htime
    exact since_concat_self rfl
  no_heartbeat := nofun

/-- What is no check does not change the latch. -/
theorem Latch.concat {latched : Bool} (h : Latch latched past) {e : RoleEvent}
    (hdelivered : ¬ e.delivered) (hfresh : ¬ e.fresh) (hfailed : ¬ e.failed) :
    Latch latched (past ++ [e]) := by
  refine ⟨fun hopen hs => ?_,fun hlatched => ?_,fun hlatched hs => ?_,fun hlatched hs => ?_⟩
  · exact h.still_open hopen ((since_concat.mp hs).resolve_left hdelivered).2
  · obtain ⟨e',hmem,he'⟩ := h.delivered hlatched
    exact ⟨e',List.mem_append_left _ hmem,he'⟩
  · exact h.not_failed hlatched ((since_concat.mp hs).resolve_left hfailed).2
  · exact h.not_fresh hlatched ((since_concat.mp hs).resolve_left hfresh).2

/-- A request latches if it is delivered. -/
theorem Latch.request {latched : Bool} (h : Latch latched past) (hopen : latched = false)
    (now : Timespec) (r : Request) :
    Latch (decide (0 ≤ r.rc)) (past ++ [.checked now true (some r)]) := by
  have hdelivered : 0 ≤ r.rc → (RoleEvent.checked now true (some r)).delivered := fun hrc =>
    ⟨r,rfl,hrc⟩
  refine ⟨fun hneg hs => ?_,fun hrc => ?_,fun hrc hs => ?_,fun hrc hs => ?_⟩
  · rcases since_concat.mp hs with ⟨r',hr,hrc⟩ | ⟨-,hs⟩
    · cases hr
      simp [hrc] at hneg
    · exact h.still_open hopen hs
  · exact ⟨_,List.mem_append_right _ (List.mem_singleton_self _),hdelivered (by simpa using hrc)⟩
  · rcases since_concat.mp hs with ⟨r',hr,hneg⟩ | ⟨hnot,-⟩
    · cases hr
      simp only [decide_eq_true_eq] at hrc
      omega
    · exact hnot (hdelivered (by simpa using hrc))
  · rcases since_concat.mp hs with hfresh | ⟨hnot,-⟩
    · cases hfresh
    · exact hnot (hdelivered (by simpa using hrc))

/-- A check without a request opens the latch if the role is alive. -/
theorem Latch.quiet {latched stale : Bool} (h : Latch latched past)
    (hlatched : stale = true → latched = true) (now : Timespec) :
    Latch (stale && latched) (past ++ [.checked now stale none]) := by
  have hdelivered : ¬ (RoleEvent.checked now stale none).delivered := by
    rintro ⟨r,hr,-⟩
    cases hr
  cases stale with
  | true =>
    rw [Bool.true_and]
    refine h.concat hdelivered (fun hfresh => nomatch hfresh) ?_
    rintro ⟨r,hr,-⟩
    cases hr
  | false =>
    refine ⟨fun _ hs => ?_,nofun,nofun,nofun⟩
    rcases since_concat.mp hs with hd | ⟨hfresh,-⟩
    · exact hdelivered hd
    · exact hfresh rfl

end

/-- Every input makes the watch do what the law of outages says. -/
theorem RoleWatch.Follows.feed {w : RoleWatch} {past : List RoleEvent} (h : w.Follows past)
    (outcomes : ℕ → ℤ) (input : RoleInput) :
    (w.feed outcomes input).1.Follows (past ++ [(w.feed outcomes input).2]) := by
  cases input with
  | started time =>
    exact ⟨obeys_concat.mpr ⟨h.obeys,trivial⟩,h.times.start time,h.latch.concat id id id⟩
  | heartbeat time =>
    exact ⟨obeys_concat.mpr ⟨h.obeys,trivial⟩,h.times.beat time,h.latch.concat id id id⟩
  | check now =>
    have hstale := h.times.stale_iff now
    rw [RoleWatch.feed,RoleWatch.check]
    generalize roleIsStale w.lastHeartbeat (w.watchdogStarted.getD now) now = stale at hstale ⊢
    dsimp only
    split
    · next hattempt =>
      rw [Bool.and_eq_true,Bool.not_eq_true'] at hattempt
      obtain ⟨rfl,hopen⟩ := hattempt
      refine ⟨obeys_concat.mpr ⟨h.obeys,hstale,?_,?_,?_,?_,?_,?_⟩,h.times.concat id id,
        h.latch.request hopen now ⟨⟨supervisorCmdRestart,w.role.value⟩,outcomes w.requests⟩⟩
      · simp
      · simp
      · exact fun _ => h.latch.still_open hopen
      · simp
      · simp
      · simp
    · next hquiet =>
      have hlatched : stale = true → w.latched = true := by
        intro hs
        rw [hs] at hquiet
        simpa using hquiet
      refine ⟨obeys_concat.mpr ⟨h.obeys,hstale,?_,?_,?_,?_,?_,?_⟩,h.times.concat id id,
        h.latch.quiet hlatched now⟩
      · simp
      · simp
      · simp
      · exact fun hs hfailed => absurd hfailed (h.latch.not_failed (hlatched hs))
      · exact fun hs hfresh => absurd hfresh (h.latch.not_fresh (hlatched hs))
      · intro hs hnone
        obtain ⟨e,he,hd⟩ := h.latch.delivered (hlatched hs)
        exact absurd hd (hnone e he)

theorem RoleWatch.history_follows (outcomes : ℕ → ℤ) (role : ObcRole) (inputs : List RoleInput) :
    (RoleWatch.history outcomes role inputs).1.Follows
      (RoleWatch.history outcomes role inputs).2 := by
  induction inputs using List.reverseRecOn with
  | nil => exact roleWatch_initial_follows role
  | append_singleton inputs input ih =>
    rw [RoleWatch.history_concat]
    exact ih.feed outcomes input

theorem RoleWatch.history_role (outcomes : ℕ → ℤ) (role : ObcRole) (inputs : List RoleInput) :
    (RoleWatch.history outcomes role inputs).1.role = role := by
  induction inputs using List.reverseRecOn with
  | nil => rfl
  | append_singleton inputs input ih =>
    rw [RoleWatch.history_concat]
    cases input with
    | started time => exact ih
    | heartbeat time => exact ih
    | check now =>
      rw [RoleWatch.feed,RoleWatch.check]
      dsimp only
      split <;> exact ih

theorem RoleWatch.feed_input (outcomes : ℕ → ℤ) (w : RoleWatch) (input : RoleInput) :
    (w.feed outcomes input).2.input = input := by
  cases input with
  | started time => rfl
  | heartbeat time => rfl
  | check now =>
    rw [RoleWatch.feed,RoleWatch.check]
    dsimp only
    split <;> rfl

/-! ### The watchdog is a watch over each role -/

/-- What concerns a role, if the event does. -/
def FdirEvent.ofRole (role : ObcRole) : FdirEvent → Option RoleEvent
  | .started time => some (.started time)
  | .heartbeat other time => if other = role then some (.heartbeat time) else none
  | .ticked _ => none
  | .checked other now stale request =>
    if other = role then some (.checked now stale request) else none

def historyOf (role : ObcRole) (log : List FdirEvent) : List RoleEvent :=
  log.filterMap (FdirEvent.ofRole role)

def inputsOf (role : ObcRole) (log : List FdirEvent) : List RoleInput :=
  (historyOf role log).map RoleEvent.input

/-- What the watchdog keeps about a role. -/
def Watchdog.watch (s : Watchdog) (role : ObcRole) : RoleWatch :=
  ⟨role,s.watchdogStarted,s.lastHeartbeat role,s.faultLatched role,s.requests role⟩

/-- The step leaves the role alone, or feeds its watch. -/
def Watches (channel : ObcRole → ℕ → ℤ) (role : ObcRole) (s s' : Watchdog) : Prop :=
  (s'.watch role = s.watch role ∧ historyOf role s'.log = historyOf role s.log) ∨
    ∃ input,s'.watch role = ((s.watch role).feed (channel role) input).1 ∧
      historyOf role s'.log =
        historyOf role s.log ++ [((s.watch role).feed (channel role) input).2]

theorem historyOf_concat (role : ObcRole) (log : List FdirEvent) (e : FdirEvent) :
    historyOf role (log ++ [e]) = historyOf role log ++ (e.ofRole role).toList := by
  rw [historyOf,List.filterMap_append]
  cases h : e.ofRole role <;> simp [historyOf,h]

theorem check_watches (channel : ObcRole → ℕ → ℤ) (s : Watchdog) (role other : ObcRole)
    {watchdogStarted : Timespec} (hstarted : s.watchdogStarted = some watchdogStarted)
    (now : Timespec) : Watches channel other s (s.check channel role watchdogStarted now) := by
  by_cases hrole : role = other
  · subst hrole
    refine .inr ⟨.check now,?_⟩
    have hzero := fallbackHandleFault_eq_zero_iff ⟨role,.unresponsive⟩
      (channel role (s.requests role))
    rw [Watchdog.check,RoleWatch.feed,RoleWatch.check]
    simp only [Watchdog.watch,hstarted,Option.getD_some]
    generalize roleIsStale (s.lastHeartbeat role) watchdogStarted now = stale
    split
    · next hattempt =>
      simp only [Bool.and_eq_true,Bool.not_eq_true'] at hattempt
      refine ⟨?_,by simp [historyOf_concat,FdirEvent.ofRole]; rfl⟩
      simp only [hzero,RoleWatch.mk.injEq,Function.update_self,true_and,and_true]
      split
      · next hrc => simp [hrc]
      · next hrc => simp [hrc,hattempt.2]
    · refine ⟨?_,by simp [historyOf_concat,FdirEvent.ofRole]⟩
      simp only [RoleWatch.mk.injEq,true_and,and_true]
      cases stale <;> cases hlatched : s.faultLatched role <;> simp [hlatched]
  · refine .inl ?_
    rw [Watchdog.check]
    simp only [Watchdog.watch]
    split
    · refine ⟨?_,by simp [historyOf_concat,FdirEvent.ofRole,hrole]⟩
      simp only [RoleWatch.mk.injEq,true_and]
      split <;> simp [Function.update_of_ne (Ne.symm hrole)]
    · refine ⟨?_,by simp [historyOf_concat,FdirEvent.ofRole,hrole]⟩
      simp only [RoleWatch.mk.injEq,true_and,and_true]
      split <;> simp [Function.update_of_ne (Ne.symm hrole)]

theorem step_watches {channel : ObcRole → ℕ → ℤ} {s s' : Watchdog} {a : WatchdogAction}
    (hstep : s.step channel a = some s') (role : ObcRole) : Watches channel role s s' := by
  cases a with
  | receive other now =>
    simp only [Watchdog.step,Option.ite_none_right_eq_some] at hstep
    obtain ⟨-,heq⟩ := hstep
    cases heq
    exact .inl ⟨rfl,rfl⟩
  | record =>
    simp only [Watchdog.step] at hstep
    split at hstep
    · next other time hstamped =>
      cases hstep
      by_cases hrole : other = role
      · subst hrole
        refine .inr ⟨.heartbeat time,?_,?_⟩
        · simp [Watchdog.watch,RoleWatch.feed]
        · simp [historyOf_concat,FdirEvent.ofRole,RoleWatch.feed]
      · refine .inl ⟨?_,?_⟩
        · simp [Watchdog.watch,Function.update_of_ne (Ne.symm hrole)]
        · simp [historyOf_concat,FdirEvent.ofRole,hrole]
    · cases hstep
  | start now =>
    simp only [Watchdog.step,Option.ite_none_right_eq_some] at hstep
    obtain ⟨-,heq⟩ := hstep
    cases heq
    exact .inr ⟨.started now,rfl,by simp [historyOf_concat,FdirEvent.ofRole,RoleWatch.feed]⟩
  | tick now =>
    simp only [Watchdog.step,Option.ite_none_right_eq_some] at hstep
    obtain ⟨-,heq⟩ := hstep
    cases heq
    exact .inl ⟨rfl,by simp [historyOf_concat,FdirEvent.ofRole]⟩
  | check =>
    simp only [Watchdog.step] at hstep
    split at hstep
    · next watchdogStarted now other roles hstarted htick =>
      cases hstep
      exact check_watches channel { s with tick := some (now,roles) } other role hstarted now
    · cases hstep
  | sleep =>
    simp only [Watchdog.step] at hstep
    split at hstep
    · cases hstep
      exact .inl ⟨rfl,rfl⟩
    · cases hstep

/-- What the watchdog has done about a role is what a watch over this role alone would have
done. -/
theorem run_watches {channel : ObcRole → ℕ → ℤ} {clock : Timespec} {as : List WatchdogAction}
    {s : Watchdog} (hrun : run (Watchdog.step channel) (.initial clock) as = some s)
    (role : ObcRole) :
    RoleWatch.history (channel role) role (inputsOf role s.log) =
      (s.watch role,historyOf role s.log) := by
  refine run_invariant (I := fun s => RoleWatch.history (channel role) role
    (inputsOf role s.log) = (s.watch role,historyOf role s.log)) ?_ rfl hrun
  intro s a s' hs hstep
  rcases step_watches hstep role with ⟨hwatch,hhistory⟩ | ⟨input,hwatch,hhistory⟩
  · rw [inputsOf] at hs ⊢
    rw [hwatch,hhistory,hs]
  · rw [inputsOf] at hs ⊢
    rw [hwatch,hhistory,List.map_append,List.map_singleton,RoleWatch.feed_input,
      RoleWatch.history_concat,hs]

/-! ### Every tick checks every role -/

def tickTimes (log : List FdirEvent) : List Timespec :=
  log.filterMap fun
    | .ticked now => some now
    | _ => none

def checkTimes (role : ObcRole) (log : List FdirEvent) : List Timespec :=
  log.filterMap fun
    | .checked other now _ _ => if other = role then some now else none
    | _ => none

/-- The tick in progress, if it is still to check the role. -/
def Watchdog.due (s : Watchdog) (role : ObcRole) : List Timespec :=
  match s.tick with
  | some (now,roles) => if role ∈ roles then [now] else []
  | none => []

/-- The role has been checked in each tick, up to the one in progress, which checks each of the
roles that are left once. -/
structure Watchdog.InStep (s : Watchdog) (role : ObcRole) : Prop where
  times : checkTimes role s.log ++ s.due role = tickTimes s.log
  nodup : ∀ now roles,s.tick = some (now,roles) → roles.Nodup

theorem tickTimes_concat (log : List FdirEvent) (e : FdirEvent) :
    tickTimes (log ++ [e]) = tickTimes log ++ tickTimes [e] := List.filterMap_append

theorem checkTimes_concat (role : ObcRole) (log : List FdirEvent) (e : FdirEvent) :
    checkTimes role (log ++ [e]) = checkTimes role log ++ checkTimes role [e] :=
  List.filterMap_append

/-- An event that is neither a tick nor a check of the role changes nothing. -/
theorem Watchdog.InStep.logged {s s' : Watchdog} {role : ObcRole} {e : FdirEvent}
    (h : s.InStep role) (htick : s'.tick = s.tick) (hlog : s'.log = s.log ++ [e])
    (hquiet : tickTimes [e] = [] ∧ checkTimes role [e] = []) : s'.InStep role := by
  refine ⟨?_,htick ▸ h.nodup⟩
  rw [hlog,tickTimes_concat,checkTimes_concat,hquiet.1,hquiet.2,List.append_nil,List.append_nil,
    Watchdog.due,htick]
  exact h.times

theorem check_log (channel : ObcRole → ℕ → ℤ) (s : Watchdog) (role : ObcRole)
    (watchdogStarted now : Timespec) :
    (s.check channel role watchdogStarted now).tick = s.tick ∧ ∃ stale request,
      (s.check channel role watchdogStarted now).log =
        s.log ++ [.checked role now stale request] := by
  rw [Watchdog.check]
  dsimp only
  split
  · exact ⟨rfl,_,_,rfl⟩
  · exact ⟨rfl,_,_,rfl⟩

theorem step_inStep {channel : ObcRole → ℕ → ℤ} {s s' : Watchdog} {a : WatchdogAction}
    {role : ObcRole} (hrole : role ∈ monitoredRoles) (h : s.InStep role)
    (hstep : s.step channel a = some s') : s'.InStep role := by
  cases a with
  | receive other now =>
    simp only [Watchdog.step,Option.ite_none_right_eq_some] at hstep
    obtain ⟨-,heq⟩ := hstep
    cases heq
    exact ⟨h.times,h.nodup⟩
  | record =>
    simp only [Watchdog.step] at hstep
    split at hstep
    · cases hstep
      exact h.logged rfl rfl ⟨rfl,rfl⟩
    · cases hstep
  | start now =>
    simp only [Watchdog.step,Option.ite_none_right_eq_some] at hstep
    obtain ⟨-,heq⟩ := hstep
    cases heq
    exact h.logged rfl rfl ⟨rfl,rfl⟩
  | tick now =>
    simp only [Watchdog.step,Option.ite_none_right_eq_some] at hstep
    obtain ⟨⟨-,htick,-⟩,heq⟩ := hstep
    cases heq
    refine ⟨?_,?_⟩
    · have htimes := h.times
      have hticked : tickTimes [.ticked now] = [now] := rfl
      have hcheck : checkTimes role [.ticked now] = [] := rfl
      rw [Watchdog.due,htick] at htimes
      rw [Watchdog.due,tickTimes_concat,checkTimes_concat,← htimes,hticked,hcheck]
      dsimp only
      rw [if_pos hrole,List.append_nil]
    · intro _ _ htick'
      cases htick'
      decide
  | check =>
    simp only [Watchdog.step] at hstep
    split at hstep
    · next watchdogStarted now other roles hstarted htick =>
      cases hstep
      obtain ⟨htick',stale,request,hlog⟩ := check_log channel
        { s with tick := some (now,roles) } other watchdogStarted now
      have hnodup := List.nodup_cons.mp (h.nodup now (other :: roles) htick)
      refine ⟨?_,?_⟩
      · have htimes := h.times
        have hchecked : tickTimes [.checked other now stale request] = [] := rfl
        rw [Watchdog.due,htick] at htimes
        rw [Watchdog.due,htick',hlog,tickTimes_concat,checkTimes_concat,← htimes,hchecked,
          List.append_nil,List.append_assoc]
        congr 1
        dsimp only
        by_cases heq : other = role
        · have hcheck : checkTimes role [.checked other now stale request] = [now] := by
            simp [checkTimes,heq]
          rw [hcheck,if_neg (heq ▸ hnodup.1),if_pos (heq ▸ List.mem_cons_self),List.append_nil]
        · have hcheck : checkTimes role [.checked other now stale request] = [] := by
            simp [checkTimes,heq]
          simp [hcheck,Ne.symm heq]
      · intro now' roles' hroles
        rw [htick'] at hroles
        cases hroles
        exact hnodup.2
    · cases hstep
  | sleep =>
    simp only [Watchdog.step] at hstep
    split at hstep
    · next now htick =>
      cases hstep
      refine ⟨?_,nofun⟩
      have htimes := h.times
      simp only [Watchdog.due,htick] at htimes
      simpa [Watchdog.due] using htimes
    · cases hstep

/-! ### The restarts of a run -/

/-- What a run of the watchdog does about a role. -/
structure RestartsOnce (channel : ObcRole → ℕ → ℤ) (role : ObcRole) (s : Watchdog) : Prop where
  /-- Every tick checks the role, and every check obeys the law of outages. -/
  ticks : checkTimes role s.log ++ s.due role = tickTimes s.log
  checks : Obeys (outageLaw role) (historyOf role s.log)
  /-- Another run in which the role's own heartbeats, ticks and results are the same does the
  same about the role. -/
  own : ∀ (channel' : ObcRole → ℕ → ℤ) (clock' : Timespec) (as' : List WatchdogAction)
    (s' : Watchdog),run (Watchdog.step channel') (.initial clock') as' = some s' →
      channel' role = channel role → inputsOf role s'.log = inputsOf role s.log →
        historyOf role s'.log = historyOf role s.log

/-- In every run each monitored role gets one restart for each outage, and its requests depend
on nothing but its own heartbeats and results. -/
theorem restarts_once {channel : ObcRole → ℕ → ℤ} {clock : Timespec} {as : List WatchdogAction}
    {s : Watchdog} (hrun : run (Watchdog.step channel) (.initial clock) as = some s)
    {role : ObcRole} (hrole : role ∈ monitoredRoles) : RestartsOnce channel role s := by
  have hwatch := run_watches hrun role
  refine ⟨?_,?_,fun channel' clock' as' s' hrun' hchannel hinputs => ?_⟩
  · have hinitial : (Watchdog.initial clock).InStep role := by
      refine ⟨rfl,?_⟩
      intro now roles htick
      cases htick
    exact (run_invariant (I := fun s => Watchdog.InStep s role)
      (fun _ _ _ h hstep => step_inStep hrole h hstep) hinitial hrun).times
  · have hfollows := (RoleWatch.history_follows (channel role) role (inputsOf role s.log)).obeys
    rwa [RoleWatch.history_role,hwatch] at hfollows
  · have hwatch' := run_watches hrun' role
    rw [hchannel,hinputs,hwatch] at hwatch'
    exact (congrArg Prod.snd hwatch').symm

/-- The first request for Data fails, the second is delivered, and a heartbeat ends the outage. -/
def dataOutage : List WatchdogAction :=
  [.start (.ofSeconds 0),.receive .data (.ofSeconds 1),.record,.tick (.ofSeconds 7),.check,.check,
    .check,.check,.check,.sleep,.tick (.ofSeconds 8),.check,.check,.check,
    .receive .data (.ofSeconds 9),.record,.check,.check,.sleep,.tick (.ofSeconds 9),.check,.check,
    .check]

theorem data_outage_restarts_once : ∃ s,
    run (Watchdog.step fun _ k => if k = 0 then -1 else 2) (.initial (.ofSeconds 0)) dataOutage =
      some s ∧
    historyOf .data s.log =
      [.started (.ofSeconds 0),.heartbeat (.ofSeconds 1),
        .checked (.ofSeconds 7) true (some ⟨⟨2#8,3#8⟩,-1⟩),
        .checked (.ofSeconds 8) true (some ⟨⟨2#8,3#8⟩,2⟩),.heartbeat (.ofSeconds 9),
        .checked (.ofSeconds 9) false none] ∧
    RestartsOnce (fun _ k => if k = 0 then -1 else 2) .data s := by
  have hrun : (run (Watchdog.step fun _ k => if k = 0 then -1 else 2) (.initial (.ofSeconds 0))
      dataOutage).map (fun s => historyOf .data s.log) = some
        [.started (.ofSeconds 0),.heartbeat (.ofSeconds 1),
          .checked (.ofSeconds 7) true (some ⟨⟨2#8,3#8⟩,-1⟩),
          .checked (.ofSeconds 8) true (some ⟨⟨2#8,3#8⟩,2⟩),.heartbeat (.ofSeconds 9),
          .checked (.ofSeconds 9) false none] := by
    decide +kernel
  obtain ⟨s,hs,hhistory⟩ := Option.map_eq_some_iff.mp hrun
  exact ⟨s,hs,hhistory,restarts_once hs (by decide)⟩

end FlightSoftware.Fdir
