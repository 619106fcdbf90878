import FlightSoftware.Lib.History
import FlightSoftware.Lib.Run
import FlightSoftware.Mission.Scheduler

/-!
# The order of a photo cycle

What the scheduler's history of processes obeys: attempts come in the order of the
cycle, none is repeated too often, and a rest lies between two cycles. The state
file always holds a phase that a next process may resume with, and the running
process is at most one transition ahead of it.
-/

namespace FlightSoftware.Mission
open History Run

/-- Some iteration saw the wall clock at the end of the ascent. -/
def SawAscent (log : List MissionEvent) : Prop :=
  ∃ now elapsed ascentWait,.iterated now elapsed ascentWait ∈ log ∧ ascentWait ≤ elapsed

/-- The attempts in a row, up to a success, the end of the cycle or the end of the process. -/
def MissionEvent.tally (attempts : ℕ) : MissionEvent → ℕ
  | .attempted _ => attempts+1
  | .finished _ result => if result = 0 then 0 else attempts
  | .cooldown _ | .started => 0
  | .iterated _ _ _ | .abandoned _ => attempts

def attemptsInRow (log : List MissionEvent) : ℕ := log.foldl MissionEvent.tally 0

/-- What ends a cycle: a successful downlink, giving up on the compression or the downlink, and
cooldown in the state file. -/
def MissionEvent.endsCycle : MissionEvent → Bool
  | .finished .downlinkPhoto result => result == 0
  | .abandoned op => op != .takePhoto
  | .cooldown _ => true
  | _ => false

/-- A cooldown and, in the same process, an iteration at least 600 s later. -/
def Rested (log : List MissionEvent) : Prop :=
  ∃ (before : List MissionEvent) (start : Timespec) (between : List MissionEvent)
      (now : Timespec) (elapsed ascentWait : ℤ) (after : List MissionEvent),
    log = before ++ .cooldown start :: between ++ .iterated now elapsed ascentWait :: after ∧
      .started ∉ between ∧ Timespec.seconds cooldownSec ≤ now.since start

/-- No end of a cycle that has not been followed by a rest. -/
def Settled (log : List MissionEvent) : Prop :=
  ∀ past e rest,log = past ++ e :: rest → e.endsCycle = true → Rested (e :: rest)

/-- What must have come before an attempt. -/
def cycleLaw (past : List MissionEvent) : MissionEvent → Prop
  | .attempted op =>
    attemptsInRow past < stepRetryLimit ∧
      match op with
      | .takePhoto => SawAscent past ∧ Settled past
      | .compressPhoto => Since (· = .finished .takePhoto 0) (· = .attempted .takePhoto) past
      | .downlinkPhoto => Since (· = .finished .compressPhoto 0) (· = .attempted .takePhoto) past
  | _ => True

/-! ### What a phase needs -/

/-- What must have come before a process may be in a phase. -/
def Fits (log : List MissionEvent) : MissionState → Prop
  | .waitingForAscent => ∀ e ∈ log,e.endsCycle = false
  | .takingPhoto => SawAscent log ∧ Settled log
  | .compressing =>
    SawAscent log ∧ Since (· = .finished .takePhoto 0) (· = .attempted .takePhoto) log
  | .downlinking =>
    SawAscent log ∧ Since (· = .finished .compressPhoto 0) (· = .attempted .takePhoto) log
  | .cooldown => SawAscent log

theorem SawAscent.append {log events : List MissionEvent} (h : SawAscent log) :
    SawAscent (log ++ events) := by
  obtain ⟨now,elapsed,ascentWait,hmem,hle⟩ := h
  exact ⟨now,elapsed,ascentWait,List.mem_append_left _ hmem,hle⟩

theorem Rested.append {log : List MissionEvent} (h : Rested log) (events : List MissionEvent) :
    Rested (log ++ events) := by
  obtain ⟨before,start,between,now,elapsed,ascentWait,after,rfl,hsame,hlong⟩ := h
  exact ⟨before,start,between,now,elapsed,ascentWait,after ++ events,by simp,hsame,hlong⟩

theorem Settled.concat {log : List MissionEvent} (h : Settled log) {x : MissionEvent}
    (hx : x.endsCycle = false) : Settled (log ++ [x]) := by
  intro past e rest heq he
  rcases concat_eq_append_cons heq with ⟨-,rfl,-⟩ | ⟨rest',rfl,hlog⟩
  · rw [hx] at he
    cases he
  · exact (h past e rest' hlog he).append [x]

theorem settled_of_no_end {log : List MissionEvent} (h : ∀ e ∈ log,e.endsCycle = false) :
    Settled log := by
  rintro past e rest rfl he
  rw [h e (by simp)] at he
  cases he

/-- An event that ends no cycle and attempts no photo changes nothing for any phase. -/
theorem Fits.concat {log : List MissionEvent} {state : MissionState} (h : Fits log state)
    {x : MissionEvent}
    (hend : x.endsCycle = true → state ≠ .waitingForAscent ∧ state ≠ .takingPhoto)
    (htake : x = .attempted .takePhoto → state ≠ .compressing ∧ state ≠ .downlinking) :
    Fits (log ++ [x]) state := by
  have hquiet : state = .waitingForAscent ∨ state = .takingPhoto → x.endsCycle = false := by
    intro hstate
    by_contra hx
    have hne := hend (by simpa using hx)
    tauto
  cases state with
  | waitingForAscent =>
    intro e he
    rcases List.mem_append.mp he with he | he
    · exact h e he
    · rw [List.mem_singleton.mp he]
      exact hquiet (.inl rfl)
  | takingPhoto => exact ⟨h.1.append,h.2.concat (hquiet (.inr rfl))⟩
  | compressing => exact ⟨h.1.append,h.2.concat fun hx => (htake hx).1 rfl⟩
  | downlinking => exact ⟨h.1.append,h.2.concat fun hx => (htake hx).2 rfl⟩
  | cooldown => exact SawAscent.append h

/-- The cooldown of the running process: it has not been restarted and no cycle has ended since. -/
def CoolingSince (start : Timespec) (log : List MissionEvent) : Prop :=
  Since (· = .cooldown start) (fun e => e = .started ∨ e.endsCycle = true) log

/-- The iteration that sees the end of a cooldown settles all cycles. -/
theorem CoolingSince.settled {start now : Timespec} {log : List MissionEvent}
    (h : CoolingSince start log) (hlong : Timespec.seconds cooldownSec ≤ now.since start)
    (elapsed ascentWait : ℤ) : Settled (log ++ [.iterated now elapsed ascentWait]) := by
  intro past e rest heq he
  rcases concat_eq_append_cons heq with ⟨-,rfl,-⟩ | ⟨rest',rfl,rfl⟩
  · cases he
  · obtain ⟨before,x,after,hrest,rfl,hafter⟩ := Since.behind h (.inr he)
    refine ⟨before,start,after,now,elapsed,ascentWait,[],?_,?_,hlong⟩
    · rw [← List.cons_append,hrest,List.append_assoc]
    · intro hmem
      exact hafter _ hmem (.inl rfl)

/-! ### The invariant -/

/-- The file holds a phase. -/
def Holds (file : Option (List Byte)) (state : MissionState) : Prop :=
  ∃ saved,file = some (stateText saved) ∧ saved.currentState = state

/-- The next process finds a phase that fits, or no file and nothing to resume. -/
def Kept (file : Option (List Byte)) (log : List MissionEvent) : Prop :=
  match file with
  | none => Fits log .waitingForAscent
  | some text => ∃ saved,text = stateText saved ∧ Fits log saved.currentState

/-- A process between two transitions. -/
structure Running (life : Life) (file : Option (List Byte)) (log : List MissionEvent) : Prop where
  holds : Holds file life.state.currentState
  fits : Fits log life.state.currentState
  tally : attemptsInRow log = life.retryCount
  retry_lt : life.retryCount < stepRetryLimit
  idle : life.state.currentState = .waitingForAscent ∨ life.state.currentState = .cooldown →
    life.retryCount = 0
  cooling : life.state.currentState = .cooldown → CoolingSince life.cooldownStart log

/-- A process that has decided on its next phase and is about to save it. -/
structure Switching (life : Life) (log : List MissionEvent) : Prop where
  fits : Fits log life.state.currentState
  started : life.state.currentState ≠ .waitingForAscent
  tally : life.state.currentState ≠ .cooldown → attemptsInRow log = 0
  retry : life.retryCount = 0

/-- What holds at each point of a process. -/
def Life.Valid (life : Life) (file : Option (List Byte)) (log : List MissionEvent) : Prop :=
  match life.point with
  | .load => attemptsInRow log = 0 ∧ life.retryCount = 0
  | .freshSave =>
    life.state.currentState = .waitingForAscent ∧ Fits log .waitingForAscent ∧
      attemptsInRow log = 0 ∧ life.retryCount = 0
  | .operating op =>
    life.state.currentState = op.state ∧ Holds file op.state ∧ Fits log op.state ∧
      attemptsInRow log = life.retryCount + 1 ∧ life.retryCount < stepRetryLimit
  | .enterCooldown => SawAscent log
  | .transitionSave => Switching life log
  | .top | .telemetry | .batch | .telemetrySave | .telemetryDone => Running life file log

structure Scheduler.Invariant (s : Scheduler) : Prop where
  obeys : Obeys cycleLaw s.log
  kept : Kept s.file s.log
  life : ∀ life,s.life = some life → life.Valid s.file s.log

theorem attemptsInRow_concat (log : List MissionEvent) (x : MissionEvent) :
    attemptsInRow (log ++ [x]) = x.tally (attemptsInRow log) := by
  rw [attemptsInRow,List.foldl_append]
  rfl

theorem Kept.of_holds {file : Option (List Byte)} {log : List MissionEvent}
    {state : MissionState} (h : Holds file state) (hfits : Fits log state) : Kept file log := by
  obtain ⟨saved,rfl,rfl⟩ := h
  exact ⟨saved,rfl,hfits⟩

/-- The next process changes nothing for the one after it. -/
theorem Kept.started {file : Option (List Byte)} {log : List MissionEvent} (h : Kept file log) :
    Kept file (log ++ [.started]) := by
  have hfits : ∀ state,Fits log state → Fits (log ++ [.started]) state := fun _ hstate =>
    hstate.concat (by simp [MissionEvent.endsCycle]) (by simp)
  cases file with
  | none => exact hfits .waitingForAscent h
  | some text =>
    obtain ⟨saved,htext,hsaved⟩ := h
    exact ⟨saved,htext,hfits _ hsaved⟩

theorem Fits.sawAscent {log : List MissionEvent} {state : MissionState} (h : Fits log state)
    (hne : state ≠ .waitingForAscent) : SawAscent log := by
  cases state with
  | waitingForAscent => exact absurd rfl hne
  | takingPhoto => exact h.1
  | compressing => exact h.1
  | downlinking => exact h.1
  | cooldown => exact h

/-- The invariant of a running process and what has been seen of it. -/
structure Sound (life : Life) (file : Option (List Byte)) (log : List MissionEvent) : Prop where
  obeys : Obeys cycleLaw log
  kept : Kept file log
  valid : life.Valid file log

theorem initial_invariant : Scheduler.initial.Invariant where
  obeys := obeys_nil
  kept := by
    intro e he
    simp [Scheduler.initial] at he
  life := by
    intro life hlife
    cases hlife

/-! ### The steps of a process -/

section
variable {life : Life} {file : Option (List Byte)} {log : List MissionEvent}

/-- Where the process is does not matter between two transitions. -/
theorem Running.move (h : Running life file log) {after : Life}
    (hstate : after.state.currentState = life.state.currentState)
    (hretry : after.retryCount = life.retryCount)
    (hstart : after.cooldownStart = life.cooldownStart) : Running after file log := by
  refine ⟨?_,?_,?_,?_,?_,?_⟩
  · rw [hstate]
    exact h.holds
  · rw [hstate]
    exact h.fits
  · rw [hretry]
    exact h.tally
  · rw [hretry]
    exact h.retry_lt
  · rw [hstate,hretry]
    exact h.idle
  · rw [hstate,hstart]
    exact h.cooling

theorem Running.valid (h : Running life file log)
    (hpoint : life.point ∈ [Point.top,.telemetry,.batch,.telemetrySave,.telemetryDone]) :
    life.Valid file log := by
  simp only [List.mem_cons,List.not_mem_nil,or_false] at hpoint
  rw [Life.Valid]
  rcases hpoint with hp | hp | hp | hp | hp <;> rw [hp] <;> exact h

theorem Running.iterated (h : Running life file log) (now : Timespec)
    (elapsed ascentWait : ℤ) :
    Running life file (log ++ [.iterated now elapsed ascentWait]) where
  holds := h.holds
  fits := h.fits.concat (by simp [MissionEvent.endsCycle]) (by simp)
  tally := by rw [attemptsInRow_concat]; exact h.tally
  retry_lt := h.retry_lt
  idle := h.idle
  cooling := fun hstate => (h.cooling hstate).concat (by simp [MissionEvent.endsCycle])

/-- An iteration that calls an operation. -/
theorem Running.attempt {op : Operation} (h : Running life file log)
    (hstate : life.state.currentState = op.state) (hobeys : Obeys cycleLaw log) :
    Sound { life with point := .operating op } file (log ++ [MissionEvent.attempted op]) := by
  have hholds := h.holds
  have hfits := h.fits
  rw [hstate] at hholds hfits
  have hfits' : Fits (log ++ [MissionEvent.attempted op]) op.state := by
    apply hfits.concat
    · simp [MissionEvent.endsCycle]
    · rintro hop
      cases hop
      simp [Operation.state]
  refine ⟨obeys_concat.mpr ⟨hobeys,?_,?_⟩,.of_holds hholds hfits',hstate,hholds,hfits',?_,
    h.retry_lt⟩
  · rw [h.tally]
    exact h.retry_lt
  · cases op with
    | takePhoto => exact hfits
    | compressPhoto => exact hfits.2
    | downlinkPhoto => exact hfits.2
  · rw [attemptsInRow_concat,h.tally]
    rfl

theorem Running.iterate (h : Running life file log) (hobeys : Obeys cycleLaw log)
    (now : Timespec) (unixTime : BitVec 64) :
    Sound (life.iterate now unixTime).1 file (log ++ (life.iterate now unixTime).2) := by
  have hseen : ∀ elapsed ascentWait,Obeys cycleLaw
      (log ++ [MissionEvent.iterated now elapsed ascentWait]) := fun _ _ =>
    obeys_concat.mpr ⟨hobeys,trivial⟩
  have hrun := h.iterated now (unixTime.toInt - life.state.missionStart.toInt) life.ascentWait
  have hkept := Kept.of_holds hrun.holds hrun.fits
  rw [Life.iterate]
  split
  · next hstate =>
    dsimp only
    split
    · next hascent =>
      refine ⟨hseen _ _,hkept,?_,by simp [Life.setState],fun _ => ?_,rfl⟩
      · refine ⟨⟨now,_,_,List.mem_append_right _ (List.mem_singleton_self _),hascent⟩,?_⟩
        have hfits := hrun.fits
        rw [hstate] at hfits
        exact settled_of_no_end hfits
      · rw [hrun.tally,h.idle (.inl hstate)]
    · exact ⟨hseen _ _,hkept,hrun.move rfl rfl rfl⟩
  · next hstate =>
    rw [← List.singleton_append,← List.append_assoc]
    exact hrun.attempt hstate (hseen _ _)
  · next hstate =>
    rw [← List.singleton_append,← List.append_assoc]
    exact hrun.attempt hstate (hseen _ _)
  · next hstate =>
    rw [← List.singleton_append,← List.append_assoc]
    exact hrun.attempt hstate (hseen _ _)
  · next hstate =>
    dsimp only
    split
    · next hlong =>
      refine ⟨hseen _ _,hkept,?_,by simp [Life.setState],fun _ => ?_,rfl⟩
      · exact ⟨hrun.fits.sawAscent (by simp [hstate]),(h.cooling hstate).settled hlong _ _⟩
      · rw [hrun.tally,h.idle (.inr hstate)]
    · exact ⟨hseen _ _,hkept,hrun.move rfl rfl rfl⟩

theorem Operation.state_ne (op : Operation) : op.state ≠ .waitingForAscent := by
  cases op <;> simp [Operation.state]

/-- An operation that returns, while its phase is in the file. -/
theorem finish_sound {op : Operation} (hstate : life.state.currentState = op.state)
    (hholds : Holds file op.state) (hfits : Fits log op.state)
    (htally : attemptsInRow log = life.retryCount + 1) (hobeys : Obeys cycleLaw log)
    (result : ℤ) :
    Sound (life.finish op result).1 file (log ++ (life.finish op result).2) := by
  have hfits' : Fits (log ++ [MissionEvent.finished op result]) op.state := by
    apply hfits.concat
    · cases op <;> simp [MissionEvent.endsCycle,Operation.state]
    · simp
  have hobeys' : Obeys cycleLaw (log ++ [MissionEvent.finished op result]) :=
    obeys_concat.mpr ⟨hobeys,trivial⟩
  have hsaw := hfits'.sawAscent op.state_ne
  have hkept := Kept.of_holds hholds hfits'
  unfold Life.finish
  split
  · next hzero =>
    have hnone : attemptsInRow (log ++ [MissionEvent.finished op result]) = 0 := by
      rw [attemptsInRow_concat,MissionEvent.tally,if_pos hzero]
    subst hzero
    cases op with
    | takePhoto =>
      exact ⟨hobeys',hkept,⟨hsaw,since_concat_self rfl⟩,by simp [Life.setState],
        fun _ => hnone,rfl⟩
    | compressPhoto =>
      exact ⟨hobeys',hkept,⟨hsaw,since_concat_self rfl⟩,by simp [Life.setState],
        fun _ => hnone,rfl⟩
    | downlinkPhoto => exact ⟨hobeys',hkept,hsaw⟩
  · next hfailed =>
    split
    · rw [← List.singleton_append,← List.append_assoc]
      refine ⟨obeys_concat.mpr ⟨hobeys',trivial⟩,.of_holds hholds ?_,hsaw.append⟩
      apply hfits'.concat
      · cases op <;> simp [MissionEvent.endsCycle,Operation.state]
      · simp
    · next hlt =>
      refine ⟨hobeys',hkept,?_,?_,?_,Nat.lt_of_not_le hlt,?_,?_⟩
      · rw [hstate]
        exact hholds
      · rw [hstate]
        exact hfits'
      · rw [attemptsInRow_concat,MissionEvent.tally,if_neg hfailed]
        exact htally
      · rw [hstate]
        cases op <;> simp [Operation.state]
      · rw [hstate]
        cases op <;> simp [Operation.state]

theorem load_stateText_eq {s t : SavedState} (h : missionStateLoad (some (stateText s)) = some t) :
    t = s := by
  have hcut := missionStateLoad_take s (stateText s).length
  rw [List.take_length,h] at hcut
  have hpos : 0 < s.missionStart.toInt := by
    by_contra hle
    rw [cutState,if_pos (.inl (by omega))] at hcut
    cases hcut
  rw [(cutState_eq_self_iff hpos).mpr (.inl (by omega))] at hcut
  exact Option.some.inj hcut

/-- A process that loads the file, if there is one, or starts a fresh mission where there is
none. -/
theorem load_sound (hload : attemptsInRow log = 0 ∧ life.retryCount = 0)
    (hobeys : Obeys cycleLaw log) (hkept : Kept file log)
    (hreload : (file.isNone || (missionStateLoad file).isSome) = true) (now : Timespec)
    (unixTime : BitVec 64) :
    Sound (life.load file now unixTime).1 file (log ++ (life.load file now unixTime).2) := by
  cases file with
  | none =>
    simp only [Life.load,missionStateLoad,List.append_nil]
    exact ⟨hobeys,hkept,rfl,hkept,hload⟩
  | some text =>
    obtain ⟨loaded,hloaded⟩ := Option.isSome_iff_exists.mp hreload
    obtain ⟨saved,rfl,hfits⟩ := hkept
    obtain rfl := load_stateText_eq hloaded
    have hholds : Holds (some (stateText loaded)) loaded.currentState := ⟨loaded,rfl,rfl⟩
    rw [Life.load,hloaded]
    dsimp only
    split
    · next hcooldown =>
      have hfits' : Fits (log ++ [MissionEvent.cooldown now]) loaded.currentState :=
        hfits.concat (by simp [hcooldown]) (by simp)
      refine ⟨obeys_concat.mpr ⟨hobeys,trivial⟩,.of_holds hholds hfits',hholds,hfits',?_,?_,?_,?_⟩
      · rw [attemptsInRow_concat]
        exact hload.2.symm
      · rw [hload.2]
        decide
      · exact fun _ => hload.2
      · exact fun _ => since_concat_self rfl
    · next hcooldown =>
      rw [List.append_nil]
      refine ⟨hobeys,.of_holds hholds hfits,hholds,hfits,?_,?_,?_,?_⟩
      · rw [hload.1]
        exact hload.2.symm
      · rw [hload.2]
        decide
      · exact fun _ => hload.2
      · exact fun hstate => absurd hstate hcooldown

/-- A save brings the file up to the process. -/
theorem saved_sound {after : Life} {events : List MissionEvent} (hvalid : life.Valid file log)
    (hobeys : Obeys cycleLaw log) (hsaved : life.saved = some (after,events)) :
    Sound after (some (stateText life.state)) (log ++ events) := by
  have hholds : Holds (some (stateText life.state)) life.state.currentState :=
    ⟨life.state,rfl,rfl⟩
  unfold Life.saved at hsaved
  split at hsaved
  · next hpoint =>
    cases hsaved
    rw [Life.Valid,hpoint] at hvalid
    obtain ⟨hstate,hfits,htally,hretry⟩ := hvalid
    rw [← hstate] at hfits
    rw [List.append_nil]
    refine ⟨hobeys,.of_holds hholds hfits,hholds,hfits,htally.trans hretry.symm,?_,
      fun _ => hretry,?_⟩
    · rw [hretry]
      decide
    · rw [hstate]
      simp
  · next hpoint =>
    cases hsaved
    rw [Life.Valid,hpoint] at hvalid
    obtain ⟨hfits,hstarted,htally,hretry⟩ := hvalid
    have hlt : life.retryCount < stepRetryLimit := by
      rw [hretry]
      decide
    split
    · next hcooldown =>
      have hfits' : Fits (log ++ [MissionEvent.cooldown life.cooldownStart])
          life.state.currentState := hfits.concat (by simp [hcooldown]) (by simp)
      refine ⟨obeys_concat.mpr ⟨hobeys,trivial⟩,.of_holds hholds hfits',hholds,hfits',?_,hlt,
        fun _ => hretry,fun _ => since_concat_self rfl⟩
      rw [attemptsInRow_concat]
      exact hretry.symm
    · next hcooldown =>
      rw [List.append_nil]
      exact ⟨hobeys,.of_holds hholds hfits,hholds,hfits,(htally hcooldown).trans hretry.symm,
        hlt,fun _ => hretry,fun hstate => absurd hstate hcooldown⟩
  · next hpoint =>
    cases hsaved
    rw [Life.Valid,hpoint] at hvalid
    have hrun : Running life file log := hvalid
    rw [List.append_nil]
    exact ⟨hobeys,.of_holds hholds hrun.fits,hholds,hrun.fits,hrun.tally,hrun.retry_lt,
      hrun.idle,hrun.cooling⟩
  · cases hsaved

/-- A process that loads a file resumes with what it holds. -/
def reloads (file : Option (List Byte)) : SchedulerAction → Bool
  | .load _ _ => file.isNone || (missionStateLoad file).isSome
  | _ => true

theorem read_eq_some {now : Timespec} {after : Life} (h : life.read now = some after) :
    after = { life with clock := now } := by
  unfold Life.read at h
  split at h
  · exact (Option.some.inj h).symm
  · cases h

/-- Every step of a process keeps the invariant. -/
theorem life_step_sound {a : SchedulerAction} {after : Life} {events : List MissionEvent}
    (hvalid : life.Valid file log) (hobeys : Obeys cycleLaw log) (hkept : Kept file log)
    (hreload : reloads file a = true) (hstep : life.step file a = some (after,events)) :
    Sound after file (log ++ events) := by
  cases a with
  | start now waitEnv intervalEnv => cases hstep
  | save => cases hstep
  | crash => cases hstep
  | load now unixTime =>
    simp only [Life.step,Option.ite_none_right_eq_some,Option.map_eq_some_iff] at hstep
    obtain ⟨hpoint,read,hread,heq⟩ := hstep
    obtain rfl := read_eq_some hread
    rw [Life.Valid,hpoint] at hvalid
    have hclock : attemptsInRow log = 0 ∧ ({ life with clock := now } : Life).retryCount = 0 :=
      hvalid
    have hsound := load_sound hclock hobeys hkept hreload now unixTime
    rwa [heq] at hsound
  | iterate now unixTime =>
    simp only [Life.step,Option.ite_none_right_eq_some,Option.map_eq_some_iff] at hstep
    obtain ⟨hpoint,read,hread,heq⟩ := hstep
    obtain rfl := read_eq_some hread
    rw [Life.Valid,hpoint] at hvalid
    have hrun : Running { life with clock := now } file log := Running.move hvalid rfl rfl rfl
    have hsound := hrun.iterate hobeys now unixTime
    rwa [heq] at hsound
  | result result =>
    simp only [Life.step] at hstep
    split at hstep
    · next op hpoint =>
      rw [Life.Valid,hpoint] at hvalid
      obtain ⟨hstate,hholds,hfits,htally,-⟩ := hvalid
      have hsound := finish_sound hstate hholds hfits htally hobeys result
      rwa [Option.some.inj hstep] at hsound
    · cases hstep
  | enterCooldown now =>
    simp only [Life.step,Option.ite_none_right_eq_some,Option.map_eq_some_iff] at hstep
    obtain ⟨hpoint,read,hread,heq⟩ := hstep
    cases heq
    rw [Life.Valid,hpoint] at hvalid
    rw [List.append_nil]
    exact ⟨hobeys,hkept,hvalid,by simp [Life.setState],by simp [Life.setState],rfl⟩
  | telemetry now =>
    simp only [Life.step,Option.ite_none_right_eq_some,Option.map_eq_some_iff] at hstep
    obtain ⟨hpoint,read,hread,heq⟩ := hstep
    obtain rfl := read_eq_some hread
    cases heq
    rw [Life.Valid,hpoint] at hvalid
    rw [List.append_nil]
    refine ⟨hobeys,hkept,?_⟩
    apply Running.valid
    · exact Running.move hvalid rfl rfl rfl
    · dsimp only
      split <;> simp
  | batch cursor =>
    simp only [Life.step,Option.ite_none_right_eq_some] at hstep
    obtain ⟨hpoint,heq⟩ := hstep
    cases heq
    rw [Life.Valid,hpoint] at hvalid
    rw [List.append_nil]
    refine ⟨hobeys,hkept,?_⟩
    apply Running.valid
    · exact Running.move hvalid rfl rfl rfl
    · dsimp only
      split <;> simp
  | telemetryDone now =>
    simp only [Life.step,Option.ite_none_right_eq_some,Option.map_eq_some_iff] at hstep
    obtain ⟨hpoint,read,hread,heq⟩ := hstep
    obtain rfl := read_eq_some hread
    cases heq
    rw [Life.Valid,hpoint] at hvalid
    rw [List.append_nil]
    exact ⟨hobeys,hkept,Running.move hvalid rfl rfl rfl⟩

end

theorem step_invariant {s s' : Scheduler} {a : SchedulerAction} (h : s.Invariant)
    (hreload : reloads s.file a = true) (hstep : s.step a = some s') : s'.Invariant := by
  have hprocess : ∀ {a : SchedulerAction},reloads s.file a = true →
      (s.life.bind fun life => (life.step s.file a).map fun after =>
        ({ s with life := some after.1,log := s.log ++ after.2 } : Scheduler)) = some s' →
      s'.Invariant := by
    intro a hreload hstep
    obtain ⟨life,hlife,hstep⟩ := Option.bind_eq_some_iff.mp hstep
    obtain ⟨⟨after,events⟩,hafter,rfl⟩ := Option.map_eq_some_iff.mp hstep
    obtain ⟨hobeys,hkept,hvalid⟩ := life_step_sound (h.life life hlife) h.obeys h.kept hreload
      hafter
    refine ⟨hobeys,hkept,fun current hcurrent => ?_⟩
    obtain rfl := Option.some.inj hcurrent
    exact hvalid
  cases a with
  | start now waitEnv intervalEnv =>
    simp only [Scheduler.step] at hstep
    split at hstep
    · cases hstep
    · cases hstep
      refine ⟨obeys_concat.mpr ⟨h.obeys,trivial⟩,h.kept.started,fun life hlife => ?_⟩
      cases hlife
      exact ⟨attemptsInRow_concat _ _,rfl⟩
  | crash =>
    simp only [Scheduler.step] at hstep
    split at hstep
    · cases hstep
      refine ⟨h.obeys,h.kept,fun life hlife => ?_⟩
      cases hlife
    · cases hstep
  | save =>
    obtain ⟨life,hlife,hstep⟩ := Option.bind_eq_some_iff.mp hstep
    obtain ⟨⟨after,events⟩,hafter,rfl⟩ := Option.map_eq_some_iff.mp hstep
    obtain ⟨hobeys,hkept,hvalid⟩ := saved_sound (h.life life hlife) h.obeys hafter
    refine ⟨hobeys,hkept,fun current hcurrent => ?_⟩
    obtain rfl := Option.some.inj hcurrent
    exact hvalid
  | load now unixTime => exact hprocess hreload hstep
  | iterate now unixTime => exact hprocess hreload hstep
  | result result => exact hprocess hreload hstep
  | enterCooldown now => exact hprocess hreload hstep
  | telemetry now => exact hprocess hreload hstep
  | batch cursor => exact hprocess hreload hstep
  | telemetryDone now => exact hprocess hreload hstep

/-- In every run of the scheduler, whatever its operations and clocks return and wherever its
processes crash, as long as a process resumes with the state that was saved last, attempts obey
the order of the cycle. -/
theorem attempts_obey_cycle {as : List SchedulerAction} {s : Scheduler}
    (hrun : run Scheduler.step .initial as = some s)
    (hreload : ∀ pre a post t,as = pre ++ a :: post → run Scheduler.step .initial pre = some t →
      reloads t.file a = true) : Obeys cycleLaw s.log :=
  (run_invariant_of (I := Scheduler.Invariant) (P := fun t a => reloads t.file a = true)
    (fun _ _ _ hs ha hstep => step_invariant hs ha hstep) initial_invariant hreload hrun).obeys

/-- A clock reading and the wall clock at the end of the ascent. -/
def early : Timespec := .ofSeconds 0

def ascentEnd : BitVec 64 := 1700005400#64

/-- A fresh mission up to the first attempt to take a photo. -/
def firstAttempt : List SchedulerAction :=
  [.start early none none,.load early 1700000000#64,.save,.iterate early ascentEnd,.save,
    .telemetry early,.iterate early ascentEnd]

/-- A whole cycle, a crash in its cooldown, and the next photo. -/
def crashedCooldown : List SchedulerAction :=
  firstAttempt ++
    ([.result 0,.save,.telemetry early,.iterate early ascentEnd,.result 0,.save,
      .telemetry early,.iterate early ascentEnd,.result 0,.enterCooldown early,.save,.crash,
      .start early none none,.load early ascentEnd,.iterate (.ofSeconds 600) ascentEnd,.save,
      .crash,.start early none none,.load early ascentEnd,.iterate early ascentEnd] :
        List SchedulerAction)

theorem crashed_cooldown_obeys_cycle : ∃ s,run Scheduler.step .initial crashedCooldown = some s ∧
    s.log.getLast? = some (.attempted .takePhoto) ∧ Obeys cycleLaw s.log := by
  have hrun : (run Scheduler.step .initial crashedCooldown).map (fun s => s.log.getLast?) =
      some (some (.attempted .takePhoto)) := by
    decide +kernel
  have hallowed : allowed Scheduler.step (fun s a => reloads s.file a) .initial crashedCooldown =
      true := by
    decide +kernel
  obtain ⟨s,hs,hlast⟩ := Option.map_eq_some_iff.mp hrun
  exact ⟨s,hs,hlast,attempts_obey_cycle hs fun _ _ _ _ hsplit hpre =>
    of_allowed hallowed hsplit hpre⟩

/-- The third photo fails, and a crash comes before cooldown is saved. -/
def crashBeforeCooldown : List SchedulerAction :=
  firstAttempt ++
    ([.result (-1),.telemetry early,.iterate early ascentEnd,.result (-1),
      .telemetry early,.iterate early ascentEnd,.result (-1),.crash,
      .start early none none,.load early ascentEnd,.iterate early ascentEnd] :
        List SchedulerAction)

def MissionEvent.isCooldown : MissionEvent → Bool
  | .cooldown _ => true
  | _ => false

/-- The cycle has been abandoned, and the next process takes a photo without any cooldown. -/
theorem abandoned_cycle_resumed : ∃ s past,
    run Scheduler.step .initial crashBeforeCooldown = some s ∧
      s.log = past ++ [.attempted .takePhoto] ∧ .abandoned .takePhoto ∈ past ∧ ¬ Rested past := by
  have hrun : (run Scheduler.step .initial crashBeforeCooldown).map
      (fun s => (s.log.getLast?,s.log.contains (.abandoned .takePhoto),
        s.log.any MissionEvent.isCooldown)) = some (some (.attempted .takePhoto),true,false) := by
    decide +kernel
  obtain ⟨s,hs,hlog⟩ := Option.map_eq_some_iff.mp hrun
  simp only [Prod.mk.injEq] at hlog
  obtain ⟨hlast,hmem,hnone⟩ := hlog
  obtain ⟨past,hpast⟩ := List.getLast?_eq_some_iff.mp hlast
  refine ⟨s,past,hs,hpast,?_,?_⟩
  · have habandoned := List.contains_iff_mem.mp hmem
    rw [hpast,List.mem_append,List.mem_singleton] at habandoned
    exact habandoned.resolve_right (by simp)
  · rintro ⟨before,start,between,now,elapsed,ascentWait,after,rfl,-⟩
    rw [hpast] at hnone
    simp [MissionEvent.isCooldown] at hnone

end FlightSoftware.Mission
