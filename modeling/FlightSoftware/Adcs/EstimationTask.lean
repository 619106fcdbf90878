import FlightSoftware.Adcs.Estimator
import FlightSoftware.Adcs.ModeSafety
import FlightSoftware.Lib.History
import FlightSoftware.Lib.Run

/-!
# Estimation task

The task feeds every sample to the estimator and stores what comes out in the manager, among the
calls of the other tasks. On the desktop an attitude that the manager may use rests on a fix that
is no older than the estimator and the manager together allow.
-/

namespace FlightSoftware.Adcs
open Run

/-! ### Bounds of an estimate -/

/-- `fault_management_check_estimator_bounds` -/
def checkEstimatorBounds (p : Platform) (attitude : AdcsAttitudeState) : Bool :=
  let normSquared := quaternionNormSquared p attitude.quaternion
  let rateNorm := adcsVectorNorm p attitude.angularRateRadS
  attitude.timestampUs != 0 &&
    (!adcsValuesAreFinite attitude.quaternion || !adcsValuesAreFinite attitude.angularRateRadS ||
      !adcsValuesAreFinite attitude.gyroBiasRadS ||
      !adcsValuesAreFinite attitude.covarianceDiagonal || !attitude.confidence.isfinite ||
      !normSquared.isfinite || normSquared.lt (.dyadic 1 2) ||
      (CFloat.dyadic 9 2).lt normSquared || !rateNorm.isfinite ||
      (CFloat.finite 100).lt rateNorm || attitude.confidence.lt 0 ||
      (1 : CFloat).lt attitude.confidence ||
      (List.finRange 6).any fun i => (attitude.covarianceDiagonal i).lt 0 ||
        (CFloat.finite 1000000).lt (attitude.covarianceDiagonal i))

/-! ### Task -/

/-- The variances are `0.0001F` and `0.000025F`, the fields `1.0e-6F` and `1.0e-3F`. -/
def estimatorConfig : AdcsAttitudeEstimatorConfig where
  magnetometerMeasurementVariance := .dyadic 13743895 37
  sunSensorMeasurementVariance := .dyadic 13743895 39
  minimumMagneticFieldT := .dyadic 8796093 43
  maximumMagneticFieldT := .dyadic 8589935 33
  minimumSunIrradianceWM2 := .finite 100
  maximumSampleGapS := .dyadic 1 2
  maximumConsecutiveRejections := 100

/-- A sample that the estimator has been updated with, and the estimator before it. -/
structure EstimatorUpdate where
  before : AdcsAttitudeEstimator
  sensors : AdcsSensorPacket
  references : AdcsReferenceVectors

/-- What has happened to the estimator: an update, or a reset that succeeded. -/
inductive EstimatorEvent where
  | update (u : EstimatorUpdate)
  | reset

/-- Where the task stands: what it does next. -/
inductive EstimationPhase where
  | receive
  | setReferences (sensors : AdcsSensorPacket) (orbit : AdcsOrbitState)
      (references : AdcsReferenceVectors)
  | exchange (sensors : AdcsSensorPacket) (references : AdcsReferenceVectors)
  | getState (sensors : AdcsSensorPacket) (references : AdcsReferenceVectors)
  | noteReset (sensors : AdcsSensorPacket) (references : AdcsReferenceVectors)
  | update (sensors : AdcsSensorPacket) (references : AdcsReferenceVectors)
  | setAttitude (attitude : AdcsAttitudeState)
  | resetting

/-- The manager and the fault latch with the task, and what has happened to its estimator. -/
structure EstimationSystem where
  system : AdcsSystem
  estimator : AdcsAttitudeEstimator
  phase : EstimationPhase
  resetRequested : BitVec 8 := 0
  events : List EstimatorEvent := []

/-- A step of the task, a request for a reset, or a call of another task. The orbit and the
references are what the environment and the models of the sun and the field give, or zero. -/
inductive EstimationStep where
  | receive (sample : Option AdcsSensorPacket) (orbit : AdcsOrbitState)
      (references : AdcsReferenceVectors)
  | setReferences
  | exchange
  | getState
  | noteReset
  | update
  | setAttitude
  | requestReset
  | other (c : AdcsCall)

/-- The estimation task alone stores attitudes. -/
def AdcsCall.storesAttitude : AdcsCall → Bool
  | .setAttitude _ => true
  | _ => false

/-- The identity, from which the board starts and a reset without an attitude. -/
def identitySeed : Versor := ![0,0,0,1]

/-- The phase after `adcs_attitude_estimator_update`. A bad estimate resets the board, from which
the task does not return. -/
def estimated (p : Platform) (result : AdcsResult) (attitude : AdcsAttitudeState) :
    EstimationPhase :=
  if result = .outOfRange ∨ checkEstimatorBounds p attitude = true then .resetting
  else if result = .ok then .setAttitude attitude
  else if attitude.timestampUs ≠ 0 then .setAttitude { attitude with valid := 0 }
  else .receive

namespace EstimationSystem

variable (p : Platform) (lib : EstimatorFunctions)

/-- After `estimation_task_init`, which seeds the estimator on the board only. -/
def init : EstimationSystem where
  system := .init .init
  estimator :=
    if p.stm32 then ((AdcsAttitudeEstimator.init estimatorConfig).reset p identitySeed).2
    else .init estimatorConfig
  phase := .receive

/-- The attitude that a requested reset starts from. -/
def resetSeed (snapshot : AdcsManagerState) : Versor :=
  if snapshot.latestAttitude.valid ≠ 0 then snapshot.latestAttitude.quaternion else identitySeed

def step (s : EstimationSystem) (a : EstimationStep) : Option EstimationSystem :=
  match a,s.phase with
  | .receive none _ _,.receive => some { s with system := s.system.call p .noteDroppedMessage }
  | .receive (some sensors) orbit references,.receive =>
    some { s with phase := .setReferences sensors orbit references }
  | .setReferences,.setReferences sensors orbit references =>
    some { s with
      system := s.system.call p (.setReferences (some orbit) (some references))
      phase := .exchange sensors references }
  | .exchange,.exchange sensors references =>
    if s.resetRequested ≠ 0 then
      some { s with resetRequested := 0,phase := .getState sensors references }
    else some { s with phase := .update sensors references }
  | .getState,.getState sensors references =>
    let r := s.estimator.reset p (resetSeed s.system.manager.state)
    some { s with
      estimator := r.2
      phase := .noteReset sensors references
      events := if r.1 = .ok then s.events ++ [.reset] else s.events }
  | .noteReset,.noteReset sensors references =>
    some { s with
      system := s.system.call p .noteEstimatorReset
      phase := .update sensors references }
  | .update,.update sensors references =>
    let r := s.estimator.update p lib sensors references
    some { s with
      estimator := r.1
      phase := estimated p r.2.1 r.2.2
      events := s.events ++ [.update ⟨s.estimator,sensors,references⟩] }
  | .setAttitude,.setAttitude attitude =>
    some { s with system := s.system.call p (.setAttitude attitude),phase := .receive }
  | .requestReset,_ => some { s with resetRequested := 1 }
  | .other c,_ =>
    if c.storesAttitude then none else some { s with system := s.system.call p c }
  | _,_ => none

end EstimationSystem

/-! ### Fixes -/

section
variable (p : Platform) (lib : EstimatorFunctions)

namespace EstimatorUpdate

def outcome (u : EstimatorUpdate) : AdcsAttitudeEstimator × AdcsResult × AdcsAttitudeState :=
  u.before.update p lib u.sensors u.references

/-- The estimator has taken the sample. -/
def accepted (u : EstimatorUpdate) : Bool := (u.before.refusal u.sensors).isNone

/-- The directions of the sun and of the field are known, and give an attitude. -/
structure IsFix (u : EstimatorUpdate) : Prop where
  accepted : u.accepted = true
  magnetic : AdcsAttitudeEstimator.magneticAvailable p estimatorConfig u.sensors u.references = true
  sun : AdcsAttitudeEstimator.sunAvailable estimatorConfig u.sensors u.references = true
  triad : (triadAttitude p u.sensors.sunVectorBody u.sensors.magneticFieldT u.references.sunEciUnit
    u.references.magneticFieldEciT).isSome = true

/-- The sample came too long after the one before. -/
def afterGap (u : EstimatorUpdate) : Bool :=
  estimatorConfig.maximumSampleGapS.lt (u.before.sampleGapS p lib u.sensors)

end EstimatorUpdate

/-- The event is no reset, and no sample that was taken after too long a gap. -/
def EstimatorEvent.Continues : EstimatorEvent → Prop
  | .update u => u.accepted = true → u.afterGap p lib = false
  | .reset => False

/-- The event has left an estimate. -/
def EstimatorEvent.estimates : EstimatorEvent → Bool
  | .update u => (u.outcome p lib).2.2.timestampUs != 0
  | .reset => false

/-- The events since the last fix of the estimator: they go on from it, and `rejected` of them at
least are known to have left an estimate, unless there are more than a hundred. -/
def Fixed (fixUs : BitVec 64) (rejected : BitVec 32) (events : List EstimatorEvent) : Prop :=
  ∃ earlier u between,events = earlier ++ .update u :: between ∧ u.IsFix p ∧
    u.sensors.timestampUs = fixUs ∧ (∀ e ∈ between,e.Continues p lib) ∧
    (between.countP (EstimatorEvent.estimates p lib) ≤ rejected.toNat ∨ 100 < rejected.toNat)

/-- The events end within a second after a fix, with nothing in between that would spoil it and
at most a hundred estimates. -/
def RecentlyFixed (timestampUs : BitVec 64) (events : List EstimatorEvent) : Prop :=
  ∃ earlier u between,events = earlier ++ .update u :: between ∧ u.IsFix p ∧
    u.sensors.timestampUs ≤ timestampUs ∧
    timestampUs.toNat ≤ u.sensors.timestampUs.toNat+1000000 ∧
    (∀ e ∈ between,e.Continues p lib) ∧ between.countP (EstimatorEvent.estimates p lib) ≤ 100

/-- An update with a good result comes with an attitude of its time, and rests on a recent fix. -/
def FixLaw (past : List EstimatorEvent) : EstimatorEvent → Prop
  | .update u => (u.outcome p lib).2.1 = .ok →
    (u.outcome p lib).2.2.timestampUs = u.sensors.timestampUs ∧
      RecentlyFixed p lib u.sensors.timestampUs (past ++ [.update u])
  | .reset => True

end

variable {p : Platform} {lib : EstimatorFunctions} {events : List EstimatorEvent}

/-- One more event goes on from the fix; where it leaves an estimate, the count goes up. -/
theorem Fixed.concat {fixUs : BitVec 64} {rejected rejected' : BitVec 32} {event : EstimatorEvent}
    (h : Fixed p lib fixUs rejected events) (hevent : event.Continues p lib)
    (hcount : rejected.toNat+(if event.estimates p lib then 1 else 0) ≤ rejected'.toNat ∨
      rejected' = -1) :
    Fixed p lib fixUs rejected' (events ++ [event]) := by
  obtain ⟨earlier,u,between,hsplit,hfix,htime,hall,hbetween⟩ := h
  refine ⟨earlier,u,between ++ [event],?_,hfix,htime,?_,?_⟩
  · rw [hsplit,List.append_assoc,List.cons_append]
  · intro e he
    rcases List.mem_append.mp he with he | he
    · exact hall e he
    · rwa [List.mem_singleton.mp he]
  · rw [List.countP_append,List.countP_singleton]
    rcases hcount with hcount | hmax
    · omega
    · right
      rw [hmax]
      decide

theorem AdcsKalmanFilter.getState_ok {f : AdcsKalmanFilter} {timestampUs : BitVec 64}
    {rate : Vector3} {attitude : AdcsAttitudeState}
    (h : f.getState p timestampUs rate = (.ok,attitude)) :
    attitude.timestampUs = timestampUs := by
  rw [getState] at h
  split_ifs at h
  · cases h
  · cases h
  · cases h
  split at h
  · cases h
  · rw [← (Prod.mk.inj h).2]

theorem AdcsKalmanFilter.reset_ne_ok {f : AdcsKalmanFilter} {quaternion : Versor}
    {bias : Vector3} : f.reset p quaternion bias ≠ .error .ok := by
  intro h
  rw [reset] at h
  split_ifs at h
  · cases h
  all_goals split at h <;> cases h

namespace AdcsAttitudeEstimator

variable {e : AdcsAttitudeEstimator} {sensors : AdcsSensorPacket}
  {references : AdcsReferenceVectors}

/-! ### One update on the desktop -/

/-- What the step of the gyroscope leaves of the last fix. -/
structure Propagated (p : Platform) (lib : EstimatorFunctions) (sensors : AdcsSensorPacket)
    (e e' : AdcsAttitudeEstimator) : Prop where
  config : e'.config = e.config
  rejected : e'.consecutiveRejectedUpdates = e.consecutiveRejectedUpdates
  fix : e'.lastAbsoluteFixUs = 0 ∨ (e'.lastAbsoluteFixUs = e.lastAbsoluteFixUs ∧
    (e.previousTimestampUs = 0 ∨
      e.config.maximumSampleGapS.lt (e.sampleGapS p lib sensors) = false))

theorem propagate_propagated (hdesktop : p.stm32 = false) :
    Propagated p lib sensors e (e.propagate p lib sensors).1 := by
  rw [propagate]
  by_cases hfirst : e.previousTimestampUs = 0
  · rw [if_pos hfirst]
    exact ⟨rfl,rfl,.inr ⟨rfl,.inl hfirst⟩⟩
  rw [if_neg hfirst]
  dsimp only
  rw [hdesktop,Bool.false_and,Bool.not_false,Bool.true_and,if_neg Bool.false_ne_true]
  cases hlong : e.config.maximumSampleGapS.lt (e.sampleGapS p lib sensors) with
  | true =>
    rw [if_pos rfl,if_neg (fun h => h rfl)]
    exact ⟨rfl,rfl,.inl rfl⟩
  | false =>
    rw [if_neg Bool.false_ne_true]
    split
    · split <;> exact ⟨rfl,rfl,.inr ⟨rfl,.inr hlong⟩⟩
    · exact ⟨rfl,rfl,.inr ⟨rfl,.inr hlong⟩⟩

theorem publish_ok (hdesktop : p.stm32 = false) (h : (e.publish p sensors).1 = .ok) :
    (e.publish p sensors).2.timestampUs = sensors.timestampUs ∧ e.fixIsOld sensors = false := by
  rw [publish] at h ⊢
  split at h
  · cases h
  · next attitude hstate =>
    rw [hdesktop,if_neg Bool.false_ne_true] at h ⊢
    cases hold : e.fixIsOld sensors with
    | true =>
      rw [hold] at h
      cases h
    | false =>
      rw [if_neg Bool.false_ne_true]
      exact ⟨AdcsKalmanFilter.getState_ok hstate,rfl⟩
  · next result attitude _ hnot hstate =>
    by_cases hcorrupt : e.filter.stateIsCorrupt p = true
    · rw [if_pos hcorrupt] at h
      cases h
    · rw [if_neg hcorrupt] at h
      exact (hnot h).elim

/-- What the estimator knows of its last fix is true of the events. -/
structure Tracking (p : Platform) (lib : EstimatorFunctions) (e : AdcsAttitudeEstimator)
    (events : List EstimatorEvent) : Prop where
  config : e.config = estimatorConfig
  ordered : e.lastAbsoluteFixUs ≤ e.previousTimestampUs
  fixed : e.lastAbsoluteFixUs ≠ 0 →
    Fixed p lib e.lastAbsoluteFixUs e.consecutiveRejectedUpdates events

/-- A sample that is refused changes nothing and leaves no estimate. -/
theorem Tracking.refuse (h : Tracking p lib e events) {result : AdcsResult}
    (hrefuse : e.refusal sensors = some result) :
    Tracking p lib e (events ++ [.update ⟨e,sensors,references⟩]) where
  config := h.config
  ordered := h.ordered
  fixed hfix := by
    refine (h.fixed hfix).concat (fun haccepted => ?_) (.inl ?_)
    · rw [EstimatorUpdate.accepted,hrefuse] at haccepted
      cases haccepted
    · have hnone : EstimatorEvent.estimates p lib (.update ⟨e,sensors,references⟩) = false := by
        rw [EstimatorEvent.estimates,EstimatorUpdate.outcome,update,hrefuse]
        rfl
      rw [hnone]
      exact le_refl _

/-- A sample that is accepted is later than the one before, if there was one. -/
theorem later_of_accepted (haccepted : e.refusal sensors = none) :
    sensors.timestampUs ≠ 0 ∧
      (e.previousTimestampUs = 0 ∨ e.previousTimestampUs < sensors.timestampUs) := by
  rw [refusal] at haccepted
  split_ifs at haccepted with hinvalid hstale
  simp only [Bool.or_eq_true,decide_eq_true_eq,not_or] at hinvalid
  refine ⟨hinvalid.1.1.2,?_⟩
  by_cases hfirst : e.previousTimestampUs = 0
  · exact .inl hfirst
  · exact .inr (BitVec.not_le.mp fun hle => hstale ⟨hfirst,hle⟩)

/-- The fix of an accepted sample, if its two directions give one. -/
theorem isFix_of_triadFix {e' : AdcsAttitudeEstimator} {filter : AdcsKalmanFilter}
    (hconfig : e'.config = estimatorConfig) (haccepted : e.refusal sensors = none)
    (h : e'.triadFix p sensors references = some filter) :
    EstimatorUpdate.IsFix p ⟨e,sensors,references⟩ := by
  rw [triadFix,hconfig] at h
  split at h
  · next havailable =>
    rw [Bool.and_eq_true] at havailable
    obtain ⟨quaternion,htriad,-⟩ := Option.bind_eq_some_iff.mp h
    refine ⟨?_,havailable.1,havailable.2,?_⟩
    · rw [EstimatorUpdate.accepted,haccepted]
      rfl
    · rw [htriad]
      rfl
  · cases h

/-- An accepted sample, after the step of the gyroscope, goes on from the last fix. -/
theorem Tracking.goesOn (h : Tracking p lib e events) {e' : AdcsAttitudeEstimator}
    (he : Propagated p lib sensors e e')
    (hfix : e'.lastAbsoluteFixUs ≠ 0) :
    e'.lastAbsoluteFixUs = e.lastAbsoluteFixUs ∧ e.lastAbsoluteFixUs ≠ 0 ∧
      EstimatorEvent.Continues p lib (.update ⟨e,sensors,references⟩) := by
  obtain ⟨hsame,hgap⟩ := he.fix.resolve_left hfix
  rw [hsame] at hfix
  refine ⟨hsame,hfix,fun _ => ?_⟩
  rcases hgap with hfirst | hshort
  · have hle := h.ordered
    rw [hfirst] at hle
    exact absurd (BitVec.le_zero_iff.mp hle) hfix
  · rw [EstimatorUpdate.afterGap,← h.config]
    exact hshort

/-- No fix is later than an accepted sample. -/
theorem Tracking.fix_le (h : Tracking p lib e events) (haccepted : e.refusal sensors = none)
    {e' : AdcsAttitudeEstimator} (he : Propagated p lib sensors e e') :
    e'.lastAbsoluteFixUs ≤ sensors.timestampUs := by
  rcases he.fix with hzero | ⟨hsame,-⟩
  · rw [hzero]
    exact BitVec.le_def.mpr (Nat.zero_le _)
  · rw [hsame]
    rcases (later_of_accepted haccepted).2 with hfirst | hlater
    · have hle := h.ordered
      rw [hfirst] at hle
      exact BitVec.le_def.mpr ((BitVec.le_def.mp hle).trans (Nat.zero_le _))
    · exact BitVec.le_trans h.ordered (BitVec.le_of_lt hlater)

/-- An accepted sample leaves no estimate if the step of the gyroscope fails. -/
theorem Tracking.fail (h : Tracking p lib e events) (haccepted : e.refusal sensors = none)
    {e' : AdcsAttitudeEstimator} {result : AdcsResult} (he : Propagated p lib sensors e e')
    (hpropagate : e.propagate p lib sensors = (e',.error result)) :
    Tracking p lib { e' with previousTimestampUs := sensors.timestampUs }
      (events ++ [.update ⟨e,sensors,references⟩]) where
  config := he.config.trans h.config
  ordered := by
    show e'.lastAbsoluteFixUs ≤ sensors.timestampUs
    exact h.fix_le haccepted he
  fixed hfix := by
    obtain ⟨hsame,hfix',hcontinues⟩ := h.goesOn he hfix
    show Fixed p lib e'.lastAbsoluteFixUs e'.consecutiveRejectedUpdates _
    rw [hsame,he.rejected]
    refine (h.fixed hfix').concat hcontinues (.inl ?_)
    have hnone : EstimatorEvent.estimates p lib (.update ⟨e,sensors,references⟩) = false := by
      rw [EstimatorEvent.estimates,EstimatorUpdate.outcome,update,haccepted]
      dsimp only
      rw [hpropagate]
      rfl
    rw [hnone]
    exact le_refl _

/-- The word counts up to its greatest value. -/
theorem countUp_toNat (n : BitVec 32) :
    n.toNat+1 ≤ (if n = -1 then n else n+1).toNat ∨ (if n = -1 then n else n+1) = -1 := by
  by_cases hmax : n = -1
  · rw [if_pos hmax]
    exact .inr hmax
  · rw [if_neg hmax]
    left
    bv_omega

theorem correct_previousTimestampUs :
    (e.correct p sensors references).previousTimestampUs = e.previousTimestampUs := by
  rw [correct]
  split <;> rfl

/-- An accepted sample that gets through is a fix, or one more estimate since the last one. -/
theorem Tracking.correct (h : Tracking p lib e events) (haccepted : e.refusal sensors = none)
    {e' : AdcsAttitudeEstimator} (he : Propagated p lib sensors e e')
    (hnow : e'.previousTimestampUs = sensors.timestampUs) :
    Tracking p lib (AdcsAttitudeEstimator.correct p sensors references e')
      (events ++ [.update ⟨e,sensors,references⟩]) := by
  have hconfig : e'.config = estimatorConfig := he.config.trans h.config
  have hordered : e'.lastAbsoluteFixUs ≤ e'.previousTimestampUs := by
    rw [hnow]
    exact h.fix_le haccepted he
  rw [AdcsAttitudeEstimator.correct]
  split
  · next filter hfilter =>
    refine ⟨hconfig,hnow ▸ BitVec.le_refl _,fun _ => ?_⟩
    exact ⟨events,_,[],rfl,isFix_of_triadFix hconfig haccepted hfilter,rfl,List.forall_mem_nil _,
      .inl (Nat.zero_le _)⟩
  · refine ⟨hconfig,hordered,fun hfix => ?_⟩
    obtain ⟨hsame,hfix',hcontinues⟩ := h.goesOn he hfix
    show Fixed p lib e'.lastAbsoluteFixUs _ _
    rw [hsame]
    refine (h.fixed hfix').concat hcontinues ?_
    rw [he.rejected]
    refine (countUp_toNat e.consecutiveRejectedUpdates).imp_left fun hcount => ?_
    refine le_trans (Nat.add_le_add_left ?_ _) hcount
    split_ifs
    · exact le_refl 1
    · exact Nat.zero_le 1

/-- A fix that is not old is a recent one. -/
theorem Tracking.recentlyFixed (h : Tracking p lib e events)
    (hle : e.lastAbsoluteFixUs ≤ sensors.timestampUs) (hold : e.fixIsOld sensors = false) :
    RecentlyFixed p lib sensors.timestampUs events := by
  rw [fixIsOld,Bool.or_eq_false_iff,Bool.or_eq_false_iff,beq_eq_false_iff_ne] at hold
  obtain ⟨⟨hfix,hage⟩,hrejected⟩ := hold
  have hage := BitVec.not_lt.mp (of_decide_eq_false hage)
  have hrejected := BitVec.not_lt.mp (of_decide_eq_false hrejected)
  rw [h.config] at hrejected
  obtain ⟨earlier,u,between,hsplit,hisFix,htime,hall,hcount⟩ := h.fixed hfix
  rw [← htime] at hle hage
  refine ⟨earlier,u,between,hsplit,hisFix,hle,?_,hall,?_⟩
  · have hsub := BitVec.toNat_sub_of_le hle
    have hmillion : (sensors.timestampUs-u.sensors.timestampUs).toNat ≤ 1000000 :=
      BitVec.le_def.mp hage
    omega
  · have hhundred : e.consecutiveRejectedUpdates.toNat ≤ 100 := BitVec.le_def.mp hrejected
    omega

theorem refusal_ne_ok : e.refusal sensors ≠ some .ok := by
  rw [refusal]
  split_ifs <;> exact fun h => (by cases h)

theorem predict_ne_ok (f : AdcsKalmanFilter) (rate : Vector3) (dtS : CFloat) :
    f.predict p lib rate dtS ≠ .error .ok := by
  intro h
  rw [AdcsKalmanFilter.predict] at h
  dsimp only at h
  split_ifs at h
  all_goals try cases h
  all_goals split at h <;> cases h

theorem propagate_ne_ok {e' : AdcsAttitudeEstimator} :
    e.propagate p lib sensors ≠ (e',.error .ok) := by
  intro h
  rw [propagate] at h
  dsimp only at h
  split_ifs at h
  all_goals try cases h
  all_goals
    split at h
    · cases h
    · next result hpredict =>
      obtain rfl := Except.error.inj (Prod.mk.inj h).2
      exact predict_ne_ok _ _ _ hpredict

/-- Tracking goes on through every update, and a good result rests on a recent fix. -/
theorem Tracking.update (hdesktop : p.stm32 = false) (h : Tracking p lib e events)
    (sensors : AdcsSensorPacket) (references : AdcsReferenceVectors) :
    Tracking p lib (e.update p lib sensors references).1
        (events ++ [.update ⟨e,sensors,references⟩]) ∧
      FixLaw p lib events (.update ⟨e,sensors,references⟩) := by
  rw [FixLaw,EstimatorUpdate.outcome]
  dsimp only
  cases haccepted : e.refusal sensors with
  | some result =>
    have hupdate : e.update p lib sensors references = (e,result,{}) := by
      rw [AdcsAttitudeEstimator.update,haccepted]
    rw [hupdate]
    refine ⟨h.refuse haccepted,fun hok => ?_⟩
    rw [show result = .ok from hok] at haccepted
    exact absurd haccepted refusal_ne_ok
  | none =>
    have he : Propagated p lib sensors e (e.propagate p lib sensors).1 :=
      propagate_propagated hdesktop
    rw [AdcsAttitudeEstimator.update,haccepted]
    dsimp only
    cases hpropagate : e.propagate p lib sensors with
    | mk e' r =>
      rw [hpropagate] at he
      cases r with
      | error result =>
        refine ⟨h.fail haccepted he hpropagate,fun hok => ?_⟩
        dsimp only at hok
        split_ifs at hok
        subst hok
        exact absurd hpropagate propagate_ne_ok
      | ok =>
        dsimp only
        have hnow : Propagated p lib sensors e
            { e' with previousTimestampUs := sensors.timestampUs } :=
          ⟨he.config,he.rejected,he.fix⟩
        have htracking := @Tracking.correct p lib events e sensors references h haccepted _ hnow rfl
        refine ⟨htracking,fun hok => ?_⟩
        obtain ⟨htime,hold⟩ := publish_ok hdesktop hok
        refine ⟨htime,htracking.recentlyFixed ?_ hold⟩
        have hordered := htracking.ordered
        rwa [correct_previousTimestampUs] at hordered

/-- A reset starts over without a fix. -/
theorem Tracking.reset (h : Tracking p lib e events) (quaternion : Versor) :
    Tracking p lib (e.reset p quaternion).2
      (if (e.reset p quaternion).1 = .ok then events ++ [.reset] else events) := by
  have herror {result : AdcsResult} (hresult : result ≠ .ok) :
      Tracking p lib (result,e).2 (if (result,e).1 = .ok then events ++ [.reset] else events) := by
    rw [if_neg hresult]
    exact h
  rw [AdcsAttitudeEstimator.reset]
  split
  · exact herror fun hok => (by cases hok)
  · split
    · next result hreset =>
      exact herror fun hok => AdcsKalmanFilter.reset_ne_ok (hok ▸ hreset)
    · rw [if_pos rfl]
      exact ⟨h.config,BitVec.le_refl 0,fun hfix => absurd rfl hfix⟩

theorem init_config : (init estimatorConfig).config = estimatorConfig ∧
    (init estimatorConfig).lastAbsoluteFixUs = 0 ∧
    (init estimatorConfig).previousTimestampUs = 0 := by
  rw [init,if_neg (by decide +kernel)]
  exact ⟨rfl,rfl,rfl⟩

theorem tracking_init : Tracking p lib (init estimatorConfig) [] := by
  obtain ⟨hconfig,hfix,hprevious⟩ := init_config
  refine ⟨hconfig,?_,fun h => absurd hfix h⟩
  rw [hfix,hprevious]
  exact BitVec.le_refl 0

end AdcsAttitudeEstimator

/-! ### Every run -/

/-- A usable attitude is valid and no more than the allowed time old. -/
theorem AdcsManager.usable_attitude {nowUs : BitVec 64} {m : AdcsManager}
    (h : m.attitudeUsable p nowUs = true) :
    m.state.latestAttitude.valid ≠ 0 ∧ m.state.latestAttitude.timestampUs ≤ nowUs ∧
      nowUs.toNat ≤ m.state.latestAttitude.timestampUs.toNat+
        m.config.estimateStaleAfterUs.toNat := by
  simp only [attitudeUsable,attitudeReady,Bool.and_eq_true,bne_iff_ne,decide_eq_true_eq] at h
  obtain ⟨⟨⟨⟨⟨⟨⟨hvalid,-⟩,-⟩,-⟩,-⟩,-⟩,hle⟩,hage⟩ := h
  refine ⟨hvalid,hle,?_⟩
  have hsub := BitVec.toNat_sub_of_le hle
  have hage' := BitVec.le_def.mp hage
  omega

namespace EstimationSystem

open AdcsAttitudeEstimator (Tracking tracking_init)
open History (Obeys obeys_nil obeys_concat)

/-- A valid attitude was a good result of the estimator. -/
def Estimated (p : Platform) (lib : EstimatorFunctions) (events : List EstimatorEvent)
    (attitude : AdcsAttitudeState) : Prop :=
  attitude.valid ≠ 0 → ∃ u : EstimatorUpdate,.update u ∈ events ∧ (u.outcome p lib).2.1 = .ok ∧
    u.sensors.timestampUs = attitude.timestampUs

/-- The attitude in hand, if there is one, is as good. -/
def EstimatedPhase (p : Platform) (lib : EstimatorFunctions) (events : List EstimatorEvent) :
    EstimationPhase → Prop
  | .setAttitude attitude => Estimated p lib events attitude
  | _ => True

structure Trusted (p : Platform) (lib : EstimatorFunctions) (s : EstimationSystem) : Prop where
  ready : s.system.manager.Ready
  tracking : Tracking p lib s.estimator s.events
  law : Obeys (FixLaw p lib) s.events
  phase : EstimatedPhase p lib s.events s.phase
  stored : Estimated p lib s.events s.system.manager.state.latestAttitude

variable {s s' : EstimationSystem} {attitude : AdcsAttitudeState}

theorem Estimated.mono {events' : List EstimatorEvent} (h : Estimated p lib events attitude)
    (hsub : events ⊆ events') : Estimated p lib events' attitude := by
  intro hvalid
  obtain ⟨u,hu,hrest⟩ := h hvalid
  exact ⟨u,hsub hu,hrest⟩

/-- Other calls leave the attitude alone. -/
theorem call_latestAttitude (system : AdcsSystem) {c : AdcsCall}
    (hc : c.storesAttitude = false) :
    (system.call p c).manager.state.latestAttitude = system.manager.state.latestAttitude := by
  cases c with
  | setAttitude attitude => cases hc
  | update nowUs =>
    show (system.manager.update p _ nowUs).state.latestAttitude = _
    rw [AdcsManager.update]
    split
    · rfl
    · exact AdcsManager.updateRecorded_sameInputs.attitude
  | configure config =>
    show (system.manager.configure config).state.latestAttitude = _
    rw [AdcsManager.configure]
    split <;> rfl
  | requestMode mode =>
    show (system.manager.requestMode mode).state.latestAttitude = _
    rw [AdcsManager.requestMode]
    dsimp only
    split <;> rfl
  | setSensors sensors =>
    show (system.manager.setSensors p sensors).state.latestAttitude = _
    rw [AdcsManager.setSensors]
    split <;> rfl
  | setControlOutput control =>
    show (system.manager.setControlOutput control).state.latestAttitude = _
    rw [AdcsManager.setControlOutput]
    split <;> rfl
  | setGuidanceTarget target =>
    show (system.manager.setGuidanceTarget p target).state.latestAttitude = _
    cases target with
    | none => rfl
    | some target =>
      rw [AdcsManager.setGuidanceTarget]
      split
      · rfl
      · split <;> rfl
  | _ => rfl

theorem setAttitude_estimated {m : AdcsManager} (h : Estimated p lib events attitude)
    (hstored : Estimated p lib events m.state.latestAttitude) :
    Estimated p lib events (m.setAttitude p attitude).state.latestAttitude := by
  rw [AdcsManager.setAttitude]
  dsimp only
  split
  · show Estimated p lib events (AdcsManager.validatedAttitude p attitude)
    rw [AdcsManager.validatedAttitude]
    split
    · exact h
    · exact fun hvalid => absurd rfl hvalid
  · exact hstored

theorem estimated_phase {u : EstimatorUpdate}
    (hlaw : FixLaw p lib events (.update u)) :
    EstimatedPhase p lib (events ++ [.update u])
      (estimated p (u.outcome p lib).2.1 (u.outcome p lib).2.2) := by
  rw [estimated]
  split_ifs with hbad hok htime
  · trivial
  · exact fun _ => ⟨u,List.mem_append_right _ List.mem_cons_self,hok,(hlaw hok).1.symm⟩
  · exact fun hvalid => absurd rfl hvalid
  · trivial

theorem Trusted.step (hdesktop : p.stm32 = false) (hs : s.Trusted p lib) {a : EstimationStep}
    (h : s.step p lib a = some s') : s'.Trusted p lib := by
  rw [EstimationSystem.step.eq_def] at h
  have hcall {c : AdcsCall} (hc : c.storesAttitude = false) :
      Estimated p lib s.events (s.system.call p c).manager.state.latestAttitude := by
    rw [call_latestAttitude s.system hc]
    exact hs.stored
  split at h
  case h_1 =>
    obtain rfl := Option.some.inj h
    exact ⟨AdcsSystem.call_ready hs.ready _,hs.tracking,hs.law,hs.phase,hcall rfl⟩
  case h_2 =>
    obtain rfl := Option.some.inj h
    exact ⟨hs.ready,hs.tracking,hs.law,trivial,hs.stored⟩
  case h_3 =>
    obtain rfl := Option.some.inj h
    exact ⟨AdcsSystem.call_ready hs.ready _,hs.tracking,hs.law,trivial,hcall rfl⟩
  case h_4 =>
    split at h
    all_goals
      obtain rfl := Option.some.inj h
      exact ⟨hs.ready,hs.tracking,hs.law,trivial,hs.stored⟩
  case h_5 =>
    obtain rfl := Option.some.inj h
    have htracking := hs.tracking.reset (resetSeed s.system.manager.state)
    refine ⟨hs.ready,htracking,?_,trivial,hs.stored.mono ?_⟩
    · dsimp only
      split
      · exact obeys_concat.mpr ⟨hs.law,trivial⟩
      · exact hs.law
    · dsimp only
      split
      · exact List.subset_append_left _ _
      · exact List.Subset.refl _
  case h_6 =>
    obtain rfl := Option.some.inj h
    exact ⟨AdcsSystem.call_ready hs.ready _,hs.tracking,hs.law,trivial,hcall rfl⟩
  case h_7 sensors references _ =>
    obtain rfl := Option.some.inj h
    obtain ⟨htracking,hlaw⟩ := hs.tracking.update hdesktop sensors references
    exact ⟨hs.ready,htracking,obeys_concat.mpr ⟨hs.law,hlaw⟩,estimated_phase hlaw,
      hs.stored.mono (List.subset_append_left _ _)⟩
  case h_8 attitude hphase =>
    obtain rfl := Option.some.inj h
    have hattitude := hs.phase
    rw [hphase] at hattitude
    exact ⟨AdcsSystem.call_ready hs.ready _,hs.tracking,hs.law,trivial,
      setAttitude_estimated hattitude hs.stored⟩
  case h_9 =>
    obtain rfl := Option.some.inj h
    exact ⟨hs.ready,hs.tracking,hs.law,hs.phase,hs.stored⟩
  case h_10 c _ =>
    split at h
    · cases h
    · next hc =>
      obtain rfl := Option.some.inj h
      exact ⟨AdcsSystem.call_ready hs.ready _,hs.tracking,hs.law,hs.phase,
        hcall (Bool.not_eq_true _ ▸ hc)⟩
  case h_11 => cases h

theorem trusted_init (hdesktop : p.stm32 = false) : (init p).Trusted p lib where
  ready := AdcsManager.ready_init
  tracking := by
    rw [init,hdesktop]
    exact tracking_init
  law := obeys_nil
  phase := trivial
  stored h := absurd rfl h

/-- A packet of a body at rest that sees the sun, in a field of about 30 µT across it. -/
def sunlitPacket : AdcsSensorPacket where
  timestampUs := 1000000
  magneticFieldT := ![0,.dyadic 1 15,0]
  sunVectorBody := ![1,0,0]
  sunIrradianceWM2 := .finite 1000
  validMask := adcsSensorValidGyroscope ||| adcsSensorValidMagnetometer ||| adcsSensorValidSun

/-- The references that the body is aligned with. -/
def alignedReferences : AdcsReferenceVectors where
  sunEciUnit := ![1,0,0]
  magneticFieldEciT := ![0,.dyadic 1 15,0]
  validMask := adcsReferenceValidSun ||| adcsReferenceValidMagneticField

/-- The desktop build without rounding. In the first update nothing is propagated. -/
def desktopPlatform : Platform := ⟨.exact,false⟩

def firstUpdateFunctions : EstimatorFunctions := ⟨fun _ => 0,fun _ => 1,fun n => .finite n.toNat⟩

/-- The first sample, up to its attitude in the manager. -/
def firstEstimate : List EstimationStep :=
  [.other (.setSensors sunlitPacket),.receive (some sunlitPacket) {} alignedReferences,
    .setReferences,.exchange,.update,.setAttitude]

end EstimationSystem

end FlightSoftware.Adcs
