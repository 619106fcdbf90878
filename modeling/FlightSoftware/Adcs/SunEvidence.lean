import FlightSoftware.Adcs.ModeSwitch

/-!
# Evidence of an acquired sun

SUN_ACQUISITION counts control outputs until enough of them in a row were settled. The
history of a run keeps what each update since the last entry saw. An output is counted
only when its timestamp is later than the last one counted, so no output is counted
twice; but an unsettled output under the timestamp counted last is overlooked, and the
count goes on. Where none is, the sun is acquired on sustained evidence only.
-/

namespace FlightSoftware.Adcs
open Run

/-! ### What an update sees -/

/-- An update in SUN_ACQUISITION: the manager at the switch, the time, and whether the control
output was stored after the update before. -/
structure SunSighting where
  manager : AdcsManager
  nowUs : BitVec 64
  newlyArrived : Bool

namespace SunSighting

def control (u : SunSighting) : AdcsControlOutput := u.manager.state.latestControl

def timestampUs (u : SunSighting) : BitVec 64 := u.control.timestampUs

/-- The output is of SUN_ACQUISITION and since its entry, and neither stale nor of the future. -/
def Current (u : SunSighting) : Prop :=
  u.control.sourceMode = .sunAcquisition ∧ u.manager.state.modeEnteredUs < u.timestampUs ∧
    u.timestampUs ≤ u.nowUs ∧ u.nowUs-u.timestampUs ≤ u.manager.config.sensorStaleAfterUs

/-- The pointing error is valid, finite and small, and the body turns slowly. -/
def Settled (p : Platform) (u : SunSighting) : Prop :=
  u.control.pointingErrorValid ≠ 0 ∧ u.control.pointingErrorRad.isfinite = true ∧
    u.control.pointingErrorRad.le managerSunSettledErrorRad = true ∧
    (u.manager.bodyRate p).le u.manager.config.detumbleEntryRateRadS = true

/-- The timestamp is later than the one counted last. -/
def Later (u : SunSighting) : Prop :=
  u.manager.state.lastCountedControlTimestampUs < u.timestampUs

instance (u : SunSighting) : Decidable u.Current := inferInstanceAs (Decidable (_ ∧ _ ∧ _ ∧ _))

instance (p : Platform) (u : SunSighting) : Decidable (u.Settled p) :=
  inferInstanceAs (Decidable (_ ∧ _ ∧ _ ∧ _))

instance (u : SunSighting) : Decidable u.Later := inferInstanceAs (Decidable (_ < _))

/-- The update counts the output. -/
def counts (p : Platform) (u : SunSighting) : Bool :=
  decide (u.Current ∧ u.Later ∧ u.Settled p)

/-- The update saw an output that is stale or foreign, or newly arrived and not settled. -/
def disturbs (p : Platform) (u : SunSighting) : Bool :=
  decide (¬u.Current ∨ u.newlyArrived = true ∧ ¬u.Settled p)

/-- The newly arrived output is not settled, and the count that is under way takes it for the one
counted last. -/
def overlooks (p : Platform) (u : SunSighting) : Bool :=
  decide (u.Current ∧ ¬u.Later ∧ u.newlyArrived = true ∧ ¬u.Settled p ∧
    u.manager.state.stableCycles ≠ 0)

variable {p : Platform} {u : SunSighting}

theorem counts_iff : u.counts p = true ↔ u.Current ∧ u.Later ∧ u.Settled p := decide_eq_true_iff

theorem not_disturbs_of_settled (hcurrent : u.Current) (hsettled : u.Settled p) :
    u.disturbs p = false :=
  decide_eq_false fun h => h.elim (fun h => h hcurrent) fun h => h.2 hsettled

/-- What the case of the switch does. -/
inductive Advance (p : Platform) (u : SunSighting) (m' : AdcsManager) : Prop
  | reset (hmode : m'.state.mode = u.manager.state.mode) (hstable : m'.state.stableCycles = 0)
  | passed (hcurrent : u.Current) (hlater : ¬u.Later) (heq : m' = u.manager)
  | counted (hcounts : u.counts p = true)
      (hcycles : ¬u.manager.config.sunAcquisitionSettleCycles ≤ u.manager.state.stableCycles+1)
      (hmode : m'.state.mode = u.manager.state.mode)
      (hstable : m'.state.stableCycles = u.manager.state.stableCycles+1)
      (hlast : m'.state.lastCountedControlTimestampUs = u.timestampUs)
  | completed (hcounts : u.counts p = true)
      (hcycles : u.manager.config.sunAcquisitionSettleCycles ≤ u.manager.state.stableCycles+1)
      (hmode : m'.state.mode = .sunPointing)

theorem not_current_iff : ¬u.Current ↔
    u.control.sourceMode ≠ .sunAcquisition ∨ u.control.timestampUs ≤ u.manager.state.modeEnteredUs ∨
      u.nowUs < u.control.timestampUs ∨
      u.manager.config.sensorStaleAfterUs < u.nowUs-u.control.timestampUs := by
  simp only [Current,timestampUs,not_and_or,BitVec.not_lt,BitVec.not_le,ne_eq]

theorem settled_iff : u.Settled p ↔
    (u.control.pointingErrorValid != 0 && u.control.pointingErrorRad.isfinite &&
      u.control.pointingErrorRad.le managerSunSettledErrorRad &&
      (u.manager.bodyRate p).le u.manager.config.detumbleEntryRateRadS) = true := by
  simp only [Settled,Bool.and_eq_true,bne_iff_ne,and_assoc,ne_eq]

theorem advance (p : Platform) (u : SunSighting) :
    u.Advance p (u.manager.advanceSunAcquisition p u.nowUs) := by
  simp only [AdcsManager.advanceSunAcquisition]
  split_ifs with hold hlast hsettled hcycles
  · exact .reset rfl rfl
  · exact .passed (not_not.mp fun h => hold (not_current_iff.mp h)) (BitVec.not_lt.mpr hlast) rfl
  all_goals
    have hcurrent : u.Current := not_not.mp fun h => hold (not_current_iff.mp h)
    have hlater : u.Later := BitVec.not_le.mp hlast
  · exact .completed (counts_iff.mpr ⟨hcurrent,hlater,settled_iff.mpr hsettled⟩) hcycles
      (AdcsManager.enterMode_mode _ _)
  · exact .counted (counts_iff.mpr ⟨hcurrent,hlater,settled_iff.mpr hsettled⟩) hcycles rfl rfl rfl
  · exact .reset rfl rfl

end SunSighting

/-! ### What the count rests on -/

/-- The updates that the count rests on: as many of them counted as it says, each a later output
than the one before, and nothing disturbed it. -/
structure SunEvidence (p : Platform) (m : AdcsManager) (block : List SunSighting) : Prop where
  count : block.countP (·.counts p) = m.state.stableCycles.toNat
  ordered : ((block.filter (·.counts p)).map (·.timestampUs)).Pairwise (· < ·)
  last : ∀ u ∈ block,u.counts p = true → u.timestampUs ≤ m.state.lastCountedControlTimestampUs
  undisturbed : ∀ u ∈ block,u.disturbs p = false

namespace SunEvidence

variable {p : Platform} {m m' : AdcsManager} {block : List SunSighting} {u : SunSighting}

theorem nil (hstable : m.state.stableCycles = 0) : SunEvidence p m [] where
  count := by
    rw [hstable]
    rfl
  ordered := .nil
  last _ hu := nomatch hu
  undisturbed _ hu := nomatch hu

theorem of_same (h : SunEvidence p m block) (hstable : m'.state.stableCycles = m.state.stableCycles)
    (hlast : m'.state.lastCountedControlTimestampUs = m.state.lastCountedControlTimestampUs) :
    SunEvidence p m' block := by
  refine ⟨?_,h.ordered,?_,h.undisturbed⟩
  · rw [hstable]
    exact h.count
  · rw [hlast]
    exact h.last

theorem undisturbed_concat (h : SunEvidence p m block) (hu : u.disturbs p = false) :
    ∀ v ∈ block ++ [u],v.disturbs p = false := by
  intro v hv
  rcases List.mem_append.mp hv with hv | hv
  · exact h.undisturbed v hv
  · obtain rfl := List.mem_singleton.mp hv
    exact hu

/-- One more update that counts nothing. -/
theorem pass (h : SunEvidence p u.manager block) (hlater : ¬u.Later)
    (hu : u.disturbs p = false) : SunEvidence p u.manager (block ++ [u]) := by
  have hcounts : u.counts p = false := decide_eq_false fun hcounts => hlater hcounts.2.1
  refine ⟨?_,?_,?_,h.undisturbed_concat hu⟩
  · rw [List.countP_append,List.countP_singleton,hcounts]
    exact h.count
  · rw [List.filter_append,List.filter_singleton,hcounts,cond_false,List.append_nil]
    exact h.ordered
  · intro v hv hvcounts
    rcases List.mem_append.mp hv with hv | hv
    · exact h.last v hv hvcounts
    · obtain rfl := List.mem_singleton.mp hv
      rw [hcounts] at hvcounts
      cases hvcounts

theorem count_concat (h : SunEvidence p u.manager block) (hcounts : u.counts p = true) :
    (block ++ [u]).countP (·.counts p) = u.manager.state.stableCycles.toNat+1 := by
  rw [List.countP_append,List.countP_singleton,hcounts,h.count]
  rfl

/-- The output counted now is later than all counted before. -/
theorem ordered_concat (h : SunEvidence p u.manager block) (hcounts : u.counts p = true) :
    (((block ++ [u]).filter (·.counts p)).map (·.timestampUs)).Pairwise (· < ·) := by
  have hlater : u.Later := (SunSighting.counts_iff.mp hcounts).2.1
  rw [List.filter_append,List.filter_singleton,hcounts,cond_true,List.map_append,
    List.pairwise_append]
  refine ⟨h.ordered,List.pairwise_singleton _ _,?_⟩
  intro t ht t' ht'
  obtain ⟨v,hv,rfl⟩ := List.mem_map.mp ht
  obtain rfl := List.mem_singleton.mp ht'
  obtain ⟨hv,hvcounts⟩ := List.mem_filter.mp hv
  exact Std.lt_of_le_of_lt (h.last v hv hvcounts) hlater

/-- One more update that counts its output. -/
theorem counted (h : SunEvidence p u.manager block) (hcounts : u.counts p = true)
    (hstable : m'.state.stableCycles.toNat = u.manager.state.stableCycles.toNat+1)
    (hlast : m'.state.lastCountedControlTimestampUs = u.timestampUs) :
    SunEvidence p m' (block ++ [u]) := by
  obtain ⟨hcurrent,hlater,hsettled⟩ := SunSighting.counts_iff.mp hcounts
  refine ⟨?_,h.ordered_concat hcounts,?_,
    h.undisturbed_concat (SunSighting.not_disturbs_of_settled hcurrent hsettled)⟩
  · rw [h.count_concat hcounts,hstable]
  · intro v hv hvcounts
    rw [hlast]
    rcases List.mem_append.mp hv with hv | hv
    · exact BitVec.le_of_lt (Std.lt_of_le_of_lt (h.last v hv hvcounts) hlater)
    · obtain rfl := List.mem_singleton.mp hv
      exact BitVec.le_refl _

end SunEvidence

/-! ### Modes that are entered with no count -/

namespace AdcsManager

variable {p : Platform} {activeFaults : BitVec 32} {nowUs : BitVec 64} {m m' m'' : AdcsManager}

/-- The manager is in its mode still, with what it has counted, or the count starts anew. -/
inductive Stays (m m' : AdcsManager) : Prop
  | kept (hmode : m'.state.mode = m.state.mode)
      (hstable : m'.state.stableCycles = m.state.stableCycles)
      (hlast : m'.state.lastCountedControlTimestampUs = m.state.lastCountedControlTimestampUs)
  | anew (hstable : m'.state.stableCycles = 0)

theorem Stays.refl (m : AdcsManager) : Stays m m := .kept rfl rfl rfl

theorem enterMode_stays (mode : AdcsMode) (m : AdcsManager) : Stays m (m.enterMode mode) := by
  rw [enterMode]
  split
  · exact .refl m
  · exact .anew rfl

theorem enterMode_stableCycles {mode : AdcsMode} (hmode : m.state.mode ≠ mode) :
    (m.enterMode mode).state.stableCycles = 0 := by
  rw [enterMode,if_neg hmode]

theorem applyRequest_stays : Stays m (m.applyRequest p nowUs) := by
  rw [applyRequest]
  split_ifs
  · exact enterMode_stays _ m
  · exact enterMode_stays _ m
  · exact enterMode_stays _ m
  · exact .refl m

theorem switchAfterBoot_stays (h : m.switchAfterBoot p nowUs = some m') : Stays m m' := by
  rw [switchAfterBoot] at h
  split_ifs at h
  obtain rfl := Option.some.inj h
  exact applyRequest_stays

theorem atSwitch_stays (h : m.atSwitch p activeFaults nowUs = some m') : Stays m m' := by
  simp only [atSwitch] at h
  split_ifs at h with _ hboot hsensors
  -- from BOOT the mode is SAFE, with no count, before the request is looked at
  · refine .anew ?_
    have hentered : ((m.recordFaults activeFaults).enterMode .safe).state.stableCycles = 0 :=
      enterMode_stableCycles (by rw [hboot]; decide)
    cases switchAfterBoot_stays h with
    | kept _ hstable _ => exact hstable.trans hentered
    | anew hstable => exact hstable
  · cases switchAfterBoot_stays h with
    | kept hmode hstable hlast => exact .kept hmode hstable hlast
    | anew hstable => exact .anew hstable

/-- The mode stays, or one is entered that is not SUN_POINTING unless that is requested. -/
inductive Moves (m m' : AdcsManager) : Prop
  | stays (hmode : m'.state.mode = m.state.mode)
  | enters {m₁ : AdcsManager} {mode : AdcsMode} (hfrom : m₁.state.mode = m.state.mode)
      (hrequested : mode ≠ .sunPointing ∨ mode = m.state.requestedMode)
      (heq : m' = m₁.enterMode mode)

theorem moves_enterMode {m₁ : AdcsManager} {mode : AdcsMode} (hfrom : m₁.state.mode = m.state.mode)
    (hrequested : mode ≠ .sunPointing ∨ mode = m.state.requestedMode) :
    Moves m (m₁.enterMode mode) := .enters hfrom hrequested rfl

theorem Moves.mode_ne (h : Moves m m') (hmode : m.state.mode ≠ .sunPointing)
    (hrequested : m.state.requestedMode ≠ .sunPointing) : m'.state.mode ≠ .sunPointing := by
  cases h with
  | stays hsame => rwa [hsame]
  | enters _ hpointing heq =>
    rw [heq,enterMode_mode]
    rcases hpointing with hpointing | hpointing
    · exact hpointing
    · rwa [hpointing]

/-- A mode is entered with no count. -/
theorem Moves.anew {mode : AdcsMode} (h : Moves m m') (hmode : m.state.mode ≠ mode)
    (hmode' : m'.state.mode = mode) : m'.state.stableCycles = 0 := by
  cases h with
  | stays hsame =>
    rw [hsame] at hmode'
    exact absurd hmode' hmode
  | enters hfrom _ heq =>
    rw [heq,enterMode_mode] at hmode'
    rw [heq]
    refine enterMode_stableCycles ?_
    rw [hfrom,hmode']
    exact hmode

theorem applyRequest_moves : Moves m (m.applyRequest p nowUs) := by
  rw [applyRequest]
  split_ifs
  · exact moves_enterMode rfl (.inl (by decide))
  · exact moves_enterMode rfl (.inl (by decide))
  · exact moves_enterMode rfl (.inr rfl)
  · exact .stays rfl

theorem advanceMode_moves (hmode : m.state.mode ≠ .sunAcquisition) :
    Moves m (m.advanceMode p nowUs) := by
  rw [advanceMode]
  split
  · rw [advanceSafe]
    split_ifs
    · exact .stays rfl
    · exact moves_enterMode rfl (.inl (by decide))
    · exact moves_enterMode rfl (.inr rfl)
    · exact .stays rfl
  · simp only [advanceDetumble]
    split_ifs
    · exact moves_enterMode rfl (.inr rfl)
    · exact moves_enterMode rfl (.inl (by decide))
    · exact .stays rfl
    · exact .stays rfl
  · next hacquisition => exact absurd hacquisition hmode
  · rw [advanceSlewing]
    split
    · exact moves_enterMode rfl (.inl (by decide))
    · exact .stays rfl
  · exact .stays rfl

theorem switchAfterBoot_mode_ne (h : m.switchAfterBoot p nowUs = some m')
    (hmode : m.state.mode ≠ .sunPointing) (hrequested : m.state.requestedMode ≠ .sunPointing) :
    m'.state.mode ≠ .sunPointing := by
  rw [switchAfterBoot] at h
  split_ifs at h
  obtain rfl := Option.some.inj h
  exact applyRequest_moves.mode_ne hmode hrequested

theorem atSwitch_mode_ne (h : m.atSwitch p activeFaults nowUs = some m')
    (hmode : m.state.mode ≠ .sunPointing) (hrequested : m.state.requestedMode ≠ .sunPointing) :
    m'.state.mode ≠ .sunPointing := by
  simp only [atSwitch] at h
  split_ifs at h
  · refine switchAfterBoot_mode_ne h ?_ ?_
    · rw [enterMode_mode]
      decide
    · rwa [enterMode_requestedMode]
  · exact switchAfterBoot_mode_ne h hmode hrequested

theorem atSwitch_config (h : m.atSwitch p activeFaults nowUs = some m') :
    m'.config = m.config := by
  have happly (m : AdcsManager) : (m.applyRequest p nowUs).config = m.config := by
    rw [applyRequest]
    split_ifs
    · exact (enterMode_sameInputs _ m).config
    · exact (enterMode_sameInputs _ m).config
    · exact (enterMode_sameInputs _ m).config
    · rfl
  simp only [atSwitch,switchAfterBoot] at h
  split_ifs at h
  · obtain rfl := Option.some.inj h
    exact (happly _).trans (enterMode_sameInputs _ _).config
  · obtain rfl := Option.some.inj h
    exact happly _

/-! ### Completions -/

/-- An update takes the manager to SUN_POINTING, which was not requested. It may have been there
before, and have passed through SUN_ACQUISITION. -/
def AcquiresSun (m m' : AdcsManager) : Prop :=
  m.state.requestedMode ≠ .sunPointing ∧ m'.state.mode = .sunPointing ∧
    (m.state.mode ≠ .sunPointing ∨ m'.state.requestedMode = .sunPointing)

instance (m m' : AdcsManager) : Decidable (AcquiresSun m m') :=
  inferInstanceAs (Decidable (_ ∧ _ ∧ _))

/-- Only a SUN_ACQUISITION that is settled goes on to SUN_POINTING by itself. -/
theorem atSwitch_of_acquiresSun (h : AcquiresSun m (m.update p activeFaults nowUs)) :
    ∃ m',m.atSwitch p activeFaults nowUs = some m' ∧ m'.state.mode = .sunAcquisition ∧
      (m'.advanceMode p nowUs).state.mode = .sunPointing := by
  obtain ⟨hrequested,hpointing,hfrom⟩ := h
  rcases update_spec p activeFaults nowUs m with ⟨-,hended⟩ | ⟨m',hswitch,heq⟩
  · cases hended with
    | uninitialized _ heq =>
      rw [heq] at hpointing hfrom
      exact absurd (hfrom.resolve_left fun hmode => hmode hpointing) hrequested
    | fallBack _ hmode =>
      rw [hpointing] at hmode
      rcases hmode with hmode | hmode | hmode <;> cases hmode
  · refine ⟨m',hswitch,?_,?_⟩
    · rw [heq,refreshBuiltinTarget_mode] at hpointing
      by_contra hacquisition
      have hsame := (atSwitch_sameRequest hswitch).requestedMode
      have hnot : m'.state.requestedMode ≠ .sunPointing := by rwa [hsame]
      rcases hfrom with hmode | hsun
      · exact (advanceMode_moves hacquisition).mode_ne
          (atSwitch_mode_ne hswitch hmode hrequested) hnot hpointing
      -- the request is overwritten only where a settled mode goes on
      · have hadvance : Advanced m' (m'.advanceMode p nowUs) _ := advanceMode_advanced
        generalize hnext : m'.settledTo p nowUs = next at hadvance
        cases hadvance with
        | settled hmode _ _ _ =>
          rw [hpointing] at hmode
          subst hmode
          rw [settledTo] at hnext
          split at hnext
          · next hmode => exact hacquisition hmode
          · split at hnext <;> cases hnext
          · cases hnext
        | unsettled same =>
          rw [heq] at hsun
          exact hnot (same.requestedMode.symm.trans hsun)
    · rw [heq,refreshBuiltinTarget_mode] at hpointing
      exact hpointing

end AdcsManager

/-! ### The stay in SUN_ACQUISITION -/

/-- Among the updates of a stay, so many in a row counted their outputs: each output is later than
the one counted before, and no update in between saw one that disturbs. -/
def SustainedBy (p : Platform) (settleCycles : ℕ) (stay : List SunSighting) : Prop :=
  ∃ block,block <:+: stay ∧ settleCycles ≤ block.countP (·.counts p) ∧
    ((block.filter (·.counts p)).map (·.timestampUs)).Pairwise (· < ·) ∧
    ∀ u ∈ block,u.disturbs p = false

/-- The count rests on the last updates of the stay, and does not wrap with the next one. -/
structure Tracked (p : Platform) (m : AdcsManager) (stay : List SunSighting) : Prop where
  evidence : ∃ block,block <:+ stay ∧ SunEvidence p m block
  room : m.state.stableCycles.toNat+1 < 2^32

namespace Tracked

variable {p : Platform} {m m' : AdcsManager} {stay : List SunSighting} {u : SunSighting}

theorem zero (hstable : m.state.stableCycles = 0) : Tracked p m stay := by
  refine ⟨⟨[],List.nil_suffix,.nil hstable⟩,?_⟩
  rw [hstable]
  decide

theorem of_same (h : Tracked p m stay) (hstable : m'.state.stableCycles = m.state.stableCycles)
    (hlast : m'.state.lastCountedControlTimestampUs = m.state.lastCountedControlTimestampUs) :
    Tracked p m' stay := by
  obtain ⟨block,hblock,hevidence⟩ := h.evidence
  refine ⟨⟨block,hblock,hevidence.of_same hstable hlast⟩,?_⟩
  rw [hstable]
  exact h.room

theorem suffix_concat {block : List SunSighting} (h : block <:+ stay) :
    block ++ [u] <:+ stay ++ [u] := by
  obtain ⟨early,rfl⟩ := h
  exact ⟨early,by rw [List.append_assoc]⟩

/-- One more update, which stays in SUN_ACQUISITION and overlooks nothing. -/
theorem advance (h : Tracked p u.manager stay) (hoverlooks : u.overlooks p = false)
    (hadvance : u.Advance p m') (hmode : m'.state.mode ≠ .sunPointing) :
    Tracked p m' (stay ++ [u]) := by
  obtain ⟨block,hblock,hevidence⟩ := h.evidence
  cases hadvance with
  | reset _ hstable => exact .zero hstable
  | passed hcurrent hlater heq =>
    subst heq
    -- with nothing counted there is nothing that the output could disturb
    by_cases hstable : u.manager.state.stableCycles = 0
    · exact .zero hstable
    have hdisturbs : u.disturbs p = false := by
      refine decide_eq_false ?_
      rintro (hold | ⟨harrived,hsettled⟩)
      · exact hold hcurrent
      · exact of_decide_eq_false hoverlooks ⟨hcurrent,hlater,harrived,hsettled,hstable⟩
    exact ⟨⟨_,suffix_concat hblock,hevidence.pass hlater hdisturbs⟩,h.room⟩
  | counted hcounts hcycles _ hstable hlast =>
    have hroom := h.room
    have hnat : m'.state.stableCycles.toNat = u.manager.state.stableCycles.toNat+1 := by
      rw [hstable,BitVec.toNat_add_of_lt (by simpa using hroom)]
      rfl
    refine ⟨⟨_,suffix_concat hblock,hevidence.counted hcounts hnat hlast⟩,?_⟩
    -- the count is still below the number of cycles, which has 32 bits too
    rw [BitVec.not_le,BitVec.lt_def,← hstable] at hcycles
    have hsettle := u.manager.config.sunAcquisitionSettleCycles.isLt
    omega
  | completed _ _ hpointing => exact absurd hpointing hmode

/-- The update that completes SUN_ACQUISITION counts the last output that it takes. -/
theorem completed (h : Tracked p u.manager stay) (hadvance : u.Advance p m')
    (hmode : u.manager.state.mode = .sunAcquisition) (hpointing : m'.state.mode = .sunPointing) :
    SustainedBy p u.manager.config.sunAcquisitionSettleCycles.toNat (stay ++ [u]) := by
  obtain ⟨block,hblock,hevidence⟩ := h.evidence
  have hstays (hsame : m'.state.mode = u.manager.state.mode) : False := by
    rw [hpointing,hmode] at hsame
    cases hsame
  cases hadvance with
  | reset hsame _ => exact (hstays hsame).elim
  | passed _ _ heq => exact (hstays (congrArg (·.state.mode) heq)).elim
  | counted _ _ hsame _ _ => exact (hstays hsame).elim
  | completed hcounts hcycles _ =>
    obtain ⟨hcurrent,-,hsettled⟩ := SunSighting.counts_iff.mp hcounts
    refine ⟨block ++ [u],(suffix_concat hblock).isInfix,?_,hevidence.ordered_concat hcounts,
      hevidence.undisturbed_concat (SunSighting.not_disturbs_of_settled hcurrent hsettled)⟩
    rw [hevidence.count_concat hcounts]
    have hroom := h.room
    rw [BitVec.le_def,BitVec.toNat_add_of_lt (by simpa using hroom)] at hcycles
    exact hcycles

end Tracked

/-! ### History of a run -/

/-- The tasks, whether the control output was stored after the last update, and what the updates
saw since the last entry into SUN_ACQUISITION. -/
structure SunHistory where
  tasks : AdcsTasks
  newlyArrived : Bool := false
  stay : List SunSighting := []

namespace SunHistory

def init : SunHistory := ⟨.init,false,[]⟩

def manager (s : SunHistory) : AdcsManager := s.tasks.system.manager

/-- The manager with which an update reaches the switch. -/
def atSwitch (p : Platform) (s : SunHistory) (nowUs : BitVec 64) : Option AdcsManager :=
  s.manager.atSwitch p s.tasks.system.faults.getActive nowUs

/-- The stay after an update, which may have entered SUN_ACQUISITION before the switch. -/
def stayAfter (p : Platform) (s : SunHistory) (nowUs : BitVec 64) : List SunSighting :=
  match s.atSwitch p nowUs with
  | some m =>
    if m.state.mode = .sunAcquisition then
      (if s.manager.state.mode = .sunAcquisition then s.stay else []) ++
        [⟨m,nowUs,s.newlyArrived⟩]
    else []
  | none => s.stay

/-- The history after a step that leaves `tasks`. -/
def next (p : Platform) (s : SunHistory) (a : TaskStep) (tasks : AdcsTasks) : SunHistory :=
  match s.tasks.calling a with
  | some (.update nowUs) => ⟨tasks,false,s.stayAfter p nowUs⟩
  | some (.setControlOutput control) =>
    { s with
      tasks := tasks
      newlyArrived :=
        s.newlyArrived || decide (s.manager.state.latestControl.timestampUs ≤ control.timestampUs) }
  | _ => { s with tasks := tasks }

def step (p : Platform) (s : SunHistory) (a : TaskStep) : Option SunHistory :=
  (s.tasks.step p a).map (s.next p a)

/-- The step is an update that overlooks an unsettled output. -/
def overlooks (p : Platform) (s : SunHistory) (a : TaskStep) : Bool :=
  (s.tasks.updating a).any fun nowUs => (s.atSwitch p nowUs).any fun m =>
    decide (m.state.mode = .sunAcquisition) &&
      SunSighting.overlooks p ⟨m,nowUs,s.newlyArrived⟩

/-- What is counted in SUN_ACQUISITION is tracked by the stay. -/
def Counted (p : Platform) (s : SunHistory) : Prop :=
  s.manager.state.mode = .sunAcquisition → Tracked p s.manager s.stay

variable {p : Platform} {s s' : SunHistory} {a : TaskStep} {tasks : AdcsTasks} {nowUs : BitVec 64}

theorem next_updating (hupdate : s.tasks.updating a = some nowUs) :
    s.next p a tasks = ⟨tasks,false,s.stayAfter p nowUs⟩ := by
  rw [next,AdcsTasks.updating_eq_some.mp hupdate]

/-- A step that is not an update leaves the stay as it is. -/
theorem next_of_not_updating (hupdate : s.tasks.updating a = none) :
    (s.next p a tasks).tasks = tasks ∧ (s.next p a tasks).stay = s.stay := by
  rw [next]
  split
  · next hcalling =>
    rw [AdcsTasks.updating_eq_some.mpr hcalling] at hupdate
    cases hupdate
  · exact ⟨rfl,rfl⟩
  · exact ⟨rfl,rfl⟩

theorem manager_of_updating (hupdate : s.tasks.updating a = some nowUs)
    (hstep : s.tasks.step p a = some tasks) :
    tasks.system.manager = s.manager.update p s.tasks.system.faults.getActive nowUs := by
  rw [AdcsTasks.step_calling hstep,AdcsTasks.updating_eq_some.mp hupdate]
  rfl

/-! ### Updates -/

/-- At the switch the count is tracked by the stay before this update. -/
theorem Counted.atSwitch (h : s.Counted p) {m : AdcsManager} (hswitch : s.atSwitch p nowUs = some m)
    (hmode : m.state.mode = .sunAcquisition) :
    Tracked p m (if s.manager.state.mode = .sunAcquisition then s.stay else []) := by
  cases AdcsManager.atSwitch_stays hswitch with
  | kept hsame hstable hlast =>
    rw [hsame] at hmode
    rw [if_pos hmode]
    exact (h hmode).of_same hstable hlast
  | anew hstable => exact .zero hstable

theorem Counted.update (h : s.Counted p) (hupdate : s.tasks.updating a = some nowUs)
    (hstep : s.tasks.step p a = some tasks) (hoverlooks : s.overlooks p a = false) :
    (s.next p a tasks).Counted p := by
  have hmanager := manager_of_updating hupdate hstep
  rw [next_updating hupdate]
  intro hmode
  change tasks.system.manager.state.mode = .sunAcquisition at hmode
  change Tracked p tasks.system.manager (s.stayAfter p nowUs)
  rw [hmanager] at hmode ⊢
  rcases AdcsManager.update_spec p s.tasks.system.faults.getActive nowUs s.manager with
    ⟨hnone,hended⟩ | ⟨m,hswitch,heq⟩
  · cases hended with
    | uninitialized _ heq =>
      rw [heq] at hmode ⊢
      have hstay : s.stayAfter p nowUs = s.stay := by
        rw [stayAfter,SunHistory.atSwitch,hnone]
      rw [hstay]
      exact h hmode
    -- a check has ended the stay
    | fallBack _ hleft =>
      rw [hmode] at hleft
      rcases hleft with hleft | hleft | hleft <;> cases hleft
  · change s.atSwitch p nowUs = some m at hswitch
    rw [heq] at hmode ⊢
    rw [AdcsManager.refreshBuiltinTarget_mode] at hmode
    refine Tracked.of_same ?_ rfl rfl (m := m.advanceMode p nowUs)
    -- the update is one of the stay, or leads into SUN_ACQUISITION from another mode
    by_cases hacquisition : m.state.mode = .sunAcquisition
    · have hstay : s.stayAfter p nowUs =
          (if s.manager.state.mode = .sunAcquisition then s.stay else []) ++
            [⟨m,nowUs,s.newlyArrived⟩] := by
        rw [stayAfter,hswitch]
        exact if_pos hacquisition
      have hnot : SunSighting.overlooks p ⟨m,nowUs,s.newlyArrived⟩ = false := by
        simpa only [overlooks,hupdate,Option.any_some,hswitch,hacquisition,decide_true,
          Bool.true_and] using hoverlooks
      rw [hstay]
      refine Tracked.advance (h.atSwitch hswitch hacquisition) hnot ?_ ?_
      · rw [AdcsManager.advanceMode,hacquisition]
        exact SunSighting.advance p ⟨m,nowUs,s.newlyArrived⟩
      · rw [hmode]
        decide
    · exact .zero ((AdcsManager.advanceMode_moves hacquisition).anew hacquisition hmode)

/-! ### Other steps -/

/-- No call but an update changes the mode, or what is counted in it. -/
theorem call_counting (t : AdcsSystem) (c : AdcsCall) (hc : ∀ nowUs,c ≠ .update nowUs) :
    let m := t.manager.state
    let m' := (t.call p c).manager.state
    (m'.mode,m'.stableCycles,m'.lastCountedControlTimestampUs) =
      (m.mode,m.stableCycles,m.lastCountedControlTimestampUs) := by
  cases c with
  | update nowUs => exact absurd rfl (hc nowUs)
  | configure config =>
    simp only [AdcsSystem.call,AdcsManager.configure]
    split <;> rfl
  | requestMode mode =>
    simp only [AdcsSystem.call,AdcsManager.requestMode]
    split <;> rfl
  | setSensors sensors =>
    simp only [AdcsSystem.call,AdcsManager.setSensors]
    split <;> rfl
  | setAttitude attitude =>
    simp only [AdcsSystem.call,AdcsManager.setAttitude]
    split <;> rfl
  | setControlOutput control =>
    simp only [AdcsSystem.call,AdcsManager.setControlOutput]
    split <;> rfl
  | setGuidanceTarget target =>
    cases target with
    | none => rfl
    | some target =>
      simp only [AdcsSystem.call,AdcsManager.setGuidanceTarget]
      split
      · rfl
      · split <;> rfl
  | _ => rfl

theorem Counted.other (h : s.Counted p) (hupdate : s.tasks.updating a = none)
    (hstep : s.tasks.step p a = some tasks) : (s.next p a tasks).Counted p := by
  have hnext : (s.next p a tasks).tasks = tasks ∧ (s.next p a tasks).stay = s.stay :=
    next_of_not_updating hupdate
  obtain ⟨htasks,hstay⟩ := hnext
  have hcounting := AdcsTasks.step_of_not_updating (fun t =>
    (t.manager.state.mode,t.manager.state.stableCycles,
      t.manager.state.lastCountedControlTimestampUs)) hstep hupdate fun c _ hc =>
    call_counting s.tasks.system c hc
  simp only [Prod.mk.injEq] at hcounting
  obtain ⟨hmode,hstable,hlast⟩ := hcounting
  intro hacquisition
  rw [manager,htasks] at hacquisition ⊢
  rw [hstay]
  rw [hmode] at hacquisition
  exact (h hacquisition).of_same hstable hlast

/-! ### Every run -/

theorem Counted.step (h : s.Counted p) (hoverlooks : s.overlooks p a = false)
    (hstep : s.step p a = some s') : s'.Counted p := by
  obtain ⟨tasks,htasks,rfl⟩ := Option.map_eq_some_iff.mp hstep
  cases hupdate : s.tasks.updating a with
  | some nowUs => exact h.update hupdate htasks hoverlooks
  | none => exact h.other hupdate htasks

theorem counted_init : init.Counted p := nofun

/-- If in a run no update overlooks an unsettled output, then every update that takes the manager
to SUN_POINTING unasked does so on sustained evidence from the stay in SUN_ACQUISITION. -/
theorem sun_acquired_on_sustained_evidence {actions : List TaskStep}
    (hrun : run (step p) init actions = some s)
    (hheeds : ∀ before b after t,actions = before ++ b :: after →
      run (step p) init before = some t → t.overlooks p b = false)
    (hupdate : s.tasks.updating a = some nowUs) (hstep : s.step p a = some s')
    (hacquires : AdcsManager.AcquiresSun s.manager s'.manager) :
    SustainedBy p s.manager.config.sunAcquisitionSettleCycles.toNat s'.stay := by
  have hcounted : s.Counted p :=
    run_invariant_of (I := Counted p) (P := fun t b => t.overlooks p b = false)
      (fun _ _ _ h hP hstep => h.step hP hstep) counted_init hheeds hrun
  obtain ⟨tasks,htasks,rfl⟩ := Option.map_eq_some_iff.mp hstep
  rw [next_updating hupdate] at hacquires ⊢
  change AdcsManager.AcquiresSun s.manager tasks.system.manager at hacquires
  rw [manager_of_updating hupdate htasks] at hacquires
  obtain ⟨m,hswitch,hmode,hpointing⟩ := AdcsManager.atSwitch_of_acquiresSun hacquires
  have htracked := hcounted.atSwitch hswitch hmode
  change SustainedBy p _ (s.stayAfter p nowUs)
  rw [stayAfter,SunHistory.atSwitch,hswitch,← AdcsManager.atSwitch_config hswitch]
  simp only [hmode,if_true]
  refine Tracked.completed (u := ⟨m,nowUs,s.newlyArrived⟩) htracked ?_ hmode hpointing
  rw [AdcsManager.advanceMode,hmode]
  exact SunSighting.advance p ⟨m,nowUs,s.newlyArrived⟩

/-! ### The sun acquired by a body at rest -/

open AdcsTasks (boardPlatform boardCommands restData settlingCycles)

/-- SUN_ACQUISITION is entered in the first cycle, and twenty outputs since then are settled. -/
def restRun : List TaskStep := settlingCycles 21 1000000 ++ restData 2050000

/-- The update after it goes on to SUN_POINTING, on all of them. -/
theorem sun_acquired_at_rest :
    ∃ s s',run (step boardPlatform) init restRun = some s ∧
      s.step boardPlatform (.control (.update 2050000)) = some s' ∧
      SustainedBy boardPlatform s.manager.config.sunAcquisitionSettleCycles.toNat s'.stay := by
  have hrun : (run (step boardPlatform) init restRun).any (fun s =>
      (s.step boardPlatform (.control (.update 2050000))).any fun s' =>
        decide (AdcsManager.AcquiresSun s.manager s'.manager)) = true := by
    decide +kernel
  have hallowed : allowed (step boardPlatform) (fun s a => !s.overlooks boardPlatform a) init
      restRun = true := by
    decide +kernel
  obtain ⟨s,hs,hacquires⟩ := (Option.any_eq_true _ _).mp hrun
  obtain ⟨s',hstep,hacquires⟩ := (Option.any_eq_true _ _).mp hacquires
  refine ⟨s,s',hs,hstep,?_⟩
  refine sun_acquired_on_sustained_evidence hs ?_ rfl hstep (of_decide_eq_true hacquires)
  intro before b after t hactions hbefore
  exact Bool.not_eq_true' _ ▸ of_allowed hallowed hactions hbefore

/-- A control cycle with an output from the sensors at `sensorUs`. -/
def cycleFrom (nowUs sensorUs : BitVec 64) : List TaskStep :=
  [.control (.update nowUs),.control .getState,
    .control (.compute .ok { timestampUs := sensorUs,actuatorsEnabled := 1 }),
    .control (.actuate .ok),.control .setOutput]

/-- In the sixth cycle no new sensor packet has come and the actuators are inhibited. So its output
has the timestamp of the one counted last, and no valid pointing error. -/
def stalledRun : List TaskStep :=
  settlingCycles 5 1000000 ++
    executeCommand boardPlatform boardCommands (.disableActuators 1) ++
    cycleFrom 1250000 1200000 ++
    executeCommand boardPlatform boardCommands (.disableActuators 0) ++
    settlingCycles 16 1300000 ++ restData 2100000

/-- Neither side of an update that saw a disturbing output has counted enough. -/
theorem not_sustainedBy {stay : List SunSighting} {u : SunSighting} {k n : ℕ}
    (hk : stay[k]? = some u) (hu : u.disturbs p = true)
    (hbefore : (stay.take k).countP (·.counts p) < n)
    (hafter : (stay.drop (k+1)).countP (·.counts p) < n) : ¬SustainedBy p n stay := by
  rintro ⟨block,hblock,hcount,-,hquiet⟩
  have hnot : u ∉ block := by
    intro hmem
    rw [hquiet u hmem] at hu
    cases hu
  -- what begins at that update is empty
  have hempty {l : List SunSighting} (hl : l <+: u :: stay.drop (k+1)) (hmem : u ∉ l) : l = [] := by
    cases l with
    | nil => rfl
    | cons v l =>
      obtain rfl := (List.cons_prefix_cons.mp hl).1
      exact absurd (List.mem_cons_self ..) hmem
  obtain ⟨hlt,rfl⟩ := List.getElem?_eq_some_iff.mp hk
  rw [← List.take_append_drop k stay,List.drop_eq_getElem_cons hlt] at hblock
  rcases List.infix_append_iff.mp hblock with hinfix | hinfix | ⟨l₁,l₂,rfl,h₁,h₂⟩
  · have := hinfix.countP_le (p := (·.counts p))
    omega
  · rcases List.infix_cons_iff.mp hinfix with hprefix | hinfix
    · rw [hempty hprefix hnot,List.countP_nil] at hcount
      omega
    · have := hinfix.countP_le (p := (·.counts p))
      omega
  · rw [hempty h₂ fun hmem => hnot (List.mem_append_right _ hmem),List.append_nil] at hcount
    have := h₁.countP_le (p := (·.counts p))
    omega

/-- The update in the cycle after that sees the output and counts on. Twenty outputs are counted
later, of which only sixteen are from after it. -/
theorem sun_acquired_past_unsettled_output :
    ∃ s s',run (step boardPlatform) init stalledRun = some s ∧
      s.step boardPlatform (.control (.update 2100000)) = some s' ∧
      AdcsManager.AcquiresSun s.manager s'.manager ∧
      ¬SustainedBy boardPlatform s.manager.config.sunAcquisitionSettleCycles.toNat s'.stay := by
  have hrun : (run (step boardPlatform) init stalledRun).any (fun s =>
      (s.step boardPlatform (.control (.update 2100000))).any fun s' =>
        decide (AdcsManager.AcquiresSun s.manager s'.manager) &&
          s'.stay[6]?.any (·.disturbs boardPlatform) &&
          decide ((s'.stay.take 6).countP (·.counts boardPlatform) <
              s.manager.config.sunAcquisitionSettleCycles.toNat ∧
            (s'.stay.drop 7).countP (·.counts boardPlatform) <
              s.manager.config.sunAcquisitionSettleCycles.toNat)) = true := by
    decide +kernel
  obtain ⟨s,hs,hrest⟩ := (Option.any_eq_true _ _).mp hrun
  obtain ⟨s',hstep,hrest⟩ := (Option.any_eq_true _ _).mp hrest
  simp only [Bool.and_eq_true,decide_eq_true_eq] at hrest
  obtain ⟨⟨hacquires,hdisturbed⟩,hbefore,hafter⟩ := hrest
  obtain ⟨u,hu,hdisturbs⟩ := (Option.any_eq_true _ _).mp hdisturbed
  exact ⟨s,s',hs,hstep,hacquires,not_sustainedBy hu hdisturbs hbefore hafter⟩

end SunHistory

end FlightSoftware.Adcs
