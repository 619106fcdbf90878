import FlightSoftware.Adcs.SunEvidence

/-!
# What leaving DETUMBLE rests on

DETUMBLE is left for a mode other than SAFE only when `stable_cycles` has reached
`detumble_settle_cycles`. The counter is shared with SUN_ACQUISITION and has 32 bits;
it never exceeds the number of updates that have gone through the DETUMBLE case with
a low rate, one right after another.
-/

namespace FlightSoftware.Adcs

namespace AdcsManager

variable {p : Platform} {activeFaults : BitVec 32} {nowUs : BitVec 64} {m m' : AdcsManager}

/-! ### The checks before the switch -/

/-- What an update has found when it reaches the switch. -/
structure Checked (p : Platform) (activeFaults : BitVec 32) (nowUs : BitVec 64)
    (m : AdcsManager) : Prop where
  faults : activeFaults &&& criticalFaults = 0
  ready : m.sensorsReady p = true
  fresh : m.sensorsFresh nowUs = true

theorem switchAfterBoot_checked (h : m.switchAfterBoot p nowUs = some m') :
    m.sensorsReady p = true ∧ m.sensorsFresh nowUs = true ∧ SameInputs m m' := by
  rw [switchAfterBoot] at h
  split_ifs at h with hsensors
  obtain rfl := Option.some.inj h
  simp only [Bool.or_eq_true,Bool.not_eq_true',not_or,Bool.not_eq_false] at hsensors
  exact ⟨hsensors.1,hsensors.2,applyRequest_sameInputs⟩

theorem atSwitch_checked (h : m.atSwitch p activeFaults nowUs = some m') :
    m.Checked p activeFaults nowUs ∧ m'.bodyRate p = m.bodyRate p := by
  simp only [atSwitch] at h
  split_ifs at h with hended hboot hsensors
  · have hcritical := not_not.mp (not_or.mp hended).2
    obtain ⟨-,-,same⟩ := switchAfterBoot_checked h
    obtain ⟨hready,hfresh⟩ := Bool.and_eq_true_iff.mp hsensors
    refine ⟨⟨hcritical,hready,hfresh⟩,?_⟩
    exact ((enterMode_sameInputs .safe (m.recordFaults activeFaults)).trans same).bodyRate
  · have hcritical := not_not.mp (not_or.mp hended).2
    obtain ⟨hready,hfresh,same⟩ := switchAfterBoot_checked h
    exact ⟨⟨hcritical,hready,hfresh⟩,same.bodyRate⟩

/-! ### Updates that end before the switch -/

theorem updateAfterBoot_eq (h : m.switchAfterBoot p nowUs = none) :
    m.updateAfterBoot p nowUs = m.enterMode .safe ∨
      (m.state.mode.needsAttitude = true ∧ m.updateAfterBoot p nowUs = m.enterMode .detumble) := by
  rw [switchAfterBoot] at h
  rw [updateAfterBoot]
  split_ifs at h ⊢ with _ _ hattitude
  · exact .inl rfl
  · exact .inl rfl
  · exact .inr ⟨hattitude.2.1,rfl⟩

/-- A check enters DETUMBLE from a mode that needs an attitude, and SAFE from any other. -/
theorem updateAfterBoot_fallBack (h : m.switchAfterBoot p nowUs = none) :
    ((m.updateAfterBoot p nowUs).state.mode = .detumble →
      (m.updateAfterBoot p nowUs).state.stableCycles = 0) ∧
    (m.state.mode.needsAttitude = false → (m.updateAfterBoot p nowUs).state.mode = .safe) := by
  rcases updateAfterBoot_eq h with heq | ⟨hneeds,heq⟩
  · rw [heq,enterMode_mode]
    exact ⟨fun hmode => (by cases hmode),fun _ => rfl⟩
  · refine ⟨fun _ => ?_,fun hnot => absurd hneeds (by rw [hnot]; decide)⟩
    rw [heq]
    refine enterMode_stableCycles fun hmode => ?_
    rw [hmode] at hneeds
    cases hneeds

/-- An update that ends in one of its checks enters DETUMBLE with no count, and leaves it for
SAFE. -/
theorem update_fallBack (hinit : m.state.initialized ≠ 0)
    (hnone : m.atSwitch p activeFaults nowUs = none) :
    ((m.update p activeFaults nowUs).state.mode = .detumble →
      (m.update p activeFaults nowUs).state.stableCycles = 0) ∧
    (m.state.mode = .detumble → (m.update p activeFaults nowUs).state.mode = .safe) := by
  have hactive : (m.recordFaults activeFaults).state.health.activeFaults = activeFaults := rfl
  rw [update,if_neg hinit,updateRecorded,hactive]
  by_cases hcritical : activeFaults &&& criticalFaults ≠ 0
  · rw [if_pos hcritical,refreshBuiltinTarget_mode,enterMode_mode]
    exact ⟨fun hmode => (by cases hmode),fun _ => rfl⟩
  rw [if_neg hcritical]
  rw [atSwitch,if_neg (not_or.mpr ⟨hinit,hcritical⟩)] at hnone
  dsimp only at hnone
  split_ifs at hnone ⊢ with hboot hsensors
  · obtain ⟨hcount,hmode⟩ := updateAfterBoot_fallBack hnone
    refine ⟨hcount,fun _ => hmode ?_⟩
    rw [enterMode_mode]
    rfl
  · have hboot' : m.state.mode = .boot := hboot
    refine ⟨fun hmode => ?_,fun hmode => ?_⟩
    all_goals
      rw [show m.state.mode = .detumble from hmode] at hboot'
      cases hboot'
  · obtain ⟨hcount,hmode⟩ := updateAfterBoot_fallBack hnone
    refine ⟨hcount,fun hdetumble => hmode ?_⟩
    rw [show (m.recordFaults activeFaults).state.mode = .detumble from hdetumble]
    rfl

/-! ### The DETUMBLE case -/

/-- What the DETUMBLE case does: it counts a low rate, leaves the mode when the rate has been low
for long enough, or starts its count anew. -/
inductive DetumbleCase (p : Platform) (m m' : AdcsManager) : Prop
  | counts (hrate : (m.bodyRate p).le m.config.detumbleExitRateRadS = true)
      (hmode : m'.state.mode = m.state.mode)
      (hstable : m'.state.stableCycles = m.state.stableCycles+1)
  | leaves (hrate : (m.bodyRate p).le m.config.detumbleExitRateRadS = true)
      (hsettled : m.config.detumbleSettleCycles ≤ m.state.stableCycles+1)
      (hmode : m'.state.mode ≠ .detumble)
  | resets (hmode : m'.state.mode = m.state.mode) (hstable : m'.state.stableCycles = 0)

theorem advanceDetumble_case : DetumbleCase p m (m.advanceDetumble p nowUs) := by
  simp only [advanceDetumble]
  split_ifs with hrate hsettled hallowed
  · refine .leaves hrate hsettled.1 ?_
    rw [enterMode_mode]
    exact hsettled.2
  · refine .leaves hrate hsettled.1 ?_
    rw [enterMode_mode]
    decide
  · exact .counts hrate rfl rfl
  · exact .resets rfl rfl

/-- The target that a mode implies has no part in this. -/
theorem DetumbleCase.refresh (h : DetumbleCase p m m') :
    DetumbleCase p m (m'.refreshBuiltinTarget p) := by
  cases h with
  | counts hrate hmode hstable => exact .counts hrate hmode hstable
  | leaves hrate hsettled hmode => exact .leaves hrate hsettled hmode
  | resets hmode hstable => exact .resets hmode hstable

theorem advanceSunAcquisition_mode :
    (m.advanceSunAcquisition p nowUs).state.mode = m.state.mode ∨
      (m.advanceSunAcquisition p nowUs).state.mode = .sunPointing := by
  simp only [advanceSunAcquisition]
  split_ifs
  · exact .inl rfl
  · exact .inl rfl
  · exact .inr (enterMode_mode _ _)
  · exact .inl rfl
  · exact .inl rfl

/-- The other cases enter DETUMBLE with no count. -/
theorem advanceMode_enters (hmode : m.state.mode ≠ .detumble)
    (hmode' : (m.advanceMode p nowUs).state.mode = .detumble) :
    (m.advanceMode p nowUs).state.stableCycles = 0 := by
  by_cases hsun : m.state.mode = .sunAcquisition
  · have heq : m.advanceMode p nowUs = m.advanceSunAcquisition p nowUs := by
      rw [advanceMode,hsun]
    rw [heq] at hmode'
    have hsunMode : (m.advanceSunAcquisition p nowUs).state.mode = m.state.mode ∨ _ :=
      advanceSunAcquisition_mode
    rcases hsunMode with hsame | hpointing
    · rw [hsame] at hmode'
      exact absurd hmode' hmode
    · rw [hpointing] at hmode'
      cases hmode'
  · exact (advanceMode_moves hsun).anew hmode hmode'

/-- From DETUMBLE an update reaches the DETUMBLE case with what it has counted, unless SAFE is
requested. -/
theorem atSwitch_of_detumble (hmode : m.state.mode = .detumble)
    (h : m.atSwitch p activeFaults nowUs = some m') :
    (m'.state.mode = .detumble ∧ m'.state.stableCycles = m.state.stableCycles) ∨
      (m'.state.mode = .safe ∧ m'.state.requestedMode = .safe) := by
  have hsame : (m.recordFaults activeFaults).state.mode = .detumble := hmode
  simp only [atSwitch,switchAfterBoot,hsame,reduceCtorEq,if_false] at h
  split_ifs at h
  obtain rfl := Option.some.inj h
  rw [applyRequest]
  split_ifs with hsafe hrate hrequest
  · right
    rw [enterMode_mode,enterMode_requestedMode]
    exact ⟨rfl,hsafe⟩
  · left
    rw [enterMode,if_pos hsame]
    exact ⟨hsame,rfl⟩
  · exact absurd hsame hrequest.1
  · exact .inl ⟨hsame,rfl⟩

end AdcsManager

/-! ### Updates -/

/-- An update with the faults that it sees, and the manager that it finds. -/
structure ManagerUpdate where
  activeFaults : BitVec 32
  nowUs : BitVec 64
  before : AdcsManager

namespace ManagerUpdate

variable {p : Platform} {u : ManagerUpdate}

/-- The manager that the update leaves. -/
def after (p : Platform) (u : ManagerUpdate) : AdcsManager :=
  u.before.update p u.activeFaults u.nowUs

/-- The update has found no critical fault and fresh sensors, and has reached the DETUMBLE case
with a rate at which DETUMBLE may be left. -/
structure Settling (p : Platform) (u : ManagerUpdate) : Prop where
  checked : u.before.Checked p u.activeFaults u.nowUs
  detumble : ∃ m,u.before.atSwitch p u.activeFaults u.nowUs = some m ∧ m.state.mode = .detumble
  rate : (u.before.bodyRate p).le u.before.config.detumbleExitRateRadS = true

/-- What an update has to do with DETUMBLE: it is in another mode, or is there with no count, or
with one update more counted, or leaves with enough of them. -/
inductive Detumbles (p : Platform) (u : ManagerUpdate) : Prop
  | elsewhere (hmode : (u.after p).state.mode ≠ .detumble)
      (hleft : u.before.state.mode = .detumble → (u.after p).state.mode = .safe)
  | begins (hstable : (u.after p).state.stableCycles = 0)
      (hmode : (u.after p).state.mode = .detumble)
  | first (settling : u.Settling p) (hmode : (u.after p).state.mode = .detumble)
      (hstable : (u.after p).state.stableCycles = 1)
  | counts (settling : u.Settling p) (hbefore : u.before.state.mode = .detumble)
      (hmode : (u.after p).state.mode = .detumble)
      (hstable : (u.after p).state.stableCycles = u.before.state.stableCycles+1)
  | leaves (settling : u.Settling p) (hbefore : u.before.state.mode = .detumble)
      (hmode : (u.after p).state.mode ≠ .detumble)
      (hsettled : u.before.config.detumbleSettleCycles ≤ u.before.state.stableCycles+1)

theorem settling_of_rate {m : AdcsManager}
    (hswitch : u.before.atSwitch p u.activeFaults u.nowUs = some m)
    (hmode : m.state.mode = .detumble)
    (hrate : (m.bodyRate p).le m.config.detumbleExitRateRadS = true) : u.Settling p := by
  obtain ⟨hchecked,hbody⟩ := AdcsManager.atSwitch_checked hswitch
  rw [hbody,AdcsManager.atSwitch_config hswitch] at hrate
  exact ⟨hchecked,⟨m,hswitch,hmode⟩,hrate⟩

/-- An update that reaches the switch in DETUMBLE. -/
theorem detumbles_of_case {m : AdcsManager}
    (hswitch : u.before.atSwitch p u.activeFaults u.nowUs = some m)
    (hmode : m.state.mode = .detumble)
    (hcase : AdcsManager.DetumbleCase p m (u.after p))
    (hfrom : u.before.state.mode = .detumble ∧ m.state.stableCycles = u.before.state.stableCycles ∨
      u.before.state.mode ≠ .detumble ∧ m.state.stableCycles = 0) : u.Detumbles p := by
  cases hcase with
  | counts hrate hsame hstable =>
    have hsettling := settling_of_rate hswitch hmode hrate
    rcases hfrom with ⟨hbefore,hcount⟩ | ⟨-,hcount⟩
    · rw [hcount] at hstable
      exact .counts hsettling hbefore (hsame.trans hmode) hstable
    · rw [hcount] at hstable
      exact .first hsettling (hsame.trans hmode) hstable
  | leaves hrate hsettled hleft =>
    rcases hfrom with ⟨hbefore,hcount⟩ | ⟨hbefore,-⟩
    · rw [hcount,AdcsManager.atSwitch_config hswitch] at hsettled
      exact .leaves (settling_of_rate hswitch hmode hrate) hbefore hleft hsettled
    · exact .elsewhere hleft fun h => absurd h hbefore
  | resets hsame hstable => exact .begins hstable (hsame.trans hmode)

/-- An update that enters DETUMBLE with no count and leaves it for SAFE. -/
theorem detumbles_of_entry
    (hstable : (u.after p).state.mode = .detumble → (u.after p).state.stableCycles = 0)
    (hleft : u.before.state.mode = .detumble → (u.after p).state.mode = .safe) :
    u.Detumbles p := by
  by_cases hmode : (u.after p).state.mode = .detumble
  · exact .begins (hstable hmode) hmode
  · exact .elsewhere hmode hleft

theorem detumbles (hinit : u.before.state.initialized ≠ 0) : u.Detumbles p := by
  rcases AdcsManager.update_spec p u.activeFaults u.nowUs u.before with
    ⟨hnone,-⟩ | ⟨m,hswitch,heq⟩
  · obtain ⟨hstable,hleft⟩ := AdcsManager.update_fallBack hinit hnone
    exact detumbles_of_entry hstable hleft
  have hafter : u.after p = (m.advanceMode p u.nowUs).refreshBuiltinTarget p := heq
  by_cases hmode : m.state.mode = .detumble
  · refine detumbles_of_case hswitch hmode ?_ ?_
    · have hcase : m.advanceMode p u.nowUs = m.advanceDetumble p u.nowUs := by
        rw [AdcsManager.advanceMode,hmode]
      rw [hafter,hcase]
      exact AdcsManager.advanceDetumble_case.refresh
    · by_cases hbefore : u.before.state.mode = .detumble
      · rcases AdcsManager.atSwitch_of_detumble hbefore hswitch with ⟨-,hcount⟩ | ⟨hsafe,-⟩
        · exact .inl ⟨hbefore,hcount⟩
        · rw [hmode] at hsafe
          cases hsafe
      · cases AdcsManager.atSwitch_stays hswitch with
        | kept hsame => exact absurd (hsame.symm.trans hmode) hbefore
        | anew hstable => exact .inr ⟨hbefore,hstable⟩
  · refine detumbles_of_entry (fun hdetumble => ?_) fun hbefore => ?_
    · rw [hafter] at hdetumble ⊢
      exact AdcsManager.advanceMode_enters hmode hdetumble
    · rcases AdcsManager.atSwitch_of_detumble hbefore hswitch with ⟨hsame,-⟩ | ⟨hsafe,hrequested⟩
      · exact absurd hsame hmode
      · rw [hafter,AdcsManager.refreshBuiltinTarget_mode,AdcsManager.advanceMode,hsafe]
        dsimp only
        rw [AdcsManager.advanceSafe,if_pos hrequested,hsafe]

end ManagerUpdate

/-! ### Every run -/

/-- The system with all the updates that it has gone through, in their order. -/
structure UpdateHistory where
  system : AdcsSystem
  updates : List ManagerUpdate

namespace AdcsSystem

/-- The update that a call is, if it is one. -/
def updating (s : AdcsSystem) : AdcsCall → Option ManagerUpdate
  | .update nowUs => some ⟨s.faults.getActive,nowUs,s.manager⟩
  | _ => none

end AdcsSystem

namespace UpdateHistory

def init (faults : FaultManager) : UpdateHistory := ⟨.init faults,[]⟩

def call (p : Platform) (s : UpdateHistory) (c : AdcsCall) : UpdateHistory :=
  ⟨s.system.call p c,s.updates ++ (s.system.updating c).toList⟩

def calls (p : Platform) (s : UpdateHistory) (cs : List AdcsCall) : UpdateHistory :=
  cs.foldl (call p) s

variable {p : Platform} {s : UpdateHistory}

theorem calls_invariant {I : UpdateHistory → Prop} (hcall : ∀ s c,I s → I (s.call p c))
    (hs : I s) (cs : List AdcsCall) : I (s.calls p cs) := by
  induction cs generalizing s with
  | nil => exact hs
  | cons c cs ih => exact ih (hcall s c hs)

/-- In DETUMBLE, the last updates are at least as many as are counted; each of them had reason to
count, and left the manager in DETUMBLE. -/
structure Counted (p : Platform) (s : UpdateHistory) : Prop where
  ready : AdcsManager.Ready s.system.manager
  block : s.system.manager.state.mode = .detumble → ∃ block,block <:+ s.updates ∧
    s.system.manager.state.stableCycles.toNat ≤ block.length ∧
    ∀ u ∈ block,u.Settling p ∧ (u.after p).state.mode = .detumble

theorem counted_init (faults : FaultManager) : (init faults).Counted p where
  ready := AdcsManager.ready_init
  block h := by cases h

/-- The counter may wrap, so it is at most one more. -/
theorem toNat_succ_le (n : BitVec 32) : (n+1).toNat ≤ n.toNat+1 := by
  rw [BitVec.toNat_add]
  exact Nat.mod_le _ _

theorem Counted.update (h : s.Counted p) (nowUs : BitVec 64) :
    (s.call p (.update nowUs)).Counted p := by
  let u : ManagerUpdate := ⟨s.system.faults.getActive,nowUs,s.system.manager⟩
  refine ⟨AdcsSystem.call_ready h.ready _,fun hmode => ?_⟩
  have hdetumble : (u.after p).state.mode = .detumble := hmode
  change ∃ block,block <:+ s.updates ++ [u] ∧ (u.after p).state.stableCycles.toNat ≤ block.length ∧
    ∀ u ∈ block,u.Settling p ∧ (u.after p).state.mode = .detumble
  cases u.detumbles (p := p) h.ready.initialized with
  | elsewhere hnot => exact absurd hdetumble hnot
  | begins hstable =>
    refine ⟨[],List.nil_suffix,?_,List.forall_mem_nil _⟩
    rw [hstable]
    exact le_refl 0
  | first hsettling _ hstable =>
    refine ⟨[u],List.suffix_append _ _,?_,?_⟩
    · rw [hstable]
      exact le_refl 1
    · intro v hv
      rw [List.mem_singleton.mp hv]
      exact ⟨hsettling,hdetumble⟩
  | counts hsettling hbefore _ hstable =>
    obtain ⟨block,⟨earlier,hsplit⟩,hcount,hall⟩ := h.block hbefore
    refine ⟨block ++ [u],⟨earlier,by rw [← hsplit,List.append_assoc]⟩,?_,?_⟩
    · rw [hstable,List.length_append,List.length_singleton]
      exact (toNat_succ_le _).trans (Nat.succ_le_succ hcount)
    · intro v hv
      rcases List.mem_append.mp hv with hv | hv
      · exact hall v hv
      · rw [List.mem_singleton.mp hv]
        exact ⟨hsettling,hdetumble⟩
  | leaves _ _ hnot => exact absurd hdetumble hnot

theorem Counted.call (h : s.Counted p) (c : AdcsCall) : (s.call p c).Counted p := by
  by_cases hupdate : ∃ nowUs,c = .update nowUs
  · obtain ⟨nowUs,rfl⟩ := hupdate
    exact h.update nowUs
  · refine ⟨AdcsSystem.call_ready h.ready c,?_⟩
    have hcounting := SunHistory.call_counting s.system c
      (p := p) fun nowUs hc => hupdate ⟨nowUs,hc⟩
    simp only [Prod.mk.injEq] at hcounting
    have hnone : s.system.updating c = none := by
      cases c with
      | update nowUs => exact absurd ⟨nowUs,rfl⟩ hupdate
      | _ => rfl
    rw [UpdateHistory.call,hnone,hcounting.1,hcounting.2.1,Option.toList_none,List.append_nil]
    exact h.block

theorem counted_calls (p : Platform) (faults : FaultManager) (cs : List AdcsCall) :
    ((init faults).calls p cs).Counted p :=
  calls_invariant (I := Counted p) (fun _ c h => h.call c) (counted_init faults) cs

/-- After any calls since `adcs_manager_init`, an update that leaves DETUMBLE for a mode other than
SAFE is the last of at least `detumble_settle_cycles` updates, one right after another, each of
which saw no critical fault and fresh sensors and reached the DETUMBLE case with a rate at which
DETUMBLE may be left; those before it have left the manager in DETUMBLE. -/
theorem detumble_left_on_settled_rate (p : Platform) (faults : FaultManager) (cs : List AdcsCall)
    (nowUs : BitVec 64) {s : UpdateHistory} (hs : s = (init faults).calls p cs)
    {u : ManagerUpdate} (hu : s.system.updating (.update nowUs) = some u)
    (hdetumble : u.before.state.mode = .detumble) (hleft : (u.after p).state.mode ≠ .detumble)
    (hsafe : (u.after p).state.mode ≠ .safe) :
    ∃ block,block <:+ s.updates ∧
      u.before.config.detumbleSettleCycles.toNat ≤ (block ++ [u]).length ∧
      (∀ v ∈ block ++ [u],v.Settling p) ∧ ∀ v ∈ block,(v.after p).state.mode = .detumble := by
  have h : s.Counted p := hs ▸ counted_calls p faults cs
  have hbefore : s.system.manager = u.before := by rw [← Option.some.inj hu]
  have hinit := h.ready.initialized
  have hblock := h.block
  rw [hbefore] at hinit hblock
  obtain ⟨block,hsuffix,hcount,hall⟩ := hblock hdetumble
  have hupdate : u.Detumbles p := ManagerUpdate.detumbles hinit
  cases hupdate with
  | elsewhere _ hfallBack => exact absurd (hfallBack hdetumble) hsafe
  | begins _ hmode => exact absurd hmode hleft
  | first _ hmode => exact absurd hmode hleft
  | counts _ _ hmode => exact absurd hmode hleft
  | leaves hsettling _ _ hsettled =>
    refine ⟨block,hsuffix,?_,?_,fun v hv => (hall v hv).2⟩
    · rw [List.length_append,List.length_singleton]
      exact (BitVec.le_def.mp hsettled).trans
        ((toNat_succ_le _).trans (Nat.succ_le_succ hcount))
    · intro v hv
      rcases List.mem_append.mp hv with hv | hv
      · exact (hall v hv).1
      · rw [List.mem_singleton.mp hv]
        exact hsettling

/-- A body at rest that is asked to detumble, and then to point at the sun. -/
def detumbledAtRest : List AdcsCall :=
  AdcsSystem.atRestInSun ++
    [.configure { AdcsManagerConfig.default with detumbleSettleCycles := 2 },.requestMode 2,
      .update 1000000,.requestMode 3]

/-- The next update leaves DETUMBLE, and it is the second one that settles. -/
theorem detumble_left_at_rest :
    ∃ block u,((init .init).calls ⟨.exact,true⟩ detumbledAtRest).system.updating
        (.update 1000000) = some u ∧
      u.before.state.mode = .detumble ∧ (u.after ⟨.exact,true⟩).state.mode = .sunAcquisition ∧
      block <:+ ((init .init).calls ⟨.exact,true⟩ detumbledAtRest).updates ∧
      2 ≤ (block ++ [u]).length ∧ ∀ v ∈ block ++ [u],v.Settling ⟨.exact,true⟩ := by
  let s := (init .init).calls ⟨.exact,true⟩ detumbledAtRest
  let u : ManagerUpdate := ⟨s.system.faults.getActive,1000000,s.system.manager⟩
  have hmode : u.before.state.mode = .detumble := by decide +kernel
  have hafter : (u.after ⟨.exact,true⟩).state.mode = .sunAcquisition := by decide +kernel
  have hcycles : u.before.config.detumbleSettleCycles.toNat = 2 := by decide +kernel
  obtain ⟨block,hsuffix,hlength,hsettling,-⟩ := detumble_left_on_settled_rate ⟨.exact,true⟩ .init
    detumbledAtRest 1000000 (s := s) rfl (u := u) rfl hmode (by rw [hafter]; decide)
    (by rw [hafter]; decide)
  rw [hcycles] at hlength
  exact ⟨block,u,rfl,hmode,hafter,hsuffix,hlength,hsettling⟩

end UpdateHistory

end FlightSoftware.Adcs
