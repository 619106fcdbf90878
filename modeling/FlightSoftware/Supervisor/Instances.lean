import FlightSoftware.Supervisor.Processes

/-!
# One instance of each role

A slot holds either the number of its only uncollected child or no child at all.
Every locked section keeps that, whatever the system calls do, so a process is
spawned only where none is left.
-/

namespace FlightSoftware.Supervisor
open Run

/-! ### One slot -/

/-- The slot has one uncollected child and knows its number, or has none. -/
def Process.Single (p : Process) : Prop :=
  (0 < p.pid ∧ p.children.map Child.pid = [p.pid]) ∨ (p.pid = -1 ∧ p.children = [])

/-- The slot after `posix_spawn` was called where no child was left. -/
def Process.spawned (restartCount : ℕ) : Option Pid → Process
  | none => ⟨-1,restartCount,[]⟩
  | some pid => ⟨pid.value,restartCount,[⟨pid.value,false⟩]⟩

theorem Process.single_spawned (restartCount : ℕ) (spawn : Option Pid) :
    (Process.spawned restartCount spawn).Single := by
  cases spawn with
  | none => exact .inr ⟨rfl,rfl⟩
  | some pid => exact .inl ⟨pid.positive,rfl⟩

/-- Collecting the only child leaves an empty slot. -/
theorem Process.collected_eq {p : Process} (h : p.children.map Child.pid = [p.pid]) :
    p.collected = .spawned p.restartCount none := by
  have hempty : p.children.filter (·.pid ≠ p.pid) = [] := by
    rw [List.filter_eq_nil_iff]
    intro child hchild
    have hmem : child.pid ∈ p.children.map Child.pid := List.mem_map_of_mem hchild
    rw [h,List.mem_singleton] at hmem
    simp [hmem]
  rw [Process.collected,hempty]
  rfl

/-- A stop leaves the slot empty, or fails and leaves it as it was. -/
theorem supervisorShutdownProcessLocked_cases {p : Process} (h : p.Single) (io : SectionIo) :
    supervisorShutdownProcessLocked io p = (0,.spawned p.restartCount none) ∨
      supervisorShutdownProcessLocked io p = (-1,p) ∧
        0 < p.pid ∧ (io.termFails = true ∨ io.pollFails = true) := by
  obtain ⟨hpid,hchildren⟩ | ⟨hpid,hchildren⟩ := h
  · unfold supervisorShutdownProcessLocked
    rw [if_neg (by omega)]
    by_cases hterm : io.termFails = true
    · rw [if_pos hterm]
      exact .inr ⟨rfl,hpid,.inl hterm⟩
    · rw [if_neg hterm,hchildren]
      by_cases hpoll : io.pollFails = true
      · rw [if_pos (.inl hpoll)]
        exact .inr ⟨rfl,hpid,.inr hpoll⟩
      · rw [if_neg (by simp [hpoll]),Process.collected_eq hchildren]
        exact .inl rfl
  · obtain ⟨pid,restartCount,children⟩ := p
    obtain rfl : pid = -1 := hpid
    obtain rfl : children = [] := hchildren
    exact .inl rfl

/-- A restart stops the process and calls `posix_spawn`, or fails to stop it. -/
theorem supervisorRestartProcessLocked_cases {p : Process} (h : p.Single) (io : SectionIo)
    (slot : Slot) (byReap shuttingDown : Bool) :
    supervisorRestartProcessLocked io slot byReap shuttingDown p =
        ⟨if io.spawn.isSome then 0 else -1,.spawned p.restartCount io.spawn,
          [⟨slot,byReap,shuttingDown,[],io.spawn⟩]⟩ ∨
      supervisorRestartProcessLocked io slot byReap shuttingDown p = ⟨-1,p,[]⟩ ∧
        0 < p.pid ∧ (io.termFails = true ∨ io.pollFails = true) := by
  unfold supervisorRestartProcessLocked
  obtain hstop | ⟨hstop,hfails⟩ := supervisorShutdownProcessLocked_cases h io
  · rw [hstop]
    cases hspawn : io.spawn with
    | none => exact .inl rfl
    | some pid => exact .inl rfl
  · rw [hstop]
    exact .inr ⟨rfl,hfails⟩

/-- The reaper leaves the slot alone, or collects the child and then stops at the flag, gives
up, or calls `posix_spawn`. -/
theorem supervisorReapSlot_cases {p : Process} (h : p.Single) (io : SectionIo) (slot : Slot)
    (shuttingDown : Bool) :
    supervisorReapSlot io slot shuttingDown p = ⟨0,p,[]⟩ ∨
    (shuttingDown = true ∧
      supervisorReapSlot io slot shuttingDown p = ⟨0,.spawned p.restartCount none,[]⟩) ∨
    (shuttingDown = false ∧ maxCrashRestarts < p.restartCount+1 ∧
      supervisorReapSlot io slot shuttingDown p = ⟨0,.spawned (p.restartCount+1) none,[]⟩) ∨
    (shuttingDown = false ∧ p.restartCount+1 ≤ maxCrashRestarts ∧
      supervisorReapSlot io slot shuttingDown p =
        ⟨if io.spawn.isSome then 0 else -1,.spawned (p.restartCount+1) io.spawn,
          [⟨slot,true,shuttingDown,[],io.spawn⟩]⟩) := by
  unfold supervisorReapSlot
  obtain ⟨hpid,hchildren⟩ | ⟨hpid,-⟩ := h
  · rw [if_neg (by omega)]
    split
    · exact .inl rfl
    rw [Process.collected_eq hchildren]
    cases shuttingDown with
    | true => exact .inr (.inl ⟨rfl,rfl⟩)
    | false =>
      rw [if_neg (by decide)]
      dsimp only
      split
      · rename_i hcount
        exact .inr (.inr (.inl ⟨rfl,hcount,rfl⟩))
      · rename_i hcount
        refine .inr (.inr (.inr ⟨rfl,Nat.le_of_not_lt hcount,?_⟩))
        obtain hrestart | ⟨-,hpos,-⟩ := supervisorRestartProcessLocked_cases
          (Process.single_spawned (p.restartCount+1) none) io slot true false
        · exact hrestart
        · exact absurd (show (0 : ℤ) < -1 from hpos) (by decide)
  · rw [if_pos (by omega)]
    exact .inl rfl

/-- What a locked section keeps of its slot. -/
structure Section.Keeps (slot : Slot) (p : Process) (done : Section) : Prop where
  single : done.process.Single
  count : p.restartCount ≤ done.process.restartCount
  spawns : done.spawns = [] ∨ ∃ call,done.spawns = [call] ∧ call.slot = slot ∧
    call.children = [] ∧ (call.byReap = true → p.restartCount < done.process.restartCount ∧
      done.process.restartCount ≤ maxCrashRestarts)

theorem shutdown_keeps {p : Process} (h : p.Single) (io : SectionIo) (slot : Slot) :
    Section.Keeps slot p ⟨(supervisorShutdownProcessLocked io p).1,
      (supervisorShutdownProcessLocked io p).2,[]⟩ := by
  obtain hstop | ⟨hstop,-⟩ := supervisorShutdownProcessLocked_cases h io
  · rw [hstop]
    exact ⟨Process.single_spawned _ none,le_rfl,.inl rfl⟩
  · rw [hstop]
    exact ⟨h,le_rfl,.inl rfl⟩

theorem spawned_restartCount (restartCount : ℕ) (spawn : Option Pid) :
    (Process.spawned restartCount spawn).restartCount = restartCount := by
  cases spawn <;> rfl

theorem restart_keeps {p : Process} (h : p.Single) (io : SectionIo) (slot : Slot)
    (shuttingDown : Bool) :
    Section.Keeps slot p (supervisorRestartProcessLocked io slot false shuttingDown p) := by
  obtain hrestart | ⟨hrestart,-⟩ :=
    supervisorRestartProcessLocked_cases h io slot false shuttingDown
  · rw [hrestart]
    exact ⟨Process.single_spawned _ _,(spawned_restartCount _ _).ge,
      .inr ⟨_,rfl,rfl,rfl,Bool.noConfusion⟩⟩
  · rw [hrestart]
    exact ⟨h,le_rfl,.inl rfl⟩

theorem reap_keeps {p : Process} (h : p.Single) (io : SectionIo) (slot : Slot)
    (shuttingDown : Bool) : Section.Keeps slot p (supervisorReapSlot io slot shuttingDown p) := by
  obtain hreap | ⟨-,hreap⟩ | ⟨-,-,hreap⟩ | ⟨-,hcount,hreap⟩ :=
    supervisorReapSlot_cases h io slot shuttingDown
  · rw [hreap]
    exact ⟨h,le_rfl,.inl rfl⟩
  · rw [hreap]
    exact ⟨Process.single_spawned _ none,le_rfl,.inl rfl⟩
  · rw [hreap]
    exact ⟨Process.single_spawned _ none,Nat.le_succ _,.inl rfl⟩
  · rw [hreap]
    refine ⟨Process.single_spawned _ _,?_,.inr ⟨_,rfl,rfl,rfl,fun _ => ?_⟩⟩
    · rw [spawned_restartCount]
      exact Nat.le_succ _
    · rw [spawned_restartCount]
      exact ⟨Nat.lt_succ_self _,hcount⟩

/-! ### The system -/

/-- The number of times that the reaper has called `posix_spawn` for a slot. -/
def Supervision.reapSpawns (s : Supervision) (slot : Slot) : ℕ :=
  s.spawns.countP fun call => call.byReap ∧ call.slot = slot

/-- A locked section adds at most one such call, and only by counting the crash. -/
theorem reapSpawns_locked {s : Supervision} {slot : Slot} {done : Section}
    (hdone : done.Keeps slot (s.processes slot)) (other : Slot) :
    (s.locked slot done).reapSpawns other = s.reapSpawns other ∨
      other = slot ∧ (s.locked slot done).reapSpawns other = s.reapSpawns other + 1 ∧
        (s.processes slot).restartCount < done.process.restartCount ∧
        done.process.restartCount ≤ maxCrashRestarts := by
  unfold Supervision.reapSpawns Supervision.locked
  obtain hnone | ⟨call,hcall,hslot,-,hcount⟩ := hdone.spawns
  · rw [hnone,List.append_nil]
    exact .inl rfl
  · rw [hcall,List.countP_append,List.countP_singleton]
    by_cases hreap : call.byReap = true ∧ call.slot = other
    · rw [if_pos (by simpa using hreap)]
      exact .inr ⟨hreap.2.symm.trans hslot,rfl,hcount hreap.1⟩
    · rw [if_neg (by simpa using hreap)]
      exact .inl rfl

structure Supervision.Intact (s : Supervision) : Prop where
  single : ∀ slot,(s.processes slot).Single
  collected : ∀ call ∈ s.spawns,call.children = []
  counted : ∀ slot,s.reapSpawns slot ≤ (s.processes slot).restartCount ∧
    s.reapSpawns slot ≤ maxCrashRestarts

namespace Supervision.Intact

theorem started (pids : Slot → Pid) : (Supervision.started pids).Intact where
  single slot := .inl ⟨(pids slot).positive,rfl⟩
  collected call hcall := by cases hcall
  counted _ := ⟨le_rfl,Nat.zero_le _⟩

variable {s : Supervision}

/-- Only the slots and the record of the calls matter. -/
theorem same (h : s.Intact) {s' : Supervision} (hprocesses : s'.processes = s.processes)
    (hspawns : s'.spawns = s.spawns) : s'.Intact := by
  refine ⟨?_,?_,?_⟩
  · rw [hprocesses]
    exact h.single
  · rw [hspawns]
    exact h.collected
  · unfold Supervision.reapSpawns
    rw [hspawns,hprocesses]
    exact h.counted

theorem locked (h : s.Intact) {slot : Slot} {done : Section}
    (hdone : done.Keeps slot (s.processes slot)) : (s.locked slot done).Intact := by
  constructor
  case single =>
    intro other
    by_cases hother : other = slot
    · subst hother
      simpa [Supervision.locked] using hdone.single
    · simpa [Supervision.locked,hother] using h.single other
  case collected =>
    intro call hcall
    rcases List.mem_append.mp hcall with hcall | hcall
    · exact h.collected call hcall
    · obtain hnone | ⟨made,hmade,-,hchildren,-⟩ := hdone.spawns
      · rw [hnone] at hcall
        cases hcall
      · rw [hmade,List.mem_singleton] at hcall
        rw [hcall,hchildren]
  case counted =>
    intro other
    obtain ⟨hcounted,hlimited⟩ := h.counted other
    obtain hsame | ⟨rfl,hmore,hless,hle⟩ := reapSpawns_locked hdone other
    · rw [hsame]
      refine ⟨hcounted.trans ?_,hlimited⟩
      by_cases hother : other = slot
      · subst hother
        simpa [Supervision.locked] using hdone.count
      · simp [Supervision.locked,hother]
    · have hcount : ((s.locked other done).processes other).restartCount =
          done.process.restartCount := by simp [Supervision.locked]
      omega

theorem exits (h : s.Intact) {slot : Slot} {p : Process} (hp : p.pid = (s.processes slot).pid)
    (hcount : p.restartCount = (s.processes slot).restartCount)
    (hchildren : p.children.map Child.pid = (s.processes slot).children.map Child.pid) :
    Supervision.Intact { s with processes := Function.update s.processes slot p } := by
  have hkeeps : Section.Keeps slot (s.processes slot) ⟨0,p,[]⟩ := by
    refine ⟨?_,hcount.ge,.inl rfl⟩
    obtain hsingle | ⟨hpid,hempty⟩ := h.single slot
    · left
      rw [hp,hchildren]
      exact hsingle
    · right
      rw [hempty,List.map_nil,List.map_eq_nil_iff] at hchildren
      exact ⟨hp.trans hpid,hchildren⟩
  exact (h.locked hkeeps).same rfl (List.append_nil _).symm

theorem shutdownProcess (h : s.Intact) (io : SectionIo) (slot : Slot) :
    (s.shutdownProcess io slot).Intact := h.locked (shutdown_keeps (h.single slot) io slot)

theorem restartProcess (h : s.Intact) (io : SectionIo) (slot : Slot) :
    (s.restartProcess io slot).Intact :=
  h.locked (restart_keeps (h.single slot) io slot s.shuttingDown)

theorem heartbeatStep (h : s.Intact) (io : SectionIo) (frozen : Bool) :
    (s.heartbeatStep io frozen).Intact := by
  unfold Supervision.heartbeatStep
  split
  · exact (h.locked (reap_keeps (h.single _) io _ s.shuttingDown)).same rfl rfl
  · exact h.same rfl rfl
  · exact h.same rfl rfl
  · exact h.same rfl rfl
  · exact (h.restartProcess io _).same rfl rfl

theorem handleRequest (h : s.Intact) (source : Obc.ObcRole) (cmd role : Byte) (io : SectionIo) :
    (s.handleRequest source cmd role io).Intact := by
  unfold Supervision.handleRequest
  split
  · exact h
  · split
    · exact h.shutdownProcess io _
    · exact h.restartProcess io _
    · exact h

theorem step (h : s.Intact) {a : SupervisorAction} {s' : Supervision} (hs : s.step a = some s') :
    s'.Intact := by
  cases a with
  | heartbeat io frozen =>
    obtain rfl := Option.some.inj hs
    exact h.heartbeatStep io frozen
  | request source cmd role io =>
    obtain rfl := Option.some.inj hs
    exact h.handleRequest source cmd role io
  | exits slot pid =>
    obtain rfl := Option.some.inj hs
    refine h.exits rfl rfl ?_
    rw [List.map_map]
    refine List.map_congr_left fun child _ => ?_
    dsimp only [Function.comp]
    split <;> rfl
  | shutdownAll =>
    rw [Supervision.step] at hs
    split at hs
    · obtain rfl := Option.some.inj hs
      exact h.same rfl rfl
    · cases hs
  | shutdownNext io =>
    rw [Supervision.step] at hs
    split at hs
    · obtain rfl := Option.some.inj hs
      exact (h.shutdownProcess io _).same rfl rfl
    · cases hs

end Supervision.Intact

theorem intact_of_run {pids : Slot → Pid} {actions : List SupervisorAction} {s : Supervision}
    (hrun : run Supervision.step (.started pids) actions = some s) : s.Intact :=
  run_invariant (fun _ _ _ h hs => h.step hs) (.started pids) hrun

/-- In every run a process is spawned only where the slot's earlier children have all been
collected. A slot has at most one uncollected child, which is the one it holds the number of,
and the reaper starts at most five processes for it. -/
theorem one_instance_per_role {pids : Slot → Pid} {actions : List SupervisorAction}
    {s : Supervision} (hrun : run Supervision.step (.started pids) actions = some s) :
    (∀ call ∈ s.spawns,call.children = []) ∧
    (∀ slot,(s.processes slot).children.length ≤ 1) ∧
    (∀ slot,0 < (s.processes slot).pid →
      (s.processes slot).children.map Child.pid = [(s.processes slot).pid]) ∧
    ∀ slot,s.reapSpawns slot ≤ maxCrashRestarts := by
  have h := intact_of_run hrun
  refine ⟨h.collected,?_,?_,fun slot => (h.counted slot).2⟩
  · intro slot
    obtain ⟨-,hchildren⟩ | ⟨-,hchildren⟩ := h.single slot
    · rw [← List.length_map Child.pid,hchildren]
      rfl
    · rw [hchildren]
      exact Nat.zero_le _
  · intro slot hpid
    obtain ⟨-,hchildren⟩ | ⟨hnone,-⟩ := h.single slot
    · exact hchildren
    · omega

/-- All calls succeed, and the given process is started where one is. -/
def SectionIo.success (spawn : Option Pid) : SectionIo := ⟨false,false,false,spawn⟩

/-- The numbers of the six processes after an undisturbed start. -/
def firstPids (slot : Slot) : Pid := ⟨100 + slot.val,by omega⟩

/-- FDIR's own process exits and the reaper starts another. -/
theorem fdir_respawned : ∃ s,run Supervision.step (.started firstPids)
      [.exits 0 100,.heartbeat (.success (some ⟨120,by decide⟩)) false] = some s ∧
    s.reapSpawns 0 = 1 ∧ (s.processes 0).children.map Child.pid = [120] := by
  refine ⟨_,rfl,rfl,?_⟩
  exact (@one_instance_per_role firstPids
    [.exits 0 100,.heartbeat (.success (some ⟨120,by decide⟩)) false] _ rfl).2.2.1 0 (by decide)

end FlightSoftware.Supervisor
