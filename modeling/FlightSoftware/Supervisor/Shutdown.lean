import FlightSoftware.Supervisor.Instances

/-!
# Shutting down

`supervisor_shutdown_all` sets the flag and stops the slots one after another. The
reaper looks at the flag while it holds the lock of its slot. A restart that FDIR
asks for does not look at it, and the check for a frozen process looks before it
takes the lock. These two are the only ways in which a process is started after
the flag has been set, or left behind.
-/

namespace FlightSoftware.Supervisor
open Run

/-- `kill` and `waitpid` succeed in the step. -/
def SupervisorAction.Succeeds : SupervisorAction → Prop
  | .heartbeat io _ => io.Succeeds
  | .request _ _ _ io => io.Succeeds
  | .exits _ _ => True
  | .shutdownAll => True
  | .shutdownNext io => io.Succeeds

/-- The step is a restart on request of FDIR, or the restart of a process that was found
frozen before, and `posix_spawn` succeeds in it. -/
def Supervision.Restarts (s : Supervision) : SupervisorAction → Prop
  | .heartbeat io _ => (∃ slot,s.heartbeat = .restart slot) ∧ io.spawn ≠ none
  | .request source cmd role io =>
    source = .fdir ∧ SupervisorCmd.ofByte cmd = some .restart ∧
      supervisorFindProcess role ≠ none ∧ io.spawn ≠ none
  | .exits _ _ => False
  | .shutdownAll => False
  | .shutdownNext _ => False

/-- No process has been spawned since the flag was set, and behind `supervisor_shutdown_all`
all slots are empty. -/
def Supervision.ShutDown (s : Supervision) : Prop :=
  (∀ call ∈ s.spawns,call.shuttingDown = true → call.pid = none) ∧
    (s.main = .returned → ∀ slot,(s.processes slot).pid = -1)

/-! ### While no restart gets through -/

/-- The loop of `supervisor_shutdown_all` has passed the slot. -/
def MainPhase.Passed : MainPhase → Slot → Prop
  | .running,_ => False
  | .stopping next,slot => slot < next
  | .returned,_ => True

structure Supervision.Closing (s : Supervision) : Prop where
  flag : s.main ≠ .running → s.shuttingDown = true
  quiet : ∀ call ∈ s.spawns,call.shuttingDown = true → call.pid = none
  passed : ∀ slot,s.main.Passed slot → (s.processes slot).pid = -1

theorem Supervision.Closing.shutDown {s : Supervision} (h : s.Closing) : s.ShutDown := by
  refine ⟨h.quiet,fun hmain slot => h.passed slot ?_⟩
  rw [hmain]
  trivial

theorem MainPhase.ne_running_of_passed {main : MainPhase} {slot : Slot} (h : main.Passed slot) :
    main ≠ .running := by
  rintro rfl
  exact h

/-- A section in which nothing is spawned behind the flag. -/
structure Section.Quiet (shuttingDown : Bool) (p : Process) (done : Section) : Prop where
  spawns : ∀ call ∈ done.spawns,call.shuttingDown = true → call.pid = none
  empty : shuttingDown = true → p.pid = -1 → done.process.pid = -1

theorem shutdown_quiet {p : Process} (h : p.Single) (io : SectionIo) (shuttingDown : Bool) :
    Section.Quiet shuttingDown p ⟨(supervisorShutdownProcessLocked io p).1,
      (supervisorShutdownProcessLocked io p).2,[]⟩ := by
  refine ⟨by rintro call ⟨⟩,fun _ hpid => ?_⟩
  obtain hstop | ⟨hstop,-⟩ := supervisorShutdownProcessLocked_cases h io
  · rw [hstop]
    rfl
  · rw [hstop]
    exact hpid

theorem reap_quiet {p : Process} (h : p.Single) (io : SectionIo) (slot : Slot)
    (shuttingDown : Bool) :
    Section.Quiet shuttingDown p (supervisorReapSlot io slot shuttingDown p) := by
  obtain hreap | ⟨-,hreap⟩ | ⟨hflag,-,hreap⟩ | ⟨hflag,-,hreap⟩ :=
    supervisorReapSlot_cases h io slot shuttingDown
  · rw [hreap]
    exact ⟨by rintro call ⟨⟩,fun _ hpid => hpid⟩
  · rw [hreap]
    exact ⟨by rintro call ⟨⟩,fun _ _ => rfl⟩
  · rw [hreap]
    exact ⟨by rintro call ⟨⟩,fun _ _ => rfl⟩
  · rw [hreap,hflag]
    refine ⟨?_,fun hset => Bool.noConfusion hset⟩
    intro call hcall hset
    rw [List.mem_singleton] at hcall
    rw [hcall] at hset
    cases hset

theorem restart_quiet {p : Process} (h : p.Single) {io : SectionIo} (slot : Slot)
    {shuttingDown : Bool} (hspawn : shuttingDown = true → io.spawn = none) :
    Section.Quiet shuttingDown p
      (supervisorRestartProcessLocked io slot false shuttingDown p) := by
  obtain hrestart | ⟨hrestart,-⟩ :=
    supervisorRestartProcessLocked_cases h io slot false shuttingDown
  · rw [hrestart]
    constructor
    · intro call hcall hset
      rw [List.mem_singleton] at hcall
      rw [hcall] at hset ⊢
      exact hspawn hset
    · intro hset _
      rw [hspawn hset]
      rfl
  · rw [hrestart]
    exact ⟨by rintro call ⟨⟩,fun _ hpid => hpid⟩

namespace Supervision.Closing

theorem started (pids : Slot → Pid) : (Supervision.started pids).Closing where
  flag h := absurd rfl h
  quiet call hcall := by cases hcall
  passed _ h := h.elim

variable {s : Supervision}

/-- The phase of the heartbeat thread does not matter. -/
theorem same (h : s.Closing) (heartbeat : HeartbeatPhase) :
    Supervision.Closing { s with heartbeat } := ⟨h.flag,h.quiet,h.passed⟩

theorem locked (h : s.Closing) {slot : Slot} {done : Section}
    (hdone : done.Quiet s.shuttingDown (s.processes slot)) : (s.locked slot done).Closing := by
  refine ⟨h.flag,?_,?_⟩
  · intro call hcall
    rcases List.mem_append.mp hcall with hcall | hcall
    · exact h.quiet call hcall
    · exact hdone.spawns call hcall
  · intro other hpassed
    have hempty := h.passed other hpassed
    by_cases hother : other = slot
    · subst hother
      have hset := h.flag (MainPhase.ne_running_of_passed hpassed)
      simpa [Supervision.locked] using hdone.empty hset hempty
    · simpa [Supervision.locked,hother] using hempty

theorem heartbeatStep (h : s.Closing) (hintact : s.Intact) {io : SectionIo} {frozen : Bool}
    (hquiet : s.shuttingDown = true → ¬ s.Restarts (.heartbeat io frozen)) :
    (s.heartbeatStep io frozen).Closing := by
  unfold Supervision.heartbeatStep
  split
  · exact (h.locked (reap_quiet (hintact.single _) io _ _)).same _
  · exact h.same _
  · exact h.same _
  · exact h.same _
  · rename_i slot hphase
    refine (h.locked (restart_quiet (hintact.single _) slot fun hset => ?_)).same _
    by_contra hspawn
    exact hquiet hset ⟨⟨slot,hphase⟩,hspawn⟩

theorem handleRequest (h : s.Closing) (hintact : s.Intact) {source : Obc.ObcRole}
    {cmd role : Byte} {io : SectionIo}
    (hquiet : s.shuttingDown = true → ¬ s.Restarts (.request source cmd role io)) :
    (s.handleRequest source cmd role io).Closing := by
  unfold Supervision.handleRequest
  split
  · exact h
  rename_i hsource
  split
  · exact h.locked (shutdown_quiet (hintact.single _) io _)
  · rename_i slot hslot hcmd
    refine h.locked (restart_quiet (hintact.single _) slot fun hset => ?_)
    by_contra hspawn
    exact hquiet hset ⟨not_not.mp hsource,hcmd,by rw [hslot]; exact Option.some_ne_none slot,hspawn⟩
  · exact h

/-- The main thread passes a slot by emptying it. -/
theorem shutdownNext (h : s.Closing) (hintact : s.Intact) {io : SectionIo} {slot : Slot}
    (hmain : s.main = .stopping slot) (hio : io.Succeeds) :
    Supervision.Closing { s.shutdownProcess io slot with
      main := nextSlot slot .stopping .returned } := by
  have hset : s.shuttingDown = true := by
    apply h.flag
    rw [hmain]
    exact MainPhase.noConfusion
  have hstopped : ((s.shutdownProcess io slot).processes slot).pid = -1 := by
    obtain hstop | ⟨-,-,hfails⟩ := supervisorShutdownProcessLocked_cases (hintact.single slot) io
    · simp [Supervision.shutdownProcess,Supervision.locked,hstop,Process.spawned]
    · obtain ⟨-,hterm,hpoll⟩ := hio
      rw [hterm,hpoll] at hfails
      simp at hfails
  have hlocked : (s.shutdownProcess io slot).Closing :=
    h.locked (shutdown_quiet (hintact.single slot) io _)
  refine ⟨fun _ => hset,hlocked.quiet,?_⟩
  intro other hpassed
  have hle : other.val ≤ slot.val := by
    have hlt := other.isLt
    unfold nextSlot at hpassed
    split at hpassed
    · exact Nat.le_of_lt_succ hpassed
    · omega
  obtain rfl | hbefore : other = slot ∨ other < slot := eq_or_lt_of_le hle
  · exact hstopped
  · refine hlocked.passed other ?_
    change s.main.Passed other
    rw [hmain]
    exact hbefore

theorem step (h : s.Closing) (hintact : s.Intact) {a : SupervisorAction} {s' : Supervision}
    (hio : a.Succeeds) (hquiet : s.shuttingDown = true → ¬ s.Restarts a)
    (hs : s.step a = some s') : s'.Closing := by
  cases a with
  | heartbeat io frozen =>
    obtain rfl := Option.some.inj hs
    exact h.heartbeatStep hintact hquiet
  | request source cmd role io =>
    obtain rfl := Option.some.inj hs
    exact h.handleRequest hintact hquiet
  | exits slot pid =>
    obtain rfl := Option.some.inj hs
    refine ⟨h.flag,h.quiet,fun other hpassed => ?_⟩
    have hempty := h.passed other hpassed
    by_cases hother : other = slot
    · subst hother
      simpa using hempty
    · simpa [hother] using hempty
  | shutdownAll =>
    rw [Supervision.step] at hs
    split at hs
    · obtain rfl := Option.some.inj hs
      refine ⟨fun _ => rfl,h.quiet,fun slot hpassed => ?_⟩
      exact absurd (show slot < 0 from hpassed) (Nat.not_lt_zero _)
    · cases hs
  | shutdownNext io =>
    rw [Supervision.step] at hs
    split at hs
    · rename_i slot hmain
      obtain rfl := Option.some.inj hs
      exact h.shutdownNext hintact hmain hio
    · cases hs

end Supervision.Closing

/-! ### When a restart gets through -/

/-- A restart that stops the process and spawns another. -/
theorem restartProcess_spawns {s : Supervision} (h : s.Intact) {io : SectionIo}
    (hio : io.Succeeds) (slot : Slot) :
    (s.restartProcess io slot).spawns =
      s.spawns ++ [⟨slot,false,s.shuttingDown,[],io.spawn⟩] := by
  unfold Supervision.restartProcess Supervision.locked
  obtain hrestart | ⟨-,-,hfails⟩ :=
    supervisorRestartProcessLocked_cases (h.single slot) io slot false s.shuttingDown
  · rw [hrestart]
  · obtain ⟨-,hterm,hpoll⟩ := hio
    rw [hterm,hpoll] at hfails
    simp at hfails

/-- Such a step behind the flag is a spawn behind the flag. -/
theorem Supervision.Restarts.not_shutDown {s s' : Supervision} {a : SupervisorAction}
    (ha : s.Restarts a) (h : s.Intact) (hset : s.shuttingDown = true) (hio : a.Succeeds)
    (hs : s.step a = some s') : ¬ s'.ShutDown := by
  have hlate : ∀ (io : SectionIo) (slot : Slot),io.Succeeds → io.spawn ≠ none →
      s'.spawns = (s.restartProcess io slot).spawns → ¬ s'.ShutDown := by
    intro io slot hsucceeds hspawn hspawns hshut
    rw [restartProcess_spawns h hsucceeds] at hspawns
    refine hspawn (hshut.1 ⟨slot,false,s.shuttingDown,[],io.spawn⟩ ?_ hset)
    rw [hspawns]
    exact List.mem_append_right _ (List.mem_singleton_self _)
  cases a with
  | heartbeat io frozen =>
    obtain ⟨⟨slot,hphase⟩,hspawn⟩ := ha
    obtain rfl := Option.some.inj hs
    refine hlate io slot hio hspawn ?_
    unfold Supervision.heartbeatStep
    rw [hphase]
  | request source cmd role io =>
    obtain ⟨rfl,hcmd,hrole,hspawn⟩ := ha
    obtain rfl := Option.some.inj hs
    obtain ⟨slot,hslot⟩ := Option.ne_none_iff_exists'.mp hrole
    refine hlate io slot hio hspawn ?_
    unfold Supervision.handleRequest
    rw [if_neg (by simp),hslot,hcmd]
  | exits slot pid => exact ha.elim
  | shutdownAll => exact ha.elim
  | shutdownNext io => exact ha.elim

/-! ### Every run -/

/-- With `kill` and `waitpid` succeeding, the shutdown is final throughout a run exactly when no
restart gets through behind the flag: neither one that FDIR requests nor one that the check for
a frozen process decided on before. -/
theorem shutdown_final_iff {pids : Slot → Pid} {actions : List SupervisorAction}
    {s : Supervision} (hrun : run Supervision.step (.started pids) actions = some s)
    (hio : ∀ a ∈ actions,a.Succeeds) :
    (∀ pre post t,actions = pre ++ post → run Supervision.step (.started pids) pre = some t →
      t.ShutDown) ↔
    ∀ pre a post t,actions = pre ++ a :: post →
      run Supervision.step (.started pids) pre = some t → t.shuttingDown = true →
      ¬ t.Restarts a := by
  constructor
  · intro hfinal pre a post t hactions hpre hset hrestarts
    rw [hactions,run_append,hpre] at hrun
    obtain ⟨t',hstep,-⟩ := run_cons_eq_some.mp hrun
    have ha : a.Succeeds := hio a (by rw [hactions]; simp)
    refine hrestarts.not_shutDown (intact_of_run hpre) hset ha hstep ?_
    refine hfinal (pre ++ [a]) post t' (by rw [hactions]; simp) ?_
    rw [run_append,hpre]
    exact run_cons_eq_some.mpr ⟨t',hstep,rfl⟩
  · intro hquiet pre post t hactions hpre
    have hclosing := run_invariant_of
      (I := fun s : Supervision => s.Closing ∧ s.Intact)
      (P := fun s a => a.Succeeds ∧ (s.shuttingDown = true → ¬ s.Restarts a))
      (fun s a s' h ha hs => ⟨h.1.step h.2 ha.1 ha.2 hs,h.2.step hs⟩)
      ⟨.started pids,.started pids⟩ ?_ hpre
    · exact hclosing.1.shutDown
    · intro pre' a post' t' hsplit hpre'
      refine ⟨hio a (by rw [hactions,hsplit]; simp),?_⟩
      exact hquiet pre' a (post' ++ post) t' (by rw [hactions,hsplit]; simp) hpre'

/-- An undisturbed `supervisor_shutdown_all`. -/
def shutdownSteps : List SupervisorAction :=
  .shutdownAll :: List.replicate numProcesses (.shutdownNext (.success none))

theorem undisturbed_shutdown : ∃ s,run Supervision.step (.started firstPids) shutdownSteps = some s ∧
    s.main = .returned ∧ ∀ slot,(s.processes slot).pid = -1 := by
  refine ⟨_,rfl,rfl,?_⟩
  have hactions : ∀ a ∈ shutdownSteps,a = .shutdownAll ∨ a = .shutdownNext (.success none) := by
    intro a ha
    rcases List.mem_cons.mp ha with ha | ha
    · exact .inl ha
    · exact .inr (List.eq_of_mem_replicate ha)
  refine ((@shutdown_final_iff firstPids shutdownSteps _ rfl ?_).mpr ?_ shutdownSteps [] _
    (List.append_nil _).symm rfl).2 rfl
  · intro a ha
    obtain rfl | rfl := hactions a ha
    · trivial
    · exact ⟨rfl,rfl,rfl⟩
  · intro pre a post t hsplit _ _ hrestarts
    obtain rfl | rfl := hactions a (by rw [hsplit]; simp)
    · exact hrestarts
    · exact hrestarts

/-- A request of FDIR to restart Data that is handled behind the flag, and even behind the whole
shutdown, starts a process that nobody stops. -/
theorem restart_after_shutdown : ∃ s,run Supervision.step (.started firstPids)
      (shutdownSteps ++ [.request .fdir 2#8 3#8 (.success (some ⟨120,by decide⟩))]) = some s ∧
    s.shuttingDown = true ∧ s.main = .returned ∧ (s.processes 3).pid = 120 ∧ ¬ s.ShutDown := by
  refine ⟨_,rfl,rfl,rfl,rfl,fun hshut => ?_⟩
  exact absurd (hshut.2 rfl 3) (by decide)

end FlightSoftware.Supervisor
