import FlightSoftware.Bus.SimReceive

/-!
# The connection table of the simulated bus

The accept thread appends every connection to `connections_fd`. Calls of send and receive walk
over a snapshot of the table, in any number of threads, use the leftover buffers by the same
index and mark slots dead. Dead slots are not used again, so the table holds as many
connections as were ever accepted, and it has room for five.
-/

namespace FlightSoftware.Bus
open Run

def maxConnections : ℕ := 5

/-- A call of `comms_bus_send` or `comms_bus_receive` in the loop over its snapshot. -/
structure Walk where
  snapshotCount : ℕ
  snapshotFds : ℕ → Option ℕ
  next : ℕ

/-- The table; memory is addressed by the index into the arrays, which have `maxConnections`
entries, and a slot with -1 is `none`. `used` are the indexes that have been used. -/
structure SimTable where
  connectionsFd : ℕ → Option ℕ
  connectionCount : ℕ
  masterLeftover : ℕ → List Byte
  walks : List Walk
  used : List ℕ

inductive SimTableAction where
  | accept (fd : ℕ)
  | beginSend
  | beginReceive
  | write (walk : ℕ) (ok : Bool)
  | receive (walk : ℕ) (pending : List Byte) (call : ReceiveCall) (myAddress : Byte)
  | finish (walk : ℕ)

namespace SimTable

/-- The table after `comms_bus_initialize`, with any memory behind it. -/
def boot (behind : ℕ → Option ℕ) : SimTable where
  connectionsFd i := if i < maxConnections then none else behind i
  connectionCount := 0
  masterLeftover _ := []
  walks := []
  used := []

def use (t : SimTable) (indexes : List ℕ) : SimTable := { t with used := indexes ++ t.used }

/-- `mark_connection_dead` -/
def markConnectionDead (t : SimTable) (index : ℕ) : SimTable :=
  { t.use [index] with connectionsFd := Function.update t.connectionsFd index none }

def setWalk (t : SimTable) (walk : ℕ) (w : Walk) : SimTable :=
  { t with walks := t.walks.set walk w }

def snapshot (t : SimTable) : SimTable :=
  { t with walks := t.walks ++ [⟨t.connectionCount,t.connectionsFd,0⟩] }

/-- The accept thread registers a connection. -/
def register (t : SimTable) (fd : ℕ) : SimTable :=
  { t.use [t.connectionCount] with
    connectionsFd := Function.update t.connectionsFd t.connectionCount (some fd)
    connectionCount := t.connectionCount+1 }

def step (t : SimTable) : SimTableAction → Option SimTable
  | .accept fd => some (t.register fd)
  | .beginSend => some t.snapshot
  -- the receiver first counts the live entries of its snapshot
  | .beginReceive => some (t.snapshot.use (List.range t.connectionCount))
  | .write walk ok =>
    (t.walks[walk]?).bind fun w =>
      if w.next < w.snapshotCount then
        let t' := (t.use [w.next]).setWalk walk { w with next := w.next+1 }
        match w.snapshotFds w.next with
        | none => some t'
        | some _ => some (if ok then t' else t'.markConnectionDead w.next)
      else none
  | .receive walk pending call myAddress =>
    (t.walks[walk]?).bind fun w =>
      if w.next < w.snapshotCount then
        let t' := (t.use [w.next]).setWalk walk { w with next := w.next+1 }
        match w.snapshotFds w.next with
        | none => some t'
        | some _ =>
          (receiveOneFrame ⟨t.masterLeftover w.next,pending⟩ call).map fun r =>
            let t' := { t' with
              masterLeftover :=
                Function.update t.masterLeftover w.next r.connection.leftover }
            match r.result with
            | .timeout => t'
            | .error => t'.markConnectionDead w.next
            | .frame frame =>
              if frame.destAddr ≠ myAddress then t'
              else t'.setWalk walk { w with next := w.snapshotCount }
      else none
  | .finish walk =>
    (t.walks[walk]?).bind fun w =>
      if w.next < w.snapshotCount then none else some { t with walks := t.walks.eraseIdx walk }

/-- The boards with a live connection in the table. -/
def connectedBoards (t : SimTable) : ℕ :=
  ((List.range maxConnections).filter fun i => (t.connectionsFd i).isSome).length

/-- The count and every index used are in bounds. -/
structure InBounds (t : SimTable) : Prop where
  count : t.connectionCount ≤ maxConnections
  used : ∀ i ∈ t.used,i < maxConnections

/-- A connection is registered in an empty slot, with an empty leftover buffer. -/
structure Registers (t t' : SimTable) (fd : ℕ) : Prop where
  slot : t.connectionCount < maxConnections
  empty : t.connectionsFd t.connectionCount = none
  registered : t'.connectionsFd t.connectionCount = some fd
  leftover : t'.masterLeftover t.connectionCount = []

end SimTable

def SimTableAction.isAccept : SimTableAction → Bool
  | .accept _ => true
  | _ => false

/-- The connections accepted by a list of actions. -/
def acceptedConnections (actions : List SimTableAction) : ℕ :=
  actions.countP SimTableAction.isAccept

namespace SimTable

/-! ### What every step keeps -/

/-- The indexes used, the walks and whatever was written lie below the count; the slots from
there on have not been touched. -/
structure Appended (t : SimTable) : Prop where
  used : ∀ i ∈ t.used,i < t.connectionCount
  walks : ∀ w ∈ t.walks,w.snapshotCount ≤ t.connectionCount
  free : ∀ i,t.connectionCount ≤ i → i < maxConnections → t.connectionsFd i = none
  fresh : ∀ i,t.connectionCount ≤ i → t.masterLeftover i = []

theorem appended_boot (behind : ℕ → Option ℕ) : (boot behind).Appended where
  used _ hi := absurd hi List.not_mem_nil
  walks _ hw := absurd hw List.not_mem_nil
  free _ _ hi := if_pos hi
  fresh _ _ := rfl

theorem Appended.use {t : SimTable} (h : t.Appended) {indexes : List ℕ}
    (hindexes : ∀ i ∈ indexes,i < t.connectionCount) : (t.use indexes).Appended where
  used i hi := (List.mem_append.mp hi).elim (hindexes i) (h.used i)
  walks := h.walks
  free := h.free
  fresh := h.fresh

theorem Appended.markConnectionDead {t : SimTable} (h : t.Appended) {index : ℕ}
    (hindex : index < t.connectionCount) : (t.markConnectionDead index).Appended where
  used :=
    have hone : ∀ i ∈ [index],i < t.connectionCount :=
      fun i hi => List.mem_singleton.mp hi ▸ hindex
    (h.use hone).used
  walks := h.walks
  free i hi hmax := by
    change Function.update t.connectionsFd index none i = none
    rw [Function.update_of_ne (Nat.ne_of_gt (lt_of_lt_of_le hindex hi))]
    exact h.free i hi hmax
  fresh := h.fresh

theorem Appended.setWalk {t : SimTable} (h : t.Appended) (walk : ℕ) {w : Walk}
    (hw : w.snapshotCount ≤ t.connectionCount) : (t.setWalk walk w).Appended where
  used := h.used
  walks w' hw' := (List.mem_or_eq_of_mem_set hw').elim (h.walks w') fun heq => heq ▸ hw
  free := h.free
  fresh := h.fresh

theorem Appended.snapshot {t : SimTable} (h : t.Appended) : t.snapshot.Appended where
  used := h.used
  walks w hw := by
    obtain hw | hw := List.mem_append.mp hw
    · exact h.walks w hw
    · exact List.mem_singleton.mp hw ▸ le_refl t.connectionCount
  free := h.free
  fresh := h.fresh

theorem Appended.setLeftover {t : SimTable} (h : t.Appended) {index : ℕ}
    (hindex : index < t.connectionCount) (bytes : List Byte) :
    Appended { t with masterLeftover := Function.update t.masterLeftover index bytes } where
  used := h.used
  walks := h.walks
  free := h.free
  fresh i hi := by
    change Function.update t.masterLeftover index bytes i = []
    rw [Function.update_of_ne (Nat.ne_of_gt (lt_of_lt_of_le hindex hi))]
    exact h.fresh i hi

theorem Appended.register {t : SimTable} (h : t.Appended) (fd : ℕ) :
    (t.register fd).Appended where
  used i hi := by
    obtain hi | hi := List.mem_append.mp hi
    · rw [List.mem_singleton.mp hi]
      exact Nat.lt_succ_self _
    · exact Nat.lt_succ_of_lt (h.used i hi)
  walks w hw := (h.walks w hw).trans (Nat.le_succ _)
  free i hi hmax := by
    change Function.update t.connectionsFd t.connectionCount (some fd) i = none
    rw [Function.update_of_ne (Nat.ne_of_gt hi)]
    exact h.free i (Nat.le_of_succ_le hi) hmax
  fresh i hi := h.fresh i (Nat.le_of_succ_le hi)

/-- A walk takes one of its indexes. -/
theorem Appended.visit {t : SimTable} (h : t.Appended) {walk : ℕ} {w : Walk}
    (hw : t.walks[walk]? = some w) (hnext : w.next < w.snapshotCount) :
    ((t.use [w.next]).setWalk walk { w with next := w.next+1 }).Appended ∧
      w.next < t.connectionCount ∧ w.snapshotCount ≤ t.connectionCount := by
  have hcount := h.walks w (List.mem_of_getElem? hw)
  have hlt : w.next < t.connectionCount := lt_of_lt_of_le hnext hcount
  have huse : (t.use [w.next]).Appended :=
    h.use fun i hi => List.mem_singleton.mp hi ▸ hlt
  exact ⟨huse.setWalk walk hcount,hlt,hcount⟩

/-- Only the accept thread counts, and every step keeps the table appended. -/
theorem Appended.step {t t' : SimTable} {a : SimTableAction} (h : t.Appended)
    (hstep : t.step a = some t') : t'.Appended ∧
      t'.connectionCount = t.connectionCount + acceptedConnections [a] := by
  cases a with
  | accept fd =>
    obtain rfl := Option.some.inj hstep
    exact ⟨h.register fd,rfl⟩
  | beginSend =>
    obtain rfl := Option.some.inj hstep
    exact ⟨h.snapshot,rfl⟩
  | beginReceive =>
    obtain rfl := Option.some.inj hstep
    exact ⟨h.snapshot.use fun i hi => List.mem_range.mp hi,rfl⟩
  | write walk ok =>
    obtain ⟨w,hw,hrest⟩ := Option.bind_eq_some_iff.mp hstep
    split at hrest
    · next hnext =>
      obtain ⟨hvisit,hlt,-⟩ := h.visit hw hnext
      dsimp only at hrest
      split at hrest
      · obtain rfl := Option.some.inj hrest
        exact ⟨hvisit,rfl⟩
      · obtain rfl := Option.some.inj hrest
        split
        · exact ⟨hvisit,rfl⟩
        · exact ⟨hvisit.markConnectionDead hlt,rfl⟩
    · cases hrest
  | receive walk pending call myAddress =>
    obtain ⟨w,hw,hrest⟩ := Option.bind_eq_some_iff.mp hstep
    split at hrest
    · next hnext =>
      obtain ⟨hvisit,hlt,hcount⟩ := h.visit hw hnext
      dsimp only at hrest
      split at hrest
      · obtain rfl := Option.some.inj hrest
        exact ⟨hvisit,rfl⟩
      · obtain ⟨r,-,rfl⟩ := Option.map_eq_some_iff.mp hrest
        have hleft := hvisit.setLeftover hlt r.connection.leftover
        split
        · exact ⟨hleft,rfl⟩
        · exact ⟨hleft.markConnectionDead hlt,rfl⟩
        · split
          · exact ⟨hleft,rfl⟩
          · exact ⟨hleft.setWalk walk hcount,rfl⟩
    · cases hrest
  | finish walk =>
    obtain ⟨w,-,hrest⟩ := Option.bind_eq_some_iff.mp hstep
    split at hrest
    · cases hrest
    · obtain rfl := Option.some.inj hrest
      exact ⟨⟨h.used,fun w' hw' => h.walks w' (List.mem_of_mem_eraseIdx hw'),h.free,h.fresh⟩,
        rfl⟩

/-! ### Every run -/

theorem Appended.run {t t' : SimTable} {actions : List SimTableAction} (h : t.Appended)
    (hrun : run SimTable.step t actions = some t') : t'.Appended ∧
      t'.connectionCount = t.connectionCount + acceptedConnections actions := by
  induction actions generalizing t with
  | nil =>
    obtain rfl := Option.some.inj hrun
    exact ⟨h,rfl⟩
  | cons a actions ih =>
    obtain ⟨u,hu,hrest⟩ := run_cons_eq_some.mp hrun
    obtain ⟨hnext,hcount⟩ := h.step hu
    obtain ⟨hend,hcounts⟩ := ih hnext hrest
    refine ⟨hend,?_⟩
    rw [hcounts,hcount,Nat.add_assoc,acceptedConnections,acceptedConnections,
      acceptedConnections,← List.countP_append,List.singleton_append]

/-- In a run the count and every index stay in bounds, and every connection accepted while fewer
than five boards are connected is registered in an empty slot with an empty leftover buffer,
exactly when the run accepts no more than five connections. -/
theorem in_bounds_iff (behind : ℕ → Option ℕ) (actions : List SimTableAction) (t : SimTable)
    (hrun : run step (boot behind) actions = some t) :
    ((∀ pre post u,actions = pre ++ post → run step (boot behind) pre = some u → u.InBounds) ∧
      ∀ pre fd post u u',actions = pre ++ .accept fd :: post →
        run step (boot behind) pre = some u → u.step (.accept fd) = some u' →
        u.connectedBoards < maxConnections → u.Registers u' fd) ↔
      acceptedConnections actions ≤ maxConnections := by
  constructor
  · rintro ⟨hbounds,-⟩
    have hcount := ((appended_boot behind).run hrun).2
    have hle := (hbounds actions [] t (List.append_nil _).symm hrun).count
    rw [hcount] at hle
    exact (Nat.zero_add _).symm.le.trans hle
  · intro hle
    constructor
    · rintro pre post u rfl hpre
      obtain ⟨happ,hcount⟩ := (appended_boot behind).run hpre
      rw [acceptedConnections,List.countP_append] at hle
      have hu : u.connectionCount ≤ maxConnections := by
        rw [hcount,acceptedConnections]
        change 0 + _ ≤ _
        omega
      exact ⟨hu,fun i hi => lt_of_lt_of_le (happ.used i hi) hu⟩
    · rintro pre fd post u u' rfl hpre hstep _
      obtain ⟨happ,hcount⟩ := (appended_boot behind).run hpre
      obtain rfl := Option.some.inj hstep
      rw [acceptedConnections,List.countP_append,List.countP_cons_of_pos rfl] at hle
      have hslot : u.connectionCount < maxConnections := by
        rw [hcount,acceptedConnections]
        change 0 + _ < _
        omega
      exact ⟨hslot,happ.free _ (le_refl _) hslot,Function.update_self ..,
        happ.fresh _ (le_refl _)⟩

/-- A board connects, resets while it is sent to, and connects again. -/
theorem in_bounds_after_reset :
    ∃ t,run step (boot fun _ => none) [.accept 3,.beginSend,.write 0 false,.accept 4] = some t ∧
      t.InBounds := by
  have hsome : (run step (boot fun _ => none)
      [.accept 3,.beginSend,.write 0 false,.accept 4]).isSome = true := by decide
  obtain ⟨t,ht⟩ := Option.isSome_iff_exists.mp hsome
  have hbounds := (in_bounds_iff _ _ t ht).mpr (by decide)
  exact ⟨t,ht,hbounds.1 _ [] t (List.append_nil _).symm ht⟩

/-- Five boards are connected, one resets, and its new connection goes behind the table. -/
theorem sixth_connection_out_of_bounds :
    let boards : List SimTableAction := [.accept 3,.accept 4,.accept 5,.accept 6,.accept 7,
      .beginSend,.write 0 false]
    (run step (boot fun _ => none) boards).map (·.connectedBoards) = some 4 ∧
      (run step (boot fun _ => none) (boards ++ [.accept 8])).map
        (fun t => (t.connectionCount,t.used.head?,t.connectionsFd 0)) = some (6,some 5,none) := by
  decide

end SimTable

end FlightSoftware.Bus
