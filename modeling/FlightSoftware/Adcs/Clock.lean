import FlightSoftware.Adcs.Messages
import FlightSoftware.Lib.Ticks

/-!
# The clock of the attitude controller

The board counts milliseconds in 32 bits. The clock extends them to 64 bits by the difference
of each reading to the one before, and unix time is kept as the microseconds since the last
accepted synchronisation. Every call runs in a critical section, so calls do not interleave.
-/

namespace FlightSoftware.Adcs

/-- The static variables of the clock. -/
structure AdcsClock where
  previousMs : BitVec 32
  elapsedMs : BitVec 64
  synchronizedUnixUs : BitVec 64
  synchronizedBootUs : BitVec 64
  deriving DecidableEq

/-- Ten years in microseconds, which a synchronisation leaves room for. -/
def unixSyncRoomUs : BitVec 64 := 315576000000000

/-- The times that `adcs_set_unix_time_us` accepts. -/
def SyncAccepted (time : BitVec 64) : Prop :=
  ¬(time = 0 ∨ BitVec.allOnes 64-unixSyncRoomUs < time)

instance (time : BitVec 64) : Decidable (SyncAccepted time) :=
  inferInstanceAs (Decidable (¬(_ ∨ _)))

/-- An accepted time and ten years fit 64 bits. -/
theorem SyncAccepted.room {time : BitVec 64} (h : SyncAccepted time) :
    time.toNat+unixSyncRoomUs.toNat < 2^64 := by
  have hle : time ≤ BitVec.allOnes 64-unixSyncRoomUs := BitVec.not_lt.mp (not_or.mp h).2
  have hnat : time.toNat ≤ (BitVec.allOnes 64-unixSyncRoomUs).toNat := hle
  have hroom : (BitVec.allOnes 64-unixSyncRoomUs).toNat+unixSyncRoomUs.toNat < 2^64 := by decide
  omega

namespace AdcsClock

def boot : AdcsClock := ⟨0,0,0,0⟩

/-- `now` is the reading of `HAL_GetTick`. -/
def monotonicTimeUs (now : BitVec 32) (c : AdcsClock) : BitVec 64 × AdcsClock :=
  let elapsedMs := c.elapsedMs+(now-c.previousMs).setWidth 64
  (elapsedMs*1000,{ c with elapsedMs := elapsedMs, previousMs := now })

def unixTimeUs (now : BitVec 32) (c : AdcsClock) : BitVec 64 × AdcsClock :=
  let r := c.monotonicTimeUs now
  (if r.2.synchronizedUnixUs = 0 then 0
    else r.2.synchronizedUnixUs+(r.1-r.2.synchronizedBootUs),r.2)

def setUnixTimeUs (now : BitVec 32) (time : BitVec 64) (c : AdcsClock) :
    AdcsResult × AdcsClock :=
  if time = 0 ∨ BitVec.allOnes 64-unixSyncRoomUs < time then (.invalidArgument,c)
  else
    let r := c.monotonicTimeUs now
    (.ok,{ r.2 with synchronizedBootUs := r.1, synchronizedUnixUs := time })

end AdcsClock

/-! ### Calls at true times -/

inductive ClockCall where
  | monotonicTimeUs
  | unixTimeUs
  | setUnixTimeUs (time : BitVec 64)
  deriving DecidableEq

inductive ClockReply where
  | time (us : BitVec 64)
  | result (r : AdcsResult)
  deriving DecidableEq

namespace ClockCall

def enter (now : BitVec 32) (c : AdcsClock) : ClockCall → ClockReply × AdcsClock
  | monotonicTimeUs => let r := c.monotonicTimeUs now; (.time r.1,r.2)
  | unixTimeUs => let r := c.unixTimeUs now; (.time r.1,r.2)
  | setUnixTimeUs time => let r := c.setUnixTimeUs now time; (.result r.1,r.2)

/-- The call sets the unix time. -/
def Syncs : ClockCall → Prop
  | setUnixTimeUs time => SyncAccepted time
  | _ => False

/-- The call reads the tick. A synchronisation that is rejected returns before it does. -/
def ReadsTick : ClockCall → Prop
  | setUnixTimeUs time => SyncAccepted time
  | _ => True

instance (call : ClockCall) : Decidable call.Syncs :=
  match call with
  | monotonicTimeUs | unixTimeUs => isFalse id
  | setUnixTimeUs time => inferInstanceAs (Decidable (SyncAccepted time))

instance (call : ClockCall) : Decidable call.ReadsTick :=
  match call with
  | monotonicTimeUs | unixTimeUs => isTrue trivial
  | setUnixTimeUs time => inferInstanceAs (Decidable (SyncAccepted time))

end ClockCall

/-- A call made `gap` milliseconds after the call before, the first one after tick 0. -/
structure TimedCall where
  gap : ℕ
  call : ClockCall
  deriving DecidableEq

/-- The milliseconds that pass until the last of the calls. -/
def elapsed (calls : List TimedCall) : ℕ := (calls.map TimedCall.gap).sum

@[simp] theorem elapsed_nil : elapsed [] = 0 := rfl

@[simp] theorem elapsed_cons (c : TimedCall) (calls : List TimedCall) :
    elapsed (c :: calls) = c.gap+elapsed calls := by
  rw [elapsed,List.map_cons,List.sum_cons,elapsed]

@[simp] theorem elapsed_append (as bs : List TimedCall) :
    elapsed (as ++ bs) = elapsed as+elapsed bs := by
  rw [elapsed,List.map_append,List.sum_append,elapsed,elapsed]

/-- The clock, and the true milliseconds since tick 0, of which the tick has the low 32 bits. -/
structure ClockSystem where
  ms : ℕ
  clock : AdcsClock
  deriving DecidableEq

namespace ClockSystem

def boot : ClockSystem := ⟨0,.boot⟩

def call (w : ClockSystem) (c : TimedCall) : ClockReply × ClockSystem :=
  let r := c.call.enter (BitVec.ofNat 32 (w.ms+c.gap)) w.clock
  (r.1,⟨w.ms+c.gap,r.2⟩)

def after (w : ClockSystem) (calls : List TimedCall) : ClockSystem :=
  calls.foldl (fun w c => (w.call c).2) w

/-- What `adcs_monotonic_time_us` returns to its callers in a run. -/
def monotonicReadings (w : ClockSystem) : List TimedCall → List ClockReply
  | [] => []
  | c :: calls =>
    (if c.call = .monotonicTimeUs then [(w.call c).1] else []) ++
      (w.call c).2.monotonicReadings calls

@[simp] theorem after_nil (w : ClockSystem) : w.after [] = w := rfl

@[simp] theorem after_cons (w : ClockSystem) (c : TimedCall) (calls : List TimedCall) :
    w.after (c :: calls) = (w.call c).2.after calls := rfl

theorem after_append (w : ClockSystem) (as bs : List TimedCall) :
    w.after (as ++ bs) = (w.after as).after bs := List.foldl_append ..

theorem call_ms (w : ClockSystem) (c : TimedCall) : (w.call c).2.ms = w.ms+c.gap := rfl

theorem after_ms (w : ClockSystem) (calls : List TimedCall) :
    (w.after calls).ms = w.ms+elapsed calls := by
  induction calls generalizing w with
  | nil => rfl
  | cons c calls ih => rw [after_cons,ih,call_ms,elapsed_cons,Nat.add_assoc]

end ClockSystem

/-! ### The count follows the true time -/

/-- Fewer than 2^32 milliseconds pass from one call that reads the tick to the next; `since`
have passed from the last one before the calls. -/
def KeepsUp : ℕ → List TimedCall → Prop
  | _,[] => True
  | since,c :: calls =>
    if c.call.ReadsTick then since+c.gap < 2^32 ∧ KeepsUp 0 calls
    else KeepsUp (since+c.gap) calls

instance (since : ℕ) (calls : List TimedCall) : Decidable (KeepsUp since calls) :=
  match calls with
  | [] => isTrue trivial
  | c :: calls =>
    have := instDecidableKeepsUp 0 calls
    have := instDecidableKeepsUp (since+c.gap) calls
    inferInstanceAs (Decidable (if c.call.ReadsTick then _ else _))

/-- The clock was brought up to date `read` milliseconds after tick 0. -/
structure AdcsClock.Tracks (c : AdcsClock) (read : ℕ) : Prop where
  tick : c.previousMs = BitVec.ofNat 32 read
  count : c.elapsedMs = BitVec.ofNat 64 read

/-- The clock brought up to date `ms` milliseconds after tick 0. -/
def AdcsClock.upTo (c : AdcsClock) (ms : ℕ) : AdcsClock :=
  { c with elapsedMs := BitVec.ofNat 64 ms, previousMs := BitVec.ofNat 32 ms }

theorem AdcsClock.upTo_tracks (c : AdcsClock) (ms : ℕ) : (c.upTo ms).Tracks ms := ⟨rfl,rfl⟩

/-- A reading brings the clock up to date, when the last one was not too long ago. -/
theorem AdcsClock.Tracks.monotonicTimeUs_eq {c : AdcsClock} {read ms : ℕ} (h : c.Tracks read)
    (hle : read ≤ ms) (hgap : ms-read < 2^32) :
    c.monotonicTimeUs (BitVec.ofNat 32 ms) = (BitVec.ofNat 64 (1000*ms),c.upTo ms) := by
  have hcount : c.elapsedMs+(BitVec.ofNat 32 ms-c.previousMs).setWidth 64 = BitVec.ofNat 64 ms := by
    rw [h.tick,h.count]
    exact Ticks.advance_ofNat read ms hle hgap
  have hus : BitVec.ofNat 64 ms*1000 = BitVec.ofNat 64 (1000*ms) := by
    rw [Nat.mul_comm,BitVec.ofNat_mul]
    rfl
  rw [AdcsClock.monotonicTimeUs,hcount,hus,AdcsClock.upTo]

namespace ClockSystem

/-- The clock was up to date at its last reading, and the calls to come keep it so. -/
def OnTime (w : ClockSystem) (calls : List TimedCall) : Prop :=
  ∃ read,read ≤ w.ms ∧ w.clock.Tracks read ∧ KeepsUp (w.ms-read) calls

theorem onTime_boot {calls : List TimedCall} (h : KeepsUp 0 calls) : boot.OnTime calls :=
  ⟨0,le_refl _,⟨rfl,rfl⟩,h⟩

/-- What a call leaves of the clock, and what it answers. -/
theorem OnTime.call_eq {w : ClockSystem} {c : TimedCall} {calls : List TimedCall}
    (h : w.OnTime (c :: calls)) (hread : c.call.ReadsTick) :
    w.clock.monotonicTimeUs (BitVec.ofNat 32 (w.ms+c.gap)) =
      (BitVec.ofNat 64 (1000*(w.ms+c.gap)),w.clock.upTo (w.ms+c.gap)) := by
  obtain ⟨read,hle,htracks,hkeeps⟩ := h
  rw [KeepsUp,if_pos hread] at hkeeps
  exact htracks.monotonicTimeUs_eq (by omega) (by omega)

theorem call_rejected (w : ClockSystem) {c : TimedCall} (h : ¬c.call.ReadsTick) :
    (w.call c).2 = ⟨w.ms+c.gap,w.clock⟩ := by
  obtain ⟨gap,call⟩ := c
  cases call with
  | monotonicTimeUs => exact absurd trivial h
  | unixTimeUs => exact absurd trivial h
  | setUnixTimeUs time =>
    have hrej : time = 0 ∨ BitVec.allOnes 64-unixSyncRoomUs < time := Decidable.not_not.mp h
    simp only [call,ClockCall.enter,AdcsClock.setUnixTimeUs,if_pos hrej]

theorem OnTime.call_tracks {w : ClockSystem} {c : TimedCall} {calls : List TimedCall}
    (h : w.OnTime (c :: calls)) (hread : c.call.ReadsTick) :
    (w.call c).2.clock.Tracks (w.ms+c.gap) := by
  have heq := h.call_eq hread
  obtain ⟨gap,call⟩ := c
  cases call with
  | monotonicTimeUs =>
    simp only [ClockSystem.call,ClockCall.enter,heq]
    exact w.clock.upTo_tracks _
  | unixTimeUs =>
    simp only [ClockSystem.call,ClockCall.enter,AdcsClock.unixTimeUs,heq]
    exact w.clock.upTo_tracks _
  | setUnixTimeUs time =>
    simp only [ClockSystem.call,ClockCall.enter,AdcsClock.setUnixTimeUs,heq,if_neg hread]
    exact ⟨rfl,rfl⟩

theorem OnTime.step {w : ClockSystem} {c : TimedCall} {calls : List TimedCall}
    (h : w.OnTime (c :: calls)) : (w.call c).2.OnTime calls := by
  by_cases hread : c.call.ReadsTick
  · refine ⟨w.ms+c.gap,le_of_eq (w.call_ms c).symm,h.call_tracks hread,?_⟩
    obtain ⟨read,hle,htracks,hkeeps⟩ := h
    rw [KeepsUp,if_pos hread] at hkeeps
    rw [w.call_ms c,Nat.sub_self]
    exact hkeeps.2
  · obtain ⟨read,hle,htracks,hkeeps⟩ := h
    rw [KeepsUp,if_neg hread] at hkeeps
    rw [w.call_rejected hread]
    refine ⟨read,Nat.le_add_right_of_le hle,htracks,?_⟩
    rwa [Nat.sub_add_comm hle]

theorem OnTime.after {w : ClockSystem} {pre post : List TimedCall}
    (h : w.OnTime (pre ++ post)) : (w.after pre).OnTime post := by
  induction pre generalizing w with
  | nil => exact h
  | cons c pre ih => exact ih h.step

/-! ### What the calls answer -/

theorem OnTime.monotonic {w : ClockSystem} {gap : ℕ} {calls : List TimedCall}
    (h : w.OnTime (⟨gap,.monotonicTimeUs⟩ :: calls)) :
    (w.call ⟨gap,.monotonicTimeUs⟩).1 = .time (BitVec.ofNat 64 (1000*(w.ms+gap))) := by
  have heq := h.call_eq trivial
  simp only [call,ClockCall.enter,heq]

theorem OnTime.unix {w : ClockSystem} {gap : ℕ} {calls : List TimedCall}
    (h : w.OnTime (⟨gap,.unixTimeUs⟩ :: calls)) :
    (w.call ⟨gap,.unixTimeUs⟩).1 = .time (if w.clock.synchronizedUnixUs = 0 then 0
      else w.clock.synchronizedUnixUs+
        (BitVec.ofNat 64 (1000*(w.ms+gap))-w.clock.synchronizedBootUs)) := by
  have heq := h.call_eq trivial
  simp only [call,ClockCall.enter,AdcsClock.unixTimeUs,heq]
  rfl

theorem OnTime.sync {w : ClockSystem} {gap : ℕ} {time : BitVec 64} {calls : List TimedCall}
    (h : w.OnTime (⟨gap,.setUnixTimeUs time⟩ :: calls)) (hacc : SyncAccepted time) :
    (w.call ⟨gap,.setUnixTimeUs time⟩).2.clock.synchronizedUnixUs = time ∧
      (w.call ⟨gap,.setUnixTimeUs time⟩).2.clock.synchronizedBootUs =
        BitVec.ofNat 64 (1000*(w.ms+gap)) := by
  have heq := h.call_eq hacc
  simp only [call,ClockCall.enter,AdcsClock.setUnixTimeUs,heq,if_neg (show ¬(_ ∨ _) from hacc)]
  exact ⟨trivial,trivial⟩

theorem call_setUnixTimeUs_ok (w : ClockSystem) (gap : ℕ) (time : BitVec 64) :
    (w.call ⟨gap,.setUnixTimeUs time⟩).1 = .result .ok ↔ SyncAccepted time := by
  by_cases hacc : SyncAccepted time
  · simp only [call,ClockCall.enter,AdcsClock.setUnixTimeUs,if_neg hacc,hacc]
  · have hrej : time = 0 ∨ BitVec.allOnes 64-unixSyncRoomUs < time := Decidable.not_not.mp hacc
    simp only [call,ClockCall.enter,AdcsClock.setUnixTimeUs,if_pos hrej,hacc,iff_false]
    exact fun h => AdcsResult.noConfusion (ClockReply.result.inj h)

/-- Only an accepted synchronisation moves the unix time. -/
theorem call_synchronized (w : ClockSystem) {c : TimedCall} (h : ¬c.call.Syncs) :
    (w.call c).2.clock.synchronizedUnixUs = w.clock.synchronizedUnixUs ∧
      (w.call c).2.clock.synchronizedBootUs = w.clock.synchronizedBootUs := by
  obtain ⟨gap,call⟩ := c
  cases call with
  | monotonicTimeUs => exact ⟨rfl,rfl⟩
  | unixTimeUs => exact ⟨rfl,rfl⟩
  | setUnixTimeUs time =>
    rw [call_rejected w (c := ⟨gap,.setUnixTimeUs time⟩) h]
    exact ⟨rfl,rfl⟩

theorem after_synchronized (w : ClockSystem) {calls : List TimedCall}
    (h : ∀ c ∈ calls,¬c.call.Syncs) :
    (w.after calls).clock.synchronizedUnixUs = w.clock.synchronizedUnixUs ∧
      (w.after calls).clock.synchronizedBootUs = w.clock.synchronizedBootUs := by
  induction calls generalizing w with
  | nil => exact ⟨rfl,rfl⟩
  | cons c calls ih =>
    have hc := w.call_synchronized (h c (List.mem_cons_self ..))
    have hcalls := ih (w.call c).2 fun b hb => h b (List.mem_cons_of_mem _ hb)
    rw [after_cons]
    exact ⟨hcalls.1.trans hc.1,hcalls.2.trans hc.2⟩

/-- Unix time goes on from the last accepted synchronisation. -/
theorem OnTime.unix_since_sync {w : ClockSystem} {gap gap' : ℕ} {time : BitVec 64}
    {mid calls : List TimedCall}
    (h : w.OnTime (⟨gap,.setUnixTimeUs time⟩ :: mid ++ ⟨gap',.unixTimeUs⟩ :: calls))
    (hacc : SyncAccepted time) (hmid : ∀ c ∈ mid,¬c.call.Syncs) :
    ((w.after (⟨gap,.setUnixTimeUs time⟩ :: mid)).call ⟨gap',.unixTimeUs⟩).1 =
      .time (time+BitVec.ofNat 64 (1000*(elapsed mid+gap'))) := by
  have hsync := OnTime.sync h hacc
  have hkept := (w.call ⟨gap,.setUnixTimeUs time⟩).2.after_synchronized hmid
  have hne : time ≠ 0 := (not_or.mp hacc).1
  have hms : (w.after (⟨gap,.setUnixTimeUs time⟩ :: mid)).ms+gap' =
      w.ms+gap+(elapsed mid+gap') := by
    rw [after_ms,elapsed_cons]
    change w.ms+(gap+elapsed mid)+gap' = _
    omega
  have hdiff : BitVec.ofNat 64 (1000*(w.ms+gap+(elapsed mid+gap')))-
      BitVec.ofNat 64 (1000*(w.ms+gap)) = BitVec.ofNat 64 (1000*(elapsed mid+gap')) := by
    rw [Ticks.reading_sub _ _ (by omega)]
    congr 1
    omega
  rw [h.after.unix,hms,after_cons,hkept.1,hkept.2,hsync.1,hsync.2,if_neg hne,hdiff]

/-- The true times of the calls to `adcs_monotonic_time_us`. -/
def monotonicTimes : ℕ → List TimedCall → List ℕ
  | _,[] => []
  | ms,c :: calls =>
    (if c.call = .monotonicTimeUs then [ms+c.gap] else []) ++ monotonicTimes (ms+c.gap) calls

theorem OnTime.monotonicReadings_eq {w : ClockSystem} {calls : List TimedCall}
    (h : w.OnTime calls) : w.monotonicReadings calls =
      (monotonicTimes w.ms calls).map fun ms => .time (BitVec.ofNat 64 (1000*ms)) := by
  induction calls generalizing w with
  | nil => rfl
  | cons c calls ih =>
    rw [ClockSystem.monotonicReadings,monotonicTimes,List.map_append,ih h.step,call_ms]
    congr 1
    split
    · next hc =>
      obtain ⟨gap,call⟩ := c
      obtain rfl : call = .monotonicTimeUs := hc
      rw [h.monotonic]
      rfl
    · rfl

theorem monotonicTimes_append (ms : ℕ) (as bs : List TimedCall) :
    monotonicTimes ms (as ++ bs) = monotonicTimes ms as ++ monotonicTimes (ms+elapsed as) bs := by
  induction as generalizing ms with
  | nil => rfl
  | cons c as ih =>
    rw [List.cons_append,monotonicTimes,monotonicTimes,ih,List.append_assoc,elapsed_cons,
      Nat.add_assoc ms]

/-- A synchronisation put before a call leaves the true times as they are. -/
theorem monotonicTimes_insert (ms gap gap' : ℕ) (time : BitVec 64) (call : ClockCall)
    (pre post : List TimedCall) :
    monotonicTimes ms (pre ++ ⟨gap,.setUnixTimeUs time⟩ :: ⟨gap',call⟩ :: post) =
      monotonicTimes ms (pre ++ ⟨gap+gap',call⟩ :: post) := by
  have hne : ClockCall.setUnixTimeUs time ≠ .monotonicTimeUs := fun h => ClockCall.noConfusion h
  rw [monotonicTimes_append,monotonicTimes_append]
  simp only [monotonicTimes,if_neg hne,List.nil_append,Nat.add_assoc]

/-- A reading of the true time in microseconds, while these fit 64 bits. -/
theorem toNat_us {n : ℕ} (h : n < 2^64) : (BitVec.ofNat 64 n).toNat = n := by
  rw [BitVec.toNat_ofNat,Nat.mod_eq_of_lt h]

/-- Where the calls that read the tick come within 2^32 milliseconds of each other, the
monotonic time is the true one and never decreases, until its microseconds no longer fit 64
bits. Unix time is 0 before the first accepted synchronisation and goes on from the last one
for at least ten years, and no synchronisation shows in a monotonic reading. -/
theorem time_correct (calls : List TimedCall) (hkeeps : KeepsUp 0 calls) :
    (∀ pre gap post,calls = pre ++ ⟨gap,.monotonicTimeUs⟩ :: post →
      1000*(elapsed pre+gap) < 2^64 →
      ∃ us,((boot.after pre).call ⟨gap,.monotonicTimeUs⟩).1 = .time us ∧
        us.toNat = 1000*(elapsed pre+gap)) ∧
    (∀ pre gap mid gap' post,
      calls = pre ++ ⟨gap,.monotonicTimeUs⟩ :: mid ++ ⟨gap',.monotonicTimeUs⟩ :: post →
      1000*(elapsed pre+gap+elapsed mid+gap') < 2^64 →
      ∃ us us',((boot.after pre).call ⟨gap,.monotonicTimeUs⟩).1 = .time us ∧
        ((boot.after (pre ++ ⟨gap,.monotonicTimeUs⟩ :: mid)).call
          ⟨gap',.monotonicTimeUs⟩).1 = .time us' ∧ us ≤ us') ∧
    (∀ pre gap post,calls = pre ++ ⟨gap,.unixTimeUs⟩ :: post → (∀ c ∈ pre,¬c.call.Syncs) →
      ((boot.after pre).call ⟨gap,.unixTimeUs⟩).1 = .time 0) ∧
    (∀ pre gap time post,calls = pre ++ ⟨gap,.setUnixTimeUs time⟩ :: post →
      (((boot.after pre).call ⟨gap,.setUnixTimeUs time⟩).1 = .result .ok ↔
        SyncAccepted time)) ∧
    (∀ pre gap time mid gap' post,
      calls = pre ++ (⟨gap,.setUnixTimeUs time⟩ :: mid ++ ⟨gap',.unixTimeUs⟩ :: post) →
      SyncAccepted time → (∀ c ∈ mid,¬c.call.Syncs) →
      1000*(elapsed mid+gap') ≤ unixSyncRoomUs.toNat →
      ∃ us,((boot.after (pre ++ ⟨gap,.setUnixTimeUs time⟩ :: mid)).call
          ⟨gap',.unixTimeUs⟩).1 = .time us ∧
        us.toNat = time.toNat+1000*(elapsed mid+gap')) ∧
    (∀ pre gap gap' time call post,calls = pre ++ ⟨gap+gap',call⟩ :: post →
      KeepsUp 0 (pre ++ ⟨gap,.setUnixTimeUs time⟩ :: ⟨gap',call⟩ :: post) →
      boot.monotonicReadings (pre ++ ⟨gap,.setUnixTimeUs time⟩ :: ⟨gap',call⟩ :: post) =
        boot.monotonicReadings calls) := by
  have hontime : boot.OnTime calls := onTime_boot hkeeps
  have hreading : ∀ pre gap post,calls = pre ++ ⟨gap,.monotonicTimeUs⟩ :: post →
      ((boot.after pre).call ⟨gap,.monotonicTimeUs⟩).1 =
        .time (BitVec.ofNat 64 (1000*(elapsed pre+gap))) := by
    rintro pre gap post rfl
    rw [hontime.after.monotonic,after_ms]
    congr 4
    exact Nat.zero_add _
  refine ⟨?_,?_,?_,?_,?_,?_⟩
  · intro pre gap post hcalls hfit
    exact ⟨_,hreading pre gap post hcalls,toNat_us hfit⟩
  · intro pre gap mid gap' post hcalls hfit
    have hfirst := hreading pre gap (mid ++ ⟨gap',.monotonicTimeUs⟩ :: post)
      (by rw [hcalls,List.append_assoc,List.cons_append])
    have hsecond := hreading (pre ++ ⟨gap,.monotonicTimeUs⟩ :: mid) gap' post hcalls
    rw [elapsed_append,elapsed_cons] at hsecond
    refine ⟨_,_,hfirst,hsecond,?_⟩
    change (BitVec.ofNat 64 _).toNat ≤ (BitVec.ofNat 64 (1000*(_+(gap+_)+_))).toNat
    rw [toNat_us (by omega),toNat_us (by omega)]
    omega
  · rintro pre gap post rfl hnone
    rw [hontime.after.unix,(after_synchronized boot hnone).1,
      if_pos (show boot.clock.synchronizedUnixUs = 0 from rfl)]
  · intro pre gap time post _
    exact call_setUnixTimeUs_ok ..
  · rintro pre gap time mid gap' post rfl hacc hmid hyears
    have hroom := hacc.room
    have hunix := hontime.after.unix_since_sync hacc hmid
    rw [← after_append] at hunix
    refine ⟨_,hunix,?_⟩
    rw [BitVec.toNat_add_of_lt,toNat_us (by omega)]
    rw [toNat_us (by omega)]
    omega
  · rintro pre gap gap' time call post rfl hinsert
    rw [(onTime_boot hinsert).monotonicReadings_eq,hontime.monotonicReadings_eq,
      monotonicTimes_insert]

/-- A synchronisation at the first wrap, readings before and after it, then unix time. -/
theorem time_correct_over_wrap :
    let calls := [⟨4294967290,.monotonicTimeUs⟩,⟨10,.setUnixTimeUs 1700000000000000⟩,
      ⟨2000,.unixTimeUs⟩]
    KeepsUp 0 calls ∧
      ∃ us,((boot.after [⟨4294967290,.monotonicTimeUs⟩,⟨10,.setUnixTimeUs 1700000000000000⟩]).call
          ⟨2000,.unixTimeUs⟩).1 = .time us ∧ us.toNat = 1700000000000000+1000*(0+2000) :=
  have hkeeps : KeepsUp 0 [⟨4294967290,.monotonicTimeUs⟩,
      ⟨10,.setUnixTimeUs 1700000000000000⟩,⟨2000,.unixTimeUs⟩] := by decide
  ⟨hkeeps,(time_correct _ hkeeps).2.2.2.2.1 [⟨4294967290,.monotonicTimeUs⟩] 10 1700000000000000 []
    2000 [] rfl (by decide) (by simp) (by decide)⟩

/-- Calls fewer than 2^32 milliseconds apart are not enough. A rejected synchronisation does not
read the tick, so a wrap may pass unseen around it; and no 64-bit reading is the true time of
a run that is long enough. -/
theorem wrap_unseen_over_rejected_sync :
    (∃ pre gap,(∀ c ∈ pre ++ [⟨gap,.monotonicTimeUs⟩],c.gap < 2^32) ∧
      elapsed (pre ++ [⟨gap,.monotonicTimeUs⟩]) = 2^32 ∧
      ((boot.after pre).call ⟨gap,.monotonicTimeUs⟩).1 = .time 0) ∧
    ∃ calls : List TimedCall,(∀ c ∈ calls,c.gap < 2^32 ∧ c.call = .monotonicTimeUs) ∧
      ∀ us : BitVec 64,us.toNat < 1000*elapsed calls := by
  constructor
  · refine ⟨[⟨4294967295,.setUnixTimeUs 0⟩],1,?_,?_,?_⟩
    · intro c hc
      fin_cases hc
      · decide
      · decide
    · simp
    · decide
  · obtain ⟨n,hn⟩ : ∃ n : ℕ,2^64 ≤ 1000*(n*4294967295) := ⟨4294969,by norm_num⟩
    refine ⟨List.replicate n ⟨4294967295,.monotonicTimeUs⟩,?_,?_⟩
    · intro c hc
      obtain rfl := List.eq_of_mem_replicate hc
      exact ⟨by decide,rfl⟩
    · intro us
      have hlt := us.isLt
      have helapsed : elapsed (List.replicate n ⟨4294967295,.monotonicTimeUs⟩) = n*4294967295 := by
        rw [elapsed,List.map_replicate,List.sum_replicate,smul_eq_mul]
      rw [helapsed]
      omega

end ClockSystem

end FlightSoftware.Adcs
