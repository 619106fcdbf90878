import FlightSoftware.Bus.CspInterface

/-!
# The rotation of the I2C master

`comms_bus_receive` polls the known slaves in turn until one has a frame. A call that delivers a
frame begins the next one behind that slave. A call that fails on what a slave announced or
sent leaves the rotation as it is, so the slave that comes first fails the next call as well.
-/

namespace FlightSoftware.Bus
open BigEndian Adcs Run

/-! ### The code -/

structure KnownSlave where
  cspAddr : Byte
  i2cAddr : Byte
  deriving DecidableEq

def knownSlaves : List KnownSlave := [⟨adcsAddress,0x2A#8⟩,⟨thermalsAddress,0x43#8⟩]

def numKnownSlaves : ℕ := knownSlaves.length

/-- The bytes of the two transfers of a poll, where they succeed. -/
structure Poll where
  statusTransfer : Option (List Byte)
  frameTransfer : Option (List Byte)
  deriving DecidableEq

/-- What a poll of a slave comes to. -/
inductive PollVerdict where
  | quiet (validStatus : Bool)
  | misbehaved
  | frame (frame : Frame)
  deriving DecidableEq

/-- The checks of `comms_bus_receive` on one slave: an unreadable frame, one from or for another
address and one longer than the buffer each end the call with an error. -/
def judgePoll (myAddress : Byte) (maxLength : BitVec 16) (slave : KnownSlave) (poll : Poll) :
    PollVerdict :=
  match getSlaveStatus poll.statusTransfer with
  | none => .quiet false
  | some status =>
    if status.flags &&& statusDataReady = 0#8 then .quiet true
    else
      match readSlaveFrame status.frameLength poll.frameTransfer with
      | none => .misbehaved
      | some frame =>
        if frame.srcAddr ≠ slave.cspAddr then .misbehaved
        else if frame.destAddr ≠ myAddress then .misbehaved
        else if frame.length > maxLength then .misbehaved
        else .frame frame

inductive RealResult where
  | received (frame : Frame)
  | slaveError (index : ℕ)
  | timeout
  | busError
  deriving DecidableEq

/-- The arguments of a call, and the polls it makes until it returns or, at the beginning of a
round, its deadline has passed. -/
structure RealCall where
  busOpen : Bool
  bufferGiven : Bool
  maxLength : BitVec 16
  polls : List Poll
  deriving DecidableEq

/-- The result of a call, the slaves it polled, and `next_slave_start` afterwards. -/
structure RealReception where
  result : RealResult
  polled : List ℕ
  nextSlaveStart : ℕ
  deriving DecidableEq

/-- The index of the slave polled at the position `k` of a call. -/
def pollIndex (nextSlaveStart k : ℕ) : ℕ := (nextSlaveStart + k%numKnownSlaves)%numKnownSlaves

/-- The two loops of `comms_bus_receive` from the position `k` on. -/
def pollSlaves (myAddress : Byte) (maxLength : BitVec 16) (nextSlaveStart : ℕ) :
    ℕ → Bool → List Poll → Option RealReception
  | k,sawValidStatus,[] =>
    -- the deadline is looked at between two rounds
    if k%numKnownSlaves ≠ 0 then none
    else some ⟨if sawValidStatus then .timeout else .busError,[],nextSlaveStart⟩
  | k,sawValidStatus,poll :: polls =>
    let index := pollIndex nextSlaveStart k
    (knownSlaves[index]?).bind fun slave =>
      match judgePoll myAddress maxLength slave poll with
      | .quiet validStatus =>
        (pollSlaves myAddress maxLength nextSlaveStart (k+1) (sawValidStatus || validStatus)
          polls).map fun r => { r with polled := index :: r.polled }
      | .misbehaved => some ⟨.slaveError index,[index],nextSlaveStart⟩
      | .frame frame => some ⟨.received frame,[index],(index+1)%numKnownSlaves⟩

/-- `comms_bus_receive` on the I2C master. -/
def receiveOnI2c (myAddress : Byte) (nextSlaveStart : ℕ) (call : RealCall) :
    Option RealReception :=
  if !call.busOpen || !call.bufferGiven || call.maxLength = 0 then
    some ⟨.busError,[],nextSlaveStart⟩
  else pollSlaves myAddress call.maxLength nextSlaveStart 0 false call.polls

/-! ### Runs -/

/-- A call with `next_slave_start` before it and what it came to. -/
structure RealStep where
  nextSlaveStart : ℕ
  call : RealCall
  reception : RealReception
  deriving DecidableEq

def realSteps (myAddress : Byte) : ℕ → List RealCall → Option (List RealStep)
  | _,[] => some []
  | nextSlaveStart,call :: calls =>
    (receiveOnI2c myAddress nextSlaveStart call).bind fun r =>
      (realSteps myAddress r.nextSlaveStart calls).map (⟨nextSlaveStart,call,r⟩ :: ·)

/-- Where a call failed because of a slave, the next one polls every other slave before that. -/
def FairAfterError (s next : RealStep) : Prop :=
  ∀ i,s.reception.result = .slaveError i →
    ∀ pre post,next.reception.polled = pre ++ i :: post →
      ∀ j < numKnownSlaves,j ≠ i → j ∈ pre

def Poll.Quiet (myAddress : Byte) (maxLength : BitVec 16) (index : ℕ) (poll : Poll) : Prop :=
  ∃ slave validStatus,knownSlaves[index]? = some slave ∧
    judgePoll myAddress maxLength slave poll = .quiet validStatus

def Poll.Misbehaved (myAddress : Byte) (maxLength : BitVec 16) (index : ℕ) (poll : Poll) : Prop :=
  ∃ slave,knownSlaves[index]? = some slave ∧
    judgePoll myAddress maxLength slave poll = .misbehaved

/-- The call polls at all. -/
def RealCall.Polls (call : RealCall) : Prop :=
  call.busOpen = true ∧ call.bufferGiven = true ∧ call.maxLength ≠ 0 ∧ call.polls ≠ []

/-- The slave at the position `k` is the first that is not quiet in the call, and misbehaves. -/
def MisbehavesAt (myAddress : Byte) (nextSlaveStart : ℕ) (call : RealCall) (k : ℕ) : Prop :=
  call.Polls ∧
    (∃ poll,call.polls[k]? = some poll ∧
      poll.Misbehaved myAddress call.maxLength (pollIndex nextSlaveStart k)) ∧
    ∀ m < k,∀ poll,call.polls[m]? = some poll →
      poll.Quiet myAddress call.maxLength (pollIndex nextSlaveStart m)

/-- The misbehaving slave is the one that came first in the call. -/
def FirstMisbehaves (myAddress : Byte) (s : RealStep) : Prop :=
  ∃ k,MisbehavesAt myAddress s.nextSlaveStart s.call k ∧ k%numKnownSlaves = 0

/-! ### One call -/

theorem pollIndex_lt (nextSlaveStart k : ℕ) : pollIndex nextSlaveStart k < numKnownSlaves :=
  Nat.mod_lt _ (by decide)

/-- A poll is quiet, or ends the call with an error or a frame. -/
theorem pollSlaves_cons {myAddress : Byte} {maxLength : BitVec 16} {start k : ℕ} {saw : Bool}
    {poll : Poll} {polls : List Poll} {r : RealReception}
    (h : pollSlaves myAddress maxLength start k saw (poll :: polls) = some r) :
    (poll.Quiet myAddress maxLength (pollIndex start k) ∧ ∃ saw' rest,
        pollSlaves myAddress maxLength start (k+1) saw' polls = some rest ∧
        r = { rest with polled := pollIndex start k :: rest.polled }) ∨
      (poll.Misbehaved myAddress maxLength (pollIndex start k) ∧
        r = ⟨.slaveError (pollIndex start k),[pollIndex start k],start⟩) ∨
      (¬poll.Quiet myAddress maxLength (pollIndex start k) ∧
        ¬poll.Misbehaved myAddress maxLength (pollIndex start k) ∧
        ∃ frame,r = ⟨.received frame,[pollIndex start k],
          (pollIndex start k+1)%numKnownSlaves⟩) := by
  rw [pollSlaves] at h
  obtain ⟨slave,hslave,hrest⟩ := Option.bind_eq_some_iff.mp h
  cases hjudge : judgePoll myAddress maxLength slave poll with
  | quiet validStatus =>
    rw [hjudge] at hrest
    obtain ⟨rest,hpolls,rfl⟩ := Option.map_eq_some_iff.mp hrest
    exact .inl ⟨⟨slave,validStatus,hslave,hjudge⟩,_,rest,hpolls,rfl⟩
  | misbehaved =>
    rw [hjudge] at hrest
    exact .inr (.inl ⟨⟨slave,hslave,hjudge⟩,(Option.some.inj hrest).symm⟩)
  | frame frame =>
    rw [hjudge] at hrest
    refine .inr (.inr ⟨?_,?_,frame,(Option.some.inj hrest).symm⟩)
    · rintro ⟨slave',validStatus,hslave',hquiet⟩
      obtain rfl := Option.some.inj (hslave.symm.trans hslave')
      rw [hjudge] at hquiet
      cases hquiet
    · rintro ⟨slave',hslave',hbad⟩
      obtain rfl := Option.some.inj (hslave.symm.trans hslave')
      rw [hjudge] at hbad
      cases hbad

theorem Poll.Quiet.not_misbehaved {myAddress : Byte} {maxLength : BitVec 16} {index : ℕ}
    {poll : Poll} (h : poll.Quiet myAddress maxLength index) :
    ¬poll.Misbehaved myAddress maxLength index := by
  obtain ⟨slave,validStatus,hslave,hquiet⟩ := h
  rintro ⟨slave',hslave',hbad⟩
  obtain rfl := Option.some.inj (hslave.symm.trans hslave')
  rw [hquiet] at hbad
  cases hbad

/-- The polls go round from the beginning of the rotation. -/
theorem pollSlaves_polled {myAddress : Byte} {maxLength : BitVec 16} {start k : ℕ} {saw : Bool}
    {polls : List Poll} {r : RealReception}
    (h : pollSlaves myAddress maxLength start k saw polls = some r) {m i : ℕ}
    (hm : r.polled[m]? = some i) : i = pollIndex start (k+m) := by
  induction polls generalizing k saw r m with
  | nil =>
    rw [pollSlaves] at h
    split at h
    · cases h
    · obtain rfl := Option.some.inj h
      cases hm
  | cons poll polls ih =>
    have hsingle : [pollIndex start k][m]? = some i → i = pollIndex start (k+m) := by
      intro hget
      cases m with
      | zero => exact (Option.some.inj hget).symm
      | succ m => cases hget
    obtain ⟨-,saw',rest,hrest,rfl⟩ | ⟨-,rfl⟩ | ⟨-,-,frame,rfl⟩ := pollSlaves_cons h
    · cases m with
      | zero => exact (Option.some.inj hm).symm
      | succ m =>
        rw [ih hrest hm]
        congr 1
        omega
    · exact hsingle hm
    · exact hsingle hm

/-- The call fails on a slave where this is the first that is not quiet, and misbehaves. -/
theorem pollSlaves_error_iff {myAddress : Byte} {maxLength : BitVec 16} {start k : ℕ}
    {saw : Bool} {polls : List Poll} {r : RealReception}
    (h : pollSlaves myAddress maxLength start k saw polls = some r) (i : ℕ) :
    r.result = .slaveError i ↔ ∃ m,(∃ poll,polls[m]? = some poll ∧
        poll.Misbehaved myAddress maxLength (pollIndex start (k+m))) ∧
      (∀ n < m,∀ poll,polls[n]? = some poll →
        poll.Quiet myAddress maxLength (pollIndex start (k+n))) ∧
      i = pollIndex start (k+m) := by
  induction polls generalizing k saw r with
  | nil =>
    rw [pollSlaves] at h
    split at h
    · cases h
    · obtain rfl := Option.some.inj h
      constructor
      · intro herror
        dsimp only at herror
        split at herror
        · cases herror
        · cases herror
      · rintro ⟨m,⟨poll,hpoll,-⟩,-⟩
        cases hpoll
  | cons poll polls ih =>
    obtain ⟨hquiet,saw',rest,hrest,rfl⟩ | ⟨hbad,rfl⟩ | ⟨hquiet,hbad,frame,rfl⟩ :=
      pollSlaves_cons h
    · -- A quiet poll moves every position by one.
      have hshift : ∀ n,k+1+n = k+(n+1) := fun n => by omega
      rw [show ({ rest with polled := pollIndex start k :: rest.polled } : RealReception).result =
        rest.result from rfl,ih hrest]
      constructor
      · rintro ⟨m,⟨poll',hpoll',hmis⟩,hbefore,rfl⟩
        rw [hshift] at hmis
        refine ⟨m+1,⟨poll',hpoll',hmis⟩,fun n hn p hp => ?_,by rw [hshift]⟩
        cases n with
        | zero => exact Option.some.inj hp ▸ hquiet
        | succ n => exact hshift n ▸ hbefore n (by omega) p hp
      · rintro ⟨m,⟨poll',hpoll',hmis⟩,hbefore,rfl⟩
        cases m with
        | zero =>
          obtain rfl := Option.some.inj hpoll'
          exact absurd hmis hquiet.not_misbehaved
        | succ m =>
          refine ⟨m,⟨poll',hpoll',by rwa [hshift]⟩,fun n hn p hp => ?_,by rw [hshift]⟩
          rw [hshift]
          exact hbefore (n+1) (by omega) p hp
    · constructor
      · intro herror
        exact ⟨0,⟨poll,rfl,hbad⟩,fun n hn => absurd hn (Nat.not_lt_zero n),
          (RealResult.slaveError.inj herror).symm⟩
      · rintro ⟨m,-,hbefore,rfl⟩
        cases m with
        | zero => rfl
        | succ m => exact absurd hbad (hbefore 0 (Nat.succ_pos m) poll rfl).not_misbehaved
    · constructor
      · intro herror
        cases herror
      · rintro ⟨m,⟨poll',hpoll',hmis⟩,hbefore,rfl⟩
        cases m with
        | zero =>
          obtain rfl := Option.some.inj hpoll'
          exact absurd hmis hbad
        | succ m => exact absurd (hbefore 0 (Nat.succ_pos m) poll rfl) hquiet

/-- An error leaves the rotation where it is. -/
theorem pollSlaves_error_start {myAddress : Byte} {maxLength : BitVec 16} {start k i : ℕ}
    {saw : Bool} {polls : List Poll} {r : RealReception}
    (h : pollSlaves myAddress maxLength start k saw polls = some r)
    (herror : r.result = .slaveError i) : r.nextSlaveStart = start := by
  induction polls generalizing k saw r with
  | nil =>
    rw [pollSlaves] at h
    split at h
    · cases h
    · obtain rfl := Option.some.inj h
      rfl
  | cons poll polls ih =>
    obtain ⟨-,saw',rest,hrest,rfl⟩ | ⟨-,rfl⟩ | ⟨-,-,frame,rfl⟩ := pollSlaves_cons h
    · exact ih (r := rest) hrest herror
    · rfl
    · cases herror

theorem pollSlaves_polled_ne_nil {myAddress : Byte} {maxLength : BitVec 16} {start k : ℕ}
    {saw : Bool} {polls : List Poll} {r : RealReception}
    (h : pollSlaves myAddress maxLength start k saw polls = some r) :
    r.polled ≠ [] ↔ polls ≠ [] := by
  cases polls with
  | nil =>
    rw [pollSlaves] at h
    split at h
    · cases h
    · obtain rfl := Option.some.inj h
      exact iff_of_false (fun hne => hne rfl) fun hne => hne rfl
  | cons poll polls =>
    refine iff_of_true ?_ (List.cons_ne_nil _ _)
    obtain ⟨-,saw',rest,hrest,rfl⟩ | ⟨-,rfl⟩ | ⟨-,-,frame,rfl⟩ := pollSlaves_cons h
    · exact List.cons_ne_nil _ _
    · exact List.cons_ne_nil _ _
    · exact List.cons_ne_nil _ _

/-- What is known of a call: whom it polls, when it fails on a slave, and that it then leaves
the rotation. -/
structure RealStep.Sound (myAddress : Byte) (s : RealStep) : Prop where
  polled : ∀ m i,s.reception.polled[m]? = some i → i = pollIndex s.nextSlaveStart m
  polls : s.reception.polled ≠ [] ↔ s.call.Polls
  error : ∀ i,s.reception.result = .slaveError i ↔
    ∃ k,MisbehavesAt myAddress s.nextSlaveStart s.call k ∧ i = pollIndex s.nextSlaveStart k
  start : ∀ i,s.reception.result = .slaveError i →
    s.reception.nextSlaveStart = s.nextSlaveStart

theorem RealStep.sound {myAddress : Byte} {s : RealStep}
    (h : receiveOnI2c myAddress s.nextSlaveStart s.call = some s.reception) :
    s.Sound myAddress := by
  rw [receiveOnI2c] at h
  split at h
  · next hbad =>
    have hr := Option.some.inj h
    have hno : ¬s.call.Polls := by
      rintro ⟨hopen,hbuffer,hmax,-⟩
      rw [hopen,hbuffer,decide_eq_false hmax] at hbad
      cases hbad
    constructor
    · intro m i hm
      rw [← hr] at hm
      cases hm
    · rw [← hr]
      exact iff_of_false (fun hne => hne rfl) hno
    · intro i
      rw [← hr]
      refine iff_of_false (fun herror => ?_) ?_
      · cases herror
      · rintro ⟨k,⟨hpolls,-⟩,-⟩
        exact hno hpolls
    · intro i herror
      rw [← hr] at herror
      cases herror
  · next hargs =>
    have hargs' : s.call.busOpen = true ∧ s.call.bufferGiven = true ∧ s.call.maxLength ≠ 0 := by
      simpa [and_assoc] using hargs
    have hzero : ∀ m,0+m = m := Nat.zero_add
    have hpolls : s.call.Polls ↔ s.call.polls ≠ [] :=
      ⟨fun h => h.2.2.2,fun h => ⟨hargs'.1,hargs'.2.1,hargs'.2.2,h⟩⟩
    constructor
    · intro m i hm
      rw [pollSlaves_polled h hm,hzero]
    · rw [pollSlaves_polled_ne_nil h,hpolls]
    · intro i
      rw [pollSlaves_error_iff h]
      refine exists_congr fun m => ?_
      simp only [hzero,MisbehavesAt,hpolls,and_assoc]
      constructor
      · rintro ⟨⟨poll,hpoll,hbad⟩,hrest⟩
        refine ⟨fun hnil => ?_,⟨poll,hpoll,hbad⟩,hrest⟩
        rw [hnil] at hpoll
        cases hpoll
      · exact fun hall => hall.2
    · exact fun i => pollSlaves_error_start h

/-! ### Two calls -/

/-- The next call is fair exactly when the misbehaving slave did not come first, or it does not
poll at all. -/
theorem fairAfterError_iff {myAddress : Byte} {s next : RealStep} (hs : s.Sound myAddress)
    (hnext : next.Sound myAddress) (hstart : next.nextSlaveStart = s.reception.nextSlaveStart) :
    FairAfterError s next ↔ (FirstMisbehaves myAddress s → ¬next.call.Polls) := by
  have htwo : numKnownSlaves = 2 := rfl
  have hindex : ∀ start k,pollIndex start k = (start+k%2)%2 := fun _ _ => rfl
  constructor
  · rintro hfair ⟨k,hk,hfirst⟩ hpolls
    have herror := (hs.error _).mpr ⟨k,hk,rfl⟩
    cases hpolled : next.reception.polled with
    | nil => exact hnext.polls.mpr hpolls hpolled
    | cons i rest =>
      have hi := hnext.polled 0 i (by rw [hpolled]; rfl)
      rw [hstart,hs.start _ herror] at hi
      have hsame : i = pollIndex s.nextSlaveStart k := by
        have heven : k%2 = 0 := hfirst
        rw [hi,hindex,hindex,heven]
      have hother := hfair _ herror [] rest (by rw [hpolled,hsame]; rfl)
        ((pollIndex s.nextSlaveStart k+1)%2) (Nat.mod_lt _ (by decide)) (by
          have hlt := pollIndex_lt s.nextSlaveStart k
          omega)
      exact absurd hother List.not_mem_nil
  · rintro hcond i herror pre post hpolled j hj hne
    obtain ⟨k,hk,rfl⟩ := (hs.error i).mp herror
    have hlast : k%2 = 1 := by
      by_contra hfirst
      have heven : k%2 = 0 := by omega
      refine hcond ⟨k,hk,heven⟩ (hnext.polls.mp ?_)
      rw [hpolled]
      exact List.append_ne_nil_of_right_ne_nil _ (List.cons_ne_nil _ _)
    have hstart' : next.nextSlaveStart = s.nextSlaveStart := hstart.trans (hs.start _ herror)
    -- The poll of the slave is at an odd position, so the other slave was polled before it.
    have hpos := hnext.polled pre.length (pollIndex s.nextSlaveStart k) (by
      rw [hpolled,List.getElem?_append_right (le_refl _),Nat.sub_self]
      rfl)
    rw [hstart',hindex,hindex] at hpos
    cases pre with
    | nil =>
      rw [List.length_nil] at hpos
      omega
    | cons first pre =>
      have hfirst := hnext.polled 0 first (by rw [hpolled]; rfl)
      rw [hstart',hindex] at hfirst
      rw [hindex] at hne
      have heq : j = first := by omega
      exact heq ▸ List.mem_cons_self ..

/-! ### Every run -/

theorem realSteps_cons_eq_some {myAddress : Byte} {start : ℕ} {call : RealCall}
    {calls : List RealCall} {steps : List RealStep}
    (h : realSteps myAddress start (call :: calls) = some steps) :
    ∃ r rest,receiveOnI2c myAddress start call = some r ∧
      realSteps myAddress r.nextSlaveStart calls = some rest ∧
      steps = ⟨start,call,r⟩ :: rest := by
  rw [realSteps] at h
  obtain ⟨r,hr,hmap⟩ := Option.bind_eq_some_iff.mp h
  obtain ⟨rest,hrest,rfl⟩ := Option.map_eq_some_iff.mp hmap
  exact ⟨r,rest,hr,hrest,rfl⟩

/-- Two calls of a run that come one after the other. -/
theorem realSteps_pair {myAddress : Byte} {start : ℕ} {calls : List RealCall}
    {steps : List RealStep} (h : realSteps myAddress start calls = some steps) :
    ∀ pre s next post,steps = pre ++ s :: next :: post →
      s.Sound myAddress ∧ next.Sound myAddress ∧
        next.nextSlaveStart = s.reception.nextSlaveStart := by
  induction calls generalizing start steps with
  | nil =>
    obtain rfl := Option.some.inj h
    intro pre s next post hsteps
    exact absurd hsteps.symm (List.append_ne_nil_of_right_ne_nil _ (List.cons_ne_nil _ _))
  | cons call calls ih =>
    obtain ⟨r,rest,hr,hrest,rfl⟩ := realSteps_cons_eq_some h
    intro pre s next post hsteps
    cases pre with
    | cons first pre => exact ih hrest pre s next post (List.cons.inj hsteps).2
    | nil =>
      obtain ⟨rfl,rfl⟩ := List.cons.inj hsteps
      cases calls with
      | nil =>
        have hnil := Option.some.inj hrest
        cases hnil
      | cons call' calls =>
        obtain ⟨r',rest',hr',-,hcons⟩ := realSteps_cons_eq_some hrest
        obtain ⟨rfl,-⟩ := List.cons.inj hcons
        exact ⟨RealStep.sound hr,RealStep.sound hr',rfl⟩

/-- In every run, each call after one that failed on a slave polls the other slaves before that
one, exactly when it never is the slave that came first in its call, or the call after it does
not poll at all. -/
theorem rotation_fair_iff (myAddress : Byte) (start : ℕ) (calls : List RealCall)
    (steps : List RealStep) (hsteps : realSteps myAddress start calls = some steps) :
    (∀ pre s next post,steps = pre ++ s :: next :: post → FairAfterError s next) ↔
      ∀ pre s next post,steps = pre ++ s :: next :: post →
        FirstMisbehaves myAddress s → ¬next.call.Polls := by
  refine forall₄_congr fun pre s next post => forall_congr' fun hpair => ?_
  obtain ⟨hs,hnext,hstart⟩ := realSteps_pair hsteps pre s next post hpair
  exact fairAfterError_iff hs hnext hstart

/-- THERMALS announces a frame that cannot be read; the next call polls ADCS before it. -/
theorem second_slave_misbehaves :
    let ready : Poll := ⟨some [0xA5#8,1#8,1#8,0#8,5#8],none⟩
    let first : RealCall := ⟨true,true,260#16,[⟨none,none⟩,ready]⟩
    let second : RealCall := ⟨true,true,260#16,[⟨none,none⟩,⟨none,none⟩]⟩
    realSteps 1#8 0 [first,second] =
        some [⟨0,first,⟨.slaveError 1,[0,1],0⟩⟩,⟨0,second,⟨.busError,[0,1],0⟩⟩] ∧
      FairAfterError ⟨0,first,⟨.slaveError 1,[0,1],0⟩⟩ ⟨0,second,⟨.busError,[0,1],0⟩⟩ := by
  intro ready first second
  have hsteps : realSteps 1#8 0 [first,second] =
      some [⟨0,first,⟨.slaveError 1,[0,1],0⟩⟩,⟨0,second,⟨.busError,[0,1],0⟩⟩] := by decide
  refine ⟨hsteps,(rotation_fair_iff 1#8 0 _ _ hsteps).mpr ?_ [] _ _ [] rfl⟩
  rintro pre s next post hpair ⟨k,⟨-,⟨poll,hpoll,slave,hslave,hbad⟩,-⟩,heven⟩
  obtain rfl : pre = [] := by
    have hlen := congrArg List.length hpair
    simp only [List.length_append,List.length_cons,List.length_nil] at hlen
    exact List.eq_nil_of_length_eq_zero (by omega)
  obtain ⟨rfl,-⟩ := List.cons.inj hpair
  match k with
  | 0 =>
    obtain rfl := Option.some.inj hpoll
    cases hbad
  | 1 => cases heven
  | k+2 => cases hpoll

/-- ADCS announces a frame that cannot be read, again and again: no call polls THERMALS. -/
theorem first_slave_starves :
    let ready : Poll := ⟨some [0xA5#8,1#8,1#8,0#8,5#8],none⟩
    let call : RealCall := ⟨true,true,260#16,[ready]⟩
    let s : RealStep := ⟨0,call,⟨.slaveError 0,[0],0⟩⟩
    realSteps 1#8 0 [call,call] = some [s,s] ∧ ¬FairAfterError s s := by
  intro ready call s
  refine ⟨by decide,fun hfair => ?_⟩
  exact absurd (hfair 0 rfl [] [] rfl 1 (by decide) (by decide)) List.not_mem_nil

end FlightSoftware.Bus
