import FlightSoftware.Bus.Frame
import FlightSoftware.Fdir.Fallback
import FlightSoftware.Lib.History

/-!
# Boards that reset too often

`health_monitor_thread` counts the reset notices of each board and asks for a
shutdown at the third. It looks neither at the result of the request nor at the
port that the board does not have.
-/

namespace FlightSoftware.Fdir
open History Obc
open Bus (adcsAddress adcsCmdPort comms epsAddress epsCmdPort)

def resetShutdownThreshold : ℕ := 3

/-- `cmd_port_for_board`, with 0 for a board without a command port. -/
def cmdPortForBoard (boardAddr : Byte) : Byte :=
  if boardAddr = adcsAddress then adcsCmdPort
  else if boardAddr = epsAddress then epsCmdPort
  else 0#8

/-- A message that `IPC_receive` returned, and what `IPC_send` would return while it is
handled. -/
structure Received where
  src : ObcRole
  payload : List Byte
  rc : ℤ
  deriving DecidableEq

/-- A request to Commands, and what `IPC_send` returned for it. -/
structure Shutdown where
  request : RelayRequest
  rc : ℤ
  deriving DecidableEq

inductive HealthEvent where
  | heartbeat (role : ObcRole)
  /-- A reset notice of a board, and the shutdown that it led to. -/
  | notice (board : Byte) (shutdown : Option Shutdown)
  deriving DecidableEq

structure HealthMonitor where
  resetCounts : Byte → ℕ
  log : List HealthEvent

def HealthMonitor.initial : HealthMonitor := ⟨fun _ => 0,[]⟩

/-- A reset notice that has passed all checks. -/
def HealthMonitor.notice (s : HealthMonitor) (board : Byte) (rc : ℤ) : HealthMonitor :=
  let resetCounts := Function.update s.resetCounts board (s.resetCounts board + 1)
  if resetCounts board = resetShutdownThreshold then
    let (request,_) := fallbackShutdownBoard board (cmdPortForBoard board) rc
    ⟨resetCounts,s.log ++ [.notice board (some ⟨request,rc⟩)]⟩
  else ⟨resetCounts,s.log ++ [.notice board none]⟩

/-- The pass of `health_monitor_thread` over a message. A longer payload than that of a notice
is an error of `IPC_receive`. -/
def HealthMonitor.receive (s : HealthMonitor) (m : Received) : HealthMonitor :=
  match m.payload with
  | [] => { s with log := s.log ++ [.heartbeat m.src] }
  | [board,_] =>
    if m.src ≠ .commands then s
    else if comms < board then s
    else s.notice board m.rc
  | _ => s

/-- The thread over all messages. -/
def healthMonitorThread (messages : List Received) : HealthMonitor :=
  messages.foldl HealthMonitor.receive .initial

/-! ### What a shutdown must be like -/

def HealthEvent.isNotice (board : Byte) : HealthEvent → Bool
  | .notice other _ => other == board
  | .heartbeat _ => false

/-- The number of reset notices of a board. -/
def resetNotices (board : Byte) (log : List HealthEvent) : ℕ := log.countP (·.isNotice board)

/-- A shutdown of the board was handed to Commands. -/
def HealthEvent.shutsDown (board : Byte) : HealthEvent → Prop
  | .notice _ shutdown => ∃ s ∈ shutdown,s.request.destAddr = board ∧ 0 ≤ s.rc
  | .heartbeat _ => False

/-- What a notice of a board leads to, after what has happened before. -/
structure Answered (past : List HealthEvent) (board : Byte) (shutdown : Option Shutdown) :
    Prop where
  /-- A shutdown goes to the board's own command port. -/
  addressed : ∀ s ∈ shutdown,cmdPortForBoard board ≠ 0#8 ∧
    s.request = ⟨board,cmdPortForBoard board,⟨cmdShutdown,1#32⟩⟩
  not_before_third : shutdown.isSome → resetShutdownThreshold ≤ resetNotices board past + 1
  once : (∃ s ∈ shutdown,0 ≤ s.rc) → ∀ e ∈ past,¬ e.shutsDown board
  /-- It is repeated at each notice after the third until one is handed over. -/
  retried : cmdPortForBoard board ≠ 0#8 → resetShutdownThreshold ≤ resetNotices board past →
    (∀ e ∈ past,¬ e.shutsDown board) → shutdown.isSome

def shutdownLaw (past : List HealthEvent) : HealthEvent → Prop
  | .notice board shutdown => Answered past board shutdown
  | .heartbeat _ => True

/-! ### When it is -/

/-- The notice in a message, if it passes the checks, and what `IPC_send` would return. -/
def Received.notice (m : Received) : Option (Byte × ℤ) :=
  match m.payload with
  | [board,_] => if m.src ≠ .commands then none else if comms < board then none
      else some (board,m.rc)
  | _ => none

def noticeCount (board : Byte) (notices : List (Byte × ℤ)) : ℕ :=
  notices.countP (·.1 == board)

/-- The send at the board's third notice succeeded. -/
def ThirdSent (board : Byte) (notices : List (Byte × ℤ)) : Prop :=
  ∃ past rc rest,notices = past ++ (board,rc) :: rest ∧
    noticeCount board past + 1 = resetShutdownThreshold ∧ 0 ≤ rc

/-- A third notice comes from a board with a command port only, and further notices of such a
board only after the send at the third one has succeeded. -/
def noticeLaw (past : List (Byte × ℤ)) (notice : Byte × ℤ) : Prop :=
  (noticeCount notice.1 past + 1 = resetShutdownThreshold → cmdPortForBoard notice.1 ≠ 0#8) ∧
    (resetShutdownThreshold ≤ noticeCount notice.1 past → cmdPortForBoard notice.1 ≠ 0#8 →
      ThirdSent notice.1 past)

/-- The monitor after some notices. -/
structure HealthMonitor.Counts (s : HealthMonitor) (notices : List (Byte × ℤ)) : Prop where
  counted : ∀ board,s.resetCounts board = noticeCount board notices
  logged : ∀ board,resetNotices board s.log = noticeCount board notices
  sent : ∀ board,(∃ e ∈ s.log,e.shutsDown board) ↔ ThirdSent board notices
  law : Obeys shutdownLaw s.log ↔ Obeys noticeLaw notices

theorem noticeCount_concat (board : Byte) (notices : List (Byte × ℤ)) (n : Byte × ℤ) :
    noticeCount board (notices ++ [n]) =
      noticeCount board notices + if n.1 = board then 1 else 0 := by
  simp [noticeCount,List.countP_append,List.countP_cons]

theorem resetNotices_concat (board : Byte) (log : List HealthEvent) (e : HealthEvent) :
    resetNotices board (log ++ [e]) =
      resetNotices board log + if e.isNotice board then 1 else 0 := by
  simp [resetNotices,List.countP_append,List.countP_cons]

theorem thirdSent_concat (board : Byte) (notices : List (Byte × ℤ)) (n : Byte × ℤ) :
    ThirdSent board (notices ++ [n]) ↔ ThirdSent board notices ∨
      n.1 = board ∧ noticeCount board notices + 1 = resetShutdownThreshold ∧ 0 ≤ n.2 := by
  constructor
  · rintro ⟨past,rc,rest,heq,hcount,hrc⟩
    rcases concat_eq_append_cons heq with ⟨rfl,rfl,-⟩ | ⟨rest',-,hpast⟩
    · exact .inr ⟨rfl,hcount,hrc⟩
    · exact .inl ⟨past,rc,rest',hpast,hcount,hrc⟩
  · rintro (⟨past,rc,rest,rfl,hcount,hrc⟩ | ⟨rfl,hcount,hrc⟩)
    · exact ⟨past,rc,rest ++ [n],by simp,hcount,hrc⟩
    · exact ⟨notices,n.2,[],rfl,hcount,hrc⟩

theorem ThirdSent.count {board : Byte} {notices : List (Byte × ℤ)} (h : ThirdSent board notices) :
    resetShutdownThreshold ≤ noticeCount board notices := by
  obtain ⟨past,rc,rest,rfl,hcount,-⟩ := h
  rw [noticeCount] at hcount ⊢
  rw [List.countP_append,List.countP_cons_of_pos (by simp)]
  omega

/-- What a notice adds to the log. -/
theorem notice_eq (s : HealthMonitor) (board : Byte) (rc : ℤ) :
    s.notice board rc =
      ⟨Function.update s.resetCounts board (s.resetCounts board + 1),
        s.log ++ [.notice board (if s.resetCounts board + 1 = resetShutdownThreshold then
          some ⟨⟨board,cmdPortForBoard board,⟨cmdShutdown,1#32⟩⟩,rc⟩ else none)]⟩ := by
  rw [HealthMonitor.notice]
  simp only [Function.update_self]
  split
  · rfl
  · rfl

/-- A notice is answered as it should be if and only if the notices so far obey their law. -/
theorem answered_iff {past : List HealthEvent} {notices : List (Byte × ℤ)} {board : Byte} {rc : ℤ}
    (hlogged : resetNotices board past = noticeCount board notices)
    (hsent : (∃ e ∈ past,e.shutsDown board) ↔ ThirdSent board notices) :
    Answered past board (if noticeCount board notices + 1 = resetShutdownThreshold then
        some ⟨⟨board,cmdPortForBoard board,⟨cmdShutdown,1#32⟩⟩,rc⟩ else none) ↔
      noticeLaw notices (board,rc) := by
  by_cases hthird : noticeCount board notices + 1 = resetShutdownThreshold
  · rw [if_pos hthird]
    constructor
    · intro h
      refine ⟨fun _ => (h.addressed _ rfl).1,fun hmore => ?_⟩
      dsimp only at hmore
      omega
    · rintro ⟨hport,-⟩
      refine ⟨?_,?_,?_,?_⟩
      · rintro s hs
        cases hs
        exact ⟨hport hthird,rfl⟩
      · rw [hlogged]
        exact fun _ => hthird.ge
      · rintro - e he hdown
        have hcount := (hsent.mp ⟨e,he,hdown⟩).count
        omega
      · simp
  · rw [if_neg hthird]
    constructor
    · intro h
      refine ⟨fun hthird' => absurd hthird' hthird,fun hmore hport => ?_⟩
      by_contra hnot
      have hretried := h.retried hport (by rwa [hlogged])
        (fun e he hdown => hnot (hsent.mp ⟨e,he,hdown⟩))
      cases hretried
    · rintro ⟨-,hmore⟩
      refine ⟨?_,?_,?_,?_⟩
      · simp
      · simp
      · simp
      · intro hport hcount hnone
        obtain ⟨e,he,hdown⟩ := hsent.mpr (hmore (by rwa [hlogged] at hcount) hport)
        exact absurd hdown (hnone e he)

/-- A notice keeps the account. -/
theorem HealthMonitor.Counts.notice {s : HealthMonitor} {notices : List (Byte × ℤ)}
    (h : s.Counts notices) (board : Byte) (rc : ℤ) :
    (s.notice board rc).Counts (notices ++ [(board,rc)]) := by
  rw [notice_eq,h.counted board]
  refine ⟨fun other => ?_,fun other => ?_,fun other => ?_,?_⟩
  · rw [noticeCount_concat]
    dsimp only
    by_cases heq : board = other
    · rw [← heq,Function.update_self,if_pos rfl]
    · rw [Function.update_of_ne (Ne.symm heq),if_neg heq,h.counted other,Nat.add_zero]
  · rw [resetNotices_concat,noticeCount_concat,h.logged other]
    simp [HealthEvent.isNotice]
  · rw [thirdSent_concat,← h.sent other]
    constructor
    · rintro ⟨e,he,hdown⟩
      rcases List.mem_append.mp he with he | he
      · exact .inl ⟨e,he,hdown⟩
      · rw [List.mem_singleton.mp he] at hdown
        obtain ⟨shutdown,hs,haddr,hrc⟩ := hdown
        split at hs
        · next hthird =>
          cases hs
          cases haddr
          exact .inr ⟨rfl,hthird,hrc⟩
        · cases hs
    · rintro (⟨e,he,hdown⟩ | ⟨rfl,hthird,hrc⟩)
      · exact ⟨e,List.mem_append_left _ he,hdown⟩
      · refine ⟨_,List.mem_append_right _ (List.mem_singleton_self _),?_⟩
        rw [if_pos hthird]
        exact ⟨_,rfl,rfl,hrc⟩
  · rw [obeys_concat,obeys_concat,h.law]
    exact and_congr_right fun _ => answered_iff (h.logged board) (h.sent board)

/-- A heartbeat changes nothing of the account. -/
theorem HealthMonitor.Counts.heartbeat {s : HealthMonitor} {notices : List (Byte × ℤ)}
    (h : s.Counts notices) (role : ObcRole) :
    ({ s with log := s.log ++ [.heartbeat role] } : HealthMonitor).Counts notices := by
  refine ⟨h.counted,fun board => ?_,fun board => ?_,?_⟩
  · rw [resetNotices_concat]
    exact h.logged board
  · rw [← h.sent board]
    simp [HealthEvent.shutsDown,or_and_right,exists_or]
  · rw [obeys_concat,h.law]
    exact and_iff_left trivial

theorem HealthMonitor.Counts.receive {s : HealthMonitor} {notices : List (Byte × ℤ)}
    (h : s.Counts notices) (m : Received) :
    (s.receive m).Counts (notices ++ m.notice.toList) := by
  obtain ⟨src,payload,rc⟩ := m
  match payload with
  | [] => simpa [HealthMonitor.receive,Received.notice] using h.heartbeat src
  | [_] => simpa [HealthMonitor.receive,Received.notice] using h
  | [board,_] =>
    simp only [HealthMonitor.receive,Received.notice]
    split
    · simpa using h
    · split
      · simpa using h
      · exact h.notice board rc
  | _ :: _ :: _ :: _ => simpa [HealthMonitor.receive,Received.notice] using h

theorem healthMonitorThread_counts (messages : List Received) :
    (healthMonitorThread messages).Counts (messages.filterMap Received.notice) := by
  induction messages using List.reverseRecOn with
  | nil =>
    refine ⟨fun _ => rfl,fun _ => rfl,fun board => ?_,?_⟩
    · constructor
      · rintro ⟨e,he,-⟩
        cases he
      · rintro ⟨past,rc,rest,heq,-⟩
        simp at heq
    · exact iff_of_true obeys_nil obeys_nil
  | append_singleton messages m ih =>
    have hthread : healthMonitorThread (messages ++ [m]) =
        (healthMonitorThread messages).receive m := by
      rw [healthMonitorThread,List.foldl_append]
      rfl
    have hnotices : (messages ++ [m]).filterMap Received.notice =
        messages.filterMap Received.notice ++ m.notice.toList := by
      cases hm : m.notice <;> simp [hm]
    rw [hthread,hnotices]
    exact ih.receive m

/-- In a run of the health monitor the shutdowns are as they must be if and only if no board
without a command port resets a third time and a board with one sends no notice after its third
one unless the send at that one succeeded. -/
theorem shutdowns_answered_iff (messages : List Received) :
    Obeys shutdownLaw (healthMonitorThread messages).log ↔
      Obeys noticeLaw (messages.filterMap Received.notice) :=
  (healthMonitorThread_counts messages).law

/-- Four notices of ADCS, and the send at the third one fails. -/
def lostShutdown : List Received :=
  [⟨.commands,[2#8,1#8],0⟩,⟨.commands,[2#8,1#8],0⟩,⟨.commands,[2#8,1#8],-1⟩,
    ⟨.commands,[2#8,1#8],132⟩]

/-- Three notices of THERMALS, which has no command port in the table. -/
def portlessShutdown : List Received :=
  [⟨.commands,[4#8,1#8],0⟩,⟨.commands,[4#8,1#8],0⟩,⟨.commands,[4#8,1#8],132⟩]

/-- The failed shutdown is never repeated, and a shutdown goes to port 0. -/
theorem shutdown_lost_or_misdirected :
    ¬ Obeys shutdownLaw (healthMonitorThread lostShutdown).log ∧
      ¬ Obeys shutdownLaw (healthMonitorThread portlessShutdown).log := by
  constructor
  · intro hobeys
    have hlog : (healthMonitorThread lostShutdown).log =
        [.notice 2#8 none,.notice 2#8 none,
          .notice 2#8 (some ⟨⟨2#8,10#8,⟨3#8,1#32⟩⟩,-1⟩)] ++ .notice 2#8 none :: [] := by
      decide +kernel
    have hanswered : Answered _ _ _ := hobeys _ _ _ hlog
    have hretried := hanswered.retried (by decide) (by decide) ?_
    · cases hretried
    · simp [HealthEvent.shutsDown]
  · intro hobeys
    have hlog : (healthMonitorThread portlessShutdown).log =
        [.notice 4#8 none,.notice 4#8 none] ++
          .notice 4#8 (some ⟨⟨4#8,0#8,⟨3#8,1#32⟩⟩,132⟩) :: [] := by
      decide +kernel
    have hanswered : Answered _ _ _ := hobeys _ _ _ hlog
    exact (hanswered.addressed _ rfl).1 (by decide)

end FlightSoftware.Fdir
