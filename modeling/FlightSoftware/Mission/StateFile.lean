import FlightSoftware.Lib.Decimal

/-!
# The state file of the mission scheduler

`mission_state_save` and `mission_state_load` of `scheduler.c`. The text of the
file is three decimal numbers. Loading takes two numbers for a file of an older
version, so most cuts through the text load as another state than the one that
was written.
-/

namespace FlightSoftware.Mission
open Decimal

/-- `mission_state_t`. -/
inductive MissionState where
  | waitingForAscent | takingPhoto | compressing | downlinking | cooldown
  deriving DecidableEq,Repr

def MissionState.value : MissionState → ℕ
  | .waitingForAscent => 0
  | .takingPhoto => 1
  | .compressing => 2
  | .downlinking => 3
  | .cooldown => 4

/-- The state with a number that is in range. -/
def MissionState.ofValue? : ℤ → Option MissionState
  | 0 => some .waitingForAscent
  | 1 => some .takingPhoto
  | 2 => some .compressing
  | 3 => some .downlinking
  | 4 => some .cooldown
  | _ => none

/-- What the scheduler saves: `current_state`, `mission_start_unix` (a `time_t`) and
`telemetry_cursor`. -/
structure SavedState where
  currentState : MissionState
  missionStart : BitVec 64
  telemetryCursor : BitVec 64
  deriving DecidableEq

/-- The text that `fprintf` is asked to write. -/
def stateText (s : SavedState) : List Byte :=
  decimal s.currentState.value ++ 32#8 :: (signedDecimal s.missionStart.toInt ++
    32#8 :: (decimal s.telemetryCursor.toNat ++ [10#8]))

/-! ### Loading -/

/-- `strtol` and `strtoll` stop at the ends of their range. -/
def clampLong (z : ℤ) : ℤ := max (-2^63) (min (2^63-1) z)

/-- The conversion `%d`: what does not fit into an `int` loses its upper half. -/
def toInt (z : ℤ) : ℤ := (BitVec.ofInt 32 (clampLong z)).toInt

/-- The conversion `%lld`. -/
def toLong (z : ℤ) : BitVec 64 := BitVec.ofInt 64 (clampLong z)

/-- The conversion `%llu`, which takes a number with a minus sign modulo `2^64`. -/
def toUnsigned (z : ℤ) : BitVec 64 :=
  if z.natAbs < 2^64 then BitVec.ofInt 64 z else BitVec.allOnes 64

/-- What `fscanf` returns and stores. An end of file before the first number counts as 0. -/
structure Scanned where
  parsed : ℕ
  phase : ℤ
  savedStart : BitVec 64
  savedCursor : BitVec 64
  deriving DecidableEq

def fscanfState (s : List Byte) : Scanned :=
  match scan s with
  | none => ⟨0,0,0#64,0#64⟩
  | some (phase,s) =>
    match scan s with
    | none => ⟨1,toInt phase,0#64,0#64⟩
    | some (savedStart,s) =>
      match scan s with
      | none => ⟨2,toInt phase,toLong savedStart,0#64⟩
      | some (savedCursor,_) => ⟨3,toInt phase,toLong savedStart,toUnsigned savedCursor⟩

/-- The checks of `mission_state_load` on what was read. -/
def Scanned.believed (scanned : Scanned) : Option SavedState :=
  match MissionState.ofValue? scanned.phase with
  | none => none
  | some state =>
    if (scanned.parsed = 2 ∨ scanned.parsed = 3) ∧ 0 < scanned.savedStart.toInt then
      some ⟨state,scanned.savedStart,if scanned.parsed = 3 then scanned.savedCursor else 0#64⟩
    else none

/-- `mission_state_load`: the state that is resumed. It is none where a fresh mission starts,
because there is no file or it is not believed. -/
def missionStateLoad (file : Option (List Byte)) : Option SavedState :=
  match file with
  | none => none
  | some text => (fscanfState text).believed

/-! ### Saving -/

/-- The state file and the temporary file beside it. -/
structure StateFiles where
  state : Option (List Byte)
  tmp : Option (List Byte)
  deriving DecidableEq

/-- How the steps of a save end: whether `fopen` succeeds, how many bytes `fprintf` brings into
the buffer, how many of them `fflush` and then `fclose` bring into the file, whether `fsync`
succeeds, and whether `rename` does. -/
structure SaveIo where
  opens : Bool
  printed : ℕ
  flushed : ℕ
  synced : Bool
  closed : ℕ
  renames : Bool
  deriving DecidableEq

/-- `mission_state_save`. Only the results of `fopen` and `rename` are looked at; `fsync` does
not change what a reader finds. -/
def missionStateSave (files : StateFiles) (s : SavedState) (saveIo : SaveIo) : StateFiles :=
  if saveIo.opens = false then files
  else
    let buffer := (stateText s).take saveIo.printed
    let flushed := buffer.take saveIo.flushed
    let written := flushed ++ (buffer.drop saveIo.flushed).take saveIo.closed
    if saveIo.renames then ⟨some written,none⟩ else { files with tmp := some written }

/-! ### What a cut through the text loads as -/

theorem MissionState.ofValue?_value (state : MissionState) :
    ofValue? (state.value : ℤ) = some state := by
  cases state <;> rfl

theorem MissionState.value_lt_ten (state : MissionState) : state.value < 10 := by
  cases state <;> decide

/-- A state that is resumed began at a positive time. -/
theorem missionStateLoad_start_pos {file : Option (List Byte)} {s : SavedState}
    (h : missionStateLoad file = some s) : 0 < s.missionStart.toInt := by
  cases file with
  | none => cases h
  | some text =>
    rw [missionStateLoad,Scanned.believed] at h
    split at h
    · cases h
    · split at h
      · next hcheck =>
        cases h
        exact hcheck.2
      · cases h

theorem toInt_value (state : MissionState) : toInt state.value = state.value := by
  cases state <;> rfl

theorem toLong_natCast {n : ℕ} (h : n < 2^63) : toLong n = BitVec.ofNat 64 n := by
  have hclamp : clampLong n = n := by
    rw [clampLong]
    omega
  rw [toLong,hclamp,BitVec.ofInt_natCast]

theorem toUnsigned_natCast {n : ℕ} (h : n < 2^64) : toUnsigned n = BitVec.ofNat 64 n := by
  rw [toUnsigned,Int.natAbs_natCast,if_pos h,BitVec.ofInt_natCast]

theorem scan_phase (state : MissionState) (rest : List Byte)
    (hrest : ∀ b ∈ rest.head?,isDigit b = false) :
    scan (decimal state.value ++ rest) = some ((state.value : ℤ),rest) :=
  scan_decimal (List.forall_mem_nil _) state.value hrest

/-- Behind a phase the two other numbers decide. -/
theorem missionStateLoad_phase (state : MissionState) (rest : List Byte) :
    missionStateLoad (some (decimal state.value ++ 32#8 :: rest)) =
      match scan (32#8 :: rest) with
      | none => none
      | some (savedStart,more) =>
        if 0 < (toLong savedStart).toInt then
          some ⟨state,toLong savedStart,((scan more).map fun item => toUnsigned item.1).getD 0#64⟩
        else none := by
  have hphase := scan_phase state (32#8 :: rest) (by simp [isDigit])
  rw [missionStateLoad,fscanfState,hphase]
  dsimp only
  rcases scan (32#8 :: rest) with - | ⟨savedStart,more⟩
  · simp [Scanned.believed,toInt_value,MissionState.ofValue?_value]
  · dsimp only
    cases scan more with
    | none => simp [Scanned.believed,toInt_value,MissionState.ofValue?_value]
    | some cursor => simp [Scanned.believed,toInt_value,MissionState.ofValue?_value]

/-- The text behind the phase and the space. -/
def textTail (s : SavedState) : List Byte :=
  signedDecimal s.missionStart.toInt ++ 32#8 :: (decimal s.telemetryCursor.toNat ++ [10#8])

/-- The number of digits of the start time. -/
def startLength (s : SavedState) : ℕ := (decimal s.missionStart.toNat).length

def cursorLength (s : SavedState) : ℕ := (decimal s.telemetryCursor.toNat).length

/-- The start time without its last `j` digits, and no cursor. -/
def SavedState.cutStart (s : SavedState) (j : ℕ) : SavedState :=
  ⟨s.currentState,BitVec.ofNat 64 (s.missionStart.toNat / 10^j),0#64⟩

/-- The cursor without its last `j` digits. -/
def SavedState.cutCursor (s : SavedState) (j : ℕ) : SavedState :=
  { s with telemetryCursor := BitVec.ofNat 64 (s.telemetryCursor.toNat / 10^j) }

theorem decimal_value_length (state : MissionState) : (decimal state.value).length = 1 := by
  rw [decimal_of_lt state.value_lt_ten,List.length_singleton]

theorem stateText_eq (s : SavedState) :
    stateText s = decimal s.currentState.value ++ 32#8 :: textTail s := rfl

theorem take_stateText (s : SavedState) (i : ℕ) :
    (stateText s).take (2+i) = decimal s.currentState.value ++ 32#8 :: (textTail s).take i := by
  rw [stateText_eq,List.take_append,decimal_value_length,
    List.take_of_length_le (by rw [decimal_value_length]; omega),show 2 + i - 1 = i + 1 by omega,
    List.take_succ_cons]

theorem toNat_of_pos {start : BitVec 64} (h : 0 < start.toInt) :
    start.toInt = start.toNat ∧ start.toNat < 2^63 := by
  have hlt := start.isLt
  rw [BitVec.toInt_eq_toNat_cond] at h ⊢
  split at h <;> constructor <;> (try split) <;> omega

theorem textTail_of_pos {s : SavedState} (h : 0 < s.missionStart.toInt) :
    textTail s = decimal s.missionStart.toNat ++
      32#8 :: (decimal s.telemetryCursor.toNat ++ [10#8]) := by
  rw [textTail,signedDecimal,if_neg (by omega),(toNat_of_pos h).1,Int.natAbs_natCast]

theorem ofNat_pos {n : ℕ} (hn : 0 < n) (h : n < 2^63) : 0 < (BitVec.ofNat 64 n).toInt := by
  have htoNat : (BitVec.ofNat 64 n).toNat = n := by
    rw [BitVec.toNat_ofNat]
    omega
  rw [BitVec.toInt_eq_toNat_cond,htoNat,if_pos (by omega)]
  omega

theorem space_isSpace : ∀ b ∈ [32#8],isSpace b = true := by
  simp [isSpace]

/-- A number behind a single space. -/
theorem scan_space_decimal (n : ℕ) {rest : List Byte}
    (hrest : ∀ b ∈ rest.head?,isDigit b = false) :
    scan (32#8 :: (decimal n ++ rest)) = some ((n : ℤ),rest) := by
  have hscan := scan_decimal space_isSpace n hrest
  rwa [List.append_assoc,List.singleton_append] at hscan

theorem scan_space_take_decimal {n i : ℕ} (hi : 0 < i) (hle : i ≤ (decimal n).length) :
    scan (32#8 :: (decimal n).take i) =
      some (((n / 10^((decimal n).length - i) : ℕ) : ℤ),[]) := by
  have hscan := scan_take_decimal space_isSpace
    (show (decimal n).length - i < (decimal n).length by omega)
  rwa [List.singleton_append,show (decimal n).length - ((decimal n).length - i) = i by omega]
    at hscan

/-- Without the phase, or with nothing behind it, a fresh mission starts. -/
theorem missionStateLoad_take_le_two (s : SavedState) {k : ℕ} (hk : k ≤ 2) :
    missionStateLoad (some ((stateText s).take k)) = none := by
  have hlength := decimal_value_length s.currentState
  by_cases h0 : k = 0
  · rw [h0,List.take_zero]
    rfl
  by_cases h1 : k = 1
  · have htake : (stateText s).take k = decimal s.currentState.value := by
      rw [h1,stateText_eq,← hlength,List.take_left]
    have hphase := scan_phase s.currentState [] (by simp)
    rw [List.append_nil] at hphase
    rw [htake,missionStateLoad,fscanfState,hphase]
    have hnone : scan [] = none := scan_space (List.forall_mem_nil _)
    simp [hnone,Scanned.believed,toInt_value,MissionState.ofValue?_value]
  · obtain rfl : k = 2 + 0 := by omega
    rw [take_stateText,List.take_zero,missionStateLoad_phase,scan_space space_isSpace]

/-- The part of the text up to a cut in the start time. -/
theorem take_textTail_start {s : SavedState} (h : 0 < s.missionStart.toInt) {i : ℕ}
    (hi : i ≤ startLength s) : (textTail s).take i = (decimal s.missionStart.toNat).take i := by
  rw [textTail_of_pos h,List.take_append_of_le_length hi]

/-- The part of the text up to a cut behind the start time. -/
theorem take_textTail_cursor {s : SavedState} (h : 0 < s.missionStart.toInt) (m : ℕ) :
    (textTail s).take (startLength s + 1 + m) = decimal s.missionStart.toNat ++
      32#8 :: (decimal s.telemetryCursor.toNat ++ [10#8]).take m := by
  rw [textTail_of_pos h,List.take_append,List.take_of_length_le (by rw [startLength]; omega),
    show startLength s + 1 + m - (decimal s.missionStart.toNat).length = m + 1 by
      rw [startLength]; omega,List.take_succ_cons]

/-- A cut in the start time, or right behind it. -/
theorem missionStateLoad_take_start {s : SavedState} (h : 0 < s.missionStart.toInt) {k : ℕ}
    (hk : 2 < k) (hle : k ≤ 3 + startLength s) :
    missionStateLoad (some ((stateText s).take k)) =
      some (s.cutStart (2 + startLength s - k)) := by
  obtain ⟨i,rfl⟩ : ∃ i,k = 2+i := ⟨k-2,by omega⟩
  obtain ⟨htoNat,hlt⟩ := toNat_of_pos h
  rw [take_stateText,missionStateLoad_phase]
  by_cases hi : i ≤ startLength s
  · have hdiv : s.missionStart.toNat / 10^(startLength s - i) < 2^63 :=
      (Nat.div_le_self _ _).trans_lt hlt
    have hpos : 0 < s.missionStart.toNat / 10^(startLength s - i) :=
      div_pow_pos (by omega) (show startLength s - i < startLength s by omega)
    rw [take_textTail_start h hi,scan_space_take_decimal (by omega) hi]
    dsimp only
    rw [← startLength,toLong_natCast hdiv,if_pos (ofNat_pos hpos hdiv),scan_space (by simp),
      SavedState.cutStart,show 2 + startLength s - (2+i) = startLength s - i by omega]
    rfl
  · obtain rfl : i = startLength s + 1 + 0 := by omega
    rw [take_textTail_cursor h,List.take_zero,scan_space_decimal _ (by simp [isDigit])]
    dsimp only
    rw [toLong_natCast hlt,if_pos (ofNat_pos (by omega) hlt),scan_space space_isSpace,
      SavedState.cutStart,show 2 + startLength s - (2 + (startLength s + 1 + 0)) = 0 by omega,
      pow_zero,Nat.div_one]
    rfl

/-- A cut in the cursor, or behind it. -/
theorem missionStateLoad_take_cursor {s : SavedState} (h : 0 < s.missionStart.toInt) {k : ℕ}
    (hk : 3 + startLength s < k) :
    missionStateLoad (some ((stateText s).take k)) =
      some (s.cutCursor (3 + startLength s + cursorLength s - k)) := by
  obtain ⟨m,rfl⟩ : ∃ m,k = 2 + (startLength s + 1 + m) := ⟨k - (3 + startLength s),by omega⟩
  obtain ⟨htoNat,hlt⟩ := toNat_of_pos h
  have hcursor := s.telemetryCursor.isLt
  have hscan : scan (32#8 :: (decimal s.telemetryCursor.toNat ++ [10#8]).take m) =
      some (((s.telemetryCursor.toNat / 10^(cursorLength s - m) : ℕ) : ℤ),
        [10#8].take (m - cursorLength s)) := by
    by_cases hm : m ≤ cursorLength s
    · rw [List.take_append_of_le_length hm,scan_space_take_decimal (by omega) hm,
        show m - cursorLength s = 0 by omega,List.take_zero,cursorLength]
    · have hnewline : ∀ b ∈ ([10#8].take (m - cursorLength s)).head?,isDigit b = false := by
        intro b hb
        have hmem : b ∈ [10#8] := List.mem_of_mem_take (List.mem_of_mem_head? hb)
        rw [List.mem_singleton.mp hmem]
        rfl
      rw [List.take_append,List.take_of_length_le (by rw [cursorLength] at hm; omega),
        ← cursorLength,scan_space_decimal _ hnewline,show cursorLength s - m = 0 by omega,
        pow_zero,Nat.div_one]
  have hdiv : s.telemetryCursor.toNat / 10^(cursorLength s - m) < 2^64 :=
    (Nat.div_le_self _ _).trans_lt hcursor
  rw [take_stateText,missionStateLoad_phase,take_textTail_cursor h,
    scan_space_decimal _ (by simp [isDigit])]
  dsimp only
  rw [hscan,toLong_natCast hlt,if_pos (ofNat_pos (by omega) hlt),BitVec.ofNat_toNat,
    BitVec.setWidth_eq,Option.map_some,Option.getD_some,toUnsigned_natCast hdiv,
    show 3 + startLength s + cursorLength s - (2 + (startLength s + 1 + m)) =
      cursorLength s - m by omega]
  rfl

theorem toLong_nonpos {z : ℤ} (h : z ≤ 0) : (toLong z).toInt ≤ 0 := by
  have hclamp : clampLong z ≤ 0 ∧ -2^63 ≤ clampLong z := by
    rw [clampLong]
    omega
  rw [toLong,BitVec.toInt_ofInt,Int.bmod_eq_of_le (by omega) (by omega)]
  exact hclamp.1

/-- Behind a minus sign stands no positive number. -/
theorem scan_minus_nonpos {s rest : List Byte} {z : ℤ}
    (h : scan (32#8 :: 45#8 :: s) = some (z,rest)) : z ≤ 0 := by
  have hdrop : (32#8 :: 45#8 :: s).dropWhile isSpace = 45#8 :: s := rfl
  rw [scan,hdrop,scanSign] at h
  dsimp only at h
  split at h
  · cases h
  · cases h
    simp

/-- A start time that is not positive is never believed. -/
theorem missionStateLoad_take_nonpos {s : SavedState} (h : s.missionStart.toInt ≤ 0) (k : ℕ) :
    missionStateLoad (some ((stateText s).take k)) = none := by
  by_cases hk : k ≤ 2
  · exact missionStateLoad_take_le_two s hk
  obtain ⟨i,rfl⟩ : ∃ i,k = 2 + (i+1) := ⟨k-3,by omega⟩
  have hscan : ∀ z rest,scan (32#8 :: (textTail s).take (i+1)) = some (z,rest) → z ≤ 0 := by
    intro z rest hz
    by_cases hneg : s.missionStart.toInt < 0
    · rw [textTail,signedDecimal,if_pos hneg,List.cons_append,List.take_succ_cons] at hz
      exact scan_minus_nonpos hz
    · have hzero : s.missionStart.toInt = 0 := by omega
      have hdigit : ∀ b ∈ ((32#8 :: (decimal s.telemetryCursor.toNat ++ [10#8])).take i).head?,
          isDigit b = false := by
        cases i with
        | zero => simp
        | succ i => simp [isDigit]
      rw [textTail,hzero] at hz
      have hcut := scan_space_decimal 0 hdigit
      rw [show decimal 0 = [48#8] from rfl,List.singleton_append] at hcut
      rw [show signedDecimal 0 = [48#8] from rfl,List.singleton_append,List.take_succ_cons,
        hcut] at hz
      cases hz
      decide
  rw [take_stateText,missionStateLoad_phase]
  rcases hfirst : scan (32#8 :: (textTail s).take (i+1)) with - | ⟨z,rest⟩
  · rfl
  · have hstart := toLong_nonpos (hscan z rest hfirst)
    dsimp only
    rw [if_neg (by omega)]

/-- What the first `k` bytes of the text load as, from the numbers alone. -/
def cutState (s : SavedState) (k : ℕ) : Option SavedState :=
  if s.missionStart.toInt ≤ 0 ∨ k ≤ 2 then none
  else if k ≤ 3 + startLength s then some (s.cutStart (2 + startLength s - k))
  else some (s.cutCursor (3 + startLength s + cursorLength s - k))

theorem missionStateLoad_take (s : SavedState) (k : ℕ) :
    missionStateLoad (some ((stateText s).take k)) = cutState s k := by
  rw [cutState]
  by_cases hpos : s.missionStart.toInt ≤ 0
  · rw [if_pos (.inl hpos),missionStateLoad_take_nonpos hpos]
  by_cases hk : k ≤ 2
  · rw [if_pos (.inr hk),missionStateLoad_take_le_two s hk]
  rw [if_neg (by omega)]
  by_cases hstart : k ≤ 3 + startLength s
  · rw [if_pos hstart,missionStateLoad_take_start (by omega) (by omega) hstart]
  · rw [if_neg hstart,missionStateLoad_take_cursor (by omega) (by omega)]

theorem stateText_length {s : SavedState} (h : 0 < s.missionStart.toInt) :
    (stateText s).length = 4 + startLength s + cursorLength s := by
  rw [stateText_eq,List.length_append,decimal_value_length,List.length_cons,textTail_of_pos h,
    List.length_append,List.length_cons,List.length_append,List.length_singleton,startLength,
    cursorLength]
  omega

theorem cutStart_eq_self_iff {s : SavedState} {j : ℕ} (h : 0 < s.missionStart.toInt) :
    s.cutStart j = s ↔ j = 0 ∧ s.telemetryCursor = 0#64 := by
  obtain ⟨htoNat,hlt⟩ := toNat_of_pos h
  have hdiv : s.missionStart.toNat / 10^j ≤ s.missionStart.toNat := Nat.div_le_self _ _
  constructor
  · intro heq
    have hstart := congrArg (fun t => t.missionStart.toNat) heq
    have hcursor := congrArg SavedState.telemetryCursor heq
    simp only [SavedState.cutStart,BitVec.toNat_ofNat] at hstart hcursor
    rw [Nat.mod_eq_of_lt (by omega),div_pow_eq_self_iff] at hstart
    exact ⟨by omega,hcursor.symm⟩
  · rintro ⟨rfl,hcursor⟩
    rw [SavedState.cutStart,pow_zero,Nat.div_one,BitVec.ofNat_toNat,BitVec.setWidth_eq,← hcursor]

theorem cutCursor_eq_self_iff {s : SavedState} {j : ℕ} :
    s.cutCursor j = s ↔ j = 0 ∨ s.telemetryCursor = 0#64 := by
  have hlt := s.telemetryCursor.isLt
  have hdiv : s.telemetryCursor.toNat / 10^j ≤ s.telemetryCursor.toNat := Nat.div_le_self _ _
  have hzero : s.telemetryCursor = 0#64 ↔ s.telemetryCursor.toNat = 0 :=
    ⟨fun h => by rw [h]; rfl,fun h => BitVec.eq_of_toNat_eq h⟩
  rw [hzero,← div_pow_eq_self_iff]
  constructor
  · intro heq
    have hcursor := congrArg (fun t => t.telemetryCursor.toNat) heq
    simp only [SavedState.cutCursor,BitVec.toNat_ofNat] at hcursor
    rwa [Nat.mod_eq_of_lt (by omega)] at hcursor
  · intro heq
    rw [SavedState.cutCursor,heq,BitVec.ofNat_toNat,BitVec.setWidth_eq]

/-- The cuts that lose nothing. -/
theorem cutState_eq_self_iff {s : SavedState} (h : 0 < s.missionStart.toInt) {k : ℕ} :
    cutState s k = some s ↔ (stateText s).length ≤ k + 1 ∨
      s.telemetryCursor = 0#64 ∧ 2 + startLength s ≤ k := by
  have hstart : 0 < startLength s := decimal_length_pos _
  have hcursor : 0 < cursorLength s := decimal_length_pos _
  have hzero : s.telemetryCursor = 0#64 → cursorLength s = 1 := by
    intro h
    rw [cursorLength,h]
    rfl
  rw [stateText_length h,cutState]
  split
  · next hnone =>
    simp only [reduceCtorEq,false_iff]
    omega
  split
  · rw [Option.some_inj,cutStart_eq_self_iff h]
    constructor
    · rintro ⟨hj,hc⟩
      exact .inr ⟨hc,by omega⟩
    · rintro (hk | ⟨hc,hk⟩)
      · omega
      · exact ⟨by omega,hc⟩
  · rw [Option.some_inj,cutCursor_eq_self_iff]
    constructor
    · rintro (hj | hc)
      · exact .inl (by omega)
      · exact .inr ⟨hc,by omega⟩
    · rintro (hk | ⟨hc,-⟩)
      · exact .inl (by omega)
      · exact .inr hc

theorem missionStateLoad_stateText {s : SavedState} (h : 0 < s.missionStart.toInt) :
    missionStateLoad (some (stateText s)) = some s := by
  have hload := missionStateLoad_take s (stateText s).length
  rwa [List.take_length,(cutState_eq_self_iff h).mpr (.inl (Nat.le_succ _))] at hload

/-- The text loads as what was saved. A proper prefix loads as that or not at all if and only if
it ends before the start time, or only the newline is missing, or the cursor is zero and the
start time complete. -/
theorem state_text_cut_iff (s : SavedState) (h : 0 < s.missionStart.toInt) :
    missionStateLoad (some (stateText s)) = some s ∧
    ∀ k < (stateText s).length,
      ((missionStateLoad (some ((stateText s).take k)) = some s ∨
          missionStateLoad (some ((stateText s).take k)) = none) ↔
        k ≤ 2 ∨ k + 1 = (stateText s).length ∨
          s.telemetryCursor = 0#64 ∧ 2 + startLength s ≤ k) := by
  refine ⟨missionStateLoad_stateText h,fun k hk => ?_⟩
  have hnone : cutState s k = none ↔ k ≤ 2 := by
    rw [cutState]
    split
    · simp only [true_iff]
      omega
    · split <;> simp only [reduceCtorEq,false_iff] <;> omega
  rw [missionStateLoad_take,cutState_eq_self_iff h,hnone]
  constructor
  · rintro ((hlength | hcursor) | hle)
    · exact .inr (.inl (by omega))
    · exact .inr (.inr hcursor)
    · exact .inl hle
  · rintro (hle | hlength | hcursor)
    · exact .inr hle
    · exact .inl (.inl (by omega))
    · exact .inl (.inr hcursor)

/-- A mission that takes photos and has downlinked telemetry. -/
def photoState : SavedState := ⟨.takingPhoto,1700000000#64,338#64⟩

theorem photo_state_without_newline :
    missionStateLoad (some (stateText photoState)) = some photoState ∧
    (missionStateLoad (some ((stateText photoState).take 16)) = some photoState ∨
      missionStateLoad (some ((stateText photoState).take 16)) = none) := by
  have hcut := state_text_cut_iff photoState (by decide)
  exact ⟨hcut.1,(hcut.2 16 (by decide +kernel)).mpr (.inr (.inl (by decide +kernel)))⟩

/-- `1 17` instead of `1 1700000000 338` is believed. -/
theorem cut_start_believed :
    0 < photoState.missionStart.toInt ∧ 4 < (stateText photoState).length ∧
    missionStateLoad (some ((stateText photoState).take 4)) = some ⟨.takingPhoto,17#64,0#64⟩ ∧
    ¬ (missionStateLoad (some ((stateText photoState).take 4)) = some photoState ∨
      missionStateLoad (some ((stateText photoState).take 4)) = none) := by
  decide +kernel

/-! ### What a save leaves behind -/

/-- The number of bytes of the text that reach the temporary file. -/
def SaveIo.written (saveIo : SaveIo) : ℕ := min saveIo.printed (saveIo.flushed + saveIo.closed)

theorem missionStateSave_written (files : StateFiles) (s : SavedState) {saveIo : SaveIo}
    (hopens : saveIo.opens = true) (hrenames : saveIo.renames = true) :
    missionStateSave files s saveIo = ⟨some ((stateText s).take saveIo.written),none⟩ := by
  have hwritten : ((stateText s).take saveIo.printed).take saveIo.flushed ++
      (((stateText s).take saveIo.printed).drop saveIo.flushed).take saveIo.closed =
        (stateText s).take saveIo.written := by
    rw [← List.take_add,List.take_take,min_comm,SaveIo.written]
  rw [missionStateSave,if_neg (by simp [hopens]),if_pos hrenames]
  exact congrArg (fun text => StateFiles.mk (some text) none) hwritten

theorem missionStateSave_kept (files : StateFiles) (s : SavedState) {saveIo : SaveIo}
    (h : saveIo.opens = false ∨ saveIo.renames = false) :
    (missionStateSave files s saveIo).state = files.state := by
  rw [missionStateSave]
  split
  · rfl
  · next hopens =>
    rw [if_neg (by simp [h.resolve_left hopens])]

/-- A save leaves the previous state or the new one if and only if it does not get to renaming,
or the bytes that it renames lose nothing of a valid state, or they happen to spell the previous
state. -/
theorem state_save_iff (files : StateFiles) (previous s : SavedState) (saveIo : SaveIo)
    (h : missionStateLoad files.state = some previous) :
    (missionStateLoad (missionStateSave files s saveIo).state = some previous ∨
        missionStateLoad (missionStateSave files s saveIo).state = some s) ↔
      saveIo.opens = false ∨ saveIo.renames = false ∨
        (0 < s.missionStart.toInt ∧ ((stateText s).length ≤ saveIo.written + 1 ∨
          s.telemetryCursor = 0#64 ∧ 2 + startLength s ≤ saveIo.written)) ∨
        cutState s saveIo.written = some previous := by
  by_cases hkept : saveIo.opens = false ∨ saveIo.renames = false
  · rw [missionStateSave_kept files s hkept]
    constructor
    · rintro -
      exact hkept.elim .inl fun hrenames => .inr (.inl hrenames)
    · rintro -
      exact .inl h
  obtain ⟨hopens,hrenames⟩ := not_or.mp hkept
  rw [missionStateSave_written files s (by simpa using hopens) (by simpa using hrenames),
    missionStateLoad_take]
  constructor
  · rintro (hprevious | hnew)
    · exact .inr (.inr (.inr hprevious))
    · have hpos : 0 < s.missionStart.toInt := by
        rw [← missionStateLoad_take] at hnew
        exact missionStateLoad_start_pos hnew
      exact .inr (.inr (.inl ⟨hpos,(cutState_eq_self_iff hpos).mp hnew⟩))
  · rintro (hfalse | hfalse | ⟨hpos,hcut⟩ | hprevious)
    · exact absurd hfalse hopens
    · exact absurd hfalse hrenames
    · exact .inr ((cutState_eq_self_iff hpos).mpr hcut)
    · exact .inl hprevious

/-- Everything succeeds. -/
def SaveIo.complete : SaveIo := ⟨true,64,64,true,0,true⟩

/-- The disk is full, and nothing but the name of the file can be written. -/
def SaveIo.diskFull : SaveIo := ⟨true,64,0,false,0,true⟩

def ascentState : SavedState := ⟨.waitingForAscent,1700000000#64,0#64⟩

theorem complete_save_loads :
    missionStateLoad (missionStateSave ⟨some (stateText ascentState),none⟩ photoState
        .complete).state = some ascentState ∨
      missionStateLoad (missionStateSave ⟨some (stateText ascentState),none⟩ photoState
        .complete).state = some photoState :=
  (state_save_iff ⟨some (stateText ascentState),none⟩ ascentState photoState .complete
    (by decide +kernel)).mpr (.inr (.inr (.inl ⟨by decide,.inl (by decide +kernel)⟩)))

/-- An empty file takes the place of the previous one. -/
theorem full_disk_loses_state :
    missionStateLoad (some (stateText ascentState)) = some ascentState ∧
    missionStateSave ⟨some (stateText ascentState),none⟩ photoState .diskFull = ⟨some [],none⟩ ∧
    ¬ (missionStateLoad (missionStateSave ⟨some (stateText ascentState),none⟩ photoState
          .diskFull).state = some ascentState ∨
        missionStateLoad (missionStateSave ⟨some (stateText ascentState),none⟩ photoState
          .diskFull).state = some photoState) := by
  decide +kernel

end FlightSoftware.Mission
