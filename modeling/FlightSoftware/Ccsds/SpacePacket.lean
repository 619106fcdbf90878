import FlightSoftware.Lib.BigEndian

/-!
# CCSDS space packets

The six byte primary header: `space_packet.c`. Pointer and length pairs are byte
strings here, so the source's NULL checks have nothing to test; a function that
fills an output buffer returns the bytes it writes.
-/

namespace FlightSoftware.Ccsds
open BigEndian

/-- `ccsds_status_t` without `CCSDS_OK`, which is the `ok` case of a result. -/
inductive CcsdsError where
  | null | range | bufferTooSmall | invalidFormat | crc | unsupported | codec | callback
  deriving DecidableEq,Repr

def primaryHeaderSize : ℕ := 6
def maxDataSize : ℕ := 65536
def maxApid : BitVec 16 := 0x07FF#16
def maxSequenceCount : BitVec 16 := 0x3FFF#16

inductive CcsdsPacketType where
  | telemetry | command
  deriving DecidableEq,Repr

inductive CcsdsSequenceFlags where
  | continuation | first | last | unsegmented
  deriving DecidableEq,Repr

def CcsdsPacketType.toBits : CcsdsPacketType → BitVec 16
  | .telemetry => 0
  | .command => 1

/-- The cast from the one header bit back to the enumeration. -/
def CcsdsPacketType.ofBits (v : BitVec 16) : CcsdsPacketType :=
  if v = 0#16 then .telemetry else .command

def CcsdsSequenceFlags.toBits : CcsdsSequenceFlags → BitVec 16
  | .continuation => 0
  | .first => 1
  | .last => 2
  | .unsegmented => 3

/-- The cast from the two header bits back to the enumeration. -/
def CcsdsSequenceFlags.ofBits (v : BitVec 16) : CcsdsSequenceFlags :=
  if v = 0#16 then .continuation else if v = 1#16 then .first
  else if v = 2#16 then .last else .unsegmented

structure CcsdsSpacePacketHeader where
  type : CcsdsPacketType
  hasSecondaryHeader : Bool
  apid : BitVec 16
  sequenceFlags : CcsdsSequenceFlags
  sequenceCount : BitVec 16
  deriving DecidableEq,Repr

/-- A parsed packet. `data` holds the `dataLength` bytes behind the pointer. -/
structure CcsdsSpacePacketView where
  header : CcsdsSpacePacketHeader
  data : List Byte
  dataLength : ℕ
  totalLength : ℕ
  deriving DecidableEq,Repr

/-- The two enumerations hold nothing but their enumerators, so only the two
numeric fields can be out of range. -/
def validateHeader (header : CcsdsSpacePacketHeader) : Except CcsdsError Unit :=
  if header.apid > maxApid ∨ header.sequenceCount > maxSequenceCount then .error .range
  else .ok ()

def packetId (header : CcsdsSpacePacketHeader) : BitVec 16 :=
  (header.type.toBits <<< 12) ||| ((if header.hasSecondaryHeader then 1#16 else 0#16) <<< 11) |||
    header.apid

def sequenceControl (header : CcsdsSpacePacketHeader) : BitVec 16 :=
  (header.sequenceFlags.toBits <<< 14) ||| header.sequenceCount

def ccsdsSpacePacketWriteHeader (header : CcsdsSpacePacketHeader) (dataLength : ℕ)
    (outputCapacity : ℕ) : Except CcsdsError (List Byte) :=
  match validateHeader header with
  | .error e => .error e
  | .ok () =>
    if dataLength = 0 ∨ dataLength > maxDataSize then .error .range
    else if outputCapacity < primaryHeaderSize then .error .bufferTooSmall
    else .ok (writeU16Be (packetId header) ++ writeU16Be (sequenceControl header) ++
      writeU16Be (BitVec.ofNat 16 (dataLength-1)))

def ccsdsSpacePacketPeekSize (input : List Byte) : Except CcsdsError ℕ :=
  if input.length < primaryHeaderSize then .error .bufferTooSmall
  else if byteAt input 0 &&& 0xE0#8 ≠ 0#8 then .error .unsupported
  else .ok (primaryHeaderSize + (readU16Be (input.drop 4)).toNat + 1)

/-- Parse one packet at the front of the input; extra bytes may follow it. -/
def ccsdsSpacePacketParse (input : List Byte) : Except CcsdsError CcsdsSpacePacketView :=
  match ccsdsSpacePacketPeekSize input with
  | .error e => .error e
  | .ok packetSize =>
    if input.length < packetSize then .error .bufferTooSmall
    else
      let packetId := readU16Be input
      let sequenceControl := readU16Be (input.drop 2)
      let dataLength := packetSize - primaryHeaderSize
      .ok {
        header := {
          type := .ofBits ((packetId >>> 12) &&& 1#16)
          hasSecondaryHeader := (packetId >>> 11) &&& 1#16 != 0#16
          apid := packetId &&& maxApid
          sequenceFlags := .ofBits ((sequenceControl >>> 14) &&& 3#16)
          sequenceCount := sequenceControl &&& maxSequenceCount }
        data := (input.drop primaryHeaderSize).take dataLength
        dataLength := dataLength
        totalLength := packetSize }

/-! ### What an accepted header is -/

/-- The header fields read from the first four bytes. -/
def headerOf (input : List Byte) : CcsdsSpacePacketHeader where
  type := .ofBits ((readU16Be input >>> 12) &&& 1#16)
  hasSecondaryHeader := (readU16Be input >>> 11) &&& 1#16 != 0#16
  apid := readU16Be input &&& maxApid
  sequenceFlags := .ofBits ((readU16Be (input.drop 2) >>> 14) &&& 3#16)
  sequenceCount := readU16Be (input.drop 2) &&& maxSequenceCount

theorem ccsdsSpacePacketPeekSize_eq_ok_iff {input : List Byte} {n : ℕ} :
    ccsdsSpacePacketPeekSize input = .ok n ↔ 6 ≤ input.length ∧
      byteAt input 0 &&& 0xE0#8 = 0#8 ∧ n = (readU16Be (input.drop 4)).toNat + 7 := by
  unfold ccsdsSpacePacketPeekSize primaryHeaderSize
  split_ifs with hl hv
  · simp only [false_iff,not_and]
    omega
  · simp [hv]
  · simp only [Except.ok.injEq]
    constructor
    · rintro rfl
      exact ⟨by omega,not_not.mp hv,by omega⟩
    · rintro ⟨_,_,rfl⟩
      omega

theorem ccsdsSpacePacketParse_eq_ok_iff {input : List Byte} {view : CcsdsSpacePacketView} :
    ccsdsSpacePacketParse input = .ok view ↔
      6 ≤ input.length ∧ byteAt input 0 &&& 0xE0#8 = 0#8 ∧
      (readU16Be (input.drop 4)).toNat + 7 ≤ input.length ∧
      view = ⟨headerOf input,(input.drop 6).take ((readU16Be (input.drop 4)).toNat+1),
        (readU16Be (input.drop 4)).toNat+1,(readU16Be (input.drop 4)).toNat+7⟩ := by
  unfold ccsdsSpacePacketParse
  cases hp : ccsdsSpacePacketPeekSize input with
  | error e =>
    simp only [reduceCtorEq,false_iff]
    rintro ⟨hl,hv,-,-⟩
    rw [ccsdsSpacePacketPeekSize_eq_ok_iff.mpr ⟨hl,hv,rfl⟩] at hp
    cases hp
  | ok n =>
    obtain ⟨hl,hv,rfl⟩ := ccsdsSpacePacketPeekSize_eq_ok_iff.mp hp
    simp only [hl,hv,true_and]
    by_cases hs : input.length < (readU16Be (input.drop 4)).toNat + 7
    · simp only [if_pos hs,reduceCtorEq,false_iff,not_and]
      omega
    · rw [if_neg hs,Except.ok.injEq]
      constructor
      · intro h
        exact ⟨by omega,h.symm⟩
      · rintro ⟨_,h⟩
        exact h.symm

theorem CcsdsPacketType.toBits_ofBits (v : BitVec 16) :
    (CcsdsPacketType.ofBits (v &&& 1#16)).toBits = v &&& 1#16 := by
  rw [BitVec.and_one_eq_setWidth_ofBool_getLsbD]
  cases v.getLsbD 0 <;> rfl

theorem CcsdsSequenceFlags.toBits_ofBits (v : BitVec 16) :
    (CcsdsSequenceFlags.ofBits (v &&& 3#16)).toBits = v &&& 3#16 := by
  have hlt : (v &&& 3#16).toNat < 4 := by
    rw [BitVec.toNat_and]
    exact Nat.lt_succ_of_le Nat.and_le_right
  have hv : v &&& 3#16 = BitVec.ofNat 16 (v &&& 3#16).toNat := by simp
  rw [hv]
  generalize (v &&& 3#16).toNat = k at hlt
  interval_cases k <;> rfl

/-- The version bits of an accepted packet are clear. -/
theorem readU16Be_version {input : List Byte} (h : byteAt input 0 &&& 0xE0#8 = 0#8) (j : ℕ)
    (hj : 13 ≤ j) : (readU16Be input).getLsbD j = false := by
  by_cases h16 : j < 16
  · have hb := congrArg (fun v => v.getLsbD (j-8)) h
    interval_cases j <;> simpa [readU16Be] using hb
  · exact BitVec.getLsbD_of_ge _ _ (by omega)

theorem packetId_split (p : BitVec 16) (hv : ∀ j,13 ≤ j → p.getLsbD j = false) :
    (((p >>> 12) &&& 1#16) <<< 12) ||| (((p >>> 11) &&& 1#16) <<< 11) ||| (p &&& 0x07FF#16) =
      p := by
  have h13 := hv 13 (by omega)
  have h14 := hv 14 (by omega)
  have h15 := hv 15 (by omega)
  ext i hi
  interval_cases i <;> simp_all

/-- The packet identifier word is recovered from the header it was read into. -/
theorem packetId_headerOf {input : List Byte} (h : byteAt input 0 &&& 0xE0#8 = 0#8) :
    packetId (headerOf input) = readU16Be input := by
  have hs : (if ((readU16Be input >>> 11) &&& 1#16 != 0#16) = true then 1#16 else 0#16) =
      (readU16Be input >>> 11) &&& 1#16 := by
    rw [BitVec.and_one_eq_setWidth_ofBool_getLsbD]
    cases (readU16Be input >>> 11).getLsbD 0 <;> rfl
  rw [← packetId_split _ (readU16Be_version h),← CcsdsPacketType.toBits_ofBits,← hs]
  rfl

/-- The sequence control word is recovered from the header it was read into. -/
theorem sequenceControl_headerOf (input : List Byte) :
    sequenceControl (headerOf input) = readU16Be (input.drop 2) := by
  simp only [sequenceControl,headerOf,CcsdsSequenceFlags.toBits_ofBits]
  generalize readU16Be (input.drop 2) = p
  ext i hi
  interval_cases i <;> simp [maxSequenceCount]

/-! ### A written header reads back -/

theorem toNat_le_of_not_gt {v m : BitVec 16} (h : ¬ v > m) : v.toNat ≤ m.toNat := by
  simpa [BitVec.lt_def] using h

theorem packetId_toNat {h : CcsdsSpacePacketHeader} (ha : ¬ h.apid > maxApid) :
    (packetId h).toNat = 4096*h.type.toBits.toNat + 2048*h.hasSecondaryHeader.toNat +
      h.apid.toNat := by
  have hlt : h.apid.toNat < 2^11 := Nat.lt_succ_of_le (toNat_le_of_not_gt ha)
  have hor : ∀ c : ℕ,c <<< 11 ||| h.apid.toNat = 2048*c + h.apid.toNat := by
    intro c
    rw [← Nat.shiftLeft_add_eq_or_of_lt hlt,Nat.shiftLeft_eq]
    omega
  rw [packetId,BitVec.toNat_or]
  cases h.type <;> cases h.hasSecondaryHeader
  · exact hor 0
  · exact hor 1
  · exact hor 2
  · exact hor 3

theorem sequenceControl_toNat {h : CcsdsSpacePacketHeader}
    (hs : ¬ h.sequenceCount > maxSequenceCount) :
    (sequenceControl h).toNat = 16384*h.sequenceFlags.toBits.toNat + h.sequenceCount.toNat := by
  have hlt : h.sequenceCount.toNat < 2^14 := Nat.lt_succ_of_le (toNat_le_of_not_gt hs)
  have hor : ∀ c : ℕ,c <<< 14 ||| h.sequenceCount.toNat = 16384*c + h.sequenceCount.toNat := by
    intro c
    rw [← Nat.shiftLeft_add_eq_or_of_lt hlt,Nat.shiftLeft_eq]
    omega
  rw [sequenceControl,BitVec.toNat_or]
  cases h.sequenceFlags
  · exact hor 0
  · exact hor 1
  · exact hor 2
  · exact hor 3

/-- A field of `k` bits at bit `n` of a word, as a number. -/
theorem field_toNat (v m : BitVec 16) (n k : ℕ) (hm : m.toNat = 2^k-1) :
    ((v >>> n) &&& m).toNat = v.toNat/2^n%2^k := by
  rw [BitVec.toNat_and,BitVec.toNat_ushiftRight,hm,Nat.and_two_pow_sub_one_eq_mod,
    Nat.shiftRight_eq_div_pow]

theorem headerOf_eq {input : List Byte} {h : CcsdsSpacePacketHeader}
    (ha : ¬ h.apid > maxApid) (hs : ¬ h.sequenceCount > maxSequenceCount)
    (hid : readU16Be input = packetId h)
    (hsc : readU16Be (input.drop 2) = sequenceControl h) : headerOf input = h := by
  have hx := packetId_toNat ha
  have hy := sequenceControl_toNat hs
  have hal : h.apid.toNat ≤ 2047 := toNat_le_of_not_gt ha
  have hsl : h.sequenceCount.toNat ≤ 16383 := toNat_le_of_not_gt hs
  have ht : h.type.toBits.toNat ≤ 1 := by cases h.type <;> decide
  have hf : h.sequenceFlags.toBits.toNat ≤ 3 := by cases h.sequenceFlags <;> decide
  have hsec := Bool.toNat_le h.hasSecondaryHeader
  have htype : (packetId h >>> 12) &&& 1#16 = h.type.toBits :=
    BitVec.eq_of_toNat_eq (by rw [field_toNat _ _ 12 1 rfl]; omega)
  have hsecondary : ((packetId h >>> 11) &&& 1#16).toNat = h.hasSecondaryHeader.toNat := by
    rw [field_toNat _ _ 11 1 rfl]
    omega
  have hapid : packetId h &&& maxApid = h.apid :=
    BitVec.eq_of_toNat_eq (by
      have := field_toNat (packetId h) maxApid 0 11 rfl
      rw [BitVec.ushiftRight_zero] at this
      exact this.trans (by omega))
  have hflags : (sequenceControl h >>> 14) &&& 3#16 = h.sequenceFlags.toBits :=
    BitVec.eq_of_toNat_eq (by rw [field_toNat _ _ 14 2 rfl]; omega)
  have hcount : sequenceControl h &&& maxSequenceCount = h.sequenceCount :=
    BitVec.eq_of_toNat_eq (by
      have := field_toNat (sequenceControl h) maxSequenceCount 0 14 rfl
      rw [BitVec.ushiftRight_zero] at this
      exact this.trans (by omega))
  unfold headerOf
  rw [hid,hsc,htype,hapid,hflags,hcount]
  obtain ⟨type,secondary,apid,flags,count⟩ := h
  congr 1
  · cases type <;> rfl
  · cases secondary
    · exact bne_eq_false_iff_eq.mpr (BitVec.eq_of_toNat_eq hsecondary)
    · refine bne_iff_ne.mpr (fun h0 => ?_)
      rw [h0] at hsecondary
      exact absurd hsecondary Nat.zero_ne_one
  · cases flags <;> rfl

theorem version_of_packetId {h : CcsdsSpacePacketHeader} (ha : ¬ h.apid > maxApid) :
    (packetId h >>> 8).setWidth 8 &&& 0xE0#8 = 0#8 := by
  have hmask : ∀ b : Byte,b.toNat < 32 → b &&& 0xE0#8 = 0#8 := by decide
  have hx := packetId_toNat ha
  have hal : h.apid.toNat ≤ 2047 := toNat_le_of_not_gt ha
  have ht : h.type.toBits.toNat ≤ 1 := by cases h.type <;> decide
  have hsec := Bool.toNat_le h.hasSecondaryHeader
  apply hmask
  rw [BitVec.toNat_setWidth,BitVec.toNat_ushiftRight,Nat.shiftRight_eq_div_pow]
  omega

end FlightSoftware.Ccsds
