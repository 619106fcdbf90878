import FlightSoftware.Lib.BigEndian
import FlightSoftware.Lib.ShiftRegister

/-!
# The packet checksum

`ccsdsCrc32` is the byte-wise loop of `crc32.c`. It is the register of
`ShiftRegister` with the reflected Ethernet polynomial, fed with the bits of the
packet, least significant bit of each byte first.
-/

namespace FlightSoftware.Ccsds
open ShiftRegister

def crcPolynomial : BitVec 32 := 0xEDB88320#32

/-- One pass of the inner loop: the mask is all ones when a one is shifted out. -/
def crcBit (crc : BitVec 32) : BitVec 32 :=
  let mask := 0#32 - (crc &&& 1#32)
  (crc >>> 1) ^^^ (crcPolynomial &&& mask)

/-- One pass of the outer loop. -/
def crcByte (crc : BitVec 32) (byte : Byte) : BitVec 32 :=
  crcBit^[8] (crc ^^^ byte.setWidth 32)

def ccsdsCrc32 (data : List Byte) : BitVec 32 :=
  data.foldl crcByte 0xFFFFFFFF#32 ^^^ 0xFFFFFFFF#32

/-- The bits of a byte string in the order the checksum takes them. -/
def streamBits (s : List Byte) : List Bool := s.flatMap bitsOf

theorem streamBits_cons (b : Byte) (s : List Byte) :
    streamBits (b :: s) = bitsOf b ++ streamBits s := rfl

theorem crcBit_eq_step (crc : BitVec 32) : crcBit crc = step crcPolynomial crc := by
  simp only [crcBit,step,BitVec.and_one_eq_setWidth_ofBool_getLsbD]
  cases crc.getLsbD 0 <;> simp [crcPolynomial]

theorem crcByte_eq_feed (crc : BitVec 32) (byte : Byte) :
    crcByte crc byte = feed crcPolynomial (bitsOf byte) crc := by
  have hs : crcBit = step crcPolynomial := funext crcBit_eq_step
  rw [feed_bitsOf crcPolynomial (by decide),crcByte,hs,clock]

theorem foldl_crcByte_eq_feed (data : List Byte) (crc : BitVec 32) :
    data.foldl crcByte crc = feed crcPolynomial (streamBits data) crc := by
  induction data generalizing crc with
  | nil => rfl
  | cons b data ih =>
    rw [List.foldl_cons,ih,crcByte_eq_feed,streamBits_cons,feed_append]

theorem streamBits_length (s : List Byte) : (streamBits s).length = 8*s.length := by
  induction s with
  | nil => rfl
  | cons b s ih =>
    rw [streamBits_cons,List.length_append,ih,bitsOf_length,List.length_cons]
    omega

/-- Bit `n` of a byte string, bytes in order and each least significant bit first. -/
def bitAt (s : List Byte) (n : ℕ) : Bool := (byteAt s (n/8)).getLsbD (n%8)

theorem streamBits_getD (s : List Byte) (n : ℕ) : (streamBits s).getD n false = bitAt s n := by
  induction s generalizing n with
  | nil => simp [streamBits,bitAt,byteAt]
  | cons b s ih =>
    rw [streamBits_cons]
    by_cases h : n < 8
    · have hq : n/8 = 0 := by omega
      have hr : n%8 = n := by omega
      rw [List.getD_append _ _ _ _ (by simpa using h),bitAt,hq,hr,byteAt_cons_zero]
      simp [bitsOf,h]
    · have hq : n/8 = (n-8)/8+1 := by omega
      have hr : n%8 = (n-8)%8 := by omega
      rw [List.getD_append_right _ _ _ _ (by simpa using h),bitsOf_length,ih,bitAt,bitAt,hq,hr,
        byteAt_cons_succ]

/-- Byte strings are determined by their bits. -/
theorem streamBits_injective {s t : List Byte} (h : streamBits s = streamBits t) : s = t := by
  have hl : s.length = t.length := by
    have := congrArg List.length h
    rw [streamBits_length,streamBits_length] at this
    omega
  apply eq_of_byteAt_eq hl
  intro i _
  apply BitVec.eq_of_getLsbD_eq
  intro j hj
  have hb : bitAt s (8*i+j) = bitAt t (8*i+j) := by rw [← streamBits_getD,h,streamBits_getD]
  have hq : (8*i+j)/8 = i := by omega
  have hr : (8*i+j)%8 = j := by omega
  rwa [bitAt,bitAt,hq,hr] at hb

/-- Two byte strings of one length that differ, but only within 32 consecutive
bits, have different checksums. -/
theorem ccsdsCrc32_ne_of_burst {s t : List Byte} (hl : s.length = t.length) (hne : s ≠ t) (k : ℕ)
    (hk : ∀ n,bitAt s n ≠ bitAt t n → k ≤ n ∧ n < k+32) : ccsdsCrc32 s ≠ ccsdsCrc32 t := by
  have hf := @feed_ne_of_burst 32 crcPolynomial (by decide) _ _
    (by rw [streamBits_length,streamBits_length,hl] :
      (streamBits s).length = (streamBits t).length)
    (fun h => hne (streamBits_injective h)) k
    (by simpa only [streamBits_getD] using hk) 0xFFFFFFFF#32
  intro h
  apply hf
  rw [← foldl_crcByte_eq_feed,← foldl_crcByte_eq_feed]
  exact (BitVec.xor_left_inj _).mp h

end FlightSoftware.Ccsds
