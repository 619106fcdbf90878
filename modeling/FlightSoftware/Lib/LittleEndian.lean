import FlightSoftware.Lib.BigEndian
import FlightSoftware.Lib.CFloat

/-!
# Little-endian words in byte strings

What `memcpy` reads from and writes to a byte string on a little-endian machine: words of any
number of bytes, least significant byte first.
-/

namespace FlightSoftware.LittleEndian

/-- The word of `n` bytes at the front of a byte string. -/
def readLe (n : ℕ) (s : List Byte) : ℕ := Nat.ofDigits 256 ((s.take n).map BitVec.toNat)

def writeLe : ℕ → ℕ → List Byte
  | 0,_ => []
  | n+1,value => BitVec.ofNat 8 value :: writeLe n (value/256)

def readU16Le (s : List Byte) : BitVec 16 := BitVec.ofNat 16 (readLe 2 s)
def readU32Le (s : List Byte) : BitVec 32 := BitVec.ofNat 32 (readLe 4 s)
def readU64Le (s : List Byte) : BitVec 64 := BitVec.ofNat 64 (readLe 8 s)

def writeU16Le (value : BitVec 16) : List Byte := writeLe 2 value.toNat
def writeU32Le (value : BitVec 32) : List Byte := writeLe 4 value.toNat
def writeU64Le (value : BitVec 64) : List Byte := writeLe 8 value.toNat

/-- The `float` at the front of a byte string. -/
def readFloatLe (s : List Byte) : CFloat := .ofBits (readU32Le s)

@[simp] theorem writeLe_length (n value : ℕ) : (writeLe n value).length = n := by
  induction n generalizing value with
  | zero => rfl
  | succ n ih => rw [writeLe,List.length_cons,ih]

theorem readLe_write (n value : ℕ) (rest : List Byte) :
    readLe n (writeLe n value ++ rest) = value % 256^n := by
  induction n generalizing value with
  | zero => rw [pow_zero,Nat.mod_one]; rfl
  | succ n ih =>
    have htail : Nat.ofDigits 256 (((writeLe n (value/256) ++ rest).take n).map BitVec.toNat) =
        value/256 % 256^n := ih _
    rw [readLe,writeLe,List.cons_append,List.take_succ_cons,List.map_cons,Nat.ofDigits_cons,
      BitVec.toNat_ofNat,htail,pow_succ' 256 n]
    exact (Nat.mod_mul ..).symm

theorem readU16Le_write (value : BitVec 16) (rest : List Byte) :
    readU16Le (writeU16Le value ++ rest) = value := by
  rw [readU16Le,writeU16Le,readLe_write,Nat.mod_eq_of_lt (show value.toNat < 256^2 from value.isLt),
    BitVec.ofNat_toNat,BitVec.setWidth_eq]

theorem readU64Le_write (value : BitVec 64) (rest : List Byte) :
    readU64Le (writeU64Le value ++ rest) = value := by
  rw [readU64Le,writeU64Le,readLe_write,Nat.mod_eq_of_lt (show value.toNat < 256^8 from value.isLt),
    BitVec.ofNat_toNat,BitVec.setWidth_eq]

end FlightSoftware.LittleEndian
