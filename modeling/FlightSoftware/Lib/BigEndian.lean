import Mathlib

/-!
# Big-endian words in byte strings

Two, four and eight byte words, most significant byte first, with the round trips in
both directions. Bytes are `BitVec 8`, so a byte string is a plain list.
-/

namespace FlightSoftware

abbrev Byte := BitVec 8

/-- The byte at an index of a byte string. Every read of the source is behind a
length check, so the default is never observed. -/
def byteAt (s : List Byte) (i : ℕ) : Byte := s.getD i 0#8

@[simp] theorem byteAt_cons_zero (b : Byte) (s : List Byte) : byteAt (b :: s) 0 = b := rfl

@[simp] theorem byteAt_cons_succ (b : Byte) (s : List Byte) (i : ℕ) :
    byteAt (b :: s) (i+1) = byteAt s i := rfl

theorem byteAt_append_left (s t : List Byte) (i : ℕ) (h : i < s.length) :
    byteAt (s ++ t) i = byteAt s i := by
  simp [byteAt,List.getElem?_append_left h]

theorem byteAt_append_right (s t : List Byte) (i : ℕ) :
    byteAt (s ++ t) (s.length + i) = byteAt t i := by
  simp [byteAt,List.getElem?_append_right]

theorem byteAt_take (s : List Byte) (n i : ℕ) (h : i < n) :
    byteAt (s.take n) i = byteAt s i := by
  simp [byteAt,h]

theorem byteAt_drop (s : List Byte) (n i : ℕ) : byteAt (s.drop n) i = byteAt s (n+i) := by
  simp [byteAt]

theorem drop_eq_byteAt_cons {s : List Byte} {k : ℕ} (h : k < s.length) :
    s.drop k = byteAt s k :: s.drop (k+1) := by
  rw [List.drop_eq_getElem_cons h,byteAt,List.getD_eq_getElem _ _ h]

/-- A byte string of known length is the list of its bytes. -/
theorem eq_of_byteAt_eq {s t : List Byte} (hl : s.length = t.length)
    (h : ∀ i < s.length, byteAt s i = byteAt t i) : s = t := by
  apply List.ext_getElem hl
  intro i hs ht
  have hi := h i hs
  simpa [byteAt,List.getElem?_eq_getElem,hs,ht] using hi

namespace BigEndian

def writeU16Be (value : BitVec 16) : List Byte :=
  [(value >>> 8).setWidth 8,value.setWidth 8]

def writeU32Be (value : BitVec 32) : List Byte :=
  [(value >>> 24).setWidth 8,(value >>> 16).setWidth 8,(value >>> 8).setWidth 8,value.setWidth 8]

/-- The 16-bit word at the front of a byte string. -/
def readU16Be (input : List Byte) : BitVec 16 :=
  ((byteAt input 0).setWidth 16 <<< 8) ||| (byteAt input 1).setWidth 16

/-- The 32-bit word at the front of a byte string. -/
def readU32Be (input : List Byte) : BitVec 32 :=
  ((byteAt input 0).setWidth 32 <<< 24) ||| ((byteAt input 1).setWidth 32 <<< 16) |||
    ((byteAt input 2).setWidth 32 <<< 8) ||| (byteAt input 3).setWidth 32

/-- The 64-bit word at the front of a byte string, one byte after another. -/
def readU64Be (input : List Byte) : BitVec 64 :=
  (List.range 8).foldl (fun value i => (value <<< 8) ||| (byteAt input i).setWidth 64) 0#64

def writeU64Be (value : BitVec 64) : List Byte :=
  (List.range 8).map fun i => (value >>> (56 - i*8)).setWidth 8

@[simp] theorem writeU16Be_length (value : BitVec 16) : (writeU16Be value).length = 2 := rfl

@[simp] theorem writeU32Be_length (value : BitVec 32) : (writeU32Be value).length = 4 := rfl

theorem readU16Be_write (value : BitVec 16) (rest : List Byte) :
    readU16Be (writeU16Be value ++ rest) = value := by
  ext i hi
  simp only [readU16Be,writeU16Be,List.cons_append,byteAt_cons_zero,byteAt_cons_succ]
  interval_cases i <;> simp

/-- The bits of the word are those of its bytes, the last byte lowest. -/
theorem readU32Be_getLsbD (s : List Byte) {k i : ℕ} (hk : k < 4) (hi : i < 8) :
    (readU32Be s).getLsbD (8*k+i) = (byteAt s (3-k)).getLsbD i := by
  have hhigh (b : Byte) (j : ℕ) (hj : 8 ≤ j) : b.getLsbD j = false := BitVec.getLsbD_of_ge _ _ hj
  simp only [readU32Be,BitVec.getLsbD_or,BitVec.getLsbD_shiftLeft,BitVec.getLsbD_setWidth]
  interval_cases k
  · simp [show i < 32 by omega,show i < 24 by omega,show i < 16 by omega,hi]
  · rw [hhigh _ (8*1+i) (by omega)]
    simp [show 8 + i < 32 by omega,show 8 + i < 24 by omega,show 8 + i < 16 by omega,
      show i < 32 by omega]
  · rw [hhigh _ (8*2+i) (by omega),hhigh _ (8*2+i-8) (by omega)]
    simp [show 16 + i < 32 by omega,show 16 + i < 24 by omega,show i < 32 by omega]
  · rw [hhigh _ (8*3+i) (by omega),hhigh _ (8*3+i-8) (by omega),hhigh _ (8*3+i-16) (by omega)]
    simp [show 24 + i < 32 by omega,show i < 32 by omega]

theorem byteAt_writeU32Be (value : BitVec 32) (rest : List Byte) {k : ℕ} (hk : k < 4) :
    byteAt (writeU32Be value ++ rest) (3-k) = (value >>> (8*k)).setWidth 8 := by
  interval_cases k
  · exact congrArg (BitVec.setWidth 8) (BitVec.ushiftRight_zero value).symm
  · rfl
  · rfl
  · rfl

theorem readU32Be_write (value : BitVec 32) (rest : List Byte) :
    readU32Be (writeU32Be value ++ rest) = value := by
  refine BitVec.eq_of_getLsbD_eq fun i hi => ?_
  have hbyte : i / 8 < 4 := by omega
  have hbit : i % 8 < 8 := by omega
  rw [← Nat.div_add_mod i 8,readU32Be_getLsbD _ hbyte hbit,byteAt_writeU32Be _ _ hbyte,
    BitVec.getLsbD_setWidth,BitVec.getLsbD_ushiftRight,decide_eq_true hbit,Bool.true_and]

theorem writeU16Be_read (a b : Byte) (rest : List Byte) :
    writeU16Be (readU16Be (a :: b :: rest)) = [a,b] := by
  have ha : (readU16Be (a :: b :: rest) >>> 8).setWidth 8 = a := by
    ext i hi
    simp only [readU16Be,byteAt_cons_zero,byteAt_cons_succ]
    interval_cases i <;> simp
  have hb : (readU16Be (a :: b :: rest)).setWidth 8 = b := by
    ext i hi
    simp only [readU16Be,byteAt_cons_zero,byteAt_cons_succ]
    interval_cases i <;> simp
  rw [writeU16Be,ha,hb]

/-- A byte of the word. -/
theorem readU32Be_byte (s : List Byte) {k : ℕ} (hk : k < 4) :
    (readU32Be s >>> (8*k)).setWidth 8 = byteAt s (3-k) := by
  refine BitVec.eq_of_getLsbD_eq fun i hi => ?_
  rw [BitVec.getLsbD_setWidth,BitVec.getLsbD_ushiftRight,readU32Be_getLsbD s hk hi,
    decide_eq_true hi,Bool.true_and]

theorem writeU32Be_read (a b c d : Byte) (rest : List Byte) :
    writeU32Be (readU32Be (a :: b :: c :: d :: rest)) = [a,b,c,d] := by
  have hd := readU32Be_byte (a :: b :: c :: d :: rest) (show 0 < 4 by decide)
  have hc := readU32Be_byte (a :: b :: c :: d :: rest) (show 1 < 4 by decide)
  have hb := readU32Be_byte (a :: b :: c :: d :: rest) (show 2 < 4 by decide)
  have ha := readU32Be_byte (a :: b :: c :: d :: rest) (show 3 < 4 by decide)
  rw [Nat.mul_zero,BitVec.ushiftRight_zero] at hd
  rw [writeU32Be,ha,hb,hc,hd]
  rfl

/-- The first two bytes are recovered from the word they spell. -/
theorem writeU16Be_readU16Be {s : List Byte} (h : 2 ≤ s.length) :
    writeU16Be (readU16Be s) = s.take 2 := by
  match s,h with
  | a :: b :: rest,_ => exact writeU16Be_read a b rest

/-- The first four bytes are recovered from the word they spell. -/
theorem writeU32Be_readU32Be {s : List Byte} (h : 4 ≤ s.length) :
    writeU32Be (readU32Be s) = s.take 4 := by
  match s,h with
  | a :: b :: c :: d :: rest,_ => exact writeU32Be_read a b c d rest

/-! ### Eight bytes, written and read by loops -/

@[simp] theorem writeU64Be_length (value : BitVec 64) : (writeU64Be value).length = 8 := by
  rw [writeU64Be,List.length_map,List.length_range]

/-- After `n` rounds of the loop the bytes so far are in the word, the last one lowest. -/
theorem shiftIn_getLsbD (s : List Byte) {n k i : ℕ} (hk : k < 8) (hi : i < 8) :
    ((List.range n).foldl (fun (value : BitVec 64) i => (value <<< 8) |||
      (byteAt s i).setWidth 64) 0#64).getLsbD (8*k+i) = (decide (k < n) && (byteAt s (n-1-k)).getLsbD i) := by
  induction n generalizing k with
  | zero => simp
  | succ n ih =>
    rw [List.range_succ,List.foldl_append,List.foldl_cons,List.foldl_nil,BitVec.getLsbD_or,
      BitVec.getLsbD_shiftLeft,BitVec.getLsbD_setWidth]
    cases k with
    | zero =>
      simp [hi,show i < 64 by omega]
    | succ k =>
      have hpos : 8*(k+1)+i-8 = 8*k+i := by omega
      have hhigh : (byteAt s n).getLsbD (8*(k+1)+i) = false :=
        BitVec.getLsbD_of_ge _ _ (by omega)
      have hindex : n+1-1-(k+1) = n-1-k := by omega
      rw [hpos,ih (by omega),hhigh,hindex,Bool.and_false,Bool.or_false,
        decide_eq_true (show 8*(k+1)+i < 64 by omega),
        decide_eq_false (show ¬8*(k+1)+i < 8 by omega)]
      simp

theorem readU64Be_getLsbD (s : List Byte) {k i : ℕ} (hk : k < 8) (hi : i < 8) :
    (readU64Be s).getLsbD (8*k+i) = (byteAt s (7-k)).getLsbD i := by
  rw [readU64Be,shiftIn_getLsbD s hk hi,decide_eq_true hk,Bool.true_and]

theorem byteAt_writeU64Be (value : BitVec 64) (rest : List Byte) {i : ℕ} (hi : i < 8) :
    byteAt (writeU64Be value ++ rest) i = (value >>> (56 - i*8)).setWidth 8 := by
  rw [byteAt_append_left _ _ _ (by rwa [writeU64Be_length]),byteAt,writeU64Be,
    List.getD_eq_getElem _ _ (by rwa [List.length_map,List.length_range]),List.getElem_map,
    List.getElem_range]

theorem readU64Be_write (value : BitVec 64) (rest : List Byte) :
    readU64Be (writeU64Be value ++ rest) = value := by
  refine BitVec.eq_of_getLsbD_eq fun i hi => ?_
  have hbyte : i / 8 < 8 := by omega
  have hbit : i % 8 < 8 := by omega
  have hshift : 56 - (7 - i/8)*8 = 8*(i/8) := by omega
  rw [← Nat.div_add_mod i 8,readU64Be_getLsbD _ hbyte hbit,byteAt_writeU64Be _ _ (by omega),
    hshift,BitVec.getLsbD_setWidth,BitVec.getLsbD_ushiftRight,decide_eq_true hbit,Bool.true_and]

/-- The first eight bytes are recovered from the word they spell. -/
theorem writeU64Be_readU64Be {s : List Byte} (h : 8 ≤ s.length) :
    writeU64Be (readU64Be s) = s.take 8 := by
  refine eq_of_byteAt_eq (by rw [writeU64Be_length,List.length_take]; omega) fun i hi => ?_
  rw [writeU64Be_length] at hi
  have hwrite := byteAt_writeU64Be (readU64Be s) [] hi
  rw [List.append_nil] at hwrite
  rw [hwrite,byteAt_take _ _ _ hi]
  refine BitVec.eq_of_getLsbD_eq fun j hj => ?_
  have hbyte : 56 - i*8 = 8*(7-i) := by omega
  have hindex : 7 - (7-i) = i := by omega
  rw [BitVec.getLsbD_setWidth,BitVec.getLsbD_ushiftRight,hbyte,
    readU64Be_getLsbD s (by omega) hj,hindex,decide_eq_true hj,Bool.true_and]

/-! ### The bytes determine the word -/

theorem writeU16Be_injective : Function.Injective writeU16Be :=
  Function.LeftInverse.injective (g := fun s => readU16Be (s ++ [])) fun v => readU16Be_write v []

theorem writeU32Be_injective : Function.Injective writeU32Be :=
  Function.LeftInverse.injective (g := fun s => readU32Be (s ++ [])) fun v => readU32Be_write v []

theorem writeU64Be_injective : Function.Injective writeU64Be :=
  Function.LeftInverse.injective (g := fun s => readU64Be (s ++ [])) fun v => readU64Be_write v []

/-- A double word is its upper half and then its lower one. -/
theorem writeU32Be_append (value : BitVec 64) :
    writeU32Be ((value >>> 32).setWidth 32) ++ writeU32Be (value.setWidth 32) =
      writeU64Be value := by
  have hupper (k : ℕ) (hk : k ≤ 24) :
      (((value >>> 32).setWidth 32 : BitVec 32) >>> k).setWidth 8 =
        (value >>> (32+k)).setWidth 8 := by
    refine BitVec.eq_of_getLsbD_eq fun i hi => ?_
    simp [hi,show k + i < 32 by omega,Nat.add_assoc]
  have hlower (k : ℕ) (hk : k ≤ 24) :
      ((value.setWidth 32 : BitVec 32) >>> k).setWidth 8 = (value >>> k).setWidth 8 := by
    refine BitVec.eq_of_getLsbD_eq fun i hi => ?_
    simp [hi,show k + i < 32 by omega]
  have hu := hupper 0 (by decide)
  have hl := hlower 0 (by decide)
  rw [BitVec.ushiftRight_zero] at hu hl
  rw [writeU32Be,writeU32Be,hupper 24 le_rfl,hupper 16 (by decide),hupper 8 (by decide),hu,
    hlower 24 le_rfl,hlower 16 (by decide),hlower 8 (by decide),hl]
  rfl

/-- Two byte strings that agree on the first two bytes spell the same word. -/
theorem readU16Be_congr {s t : List Byte} (h0 : byteAt s 0 = byteAt t 0)
    (h1 : byteAt s 1 = byteAt t 1) : readU16Be s = readU16Be t := by
  rw [readU16Be,readU16Be,h0,h1]

end BigEndian

end FlightSoftware
