import FlightSoftware.Lib.BigEndian

/-!
# Decimal numbers in text

Numbers as `printf` writes them and as `scanf` reads them: the digits of a number
from the most significant one on, an input item behind white space, and what is
read of a number whose last digits are missing.
-/

namespace FlightSoftware.Decimal

def digit (d : ℕ) : Byte := BitVec.ofNat 8 (48 + d)

def isDigit (b : Byte) : Bool := 48 ≤ b.toNat && b.toNat ≤ 57

/-- White space in the C locale. -/
def isSpace (b : Byte) : Bool := b == 32#8 || 9 ≤ b.toNat && b.toNat ≤ 13

/-- The decimal digits of a number. -/
def decimal (n : ℕ) : List Byte :=
  (Nat.toDigits 10 n).map fun c => BitVec.ofNat 8 c.toNat

/-- A negative number has its sign in front. -/
def signedDecimal (z : ℤ) : List Byte :=
  if z < 0 then 45#8 :: decimal z.natAbs else decimal z.natAbs

/-- The number that a string of digits stands for. -/
def value (s : List Byte) : ℕ := s.foldl (fun v b => 10*v + (b.toNat - 48)) 0

/-- Whether a sign at the front is a minus, and what is behind it. -/
def scanSign : List Byte → Bool × List Byte
  | 45#8 :: rest => (true,rest)
  | 43#8 :: rest => (false,rest)
  | s => (false,s)

/-- A decimal input item of `scanf`: white space, a sign and at least one digit. The number and
what is behind it. -/
def scan (s : List Byte) : Option (ℤ × List Byte) :=
  let (negative,rest) := scanSign (s.dropWhile isSpace)
  let digits := rest.takeWhile isDigit
  if digits = [] then none
  else some (if negative then -(value digits : ℤ) else value digits,rest.dropWhile isDigit)

/-! ### The digits of a number -/

theorem digit_toNat {d : ℕ} (h : d < 10) : (digit d).toNat = 48 + d := by
  rw [digit,BitVec.toNat_ofNat]
  omega

theorem isDigit_digit {d : ℕ} (h : d < 10) : isDigit (digit d) = true := by
  simp [isDigit,digit_toNat h]
  omega

theorem decimal_of_lt {n : ℕ} (h : n < 10) : decimal n = [digit n] := by
  rw [decimal,Nat.toDigits_of_lt_base h,List.map_singleton,Nat.toNat_digitChar_of_lt_ten h,digit]

/-- The last digit is the remainder. -/
theorem decimal_of_ge {n : ℕ} (h : 10 ≤ n) : decimal n = decimal (n/10) ++ [digit (n%10)] := by
  have hmod : n % 10 < 10 := Nat.mod_lt _ (by decide)
  have hdigits := Nat.toDigits_append_toDigits (b := 10) (n := n/10) (d := n%10) (by decide)
    (by omega) hmod
  rw [Nat.div_add_mod] at hdigits
  rw [← decimal_of_lt hmod,decimal,decimal,decimal,← List.map_append,hdigits]

theorem decimal_ne_nil (n : ℕ) : decimal n ≠ [] := by
  by_cases h : n < 10
  · simp [decimal_of_lt h]
  · simp [decimal_of_ge (Nat.le_of_not_lt h)]

theorem decimal_length_pos (n : ℕ) : 0 < (decimal n).length :=
  List.length_pos_of_ne_nil (decimal_ne_nil n)

theorem decimal_length_of_ge {n : ℕ} (h : 10 ≤ n) :
    (decimal n).length = (decimal (n/10)).length + 1 := by
  rw [decimal_of_ge h,List.length_append,List.length_singleton]

theorem isDigit_of_mem_decimal {n : ℕ} {b : Byte} (h : b ∈ decimal n) : isDigit b = true := by
  induction n using Nat.strong_induction_on with
  | _ n ih =>
    by_cases hn : n < 10
    · rw [decimal_of_lt hn,List.mem_singleton] at h
      rw [h]
      exact isDigit_digit hn
    · rw [decimal_of_ge (Nat.le_of_not_lt hn),List.mem_append,List.mem_singleton] at h
      rcases h with h | h
      · exact ih (n/10) (by omega) h
      · rw [h]
        exact isDigit_digit (Nat.mod_lt _ (by decide))

theorem value_append_singleton (s : List Byte) (b : Byte) :
    value (s ++ [b]) = 10 * value s + (b.toNat - 48) := by
  rw [value,List.foldl_append]
  rfl

theorem value_decimal (n : ℕ) : value (decimal n) = n := by
  induction n using Nat.strong_induction_on with
  | _ n ih =>
    by_cases hn : n < 10
    · rw [decimal_of_lt hn]
      show 10 * 0 + ((digit n).toNat - 48) = n
      rw [digit_toNat hn]
      omega
    · rw [decimal_of_ge (Nat.le_of_not_lt hn),value_append_singleton,ih (n/10) (by omega),
        digit_toNat (Nat.mod_lt _ (by decide))]
      omega

/-- Without its last digits a number is divided by a power of ten. -/
theorem value_take_decimal {n j : ℕ} (h : j < (decimal n).length) :
    value ((decimal n).take ((decimal n).length - j)) = n / 10^j := by
  induction j generalizing n with
  | zero => simp [value_decimal]
  | succ j ih =>
    have hn : 10 ≤ n := by
      by_contra hn
      rw [decimal_of_lt (Nat.lt_of_not_le hn),List.length_singleton] at h
      omega
    rw [decimal_length_of_ge hn] at h ⊢
    rw [decimal_of_ge hn,List.take_append_of_le_length (by omega),Nat.add_sub_add_right,
      ih (by omega),pow_succ',Nat.div_div_eq_div_mul]

/-- A number with more than `j` digits is at least `10^j`, except for zero. -/
theorem pow_le_of_lt_length {n j : ℕ} (hn : 0 < n) (h : j < (decimal n).length) : 10^j ≤ n := by
  induction j generalizing n with
  | zero =>
    rw [pow_zero]
    exact hn
  | succ j ih =>
    have hten : 10 ≤ n := by
      by_contra hten
      rw [decimal_of_lt (Nat.lt_of_not_le hten),List.length_singleton] at h
      omega
    rw [decimal_length_of_ge hten] at h
    have hdiv := ih (n := n/10) (by omega) (by omega)
    rw [pow_succ]
    omega

theorem div_pow_pos {n j : ℕ} (hn : 0 < n) (h : j < (decimal n).length) : 0 < n / 10^j :=
  Nat.div_pos (pow_le_of_lt_length hn h) (by positivity)

theorem div_pow_eq_self_iff {n j : ℕ} : n / 10^j = n ↔ j = 0 ∨ n = 0 := by
  constructor
  · intro h
    by_contra hne
    have hj : 1 < 10^j := Nat.one_lt_pow (by omega) (by decide)
    have hlt := Nat.div_lt_self (show 0 < n by omega) hj
    omega
  · rintro (rfl | rfl)
    · simp
    · simp

/-! ### Reading what was written -/

theorem isSpace_of_isDigit {b : Byte} (h : isDigit b = true) : isSpace b = false := by
  rw [isDigit,Bool.and_eq_true,decide_eq_true_eq,decide_eq_true_eq] at h
  have hb : b ≠ 32#8 := by
    rintro rfl
    simp at h
  simp [isSpace,hb]
  omega

theorem scanSign_of_isDigit {b : Byte} {s : List Byte} (h : isDigit b = true) :
    scanSign (b :: s) = (false,b :: s) := by
  unfold scanSign
  split
  · next heq => cases heq; simp [isDigit] at h
  · next heq => cases heq; simp [isDigit] at h
  · rfl

/-- A string of digits, with white space in front, is read up to the first other character. -/
theorem scan_digits {space s rest : List Byte} (hspace : ∀ b ∈ space,isSpace b = true)
    (hs : s ≠ []) (hdigit : ∀ b ∈ s,isDigit b = true)
    (hrest : ∀ b ∈ rest.head?,isDigit b = false) :
    scan (space ++ s ++ rest) = some ((value s : ℤ),rest) := by
  obtain ⟨b,more,rfl⟩ := List.exists_cons_of_ne_nil hs
  have hb := hdigit b List.mem_cons_self
  have hdrop : (space ++ (b :: more) ++ rest).dropWhile isSpace = b :: more ++ rest := by
    rw [List.append_assoc,List.dropWhile_append_of_pos hspace,List.cons_append,
      List.dropWhile_cons_of_neg (by simp [isSpace_of_isDigit hb])]
  have hend : rest.takeWhile isDigit = [] ∧ rest.dropWhile isDigit = rest := by
    cases rest with
    | nil => exact ⟨rfl,rfl⟩
    | cons c rest =>
      have hc := hrest c rfl
      exact ⟨List.takeWhile_cons_of_neg (by simp [hc]),List.dropWhile_cons_of_neg (by simp [hc])⟩
  rw [scan,hdrop,List.cons_append,scanSign_of_isDigit hb,← List.cons_append]
  dsimp only
  rw [List.takeWhile_append_of_pos hdigit,List.dropWhile_append_of_pos hdigit,hend.1,hend.2,
    List.append_nil,if_neg hs]
  rfl

/-- Nothing is read where only white space is left. -/
theorem scan_space {space : List Byte} (hspace : ∀ b ∈ space,isSpace b = true) :
    scan space = none := by
  have hdrop : space.dropWhile isSpace = [] := List.dropWhile_eq_nil_iff.mpr hspace
  rw [scan,hdrop]
  rfl

/-- A number that is cut off behind its first `k` digits. -/
theorem scan_take_decimal {space : List Byte} (hspace : ∀ b ∈ space,isSpace b = true) {n j : ℕ}
    (h : j < (decimal n).length) :
    scan (space ++ (decimal n).take ((decimal n).length - j)) = some (((n / 10^j : ℕ) : ℤ),[]) := by
  have hne : (decimal n).take ((decimal n).length - j) ≠ [] := by
    rw [← List.length_pos_iff,List.length_take]
    omega
  have hrest : ∀ b ∈ ([] : List Byte).head?,isDigit b = false := by simp
  have hscan := scan_digits hspace hne
    (fun b hb => isDigit_of_mem_decimal (List.mem_of_mem_take hb)) hrest
  rwa [List.append_nil,value_take_decimal h] at hscan

theorem scan_decimal {space rest : List Byte} (hspace : ∀ b ∈ space,isSpace b = true) (n : ℕ)
    (hrest : ∀ b ∈ rest.head?,isDigit b = false) :
    scan (space ++ decimal n ++ rest) = some ((n : ℤ),rest) := by
  have hscan := scan_digits hspace (decimal_ne_nil n) (fun b => isDigit_of_mem_decimal) hrest
  rwa [value_decimal] at hscan

end FlightSoftware.Decimal
