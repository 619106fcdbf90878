import FlightSoftware.Lib.CFloat

/-!
# Rounding to a binary format

The values of a binary format have a number of significant bits, and a last place that is
bounded from below. Rounding to the nearest of them is monotone, and errs by half a last place at
most.
-/

namespace FlightSoftware.Rounding

/-! ### To integers -/

/-- The nearest integer, and the even one of two. -/
def roundEven (x : ℚ) : ℤ :=
  if x-⌊x⌋ < 1/2 ∨ x-⌊x⌋ = 1/2 ∧ ⌊x⌋ % 2 = 0 then ⌊x⌋ else ⌊x⌋+1

theorem floor_le_roundEven (x : ℚ) : ⌊x⌋ ≤ roundEven x := by
  rw [roundEven]
  split_ifs
  · exact le_rfl
  · exact Int.le_add_one le_rfl

theorem roundEven_le_floor_add_one (x : ℚ) : roundEven x ≤ ⌊x⌋+1 := by
  rw [roundEven]
  split_ifs
  · exact Int.le_add_one le_rfl
  · exact le_rfl

theorem roundEven_intCast (n : ℤ) : roundEven n = n := by
  rw [roundEven,Int.floor_intCast,sub_self,if_pos (.inl (by norm_num))]

theorem roundEven_mono : Monotone roundEven := by
  intro x y h
  obtain hfloor | hfloor := (Int.floor_mono h).lt_or_eq
  · calc roundEven x ≤ ⌊x⌋+1 := roundEven_le_floor_add_one x
      _ ≤ ⌊y⌋ := hfloor
      _ ≤ roundEven y := floor_le_roundEven y
  · by_cases hy : y-⌊y⌋ < 1/2 ∨ y-⌊y⌋ = 1/2 ∧ ⌊y⌋ % 2 = 0
    · have hx : x-⌊x⌋ < 1/2 ∨ x-⌊x⌋ = 1/2 ∧ ⌊x⌋ % 2 = 0 := by
        rw [hfloor]
        obtain hlt | ⟨heq,heven⟩ := hy
        · exact .inl (by linarith)
        · obtain hlt | hsame := h.lt_or_eq
          · exact .inl (by linarith)
          · exact .inr ⟨hsame ▸ heq,heven⟩
      rw [roundEven,if_pos hx,hfloor]
      exact floor_le_roundEven y
    · have hlast : roundEven y = ⌊y⌋+1 := if_neg hy
      rw [hlast,← hfloor]
      exact roundEven_le_floor_add_one x

theorem abs_roundEven_sub_le (x : ℚ) : |roundEven x-x| ≤ 1/2 := by
  have hle := Int.floor_le x
  have hlt := Int.lt_floor_add_one x
  rw [abs_le,roundEven]
  split_ifs with hhalf
  · have hdown : x-⌊x⌋ ≤ 1/2 := hhalf.elim le_of_lt fun h => h.1.le
    constructor <;> linarith
  · have hup : 1/2 ≤ x-⌊x⌋ := not_lt.mp fun h => hhalf (.inl h)
    push_cast
    constructor <;> linarith

/-! ### To significant bits -/

section

variable (bits : ℕ) (least : ℤ)

/-- The exponent of the last place of a value as large as `x`. -/
def lastPlace (x : ℚ) : ℤ := max (Int.log 2 |x|+1-bits) least

def roundTo (x : ℚ) : ℚ := roundEven (x/2^lastPlace bits least x)*2^lastPlace bits least x

variable {bits least}

/-- A multiple of a larger power of two is a multiple of the smaller one. -/
theorem exists_multiple (n : ℤ) {k e : ℤ} (h : e ≤ k) : ∃ m : ℤ,(n : ℚ)*2^k/2^e = m := by
  refine ⟨n*2^(k-e).toNat,?_⟩
  have hpow : (2 : ℚ)^k/2^e = 2^(k-e).toNat := by
    rw [← zpow_sub₀ two_ne_zero,← zpow_natCast,Int.toNat_of_nonneg (by omega)]
  push_cast
  rw [mul_div_assoc,hpow]

theorem roundTo_le_multiple {x : ℚ} (n : ℤ) {k : ℤ} (hk : lastPlace bits least x ≤ k)
    (h : x ≤ n*2^k) : roundTo bits least x ≤ n*2^k := by
  obtain ⟨m,hm⟩ := exists_multiple n hk
  have hpos : (0 : ℚ) < 2^lastPlace bits least x := zpow_pos two_pos _
  have hround := roundEven_mono (div_le_div_of_nonneg_right h hpos.le)
  rw [hm,roundEven_intCast] at hround
  rw [roundTo,← le_div_iff₀ hpos,hm]
  exact_mod_cast hround

theorem multiple_le_roundTo {x : ℚ} (n : ℤ) {k : ℤ} (hk : lastPlace bits least x ≤ k)
    (h : n*2^k ≤ x) : n*2^k ≤ roundTo bits least x := by
  obtain ⟨m,hm⟩ := exists_multiple n hk
  have hpos : (0 : ℚ) < 2^lastPlace bits least x := zpow_pos two_pos _
  have hround := roundEven_mono (div_le_div_of_nonneg_right h hpos.le)
  rw [hm,roundEven_intCast] at hround
  rw [roundTo,← div_le_iff₀ hpos,hm]
  exact_mod_cast hround

theorem roundTo_nonpos {x : ℚ} (h : x ≤ 0) : roundTo bits least x ≤ 0 := by
  have hle : roundTo bits least x ≤ (0 : ℤ)*2^lastPlace bits least x :=
    roundTo_le_multiple 0 le_rfl (by simpa using h)
  simpa using hle

theorem roundTo_nonneg {x : ℚ} (h : 0 ≤ x) : 0 ≤ roundTo bits least x := by
  have hge : (0 : ℤ)*2^lastPlace bits least x ≤ roundTo bits least x :=
    multiple_le_roundTo 0 le_rfl (by simpa using h)
  simpa using hge

/-- A value whose last place is higher than that of another one has a power of two between. -/
theorem pow_of_lastPlace_lt (hbits : 0 < bits) {x y : ℚ}
    (h : lastPlace bits least x < lastPlace bits least y) :
    lastPlace bits least y ≤ Int.log 2 |y| ∧ |x| < 2^Int.log 2 |y| := by
  have hlog : Int.log 2 |x| < Int.log 2 |y| ∧ lastPlace bits least y ≤ Int.log 2 |y| := by
    rw [lastPlace,lastPlace] at h
    rw [lastPlace]
    omega
  refine ⟨hlog.2,(Int.lt_zpow_succ_log_self one_lt_two |x|).trans_le ?_⟩
  exact zpow_le_zpow_right₀ one_le_two hlog.1

theorem roundTo_mono (hbits : 0 < bits) : Monotone (roundTo bits least) := by
  intro x y h
  by_cases hx : x = 0
  · rw [hx] at h ⊢
    exact (roundTo_nonpos le_rfl).trans (roundTo_nonneg h)
  by_cases hy : y = 0
  · rw [hy] at h ⊢
    exact (roundTo_nonpos h).trans (roundTo_nonneg le_rfl)
  obtain hlt | heq | hgt := lt_trichotomy (lastPlace bits least x) (lastPlace bits least y)
  · -- The power of two is between them, as `y` is positive.
    obtain ⟨hplace,hpow⟩ := pow_of_lastPlace_lt hbits hlt
    have hlog := Int.zpow_log_le_self one_lt_two (abs_pos.mpr hy)
    have hpos : 0 < y := by
      by_contra hneg
      have := abs_le_abs_of_nonpos (not_lt.mp hneg) h
      exact absurd (hpow.trans_le hlog) (not_lt.mpr this)
    rw [abs_of_pos hpos] at hplace hpow hlog
    have hxle : x ≤ (1 : ℤ)*2^Int.log 2 y := by
      rw [Int.cast_one,one_mul]
      exact (le_abs_self x).trans hpow.le
    have hyge : (1 : ℤ)*2^Int.log 2 y ≤ y := by
      rw [Int.cast_one,one_mul]
      exact hlog
    exact (roundTo_le_multiple 1 (hlt.le.trans hplace) hxle).trans
      (multiple_le_roundTo 1 hplace hyge)
  · have hpos : (0 : ℚ) < 2^lastPlace bits least y := zpow_pos two_pos _
    have hround := roundEven_mono (div_le_div_of_nonneg_right h hpos.le)
    rw [roundTo,roundTo,heq]
    exact mul_le_mul_of_nonneg_right (by exact_mod_cast hround) hpos.le
  · -- The same with the negative power of two, as `x` is negative.
    obtain ⟨hplace,hpow⟩ := pow_of_lastPlace_lt hbits hgt
    have hlog := Int.zpow_log_le_self one_lt_two (abs_pos.mpr hx)
    have hneg : x < 0 := by
      by_contra hpos
      have := abs_le_abs_of_nonneg (not_lt.mp hpos) h
      exact absurd (hpow.trans_le hlog) (not_lt.mpr this)
    have hxle : x ≤ (-1 : ℤ)*2^Int.log 2 |x| := by
      rw [Int.cast_neg,Int.cast_one,neg_one_mul]
      rw [abs_of_neg hneg] at hlog ⊢
      exact le_neg_of_le_neg hlog
    have hyge : (-1 : ℤ)*2^Int.log 2 |x| ≤ y := by
      rw [Int.cast_neg,Int.cast_one,neg_one_mul]
      exact (neg_le_neg hpow.le).trans (neg_abs_le y)
    exact (roundTo_le_multiple (-1) hplace hxle).trans
      (multiple_le_roundTo (-1) (hgt.le.trans hplace) hyge)

/-- Relative to the value, with the least place for small ones. -/
theorem abs_roundTo_sub_le (x : ℚ) :
    |roundTo bits least x-x| ≤ |x|/2^bits+2^least/2 := by
  have hsplit : |roundTo bits least x-x| ≤ 2^lastPlace bits least x/2 := by
    have hpos : (0 : ℚ) < 2^lastPlace bits least x := zpow_pos two_pos _
    have hround := mul_le_mul_of_nonneg_right
      (abs_roundEven_sub_le (x/2^lastPlace bits least x)) hpos.le
    rw [← abs_of_pos hpos,← abs_mul,abs_of_pos hpos,sub_mul,div_mul_cancel₀ _ hpos.ne'] at hround
    rw [roundTo]
    linarith
  have hleast : (0 : ℚ) < 2^least := zpow_pos two_pos _
  have hbits : (0 : ℚ) < 2^bits := pow_pos two_pos _
  by_cases hx : x = 0
  · rw [hx,le_antisymm (roundTo_nonpos le_rfl) (roundTo_nonneg le_rfl),sub_zero,abs_zero,zero_div,
      zero_add]
    positivity
  · refine hsplit.trans ?_
    obtain hplace | hplace := max_choice (Int.log 2 |x|+1-bits) least
    · have hlog := Int.zpow_log_le_self one_lt_two (abs_pos.mpr hx)
      have hhalf : (2 : ℚ)^lastPlace bits least x/2 = 2^Int.log 2 |x|/2^bits := by
        rw [lastPlace,hplace,zpow_sub₀ two_ne_zero,zpow_add_one₀ two_ne_zero,zpow_natCast]
        ring
      rw [hhalf]
      have := div_le_div_of_nonneg_right hlog hbits.le
      push_cast at this
      linarith
    · rw [lastPlace,hplace]
      have := div_nonneg (abs_nonneg x) hbits.le
      linarith

end

/-! ### Accuracy -/

/-- A monotone rounding with a bound on its error. -/
structure Accurate (round : ℚ → ℚ) (e : ℚ) : Prop where
  mono : Monotone round
  near : ∀ x,|round x-x| ≤ e*(|x|+1)

namespace Accurate

variable {round : ℚ → ℚ} {e : ℚ}

theorem nonneg (h : Accurate round e) : 0 ≤ e := by
  have hzero := h.near 0
  rw [abs_zero,zero_add,mul_one] at hzero
  exact (abs_nonneg _).trans hzero

theorem near_of_le (h : Accurate round e) {x b : ℚ} (hx : |x| ≤ b) : |round x-x| ≤ e*(b+1) :=
  (h.near x).trans (mul_le_mul_of_nonneg_left (by linarith) h.nonneg)

end Accurate

theorem accurate_id : Accurate id 0 where
  mono := monotone_id
  near x := by rw [id,sub_self,abs_zero,zero_mul]

/-- To the nearest `float`, ties to even. -/
def roundBinary32 : ℚ → ℚ := roundTo 24 (-149)

theorem accurate_binary32 : Accurate roundBinary32 (1/2^24) where
  mono := roundTo_mono (by decide)
  near x := by
    have hnear : |roundBinary32 x-x| ≤ |x|/2^24+2^(-149 : ℤ)/2 := abs_roundTo_sub_le x
    have hleast : (2 : ℚ)^(-149 : ℤ)/2 ≤ 1/2^24 := by norm_num
    calc |roundBinary32 x-x| ≤ |x|/2^24+2^(-149 : ℤ)/2 := hnear
      _ ≤ |x|/2^24+1/2^24 := by linarith
      _ = 1/2^24*(|x|+1) := by ring

/-! ### Rounded operations -/

/-- On finite values the operations are the rounded ones, where none comes near an overflow. -/
structure Rounds (arith : FloatArith) (round : ℚ → ℚ) : Prop where
  add : ∀ a b,|a+b| ≤ 2^126 → arith.add (.finite a) (.finite b) = .finite (round (a+b))
  sub : ∀ a b,|a-b| ≤ 2^126 → arith.sub (.finite a) (.finite b) = .finite (round (a-b))
  mul : ∀ a b,|a*b| ≤ 2^126 → arith.mul (.finite a) (.finite b) = .finite (round (a*b))
  div : ∀ a b,b ≠ 0 → |a/b| ≤ 2^126 → arith.div (.finite a) (.finite b) = .finite (round (a/b))

theorem rounds_exact : Rounds .exact id where
  add _ _ _ := rfl
  sub _ _ _ := rfl
  mul _ _ _ := rfl
  div _ _ _ _ := rfl

/-- The rounded operations on finite values, with no overflow. -/
def rounded (round : ℚ → ℚ) : FloatArith where
  add := FloatArith.liftFinite fun a b => round (a+b)
  sub := FloatArith.liftFinite fun a b => round (a-b)
  mul := FloatArith.liftFinite fun a b => round (a*b)
  div := FloatArith.liftFinite fun a b => round (a/b)
  sqrtf := FloatArith.exact.sqrtf

theorem rounds_rounded (round : ℚ → ℚ) : Rounds (rounded round) round where
  add _ _ _ := rfl
  sub _ _ _ := rfl
  mul _ _ _ := rfl
  div _ _ _ _ := rfl

end FlightSoftware.Rounding
