import Mathlib

/-!
# Floating point values of C

The values of a C `float` with C's comparisons. A finite value is kept as the
rational it stands for, so both zeros are one value; infinities and NaN compare
as the standard says. The rounded operations depend on the target, and come as
a `FloatArith`.
-/

namespace FlightSoftware

/-- A finite value, an infinity or a NaN. -/
inductive CFloat where
  | finite (value : ℚ)
  | infinite (negative : Bool)
  | nan
  deriving DecidableEq

namespace CFloat

/-- The value `m / 2^e`, the form of every finite `float`. -/
def dyadic (m : ℤ) (e : ℕ) : CFloat := .finite (m / 2^e)

instance : Zero CFloat := ⟨.finite 0⟩
instance : One CFloat := ⟨.finite 1⟩

def isfinite : CFloat → Bool
  | .finite _ => true
  | _ => false

def isnan : CFloat → Bool
  | .nan => true
  | _ => false

/-- `a < b` in C: false as soon as one side is a NaN. -/
def lt : CFloat → CFloat → Bool
  | .finite a,.finite b => decide (a < b)
  | .finite _,.infinite negative => !negative
  | .infinite negative,.finite _ => negative
  | .infinite a,.infinite b => a && !b
  | _,_ => false

/-- `a <= b` in C. -/
def le : CFloat → CFloat → Bool
  | .finite a,.finite b => decide (a ≤ b)
  | .finite _,.infinite negative => !negative
  | .infinite negative,.finite _ => negative
  | .infinite a,.infinite b => a || !b
  | _,_ => false

/-- `a != b` in C: true as soon as one side is a NaN. -/
def ne : CFloat → CFloat → Bool
  | .nan,_ => true
  | _,.nan => true
  | a,b => decide (a ≠ b)

def neg : CFloat → CFloat
  | .finite a => .finite (-a)
  | .infinite negative => .infinite (!negative)
  | .nan => .nan

def fabsf : CFloat → CFloat
  | .finite a => .finite |a|
  | .infinite _ => .infinite false
  | .nan => .nan

theorem isfinite_iff {a : CFloat} : a.isfinite = true ↔ ∃ q,a = .finite q := by
  cases a <;> simp [isfinite]

/-- On finite values `<=` and `>` exclude each other and cover everything. -/
theorem le_iff_not_lt {a b : CFloat} (ha : a.isfinite = true) (hb : b.isfinite = true) :
    a.le b = true ↔ b.lt a = false := by
  obtain ⟨x,rfl⟩ := isfinite_iff.mp ha
  obtain ⟨y,rfl⟩ := isfinite_iff.mp hb
  simp [le,lt]

/-- A value at or below a lower threshold is at or below an upper one. -/
theorem le_of_le_of_lt {a b c : CFloat} (hab : a.le b = true) (hbc : b.lt c = true)
    (hb : b.isfinite = true) : a.le c = true := by
  obtain ⟨y,rfl⟩ := isfinite_iff.mp hb
  cases a with
  | nan => simp [le] at hab
  | infinite n =>
    cases c with
    | nan => simp [lt] at hbc
    | infinite m => simp_all [lt,le]
    | finite z => simp_all [lt,le]
  | finite x =>
    cases c with
    | nan => simp [lt] at hbc
    | infinite m => simp_all [lt,le]
    | finite z =>
      simp only [lt,le,decide_eq_true_eq] at hab hbc ⊢
      exact hab.trans hbc.le

/-! ### Representations -/

/-- The value kept in memory as `bits`: a sign, an eight-bit exponent and 23 bits of the
significand. -/
def ofBits (bits : BitVec 32) : CFloat :=
  let negative := bits.msb
  let exponent := (bits.extractLsb' 23 8).toNat
  let fraction := (bits.extractLsb' 0 23).toNat
  if exponent = 255 then
    if fraction = 0 then .infinite negative else .nan
  else
    -- subnormal numbers lack the leading bit and share the least exponent
    let significand := if exponent = 0 then fraction else 2^23 + fraction
    let magnitude : ℚ := significand * 2^(max exponent 1) / 2^150
    .finite (if negative then -magnitude else magnitude)

end CFloat

/-- The rounded operations of a target. -/
structure FloatArith where
  add : CFloat → CFloat → CFloat
  sub : CFloat → CFloat → CFloat
  mul : CFloat → CFloat → CFloat
  div : CFloat → CFloat → CFloat
  sqrtf : CFloat → CFloat

namespace FloatArith

/-- An operation on finite values, with everything else a NaN. -/
def liftFinite (f : ℚ → ℚ → ℚ) : CFloat → CFloat → CFloat
  | .finite a,.finite b => .finite (f a b)
  | _,_ => .nan

/-- Operations on finite values without rounding; the root is exact on perfect squares. -/
def exact : FloatArith where
  add := liftFinite (· + ·)
  sub := liftFinite (· - ·)
  mul := liftFinite (· * ·)
  div := liftFinite (· / ·)
  sqrtf
    | .finite a => .finite (Rat.sqrt a)
    | _ => .nan

end FloatArith

end FlightSoftware
