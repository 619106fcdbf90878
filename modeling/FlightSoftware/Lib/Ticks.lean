import Mathlib

/-!
# A wide count from a narrow counter

A counter of `w` bits wraps. A count of `v` bits that grows by the difference of two readings,
taken modulo `2 ^ w`, follows the true number of ticks across any number of wraps, as long as
fewer than `2 ^ w` ticks pass from one reading to the next.
-/

namespace FlightSoftware.Ticks

variable {w v : ℕ}

/-- The count, grown by the difference of the reading `now` to the one before. -/
def advance (count : BitVec v) (previous now : BitVec w) : BitVec v :=
  count + (now-previous).setWidth v

/-- Two readings tell the ticks between them, when these are few enough. -/
theorem reading_sub (m n : ℕ) (hmn : m ≤ n) :
    BitVec.ofNat w n-BitVec.ofNat w m = BitVec.ofNat w (n-m) := by
  obtain ⟨k,rfl⟩ := Nat.exists_eq_add_of_le hmn
  rw [Nat.add_sub_cancel_left,BitVec.ofNat_add,BitVec.add_comm,BitVec.add_sub_cancel]

theorem setWidth_ofNat (k : ℕ) (hk : k < 2^w) :
    (BitVec.ofNat w k).setWidth v = BitVec.ofNat v k := by
  apply BitVec.eq_of_toNat_eq
  rw [BitVec.toNat_setWidth,BitVec.toNat_ofNat,BitVec.toNat_ofNat,Nat.mod_eq_of_lt hk]

theorem advance_ofNat (m n : ℕ) (hmn : m ≤ n) (hgap : n-m < 2^w) :
    advance (BitVec.ofNat v m) (BitVec.ofNat w m) (BitVec.ofNat w n) = BitVec.ofNat v n := by
  rw [advance,reading_sub m n hmn,setWidth_ofNat _ hgap,← BitVec.ofNat_add]
  congr 1
  omega

end FlightSoftware.Ticks
