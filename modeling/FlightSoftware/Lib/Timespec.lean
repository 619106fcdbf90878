import Mathlib

/-!
# Clock readings

A reading of a clock in seconds and nanoseconds, as `clock_gettime` returns it.
Programs compare the time between two readings, computed as a `double`, with a
whole number of seconds; a `double` near such a number still tells nanoseconds
apart, so the comparison is one of whole nanoseconds.
-/

namespace FlightSoftware

structure Timespec where
  sec : ℤ
  nsec : ℕ
  nsec_lt : nsec < 1000000000
  deriving DecidableEq

namespace Timespec

def ofSeconds (n : ℤ) : Timespec := ⟨n,0,by decide⟩

def nanos (t : Timespec) : ℤ := t.sec * 1000000000 + t.nsec

/-- The time from `s` to `t` in nanoseconds. -/
def since (t s : Timespec) : ℤ := (t.sec - s.sec) * 1000000000 + (t.nsec - s.nsec)

/-- `n` seconds in nanoseconds. -/
def seconds (n : ℤ) : ℤ := n * 1000000000

theorem since_eq (t s : Timespec) : t.since s = t.nanos - s.nanos := by
  rw [since,nanos,nanos]
  ring

@[simp] theorem since_self (t : Timespec) : t.since t = 0 := by
  rw [since_eq,sub_self]

end Timespec

end FlightSoftware
