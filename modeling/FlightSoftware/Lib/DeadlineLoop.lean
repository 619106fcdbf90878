import Mathlib

/-!
# Loops that receive until a deadline

A pass of such a loop reads the clock, receives a message and goes on or returns;
it may also return before it receives. What the clock and the senders do is a
sequence of inputs, one for each pass. A message is received late when the clock
said, in the same pass, that the deadline is over.
-/

namespace FlightSoftware.DeadlineLoop

variable {σ ι ρ : Type*}

/-- What a pass comes to: `early` returns before anything is received. -/
inductive Pass (σ ρ : Type*) where
  | early (result : ρ)
  | returns (result : ρ)
  | again (state : σ)

def Pass.next : Pass σ ρ → Option σ
  | .again state => some state
  | _ => none

def Pass.receives : Pass σ ρ → Bool
  | .early _ => false
  | _ => true

theorem Pass.next_again (state : σ) : (Pass.again state : Pass σ ρ).next ≠ none :=
  Option.some_ne_none state

/-- The state at the beginning of a pass, unless the loop has returned. -/
def running (body : σ → ι → Pass σ ρ) (s : σ) (inputs : ℕ → ι) : ℕ → Option σ
  | 0 => some s
  | k+1 => (running body s inputs k).bind fun t => (body t (inputs k)).next

/-- A message is received late in this pass. -/
def Late (body : σ → ι → Pass σ ρ) (expired : ι → Prop) (s : σ) (inputs : ℕ → ι) (k : ℕ) : Prop :=
  ∃ t,running body s inputs k = some t ∧ expired (inputs k) ∧
    (body t (inputs k)).receives = true

def AtMostOneLate (body : σ → ι → Pass σ ρ) (expired : ι → Prop) (s : σ) (inputs : ℕ → ι) : Prop :=
  ∀ j k,Late body expired s inputs j → Late body expired s inputs k → j = k

section

variable {body : σ → ι → Pass σ ρ} {expired : ι → Prop} {s : σ} {inputs : ℕ → ι}

theorem running_succ {k : ℕ} {t : σ} (h : running body s inputs k = some t) :
    running body s inputs (k+1) = (body t (inputs k)).next := by
  rw [running,h]
  rfl

/-- A loop that has returned does not run again. -/
theorem running_none {j k : ℕ} (hle : j ≤ k) (h : running body s inputs j = none) :
    running body s inputs k = none := by
  induction k,hle using Nat.le_induction with
  | base => exact h
  | succ k _ ih => rw [running,ih]; rfl

/-- A loop in which every pass goes on runs for ever. -/
theorem running_again (h : ∀ k,body s (inputs k) = .again s) (k : ℕ) :
    running body s inputs k = some s := by
  induction k with
  | zero => rfl
  | succ k ih => rw [running_succ ih,h k]; rfl

/-- A loop that always receives, with a deadline that stays over, receives at most once after it
if and only if what it receives then makes it return. -/
theorem atMostOneLate_iff (hreceives : ∀ t i,(body t i).receives = true)
    (hexpired : ∀ k,expired (inputs k) → expired (inputs (k+1))) :
    AtMostOneLate body expired s inputs ↔ ∀ k t,running body s inputs k = some t →
      expired (inputs k) → (body t (inputs k)).next = none := by
  constructor
  · intro hone k t hrunning hover
    by_contra hagain
    obtain ⟨t',hnext⟩ := Option.ne_none_iff_exists'.mp hagain
    have hrunning' : running body s inputs (k+1) = some t' := (running_succ hrunning).trans hnext
    have := hone k (k+1) ⟨t,hrunning,hover,hreceives _ _⟩
      ⟨t',hrunning',hexpired k hover,hreceives _ _⟩
    omega
  · intro hall
    -- nothing runs after the first late pass
    have hlast : ∀ j k,Late body expired s inputs j → Late body expired s inputs k → k ≤ j := by
      rintro j k ⟨t,hj,hover,-⟩ ⟨t',hk,-⟩
      by_contra hlater
      have hnone := (running_succ hj).trans (hall j t hj hover)
      rw [running_none (by omega) hnone] at hk
      cases hk
    exact fun j k hj hk => le_antisymm (hlast k j hk hj) (hlast j k hj hk)

/-- A loop that looks at the clock before it receives is never late. -/
theorem never_late (hguard : ∀ t i,expired i → (body t i).receives = false) (k : ℕ) :
    ¬ Late body expired s inputs k := by
  rintro ⟨t,-,hover,hreceives⟩
  rw [hguard t _ hover] at hreceives
  cases hreceives

end

end FlightSoftware.DeadlineLoop
