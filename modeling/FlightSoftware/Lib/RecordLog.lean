import Mathlib

/-!
# Logs of self-delimiting records

A `Reader` finds the size of the record at the front of a stream. Following the
sizes from a position of a log visits further positions. On a concatenation of
records these are the boundaries, and no visited position lies inside the record
found at another one.
-/

namespace FlightSoftware.RecordLog

variable {α : Type*}

/-- The size of the record at the front of a stream. What follows a record does not change it. -/
structure Reader (α : Type*) where
  size : List α → Option ℕ
  positive : ∀ s n,size s = some n → 0 < n
  stable : ∀ s n t,size s = some n → size (s ++ t) = some n

/-- A stream that is one record and nothing else. -/
def Reader.Whole (R : Reader α) (record : List α) : Prop := R.size record = some record.length

/-- Following the sizes from one position of a log leads to another. -/
inductive Walk (R : Reader α) (log : List α) : ℕ → ℕ → Prop
  | refl (p : ℕ) : Walk R log p p
  | step {p q n : ℕ} : R.size (log.drop p) = some n → Walk R log (p+n) q → Walk R log p q

variable {R : Reader α} {log : List α}

theorem Walk.le {p q : ℕ} (h : Walk R log p q) : p ≤ q := by
  induction h with
  | refl p => exact le_rfl
  | step _ _ ih => omega

/-- Of two positions on one walk, the later one lies past the record at the earlier one. -/
theorem Walk.past {a p q : ℕ} (hp : Walk R log a p) (hq : Walk R log a q) (h : p < q) :
    ∃ n,R.size (log.drop p) = some n ∧ p + n ≤ q := by
  induction hp with
  | refl a =>
    cases hq with
    | refl => omega
    | step hn hrest => exact ⟨_,hn,hrest.le⟩
  | step hn hrest ih =>
    cases hq with
    | refl =>
      have := hrest.le
      have := R.positive _ _ hn
      omega
    | step hm hother =>
      obtain rfl := Option.some.inj (hn.symm.trans hm)
      exact ih hother h

/-- Over whole records a walk leads from boundary to boundary. -/
theorem walk_records {records : List (List α)} {rest : List α} {p : ℕ}
    (hall : ∀ r ∈ records,R.Whole r) (hlog : log.drop p = records.flatten ++ rest) :
    Walk R log p (p + records.flatten.length) := by
  induction records generalizing p with
  | nil => exact .refl p
  | cons r records ih =>
    have hr : R.size (log.drop p) = some r.length := by
      rw [hlog,List.flatten_cons,List.append_assoc]
      exact R.stable _ _ _ (hall r List.mem_cons_self)
    have hdrop : log.drop (p + r.length) = records.flatten ++ rest := by
      rw [← List.drop_drop,hlog,List.flatten_cons,List.append_assoc,List.drop_left]
    refine .step hr ?_
    rw [List.flatten_cons,List.length_append,← Nat.add_assoc]
    exact ih (fun r' hr' => hall r' (List.mem_cons_of_mem r hr')) hdrop

end FlightSoftware.RecordLog
