import Mathlib

/-!
# Greedy scanning of a stream

A `Judge` looks at the front of a stream and says whether to skip one item, to
take a block, or to wait for more. `scan` applies it to a whole stream from the
left. `next` is the incremental form: it works on the items that have arrived
and stops at the first block or when it has to wait. Because a decision other
than waiting never changes when more items arrive, feeding a stream item by item
with one `next` each and draining at the end finds exactly the blocks of `scan`.
-/

namespace FlightSoftware.StreamScan

variable {α : Type*}

inductive Verdict where
  | skip | wait | take (n : ℕ)
  deriving DecidableEq,Repr

/-- A decision at the front of a stream. -/
structure Judge (α : Type*) where
  verdict : List α → Verdict
  nil : verdict [] = .wait
  stable : ∀ s t,verdict s ≠ .wait → verdict (s ++ t) = verdict s
  bounded : ∀ s n,verdict s = .take n → 0 < n ∧ n ≤ s.length

/-- The blocks of a stream, found from the left. -/
def scan (J : Judge α) (s : List α) : List (List α) :=
  match _h : J.verdict s with
  | .wait => []
  | .skip => scan J s.tail
  | .take n => s.take n :: scan J (s.drop n)
termination_by s.length
decreasing_by
  · have hne : s ≠ [] := by
      rintro rfl
      rw [J.nil] at _h
      cases _h
    have := List.length_pos_iff.mpr hne
    rw [List.length_tail]
    omega
  · have := J.bounded s n _h
    rw [List.length_drop]
    omega

/-- What one incremental call returns: the block found, the number of items
skipped before it, and the items still held. -/
structure Found (α : Type*) where
  block : Option (List α)
  skipped : ℕ
  rest : List α

def next (J : Judge α) : List α → Found α
  | [] => ⟨none,0,[]⟩
  | a :: s =>
    match J.verdict (a :: s) with
    | .wait => ⟨none,0,a :: s⟩
    | .take n => ⟨some ((a :: s).take n),0,(a :: s).drop n⟩
    | .skip => ⟨(next J s).block,(next J s).skipped+1,(next J s).rest⟩

theorem scan_wait (J : Judge α) {s : List α} (h : J.verdict s = .wait) : scan J s = [] := by
  rw [scan]
  split <;> simp_all

theorem scan_skip (J : Judge α) {s : List α} (h : J.verdict s = .skip) :
    scan J s = scan J s.tail := by
  rw [scan]
  split <;> simp_all

theorem scan_take (J : Judge α) {s : List α} {n : ℕ} (h : J.verdict s = .take n) :
    scan J s = s.take n :: scan J (s.drop n) := by
  rw [scan]
  split <;> simp_all

/-- One call accounts for every item it was given. -/
theorem next_length (J : Judge α) (s : List α) :
    ((next J s).block.getD []).length + (next J s).skipped + (next J s).rest.length =
      s.length := by
  induction s with
  | nil => rfl
  | cons a s ih =>
    rw [next]
    cases h : J.verdict (a :: s) with
    | wait => simp
    | skip =>
      simp only [List.length_cons]
      omega
    | take n =>
      have := J.bounded _ _ h
      simp only [Option.getD_some,List.length_take,List.length_drop]
      omega

/-- A call that finds nothing leaves items it has to wait on. -/
theorem next_none (J : Judge α) {s : List α} (h : (next J s).block = none) :
    J.verdict (next J s).rest = .wait := by
  induction s with
  | nil => exact J.nil
  | cons a s ih =>
    rw [next] at h ⊢
    cases hv : J.verdict (a :: s) with
    | wait => exact hv
    | skip =>
      rw [hv] at h
      exact ih h
    | take n =>
      rw [hv] at h
      cases h

theorem next_some (J : Judge α) {s b : List α} (h : (next J s).block = some b) : 0 < b.length := by
  induction s with
  | nil => cases h
  | cons a s ih =>
    rw [next] at h
    cases hv : J.verdict (a :: s) with
    | wait =>
      rw [hv] at h
      cases h
    | skip =>
      rw [hv] at h
      exact ih h
    | take n =>
      rw [hv] at h
      have := J.bounded _ _ hv
      obtain rfl := Option.some.inj h
      rw [List.length_take]
      omega

/-- Whatever arrives later, a call finds the first block of the scan and leaves
the stream from which the scan goes on. -/
theorem scan_next (J : Judge α) (s t : List α) :
    scan J (s ++ t) = (next J s).block.toList ++ scan J ((next J s).rest ++ t) := by
  induction s with
  | nil => rfl
  | cons a s ih =>
    rw [next]
    cases hv : J.verdict (a :: s) with
    | wait => rfl
    | skip =>
      have hs : J.verdict ((a :: s) ++ t) = .skip := by
        rw [J.stable _ _ (by rw [hv]; exact Verdict.noConfusion),hv]
      rw [scan_skip J hs]
      exact ih
    | take n =>
      have hs : J.verdict ((a :: s) ++ t) = .take n := by
        rw [J.stable _ _ (by rw [hv]; exact Verdict.noConfusion),hv]
      have hn := (J.bounded _ _ hv).2
      rw [scan_take J hs,List.take_append_of_le_length hn,List.drop_append_of_le_length hn]
      rfl

end FlightSoftware.StreamScan
