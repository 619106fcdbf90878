import Mathlib

/-!
# Cutting a list into chunks

Consecutive chunks of `n` items, the last one possibly shorter.
-/

namespace FlightSoftware.Chunks

variable {α : Type*}

def chunks (n : ℕ) (l : List α) : List (List α) :=
  if 0 < n ∧ l ≠ [] then l.take n :: chunks n (l.drop n) else []
termination_by l.length
decreasing_by
  rename_i h
  have := List.length_pos_iff.mpr h.2
  rw [List.length_drop]
  omega

@[simp] theorem chunks_nil (n : ℕ) : chunks n ([] : List α) = [] := by
  rw [chunks,if_neg (by simp)]

theorem chunks_cons {n : ℕ} {l : List α} (hn : 0 < n) (hl : l ≠ []) :
    chunks n l = l.take n :: chunks n (l.drop n) := by
  rw [chunks,if_pos ⟨hn,hl⟩]

theorem chunks_of_length_le {n : ℕ} {l : List α} (hl : l ≠ []) (h : l.length ≤ n) :
    chunks n l = [l] := by
  have := List.length_pos_iff.mpr hl
  rw [chunks_cons (by omega) hl,List.take_of_length_le h,List.drop_eq_nil_of_le h,chunks_nil]

theorem flatten_chunks {n : ℕ} (hn : 0 < n) (l : List α) : (chunks n l).flatten = l := by
  induction l using chunks.induct n with
  | case1 l h ih => rw [chunks_cons hn h.2,List.flatten_cons,ih,List.take_append_drop]
  | case2 l h =>
    have hl : l = [] := by
      by_contra hl
      exact h ⟨hn,hl⟩
    rw [hl,chunks_nil,List.flatten_nil]

/-- Cutting commutes with appending at a chunk boundary. -/
theorem chunks_append {n : ℕ} {l : List α} (h : n ∣ l.length) (m : List α) :
    chunks n (l ++ m) = chunks n l ++ chunks n m := by
  induction l using chunks.induct n with
  | case1 l hl ih =>
    have hle : n ≤ l.length := Nat.le_of_dvd (List.length_pos_iff.mpr hl.2) h
    rw [chunks_cons hl.1 hl.2,chunks_cons hl.1 (by simp [hl.2]),
      List.take_append_of_le_length hle,List.drop_append_of_le_length hle,ih ?_,List.cons_append]
    rw [List.length_drop]
    exact Nat.dvd_sub h (dvd_refl n)
  | case2 l hl =>
    rcases Nat.eq_zero_or_pos n with rfl | hn
    · rw [zero_dvd_iff,List.length_eq_zero_iff] at h
      rw [h,chunks_nil,List.nil_append,List.nil_append]
    · have hl : l = [] := by
        by_contra hne
        exact hl ⟨hn,hne⟩
      rw [hl,chunks_nil,List.nil_append,List.nil_append]

/-- Every chunk but the last is full. -/
theorem length_of_mem_dropLast {n : ℕ} {l c : List α} (hc : c ∈ (chunks n l).dropLast) :
    c.length = n := by
  induction l using chunks.induct n with
  | case1 l hl ih =>
    rw [chunks_cons hl.1 hl.2] at hc
    rcases Nat.lt_or_ge n l.length with hlt | hge
    · have hne : l.drop n ≠ [] := by
        rw [Ne,List.drop_eq_nil_iff]
        omega
      rw [chunks_cons hl.1 hne,List.dropLast_cons_cons,← chunks_cons hl.1 hne,List.mem_cons] at hc
      rcases hc with rfl | hc
      · rw [List.length_take]
        omega
      · exact ih hc
    · rw [List.drop_eq_nil_of_le hge,chunks_nil] at hc
      cases hc
  | case2 l hl =>
    rw [chunks,if_neg hl] at hc
    cases hc

end FlightSoftware.Chunks
