import FlightSoftware.Lib.Ring

/-!
# The last writes to a circular array

An array whose cells are written in turn, the oldest one next, keeps the last
writes. Counting back from the next cell finds the newest write first.
-/

namespace FlightSoftware.Recent

variable {α : Type*} {slots xs : List α} {next : ℕ} {empty : α}

/-- The index of the cell that was written `i` writes before the newest one. -/
def back (size next i : ℕ) : ℕ := (next + size - 1 - i) % size

/-- The cells hold the last of the writes `xs`; those not yet written are `empty`. -/
structure Keeps (slots : List α) (next : ℕ) (empty : α) (xs : List α) : Prop where
  inside : next < slots.length
  newest : ∀ i < slots.length,
    slots[back slots.length next i]? = some (xs.reverse.getD i empty)

theorem back_lt {size : ℕ} (next i : ℕ) (h : 0 < size) : back size next i < size := Nat.mod_lt _ h

theorem back_zero {size next : ℕ} (h : next < size) : back size ((next+1) % size) 0 = next := by
  rw [back,Ring.mod_of_lt_two_mul (show next + 1 < 2*size by omega)]
  split
  · rw [Ring.mod_of_lt_two_mul (by omega)]
    split <;> omega
  · rw [Ring.mod_of_lt_two_mul (by omega)]
    split <;> omega

theorem back_succ {size next i : ℕ} (h : next < size) (hi : i + 1 < size) :
    back size ((next+1) % size) (i+1) = back size next i ∧ back size next i ≠ next := by
  rw [back,back,Ring.mod_of_lt_two_mul (show next + 1 < 2*size by omega),
    Ring.mod_of_lt_two_mul (show next + size - 1 - i < 2*size by omega)]
  split
  · rw [Ring.mod_of_lt_two_mul (by omega)]
    constructor <;> split <;> (try split) <;> omega
  · rw [Ring.mod_of_lt_two_mul (by omega)]
    constructor <;> split <;> (try split) <;> omega

theorem keeps_replicate {size : ℕ} (h : 0 < size) (empty : α) :
    Keeps (List.replicate size empty) 0 empty [] := by
  refine ⟨by simpa using h,fun i _ => ?_⟩
  rw [List.length_replicate,List.getElem?_replicate_of_lt (back_lt 0 i h)]
  rfl

/-- Writing the next cell adds one write. -/
theorem Keeps.put (h : Keeps slots next empty xs) (x : α) :
    Keeps (slots.set next x) ((next+1) % slots.length) empty (xs ++ [x]) := by
  have hlt := h.inside
  refine ⟨by rw [List.length_set]; exact Nat.mod_lt _ (by omega),fun i hi => ?_⟩
  rw [List.length_set] at hi ⊢
  rw [List.reverse_append,List.reverse_singleton,List.singleton_append]
  cases i with
  | zero => rw [back_zero hlt,List.getElem?_set_self hlt,List.getD_cons_zero]
  | succ i =>
    obtain ⟨hback,hne⟩ := back_succ hlt hi
    rw [hback,List.getElem?_set_ne hne.symm,List.getD_cons_succ]
    exact h.newest i (by omega)

theorem findSome_range_eq_find (n : ℕ) (f : ℕ → α) (p : α → Bool) :
    ((List.range n).findSome? fun i => if p (f i) then some (f i) else none) =
      ((List.range n).map f).find? p := by
  induction List.range n with
  | nil => rfl
  | cons i is ih =>
    rw [List.findSome?_cons,List.map_cons,List.find?_cons,ih]
    cases p (f i) <;> rfl

/-- The newest write among those kept that satisfies `p`, searched from the newest cell to the
oldest. -/
theorem Keeps.search (h : Keeps slots next empty xs) {p : α → Bool} (hp : p empty = false) :
    ((List.range slots.length).findSome? fun i =>
      if p (slots.getD (back slots.length next i) empty) then
        some (slots.getD (back slots.length next i) empty) else none) =
      (xs.reverse.take slots.length).find? p := by
  rw [findSome_range_eq_find slots.length (fun i => slots.getD (back slots.length next i) empty) p]
  have hmap : (List.range slots.length).map
      (fun i => slots.getD (back slots.length next i) empty) =
        xs.reverse.take slots.length ++ List.replicate (slots.length - xs.length) empty := by
    apply List.ext_getElem
    · simp
      omega
    intro i hi _
    rw [List.length_map,List.length_range] at hi
    rw [List.getElem_map,List.getElem_range,List.getD_eq_getElem?_getD,h.newest i hi,
      Option.getD_some,List.getD_eq_getElem?_getD]
    by_cases hx : i < xs.length
    · rw [List.getElem_append_left (by simp; omega),List.getElem_take,
        List.getElem?_eq_getElem (by simpa using hx),Option.getD_some]
    · rw [List.getElem_append_right (by simp; omega),List.getElem_replicate,
        List.getElem?_eq_none (by simp; omega),Option.getD_none]
  rw [hmap,List.find?_append]
  have hnone : (List.replicate (slots.length - xs.length) empty).find? p = none := by
    rw [List.find?_eq_none]
    intro x hx
    rw [List.eq_of_mem_replicate hx,hp]
    decide
  rw [hnone,Option.or_none]

end FlightSoftware.Recent
