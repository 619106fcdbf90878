import Mathlib

/-!
# Copying between arrays

`memcpy` on lists: a block copied out of an array and a block copied over a part
of it.
-/

namespace FlightSoftware.Memory

variable {α : Type*}

/-- `n` cells copied out from `offset`. -/
def copyOut (cells : List α) (offset n : ℕ) : List α := (cells.drop offset).take n

/-- `src` copied over the cells from `offset`. -/
def copyIn (cells : List α) (offset : ℕ) (src : List α) : List α :=
  cells.take offset ++ src ++ cells.drop (offset + src.length)

theorem copyIn_length {cells src : List α} {offset : ℕ} (h : offset + src.length ≤ cells.length) :
    (copyIn cells offset src).length = cells.length := by
  simp only [copyIn,List.length_append,List.length_take,List.length_drop]
  omega

theorem copyIn_getElem? {cells src : List α} {offset : ℕ} (h : offset + src.length ≤ cells.length)
    (i : ℕ) :
    (copyIn cells offset src)[i]? =
      if offset ≤ i ∧ i < offset + src.length then src[i-offset]? else cells[i]? := by
  have htake : (cells.take offset).length = offset := by
    rw [List.length_take]
    omega
  rw [copyIn,List.append_assoc]
  by_cases h1 : i < offset
  · rw [List.getElem?_append_left (by omega),List.getElem?_take_of_lt h1,if_neg (by omega)]
  rw [List.getElem?_append_right (by omega),htake]
  by_cases h2 : i < offset + src.length
  · rw [List.getElem?_append_left (by omega),if_pos (by omega)]
  rw [List.getElem?_append_right (by omega),List.getElem?_drop,if_neg (by omega)]
  congr 1
  omega

/-- What was copied to the front is read back from there. -/
theorem take_copyIn (cells src : List α) : (copyIn cells 0 src).take src.length = src := by
  rw [copyIn,List.take_zero,List.nil_append,List.take_left]

end FlightSoftware.Memory
