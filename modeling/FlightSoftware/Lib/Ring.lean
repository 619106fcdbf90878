import FlightSoftware.Lib.Memory

/-!
# Ring buffers

Cells of a fixed number, of which `count` from `head` on are in use, around the
end of the array. Reading and writing are done with at most two copies, one on
each side of the wrap. On the contents, a read takes from the front and a write
appends at the back.
-/

namespace FlightSoftware.Ring
open Memory

variable {α : Type*}

/-- The `count` cells read circularly from `head`. -/
def contents (cells : List α) (head count : ℕ) : List α := (cells.rotate head).take count

/-- The cells before the wrap, of `n` from `offset`. -/
def beforeWrap (size offset n : ℕ) : ℕ := if size - offset > n then n else size - offset

/-- `n` cells read from `head`, in two copies. -/
def read (cells : List α) (head n : ℕ) : List α :=
  copyOut cells head (beforeWrap cells.length head n) ++
    copyOut cells 0 (n - beforeWrap cells.length head n)

/-- `src` written from `tail`, in two copies. -/
def write (cells : List α) (tail : ℕ) (src : List α) : List α :=
  copyIn (copyIn cells tail (src.take (beforeWrap cells.length tail src.length))) 0
    (src.drop (beforeWrap cells.length tail src.length))

theorem beforeWrap_le (size offset n : ℕ) : beforeWrap size offset n ≤ n := by
  unfold beforeWrap
  split <;> omega

theorem contents_length {cells : List α} {count : ℕ} (head : ℕ) (h : count ≤ cells.length) :
    (contents cells head count).length = count := by
  rw [contents,List.length_take,List.length_rotate]
  omega

theorem contents_getElem? {cells : List α} {head count i : ℕ} (hc : count ≤ cells.length)
    (hi : i < count) : (contents cells head count)[i]? = cells[(head+i) % cells.length]? := by
  rw [contents,List.getElem?_take_of_lt hi,List.getElem?_rotate (by omega),Nat.add_comm]

/-- Two copies read the first `n` cells of the contents. -/
theorem read_eq_contents {cells : List α} {head n : ℕ} (hhead : head < cells.length)
    (hn : n ≤ cells.length) : read cells head n = contents cells head n := by
  have hdrop : (cells.drop head).length = cells.length - head := List.length_drop
  rw [read,contents,List.rotate_eq_drop_append_take hhead.le,List.take_append,hdrop,
    copyOut,copyOut,List.drop_zero,List.take_take,beforeWrap]
  split
  · rw [show n - n = 0 by omega,show min (n - (cells.length - head)) head = 0 by omega]
  · rw [List.take_of_length_le (l := cells.drop head) (i := n) (by omega),
      List.take_of_length_le (l := cells.drop head) (by omega),
      show min (n - (cells.length - head)) head = n - (cells.length - head) by omega]

theorem contents_take {cells : List α} {head count n : ℕ} (hn : n ≤ count) :
    (contents cells head count).take n = contents cells head n := by
  rw [contents,List.take_take,min_eq_left hn]
  rfl

/-- Moving the head drops from the contents. -/
theorem contents_drop {cells : List α} {head count n : ℕ} (hn : n ≤ count)
    (hc : count ≤ cells.length) :
    (contents cells head count).drop n =
      contents cells ((head+n) % cells.length) (count-n) := by
  have hlen : (cells.rotate head).length = cells.length := List.length_rotate ..
  rw [contents,contents,List.rotate_mod,← List.rotate_rotate,
    List.rotate_eq_drop_append_take (l := cells.rotate head) (n := n) (by omega),List.drop_take,
    List.take_append_of_le_length (by rw [List.length_drop]; omega)]

theorem mod_of_lt_two_mul {a n : ℕ} (h : a < 2*n) : a % n = if a < n then a else a - n := by
  split
  · exact Nat.mod_eq_of_lt ‹_›
  · rw [Nat.mod_eq_sub_mod (by omega),Nat.mod_eq_of_lt (by omega)]

theorem write_length {cells src : List α} {tail : ℕ} (htail : tail < cells.length)
    (hsrc : src.length ≤ cells.length) : (write cells tail src).length = cells.length := by
  have hle := beforeWrap_le cells.length tail src.length
  have hroom : tail + beforeWrap cells.length tail src.length ≤ cells.length := by
    rw [beforeWrap]
    split <;> omega
  have hfirst : (copyIn cells tail (src.take (beforeWrap cells.length tail src.length))).length =
      cells.length := copyIn_length (by rw [List.length_take]; omega)
  rw [write,copyIn_length (by rw [hfirst,List.length_drop]; omega),hfirst]

/-- A cell after writing `src` from `tail`: those of the source lie on both sides of the
wrap, all others are unchanged. -/
theorem write_getElem? {cells src : List α} {tail : ℕ} (htail : tail < cells.length)
    (hsrc : src.length ≤ cells.length) (i : ℕ) :
    (write cells tail src)[i]? =
      if tail ≤ i ∧ i < tail + src.length ∧ i < cells.length then src[i-tail]?
      else if i + cells.length < tail + src.length then src[i+cells.length-tail]?
      else cells[i]? := by
  have hle := beforeWrap_le cells.length tail src.length
  have hwrap : (beforeWrap cells.length tail src.length = src.length ∧
        tail + src.length ≤ cells.length) ∨
      (beforeWrap cells.length tail src.length = cells.length - tail ∧
        cells.length ≤ tail + src.length) := by
    rw [beforeWrap]
    split <;> omega
  rw [write]
  generalize beforeWrap cells.length tail src.length = first at hle hwrap ⊢
  have hlenFirst : (src.take first).length = first := by
    rw [List.length_take]
    omega
  have hlenRest : (src.drop first).length = src.length - first := List.length_drop
  have hroom : tail + (src.take first).length ≤ cells.length := by omega
  have hlen := copyIn_length hroom
  rw [copyIn_getElem? (by omega),copyIn_getElem? hroom,hlenFirst,hlenRest]
  by_cases hin : tail ≤ i ∧ i < tail + src.length ∧ i < cells.length
  · rw [if_pos hin,if_neg (by omega),if_pos (by omega),List.getElem?_take_of_lt (by omega)]
  rw [if_neg hin]
  by_cases hover : i + cells.length < tail + src.length
  · rw [if_pos hover,if_pos (by omega),List.getElem?_drop]
    congr 1
    omega
  rw [if_neg hover,if_neg (by omega),if_neg (by omega)]

/-- Writing behind the contents appends to them. -/
theorem contents_write {cells src : List α} {head count : ℕ} (hhead : head < cells.length)
    (hroom : count + src.length ≤ cells.length) :
    contents (write cells ((head+count) % cells.length) src) head (count+src.length) =
      contents cells head count ++ src := by
  have htail : (head+count) % cells.length < cells.length := Nat.mod_lt _ (by omega)
  have hsplit : (head + count < cells.length ∧ (head+count) % cells.length = head + count) ∨
      (cells.length ≤ head + count ∧
        (head+count) % cells.length = head + count - cells.length) := by
    rw [mod_of_lt_two_mul (by omega)]
    split <;> omega
  generalize (head+count) % cells.length = tail at htail hsplit ⊢
  have hlen := write_length htail (show src.length ≤ cells.length by omega)
  have hcount : (contents cells head count).length = count := contents_length head (by omega)
  apply List.ext_getElem?
  intro i
  by_cases hi : i < count + src.length
  · rw [contents_getElem? (by omega) hi,hlen,write_getElem? htail (by omega),
      mod_of_lt_two_mul (by omega)]
    by_cases hic : i < count
    · rw [List.getElem?_append_left (by omega),contents_getElem? (by omega) hic,
        mod_of_lt_two_mul (by omega),if_neg (by split <;> omega),if_neg (by split <;> omega)]
    · rw [List.getElem?_append_right (by omega),hcount]
      -- the source's cell lies before the wrap or after it
      by_cases hbefore : tail + (i - count) < cells.length
      · rw [if_pos (by split <;> omega)]
        congr 1
        split <;> omega
      · rw [if_neg (by split <;> omega),if_pos (by split <;> omega)]
        congr 1
        split <;> omega
  · rw [List.getElem?_eq_none (by rw [contents_length head (by omega)]; omega),
      List.getElem?_eq_none (by rw [List.length_append]; omega)]

end FlightSoftware.Ring
