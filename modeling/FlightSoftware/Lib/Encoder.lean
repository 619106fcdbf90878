import Mathlib

/-!
# Encoders over a bounded buffer

An encoder appends to a buffer of a given capacity, and a write that does not fit is
refused as a whole. Writes are run one after another up to the first refusal.
`Puts f bytes` says what such a sequence does: it stores `bytes` if they fit, and
otherwise an initial part of them, always below the capacity.
-/

namespace FlightSoftware

variable {β : Type*}

/-- `bytes` copied over the memory from `offset`. -/
def blit (memory : ℕ → β) (offset : ℕ) (bytes : List β) : ℕ → β :=
  fun i => if offset ≤ i then bytes[i-offset]?.getD (memory i) else memory i

@[simp] theorem blit_nil (memory : ℕ → β) (offset : ℕ) : blit memory offset [] = memory := by
  funext i
  simp [blit]

theorem blit_before {memory : ℕ → β} {offset i : ℕ} {bytes : List β} (h : i < offset) :
    blit memory offset bytes i = memory i := if_neg (by omega)

theorem blit_after {memory : ℕ → β} {offset i : ℕ} {bytes : List β}
    (h : offset + bytes.length ≤ i) : blit memory offset bytes i = memory i := by
  rw [blit,if_pos (by omega),List.getElem?_eq_none (by omega),Option.getD_none]

theorem blit_append (memory : ℕ → β) (offset : ℕ) (first second : List β) :
    blit (blit memory offset first) (offset + first.length) second =
      blit memory offset (first ++ second) := by
  funext i
  by_cases hlow : i < offset + first.length
  · rw [blit_before hlow]
    simp only [blit]
    split_ifs with h
    · rw [List.getElem?_append_left (by omega)]
    · rfl
  · have hindex : i - (offset + first.length) = i - offset - first.length := by omega
    rw [blit,if_pos (by omega),blit_after (by omega),blit,if_pos (by omega),
      List.getElem?_append_right (by omega),hindex]

/-- What was copied to the front is read back from there. -/
theorem map_range_blit (memory : ℕ → β) (bytes : List β) :
    (List.range bytes.length).map (blit memory 0 bytes) = bytes := by
  refine List.ext_getElem (by simp) fun i _ hi => ?_
  simp [blit,hi]

/-- A buffer with its write position, which never passes the capacity. -/
structure Encoder (β : Type*) where
  payload : ℕ → β
  capacity : ℕ
  used : ℕ
  fits : used ≤ capacity

/-- An encoder at the front of a buffer. -/
def Encoder.start (payload : ℕ → β) (capacity : ℕ) : Encoder β :=
  ⟨payload,capacity,0,Nat.zero_le _⟩

@[simp] theorem Encoder.start_capacity (payload : ℕ → β) (capacity : ℕ) :
    (Encoder.start payload capacity).capacity = capacity := rfl

@[simp] theorem Encoder.start_used (payload : ℕ → β) (capacity : ℕ) :
    (Encoder.start payload capacity).used = 0 := rfl

/-- A write, with whether it succeeded. -/
abbrev Put (β : Type*) := Encoder β → Bool × Encoder β

namespace Put

/-- All the bytes if they fit, and otherwise none. -/
def bytes (values : List β) : Put β := fun e =>
  if h : e.used + values.length ≤ e.capacity then
    (true,⟨blit e.payload e.used values,e.capacity,e.used + values.length,h⟩)
  else (false,e)

/-- `f(e) && g(e)`: the second write is tried only after the first succeeded. -/
def andThen (f g : Put β) : Put β := fun e =>
  match f e with
  | (true,e) => g e
  | (false,e) => (false,e)

/-- Writes in order up to the first refusal. -/
def all : List (Put β) → Put β
  | [] => fun e => (true,e)
  | f :: fs => f.andThen (all fs)

end Put

/-- The write stores `values` exactly if they fit, and otherwise an initial part of them. -/
structure Puts (f : Put β) (values : List β) : Prop where
  ok_iff : ∀ e,(f e).1 = true ↔ e.used + values.length ≤ e.capacity
  capacity_eq : ∀ e,(f e).2.capacity = e.capacity
  stores : ∀ e,∃ n ≤ values.length,((f e).1 = true → n = values.length) ∧
    (f e).2.used = e.used + n ∧ (f e).2.payload = blit e.payload e.used (values.take n)

namespace Puts

variable {f g : Put β} {first second values : List β}

@[simp] theorem bytes (values : List β) : Puts (Put.bytes values) values where
  ok_iff e := by
    unfold Put.bytes
    split_ifs with h <;> simp [h]
  capacity_eq e := by
    unfold Put.bytes
    split_ifs <;> rfl
  stores e := by
    unfold Put.bytes
    split_ifs with h
    · exact ⟨values.length,le_rfl,fun _ => rfl,rfl,by rw [List.take_length]⟩
    · exact ⟨0,Nat.zero_le _,fun hok => by simp at hok,rfl,by simp⟩

theorem used_of_ok (h : Puts f values) {e : Encoder β} (hok : (f e).1 = true) :
    (f e).2.used = e.used + values.length := by
  obtain ⟨n,-,hn,hused,-⟩ := h.stores e
  rw [hused,hn hok]

theorem payload_of_ok (h : Puts f values) {e : Encoder β} (hok : (f e).1 = true) :
    (f e).2.payload = blit e.payload e.used values := by
  obtain ⟨n,-,hn,-,hpayload⟩ := h.stores e
  rw [hpayload,hn hok,List.take_length]

theorem andThen_of_ok {e : Encoder β} (h : (f e).1 = true) : f.andThen g e = g (f e).2 := by
  simp only [Put.andThen]
  split <;> simp_all

theorem andThen_of_not_ok {e : Encoder β} (h : (f e).1 = false) : f.andThen g e = f e := by
  simp only [Put.andThen]
  split <;> simp_all

theorem andThen (hf : Puts f first) (hg : Puts g second) :
    Puts (f.andThen g) (first ++ second) where
  ok_iff e := by
    have hfirst := hf.ok_iff e
    rw [List.length_append]
    cases h : (f e).1 with
    | true => rw [andThen_of_ok h,hg.ok_iff,hf.used_of_ok h,hf.capacity_eq,Nat.add_assoc]
    | false =>
      rw [h] at hfirst
      rw [andThen_of_not_ok h,h]
      simp only [Bool.false_eq_true,false_iff] at hfirst ⊢
      omega
  capacity_eq e := by
    cases h : (f e).1 with
    | true => rw [andThen_of_ok h,hg.capacity_eq,hf.capacity_eq]
    | false => rw [andThen_of_not_ok h,hf.capacity_eq]
  stores e := by
    cases h : (f e).1 with
    | true =>
      obtain ⟨n,hn,hall,hused,hpayload⟩ := hg.stores (f e).2
      rw [andThen_of_ok h]
      refine ⟨first.length + n,?_,fun hok => ?_,?_,?_⟩
      · rw [List.length_append]
        omega
      · rw [hall hok,List.length_append]
      · rw [hused,hf.used_of_ok h,Nat.add_assoc]
      · rw [hpayload,hf.used_of_ok h,hf.payload_of_ok h,blit_append,List.take_length_add_append]
    | false =>
      obtain ⟨n,hn,-,hused,hpayload⟩ := hf.stores e
      rw [andThen_of_not_ok h]
      refine ⟨n,?_,fun hok => by simp [h] at hok,hused,?_⟩
      · rw [List.length_append]
        omega
      · rw [hpayload,List.take_append_of_le_length hn]

/-- A sequence of writes stores the values of all of them, in order. -/
theorem all {fs : List (Put β)} {pieces : List (List β)} (h : List.Forall₂ Puts fs pieces) :
    Puts (Put.all fs) pieces.flatten := by
  induction h with
  | nil =>
    rw [List.flatten_nil]
    exact ⟨fun e => by simp [Put.all,e.fits],fun _ => rfl,
      fun e => ⟨0,le_rfl,fun _ => rfl,rfl,by simp [Put.all]⟩⟩
  | cons hf _ ih => exact hf.andThen ih

/-! ### From the front of a buffer -/

theorem start_ok (h : Puts f values) (payload : ℕ → β) {capacity : ℕ}
    (hfits : values.length ≤ capacity) :
    (f (.start payload capacity)).1 = true ∧
    (f (.start payload capacity)).2.used = values.length ∧
    (f (.start payload capacity)).2.payload = blit payload 0 values := by
  have hok : (f (.start payload capacity)).1 = true := (h.ok_iff _).mpr (by simpa using hfits)
  exact ⟨hok,by simpa using h.used_of_ok hok,h.payload_of_ok hok⟩

/-- Values that do not fit leave an initial part that does. -/
theorem start_refused (h : Puts f values) (payload : ℕ → β) {capacity : ℕ}
    (hsmall : capacity < values.length) :
    (f (.start payload capacity)).1 = false ∧
    ∃ n ≤ capacity,(f (.start payload capacity)).2.payload = blit payload 0 (values.take n) := by
  obtain ⟨n,-,-,hused,hpayload⟩ := h.stores (.start payload capacity)
  have hfits := (f (.start payload capacity)).2.fits
  rw [hused,h.capacity_eq,Encoder.start_used,Encoder.start_capacity,Nat.zero_add] at hfits
  refine ⟨?_,n,hfits,hpayload⟩
  rw [← Bool.not_eq_true,h.ok_iff,Encoder.start_used,Encoder.start_capacity]
  omega

end Puts

end FlightSoftware
