import Mathlib

/-!
# Prefix codes

No word of a prefix code is the front of another. A sequence of whole words can therefore be cut
off the front of a longer one, and a front of a word is a sequence of whole words only when it
is empty or the word.
-/

namespace FlightSoftware

open scoped Computability

variable {α : Type*}

/-- No word is empty or the front of another. -/
structure IsPrefixCode (code : Language α) : Prop where
  nonempty : ∀ w ∈ code,w ≠ []
  unique : ∀ v ∈ code,∀ w ∈ code,v <+: w → v = w

namespace IsPrefixCode

variable {code : Language α}

theorem kstar_append {s t : List α} (hs : s ∈ code∗) (ht : t ∈ code∗) : s ++ t ∈ code∗ := by
  obtain ⟨vs,rfl,hvs⟩ := Language.mem_kstar.mp hs
  obtain ⟨ws,rfl,hws⟩ := Language.mem_kstar.mp ht
  rw [← List.flatten_append]
  exact Language.join_mem_kstar fun w hw => (List.mem_append.mp hw).elim (hvs w) (hws w)

theorem word_mem_kstar {w : List α} (hw : w ∈ code) : w ∈ code∗ :=
  Language.mem_kstar.mpr ⟨[w],(List.flatten_singleton ..).symm,
    fun _ hv => List.mem_singleton.mp hv ▸ hw⟩

/-- Words at the front of the same sequence are the same. -/
theorem front_unique (hcode : IsPrefixCode code) {v w s t : List α} (hv : v ∈ code)
    (hw : w ∈ code) (h : v ++ s = w ++ t) : v = w := by
  obtain hle | hle := List.prefix_or_prefix_of_prefix (List.prefix_append v s)
    (h ▸ List.prefix_append w t)
  · exact hcode.unique v hv w hw hle
  · exact (hcode.unique w hw v hv hle).symm

/-- Whole words before whole words leave whole words. -/
theorem kstar_cancel (hcode : IsPrefixCode code) {s t : List α} (hs : s ∈ code∗)
    (hst : s ++ t ∈ code∗) : t ∈ code∗ := by
  obtain ⟨vs,rfl,hvs⟩ := Language.mem_kstar.mp hs
  clear hs
  induction vs with
  | nil => exact hst
  | cons v vs ih =>
    obtain ⟨ws,hflat,hws⟩ := Language.mem_kstar.mp hst
    have hv : v ∈ code := hvs v (List.mem_cons_self ..)
    rw [List.flatten_cons,List.append_assoc] at hflat
    cases ws with
    | nil => exact absurd (List.append_eq_nil_iff.mp hflat).1 (hcode.nonempty v hv)
    | cons w ws =>
      rw [List.flatten_cons] at hflat
      obtain rfl := hcode.front_unique hv (hws w (List.mem_cons_self ..)) hflat
      have hrest : vs.flatten ++ t = ws.flatten := List.append_cancel_left hflat
      refine ih (fun u hu => hvs u (List.mem_cons_of_mem _ hu)) ?_
      rw [hrest]
      exact Language.join_mem_kstar fun u hu => hws u (List.mem_cons_of_mem _ hu)

/-- A front of a word is whole only as nothing or as the word. -/
theorem prefix_mem_kstar_iff (hcode : IsPrefixCode code) {w s : List α} (hw : w ∈ code)
    (hs : s <+: w) : s ∈ code∗ ↔ s = [] ∨ s = w := by
  constructor
  · intro hmem
    obtain ⟨ws,rfl,hws⟩ := Language.mem_kstar.mp hmem
    cases ws with
    | nil => exact .inl rfl
    | cons v ws =>
      have hv : v ∈ code := hws v (List.mem_cons_self ..)
      have hfront : v <+: w := (List.prefix_append v ws.flatten).trans hs
      obtain rfl := hcode.unique v hv w hw hfront
      exact .inr (List.IsPrefix.eq_of_length_le hs (List.prefix_append v ws.flatten).length_le)
  · rintro (rfl | rfl)
    · exact Language.nil_mem_kstar code
    · exact word_mem_kstar hw

end IsPrefixCode

end FlightSoftware
