import Mathlib

/-!
# Histories of events

A history lists events, the latest one last. Laws say what must have come before
an event; `Since` says that something has happened and nothing has undone it.
-/

namespace FlightSoftware.History

variable {α : Type*} {law : List α → α → Prop} {p stop : α → Prop} {h : List α} {e : α}

/-- Every event obeys a law about the events before it. -/
def Obeys (law : List α → α → Prop) (h : List α) : Prop :=
  ∀ past e rest,h = past ++ e :: rest → law past e

/-- An event with `p` has occurred, and none with `stop` after it. -/
def Since (p stop : α → Prop) (h : List α) : Prop :=
  ∃ past e rest,h = past ++ e :: rest ∧ p e ∧ ∀ x ∈ rest,¬ stop x

theorem obeys_nil : Obeys law [] := by
  intro past e rest heq
  simp at heq

/-- The two ways to split a history with a latest event. -/
theorem concat_eq_append_cons {past rest : List α} {x : α} (heq : h ++ [x] = past ++ e :: rest) :
    (past = h ∧ e = x ∧ rest = []) ∨ ∃ rest',rest = rest' ++ [x] ∧ h = past ++ e :: rest' := by
  rcases List.eq_nil_or_concat rest with rfl | ⟨rest',last,rfl⟩
  · obtain ⟨rfl,hx⟩ := List.append_inj' heq rfl
    exact .inl ⟨rfl,(List.cons.inj hx).1.symm,rfl⟩
  · rw [List.concat_eq_append,← List.cons_append,← List.append_assoc] at heq
    obtain ⟨rfl,hx⟩ := List.append_inj' heq rfl
    obtain rfl := (List.cons.inj hx).1
    exact .inr ⟨rest',List.concat_eq_append,rfl⟩

theorem obeys_concat {x : α} : Obeys law (h ++ [x]) ↔ Obeys law h ∧ law h x := by
  constructor
  · intro hobeys
    refine ⟨?_,hobeys h x [] rfl⟩
    rintro past e rest rfl
    exact hobeys past e (rest ++ [x]) (by simp)
  · rintro ⟨hobeys,hx⟩ past e rest heq
    rcases concat_eq_append_cons heq with ⟨rfl,rfl,-⟩ | ⟨rest',-,hpast⟩
    · exact hx
    · exact hobeys past e rest' hpast

theorem since_concat {x : α} :
    Since p stop (h ++ [x]) ↔ p x ∨ ¬ stop x ∧ Since p stop h := by
  constructor
  · rintro ⟨past,e,rest,heq,he,hrest⟩
    rcases concat_eq_append_cons heq with ⟨-,rfl,-⟩ | ⟨rest',rfl,hpast⟩
    · exact .inl he
    · refine .inr ⟨hrest x (by simp),past,e,rest',hpast,he,fun y hy => ?_⟩
      exact hrest y (List.mem_append_left _ hy)
  · rintro (hx | ⟨hx,past,e,rest,rfl,he,hrest⟩)
    · exact ⟨h,x,[],rfl,hx,by simp⟩
    · refine ⟨past,e,rest ++ [x],by simp,he,fun y hy => ?_⟩
      rcases List.mem_append.mp hy with hy | hy
      · exact hrest y hy
      · rw [List.mem_singleton.mp hy]
        exact hx

theorem not_since_nil : ¬ Since p stop ([] : List α) := by
  rintro ⟨past,e,rest,heq,-⟩
  simp at heq

theorem Since.exists_mem (hs : Since p stop h) : ∃ e ∈ h,p e := by
  obtain ⟨past,e,rest,rfl,he,-⟩ := hs
  exact ⟨e,by simp,he⟩

/-- The latest of the events of a kind is unique. -/
theorem Since.latest_unique {x y : α} (hx : Since (· = x) stop h) (hy : Since (· = y) stop h)
    (hsx : stop x) (hsy : stop y) : x = y := by
  induction h using List.reverseRecOn with
  | nil => exact absurd hx not_since_nil
  | append_singleton h e ih =>
    rcases since_concat.mp hx with rfl | ⟨hstop,hx⟩
    · rcases since_concat.mp hy with rfl | ⟨hstop,-⟩
      · rfl
      · exact absurd hsx hstop
    · rcases since_concat.mp hy with rfl | ⟨-,hy⟩
      · exact absurd hsy hstop
      · exact ih hx hy

/-- What has not been stopped goes on when another event does not stop it. -/
theorem Since.concat {x : α} (hs : Since p stop h) (hx : ¬ stop x) : Since p stop (h ++ [x]) :=
  since_concat.mpr (.inr ⟨hx,hs⟩)

theorem since_concat_self {x : α} (hx : p x) : Since p stop (h ++ [x]) :=
  since_concat.mpr (.inl hx)

/-- Behind an event with `stop` lies all that a `Since` is about. -/
theorem Since.behind {past rest : List α} (hs : Since p stop (past ++ e :: rest))
    (he : stop e) : ∃ before x after,e :: rest = before ++ x :: after ∧ p x ∧
      ∀ y ∈ after,¬ stop y := by
  obtain ⟨past',x,after,heq,hx,hafter⟩ := hs
  rcases List.append_eq_append_iff.mp heq with ⟨before,rfl,hrest⟩ | ⟨gap,rfl,hrest⟩
  · exact ⟨before,x,after,hrest,hx,hafter⟩
  · cases gap with
    | nil => exact ⟨[],x,after,hrest.symm,hx,hafter⟩
    | cons y gap =>
      obtain ⟨-,rfl⟩ := List.cons.inj hrest
      exact absurd he (hafter e (by simp))

end FlightSoftware.History
