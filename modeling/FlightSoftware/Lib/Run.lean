import Mathlib

/-!
# Runs of a partial step function

`step s a` is the state after the action `a`, or nothing where `a` cannot be
taken in `s`. A run is a list of actions taken one after another.
-/

namespace FlightSoftware.Run

variable {σ α : Type*} {step : σ → α → Option σ}

/-- The state after a list of actions, each possible where it is taken. -/
def run (step : σ → α → Option σ) : σ → List α → Option σ
  | s,[] => some s
  | s,a :: as => (step s a).bind fun s' => run step s' as

@[simp] theorem run_nil (s : σ) : run step s [] = some s := rfl

theorem run_cons (s : σ) (a : α) (as : List α) :
    run step s (a :: as) = (step s a).bind fun s' => run step s' as := rfl

theorem run_cons_eq_some {s s' : σ} {a : α} {as : List α} :
    run step s (a :: as) = some s' ↔ ∃ t,step s a = some t ∧ run step t as = some s' := by
  rw [run_cons,Option.bind_eq_some_iff]

theorem run_append (s : σ) (as bs : List α) :
    run step s (as ++ bs) = (run step s as).bind fun s' => run step s' bs := by
  induction as generalizing s with
  | nil => rfl
  | cons a as ih =>
    rw [List.cons_append,run_cons,run_cons]
    cases step s a with
    | none => rfl
    | some t => exact ih t

theorem run_concat_eq_some {s s' : σ} {as : List α} {a : α} :
    run step s (as ++ [a]) = some s' ↔ ∃ t,run step s as = some t ∧ step t a = some s' := by
  rw [run_append,Option.bind_eq_some_iff]
  refine exists_congr fun t => and_congr_right fun _ => ?_
  rw [run_cons,Option.bind_eq_some_iff]
  constructor
  · rintro ⟨u,hu,hnil⟩
    rwa [← Option.some.inj hnil]
  · exact fun h => ⟨s',h,rfl⟩

/-- An invariant of the state and of the actions that have led to it. -/
theorem run_trace_invariant {I : List α → σ → Prop} {s s' : σ} {as : List α}
    (hstep : ∀ as t a t',run step s as = some t → I as t → step t a = some t' → I (as ++ [a]) t')
    (hs : I [] s) (hrun : run step s as = some s') : I as s' := by
  induction as using List.reverseRecOn generalizing s' with
  | nil =>
    obtain rfl := Option.some.inj hrun
    exact hs
  | append_singleton as a ih =>
    obtain ⟨t,ht,hlast⟩ := run_concat_eq_some.mp hrun
    exact hstep as t a s' ht (ih ht) hlast

/-- What every allowed step preserves holds at the end of every allowed run. -/
theorem run_invariant_of {I : σ → Prop} {P : σ → α → Prop}
    (hstep : ∀ s a s',I s → P s a → step s a = some s' → I s') {s s' : σ} {as : List α}
    (hs : I s)
    (hP : ∀ pre a post t,as = pre ++ a :: post → run step s pre = some t → P t a)
    (hrun : run step s as = some s') : I s' := by
  induction as generalizing s with
  | nil =>
    obtain rfl := Option.some.inj hrun
    exact hs
  | cons a as ih =>
    obtain ⟨t,ht,hrest⟩ := run_cons_eq_some.mp hrun
    refine ih (hstep s a t hs (hP [] a as s rfl rfl) ht) ?_ hrest
    rintro pre b post u rfl hu
    exact hP (a :: pre) b post u rfl (run_cons_eq_some.mpr ⟨t,ht,hu⟩)

/-- What every step preserves holds at the end of every run. -/
theorem run_invariant {I : σ → Prop} (hstep : ∀ s a s',I s → step s a = some s' → I s')
    {s s' : σ} {as : List α} (hs : I s) (hrun : run step s as = some s') : I s' :=
  run_invariant_of (P := fun _ _ => True) (fun s a s' h _ => hstep s a s' h) hs
    (fun _ _ _ _ _ _ => trivial) hrun

/-- Something becomes true at the steps that are not allowed, and stays true. So it is not true at
the end of a run if and only if each of the steps was allowed. -/
theorem run_flag_iff {I B : σ → Prop} {P : σ → α → Prop}
    (hI : ∀ s a s',I s → step s a = some s' → I s')
    (hB : ∀ s a s',I s → step s a = some s' → (¬ B s' ↔ ¬ B s ∧ P s a)) {s s' : σ} {as : List α}
    (hs : I s) (hrun : run step s as = some s') :
    ¬ B s' ↔ ¬ B s ∧ ∀ pre a post t,as = pre ++ a :: post → run step s pre = some t → P t a := by
  induction as generalizing s with
  | nil =>
    obtain rfl := Option.some.inj hrun
    refine ⟨fun h => ⟨h,?_⟩,And.left⟩
    intro pre a post t has
    cases pre <;> cases has
  | cons a as ih =>
    obtain ⟨t,ht,hrest⟩ := run_cons_eq_some.mp hrun
    rw [ih (hI s a t hs ht) hrest,hB s a t hs ht]
    constructor
    · rintro ⟨⟨hnot,hfirst⟩,hlater⟩
      refine ⟨hnot,?_⟩
      rintro (_ | ⟨b,pre⟩) c post u has hu
      · obtain ⟨rfl,rfl⟩ := List.cons.inj has
        obtain rfl := Option.some.inj hu
        exact hfirst
      · obtain ⟨rfl,htail⟩ := List.cons.inj has
        obtain ⟨t',ht',hu⟩ := run_cons_eq_some.mp hu
        obtain rfl := Option.some.inj (ht.symm.trans ht')
        exact hlater pre c post u htail hu
    · rintro ⟨hnot,hall⟩
      refine ⟨⟨hnot,hall [] a as s rfl rfl⟩,?_⟩
      intro pre b post u has hu
      exact hall (a :: pre) b post u (by rw [has,List.cons_append])
        (run_cons_eq_some.mpr ⟨t,ht,hu⟩)

/-- Every action lowers a rank but for what it costs, unless it is the one that is waited for. So
a run has taken that one, or is not longer than the rank at the beginning and its costs. -/
theorem run_ranked {R : ℕ → σ → Prop} {P : α → Prop} {E : σ → α → σ → Prop} (cost : α → ℕ)
    (hstep : ∀ k s a s',R k s → P a → step s a = some s' →
      (∃ k',R k' s' ∧ k'+1 ≤ k + cost a) ∨ E s a s') {k : ℕ} {s s' : σ} {as : List α}
    (hs : R k s) (hP : ∀ a ∈ as,P a) (hrun : run step s as = some s') :
    (∃ k',R k' s' ∧ k' + as.length ≤ k + (as.map cost).sum) ∨
      ∃ pre a post t t',as = pre ++ a :: post ∧ run step s pre = some t ∧
        step t a = some t' ∧ E t a t' := by
  induction as generalizing k s with
  | nil =>
    obtain rfl := Option.some.inj hrun
    exact .inl ⟨k,hs,le_refl _⟩
  | cons a as ih =>
    obtain ⟨t,ht,hrest⟩ := run_cons_eq_some.mp hrun
    obtain ⟨k',hk,hle⟩ | hE := hstep k s a t hs (hP a (List.mem_cons_self ..)) ht
    · obtain ⟨k'',hk'',hle'⟩ | ⟨pre,b,post,u,u',has,hpre,hu,hE⟩ :=
        ih hk (fun b hb => hP b (List.mem_cons_of_mem _ hb)) hrest
      · refine .inl ⟨k'',hk'',?_⟩
        rw [List.length_cons,List.map_cons,List.sum_cons]
        omega
      · refine .inr ⟨a :: pre,b,post,u,u',?_,?_,hu,hE⟩
        · rw [has,List.cons_append]
        · exact run_cons_eq_some.mpr ⟨t,ht,hpre⟩
    · exact .inr ⟨[],a,as,s,t,rfl,rfl,ht,hE⟩

/-- Every action is allowed where a run takes it. -/
def allowed (step : σ → α → Option σ) (p : σ → α → Bool) : σ → List α → Bool
  | _,[] => true
  | s,a :: as => p s a && (step s a).all fun t => allowed step p t as

theorem of_allowed {p : σ → α → Bool} {s : σ} {as : List α} (h : allowed step p s as = true)
    {pre post : List α} {a : α} {t : σ} (has : as = pre ++ a :: post)
    (hpre : run step s pre = some t) : p t a = true := by
  subst has
  induction pre generalizing s with
  | nil =>
    obtain rfl := Option.some.inj hpre
    exact (Bool.and_eq_true_iff.mp h).1
  | cons b pre ih =>
    obtain ⟨u,hu,hrest⟩ := run_cons_eq_some.mp hpre
    refine ih hrest ?_
    have hall := (Bool.and_eq_true_iff.mp h).2
    rwa [hu] at hall

end FlightSoftware.Run
