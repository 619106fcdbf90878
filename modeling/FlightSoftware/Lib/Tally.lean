import FlightSoftware.Lib.Run

/-!
# Counters of events

Counters of a fixed width beside the events that they count. Where every step adds
what it emits, a counter has at any time grown by the number of its events since, modulo
its size. It does not matter what the steps do to anything else.
-/

namespace FlightSoftware.Tally
open Run

variable {σ α κ : Type*}

/-- The events of a run, step by step. -/
def eventsOf (step : σ → α → Option σ) (emits : σ → α → List κ) : σ → List α → List κ
  | _,[] => []
  | s,a :: as =>
    match step s a with
    | none => []
    | some t => emits s a ++ eventsOf step emits t as

section

variable [DecidableEq κ] {w : ℕ} {step : σ → α → Option σ} {emits : σ → α → List κ}
  {counter : σ → κ → BitVec w}

/-- What the events add to their counter. -/
def added (w : ℕ) (events : List κ) (k : κ) : BitVec w := BitVec.ofNat w (events.count k)

@[simp] theorem added_nil (k : κ) : added w ([] : List κ) k = 0#w := rfl

theorem added_append (xs ys : List κ) (k : κ) :
    added w (xs ++ ys) k = added w xs k + added w ys k := by
  rw [added,List.count_append,BitVec.ofNat_add]
  rfl

theorem added_self (k : κ) : added w [k] k = 1#w := by
  rw [added,List.count_singleton_self]

theorem added_of_ne {k k' : κ} (h : k' ≠ k) : added w [k'] k = 0#w := by
  rw [added,List.count_singleton,beq_false_of_ne h]
  rfl

/-- Every step adds its events to the counters. -/
def CountsEvents (step : σ → α → Option σ) (emits : σ → α → List κ)
    (counter : σ → κ → BitVec w) : Prop :=
  ∀ s a s',step s a = some s' → ∀ k,counter s' k = counter s k + added w (emits s a) k

theorem CountsEvents.run (h : CountsEvents step emits counter) {s s' : σ} {as : List α}
    (hrun : run step s as = some s') (k : κ) :
    counter s' k = counter s k + added w (eventsOf step emits s as) k := by
  induction as generalizing s with
  | nil =>
    obtain rfl := Option.some.inj hrun
    exact (BitVec.add_zero _).symm
  | cons a as ih =>
    obtain ⟨t,ht,hrest⟩ := run_cons_eq_some.mp hrun
    rw [ih hrest,h s a t ht k,eventsOf,ht,added_append,BitVec.add_assoc]

/-- From zero, the counter is the number of its events. -/
theorem CountsEvents.count (h : CountsEvents step emits counter) {s s' : σ} {as : List α}
    {k : κ} (hzero : counter s k = 0#w) (hrun : Run.run step s as = some s') :
    counter s' k = BitVec.ofNat w ((eventsOf step emits s as).count k) := by
  rw [h.run hrun,hzero,BitVec.zero_add,added]

end

end FlightSoftware.Tally
