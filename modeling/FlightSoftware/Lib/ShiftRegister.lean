import Mathlib

/-!
# Feedback shift registers

A register of width `w` that shifts towards bit zero and folds `poly` back in
when a one leaves. `feed` clocks a bit string through it, least significant bit
first. When `poly` has its top bit set the register is injective, so two inputs
that differ only inside `w` consecutive bits never meet again.
-/

namespace FlightSoftware.ShiftRegister

variable {w : ℕ} (poly : BitVec w)

def step (x : BitVec w) : BitVec w :=
  if x.getLsbD 0 then (x >>> 1) ^^^ poly else x >>> 1

def clock (n : ℕ) (x : BitVec w) : BitVec w := (step poly)^[n] x

/-- A bit placed at position zero. -/
def unit (b : Bool) : BitVec w := (BitVec.ofBool b).setWidth w

def feed : List Bool → BitVec w → BitVec w
  | [],x => x
  | b :: bs,x => feed bs (step poly (x ^^^ unit b))

/-- The word whose bit `i` is the `i`-th bit of the string. -/
def pack : List Bool → BitVec w
  | [] => 0
  | b :: bs => unit b ^^^ (pack bs <<< 1)

/-- The bits of a word, least significant first. -/
def bitsOf {n : ℕ} (b : BitVec n) : List Bool := (List.range n).map b.getLsbD

@[simp] theorem bitsOf_length {n : ℕ} (b : BitVec n) : (bitsOf b).length = n := by
  simp [bitsOf]

theorem feed_append (as bs : List Bool) (x : BitVec w) :
    feed poly (as ++ bs) x = feed poly bs (feed poly as x) := by
  induction as generalizing x with
  | nil => rfl
  | cons a as ih => exact ih _

theorem clock_succ (n : ℕ) (x : BitVec w) : clock poly (n+1) x = clock poly n (step poly x) := rfl

/-! ### The register is linear -/

theorem step_xor (x y : BitVec w) : step poly (x ^^^ y) = step poly x ^^^ step poly y := by
  simp only [step,BitVec.getLsbD_xor,BitVec.ushiftRight_xor_distrib]
  cases x.getLsbD 0 <;> cases y.getLsbD 0
  · simp
  · simp [BitVec.xor_assoc]
  · simp only [Bool.xor_false,if_true,Bool.false_eq_true,if_false]
    ac_rfl
  · have hc : (x >>> 1 ^^^ poly) ^^^ (y >>> 1 ^^^ poly) =
        (x >>> 1 ^^^ y >>> 1) ^^^ (poly ^^^ poly) := by ac_rfl
    simp [hc]

theorem step_zero : step poly 0#w = 0#w := by simp [step]

theorem unit_xor (a b : Bool) : (unit (a ^^ b) : BitVec w) = unit a ^^^ unit b := by
  cases a <;> cases b <;> simp [unit]

/-- The difference of two runs is the run of the difference. -/
theorem feed_xor (as bs : List Bool) (hl : as.length = bs.length) (x y : BitVec w) :
    feed poly as x ^^^ feed poly bs y = feed poly (List.zipWith xor as bs) (x ^^^ y) := by
  induction as generalizing bs x y with
  | nil =>
    obtain rfl : bs = [] := by simpa using hl.symm
    rfl
  | cons a as ih =>
    cases bs with
    | nil => simp at hl
    | cons b bs =>
      simp only [feed,List.zipWith_cons_cons]
      rw [ih bs (by simpa using hl),← step_xor]
      congr 2
      have hu : x ^^^ unit a ^^^ (y ^^^ unit b) = x ^^^ y ^^^ (unit a ^^^ unit b) := by ac_rfl
      rw [hu,unit_xor]

/-! ### The register is injective -/

variable {poly} in
theorem step_eq_zero (hp : poly.getLsbD (w-1) = true) {x : BitVec w} (h : step poly x = 0#w) :
    x = 0#w := by
  have hw : 0 < w := by
    by_contra hn
    have h0 : w = 0 := by omega
    subst h0
    simp at hp
  unfold step at h
  by_cases hx : x.getLsbD 0 = true
  · -- the shifted word has a clear top bit, so the feedback leaves it set
    rw [if_pos hx] at h
    have ht := congrArg (fun v => v.getLsbD (w-1)) h
    have hs : (x >>> 1).getLsbD (w-1) = false := by
      rw [BitVec.getLsbD_ushiftRight]
      exact BitVec.getLsbD_of_ge x _ (by omega)
    simp [hs,hp] at ht
  · rw [if_neg hx] at h
    apply BitVec.eq_of_getLsbD_eq
    intro i hi
    cases i with
    | zero => simpa using hx
    | succ i =>
      have ht := congrArg (fun v => v.getLsbD i) h
      simpa [BitVec.getLsbD_ushiftRight,Nat.add_comm] using ht

variable {poly} in
theorem clock_eq_zero (hp : poly.getLsbD (w-1) = true) (n : ℕ) {x : BitVec w}
    (h : clock poly n x = 0#w) : x = 0#w := by
  induction n generalizing x with
  | zero => exact h
  | succ n ih => exact step_eq_zero hp (ih h)

/-! ### Up to `w` bits may be folded in at once -/

theorem unit_getLsbD (b : Bool) (i : ℕ) :
    (unit b : BitVec w).getLsbD i = (decide (i < w) && (decide (i = 0) && b)) := by
  cases b <;> cases i <;> simp [unit]

theorem pack_getLsbD (bs : List Bool) (hl : bs.length ≤ w) (i : ℕ) :
    (pack bs : BitVec w).getLsbD i = bs.getD i false := by
  induction bs generalizing i with
  | nil => simp [pack]
  | cons b bs ih =>
    simp only [List.length_cons] at hl
    rw [pack,BitVec.getLsbD_xor,unit_getLsbD,BitVec.getLsbD_shiftLeft]
    cases i with
    | zero => simp [show 0 < w by omega]
    | succ i =>
      rw [Nat.add_sub_cancel,ih (by omega)]
      by_cases hi : i+1 < w
      · simp [hi]
      · have hb : bs.length ≤ i := by omega
        simp [List.getElem?_eq_none hb]

theorem step_shiftLeft (x : BitVec w) (h : x.getLsbD (w-1) = false) :
    step poly (x <<< 1) = x := by
  have h0 : (x <<< 1).getLsbD 0 = false := by simp
  rw [step,h0,if_neg Bool.false_ne_true]
  apply BitVec.eq_of_getLsbD_eq
  intro i hi
  rw [BitVec.getLsbD_ushiftRight,BitVec.getLsbD_shiftLeft]
  by_cases ht : 1+i < w
  · simp [ht]
  · have hi' : i = w-1 := by omega
    subst hi'
    simp [ht,h]

/-- Clocking at most `w` bits in one by one is the same as adding them all to
the register first and then clocking it. -/
theorem feed_eq_clock (bs : List Bool) (hl : bs.length ≤ w) (x : BitVec w) :
    feed poly bs x = clock poly bs.length (x ^^^ pack bs) := by
  induction bs generalizing x with
  | nil => simp [feed,clock,pack]
  | cons b bs ih =>
    simp only [List.length_cons] at hl
    have ht : (pack bs : BitVec w).getLsbD (w-1) = false := by
      rw [pack_getLsbD bs (by omega)]
      simp [List.getElem?_eq_none (by omega : bs.length ≤ w-1)]
    have hs : step poly (x ^^^ pack (b :: bs)) = step poly (x ^^^ unit b) ^^^ pack bs := by
      rw [pack,← BitVec.xor_assoc,step_xor,step_shiftLeft poly _ ht]
    rw [feed,ih (by omega),List.length_cons,clock_succ,hs]

theorem pack_bitsOf {n : ℕ} (hn : n ≤ w) (b : BitVec n) :
    (pack (bitsOf b) : BitVec w) = b.setWidth w := by
  apply BitVec.eq_of_getLsbD_eq
  intro i hi
  rw [pack_getLsbD _ (by simpa using hn),BitVec.getLsbD_setWidth]
  by_cases h : i < n
  · simp [bitsOf,h,hi]
  · simp [bitsOf,h,BitVec.getLsbD_of_ge b i (by omega)]

/-- A whole word is added and clocked, as byte-wise implementations do. -/
theorem feed_bitsOf {n : ℕ} (hn : n ≤ w) (b : BitVec n) (x : BitVec w) :
    feed poly (bitsOf b) x = clock poly n (x ^^^ b.setWidth w) := by
  rw [feed_eq_clock poly _ (by simpa using hn),bitsOf_length,pack_bitsOf hn]

/-! ### Bursts -/

theorem unit_false : (unit false : BitVec w) = 0#w := by simp [unit]

theorem feed_clear (bs : List Bool) (h : ∀ b ∈ bs,b = false) (x : BitVec w) :
    feed poly bs x = clock poly bs.length x := by
  induction bs generalizing x with
  | nil => rfl
  | cons b bs ih =>
    obtain rfl : b = false := h b (by simp)
    rw [feed,unit_false,BitVec.xor_zero,ih (fun c hc => h c (by simp [hc])),List.length_cons,
      clock_succ]

theorem clock_zero (n : ℕ) : clock poly n 0#w = 0#w := by
  induction n with
  | zero => rfl
  | succ n ih => rw [clock_succ,step_zero,ih]

variable {poly} in
/-- A difference that is not zero and fits in `w` consecutive bits leaves a
difference in the register, whatever follows it. -/
theorem feed_burst_ne_zero (hp : poly.getLsbD (w-1) = true) (ds : List Bool) (k : ℕ)
    (hk : ∀ i,ds.getD i false = true → k ≤ i ∧ i < k+w) (hne : ∃ i,ds.getD i false = true) :
    feed poly ds 0#w ≠ 0#w := by
  obtain ⟨i,hi⟩ := hne
  have hsplit : ds = ds.take k ++ ((ds.drop k).take w ++ (ds.drop k).drop w) := by simp
  have hout : ∀ j (hj : j < ds.length),j < k ∨ k+w ≤ j → ds[j] = false := by
    intro j hj hjk
    by_contra hset
    have hjd : ds.getD j false = true := by
      simpa [List.getElem?_eq_getElem hj] using hset
    have := hk j hjd
    omega
  have hpre : ∀ b ∈ ds.take k,b = false := by
    intro b hb
    obtain ⟨j,hj,rfl⟩ := List.mem_iff_getElem.mp hb
    rw [List.length_take] at hj
    rw [List.getElem_take]
    exact hout j _ (by omega)
  have hpost : ∀ b ∈ (ds.drop k).drop w,b = false := by
    intro b hb
    obtain ⟨j,hj,rfl⟩ := List.mem_iff_getElem.mp hb
    rw [List.getElem_drop,List.getElem_drop]
    exact hout _ _ (by omega)
  have hmid : (pack ((ds.drop k).take w) : BitVec w) ≠ 0#w := by
    intro h0
    have hb := congrArg (fun v => v.getLsbD (i-k)) h0
    obtain ⟨hki,hiw⟩ := hk i hi
    simp only [BitVec.getLsbD_zero] at hb
    rw [pack_getLsbD _ (by simp)] at hb
    have hget : ((ds.drop k).take w).getD (i-k) false = ds.getD i false := by
      simp only [List.getD_eq_getElem?_getD,List.getElem?_take,
        if_pos (by omega : i-k < w),List.getElem?_drop]
      rw [show k+(i-k) = i by omega]
    rw [hget,hi] at hb
    exact Bool.noConfusion hb
  -- the register is still clear when the burst begins, and no later clock can clear it again
  intro hz
  rw [hsplit,feed_append,feed_append,feed_clear poly _ hpre,clock_zero,feed_clear poly _ hpost,
    feed_eq_clock poly _ (by simp),BitVec.zero_xor] at hz
  exact hmid (clock_eq_zero hp _ (clock_eq_zero hp _ hz))

variable {poly} in
/-- Two bit strings of one length that differ, but only within `w` consecutive
positions, leave the register in different states. -/
theorem feed_ne_of_burst (hp : poly.getLsbD (w-1) = true) {as bs : List Bool}
    (hl : as.length = bs.length) (hne : as ≠ bs) (k : ℕ)
    (hk : ∀ i,as.getD i false ≠ bs.getD i false → k ≤ i ∧ i < k+w) (x : BitVec w) :
    feed poly as x ≠ feed poly bs x := by
  have hd : ∀ i,(List.zipWith xor as bs).getD i false =
      (as.getD i false ^^ bs.getD i false) := by
    intro i
    by_cases hi : i < as.length
    · have hi' : i < bs.length := by omega
      simp [hi,hi']
    · have ha : as.length ≤ i := by omega
      have hb : bs.length ≤ i := by omega
      simp [ha,hb]
  have hdiff : ∃ i,(List.zipWith xor as bs).getD i false = true := by
    by_contra hn
    push Not at hn
    apply hne
    apply List.ext_getElem hl
    intro i hi hi'
    have := hn i
    rw [hd] at this
    simpa [hi,hi'] using this
  intro he
  apply feed_burst_ne_zero hp (List.zipWith xor as bs) k _ hdiff
  · have hx := feed_xor poly as bs hl x x
    rw [he,BitVec.xor_self,BitVec.xor_self] at hx
    exact hx.symm
  · intro i hi
    rw [hd] at hi
    exact hk i (by simpa using hi)

end FlightSoftware.ShiftRegister
