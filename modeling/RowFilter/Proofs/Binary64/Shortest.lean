import RowFilter.Proofs.Binary64.Rounding

/-!
# The shortest decimal reads back

The search for the shortest decimal tests with natural numbers which points of
a grid are in the interval of a number. It comes down to a grid that is finer
than half the interval, where the exact value has a neighbour in it, and so it
never ends with nothing.

* `contains_iff`: the test says what it is meant to;
* `gridPoint_of_fine`: a fine grid has a point in the interval;
* `search_interval`: the grids that are tried come down to a fine one;
* `shortest_holds`: the decimal is one of the reals that round to the number.
-/

namespace RowFilter.Binary64

variable {i : Interval} {x : Binary64}

theorem onGrid_spec (unit p : ℤ) (a : Nat) :
    0 < (onGrid unit p a).2 ∧
      ((onGrid unit p a).1 : ℚ) = a * 2 ^ unit / 10 ^ p * (onGrid unit p a).2 := by
  have ten (n : Nat) : Nat.pow 10 n = 10 ^ n := rfl
  simp only [onGrid, Nat.shiftLeft_eq, ten]
  refine ⟨by positivity, ?_⟩
  rw [zpow_eq_div two_ne_zero unit, zpow_eq_div (by norm_num : (10 : ℚ) ≠ 0) p]
  push_cast
  field_simp

theorem onGrid_le_iff (unit p : ℤ) (a k : Nat) :
    ((onGrid unit p a).1 ≤ k * (onGrid unit p a).2 ↔ a * 2 ^ unit ≤ (k * 10 ^ p : ℚ)) ∧
      (k * (onGrid unit p a).2 ≤ (onGrid unit p a).1 ↔ (k * 10 ^ p : ℚ) ≤ a * 2 ^ unit) := by
  obtain ⟨pos, exact⟩ := onGrid_spec unit p a
  have posQ : (0 : ℚ) < (onGrid unit p a).2 := by exact_mod_cast pos
  have grid : (0 : ℚ) < 10 ^ p := by positivity
  constructor
  · rw [← div_le_iff₀ grid, ← mul_le_mul_iff_left₀ posQ, ← exact]
    exact_mod_cast Iff.rfl
  · rw [← le_div_iff₀ grid, ← mul_le_mul_iff_left₀ posQ, ← exact]
    exact_mod_cast Iff.rfl

theorem contains_iff (i : Interval) (p : ℤ) (k : Nat) :
    i.contains p k = true ↔ i.Holds (k * 10 ^ p) := by
  obtain ⟨lowLe, leLow⟩ := onGrid_le_iff i.unit p i.low k
  obtain ⟨highLe, leHigh⟩ := onGrid_le_iff i.unit p i.high k
  have same : (onGrid i.unit p i.high).2 = (onGrid i.unit p i.low).2 := rfl
  rw [same] at highLe leHigh
  have lt : (onGrid i.unit p i.low).1 < k * (onGrid i.unit p i.low).2 ↔
      i.low * 2 ^ i.unit < (k * 10 ^ p : ℚ) := by
    rw [← not_le, leLow, not_le]
  have gt : k * (onGrid i.unit p i.low).2 < (onGrid i.unit p i.high).1 ↔
      (k * 10 ^ p : ℚ) < i.high * 2 ^ i.unit := by
    rw [← not_le, highLe, not_le]
  unfold Interval.contains Interval.Holds
  by_cases closed : i.closed = true
  · simp [closed, lowLe, leHigh]
  · simp [closed, lt, gt]

/-- The point taken from a grid is one of the interval. -/
theorem gridPoint_contains {tie : Tie} {p : ℤ} {k : Nat} (found : i.gridPoint tie p = some k) :
    i.contains p k = true := by
  simp only [Interval.gridPoint] at found
  split at found
  · next below above =>
    obtain rfl := Option.some.inj found
    split <;> assumption
  · next below _ => exact Option.some.inj found ▸ below
  · next _ above => exact Option.some.inj found ▸ above
  · cases found

/-- A grid has a point in the interval if one of the neighbours of the exact value is in it. -/
theorem gridPoint_ne_none {tie : Tie} {p : ℤ} (k : Nat)
    (neighbour : k = (onGrid i.unit p i.exact).1 / (onGrid i.unit p i.exact).2 ∨
      k = (onGrid i.unit p i.exact).1 / (onGrid i.unit p i.exact).2 + 1)
    (holds : i.contains p k = true) : i.gridPoint tie p ≠ none := by
  simp only [Interval.gridPoint]
  split
  · simp
  · simp
  · simp
  · next below above =>
    rcases neighbour with rfl | rfl
    · rw [holds] at below
      cases below
    · rw [holds] at above
      cases above

/-- The search ends with a point of the interval, if one of its grids has one. -/
theorem search_holds {tie : Tie} (steps fuel : Nat) (p : ℤ) (inside : steps < fuel)
    (fine : i.gridPoint tie (p - steps) ≠ none) :
    i.contains (i.search tie fuel p).exponent (i.search tie fuel p).coefficient = true := by
  induction fuel generalizing steps p with
  | zero => omega
  | succ fuel ih =>
    simp only [Interval.search]
    split
    · next k found => exact gridPoint_contains found
    · next missed =>
      cases steps with
      | zero => simp [missed] at fine
      | succ steps =>
        apply ih steps (p - 1) (by omega)
        rwa [show p - 1 - steps = p - (steps + 1 : Nat) by omega]

/-- The reals strictly between the ends are in an interval of either kind. -/
theorem Interval.Holds.of_between {r : ℚ} (above : i.low * 2 ^ i.unit < r)
    (below : r < i.high * 2 ^ i.unit) : i.Holds r := by
  unfold Holds
  split
  · exact ⟨above.le, below.le⟩
  · exact ⟨above, below⟩

/-- A grid finer than half an interval has a point in it next to the exact value. -/
theorem gridPoint_of_fine {tie : Tie} {p : ℤ} (low : i.low < i.exact) (high : i.exact + 2 ≤ i.high)
    (fine : (10 : ℚ) ^ p ≤ 2 * 2 ^ i.unit) : i.gridPoint tie p ≠ none := by
  obtain ⟨pos, -⟩ := onGrid_spec i.unit p i.exact
  generalize below : (onGrid i.unit p i.exact).1 / (onGrid i.unit p i.exact).2 = k at *
  have atMost : (k * 10 ^ p : ℚ) ≤ i.exact * 2 ^ i.unit := by
    rw [← (onGrid_le_iff i.unit p i.exact k).2, ← below]
    exact Nat.div_mul_le_self ..
  have past : i.exact * 2 ^ i.unit < ((k + 1 : Nat) * 10 ^ p : ℚ) := by
    rw [← not_le, ← (onGrid_le_iff i.unit p i.exact (k + 1)).2, ← below, not_le]
    exact Nat.lt_mul_of_div_lt (Nat.lt_succ_self _) pos
  have unit : (0 : ℚ) < 2 ^ i.unit := by positivity
  have lowQ : ((i.low + 1 : Nat) * 2 ^ i.unit : ℚ) ≤ i.exact * 2 ^ i.unit := by
    gcongr
    exact low
  have highQ : ((i.exact + 2 : Nat) * 2 ^ i.unit : ℚ) ≤ i.high * 2 ^ i.unit := by gcongr
  push_cast at past lowQ highQ
  by_cases reaches : i.low * 2 ^ i.unit < (k * 10 ^ p : ℚ)
  · refine gridPoint_ne_none k (.inl below.symm) ((contains_iff ..).2 (.of_between reaches ?_))
    linarith
  · refine gridPoint_ne_none (k + 1) (.inr (by rw [below]))
      ((contains_iff ..).2 (.of_between ?_ ?_))
    · push_cast
      linarith
    · push_cast
      linarith

/-- Powers of ten under powers of two, by `10 ^ 3 < 2 ^ 10` and `2 ^ 93 < 10 ^ 28`. -/
theorem ten_zpow_le {p t : ℤ} (up : 10 * p ≤ 3 * t) (down : 93 * p ≤ 28 * t) :
    (10 : ℚ) ^ p ≤ 2 ^ t := by
  rcases le_total 0 p with whole | fraction
  · rw [← pow_le_pow_iff_left₀ (by positivity) (by positivity) three_ne_zero]
    calc ((10 : ℚ) ^ p) ^ 3 = (10 ^ 3) ^ p := by rw [← zpow_natCast, ← zpow_natCast, zpow_comm]
      _ ≤ (2 ^ 10) ^ p := zpow_le_zpow_left₀ whole (by norm_num) (by norm_num)
      _ = 2 ^ (10 * p) := by rw [zpow_mul]; rfl
      _ ≤ 2 ^ (3 * t) := two_zpow_le up
      _ = (2 ^ t) ^ 3 := by rw [mul_comm, zpow_mul]; rfl
  · rw [← pow_le_pow_iff_left₀ (by positivity) (by positivity) (by norm_num : 28 ≠ 0)]
    calc ((10 : ℚ) ^ p) ^ 28 = (10 ^ 28) ^ p := by rw [← zpow_natCast, ← zpow_natCast, zpow_comm]
      _ = ((10 ^ 28) ^ (-p))⁻¹ := by rw [zpow_neg, inv_inv]
      _ ≤ ((2 ^ 93) ^ (-p))⁻¹ :=
        inv_anti₀ (by positivity) (zpow_le_zpow_left₀ (by omega) (by norm_num) (by norm_num))
      _ = (2 ^ 93) ^ p := by rw [zpow_neg, inv_inv]
      _ = 2 ^ (93 * p) := by rw [zpow_mul]; rfl
      _ ≤ 2 ^ (28 * t) := two_zpow_le down
      _ = (2 ^ t) ^ 28 := by rw [mul_comm, zpow_mul]; rfl

/-- The search of a finite number ends in its interval. -/
theorem search_interval (tie : Tie) (finite : x.isFinite = true) (nonzero : x.isZero = false) :
    x.interval.contains (x.interval.search tie 22 x.coarsest).exponent
      (x.interval.search tie 22 x.coarsest).coefficient = true := by
  have some := significand_pos nonzero
  have low : x.interval.low < x.interval.exact := by
    simp only [interval]
    split <;> omega
  have bits : x.significand.log2 < 53 :=
    (Nat.log2_lt some.ne').2 (x.significand_lt.trans_eq (by decide))
  have least := x.scale_least
  have most := scale_most finite
  refine search_holds 21 22 x.coarsest (by decide) (gridPoint_of_fine low le_rfl ?_)
  calc (10 : ℚ) ^ (x.coarsest - (21 : Nat)) ≤ 2 ^ (x.scale - 1) := by
        apply ten_zpow_le <;> simp only [coarsest] <;> omega
    _ = 2 * 2 ^ x.interval.unit := by
      rw [unit_interval, zpow_sub₀ two_ne_zero]
      ring

def Decimal.value (d : Decimal) : ℚ := d.coefficient * 10 ^ d.exponent

theorem Decimal.value_eq (d : Decimal) :
    d.value = (d.coefficient * Nat.pow 10 d.exponent.toNat : Nat) /
      (Nat.pow 10 (-d.exponent).toNat : Nat) := by
  have ten (n : Nat) : Nat.pow 10 n = 10 ^ n := rfl
  rw [value, zpow_eq_div (by norm_num), ten, ten]
  push_cast
  ring

@[simp] theorem Decimal.value_trim (fuel : Nat) (d : Decimal) : (d.trim fuel).value = d.value := by
  induction fuel generalizing d with
  | zero => rfl
  | succ fuel ih =>
    rw [trim]
    split
    · next trailing =>
      rw [ih]
      simp only [Bool.and_eq_true, beq_iff_eq] at trailing
      have tens : d.coefficient / 10 * 10 = d.coefficient :=
        Nat.div_mul_cancel (Nat.dvd_of_mod_eq_zero trailing.2)
      simp only [value]
      rw [zpow_add_one₀ (by norm_num)]
      nth_rewrite 2 [← tens]
      push_cast
      ring
    · rfl

/-- **The shortest decimal of a number is one of the reals that round to it.** -/
theorem shortest_holds (tie : Tie) (finite : x.isFinite = true) (nonzero : x.isZero = false) :
    x.interval.Holds (x.shortest tie).value := by
  rw [shortest, Decimal.value_trim]
  exact (contains_iff ..).1 (search_interval tie finite nonzero)

theorem Interval.Holds.pos {r : ℚ} (h : x.interval.Holds r) (nonzero : x.isZero = false) : 0 < r := by
  obtain ⟨below, -⟩ := h.near nonzero
  have : (1 : ℚ) ≤ x.significand := by exact_mod_cast significand_pos nonzero
  have quotient : 0 < r / 2 ^ x.scale := by linarith
  exact (div_pos_iff_of_pos_right (by positivity)).1 quotient

theorem shortest_ne_zero (tie : Tie) (finite : x.isFinite = true) (nonzero : x.isZero = false) :
    (x.shortest tie).coefficient ≠ 0 := by
  intro none
  have positive := (shortest_holds tie finite nonzero).pos nonzero
  simp [Decimal.value, none] at positive

/-- The number nearest to the shortest decimal of a number is that number. -/
theorem nearest_shortest (tie : Tie) (finite : x.isFinite = true) (nonzero : x.isZero = false) :
    nearest ((x.shortest tie).coefficient * Nat.pow 10 (x.shortest tie).exponent.toNat)
      (Nat.pow 10 (-(x.shortest tie).exponent).toNat) = x.magnitude := by
  have holds := shortest_holds tie finite nonzero
  rw [Decimal.value_eq] at holds
  exact nearest_of_holds finite nonzero (Nat.pow_pos (by decide)) holds

end RowFilter.Binary64
