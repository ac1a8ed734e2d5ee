import Mathlib.Algebra.Order.Field.Power
import Mathlib.Algebra.Order.Field.Rat
import Mathlib.Tactic.FieldSimp
import Mathlib.Tactic.Linarith
import Mathlib.Tactic.NormNum
import Mathlib.Tactic.Positivity
import Mathlib.Tactic.Ring
import RowFilter.Binary64.Shortest

/-! Every real in the interval of a finite number is rounded to that number. The interval reaches to
the middle between two neighbours, where the even one of the two wins; below a power of two the
neighbours lie closer, and a real there is rounded at a lower exponent and carried up. -/

namespace RowFilter.Binary64

/-! ## Rounding quotients -/

/-- A natural is the rounded quotient if it is at most a half away from it, and even if it is just
as far. -/
theorem roundEven_eq_of_between {n d m : Nat} (pos : 0 < d) (low : 2 * (m * d) ≤ 2 * n + d)
    (high : 2 * n ≤ 2 * (m * d) + d)
    (tie : 2 * (m * d) = 2 * n + d ∨ 2 * n = 2 * (m * d) + d → m % 2 = 0) : roundEven n d = m := by
  have split : n / d * d + n % d = n := Nat.div_add_mod' n d
  have small : n % d < d := Nat.mod_lt n pos
  have upper : m ≤ n / d + 1 := by
    by_contra far
    have : (n / d + 2) * d ≤ m * d := Nat.mul_le_mul_right d (by omega)
    rw [Nat.add_mul] at this
    omega
  have lower : n / d ≤ m := by
    by_contra far
    have : (m + 1) * d ≤ n / d * d := Nat.mul_le_mul_right d (by omega)
    rw [Nat.add_mul] at this
    omega
  unfold roundEven
  rcases Nat.lt_or_eq_of_le lower with above | exact
  · obtain rfl : m = n / d + 1 := by omega
    rw [Nat.add_mul, Nat.one_mul] at low high tie
    by_cases half : 2 * (n % d) = d
    · have := tie (by omega)
      have : (n / d) % 2 = 1 := by omega
      simp [half, this]
    · have : d < 2 * (n % d) := by omega
      simp [this]
  · subst exact
    have : ¬ d < 2 * (n % d) := by omega
    by_cases half : 2 * (n % d) = d
    · have := tie (by omega)
      simp [half, this]
    · simp [this, half]

theorem roundEven_eq {n d m : Nat} {q : ℚ} (pos : 0 < d) (quotient : (n : ℚ) = q * d)
    (low : (m : ℚ) - 1 / 2 ≤ q) (high : q ≤ m + 1 / 2)
    (tie : q = m - 1 / 2 ∨ q = m + 1 / 2 → m % 2 = 0) : roundEven n d = m := by
  have posQ : (0 : ℚ) < d := by exact_mod_cast pos
  have scaled {a b : ℚ} (le : a ≤ b) : 2 * a * d ≤ 2 * b * d := by gcongr
  have lowQ := scaled low
  have highQ := scaled high
  apply roundEven_eq_of_between pos
  · have : (2 * (m * d) : ℚ) ≤ 2 * n + d := by rw [quotient]; linarith
    exact_mod_cast this
  · have : (2 * n : ℚ) ≤ 2 * (m * d) + d := by rw [quotient]; linarith
    exact_mod_cast this
  · intro half
    apply tie
    have cancel {a b : ℚ} (same : 2 * a * d = 2 * b * d) : a = b := by
      have := mul_right_cancel₀ posQ.ne' same
      linarith
    refine half.imp (fun half => cancel ?_) (fun half => cancel ?_)
    · have : (2 * (m * d) : ℚ) = 2 * n + d := by exact_mod_cast half
      rw [quotient] at this
      linarith
    · have : (2 * n : ℚ) = 2 * (m * d) + d := by exact_mod_cast half
      rw [quotient] at this
      linarith

theorem zpow_eq_div {b : ℚ} (nonzero : b ≠ 0) (z : ℤ) : b ^ z = b ^ z.toNat / b ^ (-z).toNat := by
  rw [← zpow_natCast, ← zpow_natCast, ← zpow_sub₀ nonzero]
  congr 1
  omega

theorem two_zpow_le {a b : ℤ} (le : a ≤ b) : (2 : ℚ) ^ a ≤ 2 ^ b :=
  zpow_le_zpow_right₀ (by norm_num) le

theorem overPower_spec (num : Nat) {den : Nat} (pos : 0 < den) (e : ℤ) :
    0 < (overPower num den e).2 ∧
      ((overPower num den e).1 : ℚ) = num / den / 2 ^ e * (overPower num den e).2 := by
  have posQ : (0 : ℚ) < den := by exact_mod_cast pos
  simp only [overPower, Nat.shiftLeft_eq]
  refine ⟨by positivity, ?_⟩
  rw [zpow_eq_div two_ne_zero e]
  push_cast
  field_simp

theorem log2_between {n : Nat} (some : 0 < n) :
    (2 : ℚ) ^ (n.log2 : ℤ) ≤ n ∧ (n : ℚ) < 2 ^ ((n.log2 : ℤ) + 1) := by
  have low : 2 ^ n.log2 ≤ n := Nat.log2_self_le some.ne'
  have high : n < 2 ^ (n.log2 + 1) := Nat.lt_log2_self
  constructor
  · rw [zpow_natCast]
    exact_mod_cast low
  · rw [← Nat.cast_succ, zpow_natCast]
    exact_mod_cast high

/-- So does a quotient of naturals, two binary places apart. -/
theorem quotient_between {num den : Nat} (some : 0 < num) (pos : 0 < den) :
    (2 : ℚ) ^ ((num.log2 : ℤ) - den.log2 - 1) < num / den ∧
      (num / den : ℚ) < 2 ^ ((num.log2 : ℤ) - den.log2 + 1) := by
  have posQ : (0 : ℚ) < den := by exact_mod_cast pos
  obtain ⟨numLow, numHigh⟩ := log2_between some
  obtain ⟨denLow, denHigh⟩ := log2_between pos
  constructor
  · rw [sub_sub, zpow_sub₀ two_ne_zero, div_lt_div_iff₀ (by positivity) posQ]
    calc (2 : ℚ) ^ (num.log2 : ℤ) * den < 2 ^ (num.log2 : ℤ) * 2 ^ ((den.log2 : ℤ) + 1) := by gcongr
      _ ≤ num * 2 ^ ((den.log2 : ℤ) + 1) := by gcongr
  · rw [sub_add_eq_add_sub, zpow_sub₀ two_ne_zero, div_lt_div_iff₀ posQ (by positivity)]
    calc (num : ℚ) * 2 ^ (den.log2 : ℤ) < 2 ^ ((num.log2 : ℤ) + 1) * 2 ^ (den.log2 : ℤ) := by gcongr
      _ ≤ 2 ^ ((num.log2 : ℤ) + 1) * den := by gcongr

/-- A quotient is rounded where it has fifty-three bits, or at the least exponent if it has fewer. -/
theorem exponentOf_spec {num den : Nat} (some : 0 < num) (pos : 0 < den) :
    let e := exponentOf num den
    (-1074 : ℤ) ≤ e ∧ (num / den : ℚ) < 2 ^ (e + 53) ∧
      (e = -1074 ∨ (2 : ℚ) ^ (e + 52) ≤ num / den) := by
  obtain ⟨low, high⟩ := quotient_between some pos
  obtain ⟨posOver, ratio⟩ := overPower_spec num pos ((num.log2 : ℤ) - den.log2 - 52)
  generalize begins : (num.log2 : ℤ) - den.log2 - 52 = e₀ at posOver ratio
  have posQ : (0 : ℚ) < (overPower num den e₀).2 := by exact_mod_cast posOver
  have bits : (overPower num den e₀).1 / (overPower num den e₀).2 < hidden ↔
      (num / den : ℚ) < 2 ^ (e₀ + 52) := by
    rw [Nat.div_lt_iff_lt_mul posOver, zpow_add₀ two_ne_zero, mul_comm ((2 : ℚ) ^ e₀),
      ← div_lt_iff₀ (by positivity), ← mul_lt_mul_iff_left₀ posQ, ← ratio]
    norm_num [hidden]
    exact_mod_cast Iff.rfl
  have chosen : exponentOf num den =
      max (if (num / den : ℚ) < 2 ^ (e₀ + 52) then e₀ - 1 else e₀) (-1074) := by
    simp only [exponentOf, begins, bits]
  intro e
  have defined : e = max (if (num / den : ℚ) < 2 ^ (e₀ + 52) then e₀ - 1 else e₀) (-1074) := chosen
  split at defined
  · next short =>
    refine ⟨by omega, lt_of_lt_of_le short (two_zpow_le (by omega)), ?_⟩
    by_cases least : e = -1074
    · exact .inl least
    · exact .inr (le_of_lt (lt_of_le_of_lt (two_zpow_le (by omega)) low))
  · next full =>
    refine ⟨by omega, lt_of_lt_of_le high (two_zpow_le (by omega)), ?_⟩
    by_cases least : e = -1074
    · exact .inl least
    · exact .inr (le_trans (two_zpow_le (by omega)) (not_lt.1 full))

/-! ## The parts of a number -/

variable {x : Binary64}

theorem significand_lt (x : Binary64) : x.significand < 2 * hidden := by
  have := Nat.mod_lt x.magnitude (show 0 < hidden by decide)
  unfold significand exponentField
  split
  · next small =>
    have := (Nat.div_eq_zero_iff_lt (show 0 < hidden by decide)).1 small
    omega
  · omega

theorem significand_pos (nonzero : x.isZero = false) : 0 < x.significand := by
  have some : x.magnitude ≠ 0 := by simpa [isZero] using nonzero
  have : 0 < hidden := by decide
  unfold significand
  split <;> omega

theorem scale_least (x : Binary64) : -1074 ≤ x.scale := by
  unfold scale
  omega

theorem scale_most (finite : x.isFinite = true) : x.scale ≤ 971 := by
  have below : x.magnitude < 2047 * hidden := of_decide_eq_true finite
  have : x.exponentField < 2047 := Nat.div_lt_of_lt_mul (Nat.mul_comm .. ▸ below)
  unfold scale
  omega

/-- Above the least scale a number has its hidden bit. -/
theorem hidden_le_significand (above : -1074 < x.scale) : hidden ≤ x.significand := by
  unfold scale at above
  unfold significand
  split
  · omega
  · exact Nat.le_add_right ..

theorem one_lt_exponentField_iff : 1 < x.exponentField ↔ -1074 < x.scale := by
  unfold scale
  omega

/-- The magnitude bits are the significand on top of the scale. -/
theorem magnitude_eq (x : Binary64) :
    x.magnitude = (x.scale + 1074).toNat * hidden + x.significand := by
  have split : x.exponentField * hidden + x.magnitude % hidden = x.magnitude :=
    Nat.div_add_mod' x.magnitude hidden
  unfold significand scale
  by_cases small : x.exponentField = 0
  · simp [small]
  · obtain ⟨k, field⟩ := Nat.exists_eq_succ_of_ne_zero small
    have steps : ((max x.exponentField 1 : Nat) - 1075 + 1074 : ℤ).toNat = k := by omega
    rw [if_neg small, steps]
    rw [field, Nat.succ_mul] at split
    omega

/-! ## Intervals -/

/-- The reals of an interval. -/
def Interval.Holds (i : Interval) (r : ℚ) : Prop :=
  if i.closed then i.low * 2 ^ i.unit ≤ r ∧ r ≤ i.high * 2 ^ i.unit
  else i.low * 2 ^ i.unit < r ∧ r < i.high * 2 ^ i.unit

theorem Interval.Holds.le {i : Interval} {r : ℚ} (h : i.Holds r) :
    i.low * 2 ^ i.unit ≤ r ∧ r ≤ i.high * 2 ^ i.unit := by
  unfold Holds at h
  split at h
  · exact h
  · exact ⟨h.1.le, h.2.le⟩

theorem Interval.Holds.closed {i : Interval} {r : ℚ} (h : i.Holds r)
    (atEnd : r = i.low * 2 ^ i.unit ∨ r = i.high * 2 ^ i.unit) : i.closed = true := by
  unfold Holds at h
  split at h
  · assumption
  · rcases atEnd with rfl | rfl
    · exact absurd h.1 (lt_irrefl _)
    · exact absurd h.2 (lt_irrefl _)

/-- The scale of the interval of a number is a quarter of that of the number. -/
theorem unit_interval (x : Binary64) : (2 : ℚ) ^ x.interval.unit = 2 ^ x.scale / 4 := by
  have unit : x.interval.unit = x.scale - 2 := rfl
  rw [unit, zpow_sub₀ two_ne_zero]
  norm_num

theorem low_interval (nonzero : x.isZero = false) :
    (x.interval.low : ℚ) =
      if x.significand = hidden ∧ -1074 < x.scale then (4 * x.significand - 1 : ℚ)
      else 4 * x.significand - 2 := by
  have some := significand_pos nonzero
  have low : x.interval.low = if x.significand = hidden ∧ -1074 < x.scale
      then 4 * x.significand - 1 else 4 * x.significand - 2 := by
    simp only [interval, Bool.and_eq_true, beq_iff_eq, decide_eq_true_eq, one_lt_exponentField_iff]
  rw [low]
  split
  · rw [Nat.cast_sub (by omega)]
    norm_num
  · rw [Nat.cast_sub (by omega)]
    norm_num

theorem high_interval (x : Binary64) : (x.interval.high : ℚ) = 4 * x.significand + 2 := by
  simp [interval]

/-- A real of the interval of a number is at most half a step of the significand away, and less than
that if the significand is odd; below a power of two it is at most a quarter away. -/
theorem Interval.Holds.near {r : ℚ} (h : x.interval.Holds r) (nonzero : x.isZero = false) :
    (x.significand : ℚ) - 1 / 2 ≤ r / 2 ^ x.scale ∧ r / 2 ^ x.scale ≤ x.significand + 1 / 2 ∧
      (r / 2 ^ x.scale = x.significand - 1 / 2 ∨ r / 2 ^ x.scale = x.significand + 1 / 2 →
        x.significand % 2 = 0) ∧
      (x.significand = hidden → -1074 < x.scale → (x.significand : ℚ) - 1 / 4 ≤ r / 2 ^ x.scale) := by
  have pos : (0 : ℚ) < 2 ^ x.scale := by positivity
  obtain ⟨q, rfl⟩ : ∃ q, r = q * 2 ^ x.scale := ⟨r / 2 ^ x.scale, by field_simp⟩
  rw [mul_div_cancel_right₀ q pos.ne']
  have cancel {a : ℚ} : a * 2 ^ x.interval.unit = a / 4 * 2 ^ x.scale := by
    rw [unit_interval]
    ring
  obtain ⟨below, above⟩ := h.le
  have even := h.closed
  rw [cancel, mul_le_mul_iff_left₀ pos] at below above
  simp only [cancel, mul_left_inj' pos.ne', low_interval nonzero, high_interval] at even below above
  have closed : x.interval.closed = true → x.significand % 2 = 0 := by simp [interval]
  split at below
  · next power =>
    simp only [if_pos power] at even
    refine ⟨by linarith, by linarith, ?_, fun _ _ => by linarith⟩
    rintro (half | half)
    · linarith
    · exact closed (even (.inr (by linarith)))
  · next power =>
    simp only [if_neg power] at even
    refine ⟨by linarith, by linarith, ?_, fun least above => absurd ⟨least, above⟩ power⟩
    rintro (half | half)
    · exact closed (even (.inl (by linarith)))
    · exact closed (even (.inr (by linarith)))

/-! ## Reading back -/

theorem hidden_cast : (hidden : ℚ) = 2 ^ (52 : ℤ) := by norm_num [hidden]

/-- A real of the interval of a number is rounded at the scale of the number, unless it is less than
a power of two which the number is equal to. -/
theorem Interval.Holds.exponentOf {num den : Nat} (h : x.interval.Holds (num / den))
    (nonzero : x.isZero = false) (some : 0 < num) (pos : 0 < den) :
    Binary64.exponentOf num den = x.scale ∨
      Binary64.exponentOf num den + 1 = x.scale ∧ x.significand = hidden ∧
        (hidden : ℚ) - 1 / 4 ≤ num / den / 2 ^ x.scale ∧ (num / den / 2 ^ x.scale : ℚ) < hidden := by
  obtain ⟨least, lt, le⟩ := exponentOf_spec some pos
  obtain ⟨below, above, -, power⟩ := h.near nonzero
  generalize Binary64.exponentOf num den = e at *
  have scale : (0 : ℚ) < 2 ^ x.scale := by positivity
  have bounds := x.scale_least
  rcases lt_trichotomy e x.scale with lower | same | higher
  · right
    have less : (num / den / 2 ^ x.scale : ℚ) < hidden := by
      rw [div_lt_iff₀ scale, hidden_cast, ← zpow_add₀ two_ne_zero]
      exact lt_of_lt_of_le lt (two_zpow_le (by omega))
    have exact : x.significand = hidden := by
      have : (x.significand : ℚ) < hidden + 1 := by linarith
      have : x.significand < hidden + 1 := by exact_mod_cast this
      have := hidden_le_significand (by omega : -1074 < x.scale)
      omega
    have near := power exact (by omega)
    rw [exact] at near
    refine ⟨?_, exact, near, less⟩
    have reach : (2 : ℚ) ^ (51 + x.scale) ≤ num / den := by
      rw [zpow_add₀ two_ne_zero, ← le_div_iff₀ scale]
      refine le_trans ?_ near
      norm_num [hidden]
    have := (zpow_lt_zpow_iff_right₀ (by norm_num : (1 : ℚ) < 2)).1 (lt_of_le_of_lt reach lt)
    omega
  · exact .inl same
  · exfalso
    have full := le.resolve_left (by omega)
    have reach : (2 * hidden : ℚ) ≤ num / den / 2 ^ x.scale := by
      rw [le_div_iff₀ scale, hidden_cast, ← zpow_one_add₀ two_ne_zero, ← zpow_add₀ two_ne_zero]
      exact le_trans (two_zpow_le (by omega)) full
    have : (2 * hidden : ℚ) < x.significand + 1 := by linarith
    have : 2 * hidden < x.significand + 1 := by exact_mod_cast this
    have := x.significand_lt
    omega

theorem nearest_eq {num den : Nat} (some : 0 < num) {n : Nat}
    (rounded : roundEven (overPower num den (exponentOf num den)).1
      (overPower num den (exponentOf num den)).2 = n) :
    nearest num den = min ((exponentOf num den + 1074).toNat * hidden + n) infinityBits := by
  rw [← rounded, nearest, if_neg some.ne']

/-- **A real in the interval of a number is read as that number.** -/
theorem nearest_of_holds {num den : Nat} (finite : x.isFinite = true) (nonzero : x.isZero = false)
    (pos : 0 < den) (h : x.interval.Holds (num / den)) : nearest num den = x.magnitude := by
  obtain ⟨below, above, even, -⟩ := h.near nonzero
  have some : 0 < num := by
    by_contra none
    obtain rfl : num = 0 := by omega
    have : (1 : ℚ) ≤ x.significand := by exact_mod_cast significand_pos nonzero
    simp only [Nat.cast_zero, zero_div] at below
    linarith
  obtain ⟨posOver, ratio⟩ := overPower_spec num pos (exponentOf num den)
  have fits : x.magnitude < infinityBits := of_decide_eq_true finite
  have fields := x.magnitude_eq
  rcases h.exponentOf nonzero some pos with same | ⟨lower, exact, near, less⟩
  · rw [nearest_eq some (roundEven_eq posOver ratio (m := x.significand) ?_ ?_ ?_), same]
    · omega
    · rwa [same]
    · rwa [same]
    · rwa [same]
  -- one exponent lower the power of two has one bit more
  · have double : (num / den / 2 ^ exponentOf num den : ℚ) = 2 * (num / den / 2 ^ x.scale) := by
      rw [← lower, zpow_add_one₀ two_ne_zero]
      field_simp
    rw [double] at ratio
    rw [nearest_eq some (roundEven_eq posOver ratio (m := 2 * hidden) ?_ ?_ ?_)]
    · have := x.scale_least
      have step : (x.scale + 1074).toNat = (exponentOf num den + 1074).toNat + 1 := by
        have := (exponentOf_spec some pos).1
        omega
      rw [step, exact, Nat.add_mul, Nat.one_mul, Nat.add_assoc, ← Nat.two_mul] at fields
      rw [← fields, Nat.min_eq_left fits.le]
    · push_cast
      linarith
    · push_cast
      linarith
    · exact fun _ => Nat.mul_mod_right 2 hidden

end RowFilter.Binary64
