import ChatHub.Base.Binary64

namespace ChatHub

/-!
# Integers with 53 significant bits

The integers that a `double` represents are those of at most 53 bits times a
power of two.  Every other integer is moved by the conversion.  Numbers that
are near enough to such an integer are rounded to it, and the seventeen digits
that `%1.17g` prints are near enough, so what a conversion of a 64-bit integer
gives survives printing and reading.
-/

namespace Binary64

/-- The integer has at most 53 significant bits. -/
def Representable (z : ℤ) : Prop :=
  Exists fun m : ℤ => Exists fun e : ℕ => |m| < 2 ^ 53 ∧ z = m * 2 ^ e

/-! ## Conversion -/

/-- A number with few significant bits is a multiple of every smaller place. -/
private theorem multiple_of_place {m : ℤ} {e : ℕ} {place : ℤ} (small : place ≤ e) :
    Exists fun n : ℤ => ((m * 2 ^ e : ℤ) : ℚ) / 2 ^ place = n := by
  refine ⟨m * 2 ^ (e - place).toNat, ?_⟩
  have exponent : ((e - place).toNat : ℤ) = e - place := Int.toNat_of_nonneg (by omega)
  push_cast
  rw [← zpow_natCast, ← zpow_natCast, exponent, zpow_sub₀ (by norm_num), mul_div_assoc]

theorem log_lt_of_representable {z m : ℤ} {e : ℕ} (nonzero : z ≠ 0) (bound : |m| < 2 ^ 53)
    (same : z = m * 2 ^ e) : Int.log 2 |(z : ℚ)| < 53 + e := by
  have positive : 0 < |(z : ℚ)| := abs_pos.mpr (by exact_mod_cast nonzero)
  apply (Int.lt_zpow_iff_log_lt (by decide) positive).mp
  have boundCast : |(m : ℚ)| < 2 ^ 53 := by exact_mod_cast bound
  have power : (0 : ℚ) < 2 ^ e := by positivity
  rw [same]
  push_cast
  rw [abs_mul, abs_of_pos power, zpow_add₀ (by norm_num), zpow_natCast]
  exact mul_lt_mul_of_pos_right (by exact_mod_cast boundCast) power

theorem representable_of_le {m : ℤ} (bound : |m| ≤ 2 ^ 53) (e : ℕ) : Representable (m * 2 ^ e) := by
  by_cases below : |m| < 2 ^ 53
  · exact ⟨m, e, below, rfl⟩
  · have extreme : |m| = 2 ^ 53 := le_antisymm bound (not_lt.mp below)
    rcases (abs_eq (by norm_num : (0 : ℤ) ≤ 2 ^ 53)).mp extreme with plus | minus
    · exact ⟨2 ^ 52, e + 1, by norm_num, by rw [plus, pow_succ]; ring⟩
    · exact ⟨-2 ^ 52, e + 1, by norm_num, by rw [minus, pow_succ]; ring⟩

theorem representable_of_small {z : ℤ} (bound : |z| ≤ 2 ^ 53) : Representable z := by
  have whole := representable_of_le bound 0
  rwa [pow_zero, mul_one] at whole

/-- Rounding to an integer does not pass an integer bound. -/
theorem abs_nearest_le {x : ℚ} (bound : |x| < 2 ^ 53) : |nearest x| ≤ 2 ^ 53 := by
  have near := abs_le.mp (abs_nearest_sub_le x)
  have between := abs_lt.mp bound
  have low : (-(2 ^ 53) - 1 : ℚ) < nearest x := by linarith [near.1, between.1]
  have high : (nearest x : ℚ) < 2 ^ 53 + 1 := by linarith [near.2, between.2]
  have lowInt : -(2 ^ 53) - 1 < nearest x := by exact_mod_cast low
  have highInt : nearest x < 2 ^ 53 + 1 := by exact_mod_cast high
  exact abs_le.mpr ⟨by omega, by omega⟩

/-- An integer of more than 53 bits is rounded to a multiple of a power of two. -/
theorem round_of_large {z : ℤ} (nonzero : z ≠ 0) (large : 53 ≤ Int.log 2 |(z : ℚ)|) :
    Exists fun m : ℤ => Exists fun k : ℕ => (k : ℤ) = Int.log 2 |(z : ℚ)| - 52 ∧
      round (z : ℚ) = ((m * 2 ^ k : ℤ) : ℚ) ∧ |m| ≤ 2 ^ 53 := by
  have positive : 0 < |(z : ℚ)| := abs_pos.mpr (by exact_mod_cast nonzero)
  have place : (((Int.log 2 |(z : ℚ)| - 52).toNat : ℕ) : ℤ) = Int.log 2 |(z : ℚ)| - 52 :=
    Int.toNat_of_nonneg (by omega)
  generalize (Int.log 2 |(z : ℚ)| - 52).toNat = k at place
  refine ⟨nearest ((z : ℚ) / 2 ^ k), k, place, ?_, ?_⟩
  · unfold round precisePlace
    rw [if_neg (by exact_mod_cast nonzero), max_eq_left (by omega), ← place]
    unfold roundAt
    rw [zpow_natCast]
    push_cast
    rfl
  · have above : |(z : ℚ)| < 2 ^ 53 * 2 ^ k := by
      have bound := (Int.lt_zpow_iff_log_lt (by decide : 1 < 2) positive).mpr
        (show Int.log 2 |(z : ℚ)| < ((53 + k : ℕ) : ℤ) by push_cast; omega)
      rw [zpow_natCast, pow_add] at bound
      exact_mod_cast bound
    have power : (0 : ℚ) < 2 ^ k := by positivity
    have scaled : |(z : ℚ) / 2 ^ k| < 2 ^ 53 := by
      rw [abs_div, abs_of_pos power, div_lt_iff₀ power]
      exact above
    exact abs_nearest_le scaled

/-- The conversion gives an integer with few significant bits. -/
theorem round_representable (z : ℤ) : Exists fun n : ℤ => round (z : ℚ) = n ∧ Representable n := by
  by_cases small : |z| ≤ 2 ^ 53
  · exact ⟨z, round_intCast small, representable_of_small small⟩
  · have nonzero : z ≠ 0 := by
      rintro rfl
      exact small (by norm_num)
    have large : 53 ≤ Int.log 2 |(z : ℚ)| := by
      have positive : 0 < |(z : ℚ)| := abs_pos.mpr (by exact_mod_cast nonzero)
      apply (Int.zpow_le_iff_le_log (by decide) positive).mp
      have cast : ((2 ^ 53 : ℤ) : ℚ) < |(z : ℚ)| := by
        rw [← Int.cast_abs]
        exact_mod_cast not_le.mp small
      norm_num at cast ⊢
      linarith
    rcases round_of_large nonzero large with ⟨m, k, _, rounded, bound⟩
    exact ⟨m * 2 ^ k, rounded, representable_of_le bound k⟩

/-- The conversion changes exactly the integers with more significant bits. -/
theorem round_eq_self_iff (z : ℤ) : round (z : ℚ) = z <-> Representable z := by
  constructor
  · intro exact_
    rcases round_representable z with ⟨n, rounded, representable⟩
    have same : (n : ℚ) = z := rounded.symm.trans exact_
    rwa [Int.cast_inj.mp same] at representable
  · rintro ⟨m, e, bound, same⟩
    by_cases zero : z = 0
    · rw [zero, Int.cast_zero, round, if_pos rfl]
    · have log := log_lt_of_representable zero bound same
      unfold round precisePlace
      rw [if_neg (by exact_mod_cast zero)]
      apply roundAt_of_multiple
      rw [same] at log ⊢
      exact multiple_of_place (by omega)

/-! ## Numbers near a double -/

theorem place_bounds {q : ℚ} (nonzero : q ≠ 0) :
    2 ^ 52 * 2 ^ precisePlace q ≤ |q| ∧ |q| < 2 ^ 53 * 2 ^ precisePlace q := by
  have positive : 0 < |q| := abs_pos.mpr nonzero
  have low := Int.zpow_log_le_self (by decide : 1 < 2) positive
  have high := Int.lt_zpow_succ_log_self (by decide : 1 < 2) |q|
  have lowSplit : Int.log 2 |q| = 52 + precisePlace q := by
    unfold precisePlace
    omega
  have highSplit : Int.log 2 |q| + 1 = 53 + precisePlace q := by
    unfold precisePlace
    omega
  rw [lowSplit, zpow_add₀ (by norm_num)] at low
  rw [highSplit, zpow_add₀ (by norm_num)] at high
  exact ⟨by exact_mod_cast low, by exact_mod_cast high⟩

/-- A double is a multiple of the place of its last bit. -/
theorem multiple_of_exact {q : ℚ} (exact_ : round q = q) :
    Exists fun n : ℤ => q = n * 2 ^ max (precisePlace q) (-1074) := by
  by_cases zero : q = 0
  · refine ⟨0, ?_⟩
    rw [Int.cast_zero, zero_mul]
    exact zero
  · unfold round at exact_
    rw [if_neg zero] at exact_
    exact ⟨nearest (q / 2 ^ max (precisePlace q) (-1074)), exact_.symm⟩

/-- A double lies more than half a unit below the numbers whose last bit
stands at a higher place. -/
theorem place_le_of_near {x q : ℚ} (nonzero : x ≠ 0) (exact_ : round q = q)
    (near : |x - q| < 2 ^ precisePlace x / 2) : precisePlace x ≤ max (precisePlace q) (-1074) := by
  by_contra more
  rcases multiple_of_exact exact_ with ⟨n, multiple⟩
  generalize placeIs : max (precisePlace q) (-1074) = place at more multiple
  have unitPos : (0 : ℚ) < 2 ^ place := zpow_pos (by norm_num) _
  have halfUnit : (2 : ℚ) ^ place ≤ 2 ^ precisePlace x / 2 := by
    have step : (2 : ℚ) ^ place ≤ 2 ^ (precisePlace x - 1) :=
      zpow_le_zpow_right₀ (by norm_num) (by omega)
    rwa [zpow_sub_one₀ (by norm_num), ← div_eq_mul_inv] at step
  have few : |q| ≤ (2 ^ 53 - 1) * 2 ^ place := by
    by_cases zero : q = 0
    · rw [zero, abs_zero]
      positivity
    · have below : |q| < 2 ^ 53 * 2 ^ place := by
        have power : (2 : ℚ) ^ precisePlace q ≤ 2 ^ place :=
          zpow_le_zpow_right₀ (by norm_num) (by omega)
        linarith [(place_bounds zero).2]
      have bound : |(n : ℚ)| < 2 ^ 53 := by
        rw [multiple, abs_mul, abs_of_pos unitPos] at below
        exact lt_of_mul_lt_mul_right below unitPos.le
      have whole : |n| ≤ 2 ^ 53 - 1 := by
        have boundInt : |n| < 2 ^ 53 := by exact_mod_cast bound
        omega
      rw [multiple, abs_mul, abs_of_pos unitPos]
      exact mul_le_mul_of_nonneg_right (by exact_mod_cast whole) unitPos.le
  have many := (place_bounds nonzero).1
  have apart := abs_sub_abs_le_abs_sub x q
  norm_num at few many
  linarith

/-- A number that is less than half a unit away from a multiple of the unit is
rounded to that multiple. -/
theorem roundAt_of_near {place : ℤ} {x q : ℚ} (multiple : Exists fun n : ℤ => q = n * 2 ^ place)
    (near : |x - q| < 2 ^ place / 2) : roundAt place x = q := by
  rcases multiple with ⟨n, same⟩
  have unitPos : (0 : ℚ) < 2 ^ place := zpow_pos (by norm_num) _
  have quotient : q / 2 ^ place = n := by
    rw [same, mul_div_cancel_right₀ _ (ne_of_gt unitPos)]
  have scaled : |x / 2 ^ place - n| < 1 / 2 := by
    rw [← quotient, ← sub_div, abs_div, abs_of_pos unitPos, div_lt_iff₀ unitPos]
    linarith
  unfold roundAt
  rw [nearest_of_near scaled, same]

/-- A multiple of a unit is a multiple of every smaller one. -/
theorem multiple_of_le {place other : ℤ} {q : ℚ} (less : other ≤ place)
    (multiple : Exists fun n : ℤ => q = n * 2 ^ place) : Exists fun n : ℤ => q = n * 2 ^ other := by
  rcases multiple with ⟨n, same⟩
  have exponent : ((place - other).toNat : ℤ) = place - other := Int.toNat_of_nonneg (by omega)
  refine ⟨n * 2 ^ (place - other).toNat, ?_⟩
  push_cast
  rw [same, mul_assoc, ← zpow_natCast, ← zpow_add₀ (by norm_num), exponent, sub_add_cancel]

/-- A number that is less than half a unit of its last place away from a
double is rounded to that double, with and without a limit of the exponent. -/
theorem round_of_near {x q : ℚ} (nonzero : x ≠ 0) (exact_ : round q = q)
    (near : |x - q| < 2 ^ precisePlace x / 2) :
    round x = q ∧ roundAt (precisePlace x) x = q := by
  have place := place_le_of_near nonzero exact_ near
  have multiple := multiple_of_exact exact_
  refine ⟨?_, roundAt_of_near (multiple_of_le place multiple) near⟩
  unfold round
  rw [if_neg nonzero]
  apply roundAt_of_near (multiple_of_le (by omega) multiple)
  have power : (2 : ℚ) ^ precisePlace x ≤ 2 ^ max (precisePlace x) (-1074) :=
    zpow_le_zpow_right₀ (by norm_num) (by omega)
  linarith

/-! ## The values of doubles -/

/-- The last of 53 bits does not stand above the unit of a number below
`2 ^ 53` units. -/
theorem precisePlace_le {q : ℚ} {place : ℤ} (nonzero : q ≠ 0) (below : |q| < 2 ^ 53 * 2 ^ place) :
    precisePlace q ≤ place := by
  have power : |q| < (2 : ℚ) ^ (53 + place) := by
    rw [zpow_add₀ (by norm_num)]
    exact_mod_cast below
  have logBound := (Int.lt_zpow_iff_log_lt (by decide : 1 < 2) (abs_pos.mpr nonzero)).mp
    (by exact_mod_cast power)
  unfold precisePlace
  omega

/-- At most 53 bits that do not reach below the least place are a double. -/
theorem round_of_multiple {q : ℚ} {n place : ℤ} (least : -1074 ≤ place) (few : |n| ≤ 2 ^ 53)
    (same : q = n * 2 ^ place) : round q = q := by
  have fewer : forall {m other : ℤ}, -1074 ≤ other -> |m| < 2 ^ 53 -> q = m * 2 ^ other ->
      round q = q := by
    intro m other least bound multiple
    have unitPos : (0 : ℚ) < 2 ^ other := zpow_pos (by norm_num) _
    unfold round
    split
    · next zero => exact zero.symm
    · next nonzero =>
        have below : |q| < 2 ^ 53 * 2 ^ other := by
          rw [multiple, abs_mul, abs_of_pos unitPos]
          exact mul_lt_mul_of_pos_right (by exact_mod_cast bound) unitPos
        have place := precisePlace_le nonzero below
        rcases multiple_of_le (by omega : max (precisePlace q) (-1074) ≤ other) ⟨m, multiple⟩ with
          ⟨k, shape⟩
        refine roundAt_of_multiple ⟨k, ?_⟩
        exact (eq_div_of_mul_eq (ne_of_gt (zpow_pos (by norm_num) _)) shape.symm).symm
  by_cases below : |n| < 2 ^ 53
  · exact fewer least below same
  · have extreme : |n| = 2 ^ 53 := le_antisymm few (not_lt.mp below)
    have half : Exists fun m : ℤ => n = m * 2 ∧ |m| < 2 ^ 53 := by
      rcases (abs_eq (by norm_num : (0 : ℤ) ≤ 2 ^ 53)).mp extreme with plus | minus
      · exact ⟨2 ^ 52, by rw [plus]; norm_num, by norm_num⟩
      · exact ⟨-2 ^ 52, by rw [minus]; norm_num, by norm_num⟩
    rcases half with ⟨m, twice, bound⟩
    refine fewer (by omega : -1074 ≤ place + 1) bound ?_
    rw [zpow_add_one₀ (by norm_num), same, twice]
    push_cast
    ring

/-- The conversion gives a double. -/
theorem round_round (x : ℚ) : round (round x) = round x := by
  by_cases zero : x = 0
  · rw [zero]
    rfl
  · have units : |x / 2 ^ max (precisePlace x) (-1074)| < 2 ^ 53 := by
      have unitPos : (0 : ℚ) < 2 ^ max (precisePlace x) (-1074) := zpow_pos (by norm_num) _
      rw [abs_div, abs_of_pos unitPos, div_lt_iff₀ unitPos]
      refine lt_of_lt_of_le (place_bounds zero).2 (mul_le_mul_of_nonneg_left ?_ (by norm_num))
      exact zpow_le_zpow_right₀ (by norm_num) (le_max_left _ _)
    refine @round_of_multiple _ (nearest (x / 2 ^ max (precisePlace x) (-1074)))
      (max (precisePlace x) (-1074)) (le_max_right _ _) (abs_nearest_le units) ?_
    unfold round
    rw [if_neg zero]
    rfl

end Binary64
end ChatHub
