import Mathlib.Algebra.Order.Floor.Semifield
import Mathlib.Data.Int.Log
import Mathlib.Data.Rat.Floor
import Mathlib.Data.List.DropRight
import Mathlib.Tactic.Positivity
import Mathlib.Tactic.Linarith
import Mathlib.Tactic.NormNum
import ChatHub.Base.Decimal

namespace ChatHub

/-!
# Doubles as rational numbers

A finite `double` is represented by its value, a rational number.  The
negative zero has the value of the other zero but is printed in another way,
so it is kept apart where it can arise: `strtod` reports it as a case of its
own.  Conversion to `double` rounds to the nearest representable value and to
the even mantissa in a tie.  `strtod` reads a decimal literal, and `%1.17g`
prints seventeen significant digits in the shorter of the fixed and the
exponent notation.

Integers of at most `2 ^ 53` in absolute value survive all three steps: they
are representable, they are printed as plain integers, and reading the text
gives the same number.
-/

namespace Binary64

/-- The nearest integer, and the even one of two that are equally near. -/
def nearest (q : ℚ) : ℤ :=
  let low := ⌊q⌋
  if q - low < 1 / 2 then low
  else if 1 / 2 < q - low then low + 1
  else if low % 2 = 0 then low
  else low + 1

/-- Round to a multiple of `2 ^ place`. -/
def roundAt (place : ℤ) (q : ℚ) : ℚ :=
  nearest (q / 2 ^ place) * 2 ^ place

/-- The place of the last of 53 significant bits. -/
def precisePlace (q : ℚ) : ℤ :=
  Int.log 2 |q| - 52

/-- The nearest `double`, where the exponent has a lower but no upper bound. -/
def round (q : ℚ) : ℚ :=
  if q = 0 then 0 else roundAt (max (precisePlace q) (-1074)) q

/-- The rounded value is too large to be finite. -/
def Overflows (q : ℚ) : Prop :=
  2 ^ 1024 ≤ |round q|

/-- The value is inexact and below the normal numbers after rounding. -/
def Underflows (q : ℚ) : Prop :=
  q ≠ 0 ∧ round q ≠ q ∧ |roundAt (precisePlace q) q| < 1 / 2 ^ 1022

instance (q : ℚ) : Decidable (Overflows q) :=
  inferInstanceAs (Decidable (_ ≤ _))

instance (q : ℚ) : Decidable (Underflows q) :=
  inferInstanceAs (Decidable (_ ∧ _ ∧ _))

/-- Truncation towards zero, as in a conversion to an integer type. -/
def truncate (q : ℚ) : ℤ :=
  if 0 ≤ q then ⌊q⌋ else ⌈q⌉

theorem nearest_intCast (z : ℤ) : nearest (z : ℚ) = z := by
  simp [nearest]

theorem truncate_intCast (z : ℤ) : truncate (z : ℚ) = z := by
  simp [truncate]

/-- A multiple of the place is not changed by rounding at it. -/
theorem roundAt_of_multiple {place : ℤ} {q : ℚ} (multiple : Exists fun z : ℤ => q / 2 ^ place = z) :
    roundAt place q = q := by
  rcases multiple with ⟨z, exact_⟩
  have positive : (0 : ℚ) < 2 ^ place := zpow_pos (by norm_num) place
  unfold roundAt
  rw [exact_, nearest_intCast, ← exact_]
  exact div_mul_cancel₀ q (ne_of_gt positive)

/-- Dividing an integer by a power of two with a non-positive exponent gives
an integer. -/
private theorem intCast_div_zpow {z place : ℤ} (nonPositive : place ≤ 0) :
    Exists fun m : ℤ => (z : ℚ) / 2 ^ place = m := by
  refine ⟨z * 2 ^ (-place).toNat, ?_⟩
  have exponent : ((-place).toNat : ℤ) = -place := Int.toNat_of_nonneg (by omega)
  have power : (2 : ℚ) ^ (-place).toNat = 2 ^ (-place) := by
    rw [← zpow_natCast, exponent]
  push_cast
  rw [power, zpow_neg, div_eq_mul_inv]

/-- Integers of at most `2 ^ 53` in absolute value are doubles. -/
theorem round_intCast {z : ℤ} (bound : |z| ≤ 2 ^ 53) : round (z : ℚ) = z := by
  unfold round
  by_cases zero : z = 0
  · simp [zero]
  · have nonzero : (z : ℚ) ≠ 0 := by exact_mod_cast zero
    have positive : (0 : ℚ) < |(z : ℚ)| := abs_pos.mpr nonzero
    rw [if_neg nonzero]
    apply roundAt_of_multiple
    by_cases below : |z| < 2 ^ 53
    · apply intCast_div_zpow
      have small : |(z : ℚ)| < ((2 : ℕ) : ℚ) ^ (53 : ℤ) := by
        have cast : ((|z| : ℤ) : ℚ) < ((2 ^ 53 : ℤ) : ℚ) := by exact_mod_cast below
        rw [Int.cast_abs] at cast
        norm_num at cast ⊢
        exact cast
      have logBound := (Int.lt_zpow_iff_log_lt (by norm_num : 1 < 2) positive).mp small
      unfold precisePlace
      omega
    · have extreme : |z| = 2 ^ 53 := le_antisymm bound (not_lt.mp below)
      have place : max (precisePlace (z : ℚ)) (-1074) = 1 := by
        have absolute : |(z : ℚ)| = ((2 ^ 53 : ℕ) : ℚ) := by
          rw [← Int.cast_abs, extreme]
          norm_num
        unfold precisePlace
        rw [absolute, Int.log_natCast, Nat.log_pow (by norm_num : 1 < 2)]
        norm_num
      rw [place]
      rcases abs_eq (by norm_num : (0 : ℤ) ≤ 2 ^ 53) |>.mp extreme with plus | minus
      · exact ⟨2 ^ 52, by rw [plus]; norm_num⟩
      · exact ⟨-2 ^ 52, by rw [minus]; norm_num⟩

/-! ## Printing with seventeen significant digits -/

/-- A natural number with leading zeros up to `width` digits. -/
def padded (width n : Nat) : Bytes :=
  List.replicate (width - (natText n).length) (digitByte 0) ++ natText n

/-- A fraction of `width` digits with its point, without trailing zeros; no
point if nothing remains. -/
def fractionText (width n : Nat) : Bytes :=
  match (padded width n).rdropWhile (fun byte => byte == digitByte 0) with
  | [] => []
  | digits => 0x2E :: digits

/-- `%1.17g` of the negative zero. -/
def negativeZeroText : Bytes := ascii "-0"

/-- `%1.17g` of any other double. -/
def formatG17 (q : ℚ) : Bytes :=
  if q = 0 then ascii "0"
  else
    let sign := if q < 0 then ascii "-" else []
    let exponent := Int.log 10 |q|
    let digits := (nearest (|q| * 10 ^ (16 - exponent))).toNat
    let carried := digits = 10 ^ 17
    let mantissa := if carried then 10 ^ 16 else digits
    let place := if carried then exponent + 1 else exponent
    if -4 ≤ place ∧ place < 17 then
      let width := (16 - place).toNat
      sign ++ natText (mantissa / 10 ^ width) ++ fractionText width (mantissa % 10 ^ width)
    else
      sign ++ natText (mantissa / 10 ^ 16) ++ fractionText 16 (mantissa % 10 ^ 16) ++
        ascii "e" ++ (if place < 0 then ascii "-" else ascii "+") ++ padded 2 place.natAbs

theorem fractionText_zero (width : Nat) : fractionText width 0 = [] := by
  have allZero : forall byte, byte ∈ padded width 0 -> (byte == digitByte 0) = true := by
    intro byte member
    unfold padded at member
    rcases List.mem_append.mp member with front | back
    · rw [List.eq_of_mem_replicate front]
      exact beq_self_eq_true _
    · rw [natText_of_lt_ten (by decide), List.mem_singleton] at back
      rw [back]
      exact beq_self_eq_true _
  unfold fractionText
  rw [List.rdropWhile_eq_nil_iff.mpr allZero]

theorem padded_isDigit {width n : Nat} {byte : UInt8} (member : byte ∈ padded width n) :
    isDigit byte = true := by
  rcases List.mem_append.mp member with front | back
  · rw [List.eq_of_mem_replicate front]
    rfl
  · exact natText_isDigit n byte back

theorem mem_fractionText {width n : Nat} {byte : UInt8} (member : byte ∈ fractionText width n) :
    byte = 0x2E ∨ isDigit byte = true := by
  unfold fractionText at member
  split at member
  · exact absurd member List.not_mem_nil
  · rcases List.mem_cons.mp member with point | digit
    · exact Or.inl point
    · exact Or.inr (padded_isDigit ((List.rdropWhile_prefix _ _).subset digit))

/-- The characters of a printed double: digits, signs, the point and the
letter of the exponent. -/
def NumberChar (byte : UInt8) : Prop :=
  isDigit byte = true ∨ byte = 0x2D ∨ byte = 0x2B ∨ byte = 0x2E ∨ byte = 0x65

theorem formatG17_chars (q : ℚ) : forall byte, byte ∈ formatG17 q -> NumberChar byte := by
  have sign : forall byte, byte ∈ (if q < 0 then ascii "-" else []) -> NumberChar byte := by
    intro byte member
    split at member
    · exact Or.inr (Or.inl (List.mem_singleton.mp member))
    · exact absurd member List.not_mem_nil
  have whole : forall n byte, byte ∈ natText n -> NumberChar byte :=
    fun n byte member => Or.inl (natText_isDigit n byte member)
  have fraction : forall width n byte, byte ∈ fractionText width n -> NumberChar byte := by
    intro width n byte member
    rcases mem_fractionText member with point | digit
    · exact Or.inr (Or.inr (Or.inr (Or.inl point)))
    · exact Or.inl digit
  -- whatever the digits and the place are, with and without an exponent
  have laidOut : forall (mantissa : ℕ) (place : ℤ) (byte : UInt8), byte ∈
      (if -4 ≤ place ∧ place < 17 then
        (if q < 0 then ascii "-" else []) ++ natText (mantissa / 10 ^ (16 - place).toNat) ++
          fractionText (16 - place).toNat (mantissa % 10 ^ (16 - place).toNat)
      else
        (if q < 0 then ascii "-" else []) ++ natText (mantissa / 10 ^ 16) ++
          fractionText 16 (mantissa % 10 ^ 16) ++ ascii "e" ++
          (if place < 0 then ascii "-" else ascii "+") ++ padded 2 place.natAbs) ->
      NumberChar byte := by
    intro mantissa place byte member
    split at member
    · simp only [List.mem_append] at member
      rcases member with (isSign | isWhole) | isFraction
      · exact sign byte isSign
      · exact whole _ byte isWhole
      · exact fraction _ _ byte isFraction
    · simp only [List.mem_append] at member
      rcases member with ((((isSign | isWhole) | isFraction) | isLetter) | isExponentSign) | isPlace
      · exact sign byte isSign
      · exact whole _ byte isWhole
      · exact fraction _ _ byte isFraction
      · exact Or.inr (Or.inr (Or.inr (Or.inr (List.mem_singleton.mp isLetter))))
      · split at isExponentSign
        · exact Or.inr (Or.inl (List.mem_singleton.mp isExponentSign))
        · exact Or.inr (Or.inr (Or.inl (List.mem_singleton.mp isExponentSign)))
      · exact Or.inl (padded_isDigit isPlace)
  unfold formatG17
  split
  · intro byte member
    rw [List.mem_singleton.mp member]
    exact Or.inl rfl
  · exact laidOut _ _

/-- A printed double is a C string. -/
theorem formatG17_noNul (q : ℚ) : 0 ∉ formatG17 q := by
  intro member
  have kind := formatG17_chars q 0 member
  unfold NumberChar at kind
  revert kind
  decide

/-- A double that is an integer below `10 ^ 17` is printed as that integer. -/
theorem formatG17_intCast {z : ℤ} (bound : |z| < 10 ^ 17) : formatG17 (z : ℚ) = intText z := by
  unfold formatG17
  by_cases zero : z = 0
  · subst zero
    decide +kernel
  · have nonzero : (z : ℚ) ≠ 0 := by exact_mod_cast zero
    have magnitudePos : 0 < z.natAbs := Int.natAbs_pos.mpr zero
    have absolute : |(z : ℚ)| = (z.natAbs : ℚ) := by
      rw [Nat.cast_natAbs, Int.cast_abs]
    have logBound : Nat.log 10 z.natAbs < 17 := by
      apply (Nat.log_lt_iff_lt_pow (by norm_num) (Nat.ne_of_gt magnitudePos)).mpr
      rw [Int.abs_eq_natAbs] at bound
      exact_mod_cast bound
    have magnitudeLt := Nat.lt_pow_succ_log_self (by norm_num : 1 < 10) z.natAbs
    have split : 10 ^ 17 =
        10 ^ (Nat.log 10 z.natAbs + 1) * 10 ^ (16 - Nat.log 10 z.natAbs) := by
      rw [← pow_add]
      congr 1
      omega
    have power : (10 : ℚ) ^ (16 - (Nat.log 10 z.natAbs : ℤ)) =
        ((10 ^ (16 - Nat.log 10 z.natAbs) : ℕ) : ℚ) := by
      have exponent : (16 : ℤ) - (Nat.log 10 z.natAbs : ℤ) =
          ((16 - Nat.log 10 z.natAbs : ℕ) : ℤ) := by omega
      rw [exponent, zpow_natCast]
      norm_num
    have digits : (nearest ((z.natAbs : ℚ) * 10 ^ (16 - (Nat.log 10 z.natAbs : ℤ)))).toNat =
        z.natAbs * 10 ^ (16 - Nat.log 10 z.natAbs) := by
      rw [power, ← Nat.cast_mul]
      have integral := nearest_intCast ((z.natAbs * 10 ^ (16 - Nat.log 10 z.natAbs) : ℕ) : ℤ)
      rw [Int.cast_natCast] at integral
      rw [integral, Int.toNat_natCast]
    have notCarried : Not (z.natAbs * 10 ^ (16 - Nat.log 10 z.natAbs) = 10 ^ 17) := by
      rw [split]
      exact Nat.ne_of_lt (Nat.mul_lt_mul_of_pos_right magnitudeLt (by positivity))
    have fixed : -4 ≤ (Nat.log 10 z.natAbs : ℤ) ∧ (Nat.log 10 z.natAbs : ℤ) < 17 := by omega
    have width : ((16 : ℤ) - (Nat.log 10 z.natAbs : ℤ)).toNat = 16 - Nat.log 10 z.natAbs := by omega
    have widthPos : 0 < 10 ^ (16 - Nat.log 10 z.natAbs) := by positivity
    rw [if_neg nonzero]
    simp only [absolute, Int.log_natCast, digits, if_neg notCarried, if_pos fixed, width,
      Nat.mul_div_cancel _ widthPos, Nat.mul_mod_left, fractionText_zero, List.append_nil]
    by_cases negative : z < 0
    · have negativeCast : (z : ℚ) < 0 := by exact_mod_cast negative
      rw [if_pos negativeCast, intText_of_neg negative]
      rfl
    · have nonNegativeCast : Not ((z : ℚ) < 0) := by
        rw [not_lt]
        exact_mod_cast not_lt.mp negative
      rw [if_neg nonNegativeCast, intText_of_nonneg (not_lt.mp negative)]
      rfl

/-! ## The length of printed numbers -/

/-- Rounding to an integer moves a number by at most one half. -/
theorem abs_nearest_sub_le (q : ℚ) : |(nearest q : ℚ) - q| ≤ 1 / 2 := by
  have low := Int.floor_le q
  have high := Int.lt_floor_add_one q
  have down : q - ⌊q⌋ ≤ 1 / 2 -> |((⌊q⌋ : ℤ) : ℚ) - q| ≤ 1 / 2 := by
    intro near
    rw [abs_le]
    constructor <;> linarith
  have up : 1 / 2 ≤ q - ⌊q⌋ -> |((⌊q⌋ + 1 : ℤ) : ℚ) - q| ≤ 1 / 2 := by
    intro far
    rw [abs_le]
    push_cast
    constructor <;> linarith
  unfold nearest
  simp only
  split
  · next below => exact down (le_of_lt below)
  · next notBelow =>
      split
      · next above => exact up (le_of_lt above)
      · next notAbove =>
          split
          · exact down (not_lt.mp notAbove)
          · exact up (not_lt.mp notBelow)

/-- An integer less than one half away is the nearest one. -/
theorem nearest_of_near {q : ℚ} {z : ℤ} (near : |q - z| < 1 / 2) : nearest q = z := by
  have rounded := abs_nearest_sub_le q
  have between : |(nearest q : ℚ) - z| < 1 := by
    calc
      |(nearest q : ℚ) - z| ≤ |(nearest q : ℚ) - q| + |q - z| := abs_sub_le _ _ _
      _ < 1 := by linarith
  have distance : |nearest q - z| < 1 := by exact_mod_cast between
  have bounds := abs_lt.mp distance
  omega

theorem padded_length_le (width n : Nat) : (padded width n).length ≤ width + (natText n).length := by
  unfold padded
  rw [List.length_append, List.length_replicate]
  omega

theorem fractionText_length_le (width n : Nat) :
    (fractionText width n).length ≤ 1 + width + (natText n).length := by
  have all := padded_length_le width n
  have fewer := (List.rdropWhile_prefix (fun byte => byte == digitByte 0) (padded width n)).length_le
  unfold fractionText
  split
  · exact Nat.zero_le _
  · next same =>
      rw [List.length_cons]
      omega

/-- The digits that are printed are those of the number times a power of ten. -/
theorem printedDigits_lt {q : ℚ} (high : |q| < 10 ^ 20) (exponentLow : 0 ≤ Int.log 10 |q|) :
    (nearest (|q| * 10 ^ (16 - Int.log 10 |q|))).toNat < 10 ^ 37 := by
  have powerHigh : (10 : ℚ) ^ (16 - Int.log 10 |q|) ≤ 10 ^ (16 : ℤ) :=
    zpow_le_zpow_right₀ (by norm_num) (by omega)
  have scaled : |q| * 10 ^ (16 - Int.log 10 |q|) ≤ 10 ^ 20 * 10 ^ (16 : ℤ) :=
    mul_le_mul (le_of_lt high) powerHigh (zpow_nonneg (by norm_num) _) (by norm_num)
  have near := (abs_le.mp (abs_nearest_sub_le (|q| * 10 ^ (16 - Int.log 10 |q|)))).2
  have bound : (nearest (|q| * 10 ^ (16 - Int.log 10 |q|)) : ℚ) < 10 ^ 37 := by
    norm_num at scaled near ⊢
    linarith
  have boundInt : nearest (|q| * 10 ^ (16 - Int.log 10 |q|)) < 10 ^ 37 := by
    exact_mod_cast bound
  omega

/-- The printed form of a number from one up to twenty digits is short. -/
theorem formatG17_length_le {q : ℚ} (low : 1 ≤ |q|) (high : |q| < 10 ^ 20) :
    (formatG17 q).length ≤ 200 := by
  have nonzero : q ≠ 0 := by
    intro zero
    rw [zero, abs_zero] at low
    exact absurd low (by norm_num)
  have exponentLow : 0 ≤ Int.log 10 |q| := by
    have mono := Int.log_mono_right (b := 10) (by norm_num : (0 : ℚ) < 1) low
    rwa [Int.log_one_right] at mono
  have exponentHigh : Int.log 10 |q| < 20 := by
    have power : |q| < (10 : ℚ) ^ (20 : ℤ) := by
      exact_mod_cast high
    exact (Int.lt_zpow_iff_log_lt (by decide) (by linarith)).mp power
  have digitsHigh := printedDigits_lt high exponentLow
  have short : forall n : Nat, n < 10 ^ 37 -> (natText n).length ≤ 37 :=
    fun n small => natText_length_le (by decide) small
  have signShort : (if q < 0 then ascii "-" else [] : Bytes).length ≤ 1 := by
    split <;> decide
  unfold formatG17
  rw [if_neg nonzero]
  simp only
  generalize (nearest (|q| * 10 ^ (16 - Int.log 10 |q|))).toNat = digits at digitsHigh
  generalize Int.log 10 |q| = exponent at exponentLow exponentHigh
  have mantissaHigh : (if digits = 10 ^ 17 then 10 ^ 16 else digits) < 10 ^ 37 := by
    split
    · norm_num
    · exact digitsHigh
  have placeBounds : 0 ≤ (if digits = 10 ^ 17 then exponent + 1 else exponent) ∧
      (if digits = 10 ^ 17 then exponent + 1 else exponent) ≤ 20 := by
    split <;> omega
  generalize (if digits = 10 ^ 17 then 10 ^ 16 else digits) = mantissa at mantissaHigh
  generalize (if digits = 10 ^ 17 then exponent + 1 else exponent) = place at placeBounds
  split
  · have whole := short (mantissa / 10 ^ (16 - place).toNat)
      (lt_of_le_of_lt (Nat.div_le_self _ _) mantissaHigh)
    have digitsBehind := short (mantissa % 10 ^ (16 - place).toNat)
      (lt_of_le_of_lt (Nat.mod_le _ _) mantissaHigh)
    have fraction := fractionText_length_le (16 - place).toNat (mantissa % 10 ^ (16 - place).toNat)
    simp only [List.length_append]
    omega
  · have whole := short (mantissa / 10 ^ 16) (lt_of_le_of_lt (Nat.div_le_self _ _) mantissaHigh)
    have digitsBehind := short (mantissa % 10 ^ 16) (lt_of_le_of_lt (Nat.mod_le _ _) mantissaHigh)
    have fraction := fractionText_length_le 16 (mantissa % 10 ^ 16)
    have power := padded_length_le 2 place.natAbs
    have powerDigits := short place.natAbs (by omega)
    have exponentSign : (if place < 0 then ascii "-" else ascii "+" : Bytes).length ≤ 1 := by
      split <;> decide
    have letter : (ascii "e").length = 1 := by decide
    simp only [List.length_append, letter]
    omega

/-- Rounding an integer of 64 bits keeps it between one and twenty digits. -/
theorem round_bounds {z : ℤ} (large : 2 ^ 53 < |z|) (small : |z| ≤ 2 ^ 63) :
    1 ≤ |round (z : ℚ)| ∧ |round (z : ℚ)| < 10 ^ 19 := by
  have largeCast : (2 ^ 53 : ℚ) < |(z : ℚ)| := by exact_mod_cast large
  have smallCast : |(z : ℚ)| ≤ 2 ^ 63 := by exact_mod_cast small
  have nonzero : (z : ℚ) ≠ 0 := by
    intro zero
    rw [zero, abs_zero] at largeCast
    exact absurd largeCast (by norm_num)
  have positive : 0 < |(z : ℚ)| := abs_pos.mpr nonzero
  have logLow : 52 ≤ Int.log 2 |(z : ℚ)| := by
    apply (Int.zpow_le_iff_le_log (by decide) positive).mp
    norm_num at largeCast ⊢
    linarith
  have logHigh : Int.log 2 |(z : ℚ)| < 64 := by
    apply (Int.lt_zpow_iff_log_lt (by decide) positive).mp
    norm_num at smallCast ⊢
    linarith
  unfold round precisePlace
  rw [if_neg nonzero, max_eq_left (by omega)]
  unfold roundAt
  have placeHigh : (2 : ℚ) ^ (Int.log 2 |(z : ℚ)| - 52) ≤ 2 ^ (11 : ℤ) :=
    zpow_le_zpow_right₀ (by norm_num) (by omega)
  have placePos : (0 : ℚ) < 2 ^ (Int.log 2 |(z : ℚ)| - 52) := zpow_pos (by norm_num) _
  generalize (2 : ℚ) ^ (Int.log 2 |(z : ℚ)| - 52) = unit at placeHigh placePos
  have near := abs_nearest_sub_le ((z : ℚ) / unit)
  have moved : |(nearest ((z : ℚ) / unit) : ℚ) * unit - z| ≤ 2 ^ 11 := by
    have scaled : (nearest ((z : ℚ) / unit) : ℚ) * unit - z =
        ((nearest ((z : ℚ) / unit) : ℚ) - z / unit) * unit := by
      rw [sub_mul, div_mul_cancel₀ _ (ne_of_gt placePos)]
    rw [scaled, abs_mul, abs_of_pos placePos]
    calc |(nearest ((z : ℚ) / unit) : ℚ) - z / unit| * unit ≤ 1 / 2 * unit :=
          mul_le_mul_of_nonneg_right near (le_of_lt placePos)
      _ ≤ unit := by linarith
      _ ≤ 2 ^ 11 := by exact_mod_cast placeHigh
  have below := abs_sub_abs_le_abs_sub (z : ℚ) ((nearest ((z : ℚ) / unit) : ℚ) * unit)
  have above := abs_sub_abs_le_abs_sub ((nearest ((z : ℚ) / unit) : ℚ) * unit) (z : ℚ)
  rw [abs_sub_comm] at below
  have sizes : (2 ^ 11 : ℚ) = 2048 ∧ (2 ^ 53 : ℚ) = 9007199254740992 ∧
      (2 ^ 63 : ℚ) = 9223372036854775808 ∧ (10 ^ 19 : ℚ) = 10000000000000000000 := by
    norm_num
  rw [sizes.1] at moved
  rw [sizes.2.1] at largeCast
  rw [sizes.2.2.1] at smallCast
  rw [sizes.2.2.2]
  constructor
  · linarith
  · linarith

/-- An integer of 64 bits has a short printed form. -/
theorem formatG17_round_length_le {z : ℤ} (low : -2 ^ 63 ≤ z) (high : z < 2 ^ 63) :
    (formatG17 (round (z : ℚ))).length ≤ 200 := by
  by_cases exact_ : |z| ≤ 2 ^ 53
  · have printed : formatG17 (z : ℚ) = intText z := formatG17_intCast (by omega)
    have digits := intText_length_le low high
    rw [round_intCast exact_, printed]
    omega
  · have bounds := round_bounds (not_le.mp exact_) (abs_le.mpr ⟨by omega, by omega⟩)
    exact formatG17_length_le bounds.1 (bounds.2.trans (by norm_num))

/-! ## Reading -/

/-- What `strtod` makes of a text. -/
inductive Scan where
  /-- a finite number and the text behind it; the whole text if nothing was converted -/
  | number (value : ℚ) (rest : Bytes)
  /-- the negative zero and the text behind it -/
  | negativeZero (rest : Bytes)
  /-- a decimal literal for which `errno` becomes `ERANGE` -/
  | outOfRange
  /-- hexadecimal digits, an infinity or a NaN -/
  | notDecimal
  deriving DecidableEq

/-- The text behind the number, if one was read. -/
def Scan.rest : Scan -> Option Bytes
  | .number _ rest => some rest
  | .negativeZero rest => some rest
  | _ => none

/-- The same scan with more text behind the number. -/
def Scan.followedBy (more : Bytes) : Scan -> Scan
  | .number value rest => .number value (rest ++ more)
  | .negativeZero rest => .negativeZero (rest ++ more)
  | refused => refused

/-- `isxdigit` -/
def isHexDigit (byte : UInt8) : Bool :=
  isDigit byte || (0x41 ≤ byte && byte ≤ 0x46) || (0x61 ≤ byte && byte ≤ 0x66)

/-- `tolower` on ASCII. -/
def toLower (byte : UInt8) : UInt8 :=
  if 0x41 ≤ byte ∧ byte ≤ 0x5A then byte + 0x20 else byte

/-- The text behind the sign is read as a hexadecimal number, an infinity or a NaN. -/
def startsOther (body : Bytes) : Bool :=
  ((body.take 3).map toLower == ascii "inf") ||
  ((body.take 3).map toLower == ascii "nan") ||
  match body with
  | 0x30 :: mark :: digit :: rest =>
      toLower mark == 0x78 &&
        (isHexDigit digit || (digit == 0x2E && (rest.head?.map isHexDigit).getD false))
  | _ => false

/-- The digits behind a decimal point, if there is one. -/
def scanFraction : Bytes -> Bytes × Bytes
  | 0x2E :: rest => (rest.takeWhile isDigit, rest.dropWhile isDigit)
  | text => ([], text)

/-- A decimal exponent; without digits there is none and nothing is taken. -/
def scanExponent (text : Bytes) : ℤ × Bytes :=
  match text with
  | [] => (0, [])
  | mark :: rest =>
      let signed := readSign rest
      let digits := signed.2.takeWhile isDigit
      if toLower mark = 0x65 ∧ digits ≠ [] then
        (if signed.1 then -(digitsValue digits : ℤ) else digitsValue digits,
          signed.2.dropWhile isDigit)
      else (0, text)

/-- An unsigned decimal literal and the text behind it. -/
def scanUnsigned (body : Bytes) : Option (ℚ × Bytes) :=
  let whole := body.takeWhile isDigit
  let fraction := scanFraction (body.dropWhile isDigit)
  if whole = [] ∧ fraction.1 = [] then none
  else
    let exponent := scanExponent fraction.2
    some ((digitsValue (whole ++ fraction.1) : ℚ) * 10 ^ (exponent.1 - fraction.1.length),
      exponent.2)

/-- `strtod` -/
def strtod (text : Bytes) : Scan :=
  let signed := readSign (text.dropWhile isSpace)
  if startsOther signed.2 then .notDecimal
  else
    match scanUnsigned signed.2 with
    | none => .number 0 text
    | some (magnitude, rest) =>
        let value := if signed.1 then -magnitude else magnitude
        if Overflows value ∨ Underflows value then .outOfRange
        else if signed.1 = true ∧ magnitude = 0 then .negativeZero rest
        else .number (round value) rest

/-! ## Reading only advances -/

theorem readSign_length_le (text : Bytes) : (readSign text).2.length ≤ text.length := by
  unfold readSign
  split
  · exact Nat.le_succ _
  · exact Nat.le_succ _
  · exact Nat.le_refl _

theorem scanFraction_length_le (text : Bytes) : (scanFraction text).2.length ≤ text.length := by
  unfold scanFraction
  split
  · exact Nat.le_succ_of_le (List.dropWhile_sublist isDigit).length_le
  · exact Nat.le_refl _

theorem scanExponent_length_le (text : Bytes) : (scanExponent text).2.length ≤ text.length := by
  cases text with
  | nil => exact Nat.le_refl _
  | cons mark rest =>
      have afterSign := readSign_length_le rest
      have afterDigits := (@List.dropWhile_sublist _ (readSign rest).2 isDigit).length_le
      simp only [scanExponent]
      split
      · exact Nat.le_succ_of_le (afterDigits.trans afterSign)
      · exact Nat.le_refl _

theorem scanUnsigned_length_le {body rest : Bytes} {magnitude : ℚ}
    (scanned : scanUnsigned body = some (magnitude, rest)) : rest.length ≤ body.length := by
  simp only [scanUnsigned] at scanned
  split at scanned
  · cases scanned
  · cases scanned
    exact ((scanExponent_length_le _).trans (scanFraction_length_le _)).trans
      (List.dropWhile_sublist isDigit).length_le

theorem strtod_length_le {text rest : Bytes} (scanned : (strtod text).rest = some rest) :
    rest.length ≤ text.length := by
  have afterBlank := (@List.dropWhile_sublist _ text isSpace).length_le
  have afterSign := readSign_length_le (text.dropWhile isSpace)
  simp only [strtod] at scanned
  split at scanned
  · cases scanned
  · split at scanned
    · cases scanned
      exact Nat.le_refl _
    · next magnitude behind unsigned =>
        have afterNumber := scanUnsigned_length_le unsigned
        generalize (if (readSign (text.dropWhile isSpace)).1 = true then -magnitude else magnitude) =
          value at scanned
        have isBehind : rest = behind := by
          split at scanned
          · cases scanned
          · split at scanned
            · exact (Option.some.inj scanned).symm
            · exact (Option.some.inj scanned).symm
        rw [isBehind]
        omega

/-! ## Reading back what was printed -/

/-- A byte that cannot continue a decimal literal. -/
def Delimits (byte : UInt8) : Prop :=
  isDigit byte = false ∧ byte ≠ 0x2E ∧ toLower byte ≠ 0x65 ∧ toLower byte ≠ 0x78

instance (byte : UInt8) : Decidable (Delimits byte) :=
  inferInstanceAs (Decidable (_ ∧ _ ∧ _ ∧ _))

private theorem numeric_starts_nothing_else : forall byte : UInt8,
    isDigit byte = true ∨ byte = 0x2E -> toLower byte ≠ 0x69 ∧ toLower byte ≠ 0x6E := by
  apply forall_byte
  decide +kernel

private theorem hexMark_plain : forall byte : UInt8, toLower byte = 0x78 ->
    isDigit byte = false ∧ byte ≠ 0x2E ∧ toLower byte ≠ 0x65 := by
  apply forall_byte
  decide +kernel

theorem startsOther_of_numeric {head : UInt8} {tail : Bytes} (numeric : isDigit head = true ∨ head = 0x2E)
    (notHex : forall mark more, tail = mark :: more -> toLower mark ≠ 0x78) :
    startsOther (head :: tail) = false := by
  have neither := numeric_starts_nothing_else head numeric
  have notInf : (((head :: tail).take 3).map toLower == ascii "inf") = false := by
    simpa [ascii] using fun same => absurd same neither.1
  have notNan : (((head :: tail).take 3).map toLower == ascii "nan") = false := by
    simpa [ascii] using fun same => absurd same neither.2
  unfold startsOther
  rw [notInf, notNan]
  simp only [Bool.false_or]
  split
  · next mark digit more equal =>
      have different := notHex mark _ (List.cons.inj equal).2
      simp [different]
  · rfl

/-- Decimal digits before a delimiter are not the start of a hexadecimal
number, an infinity or a NaN. -/
theorem startsOther_digits {digits rest : Bytes} (nonempty : digits ≠ [])
    (allDigits : forall byte, byte ∈ digits -> isDigit byte = true)
    (delimited : forall byte, rest.head? = some byte -> Delimits byte) :
    startsOther (digits ++ rest) = false := by
  rcases List.exists_cons_of_ne_nil nonempty with ⟨head, tail, shape⟩
  subst shape
  apply startsOther_of_numeric (Or.inl (allDigits head List.mem_cons_self))
  intro mark more next
  cases tail with
  | nil => exact (delimited mark (by rw [show rest = mark :: more from next]; rfl)).2.2.2
  | cons second others =>
      cases next
      intro isHex
      have digit := allDigits mark (List.mem_cons_of_mem _ List.mem_cons_self)
      rw [(hexMark_plain mark isHex).1] at digit
      cases digit

theorem scanFraction_plain {head : UInt8} (notPoint : head ≠ 0x2E) (tail : Bytes) :
    scanFraction (head :: tail) = ([], head :: tail) := by
  unfold scanFraction
  split
  · next equal => exact absurd (List.cons.inj equal).1 notPoint
  · rfl

theorem scanFraction_of_delimited {rest : Bytes}
    (delimited : forall byte, rest.head? = some byte -> Delimits byte) :
    scanFraction rest = ([], rest) := by
  cases rest with
  | nil => rfl
  | cons head tail =>
      exact scanFraction_plain (delimited head rfl).2.1 tail

theorem scanExponent_of_delimited {rest : Bytes}
    (delimited : forall byte, rest.head? = some byte -> Delimits byte) :
    scanExponent rest = (0, rest) := by
  cases rest with
  | nil => rfl
  | cons head tail =>
      have notMark := (delimited head rfl).2.2.1
      unfold scanExponent
      simp only [notMark, false_and, if_false]

/-- A printed natural number is scanned as itself. -/
theorem scanUnsigned_natText (n : Nat) {rest : Bytes}
    (delimited : forall byte, rest.head? = some byte -> Delimits byte) :
    scanUnsigned (natText n ++ rest) = some ((n : ℚ), rest) := by
  rcases natText_span n (fun byte isHead => (delimited byte isHead).1) with ⟨taken, dropped⟩
  unfold scanUnsigned
  simp only [taken, dropped, scanFraction_of_delimited delimited, natText_ne_nil, false_and,
    if_false, scanExponent_of_delimited delimited, List.append_nil, digitsValue_natText]
  norm_num

/-- A sign and an unsigned literal are read as the rounded value, if it is in
range and no negative zero. -/
theorem strtod_signed (negative : Prop) [Decidable negative] {head : UInt8} {more rest : Bytes}
    {magnitude : ℚ} (digit : isDigit head = true) (notOther : startsOther (head :: more) = false)
    (scanned : scanUnsigned (head :: more) = some (magnitude, rest))
    (nonzero : negative -> magnitude ≠ 0) :
    strtod ((if negative then ascii "-" else []) ++ head :: more) =
      if Overflows (if negative then -magnitude else magnitude) ∨
          Underflows (if negative then -magnitude else magnitude) then .outOfRange
      else .number (round (if negative then -magnitude else magnitude)) rest := by
  have notZero : Not (negative ∧ magnitude = 0) := fun zero => nonzero zero.1 zero.2
  unfold strtod
  simp only [readSign_signed negative digit more, notOther, scanned, decide_eq_true_eq,
    Bool.false_eq_true, if_false, if_neg notZero]

/-- The printed negative zero is read back. -/
theorem strtod_negativeZeroText {rest : Bytes}
    (delimited : forall byte, rest.head? = some byte -> Delimits byte) :
    strtod (negativeZeroText ++ rest) = .negativeZero rest := by
  have digits : natText 0 = [0x30] := by decide +kernel
  have notOther := startsOther_digits (natText_ne_nil 0) (natText_isDigit 0) delimited
  have scanned := scanUnsigned_natText 0 delimited
  have isSign := readSign_signed True (by decide : isDigit 0x30 = true) rest
  have inRange : Not (Overflows (-0) ∨ Underflows (-0)) := by decide +kernel
  rw [digits, List.singleton_append] at notOther scanned
  rw [if_pos trivial] at isSign
  have text : negativeZeroText ++ rest = ascii "-" ++ 0x30 :: rest := rfl
  simp only [strtod, text, isSign, notOther, scanned, Nat.cast_zero, decide_true, if_true,
    if_neg inRange, and_self, Bool.false_eq_true, if_false]

theorem signed_natAbs (z : ℤ) : (if z < 0 then -(z.natAbs : ℚ) else z.natAbs) = z := by
  rw [Nat.cast_natAbs]
  by_cases negative : z < 0
  · rw [if_pos negative, abs_of_neg negative, Int.cast_neg, neg_neg]
  · rw [if_neg negative, abs_of_nonneg (not_lt.mp negative)]

/-- Reading a printed integer gives the integer back if it is a double. -/
theorem strtod_intText_of_exact {z : ℤ} (exact_ : round (z : ℚ) = z) (finite : |(z : ℚ)| < 2 ^ 1024)
    {rest : Bytes} (delimited : forall byte, rest.head? = some byte -> Delimits byte) :
    strtod (intText z ++ rest) = .number z rest := by
  have notOther := startsOther_digits (natText_ne_nil z.natAbs) (natText_isDigit z.natAbs) delimited
  have scanned := scanUnsigned_natText z.natAbs delimited
  have inRange : Not (Overflows (z : ℚ) ∨ Underflows (z : ℚ)) := by
    rintro (overflows | ⟨_, inexact, _⟩)
    · unfold Overflows at overflows
      rw [exact_] at overflows
      exact absurd finite (not_lt.mpr overflows)
    · exact inexact exact_
  rcases List.exists_cons_of_ne_nil (natText_ne_nil z.natAbs) with ⟨head, tail, shape⟩
  have digit : isDigit head = true :=
    natText_isDigit z.natAbs head (by rw [shape]; exact List.mem_cons_self)
  rw [intText_eq, List.append_assoc]
  have nonzero : z < 0 -> (z.natAbs : ℚ) ≠ 0 := by
    intro negative
    have magnitude : z.natAbs ≠ 0 := by omega
    exact_mod_cast magnitude
  rw [shape, List.cons_append] at notOther scanned ⊢
  rw [strtod_signed (z < 0) digit notOther scanned nonzero, signed_natAbs, if_neg inRange, exact_]

/-- Reading a printed integer of the exact range gives the integer back. -/
theorem strtod_intText {z : ℤ} (bound : |z| ≤ 2 ^ 53) {rest : Bytes}
    (delimited : forall byte, rest.head? = some byte -> Delimits byte) :
    strtod (intText z ++ rest) = .number z rest := by
  refine strtod_intText_of_exact (round_intCast bound) ?_ delimited
  have cast : ((|z| : ℤ) : ℚ) ≤ ((2 ^ 53 : ℤ) : ℚ) := by exact_mod_cast bound
  rw [Int.cast_abs] at cast
  calc
    |(z : ℚ)| ≤ ((2 ^ 53 : ℤ) : ℚ) := cast
    _ < 2 ^ 1024 := by decide +kernel

/-! ## Reading goes on behind a delimiter -/

section Continued

variable {text rest : Bytes}

theorem span_append {keep : UInt8 -> Bool} (stops : text.dropWhile keep ≠ []) (more : Bytes) :
    (text ++ more).takeWhile keep = text.takeWhile keep ∧
      (text ++ more).dropWhile keep = text.dropWhile keep ++ more := by
  have notAll : (text.takeWhile keep).length ≠ text.length := by
    intro all
    have lengths := congrArg List.length (@List.takeWhile_append_dropWhile _ keep text)
    rw [List.length_append] at lengths
    exact stops (List.length_eq_zero_iff.mp (by omega))
  rw [List.takeWhile_append, if_neg notAll, List.dropWhile_append,
    if_neg (fun empty => stops (List.isEmpty_iff.mp empty))]
  exact ⟨rfl, rfl⟩

theorem readSign_append (nonempty : text ≠ []) (more : Bytes) :
    readSign (text ++ more) = ((readSign text).1, (readSign text).2 ++ more) := by
  cases text with
  | nil => exact absurd rfl nonempty
  | cons head tail =>
      by_cases minus : head = 0x2D
      · subst minus
        rfl
      by_cases plus : head = 0x2B
      · subst plus
        rfl
      · have plain : forall text, readSign (head :: text) = (false, head :: text) := by
          intro text
          unfold readSign
          split
          · next equal => exact absurd (List.cons.inj equal).1 minus
          · next equal => exact absurd (List.cons.inj equal).1 plus
          · rfl
        rw [List.cons_append, plain, plain, List.cons_append]

theorem scanFraction_append (stops : (scanFraction text).2 ≠ []) (more : Bytes) :
    scanFraction (text ++ more) = ((scanFraction text).1, (scanFraction text).2 ++ more) := by
  cases text with
  | nil => exact absurd rfl stops
  | cons head tail =>
      by_cases point : head = 0x2E
      · subst point
        have both := span_append stops more
        exact Prod.ext both.1 both.2
      · rw [List.cons_append, scanFraction_plain point, scanFraction_plain point, List.cons_append]

theorem scanExponent_append {exponent : ℤ} {c : UInt8}
    (scanned : scanExponent text = (exponent, c :: rest)) (delimits : Delimits c) (more : Bytes) :
    scanExponent (text ++ more) = (exponent, c :: rest ++ more) := by
  cases text with
  | nil => cases scanned
  | cons mark tail =>
      simp only [scanExponent] at scanned
      split at scanned
      · next taken =>
          have stops : (readSign tail).2.dropWhile isDigit ≠ [] := by
            rw [(Prod.mk.inj scanned).2]
            exact List.cons_ne_nil _ _
          have nonempty : tail ≠ [] := by
            intro empty
            rw [empty] at stops
            exact stops rfl
          have both := span_append stops more
          rw [List.cons_append]
          simp only [scanExponent]
          rw [readSign_append nonempty, both.1, both.2, if_pos taken, (Prod.mk.inj scanned).1,
            (Prod.mk.inj scanned).2]
      · have same := Prod.mk.inj scanned
        have isMark := (List.cons.inj same.2).1
        rw [← isMark] at delimits
        rw [← same.1, ← same.2, List.cons_append]
        simp only [scanExponent]
        exact if_neg (fun taken => delimits.2.2.1 taken.1)

theorem scanUnsigned_append {magnitude : ℚ} {c : UInt8}
    (scanned : scanUnsigned text = some (magnitude, c :: rest)) (delimits : Delimits c)
    (more : Bytes) : scanUnsigned (text ++ more) = some (magnitude, c :: rest ++ more) := by
  simp only [scanUnsigned] at scanned
  split at scanned
  · cases scanned
  next someDigits =>
  have same := Prod.mk.inj (Option.some.inj scanned)
  have exponent : scanExponent (scanFraction (text.dropWhile isDigit)).2 =
      ((scanExponent (scanFraction (text.dropWhile isDigit)).2).1, c :: rest) :=
    Prod.ext rfl same.2
  have long := scanExponent_length_le (scanFraction (text.dropWhile isDigit)).2
  rw [same.2, List.length_cons] at long
  have stopsFraction : (scanFraction (text.dropWhile isDigit)).2 ≠ [] :=
    List.ne_nil_of_length_pos (by omega)
  have longer := scanFraction_length_le (text.dropWhile isDigit)
  have stops : text.dropWhile isDigit ≠ [] := List.ne_nil_of_length_pos (by omega)
  have whole := span_append stops more
  simp only [scanUnsigned]
  rw [whole.1, whole.2, scanFraction_append stopsFraction, if_neg someDigits,
    scanExponent_append exponent delimits, ← same.1]

/-- A literal before a delimiter starts with a digit or a point, and what
follows does not make it hexadecimal. -/
theorem scanUnsigned_numeric {head c : UInt8} {magnitude : ℚ}
    (scanned : scanUnsigned (head :: text) = some (magnitude, c :: rest)) (delimits : Delimits c) :
    (isDigit head = true ∨ head = 0x2E) ∧
      Exists fun mark => Exists fun more => text = mark :: more ∧ toLower mark ≠ 0x78 := by
  cases digit : isDigit head with
  | true =>
      refine ⟨Or.inl rfl, ?_⟩
      cases text with
      | nil =>
          simp [scanUnsigned, digit, scanFraction, scanExponent] at scanned
      | cons mark more =>
          refine ⟨mark, more, rfl, fun isHex => ?_⟩
          rcases hexMark_plain mark isHex with ⟨notDigit, notPoint, notExponent⟩
          simp only [scanUnsigned, List.takeWhile_cons, List.dropWhile_cons, digit, notDigit,
            Bool.false_eq_true, if_true, if_false, scanFraction_plain notPoint, scanExponent,
            notExponent, false_and,
            List.cons_ne_nil, Option.some.injEq, Prod.mk.injEq, List.cons.injEq] at scanned
          rw [← scanned.2.1] at delimits
          exact delimits.2.2.2 isHex
  | false =>
      by_cases point : head = 0x2E
      · refine ⟨Or.inr point, ?_⟩
        subst point
        cases text with
        | nil => cases scanned
        | cons mark more =>
            refine ⟨mark, more, rfl, fun isHex => ?_⟩
            rcases hexMark_plain mark isHex with ⟨notDigit, _, _⟩
            simp [scanUnsigned, digit, scanFraction, notDigit] at scanned
      · simp [scanUnsigned, digit, scanFraction_plain point] at scanned

/-- A number that ends before a delimiter is read in the same way if more text
follows. -/
theorem strtod_append {c : UInt8} (scanned : (strtod text).rest = some (c :: rest))
    (delimits : Delimits c) (visible : text.dropWhile isSpace = text) (moved : text ≠ c :: rest)
    (more : Bytes) : strtod (text ++ more) = (strtod text).followedBy more := by
  simp only [strtod, visible] at scanned
  split at scanned
  · cases scanned
  next notOther =>
  cases unsigned : scanUnsigned (readSign text).2 with
  | none =>
      rw [unsigned] at scanned
      exact absurd (Option.some.inj scanned) moved
  | some found =>
      simp only [unsigned] at scanned
      generalize isMagnitude : (if (readSign text).1 = true then -found.1 else found.1) = magnitude
        at scanned
      split at scanned
      · cases scanned
      next inRange =>
      have isRest : found.2 = c :: rest := by
        split at scanned
        · exact Option.some.inj scanned
        · exact Option.some.inj scanned
      have isFound : scanUnsigned (readSign text).2 = some (found.1, c :: rest) := by
        rw [unsigned, ← isRest]
      cases body : (readSign text).2 with
      | nil =>
          rw [body] at isFound
          cases isFound
      | cons head tail =>
          have nonempty : text ≠ [] := by
            intro empty
            rw [empty] at body
            cases body
          have skipped : (text ++ more).dropWhile isSpace = text ++ more := by
            have stops : text.dropWhile isSpace ≠ [] := by
              rw [visible]
              exact nonempty
            rw [(span_append stops more).2, visible]
          have longer := scanUnsigned_append isFound delimits more
          rw [body] at isFound longer
          rcases scanUnsigned_numeric isFound delimits with ⟨numeric, mark, others, isTail, notHex⟩
          have notOtherThere : startsOther (head :: tail ++ more) = false := by
            apply startsOther_of_numeric numeric
            intro next behind equal
            rw [isTail] at equal
            rw [← (List.cons.inj equal).1]
            exact notHex
          rw [body] at notOther
          simp only [strtod, skipped, visible, readSign_append nonempty, body, notOtherThere, longer,
            isFound, Bool.false_eq_true, if_false, isMagnitude, if_neg inRange, if_neg notOther]
          split
          · rfl
          · rfl

end Continued
end Binary64
end ChatHub
