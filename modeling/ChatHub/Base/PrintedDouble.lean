import ChatHub.Base.Significand

namespace ChatHub

/-!
# Printed doubles

`%1.17g` writes seventeen significant digits, with leading zeros from
`10 ^ -4` on and with an exponent below that and from `10 ^ 17` on.  In each
form the text denotes the number rounded to these digits.  This is nearer than
half a unit of a `double`, so reading the text gives every `double` back that
has a full significand.  The others are read as well, but `strtod` reports
them as out of range.
-/

/-! ## Digits -/

theorem digitsFrom_eq (start : Nat) (digits : Bytes) :
    digitsFrom start digits = start * 10 ^ digits.length + digitsValue digits := by
  induction digits generalizing start with
  | nil => simp [digitsFrom, digitsValue]
  | cons digit rest inductionHypothesis =>
      have split : forall start, digitsFrom start (digit :: rest) =
          digitsFrom (10 * start + (digit.toNat - 48)) rest := fun _ => rfl
      unfold digitsValue
      rw [split, split, inductionHypothesis, inductionHypothesis, List.length_cons, pow_succ]
      ring

theorem digitsValue_append (front back : Bytes) :
    digitsValue (front ++ back) = digitsValue front * 10 ^ back.length + digitsValue back := by
  unfold digitsValue
  rw [digitsFrom_append, digitsFrom_eq]
  rfl

theorem digitsValue_zeros {zeros : Bytes} (all : forall byte, byte ∈ zeros -> byte = digitByte 0) :
    digitsValue zeros = 0 := by
  induction zeros with
  | nil => rfl
  | cons zero rest inductionHypothesis =>
      rw [all zero List.mem_cons_self]
      change digitsValue rest = 0
      exact inductionHypothesis (fun byte member => all byte (List.mem_cons_of_mem _ member))

namespace Binary64

theorem padded_length {width n : Nat} (small : (natText n).length ≤ width) :
    (padded width n).length = width := by
  unfold padded
  rw [List.length_append, List.length_replicate]
  omega

theorem digitsValue_padded (width n : Nat) : digitsValue (padded width n) = n := by
  unfold padded
  rw [digitsValue_append, digitsValue_zeros (fun byte member => List.eq_of_mem_replicate member),
    digitsValue_natText]
  omega

/-- The digits behind the point, without trailing zeros. -/
def fractionDigits (width n : Nat) : Bytes :=
  (padded width n).rdropWhile (fun byte => byte == digitByte 0)

/-- Leaving out trailing zeros divides the number that the digits denote. -/
theorem fractionDigits_value {width n : Nat} (small : (natText n).length ≤ width) (front : Bytes) :
    (fractionDigits width n).length ≤ width ∧
      digitsValue (front ++ fractionDigits width n) * 10 ^ (width - (fractionDigits width n).length) =
        digitsValue front * 10 ^ width + n := by
  have whole : fractionDigits width n ++
      (padded width n).rtakeWhile (fun byte => byte == digitByte 0) = padded width n :=
    List.rdropWhile_append_rtakeWhile
  have zeros : digitsValue ((padded width n).rtakeWhile (fun byte => byte == digitByte 0)) = 0 := by
    apply digitsValue_zeros
    intro byte member
    have isZero := List.mem_rtakeWhile_imp member
    simpa using isZero
  generalize (padded width n).rtakeWhile (fun byte => byte == digitByte 0) = dropped at whole zeros
  have lengths := congrArg List.length whole
  rw [List.length_append, padded_length small] at lengths
  refine ⟨by omega, ?_⟩
  have behind : width - (fractionDigits width n).length = dropped.length := by omega
  calc
    digitsValue (front ++ fractionDigits width n) * 10 ^ (width - (fractionDigits width n).length) =
        digitsValue (front ++ fractionDigits width n ++ dropped) := by
      rw [digitsValue_append (front ++ fractionDigits width n), zeros, behind, Nat.add_zero]
    _ = digitsValue (front ++ padded width n) := by rw [List.append_assoc, whole]
    _ = digitsValue front * 10 ^ width + n := by
      rw [digitsValue_append, digitsValue_padded, padded_length small]

/-! ## Reading -/

theorem fractionText_eq (width n : Nat) :
    fractionText width n =
      if fractionDigits width n = [] then [] else 0x2E :: fractionDigits width n := by
  unfold fractionText fractionDigits
  split
  · next none => rw [if_pos none]
  · next some => rw [if_neg some]

/-- The fraction is read up to what follows it. -/
theorem scanFraction_fractionText (width n : Nat) {tail : Bytes}
    (ends : forall byte, tail.head? = some byte -> isDigit byte = false ∧ byte ≠ 0x2E) :
    scanFraction (fractionText width n ++ tail) = (fractionDigits width n, tail) := by
  rw [fractionText_eq]
  split
  · next none =>
      rw [none, List.nil_append]
      cases tail with
      | nil => rfl
      | cons head behind => exact scanFraction_plain (ends head rfl).2 behind
  · have digits : forall byte, byte ∈ fractionDigits width n -> isDigit byte = true :=
      fun byte member => padded_isDigit ((List.rdropWhile_prefix _ _).subset member)
    rcases digits_span digits (fun byte isHead => (ends byte isHead).1) with ⟨taken, dropped⟩
    rw [List.cons_append, scanFraction, taken, dropped]

/-- The text of an exponent. -/
def exponentText (place : ℤ) : Bytes :=
  0x65 :: (if place < 0 then 0x2D else 0x2B) :: padded 2 place.natAbs

/-- An exponent is read up to a delimiter. -/
theorem scanExponent_exponentText (place : ℤ) {rest : Bytes}
    (delimited : forall byte, rest.head? = some byte -> Delimits byte) :
    scanExponent (exponentText place ++ rest) = (place, rest) := by
  have digits : forall byte, byte ∈ padded 2 place.natAbs -> isDigit byte = true :=
    fun byte member => padded_isDigit member
  rcases digits_span digits (fun byte isHead => (delimited byte isHead).1) with ⟨taken, dropped⟩
  have nonempty : padded 2 place.natAbs ≠ [] :=
    List.append_ne_nil_of_right_ne_nil _ (natText_ne_nil place.natAbs)
  have letter : toLower 0x65 = 0x65 := by decide
  have signed : readSign ((if place < 0 then 0x2D else 0x2B) :: (padded 2 place.natAbs ++ rest)) =
      (decide (place < 0), padded 2 place.natAbs ++ rest) := by
    by_cases negative : place < 0
    · rw [if_pos negative, decide_eq_true negative]
      rfl
    · rw [if_neg negative, decide_eq_false negative]
      rfl
  unfold exponentText scanExponent
  simp only [List.cons_append, signed, taken, dropped, letter, digitsValue_padded,
    decide_eq_true_eq]
  rw [if_pos ⟨trivial, nonempty⟩]
  congr 1
  split <;> omega

/-- Digits with a point among them, and what may follow them. -/
def pointText (width mantissa : Nat) (tail : Bytes) : Bytes :=
  natText (mantissa / 10 ^ width) ++ (fractionText width (mantissa % 10 ^ width) ++ tail)

theorem fractionDigits_point (width mantissa : Nat) :
    (fractionDigits width (mantissa % 10 ^ width)).length ≤ width ∧
      digitsValue (natText (mantissa / 10 ^ width) ++ fractionDigits width (mantissa % 10 ^ width)) *
        10 ^ (width - (fractionDigits width (mantissa % 10 ^ width)).length) = mantissa := by
  by_cases none : width = 0
  · have nothing : fractionDigits 0 0 = [] := by decide
    rw [none, pow_zero, Nat.mod_one, nothing, Nat.div_one, List.append_nil, digitsValue_natText]
    exact ⟨Nat.le_refl 0, Nat.mul_one mantissa⟩
  · have short : (natText (mantissa % 10 ^ width)).length ≤ width :=
      natText_length_le (Nat.pos_of_ne_zero none) (Nat.mod_lt _ (by positivity))
    rcases fractionDigits_value short (natText (mantissa / 10 ^ width)) with ⟨fits, value⟩
    rw [digitsValue_natText, Nat.div_add_mod'] at value
    exact ⟨fits, value⟩

/-- What digits with a point and an exponent denote. -/
theorem scanUnsigned_pointText (width mantissa : Nat) {tail rest : Bytes} {place : ℤ}
    (ends : forall byte, tail.head? = some byte -> isDigit byte = false ∧ byte ≠ 0x2E)
    (exponent : scanExponent tail = (place, rest)) :
    scanUnsigned (pointText width mantissa tail) =
      some ((mantissa : ℚ) * 10 ^ (place - width), rest) := by
  have noDigit : forall byte, (fractionText width (mantissa % 10 ^ width) ++ tail).head? = some byte ->
      isDigit byte = false := by
    intro byte isHead
    rw [fractionText_eq] at isHead
    split at isHead
    · exact (ends byte isHead).1
    · cases isHead
      rfl
  rcases natText_span (mantissa / 10 ^ width) noDigit with ⟨taken, dropped⟩
  rcases fractionDigits_point width mantissa with ⟨fits, value⟩
  unfold pointText scanUnsigned
  simp only [taken, dropped, scanFraction_fractionText width _ ends, natText_ne_nil, false_and,
    if_false, exponent]
  generalize (fractionDigits width (mantissa % 10 ^ width)).length = digits at fits value
  generalize digitsValue (natText (mantissa / 10 ^ width) ++ fractionDigits width (mantissa % 10 ^ width)) =
    significant at value
  have split : place - digits = place - width + ((width - digits : ℕ) : ℤ) := by omega
  rw [split, zpow_add₀ (by norm_num), zpow_natCast, ← value]
  push_cast
  congr 2
  ring

/-- The text begins with a digit, and the point follows if that is zero. -/
theorem pointText_shape (width : Nat) {mantissa : Nat} (positive : 0 < mantissa) (tail : Bytes) :
    Exists fun head => Exists fun more => pointText width mantissa tail = head :: more ∧
      isDigit head = true ∧ (head = 0x30 -> more.head? = some 0x2E) := by
  unfold pointText
  by_cases zero : mantissa / 10 ^ width = 0
  · rw [zero, natText_of_lt_ten (by decide)]
    have value := (fractionDigits_point width mantissa).2
    rw [zero, natText_of_lt_ten (by decide)] at value
    have some : fractionDigits width (mantissa % 10 ^ width) ≠ [] := by
      intro none
      rw [none] at value
      have noDigits : digitsValue ([digitByte 0] ++ []) = 0 := by decide
      rw [noDigits, Nat.zero_mul] at value
      omega
    rw [fractionText_eq, if_neg some]
    exact ⟨digitByte 0, _, rfl, by decide, fun _ => rfl⟩
  · rcases natText_head (Nat.pos_of_ne_zero zero) with ⟨digit, rest, shape, nonzero, small⟩
    rw [shape]
    refine ⟨digitByte digit, _, rfl, isDigit_digitByte small, fun isZero => ?_⟩
    have value := digitByte_toNat small
    rw [isZero] at value
    change 48 = 48 + digit at value
    omega

/-! ## Printing -/

/-- The digits that are printed, before they are carried. -/
theorem printed_digits {q : ℚ} (nonzero : q ≠ 0) :
    Exists fun digits : ℕ => (nearest (|q| * 10 ^ (16 - Int.log 10 |q|))).toNat = digits ∧
      10 ^ 16 ≤ digits ∧ digits ≤ 10 ^ 17 ∧
      |(digits : ℚ) * 10 ^ (Int.log 10 |q| - 16) - (|q|)| ≤ 10 ^ (Int.log 10 |q| - 16) / 2 := by
  have positive : 0 < |q| := abs_pos.mpr nonzero
  have low := Int.zpow_log_le_self (by decide : 1 < 10) positive
  have high := Int.lt_zpow_succ_log_self (by decide : 1 < 10) |q|
  generalize Int.log 10 |q| = exponent at low high
  have unitPos : (0 : ℚ) < 10 ^ (exponent - 16) := zpow_pos (by norm_num) _
  have inverse : (10 : ℚ) ^ (16 - exponent) = (10 ^ (exponent - 16))⁻¹ := by
    rw [← zpow_neg, neg_sub]
  have lowSplit : ((10 : ℕ) : ℚ) ^ exponent = 10 ^ 16 * 10 ^ (exponent - 16) := by
    rw [Nat.cast_ofNat, ← zpow_natCast, ← zpow_add₀ (by norm_num)]
    congr 1
    push_cast
    ring
  have highSplit : ((10 : ℕ) : ℚ) ^ (exponent + 1) = 10 ^ 17 * 10 ^ (exponent - 16) := by
    rw [Nat.cast_ofNat, ← zpow_natCast, ← zpow_add₀ (by norm_num)]
    congr 1
    push_cast
    ring
  rw [lowSplit, ← le_div_iff₀ unitPos] at low
  rw [highSplit, ← div_lt_iff₀ unitPos] at high
  rw [inverse, ← div_eq_mul_inv]
  have near := abs_nearest_sub_le (|q| / 10 ^ (exponent - 16))
  have bounds := abs_le.mp near
  have lowNearest : (10 : ℚ) ^ 16 - 1 < nearest (|q| / 10 ^ (exponent - 16)) := by
    linarith [bounds.1]
  have highNearest : (nearest (|q| / 10 ^ (exponent - 16)) : ℚ) < 10 ^ 17 + 1 := by
    linarith [bounds.2]
  have lowInt : 10 ^ 16 - 1 < nearest (|q| / 10 ^ (exponent - 16)) := by exact_mod_cast lowNearest
  have highInt : nearest (|q| / 10 ^ (exponent - 16)) < 10 ^ 17 + 1 := by exact_mod_cast highNearest
  have digits : ((nearest (|q| / 10 ^ (exponent - 16))).toNat : ℤ) =
      nearest (|q| / 10 ^ (exponent - 16)) := Int.toNat_of_nonneg (by omega)
  refine ⟨(nearest (|q| / 10 ^ (exponent - 16))).toNat, rfl, by omega, by omega, ?_⟩
  have cast : (((nearest (|q| / 10 ^ (exponent - 16))).toNat : ℕ) : ℚ) =
      nearest (|q| / 10 ^ (exponent - 16)) := by exact_mod_cast digits
  rw [cast]
  have scaled : (nearest (|q| / 10 ^ (exponent - 16)) : ℚ) * 10 ^ (exponent - 16) - |q| =
      ((nearest (|q| / 10 ^ (exponent - 16)) : ℚ) - |q| / 10 ^ (exponent - 16)) *
        10 ^ (exponent - 16) := by
    rw [sub_mul, div_mul_cancel₀ _ (ne_of_gt unitPos)]
  rw [scaled, abs_mul, abs_of_pos unitPos]
  linarith [mul_le_mul_of_nonneg_right near (le_of_lt unitPos)]

/-- Seventeen digits are nearer than half a unit of a `double`. -/
theorem near_of_digits {digits : ℕ} {place : ℤ} {a : ℚ} (low : 10 ^ 16 ≤ digits)
    (near : |(digits : ℚ) * 10 ^ place - a| ≤ 10 ^ place / 2) :
    (digits : ℚ) * 10 ^ place ≠ 0 ∧
      |(digits : ℚ) * 10 ^ place - a| < 2 ^ precisePlace ((digits : ℚ) * 10 ^ place) / 2 := by
  have lowCast : (10 : ℚ) ^ 16 ≤ digits := by exact_mod_cast low
  have unitPos : (0 : ℚ) < 10 ^ place := zpow_pos (by norm_num) _
  have positive : (0 : ℚ) < (digits : ℚ) * 10 ^ place :=
    mul_pos (lt_of_lt_of_le (by norm_num) lowCast) unitPos
  have large : (10 : ℚ) ^ 16 * 10 ^ place ≤ (digits : ℚ) * 10 ^ place :=
    mul_le_mul_of_nonneg_right lowCast unitPos.le
  have below := (place_bounds (ne_of_gt positive)).2
  rw [abs_of_pos positive] at below
  refine ⟨ne_of_gt positive, ?_⟩
  generalize (digits : ℚ) * 10 ^ place = decimal at near large below
  generalize (2 : ℚ) ^ precisePlace decimal = last at below
  norm_num at large below
  linarith

/-- The printed form of a number other than zero: a sign, and seventeen digits
with a point or an exponent that denote a number near it. -/
theorem formatG17_point {q : ℚ} (nonzero : q ≠ 0) :
    Exists fun mantissa : ℕ => Exists fun place : ℤ => 10 ^ 16 ≤ mantissa ∧ mantissa < 10 ^ 17 ∧
      |(mantissa : ℚ) * 10 ^ (place - 16) - (|q|)| <
        2 ^ precisePlace ((mantissa : ℚ) * 10 ^ (place - 16)) / 2 ∧
      formatG17 q = (if q < 0 then ascii "-" else []) ++
        (if -4 ≤ place ∧ place < 17 then pointText (16 - place).toNat mantissa []
          else pointText 16 mantissa (exponentText place)) := by
  rcases printed_digits nonzero with ⟨digits, isDigits, low, high, near⟩
  have close := (near_of_digits low near).2
  have layout : forall (mantissa : ℕ) (place : ℤ), (if -4 ≤ place ∧ place < 17 then
        (if q < 0 then ascii "-" else []) ++ natText (mantissa / 10 ^ (16 - place).toNat) ++
          fractionText (16 - place).toNat (mantissa % 10 ^ (16 - place).toNat)
      else
        (if q < 0 then ascii "-" else []) ++ natText (mantissa / 10 ^ 16) ++
          fractionText 16 (mantissa % 10 ^ 16) ++ ascii "e" ++
          (if place < 0 then ascii "-" else ascii "+") ++ padded 2 place.natAbs) =
      (if q < 0 then ascii "-" else []) ++
        (if -4 ≤ place ∧ place < 17 then pointText (16 - place).toNat mantissa []
          else pointText 16 mantissa (exponentText place)) := by
    intro mantissa place
    unfold pointText exponentText
    split
    · simp only [List.append_nil, List.append_assoc]
    · have letters : forall behind, ascii "e" ++ ((if place < 0 then ascii "-" else ascii "+") ++ behind) =
          0x65 :: (if place < 0 then 0x2D else 0x2B) :: behind := by
        intro behind
        split <;> rfl
      simp only [List.append_assoc, letters]
  have formatted := layout (if digits = 10 ^ 17 then 10 ^ 16 else digits)
    (if digits = 10 ^ 17 then Int.log 10 |q| + 1 else Int.log 10 |q|)
  refine ⟨if digits = 10 ^ 17 then 10 ^ 16 else digits,
    if digits = 10 ^ 17 then Int.log 10 |q| + 1 else Int.log 10 |q|, ?_, ?_, ?_, ?_⟩
  · split <;> omega
  · split <;> omega
  · split
    · next carried =>
        have shifted : ((10 ^ 16 : ℕ) : ℚ) * 10 ^ (Int.log 10 |q| + 1 - 16) =
            (digits : ℚ) * 10 ^ (Int.log 10 |q| - 16) := by
          have next : Int.log 10 |q| + 1 - 16 = Int.log 10 |q| - 16 + 1 := by ring
          rw [carried, next, zpow_add_one₀ (by norm_num)]
          push_cast
          ring
        rw [shifted]
        exact close
    · exact close
  · rw [← formatted]
    unfold formatG17
    rw [if_neg nonzero]
    simp only [isDigits]

/-! ## Printing and reading -/

theorem numberChar_plain : forall byte, NumberChar byte ->
    byte ≠ 0x78 ∧ byte ≠ 0x58 ∧ toLower byte ≠ 0x78 := by
  unfold NumberChar
  apply forall_byte
  decide +kernel

/-- The characters of a number are not the start of a hexadecimal number, an
infinity or a NaN. -/
theorem startsOther_of_chars {head : UInt8} {more rest : Bytes} (digit : isDigit head = true)
    (chars : forall byte, byte ∈ more -> NumberChar byte)
    (delimited : forall byte, rest.head? = some byte -> Delimits byte) :
    startsOther (head :: (more ++ rest)) = false := by
  apply startsOther_of_numeric (Or.inl digit)
  intro mark behind same
  cases more with
  | nil => exact (delimited mark (by rw [show rest = mark :: behind from same]; rfl)).2.2.2
  | cons second others =>
      cases same
      exact (numberChar_plain mark (chars mark List.mem_cons_self)).2.2

/-- In both notations the text of a number other than zero is a sign and
digits that are scanned as the number they denote. -/
theorem scanned_formatG17 {q : ℚ} (nonzero : q ≠ 0) {rest : Bytes}
    (delimited : forall byte, rest.head? = some byte -> Delimits byte) :
    Exists fun mantissa : ℕ => Exists fun place : ℤ => 10 ^ 16 ≤ mantissa ∧ mantissa < 10 ^ 17 ∧
      |(mantissa : ℚ) * 10 ^ (place - 16) - (|q|)| <
        2 ^ precisePlace ((mantissa : ℚ) * 10 ^ (place - 16)) / 2 ∧
      Exists fun head => Exists fun more =>
        formatG17 q = (if q < 0 then ascii "-" else []) ++ head :: more ∧ isDigit head = true ∧
        scanUnsigned (head :: (more ++ rest)) = some ((mantissa : ℚ) * 10 ^ (place - 16), rest) := by
  rcases formatG17_point nonzero with ⟨mantissa, place, low, high, near, printed⟩
  have positive : 0 < mantissa := by omega
  refine ⟨mantissa, place, low, high, near, ?_⟩
  have ends : forall byte, rest.head? = some byte -> isDigit byte = false ∧ byte ≠ 0x2E :=
    fun byte isHead => ⟨(delimited byte isHead).1, (delimited byte isHead).2.1⟩
  rw [printed]
  by_cases fixed : -4 ≤ place ∧ place < 17
  · rw [if_pos fixed]
    rcases pointText_shape (16 - place).toNat positive [] with ⟨head, more, shape, digit, _⟩
    refine ⟨head, more, by rw [shape], digit, ?_⟩
    have scanned := @scanUnsigned_pointText (16 - place).toNat mantissa rest rest 0 ends
      (scanExponent_of_delimited delimited)
    have whole : pointText (16 - place).toNat mantissa rest = head :: (more ++ rest) := by
      rw [← List.cons_append, ← shape]
      unfold pointText
      simp only [List.append_nil, List.append_assoc]
    have exponent : 0 - ((16 - place).toNat : ℤ) = place - 16 := by omega
    rwa [whole, exponent] at scanned
  · rw [if_neg fixed]
    rcases pointText_shape 16 positive (exponentText place) with ⟨head, more, shape, digit, _⟩
    refine ⟨head, more, by rw [shape], digit, ?_⟩
    have letter : forall byte, (exponentText place ++ rest).head? = some byte ->
        isDigit byte = false ∧ byte ≠ 0x2E := by
      intro byte isHead
      cases isHead
      decide
    have scanned := scanUnsigned_pointText 16 mantissa letter
      (scanExponent_exponentText place delimited)
    have whole : pointText 16 mantissa (exponentText place ++ rest) = head :: (more ++ rest) := by
      rw [← List.cons_append, ← shape]
      unfold pointText
      simp only [List.append_assoc]
    rwa [whole] at scanned

/-- With the sign of a number, a text of its magnitude is as near. -/
theorem signed_near {q magnitude : ℚ}
    (near : |magnitude - (|q|)| < 2 ^ precisePlace magnitude / 2) :
    |(if q < 0 then -magnitude else magnitude) - q| <
      2 ^ precisePlace (if q < 0 then -magnitude else magnitude) / 2 := by
  by_cases negative : q < 0
  · rw [if_pos negative]
    rw [abs_of_neg negative] at near
    have distance : |-magnitude - q| = |magnitude - -q| := by
      rw [← abs_neg]
      congr 1
      ring
    rw [distance]
    unfold precisePlace at near ⊢
    rw [abs_neg]
    exact near
  · rw [if_neg negative]
    rwa [abs_of_nonneg (not_lt.mp negative)] at near

/-- Reading a printed number is reading a number of seventeen digits near it. -/
theorem strtod_printed {q : ℚ} (nonzero : q ≠ 0) {rest : Bytes}
    (delimited : forall byte, rest.head? = some byte -> Delimits byte) :
    Exists fun x : ℚ => x ≠ 0 ∧ |x - q| < 2 ^ precisePlace x / 2 ∧
      (Exists fun mantissa : ℕ => Exists fun place : ℤ => 10 ^ 16 ≤ mantissa ∧
        mantissa < 10 ^ 17 ∧ |x| = (mantissa : ℚ) * 10 ^ (place - 16)) ∧
      strtod (formatG17 q ++ rest) =
        if Overflows x ∨ Underflows x then .outOfRange else .number (round x) rest := by
  rcases scanned_formatG17 nonzero delimited with
    ⟨mantissa, place, low, high, near, head, more, text, digit, scanned⟩
  have chars : forall byte, byte ∈ more -> NumberChar byte := by
    intro byte member
    apply formatG17_chars q
    rw [text]
    exact List.mem_append_right _ (List.mem_cons_of_mem _ member)
  have positive : (0 : ℚ) < (mantissa : ℚ) * 10 ^ (place - 16) := by
    have mantissaPos : (0 : ℚ) < mantissa := by exact_mod_cast (by omega : 0 < mantissa)
    exact mul_pos mantissaPos (zpow_pos (by norm_num) _)
  generalize magnitudeIs : (mantissa : ℚ) * 10 ^ (place - 16) = magnitude at near scanned positive
  refine ⟨if q < 0 then -magnitude else magnitude, ?_, signed_near near,
    ⟨mantissa, place, low, high, ?_⟩, ?_⟩
  · split
    · exact neg_ne_zero.mpr (ne_of_gt positive)
    · exact ne_of_gt positive
  · rw [magnitudeIs]
    split
    · rw [abs_neg, abs_of_pos positive]
    · exact abs_of_pos positive
  · rw [text, List.append_assoc, List.cons_append]
    exact strtod_signed (q < 0) digit (startsOther_of_chars digit chars delimited) scanned
      (fun _ => ne_of_gt positive)

/-! ## Doubles -/

/-- A finite `double`. -/
structure FiniteDouble (q : ℚ) : Prop where
  rounded : round q = q
  bounded : |q| < 2 ^ 1024

/-- Zero, or a number with a full significand. -/
def Normal (q : ℚ) : Prop :=
  q = 0 ∨ 1 / 2 ^ 1022 ≤ |q|

/-- Whatever is read is a finite `double`. -/
theorem strtod_finite {text rest : Bytes} {value : ℚ} (scanned : strtod text = .number value rest) :
    FiniteDouble value := by
  simp only [strtod] at scanned
  split at scanned
  · cases scanned
  · split at scanned
    · cases scanned
      exact ⟨rfl, by norm_num⟩
    · rw [ite_eq_iff] at scanned
      rcases scanned with ⟨_, impossible⟩ | ⟨inRange, same⟩
      · cases impossible
      · rw [ite_eq_iff] at same
        rcases same with ⟨_, impossible⟩ | ⟨_, same⟩
        · cases impossible
        · cases same
          exact ⟨round_round _, not_le.mp (fun overflows => inRange (Or.inl overflows))⟩

/-- A double with a full significand is read back from its printed form. -/
theorem strtod_formatG17 {q : ℚ} (finite : FiniteDouble q) (normal : Normal q) {rest : Bytes}
    (delimited : forall byte, rest.head? = some byte -> Delimits byte) :
    strtod (formatG17 q ++ rest) = .number q rest := by
  by_cases zero : q = 0
  · have printed : formatG17 q = intText 0 := by
      rw [zero]
      rfl
    have read := @strtod_intText 0 (by norm_num) rest delimited
    rw [Int.cast_zero] at read
    rw [printed, read, zero]
  · rcases strtod_printed zero delimited with ⟨x, nonzero, near, _, read⟩
    have rounded := round_of_near nonzero finite.rounded near
    have inRange : Not (Overflows x ∨ Underflows x) := by
      rintro (overflows | ⟨_, _, small⟩)
      · unfold Overflows at overflows
        rw [rounded.1] at overflows
        exact absurd finite.bounded (not_lt.mpr overflows)
      · rw [rounded.2] at small
        exact absurd small (not_lt.mpr (normal.resolve_left zero))
    rw [read, if_neg inRange, rounded.1]

/-- Seventeen digits far behind the point are never the value of a `double`:
the power of five in the denominator is too large. -/
theorem round_ne_of_digits {x : ℚ} {mantissa : ℕ} {place : ℤ} (low : 10 ^ 16 ≤ mantissa)
    (high : mantissa < 10 ^ 17) (digits : |x| = (mantissa : ℚ) * 10 ^ (place - 16))
    (small : |x| < 10 ^ (-9 : ℤ)) : round x ≠ x := by
  intro exact_
  rcases multiple_of_exact exact_ with ⟨n, multiple⟩
  have leastPlace : -((1074 : ℕ) : ℤ) ≤ max (precisePlace x) (-1074) := le_max_right _ _
  generalize max (precisePlace x) (-1074) = least at multiple leastPlace
  generalize 1074 = behind at leastPlace
  have unitPos : (0 : ℚ) < 10 ^ (place - 16) := zpow_pos (by norm_num) _
  have far : place < -9 := by
    apply (zpow_lt_zpow_iff_right₀ (by norm_num : (1 : ℚ) < 10)).mp
    refine lt_of_le_of_lt ?_ small
    have lowCast : (10 : ℚ) ^ 16 ≤ mantissa := by exact_mod_cast low
    have split : (10 : ℚ) ^ place = 10 ^ 16 * 10 ^ (place - 16) := by
      rw [← zpow_natCast, ← zpow_add₀ (by norm_num)]
      congr 1
      push_cast
      ring
    rw [digits, split]
    exact mul_le_mul_of_nonneg_right lowCast unitPos.le
  have width : ((16 - place).toNat : ℤ) = 16 - place := Int.toNat_of_nonneg (by omega)
  have fine : ((least + behind).toNat : ℤ) = least + behind := Int.toNat_of_nonneg (by omega)
  generalize (16 - place).toNat = zeros at width
  generalize (least + behind).toNat = bits at fine
  -- both denominators cleared
  have decimal : |x| * 10 ^ zeros = mantissa := by
    rw [digits, mul_assoc, ← zpow_natCast (10 : ℚ) zeros, ← zpow_add₀ (by norm_num), width]
    norm_num
  have binary : |x| * 2 ^ behind = n.natAbs * 2 ^ bits := by
    have power : (2 : ℚ) ^ least * 2 ^ behind = 2 ^ bits := by
      rw [← zpow_natCast, ← zpow_natCast, ← zpow_add₀ (by norm_num), fine]
    rw [multiple, abs_mul, abs_of_pos (zpow_pos (by norm_num) least : (0 : ℚ) < 2 ^ least),
      mul_assoc, power, Nat.cast_natAbs, Int.cast_abs]
  have equal : mantissa * 2 ^ behind = n.natAbs * 2 ^ bits * 10 ^ zeros := by
    have cast : (mantissa : ℚ) * 2 ^ behind = n.natAbs * 2 ^ bits * 10 ^ zeros := by
      rw [← decimal, ← binary]
      ring
    exact_mod_cast cast
  have divides : 5 ^ 26 ∣ mantissa := by
    have coprime : forall width, Nat.Coprime (5 ^ 26) (2 ^ width) :=
      fun width => Nat.Coprime.pow 26 width (by decide)
    apply (coprime behind).dvd_of_dvd_mul_right
    rw [equal]
    refine Dvd.dvd.mul_left ((pow_dvd_pow 5 (by omega : 26 ≤ zeros)).trans ?_) _
    exact pow_dvd_pow_of_dvd (by decide) zeros
  have atMost := Nat.le_of_dvd (by omega) divides
  omega

/-- `strtod` does not read a printed number without a full significand. -/
theorem strtod_formatG17_subnormal {q : ℚ} (finite : FiniteDouble q) (subnormal : Not (Normal q))
    {rest : Bytes} (delimited : forall byte, rest.head? = some byte -> Delimits byte) :
    strtod (formatG17 q ++ rest) = .outOfRange := by
  have nonzero : q ≠ 0 := fun zero => subnormal (Or.inl zero)
  have small : |q| < 1 / 2 ^ 1022 := not_le.mp (fun large => subnormal (Or.inr large))
  rcases strtod_printed nonzero delimited with
    ⟨x, xNonzero, near, ⟨mantissa, place, low, high, digits⟩, read⟩
  have rounded := round_of_near xNonzero finite.rounded near
  have tiny : |x| < 10 ^ (-9 : ℤ) := by
    have last := (place_bounds xNonzero).1
    have apart := abs_sub_abs_le_abs_sub x q
    generalize (2 : ℚ) ^ precisePlace x = unit at near last
    have bound : (1 : ℚ) / 2 ^ 1022 ≤ 1 / 2 ^ 40 := by
      apply one_div_le_one_div_of_le (by norm_num)
      exact pow_le_pow_right₀ (by norm_num) (by norm_num)
    generalize (1 : ℚ) / 2 ^ 1022 = least at small bound
    norm_num at last bound ⊢
    linarith
  have underflows : Underflows x :=
    ⟨xNonzero, round_ne_of_digits low high digits tiny, by rw [rounded.2]; exact small⟩
  rw [read, if_pos (Or.inr underflows)]

/-- The printed form begins with a sign or a digit, and the point follows if
the first digit is zero. -/
theorem formatG17_shape {q : ℚ} (nonzero : q ≠ 0) :
    Exists fun head => Exists fun more =>
      formatG17 q = (if q < 0 then ascii "-" else []) ++ head :: more ∧
      isDigit head = true ∧ (head = 0x30 -> more.head? = some 0x2E) := by
  rcases formatG17_point nonzero with ⟨mantissa, place, low, _, _, printed⟩
  have positive : 0 < mantissa := by omega
  rw [printed]
  by_cases fixed : -4 ≤ place ∧ place < 17
  · rw [if_pos fixed]
    rcases pointText_shape (16 - place).toNat positive [] with ⟨head, more, shape, rest⟩
    exact ⟨head, more, by rw [shape], rest⟩
  · rw [if_neg fixed]
    rcases pointText_shape 16 positive (exponentText place) with ⟨head, more, shape, rest⟩
    exact ⟨head, more, by rw [shape], rest⟩

theorem formatG17_starts (q : ℚ) : Exists fun head => Exists fun more =>
    formatG17 q = head :: more ∧ (head = 0x2D ∨ isDigit head = true) := by
  by_cases zero : q = 0
  · rw [zero]
    exact ⟨0x30, [], rfl, Or.inr rfl⟩
  · rcases formatG17_shape zero with ⟨head, more, text, digit, _⟩
    rw [text]
    by_cases negative : q < 0
    · rw [if_pos negative]
      exact ⟨0x2D, head :: more, rfl, Or.inl rfl⟩
    · rw [if_neg negative]
      exact ⟨head, more, rfl, Or.inr digit⟩

/-! ## The length -/

theorem fractionText_length_le_of_fits {width n : Nat} (small : (natText n).length ≤ width) :
    (fractionText width n).length ≤ 1 + width := by
  have digits := (fractionDigits_value small []).1
  rw [fractionText_eq]
  split
  · exact Nat.zero_le _
  · rw [List.length_cons]
    omega

/-- Seventeen digits and a point, with zeros in front if the number is small. -/
theorem pointText_length_le {width mantissa : Nat} (high : mantissa < 10 ^ 17) (tail : Bytes) :
    (pointText width mantissa tail).length ≤ max 18 (width + 2) + tail.length := by
  unfold pointText
  simp only [List.length_append]
  rcases Nat.eq_zero_or_pos width with none | positive
  · have whole : (natText (mantissa / 10 ^ 0)).length ≤ 17 :=
      natText_length_le (by decide) (by omega)
    have noFraction : fractionText 0 (mantissa % 10 ^ 0) = [] := by
      rw [pow_zero, Nat.mod_one]
      decide
    rw [none, noFraction, List.length_nil]
    omega
  · have fraction := fractionText_length_le_of_fits
      (natText_length_le positive (Nat.mod_lt mantissa (Nat.pow_pos (by decide : 0 < 10))))
    rcases Nat.lt_or_ge width 17 with few | many
    · have power : 10 ^ (17 - width) * 10 ^ width = 10 ^ 17 := by
        rw [← pow_add, Nat.sub_add_cancel (Nat.le_of_lt few)]
      have whole : (natText (mantissa / 10 ^ width)).length ≤ 17 - width := by
        apply natText_length_le (by omega)
        rw [Nat.div_lt_iff_lt_mul (Nat.pow_pos (by decide)), power]
        exact high
      omega
    · have small : mantissa < 10 ^ width :=
        Nat.lt_of_lt_of_le high (Nat.pow_le_pow_right (by decide) many)
      have whole : (natText (mantissa / 10 ^ width)).length = 1 := by
        rw [Nat.div_eq_of_lt small]
        decide
      omega

theorem exponentText_length_le {place : ℤ} (small : place.natAbs < 1000) :
    (exponentText place).length ≤ 5 := by
  have digits : (natText place.natAbs).length ≤ 3 := natText_length_le (by decide) (by omega)
  unfold exponentText padded
  simp only [List.length_cons, List.length_append, List.length_replicate]
  omega

/-- The least positive double. -/
theorem FiniteDouble.le_abs {q : ℚ} (finite : FiniteDouble q) (nonzero : q ≠ 0) :
    1 / 2 ^ 1074 ≤ |q| := by
  rcases multiple_of_exact finite.rounded with ⟨n, multiple⟩
  have place : (2 : ℚ) ^ (-1074 : ℤ) ≤ 2 ^ max (precisePlace q) (-1074) :=
    zpow_le_zpow_right₀ (by norm_num) (le_max_right _ _)
  have unit : (1 : ℚ) / 2 ^ 1074 = 2 ^ (-1074 : ℤ) := by
    rw [zpow_neg, one_div]
    rfl
  have unitPos : (0 : ℚ) < 2 ^ max (precisePlace q) (-1074) := zpow_pos (by norm_num) _
  generalize (2 : ℚ) ^ max (precisePlace q) (-1074) = last at multiple place unitPos
  have whole : (1 : ℚ) ≤ |(n : ℚ)| := by
    have nonzeroInt : n ≠ 0 := by
      intro zero
      rw [zero, Int.cast_zero, zero_mul] at multiple
      exact nonzero multiple
    exact_mod_cast Int.one_le_abs nonzeroInt
  rw [unit, multiple, abs_mul, abs_of_pos unitPos]
  calc (2 : ℚ) ^ (-1074 : ℤ) ≤ last := place
    _ = 1 * last := (one_mul last).symm
    _ ≤ |(n : ℚ)| * last := mul_le_mul_of_nonneg_right whole unitPos.le

private theorem two_pow_lt : (2 : ℚ) ^ 1076 < 10 ^ 999 := by
  calc (2 : ℚ) ^ 1076 = (2 ^ 4) ^ 269 := by rw [← pow_mul]
    _ ≤ (10 ^ 2) ^ 269 := pow_le_pow_left₀ (by norm_num) (by norm_num) 269
    _ = 10 ^ 538 := by rw [← pow_mul]
    _ < 10 ^ 999 := pow_lt_pow_right₀ (by norm_num) (by decide)

/-- The exponent of a double has at most three digits. -/
theorem printed_place {q : ℚ} (finite : FiniteDouble q) (nonzero : q ≠ 0) {mantissa : ℕ} {place : ℤ}
    (low : 10 ^ 16 ≤ mantissa) (high : mantissa < 10 ^ 17)
    (near : |(mantissa : ℚ) * 10 ^ (place - 16) - (|q|)| <
      2 ^ precisePlace ((mantissa : ℚ) * 10 ^ (place - 16)) / 2) : place.natAbs < 1000 := by
  have lowCast : (10 : ℚ) ^ 16 ≤ mantissa := by exact_mod_cast low
  have highCast : (mantissa : ℚ) ≤ 10 ^ 17 := by exact_mod_cast high.le
  have unitPos : (0 : ℚ) < 10 ^ (place - 16) := zpow_pos (by norm_num) _
  have above : (10 : ℚ) ^ place ≤ mantissa * 10 ^ (place - 16) := by
    have split : (10 : ℚ) ^ place = 10 ^ 16 * 10 ^ (place - 16) := by
      rw [← zpow_natCast, ← zpow_add₀ (by norm_num)]
      congr 1
      ring
    rw [split]
    exact mul_le_mul_of_nonneg_right lowCast unitPos.le
  have below : (mantissa : ℚ) * 10 ^ (place - 16) ≤ 10 ^ (place + 1) := by
    have split : (10 : ℚ) ^ (place + 1) = 10 ^ 17 * 10 ^ (place - 16) := by
      rw [← zpow_natCast, ← zpow_add₀ (by norm_num)]
      congr 1
      ring
    rw [split]
    exact mul_le_mul_of_nonneg_right highCast unitPos.le
  have positive : 0 < (mantissa : ℚ) * 10 ^ (place - 16) :=
    mul_pos (lt_of_lt_of_le (by norm_num) lowCast) unitPos
  have last := (place_bounds (ne_of_gt positive)).1
  rw [abs_of_pos positive] at last
  have least := finite.le_abs nonzero
  have most := finite.bounded
  generalize (mantissa : ℚ) * 10 ^ (place - 16) = decimal at near above below positive last
  generalize (2 : ℚ) ^ precisePlace decimal = unit at near last
  have apart := abs_lt.mp near
  have half : |q| ≤ 2 * decimal ∧ decimal ≤ 2 * |q| := by
    constructor
    · linarith [apart.1]
    · linarith [apart.2]
  by_contra large
  rcases lt_or_ge place 0 with negative | nonNegative
  · have tiny : (10 : ℚ) ^ (place + 1) ≤ 10 ^ (-999 : ℤ) :=
      zpow_le_zpow_right₀ (by norm_num) (by omega)
    have smaller : 2 * (10 : ℚ) ^ (-999 : ℤ) < 1 / 2 ^ 1074 := by
      have inverse : 2 * (10 : ℚ) ^ (-999 : ℤ) = 2 / 10 ^ 999 := by
        rw [zpow_neg, div_eq_mul_inv]
        rfl
      have doubled : (2 : ℚ) * 2 ^ 1074 < 1 * 10 ^ 999 := by
        rw [← pow_succ', one_mul]
        exact lt_trans (pow_lt_pow_right₀ (by norm_num) (by decide)) two_pow_lt
      rw [inverse, div_lt_div_iff₀ (pow_pos (by norm_num) _) (pow_pos (by norm_num) _)]
      exact doubled
    apply absurd least (not_le.mpr _)
    calc |q| ≤ 2 * decimal := half.1
      _ ≤ 2 * 10 ^ (-999 : ℤ) := by
        apply mul_le_mul_of_nonneg_left (below.trans tiny) (by norm_num)
      _ < 1 / 2 ^ 1074 := smaller
  · have huge : (10 : ℚ) ^ (1000 : ℤ) ≤ 10 ^ place :=
      zpow_le_zpow_right₀ (by norm_num) (by omega)
    have larger : 2 * (2 : ℚ) ^ 1024 < 10 ^ (1000 : ℤ) := by
      have power : (2 : ℚ) ^ (1024 + 1) < 10 ^ 1000 :=
        lt_trans (pow_lt_pow_right₀ (by norm_num) (by decide))
          (lt_trans two_pow_lt (pow_lt_pow_right₀ (by norm_num) (by decide)))
      rw [← pow_succ']
      exact_mod_cast power
    apply absurd most (not_lt.mpr _)
    have doubled : 2 * (2 : ℚ) ^ 1024 ≤ 2 * |q| :=
      larger.le.trans (huge.trans (above.trans half.2))
    exact le_of_mul_le_mul_left doubled (by norm_num)

/-- `%1.17g` writes at most twenty-four characters for a double. -/
theorem formatG17_length_le_of_finite {q : ℚ} (finite : FiniteDouble q) :
    (formatG17 q).length ≤ 24 := by
  by_cases zero : q = 0
  · rw [zero]
    decide
  rcases formatG17_point zero with ⟨mantissa, place, low, high, near, printed⟩
  have small := printed_place finite zero low high near
  have sign : (if q < 0 then ascii "-" else [] : Bytes).length ≤ 1 := by
    split <;> decide
  rw [printed, List.length_append]
  by_cases fixed : -4 ≤ place ∧ place < 17
  · have point := @pointText_length_le (16 - place).toNat mantissa high []
    rw [List.length_nil] at point
    rw [if_pos fixed]
    omega
  · have point := @pointText_length_le 16 mantissa high (exponentText place)
    have power := exponentText_length_le small
    rw [if_neg fixed]
    omega

end Binary64
end ChatHub
