import Mathlib.Data.Nat.Digits.Defs
import ChatHub.Base.Bytes

namespace ChatHub

/-!
# Integers as decimal text

`%d`, `%ld` and `%lld` print an integer as an optional minus sign and its
decimal digits without leading zeros.  Reading skips white space, takes an
optional sign and the longest run of digits.  Reading undoes printing, and
the printed text consists of digits and at most one sign, which is what the
key formats and the JSON number syntax rely on.
-/

/-- The digit character of a number below ten. -/
def digitByte (digit : Nat) : UInt8 :=
  UInt8.ofNat (48 + digit)

/-- The decimal digits of a natural number. -/
def natText (n : Nat) : Bytes :=
  if n = 0 then [digitByte 0] else (Nat.digits 10 n).reverse.map digitByte

/-- `%lld` -/
def intText (z : Int) : Bytes :=
  if z < 0 then 0x2D :: natText z.natAbs else natText z.natAbs

/-- The number that a run of digits denotes, continuing from `start`. -/
def digitsFrom (start : Nat) (digits : Bytes) : Nat :=
  digits.foldl (fun value digit => 10 * value + (digit.toNat - 48)) start

/-- The number that a run of digits denotes. -/
def digitsValue (digits : Bytes) : Nat :=
  digitsFrom 0 digits

/-- A sign is read as `(negative, rest)`. -/
def readSign : Bytes -> Bool × Bytes
  | 0x2D :: rest => (true, rest)
  | 0x2B :: rest => (false, rest)
  | text => (false, text)

/-- The integer that `strtoll` reads before it is fitted into its type. -/
def readInt (text : Bytes) : Int :=
  let signed := readSign (text.dropWhile isSpace)
  let magnitude := digitsValue (signed.2.takeWhile isDigit)
  if signed.1 then -(magnitude : Int) else magnitude

/-- `atoll`, with the values beyond the range of `long long` clamped to its ends. -/
def atoll (text : Bytes) : Int :=
  max (-2 ^ 63) (min (2 ^ 63 - 1) (readInt text))

/-- The conversion of an integer to `int`, modulo `2 ^ 32`. -/
def toInt32 (z : Int) : Int :=
  (z + 2 ^ 31) % 2 ^ 32 - 2 ^ 31

/-- `atoi`, which truncates the `long` that `strtol` reads. -/
def atoi (text : Bytes) : Int :=
  toInt32 (atoll text)

theorem toInt32_eq_self {z : Int} (low : -2 ^ 31 ≤ z) (high : z < 2 ^ 31) : toInt32 z = z := by
  unfold toInt32
  omega

/-- The 64 bits behind an `int` whose upper half is zero.  This is what a `%lld`
conversion reads when it is given an `int`. -/
def zeroExtended (z : Int) : Int :=
  z % 2 ^ 32

theorem zeroExtended_eq_self {z : Int} (low : 0 ≤ z) (high : z < 2 ^ 32) : zeroExtended z = z :=
  Int.emod_eq_of_lt low high

theorem zeroExtended_range (z : Int) : 0 ≤ zeroExtended z ∧ zeroExtended z < 2 ^ 32 := by
  unfold zeroExtended
  omega

/-! ## Digits -/

theorem digitByte_toNat {digit : Nat} (small : digit < 10) :
    (digitByte digit).toNat = 48 + digit := by
  unfold digitByte
  rw [UInt8.toNat_ofNat_of_lt']
  change 48 + digit < 256
  omega

theorem isDigit_iff (byte : UInt8) : isDigit byte = true <-> 48 ≤ byte.toNat ∧ byte.toNat ≤ 57 := by
  unfold isDigit
  simp only [Bool.and_eq_true, decide_eq_true_eq, UInt8.le_iff_toNat_le]
  exact Iff.rfl

theorem isDigit_digitByte {digit : Nat} (small : digit < 10) : isDigit (digitByte digit) = true := by
  rw [isDigit_iff, digitByte_toNat small]
  omega

/-- A number with more than one digit ends with its last digit. -/
theorem natText_of_ten_le {n : Nat} (large : 10 ≤ n) :
    natText n = natText (n / 10) ++ [digitByte (n % 10)] := by
  have positive : n ≠ 0 := by omega
  have quotient : n / 10 ≠ 0 := by omega
  unfold natText
  rw [if_neg positive, if_neg quotient, Nat.digits_def' (by decide) (Nat.pos_of_ne_zero positive)]
  simp

theorem natText_of_lt_ten {n : Nat} (small : n < 10) : natText n = [digitByte n] := by
  unfold natText
  by_cases zero : n = 0
  · rw [if_pos zero, zero]
  · rw [if_neg zero, Nat.digits_of_lt 10 n zero small]
    rfl

theorem natText_ne_nil (n : Nat) : natText n ≠ [] := by
  by_cases small : n < 10
  · rw [natText_of_lt_ten small]
    exact List.cons_ne_nil _ _
  · rw [natText_of_ten_le (Nat.le_of_not_lt small)]
    exact List.append_ne_nil_of_right_ne_nil _ (List.cons_ne_nil _ _)

theorem natText_isDigit (n : Nat) : forall byte, byte ∈ natText n -> isDigit byte = true := by
  induction n using Nat.strong_induction_on with
  | _ n inductionHypothesis =>
      intro byte member
      by_cases small : n < 10
      · rw [natText_of_lt_ten small, List.mem_singleton] at member
        rw [member]
        exact isDigit_digitByte small
      · rw [natText_of_ten_le (Nat.le_of_not_lt small), List.mem_append, List.mem_singleton] at member
        rcases member with front | last
        · exact inductionHypothesis (n / 10) (by omega) byte front
        · rw [last]
          exact isDigit_digitByte (Nat.mod_lt n (by decide))

theorem digitsFrom_append (start : Nat) (front back : Bytes) :
    digitsFrom start (front ++ back) = digitsFrom (digitsFrom start front) back :=
  List.foldl_append

theorem digitsValue_natText (n : Nat) : digitsValue (natText n) = n := by
  induction n using Nat.strong_induction_on with
  | _ n inductionHypothesis =>
      by_cases small : n < 10
      · rw [natText_of_lt_ten small]
        simp only [digitsValue, digitsFrom, List.foldl_cons, List.foldl_nil, digitByte_toNat small]
        omega
      · have large := Nat.le_of_not_lt small
        have front := inductionHypothesis (n / 10) (by omega)
        unfold digitsValue at front ⊢
        rw [natText_of_ten_le large, digitsFrom_append, front]
        simp only [digitsFrom, List.foldl_cons, List.foldl_nil,
          digitByte_toNat (Nat.mod_lt n (by decide : 0 < 10))]
        omega

/-- Only the number zero starts with the digit zero. -/
theorem natText_head {n : Nat} (positive : 0 < n) :
    Exists fun digit => Exists fun rest =>
      natText n = digitByte digit :: rest ∧ 0 < digit ∧ digit < 10 := by
  induction n using Nat.strong_induction_on with
  | _ n inductionHypothesis =>
      by_cases small : n < 10
      · exact ⟨n, [], natText_of_lt_ten small, positive, small⟩
      · rcases inductionHypothesis (n / 10) (by omega) (by omega) with ⟨digit, rest, front, bounds⟩
        refine ⟨digit, rest ++ [digitByte (n % 10)], ?_, bounds⟩
        rw [natText_of_ten_le (Nat.le_of_not_lt small), front]
        rfl

/-! ## Printed integers -/

theorem intText_of_nonneg {z : Int} (nonNegative : 0 ≤ z) : intText z = natText z.natAbs :=
  if_neg (Int.not_lt.mpr nonNegative)

theorem intText_of_neg {z : Int} (negative : z < 0) : intText z = 0x2D :: natText z.natAbs :=
  if_pos negative

/-- A printed integer consists of digits and the minus sign. -/
theorem mem_intText {z : Int} {byte : UInt8} (member : byte ∈ intText z) :
    byte = 0x2D ∨ isDigit byte = true := by
  unfold intText at member
  split at member
  · rcases List.mem_cons.mp member with sign | digits
    · exact Or.inl sign
    · exact Or.inr (natText_isDigit _ byte digits)
  · exact Or.inr (natText_isDigit _ byte member)

theorem intText_ne_nil (z : Int) : intText z ≠ [] := by
  unfold intText
  split
  · exact List.cons_ne_nil _ _
  · exact natText_ne_nil _

theorem not_mem_intText (z : Int) {byte : UInt8} (notSign : byte ≠ 0x2D)
    (notDigit : isDigit byte = false) : byte ∉ intText z := by
  intro member
  rcases mem_intText member with sign | digit
  · exact notSign sign
  · rw [notDigit] at digit
    cases digit

theorem digit_not_sign : forall byte : UInt8, isDigit byte = true ->
    byte ≠ 0x2D ∧ byte ≠ 0x2B ∧ isSpace byte = false := by
  apply forall_byte
  decide +kernel

theorem natText_length_le {n digits : Nat} (positive : 0 < digits) (small : n < 10 ^ digits) :
    (natText n).length ≤ digits := by
  induction digits generalizing n with
  | zero => exact absurd positive (Nat.lt_irrefl 0)
  | succ digits inductionHypothesis =>
      by_cases single : n < 10
      · rw [natText_of_lt_ten single, List.length_singleton]
        exact positive
      · have front : n / 10 < 10 ^ digits := by
          rw [pow_succ] at small
          omega
        have positiveFront : 0 < digits := by
          by_contra zero
          rw [Nat.eq_zero_of_not_pos zero] at front
          omega
        have shorter := inductionHypothesis positiveFront front
        rw [natText_of_ten_le (Nat.le_of_not_lt single), List.length_append, List.length_singleton]
        omega

/-- A number of 64 bits is printed with at most twenty characters. -/
theorem intText_length_le {z : Int} (low : -2 ^ 63 ≤ z) (high : z < 2 ^ 63) :
    (intText z).length ≤ 20 := by
  have digits : (natText z.natAbs).length ≤ 19 := natText_length_le (by decide) (by omega)
  unfold intText
  split
  · rw [List.length_cons]
    omega
  · omega

theorem readSign_of_not_sign {byte : UInt8} (notMinus : byte ≠ 0x2D) (notPlus : byte ≠ 0x2B)
    (rest : Bytes) : readSign (byte :: rest) = (false, byte :: rest) := by
  unfold readSign
  split
  · next equal =>
      cases equal
      exact False.elim (notMinus rfl)
  · next equal =>
      cases equal
      exact False.elim (notPlus rfl)
  · rfl

theorem readSign_of_digit {byte : UInt8} (digit : isDigit byte = true) (rest : Bytes) :
    readSign (byte :: rest) = (false, byte :: rest) :=
  readSign_of_not_sign (digit_not_sign byte digit).1 (digit_not_sign byte digit).2.1 rest

/-- Skipping white space and reading the sign leaves the digits. -/
theorem readSign_signed (negative : Prop) [Decidable negative] {head : UInt8}
    (digit : isDigit head = true) (rest : Bytes) :
    readSign (((if negative then ascii "-" else []) ++ head :: rest).dropWhile isSpace) =
      (decide negative, head :: rest) := by
  by_cases holds : negative
  · rw [if_pos holds, decide_eq_true holds]
    rfl
  · rw [if_neg holds, decide_eq_false holds, List.nil_append, List.dropWhile_cons,
      (digit_not_sign head digit).2.2]
    exact readSign_of_digit digit rest

theorem intText_eq (z : Int) :
    intText z = (if z < 0 then ascii "-" else []) ++ natText z.natAbs := by
  by_cases negative : z < 0
  · rw [if_pos negative, intText_of_neg negative]
    rfl
  · rw [if_neg negative, intText_of_nonneg (Int.not_lt.mp negative), List.nil_append]

theorem readSign_intText_append (z : Int) (rest : Bytes) :
    readSign ((intText z ++ rest).dropWhile isSpace) =
      (decide (z < 0), natText z.natAbs ++ rest) := by
  rcases List.exists_cons_of_ne_nil (natText_ne_nil z.natAbs) with ⟨head, tail, shape⟩
  have digit : isDigit head = true :=
    natText_isDigit z.natAbs head (by rw [shape]; exact List.mem_cons_self)
  rw [intText_eq, List.append_assoc, shape]
  exact readSign_signed (z < 0) digit (tail ++ rest)

theorem readSign_intText (z : Int) :
    readSign ((intText z).dropWhile isSpace) = (decide (z < 0), natText z.natAbs) := by
  have behind := readSign_intText_append z []
  rw [List.append_nil, List.append_nil] at behind
  exact behind

/-- Digits end where no digit follows. -/
theorem digits_span {digits rest : Bytes} (all : forall c, c ∈ digits -> isDigit c = true)
    (ends : forall c, rest.head? = some c -> isDigit c = false) :
    (digits ++ rest).takeWhile isDigit = digits ∧ (digits ++ rest).dropWhile isDigit = rest := by
  have stops : rest.takeWhile isDigit = [] ∧ rest.dropWhile isDigit = rest := by
    cases rest with
    | nil => exact ⟨rfl, rfl⟩
    | cons head tail =>
        have notDigit := ends head rfl
        simp [notDigit]
  rw [List.takeWhile_append_of_pos all, stops.1, List.append_nil,
    List.dropWhile_append_of_pos all, stops.2]
  exact ⟨rfl, rfl⟩

theorem natText_span (n : Nat) {rest : Bytes}
    (ends : forall c, rest.head? = some c -> isDigit c = false) :
    (natText n ++ rest).takeWhile isDigit = natText n ∧
      (natText n ++ rest).dropWhile isDigit = rest :=
  digits_span (natText_isDigit n) ends

theorem natText_takeWhile_isDigit (n : Nat) : (natText n).takeWhile isDigit = natText n :=
  List.takeWhile_eq_self_iff.mpr (natText_isDigit n)

/-- Reading undoes printing, whatever stands behind the digits. -/
theorem readInt_intText_append (z : Int) {rest : Bytes}
    (ends : forall c, rest.head? = some c -> isDigit c = false) : readInt (intText z ++ rest) = z := by
  unfold readInt
  simp only [readSign_intText_append, (natText_span z.natAbs ends).1, digitsValue_natText,
    decide_eq_true_eq]
  split <;> omega

theorem readInt_intText (z : Int) : readInt (intText z) = z := by
  have behind := @readInt_intText_append z [] (fun _ never => by cases never)
  rw [List.append_nil] at behind
  exact behind

theorem intText_injective {left right : Int} (equal : intText left = intText right) :
    left = right := by
  rw [← readInt_intText left, equal, readInt_intText]

theorem atoll_intText {z : Int} (low : -2 ^ 63 ≤ z) (high : z < 2 ^ 63) :
    atoll (intText z) = z := by
  unfold atoll
  rw [readInt_intText]
  omega

theorem atoi_intText_append {z : Int} (low : -2 ^ 31 ≤ z) (high : z < 2 ^ 31) {rest : Bytes}
    (ends : forall c, rest.head? = some c -> isDigit c = false) : atoi (intText z ++ rest) = z := by
  have fits : max (-2 ^ 63) (min (2 ^ 63 - 1) z) = z := by omega
  unfold atoi atoll
  rw [readInt_intText_append z ends, fits, toInt32_eq_self low high]

theorem atoi_intText {z : Int} (low : -2 ^ 31 ≤ z) (high : z < 2 ^ 31) :
    atoi (intText z) = z := by
  unfold atoi
  rw [atoll_intText (by omega) (by omega), toInt32_eq_self low high]

end ChatHub
