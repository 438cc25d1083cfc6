import Mathlib.Data.Nat.Bitwise
import ChatHub.Base.Bytes

namespace ChatHub

/-!
# The UTF-8 check of parson

`json_value_init_string` refuses a string that is not valid UTF-8.  The check
reads one sequence after the other, takes its length from the first byte,
requires continuation bytes behind it and refuses overlong encodings,
surrogates and code points beyond the Unicode range.  It accepts every
concatenation of encoded characters.
-/

namespace Parson

/-- `IS_CONT` -/
def isCont (byte : UInt8) : Bool :=
  byte &&& 0xC0 == 0x80

/-- `num_bytes_in_utf8_sequence` -/
def numBytesInUtf8Sequence (c : UInt8) : Nat :=
  if c == 0xC0 || c == 0xC1 || 0xF4 < c || isCont c then 0
  else if c &&& 0x80 == 0 then 1
  else if c &&& 0xE0 == 0xC0 then 2
  else if c &&& 0xF0 == 0xE0 then 3
  else if c &&& 0xF8 == 0xF0 then 4
  else 0

/-- A code point with the six low bits of one more continuation byte. -/
def addCont (cp : Nat) (byte : UInt8) : Nat :=
  cp <<< 6 ||| (byte &&& 0x3F).toNat

/-- The code point of the sequence at the head of a string, if continuation
bytes follow where the first byte demands them. -/
def sequenceCodePoint (string : Bytes) : Option Nat :=
  let byte := fun index => string.getD index 0
  let len := numBytesInUtf8Sequence (byte 0)
  if len = 1 then some (byte 0).toNat
  else if len = 2 ∧ isCont (byte 1) then some (addCont (byte 0 &&& 0x1F).toNat (byte 1))
  else if len = 3 ∧ isCont (byte 1) ∧ isCont (byte 2) then
    some (addCont (addCont (byte 0 &&& 0xF).toNat (byte 1)) (byte 2))
  else if len = 4 ∧ isCont (byte 1) ∧ isCont (byte 2) ∧ isCont (byte 3) then
    some (addCont (addCont (addCont (byte 0 &&& 0x7).toNat (byte 1)) (byte 2)) (byte 3))
  else none

/-- `verify_utf8_sequence`, with the length of an accepted sequence. -/
def verifyUtf8Sequence (string : Bytes) : Option Nat :=
  let len := numBytesInUtf8Sequence (string.getD 0 0)
  match sequenceCodePoint string with
  | none => none
  | some cp =>
      if (cp < 0x80 ∧ 1 < len) ∨ (cp < 0x800 ∧ 2 < len) ∨ (cp < 0x10000 ∧ 3 < len) then none
      else if 0x10FFFF < cp then none
      else if 0xD800 ≤ cp ∧ cp ≤ 0xDFFF then none
      else some len

/-- The loop of `is_valid_utf8`, where `skip` bytes of an accepted sequence
are still to be passed. -/
def isValidUtf8From (skip : Nat) : Bytes -> Bool
  | [] => true
  | byte :: rest =>
      match skip with
      | remaining + 1 => isValidUtf8From remaining rest
      | 0 =>
          match verifyUtf8Sequence (byte :: rest) with
          | none => false
          | some len => isValidUtf8From (len - 1) rest

/-- `is_valid_utf8` -/
def isValidUtf8 (string : Bytes) : Bool :=
  isValidUtf8From 0 string

/-! ## Encoded characters are accepted -/

/-- A concatenation of encoded Unicode characters. -/
def Utf8 (text : Bytes) : Prop :=
  Exists fun chars : List Char => text = chars.flatMap String.utf8EncodeChar

theorem Utf8.append {front back : Bytes} (isFront : Utf8 front) (isBack : Utf8 back) :
    Utf8 (front ++ back) := by
  rcases isFront with ⟨frontChars, rfl⟩
  rcases isBack with ⟨backChars, rfl⟩
  exact ⟨frontChars ++ backChars, List.flatMap_append.symm⟩

/-- What the bytes of a sequence say, for each of the five kinds of bytes: the
length of the sequence and the bits of the code point. -/
private theorem byte_kinds : forall byte : UInt8,
    (byte.toNat < 0x80 -> numBytesInUtf8Sequence byte = 1 ∧
      String.utf8EncodeChar (Char.ofNat byte.toNat) = [byte]) ∧
    (0xC2 ≤ byte.toNat -> byte.toNat < 0xE0 ->
      numBytesInUtf8Sequence byte = 2 ∧ (byte &&& 0x1F).toNat = byte.toNat - 0xC0) ∧
    (0xE0 ≤ byte.toNat -> byte.toNat < 0xF0 ->
      numBytesInUtf8Sequence byte = 3 ∧ (byte &&& 0xF).toNat = byte.toNat - 0xE0) ∧
    (0xF0 ≤ byte.toNat -> byte.toNat < 0xF5 ->
      numBytesInUtf8Sequence byte = 4 ∧ (byte &&& 0x7).toNat = byte.toNat - 0xF0) ∧
    (0x80 ≤ byte.toNat -> byte.toNat < 0xC0 ->
      isCont byte = true ∧ (byte &&& 0x3F).toNat = byte.toNat - 0x80) := by
  apply forall_byte
  decide +kernel

private theorem ascii_sequence (byte : UInt8) (isAscii : byte.toNat < 0x80) :
    numBytesInUtf8Sequence byte = 1 ∧ String.utf8EncodeChar (Char.ofNat byte.toNat) = [byte] :=
  (byte_kinds byte).1 isAscii

private theorem two_byte_sequence (byte : UInt8) (low : 0xC2 ≤ byte.toNat)
    (high : byte.toNat < 0xE0) :
    numBytesInUtf8Sequence byte = 2 ∧ (byte &&& 0x1F).toNat = byte.toNat - 0xC0 :=
  (byte_kinds byte).2.1 low high

private theorem three_byte_sequence (byte : UInt8) (low : 0xE0 ≤ byte.toNat)
    (high : byte.toNat < 0xF0) :
    numBytesInUtf8Sequence byte = 3 ∧ (byte &&& 0xF).toNat = byte.toNat - 0xE0 :=
  (byte_kinds byte).2.2.1 low high

private theorem four_byte_sequence (byte : UInt8) (low : 0xF0 ≤ byte.toNat)
    (high : byte.toNat < 0xF5) :
    numBytesInUtf8Sequence byte = 4 ∧ (byte &&& 0x7).toNat = byte.toNat - 0xF0 :=
  (byte_kinds byte).2.2.2.1 low high

private theorem cont_bits (byte : UInt8) (low : 0x80 ≤ byte.toNat) (high : byte.toNat < 0xC0) :
    isCont byte = true ∧ (byte &&& 0x3F).toNat = byte.toNat - 0x80 :=
  (byte_kinds byte).2.2.2.2 low high

/-- Every ASCII byte is a character of its own. -/
theorem utf8_of_ascii {text : Bytes} (isAscii : forall byte, byte ∈ text -> byte.toNat < 0x80) :
    Utf8 text := by
  refine ⟨text.map (fun byte => Char.ofNat byte.toNat), ?_⟩
  induction text with
  | nil => rfl
  | cons byte rest inductionHypothesis =>
      have single := (ascii_sequence byte (isAscii byte List.mem_cons_self)).2
      have isRest := inductionHypothesis (fun other member => isAscii other (List.mem_cons_of_mem _ member))
      rw [List.map_cons, List.flatMap_cons, single, ← isRest]
      rfl

/-- A continuation byte contributes a base-64 digit. -/
theorem addCont_ofNat (cp : Nat) {digit : Nat} (small : digit < 64) :
    isCont (UInt8.ofNat (digit + 0x80)) = true ∧
      addCont cp (UInt8.ofNat (digit + 0x80)) = 64 * cp + digit := by
  have value : (UInt8.ofNat (digit + 0x80)).toNat = digit + 0x80 :=
    UInt8.toNat_ofNat_of_lt' (show digit + 0x80 < 256 by omega)
  rcases cont_bits (UInt8.ofNat (digit + 0x80)) (by omega) (by omega) with ⟨cont, bits⟩
  refine ⟨cont, ?_⟩
  unfold addCont
  rw [bits, value, Nat.add_sub_cancel, ← Nat.shiftLeft_add_eq_or_of_lt (by omega : digit < 2 ^ 6),
    Nat.shiftLeft_eq]
  omega

/-- Surrogates are not characters. -/
private theorem char_range (c : Char) :
    c.toNat ≤ 0x10FFFF ∧ Not (0xD800 ≤ c.toNat ∧ c.toNat ≤ 0xDFFF) := by
  have valid := c.valid
  simp only [UInt32.isValidChar, Nat.isValidChar] at valid
  unfold Char.toNat
  omega

section Accepted

variable {first second third fourth : UInt8} {rest : Bytes} {cp : Nat}

private theorem verifyUtf8Sequence_one (length : numBytesInUtf8Sequence first = 1)
    (code : first.toNat = cp) (high : cp < 0x80) :
    verifyUtf8Sequence (first :: rest) = some 1 := by
  have read : sequenceCodePoint (first :: rest) = some cp := by
    simp only [sequenceCodePoint, List.getD_cons_zero, length, if_true, code]
  simp only [verifyUtf8Sequence, List.getD_cons_zero, length, read]
  rw [if_neg (by omega), if_neg (by omega), if_neg (by omega)]

private theorem verifyUtf8Sequence_two (length : numBytesInUtf8Sequence first = 2)
    (cont : isCont second = true) (code : addCont (first &&& 0x1F).toNat second = cp)
    (low : 0x80 ≤ cp) (high : cp < 0x800) :
    verifyUtf8Sequence (first :: second :: rest) = some 2 := by
  have read : sequenceCodePoint (first :: second :: rest) = some cp := by
    simp only [sequenceCodePoint, List.getD_cons_zero, List.getD_cons_succ, length, cont, code]
    rfl
  simp only [verifyUtf8Sequence, List.getD_cons_zero, length, read]
  rw [if_neg (by omega), if_neg (by omega), if_neg (by omega)]

private theorem verifyUtf8Sequence_three (length : numBytesInUtf8Sequence first = 3)
    (cont : isCont second = true ∧ isCont third = true)
    (code : addCont (addCont (first &&& 0xF).toNat second) third = cp)
    (low : 0x800 ≤ cp) (high : cp < 0x10000)
    (notSurrogate : Not (0xD800 ≤ cp ∧ cp ≤ 0xDFFF)) :
    verifyUtf8Sequence (first :: second :: third :: rest) = some 3 := by
  have read : sequenceCodePoint (first :: second :: third :: rest) = some cp := by
    simp only [sequenceCodePoint, List.getD_cons_zero, List.getD_cons_succ, length, cont.1,
      cont.2, code]
    rfl
  simp only [verifyUtf8Sequence, List.getD_cons_zero, length, read]
  rw [if_neg (by omega), if_neg (by omega), if_neg notSurrogate]

private theorem verifyUtf8Sequence_four (length : numBytesInUtf8Sequence first = 4)
    (cont : isCont second = true ∧ isCont third = true ∧ isCont fourth = true)
    (code : addCont (addCont (addCont (first &&& 0x7).toNat second) third) fourth = cp)
    (low : 0x10000 ≤ cp) (high : cp ≤ 0x10FFFF) :
    verifyUtf8Sequence (first :: second :: third :: fourth :: rest) = some 4 := by
  have read : sequenceCodePoint (first :: second :: third :: fourth :: rest) = some cp := by
    simp only [sequenceCodePoint, List.getD_cons_zero, List.getD_cons_succ, length, cont.1,
      cont.2.1, cont.2.2, code]
    rfl
  simp only [verifyUtf8Sequence, List.getD_cons_zero, length, read]
  rw [if_neg (by omega), if_neg (by omega), if_neg (by omega)]

end Accepted

/-- The four lengths of an encoded character, with the digits of its code point. -/
private theorem utf8EncodeChar_cases (c : Char) :
    (c.toNat < 0x80 ∧ String.utf8EncodeChar c = [UInt8.ofNat c.toNat]) ∨
    (0x80 ≤ c.toNat ∧ c.toNat < 0x800 ∧ String.utf8EncodeChar c =
      [UInt8.ofNat (c.toNat / 64 % 0x20 + 0xC0), UInt8.ofNat (c.toNat % 64 + 0x80)]) ∨
    (0x800 ≤ c.toNat ∧ c.toNat < 0x10000 ∧ String.utf8EncodeChar c =
      [UInt8.ofNat (c.toNat / 4096 % 0x10 + 0xE0), UInt8.ofNat (c.toNat / 64 % 64 + 0x80),
        UInt8.ofNat (c.toNat % 64 + 0x80)]) ∨
    (0x10000 ≤ c.toNat ∧ String.utf8EncodeChar c =
      [UInt8.ofNat (c.toNat / 262144 % 0x08 + 0xF0), UInt8.ofNat (c.toNat / 4096 % 64 + 0x80),
        UInt8.ofNat (c.toNat / 64 % 64 + 0x80), UInt8.ofNat (c.toNat % 64 + 0x80)]) := by
  unfold Char.toNat String.utf8EncodeChar
  by_cases one : c.val.toNat ≤ 0x7F
  · exact Or.inl ⟨by omega, if_pos one⟩
  · by_cases two : c.val.toNat ≤ 0x7FF
    · refine Or.inr (Or.inl ⟨by omega, by omega, ?_⟩)
      exact (if_neg one).trans (if_pos two)
    · by_cases three : c.val.toNat ≤ 0xFFFF
      · refine Or.inr (Or.inr (Or.inl ⟨by omega, by omega, ?_⟩))
        exact ((if_neg one).trans (if_neg two)).trans (if_pos three)
      · refine Or.inr (Or.inr (Or.inr ⟨by omega, ?_⟩))
        exact ((if_neg one).trans (if_neg two)).trans (if_neg three)

/-- The check accepts one encoded character and reports its length. -/
theorem verifyUtf8Sequence_encoded (c : Char) (rest : Bytes) :
    verifyUtf8Sequence (String.utf8EncodeChar c ++ rest) =
      some (String.utf8EncodeChar c).length := by
  rcases char_range c with ⟨inRange, notSurrogate⟩
  have digit := fun n : Nat => Nat.mod_lt n (by decide : 0 < 64)
  have byteValue : forall value, value < 256 -> (UInt8.ofNat value).toNat = value :=
    fun value small => UInt8.toNat_ofNat_of_lt' small
  rcases utf8EncodeChar_cases c with ⟨high, encoded⟩ | ⟨low, high, encoded⟩ |
    ⟨low, high, encoded⟩ | ⟨low, encoded⟩
  · have value := byteValue c.toNat (by omega)
    have length := (ascii_sequence (UInt8.ofNat c.toNat) (by omega)).1
    rw [encoded]
    exact verifyUtf8Sequence_one length value high
  · have value := byteValue (c.toNat / 64 % 0x20 + 0xC0) (by omega)
    rcases two_byte_sequence (UInt8.ofNat (c.toNat / 64 % 0x20 + 0xC0)) (by omega) (by omega)
      with ⟨length, bits⟩
    rcases addCont_ofNat (c.toNat / 64 % 0x20) (digit c.toNat) with ⟨cont, code⟩
    rw [encoded]
    apply verifyUtf8Sequence_two length cont _ low high
    rw [bits, value, Nat.add_sub_cancel, code]
    omega
  · have value := byteValue (c.toNat / 4096 % 0x10 + 0xE0) (by omega)
    rcases three_byte_sequence (UInt8.ofNat (c.toNat / 4096 % 0x10 + 0xE0)) (by omega) (by omega)
      with ⟨length, bits⟩
    rcases addCont_ofNat (c.toNat / 4096 % 0x10) (digit (c.toNat / 64)) with ⟨cont, code⟩
    rcases addCont_ofNat (64 * (c.toNat / 4096 % 0x10) + c.toNat / 64 % 64) (digit c.toNat)
      with ⟨cont', code'⟩
    rw [encoded]
    apply verifyUtf8Sequence_three length ⟨cont, cont'⟩ _ low high notSurrogate
    rw [bits, value, Nat.add_sub_cancel, code, code']
    omega
  · have value := byteValue (c.toNat / 262144 % 0x08 + 0xF0) (by omega)
    rcases four_byte_sequence (UInt8.ofNat (c.toNat / 262144 % 0x08 + 0xF0)) (by omega) (by omega)
      with ⟨length, bits⟩
    rcases addCont_ofNat (c.toNat / 262144 % 0x08) (digit (c.toNat / 4096)) with ⟨cont, code⟩
    rcases addCont_ofNat (64 * (c.toNat / 262144 % 0x08) + c.toNat / 4096 % 64)
      (digit (c.toNat / 64)) with ⟨cont', code'⟩
    rcases addCont_ofNat (64 * (64 * (c.toNat / 262144 % 0x08) + c.toNat / 4096 % 64) +
      c.toNat / 64 % 64) (digit c.toNat) with ⟨cont'', code''⟩
    rw [encoded]
    apply verifyUtf8Sequence_four length ⟨cont, cont', cont''⟩ _ low inRange
    rw [bits, value, Nat.add_sub_cancel, code, code', code'']
    omega

theorem isValidUtf8From_skip (passed rest : Bytes) :
    isValidUtf8From passed.length (passed ++ rest) = isValidUtf8From 0 rest := by
  induction passed with
  | nil => rfl
  | cons byte tail inductionHypothesis => exact inductionHypothesis

/-- Valid UTF-8 passes the check. -/
theorem isValidUtf8_of_utf8 {text : Bytes} (valid : Utf8 text) : isValidUtf8 text = true := by
  rcases valid with ⟨chars, rfl⟩
  induction chars with
  | nil => rfl
  | cons c rest inductionHypothesis =>
      rw [List.flatMap_cons]
      have verified := verifyUtf8Sequence_encoded c (rest.flatMap String.utf8EncodeChar)
      rcases List.exists_cons_of_ne_nil (@String.utf8EncodeChar_ne_nil c)
        with ⟨byte, tail, shape⟩
      rw [shape, List.cons_append] at verified ⊢
      unfold isValidUtf8 isValidUtf8From
      simp only [verified, List.length_cons, Nat.add_sub_cancel]
      rw [isValidUtf8From_skip]
      exact inductionHypothesis

end Parson
end ChatHub
