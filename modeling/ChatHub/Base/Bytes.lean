import Mathlib.Data.List.TakeWhile
import Mathlib.Data.UInt

namespace ChatHub

/-!
# Bytes, C strings and fixed character arrays

Text is a list of bytes.  A C string is the part of a buffer before its
first NUL, so a string as C code sees it contains no NUL.  A `char[n]` field
is represented by that part of it which a reader can see: the bytes before
the first NUL, or all `n` of them if there is none.  In the second case the
array is not terminated and a reader continues behind it.
-/

/-- A sequence of bytes. -/
abbrev Bytes := List UInt8

/-- The bytes of a literal made of ASCII characters. -/
def ascii (text : String) : Bytes :=
  text.toList.map (fun c => UInt8.ofNat c.toNat)

/-- A statement about every byte follows from its 256 instances. -/
theorem forall_byte {property : UInt8 -> Prop}
    (all : forall value : Fin 256, property (UInt8.ofFin value)) (byte : UInt8) :
    property byte := by
  have atByte := all byte.toFin
  simpa using atByte

/-- The C string that starts at the head of a buffer. -/
def cstr (buffer : Bytes) : Bytes :=
  buffer.takeWhile (fun byte => byte != 0)

theorem not_mem_cstr (buffer : Bytes) : 0 ∉ cstr buffer := by
  intro member
  have nonzero := List.mem_takeWhile_imp member
  simp at nonzero

theorem cstr_length_le (buffer : Bytes) : (cstr buffer).length ≤ buffer.length :=
  (List.takeWhile_prefix _).length_le

theorem cstr_of_not_mem {text : Bytes} (noNul : 0 ∉ text) : cstr text = text := by
  apply List.takeWhile_eq_self_iff.mpr
  intro byte member
  have different : byte ≠ 0 := fun zero => noNul (zero ▸ member)
  simpa using different

/-- A text without a NUL goes on behind its end. -/
theorem cstr_append_of_not_mem {text : Bytes} (noNul : 0 ∉ text) (rest : Bytes) :
    cstr (text ++ rest) = text ++ cstr rest := by
  unfold cstr
  apply List.takeWhile_append_of_pos
  intro byte member
  have different : byte ≠ 0 := fun zero => noNul (zero ▸ member)
  simpa using different

/-- What follows the terminating NUL is not part of the string. -/
theorem cstr_append_nul {text : Bytes} (noNul : 0 ∉ text) (rest : Bytes) :
    cstr (text ++ 0 :: rest) = text := by
  rw [cstr_append_of_not_mem noNul]
  exact List.append_nil text

theorem cstr_append_of_mem {text : Bytes} (terminated : 0 ∈ text) (rest : Bytes) :
    cstr (text ++ rest) = cstr text := by
  rcases List.eq_append_cons_of_mem terminated with ⟨front, back, shape, first⟩
  rw [shape, List.append_assoc, List.cons_append, cstr_append_nul first, cstr_append_nul first]

/-- `isspace` in the C locale. -/
def isSpace (byte : UInt8) : Bool :=
  byte == 0x20 || (0x09 ≤ byte && byte ≤ 0x0D)

/-- `isdigit` -/
def isDigit (byte : UInt8) : Bool :=
  0x30 ≤ byte && byte ≤ 0x39

/-- The visible content of a `char[size]` array. -/
@[ext] structure CharArray (size : Nat) where
  text : Bytes
  noNul : 0 ∉ text
  fits : text.length ≤ size
  deriving DecidableEq

namespace CharArray

variable {size : Nat}

/-- The array holds a NUL. -/
def Terminated (array : CharArray size) : Prop :=
  array.text.length < size

instance (array : CharArray size) : Decidable array.Terminated :=
  inferInstanceAs (Decidable (array.text.length < size))

/-- A zeroed array. -/
def empty (size : Nat) : CharArray size where
  text := []
  noNul := List.not_mem_nil
  fits := Nat.zero_le _

/-- `strncpy(array, source, size)`: at most `size` bytes, padded with NULs. -/
def strncpy (size : Nat) (source : Bytes) : CharArray size where
  text := (cstr source).take size
  noNul := fun member => not_mem_cstr source (List.mem_of_mem_take member)
  fits := List.length_take_le _ _

/-- What a reader of the array sees, if `behind` is the string that starts in
memory right after it. -/
def readThen (array : CharArray size) (behind : Bytes) : Bytes :=
  if array.Terminated then array.text else array.text ++ behind

theorem readThen_of_terminated {array : CharArray size} (terminated : array.Terminated)
    (behind : Bytes) : array.readThen behind = array.text :=
  if_pos terminated

/-- Before a NUL even an array that is full is read as it is. -/
theorem readThen_nil (array : CharArray size) : array.readThen [] = array.text := by
  unfold readThen
  rw [List.append_nil, ite_self]

theorem readThen_noNul (array : CharArray size) {behind : Bytes} (noNul : 0 ∉ behind) :
    0 ∉ array.readThen behind := by
  unfold readThen
  split
  · exact array.noNul
  · intro member
    rcases List.mem_append.mp member with inside | outside
    · exact array.noNul inside
    · exact noNul outside

/-- A text without a NUL that fits is copied as a whole. -/
theorem strncpy_of_fits {source : Bytes} (noNul : 0 ∉ source) (fits : source.length ≤ size) :
    (strncpy size source).text = source := by
  change (cstr source).take size = source
  rw [cstr_of_not_mem noNul, List.take_of_length_le fits]

/-- The copy holds a NUL exactly if the source is shorter than the array. -/
theorem strncpy_terminated_iff (size : Nat) (source : Bytes) :
    (strncpy size source).Terminated <-> (cstr source).length < size := by
  change ((cstr source).take size).length < size <-> _
  rw [List.length_take]
  omega

theorem strncpy_terminated {source : Bytes} (short : source.length < size) :
    (strncpy size source).Terminated :=
  (strncpy_terminated_iff size source).mpr (Nat.lt_of_le_of_lt (cstr_length_le source) short)

/-- A text without a NUL that is shorter than the array is read back. -/
theorem readThen_strncpy {source : Bytes} (noNul : 0 ∉ source) (fits : source.length < size)
    (behind : Bytes) : (strncpy size source).readThen behind = source := by
  rw [readThen_of_terminated (strncpy_terminated fits), strncpy_of_fits noNul (Nat.le_of_lt fits)]

/-- Copying the visible text of an array into an array of the same size
gives the array back. -/
theorem strncpy_text (array : CharArray size) : strncpy size array.text = array := by
  apply CharArray.ext
  exact strncpy_of_fits array.noNul array.fits

end CharArray
end ChatHub
