import ChatHub.Base.Cursor
import ChatHub.Lib.Parson.Accepted

namespace ChatHub

/-!
# Serialization into memory

`json_serialize_to_string_pretty` runs over a value three times with
`json_serialize_to_buffer_r`: two times only to learn the size, first to
allocate the buffer and then to check that it is large enough, and once to
write the text there.  `Parson.jsonSerializeToBufferR` is the text.  The passes
agree on it: no array is overrun, and what is in the buffer in the end is the
text with its NUL.

The lengths are added up as `int`.  They overflow for texts from 2147483647
bytes on, and only for these.
-/

namespace Parson
namespace Buffered

open Cursor

/-! ## The functions -/

/-- `append_string` -/
def appendString (string : Bytes) : Piece
  | none => return string.length
  | some position => sprintf position string

/-- `append_indent` -/
def appendIndent (level : Nat) : Piece :=
  run (steps level)
where
  steps : Nat -> Cursor -> Action Bytes Cursor
    | 0 => pure
    | level + 1 => append (appendString (ascii "    ")) >=> steps level

/-- The `switch` of `json_serialize_string`.  A character without an escape
is stored as it is. -/
def serializeChar (c : UInt8) : Cursor -> Action Bytes Cursor :=
  if c = 0x22 ∨ c = 0x5C ∨ c = 0x2F ∨ c < 0x20 then append (appendString (escape c))
  else appendChar c

/-- The loop of `json_serialize_string`. -/
def serializeChars : Bytes -> Cursor -> Action Bytes Cursor
  | [] => pure
  | c :: rest => serializeChar c >=> serializeChars rest

/-- `json_serialize_string`, which reads the string up to its NUL. -/
def jsonSerializeString (string : Bytes) : Piece :=
  run (append (appendString (ascii "\"")) >=> serializeChars (cstr string) >=>
    append (appendString (ascii "\"")))

/-- `sprintf(num_buf, FLOAT_FORMAT, num)`, where `text` is the printed number.
It goes to the scratch array if there is no buffer. -/
def serializeNumber (text : Bytes) : Piece := fun buf =>
  sprintf (buf.getD 0) text

mutual

/-- `json_serialize_to_buffer_r`, with the members of an object in their order
in place of the lookup by name. -/
def jsonSerializeToBufferR (level : Nat) (isPretty : Bool) : JsonValue -> Piece
  | .array items =>
      run (append (appendString (ascii "[")) >=>
        onlyIf (!items.isEmpty && isPretty) (append (appendString (ascii "\n"))) >=>
        serializeItems level isPretty items >=>
        onlyIf (!items.isEmpty && isPretty) (append (appendIndent level)) >=>
        append (appendString (ascii "]")))
  | .object members =>
      run (append (appendString (ascii "\x7b")) >=>
        onlyIf (!members.isEmpty && isPretty) (append (appendString (ascii "\n"))) >=>
        serializeMembers level isPretty members >=>
        onlyIf (!members.isEmpty && isPretty) (append (appendIndent level)) >=>
        append (appendString (ascii "\x7d")))
  | .string text => run (append (jsonSerializeString text))
  | .boolean true => run (append (appendString (ascii "true")))
  | .boolean false => run (append (appendString (ascii "false")))
  | .number value => run (append (serializeNumber (Binary64.formatG17 value)))
  | .negativeZero => run (append (serializeNumber Binary64.negativeZeroText))
  | .null => run (append (appendString (ascii "null")))

/-- The loop over the items of an array. -/
def serializeItems (level : Nat) (isPretty : Bool) :
    List JsonValue -> Cursor -> Action Bytes Cursor
  | [] => pure
  | item :: rest =>
      onlyIf isPretty (append (appendIndent (level + 1))) >=>
        append (jsonSerializeToBufferR (level + 1) isPretty item) >=>
        onlyIf (!rest.isEmpty) (append (appendString (ascii ","))) >=>
        onlyIf isPretty (append (appendString (ascii "\n"))) >=>
        serializeItems level isPretty rest

/-- The loop over the members of an object. -/
def serializeMembers (level : Nat) (isPretty : Bool) :
    List (Bytes × JsonValue) -> Cursor -> Action Bytes Cursor
  | [] => pure
  | (key, value) :: rest =>
      onlyIf isPretty (append (appendIndent (level + 1))) >=>
        append (jsonSerializeString key) >=>
        append (appendString (ascii ":")) >=>
        onlyIf isPretty (append (appendString (ascii " "))) >=>
        append (jsonSerializeToBufferR (level + 1) isPretty value) >=>
        onlyIf (!rest.isEmpty) (append (appendString (ascii ","))) >=>
        onlyIf isPretty (append (appendString (ascii "\n"))) >=>
        serializeMembers level isPretty rest

end

/-- `NUM_BUF_SIZE` -/
def numBufSize : Nat := 64

/-- `json_serialization_size_pretty`, with what happens to be in `num_buf`. -/
def jsonSerializationSizePretty (numBuf : Bytes) (value : JsonValue) : Except Fault Nat :=
  match (jsonSerializeToBufferR 0 true value none numBuf).1 with
  | .error fault => .error fault
  | .ok res => addLengths res 1

/-- `json_serialize_to_buffer_pretty`: the buffer if it was successful. -/
def jsonSerializeToBufferPretty (numBuf : Bytes) (value : JsonValue) (buf : Bytes) :
    Except Fault (Option Bytes) :=
  match jsonSerializationSizePretty numBuf value with
  | .error fault => .error fault
  | .ok needed =>
      if needed = 0 ∨ buf.length < needed then .ok none
      else
        match jsonSerializeToBufferR 0 true value (some 0) buf with
        | (.error fault, _) => .error fault
        | (.ok _, written) => .ok (some written)

/-- `json_serialize_to_string_pretty`, with what `malloc` finds in memory. -/
def jsonSerializeToStringPretty (numBuf : Bytes) (malloc : Nat -> Bytes) (value : JsonValue) :
    Except Fault (Option Bytes) :=
  match jsonSerializationSizePretty numBuf value with
  | .error fault => .error fault
  | .ok size =>
      if size = 0 then .ok none else jsonSerializeToBufferPretty numBuf value (malloc size)

/-! ## Each function writes its text -/

section Texts

variable {scratch : Nat}

theorem emits_appendString {text : Bytes} (short : text.length < 2 ^ 31) :
    Emits scratch text [0] (appendString text) where
  counts := by
    intro memory isScratch
    refine ⟨memory, isScratch, ?_⟩
    rw [addLengths_of_lt (by omega), Nat.zero_add]
    rfl
  writes := by
    intro position memory room _
    exact sprintf_run room

theorem emits_appendIndent (level : Nat) :
    Emits scratch (Parson.appendIndent level) [] (appendIndent level) := by
  apply emits_run
  induction level with
  | zero => exact moves_pure
  | succ level inductionHypothesis =>
      exact moves_then (moves_append (emits_appendString (by decide))) inductionHypothesis

theorem escape_short : forall c : UInt8, (escape c).length < 2 ^ 31 := by
  apply forall_byte
  decide +kernel

theorem escape_plain : forall c : UInt8, Not (c = 0x22 ∨ c = 0x5C ∨ c = 0x2F ∨ c < 0x20) ->
    escape c = [c] := by
  apply forall_byte
  decide +kernel

theorem moves_serializeChar (c : UInt8) : Moves scratch (escape c) [] (serializeChar c) := by
  unfold serializeChar
  split
  · exact (moves_append (emits_appendString (escape_short c))).forget
  · next plain =>
      rw [escape_plain c plain]
      exact moves_appendChar c

theorem moves_serializeChars (text : Bytes) :
    Moves scratch (text.flatMap escape) [] (serializeChars text) := by
  induction text with
  | nil => exact moves_pure
  | cons c rest inductionHypothesis =>
      rw [List.flatMap_cons]
      exact moves_then (moves_serializeChar c) inductionHypothesis

theorem emits_jsonSerializeString {text : Bytes} (noNul : 0 ∉ text) :
    Emits scratch (Parson.jsonSerializeString text) [0] (jsonSerializeString text) := by
  have quote : Moves scratch (ascii "\"") [0] (append (appendString (ascii "\""))) :=
    moves_append (emits_appendString (by decide))
  unfold Parson.jsonSerializeString jsonSerializeString
  rw [cstr_of_not_mem noNul, List.append_assoc]
  exact emits_run (moves_then quote (moves_then (moves_serializeChars text) quote))

/-- A number for which the scratch array has room. -/
theorem emits_serializeNumber {text : Bytes} (room : text.length < scratch)
    (short : text.length < 2 ^ 31) : Emits scratch text [0] (serializeNumber text) where
  counts := by
    intro memory isScratch
    rcases @sprintf_run text 0 memory (by omega) with ⟨after, ran, left⟩
    refine ⟨after, left.length.trans isScratch, ?_⟩
    rw [addLengths_of_lt (by omega), Nat.zero_add]
    exact ran
  writes := by
    intro position memory inside _
    exact sprintf_run inside

end Texts

/-! ## Values -/

/-- The values that a program can build: their strings are C strings, and their
numbers are doubles. -/
inductive Storable : JsonValue -> Prop where
  | string {text : Bytes} (noNul : 0 ∉ text) : Storable (.string text)
  | number {q : ℚ} (finite : Binary64.FiniteDouble q) : Storable (.number q)
  | negativeZero : Storable .negativeZero
  | boolean (value : Bool) : Storable (.boolean value)
  | null : Storable .null
  | array {items : List JsonValue} (storable : forall item, item ∈ items -> Storable item) :
      Storable (.array items)
  | object {members : Members} (names : forall member, member ∈ members -> 0 ∉ member.1)
      (storable : forall member, member ∈ members -> Storable member.2) :
      Storable (.object members)

section Values

variable {scratch : Nat} {isPretty : Bool}

/-- The value is written at every level. -/
def Written (scratch : Nat) (isPretty : Bool) (value : JsonValue) : Prop :=
  forall level, Emits scratch (Parson.jsonSerializeToBufferR level isPretty value) [0]
    (jsonSerializeToBufferR level isPretty value)

theorem moves_literal {text : Bytes} (short : text.length < 2 ^ 31) :
    Moves scratch text [0] (append (appendString text)) :=
  moves_append (emits_appendString short)

theorem comma_eq (isLast : Bool) :
    (if !isLast then ascii "," else []) = if isLast then [] else ascii "," := by
  cases isLast <;> rfl

theorem moves_serializeItems {items : List JsonValue}
    (written : forall item, item ∈ items -> Written scratch isPretty item) (level : Nat) :
    Moves scratch (Parson.serializeItems level isPretty items) []
      (serializeItems level isPretty items) := by
  induction items with
  | nil => exact moves_pure
  | cons item rest inductionHypothesis =>
      have others := inductionHypothesis (fun other member => written other (List.mem_cons_of_mem _ member))
      have here := moves_append (written item List.mem_cons_self (level + 1))
      rw [Parson.serializeItems, serializeItems, ← comma_eq]
      simp only [List.append_assoc]
      exact moves_then (moves_onlyIf isPretty (moves_append (emits_appendIndent (level + 1))))
        (moves_then here (moves_then (moves_onlyIf _ (moves_literal (by decide)))
          (moves_then (moves_onlyIf isPretty (moves_literal (by decide))) others)))

theorem moves_serializeMembers {members : Members}
    (names : forall member, member ∈ members -> 0 ∉ member.1)
    (written : forall member, member ∈ members -> Written scratch isPretty member.2) (level : Nat) :
    Moves scratch (Parson.serializeMembers level isPretty members) []
      (serializeMembers level isPretty members) := by
  induction members with
  | nil => exact moves_pure
  | cons member rest inductionHypothesis =>
      rcases member with ⟨key, value⟩
      have others := inductionHypothesis
        (fun other member => names other (List.mem_cons_of_mem _ member))
        (fun other member => written other (List.mem_cons_of_mem _ member))
      have here := moves_append (written _ List.mem_cons_self (level + 1))
      have name := moves_append (@emits_jsonSerializeString scratch key (names _ List.mem_cons_self))
      rw [Parson.serializeMembers, serializeMembers, ← comma_eq]
      simp only [List.append_assoc]
      exact moves_then (moves_onlyIf isPretty (moves_append (emits_appendIndent (level + 1))))
        (moves_then name (moves_then (moves_literal (by decide))
          (moves_then (moves_onlyIf isPretty (moves_literal (by decide)))
            (moves_then here (moves_then (moves_onlyIf _ (moves_literal (by decide)))
              (moves_then (moves_onlyIf isPretty (moves_literal (by decide))) others))))))

/-- An array or an object with nothing in it. -/
theorem emits_empty {opening closing : Bytes} {level : Nat} (shortOpening : opening.length < 2 ^ 31)
    (shortClosing : closing.length < 2 ^ 31) :
    Emits scratch (opening ++ closing) [0]
      (run (append (appendString opening) >=>
        onlyIf (!true && isPretty) (append (appendString (ascii "\n"))) >=> pure >=>
        onlyIf (!true && isPretty) (append (appendIndent level)) >=>
        append (appendString closing))) :=
  emits_run (moves_then (moves_literal shortOpening) (moves_then moves_pure
    (moves_then moves_pure (moves_then moves_pure (moves_literal shortClosing)))))

/-- What is between the brackets of an array or an object. -/
theorem emits_bracketed {opening closing text : Bytes} {level : Nat}
    {steps : Cursor -> Action Bytes Cursor} (shortOpening : opening.length < 2 ^ 31)
    (shortClosing : closing.length < 2 ^ 31) (moves : Moves scratch text [] steps) :
    Emits scratch (opening ++ lineBreak isPretty ++ text ++ lineIndent isPretty level ++ closing) [0]
      (run (append (appendString opening) >=>
        onlyIf (!false && isPretty) (append (appendString (ascii "\n"))) >=> steps >=>
        onlyIf (!false && isPretty) (append (appendIndent level)) >=>
        append (appendString closing))) := by
  simp only [List.append_assoc]
  exact emits_run (moves_then (moves_literal shortOpening)
    (moves_then (moves_onlyIf isPretty (moves_literal (by decide)))
      (moves_then moves (moves_then (moves_onlyIf isPretty (moves_append (emits_appendIndent level)))
        (moves_literal shortClosing)))))

theorem written_of_storable (room : 25 ≤ scratch) {value : JsonValue} (storable : Storable value) :
    Written scratch isPretty value := by
  induction storable with
  | string noNul =>
      intro level
      rw [Parson.jsonSerializeToBufferR, jsonSerializeToBufferR]
      exact emits_run (moves_append (emits_jsonSerializeString noNul))
  | number finite =>
      intro level
      have short := Binary64.formatG17_length_le_of_finite finite
      rw [Parson.jsonSerializeToBufferR, jsonSerializeToBufferR]
      exact emits_run (moves_append (emits_serializeNumber (by omega) (by omega)))
  | negativeZero =>
      intro level
      have two : Binary64.negativeZeroText.length = 2 := rfl
      rw [Parson.jsonSerializeToBufferR, jsonSerializeToBufferR]
      exact emits_run (moves_append (emits_serializeNumber (by omega) (by omega)))
  | boolean value =>
      intro level
      cases value with
      | false =>
          rw [Parson.jsonSerializeToBufferR, jsonSerializeToBufferR]
          exact emits_run (moves_literal (by decide))
      | true =>
          rw [Parson.jsonSerializeToBufferR, jsonSerializeToBufferR]
          exact emits_run (moves_literal (by decide))
  | null =>
      intro level
      rw [Parson.jsonSerializeToBufferR, jsonSerializeToBufferR]
      exact emits_run (moves_literal (by decide))
  | @array items _ inductionHypothesis =>
      intro level
      cases items with
      | nil =>
          rw [Parson.jsonSerializeToBufferR, jsonSerializeToBufferR]
          exact @emits_empty scratch isPretty (ascii "[") (ascii "]") level (by decide) (by decide)
      | cons item rest =>
          rw [Parson.jsonSerializeToBufferR, jsonSerializeToBufferR]
          exact emits_bracketed (by decide) (by decide)
            (moves_serializeItems inductionHypothesis level)
  | @object members names _ inductionHypothesis =>
      intro level
      cases members with
      | nil =>
          rw [Parson.jsonSerializeToBufferR, jsonSerializeToBufferR]
          exact @emits_empty scratch isPretty (ascii "\x7b") (ascii "\x7d") level (by decide)
            (by decide)
      | cons member rest =>
          rw [Parson.jsonSerializeToBufferR, jsonSerializeToBufferR]
          exact emits_bracketed (by decide) (by decide)
            (moves_serializeMembers names inductionHypothesis level)

end Values

/-! ## The passes together -/

section Passes

variable {value : JsonValue} {numBuf : Bytes}

/-- The size is counted, or it overflows. -/
theorem jsonSerializationSizePretty_eq (storable : Storable value)
    (isNumBuf : numBuf.length = numBufSize) :
    jsonSerializationSizePretty numBuf value =
      addLengths (Parson.jsonSerializeToStringPretty value).length 1 := by
  have written := @written_of_storable numBufSize true (by decide) value storable 0
  rcases written.counts numBuf isNumBuf with ⟨after, _, ran⟩
  have text : Parson.jsonSerializeToBufferR 0 true value = Parson.jsonSerializeToStringPretty value :=
    rfl
  unfold jsonSerializationSizePretty
  rw [ran, text]
  by_cases short : (Parson.jsonSerializeToStringPretty value).length < 2 ^ 31
  · rw [addLengths_of_lt (by omega), Nat.zero_add]
  · rw [addLengths_of_le (by omega), addLengths_of_le (by omega)]

/-- A buffer that is too small is refused, and one of the right size is filled. -/
theorem jsonSerializeToBufferPretty_eq (storable : Storable value)
    (isNumBuf : numBuf.length = numBufSize) {buf : Bytes}
    (atMost : buf.length ≤ (Parson.jsonSerializeToStringPretty value).length + 1)
    (short : (Parson.jsonSerializeToStringPretty value).length + 1 < 2 ^ 31) :
    jsonSerializeToBufferPretty numBuf value buf =
      .ok (if buf.length < (Parson.jsonSerializeToStringPretty value).length + 1 then none
        else some (Parson.jsonSerializeToStringPretty value ++ [0])) := by
  unfold jsonSerializeToBufferPretty
  rw [jsonSerializationSizePretty_eq storable isNumBuf, addLengths_of_lt short]
  simp only [Nat.add_one_ne_zero, false_or]
  by_cases small : buf.length < (Parson.jsonSerializeToStringPretty value).length + 1
  · rw [if_pos small, if_pos small]
  · have written := @written_of_storable numBufSize true (by decide) value storable 0
    have filled := written.fills (by unfold Parson.jsonSerializeToStringPretty at short; omega)
      (Nat.le_antisymm atMost (Nat.le_of_not_lt small))
    rw [if_neg small, if_neg small, filled]
    rfl

/-- Whatever was in memory, the string is the text with its NUL. -/
theorem jsonSerializeToStringPretty_of_short {malloc : Nat -> Bytes} (storable : Storable value)
    (isNumBuf : numBuf.length = numBufSize) (isMalloc : forall size, (malloc size).length = size)
    (short : (Parson.jsonSerializeToStringPretty value).length + 1 < 2 ^ 31) :
    jsonSerializeToStringPretty numBuf malloc value =
      .ok (some (Parson.jsonSerializeToStringPretty value ++ [0])) := by
  have isSize := isMalloc ((Parson.jsonSerializeToStringPretty value).length + 1)
  unfold jsonSerializeToStringPretty
  rw [jsonSerializationSizePretty_eq storable isNumBuf, addLengths_of_lt short]
  simp only [Nat.add_one_ne_zero, if_false]
  rw [jsonSerializeToBufferPretty_eq storable isNumBuf (Nat.le_of_eq isSize) short,
    if_neg (by rw [isSize]; exact Nat.lt_irrefl _)]

/-- The string is the text with its NUL, or the lengths overflow. -/
theorem jsonSerializeToStringPretty_eq {malloc : Nat -> Bytes} (storable : Storable value)
    (isNumBuf : numBuf.length = numBufSize) (isMalloc : forall size, (malloc size).length = size) :
    jsonSerializeToStringPretty numBuf malloc value =
      if (Parson.jsonSerializeToStringPretty value).length + 1 < 2 ^ 31 then
        .ok (some (Parson.jsonSerializeToStringPretty value ++ [0]))
      else .error .conversion := by
  by_cases short : (Parson.jsonSerializeToStringPretty value).length + 1 < 2 ^ 31
  · rw [if_pos short]
    exact jsonSerializeToStringPretty_of_short storable isNumBuf isMalloc short
  · unfold jsonSerializeToStringPretty
    rw [jsonSerializationSizePretty_eq storable isNumBuf, addLengths_of_le (Nat.not_lt.mp short),
      if_neg short]

/-- Two numbers, a name and a string to be escaped. -/
def storedSample : JsonValue :=
  .object [(ascii "id", .number 1), (ascii "zero", .negativeZero),
    (ascii "names", .array [.string (ascii "a/b\n"), .null])]

theorem jsonSerializeToStringPretty_eq_storedSample :
    jsonSerializeToStringPretty (List.replicate 64 7) (fun size => List.replicate size 9)
        storedSample =
      if (Parson.jsonSerializeToStringPretty storedSample).length + 1 < 2 ^ 31 then
        .ok (some (Parson.jsonSerializeToStringPretty storedSample ++ [0]))
      else .error .conversion := by
  have one : Binary64.FiniteDouble 1 := by
    have exact_ := @Binary64.round_intCast 1 (by decide)
    rw [Int.cast_one] at exact_
    exact ⟨exact_, by decide +kernel⟩
  have names : Storable (.array [.string (ascii "a/b\n"), .null]) := by
    refine Storable.array fun item member => ?_
    rcases List.mem_cons.mp member with rfl | last
    · exact Storable.string (by decide)
    · rw [List.mem_singleton.mp last]
      exact Storable.null
  have storable : Storable storedSample := by
    refine Storable.object (by decide) fun member isMember => ?_
    simp only [List.mem_cons, List.not_mem_nil, or_false] at isMember
    rcases isMember with rfl | rfl | rfl
    · exact Storable.number one
    · exact Storable.negativeZero
    · exact names
  exact jsonSerializeToStringPretty_eq storable (by decide) (fun size => List.length_replicate)

end Passes

end Buffered
end Parson
end ChatHub
