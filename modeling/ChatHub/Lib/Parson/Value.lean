import ChatHub.Base.Binary64
import ChatHub.Lib.Parson.Utf8

namespace ChatHub

/-!
# JSON values and their serialization

The part of `lib/parson.c` that builds values, reads them and turns them into
text.  An object is the list of its members in the order in which they were
added; a member can be replaced but no name occurs twice.  A number is a
finite `double`, where the negative zero is a value of its own.  Memory is assumed to be available, so that the only
failures left are the refusals that the code itself makes.
-/

/-- `JSON_Value` -/
inductive JsonValue where
  | object (members : List (Bytes × JsonValue))
  | array (items : List JsonValue)
  | string (text : Bytes)
  | number (value : ℚ)
  | negativeZero
  | boolean (value : Bool)
  | null

namespace Parson

/-- The members of an object, `JSON_Object`. -/
abbrev Members := List (Bytes × JsonValue)

/-! ## Objects -/

/-- `json_object_get_value` -/
def jsonObjectGetValue (members : Members) (name : Bytes) : Option JsonValue :=
  (members.find? (fun member => member.1 == name)).map (fun member => member.2)

/-- `json_object_add`, which refuses a name that is already present. -/
def jsonObjectAdd (members : Members) (name : Bytes) (value : JsonValue) : Option Members :=
  if (jsonObjectGetValue members name).isSome then none
  else some (members ++ [(name, value)])

/-- The first member with the name gets another value. -/
def replaceValue (name : Bytes) (value : JsonValue) : Members -> Members
  | [] => []
  | member :: rest =>
      if member.1 = name then (member.1, value) :: rest
      else member :: replaceValue name value rest

/-- `json_object_set_value`, where `none` is a null pointer; the status that
callers ignore is dropped. -/
def jsonObjectSetValue (members : Members) (name : Bytes) : Option JsonValue -> Members
  | none => members
  | some value =>
      if (jsonObjectGetValue members name).isSome then replaceValue name value members
      else (jsonObjectAdd members name value).getD members

/-- `json_value_init_string` -/
def jsonValueInitString (string : Bytes) : Option JsonValue :=
  if isValidUtf8 string then some (.string string) else none

/-- `json_value_init_number`; every rational stands for a finite number that
is not the negative zero. -/
def jsonValueInitNumber (number : ℚ) : Option JsonValue :=
  some (.number number)

/-- `json_object_set_string` -/
def jsonObjectSetString (members : Members) (name string : Bytes) : Members :=
  jsonObjectSetValue members name (jsonValueInitString string)

/-- `json_object_set_number` -/
def jsonObjectSetNumber (members : Members) (name : Bytes) (number : ℚ) : Members :=
  jsonObjectSetValue members name (jsonValueInitNumber number)

/-- `json_value_get_object` -/
def jsonValueGetObject : Option JsonValue -> Option Members
  | some (.object members) => some members
  | _ => none

/-- `json_value_get_string` -/
def jsonValueGetString : Option JsonValue -> Option Bytes
  | some (.string text) => some text
  | _ => none

/-- `json_value_get_number`; the negative zero is equal to zero, which is also
the answer for other values. -/
def jsonValueGetNumber : Option JsonValue -> ℚ
  | some (.number value) => value
  | _ => 0

/-- `json_object_get_string`, also for a null object. -/
def jsonObjectGetString (object : Option Members) (name : Bytes) : Option Bytes :=
  jsonValueGetString (object.bind (fun members => jsonObjectGetValue members name))

/-- `json_object_get_number`, also for a null object. -/
def jsonObjectGetNumber (object : Option Members) (name : Bytes) : ℚ :=
  jsonValueGetNumber (object.bind (fun members => jsonObjectGetValue members name))

theorem jsonObjectGetValue_cons (member : Bytes × JsonValue) (members : Members) (name : Bytes) :
    jsonObjectGetValue (member :: members) name =
      if member.1 = name then some member.2 else jsonObjectGetValue members name := by
  unfold jsonObjectGetValue
  by_cases same : member.1 = name
  · simp [same]
  · simp [same]

/-- A name has a value exactly when it is the name of a member. -/
theorem jsonObjectGetValue_isSome_iff (members : Members) (name : Bytes) :
    (jsonObjectGetValue members name).isSome = true <-> name ∈ members.map Prod.fst := by
  induction members with
  | nil => simp [jsonObjectGetValue]
  | cons member rest inductionHypothesis =>
      rw [jsonObjectGetValue_cons, List.map_cons, List.mem_cons]
      by_cases same : member.1 = name
      · simp [same]
      · rw [if_neg same, inductionHypothesis]
        constructor
        · exact Or.inr
        · intro either
          rcases either with head | tail
          · exact absurd head.symm same
          · exact tail

/-! ## Serialization -/

/-- A lower-case hexadecimal digit. -/
def hexDigit (value : UInt8) : UInt8 :=
  if value < 10 then 0x30 + value else 0x57 + value

/-- The text written for one character of a string.  The control characters
without a short form are written as `\u00` and two hexadecimal digits. -/
def escape (c : UInt8) : Bytes :=
  if c = 0x22 then ascii "\\\""
  else if c = 0x5C then ascii "\\\\"
  else if c = 0x2F then ascii "\\/"
  else if c = 0x08 then ascii "\\b"
  else if c = 0x0C then ascii "\\f"
  else if c = 0x0A then ascii "\\n"
  else if c = 0x0D then ascii "\\r"
  else if c = 0x09 then ascii "\\t"
  else if c < 0x20 then ascii "\\u00" ++ [hexDigit (c / 16), hexDigit (c % 16)]
  else [c]

/-- `json_serialize_string` -/
def jsonSerializeString (string : Bytes) : Bytes :=
  ascii "\"" ++ string.flatMap escape ++ ascii "\""

/-- `append_indent` -/
def appendIndent (level : Nat) : Bytes :=
  (List.replicate level (ascii "    ")).flatten

/-- A line break, in pretty output only. -/
def lineBreak (isPretty : Bool) : Bytes :=
  if isPretty then ascii "\n" else []

/-- The indentation of a line, in pretty output only. -/
def lineIndent (isPretty : Bool) (level : Nat) : Bytes :=
  if isPretty then appendIndent level else []

mutual

/-- `json_serialize_to_buffer_r`.  The code looks every member up by its
name, which finds that member because no name occurs twice. -/
def jsonSerializeToBufferR (level : Nat) (isPretty : Bool) : JsonValue -> Bytes
  | .array [] => ascii "[]"
  | .array (item :: items) =>
      ascii "[" ++ lineBreak isPretty ++ serializeItems level isPretty (item :: items) ++
        lineIndent isPretty level ++ ascii "]"
  | .object [] => ascii "\x7b\x7d"
  | .object (member :: members) =>
      ascii "\x7b" ++ lineBreak isPretty ++ serializeMembers level isPretty (member :: members) ++
        lineIndent isPretty level ++ ascii "\x7d"
  | .string text => jsonSerializeString text
  | .boolean true => ascii "true"
  | .boolean false => ascii "false"
  | .number value => Binary64.formatG17 value
  | .negativeZero => Binary64.negativeZeroText
  | .null => ascii "null"

/-- The items of an array, one a line. -/
def serializeItems (level : Nat) (isPretty : Bool) : List JsonValue -> Bytes
  | [] => []
  | item :: rest =>
      lineIndent isPretty (level + 1) ++ jsonSerializeToBufferR (level + 1) isPretty item ++
        (if rest.isEmpty then [] else ascii ",") ++ lineBreak isPretty ++
        serializeItems level isPretty rest

/-- The members of an object, one a line. -/
def serializeMembers (level : Nat) (isPretty : Bool) : List (Bytes × JsonValue) -> Bytes
  | [] => []
  | (name, value) :: rest =>
      lineIndent isPretty (level + 1) ++ jsonSerializeString name ++ ascii ":" ++
        (if isPretty then ascii " " else []) ++
        jsonSerializeToBufferR (level + 1) isPretty value ++
        (if rest.isEmpty then [] else ascii ",") ++ lineBreak isPretty ++
        serializeMembers level isPretty rest

end

/-- `json_serialize_to_string_pretty`, without the terminating NUL. -/
def jsonSerializeToStringPretty (value : JsonValue) : Bytes :=
  jsonSerializeToBufferR 0 true value

/-- `json_serialization_size_pretty`, which counts the terminating NUL. -/
def jsonSerializationSizePretty (value : JsonValue) : Nat :=
  (jsonSerializeToStringPretty value).length + 1

end Parson
end ChatHub
