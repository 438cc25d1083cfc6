import ChatHub.Lib.Parson.Value

namespace ChatHub

/-!
# The JSON parser of parson

A position in the text is the rest of the C string from there on, so that
the empty list is the position of the terminating NUL.  A function that
advances the position returns the new one next to its result.

The nesting limit makes the recursion over values structural: `levels` is how
many levels of values may still be opened.  The loop over members and items
gets a bound on its rounds; each round but the last consumes a comma, and
`parseParts_bound` shows that any bound above the length of the text gives the
same result.
-/

namespace Parson

/-- A parsing function: a result and the position behind it, or a failure. -/
abbrev Parser (Value : Type) := Bytes -> Option (Value × Bytes)

/-- `MAX_NESTING` -/
def maxNesting : Nat := 2048

/-- `SKIP_WHITESPACES` -/
def skipWhitespaces (string : Bytes) : Bytes :=
  string.dropWhile isSpace

/-! ## Strings -/

/-- The loop of `skip_quotes` behind the opening quote: the text up to the
closing quote and the position behind it. -/
def skipQuotesBody : Bytes -> Option (Bytes × Bytes)
  | [] => none
  | c :: rest =>
      if c = 0x22 then some ([], rest)
      else if c = 0x5C then
        match rest with
        | [] => none
        | escaped :: behind =>
            (skipQuotesBody behind).map (fun found => (c :: escaped :: found.1, found.2))
      else (skipQuotesBody rest).map (fun found => (c :: found.1, found.2))

@[simp] theorem skipQuotesBody_quote (rest : Bytes) :
    skipQuotesBody (0x22 :: rest) = some ([], rest) := by
  rw [skipQuotesBody.eq_def]
  rfl

@[simp] theorem skipQuotesBody_escape (escaped : UInt8) (behind : Bytes) :
    skipQuotesBody (0x5C :: escaped :: behind) =
      (skipQuotesBody behind).map (fun found => (0x5C :: escaped :: found.1, found.2)) :=
  rfl

theorem skipQuotesBody_plain {c : UInt8} (notQuote : c ≠ 0x22) (notEscape : c ≠ 0x5C)
    (rest : Bytes) :
    skipQuotesBody (c :: rest) =
      (skipQuotesBody rest).map (fun found => (c :: found.1, found.2)) := by
  rw [skipQuotesBody.eq_def]
  simp only [if_neg notQuote, if_neg notEscape]

/-- `skip_quotes` -/
def skipQuotes : Bytes -> Option (Bytes × Bytes)
  | [] => none
  | c :: rest => if c = 0x22 then skipQuotesBody rest else none

/-- `hex_char_to_int` -/
def hexCharToInt (c : UInt8) : Option Nat :=
  if 0x30 ≤ c ∧ c ≤ 0x39 then some (c.toNat - 0x30)
  else if 0x61 ≤ c ∧ c ≤ 0x66 then some (c.toNat - 0x61 + 10)
  else if 0x41 ≤ c ∧ c ≤ 0x46 then some (c.toNat - 0x41 + 10)
  else none

/-- `parse_utf16_hex` -/
def parseUtf16Hex : Bytes -> Option Nat
  | s0 :: s1 :: s2 :: s3 :: _ =>
      match hexCharToInt s0, hexCharToInt s1, hexCharToInt s2, hexCharToInt s3 with
      | some x1, some x2, some x3, some x4 => some (x1 <<< 12 ||| x2 <<< 8 ||| x3 <<< 4 ||| x4)
      | _, _, _, _ => none
  | _ => none

/-- `parse_utf16` for the text behind `\u`: the bytes it writes and how many
it reads. -/
def parseUtf16 (unprocessed : Bytes) : Option (Bytes × Nat) :=
  match parseUtf16Hex unprocessed with
  | none => none
  | some cp =>
      if cp < 0x80 then some ([UInt8.ofNat cp], 4)
      else if cp < 0x800 then
        some ([UInt8.ofNat (cp >>> 6 &&& 0x1F ||| 0xC0), UInt8.ofNat (cp &&& 0x3F ||| 0x80)], 4)
      else if cp < 0xD800 ∨ 0xDFFF < cp then
        some ([UInt8.ofNat (cp >>> 12 &&& 0x0F ||| 0xE0),
          UInt8.ofNat (cp >>> 6 &&& 0x3F ||| 0x80), UInt8.ofNat (cp &&& 0x3F ||| 0x80)], 4)
      else if cp ≤ 0xDBFF then
        if (unprocessed.drop 4).take 2 = ascii "\\u" then
          match parseUtf16Hex (unprocessed.drop 6) with
          | none => none
          | some trail =>
              if trail < 0xDC00 ∨ 0xDFFF < trail then none
              else
                let full :=
                  ((cp - 0xD800 &&& 0x3FF) <<< 10 ||| (trail - 0xDC00 &&& 0x3FF)) + 0x010000
                some ([UInt8.ofNat (full >>> 18 &&& 0x07 ||| 0xF0),
                  UInt8.ofNat (full >>> 12 &&& 0x3F ||| 0x80),
                  UInt8.ofNat (full >>> 6 &&& 0x3F ||| 0x80),
                  UInt8.ofNat (full &&& 0x3F ||| 0x80)], 10)
        else none
      else none

/-- The characters that a backslash and one letter stand for. -/
def simpleEscape (c : UInt8) : Option UInt8 :=
  if c = 0x22 then some 0x22
  else if c = 0x5C then some 0x5C
  else if c = 0x2F then some 0x2F
  else if c = 0x62 then some 0x08
  else if c = 0x66 then some 0x0C
  else if c = 0x6E then some 0x0A
  else if c = 0x72 then some 0x0D
  else if c = 0x74 then some 0x09
  else none

/-- One round of the loop of `process_string`: the bytes it writes and how
many it reads. -/
def processOne : Bytes -> Option (Bytes × Nat)
  | [] => none
  | c :: rest =>
      if c = 0x5C then
        match rest with
        | [] => none
        | escaped :: behind =>
            match simpleEscape escaped with
            | some written => some ([written], 2)
            | none =>
                if escaped = 0x75 then
                  (parseUtf16 behind).map (fun found => (found.1, found.2 + 2))
                else none
      else if c < 0x20 then none
      else some ([c], 1)

/-- The loop of `process_string`, where `skip` bytes that a round has read
are still to be passed. -/
def processStringFrom (skip : Nat) : Bytes -> Option Bytes
  | [] => some []
  | c :: rest =>
      match skip with
      | remaining + 1 => processStringFrom remaining rest
      | 0 =>
          match processOne (c :: rest) with
          | none => none
          | some (written, read) =>
              (processStringFrom (read - 1) rest).map (fun behind => written ++ behind)

/-- `process_string` on the text between the quotes.  The result is used as
a C string, which ends where `\u0000` was written. -/
def processString (input : Bytes) : Option Bytes :=
  (processStringFrom 0 input).map cstr

/-- `get_quoted_string` -/
def getQuotedString : Parser Bytes := fun string =>
  match skipQuotes string with
  | none => none
  | some (quoted, rest) => (processString quoted).map (fun text => (text, rest))

/-! ## Numbers and constants -/

/-- `is_decimal` -/
def isDecimal (string : Bytes) : Bool :=
  !(1 < string.length && string.take 1 == ascii "0" && string.getD 1 0 != 0x2E) &&
  !(2 < string.length && string.take 2 == ascii "-0" && string.getD 2 0 != 0x2E) &&
  string.all (fun c => c != 0x78 && c != 0x58)

/-- `parse_number_value`.  Infinities and NaNs are refused by
`json_value_init_number` and hexadecimal numbers by `is_decimal`. -/
def parseNumberValue : Parser JsonValue := fun string =>
  match Binary64.strtod string with
  | .outOfRange => none
  | .notDecimal => none
  | .number value rest =>
      if isDecimal (string.take (string.length - rest.length)) then some (.number value, rest)
      else none
  | .negativeZero rest =>
      if isDecimal (string.take (string.length - rest.length)) then some (.negativeZero, rest)
      else none

/-- A constant that is compared with `strncmp`. -/
def parseToken (token : Bytes) (value : JsonValue) : Parser JsonValue := fun string =>
  if string.take token.length = token then some (value, string.drop token.length) else none

/-- `parse_boolean_value` -/
def parseBooleanValue : Parser JsonValue := fun string =>
  match parseToken (ascii "true") (.boolean true) string with
  | some result => some result
  | none => parseToken (ascii "false") (.boolean false) string

/-- `parse_null_value` -/
def parseNullValue : Parser JsonValue :=
  parseToken (ascii "null") .null

/-- `parse_string_value` -/
def parseStringValue : Parser JsonValue := fun string =>
  (getQuotedString string).map (fun found => (.string found.1, found.2))

/-! ## Objects, arrays and values -/

/-- The end of an object or array behind its last value. -/
def parseEnd {Value : Type} (close : UInt8) (value : Value) : Parser Value := fun string =>
  match skipWhitespaces string with
  | [] => none
  | c :: rest => if c = close then some (value, rest) else none

/-- One member of an object is read and added. -/
def parseMember (parseValue : Parser JsonValue) (members : Members) : Parser Members :=
  fun string =>
    match getQuotedString string with
    | none => none
    | some (newKey, behindKey) =>
        match skipWhitespaces behindKey with
        | [] => none
        | c :: behindColon =>
            if c = 0x3A then
              match parseValue behindColon with
              | none => none
              | some (newValue, rest) =>
                  (jsonObjectAdd members newKey newValue).map (fun added => (added, rest))
            else none

/-- One item of an array is read and added. -/
def parseItem (parseValue : Parser JsonValue) (items : List JsonValue) :
    Parser (List JsonValue) := fun string =>
  (parseValue string).map (fun found => (items ++ [found.1], found.2))

/-- The loop that `parse_object_value` and `parse_array_value` share: read one
part, and another one as long as a comma follows. -/
def parseParts {Parts : Type} (parsePart : Parts -> Parser Parts) (close : UInt8)
    (bound : Nat) (parts : Parts) : Parser Parts := fun string =>
  match bound with
  | 0 => none
  | bound + 1 =>
      match string with
      | [] => none
      | _ :: _ =>
          match parsePart parts string with
          | none => none
          | some (added, behindPart) =>
              match skipWhitespaces behindPart with
              | [] => none
              | c :: rest =>
                  if c = 0x2C then
                    parseParts parsePart close bound added (skipWhitespaces rest)
                  else parseEnd close added (c :: rest)

/-- `parse_object_value` behind the opening brace. -/
def parseObjectValue (parseValue : Parser JsonValue) : Parser JsonValue := fun string =>
  match skipWhitespaces string with
  | [] => none
  | c :: rest =>
      if c = 0x7D then some (.object [], rest)
      else
        (parseParts (parseMember parseValue) 0x7D ((c :: rest).length + 1) [] (c :: rest)).map
          (fun found => (.object found.1, found.2))

/-- `parse_array_value` behind the opening bracket. -/
def parseArrayValue (parseValue : Parser JsonValue) : Parser JsonValue := fun string =>
  match skipWhitespaces string with
  | [] => none
  | c :: rest =>
      if c = 0x5D then some (.array [], rest)
      else
        (parseParts (parseItem parseValue) 0x5D ((c :: rest).length + 1) [] (c :: rest)).map
          (fun found => (.array found.1, found.2))

/-- The dispatch of `parse_value` on the first character. -/
def parseDispatch (parseValue : Parser JsonValue) : Parser JsonValue := fun string =>
  match string with
  | [] => none
  | c :: rest =>
      if c = 0x7B then parseObjectValue parseValue rest
      else if c = 0x5B then parseArrayValue parseValue rest
      else if c = 0x22 then parseStringValue (c :: rest)
      else if c = 0x66 ∨ c = 0x74 then parseBooleanValue (c :: rest)
      else if c = 0x2D ∨ isDigit c = true then parseNumberValue (c :: rest)
      else if c = 0x6E then parseNullValue (c :: rest)
      else none

/-- `parse_value`, where `levels` is `MAX_NESTING + 1` less the nesting. -/
def parseValue (levels : Nat) : Parser JsonValue := fun string =>
  match levels with
  | 0 => none
  | remaining + 1 => parseDispatch (parseValue remaining) (skipWhitespaces string)

/-- `json_parse_string`; text behind the value is not looked at. -/
def jsonParseString (string : Bytes) : Option JsonValue :=
  let text := if string.take 3 = [0xEF, 0xBB, 0xBF] then string.drop 3 else string
  (parseValue (maxNesting + 1) text).map (fun found => found.1)

/-! ## The position only advances -/

/-- A parsing function never moves the position back. -/
def Advances {Value : Type} (parse : Parser Value) : Prop :=
  forall string value rest, parse string = some (value, rest) -> rest.length ≤ string.length

theorem skipWhitespaces_length_le (string : Bytes) :
    (skipWhitespaces string).length ≤ string.length :=
  (List.dropWhile_sublist isSpace).length_le

/-- Reading up to the closing quote passes at least that quote. -/
theorem skipQuotesBody_advances (string : Bytes) {quoted rest : Bytes}
    (found : skipQuotesBody string = some (quoted, rest)) : rest.length < string.length := by
  induction string using skipQuotesBody.induct generalizing quoted rest with
  | case1 => cases found
  | case2 behind =>
      rw [skipQuotesBody_quote] at found
      cases found
      exact Nat.lt_succ_self _
  | case3 => cases found
  | case4 escaped behind _ inductionHypothesis =>
      rw [skipQuotesBody_escape, Option.map_eq_some_iff] at found
      rcases found with ⟨inner, body, equal⟩
      cases equal
      exact Nat.lt_succ_of_lt (Nat.lt_succ_of_lt (inductionHypothesis body))
  | case5 c behind notQuote notEscape inductionHypothesis =>
      rw [skipQuotesBody_plain notQuote notEscape, Option.map_eq_some_iff] at found
      rcases found with ⟨inner, body, equal⟩
      cases equal
      exact Nat.lt_succ_of_lt (inductionHypothesis body)

theorem getQuotedString_advances {string text rest : Bytes}
    (found : getQuotedString string = some (text, rest)) : rest.length < string.length := by
  unfold getQuotedString at found
  cases skipped : skipQuotes string with
  | none => simp [skipped] at found
  | some pair =>
      simp only [skipped, Option.map_eq_some_iff] at found
      rcases found with ⟨_, _, equal⟩
      cases equal
      cases string with
      | nil => cases skipped
      | cons c behind =>
          simp only [skipQuotes, Option.ite_none_right_eq_some] at skipped
          exact Nat.lt_succ_of_lt (skipQuotesBody_advances behind skipped.2)

theorem parseEnd_advances {Value : Type} (close : UInt8) (value : Value) :
    Advances (parseEnd close value) := by
  intro string result rest found
  unfold parseEnd at found
  have shorter := skipWhitespaces_length_le string
  cases skipped : skipWhitespaces string with
  | nil => simp [skipped] at found
  | cons c behind =>
      simp only [skipped, Option.ite_none_right_eq_some, Option.some.injEq, Prod.mk.injEq] at found
      rw [skipped, List.length_cons, found.2.2] at shorter
      exact Nat.le_of_succ_le shorter

theorem parseMember_advances {parseValue : Parser JsonValue} (advances : Advances parseValue)
    (members : Members) : Advances (parseMember parseValue members) := by
  intro string added rest found
  unfold parseMember at found
  cases key : getQuotedString string with
  | none => simp [key] at found
  | some pair =>
      have afterKey := getQuotedString_advances key
      have afterBlank := skipWhitespaces_length_le pair.2
      simp only [key] at found
      cases skipped : skipWhitespaces pair.2 with
      | nil => simp [skipped] at found
      | cons c behindColon =>
          rw [skipped, List.length_cons] at afterBlank
          simp only [skipped, Option.ite_none_right_eq_some] at found
          cases parsed : parseValue behindColon with
          | none => simp [parsed] at found
          | some result =>
              have afterValue := advances behindColon result.1 result.2 parsed
              simp only [parsed, Option.map_eq_some_iff, Prod.mk.injEq] at found
              rcases found with ⟨_, _, _, _, same⟩
              rw [← same]
              omega

theorem parseItem_advances {parseValue : Parser JsonValue} (advances : Advances parseValue)
    (items : List JsonValue) : Advances (parseItem parseValue items) := by
  intro string added rest found
  rcases Option.map_eq_some_iff.mp found with ⟨result, parsed, equal⟩
  cases equal
  exact advances string result.1 result.2 parsed

section Parts

variable {Parts : Type} {parsePart : Parts -> Parser Parts}

/-- Any two bounds above the length of the text let the loop run to the same
end, and it only advances. -/
theorem parseParts_bound (advances : forall parts, Advances (parsePart parts)) (close : UInt8)
    {bound other : Nat} (parts : Parts) {string : Bytes} (enough : string.length < bound)
    (enoughOther : string.length < other) :
    parseParts parsePart close bound parts string = parseParts parsePart close other parts string ∧
      forall result rest, parseParts parsePart close bound parts string = some (result, rest) ->
        rest.length ≤ string.length := by
  induction bound generalizing other parts string with
  | zero => exact absurd enough (Nat.not_lt_zero _)
  | succ bound inductionHypothesis =>
      cases other with
      | zero => exact absurd enoughOther (Nat.not_lt_zero _)
      | succ other =>
          cases string with
          | nil => exact ⟨rfl, fun _ _ found => by cases found⟩
          | cons head tail =>
              cases part : parsePart parts (head :: tail) with
              | none =>
                  simp only [parseParts, part]
                  exact ⟨trivial, fun _ _ found => by cases found⟩
              | some pair =>
                  have afterPart := advances parts _ _ _ part
                  have afterBlank := skipWhitespaces_length_le pair.2
                  cases skipped : skipWhitespaces pair.2 with
                  | nil =>
                      simp only [parseParts, part, skipped]
                      exact ⟨trivial, fun _ _ found => by cases found⟩
                  | cons c rest =>
                      simp only [parseParts, part, skipped]
                      rw [skipped, List.length_cons] at afterBlank
                      by_cases comma : c = 0x2C
                      · have afterComma := skipWhitespaces_length_le rest
                        simp only [if_pos comma]
                        rcases inductionHypothesis pair.1 (by omega) (by omega :
                          (skipWhitespaces rest).length < other) with ⟨same, shorter⟩
                        refine ⟨same, fun result behind found => ?_⟩
                        have atMost := shorter result behind found
                        omega
                      · simp only [if_neg comma]
                        refine ⟨trivial, fun result behind found => ?_⟩
                        have atMost := parseEnd_advances close pair.1 _ _ _ found
                        rw [List.length_cons] at atMost
                        omega

end Parts

/-! ## Objects and arrays alike -/

/-- What `parse_object_value` and `parse_array_value` have in common: the
closing bracket, or the loop over the parts. -/
def parseBracketed {Parts : Type} (parsePart : Parts -> Parser Parts) (close : UInt8)
    (empty : Parts) (wrap : Parts -> JsonValue) : Parser JsonValue := fun string =>
  match skipWhitespaces string with
  | [] => none
  | c :: rest =>
      if c = close then some (wrap empty, rest)
      else
        (parseParts parsePart close ((c :: rest).length + 1) empty (c :: rest)).map
          (fun found => (wrap found.1, found.2))

theorem parseObjectValue_bracketed (parseValue : Parser JsonValue) :
    parseObjectValue parseValue = parseBracketed (parseMember parseValue) 0x7D [] .object :=
  rfl

theorem parseArrayValue_bracketed (parseValue : Parser JsonValue) :
    parseArrayValue parseValue = parseBracketed (parseItem parseValue) 0x5D [] .array :=
  rfl

section Bracketed

variable {Parts : Type} {parsePart : Parts -> Parser Parts} {close : UInt8} {empty : Parts}
  {wrap : Parts -> JsonValue} {string rest : Bytes} {value : JsonValue}

/-- Behind white space stands the closing bracket or the first part. -/
theorem parseBracketed_cases
    (found : parseBracketed parsePart close empty wrap string = some (value, rest)) :
    (skipWhitespaces string = close :: rest ∧ value = wrap empty) ∨
      Exists fun c => Exists fun behind => Exists fun parts =>
        skipWhitespaces string = c :: behind ∧ c ≠ close ∧ value = wrap parts ∧
        parseParts parsePart close ((c :: behind).length + 1) empty (c :: behind) =
          some (parts, rest) := by
  unfold parseBracketed at found
  cases skipped : skipWhitespaces string with
  | nil => simp [skipped] at found
  | cons c behind =>
      simp only [skipped] at found
      split at found
      · next isEmpty =>
          cases found
          exact Or.inl ⟨by rw [isEmpty], rfl⟩
      · next isParts =>
          rcases Option.map_eq_some_iff.mp found with ⟨result, parsed, equal⟩
          cases equal
          exact Or.inr ⟨c, behind, result.1, rfl, isParts, rfl, parsed⟩

theorem parseBracketed_advances (advances : forall parts, Advances (parsePart parts)) :
    Advances (parseBracketed parsePart close empty wrap) := by
  intro string value rest found
  have afterBlank := skipWhitespaces_length_le string
  rcases parseBracketed_cases found with
    ⟨skipped, _⟩ | ⟨c, behind, parts, skipped, _, _, parsed⟩
  · rw [skipped] at afterBlank
    exact Nat.le_of_succ_le afterBlank
  · rw [skipped] at afterBlank
    exact ((parseParts_bound advances close empty (Nat.lt_succ_self _)
      (Nat.lt_succ_self _)).2 _ _ parsed).trans afterBlank

end Bracketed

theorem parseObjectValue_advances {parseValue : Parser JsonValue}
    (advances : Advances parseValue) : Advances (parseObjectValue parseValue) := by
  rw [parseObjectValue_bracketed]
  exact parseBracketed_advances (parseMember_advances advances)

theorem parseArrayValue_advances {parseValue : Parser JsonValue}
    (advances : Advances parseValue) : Advances (parseArrayValue parseValue) := by
  rw [parseArrayValue_bracketed]
  exact parseBracketed_advances (parseItem_advances advances)

theorem parseToken_advances (token : Bytes) (value : JsonValue) :
    Advances (parseToken token value) := by
  intro string result rest found
  simp only [parseToken, Option.ite_none_right_eq_some, Option.some.injEq, Prod.mk.injEq] at found
  rw [← found.2.2, List.length_drop]
  exact Nat.sub_le _ _

theorem parseBooleanValue_advances : Advances parseBooleanValue := by
  intro string value rest found
  unfold parseBooleanValue at found
  cases isTrue : parseToken (ascii "true") (.boolean true) string with
  | none =>
      rw [isTrue] at found
      exact parseToken_advances _ _ string value rest found
  | some pair =>
      rw [isTrue] at found
      cases found
      exact parseToken_advances _ _ string value rest isTrue

/-- A number was scanned, and its text is decimal. -/
theorem parseNumberValue_scanned {string rest : Bytes} {value : JsonValue}
    (found : parseNumberValue string = some (value, rest)) :
    (Binary64.strtod string).rest = some rest ∧
      isDecimal (string.take (string.length - rest.length)) = true := by
  unfold parseNumberValue at found
  cases scanned : Binary64.strtod string with
  | outOfRange => simp [scanned] at found
  | notDecimal => simp [scanned] at found
  | number number behind =>
      simp only [scanned, Option.ite_none_right_eq_some, Option.some.injEq, Prod.mk.injEq] at found
      rw [← found.2.2]
      exact ⟨rfl, found.1⟩
  | negativeZero behind =>
      simp only [scanned, Option.ite_none_right_eq_some, Option.some.injEq, Prod.mk.injEq] at found
      rw [← found.2.2]
      exact ⟨rfl, found.1⟩

theorem parseNumberValue_advances : Advances parseNumberValue := by
  intro string value rest found
  exact Binary64.strtod_length_le (parseNumberValue_scanned found).1

theorem parseStringValue_advances : Advances parseStringValue := by
  intro string value rest found
  rcases Option.map_eq_some_iff.mp found with ⟨result, quoted, equal⟩
  cases equal
  exact Nat.le_of_lt (getQuotedString_advances quoted)

theorem parseValue_of_skipped {remaining : Nat} {string behind : Bytes} {c : UInt8}
    (skipped : skipWhitespaces string = c :: behind) :
    parseValue (remaining + 1) string = parseDispatch (parseValue remaining) (c :: behind) := by
  change parseDispatch (parseValue remaining) (skipWhitespaces string) = _
  rw [skipped]

/-- A value starts behind white space, on a level that is left. -/
theorem parseValue_cases {levels : Nat} {string rest : Bytes} {value : JsonValue}
    (found : parseValue levels string = some (value, rest)) :
    Exists fun remaining => Exists fun c => Exists fun behind => levels = remaining + 1 ∧
      skipWhitespaces string = c :: behind ∧
      parseDispatch (parseValue remaining) (c :: behind) = some (value, rest) := by
  cases levels with
  | zero => cases found
  | succ remaining =>
      change parseDispatch (parseValue remaining) (skipWhitespaces string) = _ at found
      cases skipped : skipWhitespaces string with
      | nil =>
          rw [skipped] at found
          cases found
      | cons c behind =>
          rw [skipped] at found
          exact ⟨remaining, c, behind, rfl, rfl, found⟩

/-- Values are read forwards on every level, so no loop over members or items
ever meets its bound. -/
theorem parseValue_advances (levels : Nat) : Advances (parseValue levels) := by
  induction levels with
  | zero =>
      intro string value rest found
      cases found
  | succ remaining inductionHypothesis =>
      intro string value rest found
      rcases parseValue_cases found with ⟨_, c, behind, same, skipped, dispatched⟩
      cases same
      have afterBlank := skipWhitespaces_length_le string
      rw [skipped] at afterBlank
      refine Nat.le_trans ?_ afterBlank
      simp only [parseDispatch] at dispatched
      split at dispatched
      · exact Nat.le_succ_of_le
          (parseObjectValue_advances inductionHypothesis behind value rest dispatched)
      split at dispatched
      · exact Nat.le_succ_of_le
          (parseArrayValue_advances inductionHypothesis behind value rest dispatched)
      split at dispatched
      · exact parseStringValue_advances _ value rest dispatched
      split at dispatched
      · exact parseBooleanValue_advances _ value rest dispatched
      split at dispatched
      · exact parseNumberValue_advances _ value rest dispatched
      split at dispatched
      · exact parseToken_advances _ _ _ value rest dispatched
      · cases dispatched

end Parson
end ChatHub
