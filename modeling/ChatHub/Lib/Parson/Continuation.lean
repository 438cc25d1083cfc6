import ChatHub.Lib.Parson.Parse

namespace ChatHub

/-!
# Text behind a value

The parser looks no further than the end of the value that it reads.  Only a
number needs the character behind it, and inside an object or an array this
is white space, a comma or the closing bracket.  So an object that is
complete is read in the same way whatever text follows it.
-/

namespace Parson

/-- The characters that may stand behind a value inside an object or array. -/
def Separates (c : UInt8) : Prop :=
  isSpace c = true ∨ c = 0x2C ∨ c = 0x7D ∨ c = 0x5D

/-- What is read is read in the same way when more text follows. -/
def Continues {Value : Type} (parse : Parser Value) : Prop :=
  forall string value rest, parse string = some (value, rest) ->
    forall more, parse (string ++ more) = some (value, rest ++ more)

/-- The same for what is followed by a separator. -/
def ContinuesInside {Value : Type} (parse : Parser Value) : Prop :=
  forall string value c rest, parse string = some (value, c :: rest) -> Separates c ->
    forall more, parse (string ++ more) = some (value, c :: rest ++ more)

theorem Continues.inside {Value : Type} {parse : Parser Value} (continues : Continues parse) :
    ContinuesInside parse :=
  fun string value c rest found _ more => continues string value (c :: rest) found more

theorem separates_delimits : forall c, Separates c -> Binary64.Delimits c ∧ c ≠ 0x2D := by
  unfold Separates
  apply forall_byte
  decide +kernel

theorem skipWhitespaces_append {string rest : Bytes} {c : UInt8}
    (skipped : skipWhitespaces string = c :: rest) (more : Bytes) :
    skipWhitespaces (string ++ more) = c :: (rest ++ more) := by
  unfold skipWhitespaces at skipped ⊢
  rw [List.dropWhile_append, skipped]
  rfl

/-- Behind a value stands a separator, if one is found behind white space. -/
theorem separates_of_skipped {string rest : Bytes} {c : UInt8}
    (skipped : skipWhitespaces string = c :: rest) (separates : Separates c) :
    Exists fun first => Exists fun others => string = first :: others ∧ Separates first := by
  cases string with
  | nil => cases skipped
  | cons first others =>
      refine ⟨first, others, rfl, ?_⟩
      cases space : isSpace first with
      | true => exact Or.inl space
      | false =>
          unfold skipWhitespaces at skipped
          rw [List.dropWhile_cons, space] at skipped
          cases skipped
          exact separates

/-! ## Strings, constants and numbers -/

theorem skipQuotesBody_append (string : Bytes) {quoted rest : Bytes}
    (found : skipQuotesBody string = some (quoted, rest)) (more : Bytes) :
    skipQuotesBody (string ++ more) = some (quoted, rest ++ more) := by
  induction string using skipQuotesBody.induct generalizing quoted rest with
  | case1 => cases found
  | case2 behind =>
      rw [skipQuotesBody_quote] at found
      cases found
      exact skipQuotesBody_quote (behind ++ more)
  | case3 => cases found
  | case4 escaped behind _ inductionHypothesis =>
      rw [skipQuotesBody_escape, Option.map_eq_some_iff] at found
      rcases found with ⟨inner, body, equal⟩
      cases equal
      rw [List.cons_append, List.cons_append, skipQuotesBody_escape, inductionHypothesis body]
      rfl
  | case5 c behind notQuote notEscape inductionHypothesis =>
      rw [skipQuotesBody_plain notQuote notEscape, Option.map_eq_some_iff] at found
      rcases found with ⟨inner, body, equal⟩
      cases equal
      rw [List.cons_append, skipQuotesBody_plain notQuote notEscape, inductionHypothesis body]
      rfl

theorem getQuotedString_continues : Continues getQuotedString := by
  intro string text rest found more
  unfold getQuotedString at found
  cases skipped : skipQuotes string with
  | none => simp [skipped] at found
  | some pair =>
      have longer : skipQuotes (string ++ more) = some (pair.1, pair.2 ++ more) := by
        cases string with
        | nil => cases skipped
        | cons c behind =>
            simp only [skipQuotes, Option.ite_none_right_eq_some] at skipped
            rw [List.cons_append, skipQuotes, if_pos skipped.1]
            exact skipQuotesBody_append behind skipped.2 more
      simp only [skipped, Option.map_eq_some_iff] at found
      rcases found with ⟨processed, isProcessed, equal⟩
      cases equal
      simp only [getQuotedString, longer, isProcessed, Option.map_some]

theorem parseStringValue_continues : Continues parseStringValue := by
  intro string value rest found more
  rcases Option.map_eq_some_iff.mp found with ⟨result, quoted, equal⟩
  cases equal
  simp only [parseStringValue, getQuotedString_continues _ _ _ quoted more, Option.map_some]

theorem parseToken_continues (token : Bytes) (value : JsonValue) :
    Continues (parseToken token value) := by
  intro string result rest found more
  simp only [parseToken, Option.ite_none_right_eq_some, Option.some.injEq, Prod.mk.injEq] at found
  rcases found with ⟨isToken, isValue, isRest⟩
  have long : token.length ≤ string.length := by
    rw [← isToken, List.length_take]
    exact Nat.min_le_right _ _
  unfold parseToken
  rw [List.take_append_of_le_length long, if_pos isToken, List.drop_append_of_le_length long,
    isValue, isRest]

theorem parseBooleanValue_continues : Continues parseBooleanValue := by
  intro string value rest found more
  unfold parseBooleanValue at found
  cases isTrue : parseToken (ascii "true") (.boolean true) string with
  | some pair =>
      rw [isTrue] at found
      cases found
      simp only [parseBooleanValue, parseToken_continues _ _ _ _ _ isTrue more]
  | none =>
      rw [isTrue] at found
      have isFalse := parseToken_continues _ _ _ _ _ found more
      -- a text that starts with one constant does not start with the other
      have notTrue : parseToken (ascii "true") (.boolean true) (string ++ more) = none := by
        simp only [parseToken, Option.ite_none_right_eq_some] at isFalse
        apply if_neg
        intro startsTrue
        have heads := congrArg List.head? isFalse.1
        rw [List.head?_take, if_neg (by decide)] at heads
        have headsTrue := congrArg List.head? startsTrue
        rw [List.head?_take, if_neg (by decide), heads] at headsTrue
        exact absurd headsTrue (by decide)
      simp only [parseBooleanValue, notTrue, isFalse]

/-- A number that is followed by a separator. -/
theorem parseNumberValue_append {head c : UInt8} {tail rest : Bytes} {value : JsonValue}
    (kind : head = 0x2D ∨ isDigit head = true)
    (found : parseNumberValue (head :: tail) = some (value, c :: rest)) (separates : Separates c)
    (more : Bytes) : parseNumberValue (head :: tail ++ more) = some (value, c :: rest ++ more) := by
  rcases separates_delimits c separates with ⟨delimits, notMinus⟩
  rcases parseNumberValue_scanned found with ⟨isRest, isDecimal⟩
  have visible : (head :: tail).dropWhile isSpace = head :: tail := by
    have notSpace : isSpace head = false := by
      rcases kind with minus | digit
      · rw [minus]
        rfl
      · exact (digit_not_sign head digit).2.2
    rw [List.dropWhile_cons, notSpace]
    rfl
  have moved : head :: tail ≠ c :: rest := by
    intro same
    have isHead := (List.cons.inj same).1
    rcases kind with minus | digit
    · exact notMinus (isHead.symm.trans minus)
    · rw [isHead, delimits.1] at digit
      cases digit
  have longer := Binary64.strtod_append isRest delimits visible moved more
  have shorter := Binary64.strtod_length_le isRest
  have consumed : (head :: tail ++ more).take
      ((head :: tail ++ more).length - (c :: rest ++ more).length) =
      (head :: tail).take ((head :: tail).length - (c :: rest).length) := by
    rw [List.length_append, List.length_append, Nat.add_sub_add_right,
      List.take_append_of_le_length (Nat.sub_le _ _)]
  unfold parseNumberValue at found ⊢
  rw [longer]
  cases scanned : Binary64.strtod (head :: tail) with
  | outOfRange => simp [scanned] at found
  | notDecimal => simp [scanned] at found
  | number number behind =>
      rw [scanned] at found isRest
      cases isRest
      simp only [isDecimal, if_true, Option.some.injEq, Prod.mk.injEq] at found
      simp only [Binary64.Scan.followedBy, consumed, isDecimal, if_true, found.1]
  | negativeZero behind =>
      rw [scanned] at found isRest
      cases isRest
      simp only [isDecimal, if_true, Option.some.injEq, Prod.mk.injEq] at found
      simp only [Binary64.Scan.followedBy, consumed, isDecimal, if_true, found.1]

/-! ## Objects and arrays -/

theorem parseEnd_continues {Value : Type} (close : UInt8) (value : Value) :
    Continues (parseEnd close value) := by
  intro string result rest found more
  unfold parseEnd at found
  cases skipped : skipWhitespaces string with
  | nil => simp [skipped] at found
  | cons c behind =>
      simp only [skipped, Option.ite_none_right_eq_some, Option.some.injEq, Prod.mk.injEq] at found
      rcases found with ⟨isClose, isValue, isRest⟩
      simp only [parseEnd, skipWhitespaces_append skipped more, if_pos isClose, isValue, isRest]

theorem parseEnd_closes {Value : Type} {close c : UInt8} {value result : Value} {behind rest : Bytes}
    (visible : skipWhitespaces (c :: behind) = c :: behind)
    (found : parseEnd close value (c :: behind) = some (result, rest)) : c = close := by
  unfold parseEnd at found
  simp only [visible, Option.ite_none_right_eq_some] at found
  exact found.1

theorem skipWhitespaces_idem (string : Bytes) :
    skipWhitespaces (skipWhitespaces string) = skipWhitespaces string :=
  List.dropWhile_idempotent isSpace string

section Values

variable {parseValue : Parser JsonValue}

theorem parseMember_inside (inside : ContinuesInside parseValue) (members : Members) :
    ContinuesInside (parseMember parseValue members) := by
  intro string added c rest found separates more
  unfold parseMember at found
  cases key : getQuotedString string with
  | none => simp [key] at found
  | some pair =>
      simp only [key] at found
      cases skipped : skipWhitespaces pair.2 with
      | nil => simp [skipped] at found
      | cons colon behindColon =>
          simp only [skipped, Option.ite_none_right_eq_some] at found
          cases parsed : parseValue behindColon with
          | none => simp [parsed] at found
          | some result =>
              simp only [parsed, Option.map_eq_some_iff, Prod.mk.injEq] at found
              rcases found with ⟨isColon, new, isAdded, isNew, isRest⟩
              have value : parseValue behindColon = some (result.1, c :: rest) := by
                rw [parsed, ← isRest]
              simp only [parseMember, getQuotedString_continues _ _ _ key more,
                skipWhitespaces_append skipped more, if_pos isColon,
                inside _ _ _ _ value separates more, isAdded, Option.map_some, isNew]

theorem parseItem_inside (inside : ContinuesInside parseValue) (items : List JsonValue) :
    ContinuesInside (parseItem parseValue items) := by
  intro string added c rest found separates more
  rcases Option.map_eq_some_iff.mp found with ⟨result, parsed, equal⟩
  rw [Prod.mk.injEq] at equal
  have value : parseValue string = some (result.1, c :: rest) := by
    rw [parsed, ← equal.2]
  simp only [parseItem, inside _ _ _ _ value separates more, Option.map_some, equal.1]

/-- Behind each part stands a comma or the closing bracket, so no part meets
the end of the text. -/
theorem parseParts_continues {Parts : Type} {parsePart : Parts -> Parser Parts}
    (inside : forall parts, ContinuesInside (parsePart parts)) {close : UInt8}
    (closes : Separates close) (bound : Nat) (parts : Parts) :
    Continues (parseParts parsePart close bound parts) := by
  induction bound generalizing parts with
  | zero =>
      intro string value rest found
      cases found
  | succ bound inductionHypothesis =>
      intro string value rest found more
      cases string with
      | nil => cases found
      | cons head tail =>
          cases part : parsePart parts (head :: tail) with
          | none => simp [parseParts, part] at found
          | some pair =>
              cases skipped : skipWhitespaces pair.2 with
              | nil => simp [parseParts, part, skipped] at found
              | cons c behind =>
                  simp only [parseParts, part, skipped] at found
                  have separates : Separates c := by
                    split at found
                    · next comma => exact Or.inr (Or.inl comma)
                    · have visible := skipWhitespaces_idem pair.2
                      rw [skipped] at visible
                      rw [parseEnd_closes visible found]
                      exact closes
                  rcases separates_of_skipped skipped separates with ⟨first, others, isRest, ends⟩
                  have isPart : parsePart parts (head :: tail) = some (pair.1, first :: others) := by
                    rw [part, ← isRest]
                  have longer := inside parts _ _ _ _ isPart ends more
                  have skippedLonger := skipWhitespaces_append skipped more
                  rw [isRest] at skippedLonger
                  rw [List.cons_append] at longer ⊢
                  simp only [parseParts, longer, skippedLonger]
                  split at found
                  · next comma =>
                      rw [if_pos comma]
                      -- the loop went on, so there is a part behind the comma
                      cases next : skipWhitespaces behind with
                      | nil =>
                          rw [next] at found
                          cases bound with
                          | zero => cases found
                          | succ bound => cases found
                      | cons start following =>
                          rw [next] at found
                          rw [skipWhitespaces_append next more]
                          exact inductionHypothesis pair.1 _ _ _ found more
                  · next notComma =>
                      rw [if_neg notComma]
                      exact parseEnd_continues close pair.1 _ _ _ found more

/-- The bound on the rounds grows with the text, but it is never met. -/
theorem parseParts_longer {Parts : Type} {parsePart : Parts -> Parser Parts}
    (advances : forall parts, Advances (parsePart parts))
    (inside : forall parts, ContinuesInside (parsePart parts)) {close : UInt8}
    (closes : Separates close) {parts result : Parts} {string rest : Bytes}
    (found : parseParts parsePart close (string.length + 1) parts string = some (result, rest))
    (more : Bytes) :
    parseParts parsePart close ((string ++ more).length + 1) parts (string ++ more) =
      some (result, rest ++ more) := by
  have enough : string.length < (string ++ more).length + 1 := by
    rw [List.length_append]
    omega
  rw [(parseParts_bound advances close parts (Nat.lt_succ_self _) enough).1] at found
  exact parseParts_continues inside closes _ parts _ _ _ found more

theorem parseBracketed_continues {Parts : Type} {parsePart : Parts -> Parser Parts} {close : UInt8}
    {empty : Parts} {wrap : Parts -> JsonValue} (advances : forall parts, Advances (parsePart parts))
    (inside : forall parts, ContinuesInside (parsePart parts)) (closes : Separates close) :
    Continues (parseBracketed parsePart close empty wrap) := by
  intro string value rest found more
  rcases parseBracketed_cases found with
    ⟨skipped, isValue⟩ | ⟨c, behind, parts, skipped, isParts, isValue, parsed⟩
  · rw [isValue]
    simp only [parseBracketed, skipWhitespaces_append skipped more, if_true]
  · have longer := parseParts_longer advances inside closes parsed more
    rw [List.cons_append] at longer
    rw [isValue]
    simp only [parseBracketed, skipWhitespaces_append skipped more, if_neg isParts, longer,
      Option.map_some]

theorem parseObjectValue_continues (advances : Advances parseValue)
    (inside : ContinuesInside parseValue) : Continues (parseObjectValue parseValue) := by
  rw [parseObjectValue_bracketed]
  exact parseBracketed_continues (parseMember_advances advances) (parseMember_inside inside)
    (Or.inr (Or.inr (Or.inl rfl)))

theorem parseArrayValue_continues (advances : Advances parseValue)
    (inside : ContinuesInside parseValue) : Continues (parseArrayValue parseValue) := by
  rw [parseArrayValue_bracketed]
  exact parseBracketed_continues (parseItem_advances advances) (parseItem_inside inside)
    (Or.inr (Or.inr (Or.inr rfl)))

end Values

/-! ## Values -/

theorem parseDispatch_inside {parseValue : Parser JsonValue} (advances : Advances parseValue)
    (inside : ContinuesInside parseValue) : ContinuesInside (parseDispatch parseValue) := by
  intro string value c rest found separates more
  cases string with
  | nil => cases found
  | cons head tail =>
      simp only [parseDispatch, List.cons_append] at found ⊢
      split at found
      · next brace =>
          rw [if_pos brace]
          exact parseObjectValue_continues advances inside _ _ _ found more
      next notBrace =>
      rw [if_neg notBrace]
      split at found
      · next bracket =>
          rw [if_pos bracket]
          exact parseArrayValue_continues advances inside _ _ _ found more
      next notBracket =>
      rw [if_neg notBracket]
      split at found
      · next quote =>
          rw [if_pos quote]
          exact parseStringValue_continues _ _ _ found more
      next notQuote =>
      rw [if_neg notQuote]
      split at found
      · next letter =>
          rw [if_pos letter]
          exact parseBooleanValue_continues _ _ _ found more
      next notLetter =>
      rw [if_neg notLetter]
      split at found
      · next kind =>
          rw [if_pos kind]
          exact parseNumberValue_append kind found separates more
      next notNumber =>
      rw [if_neg notNumber]
      split at found
      · next letter =>
          rw [if_pos letter]
          exact parseToken_continues _ _ _ _ _ found more
      · cases found

theorem parseValue_inside (levels : Nat) : ContinuesInside (parseValue levels) := by
  induction levels with
  | zero =>
      intro string value c rest found
      cases found
  | succ remaining inductionHypothesis =>
      intro string value c rest found separates more
      rcases parseValue_cases found with ⟨_, head, tail, same, skipped, dispatched⟩
      cases same
      rw [parseValue_of_skipped (skipWhitespaces_append skipped more)]
      exact parseDispatch_inside (parseValue_advances remaining) inductionHypothesis _ _ _ _
        dispatched separates more

theorem parseArrayValue_array {parseValue : Parser JsonValue} {string rest : Bytes}
    {value : JsonValue} (found : parseArrayValue parseValue string = some (value, rest)) :
    Exists fun items => value = .array items := by
  rw [parseArrayValue_bracketed] at found
  rcases parseBracketed_cases found with ⟨_, isValue⟩ | ⟨_, _, items, _, _, isValue, _⟩
  · exact ⟨[], isValue⟩
  · exact ⟨items, isValue⟩

theorem parseToken_value {token string rest : Bytes} {constant value : JsonValue}
    (found : parseToken token constant string = some (value, rest)) : value = constant := by
  simp only [parseToken, Option.ite_none_right_eq_some, Option.some.injEq, Prod.mk.injEq] at found
  exact found.2.1.symm

theorem parseNumberValue_number {string rest : Bytes} {value : JsonValue}
    (found : parseNumberValue string = some (value, rest)) :
    (Exists fun number => value = .number number) ∨ value = .negativeZero := by
  unfold parseNumberValue at found
  cases scanned : Binary64.strtod string with
  | outOfRange => simp [scanned] at found
  | notDecimal => simp [scanned] at found
  | number number behind =>
      simp only [scanned, Option.ite_none_right_eq_some, Option.some.injEq, Prod.mk.injEq] at found
      exact Or.inl ⟨number, found.2.1.symm⟩
  | negativeZero behind =>
      simp only [scanned, Option.ite_none_right_eq_some, Option.some.injEq, Prod.mk.injEq] at found
      exact Or.inr found.2.1.symm

/-- Only a brace starts an object. -/
theorem parseDispatch_object {parseValue : Parser JsonValue} {head : UInt8} {tail rest : Bytes}
    {members : Members}
    (found : parseDispatch parseValue (head :: tail) = some (.object members, rest)) :
    head = 0x7B := by
  by_contra notBrace
  simp only [parseDispatch, if_neg notBrace] at found
  split at found
  · rcases parseArrayValue_array found with ⟨items, never⟩
    cases never
  split at found
  · rcases Option.map_eq_some_iff.mp found with ⟨result, _, never⟩
    cases never
  split at found
  · unfold parseBooleanValue at found
    split at found
    · next isTrue =>
        cases found
        cases parseToken_value isTrue
    · cases parseToken_value found
  split at found
  · rcases parseNumberValue_number found with ⟨number, never⟩ | never
    · cases never
    · cases never
  split at found
  · cases parseToken_value found
  · cases found

theorem parseValue_object {levels : Nat} {string rest : Bytes} {members : Members}
    (found : parseValue levels string = some (.object members, rest)) (more : Bytes) :
    parseValue levels (string ++ more) = some (.object members, rest ++ more) := by
  rcases parseValue_cases found with ⟨remaining, head, tail, same, skipped, dispatched⟩
  subst same
  rw [parseValue_of_skipped (skipWhitespaces_append skipped more)]
  have brace := parseDispatch_object dispatched
  simp only [parseDispatch, if_pos brace] at dispatched ⊢
  exact parseObjectValue_continues (parseValue_advances remaining) (parseValue_inside remaining)
    _ _ _ dispatched more

theorem parseValue_head {levels : Nat} {string rest : Bytes} {members : Members}
    (found : parseValue levels string = some (.object members, rest)) :
    Exists fun head => Exists fun tail => string = head :: tail ∧ head ≠ 0xEF := by
  rcases parseValue_cases found with ⟨remaining, c, behind, _, skipped, dispatched⟩
  cases string with
  | nil => cases skipped
  | cons head tail =>
      refine ⟨head, tail, rfl, fun isMark => ?_⟩
      subst isMark
      -- the mark is no white space, so it is the character of the dispatch
      change 0xEF :: tail = c :: behind at skipped
      cases skipped
      exact absurd (parseDispatch_object dispatched) (by decide)

/-- A complete object is parsed in the same way whatever stands behind it. -/
theorem jsonParseString_append {string : Bytes} {members : Members}
    (found : jsonParseString string = some (.object members)) (more : Bytes) :
    jsonParseString (string ++ more) = some (.object members) := by
  simp only [jsonParseString, Option.map_eq_some_iff] at found
  rcases found with ⟨⟨value, rest⟩, parsed, isObject⟩
  change value = .object members at isObject
  subst isObject
  by_cases mark : string.take 3 = [0xEF, 0xBB, 0xBF]
  · rw [if_pos mark] at parsed
    have long : 3 ≤ string.length := by
      have length := congrArg List.length mark
      rw [List.length_take, List.length_cons, List.length_cons, List.length_cons,
        List.length_nil] at length
      omega
    have markThere : (string ++ more).take 3 = [0xEF, 0xBB, 0xBF] := by
      rw [List.take_append_of_le_length long]
      exact mark
    simp only [jsonParseString, if_pos markThere, List.drop_append_of_le_length long,
      parseValue_object parsed more, Option.map_some]
  · rw [if_neg mark] at parsed
    rcases parseValue_head parsed with ⟨head, tail, isString, notMark⟩
    have noMark : Not ((string ++ more).take 3 = [0xEF, 0xBB, 0xBF]) := by
      rw [isString, List.cons_append, List.take_succ_cons]
      exact fun equal => notMark (List.cons.inj equal).1
    simp only [jsonParseString, if_neg noMark, parseValue_object parsed more, Option.map_some]

end Parson
end ChatHub
