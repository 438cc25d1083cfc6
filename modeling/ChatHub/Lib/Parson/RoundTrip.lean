import ChatHub.Base.PrintedDouble
import ChatHub.Lib.Parson.Parse

namespace ChatHub

/-!
# Parsing undoes serialization

The serializer escapes the bytes of a string one by one, and the parser first
looks for the closing quote and then undoes the escapes.  Every byte falls
under one of three shapes, a plain byte, a backslash with one letter or a
`\u00` sequence, and for each shape both passes recover exactly that byte.

Values are compared level by level.  A value is legible when its strings and
names contain no NUL, its numbers are read back from their printed form, no
name occurs twice in an object and it is nested no deeper than the parser
allows.  It is readable when, moreover, its numbers are integers of at most
`2 ^ 53`, which are always read back.
-/

namespace Parson

/-! ## Blank text -/

/-- Text of white space only. -/
def Blank (text : Bytes) : Prop :=
  forall byte, byte ∈ text -> isSpace byte = true

theorem skipWhitespaces_blank {text : Bytes} (blank : Blank text) (rest : Bytes) :
    skipWhitespaces (text ++ rest) = skipWhitespaces rest :=
  List.dropWhile_append_of_pos blank

theorem skipWhitespaces_cons {c : UInt8} (visible : isSpace c = false) (rest : Bytes) :
    skipWhitespaces (c :: rest) = c :: rest := by
  unfold skipWhitespaces
  rw [List.dropWhile_cons, visible]
  rfl

theorem blank_lineBreak (isPretty : Bool) : Blank (lineBreak isPretty) := by
  cases isPretty with
  | false => exact fun _ member => absurd member List.not_mem_nil
  | true =>
      intro byte member
      rw [List.mem_singleton.mp member]
      rfl

theorem blank_lineIndent (isPretty : Bool) (level : Nat) : Blank (lineIndent isPretty level) := by
  cases isPretty with
  | false => exact fun _ member => absurd member List.not_mem_nil
  | true =>
      intro byte member
      rcases List.mem_flatten.mp member with ⟨unit, isUnit, inside⟩
      rw [List.eq_of_mem_replicate isUnit] at inside
      have spaces : (ascii "    ").all isSpace = true := by decide
      exact List.all_eq_true.mp spaces byte inside

theorem blank_space (isPretty : Bool) : Blank (if isPretty then ascii " " else []) := by
  cases isPretty with
  | false => exact fun _ impossible => absurd impossible List.not_mem_nil
  | true =>
      intro byte inside
      rw [List.mem_singleton.mp inside]
      rfl

/-- The text ends a number: it is empty or starts with a delimiter. -/
def Delimited (rest : Bytes) : Prop :=
  forall byte, rest.head? = some byte -> Binary64.Delimits byte

theorem delimited_cons {c : UInt8} (delimits : Binary64.Delimits c) (rest : Bytes) :
    Delimited (c :: rest) := by
  intro byte head
  cases head
  exact delimits

theorem delimited_nil : Delimited [] := by
  intro byte head
  cases head

/-! ## Strings -/

/-- The three shapes of an escaped byte, each with what the unescaper needs
to recover the byte. -/
theorem escape_shape : forall c : UInt8, c ≠ 0 ->
    (escape c = [c] ∧ c ≠ 0x22 ∧ c ≠ 0x5C ∧ Not (c < 0x20)) ∨
    (escape c = [0x5C, (escape c).getD 1 0] ∧ simpleEscape ((escape c).getD 1 0) = some c) ∨
    (escape c = [0x5C, 0x75, 0x30, 0x30, hexDigit (c / 16), hexDigit (c % 16)] ∧
      hexDigit (c / 16) ≠ 0x22 ∧ hexDigit (c / 16) ≠ 0x5C ∧
      hexDigit (c % 16) ≠ 0x22 ∧ hexDigit (c % 16) ≠ 0x5C ∧
      parseUtf16 [0x30, 0x30, hexDigit (c / 16), hexDigit (c % 16)] = some ([c], 4)) := by
  apply forall_byte
  decide +kernel

/-- Only the first four characters behind `\u` matter below the surrogates. -/
theorem parseUtf16_append {s0 s1 s2 s3 : UInt8} {written : UInt8}
    (read : parseUtf16 [s0, s1, s2, s3] = some ([written], 4)) (rest : Bytes) :
    parseUtf16 (s0 :: s1 :: s2 :: s3 :: rest) = some ([written], 4) := by
  have sameHex : parseUtf16Hex (s0 :: s1 :: s2 :: s3 :: rest) = parseUtf16Hex [s0, s1, s2, s3] :=
    rfl
  unfold parseUtf16 at read ⊢
  rw [sameHex]
  cases hex : parseUtf16Hex [s0, s1, s2, s3] with
  | none => simp [hex] at read
  | some cp =>
      simp only [hex] at read ⊢
      by_cases small : cp < 0x80
      · simp only [if_pos small] at read ⊢
        exact read
      · exfalso
        simp only [if_neg small] at read
        split at read
        · simp at read
        · split at read
          · simp at read
          · split at read
            · split at read
              · split at read
                · cases read
                · split at read <;> simp at read
              · cases read
            · cases read

/-- The loop that undoes the escapes reads the escaped byte in one round. -/
theorem processOne_escape {c : UInt8} (nonzero : c ≠ 0) (rest : Bytes) :
    processOne (escape c ++ rest) = some ([c], (escape c).length) := by
  rcases escape_shape c nonzero with ⟨shape, notQuote, notEscape, visible⟩ | ⟨shape, simple⟩ |
    ⟨shape, _, _, _, _, hex⟩
  · rw [shape]
    simp only [processOne, List.cons_append, if_neg notEscape, if_neg visible]
    rfl
  · rw [shape]
    simp only [processOne, List.cons_append, if_true, simple]
    rfl
  · have digits := parseUtf16_append hex rest
    rw [shape]
    simp only [processOne, List.cons_append, List.nil_append, if_true, digits]
    rfl

theorem processStringFrom_skip (passed rest : Bytes) :
    processStringFrom passed.length (passed ++ rest) = processStringFrom 0 rest := by
  induction passed with
  | nil => rfl
  | cons byte tail inductionHypothesis => exact inductionHypothesis

theorem escape_ne_nil : forall c : UInt8, escape c ≠ [] := by
  apply forall_byte
  decide +kernel

theorem processStringFrom_escape {c : UInt8} (nonzero : c ≠ 0) (rest : Bytes) :
    processStringFrom 0 (escape c ++ rest) =
      (processStringFrom 0 rest).map (fun behind => c :: behind) := by
  rcases List.exists_cons_of_ne_nil (escape_ne_nil c) with ⟨head, tail, shape⟩
  have read := processOne_escape nonzero rest
  rw [shape, List.cons_append] at read ⊢
  rw [processStringFrom]
  simp only [read, List.length_cons, Nat.add_sub_cancel, processStringFrom_skip]
  rfl

/-- Undoing the escapes gives the string back. -/
theorem processString_escaped {text : Bytes} (noNul : 0 ∉ text) :
    processString (text.flatMap escape) = some text := by
  have recovered : processStringFrom 0 (text.flatMap escape) = some text := by
    induction text with
    | nil => rfl
    | cons c rest inductionHypothesis =>
        have nonzero : c ≠ 0 := fun zero => noNul (by rw [zero]; exact List.mem_cons_self)
        rw [List.flatMap_cons, processStringFrom_escape nonzero,
          inductionHypothesis (fun member => noNul (List.mem_cons_of_mem _ member))]
        rfl
  unfold processString
  rw [recovered, Option.map_some, cstr_of_not_mem noNul]

theorem skipQuotesBody_escape_byte {c : UInt8} (nonzero : c ≠ 0) (rest : Bytes) :
    skipQuotesBody (escape c ++ rest) =
      (skipQuotesBody rest).map (fun found => (escape c ++ found.1, found.2)) := by
  rcases escape_shape c nonzero with ⟨shape, notQuote, notEscape, _⟩ | ⟨shape, _⟩ |
    ⟨shape, highQuote, highEscape, lowQuote, lowEscape, _⟩
  · rw [shape]
    exact skipQuotesBody_plain notQuote notEscape rest
  · rw [shape]
    exact skipQuotesBody_escape _ rest
  · rw [shape]
    simp only [List.cons_append, List.nil_append, skipQuotesBody_escape]
    rw [skipQuotesBody_plain (by decide) (by decide), skipQuotesBody_plain (by decide) (by decide),
      skipQuotesBody_plain highQuote highEscape, skipQuotesBody_plain lowQuote lowEscape]
    simp only [Option.map_map]
    rfl

/-- The closing quote is found behind the escaped text. -/
theorem skipQuotesBody_escaped {text : Bytes} (noNul : 0 ∉ text) (rest : Bytes) :
    skipQuotesBody (text.flatMap escape ++ 0x22 :: rest) =
      some (text.flatMap escape, rest) := by
  induction text with
  | nil => exact skipQuotesBody_quote rest
  | cons c more inductionHypothesis =>
      have nonzero : c ≠ 0 := fun zero => noNul (by rw [zero]; exact List.mem_cons_self)
      rw [List.flatMap_cons, List.append_assoc, skipQuotesBody_escape_byte nonzero,
        inductionHypothesis (fun member => noNul (List.mem_cons_of_mem _ member))]
      rfl

/-- A serialized string is read back with the text behind it. -/
theorem getQuotedString_serialized {text : Bytes} (noNul : 0 ∉ text) (rest : Bytes) :
    getQuotedString (jsonSerializeString text ++ rest) = some (text, rest) := by
  have shape : jsonSerializeString text ++ rest =
      0x22 :: (text.flatMap escape ++ 0x22 :: rest) := by
    unfold jsonSerializeString
    rw [List.append_assoc, List.append_assoc]
    rfl
  rw [shape]
  simp only [getQuotedString, skipQuotes, if_true, skipQuotesBody_escaped noNul,
    processString_escaped noNul, Option.map_some]

/-! ## Numbers -/

theorem utf8_intText (z : ℤ) : Utf8 (intText z) := by
  apply utf8_of_ascii
  intro byte member
  rcases mem_intText member with sign | digit
  · rw [sign]
    decide
  · have bounds := (isDigit_iff byte).mp digit
    omega

private theorem digit_notMinus : forall c : UInt8, isDigit c = true -> c ≠ 0x2D := by
  apply forall_byte
  decide +kernel

/-- A number is decimal if the point follows a leading zero, unless an `x`
occurs in it. -/
theorem isDecimal_of_point {head : UInt8} {text more : Bytes} (digit : isDigit head = true)
    (point : head = 0x30 -> more.head? = some 0x2E)
    (shape : text = head :: more ∨ text = 0x2D :: head :: more)
    (noX : forall c, c ∈ text -> c ≠ 0x78 ∧ c ≠ 0x58) : isDecimal text = true := by
  have notMinus := digit_notMinus head digit
  have allowed : text.all (fun c => c != 0x78 && c != 0x58) = true := by
    apply List.all_eq_true.mpr
    intro c member
    have both := noX c member
    simp [both.1, both.2]
  unfold isDecimal
  rw [allowed]
  by_cases zero : head = 0x30
  · cases more with
    | nil => cases point zero
    | cons second others =>
        cases point zero
        rcases shape with plain | signed
        · rw [plain]
          simp [ascii]
        · rw [signed]
          simp [ascii]
  · rcases shape with plain | signed
    · rw [plain]
      cases more <;> simp [ascii, zero, notMinus]
    · rw [signed]
      simp [ascii, zero]

theorem isDecimal_intText (z : ℤ) : isDecimal (intText z) = true := by
  by_cases zero : z = 0
  · rw [zero]
    decide +kernel
  · rcases natText_head (Int.natAbs_pos.mpr zero) with ⟨digit, rest, shape, positive, small⟩
    have nonzero : digitByte digit ≠ 0x30 := by
      intro equal
      have value := digitByte_toNat small
      rw [equal] at value
      change 48 = 48 + digit at value
      omega
    refine @isDecimal_of_point (digitByte digit) _ rest (isDigit_digitByte small)
      (fun equal => absurd equal nonzero) ?_ ?_
    · by_cases negative : z < 0
      · rw [intText_of_neg negative, shape]
        exact Or.inr rfl
      · rw [intText_of_nonneg (not_lt.mp negative), shape]
        exact Or.inl rfl
    · intro c member
      exact ⟨fun equal => not_mem_intText z (by decide) (by decide) (equal ▸ member),
        fun equal => not_mem_intText z (by decide) (by decide) (equal ▸ member)⟩

theorem parseNumberValue_of_strtod {text rest : Bytes} {value : ℚ}
    (scanned : Binary64.strtod (text ++ rest) = .number value rest) (decimal : isDecimal text = true) :
    parseNumberValue (text ++ rest) = some (.number value, rest) := by
  have consumed : (text ++ rest).take ((text ++ rest).length - rest.length) = text := by
    rw [List.length_append, Nat.add_sub_cancel]
    exact List.take_left
  simp only [parseNumberValue, scanned, consumed, decimal, if_true]

theorem parseNumberValue_negativeZeroText {rest : Bytes} (delimited : Delimited rest) :
    parseNumberValue (Binary64.negativeZeroText ++ rest) = some (.negativeZero, rest) := by
  have consumed : (Binary64.negativeZeroText ++ rest).take
      ((Binary64.negativeZeroText ++ rest).length - rest.length) = Binary64.negativeZeroText := by
    rw [List.length_append, Nat.add_sub_cancel]
    exact List.take_left
  have decimal : isDecimal Binary64.negativeZeroText = true := by decide
  simp only [parseNumberValue, Binary64.strtod_negativeZeroText delimited, consumed, decimal, if_true]

theorem parseNumberValue_intText {z : ℤ} (bound : |z| ≤ 2 ^ 53) {rest : Bytes}
    (delimited : Delimited rest) :
    parseNumberValue (intText z ++ rest) = some (.number z, rest) :=
  parseNumberValue_of_strtod (Binary64.strtod_intText bound delimited) (isDecimal_intText z)

/-! ## Lists of parts -/

/-- A list of parts as the serializer writes it between the delimiters. -/
def serializeParts {Part : Type} (isPretty : Bool) (level : Nat) (text : Part -> Bytes) :
    List Part -> Bytes
  | [] => []
  | part :: rest =>
      lineIndent isPretty (level + 1) ++ text part ++ (if rest.isEmpty then [] else ascii ",") ++
        lineBreak isPretty ++ serializeParts isPretty level text rest

/-- The text starts with a character that is no white space. -/
def StartsVisible (text : Bytes) : Prop :=
  Exists fun c => Exists fun more => text = c :: more ∧ isSpace c = false

theorem skipWhitespaces_startsVisible {text : Bytes} (starts : StartsVisible text) (rest : Bytes) :
    skipWhitespaces (text ++ rest) = text ++ rest := by
  rcases starts with ⟨c, more, shape, visible⟩
  rw [shape, List.cons_append]
  exact skipWhitespaces_cons visible _

section Parts

variable {Part : Type} {parsePart : List Part -> Parser (List Part)} {text : Part -> Bytes}
  {isPretty : Bool} {level : Nat} {close : UInt8}

/-- What stands behind a part: the rest of the list and the closing delimiter. -/
def behindPart (isPretty : Bool) (level : Nat) (text : Part -> Bytes) (close : UInt8)
    (todo : List Part) (rest : Bytes) : Bytes :=
  (if todo.isEmpty then [] else ascii ",") ++ (lineBreak isPretty ++
    (serializeParts isPretty level text todo ++ (lineIndent isPretty level ++ close :: rest)))

theorem delimited_behindPart (delimits : Binary64.Delimits close) (todo : List Part)
    (rest : Bytes) : Delimited (behindPart isPretty level text close todo rest) := by
  cases todo with
  | nil =>
      cases isPretty with
      | false => exact delimited_cons delimits rest
      | true => exact delimited_cons (by decide : Binary64.Delimits 0x0A) _
  | cons part more => exact delimited_cons (by decide : Binary64.Delimits 0x2C) _

/-- Behind the white space of its line stands the part itself. -/
theorem skipWhitespaces_serializeParts {part : Part} (starts : StartsVisible (text part))
    (todo : List Part) (rest : Bytes) :
    skipWhitespaces (serializeParts isPretty level text (part :: todo) ++
        (lineIndent isPretty level ++ close :: rest)) =
      text part ++ behindPart isPretty level text close todo rest := by
  have shape : serializeParts isPretty level text (part :: todo) ++
      (lineIndent isPretty level ++ close :: rest) =
      lineIndent isPretty (level + 1) ++
        (text part ++ behindPart isPretty level text close todo rest) := by
    simp only [serializeParts, behindPart, List.append_assoc]
  rw [shape, skipWhitespaces_blank (blank_lineIndent isPretty (level + 1)),
    skipWhitespaces_startsVisible starts]

theorem skipWhitespaces_behindPart_nil (visible : isSpace close = false) (rest : Bytes) :
    skipWhitespaces (behindPart isPretty level text close [] rest) = close :: rest := by
  have shape : behindPart isPretty level text close [] rest =
      lineBreak isPretty ++ (lineIndent isPretty level ++ close :: rest) :=
    rfl
  rw [shape, skipWhitespaces_blank (blank_lineBreak isPretty),
    skipWhitespaces_blank (blank_lineIndent isPretty level), skipWhitespaces_cons visible]

/-- Behind a part that others follow stand a comma and, after white space, the
next part. -/
theorem behindPart_cons (isPretty : Bool) (level : Nat) (close : UInt8) {part : Part}
    (starts : StartsVisible (text part)) (todo : List Part) (rest : Bytes) :
    Exists fun tail => behindPart isPretty level text close (part :: todo) rest = 0x2C :: tail ∧
      skipWhitespaces tail = text part ++ behindPart isPretty level text close todo rest := by
  refine ⟨_, rfl, ?_⟩
  change skipWhitespaces (lineBreak isPretty ++ (serializeParts isPretty level text (part :: todo) ++
    (lineIndent isPretty level ++ close :: rest))) = _
  rw [skipWhitespaces_blank (blank_lineBreak isPretty), skipWhitespaces_serializeParts starts]

/-- The loop over parts reads a serialized list back, if the parts that are
already read never keep it from reading the next one. -/
theorem parseParts_serialized (isPretty : Bool) (level : Nat)
    (delimits : Binary64.Delimits close)
    (visible : isSpace close = false) (notComma : close ≠ 0x2C) {all : List Part}
    (starts : forall part, part ∈ all -> StartsVisible (text part))
    (reads : forall front part back, all = front ++ part :: back ->
      forall rest, Delimited rest ->
        parsePart front (text part ++ rest) = some (front ++ [part], rest))
    {bound : Nat} (front back : List Part) (part : Part) (split : all = front ++ part :: back)
    (rest : Bytes)
    (enough : (text part ++ behindPart isPretty level text close back rest).length < bound) :
    parseParts parsePart close bound front
        (text part ++ behindPart isPretty level text close back rest) = some (all, rest) := by
  induction back generalizing bound front part with
  | nil =>
      cases bound with
      | zero => exact absurd enough (Nat.not_lt_zero _)
      | succ bound =>
          rcases starts part (by rw [split]; simp) with ⟨c, more, shape, _⟩
          have delimited : Delimited (behindPart isPretty level text close [] rest) :=
            delimited_behindPart delimits [] rest
          have read := reads front part [] split _ delimited
          rw [shape, List.cons_append] at read ⊢
          simp only [parseParts, read, skipWhitespaces_behindPart_nil visible, if_neg notComma,
            parseEnd, skipWhitespaces_cons visible, if_true, split]
  | cons following others inductionHypothesis =>
      cases bound with
      | zero => exact absurd enough (Nat.not_lt_zero _)
      | succ bound =>
          rcases starts part (by rw [split]; simp) with ⟨c, more, shape, _⟩
          have delimited :
              Delimited (behindPart isPretty level text close (following :: others) rest) :=
            delimited_behindPart delimits (following :: others) rest
          have read := reads front part (following :: others) split _ delimited
          rcases behindPart_cons isPretty level close (starts following (by rw [split]; simp))
            others rest with ⟨tail, comma, skipped⟩
          have splitNext : all = (front ++ [part]) ++ following :: others := by
            rw [split, List.append_assoc]
            rfl
          have enoughNext : (text following ++
              behindPart isPretty level text close others rest).length < bound := by
            have shorter := skipWhitespaces_length_le tail
            rw [comma, List.length_append, List.length_cons] at enough
            rw [← skipped]
            omega
          have finished := inductionHypothesis (front ++ [part]) following splitNext enoughNext
          have next : skipWhitespaces (0x2C :: tail) = 0x2C :: tail :=
            skipWhitespaces_cons (by decide) tail
          rw [comma, shape, List.cons_append] at read ⊢
          simp only [parseParts, read, next, if_true, skipped]
          exact finished

/-- Behind the opening bracket of a serialized list the loop meets the first part. -/
theorem parseBracketed_serialized {part : Part} {c : UInt8} {more : Bytes}
    (shape : text part = c :: more) (visible : isSpace c = false) (notEnd : c ≠ close)
    (wrap : List Part -> JsonValue) (others : List Part) (rest : Bytes) :
    parseBracketed parsePart close [] wrap
        (lineBreak isPretty ++ (serializeParts isPretty level text (part :: others) ++
          (lineIndent isPretty level ++ close :: rest))) =
      (parseParts parsePart close
          ((text part ++ behindPart isPretty level text close others rest).length + 1) []
          (text part ++ behindPart isPretty level text close others rest)).map
        (fun found => (wrap found.1, found.2)) := by
  unfold parseBracketed
  rw [skipWhitespaces_blank (blank_lineBreak isPretty),
    skipWhitespaces_serializeParts ⟨c, more, shape, visible⟩, shape, List.cons_append]
  simp only [if_neg notEnd]

end Parts

/-! ## Values -/

/-- What the parser reads back within some levels of nesting. -/
inductive Readable : Nat -> JsonValue -> Prop where
  | string {levels : Nat} {text : Bytes} (noNul : 0 ∉ text) : Readable (levels + 1) (.string text)
  | number {levels : Nat} {z : ℤ} (bound : |z| ≤ 2 ^ 53) : Readable (levels + 1) (.number z)
  | boolean {levels : Nat} (value : Bool) : Readable (levels + 1) (.boolean value)
  | null {levels : Nat} : Readable (levels + 1) .null
  | array {levels : Nat} {items : List JsonValue}
      (readable : forall item, item ∈ items -> Readable levels item) :
      Readable (levels + 1) (.array items)
  | object {levels : Nat} {members : List (Bytes × JsonValue)}
      (distinct : (members.map Prod.fst).Nodup)
      (names : forall member, member ∈ members -> 0 ∉ member.1)
      (readable : forall member, member ∈ members -> Readable levels member.2) :
      Readable (levels + 1) (.object members)

/-- What is printed for the number is read back as this number. -/
structure Reprints (q : ℚ) : Prop where
  starts : Exists fun c => Exists fun more =>
    Binary64.formatG17 q = c :: more ∧ (c = 0x2D ∨ isDigit c = true)
  read : forall rest, Delimited rest ->
    parseNumberValue (Binary64.formatG17 q ++ rest) = some (.number q, rest)

/-- The same with any numbers that are read back from their printed form. -/
inductive Legible : Nat -> JsonValue -> Prop where
  | string {levels : Nat} {text : Bytes} (noNul : 0 ∉ text) : Legible (levels + 1) (.string text)
  | number {levels : Nat} {q : ℚ} (reprints : Reprints q) : Legible (levels + 1) (.number q)
  | negativeZero {levels : Nat} : Legible (levels + 1) .negativeZero
  | boolean {levels : Nat} (value : Bool) : Legible (levels + 1) (.boolean value)
  | null {levels : Nat} : Legible (levels + 1) .null
  | array {levels : Nat} {items : List JsonValue}
      (legible : forall item, item ∈ items -> Legible levels item) :
      Legible (levels + 1) (.array items)
  | object {levels : Nat} {members : List (Bytes × JsonValue)}
      (distinct : (members.map Prod.fst).Nodup)
      (names : forall member, member ∈ members -> 0 ∉ member.1)
      (legible : forall member, member ∈ members -> Legible levels member.2) :
      Legible (levels + 1) (.object members)

theorem serializeItems_eq (level : Nat) (isPretty : Bool) (items : List JsonValue) :
    serializeItems level isPretty items =
      serializeParts isPretty level (jsonSerializeToBufferR (level + 1) isPretty) items := by
  induction items with
  | nil => simp only [serializeItems, serializeParts]
  | cons item rest inductionHypothesis =>
      simp only [serializeItems, serializeParts, inductionHypothesis]

/-- The text of a member. -/
def memberText (level : Nat) (isPretty : Bool) (member : Bytes × JsonValue) : Bytes :=
  jsonSerializeString member.1 ++ (ascii ":" ++ ((if isPretty then ascii " " else []) ++
    jsonSerializeToBufferR (level + 1) isPretty member.2))

theorem serializeMembers_eq (level : Nat) (isPretty : Bool) (members : Members) :
    serializeMembers level isPretty members =
      serializeParts isPretty level (memberText level isPretty) members := by
  induction members with
  | nil => simp only [serializeMembers, serializeParts]
  | cons member rest inductionHypothesis =>
      simp only [serializeMembers, serializeParts, memberText, inductionHypothesis,
        List.append_assoc]

theorem reprints_intCast {z : ℤ} (bound : |z| ≤ 2 ^ 53) : Reprints (z : ℚ) := by
  have printed := Binary64.formatG17_intCast (lt_of_le_of_lt bound (by norm_num))
  constructor
  · rw [printed]
    rcases List.exists_cons_of_ne_nil (intText_ne_nil z) with ⟨c, more, shape⟩
    refine ⟨c, more, shape, @mem_intText z c ?_⟩
    rw [shape]
    exact List.mem_cons_self
  · intro rest delimited
    rw [printed]
    exact parseNumberValue_intText bound delimited

/-- A readable value is legible. -/
theorem Readable.legible {levels : Nat} {value : JsonValue} (readable : Readable levels value) :
    Legible levels value := by
  induction readable with
  | string noNul => exact Legible.string noNul
  | number bound => exact Legible.number (reprints_intCast bound)
  | boolean value => exact Legible.boolean value
  | null => exact Legible.null
  | array _ inductionHypothesis => exact Legible.array inductionHypothesis
  | object distinct names _ inductionHypothesis =>
      exact Legible.object distinct names inductionHypothesis

theorem digit_dispatch : forall c : UInt8, c = 0x2D ∨ isDigit c = true ->
    c ≠ 0x7B ∧ c ≠ 0x5B ∧ c ≠ 0x22 ∧ Not (c = 0x66 ∨ c = 0x74) ∧ isSpace c = false ∧
      c ≠ 0x5D ∧ c ≠ 0xEF := by
  apply forall_byte
  decide +kernel

theorem serialized_array (level : Nat) (isPretty : Bool) (item : JsonValue)
    (others : List JsonValue) (rest : Bytes) :
    jsonSerializeToBufferR level isPretty (.array (item :: others)) ++ rest =
      0x5B :: (lineBreak isPretty ++ (serializeItems level isPretty (item :: others) ++
        (lineIndent isPretty level ++ 0x5D :: rest))) := by
  simp only [jsonSerializeToBufferR, List.append_assoc]
  rfl

theorem serialized_object (level : Nat) (isPretty : Bool) (member : Bytes × JsonValue)
    (others : Members) (rest : Bytes) :
    jsonSerializeToBufferR level isPretty (.object (member :: others)) ++ rest =
      0x7B :: (lineBreak isPretty ++ (serializeMembers level isPretty (member :: others) ++
        (lineIndent isPretty level ++ 0x7D :: rest))) := by
  simp only [jsonSerializeToBufferR, List.append_assoc]
  rfl

/-- A serialized value starts with a character that is neither white space
nor the end of an array nor the start of a byte order mark. -/
theorem serialized_head (value : JsonValue) (level : Nat) (isPretty : Bool) :
    Exists fun c => Exists fun more => jsonSerializeToBufferR level isPretty value = c :: more ∧
      isSpace c = false ∧ c ≠ 0x5D ∧ c ≠ 0xEF := by
  cases value with
  | string text => exact ⟨0x22, _, rfl, by decide⟩
  | number q =>
      rcases Binary64.formatG17_starts q with ⟨c, more, shape, kind⟩
      refine ⟨c, more, ?_, (digit_dispatch c kind).2.2.2.2⟩
      rw [jsonSerializeToBufferR]
      exact shape
  | negativeZero => exact ⟨0x2D, _, rfl, by decide⟩
  | boolean value => cases value <;> exact ⟨_, _, rfl, by decide⟩
  | null => exact ⟨_, _, rfl, by decide⟩
  | array items => cases items <;> exact ⟨0x5B, _, rfl, by decide⟩
  | object members => cases members <;> exact ⟨0x7B, _, rfl, by decide⟩

theorem serialized_startsVisible (value : JsonValue) (level : Nat) (isPretty : Bool) :
    StartsVisible (jsonSerializeToBufferR level isPretty value) := by
  rcases serialized_head value level isPretty with ⟨c, more, shape, visible, _⟩
  exact ⟨c, more, shape, visible⟩

theorem memberText_startsVisible (level : Nat) (isPretty : Bool) (member : Bytes × JsonValue) :
    StartsVisible (memberText level isPretty member) :=
  ⟨0x22, _, rfl, rfl⟩

/-- A text that starts like a number is read as a number. -/
theorem parseDispatch_number (parseValue : Parser JsonValue) {text : Bytes}
    (starts : Exists fun c => Exists fun more => text = c :: more ∧ (c = 0x2D ∨ isDigit c = true))
    (rest : Bytes) : parseDispatch parseValue (text ++ rest) = parseNumberValue (text ++ rest) := by
  rcases starts with ⟨c, more, shape, kind⟩
  rcases digit_dispatch c kind with ⟨notBrace, notBracket, notQuote, notLetter, _⟩
  rw [shape, List.cons_append]
  simp only [parseDispatch, if_neg notBrace, if_neg notBracket, if_neg notQuote, if_neg notLetter,
    if_pos kind]

/-- White space before a value is not significant. -/
theorem parseValue_blank (levels : Nat) {text : Bytes} (blank : Blank text) (rest : Bytes) :
    parseValue levels (text ++ rest) = parseValue levels rest := by
  cases levels with
  | zero => rfl
  | succ remaining =>
      change parseDispatch _ (skipWhitespaces (text ++ rest)) =
        parseDispatch _ (skipWhitespaces rest)
      rw [skipWhitespaces_blank blank]

/-- A member is read back, unless its name was read before. -/
theorem parseMember_memberText {levels level : Nat} {isPretty : Bool} {front : Members}
    {member : Bytes × JsonValue} (noNul : 0 ∉ member.1)
    (absent : member.1 ∉ front.map Prod.fst) {rest : Bytes}
    (read : parseValue levels (jsonSerializeToBufferR (level + 1) isPretty member.2 ++ rest) =
      some (member.2, rest)) :
    parseMember (parseValue levels) front (memberText level isPretty member ++ rest) =
      some (front ++ [member], rest) := by
  have missing : (jsonObjectGetValue front member.1).isSome = false := by
    rw [Bool.eq_false_iff]
    exact fun present => absent ((jsonObjectGetValue_isSome_iff front member.1).mp present)
  have value := (parseValue_blank levels (blank_space isPretty)
    (jsonSerializeToBufferR (level + 1) isPretty member.2 ++ rest)).trans read
  unfold memberText parseMember
  rw [List.append_assoc, getQuotedString_serialized noNul]
  simp only [List.append_assoc]
  rw [show ascii ":" = [0x3A] from rfl, List.singleton_append,
    skipWhitespaces_cons (by decide)]
  simp only [if_true, value, jsonObjectAdd, missing, Bool.false_eq_true, if_false, Option.map_some]

/-- A serialized array is read back if each of its items is. -/
theorem parseArrayValue_serialized {levels level : Nat} {isPretty : Bool} {item : JsonValue}
    {others : List JsonValue}
    (reads : forall value, value ∈ item :: others -> forall rest, Delimited rest ->
      parseValue levels (jsonSerializeToBufferR (level + 1) isPretty value ++ rest) =
        some (value, rest)) (rest : Bytes) :
    parseArrayValue (parseValue levels)
        (lineBreak isPretty ++ (serializeItems level isPretty (item :: others) ++
          (lineIndent isPretty level ++ 0x5D :: rest))) =
      some (.array (item :: others), rest) := by
  have starts : forall value, value ∈ item :: others ->
      StartsVisible (jsonSerializeToBufferR (level + 1) isPretty value) :=
    fun value _ => serialized_startsVisible value (level + 1) isPretty
  have readsPart : forall front value back, item :: others = front ++ value :: back ->
      forall rest, Delimited rest ->
        parseItem (parseValue levels) front
            (jsonSerializeToBufferR (level + 1) isPretty value ++ rest) =
          some (front ++ [value], rest) := by
    intro front value back split rest delimited
    have read := reads value (by rw [split]; simp) rest delimited
    simp only [parseItem, read, Option.map_some]
  rcases serialized_head item (level + 1) isPretty with ⟨c, more, shape, visible, notEnd, _⟩
  rw [parseArrayValue_bracketed, serializeItems_eq, parseBracketed_serialized shape visible notEnd,
    parseParts_serialized isPretty level (by decide) (by decide) (by decide) starts readsPart []
      others item rfl rest (Nat.lt_succ_self _)]
  rfl

/-- A serialized object is read back if each of its values is. -/
theorem parseObjectValue_serialized {levels level : Nat} {isPretty : Bool}
    {member : Bytes × JsonValue} {others : Members}
    (distinct : ((member :: others).map Prod.fst).Nodup)
    (names : forall part, part ∈ member :: others -> 0 ∉ part.1)
    (reads : forall part, part ∈ member :: others -> forall rest, Delimited rest ->
      parseValue levels (jsonSerializeToBufferR (level + 1) isPretty part.2 ++ rest) =
        some (part.2, rest)) (rest : Bytes) :
    parseObjectValue (parseValue levels)
        (lineBreak isPretty ++ (serializeMembers level isPretty (member :: others) ++
          (lineIndent isPretty level ++ 0x7D :: rest))) =
      some (.object (member :: others), rest) := by
  have starts : forall part, part ∈ member :: others ->
      StartsVisible (memberText level isPretty part) :=
    fun part _ => memberText_startsVisible level isPretty part
  have readsPart : forall front part back, member :: others = front ++ part :: back ->
      forall rest, Delimited rest ->
        parseMember (parseValue levels) front (memberText level isPretty part ++ rest) =
          some (front ++ [part], rest) := by
    intro front part back split rest delimited
    have isMember : part ∈ member :: others := by
      rw [split]
      simp
    have absent : part.1 ∉ front.map Prod.fst := by
      rw [split, List.map_append, List.map_cons] at distinct
      intro present
      exact List.disjoint_of_nodup_append distinct present List.mem_cons_self
    exact parseMember_memberText (names part isMember) absent (reads part isMember rest delimited)
  have quote : Exists fun more => memberText level isPretty member = 0x22 :: more := ⟨_, rfl⟩
  rcases quote with ⟨more, shape⟩
  rw [parseObjectValue_bracketed, serializeMembers_eq,
    parseBracketed_serialized shape (by decide) (by decide),
    parseParts_serialized isPretty level (by decide) (by decide) (by decide) starts readsPart []
      others member rfl rest (Nat.lt_succ_self _)]
  rfl

/-- Parsing a serialized value gives the value back, with the text behind it. -/
theorem parseValue_serialized {levels : Nat} {value : JsonValue} (legible : Legible levels value)
    (level : Nat) (isPretty : Bool) {rest : Bytes} (delimited : Delimited rest) :
    parseValue levels (jsonSerializeToBufferR level isPretty value ++ rest) =
      some (value, rest) := by
  induction legible generalizing level rest with
  | @string remaining text noNul =>
      have quoted := getQuotedString_serialized noNul rest
      change (getQuotedString (jsonSerializeString text ++ rest)).map _ = _
      rw [quoted]
      rfl
  | @number remaining q reprints =>
      have starts := serialized_startsVisible (.number q) level isPretty
      change parseDispatch (parseValue remaining) (skipWhitespaces _) = _
      rw [skipWhitespaces_startsVisible starts, jsonSerializeToBufferR,
        parseDispatch_number _ reprints.starts]
      exact reprints.read rest delimited
  | @negativeZero remaining =>
      have starts := serialized_startsVisible .negativeZero level isPretty
      change parseDispatch (parseValue remaining) (skipWhitespaces _) = _
      rw [skipWhitespaces_startsVisible starts, jsonSerializeToBufferR,
        @parseDispatch_number _ Binary64.negativeZeroText ⟨0x2D, [0x30], rfl, Or.inl rfl⟩]
      exact parseNumberValue_negativeZeroText delimited
  | boolean value => cases value <;> rfl
  | null => rfl
  | @array remaining items legible inductionHypothesis =>
      cases items with
      | nil => rfl
      | cons item others =>
          rw [serialized_array]
          exact parseArrayValue_serialized
            (fun value member rest delimited =>
              inductionHypothesis value member (level + 1) delimited) rest
  | @object remaining members distinct names legible inductionHypothesis =>
      cases members with
      | nil => rfl
      | cons member others =>
          rw [serialized_object]
          exact parseObjectValue_serialized distinct names
            (fun part isMember rest delimited =>
              inductionHypothesis part isMember (level + 1) delimited) rest

/-- A serialized value is not taken for one behind a byte order mark. -/
theorem jsonParseString_value (value : JsonValue) (isPretty : Bool) (rest : Bytes) :
    jsonParseString (jsonSerializeToBufferR 0 isPretty value ++ rest) =
      (parseValue (maxNesting + 1) (jsonSerializeToBufferR 0 isPretty value ++ rest)).map
        (fun found => found.1) := by
  rcases serialized_head value 0 isPretty with ⟨c, more, shape, _, _, notMark⟩
  have noMark : Not ((jsonSerializeToBufferR 0 isPretty value ++ rest).take 3 =
      [0xEF, 0xBB, 0xBF]) := by
    rw [shape, List.cons_append, List.take_succ_cons]
    exact fun equal => notMark (List.cons.inj equal).1
  simp only [jsonParseString, if_neg noMark]

/-- `json_parse_string` undoes `json_serialize_to_string_pretty`, whatever
stands behind the text as long as it does not continue a number. -/
theorem jsonParseString_legible {value : JsonValue} (legible : Legible (maxNesting + 1) value)
    {rest : Bytes} (delimited : Delimited rest) :
    jsonParseString (jsonSerializeToStringPretty value ++ rest) = some value := by
  unfold jsonSerializeToStringPretty
  rw [jsonParseString_value, parseValue_serialized legible 0 true delimited, Option.map_some]

theorem jsonParseString_serialized {value : JsonValue} (readable : Readable (maxNesting + 1) value)
    {rest : Bytes} (delimited : Delimited rest) :
    jsonParseString (jsonSerializeToStringPretty value ++ rest) = some value :=
  jsonParseString_legible readable.legible delimited

/-! ## Serialized text is a C string -/

theorem noNul_append {front back : Bytes} (noFront : 0 ∉ front) (noBack : 0 ∉ back) :
    0 ∉ front ++ back := by
  intro member
  rcases List.mem_append.mp member with inFront | inBack
  · exact noFront inFront
  · exact noBack inBack

theorem noNul_of_blank {text : Bytes} (blank : Blank text) : 0 ∉ text := by
  intro member
  exact absurd (blank 0 member) (by decide)

theorem noNul_escape : forall c : UInt8, c ≠ 0 -> 0 ∉ escape c := by
  apply forall_byte
  decide +kernel

theorem noNul_jsonSerializeString {text : Bytes} (noNul : 0 ∉ text) :
    0 ∉ jsonSerializeString text := by
  have escaped : 0 ∉ text.flatMap escape := by
    intro member
    rcases List.mem_flatMap.mp member with ⟨c, inText, inEscape⟩
    have nonzero : c ≠ 0 := fun zero => noNul (zero ▸ inText)
    exact noNul_escape c nonzero inEscape
  exact noNul_append (noNul_append (by decide) escaped) (by decide)

theorem noNul_serializeParts {Part : Type} {text : Part -> Bytes} (isPretty : Bool) (level : Nat)
    {parts : List Part} (noNul : forall part, part ∈ parts -> 0 ∉ text part) :
    0 ∉ serializeParts isPretty level text parts := by
  induction parts with
  | nil => exact List.not_mem_nil
  | cons part rest inductionHypothesis =>
      have comma : 0 ∉ (if rest.isEmpty then [] else ascii ",") := by
        split
        · exact List.not_mem_nil
        · decide
      have noRest := inductionHypothesis
        (fun other member => noNul other (List.mem_cons_of_mem _ member))
      exact noNul_append (noNul_append (noNul_append (noNul_append
        (noNul_of_blank (blank_lineIndent isPretty (level + 1))) (noNul part List.mem_cons_self))
        comma) (noNul_of_blank (blank_lineBreak isPretty))) noRest

/-- The names and strings in a value are C strings. -/
inductive CStrings : JsonValue -> Prop where
  | string {text : Bytes} (noNul : 0 ∉ text) : CStrings (.string text)
  | number (value : ℚ) : CStrings (.number value)
  | negativeZero : CStrings .negativeZero
  | boolean (value : Bool) : CStrings (.boolean value)
  | null : CStrings .null
  | array {items : List JsonValue} (cStrings : forall item, item ∈ items -> CStrings item) :
      CStrings (.array items)
  | object {members : Members} (names : forall member, member ∈ members -> 0 ∉ member.1)
      (cStrings : forall member, member ∈ members -> CStrings member.2) :
      CStrings (.object members)

/-- The text of such a value contains no NUL. -/
theorem noNul_serialized {value : JsonValue} (cStrings : CStrings value) (level : Nat)
    (isPretty : Bool) : 0 ∉ jsonSerializeToBufferR level isPretty value := by
  induction cStrings generalizing level with
  | string noNul =>
      rw [jsonSerializeToBufferR]
      exact noNul_jsonSerializeString noNul
  | number value =>
      rw [jsonSerializeToBufferR]
      exact Binary64.formatG17_noNul value
  | negativeZero =>
      rw [jsonSerializeToBufferR]
      decide
  | boolean value =>
      cases value <;> (rw [jsonSerializeToBufferR]; decide)
  | null =>
      rw [jsonSerializeToBufferR]
      decide
  | @array items cStrings inductionHypothesis =>
      cases items with
      | nil =>
          rw [jsonSerializeToBufferR]
          decide
      | cons item others =>
          rw [jsonSerializeToBufferR, serializeItems_eq]
          exact noNul_append (noNul_append (noNul_append (noNul_append (by decide)
            (noNul_of_blank (blank_lineBreak isPretty)))
            (noNul_serializeParts isPretty level
              (fun part member => inductionHypothesis part member (level + 1))))
            (noNul_of_blank (blank_lineIndent isPretty level))) (by decide)
  | @object members names cStrings inductionHypothesis =>
      cases members with
      | nil =>
          rw [jsonSerializeToBufferR]
          decide
      | cons member others =>
          have noNulMember : forall part, part ∈ member :: others ->
              0 ∉ memberText level isPretty part := by
            intro part isMember
            have blank : 0 ∉ (if isPretty then ascii " " else []) := by
              split
              · decide
              · exact List.not_mem_nil
            exact noNul_append (noNul_jsonSerializeString (names part isMember))
              (noNul_append (by decide) (noNul_append blank
                (inductionHypothesis part isMember (level + 1))))
          rw [jsonSerializeToBufferR, serializeMembers_eq]
          exact noNul_append (noNul_append (noNul_append (noNul_append (by decide)
            (noNul_of_blank (blank_lineBreak isPretty)))
            (noNul_serializeParts isPretty level noNulMember))
            (noNul_of_blank (blank_lineIndent isPretty level))) (by decide)

end Parson
end ChatHub
