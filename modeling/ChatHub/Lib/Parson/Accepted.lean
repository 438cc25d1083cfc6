import ChatHub.Lib.Parson.Continuation
import ChatHub.Lib.Parson.RoundTrip

namespace ChatHub

/-!
# What the parser accepts

Whatever text is parsed, the value is one that the program can handle: its
strings are C strings, no name occurs twice, it is not nested too deeply and
its numbers are finite.  Such a value survives being serialized and parsed
again with one exception.  A number without a full significand is printed with
seventeen digits, `strtod` reports these as out of range, and the parser refuses
the whole text because `errno` is set.
-/

namespace Parson

/-- The values that are parsed within some levels of nesting. -/
inductive Accepted : Nat -> JsonValue -> Prop where
  | string {levels : Nat} {text : Bytes} (noNul : 0 ∉ text) : Accepted (levels + 1) (.string text)
  | number {levels : Nat} {q : ℚ} (finite : Binary64.FiniteDouble q) :
      Accepted (levels + 1) (.number q)
  | negativeZero {levels : Nat} : Accepted (levels + 1) .negativeZero
  | boolean {levels : Nat} (value : Bool) : Accepted (levels + 1) (.boolean value)
  | null {levels : Nat} : Accepted (levels + 1) .null
  | array {levels : Nat} {items : List JsonValue}
      (accepted : forall item, item ∈ items -> Accepted levels item) :
      Accepted (levels + 1) (.array items)
  | object {levels : Nat} {members : List (Bytes × JsonValue)}
      (distinct : (members.map Prod.fst).Nodup)
      (names : forall member, member ∈ members -> 0 ∉ member.1)
      (accepted : forall member, member ∈ members -> Accepted levels member.2) :
      Accepted (levels + 1) (.object members)

/-- Every number in the value has a full significand. -/
inductive NormalNumbers : JsonValue -> Prop where
  | string (text : Bytes) : NormalNumbers (.string text)
  | number {q : ℚ} (normal : Binary64.Normal q) : NormalNumbers (.number q)
  | negativeZero : NormalNumbers .negativeZero
  | boolean (value : Bool) : NormalNumbers (.boolean value)
  | null : NormalNumbers .null
  | array {items : List JsonValue} (normal : forall item, item ∈ items -> NormalNumbers item) :
      NormalNumbers (.array items)
  | object {members : Members} (normal : forall member, member ∈ members -> NormalNumbers member.2) :
      NormalNumbers (.object members)

/-! ## Parsing -/

theorem getQuotedString_noNul {string text rest : Bytes}
    (found : getQuotedString string = some (text, rest)) : 0 ∉ text := by
  unfold getQuotedString at found
  cases skipped : skipQuotes string with
  | none => simp [skipped] at found
  | some pair =>
      simp only [skipped, Option.map_eq_some_iff, processString] at found
      rcases found with ⟨_, ⟨written, _, isCstr⟩, equal⟩
      cases equal
      rw [← isCstr]
      exact not_mem_cstr written

theorem parseEnd_value {Value : Type} {close : UInt8} {value result : Value} {string rest : Bytes}
    (found : parseEnd close value string = some (result, rest)) : result = value := by
  unfold parseEnd at found
  split at found
  · cases found
  · rw [Option.ite_none_right_eq_some] at found
    cases found.2
    rfl

/-- The loop over parts keeps what each of its rounds keeps. -/
theorem parseParts_keeps {Parts : Type} {parsePart : Parts -> Parser Parts} {Good : Parts -> Prop}
    (step : forall parts string added rest, Good parts ->
      parsePart parts string = some (added, rest) -> Good added)
    {close : UInt8} {bound : Nat} {parts result : Parts} {string rest : Bytes} (good : Good parts)
    (found : parseParts parsePart close bound parts string = some (result, rest)) :
    Good result := by
  induction bound generalizing parts string with
  | zero => cases found
  | succ bound inductionHypothesis =>
      cases string with
      | nil => cases found
      | cons head tail =>
          cases part : parsePart parts (head :: tail) with
          | none => simp [parseParts, part] at found
          | some pair =>
              have next := step parts _ pair.1 pair.2 good part
              cases skipped : skipWhitespaces pair.2 with
              | nil => simp [parseParts, part, skipped] at found
              | cons c behind =>
                  simp only [parseParts, part, skipped] at found
                  split at found
                  · exact inductionHypothesis next found
                  · rw [parseEnd_value found]
                    exact next

section Levels

variable {parseValue : Parser JsonValue} {levels : Nat}

/-- What the members that are already read have in common. -/
def AcceptedMembers (levels : Nat) (members : Members) : Prop :=
  (members.map Prod.fst).Nodup ∧ forall member, member ∈ members ->
    0 ∉ member.1 ∧ Accepted levels member.2

theorem acceptedMembers_nil (levels : Nat) : AcceptedMembers levels [] :=
  ⟨List.nodup_nil, fun _ never => absurd never List.not_mem_nil⟩

theorem parseMember_accepted
    (accepts : forall string value rest, parseValue string = some (value, rest) ->
      Accepted levels value)
    (members : Members) (string : Bytes) (added : Members) (rest : Bytes)
    (good : AcceptedMembers levels members)
    (found : parseMember parseValue members string = some (added, rest)) :
    AcceptedMembers levels added := by
  unfold parseMember at found
  split at found
  · cases found
  · next newKey behindKey quoted =>
      split at found
      · cases found
      · next c behindColon skipped =>
          rw [Option.ite_none_right_eq_some] at found
          rcases found with ⟨_, found⟩
          split at found
          · cases found
          · next newValue behindValue parsed =>
              rw [Option.map_eq_some_iff] at found
              rcases found with ⟨result, isResult, equal⟩
              cases equal
              unfold jsonObjectAdd at isResult
              rw [Option.ite_none_left_eq_some] at isResult
              rcases isResult with ⟨absent, same⟩
              cases same
              rw [jsonObjectGetValue_isSome_iff] at absent
              constructor
              · rw [List.map_append, List.map_singleton]
                exact good.1.append (List.nodup_singleton newKey)
                  (List.disjoint_singleton.mpr absent)
              · intro member inside
                rcases List.mem_append.mp inside with old | new
                · exact good.2 member old
                · rw [List.mem_singleton.mp new]
                  exact ⟨getQuotedString_noNul quoted, accepts _ _ _ parsed⟩

theorem parseItem_accepted
    (accepts : forall string value rest, parseValue string = some (value, rest) ->
      Accepted levels value)
    (items : List JsonValue) (string : Bytes) (added : List JsonValue) (rest : Bytes)
    (good : forall item, item ∈ items -> Accepted levels item)
    (found : parseItem parseValue items string = some (added, rest)) :
    forall item, item ∈ added -> Accepted levels item := by
  rcases Option.map_eq_some_iff.mp found with ⟨result, parsed, equal⟩
  cases equal
  intro item inside
  rcases List.mem_append.mp inside with old | new
  · exact good item old
  · rw [List.mem_singleton.mp new]
    exact accepts _ _ _ parsed

end Levels

theorem parseNumberValue_accepted {levels : Nat} {string rest : Bytes} {value : JsonValue}
    (found : parseNumberValue string = some (value, rest)) : Accepted (levels + 1) value := by
  unfold parseNumberValue at found
  split at found
  · cases found
  · cases found
  · next number behind scanned =>
      rw [Option.ite_none_right_eq_some] at found
      cases found.2
      exact Accepted.number (Binary64.strtod_finite scanned)
  · rw [Option.ite_none_right_eq_some] at found
    cases found.2
    exact Accepted.negativeZero

/-- Every value that is parsed on some level is acceptable there. -/
theorem parseValue_accepted (levels : Nat) {string rest : Bytes} {value : JsonValue}
    (found : parseValue levels string = some (value, rest)) : Accepted levels value := by
  induction levels generalizing string rest value with
  | zero => cases found
  | succ remaining inductionHypothesis =>
      rcases parseValue_cases found with ⟨_, c, behind, same, _, dispatched⟩
      cases same
      have accepts : forall string value rest, parseValue remaining string = some (value, rest) ->
          Accepted remaining value :=
        fun _ _ _ parsed => inductionHypothesis parsed
      simp only [parseDispatch] at dispatched
      split at dispatched
      · rw [parseObjectValue_bracketed] at dispatched
        rcases parseBracketed_cases dispatched with
          ⟨_, isEmpty⟩ | ⟨_, _, members, _, _, isObject, parts⟩
        · rw [isEmpty]
          exact Accepted.object List.nodup_nil (fun _ never => absurd never List.not_mem_nil)
            (fun _ never => absurd never List.not_mem_nil)
        · have good := @parseParts_keeps _ _ (AcceptedMembers remaining)
            (parseMember_accepted accepts) _ _ _ _ _ _ (acceptedMembers_nil remaining) parts
          rw [isObject]
          exact Accepted.object good.1 (fun member inside => (good.2 member inside).1)
            (fun member inside => (good.2 member inside).2)
      split at dispatched
      · rw [parseArrayValue_bracketed] at dispatched
        rcases parseBracketed_cases dispatched with
          ⟨_, isEmpty⟩ | ⟨_, _, items, _, _, isArray, parts⟩
        · rw [isEmpty]
          exact Accepted.array (fun _ never => absurd never List.not_mem_nil)
        · rw [isArray]
          exact Accepted.array (@parseParts_keeps _ _
            (fun items => forall item, item ∈ items -> Accepted remaining item)
            (parseItem_accepted accepts) _ _ _ _ _ _
            (fun _ never => absurd never List.not_mem_nil) parts)
      split at dispatched
      · rcases Option.map_eq_some_iff.mp dispatched with ⟨result, quoted, equal⟩
        cases equal
        exact Accepted.string (getQuotedString_noNul quoted)
      split at dispatched
      · unfold parseBooleanValue at dispatched
        split at dispatched
        · next isTrue =>
            cases dispatched
            rw [parseToken_value isTrue]
            exact Accepted.boolean true
        · rw [parseToken_value dispatched]
          exact Accepted.boolean false
      split at dispatched
      · exact parseNumberValue_accepted dispatched
      split at dispatched
      · rw [parseToken_value dispatched]
        exact Accepted.null
      · cases dispatched

/-- A text that is parsed gives an acceptable value. -/
theorem jsonParseString_accepted {string : Bytes} {value : JsonValue}
    (found : jsonParseString string = some value) : Accepted (maxNesting + 1) value := by
  rcases Option.map_eq_some_iff.mp found with ⟨result, parsed, equal⟩
  cases equal
  exact parseValue_accepted _ parsed

/-! ## Serializing and parsing again -/

/-- A finite number with a full significand is read back from its printed form. -/
theorem reprints_of_normal {q : ℚ} (finite : Binary64.FiniteDouble q) (normal : Binary64.Normal q) :
    Reprints q where
  starts := Binary64.formatG17_starts q
  read := by
    intro rest delimited
    apply parseNumberValue_of_strtod (Binary64.strtod_formatG17 finite normal delimited)
    by_cases zero : q = 0
    · rw [zero]
      decide +kernel
    · rcases Binary64.formatG17_shape zero with ⟨head, more, text, digit, point⟩
      refine isDecimal_of_point digit point ?_ (fun c member => ?_)
      · rw [text]
        by_cases negative : q < 0
        · rw [if_pos negative]
          exact Or.inr rfl
        · rw [if_neg negative]
          exact Or.inl rfl
      · have plain := Binary64.numberChar_plain c (Binary64.formatG17_chars q c member)
        exact ⟨plain.1, plain.2.1⟩

/-- An acceptable value whose numbers have a full significand is legible. -/
theorem Accepted.legible {levels : Nat} {value : JsonValue} (accepted : Accepted levels value)
    (normal : NormalNumbers value) : Legible levels value := by
  induction accepted with
  | string noNul => exact Legible.string noNul
  | number finite =>
      cases normal with
      | number normal => exact Legible.number (reprints_of_normal finite normal)
  | negativeZero => exact Legible.negativeZero
  | boolean value => exact Legible.boolean value
  | null => exact Legible.null
  | array _ inductionHypothesis =>
      cases normal with
      | array normal =>
          exact Legible.array (fun item member => inductionHypothesis item member (normal item member))
  | object distinct names _ inductionHypothesis =>
      cases normal with
      | object normal =>
          exact Legible.object distinct names
            (fun member inside => inductionHypothesis member inside (normal member inside))

section Refused

variable {Part : Type} {parsePart : List Part -> Parser (List Part)} {text : Part -> Bytes}
  {Good : Part -> Prop} {isPretty : Bool} {level : Nat} {close : UInt8}

/-- The loop over parts fails at the first part that is not read back. -/
theorem parseParts_refused (delimits : Binary64.Delimits close) {all : List Part}
    (starts : forall part, part ∈ all -> StartsVisible (text part))
    (reads : forall front part back, all = front ++ part :: back ->
      (forall other, other ∈ front -> Good other) -> Good part -> forall rest, Delimited rest ->
        parsePart front (text part ++ rest) = some (front ++ [part], rest))
    (refuses : forall front part back, all = front ++ part :: back -> Not (Good part) ->
      forall rest, Delimited rest -> parsePart front (text part ++ rest) = none)
    {bound : Nat} (front back : List Part) (part : Part) (split : all = front ++ part :: back)
    (good : forall other, other ∈ front -> Good other)
    (bad : Exists fun other => other ∈ part :: back ∧ Not (Good other)) (rest : Bytes) :
    parseParts parsePart close bound front
      (text part ++ behindPart isPretty level text close back rest) = none := by
  induction back generalizing bound front part with
  | nil =>
      rcases bad with ⟨other, member, refused⟩
      rw [List.mem_singleton.mp member] at refused
      cases bound with
      | zero => rfl
      | succ bound =>
          rcases starts part (by rw [split]; simp) with ⟨c, more, shape, _⟩
          have failed := refuses front part [] split refused _
            (@delimited_behindPart _ text isPretty level close delimits [] rest)
          rw [shape, List.cons_append] at failed ⊢
          simp only [parseParts, failed]
  | cons following others inductionHypothesis =>
      cases bound with
      | zero => rfl
      | succ bound =>
          rcases starts part (by rw [split]; simp) with ⟨c, more, shape, _⟩
          have delimited :=
            @delimited_behindPart _ text isPretty level close delimits (following :: others) rest
          by_cases goodPart : Good part
          · have read := reads front part (following :: others) split good goodPart _ delimited
            rcases behindPart_cons isPretty level close (starts following (by rw [split]; simp))
              others rest with ⟨tail, comma, skipped⟩
            have splitNext : all = (front ++ [part]) ++ following :: others := by
              rw [split, List.append_assoc]
              rfl
            have goodNext : forall other, other ∈ front ++ [part] -> Good other := by
              intro other member
              rcases List.mem_append.mp member with old | new
              · exact good other old
              · rw [List.mem_singleton.mp new]
                exact goodPart
            have badNext : Exists fun other => other ∈ following :: others ∧ Not (Good other) := by
              rcases bad with ⟨other, member, refused⟩
              rcases List.mem_cons.mp member with here | later
              · exact absurd (here ▸ goodPart) refused
              · exact ⟨other, later, refused⟩
            have failed := @inductionHypothesis bound (front ++ [part]) following splitNext goodNext
              badNext
            have next : skipWhitespaces (0x2C :: tail) = 0x2C :: tail :=
              skipWhitespaces_cons (by decide) tail
            rw [comma, shape, List.cons_append] at read ⊢
            simp only [parseParts, read, next, if_true, skipped]
            exact failed
          · have failed := refuses front part (following :: others) split goodPart _ delimited
            rw [shape, List.cons_append] at failed ⊢
            simp only [parseParts, failed]

end Refused

theorem parseMember_refused {levels level : Nat} {isPretty : Bool} (front : Members)
    {member : Bytes × JsonValue} (noNul : 0 ∉ member.1) {rest : Bytes}
    (refused : parseValue levels (jsonSerializeToBufferR (level + 1) isPretty member.2 ++ rest) =
      none) :
    parseMember (parseValue levels) front (memberText level isPretty member ++ rest) = none := by
  have value := (parseValue_blank levels (blank_space isPretty)
    (jsonSerializeToBufferR (level + 1) isPretty member.2 ++ rest)).trans refused
  unfold memberText parseMember
  rw [List.append_assoc, getQuotedString_serialized noNul]
  simp only [List.append_assoc]
  rw [show ascii ":" = [0x3A] from rfl, List.singleton_append, skipWhitespaces_cons (by decide)]
  simp only [if_true, value]

theorem parseDispatch_refused (parseValue : Parser JsonValue) {q : ℚ}
    (finite : Binary64.FiniteDouble q) (subnormal : Not (Binary64.Normal q)) {rest : Bytes}
    (delimited : Delimited rest) :
    parseDispatch parseValue (Binary64.formatG17 q ++ rest) = none := by
  have scanned := Binary64.strtod_formatG17_subnormal finite subnormal delimited
  have failed : parseNumberValue (Binary64.formatG17 q ++ rest) = none := by
    unfold parseNumberValue
    rw [scanned]
  rw [parseDispatch_number _ (Binary64.formatG17_starts q)]
  exact failed

/-- A value with a number without a full significand is not read back. -/
theorem parseValue_refused {levels : Nat} {value : JsonValue} (accepted : Accepted levels value)
    (subnormal : Not (NormalNumbers value)) (level : Nat) (isPretty : Bool) {rest : Bytes}
    (delimited : Delimited rest) :
    parseValue levels (jsonSerializeToBufferR level isPretty value ++ rest) = none := by
  induction accepted generalizing level rest with
  | string noNul => exact absurd (NormalNumbers.string _) subnormal
  | @number remaining q finite =>
      have notNormal : Not (Binary64.Normal q) := fun normal => subnormal (.number normal)
      change parseDispatch (parseValue remaining) (skipWhitespaces _) = _
      rw [skipWhitespaces_startsVisible (serialized_startsVisible (.number q) level isPretty),
        jsonSerializeToBufferR]
      exact parseDispatch_refused _ finite notNormal delimited
  | negativeZero => exact absurd NormalNumbers.negativeZero subnormal
  | boolean value => exact absurd (NormalNumbers.boolean value) subnormal
  | null => exact absurd NormalNumbers.null subnormal
  | @array remaining items accepted inductionHypothesis =>
      have bad : Exists fun item => item ∈ items ∧ Not (NormalNumbers item) := by
        by_contra none
        exact subnormal (.array (fun item member => by_contra fun refused =>
          none ⟨item, member, refused⟩))
      cases items with
      | nil =>
          rcases bad with ⟨_, never, _⟩
          exact absurd never List.not_mem_nil
      | cons item others =>
          rcases serialized_head item (level + 1) isPretty with
            ⟨c, more, itemShape, visible, notEnd, _⟩
          have failed := @parseParts_refused _ (parseItem (parseValue remaining))
            (jsonSerializeToBufferR (level + 1) isPretty) NormalNumbers isPretty level 0x5D
            (by decide) (item :: others)
            (fun value _ => serialized_startsVisible value (level + 1) isPretty)
            (by
              intro front value back split _ normal rest delimited
              have read := parseValue_serialized ((accepted value (by rw [split]; simp)).legible
                normal) (level + 1) isPretty delimited
              simp only [parseItem, read, Option.map_some])
            (by
              intro front value back split refused rest delimited
              have read := inductionHypothesis value (by rw [split]; simp) refused (level + 1)
                delimited
              simp only [parseItem, read, Option.map_none])
          rw [serialized_array]
          change parseArrayValue _ _ = none
          rw [parseArrayValue_bracketed, serializeItems_eq,
            parseBracketed_serialized itemShape visible notEnd,
            failed [] others item rfl (fun _ never => absurd never List.not_mem_nil) bad rest]
          rfl
  | @object remaining members distinct names accepted inductionHypothesis =>
      have bad : Exists fun member => member ∈ members ∧ Not (NormalNumbers member.2) := by
        by_contra none
        exact subnormal (.object (fun member inside => by_contra fun refused =>
          none ⟨member, inside, refused⟩))
      cases members with
      | nil =>
          rcases bad with ⟨_, never, _⟩
          exact absurd never List.not_mem_nil
      | cons member others =>
          have quote : Exists fun more => memberText level isPretty member = 0x22 :: more :=
            ⟨_, rfl⟩
          rcases quote with ⟨more, memberShape⟩
          have failed := @parseParts_refused _ (parseMember (parseValue remaining))
            (memberText level isPretty) (fun part => NormalNumbers part.2) isPretty level 0x7D
            (by decide) (member :: others)
            (fun part _ => memberText_startsVisible level isPretty part)
            (by
              intro front part back split _ normal rest delimited
              have inside : part ∈ member :: others := by
                rw [split]
                simp
              have absent : part.1 ∉ front.map Prod.fst := by
                rw [split, List.map_append, List.map_cons] at distinct
                intro present
                exact List.disjoint_of_nodup_append distinct present List.mem_cons_self
              exact parseMember_memberText (names part inside) absent (parseValue_serialized
                ((accepted part inside).legible normal) (level + 1) isPretty delimited))
            (by
              intro front part back split refused rest delimited
              have inside : part ∈ member :: others := by
                rw [split]
                simp
              exact parseMember_refused front (names part inside)
                (inductionHypothesis part inside refused (level + 1) delimited))
          rw [serialized_object]
          change parseObjectValue _ _ = none
          rw [parseObjectValue_bracketed, serializeMembers_eq,
            parseBracketed_serialized memberShape (by decide) (by decide),
            failed [] others member rfl (fun _ never => absurd never List.not_mem_nil) bad rest]
          rfl

/-- A value that was parsed, serialized and parsed again, in one form of the
output or the other, is the same value if all its numbers have a full
significand.  Otherwise its text is refused. -/
theorem jsonParseString_again {text : Bytes} {value : JsonValue}
    (parsed : jsonParseString text = some value) (isPretty : Bool) :
    (NormalNumbers value -> jsonParseString (jsonSerializeToBufferR 0 isPretty value) = some value) ∧
      (Not (NormalNumbers value) ->
        jsonParseString (jsonSerializeToBufferR 0 isPretty value) = none) := by
  have accepted := jsonParseString_accepted parsed
  constructor
  · intro normal
    have read := parseValue_serialized (accepted.legible normal) 0 isPretty delimited_nil
    have again := jsonParseString_value value isPretty []
    rw [read, List.append_nil] at again
    exact again
  · intro subnormal
    have refused := parseValue_refused accepted subnormal 0 isPretty delimited_nil
    have again := jsonParseString_value value isPretty []
    rw [refused, List.append_nil] at again
    exact again

/-- Numbers with a fraction, a small one in an object in an array, and the
negative zero. -/
def nestedSample : JsonValue :=
  .array [.number (3 / 2), .object [(ascii "tenth", .number (Binary64.round (-1 / 10)))],
    .negativeZero, .null]

theorem nestedSample_parsed : NormalNumbers nestedSample ∧
    jsonParseString (jsonSerializeToStringPretty nestedSample) = some nestedSample := by
  have half : Binary64.FiniteDouble (3 / 2) ∧ Binary64.Normal (3 / 2) := by
    refine ⟨⟨by decide +kernel, by decide +kernel⟩, Or.inr (by decide +kernel)⟩
  have tenth : Binary64.FiniteDouble (Binary64.round (-1 / 10)) ∧
      Binary64.Normal (Binary64.round (-1 / 10)) :=
    ⟨⟨Binary64.round_round _, by decide +kernel⟩, Or.inr (by decide +kernel)⟩
  have accepted : Accepted (maxNesting + 1) nestedSample := by
    refine Accepted.array (fun item member => ?_)
    simp only [List.mem_cons, List.not_mem_nil, or_false] at member
    rcases member with rfl | rfl | rfl | rfl
    · exact Accepted.number half.1
    · refine Accepted.object (List.nodup_singleton _) (fun part inside => ?_)
        (fun part inside => ?_)
      · rw [List.mem_singleton.mp inside]
        decide
      · rw [List.mem_singleton.mp inside]
        exact Accepted.number tenth.1
    · exact Accepted.negativeZero
    · exact Accepted.null
  have normal : NormalNumbers nestedSample := by
    refine NormalNumbers.array (fun item member => ?_)
    simp only [List.mem_cons, List.not_mem_nil, or_false] at member
    rcases member with rfl | rfl | rfl | rfl
    · exact NormalNumbers.number half.2
    · refine NormalNumbers.object (fun part inside => ?_)
      rw [List.mem_singleton.mp inside]
      exact NormalNumbers.number tenth.2
    · exact NormalNumbers.negativeZero
    · exact NormalNumbers.null
  have parsed := jsonParseString_legible (accepted.legible normal) delimited_nil
  rw [List.append_nil] at parsed
  exact ⟨normal, parsed⟩

theorem jsonParseString_accepted_nestedSample : Accepted (maxNesting + 1) nestedSample :=
  jsonParseString_accepted nestedSample_parsed.2

theorem jsonParseString_again_nestedSample :
    jsonParseString (jsonSerializeToBufferR 0 false nestedSample) = some nestedSample :=
  (jsonParseString_again nestedSample_parsed.2 false).1 nestedSample_parsed.1

end Parson
end ChatHub
