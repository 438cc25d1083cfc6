import ChatHub.Lib.Config

namespace ChatHub

/-!
# Which credentials are scanned safely

`msg2user` scans two words and a number out of a text that came from the
network.  The conversions have no width, so a long word runs over its buffer,
and the result of `sscanf` is not looked at, so a missing number leaves the
register time undetermined.  Splitting the text at its white space says which
texts are of neither kind.
-/

namespace CredentialSafety

/-- The longest parts of the text without white space, in their order. -/
def words (text : Bytes) : List Bytes :=
  (text.splitOnP isSpace).filter (fun word => !word.isEmpty)

/-- The word begins with a digit, or with a sign and a digit. -/
def startsNumber (word : Bytes) : Bool :=
  (readSign word).2.head?.any isDigit

/-- The text is scanned without an overflow and determines the user. -/
def ScansSafely (message : Message) : Prop :=
  Exists fun user => Exists fun time => msg2user message = .ok user ∧ user.registerTime = some time

theorem words_nil : words [] = [] :=
  rfl

theorem words_space {c : UInt8} (blank : isSpace c = true) (rest : Bytes) :
    words (c :: rest) = words rest := by
  unfold words
  rw [List.splitOnP_cons_eq_if_modifyHead, if_pos blank]
  rfl

theorem words_dropWhile (text : Bytes) : words (text.dropWhile isSpace) = words text := by
  induction text with
  | nil => rfl
  | cons c rest inductionHypothesis =>
      cases blank : isSpace c with
      | true => rw [List.dropWhile_cons_of_pos blank, words_space blank, inductionHypothesis]
      | false =>
          rw [List.dropWhile_cons_of_neg]
          rw [blank]
          exact Bool.false_ne_true

/-- A token that white space or the end of the text follows is the next word. -/
theorem words_append {token rest : Bytes} (nonempty : token ≠ [])
    (visible : forall c, c ∈ token -> isSpace c = false)
    (ends : forall c, rest.head? = some c -> isSpace c = true) :
    words (token ++ rest) = token :: words rest := by
  have kept : forall others : List Bytes,
      (token :: others).filter (fun word => !word.isEmpty) =
        token :: others.filter (fun word => !word.isEmpty) := by
    intro others
    cases token with
    | nil => exact absurd rfl nonempty
    | cons c rest => rfl
  cases rest with
  | nil =>
      unfold words
      rw [List.append_nil, List.splitOnP_eq_singleton visible, kept]
      rfl
  | cons c others =>
      have blank := ends c rfl
      rw [words_space blank]
      unfold words
      rw [List.splitOnP_append_cons_of_forall_mem visible c blank, kept]

/-- What `%s` takes and leaves, with the white space skipped before it. -/
theorem scanToken_parts {text token rest : Bytes} (scanned : scanToken text = some (token, rest)) :
    text.dropWhile isSpace = token ++ rest ∧ forall c, rest.head? = some c -> isSpace c = true := by
  unfold scanToken at scanned
  simp only at scanned
  split at scanned
  · cases scanned
  · cases scanned
    refine ⟨List.takeWhile_append_dropWhile.symm, fun c isHead => ?_⟩
    have stopped := List.head?_dropWhile_not (fun c => !isSpace c) (text.dropWhile isSpace)
    rw [isHead] at stopped
    simpa using stopped

/-- `%s` takes the first word of the text and leaves the others. -/
theorem words_of_scanToken {text token rest : Bytes}
    (scanned : scanToken text = some (token, rest)) : words text = token :: words rest := by
  rcases scanToken_token scanned with ⟨nonempty, visible, _⟩
  rcases scanToken_parts scanned with ⟨whole, ends⟩
  rw [← words_dropWhile, whole, words_append nonempty visible ends]

theorem words_of_scanToken_none {text : Bytes} (scanned : scanToken text = none) :
    text.dropWhile isSpace = [] ∧ words text = [] := by
  unfold scanToken at scanned
  simp only at scanned
  split at scanned
  · next blank =>
      refine ⟨blank, ?_⟩
      rw [← words_dropWhile, blank, words_nil]
  · cases scanned

theorem scanToken_of_words {text word : Bytes} {more : List Bytes}
    (isWords : words text = word :: more) :
    Exists fun rest => scanToken text = some (word, rest) ∧ words rest = more := by
  cases scanned : scanToken text with
  | none =>
      rw [(words_of_scanToken_none scanned).2] at isWords
      cases isWords
  | some result =>
      rcases result with ⟨token, rest⟩
      rw [words_of_scanToken scanned] at isWords
      cases isWords
      exact ⟨rest, rfl, rfl⟩

theorem takeWhile_eq_nil_iff (text : Bytes) :
    text.takeWhile isDigit = [] <-> text.head?.any isDigit = false := by
  cases text with
  | nil => simp
  | cons c rest => simp [List.takeWhile_cons]

theorem space_not_digit : forall c : UInt8, isSpace c = true -> isDigit c = false := by
  apply forall_byte
  decide +kernel

/-- White space behind a word adds no digit to it. -/
theorem startsNumber_append {token rest : Bytes} (nonempty : token ≠ [])
    (ends : forall c, rest.head? = some c -> isSpace c = true) :
    startsNumber (token ++ rest) = startsNumber token := by
  have restNumber : rest.head?.any isDigit = false := by
    cases isHead : rest.head? with
    | none => rfl
    | some c => exact space_not_digit c (ends c isHead)
  have behind : forall others : Bytes,
      (others ++ rest).head?.any isDigit = others.head?.any isDigit := by
    intro others
    cases others with
    | nil => exact restNumber
    | cons c more => rfl
  rcases List.exists_cons_of_ne_nil nonempty with ⟨c, others, shape⟩
  rw [shape, List.cons_append]
  unfold startsNumber
  by_cases minus : c = 0x2D
  · rw [minus]
    exact behind others
  · by_cases plus : c = 0x2B
    · rw [plus]
      exact behind others
    · rw [readSign_of_not_sign minus plus, readSign_of_not_sign minus plus]
      rfl

/-- `%ld` stores a number exactly when the next word begins with one. -/
theorem scanLong_isSome_iff (text : Bytes) :
    (scanLong text).isSome = true <->
      Exists fun word => Exists fun more => words text = word :: more ∧ startsNumber word = true := by
  have stores : (scanLong text).isSome = true <-> startsNumber (text.dropWhile isSpace) = true := by
    unfold scanLong startsNumber
    split
    · next noDigit =>
        rw [(takeWhile_eq_nil_iff _).mp noDigit]
        simp
    · next hasDigit =>
        rw [takeWhile_eq_nil_iff, Bool.not_eq_false] at hasDigit
        simp [hasDigit]
  rw [stores]
  cases scanned : scanToken text with
  | none =>
      rcases words_of_scanToken_none scanned with ⟨blank, noWord⟩
      rw [blank, noWord]
      constructor
      · intro number
        cases number
      · rintro ⟨word, more, isWords, _⟩
        cases isWords
  | some result =>
      rcases result with ⟨token, rest⟩
      rcases scanToken_parts scanned with ⟨whole, ends⟩
      rw [whole, startsNumber_append (scanToken_token scanned).1 ends, words_of_scanToken scanned]
      constructor
      · intro number
        exact ⟨token, words rest, rfl, number⟩
      · rintro ⟨word, more, isWords, number⟩
        cases isWords
        exact number

/-- All three conversions succeed and both words fit. -/
theorem scansSafely_iff_scanned (message : Message) :
    ScansSafely message <->
      Exists fun username => Exists fun behindName => Exists fun pass => Exists fun behindPass =>
        scanToken message.msgString = some (username, behindName) ∧
          scanToken behindName = some (pass, behindPass) ∧ username.length < maxChars ∧
          pass.length < maxChars ∧ (scanLong behindPass).isSome = true := by
  constructor
  · rintro ⟨user, time, returned, timed⟩
    rcases tokens_of_msg2user returned timed with
      ⟨username, behindName, pass, behindPass, nameScanned, passScanned, nameFits, passFits, _, _, scanned⟩
    exact ⟨username, behindName, pass, behindPass, nameScanned, passScanned, nameFits, passFits,
      Option.isSome_of_eq_some scanned⟩
  · rintro ⟨username, behindName, pass, behindPass, nameScanned, passScanned, nameFits, passFits, stored⟩
    rcases Option.isSome_iff_exists.mp stored with ⟨time, scanned⟩
    unfold ScansSafely msg2user
    simp only [nameScanned, passScanned, if_neg (Nat.not_le.mpr nameFits),
      if_neg (Nat.not_le.mpr passFits)]
    exact ⟨_, time, rfl, scanned⟩

/-- Scanning is safe exactly for the texts that begin with two words of less
than `MAX_CHARS` bytes and a third word that begins with a number. -/
theorem scansSafely_iff_words (message : Message) :
    ScansSafely message <->
      Exists fun username => Exists fun pass => Exists fun number => Exists fun more =>
        words message.msgString = username :: pass :: number :: more ∧
          username.length < maxChars ∧ pass.length < maxChars ∧ startsNumber number = true := by
  rw [scansSafely_iff_scanned]
  constructor
  · rintro ⟨username, behindName, pass, behindPass, nameScanned, passScanned, nameFits, passFits, stored⟩
    rcases (scanLong_isSome_iff behindPass).mp stored with ⟨number, more, isNumber, starts⟩
    refine ⟨username, pass, number, more, ?_, nameFits, passFits, starts⟩
    rw [words_of_scanToken nameScanned, words_of_scanToken passScanned, isNumber]
  · rintro ⟨username, pass, number, more, isWords, nameFits, passFits, starts⟩
    rcases scanToken_of_words isWords with ⟨behindName, nameScanned, passWords⟩
    rcases scanToken_of_words passWords with ⟨behindPass, passScanned, numberWords⟩
    exact ⟨username, behindName, pass, behindPass, nameScanned, passScanned, nameFits, passFits,
      (scanLong_isSome_iff behindPass).mpr ⟨number, more, numberWords, starts⟩⟩

/-- A name without a password and a time. -/
def nameOnly : Message :=
  { Message.newMessgae with msg := CharArray.strncpy maxMsgData (ascii "bob") }

/-- The register time of this user is whatever was in memory. -/
theorem nameOnly_undetermined :
    nameOnly.msg.Terminated ∧ (msg2user nameOnly).map User.registerTime = .ok none ∧
      Not (ScansSafely nameOnly) := by
  have scanned : (msg2user nameOnly).map User.registerTime = .ok none := by
    decide +kernel
  refine ⟨by decide +kernel, scanned, ?_⟩
  rintro ⟨user, time, returned, timed⟩
  rw [returned] at scanned
  have absent : user.registerTime = none := Except.ok.inj scanned
  rw [timed] at absent
  cases absent

end CredentialSafety
end ChatHub
