import ChatHub.Base.Action
import ChatHub.Base.Bytes

namespace ChatHub

/-!
# Text written piece by piece

C code often produces a text in two passes with one function.  With a null
pointer for the buffer it only counts, and a number that has to be printed to
learn its length is printed into a scratch array.  With a buffer it writes every
piece behind the ones before.  Both passes add up the lengths in an `int`.

What a piece does is said once for both passes, and such facts compose: the
passes agree on the length, the second one needs one byte more than the text,
and what it leaves is the text, however the pieces are put together.
-/

/-- The sum of two lengths, which must be an `int`. -/
def addLengths (total written : Nat) : Except Fault Nat :=
  if total + written < 2 ^ 31 then .ok (total + written) else .error .conversion

/-- A function that writes a piece to a pointer, or only counts it if that is
null, and returns the length.  The memory is that of the buffer, or the scratch
array of the counting pass. -/
abbrev Piece := Option Nat -> Action Bytes Nat

/-- Where the next piece goes, and the length so far. -/
structure Cursor where
  buf : Option Nat
  total : Nat

namespace Cursor

open ChatHub.Action

/-- Bytes are written over those that are there. -/
def write (position : Nat) (text : Bytes) : Action Bytes Unit := fun memory =>
  if position + text.length ≤ memory.length then
    (.ok (), memory.take position ++ text ++ memory.drop (position + text.length))
  else (.error .overflow, memory)

/-- `sprintf`, which writes a NUL behind the text and does not count it. -/
def sprintf (position : Nat) (text : Bytes) : Action Bytes Nat := do
  write position (text ++ [0])
  return text.length

/-- A piece is added at the cursor. -/
def append (piece : Piece) (cursor : Cursor) : Action Bytes Cursor := do
  let written <- piece cursor.buf
  let total <- Action.ofExcept (addLengths cursor.total written)
  return ⟨cursor.buf.map (fun position => position + written), total⟩

/-- One character is stored at the cursor, without a NUL behind it. -/
def appendChar (c : UInt8) : Cursor -> Action Bytes Cursor :=
  append fun buf =>
    match buf with
    | none => return 1
    | some position => do
        write position [c]
        return 1

/-- Steps that are only made under a condition. -/
def onlyIf (condition : Bool) (steps : Cursor -> Action Bytes Cursor) :
    Cursor -> Action Bytes Cursor :=
  if condition then steps else pure

/-- A function that starts at a pointer and returns the length in the end. -/
def run (steps : Cursor -> Action Bytes Cursor) : Piece := fun buf => do
  let cursor <- steps ⟨buf, 0⟩
  return cursor.total

/-! ## What is left in memory -/

/-- The text stands at a position, behind what was there before, and the memory
has kept its size. -/
structure Left (memory : Bytes) (position : Nat) (text after : Bytes) : Prop where
  length : after.length = memory.length
  room : position + text.length ≤ memory.length
  front : after.take (position + text.length) = memory.take position ++ text

section Memory

variable {memory middle after front back text : Bytes} {position : Nat}

theorem write_run (room : position + text.length ≤ memory.length) :
    Exists fun after => write position text memory = (.ok (), after) ∧
      Left memory position text after := by
  have here : (memory.take position).length = position := by
    rw [List.length_take]
    omega
  refine ⟨_, if_pos room, ?_, room, ?_⟩
  · simp only [List.length_append, List.length_drop, here]
    omega
  · have shape : (memory.take position ++ text).length = position + text.length := by
      rw [List.length_append, here]
    rw [← shape, List.take_left]

theorem Left.nil (inside : position ≤ memory.length) : Left memory position [] memory where
  length := rfl
  room := inside
  front := by simp

/-- The second text is written behind the first. -/
theorem Left.append (first : Left memory position front middle)
    (second : Left middle (position + front.length) back after) :
    Left memory position (front ++ back) after where
  length := second.length.trans first.length
  room := by
    have room := second.room
    rw [first.length] at room
    rw [List.length_append, ← Nat.add_assoc]
    exact room
  front := by
    rw [List.length_append, ← Nat.add_assoc, second.front, first.front, List.append_assoc]

/-- The end of a text may be written over. -/
theorem Left.forget (left : Left memory position (front ++ back) after) :
    Left memory position front after := by
  have room := left.room
  rw [List.length_append] at room
  have here : (memory.take position ++ front).length = position + front.length := by
    rw [List.length_append, List.length_take, Nat.min_eq_left (by omega)]
  refine ⟨left.length, by omega, ?_⟩
  have shorter := congrArg (List.take (position + front.length)) left.front
  rw [List.take_take, List.length_append, Nat.min_eq_left (by omega), ← List.append_assoc] at shorter
  rw [shorter, ← here, List.take_left]

/-- A text that fills the memory is all that is there. -/
theorem Left.eq_of_full (left : Left memory 0 text after) (full : memory.length = text.length) :
    after = text := by
  have front := left.front
  rw [Nat.zero_add, ← full, ← left.length, List.take_length, List.take_zero, List.nil_append] at front
  exact front

end Memory

/-! ## What a piece does -/

/-- The piece has this text, and at most one more byte is written behind it.
The scratch array has some size. -/
structure Emits (scratch : Nat) (text behind : Bytes) (piece : Piece) : Prop where
  counts : forall memory : Bytes, memory.length = scratch -> Exists fun after : Bytes =>
    after.length = scratch ∧ piece none memory = (addLengths 0 text.length, after)
  writes : forall (position : Nat) (memory : Bytes), position + text.length < memory.length ->
    text.length < 2 ^ 31 -> Exists fun after =>
      piece (some position) memory = (.ok text.length, after) ∧
        Left memory position (text ++ behind) after

/-- The same of steps that move a cursor. -/
structure Moves (scratch : Nat) (text behind : Bytes) (steps : Cursor -> Action Bytes Cursor) :
    Prop where
  counts : forall (total : Nat) (memory : Bytes), memory.length = scratch -> total < 2 ^ 31 ->
    Exists fun after : Bytes => after.length = scratch ∧ steps ⟨none, total⟩ memory =
      ((addLengths total text.length).map (fun total => ⟨none, total⟩), after)
  writes : forall (position total : Nat) (memory : Bytes),
    position + text.length < memory.length -> total + text.length < 2 ^ 31 -> Exists fun after =>
      steps ⟨some position, total⟩ memory =
          (.ok ⟨some (position + text.length), total + text.length⟩, after) ∧
        Left memory position (text ++ behind) after

section Pieces

variable {scratch : Nat} {text behind front back last : Bytes} {piece : Piece}
  {first second steps : Cursor -> Action Bytes Cursor}

theorem addLengths_of_lt {total written : Nat} (small : total + written < 2 ^ 31) :
    addLengths total written = .ok (total + written) :=
  if_pos small

theorem addLengths_of_le {total written : Nat} (large : 2 ^ 31 ≤ total + written) :
    addLengths total written = .error .conversion :=
  if_neg (Nat.not_lt.mpr large)

theorem moves_append (emits : Emits scratch text behind piece) :
    Moves scratch text behind (append piece) where
  counts := by
    intro total memory isScratch small
    rcases emits.counts memory isScratch with ⟨after, length, ran⟩
    refine ⟨after, length, ?_⟩
    unfold append
    by_cases fits : total + text.length < 2 ^ 31
    · rw [addLengths_of_lt (by omega), Nat.zero_add] at ran
      rw [bind_of_ok ran, bind_ofExcept (addLengths_of_lt fits), addLengths_of_lt fits]
      rfl
    · have overflows := addLengths_of_le (Nat.not_lt.mp fits)
      rw [overflows]
      by_cases short : text.length < 2 ^ 31
      · rw [addLengths_of_lt (by omega), Nat.zero_add] at ran
        rw [bind_of_ok ran]
        exact bind_of_error (congrArg (fun answer => (answer, after)) overflows)
      · rw [addLengths_of_le (by omega)] at ran
        exact bind_of_error ran
  writes := by
    intro position total memory room fits
    rcases emits.writes position memory room (by omega) with ⟨after, ran, left⟩
    refine ⟨after, ?_, left⟩
    unfold append
    rw [bind_of_ok ran, bind_ofExcept (addLengths_of_lt fits)]
    rfl

theorem emits_run (moves : Moves scratch text behind steps) :
    Emits scratch text behind (run steps) where
  counts := by
    intro memory isScratch
    rcases moves.counts 0 memory isScratch (by decide) with ⟨after, length, ran⟩
    refine ⟨after, length, ?_⟩
    unfold run
    by_cases short : 0 + text.length < 2 ^ 31
    · rw [addLengths_of_lt short] at ran ⊢
      rw [bind_of_ok ran]
      rfl
    · rw [addLengths_of_le (Nat.not_lt.mp short)] at ran ⊢
      exact bind_of_error ran
  writes := by
    intro position memory room short
    rcases moves.writes position 0 memory room (by omega) with ⟨after, ran, left⟩
    refine ⟨after, ?_, left⟩
    unfold run
    rw [bind_of_ok ran, Nat.zero_add]
    rfl

theorem moves_pure : Moves scratch [] [] pure where
  counts := by
    intro total memory isScratch small
    exact ⟨memory, isScratch, by rw [addLengths_of_lt (by simpa using small)]; rfl⟩
  writes := by
    intro position total memory room _
    exact ⟨memory, rfl, Left.nil (Nat.le_of_lt (by simpa using room))⟩

theorem Moves.forget (moves : Moves scratch text behind steps) : Moves scratch text [] steps where
  counts := moves.counts
  writes := by
    intro position total memory room fits
    rcases moves.writes position total memory room fits with ⟨after, ran, left⟩
    refine ⟨after, ran, ?_⟩
    rw [List.append_nil]
    exact left.forget

theorem moves_onlyIf (condition : Bool) (moves : Moves scratch text behind steps) :
    Moves scratch (if condition then text else []) [] (onlyIf condition steps) := by
  cases condition with
  | false => exact moves_pure
  | true => exact moves.forget

/-- Texts are written one behind the other. -/
theorem moves_then (movesFirst : Moves scratch front behind first)
    (movesSecond : Moves scratch back last second) :
    Moves scratch (front ++ back) last (first >=> second) where
  counts := by
    intro total memory isScratch small
    rcases movesFirst.counts total memory isScratch small with ⟨middle, length, ran⟩
    by_cases fits : total + front.length < 2 ^ 31
    · rcases movesSecond.counts (total + front.length) middle length fits with
        ⟨after, lengthAfter, ranSecond⟩
      rw [addLengths_of_lt fits] at ran
      refine ⟨after, lengthAfter, (bind_of_ok ran).trans (ranSecond.trans ?_)⟩
      unfold addLengths
      rw [List.length_append, Nat.add_assoc]
    · rw [addLengths_of_le (Nat.not_lt.mp fits)] at ran
      refine ⟨middle, length, (bind_of_error ran).trans ?_⟩
      rw [List.length_append, addLengths_of_le (by omega)]
      rfl
  writes := by
    intro position total memory room fits
    rw [List.length_append] at room fits
    rcases movesFirst.forget.writes position total memory (by omega) (by omega) with
      ⟨middle, ran, left⟩
    rw [List.append_nil] at left
    rcases movesSecond.writes (position + front.length) (total + front.length) middle
      (by rw [left.length]; omega) (by omega) with ⟨after, ranSecond, leftSecond⟩
    refine ⟨after, (bind_of_ok ran).trans (ranSecond.trans ?_), ?_⟩
    · rw [List.length_append, Nat.add_assoc, Nat.add_assoc]
    · rw [List.append_assoc]
      exact left.append leftSecond

/-- A string is counted, or written with its NUL. -/
theorem sprintf_run {position : Nat} {memory : Bytes}
    (room : position + text.length < memory.length) : Exists fun after =>
      sprintf position text memory = (.ok text.length, after) ∧
        Left memory position (text ++ [0]) after := by
  have roomNul : position + (text ++ [0]).length ≤ memory.length := by
    rw [List.length_append, List.length_singleton]
    omega
  rcases write_run roomNul with ⟨after, ran, left⟩
  exact ⟨after, bind_of_ok ran, left⟩

theorem moves_appendChar (c : UInt8) : Moves scratch [c] [] (appendChar c) := by
  apply moves_append
  constructor
  · intro memory isScratch
    exact ⟨memory, isScratch, rfl⟩
  · intro position memory room _
    rcases write_run (Nat.le_of_lt room) with ⟨after, ran, left⟩
    exact ⟨after, bind_of_ok ran, left⟩

/-- Both passes over a piece that ends with a NUL: the length is counted, and
memory of one byte more is filled with the text and the NUL. -/
theorem Emits.fills (emits : Emits scratch text [0] piece) (short : text.length < 2 ^ 31)
    {memory : Bytes} (room : memory.length = text.length + 1) :
    piece (some 0) memory = (.ok text.length, text ++ [0]) := by
  rcases emits.writes 0 memory (by omega) short with ⟨after, ran, left⟩
  have full : memory.length = (text ++ [0]).length := by
    rw [List.length_append, List.length_singleton]
    exact room
  rw [ran, left.eq_of_full full]

end Pieces
end Cursor
end ChatHub
