import Mathlib.Data.List.Basic

namespace ChatHub

/-!
# Blocks in a stream

A sender writes every item as one block, and a stream has no marks between the
blocks.  What is on its way is then known from the items that were not read
yet.  Writing adds a block at the end.  A reader that takes exactly one block
from the front leaves the blocks of the other items, and this is also seen when
a part of the stream has arrived before the rest.
-/

universe u v

variable {Item : Type u} {Element : Type v} {block : Item -> List Element}

/-- The stream consists of the blocks of the items. -/
def Carries (block : Item -> List Element) (stream : List Element) (items : List Item) : Prop :=
  stream = items.flatMap block

namespace Carries

variable {stream front back : List Element} {item : Item} {items more : List Item}

theorem nil : Carries block [] [] :=
  rfl

/-- Blocks are written at the end. -/
theorem writes (carries : Carries block stream items) :
    Carries block (stream ++ more.flatMap block) (items ++ more) := by
  unfold Carries at carries ⊢
  rw [carries, List.flatMap_append]

theorem write (carries : Carries block stream items) (item : Item) :
    Carries block (stream ++ block item) (items ++ [item]) := by
  have written := @writes _ _ _ _ _ [item] carries
  rwa [List.flatMap_singleton] at written

/-- The first block is at the front, and the others are behind it. -/
theorem first (carries : Carries block stream (item :: items)) :
    stream.take (block item).length = block item ∧
      Carries block (stream.drop (block item).length) items := by
  unfold Carries at carries ⊢
  rw [carries, List.flatMap_cons, List.take_left, List.drop_left]
  exact ⟨rfl, rfl⟩

/-- A part that is as long as the first block starts with it. -/
theorem first_arrived (carries : Carries block (front ++ back) (item :: items))
    (whole : (block item).length ≤ front.length) :
    front = block item ++ front.drop (block item).length ∧
      Carries block (front.drop (block item).length ++ back) items := by
  rcases carries.first with ⟨isBlock, others⟩
  rw [List.take_append_of_le_length whole] at isBlock
  rw [List.drop_append_of_le_length whole] at others
  refine ⟨?_, others⟩
  calc
    front = front.take (block item).length ++ front.drop (block item).length :=
      (List.take_append_drop _ _).symm
    _ = block item ++ front.drop (block item).length := by rw [isBlock]

/-- An empty stream carries nothing, unless a block can be empty. -/
theorem eq_nil (carries : Carries block [] items) (nonempty : forall item, block item ≠ []) :
    items = [] := by
  cases items with
  | nil => rfl
  | cons item items =>
      have empty := List.flatMap_eq_nil_iff.mp carries.symm item List.mem_cons_self
      exact absurd empty (nonempty item)

/-- Blocks of one size add up. -/
theorem length {size : Nat} (carries : Carries block stream items)
    (sized : forall item, item ∈ items -> (block item).length = size) :
    stream.length = items.length * size := by
  rw [show stream = items.flatMap block from carries, List.length_flatMap,
    List.map_congr_left sized, List.map_const', List.sum_replicate_nat]

end Carries
end ChatHub
