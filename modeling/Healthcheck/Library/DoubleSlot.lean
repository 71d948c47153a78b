import Mathlib.Data.Fin.Basic
import Mathlib.Logic.Function.Basic

/-!
Two slots and one word: a record is written whole into the slot the word does not name, and one
store of the word then makes it the current one. The word's other bits carry a tag.
-/

/-- A doubly buffered record. -/
structure DoubleSlot (α : Type) where
  /-- The word readers load; its lowest bit names the current slot. -/
  published : Nat
  slots : Fin 2 → α

namespace DoubleSlot

variable {α : Type}

/-- The slot named by the lowest bit of a word. -/
def index (word : Nat) : Fin 2 :=
  Fin.ofNat 2 (word &&& 1)

/-- The record in the slot the word names. -/
def current (d : DoubleSlot α) : α :=
  d.slots (index d.published)

/-- The number of the slot the word does not name. -/
def spare (d : DoubleSlot α) : Nat :=
  (d.published &&& 1) ^^^ 1

/-- Filling the spare slot and storing a word that names it together with a tag. -/
def publish (tag : Nat) (d : DoubleSlot α) (a : α) : DoubleSlot α :=
  { published := d.spare ||| tag
    slots := Function.update d.slots (index d.spare) a }

/-- The lowest bit of a word is zero or one. -/
theorem and_one_cases (word : Nat) : word &&& 1 = 0 ∨ word &&& 1 = 1 := by
  -- The lowest bit is the remainder modulo two.
  rw [Nat.and_one_is_mod]
  omega

/-- The spare slot is numbered zero or one. -/
theorem spare_lt (d : DoubleSlot α) : d.spare < 2 := by
  -- One bit is kept and then flipped.
  unfold spare
  rcases and_one_cases d.published with bit | bit <;> rw [bit] <;> decide

/-- The spare slot is not the current one. -/
theorem index_spare_ne (d : DoubleSlot α) : index d.spare ≠ index d.published := by
  -- The lowest bit of the spare slot is the other one.
  unfold index spare
  rcases and_one_cases d.published with bit | bit <;> rw [bit] <;> decide

/-- A tag without the lowest bit does not disturb the slot number. -/
theorem index_or_tag {tag : Nat} (slot : Nat) (even : tag % 2 = 0) :
    index (slot ||| tag) = index slot := by
  -- An even tag leaves the lowest bit alone.
  have low : (slot ||| tag) % 2 = slot % 2 := by
    have := Nat.or_mod_two_pow (a := slot) (b := tag) (n := 1)
    simp only [Nat.pow_one] at this
    rw [this, even, Nat.or_zero]
  unfold index
  rw [Nat.and_one_is_mod, Nat.and_one_is_mod, low]

/-- What was published last is what readers see. -/
theorem current_publish {tag : Nat} (even : tag % 2 = 0) (d : DoubleSlot α) (a : α) :
    (publish tag d a).current = a := by
  -- The word that is published names the slot that was written.
  simp only [current, publish, index_or_tag d.spare even, Function.update_self]

/-- The word of a publication carries exactly the tag above its slot number. -/
theorem published_div_two {tag : Nat} (d : DoubleSlot α) (a : α) :
    (publish tag d a).published / 2 = tag / 2 := by
  -- Above the lowest bit there is only the tag.
  have zero : d.spare / 2 ^ 1 = 0 := Nat.div_eq_of_lt d.spare_lt
  change (d.spare ||| tag) / 2 ^ 1 = tag / 2 ^ 1
  rw [Nat.or_div_two_pow, zero, Nat.zero_or]

/-- Writing the spare slot leaves the current record alone. -/
theorem current_update_spare (d : DoubleSlot α) (a : α) :
    Function.update d.slots (index d.spare) a (index d.published) = d.current := by
  -- The slot that is written is not the published one.
  rw [Function.update_of_ne d.index_spare_ne.symm]
  rfl

end DoubleSlot
