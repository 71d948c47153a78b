import Mathlib.Data.List.Basic

/-! Sequences cut into blocks of one capacity, filled one after the other. -/

namespace Blocks

variable {α : Type} {capacity : Nat}

/-- Every block but the last is full, and the last one is neither empty nor over its capacity. -/
structure Packed (capacity : Nat) (chain : List (List α)) : Prop where
  full : ∀ block ∈ chain.dropLast, block.length = capacity
  tail : ∀ block ∈ chain.getLast?, 0 < block.length ∧ block.length ≤ capacity

/-- Nothing is packed into no blocks. -/
theorem packed_nil : Packed capacity ([] : List (List α)) :=
  -- There is no block that could be too long or too short.
  ⟨by simp, by simp⟩

/-- A chain with a last block is packed when the blocks before it are full. -/
theorem packed_concat {front : List (List α)} {last : List α} :
    Packed capacity (front ++ [last]) ↔
      (∀ block ∈ front, block.length = capacity) ∧ 0 < last.length ∧ last.length ≤ capacity := by
  -- All blocks before the last are full; the last one is neither empty nor too long.
  constructor
  · rintro ⟨full, tail⟩
    exact ⟨by simpa using full, tail last (by simp)⟩
  · rintro ⟨full, tail⟩
    exact ⟨by simpa using full, by simpa using tail⟩

/-- The items in full blocks are counted by the blocks. -/
theorem flatten_full {front : List (List α)} (full : ∀ block ∈ front, block.length = capacity) :
    front.flatten.length = front.length * capacity := by
  -- Induction on the blocks: each one adds its capacity.
  induction front with
  | nil => simp
  | cons block rest ih =>
    have own := full block (by simp)
    have others := ih fun block found => full block (by simp [found])
    rw [List.flatten_cons, List.length_append, own, others, List.length_cons, Nat.add_one_mul]
    omega

/-- A packed chain has as many blocks as its items need. -/
theorem packed_length {chain : List (List α)} (packed : Packed capacity chain)
    (positive : 0 < capacity) :
    chain.length = (chain.flatten.length + (capacity - 1)) / capacity := by
  rcases chain.eq_nil_or_concat with rfl | ⟨front, last, rfl⟩
  · symm
    simp only [List.flatten_nil, List.length_nil, Nat.zero_add]
    exact Nat.div_eq_of_lt (by omega)
  · -- The full blocks take their share exactly, and the last one rounds up to one.
    rw [List.concat_eq_append] at packed ⊢
    obtain ⟨full, nonempty, fits⟩ := packed_concat.mp packed
    have shape : (front ++ [last]).flatten.length + (capacity - 1) =
        capacity * front.length + (last.length + (capacity - 1)) := by
      rw [List.flatten_append, List.length_append, flatten_full full, Nat.mul_comm]
      simp
      omega
    have one : (last.length + (capacity - 1)) / capacity = 1 := by
      apply Nat.div_eq_of_lt_le
      · omega
      · omega
    rw [shape, Nat.mul_add_div positive, one]
    simp

/-- A packed chain whose last block is full takes a new block. -/
theorem Packed.grow {front : List (List α)} {last new : List α}
    (packed : Packed capacity (front ++ [last])) (full : last.length = capacity)
    (nonempty : 0 < new.length) (fits : new.length ≤ capacity) :
    Packed capacity (front ++ [last] ++ [new]) := by
  -- The last block is full, so it may stand before a new one.
  obtain ⟨others, -⟩ := packed_concat.mp packed
  refine packed_concat.mpr ⟨fun block found => ?_, nonempty, fits⟩
  rcases List.mem_append.mp found with earlier | final
  · exact others block earlier
  · rw [List.mem_singleton.mp final]
    exact full

/-- The last block of a packed chain takes more items while they fit. -/
theorem Packed.extend {front : List (List α)} {last more : List α}
    (packed : Packed capacity (front ++ [last]))
    (fits : last.length + more.length ≤ capacity) :
    Packed capacity (front ++ [last ++ more]) := by
  -- The blocks before the last one stay as they are.
  obtain ⟨others, nonempty, -⟩ := packed_concat.mp packed
  refine packed_concat.mpr ⟨others, ?_, ?_⟩
  · rw [List.length_append]
    omega
  · rw [List.length_append]
    exact fits

end Blocks
