import Mathlib.Data.List.Basic

/-! Tables as text: a terminator after every line, a separator between the fields of a line. -/

namespace Delimited

variable {α : Type*}

/-- Lines, each with its terminator. -/
def unlines (terminator : α) (lines : List (List α)) : List α :=
  lines.flatMap (· ++ [terminator])

/-- A table as text. -/
def encode (separator terminator : α) (rows : List (List (List α))) : List α :=
  unlines terminator (rows.map ([separator].intercalate ·))

/-- Every row has a field, and no field has a separator or a terminator. -/
def Clean (separator terminator : α) (rows : List (List (List α))) : Prop :=
  ∀ row ∈ rows, row ≠ [] ∧ ∀ field ∈ row, separator ∉ field ∧ terminator ∉ field

/-- Terminated lines are separated lines before an empty one. -/
theorem unlines_eq_intercalate (terminator : α) (lines : List (List α)) :
    unlines terminator lines = [terminator].intercalate (lines ++ [[]]) := by
  -- Induction on the lines: each one but the last is followed by the terminator.
  induction lines with
  | nil => rfl
  | cons first rest ih =>
    obtain ⟨second, others, shape⟩ :=
      List.exists_cons_of_ne_nil (List.append_ne_nil_of_right_ne_nil rest (List.cons_ne_nil [] []))
    rw [unlines, List.flatMap_cons, ← unlines, ih, List.cons_append, shape,
      List.intercalate_cons_cons]

/-- What is neither the separator nor in a field is not in the joined text. -/
theorem not_mem_intercalate {separator x : α} {fields : List (List α)} (other : x ≠ separator)
    (clean : ∀ field ∈ fields, x ∉ field) : x ∉ [separator].intercalate fields := by
  -- Induction on the fields.
  induction fields with
  | nil => simp
  | cons first rest ih =>
    have later := ih fun field found => clean field (List.mem_cons_of_mem first found)
    cases rest with
    | nil => simpa using clean first List.mem_cons_self
    | cons second others =>
      rw [List.intercalate_cons_cons]
      simp [clean first List.mem_cons_self, other, later]

/-- What is in a field is in the joined text. -/
theorem mem_intercalate {separator x : α} {fields : List (List α)} {field : List α}
    (found : field ∈ fields) (inside : x ∈ field) : x ∈ [separator].intercalate fields := by
  -- Induction on the fields: it is in the first one or in the rest.
  induction fields with
  | nil => exact absurd found List.not_mem_nil
  | cons first rest ih =>
    cases rest with
    | nil =>
      rw [List.mem_singleton] at found
      simpa [← found] using inside
    | cons second others =>
      rw [List.intercalate_cons_cons]
      rcases List.mem_cons.mp found with rfl | later
      · simp [inside]
      · simp [ih later]

variable [DecidableEq α]

/-- The lines of a text, if its last line has its terminator too. -/
def lines (terminator : α) (text : List α) : Option (List (List α)) :=
  if (text.splitOn terminator).getLast? = some [] then some (text.splitOn terminator).dropLast
  else none

/-- The table that a text is. -/
def decode (separator terminator : α) (text : List α) : Option (List (List (List α))) :=
  (lines terminator text).map (·.map (·.splitOn separator))

/-- The pieces between the occurrences of a separator do not have it. -/
theorem not_mem_of_mem_splitOn {separator : α} {text piece : List α}
    (found : piece ∈ text.splitOn separator) : separator ∉ piece := by
  -- Another element goes to the first piece, and the separator opens a new one.
  induction text generalizing piece with
  | nil =>
    have only : piece = [] := by simpa using found
    simp [only]
  | cons first rest ih =>
    rw [List.splitOn_cons_eq_if_modifyHead] at found
    by_cases same : first = separator
    · rw [if_pos (by simpa using same), List.mem_cons] at found
      rcases found with rfl | later
      · exact List.not_mem_nil
      · exact ih later
    · rw [if_neg (by simpa using same)] at found
      obtain ⟨head, tail, shape⟩ := List.exists_cons_of_ne_nil (List.splitOn_ne_nil separator rest)
      rw [shape, List.modifyHead_cons, List.mem_cons] at found
      rcases found with rfl | later
      · have clean := ih (shape ▸ List.mem_cons_self)
        simp [clean, Ne.symm same]
      · exact ih (shape ▸ List.mem_cons_of_mem head later)

/-- A text has certain lines exactly when it is made of them and none has the terminator. -/
theorem lines_eq_some {terminator : α} {text : List α} {parts : List (List α)} :
    lines terminator text = some parts ↔
      unlines terminator parts = text ∧ ∀ line ∈ parts, terminator ∉ line := by
  constructor
  · intro read
    unfold lines at read
    split at read
    · next last =>
      -- The pieces are the lines and the empty rest after the last terminator.
      obtain rfl := Option.some.inj read
      have whole : (text.splitOn terminator).dropLast ++ [[]] = text.splitOn terminator := by
        rw [List.dropLast_append_getLast? [] last]
      refine ⟨?_, fun line found => not_mem_of_mem_splitOn (List.dropLast_subset _ found)⟩
      rw [unlines_eq_intercalate, whole, List.intercalate_splitOn]
    · cases read
  · rintro ⟨rfl, clean⟩
    have split : (unlines terminator parts).splitOn terminator = parts ++ [[]] := by
      rw [unlines_eq_intercalate]
      refine List.splitOn_intercalate terminator ?_ (by simp)
      intro line found
      rcases List.mem_append.mp found with inside | last
      · exact clean line inside
      · simp [List.mem_singleton.mp last]
    simp [lines, split]

/-- Decoding and encoding are inverse to each other, exactly on the clean tables. -/
theorem decode_eq_some {separator terminator : α} (different : separator ≠ terminator)
    {text : List α} {rows : List (List (List α))} :
    decode separator terminator text = some rows ↔
      encode separator terminator rows = text ∧ Clean separator terminator rows := by
  constructor
  · intro read
    obtain ⟨parts, cut, rfl⟩ := Option.map_eq_some_iff.mp read
    obtain ⟨whole, clean⟩ := lines_eq_some.mp cut
    refine ⟨?_, ?_⟩
    · -- Joining the fields of a line gives the line.
      have same : (parts.map (·.splitOn separator)).map ([separator].intercalate ·) = parts := by
        simp [Function.comp_def]
      rw [encode, same, whole]
    · intro row found
      obtain ⟨line, inside, rfl⟩ := List.mem_map.mp found
      refine ⟨List.splitOn_ne_nil separator line, fun field part =>
        ⟨not_mem_of_mem_splitOn part, fun bad => clean line inside ?_⟩⟩
      have whole : [separator].intercalate (line.splitOn separator) = line :=
        List.intercalate_splitOn separator
      rw [← whole]
      exact mem_intercalate part bad
  · rintro ⟨rfl, clean⟩
    have cut : lines terminator (encode separator terminator rows) =
        some (rows.map ([separator].intercalate ·)) := by
      refine lines_eq_some.mpr ⟨rfl, fun line found => ?_⟩
      obtain ⟨row, inside, rfl⟩ := List.mem_map.mp found
      exact not_mem_intercalate (Ne.symm different) fun field part =>
        ((clean row inside).2 field part).2
    -- Each row is split again where it was joined.
    have same : (rows.map ([separator].intercalate ·)).map (·.splitOn separator) = rows := by
      rw [List.map_map]
      refine (List.map_congr_left fun row inside => ?_).trans (List.map_id rows)
      exact List.splitOn_intercalate separator
        (fun field part => ((clean row inside).2 field part).1) (clean row inside).1
    rw [decode, cut, Option.map_some, same]

end Delimited
