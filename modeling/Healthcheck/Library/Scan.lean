import Healthcheck.Library.Delimited

/-!
Scanners: they read a text from its front and leave the rest. What a scanner takes is stated for
every rest, so that texts are put together as their scanners are.
-/

/-- A scanner. -/
abbrev Scan (σ α : Type) := StateT (List σ) Option α

namespace Scan

variable {σ α β γ ν : Type}

/-- Reads a front as a value, whatever stands behind it. -/
def Takes (scan : Scan σ α) (front : List σ) (a : α) : Prop :=
  ∀ rest, scan.run (front ++ rest) = some (a, rest)

/-- Reads a value that its field stands for. -/
def convert (read : α → Option β) (scan : Scan σ α) : Scan σ β :=
  scan >>= fun a => StateT.lift (read a)

/-- Runs a scanner several times, for what it passes over. -/
def times (scan : Scan σ α) : Nat → Scan σ Unit
  | 0 => return ()
  | n + 1 => do
    let _ ← scan
    times scan n

/-- Reads rows as long as they can be read, with one guide for each of them, and returns the
guides that are left too. -/
def many (row : ν → Scan σ α) : List ν → Scan σ (List α × List ν)
  | [] => fun text => some (([], []), text)
  | guide :: guides => fun text =>
    ((row guide).run text).elim (some (([], guide :: guides), text)) fun first =>
      ((many row guides).run first.2).map fun found =>
        ((first.1 :: found.1.1, found.1.2), found.2)

/-- What a scanner reads in a text, if it takes all of it. -/
def whole (scan : Scan σ α) (text : List σ) : Option α :=
  (scan.run text).bind fun found => if found.2.isEmpty then some found.1 else none

/-- A whole text is read as what its scanner takes. -/
theorem Takes.whole {scan : Scan σ α} {text : List σ} {a : α} (takes : Takes scan text a) :
    scan.whole text = some a := by
  -- The rest is empty.
  have read := takes []
  rw [List.append_nil] at read
  rw [Scan.whole, read]
  rfl

/-- Scanners in a row take fronts in a row. -/
theorem Takes.bind {scan : Scan σ α} {next : α → Scan σ β} {front back : List σ} {a : α} {b : β}
    (first : Takes scan front a) (second : Takes (next a) back b) :
    Takes (scan >>= next) (front ++ back) b := by
  -- The second front is a part of the rest of the first one.
  intro rest
  rw [StateT.run_bind, List.append_assoc, first]
  exact second rest

/-- The last scanner of a row, and what is made of its value. -/
theorem Takes.last {scan : Scan σ α} {front : List σ} {a : α} (takes : Takes scan front a)
    (make : α → β) : Takes (scan >>= fun a => pure (make a)) front (make a) := by
  -- Nothing is read after it.
  intro rest
  rw [StateT.run_bind, takes]
  rfl

/-- A field that stands for a value. -/
theorem Takes.convert {scan : Scan σ α} {front : List σ} {a : α} {b : β} {read : α → Option β}
    (takes : Takes scan front a) (stands : read a = some b) :
    Takes (scan.convert read) front b := by
  -- Reading the value leaves the rest alone.
  intro rest
  rw [Scan.convert, StateT.run_bind, takes, Option.bind_eq_bind, Option.bind_some,
    StateT.run_lift, stands]
  rfl

/-- No time is no text. -/
theorem takes_none (scan : Scan σ α) : Takes (times scan 0) [] () :=
  fun _ => rfl

/-- One more time. -/
theorem Takes.again {scan : Scan σ α} {n : Nat} {front back : List σ} {a : α}
    (first : Takes scan front a) (others : Takes (times scan n) back ()) :
    Takes (times scan (n + 1)) (front ++ back) () :=
  first.bind others

/-- The rows of a text are read with their guides, up to a text that no guide finds a row in. -/
theorem Takes.many {row : ν → Scan σ α} {guide : γ → ν} {value : γ → α}
    {text : List γ → List σ} (empty : text [] = [])
    (each : ∀ item items, ∃ front,
      text (item :: items) = front ++ text items ∧ Takes (row (guide item)) front (value item))
    {others : List ν} {back : List σ} {next : List α × List ν → Scan σ β} {b : β}
    (stops : ∀ other ∈ others, ∀ rest, (row other).run (back ++ rest) = none)
    (items : List γ) (after : Takes (next (items.map value, others)) back b) :
    Takes (many row (items.map guide ++ others) >>= next) (text items ++ back) b := by
  -- By induction on the rows: each is read with its own guide.
  have rows : ∀ rest, (Scan.many row (items.map guide ++ others)).run
      (text items ++ (back ++ rest)) = some ((items.map value, others), back ++ rest) := by
    intro rest
    clear after
    induction items with
    | nil =>
      rw [empty, List.map_nil, List.nil_append, List.nil_append]
      cases others with
      | nil => rfl
      | cons other others =>
        -- The next guide finds no row.
        change ((row other).run (back ++ rest)).elim _ _ = _
        rw [stops other List.mem_cons_self rest]
        rfl
    | cons item items ih =>
      obtain ⟨front, shape, takes⟩ := each item items
      change ((row (guide item)).run (text (item :: items) ++ (back ++ rest))).elim _ _ = _
      rw [shape, List.append_assoc, takes]
      change ((Scan.many row (items.map guide ++ others)).run _).map _ = _
      rw [ih]
      rfl
  intro rest
  rw [StateT.run_bind, List.append_assoc, rows]
  exact after rest

/-- Rows for which there are no guides left. -/
def exhausted (found : List α × List ν) : Option (List α) :=
  if found.2.isEmpty then some found.1 else none

/-- All rows of a text are read when there is a guide for each. -/
theorem Takes.all {row : ν → Scan σ α} {guide : γ → ν} {value : γ → α} {text : List γ → List σ}
    (empty : text [] = [])
    (each : ∀ item items, ∃ front,
      text (item :: items) = front ++ text items ∧ Takes (row (guide item)) front (value item))
    (items : List γ) :
    Takes ((Scan.many row (items.map guide)).convert exhausted) (text items)
      (items.map value) := by
  -- No guide is left that could find a row in the rest.
  have rows : Takes (Scan.many row (items.map guide ++ []) >>= fun found =>
      StateT.lift (exhausted found)) (text items ++ []) (items.map value) :=
    Takes.many empty each (by simp) items fun _ => rfl
  rwa [List.append_nil, List.append_nil] at rows

variable [DecidableEq σ]

/-- Passes over a literal. -/
def expect (literal : List σ) : Scan σ Unit := fun text =>
  if literal.isPrefixOf text then some ((), text.drop literal.length) else none

/-- Reads up to the first occurrence of a mark, and passes over the mark. -/
def field (mark : σ) : Scan σ (List σ) := fun text =>
  if mark ∈ text then some (text.takeWhile (· ≠ mark), (text.dropWhile (· ≠ mark)).drop 1)
  else none

/-- A literal is taken where it stands. -/
theorem takes_expect (literal : List σ) : Takes (expect literal) literal () := by
  -- It is a prefix, and the rest is what follows it.
  intro rest
  have inside : literal.isPrefixOf (literal ++ rest) = true :=
    List.isPrefixOf_iff_prefix.mpr (List.prefix_append literal rest)
  change (if literal.isPrefixOf (literal ++ rest) then some ((), _) else none) = _
  rw [if_pos inside, List.drop_left]

/-- A literal is not found in a text that starts otherwise. -/
theorem expect_none {literal front : List σ}
    (differ : literal.take front.length ≠ front.take literal.length) (rest : List σ) :
    (expect literal).run (front ++ rest) = none := by
  -- A prefix would agree with the text as far as both go.
  have outside : ¬ literal.isPrefixOf (front ++ rest) = true := by
    intro inside
    obtain ⟨tail, whole⟩ := List.isPrefixOf_iff_prefix.mp inside
    refine differ ?_
    have cut := congrArg (List.take (min literal.length front.length)) whole
    rw [List.take_append_of_le_length (Nat.min_le_left ..),
      List.take_append_of_le_length (Nat.min_le_right ..)] at cut
    rcases Nat.le_total literal.length front.length with short | long
    · rw [Nat.min_eq_left short] at cut
      rw [List.take_of_length_le short, ← cut, List.take_length]
    · rw [Nat.min_eq_right long] at cut
      rw [cut, List.take_length, List.take_of_length_le long]
  exact if_neg outside

/-- A field without its mark is taken with the mark that ends it. -/
theorem takes_field {mark : σ} {content : List σ} (clean : mark ∉ content) :
    Takes (field mark) (content ++ [mark]) content := by
  -- No element of the field stops the scan, and the mark does.
  intro rest
  have pass : ∀ x ∈ content, decide (x ≠ mark) = true := by
    intro x found
    exact decide_eq_true fun same => clean (same ▸ found)
  have inside : mark ∈ content ++ [mark] ++ rest := by simp
  change (if mark ∈ content ++ [mark] ++ rest then some (_, _) else none) = _
  rw [if_pos inside, List.append_assoc, List.takeWhile_append_of_pos pass,
    List.dropWhile_append_of_pos pass]
  simp

/-- Fields without their mark are passed over one by one. -/
theorem takes_unlines {mark : σ} {fields : List (List σ)}
    (clean : ∀ content ∈ fields, mark ∉ content) :
    Takes (times (field mark) fields.length) (Delimited.unlines mark fields) () := by
  -- By induction on the fields.
  induction fields with
  | nil => exact takes_none _
  | cons first others ih =>
    obtain ⟨here, later⟩ := List.forall_mem_cons.mp clean
    exact (takes_field here).again (ih later)

/-- A text is passed over line by line. -/
theorem takes_lines {mark : σ} {n : Nat} {text : List σ}
    (count : (Delimited.lines mark text).map List.length = some n) :
    Takes (times (field mark) n) text () := by
  -- The text is made of its lines.
  obtain ⟨parts, read, rfl⟩ := Option.map_eq_some_iff.mp count
  obtain ⟨made, clean⟩ := Delimited.lines_eq_some.mp read
  rw [← made]
  exact takes_unlines clean

end Scan
