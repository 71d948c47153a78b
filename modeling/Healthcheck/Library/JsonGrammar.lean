import Healthcheck.Library.Json

/-! A text decodes to a value exactly when its tokens are those the value is written with. -/

namespace Json

/-- The last item of an array stands without a comma. -/
@[simp] theorem itemTokens_last (value : Value) : itemTokens [value] = value.tokens := by
  -- Nothing follows that a comma would have to separate.
  simp [itemTokens, separator]

/-- An item before others is followed by a comma. -/
theorem itemTokens_more (value : Value) {rest : List Value} (more : rest ≠ []) :
    itemTokens (value :: rest) = value.tokens ++ .comma :: itemTokens rest := by
  -- The rest is not empty.
  simp [itemTokens, separator, more]

/-- The last member of an object stands without a comma. -/
@[simp] theorem memberTokens_last (key : List UInt8) (value : Value) :
    memberTokens [(key, value)] = .string key :: .colon :: value.tokens := by
  -- Nothing follows that a comma would have to separate.
  simp [memberTokens, separator]

/-- A member before others is followed by a comma. -/
theorem memberTokens_more (key : List UInt8) (value : Value) {rest : List (List UInt8 × Value)}
    (more : rest ≠ []) : memberTokens ((key, value) :: rest) =
      .string key :: .colon :: (value.tokens ++ .comma :: memberTokens rest) := by
  -- The rest is not empty.
  simp [memberTokens, separator, more]

/-- What the three readers promise about what they read. -/
structure Sound (fuel : Nat) : Prop where
  value : ∀ {tokens rest value}, parseValue fuel tokens = some (value, rest) →
    tokens = value.tokens ++ rest
  items : ∀ {tokens rest items}, parseItems fuel tokens = some (items, rest) →
    items ≠ [] ∧ tokens = itemTokens items ++ .closeArray :: rest
  members : ∀ {tokens rest members}, parseMembers fuel tokens = some (members, rest) →
    members ≠ [] ∧ tokens = memberTokens members ++ .closeObject :: rest

section Step

variable {fuel : Nat} (ih : Sound fuel) {tokens rest : List Token}

include ih

/-- A value that was parsed is what its tokens say. -/
theorem value_sound {value : Value} (read : parseValue (fuel + 1) tokens = some (value, rest)) :
    tokens = value.tokens ++ rest := by
  unfold parseValue at read
  split at read
  case h_6 =>
    obtain ⟨⟨items, after⟩, inner, same⟩ := Option.map_eq_some_iff.mp read
    cases same
    simpa [Value.tokens] using (ih.items inner).2
  case h_8 =>
    obtain ⟨⟨members, after⟩, inner, same⟩ := Option.map_eq_some_iff.mp read
    cases same
    simpa [Value.tokens] using (ih.members inner).2
  -- The other productions have no parts.
  all_goals cases read
  all_goals simp [Value.tokens, itemTokens, memberTokens]

/-- The items that were parsed are what their tokens say, and there is at least one. -/
theorem items_sound {items : List Value}
    (read : parseItems (fuel + 1) tokens = some (items, rest)) :
    items ≠ [] ∧ tokens = itemTokens items ++ .closeArray :: rest := by
  -- The first item is a value; a comma leads to more of them, and a bracket ends the array.
  unfold parseItems at read
  obtain ⟨⟨value, after⟩, first, read⟩ := Option.bind_eq_some_iff.mp read
  have whole := ih.value first
  match after, whole, read with
  | .closeArray :: after, whole, read =>
    cases read
    exact ⟨by simp, by simpa using whole⟩
  | .comma :: after, whole, read =>
    obtain ⟨⟨later, after'⟩, inner, same⟩ := Option.map_eq_some_iff.mp read
    cases same
    obtain ⟨more, suffix⟩ := ih.items inner
    refine ⟨by simp, ?_⟩
    rw [whole, suffix, itemTokens_more value more]
    simp

/-- The members that were parsed are what their tokens say, and there is at least one. -/
theorem members_sound {members : List (List UInt8 × Value)}
    (read : parseMembers (fuel + 1) tokens = some (members, rest)) :
    members ≠ [] ∧ tokens = memberTokens members ++ .closeObject :: rest := by
  -- A member is a key, a colon and a value; what comes next decides as for items.
  unfold parseMembers at read
  match tokens, read with
  | .string key :: .colon :: tokens, read =>
    obtain ⟨⟨value, after⟩, first, read⟩ := Option.bind_eq_some_iff.mp read
    have whole := ih.value first
    match after, whole, read with
    | .closeObject :: after, whole, read =>
      cases read
      exact ⟨by simp, by simpa using whole⟩
    | .comma :: after, whole, read =>
      obtain ⟨⟨later, after'⟩, inner, same⟩ := Option.map_eq_some_iff.mp read
      cases same
      obtain ⟨more, suffix⟩ := ih.members inner
      refine ⟨by simp, ?_⟩
      rw [whole, suffix, memberTokens_more key value more]
      simp

end Step

/-- All three parsers are sound at every fuel. -/
theorem parse_sound (fuel : Nat) : Sound fuel := by
  -- Induction on the fuel, for the three parsers at once.
  induction fuel with
  | zero => exact ⟨by simp [parseValue], by simp [parseItems], by simp [parseMembers]⟩
  | succ fuel ih => exact ⟨value_sound ih, items_sound ih, members_sound ih⟩

/-- The three readers read what was written, when they have a unit of fuel for each token. -/
structure Complete (fuel : Nat) : Prop where
  value : ∀ {value : Value}, value.tokens.length ≤ fuel → ∀ rest,
    parseValue fuel (value.tokens ++ rest) = some (value, rest)
  items : ∀ {items : List Value}, items ≠ [] → (itemTokens items).length < fuel → ∀ rest,
    parseItems fuel (itemTokens items ++ .closeArray :: rest) = some (items, rest)
  members : ∀ {members : List (List UInt8 × Value)}, members ≠ [] →
    (memberTokens members).length < fuel → ∀ rest,
    parseMembers fuel (memberTokens members ++ .closeObject :: rest) = some (members, rest)

/-- No value starts with the end of an array. -/
theorem tokens_head (value : Value) : ∃ first more, value.tokens = first :: more ∧
    first ≠ .closeArray := by
  -- No value starts with a closing bracket.
  cases value <;> exact ⟨_, _, rfl, by simp⟩

/-- An array that does not end at once has items. -/
theorem parseValue_array {fuel : Nat} {first : Token} (more : List Token)
    (item : first ≠ .closeArray) : parseValue (fuel + 1) (.openArray :: first :: more) =
      (parseItems fuel (first :: more)).map fun items => (.array items.1, items.2) := by
  -- The only other case of the parser is a closing bracket.
  cases first <;> first | rfl | contradiction

section Step

variable {fuel : Nat} (ih : Complete fuel)

include ih

/-- The tokens of a value are parsed to it, and the rest is left. -/
theorem value_complete {value : Value} (enough : value.tokens.length ≤ fuel + 1)
    (rest : List Token) : parseValue (fuel + 1) (value.tokens ++ rest) = some (value, rest) := by
  -- An array or an object is left to the parser of its items or members.
  cases value with
  | null | bool | number | string => simp [Value.tokens, parseValue]
  | array items =>
    cases items with
    | nil => simp [Value.tokens, itemTokens, parseValue]
    | cons value others =>
      have room : (itemTokens (value :: others)).length < fuel := by
        simp only [Value.tokens, List.length_cons, List.length_append, List.length_nil] at enough
        omega
      have inner := ih.items (by simp) room rest
      obtain ⟨first, more, shape, item⟩ := tokens_head value
      simp only [itemTokens, shape, List.cons_append] at inner
      simp only [Value.tokens, itemTokens, shape, List.cons_append, List.append_assoc,
        List.nil_append, parseValue_array _ item]
      simp only [List.append_assoc] at inner
      rw [inner, Option.map_some]
  | object members =>
    cases members with
    | nil => simp [Value.tokens, memberTokens, parseValue]
    | cons member others =>
      have room : (memberTokens (member :: others)).length < fuel := by
        simp only [Value.tokens, List.length_cons, List.length_append, List.length_nil] at enough
        omega
      have inner := ih.members (by simp) room rest
      simp only [memberTokens, List.cons_append, List.append_assoc] at inner
      simp only [Value.tokens, memberTokens, List.cons_append, List.append_assoc, List.nil_append,
        parseValue, inner, Option.map_some]

/-- The tokens of items are parsed to them. -/
theorem items_complete {items : List Value} (some_ : items ≠ [])
    (enough : (itemTokens items).length < fuel + 1) (rest : List Token) :
    parseItems (fuel + 1) (itemTokens items ++ .closeArray :: rest) = some (items, rest) := by
  -- The last item is followed by the bracket, any other one by a comma.
  match items, some_, enough with
  | [value], _, enough =>
    rw [itemTokens_last] at enough ⊢
    have first : parseValue fuel (value.tokens ++ .closeArray :: rest) = _ :=
      ih.value (by omega) _
    simp [parseItems, first]
  | value :: next :: others, _, enough =>
    rw [itemTokens_more value (by simp)] at enough ⊢
    rw [List.length_append, List.length_cons] at enough
    have first : ∀ after, parseValue fuel (value.tokens ++ after) = some (value, after) :=
      ih.value (by omega)
    have later := ih.items (List.cons_ne_nil next others) (by omega) rest
    rw [List.append_assoc, List.cons_append]
    simp [parseItems, first, later]

/-- The tokens of members are parsed to them. -/
theorem members_complete {members : List (List UInt8 × Value)} (some_ : members ≠ [])
    (enough : (memberTokens members).length < fuel + 1) (rest : List Token) :
    parseMembers (fuel + 1) (memberTokens members ++ .closeObject :: rest) =
      some (members, rest) := by
  -- The last member is followed by the brace, any other one by a comma.
  match members, some_, enough with
  | [(key, value)], _, enough =>
    rw [memberTokens_last] at enough ⊢
    rw [List.length_cons, List.length_cons] at enough
    have first : parseValue fuel (value.tokens ++ .closeObject :: rest) = _ :=
      ih.value (by omega) _
    simp [parseMembers, first]
  | (key, value) :: next :: others, _, enough =>
    rw [memberTokens_more key value (by simp)] at enough ⊢
    simp only [List.length_append, List.length_cons] at enough
    have first : ∀ after, parseValue fuel (value.tokens ++ after) = some (value, after) :=
      ih.value (by omega)
    have later := ih.members (List.cons_ne_nil next others) (by omega) rest
    simp only [List.append_assoc, List.cons_append]
    simp [parseMembers, first, later]

end Step

/-- A value has at least one token. -/
theorem tokens_pos (value : Value) : 0 < value.tokens.length := by
  -- It has a first one.
  obtain ⟨first, more, shape, _⟩ := tokens_head value
  simp [shape]

/-- All three parsers are complete at every fuel. -/
theorem parse_complete (fuel : Nat) : Complete fuel := by
  -- Induction on the fuel, for the three parsers at once.
  induction fuel with
  | zero =>
    refine ⟨fun {value} enough => ?_, fun _ enough => ?_, fun _ enough => ?_⟩
    · have := tokens_pos value
      omega
    · omega
    · omega
  | succ fuel ih => exact ⟨value_complete ih, items_complete ih, members_complete ih⟩

/-- A sequence of tokens is parsed to a value exactly when it is that of the value. -/
theorem parse_eq_some {tokens : List Token} {value : Value} :
    parse tokens = some value ↔ tokens = value.tokens := by
  -- The parsers are sound, and complete with as much fuel as there are tokens.
  constructor
  · intro read
    unfold parse at read
    split at read
    · rename_i parsed whole
      cases read
      simpa using (parse_sound _).value whole
    · cases read
  · rintro rfl
    have read := (parse_complete _).value (Nat.le_refl value.tokens.length) []
    rw [List.append_nil] at read
    simp [parse, read]

/-- A text is one document exactly when its tokens are those of a value. -/
theorem decode_eq_some {bytes : List UInt8} {value : Value} :
    decode bytes = some value ↔ lex bytes = some value.tokens := by
  -- The grammar is settled, so only the lexer is left.
  simp only [decode, Option.bind_eq_some_iff, parse_eq_some]
  constructor
  · rintro ⟨tokens, cut, rfl⟩
    exact cut
  · intro cut
    exact ⟨_, cut, rfl⟩

end Json
