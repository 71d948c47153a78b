import Healthcheck.Config.Keepalive
import Healthcheck.Config.CheckLaws

/-!
The reader of the `keepalive` parameter stays within the value, comes to an end, and accepts
exactly the grammar.
-/

namespace Healthcheck

open Ascii Memory

variable {platform : Platform} {arith : Arith} {data : Nat} {value : List UInt8}

section Pointers

/-- A comparison in memory compares the bytes of the text. -/
theorem sameAt_holding {p len : Nat} {literal : List UInt8} (inside : p + len ≤ value.length) :
    sameAt (holding data value) (data + p) len literal =
      .ok (equalFold ((value.drop p).take len) literal) := by
  unfold sameAt
  by_cases same : len = literal.length
  · subst same
    rw [if_pos rfl, compareFold_holding inside]
  · -- Strings of different lengths are not compared.
    have differ : equalFold ((value.drop p).take len) literal = false := by
      unfold equalFold
      rw [beq_eq_false_iff_ne]
      intro equal
      have lengths := congrArg List.length equal
      simp only [List.length_map, List.length_take, List.length_drop] at lengths
      omega
    rw [if_neg same, differ]

/-- A part of the value is empty when its length is zero. -/
theorem part_eq_nil {p len : Nat} (inside : p + len ≤ value.length) :
    (value.drop p).take len = [] ↔ len = 0 := by
  -- A part within the text has the length that was asked for.
  rw [← List.length_eq_zero_iff, List.length_take, List.length_drop]
  omega

/-- A handshake mode in memory is read as its bytes are. -/
theorem parseHandshakeAt_holding (platform : Platform) (data time : Nat) {p len : Nat}
    (inside : p + len ≤ value.length) :
    ∃ result,
      parseHandshakeAt platform (holding data value) (data + p) len time = .ok result ∧
        parseHandshake platform (.machine platform.word) ((value.drop p).take len) time =
          .ok result := by
  unfold parseHandshakeAt parseHandshake parseTimeAt
  simp only [sameAt_holding inside, loads_holding inside, part_eq_nil inside, bind, Except.bind,
    pure, Except.pure]
  generalize (value.drop p).take len = field
  by_cases off : equalFold field (bytes "off") = true
  · rw [if_pos off, if_pos off]
    exact ⟨_, rfl, rfl⟩
  rw [if_neg off, if_neg off]
  by_cases empty : len = 0
  · rw [if_pos empty, if_pos (Or.inl empty)]
    exact ⟨_, rfl, rfl⟩
  rw [if_neg empty]
  by_cases on : equalFold field (bytes "on") = true
  · rw [if_pos on, if_pos (Or.inr on)]
    exact ⟨_, rfl, rfl⟩
  rw [if_neg on, if_neg (not_or.mpr ⟨empty, on⟩)]
  cases platform.parseTime field with
  | none => exact ⟨_, rfl, rfl⟩
  | some seconds =>
    dsimp only
    by_cases refused : seconds = 0 ∨ seconds > platform.rehandshakeMax / 1000
    · rw [if_pos refused, if_pos refused]
      exact ⟨_, rfl, rfl⟩
    · rw [if_neg refused, if_neg refused]
      refine ⟨_, rfl, ?_⟩
      -- The product is cut to a word the same way.
      unfold Arith.machine
      dsimp only
      rw [show (seconds : Int) * 1000 = ((seconds * 1000 : Nat) : Int) by simp,
        ← Int.natCast_emod, Int.toNat_natCast]

/-- Seconds in memory are read as their bytes are. -/
theorem secondsAt_holding (omitted : Nat) {p len : Nat} (inside : p + len ≤ value.length) :
    secondsAt platform (holding data value) (data + p) len omitted =
      .ok (keepaliveSeconds platform ((value.drop p).take len) omitted) := by
  -- The field is loaded whole.
  unfold secondsAt keepaliveSeconds parseTimeAt
  simp only [loads_holding inside, part_eq_nil inside, bind, Except.bind, pure, Except.pure]
  split
  · rfl
  · congr 3
    funext seconds
    apply decide_eq_decide.mpr
    omega

/-- A number of probes in memory is read as its bytes are. -/
theorem probesAt_holding {p len omitted : Nat} (inside : p + len ≤ value.length) :
    probesAt platform (holding data value) (data + p) len omitted =
      .ok (keepaliveProbes platform ((value.drop p).take len) omitted) := by
  -- The field is loaded whole.
  unfold probesAt keepaliveProbes atoiAt
  simp only [loads_holding inside, part_eq_nil inside, bind, Except.bind, pure, Except.pure]
  split
  · rfl
  · congr 3
    funext count
    apply decide_eq_decide.mpr
    omega

/-- Each of the four fields in memory is read as its bytes are. -/
theorem keepaliveFieldAt_holding (platform : Platform) (data n : Nat) {p len : Nat}
    (args : CheckArgs) (inside : p + len ≤ value.length) :
    ∃ result,
      keepaliveFieldAt platform (holding data value) n (data + p) len args = .ok result ∧
        keepaliveField platform (.machine platform.word) n ((value.drop p).take len) args =
          .ok result := by
  -- The number of the field decides how it is read.
  rcases n with _ | _ | _ | _ | n
  · obtain ⟨result, read, parsed⟩ :=
      parseHandshakeAt_holding platform data args.keepaliveTime inside
    unfold keepaliveFieldAt keepaliveField
    rw [read, parsed]
    exact ⟨_, rfl, rfl⟩
  · unfold keepaliveFieldAt
    rw [secondsAt_holding args.keepaliveIdle inside]
    exact ⟨_, rfl, rfl⟩
  · unfold keepaliveFieldAt
    rw [secondsAt_holding args.keepaliveInterval inside]
    exact ⟨_, rfl, rfl⟩
  · unfold keepaliveFieldAt
    rw [probesAt_holding inside]
    exact ⟨_, rfl, rfl⟩
  · exact ⟨none, rfl, rfl⟩

/-- The search for a colon in memory finds the one in the text. -/
theorem strlchrAt_holding {p : Nat} (inside : p ≤ value.length) :
    strlchrAt (holding data value) (data + p) (data + value.length) 58 =
      .ok ((strlchr value p).map (data + ·)) := by
  -- The search stays within the text.
  unfold strlchrAt strlchr
  rw [show data + value.length - (data + p) = value.length - p by omega,
    search_holding (by omega), Option.map_map]
  congr 2
  funext index
  exact Nat.add_assoc data p index

/-- A colon lies within the value. -/
theorem strlchr_lt {p stop : Nat} (found : strlchr value p = some stop) :
    p ≤ stop ∧ stop < value.length := by
  -- The position that was found is one of the text's.
  obtain ⟨index, at_index, rfl⟩ := Option.map_eq_some_iff.mp found
  obtain ⟨inside, _⟩ := List.findIdx?_eq_some_iff_getElem.mp at_index
  rw [List.length_drop] at inside
  omega

/-- A field ends at the next colon or at the end of the text. -/
theorem stop_range {p : Nat} (inside : p ≤ value.length) :
    p ≤ (strlchr value p).getD value.length ∧
      (strlchr value p).getD value.length ≤ value.length := by
  -- Both are inside the text.
  cases found : strlchr value p with
  | none => exact ⟨inside, Nat.le_refl _⟩
  | some stop =>
    have range := strlchr_lt found
    exact ⟨range.1, Nat.le_of_lt range.2⟩

/-- The loop never reads outside the value, and a fifth field ends it. -/
theorem keepaliveLoop_holding {extra left n p : Nat} {args : CheckArgs} (five : left + n = 5)
    (few : n ≤ 4) :
    ∃ result,
      keepaliveLoop platform (holding data value) (data + value.length) (extra + left) n
          (data + p) args = .ok result ∧
        keepaliveFields platform (.machine platform.word) value left n p args = .ok result := by
  -- Induction on the turns that are left.
  induction left generalizing n p args with
  | zero => omega
  | succ left ih =>
    rw [← Nat.add_assoc]
    unfold keepaliveLoop keepaliveFields
    by_cases inside : p ≤ value.length
    · have range := stop_range inside
      rw [if_pos (Nat.add_le_add_left inside data), if_pos inside, strlchrAt_holding inside]
      dsimp only [bind, Except.bind]
      have stop : ((strlchr value p).map (data + ·)).getD (data + value.length) =
          data + (strlchr value p).getD value.length := by
        cases strlchr value p with
        | none => rfl
        | some stop => rfl
      rw [stop]
      generalize (strlchr value p).getD value.length = stop at range
      rw [show data + stop - (data + p) = stop - p by omega]
      obtain ⟨result, read, parsed⟩ := keepaliveFieldAt_holding platform data n args
        (show p + (stop - p) ≤ value.length by omega)
      rw [read, parsed]
      cases result with
      | none => exact ⟨none, rfl, rfl⟩
      | some next =>
        -- The field is one of the first four, so the next turn still has fuel.
        have early : n + 1 ≤ 4 := by
          by_contra late
          have last : n = 4 := by omega
          subst last
          cases parsed
        rw [Nat.add_assoc]
        exact ih (p := stop + 1) (by omega) early
    · rw [if_neg (by omega), if_neg inside]
      exact ⟨_, rfl, rfl⟩

/-- A value in memory is read as its bytes are, with enough fuel. -/
theorem parseKeepaliveAt_holding (platform : Platform) (data : Nat) (value : List UInt8)
    (extra : Nat) (args : CheckArgs) :
    ∃ result,
      parseKeepaliveAt platform (holding data value) (extra + 5) data value.length args =
          .ok result ∧
        parseKeepalive platform (.machine platform.word) value args = .ok result := by
  -- Five passes are enough for four fields and the end.
  have same : sameAt (holding data value) data value.length (bytes "off") =
      .ok (equalFold value (bytes "off")) := by
    have whole : sameAt (holding data value) (data + 0) value.length (bytes "off") =
        .ok (equalFold ((value.drop 0).take value.length) (bytes "off")) :=
      sameAt_holding (Nat.le_of_eq (Nat.zero_add value.length))
    rwa [List.drop_zero, List.take_length] at whole
  unfold parseKeepaliveAt parseKeepalive
  simp only [List.length_eq_zero_iff]
  by_cases empty : value = []
  · rw [if_pos empty, if_pos empty]
    exact ⟨_, rfl, rfl⟩
  · rw [if_neg empty, if_neg empty, same]
    dsimp only [bind, Except.bind]
    by_cases off : equalFold value (bytes "off") = true
    · rw [if_pos off, if_pos off]
      exact ⟨_, rfl, rfl⟩
    · rw [if_neg off, if_neg off]
      exact keepaliveLoop_holding (p := 0) rfl (by omega)

end Pointers

section Grammar

/-- The fields of a keepalive parameter, one after another. -/
def takeFields (platform : Platform) (arith : Arith) :
    (n : Nat) → List (List UInt8) → CheckArgs → Except Refusal (Option CheckArgs)
  | _, [], args => .ok (some args)
  | n, field :: rest, args => do
    (← keepaliveField platform arith n field args).elim (return none)
      (takeFields platform arith (n + 1) rest)

/-- A string without a colon is one field. -/
theorem splitOn_whole {p : Nat} (found : strlchr value p = none) :
    (value.drop p).splitOn 58 = [value.drop p] := by
  -- There is no colon left.
  apply List.splitOn_eq_singleton
  intro colon
  have absent := List.findIdx?_eq_none_iff.mp (Option.map_eq_none_iff.mp found) 58 colon
  simp at absent

/-- The first colon ends the first field. -/
theorem splitOn_stop {p stop : Nat} (found : strlchr value p = some stop) :
    (value.drop p).splitOn 58 =
      (value.drop p).take (stop - p) :: (value.drop (stop + 1)).splitOn 58 := by
  -- The first colon ends the first field.
  obtain ⟨index, at_index, rfl⟩ := Option.map_eq_some_iff.mp found
  obtain ⟨inside, colon, before⟩ := List.findIdx?_eq_some_iff_getElem.mp at_index
  have here : (value.drop p)[index] = 58 := by simpa using colon
  have parts : value.drop p =
      (value.drop p).take index ++ 58 :: (value.drop p).drop (index + 1) := by
    rw [← here, List.getElem_cons_drop, List.take_append_drop]
  have free : (58 : UInt8) ∉ (value.drop p).take index := by
    intro member
    obtain ⟨i, small, same⟩ := List.mem_take_iff_getElem.mp member
    have other := before i (by omega)
    rw [same] at other
    exact other rfl
  rw [Nat.add_sub_cancel_left, show p + index + 1 = p + (index + 1) by omega, ← List.drop_drop]
  nth_rewrite 1 [parts]
  exact List.splitOn_append_cons_self_of_not_mem free _

/-- The loop takes the fields between the colons. -/
theorem keepaliveFields_eq {left n p : Nat} {args : CheckArgs} (five : left + n = 5)
    (few : n ≤ 4) (inside : p ≤ value.length) :
    keepaliveFields platform arith value left n p args =
      takeFields platform arith n ((value.drop p).splitOn 58) args := by
  induction left generalizing n p args with
  | zero => omega
  | succ left ih =>
    unfold keepaliveFields
    rw [if_pos inside]
    cases found : strlchr value p with
    | none =>
      rw [splitOn_whole found]
      have all : (value.drop p).take (value.length - p) = value.drop p := by
        rw [← List.length_drop, List.take_length]
      simp only [Option.getD_none, all, takeFields]
      by_cases last : n = 4
      · subst last
        rfl
      · -- After the last field the position is beyond the end.
        obtain ⟨more, rfl⟩ : ∃ more, left = more + 1 := ⟨left - 1, by omega⟩
        refine bind_congr fun result => ?_
        cases result with
        | none => rfl
        | some next => exact if_neg (show ¬ value.length + 1 ≤ value.length by omega)
    | some stop =>
      have range := strlchr_lt found
      rw [splitOn_stop found]
      simp only [Option.getD_some, takeFields]
      by_cases last : n = 4
      · subst last
        rfl
      · refine bind_congr fun result => ?_
        cases result with
        | none => rfl
        | some next => exact ih (by omega) (by omega) (by omega)

/-- The first field is read exactly when it names a mode, and gives the mode it names. -/
theorem parseHandshake_mode (lawful : arith.Lawful platform.word) (field : List UInt8)
    (time : Nat) :
    ∃ result, parseHandshake platform arith field time = .ok result ∧
      (result.isSome ↔ ModeField platform field) ∧
        ∀ pair, result = some pair → AsksMode platform field pair.1 pair.2 := by
  unfold parseHandshake ModeField AsksMode
  by_cases off : equalFold field (bytes "off") = true
  · refine ⟨some (.off, time), if_pos off, ?_, ?_⟩
    · simp [off]
    · rintro pair ⟨⟩
      exact (if_pos off).mpr rfl
  rw [if_neg off]
  by_cases on : field = [] ∨ equalFold field (bytes "on") = true
  · refine ⟨some (.default, time), if_pos on, ?_, ?_⟩
    · obtain empty | named := on
      · simp [empty]
      · simp [named]
    · rintro pair ⟨⟩
      rw [if_neg off]
      exact (if_pos on).mpr rfl
  rw [if_neg on]
  have ⟨filled, unnamed⟩ := not_or.mp on
  cases parsed : platform.parseTime field with
  | none =>
    refine ⟨none, rfl, ?_, nofun⟩
    simp [filled, unnamed, off]
  | some seconds =>
    dsimp only
    by_cases refused : seconds = 0 ∨ seconds > platform.rehandshakeMax / 1000
    · refine ⟨none, if_pos refused, ?_, nofun⟩
      simp only [Option.isSome_none, Bool.false_eq_true, filled, unnamed, off, false_or,
        Option.some.injEq, false_iff]
      rintro ⟨_, rfl, range⟩
      omega
    · rw [if_neg refused]
      -- A time in range fits a word.
      have range := (milliseconds_le refused).2
      have fits := (rehandshakeMax_le platform).1
      have exact : ((seconds : Int) * 1000) = ((seconds * 1000 : Nat) : Int) := by
        simp
      rw [exact, lawful.word_eq _ (by omega)]
      refine ⟨some (.time, seconds * 1000), rfl, ?_, ?_⟩
      · simp only [Option.isSome_some, true_iff]
        exact Or.inr (Or.inr (Or.inr ⟨seconds, rfl, by omega⟩))
      · rintro pair ⟨⟩
        rw [if_neg off, if_neg on]
        exact ⟨rfl, seconds, rfl, rfl⟩

/-- Seconds are read exactly from the fields of the grammar. -/
theorem keepaliveSeconds_iff (field : List UInt8) :
    (keepaliveSeconds platform field 0).isSome ↔ SecondsField platform field := by
  -- The field is empty, or a number within its bounds.
  unfold keepaliveSeconds SecondsField
  by_cases empty : field = []
  · simp [empty]
  · simp only [empty, if_false, false_or, Option.isSome_filter, Option.any_eq_true,
      decide_eq_true_eq]

/-- Seconds that were read are what the field asks for. -/
theorem keepaliveSeconds_asks {field : List UInt8} {seconds : Nat}
    (read : keepaliveSeconds platform field 0 = some seconds) :
    AsksNumber platform.parseTime field seconds := by
  -- An empty field asks for the default.
  unfold keepaliveSeconds at read
  unfold AsksNumber
  by_cases empty : field = []
  · rw [if_pos empty] at read ⊢
    exact (Option.some.inj read).symm
  · rw [if_neg empty] at read ⊢
    exact (Option.filter_eq_some_iff.mp read).1

/-- A number of probes is read exactly from the fields of the grammar. -/
theorem keepaliveProbes_iff (field : List UInt8) :
    (keepaliveProbes platform field 0).isSome ↔ ProbesField platform field := by
  -- The field is empty, or a number within its bounds.
  unfold keepaliveProbes ProbesField
  by_cases empty : field = []
  · simp [empty]
  · simp only [empty, if_false, false_or, Option.isSome_filter, Option.any_eq_true,
      decide_eq_true_eq]

/-- A number of probes that was read is what the field asks for. -/
theorem keepaliveProbes_asks {field : List UInt8} {count : Nat}
    (read : keepaliveProbes platform field 0 = some count) :
    AsksNumber platform.atoi field count := by
  -- An empty field asks for the default.
  unfold keepaliveProbes at read
  unfold AsksNumber
  by_cases empty : field = []
  · rw [if_pos empty] at read ⊢
    exact (Option.some.inj read).symm
  · rw [if_neg empty] at read ⊢
    exact (Option.filter_eq_some_iff.mp read).1

/-- What is in effect before the first field. -/
def CheckArgs.Fresh (args : CheckArgs) : Prop :=
  args.keepalive = true ∧ args.keepaliveIdle = 0 ∧ args.keepaliveInterval = 0 ∧
    args.keepaliveCount = 0

/-- Four fields are read one by one. -/
theorem takeFields_four {args : CheckArgs} (fresh : args.Fresh) {first : Option (Handshake × Nat)}
    (mode idle interval count : List UInt8)
    (read : parseHandshake platform arith mode args.keepaliveTime = .ok first) :
    takeFields platform arith 0 [mode, idle, interval, count] args =
      .ok (first.bind fun pair => (keepaliveSeconds platform idle 0).bind fun idle =>
        (keepaliveSeconds platform interval 0).bind fun interval =>
          (keepaliveProbes platform count 0).map fun count =>
            { args with
              keepaliveHandshake := pair.1, keepaliveTime := pair.2, keepaliveIdle := idle
              keepaliveInterval := interval, keepaliveCount := count }) := by
  -- The four fields are taken in their order.
  obtain ⟨_, noIdle, noInterval, noCount⟩ := fresh
  simp only [takeFields, keepaliveField, read, bind, Except.bind, pure, Except.pure]
  cases first with
  | none => rfl
  | some pair =>
    simp only [Option.map_some, Option.bind_some, Option.elim_some, noIdle]
    cases keepaliveSeconds platform idle 0 with
    | none => rfl
    | some idle =>
      simp only [Option.map_some, Option.bind_some, Option.elim_some, noInterval]
      cases keepaliveSeconds platform interval 0 with
      | none => rfl
      | some interval =>
        simp only [Option.map_some, Option.bind_some, Option.elim_some, noCount]
        cases keepaliveProbes platform count 0 with
        | none => rfl
        | some count => rfl

/-- What follows a field matters only as it is read. -/
theorem takeFields_congr {n : Nat} {rest rest' : List (List UInt8)}
    (same : ∀ args, takeFields platform arith (n + 1) rest args =
      takeFields platform arith (n + 1) rest' args) (field : List UInt8) (args : CheckArgs) :
    takeFields platform arith n (field :: rest) args =
      takeFields platform arith n (field :: rest') args := by
  -- The first field is taken before the rest is looked at.
  unfold takeFields
  rw [funext same]

/-- Fields that are missing at the end are read as empty ones. -/
theorem takeFields_pad {fields : List (List UInt8)} (some_field : fields ≠ [])
    (few : fields.length ≤ 4) (args : CheckArgs) :
    takeFields platform arith 0 fields args =
      takeFields platform arith 0
        [fields.getD 0 [], fields.getD 1 [], fields.getD 2 [], fields.getD 3 []] args := by
  -- A field that is missing reads as an empty one.
  rcases fields with _ | ⟨mode, _ | ⟨idle, _ | ⟨interval, _ | ⟨count, _ | ⟨fifth, rest⟩⟩⟩⟩⟩
  · exact absurd rfl some_field
  · exact takeFields_congr (fun _ => rfl) mode args
  · exact takeFields_congr (takeFields_congr (fun _ => rfl) idle) mode args
  · exact takeFields_congr (takeFields_congr (takeFields_congr (fun _ => rfl) interval) idle)
      mode args
  · rfl
  · simp only [List.length_cons] at few
    omega

/-- The fields are always read to an answer. -/
theorem takeFields_answers (lawful : arith.Lawful platform.word) (n : Nat)
    (fields : List (List UInt8)) (args : CheckArgs) :
    ∃ result, takeFields platform arith n fields args = .ok result := by
  -- Induction on the fields.
  induction fields generalizing n args with
  | nil => exact ⟨_, rfl⟩
  | cons field rest ih =>
    have read : ∃ result, keepaliveField platform arith n field args = .ok result := by
      rcases n with _ | _ | _ | _ | n
      · obtain ⟨result, read, _⟩ := parseHandshake_mode lawful field args.keepaliveTime
        unfold keepaliveField
        rw [read]
        exact ⟨_, rfl⟩
      all_goals exact ⟨_, rfl⟩
    obtain ⟨result, read⟩ := read
    unfold takeFields
    rw [read]
    cases result with
    | none => exact ⟨none, rfl⟩
    | some next => exact ih (n + 1) next

/-- A fifth field is refused whatever the others are. -/
theorem takeFields_many {fields : List (List UInt8)} {n : Nat} {args args' : CheckArgs}
    (many : 4 < n + fields.length) (early : n ≤ 4) :
    takeFields platform arith n fields args ≠ .ok (some args') := by
  -- Induction on the fields: the fifth one is refused.
  induction fields generalizing n args with
  | nil =>
    simp only [List.length_nil] at many
    omega
  | cons field rest ih =>
    intro read
    obtain ⟨result, one, later⟩ := bind_eq_ok.mp read
    cases result with
    | none => cases later
    | some next =>
      by_cases last : n = 4
      · subst last
        cases one
      · exact ih (by rw [List.length_cons] at many; omega) (by omega) later

/-- What a keepalive parameter is read to. -/
theorem parseKeepalive_grammar (lawful : arith.Lawful platform.word) (value : List UInt8)
    (args : CheckArgs) :
    ∃ result, parseKeepalive platform arith value args = .ok result ∧
      (result.isSome ↔ KeepaliveGrammar platform value) ∧
        ∀ args', result = some args' → AsksKeepalive platform value args' := by
  unfold parseKeepalive KeepaliveGrammar AsksKeepalive
  by_cases empty : value = []
  · rw [if_pos empty]
    refine ⟨none, rfl, ?_, nofun⟩
    simp [empty]
  rw [if_neg empty]
  by_cases off : equalFold value (bytes "off") = true
  · rw [if_pos off]
    refine ⟨_, rfl, ?_, ?_⟩
    · simp [empty, off]
    · rintro args' ⟨⟩
      exact (if_pos off).mpr rfl
  rw [if_neg off, keepaliveFields_eq rfl (by omega) (Nat.zero_le _), List.drop_zero]
  simp only [off, false_or, ne_eq, empty, not_false_eq_true, true_and, Bool.false_eq_true,
    if_false]
  have some_field : value.splitOn 58 ≠ [] := List.splitOn_ne_nil 58 value
  by_cases few : (value.splitOn 58).length ≤ 4
  · -- The four fields are read one by one.
    rw [takeFields_pad some_field few]
    obtain ⟨first, read, modes, asked⟩ := parseHandshake_mode lawful (fieldOf value 0)
      args.keepaliveTime
    refine ⟨_, takeFields_four ⟨rfl, rfl, rfl, rfl⟩ _ _ _ _ read, ?_, ?_⟩
    · rw [← modes, ← keepaliveSeconds_iff, ← keepaliveSeconds_iff, ← keepaliveProbes_iff]
      simp only [few, true_and, Option.isSome_bind, Option.any_eq_true, Option.isSome_map,
        Option.isSome_iff_exists]
      constructor
      · rintro ⟨pair, one, idle, two, interval, three, count, four⟩
        exact ⟨⟨pair, one⟩, ⟨idle, two⟩, ⟨interval, three⟩, ⟨count, four⟩⟩
      · rintro ⟨⟨pair, one⟩, ⟨idle, two⟩, ⟨interval, three⟩, ⟨count, four⟩⟩
        exact ⟨pair, one, idle, two, interval, three, count, four⟩
    · intro args' done
      obtain ⟨pair, one, rest⟩ := Option.bind_eq_some_iff.mp done
      obtain ⟨idle, two, rest⟩ := Option.bind_eq_some_iff.mp rest
      obtain ⟨interval, three, rest⟩ := Option.bind_eq_some_iff.mp rest
      obtain ⟨count, four, rfl⟩ := Option.map_eq_some_iff.mp rest
      exact ⟨rfl, asked pair one, keepaliveSeconds_asks two, keepaliveSeconds_asks three,
        keepaliveProbes_asks four⟩
  · -- A fifth field leaves nothing.
    obtain ⟨result, read⟩ := takeFields_answers lawful 0 (value.splitOn 58)
      { args with keepalive := true, keepaliveHandshake := .default, keepaliveIdle := 0,
                  keepaliveInterval := 0, keepaliveCount := 0 }
    cases result with
    | none => exact ⟨none, read, by simp [few], nofun⟩
    | some args' => exact absurd read (takeFields_many (by omega) (by omega))

end Grammar

/-- Wherever the value of a keepalive parameter lies, and whatever was in effect before it, the
parser ends within five turns without a read outside the value. It accepts the value exactly when
the grammar does, and what is then in effect is what the fields ask for; the directive's own
parser reads the same. -/
theorem keepalive_parsed (platform : Platform) (data : Nat) (value : List UInt8)
    (args : CheckArgs) (extra : Nat) :
    ∃ result,
      parseKeepaliveAt platform (holding data value) (extra + 5) data value.length args =
          .ok result ∧
        (result.isSome ↔ KeepaliveGrammar platform value) ∧
          (∀ args', result = some args' → AsksKeepalive platform value args') ∧
            parseKeepalive platform (.machine platform.word) value args = .ok result := by
  -- Memory is read as bytes, and the bytes as fields.
  obtain ⟨result, read, parsed⟩ := parseKeepaliveAt_holding platform data value extra args
  obtain ⟨same, again, accepted, asked⟩ :=
    parseKeepalive_grammar (lawful_machine platform.word) value args
  cases parsed.symm.trans again
  exact ⟨result, read, accepted, asked, parsed⟩

end Healthcheck
