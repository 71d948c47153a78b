import Healthcheck.Library.Json

/-! How the tokens of a text are put together from those of its parts. -/

namespace Json

/-- Bytes are read in two parts as well. -/
theorem run_append (mode : Mode) (a b : List UInt8) :
    run mode (a ++ b) = (run mode a).bind fun now =>
      (run now.2 b).map fun later => (now.1 ++ later.1, later.2) := by
  -- Induction on the first part.
  induction a generalizing mode with
  | nil => simp [run]
  | cons byte rest ih =>
    simp only [List.cons_append, run]
    cases step mode byte with
    | none => rfl
    | some now =>
      simp only [Option.bind_some, ih]
      cases run now.2 rest with
      | none => rfl
      | some later =>
        simp only [Option.bind_some, Option.map_some]
        cases run later.2 b <;> simp

/-- The tokens of a text whose front has been read. -/
theorem lexFrom_append {mode after : Mode} {a : List UInt8} {tokens : List Token}
    (front : run mode a = some (tokens, after)) (b : List UInt8) :
    lexFrom mode (a ++ b) = (lexFrom after b).map fun more => tokens ++ more := by
  -- The front has left the lexer in a mode of its own.
  rw [lexFrom, run_append, front, Option.bind_some, lexFrom]
  cases run after b with
  | none => rfl
  | some later =>
    simp only [Option.map_some, Option.bind_some]
    cases later.2.finish <;> simp

/-- The front of a text leaves its tokens, and the rest of them to the rest of the text. -/
theorem lexFrom_front {mode after : Mode} {a : List UInt8} {tokens : List Token}
    (front : run mode a = some (tokens, after)) (b : List UInt8) (more : List Token) :
    lexFrom mode (a ++ b) = some (tokens ++ more) ↔ lexFrom after b = some more := by
  -- What the front has read is a prefix of what the whole gives.
  rw [lexFrom_append front, Option.map_eq_some_iff]
  constructor
  · rintro ⟨later, read, same⟩
    rw [read, List.append_cancel_left same]
  · intro read
    exact ⟨more, read, rfl⟩

/-- One byte is read, and then the rest from the mode it led to. -/
theorem lexFrom_cons (mode : Mode) (byte : UInt8) (rest : List UInt8) :
    lexFrom mode (byte :: rest) = (step mode byte).bind fun now =>
      (lexFrom now.2 rest).map fun tokens => now.1 ++ tokens := by
  -- Reading fails at the byte, or at the rest.
  cases stepped : step mode byte with
  | none => simp [lexFrom, run, stepped]
  | some now =>
    have front : run mode [byte] = some now := by simp [run, stepped]
    rw [Option.bind_some, ← lexFrom_append front]
    rfl

/-- A byte that gives no token only changes the mode. -/
theorem run_step {mode after : Mode} {byte : UInt8} (stepped : step mode byte = some ([], after))
    (rest : List UInt8) : run mode (byte :: rest) = run after rest := by
  -- Nothing is put before the tokens of the rest.
  rw [run, stepped, Option.bind_some]
  cases run after rest <;> simp

/-- A plain text is the content of a string as it stands. -/
theorem run_plain {pending : List Range} {text : List UInt8} (clean : plain pending text = true)
    (before : List UInt8) :
    run (.string pending before) text = some ([], .string [] (before ++ text)) := by
  -- Induction along the bytes, which are inside a character or start one.
  induction pending, text using plain.induct generalizing before with
  | case1 => simp [run]
  | case2 => simp [plain] at clean
  | case3 range pending byte rest ih =>
    simp only [plain, Bool.and_eq_true] at clean
    have stepped : step (.string (range :: pending) before) byte =
        some ([], .string pending (before ++ [byte])) := by
      simp [step, stringByte, clean.1]
    rw [run_step stepped, ih clean.2]
    simp
  | case4 byte rest ih =>
    cases starts : follow byte with
    | none => simp [plain, starts] at clean
    | some pending =>
      simp only [plain, starts, Bool.and_eq_true, decide_eq_true_eq] at clean
      obtain ⟨⟨⟨notQuote, notBackslash⟩, shown⟩, clean⟩ := clean
      have stepped : step (.string [] before) byte =
          some ([], .string pending (before ++ [byte])) := by
        have control : ¬ byte < 0x20 := UInt8.not_lt.mpr shown
        simp [step, stringByte, notQuote, notBackslash, control, starts]
      rw [run_step stepped, ih pending clean]
      simp

/-- What a string has read since its start, and what it keeps of it: the same bytes when they are
plain so far, and fewer after an escape. -/
def Tracks (read : List UInt8) : Mode → Prop
  | .string pending text =>
    (∀ range ∈ pending, 0x80 ≤ range.1) ∧
      (text.length < read.length ∨
        text = read ∧ ∀ rest, plain [] (read ++ rest) = plain pending rest)
  | .escape text => text.length < read.length ∧ read.getLast? = some backslash
  | .unit text none digits => text.length + 2 + digits.length ≤ read.length
  | .unit text (some _) digits => text.length + 8 + digits.length ≤ read.length
  | .pair text _ => text.length + 6 ≤ read.length
  | .pairEscape text _ => text.length + 7 ≤ read.length
  | _ => False

/-- The bytes that may follow the first one of a character are not ASCII. -/
theorem follow_high {byte : UInt8} {pending : List Range} (starts : follow byte = some pending) :
    ∀ range ∈ pending, 0x80 ≤ range.1 := by
  -- All ranges of continuation bytes start at 0x80 or above.
  unfold follow at starts
  repeat' split at starts
  all_goals cases starts
  all_goals simp [tail]

/-- A character takes at most four bytes. -/
theorem utf8_length (point : Nat) : (utf8 point).length ≤ 4 := by
  -- This is the width of its encoding.
  rw [utf8, String.length_utf8EncodeChar]
  exact Char.utf8Size_le_four _

/-- A code unit was written with at least six bytes, and stands for at most four. -/
theorem tracks_unitEnd {read text : List UInt8} {high : Option Nat} {unit : Nat} {after : Mode}
    {tokens : List Token} (bound : text.length + 6 ≤ read.length)
    (ended : unitEnd text high unit = some (tokens, after)) : tokens = [] ∧ Tracks read after := by
  -- An escape takes six bytes or more, and gives at most four.
  have shorter : ∀ point, (text ++ utf8 point).length < read.length := by
    intro point
    have size := utf8_length point
    rw [List.length_append]
    omega
  unfold unitEnd at ended
  cases high with
  | none =>
    dsimp only at ended
    split at ended
    · cases ended
      exact ⟨rfl, by simp, .inl (shorter unit)⟩
    split at ended
    · cases ended
      exact ⟨rfl, bound⟩
    · cases ended
  | some high =>
    dsimp only at ended
    split at ended
    · cases ended
      exact ⟨rfl, by simp, .inl (shorter _)⟩
    · cases ended

/-- What one byte of a string does: it is kept, or it belongs to an escape, or it ends the string. -/
theorem tracks_step {read : List UInt8} {mode after : Mode} {byte : UInt8} {tokens : List Token}
    (tracks : Tracks read mode) (stepped : step mode byte = some (tokens, after)) :
    (tokens = [] ∧ Tracks (read ++ [byte]) after) ∨
      ∃ text, mode = .string [] text ∧ byte = quote ∧ tokens = [.string text] := by
  -- A mode inside a string either goes on reading it or ends it at its quotation mark.
  cases mode with
  | idle | number | word => exact absurd tracks (by simp [Tracks])
  | string pending text =>
    obtain ⟨high, kept⟩ := tracks
    cases pending with
    | cons range pending =>
      simp only [step, stringByte, Option.ite_none_right_eq_some, Option.some.injEq,
        Prod.mk.injEq] at stepped
      obtain ⟨inside, rfl, rfl⟩ := stepped
      refine .inl ⟨rfl, fun other found => high other (by simp [found]), ?_⟩
      refine kept.imp (fun shorter => by simpa using shorter) fun ⟨same, clean⟩ => ?_
      refine ⟨by rw [same], fun rest => ?_⟩
      rw [List.append_assoc, clean]
      simp [plain, inside]
    | nil =>
      simp only [step, stringByte] at stepped
      split at stepped
      · rename_i ends
        cases stepped
        exact .inr ⟨text, rfl, ends, rfl⟩
      split at stepped
      · rename_i escape
        cases stepped
        refine .inl ⟨rfl, ?_, by simp [escape]⟩
        have bound : text.length ≤ read.length := by
          rcases kept with shorter | ⟨same, _⟩
          · omega
          · exact Nat.le_of_eq (congrArg List.length same)
        simpa using Nat.lt_succ_of_le bound
      split at stepped
      · cases stepped
      rename_i notQuote notBackslash shown
      obtain ⟨pending, starts, same⟩ := Option.map_eq_some_iff.mp stepped
      cases same
      refine .inl ⟨rfl, follow_high starts, ?_⟩
      refine kept.imp (fun shorter => by simpa using shorter) fun ⟨same, clean⟩ => ?_
      refine ⟨by rw [same], fun rest => ?_⟩
      rw [List.append_assoc, clean]
      simp [plain, starts, notQuote, notBackslash, UInt8.not_lt.mp shown]
  | escape text =>
    obtain ⟨shorter, _⟩ := tracks
    simp only [step, escapeByte] at stepped
    split at stepped
    · cases stepped
      refine .inl ⟨rfl, ?_⟩
      simp only [Tracks, List.length_append, List.length_singleton, List.length_nil]
      omega
    · obtain ⟨character, _, same⟩ := Option.map_eq_some_iff.mp stepped
      cases same
      exact .inl ⟨rfl, by simp, .inl (by simpa using shorter)⟩
  | unit text high digits =>
    simp only [step, unitByte] at stepped
    obtain ⟨value, _, stepped⟩ := Option.bind_eq_some_iff.mp stepped
    split at stepped
    · rename_i four
      rw [List.length_append, List.length_singleton] at four
      refine .inl (tracks_unitEnd ?_ stepped)
      cases high <;> simp only [Tracks] at tracks <;>
        simp only [List.length_append, List.length_singleton] <;> omega
    · cases stepped
      refine .inl ⟨rfl, ?_⟩
      cases high <;> simp only [Tracks, List.length_append, List.length_singleton] at tracks ⊢ <;>
        omega
  | pair text high =>
    simp only [step, Option.ite_none_right_eq_some, Option.some.injEq, Prod.mk.injEq] at stepped
    obtain ⟨_, rfl, rfl⟩ := stepped
    refine .inl ⟨rfl, ?_⟩
    simp only [Tracks, List.length_append, List.length_singleton] at tracks ⊢
    omega
  | pairEscape text high =>
    simp only [step, Option.ite_none_right_eq_some, Option.some.injEq, Prod.mk.injEq] at stepped
    obtain ⟨_, rfl, rfl⟩ := stepped
    refine .inl ⟨rfl, ?_⟩
    simp only [Tracks, List.length_append, List.length_singleton, List.length_nil] at tracks ⊢
    omega

/-- Bytes of a string either leave it open, or contain its end: then what it keeps is shorter. -/
theorem tracks_run {read rest : List UInt8} {mode after : Mode} {tokens : List Token}
    (tracks : Tracks read mode) (ran : run mode rest = some (tokens, after)) :
    (tokens = [] ∧ Tracks (read ++ rest) after) ∨
      ∃ text more, tokens = .string text :: more ∧ text.length < (read ++ rest).length := by
  -- Induction on what is read: the string goes on, or it has ended.
  induction rest generalizing read mode tokens with
  | nil =>
    cases ran
    exact .inl ⟨rfl, by simpa using tracks⟩
  | cons byte rest ih =>
    rw [run] at ran
    obtain ⟨⟨now, mode'⟩, stepped, others⟩ := Option.bind_eq_some_iff.mp ran
    obtain ⟨⟨later, final⟩, inner, same⟩ := Option.map_eq_some_iff.mp others
    cases same
    rcases tracks_step tracks stepped with ⟨rfl, tracks'⟩ | ⟨text, rfl, rfl, rfl⟩
    · simpa using ih tracks' inner
    · refine .inr ⟨text, later, rfl, ?_⟩
      have bound : text.length ≤ read.length := by
        rcases tracks.2 with shorter | ⟨same, _⟩
        · omega
        · exact Nat.le_of_eq (congrArg List.length same)
      rw [List.length_append, List.length_cons]
      omega

/-- At its start a string has read nothing. -/
theorem tracks_start : Tracks [] (.string [] []) :=
  -- No byte is pending and no escape is open.
  ⟨by simp, .inr ⟨rfl, fun _ => rfl⟩⟩

/-- The quotation mark is never inside a character. -/
theorem quote_outside {range : Range} (high : 0x80 ≤ range.1) : range.has quote = false := by
  -- A quotation mark is ASCII.
  have low : ¬ range.1 ≤ quote := by
    intro below
    exact absurd (UInt8.le_trans high below) (by decide)
  simp [Range.has, low]

/-- A quotation mark leaves a string open only behind a backslash. -/
theorem step_quote {read : List UInt8} {mode after : Mode} (tracks : Tracks read mode)
    (stepped : step mode quote = some ([], after)) :
    ∃ text, mode = .escape text ∧ after = .string [] (text ++ [quote]) := by
  -- Only after a backslash does a quotation mark not end the string.
  cases mode with
  | idle | number | word => exact absurd tracks (by simp [Tracks])
  | string pending text =>
    cases pending with
    | nil => simp [step, stringByte] at stepped
    | cons range pending => simp [step, stringByte, quote_outside
        (tracks.1 range (by simp))] at stepped
  | escape text =>
    refine ⟨text, rfl, ?_⟩
    simpa [step, escapeByte, escaped, quote, eq_comm] using stepped
  | unit text high digits =>
    have none : hexDigit quote = none := by decide
    simp [step, unitByte, none] at stepped
  | pair text high => simp [step, quote, backslash] at stepped
  | pairEscape text high => simp [step, quote] at stepped

/-- What a string keeps of a comma and a space before it ends. -/
theorem lexFrom_comma (text rest : List UInt8) :
    lexFrom (.string [] text) (44 :: 32 :: quote :: rest) =
      (lexFrom .idle rest).map fun tokens => .string (text ++ [44, 32]) :: tokens := by
  -- A comma and a blank are characters like any other inside a string.
  have front : run (.string [] text) [44, 32, quote] =
      some ([.string (text ++ [44, 32])], .idle) := by
    simp [run, step, stringByte, follow, quote, backslash]
  exact lexFrom_append front rest

/-- A string that is open when its text is over kept the text as it is, or ends with a byte that
the text does not end with. -/
theorem plain_of_open {text rest : List UInt8} {mode : Mode} {more : List Token}
    (tracks : Tracks text mode)
    (read : lexFrom mode (quote :: 44 :: 32 :: quote :: rest) = some (.string text :: more)) :
    plain [] text = true := by
  -- If the text were not plain, the string would end elsewhere or be another one.
  rw [lexFrom_cons] at read
  obtain ⟨⟨tokens, after⟩, stepped, read⟩ := Option.bind_eq_some_iff.mp read
  obtain ⟨later, others, same⟩ := Option.map_eq_some_iff.mp read
  rcases tracks_step tracks stepped with ⟨rfl, -⟩ | ⟨kept, rfl, -, rfl⟩
  · obtain ⟨kept, rfl, rfl⟩ := step_quote tracks stepped
    rw [lexFrom_comma] at others
    obtain ⟨tokens, -, rfl⟩ := Option.map_eq_some_iff.mp others
    simp only [List.nil_append, List.cons.injEq, Token.string.injEq] at same
    have last := tracks.2
    rw [← same.1] at last
    simp [backslash] at last
  · cases same
    rcases tracks.2 with shorter | ⟨_, clean⟩
    · omega
    · simpa [plain] using clean []

/-- A text whose bytes are written between quotation marks, with a comma, a space and a quotation
mark behind, is read as it is only when it is plain. -/
theorem plain_of_read {text rest : List UInt8} {more : List Token}
    (read : lexFrom (.string [] []) (text ++ quote :: 44 :: 32 :: quote :: rest) =
      some (.string text :: more)) : plain [] text = true := by
  cases ran : run (.string [] []) text with
  | none => simp [lexFrom, run_append, ran] at read
  | some now =>
    obtain ⟨tokens, mode⟩ := now
    rw [lexFrom_append ran] at read
    obtain ⟨later, after, same⟩ := Option.map_eq_some_iff.mp read
    rcases tracks_run tracks_start ran with ⟨rfl, tracks⟩ | ⟨other, others, rfl, shorter⟩
    · rw [List.nil_append] at same tracks
      subst same
      exact plain_of_open tracks after
    · -- The string ended inside the text.
      simp only [List.cons_append, List.cons.injEq, Token.string.injEq] at same
      rw [same.1] at shorter
      simp at shorter

/-- A whole number, read up to here. -/
def whole (negative : Bool) (number : Nat) : Partial :=
  { phase := if number = 0 then .zero else .integer, negative := negative, mantissa := number }

/-- The digits stand for their values. -/
theorem digit_ofNat {value : Nat} (small : value < 10) :
    digit (UInt8.ofNat (48 + value)) = some value := by
  -- There are only ten digits to look at.
  rcases value with _ | _ | _ | _ | _ | _ | _ | _ | _ | _ | value
  all_goals first | rfl | omega

/-- A digit goes on with a whole number. -/
theorem whole_next {negative : Bool} {number value : Nat} {byte : UInt8} (positive : 0 < number)
    (next : digit byte = some value) :
    (whole negative number).next byte = some (whole negative (number * 10 + value)) := by
  -- The number is not zero, so more digits may follow it.
  have some_ : number ≠ 0 := by omega
  have more : number * 10 + value ≠ 0 := by omega
  have pushed : (whole negative number).next byte =
      some ((whole negative number).push .integer value) := by
    simp [Partial.next, whole, some_, next]
  rw [pushed]
  simp only [Partial.push, whole, if_neg more, reduceCtorEq, if_false, Nat.add_zero]

/-- A numeral is read as the number it stands for. -/
theorem run_numeral {start : Mode} {negative : Bool}
    (first : ∀ value < 10,
      step start (UInt8.ofNat (48 + value)) = some ([], .number (whole negative value)))
    (number : Nat) :
    run start (Ascii.numeral number) = some ([], .number (whole negative number)) := by
  -- Induction on the number, whose last digit is read behind the rest of its numeral.
  induction number using Nat.strongRecOn with
  | _ number ih =>
    rcases Nat.lt_or_ge number 10 with small | large
    · rw [Ascii.numeral_small small, run, first number small]
      rfl
    · have rest := ih (number / 10) (by omega)
      have last : step (.number (whole negative (number / 10))) (UInt8.ofNat (48 + number % 10)) =
          some ([], .number (whole negative number)) := by
        have positive : 0 < number / 10 := by omega
        have stepped : (whole negative (number / 10)).next (UInt8.ofNat (48 + number % 10)) = _ :=
          whole_next positive (digit_ofNat (Nat.mod_lt number (by decide)))
        rw [Nat.div_add_mod'] at stepped
        rw [step, stepped]
      rw [Ascii.numeral_large large, run_append, rest, Option.bind_some, run_step last]
      rfl

/-- A digit starts a number. -/
theorem idleByte_digit {value : Nat} (small : value < 10) :
    step .idle (UInt8.ofNat (48 + value)) = some ([], .number (whole false value)) := by
  -- There are only ten digits to look at.
  rcases value with _ | _ | _ | _ | _ | _ | _ | _ | _ | _ | value
  all_goals first | decide | omega

/-- The bytes that end a number of an object. -/
def closes (rest : List UInt8) : Bool :=
  rest.head? = some 44 || rest.head? = some 125

/-- A byte that comes after a number completes it. -/
theorem step_over {number : Partial} {token : Token} {byte : UInt8}
    (past : number.next byte = none) (ended : number.token = some token) :
    step (.number number) byte = (idleByte byte).map fun after => (token :: after.1, after.2) := by
  -- The byte that does not belong to the number is read as the next token's first.
  simp only [step, past, ended, Option.bind_some]

/-- A whole number ends before what cannot belong to it. -/
theorem lexFrom_whole {rest : List UInt8} (closed : closes rest = true) (negative : Bool)
    (number : Nat) (b : List UInt8) :
    lexFrom (.number (whole negative number)) (rest ++ b) =
      (lexFrom .idle (rest ++ b)).map fun tokens =>
        .number (signed negative number) 0 :: tokens := by
  -- The next byte ends it, or there is none.
  have token : (whole negative number).token = some (.number (signed negative number) 0) := by
    rcases Nat.eq_zero_or_pos number with rfl | positive
    · simp [Partial.token, whole, signed]
    · have some_ : number ≠ 0 := by omega
      simp [Partial.token, whole, signed, some_]
  have past : ∀ byte, byte = 44 ∨ byte = 125 → (whole negative number).next byte = none := by
    intro byte is
    have notDigit : digit byte = none := by rcases is with rfl | rfl <;> rfl
    have notDot : ¬ byte = 46 := by rcases is with rfl | rfl <;> decide
    have notLetter : ¬ (byte = 101 ∨ byte = 69) := by rcases is with rfl | rfl <;> decide
    rcases Nat.eq_zero_or_pos number with rfl | positive
    · simp [Partial.next, whole, Partial.dot, Partial.letter, notDot, notLetter]
    · have some_ : number ≠ 0 := by omega
      simp [Partial.next, whole, some_, notDigit, Partial.dot, Partial.letter, notDot, notLetter]
  cases rest with
  | nil => simp [closes] at closed
  | cons byte rest =>
    have is : byte = 44 ∨ byte = 125 := by simpa [closes] using closed
    rw [List.cons_append, lexFrom_cons, lexFrom_cons, step_over (past byte is) token, step]
    cases idleByte byte with
    | none => rfl
    | some after =>
      simp only [Option.map_some, Option.bind_some]
      cases lexFrom after.2 (rest ++ b) <;> rfl

section Then

variable {after : Mode} {gap : List UInt8} {tokens : List Token}
  (front : run .idle gap = some (tokens, after)) (b : List UInt8) (more : List Token)

include front

/-- A number and the bytes between it and what follows. -/
theorem lexFrom_number {digits : List UInt8} {negative : Bool} {number : Nat}
    (read : run .idle digits = some ([], .number (whole negative number)))
    (closed : closes gap = true) :
    lexFrom .idle (digits ++ (gap ++ b)) =
        some (.number (signed negative number) 0 :: (tokens ++ more)) ↔
      lexFrom after b = some more := by
  -- The digits have been read, and the gap ends the number.
  rw [lexFrom_append read, lexFrom_whole closed, ← lexFrom_front front b more]
  simp

/-- A decimal numeral is read as its number. -/
theorem lexFrom_numeral (number : Nat) (closed : closes gap = true) :
    lexFrom .idle (Ascii.numeral number ++ (gap ++ b)) =
        some (.number number 0 :: (tokens ++ more)) ↔
      lexFrom after b = some more :=
  -- A numeral is a run of digits.
  lexFrom_number front b more (run_numeral (fun _ => idleByte_digit) number) closed

/-- The rest of a plain string and the bytes between it and what follows. -/
theorem lexFrom_plain {text : List UInt8} (clean : plain [] text = true) :
    lexFrom (.string [] []) (text ++ quote :: (gap ++ b)) =
        some (.string text :: (tokens ++ more)) ↔
      lexFrom after b = some more := by
  -- A plain text is kept byte by byte until the quotation mark.
  have ends : step (.string [] text) quote = some ([.string text], .idle) := by
    simp [step, stringByte]
  rw [lexFrom_append (run_plain clean []), List.nil_append, lexFrom_cons, ends, Option.bind_some,
    ← lexFrom_front front b more]
  simp

/-- The rest of any string, with a comma, a space and another string behind: it is read as it is
exactly when it is plain. -/
theorem lexFrom_text (text : List UInt8) (next : List.IsPrefix [44, 32, quote] gap) :
    lexFrom (.string [] []) (text ++ quote :: (gap ++ b)) =
        some (.string text :: (tokens ++ more)) ↔
      plain [] text = true ∧ lexFrom after b = some more := by
  -- What comes after the quotation mark shows where the string ended.
  constructor
  · intro read
    obtain ⟨rest, rfl⟩ := next
    have clean : plain [] text = true := plain_of_read (by simpa using read)
    exact ⟨clean, (lexFrom_plain front b more clean).mp read⟩
  · rintro ⟨clean, read⟩
    exact (lexFrom_plain front b more clean).mpr read

end Then

end Json
