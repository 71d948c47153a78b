import Healthcheck.Status.Writer

/-!
What a format string and its arguments stand for: the reference the block writer is compared with.
-/

namespace Healthcheck

/-- A format string is a sequence of bytes and directives; `invalid` ends it early. -/
inductive Piece where
  | byte (byte : UInt8)
  | string
  | cstring
  | unsigned
  | msec
  | invalid
  deriving DecidableEq, Repr

/-- The pieces of a format string. -/
def pieces : List UInt8 → List Piece
  | [] => []
  | c :: fmt =>
    if c ≠ '%'.toUInt8 then .byte c :: pieces fmt
    else
      match fmt with
      -- A trailing percent sign is no directive.
      | [] => [.invalid]
      | d :: fmt =>
        if d = '%'.toUInt8 then .byte d :: pieces fmt
        else if d = 'V'.toUInt8 then .string :: pieces fmt
        else if d = 's'.toUInt8 then .cstring :: pieces fmt
        else if d = 'M'.toUInt8 then .msec :: pieces fmt
        else if d = 'u'.toUInt8 then
          match fmt with
          | [] => [.invalid]
          | e :: fmt => if e = 'i'.toUInt8 then .unsigned :: pieces fmt else [.invalid]
        else [.invalid]

/-- A plain character stands for itself. -/
theorem pieces_text {c : UInt8} (text : c ≠ '%'.toUInt8) (fmt : List UInt8) :
    pieces (c :: fmt) = .byte c :: pieces fmt := by
  -- The first test of the function.
  rw [pieces.eq_def]
  simp only [if_pos text]

/-- Two percent signs stand for one. -/
theorem pieces_percent (fmt : List UInt8) :
    pieces ('%'.toUInt8 :: '%'.toUInt8 :: fmt) = .byte '%'.toUInt8 :: pieces fmt := by
  rw [pieces.eq_def]
  rfl

/-- %V takes a counted string. -/
theorem pieces_string (fmt : List UInt8) :
    pieces ('%'.toUInt8 :: 'V'.toUInt8 :: fmt) = .string :: pieces fmt := by
  rw [pieces.eq_def]
  rfl

/-- %s takes a terminated string. -/
theorem pieces_cstring (fmt : List UInt8) :
    pieces ('%'.toUInt8 :: 's'.toUInt8 :: fmt) = .cstring :: pieces fmt := by
  rw [pieces.eq_def]
  rfl

/-- %M takes a time. -/
theorem pieces_msec (fmt : List UInt8) :
    pieces ('%'.toUInt8 :: 'M'.toUInt8 :: fmt) = .msec :: pieces fmt := by
  rw [pieces.eq_def]
  rfl

/-- %ui takes an unsigned number. -/
theorem pieces_unsigned (fmt : List UInt8) :
    pieces ('%'.toUInt8 :: 'u'.toUInt8 :: 'i'.toUInt8 :: fmt) = .unsigned :: pieces fmt := by
  rw [pieces.eq_def]
  rfl

/-- A number of milliseconds as it is shown. -/
def msecNumeral (word : Word) (value : Nat) : List UInt8 :=
  if value = word.max then Ascii.bytes "-1" else Ascii.numeral value

/-- The bytes that pieces and their arguments stand for. -/
def render (word : Word) : List Piece → List Arg → List UInt8
  | .byte byte :: rest, args => byte :: render word rest args
  | .string :: rest, .string bytes :: args => bytes ++ render word rest args
  | .cstring :: rest, .cstring bytes :: args => Ascii.terminated bytes ++ render word rest args
  | .unsigned :: rest, .number value :: args => Ascii.numeral value ++ render word rest args
  | .msec :: rest, .number value :: args => msecNumeral word value ++ render word rest args
  | _, _ => []

/-- The arguments have the types their directives read, and numbers are machine words. -/
def typed (word : Word) : List Piece → List Arg → Bool
  | [], _ => true
  | .byte _ :: rest, args => typed word rest args
  | .string :: rest, .string _ :: args => typed word rest args
  | .cstring :: rest, .cstring _ :: args => typed word rest args
  | .unsigned :: rest, .number value :: args => value ≤ word.max && typed word rest args
  | .msec :: rest, .number value :: args => value ≤ word.max && typed word rest args
  | .invalid :: _, _ => true
  | _, _ => false

/-- A call of the writer. -/
inductive Call where
  | append (data : List UInt8)
  | printf (fmt : List UInt8) (args : List Arg)
  deriving DecidableEq, Repr

/-- The format of a call has the supported directives only. -/
def Call.Valid : Call → Prop
  | .append _ => True
  | .printf fmt _ => .invalid ∉ pieces (Ascii.terminated fmt)

/-- The arguments of a call fit its format. -/
def Call.typed (word : Word) : Call → Bool
  | .append _ => true
  | .printf fmt args => Healthcheck.typed word (pieces (Ascii.terminated fmt)) args

/-- The bytes a call stands for. -/
def Call.rendered (word : Word) : Call → List UInt8
  | .append data => data
  | .printf fmt args => render word (pieces (Ascii.terminated fmt)) args

/-- A call of the writer, run. -/
def Call.run (word : Word) : Call → Writing Rc
  | .append data => Healthcheck.append data
  | .printf fmt args => Healthcheck.printf word fmt args

/-- Calls in a row, up to the first that fails. -/
def runCalls (word : Word) : List Call → Writing Rc
  | [] => return .ok
  | call :: calls => andThen (call.run word) (runCalls word calls)

end Healthcheck
