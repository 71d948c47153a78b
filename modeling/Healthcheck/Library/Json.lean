import Healthcheck.Library.Ascii

/-!
JSON texts. A text is cut into tokens byte by byte, by a machine that says which tokens a byte
completes; the tokens are then read as one value.

Strings are kept as the UTF-8 bytes of their content. A number is an integer and a power of ten.
-/

namespace Json

/-- The tokens of JSON. -/
inductive Token where
  | openObject
  | closeObject
  | openArray
  | closeArray
  | colon
  | comma
  | null
  | bool (value : Bool)
  | number (mantissa exponent : Int)
  | string (text : List UInt8)
  deriving DecidableEq, Repr

/-- The least and the greatest byte that may come next inside a character. -/
abbrev Range := UInt8 × UInt8

/-- Whether a byte is in a range. -/
def Range.has (range : Range) (byte : UInt8) : Bool :=
  range.1 ≤ byte && byte ≤ range.2

/-- The bytes that any place of a character after its second may have. -/
def tail : Range := (0x80, 0xBF)

/-- What must follow the first byte of a UTF-8 character. -/
def follow (byte : UInt8) : Option (List Range) :=
  if byte < 0x80 then some []
  else if byte < 0xC2 then none
  else if byte < 0xE0 then some [tail]
  else if byte = 0xE0 then some [(0xA0, 0xBF), tail]
  else if byte = 0xED then some [(0x80, 0x9F), tail]
  else if byte < 0xF0 then some [tail, tail]
  else if byte = 0xF0 then some [(0x90, 0xBF), tail, tail]
  else if byte < 0xF4 then some [tail, tail, tail]
  else if byte = 0xF4 then some [(0x80, 0x8F), tail, tail]
  else none

/-- The quotation mark. -/
def quote : UInt8 := 34

/-- The backslash. -/
def backslash : UInt8 := 92

/-- The text is well-formed UTF-8 and has no character that a JSON string must escape. -/
def plain : List Range → List UInt8 → Bool
  | [], [] => true
  | _ :: _, [] => false
  | range :: pending, byte :: rest => range.has byte && plain pending rest
  | [], byte :: rest =>
    byte ≠ quote && byte ≠ backslash && 0x20 ≤ byte &&
      match follow byte with
      | some pending => plain pending rest
      | none => false

/-- Where a number stands between two of its bytes. -/
inductive Phase where
  | sign
  | zero
  | integer
  | point
  | fraction
  | exponent
  | exponentSign
  | power
  deriving DecidableEq, Repr

/-- What was read of a number. -/
structure Partial where
  phase : Phase
  negative : Bool := false
  mantissa : Nat := 0
  /-- How many digits came after the point. -/
  places : Nat := 0
  negativePower : Bool := false
  power : Nat := 0
  deriving DecidableEq, Repr

/-- The value of a decimal digit. -/
def digit (byte : UInt8) : Option Nat :=
  if 48 ≤ byte ∧ byte ≤ 57 then some (byte.toNat - 48) else none

/-- The value of a hexadecimal digit. -/
def hexDigit (byte : UInt8) : Option Nat :=
  if 48 ≤ byte ∧ byte ≤ 57 then some (byte.toNat - 48)
  else if 65 ≤ byte ∧ byte ≤ 70 then some (byte.toNat - 55)
  else if 97 ≤ byte ∧ byte ≤ 102 then some (byte.toNat - 87)
  else none

/-- A number with one more digit before or after its point. -/
def Partial.push (number : Partial) (phase : Phase) (value : Nat) : Partial :=
  { number with phase := phase, mantissa := number.mantissa * 10 + value
                places := number.places + if phase = .fraction then 1 else 0 }

/-- A number with one more digit in its power of ten. -/
def Partial.raise (number : Partial) (value : Nat) : Partial :=
  { number with phase := .power, power := number.power * 10 + value }

/-- A first digit: no other digit follows a zero. -/
def Partial.first (number : Partial) (byte : UInt8) : Option Partial :=
  (digit byte).map fun value => number.push (if value = 0 then .zero else .integer) value

/-- The number after the letter that starts its power of ten. -/
def Partial.letter (number : Partial) (byte : UInt8) : Option Partial :=
  if byte = 101 ∨ byte = 69 then some { number with phase := .exponent } else none

/-- The number after its point. -/
def Partial.dot (number : Partial) (byte : UInt8) : Option Partial :=
  if byte = 46 then some { number with phase := .point } else none

/-- A number with one more byte, when the byte belongs to it. -/
def Partial.next (number : Partial) (byte : UInt8) : Option Partial :=
  match number.phase with
  | .sign => number.first byte
  | .zero => number.dot byte <|> number.letter byte
  | .integer =>
    (digit byte).map (number.push .integer) <|> number.dot byte <|> number.letter byte
  | .point => (digit byte).map (number.push .fraction)
  | .fraction => (digit byte).map (number.push .fraction) <|> number.letter byte
  | .exponent =>
    if byte = 43 then some { number with phase := .exponentSign }
    else if byte = 45 then some { number with phase := .exponentSign, negativePower := true }
    else (digit byte).map number.raise
  | .exponentSign | .power => (digit byte).map number.raise

/-- A signed number. -/
def signed (negative : Bool) (value : Nat) : Int :=
  if negative then -value else value

/-- The token of a number that may end here. -/
def Partial.token (number : Partial) : Option Token :=
  match number.phase with
  | .zero | .integer | .fraction | .power =>
    some (.number (signed number.negative number.mantissa)
      (signed number.negativePower number.power - number.places))
  | _ => none

/-- Where a text stands between two of its bytes. -/
inductive Mode where
  /-- Between tokens. -/
  | idle
  /-- In a string, with the ranges of the bytes its last character still needs. -/
  | string (pending : List Range) (text : List UInt8)
  /-- After a backslash. -/
  | escape (text : List UInt8)
  /-- In the four digits of a code unit, perhaps the second of a pair. -/
  | unit (text : List UInt8) (high : Option Nat) (digits : List Nat)
  /-- After the first code unit of a pair. -/
  | pair (text : List UInt8) (high : Nat)
  /-- After the backslash that follows it. -/
  | pairEscape (text : List UInt8) (high : Nat)
  /-- In a number. -/
  | number (number : Partial)
  /-- In a literal name, with its bytes that are missing. -/
  | word (missing : List UInt8) (token : Token)
  deriving DecidableEq, Repr

/-- What a byte completes, and where the text stands then. -/
abbrev Outcome := Option (List Token × Mode)

/-- A byte between tokens. -/
def idleByte (byte : UInt8) : Outcome :=
  if byte ∈ [(32 : UInt8), 9, 10, 13] then some ([], .idle)
  else if byte = 123 then some ([.openObject], .idle)
  else if byte = 125 then some ([.closeObject], .idle)
  else if byte = 91 then some ([.openArray], .idle)
  else if byte = 93 then some ([.closeArray], .idle)
  else if byte = 58 then some ([.colon], .idle)
  else if byte = 44 then some ([.comma], .idle)
  else if byte = quote then some ([], .string [] [])
  else if byte = 45 then some ([], .number { phase := .sign, negative := true })
  else if byte = 116 then some ([], .word (Ascii.bytes "rue") (.bool true))
  else if byte = 102 then some ([], .word (Ascii.bytes "alse") (.bool false))
  else if byte = 110 then some ([], .word (Ascii.bytes "ull") .null)
  else (Partial.first { phase := .sign } byte).map fun number => ([], .number number)

/-- A byte of a string. -/
def stringByte (pending : List Range) (text : List UInt8) (byte : UInt8) : Outcome :=
  match pending with
  | range :: pending =>
    if range.has byte then some ([], .string pending (text ++ [byte])) else none
  | [] =>
    if byte = quote then some ([.string text], .idle)
    else if byte = backslash then some ([], .escape text)
    else if byte < 0x20 then none
    else (follow byte).map fun pending => ([], .string pending (text ++ [byte]))

/-- The character a one-letter escape stands for. -/
def escaped (byte : UInt8) : Option UInt8 :=
  if byte = quote ∨ byte = backslash ∨ byte = 47 then some byte
  else if byte = 98 then some 8
  else if byte = 102 then some 12
  else if byte = 110 then some 10
  else if byte = 114 then some 13
  else if byte = 116 then some 9
  else none

/-- A byte after a backslash. -/
def escapeByte (text : List UInt8) (byte : UInt8) : Outcome :=
  if byte = 117 then some ([], .unit text none [])
  else (escaped byte).map fun character => ([], .string [] (text ++ [character]))

/-- The UTF-8 bytes of a code point. -/
def utf8 (point : Nat) : List UInt8 :=
  String.utf8EncodeChar (Char.ofNat point)

/-- A complete code unit: a surrogate counts only as part of a pair. -/
def unitEnd (text : List UInt8) (high : Option Nat) (unit : Nat) : Outcome :=
  match high with
  | none =>
    if unit < 0xD800 ∨ 0xE000 ≤ unit then some ([], .string [] (text ++ utf8 unit))
    else if unit < 0xDC00 then some ([], .pair text unit)
    else none
  | some high =>
    if 0xDC00 ≤ unit ∧ unit < 0xE000 then
      some ([], .string []
        (text ++ utf8 (0x10000 + (high - 0xD800) * 0x400 + (unit - 0xDC00))))
    else none

/-- A byte of a code unit. -/
def unitByte (text : List UInt8) (high : Option Nat) (digits : List Nat) (byte : UInt8) :
    Outcome :=
  (hexDigit byte).bind fun value =>
    let digits := digits ++ [value]
    if digits.length = 4 then unitEnd text high
      (digits.foldl (fun unit digit => unit * 16 + digit) 0)
    else some ([], .unit text high digits)

/-- A byte of a literal name. -/
def wordByte (missing : List UInt8) (token : Token) (byte : UInt8) : Outcome :=
  match missing with
  | [] => none
  | [last] => if byte = last then some ([token], .idle) else none
  | next :: missing => if byte = next then some ([], .word missing token) else none

/-- One byte of a text. -/
def step (mode : Mode) (byte : UInt8) : Outcome :=
  match mode with
  | .idle => idleByte byte
  | .string pending text => stringByte pending text byte
  | .escape text => escapeByte text byte
  | .unit text high digits => unitByte text high digits byte
  | .pair text high => if byte = backslash then some ([], .pairEscape text high) else none
  | .pairEscape text high => if byte = 117 then some ([], .unit text (some high) []) else none
  | .word missing token => wordByte missing token byte
  | .number current =>
    match current.next byte with
    | some longer => some ([], .number longer)
    -- A byte that does not belong to the number comes after it.
    | none =>
      current.token.bind fun token => (idleByte byte).map fun after => (token :: after.1, after.2)

/-- Some bytes of a text. -/
def run : Mode → List UInt8 → Outcome
  | mode, [] => some ([], mode)
  | mode, byte :: rest =>
    (step mode byte).bind fun now =>
      (run now.2 rest).map fun later => (now.1 ++ later.1, later.2)

/-- What the end of the text completes. -/
def Mode.finish : Mode → Option (List Token)
  | .idle => some []
  | .number current => current.token.map fun token => [token]
  | _ => none

/-- The tokens of what is left of a text. -/
def lexFrom (mode : Mode) (bytes : List UInt8) : Option (List Token) :=
  (run mode bytes).bind fun now => now.2.finish.map fun tokens => now.1 ++ tokens

/-- The tokens of a text. -/
def lex (bytes : List UInt8) : Option (List Token) :=
  lexFrom .idle bytes

/-- The values of JSON. -/
inductive Value where
  | null
  | bool (value : Bool)
  | number (mantissa exponent : Int)
  | string (text : List UInt8)
  | array (items : List Value)
  | object (members : List (List UInt8 × Value))
  deriving Repr

/-- What stands between an item and those after it. -/
def separator {α : Type} (rest : List α) : List Token :=
  if rest.isEmpty then [] else [.comma]

mutual

/-- The tokens a value is written with. -/
def Value.tokens : Value → List Token
  | .null => [.null]
  | .bool value => [.bool value]
  | .number mantissa exponent => [.number mantissa exponent]
  | .string text => [.string text]
  | .array items => .openArray :: (itemTokens items ++ [.closeArray])
  | .object members => .openObject :: (memberTokens members ++ [.closeObject])

/-- The tokens of the items of an array. -/
def itemTokens : List Value → List Token
  | [] => []
  | value :: rest => value.tokens ++ (separator rest ++ itemTokens rest)

/-- The tokens of the members of an object. -/
def memberTokens : List (List UInt8 × Value) → List Token
  | [] => []
  | (key, value) :: rest =>
    .string key :: .colon :: (value.tokens ++ (separator rest ++ memberTokens rest))

end

mutual

/-- A value at the front of some tokens, and the tokens after it. -/
def parseValue : Nat → List Token → Option (Value × List Token)
  | 0, _ => none
  | fuel + 1, tokens =>
    match tokens with
    | .null :: rest => some (.null, rest)
    | .bool value :: rest => some (.bool value, rest)
    | .number mantissa exponent :: rest => some (.number mantissa exponent, rest)
    | .string text :: rest => some (.string text, rest)
    | .openArray :: .closeArray :: rest => some (.array [], rest)
    | .openArray :: rest => (parseItems fuel rest).map fun items => (.array items.1, items.2)
    | .openObject :: .closeObject :: rest => some (.object [], rest)
    | .openObject :: rest =>
      (parseMembers fuel rest).map fun members => (.object members.1, members.2)
    | _ => none

/-- The items of an array that is not empty, up to its end. -/
def parseItems : Nat → List Token → Option (List Value × List Token)
  | 0, _ => none
  | fuel + 1, tokens =>
    (parseValue fuel tokens).bind fun first =>
      match first.2 with
      | .closeArray :: rest => some ([first.1], rest)
      | .comma :: rest =>
        (parseItems fuel rest).map fun later => (first.1 :: later.1, later.2)
      | _ => none

/-- The members of an object that is not empty, up to its end. -/
def parseMembers : Nat → List Token → Option (List (List UInt8 × Value) × List Token)
  | 0, _ => none
  | fuel + 1, tokens =>
    match tokens with
    | .string key :: .colon :: tokens =>
      (parseValue fuel tokens).bind fun first =>
        match first.2 with
        | .closeObject :: rest => some ([(key, first.1)], rest)
        | .comma :: rest =>
          (parseMembers fuel rest).map fun later => ((key, first.1) :: later.1, later.2)
        | _ => none
    | _ => none

end

/-- The one value that some tokens are written for. -/
def parse (tokens : List Token) : Option Value :=
  -- Every call passes a token, so the number of tokens is enough fuel.
  match parseValue tokens.length tokens with
  | some (value, []) => some value
  | _ => none

/-- The value of a text that is exactly one JSON document. -/
def decode (bytes : List UInt8) : Option Value :=
  (lex bytes).bind parse

end Json
