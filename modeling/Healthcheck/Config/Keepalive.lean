import Healthcheck.Library.Memory
import Healthcheck.Config.Check

/-!
The `keepalive` parameter as the code reads it, byte by byte through pointers, and the grammar of
the parameter.
-/

namespace Healthcheck

open Ascii Memory

section Pointers

variable (platform : Platform) (memory : Memory.Bytes)

/-- `value->len == n && ngx_strncasecmp(value->data, literal, n) == 0`. -/
def sameAt (data len : Nat) (literal : List UInt8) : Except Trap Bool :=
  if len = literal.length then compareFold memory literal data else .ok false

/-- `ngx_strlchr`. -/
def strlchrAt (p last : Nat) (c : UInt8) : Except Trap (Option Nat) :=
  search memory c (last - p) p

/-- `ngx_parse_time` of seconds. -/
def parseTimeAt (data len : Nat) : Except Trap (Option Nat) := do
  return platform.parseTime (← loads memory len data)

/-- `ngx_atoi`. -/
def atoiAt (data len : Nat) : Except Trap (Option Nat) := do
  return platform.atoi (← loads memory len data)

/-- `ngx_healthcheck_parse_handshake` of the bytes at an address. -/
def parseHandshakeAt (data len time : Nat) : Except Trap (Option (Handshake × Nat)) := do
  if ← sameAt memory data len (bytes "off") then return some (.off, time)
  else if len = 0 then return some (.default, time)
  else if ← sameAt memory data len (bytes "on") then return some (.default, time)
  else
    match ← parseTimeAt platform memory data len with
    | none => return none
    | some seconds =>
      if seconds = 0 ∨ seconds > platform.rehandshakeMax / 1000 then return none
      else return some (.time, seconds * 1000 % platform.word.size)

/-- A field that may give a time in seconds. -/
def secondsAt (data len omitted : Nat) : Except Trap (Option Nat) := do
  if len = 0 then return some omitted
  else
    return (← parseTimeAt platform memory data len).filter fun seconds =>
      ¬ (seconds = 0 ∨ seconds > keepaliveTimeMax)

/-- A field that may give a number of probes. -/
def probesAt (data len omitted : Nat) : Except Trap (Option Nat) := do
  if len = 0 then return some omitted
  else
    return (← atoiAt platform memory data len).filter fun count =>
      ¬ (count < 1 ∨ count > keepcntMax)

/-- One field of the keepalive parameter. -/
def keepaliveFieldAt (n data len : Nat) (args : CheckArgs) : Except Trap (Option CheckArgs) :=
  match n with
  | 0 => do
    return (← parseHandshakeAt platform memory data len args.keepaliveTime).map
      fun (mode, time) => { args with keepaliveHandshake := mode, keepaliveTime := time }
  | 1 => do
    return (← secondsAt platform memory data len args.keepaliveIdle).map
      fun seconds => { args with keepaliveIdle := seconds }
  | 2 => do
    return (← secondsAt platform memory data len args.keepaliveInterval).map
      fun seconds => { args with keepaliveInterval := seconds }
  | 3 => do
    return (← probesAt platform memory data len args.keepaliveCount).map
      fun count => { args with keepaliveCount := count }
  | _ => .ok none

/-- The loop over the fields, which goes on while `p <= last`. -/
def keepaliveLoop (last : Nat) : (fuel n p : Nat) → CheckArgs → Except Trap (Option CheckArgs)
  | 0, _, _, _ => .error .endless
  | fuel + 1, n, p, args =>
    if p ≤ last then do
      let stop := (← strlchrAt memory p last 58).getD last
      match ← keepaliveFieldAt platform memory n p (stop - p) args with
      | none => return none
      | some args => keepaliveLoop last fuel (n + 1) (stop + 1) args
    else .ok (some args)

/-- `ngx_healthcheck_parse_keepalive` of the bytes at an address. -/
def parseKeepaliveAt (fuel data len : Nat) (args : CheckArgs) :
    Except Trap (Option CheckArgs) := do
  if len = 0 then return none
  else if ← sameAt memory data len (bytes "off") then
    return some { args with keepalive := false }
  else
    keepaliveLoop platform memory (data + len) fuel 0 data
      { args with keepalive := true, keepaliveHandshake := .default, keepaliveIdle := 0,
                  keepaliveInterval := 0, keepaliveCount := 0 }

end Pointers

section Grammar

variable (platform : Platform)

/-- A field between colons; a missing one is empty. -/
def fieldOf (value : List UInt8) (n : Nat) : List UInt8 :=
  (value.splitOn 58).getD n []

/-- A field that says when to connect again. -/
def ModeField (field : List UInt8) : Prop :=
  field = [] ∨ equalFold field (bytes "on") ∨ equalFold field (bytes "off") ∨
    ∃ seconds, platform.parseTime field = some seconds ∧
      0 < seconds ∧ seconds ≤ platform.rehandshakeMax / 1000

/-- A field that is empty or a whole-second time a socket option takes. -/
def SecondsField (field : List UInt8) : Prop :=
  field = [] ∨ ∃ seconds, platform.parseTime field = some seconds ∧
    1 ≤ seconds ∧ seconds ≤ keepaliveTimeMax

/-- A field that is empty or a number of probes a socket option takes. -/
def ProbesField (field : List UInt8) : Prop :=
  field = [] ∨ ∃ count, platform.atoi field = some count ∧ 1 ≤ count ∧ count ≤ keepcntMax

/-- The grammar of the keepalive parameter. -/
def KeepaliveGrammar (value : List UInt8) : Prop :=
  value ≠ [] ∧
    (equalFold value (bytes "off") ∨
      (value.splitOn 58).length ≤ 4 ∧ ModeField platform (fieldOf value 0) ∧
        SecondsField platform (fieldOf value 1) ∧ SecondsField platform (fieldOf value 2) ∧
          ProbesField platform (fieldOf value 3))

/-- The mode a field asks for, and the time in milliseconds when the mode is one. -/
def AsksMode (field : List UInt8) (mode : Handshake) (time : Nat) : Prop :=
  if equalFold field (bytes "off") then mode = .off
  else if field = [] ∨ equalFold field (bytes "on") then mode = .default
  else mode = .time ∧ ∃ seconds, platform.parseTime field = some seconds ∧ time = seconds * 1000

/-- The number a field gives; none is the module's default, which is kept as zero. -/
def AsksNumber (parse : List UInt8 → Option Nat) (field : List UInt8) (number : Nat) : Prop :=
  if field = [] then number = 0 else parse field = some number

/-- The arguments that a keepalive parameter asks for. -/
def AsksKeepalive (value : List UInt8) (args : CheckArgs) : Prop :=
  if equalFold value (bytes "off") then args.keepalive = false
  else
    args.keepalive = true ∧
      AsksMode platform (fieldOf value 0) args.keepaliveHandshake args.keepaliveTime ∧
        AsksNumber platform.parseTime (fieldOf value 1) args.keepaliveIdle ∧
          AsksNumber platform.parseTime (fieldOf value 2) args.keepaliveInterval ∧
            AsksNumber platform.atoi (fieldOf value 3) args.keepaliveCount

end Grammar

end Healthcheck
