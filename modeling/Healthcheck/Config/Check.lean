import Healthcheck.Library.Ascii
import Healthcheck.Runtime.Process

/-!
The `check` directive: the parameters of an upstream's checks are parsed one by one, and what they
leave open is computed when all of them are known.
-/

namespace Healthcheck

open Ascii

/-- `ngx_healthcheck_handshake_e`: where a reconnection time comes from. -/
inductive Handshake where
  | off
  | default
  | time
  deriving DecidableEq, Repr

/-- `ngx_healthcheck_check_args_t`. -/
structure CheckArgs where
  interval : Nat := 5000
  timeout : Nat := 0
  timeoutSet : Bool := false
  reuse : Handshake := .off
  reuseTime : Nat := 0
  keepalive : Bool := false
  keepaliveHandshake : Handshake := .off
  keepaliveTime : Nat := 0
  keepaliveIdle : Nat := 0
  keepaliveInterval : Nat := 0
  keepaliveCount : Nat := 0
  deriving DecidableEq, Repr

/-- The local variables of `ngx_healthcheck_check`. -/
structure CheckLocals where
  args : CheckArgs := {}
  checkType : Option CheckType := none
  port : Nat := 0
  rise : Nat := 2
  fall : Nat := 3
  /-- `none` is `NGX_CONF_UNSET_UINT`. -/
  down : Option Nat := none
  deriving DecidableEq, Repr

/-- Why a directive is not accepted. -/
inductive Refusal where
  /-- `invalid parameter "%V"`. -/
  | parameter (value : List UInt8)
  | message (text : String)
  /-- An operation has wrapped around; only exact arithmetic says so. -/
  | wrapped
  deriving DecidableEq, Repr

/-- The parsers of nginx and the features of the platform a configuration is read on. -/
structure Platform where
  word : Word
  /-- `NGX_HAVE_KEEPALIVE_TUNABLE`. -/
  keepaliveTunable : Bool
  /-- `ngx_atoi`; `none` is `NGX_ERROR`. -/
  atoi : List UInt8 → Option Nat
  /-- `ngx_parse_time` of seconds; `none` is `NGX_ERROR`. -/
  parseTime : List UInt8 → Option Nat
  /-- Numbers are at most `NGX_MAX_INT_T_VALUE`. -/
  atoi_le : ∀ digits number, atoi digits = some number → number ≤ word.max / 2

/-- What becomes of the exact result of an operation in `ngx_uint_t` and in `uint64_t`. -/
structure Arith where
  word : Int → Except Refusal Nat
  wide : Int → Except Refusal Nat

/-- The arithmetic of the machine keeps the low bits. -/
def Arith.machine (word : Word) : Arith where
  word value := .ok (value % word.size).toNat
  wide value := .ok (value % 2 ^ 64).toNat

/-- Exact arithmetic refuses what the machine would cut. -/
def Arith.exact (word : Word) : Arith where
  word value := if 0 ≤ value ∧ value ≤ word.max then .ok value.toNat else .error .wrapped
  wide value := if 0 ≤ value ∧ value ≤ uint64Max then .ok value.toNat else .error .wrapped

/-- `NGX_HEALTHCHECK_REHANDSHAKE_MAX`. -/
def Platform.rehandshakeMax (platform : Platform) : Nat :=
  platform.word.max / 2

/-- `NGX_HEALTHCHECK_KEEPALIVE_TIME_MAX`. -/
def keepaliveTimeMax : Nat := 32767

/-- `NGX_HEALTHCHECK_KEEPCNT_MAX`. -/
def keepcntMax : Nat := 127

/-- `ngx_healthcheck_types`: the names of the check types. -/
def checkTypes : List (CheckType × List UInt8) :=
  [(.tcp, bytes "tcp"), (.udp, bytes "udp")]

/-- The payload of a check type. -/
def CheckType.defaultSend : CheckType → List UInt8
  | .tcp => []
  | .udp => bytes "NGX_UDP_CHECKER"

variable (platform : Platform) (arith : Arith)

/-- `ngx_healthcheck_parse_handshake`: the mode, and the time in milliseconds when it is one. -/
def parseHandshake (value : List UInt8) (time : Nat) :
    Except Refusal (Option (Handshake × Nat)) :=
  if equalFold value (bytes "off") then .ok (some (.off, time))
  else if value = [] ∨ equalFold value (bytes "on") then .ok (some (.default, time))
  else
    match platform.parseTime value with
    | none => .ok none
    | some seconds =>
      if seconds = 0 ∨ seconds > platform.rehandshakeMax / 1000 then .ok none
      else do return some (.time, ← arith.word (seconds * 1000))

/-- `ngx_strlchr` for a colon, from a position to the end. -/
def strlchr (value : List UInt8) (p : Nat) : Option Nat :=
  ((value.drop p).findIdx? (· == 58)).map (p + ·)

/-- A field that may give a time in seconds. -/
def keepaliveSeconds (field : List UInt8) (omitted : Nat) : Option Nat :=
  if field = [] then some omitted
  else (platform.parseTime field).filter fun seconds => 1 ≤ seconds ∧ seconds ≤ keepaliveTimeMax

/-- A field that may give a number of probes. -/
def keepaliveProbes (field : List UInt8) (omitted : Nat) : Option Nat :=
  if field = [] then some omitted
  else (platform.atoi field).filter fun count => 1 ≤ count ∧ count ≤ keepcntMax

/-- One field of the keepalive parameter. -/
def keepaliveField (n : Nat) (field : List UInt8) (args : CheckArgs) :
    Except Refusal (Option CheckArgs) :=
  match n with
  | 0 => do
    return (← parseHandshake platform arith field args.keepaliveTime).map fun (mode, time) =>
      { args with keepaliveHandshake := mode, keepaliveTime := time }
  | 1 => .ok ((keepaliveSeconds platform field args.keepaliveIdle).map fun seconds =>
      { args with keepaliveIdle := seconds })
  | 2 => .ok ((keepaliveSeconds platform field args.keepaliveInterval).map fun seconds =>
      { args with keepaliveInterval := seconds })
  | 3 => .ok ((keepaliveProbes platform field args.keepaliveCount).map fun count =>
      { args with keepaliveCount := count })
  | _ => .ok none

/-- The loop over the fields of the keepalive parameter, of which a fifth is refused. -/
def keepaliveFields (value : List UInt8) :
    (fuel n p : Nat) → CheckArgs → Except Refusal (Option CheckArgs)
  | 0, _, _, _ => .ok none
  | fuel + 1, n, p, args =>
    if p ≤ value.length then do
      let stop := (strlchr value p).getD value.length
      match ← keepaliveField platform arith n ((value.drop p).take (stop - p)) args with
      | none => return none
      | some args => keepaliveFields value fuel (n + 1) (stop + 1) args
    else .ok (some args)

/-- `ngx_healthcheck_parse_keepalive`. -/
def parseKeepalive (value : List UInt8) (args : CheckArgs) :
    Except Refusal (Option CheckArgs) :=
  if value = [] then .ok none
  else if equalFold value (bytes "off") then .ok (some { args with keepalive := false })
  else keepaliveFields platform arith value 5 0 0
    { args with keepalive := true, keepaliveHandshake := .default, keepaliveIdle := 0,
                keepaliveInterval := 0, keepaliveCount := 0 }

/-- A number that is neither an error nor zero. -/
def positive (digits : List UInt8) : Option Nat :=
  (platform.atoi digits).filter (· ≠ 0)

/-- What the value of a parameter does; `none` is an invalid value. -/
abbrev Setter := List UInt8 → CheckLocals → Except Refusal (Option CheckLocals)

/-- `type=`. -/
def setType : Setter := fun name locals =>
  .ok ((checkTypes.find? fun type => type.2 = name).map fun type =>
    { locals with checkType := some type.1 })

/-- `port=`. -/
def setPort : Setter := fun digits locals =>
  .ok (((platform.atoi digits).filter fun number => 1 ≤ number ∧ number ≤ 65535).map
    fun number => { locals with port := number })

/-- `interval=`. -/
def setInterval : Setter := fun digits locals =>
  .ok ((positive platform digits).map fun number =>
    { locals with args := { locals.args with interval := number } })

/-- `timeout=`. -/
def setTimeout : Setter := fun digits locals =>
  .ok ((positive platform digits).map fun number =>
    { locals with args := { locals.args with timeout := number, timeoutSet := true } })

/-- `rise=`. -/
def setRise : Setter := fun digits locals =>
  .ok ((positive platform digits).map fun number => { locals with rise := number })

/-- `fall=`. -/
def setFall : Setter := fun digits locals =>
  .ok ((positive platform digits).map fun number => { locals with fall := number })

/-- `default_down=`. -/
def setDown : Setter := fun flag locals =>
  .ok (if equalFold (terminated flag) (bytes "true") then some { locals with down := some 1 }
    else if equalFold (terminated flag) (bytes "false") then some { locals with down := some 0 }
    else none)

/-- `reuse=`. -/
def setReuse : Setter := fun value locals =>
  if value = [] then .ok none
  else do
    return (← parseHandshake platform arith value locals.args.reuseTime).map fun (mode, time) =>
      { locals with args := { locals.args with reuse := mode, reuseTime := time } }

/-- `keepalive=`. -/
def setKeepalive : Setter := fun value locals => do
  return (← parseKeepalive platform arith value locals.args).map fun args =>
    { locals with args := args }

/-- The parameters in the order in which their keys are tried. -/
def parameters : List (String × Setter) :=
  [("type=", setType), ("port=", setPort platform), ("interval=", setInterval platform),
    ("timeout=", setTimeout platform), ("rise=", setRise platform), ("fall=", setFall platform),
    ("default_down=", setDown), ("reuse=", setReuse platform arith),
    ("keepalive=", setKeepalive platform arith)]

/-- The parameter whose key starts an argument, and the bytes after the key. -/
def parameterOf (argument : List UInt8) : Option (Setter × List UInt8) :=
  (parameters platform arith).findSome? fun (key, setter) =>
    (argument.dropPrefix? (bytes key)).map fun value => (setter, value)

/-- One argument of the directive. -/
def checkArgument (argument : List UInt8) (locals : CheckLocals) :
    Except Refusal (Option CheckLocals) :=
  match parameterOf platform arith argument with
  | none => .ok none
  | some (setter, value) => setter value locals

/-- The loop over the arguments, which stops at the first invalid one. -/
def checkArguments : List (List UInt8) → CheckLocals → Except Refusal CheckLocals
  | [], locals => .ok locals
  | argument :: rest, locals => do
    match ← checkArgument platform arith argument locals with
    | none => .error (.parameter argument)
    | some locals => checkArguments rest locals

/-- The timeout: the given one, or nine tenths of the interval, five seconds at most. -/
def finishTimeout (args : CheckArgs) : Except Refusal Nat :=
  if args.timeoutSet then
    if args.timeout ≥ args.interval then
      .error (.message "check timeout must be less than interval")
    else .ok args.timeout
  else do return min 5000 (← arith.word (args.interval - (args.interval / 10 : Nat)))

/-- The reconnection time a mode stands for; `UINT64_MAX` is never. -/
def handshakeTime (mode : Handshake) (handshake time : Nat) : Nat :=
  match mode with
  | .off => uint64Max
  | .default => handshake
  | .time => time

/-- A given idle time must end before the reconnection time does. -/
def givenIdle (idle handshake : Nat) : Except Refusal Nat :=
  if handshake = uint64Max then .ok idle
  else do
    let given ← arith.wide (idle * 1000)
    if given ≥ handshake then
      .error (.message "check keepalive idle must be less than the rehandshake interval")
    else return idle

/-- An omitted idle time is one interval, or what ends before the reconnection time does. -/
def omittedIdle (checkInterval handshake : Nat) : Except Refusal Nat := do
  let rounded := (← arith.word (checkInterval + 999)) / 1000
  if handshake = uint64Max then return rounded
  else return min rounded ((← arith.wide (handshake - 1)) / 1000)

/-- The idle time before a keepalive probe, in seconds. -/
def finishIdle (checkInterval handshake : Nat) (args : CheckArgs) : Except Refusal Nat :=
  if args.keepaliveIdle ≠ 0 then givenIdle arith args.keepaliveIdle handshake
  else do
    let idle ← omittedIdle arith checkInterval handshake
    if idle < 1 then
      .error (.message "check rehandshake interval is too short for keepalive probes")
    else return min idle keepaliveTimeMax

/-- `ngx_healthcheck_finish_keepalive`. -/
def finishKeepalive (conf : CheckConf) (args : CheckArgs) (handshake : Nat) :
    Except Refusal CheckConf :=
  if ¬ platform.keepaliveTunable then
    .error (.message ("check keepalive requires TCP_KEEPIDLE, TCP_KEEPINTVL and " ++
      "TCP_KEEPCNT, which are not supported on this platform"))
  else do
    let idle ← finishIdle arith conf.checkInterval handshake args
    let interval := if args.keepaliveInterval ≠ 0 then args.keepaliveInterval else 1
    let count := if args.keepaliveCount ≠ 0 then args.keepaliveCount else 3
    if interval > idle then
      .error (.message "check keepalive interval must not exceed keepalive idle")
    else return { conf with keepaliveIdle := idle, keepaliveInterval := interval,
                            keepaliveCount := count }

/-- A reconnection time in the configuration, where zero is never. -/
def keptHandshake (handshake : Nat) : Except Refusal Nat :=
  if handshake = uint64Max then .ok 0 else arith.word handshake

/-- `ngx_healthcheck_finish_conf`. -/
def finishConf (conf : CheckConf) (args : CheckArgs) : Except Refusal CheckConf :=
  if args.interval < 100 then .error (.message "check interval must be at least 100 ms")
  else do
    let timeout ← finishTimeout arith args
    if conf.checkType ≠ .tcp ∧ (args.reuse ≠ .off ∨ args.keepalive) then
      .error (.message "reuse and keepalive are only valid with type=tcp")
    else
      let doubled ← arith.wide (args.interval * 2)
      let handshake := min (max 30000 doubled) platform.rehandshakeMax
      let reuse := handshakeTime args.reuse handshake args.reuseTime
      let keepalive :=
        if args.keepalive then
          handshakeTime args.keepaliveHandshake handshake args.keepaliveTime
        else uint64Max
      if reuse ≤ args.interval ∨ keepalive ≤ args.interval then
        .error (.message "check rehandshake interval must be greater than interval")
      else
        let handshake := min reuse keepalive
        let rehandshake ← keptHandshake arith handshake
        let conf :=
          { conf with
            checkInterval := args.interval, checkTimeout := timeout
            keepConnection := decide (args.reuse ≠ .off) || args.keepalive
            rehandshake := rehandshake, keepalive := args.keepalive }
        if ¬ args.keepalive then return conf
        else finishKeepalive platform arith conf args handshake

/-- `ngx_healthcheck_check` over the parameters an upstream had before. -/
def check (conf : CheckConf) (arguments : List (List UInt8)) : Except Refusal CheckConf := do
  let locals ← checkArguments platform arith arguments {}
  let type := locals.checkType.getD .tcp
  finishConf platform arith
    { conf with checkType := type, port := locals.port, riseCount := locals.rise,
                fallCount := locals.fall, defaultDown := locals.down.getD 0,
                send := type.defaultSend }
    locals.args

end Healthcheck
