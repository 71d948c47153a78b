import Healthcheck.Protocol.Probe

/-! The UDP check: one datagram is sent, and only a confirmed refusal counts as a failure. -/

namespace Healthcheck

open Program

/-- `ngx_healthcheck_udp_error`; `true` is `NGX_AGAIN`, the round goes on. -/
def udpError (gen : Generation) (i : Nat) (source : String) (error : Errno) : Action Bool := do
  let reading ← now
  recordIo (.udpError i error reading)
  let probe := ((← self).peers i).probe
  match reading with
  | none => do
    finish gen i true "monotonic clock unavailable" "clock" none
    return false
  | some reading =>
    if milliseconds reading ≥ probe.round.deadline then do
      finish gen i true "deadline without confirmed failure" "timer" none
      return false
    else if probe.attempted ∧ error = .econnrefused then do
      finish gen i false "connection refused" source (some error)
      return false
    else if error = .enomem ∨ error = .enobufs ∨ error = .emfile ∨ error = .enfile then do
      finish gen i true "local resource error" source (some error)
      return false
    else do
      modifyProbe i fun probe =>
        { probe with error := some error, source := source, reason := "unconfirmed socket error" }
      return true

/-- `ngx_healthcheck_udp_wait_reply`. -/
def udpWaitReply (gen : Generation) (i : Nat) : Action Unit := do
  modifyProbe i fun probe =>
    { probe with sending := false,
                 stage := if probe.sent then "wait reply" else "wait after send error" }
  -- The write event of a level-triggered backend is removed when it is active.
  if (← ask).flag ∧ ¬ (← ask).eventOk then
    finish gen i true "event removal failed" "event" none
  else if ¬ (← ask).eventOk then
    finish gen i true "read event registration failed" "event" none

/-- The send loop of `ngx_healthcheck_udp_write`: the retries left when the socket is not ready,
zero when all were interrupted, or nothing when the handler is to return. -/
def sendLoop (gen : Generation) (i connection : Nat) : Nat → Action (Option Nat)
  | 0 => return some 0
  | left + 1 => do
    modifyProbe i fun probe => { probe with attempted := true }
    let answer ← ask
    let whole := decide (answer.result = (gen.conf i).send.length)
    recordIo (.sent i whole)
    if whole then do
      modifyProbe i fun probe => { probe with sent := true }
      udpWaitReply gen i
      return none
    else if answer.result ≥ 0 then do
      finish gen i true "incomplete datagram send" "send" none
      return none
    else if answer.errno = .eintr then
      if ← ioReady gen i connection then sendLoop gen i connection left else return none
    else if answer.errno ≠ .eagain then do
      if ← udpError gen i "send" answer.errno then udpWaitReply gen i
      return none
    else return some (left + 1)

/-- `ngx_healthcheck_udp_write`. -/
def udpWrite (gen : Generation) (i connection : Nat) : Action Unit := do
  if ← ioReady gen i connection then
    if ((← self).peers i).probe.sending then
      match ← sendLoop gen i connection 8 with
      | none => return ()
      -- All retries were interrupted: the event is posted again.
      | some 0 => return ()
      | some _ =>
        if ¬ (← ask).eventOk then
          finish gen i true "write event registration failed" "event" none

/-- The retried `SO_ERROR` query of `ngx_healthcheck_udp_read`: the pending error it read, or
nothing when the handler is to return. -/
def socketErrorLoop (gen : Generation) (i connection : Nat) :
    Nat → Action (Option (Option Errno))
  | 0 => return none
  | left + 1 => do
    let answer ← ask
    if answer.result = 0 then return some answer.socketError
    else if answer.errno ≠ .eintr then do
      finish gen i true "socket error query failed" "getsockopt" (some answer.errno)
      return none
    else if ← ioReady gen i connection then socketErrorLoop gen i connection left
    else return none

/-- The receive loop of `ngx_healthcheck_udp_read`; `true` waits for the next event. -/
def receiveLoop (gen : Generation) (i connection : Nat) : Nat → Action Bool
  -- All retries were interrupted: the event is posted again.
  | 0 => return false
  | left + 1 => do
    let answer ← ask
    if answer.result ≥ 0 then do
      finish gen i true (if answer.result = 0 then "empty UDP reply" else "UDP reply") "recv" none
      return false
    else if answer.errno = .eintr then
      if ← ioReady gen i connection then receiveLoop gen i connection left else return false
    else if answer.errno ≠ .eagain then udpError gen i "recv" answer.errno
    else return true

/-- `ngx_healthcheck_udp_read`. -/
def udpRead (gen : Generation) (i connection : Nat) : Action Unit := do
  if ← ioReady gen i connection then
    match ← socketErrorLoop gen i connection 8 with
    | none => return ()
    | some pendingError => do
      let goOn ← match pendingError with
        | none => pure true
        | some error => udpError gen i "SO_ERROR" error
      if goOn then
        if ← receiveLoop gen i connection 8 then
          if ¬ (← ask).eventOk then
            finish gen i true "read event registration failed" "event" none

end Healthcheck
