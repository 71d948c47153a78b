import Healthcheck.Runtime.Lifecycle

/-! The end of a round and the events of its connection, whatever the check protocol. -/

namespace Healthcheck

open Program

/-- `NGX_HEALTHCHECK_IDLE_DISCARD_MAX`. -/
def idleDiscardMax : Nat := 4096

/-- The size of the next idle read, one byte more than what may still be discarded. -/
def idleReadSize (gen : Generation) (discarded : Nat) : Nat :=
  (idleDiscardMax + gen.word.size - discarded + 1) % gen.word.size

/-- The read loop of `ngx_healthcheck_tcp_idle`; `true` asks to close the connection.
An interrupted call is repeated for as long as the environment interrupts it. -/
def idleLoop (gen : Generation) (i connection : Nat) : Nat → Action Bool
  -- A loop that is still interrupted when the fuel is spent has not returned.
  | 0 => diverge
  | fuel + 1 => do
    let discarded := ((← self).peers i).probe.discarded
    let requested := idleReadSize gen discarded
    let answer ← ask
    -- The kernel never returns more bytes than the buffer it was given.
    let received := min answer.result requested
    recordIo (.idleRead i connection discarded requested received)
    if received > 0 then do
      modifyProbe i fun probe => { probe with discarded := probe.discarded + received.toNat }
      if ((← self).peers i).probe.discarded > idleDiscardMax then return true
      else idleLoop gen i connection fuel
    else if received = -1 ∧ answer.errno = .eintr then idleLoop gen i connection fuel
    else if received = -1 ∧ answer.errno = .eagain ∧ (← ask).eventOk then return false
    else return true

/-- `ngx_healthcheck_tcp_idle` on the read event of a connection. -/
def tcpIdle (gen : Generation) (i connection : Nat) : Action Unit := do
  let p ← self
  if (p.peers i).probe.connection.map Connection.id ≠ some connection then return ()
  else if p.runtime.stopping ∨ (← quitting) then runtimeStop gen
  -- The flag stands for `connection->close || event->timedout`.
  else if (← ask).flag then probeClose i
  else do
    preempt
    if (← probeValid gen i) = .declined then do
      recordIo (.lost i)
      probeClose i
    else if ← idleLoop gen i connection (← ask).random then probeClose i

/-- `ngx_healthcheck_probe_cleanup`. -/
def probeCleanup (gen : Generation) (i : Nat) (reusable : Bool) : Action Unit := do
  let probe := ((← self).peers i).probe
  let conf := gen.conf i
  match probe.connection with
  | none => probeDiscard i
  | some connection => do
    -- The flag stands for `connection->error || connection->timedout`.
    if ¬ reusable ∨ ¬ conf.keepConnection ∨ conf.checkType ≠ .tcp ∨ (← ask).flag then
      probeDiscard i
    else do
      modifyProbe i fun probe => { probe with timeout := none }
      -- The write event of a level-triggered backend is removed when it is active.
      if (← ask).flag ∧ ¬ (← ask).eventOk then probeClose i
      else do
        modifyProbe i fun probe =>
          { probe with connection := probe.connection.map fun c =>
              { c with writeHandler := .idleWrite, readHandler := .tcpIdle } }
        if ¬ (← ask).eventOk then probeClose i
        else if (← ask).flag then tcpIdle gen i connection.id

/-- `ngx_healthcheck_finish`. -/
def finish (gen : Generation) (i : Nat) (result : Bool) (reason source : String)
    (error : Option Errno) : Action Unit := do
  if ← freeze gen i result reason source error then do
    preempt
    let rc ← settle gen i 0
    recordIo (.submitted i result rc)
    if result then
      modifyProbe i fun probe =>
        { probe with connection := probe.connection.map fun c =>
            { c with requests := c.requests + 1 } }
    probeCleanup gen i (rc = .ok && result)

/-- `ngx_healthcheck_timeout`. -/
def timeout (gen : Generation) (i : Nat) : Action Unit := do
  let p ← self
  let round := (p.peers i).probe.round
  if ¬ round.active ∨ round.pending then return ()
  else if (← quitting) ∨ p.runtime.stopping then runtimeStop gen
  else do
    preempt
    if (← probeValid gen i) = .declined then do
      recordIo (.lost i)
      modifyRound i fun round => { round with active := false }
      probeDiscard i
    else
      match ← now with
      | none => armTimeout gen i 1
      | some reading =>
        let deadline := ((← self).peers i).probe.round.deadline
        if milliseconds reading < deadline then
          armTimeout gen i (deadline - milliseconds reading)
        else do
          recordIo (.expired i reading)
          if (gen.conf i).checkType = .udp then
            finish gen i true "deadline without confirmed failure" "timer" none
          else finish gen i false "tcp timeout" "timer" none

/-- `ngx_healthcheck_io_ready` on an event of a connection: whether the round may go on. -/
def ioReady (gen : Generation) (i connection : Nat) : Action Bool := do
  let p ← self
  let probe := (p.peers i).probe
  if probe.connection.map Connection.id ≠ some connection ∨ ¬ probe.round.active
      ∨ probe.round.pending then return false
  else if (← quitting) ∨ p.runtime.stopping then do
    runtimeStop gen
    return false
  else do
    preempt
    match ← probeValid gen i with
    | .declined => do
      recordIo (.lost i)
      probeDiscard i
      modifyRound i fun round => { round with active := false }
      return false
    | .ok =>
      match ← now with
      | none => return false
      | some reading =>
        if milliseconds reading ≥ ((← self).peers i).probe.round.deadline then do
          timeout gen i
          return false
        else return true
    | _ => return false

end Healthcheck
