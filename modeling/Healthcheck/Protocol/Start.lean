import Healthcheck.Protocol.Tcp
import Healthcheck.Protocol.Udp

/-! The start of a round's I/O, and its continuation by the watch. -/

namespace Healthcheck

open Program

/-- The handler of one of a connection's events runs. -/
def runHandler (gen : Generation) (i connection : Nat) : Handler → Action Unit
  | .tcpEvent => tcpEvent gen i connection
  | .tcpIdle => tcpIdle gen i connection
  | .udpRead => udpRead gen i connection
  | .udpWrite => udpWrite gen i connection
  -- The idle write handler keeps the slot and does nothing.
  | .idleWrite => return ()
  | .unset => return ()

/-- The age of a connection, an unsigned difference of `ngx_msec_t`. -/
def connectionAge (gen : Generation) (startTime currentMsec : Nat) : Nat :=
  (currentMsec + gen.word.size - startTime) % gen.word.size

/-- A retained connection that reached its age limit is closed. -/
def expireConnection (gen : Generation) (i : Nat) : Action Unit := do
  let conf := gen.conf i
  let currentMsec := (← ask).currentMsec
  match ((← self).peers i).probe.connection with
  | none => return ()
  | some connection => do
    recordIo (.aged i connection.id currentMsec)
    if conf.rehandshake ≠ 0
        ∧ connectionAge gen connection.startTime currentMsec ≥ conf.rehandshake then
      probeClose i

/-- `ngx_event_connect_peer`: a failed attempt leaves no connection. -/
def connectPeer (i : Nat) : Action Rc := do
  let answer ← ask
  recordIo (.connecting i)
  if answer.connect = .error ∨ answer.connect = .declined ∨ ¬ answer.flag then do
    modifyProbe i fun probe => { probe with connection := none }
    return answer.connect
  else do
    let p ← self
    modifySelf fun p => { p with opened := p.opened + 1 }
    modifyProbe i fun probe =>
      { probe with connection := some { id := p.opened, startTime := answer.currentMsec } }
    recordIo (.established i p.opened answer.currentMsec)
    return answer.connect

/-- The label `connected` of `ngx_healthcheck_probe_start`: handlers, deadline and timer. -/
def connected (gen : Generation) (i connection : Nat) (rc : Rc) : Action Unit := do
  let udp : Bool := (gen.conf i).checkType = .udp
  let writeHandler := if udp then Handler.udpWrite else .tcpEvent
  modifyProbe i fun probe =>
    { probe with
      connection := probe.connection.map fun c =>
        { c with writeHandler := writeHandler,
                 readHandler := if udp then .udpRead else .tcpEvent }
      prepared := true }
  match ← now with
  | none => do
    recordIo (.unclocked i)
    finish gen i udp "monotonic clock unavailable" "clock" none
  | some reading => do
    restartDeadline gen i reading
    modifyProbe i fun probe => { probe with stage := if udp then "send" else "tcp check" }
    preempt
    let _ ← probeWaiting gen i
    let deadline := ((← self).peers i).probe.round.deadline
    armTimeout gen i
      (if milliseconds reading < deadline then deadline - milliseconds reading else 0)
    if rc = .ok then runHandler gen i connection writeHandler

/-- The part of `ngx_healthcheck_probe_start` that opens a new connection. -/
def reconnect (gen : Generation) (i : Nat) : Action Unit := do
  let udp : Bool := (gen.conf i).checkType = .udp
  let rc ← connectPeer i
  match ((← self).peers i).probe.connection with
  | none => finish gen i udp "socket preparation failed" "ngx_event_connect_peer" none
  | some connection => do
    modifyProbe i fun probe => { probe with discarded := 0 }
    -- The keepalive options are set one by one; the first failure gives the connection up.
    if ¬ udp ∧ (gen.conf i).keepalive ∧ ¬ (← ask).eventOk then do
      probeClose i
      finish gen i false "keepalive socket option failed" "setsockopt" none
    else connected gen i connection.id rc

/-- `ngx_healthcheck_probe_start`. -/
def probeStart (gen : Generation) (i : Nat) : Action Unit := do
  preempt
  match ← probeValid gen i with
  | .declined => do
    recordIo (.lost i)
    modifyRound i fun round => { round with active := false }
    probeDiscard i
  | .ok => do
    recordIo (.confirmed i)
    match ← now with
    | none => return ()
    | some reading =>
      if milliseconds reading ≥ ((← self).peers i).probe.round.deadline then timeout gen i
      else do
        expireConnection gen i
        match ((← self).peers i).probe.connection with
        | none => reconnect gen i
        | some connection =>
          if ← tcpPeek i connection.id .probeStart then connected gen i connection.id .ok
          else do
            probeClose i
            reconnect gen i
  -- No network action was taken: the watch prepares the round again later.
  | _ => return ()

/-- A ready event of the current connection runs its handler. -/
def resumeEvent (gen : Generation) (i : Nat) (handler : Connection → Handler) : Action Unit := do
  let ready := (← ask).flag
  match ((← self).peers i).probe.connection with
  | none => return ()
  | some connection =>
    if ready then runHandler gen i connection.id (handler connection)

/-- `ngx_healthcheck_probe_resume`. -/
def probeResume (gen : Generation) (i : Nat) : Action Unit := do
  let probe := ((← self).peers i).probe
  if ¬ probe.round.active then return ()
  else if ¬ probe.prepared then probeStart gen i
  else do
    preempt
    let _ ← probeWaiting gen i
    let reading ← now
    if reading.any fun t => milliseconds t ≥ probe.round.deadline then timeout gen i
    else do
      resumeEvent gen i Connection.readHandler
      if ((← self).peers i).probe.round.active then resumeEvent gen i Connection.writeHandler

end Healthcheck
