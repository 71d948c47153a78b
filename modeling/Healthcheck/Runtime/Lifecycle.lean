import Healthcheck.Runtime.Ownership

/-! Closing check connections, and the start and the end of a process's part in the checks. -/

namespace Healthcheck

open Program

/-- `ngx_healthcheck_probe_close`. -/
def probeClose (i : Nat) : Action Unit := do
  match ((← self).peers i).probe.connection with
  | none => return ()
  | some connection => do
    modifyProbe i fun probe => { probe with connection := none }
    recordIo (.closed i connection.id)

/-- `ngx_healthcheck_probe_cleanup` with `reusable` clear: the timer stops, the connection closes. -/
def probeDiscard (i : Nat) : Action Unit := do
  modifyProbe i fun probe => { probe with timeout := none }
  probeClose i

/-- A round that is over for this process, whatever became of it elsewhere. -/
def clearRound (i : Nat) : Action Unit :=
  modifyRound i fun round => { round with active := false, pending := false }

/-- Arming a peer's `check_ev` timer. -/
def armCheck (gen : Generation) (i delay : Nat) : Action Unit :=
  modifyPeer i fun peer => { peer with checkEv := some (timerDelay gen delay) }

/-- Deleting a peer's `check_ev` timer. -/
def disarmCheck (i : Nat) : Action Unit :=
  modifyPeer i fun peer => { peer with checkEv := none }

/-- Arming a probe's `timeout` timer. -/
def armTimeout (gen : Generation) (i delay : Nat) : Action Unit :=
  modifyProbe i fun probe => { probe with timeout := some (timerDelay gen delay) }

/-- What `ngx_healthcheck_runtime_stop` does to one peer. -/
def stopPeer (i : Nat) : Action Unit := do
  disarmCheck i
  if ((← self).peers i).allocated then do
    probeDiscard i
    clearRound i

/-- `ngx_healthcheck_runtime_stop`. -/
def runtimeStop (gen : Generation) : Action Unit := do
  let p ← self
  modifyRuntime fun r => { r with stopping := true }
  if p.runtime.cleaned then return ()
  else do
    modifyRuntime fun r => { r with watch := none }
    forUpTo stopPeer gen.nelts
    preempt
    retire
    modifyRuntime fun r => { r with cleaned := true }

/-- `ngx_healthcheck_stopping`. -/
def stopping (gen : Generation) : Action Bool := do
  if (← self).runtime.stopping ∨ (← quitting) then do
    runtimeStop gen
    return true
  else return false

/-- `ngx_healthcheck_register`. -/
def register (limit : Nat) : Action Rc := do
  match ← now with
  | none => return .again
  | some reading => do
    preempt
    match ← activate limit reading with
    | .ok => do
      preempt
      registerSlot limit reading
    | rc => return rc

/-- The initial delay of a peer's first check: random within its interval. -/
def firstDelay (gen : Generation) (i random : Nat) : Nat :=
  random % max (gen.conf i).checkInterval 1000

/-- `ngx_healthcheck_start_timers`. -/
def startTimers (gen : Generation) : Action Unit := do
  let p ← self
  if p.runtime.timersStarted ∨ ¬ p.runtime.registered then return ()
  else do
    modifyRuntime fun r => { r with timersStarted := true }
    forUpTo (fun i => do
      if i % gen.workers = p.runtime.worker then
        armCheck gen i (firstDelay gen i (← ask).random)) gen.nelts

/-- `ngx_healthcheck_runtime_init` of a process that has peers to check. -/
def runtimeInit (gen : Generation) : Action Unit := do
  match ← now with
  | none => pure ()
  | some reading => do
    let _ ← register (addTime reading lockNs)
  startTimers gen
  modifyRuntime fun r => { r with watch := some (timerDelay gen gen.interval) }

end Healthcheck
