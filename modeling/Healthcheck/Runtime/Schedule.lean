import Healthcheck.Protocol.Start

/-! The timers of a process: the next round of each peer, and the watch over all of them. -/

namespace Healthcheck

open Program

/-- `NGX_HEALTHCHECK_CLAIM_RETRY_MS`. -/
def claimRetryMs : Nat := 10

/-- `NGX_HEALTHCHECK_BUSY_RETRY_MS`. -/
def busyRetryMs : Nat := 100

/-- `ngx_healthcheck_claim`; the second result is the wait it reports. -/
def claim (gen : Generation) (i : Nat) (takeover : Option PeerState) (limit : Nat) :
    Action (Rc × Nat) := do
  if ¬ (← self).runtime.registered then return (.declined, 0)
  else if ← stopping gen then return (.declined, 0)
  else do
    preempt
    match ← claimRound gen i takeover limit with
    | (.ok, _) => do
      probeStart gen i
      return (.ok, 0)
    | refused => return refused

/-- `ngx_healthcheck_begin`. -/
def begin (gen : Generation) (i : Nat) : Action Unit := do
  if ← stopping gen then return ()
  else
    let peer := (← self).peers i
    if peer.allocated ∧ (peer.probe.round.active ∨ peer.probe.round.pending) then
      armCheck gen i busyRetryMs
    else
      match ← claim gen i none 0 with
      -- The claim has set the timer to the start of the next round.
      | (.ok, _) => return ()
      | (.declined, _) => do
        recordIo (.lost i)
        disarmCheck i
        if ((← self).peers i).allocated then probeDiscard i
      | (.again, wait) => armCheck gen i (if wait ≠ 0 then wait else claimRetryMs)
      | (.error, _) => armCheck gen i (gen.conf i).checkInterval

/-- Eight bytes, the most significant first. -/
def bigEndian (value : Nat) : List UInt8 :=
  (List.range 8).map fun k => UInt8.ofNat (value >>> (8 * (7 - k)))

/-- `ngx_healthcheck_score`: independent of the machine's word size and byte order. -/
def score (gen : Generation) (i worker : Nat) : Nat :=
  let kind : UInt8 := match gen.module with | .http => 1 | .stream => 2
  gen.murmurHash (kind :: bigEndian i ++ bigEndian worker)

/-- `ngx_healthcheck_read_peer`; `none` is `NGX_AGAIN`. -/
def readPeer (i limit : Nat) : Action (Option PeerState) := do
  match ← lock (.peer i) limit with
  | .ok => do
    let state := ((← read).sys.shared.peers i).current
    unlock (.peer i)
    return some state
  | _ => return none

/-- `ngx_healthcheck_read_worker`; `none` is `NGX_AGAIN`. -/
def readWorker (number limit : Nat) : Action (Option WorkerState) := do
  match ← lock (.worker number) limit with
  | .ok => do
    let state := ((← read).sys.shared.workers number).current
    unlock (.worker number)
    return some state
  | _ => return none

/-- Whether a registration may back a peer up. -/
def eligible (gen : Generation) (state : PeerState) (now number : Nat)
    (candidate : WorkerState) : Bool :=
  candidate.inst ≠ 0 && !candidate.exiting
    && !(number = state.worker && candidate.inst = state.inst)
    && candidate.heartbeat ≤ now && decide (now - candidate.heartbeat < gen.grace)

/-- One candidate against the best so far; the largest word stands for none. -/
def betterBackup (gen : Generation) (i : Nat) (state : PeerState) (now number : Nat)
    (candidate : Option WorkerState) (best : Nat × Nat) : Nat × Nat :=
  match candidate with
  | none => best
  | some candidate =>
    if eligible gen state now number candidate
        ∧ (best.1 = gen.word.max ∨ score gen i number > best.2) then
      (number, score gen i number)
    else best

/-- The loop of `ngx_healthcheck_preferred` over the remaining workers. -/
def preferredLoop (gen : Generation) (i : Nat) (state : PeerState) (time limit : Nat) :
    Nat → Nat × Nat → Action Bool
  | 0, best => do
    return decide (best.1 = (← self).runtime.worker)
  | left + 1, best => do
    match ← now with
    | none => return false
    | some fresh =>
      if fresh ≥ limit then return false
      else do
        let number := gen.workers - (left + 1)
        preempt
        let candidate ← readWorker number limit
        preferredLoop gen i state time limit left
          (betterBackup gen i state time number candidate best)

/-- `ngx_healthcheck_preferred`. -/
def preferred (gen : Generation) (i : Nat) (state : PeerState) (time limit : Nat) :
    Action Bool :=
  preferredLoop gen i state time limit gen.workers (gen.word.max, 0)

/-- The watch's visit to a peer another process owns: a takeover when its owner is overdue.
`false` ends the pass. -/
def watchForeign (gen : Generation) (i limit : Nat) (state : PeerState) : Action Bool := do
  let activatedAt := (← read).sys.shared.activatedAt
  let due := addTime (peerDeadline gen i activatedAt state) gen.grace
  match ← now with
  | none => return false
  | some reading => do
    let time := milliseconds reading
    if time < due then return true
    else
      let chosen ← if time ≥ addTime due gen.preference then pure true
        else preferred gen i state time limit
      if chosen then
        let _ ← claim gen i (some state) limit
      return true

/-- The watch's visit to one peer; `false` ends the pass. -/
def watchPeer (gen : Generation) (i limit : Nat) : Action Bool := do
  let peer := (← self).peers i
  if peer.allocated ∧ peer.probe.round.pending then do
    preempt
    let _ ← settle gen i limit
  preempt
  match ← readPeer i limit with
  | none => return true
  | some state => do
    let p ← self
    let peer := p.peers i
    let round := peer.probe.round
    if state.phase = .initial ∧ state.inst = 0 ∧ state.worker = p.runtime.worker
        ∧ peer.checkEv = none then
      armCheck gen i (firstDelay gen i (← ask).random)
    if peer.allocated ∧ (state.worker ≠ p.runtime.worker ∨ state.inst ≠ round.inst
        ∨ state.term ≠ round.term ∨ state.round ≠ round.number) then do
      recordIo (.lost i)
      probeDiscard i
      clearRound i
      disarmCheck i
    if state.worker = p.runtime.worker ∧ state.inst = p.runtime.inst then do
      if ((← self).peers i).allocated ∧ ((← self).peers i).probe.round.active then
        probeResume gen i
      return true
    else watchForeign gen i limit state

/-- The visits of one pass of the watch. -/
def watchLoop (gen : Generation) (limit : Nat) : Nat → Action Unit
  | 0 => return ()
  | left + 1 => do
    let i := (← self).runtime.cursor
    modifyRuntime fun r => { r with cursor := (i + 1) % gen.nelts }
    if ← watchPeer gen i limit then
      match ← now with
      | none => return ()
      | some reading => if reading ≥ limit then return () else watchLoop gen limit left

/-- The label `rearm` of `ngx_healthcheck_watch`. -/
def rearmWatch (gen : Generation) : Action Unit := do
  modifyRuntime fun r => { r with budget := 0 }
  if ¬ (← self).runtime.stopping then
    modifyRuntime fun r => { r with watch := some (timerDelay gen gen.interval) }

/-- `ngx_healthcheck_watch`. -/
def watch (gen : Generation) : Action Unit := do
  if ← stopping gen then return ()
  else
    match ← now with
    | none => rearmWatch gen
    | some reading => do
      let limit := addTime reading lockNs
      modifyRuntime fun r => { r with budget := limit }
      if (← register limit) = .declined then runtimeStop gen
      else do
        if (← self).runtime.registered then watchLoop gen limit (min gen.nelts batch)
        rearmWatch gen

/-- What the event loop of a process can call. -/
inductive Callback where
  | checkTimer (i : Nat)
  | timeoutTimer (i : Nat)
  | watchTimer
  | readEvent (i : Nat)
  | writeEvent (i : Nat)
  /-- The exit hook of the module. -/
  | exit
  deriving DecidableEq, Repr

/-- An event of a peer's connection, if it has one, runs the handler installed for it. -/
def connectionEvent (gen : Generation) (i : Nat) (handler : Connection → Handler) :
    Action Unit := do
  match ((← self).peers i).probe.connection with
  | none => return ()
  | some connection => runHandler gen i connection.id (handler connection)

/-- A callback of the event loop; a timer calls back only when it is armed, and is no longer. -/
def Callback.run (gen : Generation) : Callback → Action Unit
  | .checkTimer i => do
    if ((← self).peers i).checkEv.isSome then do
      disarmCheck i
      begin gen i
  | .timeoutTimer i => do
    if ((← self).peers i).probe.timeout.isSome then do
      modifyProbe i fun probe => { probe with timeout := none }
      timeout gen i
  | .watchTimer => do
    if (← self).runtime.watch.isSome then do
      modifyRuntime fun r => { r with watch := none }
      watch gen
  | .readEvent i => connectionEvent gen i Connection.readHandler
  | .writeEvent i => connectionEvent gen i Connection.writeHandler
  | .exit => runtimeStop gen

end Healthcheck
