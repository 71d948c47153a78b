import Healthcheck.Common.Delay
import Healthcheck.Runtime.Process

/-!
The operations that use the shared records, each with at most one critical section: registration,
claims, the progress of a round, its submission, and the registration's end.
-/

namespace Healthcheck

open Program

/-- The frozen delay sample of a round, when it has one. -/
def Round.sampled (round : Round) : Option Nat :=
  if round.sample then some round.delay else none

/-- The delay fields of a health record as statistics. -/
def Health.delays (health : Health) : DelayStats :=
  { last := health.lastCheckDelay, avg := health.avgCheckDelay, min := health.minCheckDelay,
    max := health.maxCheckDelay, delayTotal := health.delayTotal,
    delaySampleCount := health.delaySampleCount }

/-- A delay sample enters the health record unless the statistics refuse it. -/
def Health.addDelay (word : Word) (health : Health) (delay : Nat) : Health :=
  match updateDelay word health.delays delay with
  | none => health
  | some delays =>
    { health with lastCheckDelay := delays.last, avgCheckDelay := delays.avg,
                  minCheckDelay := delays.min, maxCheckDelay := delays.max,
                  delayTotal := delays.delayTotal,
                  delaySampleCount := delays.delaySampleCount }

/-- The health update of `ngx_healthcheck_submit`, without its time stamp. -/
def submitHealth (word : Word) (conf : CheckConf) (health : Health) (result : Bool)
    (sample : Option Nat) : Health :=
  if result then
    -- A saturated counter falls back to the threshold instead of wrapping.
    let rise := if health.riseCount < word.max then health.riseCount + 1 else conf.riseCount
    let health := { health with fallCount := 0, riseCount := rise,
                                down := if rise ≥ conf.riseCount then 0 else health.down }
    match sample with
    | none => health
    | some delay => health.addDelay word delay
  else
    let fall := if health.fallCount < word.max then health.fallCount + 1 else conf.fallCount
    { health with riseCount := 0, fallCount := fall,
                  down := if fall ≥ conf.fallCount then 1 else health.down }

/-- The record a claim publishes over the one it found. -/
def claimState (conf : CheckConf) (runtime : Runtime) (pid : Int) (started : Nat)
    (state : PeerState) : PeerState :=
  { state with
    term := if state.worker ≠ runtime.worker ∨ state.inst ≠ runtime.inst then state.term + 1
            else state.term
    worker := runtime.worker
    owner := pid
    inst := runtime.inst
    round := state.round + 1
    started := started
    phase := .preparing
    deadline := addTime started conf.checkTimeout }

/-- The record a submission publishes; the next round is due one interval after this one began. -/
def submitState (word : Word) (conf : CheckConf) (result : Bool) (sample : Option Nat)
    (submitted : Nat) (state : PeerState) : PeerState :=
  { state with
    health := { submitHealth word conf state.health result sample with accessTime := submitted }
    phase := .waiting
    deadline := max (addTime state.started conf.checkInterval) submitted }

/-- Publishing a peer's record under its lock. -/
def publishPeer (i : Nat) (state : PeerState) (event : Event) : Action Unit := do
  modifyShared fun s => { s with peers := Function.update s.peers i (publish (s.peers i) state) }
  emit event

/-- Publishing a registration under its lock. -/
def publishRegistration (worker : Nat) (state : WorkerState) : Action Unit :=
  modifyShared fun s =>
    { s with workers := Function.update s.workers worker (publishWorker (s.workers worker) state) }

/-- The shared memory once its generation is activated: the time is set once. -/
def Shared.activate (reading : Nat) (shared : Shared) : Shared :=
  if shared.activated then shared
  else { shared with activatedAt := milliseconds reading, activated := true }

/-- The first half of `ngx_healthcheck_register`: the time of activation is set once. -/
def activate (limit reading : Nat) : Action Rc := do
  if (← read).sys.shared.activated then return .ok
  else
    match ← lock .activation limit with
    | .ok => do
      modifyShared (Shared.activate reading)
      unlock .activation
      return .ok
    | _ => return .again

/-- The second half of `ngx_healthcheck_register`: a new instance, or the heartbeat of this one. -/
def registerSlot (limit reading : Nat) : Action Rc := do
  let p ← self
  let worker := p.runtime.worker
  match ← lock (.worker worker) limit with
  | .ok => do
    let state := ((← read).sys.shared.workers worker).current
    if ¬ p.runtime.registered then
      if state.inst = uint64Max then do
        unlock (.worker worker)
        return .error
      else do
        publishRegistration worker
          { pid := p.pid, inst := state.inst + 1, exiting := false,
            heartbeat := milliseconds reading }
        emit (.registered (← read).me worker (state.inst + 1))
        modifyRuntime fun r => { r with inst := state.inst + 1, registered := true }
        unlock (.worker worker)
        return .ok
    else if state.inst ≠ p.runtime.inst ∨ state.pid ≠ p.pid ∨ state.exiting then do
      unlock (.worker worker)
      return .declined
    else do
      publishRegistration worker { state with heartbeat := milliseconds reading }
      unlock (.worker worker)
      return .ok
  | _ => return .again

/-- The end of `ngx_healthcheck_runtime_stop`: a process marks its own registration as exiting. -/
def retire : Action Unit := do
  let p ← self
  let worker := p.runtime.worker
  if p.runtime.registered then
    match ← lock (.worker worker) 0 with
    | .ok => do
      let state := ((← read).sys.shared.workers worker).current
      if state.pid = p.pid ∧ state.inst = p.runtime.inst then do
        publishRegistration worker { state with exiting := true }
        emit (.exited (← read).me worker state.inst)
      unlock (.worker worker)
    | _ => return ()

/-- The locks and the identity checks of `ngx_healthcheck_owned_lock`, within a limit. -/
def lockRecord (i limit : Nat) : Action (Except Rc PeerState) := do
  let p ← self
  let round := (p.peers i).probe.round
  let worker := p.runtime.worker
  match ← lock (.worker worker) limit with
  | .ok => do
    let registration := ((← read).sys.shared.workers worker).current
    if registration.inst ≠ round.inst ∨ registration.exiting ∨ registration.pid ≠ p.pid then do
      unlock (.worker worker)
      return .error .declined
    else
      match ← lock (.peer i) limit with
      | .ok => do
        let state := ((← read).sys.shared.peers i).current
        if state.worker ≠ worker ∨ state.inst ≠ round.inst ∨ state.term ≠ round.term
            ∨ state.round ≠ round.number ∨ state.owner ≠ p.pid then do
          unlock (.peer i)
          unlock (.worker worker)
          return .error .declined
        else return .ok state
      | _ => do
        unlock (.worker worker)
        return .error .again
  | _ => return .error .again

/-- `ngx_healthcheck_owned_lock`: both locks are held when it returns a record. -/
def ownedLock (gen : Generation) (i limit : Nat) : Action (Except Rc PeerState) := do
  let p ← self
  if p.runtime.stopping ∨ (← quitting) ∨ (p.peers i).probe.round.generation ≠ gen.generation then
    return .error .declined
  else
    let limit := if limit = 0 ∧ p.runtime.budget ≠ 0 then p.runtime.budget else limit
    if limit = 0 then
      match ← now with
      | none => return .error .again
      | some reading => lockRecord i (addTime reading lockNs)
    else lockRecord i limit

/-- `ngx_healthcheck_owned_unlock`. -/
def ownedUnlock (i : Nat) : Action Unit := do
  unlock (.peer i)
  unlock (.worker (← self).runtime.worker)

/-- `ngx_healthcheck_probe_valid`. -/
def probeValid (gen : Generation) (i : Nat) : Action Rc := do
  match ← ownedLock gen i 0 with
  | .error rc => return rc
  | .ok _ => do
    ownedUnlock i
    return .ok

/-- `ngx_healthcheck_probe_waiting`. -/
def probeWaiting (gen : Generation) (i : Nat) : Action Rc := do
  let round := ((← self).peers i).probe.round
  if round.waitingPublished then return .ok
  else
    match ← ownedLock gen i 0 with
    | .error rc => return rc
    | .ok state => do
      if state.phase = .preparing then do
        let next := { state with phase := .inflight, deadline := round.deadline }
        publishPeer i next (.inflight (← read).me i state next)
      modifyRound i fun round => { round with waitingPublished := true }
      ownedUnlock i
      return .ok

/-- TCP counts its timeout from the end of the preparation; UDP keeps the deadline of the claim. -/
def restartDeadline (gen : Generation) (i reading : Nat) : Action Unit := do
  if (gen.conf i).checkType = .tcp then
    modifyRound i fun round =>
      { round with deadline := addTime (milliseconds reading) (gen.conf i).checkTimeout }

/-- `ngx_healthcheck_submit`. -/
def submit (gen : Generation) (i limit : Nat) : Action Rc := do
  let conf := gen.conf i
  match ← ownedLock gen i limit with
  | .error rc => return rc
  | .ok state => do
    if (state.phase ≠ .preparing ∧ state.phase ≠ .inflight) ∨ (← quitting) then do
      ownedUnlock i
      return .declined
    else
      match ← now with
      | none => do
        ownedUnlock i
        return .again
      | some reading => do
        let round := ((← self).peers i).probe.round
        let next :=
          submitState gen.word conf round.result round.sampled (milliseconds reading) state
        publishPeer i next (.committed (← read).me i round.result round.sampled state next)
        ownedUnlock i
        modifyRound i fun round => { round with pending := false }
        -- A round that overran its interval is followed at once by the next one.
        if milliseconds reading ≥ addTime state.started conf.checkInterval then
          modifyPeer i fun peer => { peer with checkEv := some (timerDelay gen 0) }
        return .ok

/-- A submission and what its callers do when it is declined. -/
def settle (gen : Generation) (i limit : Nat) : Action Rc := do
  let rc ← submit gen i limit
  if rc = .declined then
    modifyRound i fun round => { round with pending := false }
  return rc

/-- The unsigned difference of two times, taken in 64 bits and then cut to `ngx_msec_t`. -/
def elapsed (word : Word) (started finished : Nat) : Nat :=
  min (wrap64 (2 ^ 64 + finished - started)) word.max

/-- The delay sample a finishing round contributes: a successful TCP check on a connection no
earlier round has used, timed by the clock when it can be read. -/
def takeSample (gen : Generation) (i : Nat) (result : Bool) : Action (Option Nat) := do
  let probe := ((← self).peers i).probe
  if result ∧ (gen.conf i).checkType = .tcp ∧ probe.connection.any fun c => c.requests == 0 then do
    let reading ← now
    return reading.map fun t => elapsed gen.word probe.round.started (milliseconds t)
  else return none

/-- The history names the connection a delay sample was taken from. -/
def recordSample (i : Nat) (delay : Option Nat) : Action Unit := do
  match delay, ((← self).peers i).probe.connection with
  | some delay, some connection => recordIo (.sampled i connection.id delay)
  | _, _ => return ()

/-- The first half of `ngx_healthcheck_finish`: the outcome is frozen, once for each round. -/
def freeze (gen : Generation) (i : Nat) (result : Bool) (reason source : String)
    (error : Option Errno) : Action Bool := do
  let round := ((← self).peers i).probe.round
  if ¬ round.active ∨ round.pending then return false
  else do
    let delay ← takeSample gen i result
    modifyProbe i fun probe =>
      { probe with
        reason := reason, source := source, error := error
        round := { probe.round with
          active := false, pending := true, result := result, sample := delay.isSome
          delay := delay.getD probe.round.delay } }
    emit (.frozen (← read).me i round.number result delay)
    recordIo (.finished i result)
    recordSample i delay
    return true

/-- `ngx_healthcheck_deadline`: the first wait is anchored at the activation of the generation. -/
def peerDeadline (gen : Generation) (i activatedAt : Nat) (state : PeerState) : Nat :=
  if state.phase ≠ .initial then state.deadline
  else addTime activatedAt
    (addTime (max (gen.conf i).checkInterval 1000) (max ((gen.conf i).checkInterval / 2) 1))

/-- The test a claim makes on the record, under both locks; `ok` lets it publish. -/
def claimTest (gen : Generation) (i : Nat) (runtime : Runtime) (takeover : Option PeerState)
    (activatedAt started : Nat) (state : PeerState) : Rc × Nat :=
  let foreign := state.worker ≠ runtime.worker ∨ state.inst ≠ runtime.inst
  let exhausted := state.round = uint64Max ∨ (foreign ∧ state.term = uint64Max)
  match takeover with
  | some observed =>
    if state.term ≠ observed.term ∨ state.round ≠ observed.round
        ∨ state.phase ≠ observed.phase ∨ state.deadline ≠ observed.deadline
        ∨ started < addTime (peerDeadline gen i activatedAt state) gen.grace
        ∨ (state.worker = runtime.worker ∧ state.inst = runtime.inst) then (.again, 0)
    else if exhausted then (.error, 0)
    else (.ok, 0)
  | none =>
    let due := addTime state.started (gen.conf i).checkInterval
    if state.worker ≠ runtime.worker ∨ (state.inst ≠ 0 ∧ state.inst ≠ runtime.inst) then
      (.declined, 0)
    else if state.phase ≠ .initial ∧ state.phase ≠ .waiting then (.again, 0)
    else if state.started ≠ 0 ∧ started < due then (.again, due - started)
    else if exhausted then (.error, 0)
    else (.ok, 0)

/-- What a successful claim leaves in the local probe. -/
def claimedProbe (gen : Generation) (i started : Nat) (state : PeerState) (probe : Probe) :
    Probe :=
  { probe with
    round :=
      { probe.round with
        inst := state.inst, term := state.term, number := state.round,
        generation := gen.generation, started := started, deadline := state.deadline,
        active := true, sample := false, waitingPublished := false }
    attempted := false, sent := false, sending := true, prepared := false
    stage := "prepare", reason := "pending", source := "none", error := none
    timeout := some (timerDelay gen (gen.conf i).checkTimeout) }

/-- The critical section of `ngx_healthcheck_claim` for a round starting at a given time. -/
def claimRecord (gen : Generation) (i : Nat) (takeover : Option PeerState)
    (limit started : Nat) : Action (Rc × Nat) := do
  let p ← self
  let worker := p.runtime.worker
  match ← lock (.worker worker) limit with
  | .ok => do
    let registration := ((← read).sys.shared.workers worker).current
    if registration.inst ≠ p.runtime.inst ∨ registration.exiting ∨ registration.pid ≠ p.pid then do
      unlock (.worker worker)
      return (.declined, 0)
    else
      match ← lock (.peer i) limit with
      | .ok => do
        let shared := (← read).sys.shared
        let state := (shared.peers i).current
        let test := claimTest gen i p.runtime takeover shared.activatedAt started state
        if test.1 = .ok then do
          let next := claimState (gen.conf i) p.runtime p.pid started state
          publishPeer i next (.claimed (← read).me i takeover started state next)
          unlock (.peer i)
          unlock (.worker worker)
          let retained := (p.peers i).probe.connection.map Connection.id
          recordIo (.claimed i next.deadline retained)
          modifyPeer i fun peer =>
            { peer with
              probe := claimedProbe gen i started next peer.probe
              checkEv := some (timerDelay gen (gen.conf i).checkInterval) }
          return (.ok, 0)
        else do
          unlock (.peer i)
          unlock (.worker worker)
          return test
      | _ => do
        unlock (.worker worker)
        return (.again, 0)
  | _ => return (.again, 0)

/-- `ngx_healthcheck_claim` of a registered process that is not stopping, up to the start of the
protocol I/O; the second result is the wait it reports. -/
def claimRound (gen : Generation) (i : Nat) (takeover : Option PeerState) (limit : Nat) :
    Action (Rc × Nat) := do
  let peer := (← self).peers i
  let alloc := (← ask).alloc
  if ¬ peer.allocated ∧ ¬ alloc then return (.error, 0)
  else do
    modifyPeer i fun peer => { peer with allocated := true }
    if peer.probe.round.active ∨ peer.probe.round.pending then return (.again, 0)
    else
      match ← now with
      | none => return (.again, 0)
      | some reading =>
        claimRecord gen i takeover (if limit = 0 then addTime reading lockNs else limit)
          (milliseconds reading)

end Healthcheck
