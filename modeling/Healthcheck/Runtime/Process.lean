import Healthcheck.Library.Program
import Healthcheck.State.Record

/-!
The processes of one configuration generation: their local state, the shared memory they use, and
the primitive operations their code is written with.

Everything a process learns from outside (clock readings, lock attempts, system calls, signals) is
an answer of a script, so a statement about every script is a statement about every environment.
-/

namespace Healthcheck

open Program

/-- The return codes of the module. -/
inductive Rc where
  | ok
  | error
  | again
  | declined
  deriving DecidableEq, Repr

/-- The check protocol of a peer. -/
inductive CheckType where
  | tcp
  | udp
  deriving DecidableEq, Repr

/-- The two nginx modules that run checks. -/
inductive Module where
  | http
  | stream
  deriving DecidableEq, Repr

/-- The socket errors the module tells apart. -/
inductive Errno where
  | eagain
  | eintr
  | econnrefused
  | enomem
  | enobufs
  | emfile
  | enfile
  | other (number : Nat)
  deriving DecidableEq, Repr

/-- The check parameters of an upstream, `ngx_upstream_check_srv_conf_t`. -/
structure CheckConf where
  port : Nat := 0
  fallCount : Nat
  riseCount : Nat
  checkInterval : Nat
  checkTimeout : Nat
  checkType : CheckType
  /-- The payload of a UDP check. -/
  send : List UInt8
  defaultDown : Nat
  keepConnection : Bool
  rehandshake : Nat
  keepalive : Bool
  keepaliveIdle : Nat
  keepaliveInterval : Nat
  keepaliveCount : Nat
  deriving DecidableEq, Repr

/-- What the configuration parser promises about the parameters it accepts. -/
structure CheckConf.Coherent (word : Word) (conf : CheckConf) : Prop where
  interval_min : 100 ≤ conf.checkInterval
  interval_max : conf.checkInterval ≤ word.max
  timeout_pos : 0 < conf.checkTimeout
  timeout_lt : conf.checkTimeout < conf.checkInterval
  rise_pos : 1 ≤ conf.riseCount
  fall_pos : 1 ≤ conf.fallCount
  down_bit : conf.defaultDown ≤ 1

/-- The configured thresholds as machine words. -/
structure CheckConf.Fits (word : Word) (conf : CheckConf) : Prop where
  rise : conf.riseCount ≤ word.max
  fall : conf.fallCount ≤ word.max

/-- The configured peers of one module in one generation, with the timer settings of the core. -/
structure Generation where
  word : Word
  module : Module
  /-- The source's `generation` number. -/
  generation : Nat
  /-- The number of worker slots. -/
  workers : Nat
  /-- The number of configured peers. -/
  nelts : Nat
  conf : Nat → CheckConf
  timerResolution : Nat
  /-- `ngx_murmur_hash2` of the core, which ranks the backup workers of a peer. -/
  murmurHash : List UInt8 → Nat
  workers_pos : 0 < workers
  coherent : ∀ i, (conf i).Coherent word

/-- How long an owner may overrun its published deadline, in milliseconds. -/
def Generation.grace (gen : Generation) : Nat :=
  max 1000 (mulTime gen.timerResolution 2)

/-- The period of the watch timer. -/
def Generation.interval (gen : Generation) : Nat :=
  max 100 gen.timerResolution

/-- How long the preferred backup alone may take a peer over. -/
def Generation.preference (gen : Generation) : Nat :=
  max gen.grace (mulTime (gen.nelts / batch + if gen.nelts % batch ≠ 0 then 1 else 0) gen.interval)

/-- The shared memory of a generation. -/
structure Shared where
  activated : Bool := false
  activatedAt : Nat := 0
  workers : Nat → WorkerShm := fun _ => WorkerShm.zero
  peers : Nat → PeerShm

/-- The handlers a connection's events can carry. -/
inductive Handler where
  | unset
  | tcpEvent
  | tcpIdle
  | udpRead
  | udpWrite
  | idleWrite
  deriving DecidableEq, Repr

/-- A check connection. -/
structure Connection where
  /-- Counts the connections the process has opened, so that no two are confused. -/
  id : Nat
  requests : Nat := 0
  startTime : Nat := 0
  readHandler : Handler := .unset
  writeHandler : Handler := .unset
  deriving DecidableEq, Repr

/-- The part of `ngx_healthcheck_probe_s` that identifies a round and holds its frozen outcome. -/
structure Round where
  inst : Nat := 0
  term : Nat := 0
  number : Nat := 0
  started : Nat := 0
  deadline : Nat := 0
  generation : Nat := 0
  delay : Nat := 0
  active : Bool := false
  pending : Bool := false
  result : Bool := false
  sample : Bool := false
  waitingPublished : Bool := false
  deriving DecidableEq, Repr

/-- A peer's local probe; the rest of `ngx_healthcheck_probe_s` is the round's I/O. -/
structure Probe where
  round : Round := {}
  connection : Option Connection := none
  /-- The delay the `timeout` timer was armed with, when it is armed. -/
  timeout : Option Nat := none
  discarded : Nat := 0
  error : Option Errno := none
  reason : String := ""
  stage : String := ""
  source : String := ""
  attempted : Bool := false
  sent : Bool := false
  sending : Bool := false
  prepared : Bool := false
  deriving DecidableEq, Repr

/-- The process-local part of `ngx_upstream_check_peer_s`. -/
structure Peer where
  /-- The delay the `check_ev` timer was armed with, when it is armed. -/
  checkEv : Option Nat := none
  /-- Whether `probe` has been allocated; until then it is `NULL` in the source. -/
  allocated : Bool := false
  probe : Probe := {}
  deriving DecidableEq, Repr

/-- `ngx_healthcheck_runtime_s`, without what the generation fixes. -/
structure Runtime where
  worker : Nat
  inst : Nat := 0
  cursor : Nat := 0
  budget : Nat := 0
  /-- The delay the `watch` timer was armed with, when it is armed. -/
  watch : Option Nat := none
  registered : Bool := false
  timersStarted : Bool := false
  stopping : Bool := false
  cleaned : Bool := false
  deriving DecidableEq, Repr

/-- Whether a process number has been used, and whether its process still runs. -/
inductive Status where
  | absent
  | running
  | dead
  deriving DecidableEq, Repr

/-- Where a peek of a check connection was made. -/
inductive PeekSite where
  | probeStart
  | tcpEvent
  deriving DecidableEq, Repr

/-- The history a process leaves with the sockets and rounds of its peers, by peer index. -/
inductive IoEvent where
  /-- A round was claimed with this deadline. -/
  | claimed (peer : Nat) (deadline : Nat) (retained : Option Nat)
  | peeked (peer : Nat) (site : PeekSite) (connection : Nat) (passed : Bool)
  | connecting (peer : Nat)
  | closed (peer : Nat) (connection : Nat)
  /-- An idle read asked for some bytes, at this count of discarded ones; the result is that of the
  socket call. -/
  | idleRead (peer : Nat) (connection : Nat) (discarded requested : Nat) (result : Int)
  | sent (peer : Nat) (whole : Bool)
  /-- `ngx_healthcheck_udp_error` was called with this error and read the clock. -/
  | udpError (peer : Nat) (error : Errno) (now : Option Nat)
  /-- A finish that took effect. -/
  | finished (peer : Nat) (result : Bool)
  /-- The finish took a delay sample from the connection. -/
  | sampled (peer : Nat) (connection : Nat) (delay : Nat)
  /-- What the submission in the finish itself returned. -/
  | submitted (peer : Nat) (result : Bool) (rc : Rc)
  /-- A preparation found the process to be the owner of the peer. -/
  | confirmed (peer : Nat)
  /-- A callback found that the process is not, or no longer, the owner of the peer, and gave the
  round or the connection up. What `probe_waiting` finds is thrown away by its callers, and leaves no
  event. -/
  | lost (peer : Nat)
  /-- A preparation took the age of a retained connection at this `ngx_current_msec`. -/
  | aged (peer : Nat) (connection : Nat) (currentMsec : Nat)
  | established (peer : Nat) (connection : Nat) (startTime : Nat)
  /-- The timeout of a round found its deadline reached at this reading. -/
  | expired (peer : Nat) (now : Nat)
  /-- A preparation that had its connection could not read the clock. -/
  | unclocked (peer : Nat)
  deriving DecidableEq, Repr

/-- One process: its registration, its timers and its probes. -/
structure Proc where
  status : Status := .absent
  pid : Int := 0
  runtime : Runtime := { worker := 0 }
  peers : Nat → Peer := fun _ => {}
  /-- How many connections the process has opened. -/
  opened : Nat := 0
  /-- The clock readings of the process, newest first. -/
  readings : List Nat := []
  /-- The I/O history of the process, newest first. -/
  io : List IoEvent := []

/-- What the processes have done to the shared memory, and the outcomes they froze. -/
inductive Event where
  | registered (proc worker inst : Nat)
  | exited (proc worker inst : Nat)
  /-- A claim; a takeover names the record it observed. -/
  | claimed (proc peer : Nat) (takeover : Option PeerState) (now : Nat) (before after : PeerState)
  | inflight (proc peer : Nat) (before after : PeerState)
  | frozen (proc peer : Nat) (round : Nat) (result : Bool) (sample : Option Nat)
  | committed (proc peer : Nat) (result : Bool) (sample : Option Nat) (before after : PeerState)
  deriving DecidableEq, Repr

/-- The processes of a generation and their shared memory. -/
structure Sys where
  shared : Shared
  procs : Nat → Proc := fun _ => {}
  /-- The history of the generation, newest first. -/
  trace : List Event := []

/-- The locks of a generation. -/
inductive Mutex where
  | activation
  | worker (number : Nat)
  | peer (index : Nat)
  deriving DecidableEq, Repr

/-- What a process does with a lock. -/
inductive LockEvent where
  | acquired (mutex : Mutex)
  | released (mutex : Mutex)
  deriving DecidableEq, Repr

/-- The locks held after a history, newest first. -/
def heldLocks : List LockEvent → List Mutex
  | [] => []
  | .acquired mutex :: past => mutex :: heldLocks past
  | .released mutex :: past => (heldLocks past).erase mutex

/-- A reading of `CLOCK_MONOTONIC`. -/
structure Timespec where
  sec : Int
  nsec : Fin 1000000000
  deriving DecidableEq, Repr

/-- One answer of the environment; each primitive looks at the part that concerns it. -/
structure Answer where
  /-- `ngx_quit || ngx_exiting || ngx_terminate` at this moment. -/
  quit : Bool := false
  clock : Option Timespec := none
  lock : Bool := false
  alloc : Bool := false
  /-- A flag nginx or the kernel sets on an event or a connection. -/
  flag : Bool := false
  /-- Whether nginx accepted a change of an event registration. -/
  eventOk : Bool := false
  /-- What a socket call returned, and its errno when that is -1. -/
  result : Int := 0
  errno : Errno := .eagain
  /-- The pending socket error read by a successful `SO_ERROR` query. -/
  socketError : Option Errno := none
  connect : Rc := .error
  random : Nat := 0
  /-- `ngx_current_msec`. -/
  currentMsec : Nat := 0
  /-- What the other processes did just before. -/
  others : Sys → Sys := id

/-- The view of a running process: the system, its own number, and its environment. -/
structure World where
  sys : Sys
  me : Nat
  script : Nat → Answer
  pos : Nat := 0
  /-- What the process has done with the locks, newest first. -/
  locks : List LockEvent := []

/-- The process's own state. -/
def World.self (w : World) : Proc :=
  w.sys.procs w.me

/-- The system with one process replaced. -/
def Sys.setProc (s : Sys) (p : Nat) (proc : Proc) : Sys :=
  { s with procs := Function.update s.procs p proc }

/-- The process's own state changed by a function. -/
def World.setSelf (w : World) (proc : Proc) : World :=
  { w with sys := w.sys.setProc w.me proc }

/-- An action of a process runs in the world and may stop without a result. -/
abbrev Action := Prog World

/-- The next answer of the environment. -/
def ask : Action Answer := do
  let w ← read
  change fun w => { w with pos := w.pos + 1 }
  return w.script w.pos

/-- The process's own state. -/
def self : Action Proc := do
  return (← read).self

/-- A change of the calling process. -/
def modifySelf (f : Proc → Proc) : Action Unit :=
  change fun w => w.setSelf (f w.self)

/-- A change of its runtime. -/
def modifyRuntime (f : Runtime → Runtime) : Action Unit :=
  modifySelf fun p => { p with runtime := f p.runtime }

/-- A change of what it keeps of one peer. -/
def modifyPeer (i : Nat) (f : Peer → Peer) : Action Unit :=
  modifySelf fun p => { p with peers := Function.update p.peers i (f (p.peers i)) }

/-- A change of the probe of one peer. -/
def modifyProbe (i : Nat) (f : Probe → Probe) : Action Unit :=
  modifyPeer i fun peer => { peer with probe := f peer.probe }

/-- A change of the round of one probe. -/
def modifyRound (i : Nat) (f : Round → Round) : Action Unit :=
  modifyProbe i fun probe => { probe with round := f probe.round }

/-- Records an I/O event in the process's history. -/
def recordIo (event : IoEvent) : Action Unit :=
  modifySelf fun p => { p with io := event :: p.io }

/-- A change of the shared memory. -/
def modifyShared (f : Shared → Shared) : Action Unit :=
  change fun w => { w with sys := { w.sys with shared := f w.sys.shared } }

/-- Records an event in the generation's history. -/
def emit (event : Event) : Action Unit :=
  change fun w => { w with sys := { w.sys with trace := event :: w.sys.trace } }

/-- Other processes may run here; they never touch the process's own state. -/
def preempt : Action Unit := do
  let answer ← ask
  change fun w => { w with sys := (answer.others w.sys).setProc w.me w.self }

/-- `ngx_quit || ngx_exiting || ngx_terminate`. -/
def quitting : Action Bool := do
  return (← ask).quit

/-- `ngx_healthcheck_now`; `none` is `NGX_ERROR`. -/
def now : Action (Option Nat) := do
  match (← ask).clock with
  | none => return none
  | some ts =>
    if ts.sec < 0 then return none
    else do
      let reading := addTime (mulTime ts.sec.toNat 1000000000) ts.nsec
      modifySelf fun p => { p with readings := reading :: p.readings }
      return some reading

/-- `ngx_healthcheck_lock`; whether the spinning ends with the lock is up to the environment. -/
def lock (mutex : Mutex) (limit : Nat) : Action Rc := do
  match ← now with
  | none => return .again
  | some reading =>
    if (if limit = 0 then addTime reading lockNs else limit) ≤ reading then return .again
    else if (← ask).lock then do
      change fun w => { w with locks := .acquired mutex :: w.locks }
      return .ok
    else return .again

/-- `ngx_shmtx_unlock`. -/
def unlock (mutex : Mutex) : Action Unit :=
  change fun w => { w with locks := .released mutex :: w.locks }

/-- `ngx_healthcheck_timer`: nginx timers reach half of the `ngx_msec_t` range. -/
def timerDelay (gen : Generation) (delay : Nat) : Nat :=
  min delay (gen.word.max / 2)

end Healthcheck
