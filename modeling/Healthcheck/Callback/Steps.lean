import Healthcheck.Callback.History
import Healthcheck.System.Step

/-!
The steps of a process. Whatever a callback does is a sequence of steps, which are told apart in
three ways: inner steps neither start nor end a round, atomic steps add the attempts to claim one and
the two halves of its end, and round steps take the end of a round as a whole.
-/

namespace Healthcheck

open Program

/-- A process with a changed probe of a peer, and with more events in its history. -/
def Proc.handle (p : Proc) (i : Nat) (probe : Probe) (events : List IoEvent) : Proc :=
  { p.setPeer i { p.peers i with probe := probe } with io := events ++ p.io }

/-- The event of closing a probe's connection, if it has one. -/
def Probe.closing (probe : Probe) (i : Nat) : List IoEvent :=
  (probe.connection.map fun c => IoEvent.closed i c.id).toList

/-- The I/O history of one peer, newest first. -/
def Proc.history (p : Proc) (i : Nat) : List IoEvent :=
  p.io.filter fun event => event.peer = i

/-- A process without the check connection of a peer. -/
def Proc.close (p : Proc) (i : Nat) : Proc :=
  p.handle i { (p.peers i).probe with connection := none } ((p.peers i).probe.closing i)

/-- A process without the timeout and the connection of a peer. -/
def Proc.discard (p : Proc) (i : Nat) : Proc :=
  p.handle i { (p.peers i).probe with timeout := none, connection := none }
    ((p.peers i).probe.closing i)

/-- A process for which a peer's round is over, and perhaps waits for its submission. -/
def Proc.release (p : Proc) (i : Nat) (pending : Bool) : Proc :=
  p.handle i
    { (p.peers i).probe with
      timeout := none, connection := none
      round := { p.round i with active := false, pending := pending } }
    ((p.peers i).probe.closing i)

/-- A process without the check timer of a peer. -/
def Proc.disarm (p : Proc) (i : Nat) : Proc :=
  p.setPeer i { p.peers i with checkEv := none }

/-- A process after `stopPeer`. -/
def Proc.stopPeer (p : Proc) (i : Nat) : Proc :=
  if (p.peers i).allocated then (p.disarm i).release i false else p.disarm i

/-- A process after its first peers were stopped. -/
def Proc.stopPeers (p : Proc) : Nat → Proc
  | 0 => p
  | n + 1 => (p.stopPeers n).stopPeer n

/-- A process that stops: no watch, no timers, no rounds. -/
def Proc.stop (gen : Generation) (p : Proc) : Proc :=
  { p with runtime := { p.runtime with stopping := true, watch := none } }.stopPeers gen.nelts

/-- A connection with the handlers of its check protocol. -/
def Connection.install (type : CheckType) (c : Connection) : Connection :=
  { c with writeHandler := if type = .udp then .udpWrite else .tcpEvent,
           readHandler := if type = .udp then .udpRead else .tcpEvent }

/-- A connection with the handlers of the time between two rounds. -/
def Connection.rest (c : Connection) : Connection :=
  { c with writeHandler := .idleWrite, readHandler := .tcpIdle }

/-- An event of the connection can run `tcp_event`. -/
def Connection.Watched (c : Connection) : Prop :=
  c.readHandler = .tcpEvent ∨ c.writeHandler = .tcpEvent

/-- The handlers of the UDP check. -/
def Handler.udp : Handler → Bool
  | .udpRead => true
  | .udpWrite => true
  | _ => false

/-- An event of the connection can run a handler of the UDP check. -/
def Connection.Served (c : Connection) : Prop :=
  c.readHandler.udp = true ∨ c.writeHandler.udp = true

/-- A probe that differs in its labels and its flags. -/
structure Probe.Tuned (probe probe' : Probe) : Prop where
  round : probe'.round = probe.round
  timeout : probe'.timeout = probe.timeout
  discarded : probe'.discarded = probe.discarded
  attempted : probe'.attempted = probe.attempted
  sent : probe'.sent = probe.sent
  sending : probe'.sending = true → probe.sending = true
  connection : probe'.connection = probe.connection

/-- Evidence of a failure: a refusal of the peer, seen in time and after something was sent. -/
def Probe.Refused (probe : Probe) (error : Errno) (reading : Option Nat) : Prop :=
  probe.attempted = true ∧ error = .econnrefused ∧
    ∃ t, reading = some t ∧ milliseconds t < probe.round.deadline

/-- A retained connection may be used when it is below its age limit, if there is one. -/
def Young (gen : Generation) (i startTime currentMsec : Nat) : Prop :=
  (gen.conf i).rehandshake ≠ 0 →
    connectionAge gen startTime currentMsec < (gen.conf i).rehandshake

/-- A connection is used in a round that established it, or that peeked it successfully. -/
def Checked (i connection : Nat) (history : List IoEvent) : Prop :=
  (∃ startTime, .established i connection startTime ∈ sinceClaim i history) ∨
    .peeked i .probeStart connection true ∈ sinceClaim i history

/-- How a new connection is asked for: at once, or after a retained one was closed because of its
age or because its peek failed. -/
inductive Reconnects (gen : Generation) (i : Nat) (probe : Probe) : List IoEvent → Prop
  | fresh (none : probe.connection = none) : Reconnects gen i probe []
  | expired (c : Connection) (retained : probe.connection = some c) (currentMsec : Nat) :
      Reconnects gen i probe [.closed i c.id, .aged i c.id currentMsec]
  | failed (c : Connection) (retained : probe.connection = some c) (currentMsec : Nat)
      (young : Young gen i c.startTime currentMsec) :
      Reconnects gen i probe
        [.closed i c.id, .peeked i .probeStart c.id false, .aged i c.id currentMsec]

/-- A process that asked for a new connection, and perhaps got one. -/
def Proc.connect (p : Proc) (i : Nat) (before : List IoEvent) (error : Option Errno)
    (startTime : Option Nat) : Proc :=
  match startTime with
  | none =>
    p.handle i { (p.peers i).probe with connection := none, error := error }
      (.connecting i :: before)
  | some time =>
    { p.handle i
        { (p.peers i).probe with
          connection := some { id := p.opened, startTime := time }, error := error
          discarded := 0 }
        (.established i p.opened time :: .connecting i :: before) with
      opened := p.opened + 1 }

/-- What the read loop of `tcp_idle` does to the count of discarded bytes, with its events: it is
still reading, or it asks for the connection to be kept or to be closed. -/
inductive Drains (gen : Generation) (i connection discarded : Nat) :
    Option Bool → Nat → List IoEvent → Prop
  | start : Drains gen i connection discarded none discarded []
  | received {count : Nat} {events : List IoEvent}
      (before : Drains gen i connection discarded none count events) (bytes : Nat)
      (positive : 0 < bytes) (most : bytes ≤ idleReadSize gen count)
      (within : count + bytes ≤ idleDiscardMax) :
      Drains gen i connection discarded none (count + bytes)
        (.idleRead i connection count (idleReadSize gen count) bytes :: events)
  | interrupted {count : Nat} {events : List IoEvent}
      (before : Drains gen i connection discarded none count events) :
      Drains gen i connection discarded none count
        (.idleRead i connection count (idleReadSize gen count) (-1) :: events)
  | kept {count : Nat} {events : List IoEvent}
      (before : Drains gen i connection discarded none count events) :
      Drains gen i connection discarded (some false) count
        (.idleRead i connection count (idleReadSize gen count) (-1) :: events)
  | failed {count : Nat} {events : List IoEvent}
      (before : Drains gen i connection discarded none count events) (result : Int)
      (nothing : result ≤ 0) :
      Drains gen i connection discarded (some true) count
        (.idleRead i connection count (idleReadSize gen count) result :: events)
  | exceeded {count : Nat} {events : List IoEvent}
      (before : Drains gen i connection discarded none count events) (bytes : Nat)
      (positive : 0 < bytes) (most : bytes ≤ idleReadSize gen count)
      (beyond : idleDiscardMax < count + bytes) :
      Drains gen i connection discarded (some true) (count + bytes)
        (.idleRead i connection count (idleReadSize gen count) bytes :: events)

/-- What a process does on its own to the probe of a peer, with the events this leaves. -/
inductive ProbeStep (gen : Generation) (i : Nat) (probe : Probe) (history : List IoEvent) :
    Probe → List IoEvent → Prop
  | timeoutArmed (delay : Nat) :
      ProbeStep gen i probe history { probe with timeout := some delay } []
  | timeoutEnded (past : probe.round.active = false) :
      ProbeStep gen i probe history { probe with timeout := none } []
  | tuned (probe' : Probe) (tuned : probe.Tuned probe') : ProbeStep gen i probe history probe' []
  | rested (tcp : (gen.conf i).checkType = .tcp) :
      ProbeStep gen i probe history
        { probe with connection := probe.connection.map Connection.rest } []
  | prepared (c : Connection) (current : probe.connection = some c)
      (active : probe.round.active = true) (checked : Checked i c.id history) :
      ProbeStep gen i probe history
        { probe with connection := some (c.install (gen.conf i).checkType), prepared := true } []
  | counted :
      ProbeStep gen i probe history
        { probe with connection := probe.connection.map fun c =>
            { c with requests := c.requests + 1 } } []
  | closed :
      ProbeStep gen i probe history { probe with connection := none } (probe.closing i)
  | lost :
      ProbeStep gen i probe history { probe with connection := none }
        (probe.closing i ++ [.lost i])
  | released (pending : Bool) (fewer : pending = true → probe.round.pending = true) :
      ProbeStep gen i probe history
        { probe with timeout := none, connection := none
                     round := { probe.round with active := false, pending := pending } }
        (probe.closing i)
  | confirmed : ProbeStep gen i probe history probe [.confirmed i]
  | peeked (c : Connection) (retained : probe.connection = some c) (currentMsec : Nat)
      (young : Young gen i c.startTime currentMsec) :
      ProbeStep gen i probe history probe
        [.peeked i .probeStart c.id true, .aged i c.id currentMsec]
  | sent (stage : String) (sending : probe.sending = true) :
      ProbeStep gen i probe history
        { probe with attempted := true, sent := true, sending := false, stage := stage }
        [.sent i true]
  | attempted (sending : probe.sending = true) :
      ProbeStep gen i probe history { probe with attempted := true } [.sent i false]
  | erred (error : Errno) (reading : Option Nat) (unconfirmed : ¬ probe.Refused error reading) :
      ProbeStep gen i probe history probe [.udpError i error reading]
  | drained (c : Connection) (current : probe.connection = some c) (discarded : Nat)
      (events : List IoEvent)
      (reads : Drains gen i c.id probe.discarded (some false) discarded events) :
      ProbeStep gen i probe history { probe with discarded := discarded } events
  | overrun (c : Connection) (current : probe.connection = some c) (discarded : Nat)
      (events : List IoEvent)
      (reads : Drains gen i c.id probe.discarded (some true) discarded events) :
      ProbeStep gen i probe history { probe with connection := none, discarded := discarded }
        (.closed i c.id :: events)

/-- What a process does on its own. -/
inductive Local (gen : Generation) (p : Proc) : Proc → Prop
  | scheduled (cursor budget : Nat) (timersStarted : Bool) :
      Local gen p { p with runtime := { p.runtime with
        cursor := cursor, budget := budget, timersStarted := timersStarted } }
  | watching (delay : Nat) :
      Local gen p { p with runtime := { p.runtime with watch := some delay } }
  | stopped : Local gen p (p.stop gen)
  | stoppedAgain (cleaned : p.runtime.cleaned = true) :
      Local gen p { p with runtime := { p.runtime with stopping := true } }
  | cleaned (stopping : p.runtime.stopping = true) :
      Local gen p { p with runtime := { p.runtime with cleaned := true } }
  | checkArmed (i delay : Nat) :
      Local gen p (p.setPeer i { p.peers i with checkEv := some delay })
  | handled (i : Nat) (probe : Probe) (events : List IoEvent)
      (step : ProbeStep gen i (p.peers i).probe (p.history i) probe events) :
      Local gen p (p.handle i probe events)
  | connected (i : Nat) (before : List IoEvent) (error : Option Errno) (startTime : Option Nat)
      (how : Reconnects gen i (p.peers i).probe before) (active : (p.round i).active = true)
      (confirmed : ¬ Lost i (p.history i)) : Local gen p (p.connect i before error startTime)

/-- A preparation asked for a new connection and got none, or closed it at once. -/
def Unprepared (i : Nat) (history : List IoEvent) : Prop :=
  (∃ past, history = .connecting i :: past) ∨
    ∃ connection startTime past, history =
      .closed i connection :: .established i connection startTime :: .connecting i :: past

/-- Why a round ends without a note of its own: it succeeds, or a TCP round has no connection. -/
inductive Unnoted (gen : Generation) (i : Nat) (history : List IoEvent) : Bool → Prop
  | success : Unnoted gen i history true
  | unprepared (tcp : (gen.conf i).checkType ≠ .udp) (none : Unprepared i history) :
      Unnoted gen i history false

/-- What leads to the outcome of a round, right before it is frozen: the deadline that was reached,
the clock that failed, the evidence for a UDP failure, or the peek of `tcp_event`. -/
inductive Noted (gen : Generation) (i : Nat) (probe : Probe) (history : List IoEvent) :
    Bool → List IoEvent → Prop
  | plain (result : Bool) (why : Unnoted gen i history result) : Noted gen i probe history result []
  | expired (now : Nat) :
      Noted gen i probe history ((gen.conf i).checkType = .udp) [.expired i now]
  | unclocked : Noted gen i probe history ((gen.conf i).checkType = .udp) [.unclocked i]
  | refused (t : Nat) (evidence : probe.Refused .econnrefused (some t))
      (served : ∃ c, probe.connection = some c ∧ c.Served) :
      Noted gen i probe history false [.udpError i .econnrefused (some t)]
  | peeked (c : Connection) (passed : Bool) (current : probe.connection = some c)
      (watched : c.Watched) : Noted gen i probe history passed [.peeked i .tcpEvent c.id passed]

/-- A process with events in its history and an error in a peer's probe. -/
def Proc.note (p : Proc) (i : Nat) (events : List IoEvent) (error : Option Errno) : Proc :=
  p.handle i { (p.peers i).probe with error := error } events

/-- The process is the registered owner of a peer, in the round it knows. -/
structure Keeps (s : Sys) (p : Proc) (i : Nat) : Prop where
  running : p.runtime.stopping = false
  registered : p.runtime.registered = true
  registration : Registered s p
  worker : (s.record i).worker = p.runtime.worker
  inst : (s.record i).inst = p.runtime.inst
  named : (p.round i).inst = (s.record i).inst
  term : (p.round i).term = (s.record i).term
  number : (p.round i).number = (s.record i).round

/-- Operations that neither start nor end a round. -/
def Op.Inner : Op → Prop
  | .claimRound _ _ _ => False
  | .freeze _ _ _ _ _ => False
  | _ => True

/-- The world after other processes ran. -/
def World.preempted (w : World) : World :=
  { w with pos := w.pos + 1, sys := ((w.script w.pos).others w.sys).setProc w.me w.self }

/-- An inner step of a process neither starts nor ends a round: an operation on the shared records, a
change that concerns the process alone, or a moment at which other processes run. -/
inductive InnerStep (gen : Generation) (w : World) : World → Prop
  | passed (rs : List Nat) (pos : Nat) (locks : List LockEvent) : InnerStep gen w
      (w.passed rs pos locks)
  | preempted : InnerStep gen w w.preempted
  | alone (proc : Proc) (rs : List Nat) (pos : Nat) (locks : List LockEvent)
      (change : Local gen w.self proc) : InnerStep gen w ((w.setSelf proc).passed rs pos locks)
  | disarmed (i : Nat) (excused : ¬ Keeps w.sys w.self i) :
      InnerStep gen w (w.setSelf (w.self.disarm i))
  | ran (op : Op) (w' : World) (inner : op.Inner) (returned : op.run gen w = some ((), w')) :
      InnerStep gen w w'

/-- Any number of inner steps. -/
abbrev InnerSteps (gen : Generation) : World → World → Prop :=
  Relation.ReflTransGen (InnerStep gen)

/-- Every outcome of a program is reached by inner steps, and satisfies the postcondition. -/
abbrev byInner {α : Type} (gen : Generation) (x : Action α) (post : α → World → Prop) (w : World) :
    Prop :=
  along (InnerStep gen) x post w

/-- A world right before a round ends: what led to the outcome has been noted. -/
def World.noting (w : World) (i : Nat) (events : List IoEvent) (label : Option Errno)
    (rs : List Nat) (pos : Nat) : World :=
  (w.setSelf (w.self.note i events label)).passed rs pos w.locks

/-- An atomic step of a process: an inner step, an attempt to claim a round, or one of the two moments
in the end of a round. -/
inductive AtomicStep (gen : Generation) (w : World) : World → Prop
  | inner (w' : World) (move : InnerStep gen w w') : AtomicStep gen w w'
  | claimed (i : Nat) (takeover : Option PeerState) (limit : Nat) (result : Rc × Nat) (w' : World)
      (running : w.self.runtime.stopping = false) (registered : w.self.runtime.registered = true)
      (returned : claimRound gen i takeover limit w = some (result, w')) : AtomicStep gen w w'
  | froze (i : Nat) (result : Bool) (reason source : String) (error label : Option Errno)
      (events : List IoEvent) (rs : List Nat) (pos : Nat) (w' : World)
      (noted : Noted gen i (w.self.peers i).probe (w.self.history i) result events)
      (active : (w.self.round i).active = true) (idle : (w.self.round i).pending = false)
      (returned : freeze gen i result reason source error (w.noting i events label rs pos) =
        some (true, w')) : AtomicStep gen w w'
  | submitted (i : Nat) (result : Bool) (rc : Rc) :
      AtomicStep gen w (w.setSelf
        (w.self.handle i (w.self.peers i).probe [.submitted i result rc]))

/-- Any number of atomic steps. -/
abbrev AtomicSteps (gen : Generation) : World → World → Prop :=
  Relation.ReflTransGen (AtomicStep gen)

/-- A round step of a process: an inner step, an attempt to claim a round, or the whole end of a
round. -/
inductive RoundStep (gen : Generation) (w : World) : World → Prop
  | inner (w' : World) (move : InnerStep gen w w') : RoundStep gen w w'
  | claimed (i : Nat) (takeover : Option PeerState) (limit : Nat) (result : Rc × Nat) (w' : World)
      (running : w.self.runtime.stopping = false) (registered : w.self.runtime.registered = true)
      (returned : claimRound gen i takeover limit w = some (result, w')) : RoundStep gen w w'
  | finished (i : Nat) (result : Bool) (reason source : String) (error label : Option Errno)
      (events : List IoEvent) (rs : List Nat) (pos : Nat) (w' : World)
      (noted : Noted gen i (w.self.peers i).probe (w.self.history i) result events)
      (active : (w.self.round i).active = true) (idle : (w.self.round i).pending = false)
      (returned : finish gen i result reason source error (w.noting i events label rs pos) =
        some ((), w')) : RoundStep gen w w'

/-- Any number of round steps. -/
abbrev RoundSteps (gen : Generation) : World → World → Prop :=
  Relation.ReflTransGen (RoundStep gen)

/-- Every outcome of a program is reached by round steps, and satisfies the postcondition. -/
abbrev byRounds {α : Type} (gen : Generation) (x : Action α) (post : α → World → Prop) (w : World) :
    Prop :=
  along (RoundStep gen) x post w

end Healthcheck
