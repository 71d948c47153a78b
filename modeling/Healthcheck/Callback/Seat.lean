import Healthcheck.Callback.ProbeSteps

/-!
What a process knows of one of its peers. The steps of the process move this seat, and most of them
leave it where it is, because they concern another peer.
-/

namespace Healthcheck

open Program

/-- What a process knows of one of its peers, with the I/O history of that peer. -/
structure Seat where
  runtime : Runtime
  opened : Nat
  peer : Peer
  history : List IoEvent

/-- The seat of a peer in a process. -/
def Proc.seat (p : Proc) (i : Nat) : Seat :=
  { runtime := p.runtime, opened := p.opened, peer := p.peers i, history := p.history i }

/-- A seat with a changed probe, and with more events in its history. -/
def Seat.handle (s : Seat) (probe : Probe) (events : List IoEvent) : Seat :=
  { s with peer := { s.peer with probe := probe }, history := events ++ s.history }

/-- A seat without rounds, timers and connections, in a process that stops. -/
def Seat.stop (s : Seat) (i : Nat) : Seat :=
  let idle : Seat :=
    { s with runtime := { s.runtime with stopping := true, watch := none }
             peer := { s.peer with checkEv := none } }
  if s.peer.allocated then
    idle.handle
      { s.peer.probe with
        timeout := none, connection := none
        round := { s.peer.probe.round with active := false, pending := false } }
      (s.peer.probe.closing i)
  else idle

/-- A seat that asked for a new connection, and perhaps got one. -/
def Seat.connect (s : Seat) (i : Nat) (before : List IoEvent) (error : Option Errno)
    (startTime : Option Nat) : Seat :=
  match startTime with
  | none =>
    s.handle { s.peer.probe with connection := none, error := error } (.connecting i :: before)
  | some time =>
    { s.handle
        { s.peer.probe with
          connection := some { id := s.opened, startTime := time }, error := error
          discarded := 0 }
        (.established i s.opened time :: .connecting i :: before) with
      opened := s.opened + 1 }

/-- A seat after a claim of its peer. -/
def Seat.claimed (gen : Generation) (s : Seat) (i started : Nat) (next : PeerState) : Seat :=
  { s with
    peer :=
      { allocated := true, probe := claimedProbe gen i started next s.peer.probe
        checkEv := some (timerDelay gen (gen.conf i).checkInterval) }
    history :=
      .claimed i next.deadline (s.peer.probe.connection.map Connection.id) :: s.history }

/-- A seat after the outcome of its round was frozen. -/
def Seat.frozen (s : Seat) (i : Nat) (result : Bool) (delay : Option Nat)
    (reason source : String) (error : Option Errno) : Seat :=
  s.handle
    { s.peer.probe with
      reason := reason, source := source, error := error
      round := { s.peer.probe.round with
        active := false, pending := true, result := result, sample := delay.isSome
        delay := delay.getD s.peer.probe.round.delay } }
    (s.peer.probe.sampling i delay ++ [.finished i result])

/-- What a process notes of the connections and the ownership of a peer. -/
inductive IoEvent.Routine (i : Nat) : IoEvent → Prop
  | peeked (site : PeekSite) (connection : Nat) (passed : Bool) :
      Routine i (.peeked i site connection passed)
  | connecting : Routine i (.connecting i)
  | closed (connection : Nat) : Routine i (.closed i connection)
  | idleRead (connection discarded requested : Nat) (result : Int) :
      Routine i (.idleRead i connection discarded requested result)
  | confirmed : Routine i (.confirmed i)
  | lost : Routine i (.lost i)
  | aged (connection currentMsec : Nat) : Routine i (.aged i connection currentMsec)
  | established (connection startTime : Nat) : Routine i (.established i connection startTime)

/-- A seat right before the end of its round: what led to the outcome has been noted. -/
def Seat.note (s : Seat) (events : List IoEvent) (error : Option Errno) : Seat :=
  s.handle { s.peer.probe with error := error } events

/-- What an inner step does to a seat. -/
inductive SeatInnerStep (gen : Generation) (i : Nat) (s : Seat) : Seat → Prop
  | elsewhere (opened : Nat) (more : s.opened ≤ opened) : SeatInnerStep gen i s
      { s with opened := opened }
  | paced (runtime : Runtime) (stopping : runtime.stopping = s.runtime.stopping)
      (cleaned : runtime.cleaned = s.runtime.cleaned)
      (watch : s.runtime.watch.isSome → runtime.watch.isSome) :
      SeatInnerStep gen i s { s with runtime := runtime }
  | stopped (below : i < gen.nelts) : SeatInnerStep gen i s (s.stop i)
  /-- The process stops, but it has no such peer. -/
  | unlisted (beyond : gen.nelts ≤ i) :
      SeatInnerStep gen i s { s with runtime := { s.runtime with stopping := true, watch := none } }
  | stoppedAgain (cleaned : s.runtime.cleaned = true) :
      SeatInnerStep gen i s { s with runtime := { s.runtime with stopping := true } }
  | cleaned (stopping : s.runtime.stopping = true) :
      SeatInnerStep gen i s { s with runtime := { s.runtime with cleaned := true } }
  | timed (check : Option Nat) : SeatInnerStep gen i s
      { s with peer := { s.peer with checkEv := check } }
  | handled (probe : Probe) (events : List IoEvent)
      (step : ProbeStep gen i s.peer.probe s.history probe events) :
      SeatInnerStep gen i s (s.handle probe events)
  | connected (before : List IoEvent) (error : Option Errno) (startTime : Option Nat)
      (how : Reconnects gen i s.peer.probe before) (active : s.peer.probe.round.active = true)
      (confirmed : ¬ Lost i s.history) : SeatInnerStep gen i s (s.connect i before error startTime)
  | prepared (deadline : Nat) (tcp : (gen.conf i).checkType = .tcp) :
      SeatInnerStep gen i s (s.handle { s.peer.probe with
        round := { s.peer.probe.round with deadline := deadline } } [])
  | waited :
      SeatInnerStep gen i s (s.handle { s.peer.probe with
        round := { s.peer.probe.round with waitingPublished := true } } [])
  | settled (check : Option Nat) :
      SeatInnerStep gen i s { s.handle { s.peer.probe with
        round := { s.peer.probe.round with pending := false } } [] with
          peer := { s.peer with
            checkEv := check
            probe := { s.peer.probe with round := { s.peer.probe.round with pending := false } } } }

/-- Any number of inner steps at a seat. -/
abbrev SeatInnerSteps (gen : Generation) (i : Nat) : Seat → Seat → Prop :=
  Relation.ReflTransGen (SeatInnerStep gen i)

/-- What an atomic step does to a seat: an inner step, an attempt to claim the peer, or a moment in
the end of a round. -/
inductive SeatAtomicStep (gen : Generation) (i : Nat) (s : Seat) : Seat → Prop
  | inner (s' : Seat) (move : SeatInnerStep gen i s s') : SeatAtomicStep gen i s s'
  | allocated : SeatAtomicStep gen i s { s with peer := { s.peer with allocated := true } }
  | claimed (started : Nat) (next : PeerState) (running : s.runtime.stopping = false)
      (active : s.peer.probe.round.active = false) (pending : s.peer.probe.round.pending = false)
      (deadline : next.deadline = addTime started (gen.conf i).checkTimeout) :
      SeatAtomicStep gen i s (s.claimed gen i started next)
  | froze (result : Bool) (delay : Option Nat) (reason source : String)
      (error label : Option Errno) (events : List IoEvent)
      (noted : Noted gen i s.peer.probe s.history result events)
      (active : s.peer.probe.round.active = true) (idle : s.peer.probe.round.pending = false)
      (sample : delay.isSome = true →
        result = true ∧ ∃ c, s.peer.probe.connection = some c ∧ c.requests = 0) :
      SeatAtomicStep gen i s ((s.note events label).frozen i result delay reason source error)
  | submitted (result : Bool) (rc : Rc) :
      SeatAtomicStep gen i s (s.handle s.peer.probe [.submitted i result rc])
  /-- A timer calls back, and is no longer armed. -/
  | rang (runtime : Runtime) (stopping : runtime.stopping = s.runtime.stopping)
      (cleaned : runtime.cleaned = s.runtime.cleaned) (check timeout : Option Nat) :
      SeatAtomicStep gen i s { s with
        runtime := runtime
        peer := { s.peer with checkEv := check, probe :=
          { s.peer.probe with timeout := timeout } } }

/-- Any number of steps at a seat. -/
abbrev SeatAtomicSteps (gen : Generation) (i : Nat) : Seat → Seat → Prop :=
  Relation.ReflTransGen (SeatAtomicStep gen i)

section History

variable (p : Proc) (i : Nat)

/-- Events of a peer are added to the history of that peer. -/
theorem history_own {events : List IoEvent} (own : ∀ event ∈ events, event.peer = i)
    (io : List IoEvent) :
    ((events ++ io).filter fun event => event.peer = i) =
      events ++ io.filter fun event => event.peer = i := by
  -- All of the new events pass the filter.
  rw [List.filter_append, List.filter_eq_self.mpr fun event member =>
    by simpa using own event member]

/-- Events of a peer leave the history of the others. -/
theorem history_other {j : Nat} {events : List IoEvent} (own : ∀ event ∈ events, event.peer = j)
    (other : i ≠ j) (io : List IoEvent) :
    ((events ++ io).filter fun event => event.peer = i) =
      io.filter fun event => event.peer = i := by
  -- None of the new events passes the filter.
  have gone : (events.filter fun event => event.peer = i) = [] := by
    rw [List.filter_eq_nil_iff]
    intro event member same
    rw [own event member] at same
    exact other (by simpa using Eq.symm (of_decide_eq_true same))
  rw [List.filter_append, gone, List.nil_append]

/-- A handled peer is handled at its own seat. -/
theorem seat_handle (probe : Probe) {events : List IoEvent}
    (own : ∀ event ∈ events, event.peer = i) :
    (p.handle i probe events).seat i = (p.seat i).handle probe events := by
  -- Its events are its own.
  unfold Proc.seat Seat.handle Proc.history
  rw [handle_io, history_own i own, handle_peers]
  rfl

/-- A handled peer leaves the other seats as they were. -/
theorem seat_handle_other {j : Nat} (probe : Probe) {events : List IoEvent}
    (own : ∀ event ∈ events, event.peer = j) (other : i ≠ j) :
    (p.handle j probe events).seat i = p.seat i := by
  -- The events are those of another peer.
  unfold Proc.seat Proc.history
  rw [handle_io, history_other i own other, handle_peers_other _ _ _ _ other]
  rfl

/-- A peer that was stored is seen at its own seat. -/
@[simp] theorem seat_setPeer (peer : Peer) :
    (p.setPeer i peer).seat i = { p.seat i with peer := peer } := by
  -- The history is as it was.
  unfold Proc.seat
  rw [setPeer_peers]
  rfl

/-- A peer that was stored is not seen at the other seats. -/
theorem seat_setPeer_other {j : Nat} {peer : Peer} (other : i ≠ j) :
    (p.setPeer j peer).seat i = p.seat i := by
  -- An update at another place.
  unfold Proc.seat
  rw [setPeer_peers_other _ _ _ other]
  rfl

/-- Closing a probe's connection leaves the event of that connection. -/
theorem mem_closing {probe : Probe} {event : IoEvent} (member : event ∈ probe.closing i) :
    ∃ c, probe.connection = some c ∧ event = .closed i c.id := by
  -- There is one event if there is a connection.
  unfold Probe.closing at member
  rw [Option.mem_toList, Option.map_eq_some_iff] at member
  obtain ⟨c, current, same⟩ := member
  exact ⟨c, current, same.symm⟩

/-- The end of a connection is routine. -/
theorem closing_routine (probe : Probe) : ∀ event ∈ probe.closing i, event.Routine i := by
  -- It is the only event.
  intro event member
  obtain ⟨c, _, same⟩ := mem_closing i member
  rw [same]
  exact .closed c.id

/-- A read loop leaves the reads of its connection. -/
theorem mem_drains {gen : Generation} {connection discarded : Nat} {close : Option Bool}
    {count : Nat} {events : List IoEvent}
    (reads : Drains gen i connection discarded close count events) :
    ∀ event ∈ events, ∃ count requested result,
      event = .idleRead i connection count requested result := by
  -- Induction on the passes of the loop.
  have more : ∀ {count requested : Nat} {result : Int} {events : List IoEvent},
      (∀ event ∈ events, ∃ count requested result,
        event = .idleRead i connection count requested result) →
      ∀ event ∈ .idleRead i connection count requested result :: events,
        ∃ count requested result, event = .idleRead i connection count requested result := by
    intro count requested result events before event member
    rcases List.mem_cons.mp member with newest | earlier
    · exact ⟨count, requested, result, newest⟩
    · exact before event earlier
  induction reads with
  | start => simp
  | received _ _ _ _ _ ih => exact more ih
  | interrupted _ ih => exact more ih
  | kept _ ih => exact more ih
  | failed _ _ _ ih => exact more ih
  | exceeded _ _ _ _ _ ih => exact more ih

/-- The reads of an idle connection are routine. -/
theorem drains_routine {gen : Generation} {connection discarded : Nat} {close : Option Bool}
    {count : Nat} {events : List IoEvent}
    (reads : Drains gen i connection discarded close count events) :
    ∀ event ∈ events, event.Routine i := by
  -- All of the events are reads.
  intro event member
  obtain ⟨count, requested, result, same⟩ := mem_drains i reads event member
  rw [same]
  exact .idleRead connection count requested result

/-- What leads to a reconnection is routine. -/
theorem reconnects_routine {gen : Generation} {probe : Probe} {before : List IoEvent}
    (how : Reconnects gen i probe before) : ∀ event ∈ before, event.Routine i := by
  -- One case for each reason to reconnect.
  intro event member
  cases how with
  | fresh => cases member
  | expired c retained currentMsec =>
    rcases List.mem_cons.mp member with closed | aged
    · rw [closed]
      exact .closed c.id
    · rw [List.mem_singleton.mp aged]
      exact .aged c.id currentMsec
  | failed c retained currentMsec young =>
    simp only [List.mem_cons, List.not_mem_nil, or_false] at member
    rcases member with closed | peeked | aged
    · rw [closed]
      exact .closed c.id
    · rw [peeked]
      exact .peeked .probeStart c.id false
    · rw [aged]
      exact .aged c.id currentMsec

/-- A process that asks for a connection notes nothing else. -/
theorem connects_routine {gen : Generation} {probe : Probe} {before : List IoEvent}
    (how : Reconnects gen i probe before) (established : Option (Nat × Nat)) :
    ∀ event ∈ (established.map fun c => IoEvent.established i c.1 c.2).toList ++
      .connecting i :: before, event.Routine i := by
  -- The new connection, the attempt and what led to it.
  intro event member
  rcases List.mem_append.mp member with new | member
  · rw [Option.mem_toList, Option.map_eq_some_iff] at new
    obtain ⟨c, _, same⟩ := new
    rw [← same]
    exact .established c.1 c.2
  · rcases List.mem_cons.mp member with asked | earlier
    · rw [asked]
      exact .connecting
    · exact reconnects_routine i how event earlier

/-- What a process does to a probe of a peer is routine, unless it sends or reports a UDP error. -/
theorem step_routine {gen : Generation} {probe probe' : Probe} {history events : List IoEvent}
    (step : ProbeStep gen i probe history probe' events) : ∀ event ∈ events,
      event.Routine i ∨ (∃ whole, event = .sent i whole) ∨
        ∃ error reading, event = .udpError i error reading := by
  -- One case for each step.
  intro event member
  cases step with
  | closed => exact .inl (closing_routine i probe event member)
  | lost =>
    rcases List.mem_append.mp member with closing | lost
    · exact .inl (closing_routine i probe event closing)
    · rw [List.mem_singleton.mp lost]
      exact .inl .lost
  | released => exact .inl (closing_routine i probe event member)
  | confirmed =>
    rw [List.mem_singleton.mp member]
    exact .inl .confirmed
  | peeked c retained currentMsec young =>
    rcases List.mem_cons.mp member with peeked | aged
    · rw [peeked]
      exact .inl (.peeked .probeStart c.id true)
    · rw [List.mem_singleton.mp aged]
      exact .inl (.aged c.id currentMsec)
  | sent => exact .inr (.inl ⟨true, List.mem_singleton.mp member⟩)
  | attempted => exact .inr (.inl ⟨false, List.mem_singleton.mp member⟩)
  | erred error reading => exact .inr (.inr ⟨error, reading, List.mem_singleton.mp member⟩)
  | drained c current discarded events reads => exact .inl (drains_routine i reads event member)
  | overrun c current discarded events reads =>
    rcases List.mem_cons.mp member with closed | read
    · rw [closed]
      exact .inl (.closed c.id)
    · exact .inl (drains_routine i reads event read)
  | _ => cases member

/-- Routine events are events of their peer. -/
theorem routine_own {event : IoEvent} (routine : event.Routine i) : event.peer = i := by
  -- One case for each event.
  cases routine <;> rfl

/-- The end of a connection is noted at its own peer. -/
theorem closing_own (probe : Probe) : ∀ event ∈ probe.closing i, event.peer = i :=
  fun event member => routine_own i (closing_routine i probe event member)

/-- A delay sample is an event of the connection it was taken from. -/
theorem mem_sampling {probe : Probe} {delay : Option Nat} {event : IoEvent}
    (member : event ∈ probe.sampling i delay) :
    ∃ c value, probe.connection = some c ∧ delay = some value ∧
      event = .sampled i c.id value := by
  -- There is one event if there is a sample and a connection.
  unfold Probe.sampling at member
  rw [Option.mem_toList, Option.bind_eq_some_iff] at member
  obtain ⟨value, sampled, taken⟩ := member
  obtain ⟨c, current, same⟩ := Option.map_eq_some_iff.mp taken
  exact ⟨c, value, current, sampled, same.symm⟩

/-- What a process does to a probe of a peer leaves events of that peer. -/
theorem step_own {gen : Generation} {probe probe' : Probe} {history events : List IoEvent}
    (step : ProbeStep gen i probe history probe' events) :
    ∀ event ∈ events, event.peer = i := by
  -- The events of a step are routine, a datagram or an error.
  intro event member
  rcases step_routine i step event member with routine | ⟨whole, same⟩ | ⟨error, reading, same⟩
  · exact routine_own i routine
  · rw [same]
    rfl
  · rw [same]
    rfl

/-- What leads to a reconnection is noted at its own peer. -/
theorem reconnects_own {gen : Generation} {probe : Probe} {before : List IoEvent}
    (how : Reconnects gen i probe before) : ∀ event ∈ before, event.peer = i :=
  fun event member => routine_own i (reconnects_routine i how event member)

/-- What leads to an outcome is noted at its own peer. -/
theorem noted_own {gen : Generation} {probe : Probe} {history : List IoEvent} {result : Bool}
    {events : List IoEvent}
    (noted : Noted gen i probe history result events) : ∀ event ∈ events, event.peer = i := by
  -- One case for each outcome.
  cases noted <;> simp [IoEvent.peer]

end History

section InnerSteps

variable {gen : Generation} {i : Nat}

/-- A seat where nothing happened. -/
theorem seatInnerStep_refl (s : Seat) : SeatInnerStep gen i s s :=
  -- No connection was opened elsewhere.
  .elsewhere s.opened le_rfl

/-- Stopping another peer leaves the seat. -/
theorem seat_stopPeer_other (p : Proc) {j : Nat} (other : i ≠ j) :
    (p.stopPeer j).seat i = p.seat i := by
  -- Both writes go to another place.
  unfold Proc.stopPeer
  split
  · rw [Proc.release, seat_handle_other _ _ _ (closing_own j _) other, Proc.disarm,
      seat_setPeer_other _ _ other]
  · rw [Proc.disarm, seat_setPeer_other _ _ other]

/-- Stopping a peer is seen at its own seat. -/
theorem seat_stopPeer (p : Proc) (stops : p.runtime.stopping = true)
    (unwatched : p.runtime.watch = none) : (p.stopPeer i).seat i = (p.seat i).stop i := by
  -- The process is stopping and has no watch, as the seat shows.
  have runtime : p.runtime = { p.runtime with stopping := true, watch := none } := by
    rw [← stops, ← unwatched]
  have disarmed : (p.disarm i).seat i =
      { p.seat i with
        runtime := { p.runtime with stopping := true, watch := none }
        peer := { p.peers i with checkEv := none } } := by
    rw [Proc.disarm, seat_setPeer, ← runtime]
    rfl
  have probe : ((p.disarm i).peers i).probe = (p.peers i).probe := by
    rw [Proc.disarm, setPeer_peers]
  unfold Proc.stopPeer Seat.stop
  show Proc.seat (if (p.peers i).allocated then _ else _) i =
    if (p.peers i).allocated then _ else _
  split
  · rw [Proc.release, seat_handle _ _ _ (closing_own i _), disarmed, Proc.round, probe]
    rfl
  · rw [disarmed]
    rfl

/-- Stopping a process stops every configured peer once. -/
theorem seat_stopPeers (p : Proc) (n : Nat) (stops : p.runtime.stopping = true)
    (unwatched : p.runtime.watch = none) :
    (p.stopPeers n).seat i = if i < n then (p.seat i).stop i else p.seat i := by
  -- Induction on the number of peers; the last one is stopped last.
  induction n with
  | zero => simp [Proc.stopPeers]
  | succ n ih =>
    rw [Proc.stopPeers]
    by_cases last : i = n
    · subst last
      rw [if_neg (lt_irrefl i)] at ih
      rw [seat_stopPeer _ (by rwa [stopPeers_runtime]) (by rwa [stopPeers_runtime]), ih,
        if_pos (Nat.lt_succ_self i)]
    · rw [seat_stopPeer_other _ last, ih]
      by_cases below : i < n
      · rw [if_pos below, if_pos (Nat.lt_succ_of_lt below)]
      · rw [if_neg below, if_neg (by omega)]

/-- A change of a process is an inner step at the seat of each of its peers. -/
theorem seatInnerStep_local {p p' : Proc} (change : Local gen p p') :
    SeatInnerStep gen i (p.seat i) (p'.seat i) := by
  -- One case for each change; a change of another peer is a step elsewhere.
  cases change with
  | scheduled => exact .paced _ rfl rfl id
  | watching => exact .paced _ rfl rfl fun _ => rfl
  | stopped =>
    rw [Proc.stop, seat_stopPeers _ _ rfl rfl]
    by_cases below : i < gen.nelts
    · rw [if_pos below]
      exact .stopped below
    · rw [if_neg below]
      exact .unlisted (Nat.le_of_not_lt below)
  | stoppedAgain cleaned => exact .stoppedAgain cleaned
  | cleaned stopping => exact .cleaned stopping
  | checkArmed j delay =>
    by_cases same : i = j
    · subst same
      rw [seat_setPeer]
      exact .timed _
    · rw [seat_setPeer_other _ _ same]
      exact seatInnerStep_refl _
  | handled j probe events step =>
    by_cases same : i = j
    · subst same
      rw [seat_handle _ _ _ (step_own i step)]
      exact .handled probe events step
    · rw [seat_handle_other _ _ _ (step_own j step) same]
      exact seatInnerStep_refl _
  | connected j before error startTime how active confirmed =>
    have own : ∀ (own : List IoEvent), (∀ event ∈ own, event.peer = j) →
        ∀ event ∈ own ++ before, event.peer = j := by
      intro own mine event member
      exact (List.mem_append.mp member).elim (mine event) (reconnects_own j how event)
    by_cases same : i = j
    · subst same
      have connect : (p.connect i before error startTime).seat i =
          (p.seat i).connect i before error startTime := by
        cases startTime with
        | none =>
          exact seat_handle p i _ (own [.connecting i] (by simp [IoEvent.peer]))
        | some time =>
          have handled := seat_handle p i
            { (p.peers i).probe with
              connection := some { id := p.opened, startTime := time }, error := error
              discarded := 0 }
            (own [.established i p.opened time, .connecting i] (by simp [IoEvent.peer]))
          exact congrArg (fun s : Seat => { s with opened := p.opened + 1 }) handled
      rw [connect]
      exact .connected before error startTime how active confirmed
    · cases startTime with
      | none =>
        have still := seat_handle_other p i
          { (p.peers j).probe with connection := none, error := error }
          (own [.connecting j] (by simp [IoEvent.peer])) same
        have connect : (p.connect j before error none).seat i = p.seat i := still
        rw [connect]
        exact seatInnerStep_refl _
      | some time =>
        have still := seat_handle_other p i
          { (p.peers j).probe with
              connection := some { id := p.opened, startTime := time }, error := error
              discarded := 0 }
          (own [.established j p.opened time, .connecting j] (by simp [IoEvent.peer])) same
        have connect : (p.connect j before error (some time)).seat i =
            { p.seat i with opened := p.opened + 1 } :=
          congrArg (fun s : Seat => { s with opened := p.opened + 1 }) still
        rw [connect]
        exact .elsewhere _ (Nat.le_succ _)

/-- A change of a process is an inner step of each seat. -/
theorem seatInnerStep_change {p p' : Proc} (change : Change gen p p') :
    SeatInnerStep gen i (p.seat i) (p'.seat i) := by
  -- One case for each change.
  cases change with
  | kept => exact seatInnerStep_refl _
  | alone _ change => exact seatInnerStep_local change
  | disarmed j =>
    by_cases same : i = j
    · subst same
      rw [Proc.disarm, seat_setPeer]
      exact .timed none
    · rw [Proc.disarm, seat_setPeer_other _ _ same]
      exact seatInnerStep_refl _
  | enrolled inst => exact .paced _ rfl rfl id
  | prepared j deadline tcp =>
    by_cases same : i = j
    · subst same
      rw [seat_setPeer]
      exact .prepared deadline tcp
    · rw [seat_setPeer_other _ _ same]
      exact seatInnerStep_refl _
  | waited j =>
    by_cases same : i = j
    · subst same
      rw [Proc.waitingPublished, seat_setPeer]
      exact .waited
    · rw [Proc.waitingPublished, seat_setPeer_other _ _ same]
      exact seatInnerStep_refl _
  | settled j check _ =>
    by_cases same : i = j
    · subst same
      rw [seat_setPeer]
      exact .settled check
    · rw [seat_setPeer_other _ _ same]
      exact seatInnerStep_refl _

/-- An inner step of a process is one of each seat. -/
theorem seatInnerStep_of_inner {w w' : World} (move : InnerStep gen w w') :
    SeatInnerStep gen i (w.self.seat i) (w'.self.seat i) := by
  -- The readings are not seen at a seat.
  obtain ⟨_, _, proc, rs, change, after⟩ := innerStep_changed move
  rw [after]
  exact (seatInnerStep_change change : SeatInnerStep gen i (w.self.seat i) (proc.seat i))

/-- A run of inner steps is one at each seat. -/
theorem seatInnerSteps_of_inner {w w' : World} (run : InnerSteps gen w w') :
    SeatInnerSteps gen i (w.self.seat i) (w'.self.seat i) := by
  -- Induction on the steps, one step at the end.
  induction run with
  | refl => exact .refl
  | tail _ move ih => exact ih.tail (seatInnerStep_of_inner move)

/-- An attempt to claim a peer, at the seat of each peer. -/
inductive SeatClaim (gen : Generation) (i : Nat) (s : Seat) : Seat → Prop
  | kept : SeatClaim gen i s s
  | allocated : SeatClaim gen i s { s with peer := { s.peer with allocated := true } }
  | claimed (started : Nat) (next : PeerState) (active : s.peer.probe.round.active = false)
      (pending : s.peer.probe.round.pending = false)
      (deadline : next.deadline = addTime started (gen.conf i).checkTimeout) :
      SeatClaim gen i s (s.claimed gen i started next)

/-- An attempt to claim a peer is one at each seat. -/
theorem seatClaim_claimRound {j : Nat} {takeover : Option PeerState} {limit : Nat} {w : World} :
    wp (claimRound gen j takeover limit)
      (fun _ w' => SeatClaim gen i (w.self.seat i) (w'.self.seat i)) w := by
  -- The cases of its law.
  refine wp_claimRound (fun rs pos => ?_) (fun rc wait rs pos locks _ _ _ => ?_)
    (fun t rs pos locks _ _ claimable _ => ?_)
  · rw [passed_self]
    exact .kept
  · rw [passed_self, self_setSelf]
    show SeatClaim gen i (w.self.seat i) ((w.self.allocate j).seat i)
    by_cases same : i = j
    · subst same
      rw [Proc.allocate, seat_setPeer]
      exact .allocated
    · rw [Proc.allocate, seat_setPeer_other _ _ same]
      exact .kept
  · dsimp only
    rw [passed_self, self_setSelf]
    generalize stated : claimState (gen.conf j) w.self.runtime w.self.pid (milliseconds t)
      (w.sys.record j) = next
    show SeatClaim gen i (w.self.seat i)
      (((w.self.allocate j).claimed gen j (milliseconds t) next).seat i)
    have deadline : next.deadline = addTime (milliseconds t) (gen.conf j).checkTimeout := by
      rw [← stated]
      rfl
    by_cases same : i = j
    · subst same
      have claimed : ((w.self.allocate i).claimed gen i (milliseconds t) next).seat i =
          (w.self.seat i).claimed gen i (milliseconds t) next := by
        unfold Proc.claimed Proc.seat Seat.claimed Proc.allocate Proc.history
        simp [IoEvent.peer, Proc.setPeer]
      rw [claimed]
      exact .claimed _ _ claimable.idle.1 claimable.idle.2 deadline
    · have still : ((w.self.allocate j).claimed gen j (milliseconds t) next).seat i =
          w.self.seat i := by
        unfold Proc.claimed Proc.seat Proc.allocate Proc.history
        simp [IoEvent.peer, Proc.setPeer, same, Ne.symm same]
      rw [still]
      exact .kept

/-- Freezing an outcome, at the seat of each peer. -/
theorem seat_frozen (p : Proc) (j : Nat) (result : Bool) (delay : Option Nat)
    (reason source : String) (error : Option Errno) :
    (p.frozen j result delay reason source error).seat i =
      if i = j then (p.seat i).frozen i result delay reason source error else p.seat i := by
  -- The peer itself or another one.
  have own : ∀ event ∈ (p.peers j).probe.sampling j delay ++ [.finished j result],
      event.peer = j := by
    intro event member
    rcases List.mem_append.mp member with sampled | finished
    · obtain ⟨_, _, _, _, taken⟩ := mem_sampling j sampled
      rw [taken]
      rfl
    · rw [List.mem_singleton.mp finished]
      rfl
  have shape : p.frozen j result delay reason source error = p.handle j
      { (p.peers j).probe with
        reason := reason, source := source, error := error
        round := { p.round j with
          active := false, pending := true, result := result, sample := delay.isSome
          delay := delay.getD (p.round j).delay } }
      ((p.peers j).probe.sampling j delay ++ [.finished j result]) := by
    unfold Proc.frozen Proc.handle
    rw [List.append_assoc]
    rfl
  rw [shape]
  split
  case isTrue same =>
    subst same
    rw [seat_handle _ _ _ own]
    rfl
  case isFalse other => rw [seat_handle_other _ _ _ own other]

/-- A frozen outcome, at the seat of each peer; a delay is taken from a connection's first round. -/
theorem seat_froze {j : Nat} {result : Bool} {reason source : String} {error label : Option Errno}
    {events : List IoEvent} {rs : List Nat} {pos : Nat} {w w' : World}
    (own : ∀ event ∈ events, event.peer = j)
    (returned : freeze gen j result reason source error (w.noting j events label rs pos) =
      some (true, w')) :
    ∃ delay : Option Nat,
      (delay.isSome = true → result = true ∧
        ∃ c, (w.self.peers j).probe.connection = some c ∧ c.requests = 0) ∧
      w'.self.seat i = if i = j then
        ((w.self.seat i).note events label).frozen i result delay reason source error
      else w.self.seat i := by
  -- The outcome is seen at the seat of its peer, after the notes.
  obtain ⟨delay, rs', pos', samples, after⟩ := freeze_returned returned
  have self : (w.noting j events label rs pos).self =
      { w.self.note j events label with readings := rs ++ w.self.readings } := by
    rw [World.noting, passed_self, self_setSelf]
    rfl
  refine ⟨delay, fun sampled => ?_, ?_⟩
  · obtain ⟨success, _, c, current, unused⟩ := samples sampled
    rw [self] at current
    simp only [Proc.note, handle_peers] at current
    exact ⟨success, c, current, unused⟩
  · rw [after, passed_self, self_setSelf, self]
    show ((w.self.note j events label).frozen j result delay reason source error).seat i = _
    rw [seat_frozen]
    split
    case isTrue same =>
      subst same
      rw [Proc.note, seat_handle _ _ _ own]
      rfl
    case isFalse other => rw [Proc.note, seat_handle_other _ _ _ own other]

/-- The submission of an outcome, at the seat of each peer. -/
theorem seat_submitted (p : Proc) (j : Nat) (result : Bool) (rc : Rc) :
    (p.handle j (p.peers j).probe [.submitted j result rc]).seat i =
      if i = j then (p.seat i).handle (p.seat i).peer.probe [.submitted i result rc]
      else p.seat i := by
  -- The peer itself or another one.
  have own : ∀ event ∈ [IoEvent.submitted j result rc], event.peer = j := by
    simp [IoEvent.peer]
  split
  case isTrue same =>
    subst same
    exact seat_handle _ _ _ own
  case isFalse other => exact seat_handle_other _ _ _ own other

/-- A step of a process, at the seat of each of its peers. -/
theorem seatAtomicStep_of_atomic {w w' : World} (move : AtomicStep gen w w') :
    SeatAtomicStep gen i (w.self.seat i) (w'.self.seat i) := by
  -- One case for each step.
  cases move with
  | inner w' move => exact .inner _ (seatInnerStep_of_inner move)
  | claimed j takeover limit result w' running registered returned =>
    have claim : SeatClaim gen i (w.self.seat i) (w'.self.seat i) :=
      seatClaim_claimRound result w' returned
    generalize w'.self.seat i = s' at claim
    cases claim with
    | kept => exact .inner _ (seatInnerStep_refl _)
    | allocated => exact .allocated
    | claimed started next active pending deadline =>
      exact .claimed started next running active pending deadline
  | froze j result reason source error label events rs pos w' noted active idle returned =>
    obtain ⟨delay, samples, after⟩ := seat_froze (i := i) (noted_own j noted) returned
    rw [after]
    split
    case isTrue same =>
      subst same
      exact .froze result delay reason source error label events noted active idle samples
    case isFalse => exact .inner _ (seatInnerStep_refl _)
  | submitted j result rc =>
    rw [self_setSelf, seat_submitted]
    split
    case isTrue same => exact .submitted result rc
    case isFalse => exact .inner _ (seatInnerStep_refl _)

/-- A run of atomic steps is one at each seat. -/
theorem seatAtomicSteps_of_atomic {w w' : World} (run : AtomicSteps gen w w') :
    SeatAtomicSteps gen i (w.self.seat i) (w'.self.seat i) := by
  -- Induction on the run.
  induction run with
  | refl => exact .refl
  | tail _ move ih => exact ih.tail (seatAtomicStep_of_atomic move)

/-- What every step at a seat keeps is kept by any number of them. -/
theorem seatAtomicSteps_keep {invariant : Seat → Prop}
    (keeps : ∀ {s s'}, invariant s → SeatAtomicStep gen i s s' → invariant s') {s s' : Seat}
    (run : SeatAtomicSteps gen i s s') (start : invariant s) : invariant s' := by
  -- Induction on the run.
  induction run with
  | refl => exact start
  | tail _ move reached => exact keeps reached move

/-- An invariant of the inner steps holds along their runs. -/
theorem seatInnerSteps_keep {invariant : Seat → Prop}
    (keeps : ∀ {s s'}, invariant s → SeatInnerStep gen i s s' → invariant s') {s s' : Seat}
    (run : SeatInnerSteps gen i s s') (start : invariant s) : invariant s' := by
  -- Induction on the run.
  induction run with
  | refl => exact start
  | tail _ move reached => exact keeps reached move

end InnerSteps

end Healthcheck
