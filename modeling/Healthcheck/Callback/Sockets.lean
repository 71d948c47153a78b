import Healthcheck.Callback.Reconnect
import Healthcheck.Callback.Retained
import Healthcheck.Library.Lease

/-! The check connections of a peer as leases: each socket is opened once, used while the probe holds
it, and closed once. -/

namespace Healthcheck

/-- What an I/O event does with a socket. -/
def IoEvent.lease : IoEvent → Option (Lease.Use Nat)
  | .established _ connection _ => some (.taken connection)
  | .closed _ connection => some (.returned connection)
  | .peeked _ _ connection _ => some (.used connection)
  | .idleRead _ connection _ _ _ => some (.used connection)
  | .sampled _ connection _ => some (.used connection)
  | .aged _ connection _ => some (.used connection)
  | _ => none

/-- What a history says about sockets. -/
def leases (history : List IoEvent) : List (Lease.Use Nat) :=
  history.filterMap IoEvent.lease

/-- A history handles sockets properly, and leaves the current one open. -/
structure Leasing (opened : Nat) (history : List IoEvent) (current : Option Nat) : Prop where
  proper : Trace.Along Lease.Proper (leases history)
  held : Lease.held (leases history) = current
  fresh : ∀ connection, .taken connection ∈ leases history → connection < opened

/-- A seat's history leaves the connection of its probe open, and no other one. -/
def Seat.Leased (s : Seat) : Prop :=
  Leasing s.opened s.history (s.peer.probe.connection.map Connection.id)

section Leasing

variable {opened connection : Nat} {history : List IoEvent} {current : Option Nat}

/-- Connections opened elsewhere take nothing from this peer. -/
theorem leasing_later {later : Nat} (more : opened ≤ later)
    (leasing : Leasing opened history current) : Leasing later history current :=
  ⟨leasing.proper, leasing.held, fun connection taken =>
    Nat.lt_of_lt_of_le (leasing.fresh connection taken) more⟩

/-- Events that use no connection keep the account. -/
theorem leasing_silent (events : List IoEvent) (silent : ∀ event ∈ events, event.lease = none)
    (leasing : Leasing opened history current) : Leasing opened (events ++ history) current := by
  -- They are left out of it.
  have same : leases (events ++ history) = leases history := by
    rw [leases, List.filterMap_append, List.filterMap_eq_nil_iff.mpr silent]
    rfl
  obtain ⟨proper, held, fresh⟩ := leasing
  exact ⟨same ▸ proper, same ▸ held, same ▸ fresh⟩

/-- Events that use the open socket. -/
theorem leasing_used (events : List IoEvent)
    (uses : ∀ event ∈ events, event.lease = some (.used connection))
    (leasing : Leasing opened history (some connection)) :
    Leasing opened (events ++ history) (some connection) := by
  -- The connection in use is the one that is held.
  obtain ⟨proper, held, fresh⟩ := leasing
  have same : ∀ use ∈ leases events, use = .used connection := by
    intro use member
    obtain ⟨event, inside, lease⟩ := List.mem_filterMap.mp member
    rw [uses event inside] at lease
    exact (Option.some.inj lease).symm
  have split : leases (events ++ history) = leases events ++ leases history :=
    List.filterMap_append
  obtain ⟨proper', held'⟩ := Lease.proper_uses (leases events) same proper held
  refine ⟨split ▸ proper', split ▸ held', fun other taken => ?_⟩
  rw [split] at taken
  exact fresh other (Lease.taken_uses (leases events) same taken)

/-- A connection that is closed is given back. -/
theorem leasing_closed (i : Nat) (leasing : Leasing opened history (some connection)) :
    Leasing opened (.closed i connection :: history) none := by
  -- The account has one return more.
  obtain ⟨proper, held, fresh⟩ := leasing
  refine ⟨Lease.proper_returned proper held, rfl, fun other taken => fresh other ?_⟩
  rcases List.mem_cons.mp taken with same | before
  · cases same
  · exact before

/-- The end of a connection leaves none. -/
theorem leasing_closing (i : Nat) {probe : Probe}
    (leasing : Leasing opened history (probe.connection.map Connection.id)) :
    Leasing opened (probe.closing i ++ history) none := by
  -- There may have been none before.
  cases held : probe.connection with
  | none =>
    rw [held] at leasing
    rw [closing_none i held]
    exact leasing
  | some c =>
    rw [held] at leasing
    rw [closing_some i held]
    exact leasing_closed i leasing

/-- A new socket has a number of its own. -/
theorem leasing_established (i startTime : Nat) (leasing : Leasing opened history none) :
    Leasing (opened + 1) (.established i opened startTime :: history) (some opened) := by
  -- The number of the new connection was never taken.
  obtain ⟨proper, held, fresh⟩ := leasing
  refine ⟨Lease.proper_taken proper held fun taken => ?_, rfl, fun other taken => ?_⟩
  · exact absurd (fresh opened taken) (Nat.lt_irrefl _)
  · rcases List.mem_cons.mp taken with same | before
    · cases same
      exact Nat.lt_succ_self _
    · exact Nat.lt_succ_of_lt (fresh other before)

/-- A preparation that asks for a new connection has none any more. -/
theorem leasing_reconnects {gen : Generation} {i : Nat} {probe : Probe} {before : List IoEvent}
    (how : Reconnects gen i probe before)
    (leasing : Leasing opened history (probe.connection.map Connection.id)) :
    Leasing opened (.connecting i :: before ++ history) none := by
  -- The old connection was closed on the way.
  have asked : Leasing opened (before ++ history) none → _ :=
    leasing_silent [.connecting i] (by simp [IoEvent.lease])
  cases how with
  | fresh none =>
    rw [none] at leasing
    exact asked leasing
  | expired c retained currentMsec =>
    rw [retained] at leasing
    exact asked (leasing_closed i (leasing_used [.aged i c.id currentMsec]
      (by simp [IoEvent.lease]) leasing))
  | failed c retained currentMsec young =>
    rw [retained] at leasing
    exact asked (leasing_closed i (leasing_used
      [.peeked i .probeStart c.id false, .aged i c.id currentMsec] (by simp [IoEvent.lease])
      leasing))

/-- The reads of an idle connection use that connection. -/
theorem drains_uses {gen : Generation} {i discarded count : Nat} {close : Option Bool}
    {events : List IoEvent} (reads : Drains gen i connection discarded close count events) :
    ∀ event ∈ events, event.lease = some (.used connection) := by
  -- All of the events are reads.
  intro event member
  obtain ⟨_, _, _, same⟩ := mem_drains i reads event member
  rw [same]
  rfl

end Leasing

section Seat

variable {gen : Generation} {i : Nat}

/-- A step of the probe keeps the account of its connections. -/
theorem step_leased {s : Seat} {probe' : Probe} {events : List IoEvent} (leased : s.Leased)
    (step : ProbeStep gen i s.peer.probe s.history probe' events) :
    (s.handle probe' events).Leased := by
  -- One case for each step.
  have mapped : ∀ f : Connection → Connection, (∀ c, (f c).id = c.id) →
      Leasing s.opened s.history ((s.peer.probe.connection.map f).map Connection.id) := by
    intro f same
    rw [Option.map_map, show Connection.id ∘ f = Connection.id from funext same]
    exact leased
  cases step with
  | tuned probe' tuned =>
    show Leasing s.opened s.history (probe'.connection.map Connection.id)
    rw [tuned.connection]
    exact leased
  | rested tcp => exact mapped Connection.rest fun _ => rfl
  | counted => exact mapped _ fun _ => rfl
  | prepared c current active checked =>
    have held : Leasing s.opened s.history (s.peer.probe.connection.map Connection.id) := leased
    rw [current] at held
    exact held
  | closed => exact leasing_closing i leased
  | lost =>
    show Leasing s.opened (s.peer.probe.closing i ++ [.lost i] ++ s.history) none
    rw [List.append_assoc]
    exact leasing_closing i (leasing_silent [.lost i] (by simp [IoEvent.lease]) leased)
  | released pending fewer => exact leasing_closing i leased
  | peeked c retained currentMsec young =>
    have held : Leasing s.opened s.history (s.peer.probe.connection.map Connection.id) := leased
    rw [retained] at held
    show Leasing s.opened _ (s.peer.probe.connection.map Connection.id)
    rw [retained]
    exact leasing_used _ (by simp [IoEvent.lease]) held
  | drained c current discarded events reads =>
    have held : Leasing s.opened s.history (s.peer.probe.connection.map Connection.id) := leased
    rw [current] at held
    show Leasing s.opened _ (s.peer.probe.connection.map Connection.id)
    rw [current]
    exact leasing_used events (drains_uses reads) held
  | overrun c current discarded events reads =>
    have held : Leasing s.opened s.history (s.peer.probe.connection.map Connection.id) := leased
    rw [current] at held
    exact leasing_closed i (leasing_used events (drains_uses reads) held)
  | confirmed => exact leasing_silent [.confirmed i] (by simp [IoEvent.lease]) leased
  | sent stage sending => exact leasing_silent [.sent i true] (by simp [IoEvent.lease]) leased
  | attempted sending => exact leasing_silent [.sent i false] (by simp [IoEvent.lease]) leased
  | erred error reading unconfirmed =>
    exact leasing_silent [.udpError i error reading] (by simp [IoEvent.lease]) leased
  | timeoutArmed delay => exact leased
  | timeoutEnded past => exact leased

/-- An inner step keeps the account of the connections. -/
theorem seatInnerStep_leased {s s' : Seat} (leased : s.Leased) (move : SeatInnerStep gen i s s') :
    s'.Leased := by
  -- One case for each step.
  cases move with
  | elsewhere opened more => exact leasing_later more leased
  | stopped below =>
    unfold Seat.stop
    dsimp only
    split
    · exact leasing_closing i leased
    · exact leased
  | handled probe events step => exact step_leased leased step
  | connected before error startTime how active confirmed =>
    have asked := leasing_reconnects how leased
    cases startTime with
    | none => exact asked
    | some time => exact leasing_established i time asked
  | _ => exact leased

/-- What led to the outcome of a round, and a delay sample, use the connection of the probe. -/
theorem froze_leased {s : Seat} {result : Bool} {delay : Option Nat} {reason source : String}
    {error label : Option Errno} {events : List IoEvent}
    (noted : Noted gen i s.peer.probe s.history result events) (leased : s.Leased) :
    ((s.note events label).frozen i result delay reason source error).Leased := by
  -- The notes use the connection that is held, or none.
  have before : Leasing s.opened (events ++ s.history)
      (s.peer.probe.connection.map Connection.id) := by
    have held : Leasing s.opened s.history (s.peer.probe.connection.map Connection.id) := leased
    cases noted with
    | plain => exact held
    | expired => exact leasing_silent [_] (by simp [IoEvent.lease]) held
    | unclocked => exact leasing_silent [_] (by simp [IoEvent.lease]) held
    | refused t evidence served => exact leasing_silent [_] (by simp [IoEvent.lease]) held
    | peeked c passed current watched =>
      rw [current] at held ⊢
      exact leasing_used [_] (by simp [IoEvent.lease]) held
  have finished : Leasing s.opened ([.finished i result] ++ (events ++ s.history))
      (s.peer.probe.connection.map Connection.id) :=
    leasing_silent _ (by simp [IoEvent.lease]) before
  show Leasing s.opened ((s.peer.probe.sampling i delay ++ [.finished i result]) ++
    (events ++ s.history)) (s.peer.probe.connection.map Connection.id)
  rw [List.append_assoc]
  cases held : s.peer.probe.connection with
  | none =>
    rw [held] at finished
    refine leasing_silent _ (fun event member => ?_) finished
    obtain ⟨c, _, current, _⟩ := mem_sampling i member
    rw [held] at current
    cases current
  | some c =>
    rw [held] at finished
    refine leasing_used _ (fun event member => ?_) finished
    obtain ⟨c', _, current, _, same⟩ := mem_sampling i member
    rw [held] at current
    cases current
    rw [same]
    rfl

/-- An atomic step keeps the account of the connections. -/
theorem seatAtomicStep_leased {s s' : Seat} (leased : s.Leased) (move : SeatAtomicStep gen i s s') :
    s'.Leased := by
  -- Its other events use no connection.
  cases move with
  | inner s' move => exact seatInnerStep_leased leased move
  | claimed started next running active pending deadline =>
    exact leasing_silent [_] (by simp [IoEvent.lease]) leased
  | froze result delay reason source error label events noted active idle sample =>
    exact froze_leased noted leased
  | submitted result rc => exact leasing_silent [_] (by simp [IoEvent.lease]) leased
  | allocated => exact leased
  | rang runtime stopping cleaned check timeout => exact leased

end Seat

section Life

variable {gen : Generation} {me : Nat} {start : Sys → Prop} {between : Sys → Sys → Prop} {s : Sys}

/-- A process starts without a connection. -/
theorem start_leased (worker : Nat) : (Seat.start worker).Leased :=
  ⟨Trace.along_nil _, rfl, fun _ taken => by cases taken⟩

/-- The sockets of a peer are accounted for in every life of a process: each is opened at most once
and closed exactly when the probe does not hold it any more, one is open at a time, it is used only
while it is open, and none is left open by a process that stops. -/
theorem sockets_accounted (life : Life gen me start between s) (i connection : Nat) :
    (leases ((s.procs me).history i)).count (.taken connection) ≤ 1 ∧
    (leases ((s.procs me).history i)).count (.returned connection) +
        (if ((s.procs me).peers i).probe.connection.map Connection.id = some connection
          then 1 else 0) =
      (leases ((s.procs me).history i)).count (.taken connection) ∧
    (∀ newer older, leases ((s.procs me).history i) = newer ++ .returned connection :: older →
      ∀ use ∈ newer, use.resource ≠ connection) ∧
    Trace.Along Lease.Proper (leases ((s.procs me).history i)) ∧
    (i < gen.nelts → (s.procs me).runtime.stopping = true →
      (leases ((s.procs me).history i)).count (.returned connection) =
        (leases ((s.procs me).history i)).count (.taken connection)) := by
  obtain ⟨proper, held, _⟩ : ((s.procs me).seat i).Leased :=
    life_seat start_leased seatAtomicStep_leased life
  obtain ⟨balanced, once⟩ := Lease.balance proper connection
  rw [held] at balanced
  refine ⟨once, balanced, fun newer older split => ?_, proper, fun listed stops => ?_⟩
  · exact Lease.alone_after_return (split ▸ proper)
  · -- No round is left when a process stops, and no connection.
    have closed := (stopping_idle life listed stops).2.2
    rw [show ((s.procs me).seat i).peer.probe.connection = none from closed] at balanced
    exact balanced

/-- A connection of the sample that was closed and replaced. -/
theorem sockets_accounted_closed : ∃ s, retainedLife closedBefore = some s ∧
    ((s.procs 0).peers 0).probe.connection.map Connection.id = some 1 ∧
    (leases ((s.procs 0).history 0)).count (.taken 0) = 1 ∧
    (leases ((s.procs 0).history 0)).count (.returned 0) = 1 := by
  -- The life is computed, and the theorem closes the account of its first connection.
  have noted : ((retainedLife closedBefore).map fun s =>
      (((s.procs 0).peers 0).probe.connection.map Connection.id,
        (leases ((s.procs 0).history 0)).count (.taken 0))) = some (some 1, 1) := by decide +kernel
  obtain ⟨s, ran, after⟩ := Option.map_eq_some_iff.mp noted
  obtain ⟨held, taken⟩ := Prod.mk.inj after
  obtain ⟨_, balanced, _⟩ := sockets_accounted (life_lived ran) 0 0
  rw [held, taken] at balanced
  exact ⟨s, ran, held, taken, balanced⟩

end Life

end Healthcheck
