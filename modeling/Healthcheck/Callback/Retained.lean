import Healthcheck.Callback.SeatSteps
import Healthcheck.System.Run
import Healthcheck.Library.Trace

/-!
The check connection of a peer, over the rounds of a process: it is kept from one round to the next
only after a success, checked again before it is used, and given up when the process stops or finds
that another one owns the peer.
-/

namespace Healthcheck

open Program

/-- A delay sample is the first one of its connection, in the round that established it. -/
def FirstSample (i : Nat) (event : IoEvent) (older : List IoEvent) : Prop :=
  ∀ c delay, event = .sampled i c delay →
    (∃ startTime, .established i c startTime ∈ sinceClaim i older) ∧
      ∀ delay', .sampled i c delay' ∉ older

/-- A preparation peeks a connection whose age it just found to be below the limit; the check itself
peeks a connection of its round, or one that the preparation peeked. -/
def Justified (gen : Generation) (i : Nat) (event : IoEvent) (older : List IoEvent) : Prop :=
  (∀ c passed, event = .peeked i .probeStart c passed →
    ∃ currentMsec past startTime, older = .aged i c currentMsec :: past ∧
      .established i c startTime ∈ past ∧ Young gen i startTime currentMsec) ∧
  ∀ c passed, event = .peeked i .tcpEvent c passed → Checked i c older

/-- What holds of a connection between two rounds. -/
structure Seat.Outlives (gen : Generation) (i : Nat) (s : Seat) (c : Connection) : Prop where
  tcp : (gen.conf i).checkType = .tcp
  keep : (gen.conf i).keepConnection = true
  settled : s.peer.probe.round.pending = false
  outcome : newest (IoEvent.outcome i) s.history = some (some (true, .ok))
  used : 1 ≤ c.requests
  resting : ¬ c.Watched

/-- A connection that is held between two rounds was kept for a reason. -/
def Seat.Between (gen : Generation) (i : Nat) (s : Seat) : Prop :=
  ∀ c, s.peer.probe.connection = some c → s.peer.probe.round.active = false →
    s.Outlives gen i c

/-- What holds of the connection of a peer at any time. -/
structure Seat.Holds (gen : Generation) (i : Nat) (s : Seat) : Prop where
  steady : s.Steady
  opened : ∀ c, s.peer.probe.connection = some c → c.id < s.opened
  past : ∀ c delay, .sampled i c delay ∈ s.history → c < s.opened
  started : ∀ c, s.peer.probe.connection = some c →
    .established i c.id c.startTime ∈ s.history
  watched : ∀ c, s.peer.probe.connection = some c → c.Watched → Checked i c.id s.history
  unsampled : ∀ c, s.peer.probe.connection = some c → s.peer.probe.round.active = true →
    c.requests = 0 → (∃ startTime, .established i c.id startTime ∈ sinceClaim i s.history) ∧
      ∀ delay, .sampled i c.id delay ∉ s.history
  udp : (gen.conf i).checkType = .udp → ∀ c, s.peer.probe.connection = some c →
    ∃ startTime, .established i c.id startTime ∈ sinceClaim i s.history
  lost : Lost i s.history → s.peer.probe.connection = none
  stopped : s.runtime.stopping = true → s.peer.probe.round.active = false ∧
    s.peer.probe.round.pending = false ∧ s.peer.probe.connection = none
  cleaned : s.runtime.cleaned = true → s.runtime.stopping = true
  samples : Trace.Along (FirstSample i) s.history
  peeks : Trace.Along (Justified gen i) s.history

section Holds

variable {gen : Generation} {i : Nat}

/-- A connection after a step is the one before, used at least as often. -/
def Seat.Carried (i : Nat) (s s' : Seat) : Prop :=
  ∀ c', s'.peer.probe.connection = some c' → ∃ c, s.peer.probe.connection = some c ∧
    c'.id = c.id ∧ c'.startTime = c.startTime ∧ c.requests ≤ c'.requests ∧
      (c'.Watched → c.Watched ∨ Checked i c.id s.history)

/-- A connection that is gone need not be carried. -/
theorem carried_none {s s' : Seat} (gone : s'.peer.probe.connection = none) : s.Carried i s' := by
  -- There is none afterwards.
  intro c' held
  rw [gone] at held
  cases held

/-- The same connection is carried. -/
theorem carried_same {s s' : Seat}
    (same : s'.peer.probe.connection = s.peer.probe.connection) : s.Carried i s' := by
  -- It is its own predecessor.
  intro c' held
  rw [same] at held
  exact ⟨c', held, rfl, rfl, le_rfl, .inl⟩

/-- A connection whose handlers or counts have changed is carried. -/
theorem carried_map {s s' : Seat} (f : Connection → Connection)
    (mapped : s'.peer.probe.connection = s.peer.probe.connection.map f)
    (id : ∀ c, (f c).id = c.id) (startTime : ∀ c, (f c).startTime = c.startTime)
    (requests : ∀ c, c.requests ≤ (f c).requests) (watched : ∀ c, (f c).Watched → c.Watched) :
    s.Carried i s' := by
  -- The connection afterwards is the image of the one before.
  intro c' held
  rw [mapped] at held
  obtain ⟨c, current, same⟩ := Option.map_eq_some_iff.mp held
  rw [← same]
  exact ⟨c, current, id c, startTime c, requests c, fun watches => .inl (watched c watches)⟩

/-- A connection that was checked stays checked in its round. -/
theorem checked_append {c : Nat} {events history : List IoEvent}
    (silent : ∀ event ∈ events, event.claim i = none) (checked : Checked i c history) :
    Checked i c (events ++ history) := by
  -- The events since the claim only grow.
  unfold Checked
  rw [sinceClaim_append silent]
  exact checked.imp
    (fun ⟨startTime, member⟩ => ⟨startTime, List.mem_append_right _ member⟩)
    (List.mem_append_right _)

/-- A step that starts no round, and that carries the connection on or gives it up. -/
theorem holds_grown {s s' : Seat} (events : List IoEvent) (holds : s.Holds gen i)
    (history : s'.history = events ++ s.history) (steady : s'.Steady)
    (silent : ∀ event ∈ events, event.claim i = none)
    (sampled : ∀ c delay, .sampled i c delay ∈ events →
      c < s'.opened ∧ s'.peer.probe.round.active = false)
    (more : s.opened ≤ s'.opened) (carried : s.Carried i s')
    (active : s'.peer.probe.round.active = true → s.peer.probe.round.active = true)
    (lost : Lost i s'.history → s'.peer.probe.connection = none)
    (stopped : s'.runtime.stopping = true → s'.peer.probe.round.active = false ∧
      s'.peer.probe.round.pending = false ∧ s'.peer.probe.connection = none)
    (cleaned : s'.runtime.cleaned = true → s'.runtime.stopping = true)
    (samples : Trace.Along (FirstSample i) (events ++ s.history))
    (peeks : Trace.Along (Justified gen i) (events ++ s.history)) : s'.Holds gen i := by
  -- Each law goes over to the longer history.
  have since : sinceClaim i s'.history = events ++ sinceClaim i s.history := by
    rw [history, sinceClaim_append silent]
  have later : ∀ {event : IoEvent}, event ∈ sinceClaim i s.history →
      event ∈ sinceClaim i s'.history := by
    intro event member
    rw [since]
    exact List.mem_append_right _ member
  refine ⟨steady, fun c' held => ?_, fun c delay member => ?_, fun c' held => ?_,
    fun c' held watches => ?_, fun c' held runs unused => ?_, fun udp c' held => ?_, lost, stopped,
    cleaned, by rwa [history], by rwa [history]⟩
  · obtain ⟨c, current, id, _⟩ := carried c' held
    rw [id]
    exact lt_of_lt_of_le (holds.opened c current) more
  · rw [history] at member
    rcases List.mem_append.mp member with new | old
    · exact (sampled c delay new).1
    · exact lt_of_lt_of_le (holds.past c delay old) more
  · obtain ⟨c, current, id, startTime, _⟩ := carried c' held
    rw [id, startTime, history]
    exact List.mem_append_right _ (holds.started c current)
  · obtain ⟨c, current, id, _, _, watched⟩ := carried c' held
    rw [id, history]
    refine checked_append silent ?_
    exact (watched watches).elim (holds.watched c current) fun checked => checked
  · obtain ⟨c, current, id, _, requests, _⟩ := carried c' held
    obtain ⟨⟨startTime, established⟩, fresh⟩ :=
      holds.unsampled c current (active runs) (Nat.le_zero.mp (unused ▸ requests))
    rw [id]
    refine ⟨⟨startTime, later established⟩, fun delay member => ?_⟩
    rw [history] at member
    rcases List.mem_append.mp member with new | old
    · rw [(sampled c.id delay new).2] at runs
      cases runs
    · exact fresh delay old
  · obtain ⟨c, current, id, _⟩ := carried c' held
    obtain ⟨startTime, established⟩ := holds.udp udp c current
    rw [id]
    exact ⟨startTime, later established⟩

/-- The peer is found lost by one of the new events, or was so before. -/
theorem lost_append {events history : List IoEvent} (lost : Lost i (events ++ history)) :
    .lost i ∈ events ∨ Lost i history := by
  -- Induction on the events: the newest word on the ownership counts.
  induction events with
  | nil => exact .inr lost
  | cons event rest ih =>
    unfold Lost at lost
    rw [List.cons_append, newest_cons] at lost
    cases word : event.ownership i with
    | none =>
      rw [word, Option.none_or] at lost
      exact (ih lost).imp_left (List.mem_cons_of_mem event)
    | some owned =>
      rw [word, Option.some_or] at lost
      cases lost
      left
      cases event with
      | lost peer =>
        have same : peer = i := by
          by_contra other
          rw [IoEvent.ownership, if_neg other] at word
          cases word
        rw [same]
        exact List.mem_cons_self
      | confirmed peer =>
        rw [IoEvent.ownership] at word
        split at word
        · cases word
        · cases word
      | _ => cases word

/-- No connection is carried out of nothing. -/
theorem carried_gone {s s' : Seat} (carried : s.Carried i s')
    (gone : s.peer.probe.connection = none) : s'.peer.probe.connection = none := by
  -- What is carried has a predecessor.
  rw [Option.eq_none_iff_forall_ne_some]
  intro c' held
  obtain ⟨c, current, _⟩ := carried c' held
  rw [gone] at current
  cases current

/-- A step within a round, or between two: it starts and ends none. -/
theorem holds_inner {s s' : Seat} (events : List IoEvent) (holds : s.Holds gen i)
    (history : s'.history = events ++ s.history) (steady : s'.Steady)
    (inner : ∀ event ∈ events, event.inner = true) (more : s.opened ≤ s'.opened)
    (carried : s.Carried i s')
    (active : s'.peer.probe.round.active = true → s.peer.probe.round.active = true)
    (pending : s'.peer.probe.round.pending = true → s.peer.probe.round.pending = true)
    (stopping : s'.runtime.stopping = s.runtime.stopping)
    (cleaned : s'.runtime.cleaned = true → s.runtime.cleaned = true ∨ s.runtime.stopping = true)
    (lost : .lost i ∈ events → s'.peer.probe.connection = none)
    (peeks : Trace.Along (Justified gen i) (events ++ s.history)) : s'.Holds gen i := by
  -- An inner event claims nothing and samples nothing.
  have sampled : ∀ c delay, .sampled i c delay ∉ events :=
    fun c delay member => by cases inner _ member
  refine holds_grown events holds history steady
    (fun event member => inner_claim i (inner event member))
    (fun c delay member => absurd member (sampled c delay)) more carried active ?_ ?_ ?_ ?_ peeks
  · intro found
    rw [history] at found
    exact (lost_append found).elim lost fun before => carried_gone carried (holds.lost before)
  · intro stops
    rw [stopping] at stops
    obtain ⟨ended, submitted, gone⟩ := holds.stopped stops
    refine ⟨Bool.eq_false_iff.mpr fun runs => ?_, Bool.eq_false_iff.mpr fun waits => ?_,
      carried_gone carried gone⟩
    · rw [active runs] at ended
      cases ended
    · rw [pending waits] at submitted
      cases submitted
  · intro clean
    rw [stopping]
    exact (cleaned clean).elim holds.cleaned fun stops => stops
  · refine Trace.along_append (fun event member older c delay same => ?_) holds.samples
    rw [same] at member
    exact absurd member (sampled c delay)

/-- An event that is no peek. -/
def IoEvent.still : IoEvent → Bool
  | .peeked _ _ _ _ => false
  | _ => true

/-- Only a peek that passed needs a reason. -/
theorem justified_still {event : IoEvent} {older : List IoEvent} (still : event.still = true) :
    Justified gen i event older := by
  -- Both halves ask for such a peek.
  refine ⟨fun c passed same => ?_, fun c passed same => ?_⟩
  all_goals
    rw [same] at still
    cases still

/-- Events without peeks keep the peeks justified. -/
theorem peeks_still {events history : List IoEvent} (still : ∀ event ∈ events, event.still = true)
    (peeks : Trace.Along (Justified gen i) history) :
    Trace.Along (Justified gen i) (events ++ history) :=
  Trace.along_append (fun event member _ => justified_still (still event member)) peeks

/-- The end of a connection is no peek. -/
theorem closing_still (probe : Probe) : ∀ event ∈ probe.closing i, event.still = true := by
  -- It is the only event.
  intro event member
  obtain ⟨c, _, same⟩ := mem_closing i member
  rw [same]
  rfl

/-- A preparation peeks what it just found young enough. -/
theorem peeks_prepared {s : Seat} {c : Connection} {currentMsec : Nat} {passed : Bool}
    (holds : s.Holds gen i) (retained : s.peer.probe.connection = some c)
    (young : Young gen i c.startTime currentMsec) :
    Trace.Along (Justified gen i)
      ([.peeked i .probeStart c.id passed, .aged i c.id currentMsec] ++ s.history) := by
  -- The connection was aged just before, and it is young.
  have aged : Trace.Along (Justified gen i) ([.aged i c.id currentMsec] ++ s.history) :=
    peeks_still (by simp [IoEvent.still]) holds.peeks
  refine Trace.along_cons.mpr
    ⟨⟨fun c' passed' same => ?_, fun c' passed' same => by cases same⟩, aged⟩
  cases same
  exact ⟨currentMsec, s.history, c.startTime, rfl, holds.started c retained, young⟩

/-- A step of the probe peeks with a reason. -/
theorem step_peeks {s : Seat} {probe' : Probe} {events : List IoEvent} (holds : s.Holds gen i)
    (step : ProbeStep gen i s.peer.probe s.history probe' events) :
    Trace.Along (Justified gen i) (events ++ s.history) := by
  -- One case for each step.
  have reads : ∀ {connection discarded count : Nat} {close : Option Bool} {events : List IoEvent},
      Drains gen i connection discarded close count events →
      ∀ event ∈ events, event.still = true := by
    intro connection discarded count close events passes event member
    obtain ⟨_, _, _, same⟩ := mem_drains i passes event member
    rw [same]
    rfl
  cases step with
  | closed => exact peeks_still (closing_still _) holds.peeks
  | lost =>
    refine peeks_still (fun event member => ?_) holds.peeks
    rcases List.mem_append.mp member with closed | lost
    · exact closing_still _ event closed
    · rw [List.mem_singleton.mp lost]
      rfl
  | released => exact peeks_still (closing_still _) holds.peeks
  | drained c current discarded events passes => exact peeks_still (reads passes) holds.peeks
  | overrun c current discarded events passes =>
    refine peeks_still (fun event member => ?_) holds.peeks
    rcases List.mem_cons.mp member with closed | read
    · rw [closed]
      rfl
    · exact reads passes event read
  | peeked c retained currentMsec young => exact peeks_prepared holds retained young
  | _ => exact peeks_still (by simp [IoEvent.still]) holds.peeks

/-- A step of the probe keeps the laws of its connection. -/
theorem step_holds {s : Seat} {probe' : Probe} {events : List IoEvent} (holds : s.Holds gen i)
    (step : ProbeStep gen i s.peer.probe s.history probe' events) :
    (s.handle probe' events).Holds gen i := by
  have peeks := step_peeks holds step
  have steady := step_steady holds.steady step
  -- A step that keeps the round and carries the connection, and that notes no loss.
  have kept : .lost i ∉ events → probe'.round = s.peer.probe.round →
      s.Carried i (s.handle probe' events) → (s.handle probe' events).Holds gen i := by
    intro found round carried
    have same : (s.handle probe' events).peer.probe.round = s.peer.probe.round := round
    refine holds_inner events holds rfl steady (step_inner step) le_rfl carried ?_ ?_ rfl .inl
      (fun member => absurd member found) peeks
    all_goals rw [same]
    all_goals exact id
  have gone : probe'.connection = none →
      (probe'.round.active = true → s.peer.probe.round.active = true) →
      (probe'.round.pending = true → s.peer.probe.round.pending = true) →
      (s.handle probe' events).Holds gen i := by
    intro connection active pending
    exact holds_inner events holds rfl steady (step_inner step) le_rfl (carried_none connection)
      active pending rfl .inl (fun _ => connection) peeks
  cases step with
  | tuned probe' tuned => exact kept (by simp) tuned.round (carried_same tuned.connection)
  | rested tcp =>
    refine kept (by simp) rfl (carried_map Connection.rest rfl (fun _ => rfl) (fun _ => rfl)
      (fun _ => le_rfl) fun c watched => ?_)
    exact absurd watched (not_watched_rest c)
  | prepared c current active checked =>
    refine kept (by simp) rfl fun c' held => ?_
    cases held
    exact ⟨c, current, rfl, rfl, le_rfl, fun _ => .inr checked⟩
  | counted =>
    exact kept (by simp) rfl (carried_map (fun c => { c with requests := c.requests + 1 }) rfl
      (fun _ => rfl) (fun _ => rfl) (fun c => Nat.le_succ c.requests) fun _ watched => watched)
  | closed => exact gone rfl (fun runs => runs) fun waits => waits
  | lost => exact gone rfl (fun runs => runs) fun waits => waits
  | released pending fewer => exact gone rfl (fun runs => by cases runs) fewer
  | drained c current count events passes =>
    refine kept (fun member => ?_) rfl (carried_same rfl)
    obtain ⟨_, _, _, same⟩ := mem_drains i passes _ member
    cases same
  | overrun c current count events passes => exact gone rfl (fun runs => runs) fun waits => waits
  | _ => exact kept (by simp) rfl (carried_same rfl)

/-- A new connection has not been used, and belongs to the round that asked for it. -/
theorem connect_holds {s : Seat} {before : List IoEvent} {error : Option Errno}
    {startTime : Option Nat} (holds : s.Holds gen i) (how : Reconnects gen i s.peer.probe before)
    (active : s.peer.probe.round.active = true) (confirmed : ¬ Lost i s.history)
    (steady : (s.connect i before error startTime).Steady) :
    (s.connect i before error startTime).Holds gen i := by
  -- The new connection has a number of its own, and the old one is closed before.
  have peeks : Trace.Along (Justified gen i) (before ++ s.history) := by
    cases how with
    | fresh => exact holds.peeks
    | expired c retained currentMsec => exact peeks_still (by simp [IoEvent.still]) holds.peeks
    | failed c retained currentMsec young =>
      exact Trace.along_cons.mpr ⟨justified_still rfl, peeks_prepared holds retained young⟩
  have asked : Trace.Along (Justified gen i) (.connecting i :: before ++ s.history) :=
    Trace.along_cons.mpr ⟨justified_still rfl, peeks⟩
  have found : .lost i ∉ before := by cases how <;> simp
  have running : s.runtime.stopping ≠ true := by
    intro stops
    rw [(holds.stopped stops).1] at active
    cases active
  cases startTime with
  | none =>
    exact holds_inner (.connecting i :: before) holds rfl steady
      (fun event member => routine_inner (connects_routine i how none event member)) le_rfl
      (carried_none rfl) (fun runs => runs) (fun waits => waits) rfl .inl (fun _ => rfl) asked
  | some time =>
    have routine := connects_routine i how (some (s.opened, time))
    have silent : ∀ event ∈ IoEvent.established i s.opened time :: .connecting i :: before,
        event.claim i = none :=
      fun event member => inner_claim i (routine_inner (routine event member))
    have unsampled : ∀ c delay, .sampled i c delay ∉
        IoEvent.established i s.opened time :: .connecting i :: before := by
      intro c delay member
      cases routine _ member
    have since : .established i s.opened time ∈ sinceClaim i
        ((.established i s.opened time :: .connecting i :: before) ++ s.history) := by
      rw [sinceClaim_append silent]
      exact List.mem_append_left _ List.mem_cons_self
    have member : ∀ {c delay}, .sampled i c delay ∈
        (.established i s.opened time :: .connecting i :: before) ++ s.history →
        .sampled i c delay ∈ s.history :=
      fun found => (List.mem_append.mp found).resolve_left (unsampled _ _)
    refine ⟨steady, fun c held => ?_, fun c delay found => ?_, fun c held => ?_,
      fun c held watches => ?_, fun c held _ _ => ?_, fun _ c held => ?_, fun lost => ?_,
      fun stops => absurd stops running, holds.cleaned, ?_, ?_⟩
    · cases held
      exact Nat.lt_succ_self s.opened
    · exact Nat.lt_succ_of_lt (holds.past c delay (member found))
    · cases held
      exact mem_of_sinceClaim since
    · cases held
      rcases watches with read | write
      · cases read
      · cases write
    · cases held
      refine ⟨⟨time, since⟩, fun delay found => ?_⟩
      exact absurd (holds.past s.opened delay (member found)) (lt_irrefl s.opened)
    · cases held
      exact ⟨time, since⟩
    · have word : ¬ Lost i
          ((.established i s.opened time :: .connecting i :: before) ++ s.history) :=
        fun lost => (lost_append lost).elim (fun new => by simp [found] at new) confirmed
      exact absurd lost word
    · exact Trace.along_append (fun event new older c delay same =>
        absurd (same ▸ new) (unsampled c delay)) holds.samples
    · exact Trace.along_cons.mpr ⟨justified_still rfl, asked⟩

/-- A process that stops gives the connections of its configured peers up. -/
theorem stop_holds {s : Seat} (holds : s.Holds gen i) (steady : (s.stop i).Steady) :
    (s.stop i).Holds gen i := by
  -- A peer that was never allocated has no connection.
  cases allocated : s.peer.allocated with
  | false =>
    have stopped : s.stop i = { s with
        runtime := { s.runtime with stopping := true, watch := none }
        peer := { s.peer with checkEv := none } } := by
      unfold Seat.stop
      rw [allocated]
      rfl
    rw [stopped] at steady ⊢
    exact { holds with
      steady := steady
      stopped := fun _ => ⟨holds.steady.active allocated, holds.steady.pending allocated,
        holds.steady.connection allocated⟩
      cleaned := fun _ => rfl }
  | true =>
    have stopped : s.stop i = Seat.handle
        { s with
          runtime := { s.runtime with stopping := true, watch := none }
          peer := { s.peer with checkEv := none } }
        { s.peer.probe with
          timeout := none, connection := none
          round := { s.peer.probe.round with active := false, pending := false } }
        (s.peer.probe.closing i) := by
      unfold Seat.stop
      rw [allocated]
      rfl
    rw [stopped] at steady ⊢
    have inner : ∀ event ∈ s.peer.probe.closing i, event.inner = true := closing_inner s.peer.probe
    have unsampled : ∀ c delay, .sampled i c delay ∉ s.peer.probe.closing i :=
      fun c delay member => by cases inner _ member
    exact holds_grown (s.peer.probe.closing i) holds rfl steady
      (fun event member => inner_claim i (inner event member))
      (fun c delay member => absurd member (unsampled c delay)) le_rfl (carried_none rfl)
      (fun runs => by cases runs) (fun _ => rfl) (fun _ => ⟨rfl, rfl, rfl⟩) (fun _ => rfl)
      (Trace.along_append (fun event member older c delay same =>
        absurd (same ▸ member) (unsampled c delay)) holds.samples)
      (peeks_still (closing_still _) holds.peeks)

/-- An inner step keeps the laws of the connection. -/
theorem seatInnerStep_holds {s s' : Seat} (below : i < gen.nelts) (holds : s.Holds gen i)
    (move : SeatInnerStep gen i s s') : s'.Holds gen i := by
  have steady := seatInnerStep_steady holds.steady move
  -- Steps that leave the connection and the history, and at most end the round.
  have kept : s'.history = s.history → s.opened ≤ s'.opened →
      s'.peer.probe.connection = s.peer.probe.connection →
      (s'.peer.probe.round.active = true → s.peer.probe.round.active = true) →
      (s'.peer.probe.round.pending = true → s.peer.probe.round.pending = true) →
      s'.runtime.stopping = s.runtime.stopping →
      (s'.runtime.cleaned = true → s.runtime.cleaned = true ∨ s.runtime.stopping = true) →
      s'.Holds gen i := by
    intro history more connection active pending stopping cleaned
    exact holds_inner [] holds history steady (by simp) more
      (carried_same connection) active pending
      stopping cleaned (by simp) holds.peeks
  cases move with
  | elsewhere opened more => exact kept rfl more rfl id id rfl .inl
  | paced runtime stopping cleaned watch =>
    exact kept rfl le_rfl rfl id id stopping fun clean => .inl (cleaned ▸ clean)
  | stopped => exact stop_holds holds steady
  | unlisted beyond => exact absurd below (Nat.not_lt.mpr beyond)
  | stoppedAgain cleaned =>
    exact kept rfl le_rfl rfl id id (holds.cleaned cleaned).symm .inl
  | cleaned stopping => exact kept rfl le_rfl rfl id id rfl fun _ => .inr stopping
  | timed check => exact kept rfl le_rfl rfl id id rfl .inl
  | handled probe events step => exact step_holds holds step
  | connected before error startTime how active confirmed =>
    exact connect_holds holds how active confirmed steady
  | prepared deadline tcp => exact kept rfl le_rfl rfl id id rfl .inl
  | waited => exact kept rfl le_rfl rfl id id rfl .inl
  | settled check => exact kept rfl le_rfl rfl id (fun waits => by cases waits) rfl .inl

/-- A run of inner steps keeps the laws of the connection. -/
theorem seatInnerSteps_holds {s s' : Seat} (below : i < gen.nelts) (run : SeatInnerSteps gen i s s')
    (holds : s.Holds gen i) : s'.Holds gen i :=
  seatInnerSteps_keep (fun reached move => seatInnerStep_holds below reached move) run holds

end Holds

section Between

variable {gen : Generation} {i : Nat}

/-- Between two rounds a connection stays what it was, or goes. -/
theorem between_dozes {s s' : Seat} (between : s.Between gen i)
    (past : s.peer.probe.round.active = false) (dozes : s.Dozes s') : s'.Between gen i := by
  -- The connection between two rounds is the one that was left.
  intro c' held _
  obtain ⟨c, current, _, requests, watched⟩ := dozes.connection c' held
  obtain ⟨tcp, keep, settled, outcome, used, resting⟩ := between c current past
  obtain ⟨events, grown, inner⟩ := dozes.history
  refine ⟨tcp, keep, Bool.eq_false_iff.mpr fun waits => ?_, ?_, used.trans requests,
    fun watches => resting (watched watches)⟩
  · rw [dozes.pending waits] at settled
    cases settled
  · rw [grown, newest_append fun event member => inner_outcome i (inner event member)]
    exact outcome

/-- A single inner step after which no round runs gives its connection up. -/
theorem seatInnerStep_between {s s' : Seat} (steady : s.Steady) (between : s.Between gen i)
    (move : SeatInnerStep gen i s s') : s'.Between gen i := by
  cases past : s.peer.probe.round.active with
  | false => exact between_dozes between past (seatInnerStep_dozes past move)
  | true =>
    -- The round still runs, or there is no connection any more.
    have runs : s'.peer.probe.round.active = true ∨ s'.peer.probe.connection = none := by
      cases move with
      | stopped below =>
        have allocated : s.peer.allocated = true := by
          by_contra fresh
          rw [steady.active (Bool.eq_false_iff.mpr fresh)] at past
          cases past
        unfold Seat.stop
        rw [allocated]
        exact .inr rfl
      | handled probe events step =>
        cases step with
        | tuned probe' tuned => exact .inl ((congrArg Round.active tuned.round).trans past)
        | released => exact .inr rfl
        | _ => exact .inl past
      | connected before error startTime how active confirmed =>
        cases startTime with
        | none => exact .inl past
        | some time => exact .inl past
      | _ => exact .inl past
    intro c held ended
    rcases runs with runs | gone
    · rw [runs] at ended
      cases ended
    · rw [gone] at held
      cases held

/-- What holds of the connection of a peer between the round steps of a process. -/
structure Seat.Retains (gen : Generation) (i : Nat) (s : Seat) : Prop where
  holds : s.Holds gen i
  between : s.Between gen i

/-- Inner steps keep what is known of a retained connection. -/
theorem seatInnerSteps_retains {s s' : Seat} (below : i < gen.nelts)
    (run : SeatInnerSteps gen i s s')
    (retains : s.Retains gen i) : s'.Retains gen i :=
  -- What holds after each step lets the next one be read.
  seatInnerSteps_keep (fun reached move => ⟨seatInnerStep_holds below reached.holds move,
    seatInnerStep_between reached.holds.steady reached.between move⟩) run retains

/-- A claim takes over a connection that was kept, and that nothing is installed on. -/
theorem claimed_retains {s : Seat} {started : Nat} {next : PeerState} (retains : s.Retains gen i)
    (running : s.runtime.stopping = false) (active : s.peer.probe.round.active = false)
    (steady : (s.claimed gen i started next).Steady) :
    (s.claimed gen i started next).Retains gen i := by
  -- A claim starts a round that no connection has been sampled in.
  obtain ⟨holds, between⟩ := retains
  have unsampled : ∀ c delay, .sampled i c delay ∈
      .claimed i next.deadline (s.peer.probe.connection.map Connection.id) :: s.history →
      .sampled i c delay ∈ s.history := by
    intro c delay member
    rcases List.mem_cons.mp member with same | old
    · cases same
    · exact old
  have kept := fun c held => between c held active
  refine ⟨⟨steady, holds.opened, fun c delay member => holds.past c delay
    (unsampled c delay member),
    fun c held => List.mem_cons_of_mem _ (holds.started c held),
    fun c held watches => absurd watches (kept c held).resting, fun c held _ unused => ?_,
    fun udp c held => ?_, fun lost => ?_, fun stops => ?_, holds.cleaned, ?_, ?_⟩,
    fun c held past => (by cases past)⟩
  · have used := (kept c held).used
    rw [unused] at used
    exact absurd used (Nat.not_succ_le_zero 0)
  · have tcp := (kept c held).tcp
    rw [udp] at tcp
    cases tcp
  · have before : .lost i ∈ [IoEvent.claimed i next.deadline _] ∨ Lost i s.history :=
      lost_append lost
    exact before.elim (fun new => by simp at new) holds.lost
  · change s.runtime.stopping = true at stops
    rw [running] at stops
    cases stops
  · exact Trace.along_cons.mpr ⟨fun c delay same => (by cases same), holds.samples⟩
  · exact Trace.along_cons.mpr ⟨justified_still rfl, holds.peeks⟩

/-- A verdict follows a peek of a connection the handler of the check was installed on. -/
theorem noted_peeks {s : Seat} {result : Bool} {events : List IoEvent} (holds : s.Holds gen i)
    (noted : Noted gen i s.peer.probe s.history result events) :
    Trace.Along (Justified gen i) (events ++ s.history) := by
  -- One case for each outcome.
  cases noted with
  | plain => exact holds.peeks
  | expired => exact peeks_still (by simp [IoEvent.still]) holds.peeks
  | unclocked => exact peeks_still (by simp [IoEvent.still]) holds.peeks
  | refused t evidence served => exact peeks_still (by simp [IoEvent.still]) holds.peeks
  | peeked c passed current watched =>
    refine Trace.along_cons.mpr ⟨⟨fun c' passed' same => (by cases same),
      fun c' passed' same => ?_⟩,
      holds.peeks⟩
    cases same
    exact holds.watched c current watched

/-- The end of a round takes at most one delay sample, of a connection of this round. -/
theorem froze_samples {s : Seat} {result : Bool} {delay : Option Nat} {events : List IoEvent}
    (holds : s.Holds gen i) (silent : ∀ event ∈ events, event.claim i = none)
    (unsampled : ∀ c d, .sampled i c d ∉ events) (active : s.peer.probe.round.active = true)
    (sample : delay.isSome = true →
      result = true ∧ ∃ c, s.peer.probe.connection = some c ∧ c.requests = 0) :
    Trace.Along (FirstSample i)
      (s.peer.probe.sampling i delay ++ .finished i result :: (events ++ s.history)) := by
  -- A sample is taken from a connection that no earlier round has used.
  have noted : Trace.Along (FirstSample i) (events ++ s.history) :=
    Trace.along_append (fun event member older c d same =>
      absurd (same ▸ member) (unsampled c d)) holds.samples
  have finished : Trace.Along (FirstSample i) (.finished i result :: (events ++ s.history)) :=
    Trace.along_cons.mpr ⟨fun c d same => (by cases same), noted⟩
  cases delay with
  | none => exact finished
  | some value =>
    obtain ⟨_, c, current, unused⟩ := sample rfl
    obtain ⟨⟨startTime, established⟩, fresh⟩ := holds.unsampled c current active unused
    have sampling : s.peer.probe.sampling i (some value) = [.sampled i c.id value] := by
      unfold Probe.sampling
      rw [current]
      rfl
    have ended : ∀ event ∈ .finished i result :: events, event.claim i = none := by
      intro event member
      rcases List.mem_cons.mp member with same | before
      · rw [same]
        rfl
      · exact silent event before
    rw [sampling]
    refine Trace.along_cons.mpr ⟨fun c' d same => ?_, finished⟩
    cases same
    refine ⟨⟨startTime, ?_⟩, fun d member => ?_⟩
    · have since : sinceClaim i ((.finished i result :: events) ++ s.history) =
          .finished i result :: events ++ sinceClaim i s.history := sinceClaim_append ended _
      exact since ▸ List.mem_append_right _ established
    · rcases List.mem_cons.mp member with same | member
      · cases same
      · exact (List.mem_append.mp member).elim (unsampled c.id d) (fresh d)

/-- A frozen outcome keeps the laws of the connection. -/
theorem froze_holds {s : Seat} {result : Bool} {delay : Option Nat} {reason source : String}
    {error label : Option Errno} {events : List IoEvent} (holds : s.Holds gen i)
    (noted : Noted gen i s.peer.probe s.history result events)
    (active : s.peer.probe.round.active = true)
    (sample : delay.isSome = true →
      result = true ∧ ∃ c, s.peer.probe.connection = some c ∧ c.requests = 0)
    (steady : ((s.note events label).frozen i result delay reason source error).Steady) :
    ((s.note events label).frozen i result delay reason source error).Holds gen i := by
  have silent : ∀ event ∈ events, event.claim i = none := by
    cases noted <;> simp [IoEvent.claim]
  have unsampled : ∀ c d, .sampled i c d ∉ events := by
    cases noted <;> simp
  have found : .lost i ∉ events := by
    cases noted <;> simp
  have running : s.runtime.stopping ≠ true := by
    intro stops
    rw [(holds.stopped stops).1] at active
    cases active
  -- The new events are what led to the verdict, the verdict, and perhaps a sample.
  have cases : ∀ event ∈ s.peer.probe.sampling i delay ++ .finished i result :: events,
      (∃ c value, s.peer.probe.connection = some c ∧ event = .sampled i c.id value) ∨
        event = .finished i result ∨ event ∈ events := by
    intro event member
    rcases List.mem_append.mp member with sampled | member
    · obtain ⟨c, value, current, _, same⟩ := mem_sampling i sampled
      exact .inl ⟨c, value, current, same⟩
    · exact .inr (List.mem_cons.mp member)
  have history : ((s.note events label).frozen i result delay reason source error).history =
      (s.peer.probe.sampling i delay ++ .finished i result :: events) ++ s.history := by
    show (s.peer.probe.sampling i delay ++ [.finished i result]) ++ (events ++ s.history) = _
    simp
  refine holds_grown _ holds history steady (fun event member => ?_) (fun c d member => ⟨?_, rfl⟩)
    le_rfl (carried_same rfl) (fun runs => (by cases runs)) (fun lost => ?_)
    (fun stops => absurd stops running) holds.cleaned ?_ ?_
  · rcases cases event member with ⟨c, value, _, same⟩ | same | before
    · rw [same]
      rfl
    · rw [same]
      rfl
    · exact silent event before
  · rcases cases _ member with ⟨c', value, current, same⟩ | same | before
    · cases same
      exact holds.opened c' current
    · cases same
    · exact absurd before (unsampled c d)
  · rw [history] at lost
    refine (lost_append lost).elim (fun new => ?_) holds.lost
    rcases cases _ new with ⟨_, _, _, same⟩ | same | before
    · cases same
    · cases same
    · exact absurd before found
  · rw [List.append_assoc]
    exact froze_samples holds silent unsampled active sample
  · rw [List.append_assoc]
    refine peeks_still (fun event member => ?_)
      (Trace.along_cons.mpr ⟨justified_still rfl, noted_peeks holds noted⟩)
    obtain ⟨_, _, _, _, same⟩ := mem_sampling i member
    rw [same]
    rfl

/-- A submission keeps them, too. -/
theorem submitted_holds {s : Seat} {result : Bool} {rc : Rc} (holds : s.Holds gen i) :
    (s.handle s.peer.probe [.submitted i result rc]).Holds gen i := by
  -- It is an event of its own and writes nothing of the probe.
  have steady : (s.handle s.peer.probe [.submitted i result rc]).Steady :=
    steady_same holds.steady rfl id id
  refine holds_grown [.submitted i result rc] holds rfl steady (by simp [IoEvent.claim]) (by simp)
    le_rfl (carried_same rfl) id (fun lost => ?_) holds.stopped holds.cleaned ?_
    (peeks_still (by simp [IoEvent.still]) holds.peeks)
  · have before : .lost i ∈ [IoEvent.submitted i result rc] ∨ Lost i s.history := lost_append lost
    exact before.elim (fun new => by simp at new) holds.lost
  · exact Trace.along_cons.mpr ⟨fun c delay same => (by cases same), holds.samples⟩

/-- After the end of a round, a connection is held for the reasons `finish` keeps it. -/
theorem finished_between {s s' : Seat} {result : Bool} {rc : Rc}
    (past : s.peer.probe.round.active = false)
    (settled : rc = .ok → s.peer.probe.round.pending = false)
    (second : SeatInnerSteps gen i (s.handle s.peer.probe [.submitted i result rc]) s')
    (kept : ∀ c, s'.peer.probe.connection = some c →
      Kept gen i (rc = .ok && result) c ∧ 1 ≤ c.requests) : s'.Between gen i := by
  -- The cleanup keeps the connection only after a good result that was committed.
  have dozes : (s.handle s.peer.probe [.submitted i result rc]).Dozes s' :=
    seatInnerSteps_doze past second
  intro c held _
  obtain ⟨⟨reusable, tcp, keep, resting⟩, used⟩ := kept c held
  obtain ⟨ok, success⟩ := Bool.and_eq_true_iff.mp reusable
  have returned : rc = .ok := of_decide_eq_true ok
  obtain ⟨events, grown, inner⟩ := dozes.history
  refine ⟨tcp, keep, Bool.eq_false_iff.mpr fun waits => ?_, ?_, used, resting⟩
  · have still : s.peer.probe.round.pending = true := dozes.pending waits
    rw [settled returned] at still
    cases still
  · rw [grown, newest_append fun event member => inner_outcome i (inner event member)]
    show newest (IoEvent.outcome i) (.submitted i result rc :: s.history) = _
    rw [newest_cons, returned, success]
    simp [IoEvent.outcome]

/-- A round step keeps what is known of a retained connection. -/
theorem seatRoundStep_retains {s s' : Seat} (below : i < gen.nelts) (retains : s.Retains gen i)
    (move : SeatRoundStep gen i s s') : s'.Retains gen i := by
  -- One case for each step.
  obtain ⟨holds, between⟩ := retains
  cases move with
  | byInner s' run => exact seatInnerSteps_retains below run ⟨holds, between⟩
  | claim s' running claim =>
    cases claim with
    | kept => exact ⟨holds, between⟩
    | allocated =>
      have step : SeatAtomicStep gen i s { s with peer := { s.peer with allocated := true } } :=
        .allocated
      exact ⟨{ holds with steady := seatAtomicStep_steady holds.steady step },
        fun c held past => { between c held past with }⟩
    | claimed started next active pending deadline =>
      exact claimed_retains ⟨holds, between⟩ running active
        (seatAtomicStep_steady holds.steady (.claimed started next running active pending deadline))
  | finished result delay reason source error label events rc s₁ s' noted active sample first
      settled second kept =>
    have idle : s.peer.probe.round.pending = false := holds.steady.single active
    have frozen := froze_holds holds noted active sample (seatAtomicStep_steady holds.steady
      (.froze result delay reason source error label events noted active idle sample))
    have past : s₁.peer.probe.round.active = false := (seatInnerSteps_doze rfl first).active
    have submitted := seatInnerSteps_holds below first frozen
    exact ⟨seatInnerSteps_holds below second (submitted_holds submitted),
      finished_between past settled second kept⟩
  | rang runtime stopping cleaned check timeout =>
    have step : SeatAtomicStep gen i s _ := .rang runtime stopping cleaned check timeout
    have steady := seatAtomicStep_steady holds.steady step
    refine ⟨holds_inner [] holds rfl steady (by simp) le_rfl (carried_same rfl) id id stopping
      (fun clean => .inl (cleaned ▸ clean)) (by simp) holds.peeks, fun c held past => ?_⟩
    exact { between c held past with }

end Between

section Lifecycle

variable {gen : Generation} {me : Nat} {start : Sys → Prop} {between : Sys → Sys → Prop} {s : Sys}

/-- A process that starts holds no connection. -/
theorem start_retains (gen : Generation) (i worker : Nat) : (Seat.start worker).Retains gen i := by
  -- There is no connection and no history.
  have steady : (Seat.start worker).Steady :=
    ⟨fun runs => (by cases runs), fun _ => rfl, fun _ => rfl, fun _ => rfl⟩
  refine ⟨⟨steady, fun _ held => (by cases held), fun _ _ member => (by cases member),
    fun _ held => (by cases held), fun _ held => (by cases held), fun _ held => (by cases held),
    fun _ _ held => (by cases held), fun _ => rfl, fun stops => (by cases stops),
    fun clean => (by cases clean), Trace.along_nil _, Trace.along_nil _⟩, fun _ held =>
      (by cases held)⟩

/-- No round runs or waits in a process that stops, and it holds no connection. -/
theorem stopping_idle (life : Life gen me start between s) {i : Nat} (listed : i < gen.nelts)
    (stops : (s.procs me).runtime.stopping = true) :
    ((s.procs me).round i).active = false ∧ ((s.procs me).round i).pending = false ∧
      ((s.procs me).peers i).probe.connection = none := by
  -- The laws of the connection hold all along the life.
  have retains : ((s.procs me).seat i).Retains gen i :=
    life_roundSteps (start_retains gen i) (fun reached move =>
      seatRoundStep_retains listed reached move) life
  exact retains.1.stopped stops

/-- The lifecycle of the check connection of a configured peer, in every life of a process: between
rounds it is held only after a success of a TCP check that was submitted at once; a UDP connection
belongs to the round that runs; a retained connection is used when it is young enough at the
preparation; each connection gives at most one delay sample, in its first round; and no connection
is held by a process that stops or that found the peer lost. -/
theorem connection_lifecycle (life : Life gen me start between s) {i : Nat}
    (configured : i < gen.nelts) :
    (∀ c, ((s.procs me).peers i).probe.connection = some c →
      ((s.procs me).round i).active = false →
      ((s.procs me).round i).pending = false ∧ (gen.conf i).checkType = .tcp ∧
        (gen.conf i).keepConnection = true ∧
        newest (IoEvent.outcome i) ((s.procs me).history i) = some (some (true, .ok))) ∧
    ((gen.conf i).checkType = .udp → ∀ c,
      ((s.procs me).peers i).probe.connection = some c →
      ((s.procs me).round i).active = true ∧
        ∃ startTime, .established i c.id startTime ∈ sinceClaim i ((s.procs me).history i)) ∧
    Trace.Along (Justified gen i) ((s.procs me).history i) ∧
    (∀ c, ((s.procs me).peers i).probe.connection = some c → c.Watched →
      Checked i c.id ((s.procs me).history i)) ∧
    Trace.Along (FirstSample i) ((s.procs me).history i) ∧
    ((s.procs me).runtime.stopping = true →
      ((s.procs me).peers i).probe.connection = none) ∧
    (Lost i ((s.procs me).history i) → ((s.procs me).peers i).probe.connection = none) := by
  obtain ⟨holds, kept⟩ : ((s.procs me).seat i).Retains gen i :=
    life_roundSteps (start_retains gen i) (fun reached move =>
      seatRoundStep_retains configured reached move)
      life
  refine ⟨fun c held past => ?_, fun udp c held => ⟨?_, holds.udp udp c held⟩, holds.peeks,
    holds.watched, holds.samples, fun stops => (holds.stopped stops).2.2, holds.lost⟩
  · obtain ⟨tcp, keep, settled, outcome, _, _⟩ := kept c held past
    exact ⟨settled, tcp, keep, outcome⟩
  · -- Between two rounds a connection would be one of a TCP check.
    by_contra past
    have tcp := (kept c held (Bool.eq_false_iff.mpr past)).tcp
    rw [udp] at tcp
    cases tcp

/-- A worker whose first TCP check succeeds and leaves its connection. -/
def keptLife : Option Sys :=
  lived sample 0 (fun _ => quietAt 1000)
    [(.checkTimer 0, fun _ => { quietAt 4000 with connect := .again, flag := true }),
      (.writeEvent 0, fun _ => { quietAt 4001 with result := 1, eventOk := true })]
    (fresh sample)

/-- A good round of the sample, whose connection is kept for the next one. -/
theorem connection_lifecycle_kept : ∃ s c, keptLife = some s ∧
    ((s.procs 0).peers 0).probe.connection = some c ∧ c.requests = 1 ∧
    (sample.conf 0).keepConnection = true ∧
    newest (IoEvent.outcome 0) ((s.procs 0).history 0) = some (some (true, .ok)) := by
  -- The life is computed, and the theorem explains the connection it leaves.
  have left : (keptLife.map fun s =>
      (((s.procs 0).peers 0).probe.connection, ((s.procs 0).round 0).active)) =
      some (some { id := 0, requests := 1, readHandler := .tcpIdle, writeHandler := .idleWrite },
        false) := by decide +kernel
  obtain ⟨s, ran, after⟩ := Option.map_eq_some_iff.mp left
  obtain ⟨held, past⟩ := Prod.mk.inj after
  obtain ⟨_, _, keep, outcome⟩ :=
    (connection_lifecycle (life_lived ran) (by decide : 0 < sample.nelts)).1 _ held past
  exact ⟨s, _, ran, held, rfl, keep, outcome⟩

end Lifecycle

end Healthcheck
