import Healthcheck.Callback.Life
import Healthcheck.System.Run
import Healthcheck.Library.Trace

/-!
The discard budget of an idle connection. The count of discarded bytes lives in the probe, so it
outlasts connections and rounds; every path that installs a connection sets it back first.
-/

namespace Healthcheck

open Program

/-- The bytes an event read from an idle connection. -/
def IoEvent.bytes (connection : Nat) : IoEvent → Nat
  | .idleRead _ c _ _ result => if c = connection then result.toNat else 0
  | _ => 0

/-- An event other than an idle read. -/
def IoEvent.unread : IoEvent → Bool
  | .idleRead _ _ _ _ _ => false
  | _ => true

/-- The bytes all idle reads of a connection returned together. -/
def readBytes (connection : Nat) (history : List IoEvent) : Nat :=
  (history.map (IoEvent.bytes connection)).sum

/-- An idle read happens within the budget, and asks for one byte more than what is left of it. -/
def Budgeted : IoEvent → List IoEvent → Prop
  | .idleRead _ c discarded requested result, older =>
    discarded = readBytes c older ∧ discarded ≤ idleDiscardMax ∧
      requested = idleDiscardMax - discarded + 1 ∧ 1 ≤ requested ∧
      requested ≤ idleDiscardMax + 1 ∧ result ≤ requested
  | _, _ => True

/-- What follows an idle read that returned bytes: the next read while the connection is within its
budget, and the end of the connection once it is not. -/
def Carries (i : Nat) (event : IoEvent) : List IoEvent → Prop
  | .idleRead j c discarded requested result :: older =>
    0 < result →
      if readBytes c (.idleRead j c discarded requested result :: older) ≤ idleDiscardMax then
        ∃ discarded' requested' result', event = .idleRead i c discarded' requested' result'
      else event = .closed i c
  | _ => True

/-- The newest event leaves nothing to be done: it is not a read that returned bytes. -/
def Rests : List IoEvent → Prop
  | .idleRead _ _ _ _ result :: _ => ¬ 0 < result
  | _ => True

/-- What holds of the discarded bytes of a peer's connections. -/
structure Seat.Budget (i : Nat) (s : Seat) : Prop where
  opened : ∀ c, s.peer.probe.connection = some c → c.id < s.opened
  fresh : ∀ connection, s.opened ≤ connection → readBytes connection s.history = 0
  counted : ∀ c, s.peer.probe.connection = some c →
    s.peer.probe.discarded = readBytes c.id s.history
  within : ∀ c, s.peer.probe.connection = some c → s.peer.probe.discarded ≤ idleDiscardMax
  reads : Trace.Along Budgeted s.history
  carries : Trace.Along (Carries i) s.history
  rests : Rests s.history

section Reads

variable {gen : Generation} {i connection : Nat} {history : List IoEvent}

/-- A newer event adds the bytes that it read. -/
theorem readBytes_cons (event : IoEvent) :
    readBytes connection (event :: history) =
      event.bytes connection + readBytes connection history := by
  simp [readBytes]

/-- Within the budget the requested size is what is left of it and one byte more. -/
theorem idleReadSize_within (gen : Generation) {discarded : Nat}
    (within : discarded ≤ idleDiscardMax) :
    idleReadSize gen discarded = idleDiscardMax - discarded + 1 := by
  -- The sum before the remainder passes the range of a word exactly once.
  have wide : idleDiscardMax + 1 < gen.word.size := by
    cases gen.word <;> simp [Word.size, idleDiscardMax]
  unfold idleReadSize
  have sum : idleDiscardMax + gen.word.size - discarded + 1 =
      (idleDiscardMax - discarded + 1) + gen.word.size := by omega
  rw [sum, Nat.add_mod_right, Nat.mod_eq_of_lt (by omega)]

/-- Events other than idle reads return no bytes. -/
theorem readBytes_unread {events : List IoEvent}
    (unread : ∀ event ∈ events, event.unread = true) :
    readBytes connection (events ++ history) = readBytes connection history := by
  -- Induction on the events: none of them is a read.
  induction events with
  | nil => rfl
  | cons event rest ih =>
    have none : event.bytes connection = 0 := by
      have quiet := unread event List.mem_cons_self
      cases event with
      | idleRead => cases quiet
      | _ => rfl
    rw [List.cons_append, readBytes_cons, none, Nat.zero_add,
      ih fun event member => unread event (List.mem_cons_of_mem _ member)]

/-- Only idle reads are held to the budget. -/
theorem budgeted_unread {event : IoEvent} (unread : event.unread = true) :
    Budgeted event history := by
  -- A read is excluded by assumption.
  cases event with
  | idleRead => cases unread
  | _ => trivial

/-- A history rests after any event but a read. -/
theorem rests_unread {event : IoEvent} (unread : event.unread = true) :
    Rests (event :: history) := by
  -- A read is excluded by assumption.
  cases event with
  | idleRead => cases unread
  | _ => trivial

/-- Anything may follow a history that rests. -/
theorem carries_rests {event : IoEvent} (rests : Rests history) : Carries i event history := by
  -- Only a read that returned bytes demands something, and a history that rests has none in front.
  cases history with
  | nil => trivial
  | cons newest older =>
    cases newest with
    | idleRead j c discarded requested result => exact fun received => absurd received rests
    | _ => trivial

/-- A connection within its budget is read on. -/
theorem carries_within {j discarded requested discarded' requested' : Nat} {result result' : Int}
    (within : readBytes connection (.idleRead j connection discarded requested result :: history) ≤
      idleDiscardMax) :
    Carries i (.idleRead i connection discarded' requested' result')
      (.idleRead j connection discarded requested result :: history) := by
  -- The count decides, and it is within the budget.
  intro _
  rw [if_pos within]
  exact ⟨discarded', requested', result', rfl⟩

/-- A connection beyond its budget is closed. -/
theorem carries_beyond {j discarded requested : Nat} {result : Int}
    (beyond : idleDiscardMax <
      readBytes connection (.idleRead j connection discarded requested result :: history)) :
    Carries i (.closed i connection)
      (.idleRead j connection discarded requested result :: history) := by
  -- The count decides, and it is beyond the budget.
  intro _
  rw [if_neg (Nat.not_le.mpr beyond)]

/-- Events other than idle reads keep what holds of the reads. -/
theorem unread_laws {events : List IoEvent} (unread : ∀ event ∈ events, event.unread = true)
    (reads : Trace.Along Budgeted history) (carries : Trace.Along (Carries i) history)
    (rests : Rests history) :
    Trace.Along Budgeted (events ++ history) ∧ Trace.Along (Carries i) (events ++ history) ∧
      Rests (events ++ history) := by
  -- Induction on the events: each one leaves a history that rests.
  induction events with
  | nil => exact ⟨reads, carries, rests⟩
  | cons event rest ih =>
    have first : event.unread = true := unread event List.mem_cons_self
    obtain ⟨reads', carries', rests'⟩ :=
      ih fun event member => unread event (List.mem_cons_of_mem _ member)
    exact ⟨Trace.along_cons.mpr ⟨budgeted_unread first, reads'⟩,
      Trace.along_cons.mpr ⟨carries_rests rests', carries'⟩, rests_unread first⟩

/-- What the read loop leaves, by how it ended: within the budget its last event returned nothing,
and beyond the budget only the end of the connection may follow. -/
structure Drained (i connection : Nat) (close : Option Bool) (count : Nat)
    (history : List IoEvent) :
    Prop where
  counted : readBytes connection history = count
  reads : Trace.Along Budgeted history
  carries : Trace.Along (Carries i) history
  within : close ≠ some true → count ≤ idleDiscardMax
  next : close = none → ∀ discarded requested result,
    Carries i (.idleRead i connection discarded requested result) history
  rests : close = some false → Rests history
  closes : close = some true → Carries i (.closed i connection) history

/-- An idle read that follows the budget: what it asks for, and what it may return. -/
theorem budgeted_read {count : Nat} {result : Int} (counted : readBytes connection history = count)
    (within : count ≤ idleDiscardMax) (most : result ≤ idleReadSize gen count) :
    Budgeted (.idleRead i connection count (idleReadSize gen count) result) history := by
  -- The requested size is given by the count.
  have size := idleReadSize_within gen within
  rw [size] at most ⊢
  refine ⟨counted.symm, within, rfl, ?_, ?_, most⟩
  all_goals omega

/-- What a read loop leaves, by the passes it made. -/
theorem drained_reads {discarded count : Nat} {close : Option Bool} {events : List IoEvent}
    (passes : Drains gen i connection discarded close count events)
    (counted : readBytes connection history = discarded) (within : discarded ≤ idleDiscardMax)
    (reads : Trace.Along Budgeted history) (carries : Trace.Along (Carries i) history)
    (rests : Rests history) : Drained i connection close count (events ++ history) := by
  -- A pass that returned nothing leaves the count, and one that returned bytes adds them.
  have nothing : ∀ {count : Nat} {events : List IoEvent} (result : Int), result ≤ 0 →
      Drained i connection none count (events ++ history) → ∀ close' : Option Bool,
      Drained i connection close' count
        (.idleRead i connection count (idleReadSize gen count) result :: events ++ history) := by
    intro count events result empty before close'
    have room : count ≤ idleDiscardMax := before.within (by simp)
    have idle : ¬ 0 < result := by omega
    refine ⟨?_, ?_, ?_, fun _ => room, ?_, fun _ => idle, ?_⟩
    · rw [List.cons_append, readBytes_cons, before.counted]
      simp [IoEvent.bytes, empty]
    · exact Trace.along_cons.mpr ⟨budgeted_read before.counted room (by omega), before.reads⟩
    · exact Trace.along_cons.mpr ⟨before.next rfl _ _ _, before.carries⟩
    · exact fun _ _ _ _ received => absurd received idle
    · exact fun _ received => absurd received idle
  have bytes : ∀ {count : Nat} {events : List IoEvent} (bytes : Nat),
      bytes ≤ idleReadSize gen count →
      Drained i connection none count (events ++ history) →
      let event := IoEvent.idleRead i connection count (idleReadSize gen count) bytes
      readBytes connection (event :: events ++ history) = count + bytes ∧
        Trace.Along Budgeted (event :: events ++ history) ∧
        Trace.Along (Carries i) (event :: events ++ history) := by
    intro count events bytes most before
    have room : count ≤ idleDiscardMax := before.within (by simp)
    refine ⟨?_, ?_, ?_⟩
    · rw [List.cons_append, readBytes_cons, before.counted, Nat.add_comm]
      simp [IoEvent.bytes]
    · exact Trace.along_cons.mpr
        ⟨budgeted_read before.counted room (by exact_mod_cast most), before.reads⟩
    · exact Trace.along_cons.mpr ⟨before.next rfl _ _ _, before.carries⟩
  -- Induction on the passes of the loop.
  induction passes with
  | start =>
    refine ⟨counted, reads, carries, fun _ => within, fun _ _ _ _ => carries_rests rests, ?_, ?_⟩
    all_goals exact fun impossible => by cases impossible
  | received _ got positive most fits ih =>
    obtain ⟨sum, reads', carries'⟩ := bytes got most ih
    refine ⟨sum, reads', carries', fun _ => fits, ?_, ?_, ?_⟩
    · exact fun _ _ _ _ => carries_within (le_of_eq_of_le sum fits)
    all_goals exact fun impossible => by cases impossible
  | interrupted _ ih => exact nothing (-1) (by decide) ih none
  | kept _ ih => exact nothing (-1) (by decide) ih (some false)
  | failed _ result empty ih => exact nothing result empty ih (some true)
  | exceeded _ got positive most beyond ih =>
    obtain ⟨sum, reads', carries'⟩ := bytes got most ih
    refine ⟨sum, reads', carries', fun closes => absurd rfl closes, ?_, ?_, ?_⟩
    · exact fun impossible => by cases impossible
    · exact fun impossible => by cases impossible
    · exact fun _ => carries_beyond (lt_of_lt_of_eq beyond sum.symm)

/-- The reads of one connection return no bytes of another. -/
theorem readBytes_drains {other discarded count : Nat} {close : Option Bool}
    {events : List IoEvent} (passes : Drains gen i connection discarded close count events)
    (distinct : connection ≠ other) :
    readBytes other (events ++ history) = readBytes other history := by
  -- The reads of a loop are all of its own connection.
  have read : ∀ (events : List IoEvent) (count requested : Nat) (result : Int),
      readBytes other (.idleRead i connection count requested result :: events ++ history) =
        readBytes other (events ++ history) := by
    intro events count requested result
    rw [List.cons_append, readBytes_cons]
    simp [IoEvent.bytes, distinct]
  induction passes with
  | start => rfl
  | received _ _ _ _ _ ih => rw [read, ih]
  | interrupted _ ih => rw [read, ih]
  | kept _ ih => rw [read, ih]
  | failed _ _ _ ih => rw [read, ih]
  | exceeded _ _ _ _ _ ih => rw [read, ih]

end Reads

section Keep

variable {gen : Generation} {i : Nat}

/-- A step that reads nothing, and that keeps at most the connection and its count. -/
theorem budget_unread {s s' : Seat} (events : List IoEvent) (budget : s.Budget i)
    (history : s'.history = events ++ s.history) (unread : ∀ event ∈ events, event.unread = true)
    (more : s.opened ≤ s'.opened)
    (held : ∀ c', s'.peer.probe.connection = some c' →
      s'.peer.probe.discarded = s.peer.probe.discarded ∧
        ∃ c, s.peer.probe.connection = some c ∧ c'.id = c.id) : s'.Budget i := by
  -- The counts are the old ones, because nothing was read.
  obtain ⟨reads, carries, rests⟩ :=
    unread_laws unread budget.reads budget.carries budget.rests
  have bytes : ∀ connection, readBytes connection s'.history = readBytes connection s.history := by
    intro connection
    rw [history, readBytes_unread unread]
  rw [← history] at reads carries rests
  refine ⟨fun c' current => ?_, fun connection new => ?_, fun c' current => ?_,
    fun c' current => ?_,
    reads, carries, rests⟩
  · obtain ⟨_, c, before, id⟩ := held c' current
    rw [id]
    exact lt_of_lt_of_le (budget.opened c before) more
  · rw [bytes]
    exact budget.fresh connection (more.trans new)
  · obtain ⟨same, c, before, id⟩ := held c' current
    rw [same, bytes, id]
    exact budget.counted c before
  · obtain ⟨same, c, before, _⟩ := held c' current
    rw [same]
    exact budget.within c before

/-- Closing a connection reads nothing. -/
theorem closing_unread (probe : Probe) : ∀ event ∈ probe.closing i, event.unread = true := by
  -- The only event is the end of the connection.
  intro event member
  obtain ⟨c, _, same⟩ := mem_closing i member
  rw [same]
  rfl

/-- A reconnection reads nothing of the old connection. -/
theorem reconnects_unread {probe : Probe} {before : List IoEvent}
    (how : Reconnects gen i probe before) : ∀ event ∈ before, event.unread = true := by
  -- One case for each reason to reconnect.
  cases how <;> simp [IoEvent.unread]

/-- What leads to an outcome reads nothing either. -/
theorem noted_unread {probe : Probe} {history : List IoEvent} {result : Bool}
    {events : List IoEvent}
    (noted : Noted gen i probe history result events) : ∀ event ∈ events, event.unread = true := by
  -- One case for each outcome.
  cases noted <;> simp [IoEvent.unread]

/-- A read loop and what follows it. -/
theorem budget_drains {s : Seat} {c : Connection} {close : Bool} {count : Nat}
    {events : List IoEvent} (budget : s.Budget i) (current : s.peer.probe.connection = some c)
    (passes : Drains gen i c.id s.peer.probe.discarded (some close) count events) :
    Drained i c.id (some close) count (events ++ s.history) ∧
      ∀ connection, s.opened ≤ connection → readBytes connection (events ++ s.history) = 0 := by
  -- The count of the probe is that of the history.
  refine ⟨drained_reads passes (budget.counted c current).symm (budget.within c current)
    budget.reads budget.carries budget.rests, fun connection new => ?_⟩
  have distinct : c.id ≠ connection := Nat.ne_of_lt (lt_of_lt_of_le (budget.opened c current) new)
  rw [readBytes_drains passes distinct]
  exact budget.fresh connection new

/-- A step of the probe keeps its idle reads within the budget. -/
theorem step_budget {s : Seat} {probe' : Probe} {events : List IoEvent} (budget : s.Budget i)
    (step : ProbeStep gen i s.peer.probe s.history probe' events) :
    (s.handle probe' events).Budget i := by
  -- A step that reads nothing keeps the connection with its count, or has none.
  have kept : (∀ event ∈ events, event.unread = true) →
      probe'.discarded = s.peer.probe.discarded →
      probe'.connection = s.peer.probe.connection → (s.handle probe' events).Budget i := by
    intro unread count connection
    refine budget_unread _ budget rfl unread le_rfl fun c' current => ⟨count, c', ?_, rfl⟩
    rw [← connection]
    exact current
  have gone : (∀ event ∈ events, event.unread = true) →
      probe'.connection = none → (s.handle probe' events).Budget i := by
    intro unread connection
    refine budget_unread _ budget rfl unread le_rfl fun c' current => ?_
    change probe'.connection = some c' at current
    rw [connection] at current
    cases current
  have mapped : ∀ f : Connection → Connection, (∀ c, (f c).id = c.id) →
      (∀ event ∈ events, event.unread = true) → probe'.discarded = s.peer.probe.discarded →
      probe'.connection = s.peer.probe.connection.map f → (s.handle probe' events).Budget i := by
    intro f id unread count connection
    refine budget_unread _ budget rfl unread le_rfl fun c' current => ⟨count, ?_⟩
    change probe'.connection = some c' at current
    rw [connection] at current
    obtain ⟨c, held, after⟩ := Option.map_eq_some_iff.mp current
    exact ⟨c, held, by rw [← after, id]⟩
  cases step with
  | tuned probe' tuned => exact kept (by simp) tuned.discarded tuned.connection
  | rested tcp => exact mapped Connection.rest (fun _ => rfl) (by simp) rfl rfl
  | prepared c current active checked =>
    exact mapped (Connection.install (gen.conf i).checkType) (fun _ => rfl) (by simp) rfl
      (by rw [current]; rfl)
  | counted =>
    exact mapped (fun c => { c with requests := c.requests + 1 }) (fun _ => rfl) (by simp) rfl rfl
  | closed => exact gone (closing_unread _) rfl
  | lost =>
    refine gone (fun event member => ?_) rfl
    rcases List.mem_append.mp member with closing | lost
    · exact closing_unread _ event closing
    · rw [List.mem_singleton.mp lost]
      rfl
  | released pending fewer => exact gone (closing_unread _) rfl
  | drained c current count events passes =>
    obtain ⟨after, fresh⟩ := budget_drains budget current passes
    have same : ∀ c', some c = some c' → c' = c := fun c' eq => (Option.some.inj eq).symm
    refine ⟨budget.opened, fresh, fun c' held => ?_, fun _ _ => after.within (by simp),
      after.reads, after.carries, after.rests rfl⟩
    change s.peer.probe.connection = some c' at held
    rw [same c' (current.symm.trans held)]
    exact after.counted.symm
  | overrun c current count events passes =>
    obtain ⟨after, fresh⟩ := budget_drains budget current passes
    refine ⟨fun _ held => (by cases held), fun connection new => ?_, fun _ held => (by cases held),
      fun _ held => (by cases held), ?_, ?_, trivial⟩
    · show readBytes connection (_ :: (events ++ s.history)) = 0
      rw [readBytes_cons, fresh connection new]
      rfl
    · exact Trace.along_cons.mpr ⟨trivial, after.reads⟩
    · exact Trace.along_cons.mpr ⟨after.closes rfl, after.carries⟩
  | _ => exact kept (by simp [IoEvent.unread]) rfl rfl

/-- A new connection has nothing discarded. -/
theorem connect_budget {s : Seat} {before : List IoEvent} {error : Option Errno}
    {startTime : Option Nat} (budget : s.Budget i) (how : Reconnects gen i s.peer.probe before) :
    (s.connect i before error startTime).Budget i := by
  -- A new connection has a number of its own, and nothing was read from it.
  have unread := reconnects_unread how
  cases startTime with
  | none =>
    refine budget_unread (.connecting i :: before) budget rfl (fun event member => ?_) le_rfl
      fun _ held => (by cases held)
    rcases List.mem_cons.mp member with asked | earlier
    · rw [asked]
      rfl
    · exact unread event earlier
  | some time =>
    have all : ∀ event ∈ IoEvent.established i s.opened time :: .connecting i :: before,
        event.unread = true := by
      intro event member
      rcases List.mem_cons.mp member with got | member
      · rw [got]
        rfl
      rcases List.mem_cons.mp member with asked | earlier
      · rw [asked]
        rfl
      · exact unread event earlier
    have bytes : ∀ connection, readBytes connection
        ((.established i s.opened time :: .connecting i :: before) ++ s.history) =
          readBytes connection s.history := fun _ => readBytes_unread all
    obtain ⟨reads, carries, rests⟩ :=
      unread_laws all budget.reads budget.carries budget.rests
    refine ⟨fun c' held => ?_, fun connection new => ?_, fun c' held => ?_, fun c' held => ?_,
      reads, carries, rests⟩
    · cases held
      exact Nat.lt_succ_self s.opened
    · exact (bytes connection).trans (budget.fresh connection (Nat.le_of_succ_le new))
    · cases held
      exact ((bytes s.opened).trans (budget.fresh s.opened le_rfl)).symm
    · cases held
      exact Nat.zero_le _

/-- An inner step keeps the idle reads within the budget. -/
theorem seatInnerStep_budget {s s' : Seat} (budget : s.Budget i) (move : SeatInnerStep gen i s s') :
    s'.Budget i := by
  -- Most inner steps keep the probe's connection, its count and the history.
  have kept : s'.history = s.history → s.opened ≤ s'.opened →
      s'.peer.probe.connection = s.peer.probe.connection →
      s'.peer.probe.discarded = s.peer.probe.discarded → s'.Budget i := by
    intro history more connection count
    refine budget_unread [] budget history (by simp) more fun c' current => ?_
    rw [connection] at current
    exact ⟨count, c', current, rfl⟩
  cases move with
  | elsewhere opened more => exact kept rfl more rfl rfl
  | stopped below =>
    unfold Seat.stop
    dsimp only
    split
    · exact budget_unread _ budget rfl (closing_unread _) le_rfl fun _ held => (by cases held)
    · exact budget_unread [] budget rfl (by simp) le_rfl
        fun c' held => ⟨rfl, c', held, rfl⟩
  | handled probe events step => exact step_budget budget step
  | connected before error startTime how active confirmed => exact connect_budget budget how
  | _ => exact kept rfl le_rfl rfl rfl

/-- A claim, a finish or a submission keeps the idle reads within the budget. -/
theorem seatAtomicStep_budget {s s' : Seat} (budget : s.Budget i)
    (move : SeatAtomicStep gen i s s') :
    s'.Budget i := by
  -- They leave the connection with its count.
  have same : ∀ {s' : Seat}, s'.peer.probe.connection = s.peer.probe.connection →
      s'.peer.probe.discarded = s.peer.probe.discarded →
      ∀ c', s'.peer.probe.connection = some c' →
        s'.peer.probe.discarded = s.peer.probe.discarded ∧
          ∃ c, s.peer.probe.connection = some c ∧ c'.id = c.id := by
    intro s' connection count c' held
    rw [connection] at held
    exact ⟨count, c', held, rfl⟩
  cases move with
  | inner s' move => exact seatInnerStep_budget budget move
  | allocated =>
    exact budget_unread [] budget rfl (by simp) le_rfl (same rfl rfl)
  | claimed started next running active pending deadline =>
    exact budget_unread [_] budget rfl (by simp [IoEvent.unread]) le_rfl (same rfl rfl)
  | froze result delay reason source error label events noted active idle sample =>
    refine budget_unread _ budget (List.append_assoc _ _ _).symm (fun event member => ?_) le_rfl
      (same rfl rfl)
    rcases List.mem_append.mp member with outcome | before
    · rcases List.mem_append.mp outcome with sampled | finished
      · obtain ⟨_, _, _, _, taken⟩ := mem_sampling i sampled
        rw [taken]
        rfl
      · rw [List.mem_singleton.mp finished]
        rfl
    · exact noted_unread noted event before
  | submitted result rc =>
    exact budget_unread [_] budget rfl (by simp [IoEvent.unread]) le_rfl (same rfl rfl)
  | rang runtime stopping cleaned check timeout =>
    exact budget_unread [] budget rfl (by simp) le_rfl (same rfl rfl)

end Keep

section Loop

variable {gen : Generation} {i connection : Nat}

/-- How many of the next answers interrupt a socket call. -/
def interruptions (script : Nat → Answer) (pos : Nat) : Nat → Nat
  | 0 => 0
  | count + 1 =>
    (if (script pos).result = -1 ∧ (script pos).errno = .eintr then 1 else 0) +
      interruptions script (pos + 1) count

/-- Every pass of the read loop that is not interrupted uses up the budget or is the last one. -/
theorem idleLoop_ends (fuel : Nat) {w : World}
    (within : (w.self.peers i).probe.discarded ≤ idleDiscardMax)
    (room : interruptions w.script w.pos fuel +
      (idleDiscardMax - (w.self.peers i).probe.discarded) < fuel) :
    ends (idleLoop gen i connection fuel) (fun _ _ => True) w := by
  -- Induction on the fuel; an interruption and a byte both cost one unit.
  induction fuel generalizing w with
  | zero => exact absurd room (Nat.not_lt_zero _)
  | succ fuel ih =>
    have size := idleReadSize_within gen within
    rw [interruptions] at room
    simp only [idleLoop, recordIo, modifyProbe, modifyPeer, modifySelf, ends_bind, ends_self,
      ends_ask, ends_change, ends_ite, ends_pure, implies_true, and_true, true_and, passed_self,
      self_setSelf, List.nil_append]
    rw [size]
    simp only [Function.update_self]
    refine ⟨fun received below => ih ?_ ?_, fun _ again => ih ?_ ?_⟩
    · simpa using below
    · simp only [self_setSelf, Function.update_self, setSelf_script, setSelf_pos, passed_script,
        passed_pos]
      omega
    · simpa using within
    · have interrupted : (w.script w.pos).result = -1 ∧ (w.script w.pos).errno = .eintr :=
        ⟨by omega, again.2⟩
      rw [if_pos interrupted] at room
      simp only [self_setSelf, setSelf_script, setSelf_pos, passed_script, passed_pos]
      omega

end Loop

section Budget

variable {gen : Generation} {me : Nat} {start : Sys → Prop} {between : Sys → Sys → Prop} {s : Sys}

/-- A process that starts has read nothing. -/
theorem start_budget (i worker : Nat) : (Seat.start worker).Budget i :=
  -- There is no connection, and nothing was read.
  ⟨fun _ held => (by cases held), fun _ _ => rfl, fun _ held => (by cases held),
    fun _ held => (by cases held), Trace.along_nil _, Trace.along_nil _, trivial⟩

/-- The discard budget of idle connections, in every life of a process. -/
theorem idle_budget (life : Life gen me start between s) (i : Nat) :
    ((s.procs me).seat i).Budget i ∧
      ∀ (w : World) (connection fuel : Nat),
        (w.self.peers i).probe.discarded ≤ idleDiscardMax →
        interruptions w.script w.pos fuel +
          (idleDiscardMax - (w.self.peers i).probe.discarded) < fuel →
        ∃ close w', idleLoop gen i connection fuel w = some (close, w') := by
  -- The invariant along the life, and the fuel that the loop needs.
  refine ⟨life_seat (start_budget i) seatAtomicStep_budget life, ?_⟩
  intro w connection fuel within room
  have ended : ends (idleLoop gen i connection fuel) (fun _ _ => True) w :=
    idleLoop_ends fuel within room
  obtain ⟨close, w', returned, _⟩ := ended
  exact ⟨close, w', returned⟩

/-- A worker whose TCP check succeeds, and whose kept connection then sends 100 bytes and more than
the rest of the budget. -/
def overrunLife : Option Sys :=
  lived sample 0 (fun _ => quietAt 1000)
    [(.checkTimer 0, fun _ => { quietAt 4000 with connect := .again, flag := true }),
      (.writeEvent 0, fun _ => { quietAt 4001 with result := 1, eventOk := true }),
      (.readEvent 0, fun n =>
        { quietAt 4002 with
          random := 8, eventOk := true, result := if n = 10 then 100 else 5000 })]
    (fresh sample)

/-- A process whose connection has used up its budget. -/
def spentBudget : World :=
  { sys := { fresh sample with procs := fun _ => { peers := fun _ =>
      { probe := { discarded := 4096 } } } }
    me := 0
    script := fun _ => {} }

/-- A connection that sends more than its budget is closed. -/
theorem idle_budget_overrun : ∃ s, overrunLife = some s ∧
    ((s.procs 0).history 0).take 3 =
      [.closed 0 0, .idleRead 0 0 100 3997 3997, .idleRead 0 0 0 4097 100] ∧
    ((s.procs 0).seat 0).Budget 0 ∧
    ∃ close w', idleLoop sample 0 0 1 spentBudget = some (close, w') := by
  -- The life is computed, and the theorem is read at its end.
  have reads : (overrunLife.map fun s => ((s.procs 0).history 0).take 3) = some
      [.closed 0 0, .idleRead 0 0 100 3997 3997, .idleRead 0 0 0 4097 100] := by decide +kernel
  obtain ⟨s, ran, newest⟩ := Option.map_eq_some_iff.mp reads
  have budget := idle_budget (life_lived ran) 0
  exact ⟨s, ran, newest, budget.1, budget.2 spentBudget 0 1 (by decide) (by decide)⟩

end Budget

end Healthcheck
