import Healthcheck.Callback.Sockets

/-!
Broken connections and the results of TCP rounds. When a peek of the connection that a round started
with fails, the round asks for a new one, and only what becomes of the new one may fail the round.
-/

namespace Healthcheck

open Program

/-- Why a TCP round fails: it has no connection to check, the peek of its handler failed, its
deadline was reached, or there was no clock when it had been prepared. -/
inductive Failure (i : Nat) : List IoEvent → Prop
  | unprepared {older : List IoEvent} (none : Unprepared i older) : Failure i older
  | peeked (connection : Nat) (older : List IoEvent) :
      Failure i (.peeked i .tcpEvent connection false :: older)
  | expired (now : Nat) (older : List IoEvent) : Failure i (.expired i now :: older)
  | unclocked (older : List IoEvent) : Failure i (.unclocked i :: older)

/-- A failing result follows its reason directly. -/
def Blamed (i : Nat) (event : IoEvent) (older : List IoEvent) : Prop :=
  event = .finished i false → Failure i older

/-- A seat of a TCP check: no event of its connection runs a UDP handler, and every failing result
has its reason. -/
structure Seat.Blames (i : Nat) (s : Seat) : Prop where
  unserved : ∀ c, s.peer.probe.connection = some c → ¬ c.Served
  blamed : Trace.Along (Blamed i) s.history

/-- What becomes of a new connection when it fails the round: it is not established, its options
cannot be set, it is found closed, or nothing happens in time. -/
inductive NewOutcome (i : Nat) : List IoEvent → Prop
  | connect (past : List IoEvent) : NewOutcome i (.connecting i :: past)
  | options (connection startTime : Nat) (past : List IoEvent) :
      NewOutcome i
        (.closed i connection :: .established i connection startTime :: .connecting i :: past)
  | peek (connection startTime : Nat) (past : List IoEvent)
      (established : .established i connection startTime ∈ past) :
      NewOutcome i (.peeked i .tcpEvent connection false :: past)
  | timeout (now : Nat) (past : List IoEvent) : NewOutcome i (.expired i now :: past)

/-- What has to come after a failing peek of a connection: it is closed, a new connection is asked
for at once, and a failing result in the same round is the outcome of the new connection. -/
structure Reconnected (i connection : Nat) (newer : List IoEvent) : Prop where
  anew : ∃ rest, newer = rest ++ [.connecting i, .closed i connection]
  outcome : ∀ later before, newer = later ++ .finished i false :: before →
    (∀ event ∈ before, event.claim i = none) → NewOutcome i before

/-- A failing peek of the connection that the round was claimed with does not fail the round. -/
def Survives (i : Nat) (event : IoEvent) (older newer : List IoEvent) : Prop :=
  ∀ site connection, event = .peeked i site connection false →
    newest (IoEvent.retained i) older = some (some connection) → Reconnected i connection newer

/-- The handler of the check never finds the connection closed that its round was claimed with, and
the clock can be read when a round has been prepared whose preparation found it closed. -/
structure Spared (i : Nat) (history : List IoEvent) : Prop where
  watched : ∀ newer connection older,
    history = newer ++ .peeked i .tcpEvent connection false :: older →
      newest (IoEvent.retained i) older ≠ some (some connection)
  clocked : ∀ later before connection older,
    history = later ++ .unclocked i :: (before ++ .peeked i .probeStart connection false :: older) →
      newest (IoEvent.retained i) older = some (some connection) →
        ∃ event ∈ before, event.claim i ≠ none

section Blame

variable {gen : Generation} {i : Nat} {history : List IoEvent}

/-- The handlers of the TCP check are no UDP handlers. -/
theorem install_unserved (c : Connection) : ¬ (c.install .tcp).Served := by
  -- Both handlers are the one of the TCP check.
  rintro (reads | writes)
  · cases reads
  · cases writes

/-- The handlers of the time between two rounds are no UDP handlers. -/
theorem rest_unserved (c : Connection) : ¬ c.rest.Served := by
  -- One drops what arrives, and one does nothing.
  rintro (reads | writes)
  · cases reads
  · cases writes

/-- Events within a round, or between two, are no results. -/
theorem blamed_inner (events : List IoEvent) (inner : ∀ event ∈ events, event.inner = true)
    (blamed : Trace.Along (Blamed i) history) : Trace.Along (Blamed i) (events ++ history) := by
  -- The end of a round is no inner event.
  refine Trace.along_append (fun event member older same => ?_) blamed
  have within := inner event member
  rw [same] at within
  cases within

/-- A step at the probe keeps the connection of a TCP check away from UDP handlers. -/
theorem step_unserved {probe probe' : Probe} {events : List IoEvent}
    (tcp : (gen.conf i).checkType = .tcp)
    (unserved : ∀ c, probe.connection = some c → ¬ c.Served)
    (step : ProbeStep gen i probe history probe' events) :
    ∀ c, probe'.connection = some c → ¬ c.Served := by
  -- The connection is mapped, replaced by itself with new handlers, closed or left alone.
  have gone : ∀ c, (none : Option Connection) = some c → ¬ c.Served :=
    fun _ impossible => by cases impossible
  cases step with
  | tuned probe' tuned => rwa [tuned.connection]
  | rested =>
    intro c held
    obtain ⟨c', _, same⟩ := Option.map_eq_some_iff.mp held
    rw [← same]
    exact rest_unserved c'
  | counted =>
    intro c held
    obtain ⟨c', current, same⟩ := Option.map_eq_some_iff.mp held
    rw [← same]
    exact unserved c' current
  | prepared c current active checked =>
    intro c' held
    cases held
    rw [tcp]
    exact install_unserved c
  | closed => exact gone
  | lost => exact gone
  | released => exact gone
  | overrun => exact gone
  | _ => exact unserved

/-- An inner step at a seat ends no round. -/
theorem seatInnerStep_blames {s s' : Seat} (tcp : (gen.conf i).checkType = .tcp)
    (blames : s.Blames i)
    (move : SeatInnerStep gen i s s') : s'.Blames i := by
  obtain ⟨unserved, blamed⟩ := blames
  cases move with
  | stopped below =>
    unfold Seat.stop
    dsimp only
    split
    · exact ⟨fun _ held => (by cases held), blamed_inner _ (closing_inner _) blamed⟩
    · exact ⟨unserved, blamed⟩
  | handled probe events step =>
    exact ⟨step_unserved tcp unserved step, blamed_inner events (step_inner step) blamed⟩
  | connected before error startTime how active confirmed =>
    -- A new connection has no handlers yet.
    cases startTime with
    | none =>
      exact ⟨fun _ held => (by cases held), blamed_inner (.connecting i :: before)
        (fun event member => routine_inner (connects_routine i how none event member)) blamed⟩
    | some time =>
      refine ⟨fun c held => ?_, blamed_inner
        (.established i s.opened time :: .connecting i :: before)
        (fun event member =>
          routine_inner (connects_routine i how (some (s.opened, time)) event member)) blamed⟩
      cases held
      rintro (reads | writes)
      · cases reads
      · cases writes
  | _ => exact ⟨unserved, blamed⟩

/-- A round that ends with a failure has a reason, when no UDP handler can run. -/
theorem noted_failure {s : Seat} {events : List IoEvent}
    (unserved : ∀ c, s.peer.probe.connection = some c → ¬ c.Served)
    (noted : Noted gen i s.peer.probe s.history false events) : Failure i
    (events ++ s.history) := by
  -- Only a handler of the UDP check reports a refusal.
  generalize verdict : false = result at noted
  cases noted with
  | plain _ why =>
    cases why with
    | success => cases verdict
    | unprepared _ none => exact .unprepared none
  | expired now => exact .expired now s.history
  | unclocked => exact .unclocked s.history
  | refused t evidence served =>
    obtain ⟨c, current, serves⟩ := served
    exact absurd serves (unserved c current)
  | peeked c passed current watched =>
    rw [← verdict]
    exact .peeked c.id s.history

/-- Every step of a process keeps the reasons of the failures of a TCP check. -/
theorem seatAtomicStep_blames {s s' : Seat} (tcp : (gen.conf i).checkType = .tcp)
    (blames : s.Blames i)
    (move : SeatAtomicStep gen i s s') : s'.Blames i := by
  obtain ⟨unserved, blamed⟩ := blames
  cases move with
  | inner s' move => exact seatInnerStep_blames tcp ⟨unserved, blamed⟩ move
  | allocated => exact ⟨unserved, blamed⟩
  | claimed started next running active pending deadline =>
    exact ⟨unserved, Trace.along_cons.mpr ⟨fun same => (by cases same), blamed⟩⟩
  | froze result delay reason source error label events noted active idle sample =>
    refine ⟨unserved, ?_⟩
    show Trace.Along (Blamed i) ((s.peer.probe.sampling i delay ++ [.finished i result]) ++
      (events ++ s.history))
    rw [List.append_assoc]
    -- The notes and the sample are no results.
    have before : Trace.Along (Blamed i) (events ++ s.history) :=
      blamed_inner events (noted_inner noted) blamed
    refine Trace.along_append (fun event member older same => ?_)
      (Trace.along_cons.mpr ⟨fun same => ?_, before⟩)
    · obtain ⟨_, _, _, _, sampled⟩ := mem_sampling i member
      rw [sampled] at same
      cases same
    · cases same
      exact noted_failure unserved noted
  | submitted result rc =>
    exact ⟨unserved, Trace.along_cons.mpr ⟨fun same => (by cases same), blamed⟩⟩
  | rang runtime stopping cleaned check timeout => exact ⟨unserved, blamed⟩

end Blame

section Outcome

variable {i connection : Nat} {more older : List IoEvent}

/-- The events of a peer's history are about that peer. -/
theorem peer_of_history {p : Proc} {event : IoEvent} (member : event ∈ p.history i) :
    event.peer = i :=
  -- The history of a peer is a filter of the whole.
  of_decide_eq_true (List.mem_filter.mp member).2

/-- A connection that is peeked after another one was given up has been established since. -/
theorem established_since {p : Proc} {newer : List IoEvent} {site : PeekSite} {used : Nat}
    {passed : Bool} (proper : Trace.Along Lease.Proper (leases (p.history i)))
    (split : p.history i = newer ++
      .peeked i site used passed :: (more ++ [.connecting i, .closed i connection] ++ older)) :
    ∃ startTime, .established i used startTime ∈ more := by
  -- The socket was held at the peek, so it was taken after the other one was returned.
  have shape : leases (p.history i) = leases newer ++
      .used used :: (leases more ++ .returned connection :: leases older) := by
    rw [split]
    simp [leases, IoEvent.lease, List.filterMap_cons]
  have taken : .taken used ∈ leases more := Lease.held_after_return (proper _ _ _ shape)
  obtain ⟨event, member, lease⟩ := List.mem_filterMap.mp taken
  cases event with
  | established peer other startTime =>
    cases lease
    have inside : .established peer used startTime ∈ p.history i := by
      rw [split]
      exact List.mem_append_right _ (List.mem_cons_of_mem _
        (List.mem_append_left _ (List.mem_append_left _ member)))
    have own : peer = i := peer_of_history inside
    rw [own] at member
    exact ⟨startTime, member⟩
  | _ => cases lease

/-- Once a connection was closed for a new one, a failure of the round is due to the new one, unless
there was no clock. -/
theorem newOutcome_of_failure
    (fails : Failure i (more ++ [.connecting i, .closed i connection] ++ older))
    (clocked : ∀ rest, more ≠ .unclocked i :: rest)
    (established : ∀ used rest, more = .peeked i .tcpEvent used false :: rest →
      ∃ startTime, .established i used startTime ∈ rest) :
    NewOutcome i (more ++ [.connecting i, .closed i connection]) := by
  -- The reason is the newest event, and that is one of the new connection.
  cases more with
  | nil => exact .connect [.closed i connection]
  | cons first more =>
    cases fails with
    | unprepared none =>
      rcases none with ⟨past, same⟩ | ⟨other, startTime, past, same⟩
      · cases same
        exact .connect _
      · cases more with
        | nil => cases same
        | cons second rest =>
          cases rest with
          | nil =>
            cases same
            exact .options other startTime [.closed i connection]
          | cons third rest =>
            cases same
            exact .options other startTime _
    | peeked used =>
      obtain ⟨startTime, member⟩ := established used more rfl
      exact .peek used startTime _ (List.mem_append_left _ member)
    | expired now => exact .timeout now _
    | unclocked => exact absurd rfl (clocked more)

end Outcome

section Survival

variable {gen : Generation} {me : Nat} {start : Sys → Prop} {between : Sys → Sys → Prop} {s : Sys}

/-- A peek of `tcp_event` that failed, of the connection the round started with, is the outcome of
the round, so no new connection is asked for. -/
theorem spared_watched {i : Nat} {history : List IoEvent}
    (answered : Trace.Ahead (Answered gen i) history)
    (survives : Trace.Ahead (Survives i) history) {newer older : List IoEvent} {connection : Nat}
    (split : history = newer ++ .peeked i .tcpEvent connection false :: older) :
    newest (IoEvent.retained i) older ≠ some (some connection) := by
  intro retained
  obtain ⟨rest, anew⟩ := (survives newer _ older split .tcpEvent connection rfl retained).anew
  obtain ⟨rest', finished⟩ := (answered newer _ older split).checked connection false rfl
  -- The result and the end of the connection would both come next.
  rw [anew] at finished
  have last := congrArg List.getLast? finished
  simp at last

/-- A TCP round without a clock fails for no outcome of its connection. -/
theorem spared_clocked {i : Nat} {history : List IoEvent} (tcp : (gen.conf i).checkType = .tcp)
    (answered : Trace.Ahead (Answered gen i) history)
    (survives : Trace.Ahead (Survives i) history) {later before older : List IoEvent}
    {connection : Nat}
    (split : history =
      later ++ .unclocked i :: (before ++ .peeked i .probeStart connection false :: older))
    (retained : newest (IoEvent.retained i) older = some (some connection)) :
    ∃ event ∈ before, event.claim i ≠ none := by
  -- Otherwise the round would end with the failed clock, which is no outcome of a new connection.
  by_contra quiet
  obtain ⟨rest, finished⟩ := (answered later _ _ split).unclocked rfl
  rw [tcp] at finished
  have whole : history =
      (later ++ .unclocked i :: before) ++ .peeked i .probeStart connection false :: older := by
    rw [split, List.append_assoc, List.cons_append]
  have outcome : NewOutcome i (.unclocked i :: before) := by
    refine (survives _ _ older whole .probeStart connection rfl retained).outcome rest _ ?_
      fun event member => ?_
    · rw [finished, List.append_assoc]
      rfl
    · by_contra claims
      rcases List.mem_cons.mp member with same | earlier
      · exact claims (same ▸ rfl)
      · exact quiet ⟨event, earlier, claims⟩
  cases outcome

/-- Without the two exceptions, a failing peek leads to a new connection, and only the outcome of
this one can fail the round. -/
theorem survives_spared {p : Proc} {i : Nat} (answered : Trace.Ahead (Answered gen i) (p.history i))
    (blamed : Trace.Along (Blamed i) (p.history i))
    (proper : Trace.Along Lease.Proper (leases (p.history i))) (spared : Spared i (p.history i)) :
    Trace.Ahead (Survives i) (p.history i) := by
  intro newer event older split site connection same retained
  subst same
  cases site with
  | tcpEvent => exact absurd retained (spared.watched newer connection older split)
  | probeStart =>
    obtain ⟨rest, anew⟩ := (answered newer _ older split).broken connection rfl
    refine ⟨⟨rest, anew⟩, fun later before finished quiet => ?_⟩
    -- The new connection was asked for before the round ended.
    obtain ⟨more, asked⟩ : ∃ more, before = more ++ [.connecting i, .closed i connection] :=
      Trace.ends_before (anew.symm.trans finished) (by simp)
    have ended : p.history i = later ++ .finished i false ::
        (before ++ .peeked i .probeStart connection false :: older) := by
      rw [split, finished, List.append_assoc, List.cons_append]
    have fails : Failure i (before ++ .peeked i .probeStart connection false :: older) :=
      blamed _ _ _ ended rfl
    rw [asked] at fails ended quiet ⊢
    refine newOutcome_of_failure fails (fun rest unclocked => ?_) fun used rest peeked => ?_
    · subst unclocked
      have without : p.history i = (later ++ [.finished i false]) ++ .unclocked i ::
          ((rest ++ [.connecting i, .closed i connection]) ++
            .peeked i .probeStart connection false :: older) := by
        rw [ended]
        simp
      obtain ⟨event, member, claims⟩ := spared.clocked _ _ _ _ without retained
      exact claims (quiet event (List.mem_cons_of_mem _ member))
    · subst peeked
      have peek : p.history i = (later ++ [.finished i false]) ++ .peeked i .tcpEvent used false ::
          (rest ++ [.connecting i, .closed i connection] ++
            .peeked i .probeStart connection false :: older) := by
        rw [ended]
        simp
      exact established_since proper peek

/-- A failing peek of the connection a TCP round started with leads to a new connection, which alone
can fail the round, exactly as long as it is not the handler of the check that makes the peek and the
clock can be read for the new connection. -/
theorem survives_iff (life : Life gen me start between s) {i : Nat}
    (tcp : (gen.conf i).checkType = .tcp) :
    Trace.Ahead (Survives i) ((s.procs me).history i) ↔ Spared i ((s.procs me).history i) := by
  -- Both laws of the history hold along the life.
  have answered : ((s.procs me).seat i).Answers gen i :=
    life_seat (fun _ => Trace.ahead_nil _) seatAtomicStep_answers life
  have blames : ((s.procs me).seat i).Blames i :=
    life_seat (fun _ => ⟨fun _ held => (by cases held), Trace.along_nil _⟩)
      (seatAtomicStep_blames tcp) life
  have leased : ((s.procs me).seat i).Leased := life_seat start_leased seatAtomicStep_leased life
  constructor
  · intro survives
    exact ⟨fun newer connection older split => spared_watched answered survives split,
      fun later before connection older split => spared_clocked tcp answered survives split⟩
  · exact survives_spared answered blames.blamed leased.proper

/-- The kept connection is closed by the server between the two peeks of a round, which fails. -/
theorem retained_peek_fails : ∃ s, AnyLife sample 0 s ∧
    (s.procs 0).history 0 = [.closed 0 0, .submitted 0 false .ok, .finished 0 false] ++
      .peeked 0 .tcpEvent 0 false :: .peeked 0 .probeStart 0 true :: secondRound ∧
    ¬ Trace.Ahead (Survives 0) ((s.procs 0).history 0) := by
  have noted : ((retainedLife closedBetween).map fun s => (s.procs 0).history 0) = some
      ([.closed 0 0, .submitted 0 false .ok, .finished 0 false] ++
        .peeked 0 .tcpEvent 0 false :: .peeked 0 .probeStart 0 true :: secondRound) := by
    decide +kernel
  obtain ⟨s, ran, history⟩ := Option.map_eq_some_iff.mp noted
  refine ⟨s, life_lived ran, history, fun survives => ?_⟩
  -- No new connection was asked for.
  obtain ⟨rest, after⟩ := (survives _ _ _ history .tcpEvent 0 rfl (by decide)).anew
  have last := congrArg List.getLast? after
  simp at last

/-- The connection that replaces the kept one is closed by the server before its peek. -/
def replacedLife : Option Sys :=
  lived sample 0 (fun _ => quietAt 1000)
    [(.checkTimer 0, fun _ => { quietAt 4000 with connect := .again, flag := true }),
      (.writeEvent 0, fun _ => { quietAt 4001 with result := 1, eventOk := true }),
      (.checkTimer 0, closedBefore),
      (.writeEvent 0, fun _ => { quietAt 7001 with eventOk := true })]
    (fresh sample)

/-- What the replacement of the kept connection adds, newest first. -/
def replacement : List IoEvent :=
  [.established 0 1 0, .connecting 0, .closed 0 0, .peeked 0 .probeStart 0 false]

/-- A round that replaces a broken connection fails, because the new one is broken as well. -/
theorem survives_iff_replaced : ∃ s, replacedLife = some s ∧
    (s.procs 0).history 0 = [.closed 0 1, .submitted 0 false .ok, .finished 0 false,
      .peeked 0 .tcpEvent 1 false] ++ replacement ++ secondRound ∧
    Trace.Ahead (Survives 0) ((s.procs 0).history 0) := by
  have noted : (replacedLife.map fun s => (s.procs 0).history 0) = some
      ([.closed 0 1, .submitted 0 false .ok, .finished 0 false, .peeked 0 .tcpEvent 1 false] ++
        replacement ++ secondRound) := by decide +kernel
  obtain ⟨s, ran, history⟩ := Option.map_eq_some_iff.mp noted
  refine ⟨s, ran, history, (survives_iff (life_lived ran) (by rfl)).mpr ⟨?_, ?_⟩⟩
  · -- The handler of the check found the new connection closed, not the one of the claim.
    intro newer connection older split retained
    have broken : .peeked 0 .tcpEvent connection false ∈ (s.procs 0).history 0 := by
      rw [split]
      exact List.mem_append_right _ List.mem_cons_self
    obtain ⟨event, member, claim⟩ := List.exists_of_findSome?_eq_some retained
    have earlier : event ∈ (s.procs 0).history 0 := by
      rw [split]
      exact List.mem_append_right _ (List.mem_cons_of_mem _ member)
    rw [history] at broken earlier
    have new : connection = 1 := by simpa [replacement, secondRound] using broken
    have kept : ∀ event ∈ [.closed 0 1, .submitted 0 false .ok, .finished 0 false,
        .peeked 0 .tcpEvent 1 false] ++ replacement ++ secondRound,
        event.retained 0 ≠ some (some 1) := by decide
    exact kept event earlier (new ▸ claim)
  · intro later before connection older split
    have clockless : .unclocked 0 ∈ (s.procs 0).history 0 := by
      rw [split]
      exact List.mem_append_right _ List.mem_cons_self
    rw [history] at clockless
    simp [replacement, secondRound] at clockless

/-- The clock cannot be read any more once the kept connection has been replaced. -/
example : ((retainedLife fun n => { closedBefore n with
      clock := if n < 18 then (closedBefore n).clock else none }).map fun s =>
        (s.procs 0).history 0) =
    some ([.closed 0 1, .submitted 0 false .again, .finished 0 false, .unclocked 0] ++
      replacement ++ secondRound) := by decide +kernel

end Survival

end Healthcheck
