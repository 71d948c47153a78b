import Healthcheck.Callback.RoundSteps
import Healthcheck.Runtime.Schedule

/-! The start of a round's I/O, and its continuation by the watch, as round steps. -/

namespace Healthcheck

open Program

section Start

variable {gen : Generation} {i : Nat}

/-- A process that got a new connection, right after that. -/
def Proc.got (p : Proc) (i : Nat) (probe : Probe) (before : List IoEvent) (time : Nat) : Proc :=
  { p.handle i { probe with connection := some { id := p.opened, startTime := time } }
      (.established i p.opened time :: .connecting i :: before) with
    opened := p.opened + 1 }

/-- A peer that got a connection has it under the next number. -/
theorem got_peers (p : Proc) (probe : Probe) (before : List IoEvent) (time : Nat) :
    ((p.got i probe before time).peers i).probe =
      { probe with connection := some { id := p.opened, startTime := time } } := by
  -- Both writes go to the same place.
  simp [Proc.got, Proc.handle, Proc.setPeer]

/-- The count of discarded bytes starts with the connection. -/
theorem wp_reset {before : List IoEvent} {label : Option Errno} {time pos : Nat}
    {post : Unit → World → Prop} {w : World} :
    wp (modifyProbe i fun probe => { probe with discarded := 0 }) post
        ((w.setSelf (w.self.got i { (w.self.peers i).probe with connection := none, error := label }
          before time)).passed [] pos w.locks) ↔
      post () ((w.setSelf (w.self.connect i before label (some time))).passed [] pos w.locks) := by
  -- The count of the new connection starts at zero.
  rw [wp_modifyProbe]
  simp [World.passed, World.setSelf, World.self, Sys.setProc, Proc.got, Proc.connect, Proc.handle,
    Proc.setPeer]

/-- A new connection is asked for, and perhaps established. -/
theorem wp_connectPeer {probe : Probe} {events : List IoEvent} {rs : List Nat} {pos : Nat}
    {post : Rc → World → Prop} {w : World}
    (failed : ∀ rc pos, post rc
      (w.handled i { probe with connection := none } (.connecting i :: events) rs pos))
    (opened : ∀ rc pos time, post rc
      ((w.setSelf (w.self.got i probe events time)).passed rs pos w.locks)) :
    wp (connectPeer i) post (w.handled i probe events rs pos) := by
  -- The attempt is refused or accepted.
  unfold connectPeer
  rw [wp_bind, wp_ask_handled, wp_bind, wp_record_handled, wp_ite]
  refine ⟨fun _ => ?_, fun _ => ?_⟩
  · rw [wp_bind, wp_modify_handled, wp_pure]
    exact failed _ _
  · have got := opened (w.script pos).connect (pos + 1) (w.script pos).currentMsec
    simp only [wp_bind, wp_self, wp_modifySelf, wp_modifyProbe, wp_recordIo, wp_pure]
    simpa [World.handled, World.passed, World.setSelf, World.self, Sys.setProc, Proc.handle,
      Proc.setPeer, Proc.got] using got

/-- What the preparation of a round leaves of its peer, the deadline apart. -/
structure Same (i : Nat) (p p' : Proc) : Prop where
  connection : (p'.peers i).probe.connection = (p.peers i).probe.connection
  active : (p'.round i).active = (p.round i).active
  pending : (p'.round i).pending = (p.round i).pending

/-- The clock is read, and the deadline of a TCP round starts again from there. -/
theorem byRounds_restart {α : Type} {x : Action α} {f : Nat → Action α} {post : α → World → Prop}
    {w : World} (failed : ∀ pos, byRounds gen x post (w.passed [] pos w.locks))
    (restarted : ∀ t w', InnerStep gen w w' → Same i w.self w'.self → byRounds gen (f t) post w') :
    byRounds gen (do
      match ← now with
      | none => x
      | some reading => do
        restartDeadline gen i reading
        f reading) post w := by
  -- The reading and the new deadline are one operation.
  have same : ∀ (t : Nat) (w₁ : World), w₁.self.peers = w.self.peers →
      wp (restartDeadline gen i t) (fun _ w' => Same i w.self w'.self) w₁ := by
    intro t w₁ peers
    unfold restartDeadline
    rw [wp_ite, wp_modifyRound, wp_pure]
    refine ⟨fun _ => ⟨?_, ?_, ?_⟩, fun _ => ⟨?_, ?_, ?_⟩⟩
    all_goals simp [Proc.round, Peer.setRound, peers]
  unfold byRounds along
  rw [wp_bind]
  have read : wp now (fun reading w₁ => w₁.self.peers = w.self.peers ∧
      (reading = none → ∃ pos, w₁ = w.passed [] pos w.locks)) w := by
    refine wp_now (fun pos => ⟨by rw [passed_self], fun _ => ⟨pos, rfl⟩⟩) (fun t pos _ => ⟨?_, ?_⟩)
    · rw [passed_self]
    · intro impossible
      cases impossible
  refine wp_mono (wp_and (wp_returned now w) read) fun reading w₁ reached => ?_
  obtain ⟨returned, peers, nothing⟩ := reached
  cases reading with
  | none =>
    obtain ⟨pos, after⟩ := nothing rfl
    rw [after]
    have move : InnerStep gen w (w.passed [] pos w.locks) := .passed _ _ _
    exact byRounds_resume (byRounds_run (.single move)) (failed pos)
  | some t =>
    rw [wp_bind]
    refine wp_mono (wp_and (wp_returned _ _) (same t w₁ peers)) fun _ w₂ reached => ?_
    obtain ⟨done, kept⟩ := reached
    have ran : Op.run gen (.restartDeadline i) w = some ((), w₂) := by
      show (now w).bind _ = _
      rw [returned]
      exact done
    have move : InnerStep gen w w₂ := .ran (.restartDeadline i) w₂ trivial ran
    exact byRounds_resume (byRounds_run (.single move)) (restarted t w₂ move kept)

/-- A connection of a TCP check is watched. -/
theorem install_watched {c : Connection} (tcp : (gen.conf i).checkType ≠ .udp) :
    (c.install (gen.conf i).checkType).Watched :=
  .inr (if_neg tcp)

/-- A UDP connection is served by the handlers of its check. -/
theorem install_served {c : Connection} (udp : (gen.conf i).checkType = .udp) :
    (c.install (gen.conf i).checkType).Served := by
  -- Both handlers are those of the UDP check.
  rw [udp]
  exact .inl rfl

/-- The prepared round of a connection that was checked in this round. -/
theorem byRounds_connected {c : Connection} {rc : Rc} {w : World}
    (current : (w.self.peers i).probe.connection = some c)
    (active : (w.self.round i).active = true) (idle : (w.self.round i).pending = false)
    (checked : Checked i c.id (w.self.history i)) :
    byRounds gen (connected gen i c.id rc) (fun _ _ => True) w := by
  unfold connected
  dsimp only
  let probe := { (w.self.peers i).probe with
    connection := some (c.install (gen.conf i).checkType), prepared := true }
  have prepared : ProbeStep gen i (w.self.peers i).probe (w.self.history i) probe [] :=
    .prepared c current active checked
  refine byRounds_then (byInner_handled (fun post => ?_) prepared ?_)
  · rw [wp_handle, current]
    unfold probe Connection.install
    simp
  have active' : ((w.setSelf (w.self.handle i probe [])).self.round i).active = true := by
    rw [self_setSelf, handle_round]
    exact active
  have idle' : ((w.setSelf (w.self.handle i probe [])).self.round i).pending = false := by
    rw [self_setSelf, handle_round]
    exact idle
  have held : ((w.setSelf (w.self.handle i probe [])).self.peers i).probe.connection =
      some (c.install (gen.conf i).checkType) := by
    rw [self_setSelf, handle_peers]
  generalize w.setSelf (w.self.handle i probe []) = w at active' idle' held ⊢
  refine byRounds_restart (fun pos => byRounds_noted .unclocked ?_ ?_ fun _ _ _ => trivial)
    fun t w₁ _ kept => ?_
  · rw [passed_round]
    exact active'
  · rw [passed_round]
    exact idle'
  refine byRounds_then (byInner_handled (fun post => wp_handle i post _ _)
    (.tuned _ ⟨rfl, rfl, rfl, rfl, rfl, id, rfl⟩) ?_)
  refine byRounds_then (byInner_preempt (byRounds_then
    (byInner_probeWaiting fun rc' w₂ _ connection _ _ => ?_)))
  refine byRounds_then (byInner_self (byRounds_then
    (byInner_handled (fun post => wp_handle i post _ _)
    (.timeoutArmed _) (along_ite (fun _ => ?_) fun _ => along_pure trivial))))
  -- The handler that runs is the one that was just installed.
  have installed : ∀ (timer : Option Nat) c', ((w₂.setSelf (w₂.self.handle i
      { (w₂.self.peers i).probe with timeout := timer } [])).self.peers i).probe.connection =
        some c' → c.install (gen.conf i).checkType = c' := by
    intro timer c' current'
    rw [self_setSelf, handle_peers] at current'
    have same : (w₂.self.peers i).probe.connection = some c' := current'
    rw [connection, preempted_self, self_setSelf, handle_peers, kept.connection, held] at same
    exact Option.some.inj same
  apply byRounds_runHandler
  · intro tcp c' current' _
    rw [← installed _ c' current']
    refine install_watched fun udp => ?_
    simp [udp] at tcp
  · intro udp c' current' _
    rw [← installed _ c' current']
    refine install_served ?_
    by_contra tcp
    simp [tcp, Handler.udp] at udp

/-- A process that is about to ask for a new connection, with what it did before. -/
def World.asking (w : World) (i : Nat) (before : List IoEvent) (label : Option Errno) (pos : Nat) :
    World :=
  w.handled i { (w.self.peers i).probe with connection := none, error := label } before [] pos

/-- Without a connection a round fails, unless it is a UDP round. -/
theorem unnoted_unprepared {history : List IoEvent} (none : Unprepared i history) :
    Unnoted gen i history ((gen.conf i).checkType = .udp) := by
  -- The protocol decides the result.
  by_cases udp : (gen.conf i).checkType = .udp
  · rw [decide_eq_true udp]
    exact .success
  · rw [decide_eq_false udp]
    exact .unprepared udp none

/-- A connection that was asked for. -/
theorem unprepared_asked (w : World) (probe : Probe) (before : List IoEvent) (rs : List Nat)
    (pos : Nat) :
    Unprepared i ((w.handled i probe (.connecting i :: before) rs pos).self.history i) := by
  -- The event is the newest of the peer.
  refine .inl ⟨(before ++ w.self.io).filter fun event => event.peer = i, ?_⟩
  rw [handled_self]
  simp [Proc.handle, Proc.history, IoEvent.peer]

/-- A connection that is closed right after it was established. -/
theorem unprepared_closed {p : Proc} {before : List IoEvent} {label : Option Errno} {time : Nat} :
    Unprepared i (((p.connect i before label (some time)).close i).history i) := by
  -- The three events are the newest of the peer.
  refine .inr ⟨p.opened, time, (before ++ p.io).filter fun event => event.peer = i, ?_⟩
  simp [Proc.connect, Proc.close, Proc.handle, Proc.history, Proc.setPeer, Probe.closing,
    IoEvent.peer]

/-- The round goes on with a new connection, or it ends without one. -/
theorem wp_reconnect {before : List IoEvent} {label : Option Errno} {pos : Nat} {w : World}
    (how : Reconnects gen i (w.self.peers i).probe before)
    (active : (w.self.round i).active = true) (idle : (w.self.round i).pending = false)
    (confirmed : ¬ Lost i (w.self.history i)) :
    wp (reconnect gen i) (fun _ w' => RoundSteps gen w w' ∧ True)
      (w.asking i before label pos) := by
  have connects : ∀ (startTime : Option Nat) (pos : Nat),
      InnerStep gen w ((w.setSelf (w.self.connect i before label startTime)).passed [] pos w.locks) :=
    fun startTime pos => .alone _ _ _ _ (.connected i before label startTime how active confirmed)
  unfold reconnect
  dsimp only
  rw [wp_bind]
  refine wp_connectPeer (fun rc pos => ?_) (fun rc pos time => ?_)
  · -- Without a connection the round ends.
    rw [wp_bind, wp_self_handled]
    dsimp only
    rw [handle_peers]
    refine byRounds_resume (byRounds_run (.single (connects none pos)))
      (byRounds_finished (unnoted_unprepared (unprepared_asked w _ _ _ _)) ?_ ?_)
    · rw [handled_round]
      exact active
    · rw [handled_round]
      exact idle
  · rw [wp_bind, wp_self, passed_self, self_setSelf]
    dsimp only
    rw [got_peers]
    dsimp only
    rw [wp_bind, wp_reset]
    refine byRounds_resume (byRounds_run (.single (connects (some time) pos))) ?_
    have current : ((w.self.connect i before label (some time)).peers i).probe.connection =
        some { id := w.self.opened, startTime := time } := by
      simp [Proc.connect, Proc.handle, Proc.setPeer]
    have active' : ((w.self.connect i before label (some time)).round i).active = true := by
      simpa [Proc.connect, Proc.handle, Proc.setPeer, Proc.round] using active
    have idle' : ((w.self.connect i before label (some time)).round i).pending = false := by
      simpa [Proc.connect, Proc.handle, Proc.setPeer, Proc.round] using idle
    have checked : Checked i w.self.opened
        ((w.self.connect i before label (some time)).history i) := by
      refine .inl ⟨time, ?_⟩
      simp [Proc.connect, Proc.handle, Proc.history, sinceClaim, IoEvent.claim, IoEvent.peer]
    refine byRounds_then (byInner_ask (along_ite (fun failed => ?_) fun _ => ?_))
    · -- The options could not be set: the connection is given up.
      refine byRounds_then (byInner_probeClose
        (byRounds_finished (.unprepared (fun udp => ?_) ?_) ?_ ?_))
      · exact absurd (decide_eq_true udp) failed.1
      · rw [self_setSelf, passed_self, passed_self, self_setSelf]
        exact @unprepared_closed i w.self before label time
      · rw [self_setSelf, Proc.close, handle_round, passed_self, passed_self, self_setSelf]
        exact active'
      · rw [self_setSelf, Proc.close, handle_round, passed_self, passed_self, self_setSelf]
        exact idle'
    · apply byRounds_connected (c := { id := w.self.opened, startTime := time })
      · rw [passed_self, passed_self, self_setSelf]
        exact current
      · rw [passed_round, passed_round, self_setSelf]
        exact active'
      · rw [passed_round, passed_round, self_setSelf]
        exact idle'
      · rw [passed_self, passed_self, self_setSelf]
        exact checked

/-- A connection that is closed leaves the handled peer without one. -/
theorem wp_close_handled {w : World} {probe : Probe} {events : List IoEvent} {rs : List Nat}
    {pos : Nat} {post : Unit → World → Prop} {c : Connection}
      (current : probe.connection = some c) :
    wp (probeClose i) post (w.handled i probe events rs pos) ↔
      post () (w.handled i { probe with connection := none }
        (.closed i c.id :: events) rs pos) := by
  -- Both writes go to the same place.
  unfold probeClose
  rw [wp_bind, wp_self_handled]
  dsimp only
  rw [handle_peers, current]
  dsimp only
  rw [wp_bind, wp_modify_handled, wp_record_handled]

/-- A peek leaves a note of itself, and the error of one that fails. -/
theorem wp_peek_handled {w : World} {probe : Probe} {events : List IoEvent} {rs : List Nat}
    {pos connection : Nat} {site : PeekSite} {post : Bool → World → Prop}
    (passed : ∀ pos, post true
      (w.handled i probe (.peeked i site connection true :: events) rs pos))
    (failed : ∀ label pos, post false
      (w.handled i { probe with error := label }
        (.peeked i site connection false :: events) rs pos)) :
    wp (tcpPeek i connection site) post (w.handled i probe events rs pos) := by
  -- The peek is noted, and a failure leaves its label in the probe.
  unfold tcpPeek
  rw [wp_bind, wp_ask_handled]
  dsimp only
  rw [wp_bind, wp_record_handled, wp_ite]
  refine ⟨fun holds => ?_, fun fails => ?_⟩
  · rw [decide_eq_true holds, wp_pure]
    exact passed _
  · rw [decide_eq_false fails, wp_bind, wp_modify_handled, wp_pure]
    exact failed _ _

/-- A connection below its age limit, if there is one. -/
theorem young_of_kept {startTime currentMsec : Nat}
    (kept : ¬ ((gen.conf i).rehandshake ≠ 0 ∧
      connectionAge gen startTime currentMsec ≥ (gen.conf i).rehandshake)) :
    Young gen i startTime currentMsec :=
  -- The test of the source, the other way round.
  fun limited => Nat.lt_of_not_le fun old => kept ⟨limited, old⟩

/-- A preparation that the deadline does not stop uses the retained connection, or a new one. -/
theorem byRounds_prepare {w : World} (active : (w.self.round i).active = true)
    (idle : (w.self.round i).pending = false) (confirmed : ¬ Lost i (w.self.history i)) :
    byRounds gen (do
      expireConnection gen i
      match ((← self).peers i).probe.connection with
      | none => reconnect gen i
      | some connection =>
        if ← tcpPeek i connection.id .probeStart then connected gen i connection.id .ok
        else do
          probeClose i
          reconnect gen i) (fun _ _ => True) w := by
  unfold expireConnection byRounds along
  refine wp_from (i := i) w ?_
  rw [wp_bind, wp_bind, wp_ask_handled, wp_bind, wp_self_handled]
  dsimp only
  rw [handle_peers]
  cases current : (w.self.peers i).probe.connection with
  | none =>
    -- Nothing was retained.
    dsimp only
    rw [wp_pure, wp_bind, wp_self_handled]
    dsimp only
    rw [handle_peers, current]
    dsimp only
    have fresh : w.handled i (w.self.peers i).probe [] [] (w.pos + 1) =
        w.asking i [] (w.self.peers i).probe.error (w.pos + 1) := by
      rw [World.asking, closed_none current]
    rw [fresh]
    exact wp_reconnect (.fresh current) active idle confirmed
  | some c =>
    dsimp only
    rw [wp_bind, wp_record_handled, wp_ite]
    refine ⟨fun old => ?_, fun kept => ?_⟩
    · rw [wp_close_handled current, wp_bind, wp_self_handled]
      dsimp only
      rw [handle_peers]
      dsimp only
      exact wp_reconnect (.expired c current _) active idle confirmed
    · rw [wp_pure, wp_bind, wp_self_handled]
      dsimp only
      rw [handle_peers, current]
      dsimp only
      have young : Young gen i c.startTime (w.script w.pos).currentMsec := young_of_kept kept
      rw [wp_bind]
      refine wp_peek_handled (fun pos => ?_) (fun label pos => ?_)
      · rw [if_pos rfl]
        have peeked : InnerStep gen w (w.handled i (w.self.peers i).probe
            [.peeked i .probeStart c.id true, .aged i c.id (w.script w.pos).currentMsec] [] pos) :=
          innerStep_handled _ _ (.peeked c current _ young)
        refine byRounds_resume (byRounds_run (.single peeked))
          (byRounds_connected ?_ ?_ ?_ (.inr ?_))
        · rw [handled_peers]
          exact current
        · rw [handled_round]
          exact active
        · rw [handled_round]
          exact idle
        · rw [handled_self]
          simp [Proc.handle, Proc.history, sinceClaim, IoEvent.claim, IoEvent.peer]
      · -- The retained connection is broken: it is closed, and a new one is asked for.
        have held : ({ (w.self.peers i).probe with error := label } : Probe).connection = some c :=
          current
        rw [if_neg Bool.false_ne_true, wp_bind, wp_close_handled held]
        exact wp_reconnect (.failed c current _ young) active idle confirmed

/-- A running round whose outcome is open goes on with its preparation, or it is given up. -/
theorem byRounds_probeStart {w : World} (active : (w.self.round i).active = true)
    (idle : (w.self.round i).pending = false) :
    byRounds gen (probeStart gen i) (fun _ _ => True) w := by
  unfold probeStart
  refine byRounds_then (byInner_preempt (byRounds_then
    (byInner_probeValid (fun rc rs pos locks failed => ?_)
    fun rs pos locks _ _ => ?_)))
  · cases rc with
    | ok => exact absurd rfl failed
    | declined => exact byRounds_of_inner (byInner_trivial (byInner_giveUpRound (wp_endFirst i)))
    | error => exact along_pure trivial
    | again => exact along_pure trivial
  have active' : ((w.preempted.passed rs pos locks).self.round i).active = true := by
    rw [passed_round, preempted_self]
    exact active
  have idle' : ((w.preempted.passed rs pos locks).self.round i).pending = false := by
    rw [passed_round, preempted_self]
    exact idle
  generalize w.preempted.passed rs pos locks = w at active' idle' ⊢
  -- The ownership is confirmed, so the peer is not lost.
  refine byRounds_then (byInner_handled (fun post => wp_record i post w _) .confirmed ?_)
  have found : ¬ Lost i ((w.setSelf (w.self.handle i (w.self.peers i).probe
      [.confirmed i])).self.history i) := by
    rw [self_setSelf]
    simp [Lost, Proc.history, Proc.handle, IoEvent.peer, IoEvent.ownership]
  have active'' : ((w.setSelf (w.self.handle i (w.self.peers i).probe
      [.confirmed i])).self.round i).active = true := by
    rw [self_setSelf, handle_round]
    exact active'
  have idle'' : ((w.setSelf (w.self.handle i (w.self.peers i).probe
      [.confirmed i])).self.round i).pending = false := by
    rw [self_setSelf, handle_round]
    exact idle'
  generalize w.setSelf (w.self.handle i (w.self.peers i).probe [.confirmed i]) = w
    at found active'' idle'' ⊢
  refine byRounds_then (byInner_now (fun pos => along_pure trivial) fun t pos _ => ?_)
  refine byRounds_then (byInner_self (along_ite (fun _ => ?_) fun _ => ?_))
  · exact along_mono byRounds_timeout fun _ _ _ _ => trivial
  · refine byRounds_prepare ?_ ?_ ?_
    · rw [passed_round]
      exact active''
    · rw [passed_round]
      exact idle''
    · rw [passed_self]
      exact found

/-- An event that is ready runs its handler. -/
theorem byRounds_resumeEvent {handler : Connection → Handler} {w : World}
    (watched : ∀ c, handler c = .tcpEvent → c.Watched)
    (served : ∀ c, (handler c).udp = true → c.Served) :
    byRounds gen (resumeEvent gen i handler) (fun _ _ => True) w := by
  -- The event belongs to the connection that the probe has.
  unfold resumeEvent
  refine byRounds_then (byInner_ask (byRounds_then (byInner_self ?_)))
  cases current : ((w.passed [] (w.pos + 1) w.locks).self.peers i).probe.connection with
  | none => exact along_pure trivial
  | some c =>
    refine along_ite (fun _ => byRounds_runHandler (fun event c' held _ => ?_)
      fun event c' held _ => ?_) fun _ => along_pure trivial
    · rw [current] at held
      cases held
      exact watched c event
    · rw [current] at held
      cases held
      exact served c event

/-- A probe that is resumed takes round steps. -/
theorem byRounds_probeResume {w : World} (idle : (w.self.round i).pending = false) :
    byRounds gen (probeResume gen i) (fun _ _ => True) w := by
  -- It starts anew, times out or runs its handlers.
  unfold probeResume
  refine byRounds_then (byInner_self (along_ite (fun _ => along_pure trivial) fun active =>
    along_ite
    (fun _ => byRounds_probeStart (of_not_not active) idle) fun _ => ?_))
  refine byRounds_then (byInner_preempt (byRounds_then
    (byInner_probeWaiting fun _ w₁ _ _ _ _ => ?_)))
  have goesOn : ∀ (reading : Option Nat) (w : World) (deadline : Nat),
      byRounds gen (if reading.any fun t => milliseconds t ≥ deadline then timeout gen i
        else do
          resumeEvent gen i Connection.readHandler
          if ((← self).peers i).probe.round.active then resumeEvent gen i Connection.writeHandler)
        (fun _ _ => True) w := by
    intro reading w deadline
    refine along_ite (fun _ => along_mono byRounds_timeout fun _ _ _ _ => trivial) fun _ => ?_
    refine along_bind (along_mono (byRounds_resumeEvent (fun _ => .inl) fun _ => .inl)
      fun _ w' _ _ => ?_)
    exact byRounds_then (byInner_self (along_ite
      (fun _ => byRounds_resumeEvent (fun _ => .inr) fun _ => .inr)
      fun _ => along_pure trivial))
  exact byRounds_then (byInner_now (fun pos => goesOn none _ _) fun t pos _ => goesOn (some t) _ _)

/-- An event of a connection runs the handler installed for it. -/
theorem byRounds_connectionEvent {handler : Connection → Handler} {w : World}
    (watched : ∀ c, handler c = .tcpEvent → c.Watched)
    (served : ∀ c, (handler c).udp = true → c.Served) :
    byRounds gen (connectionEvent gen i handler) (fun _ _ => True) w := by
  -- The event belongs to the connection that the probe has.
  unfold connectionEvent
  refine byRounds_then (byInner_self ?_)
  cases current : (w.self.peers i).probe.connection with
  | none => exact along_pure trivial
  | some c =>
    refine byRounds_runHandler (fun event c' held _ => ?_) fun event c' held _ => ?_
    · rw [current] at held
      cases held
      exact watched c event
    · rw [current] at held
      cases held
      exact served c event

end Start

end Healthcheck
