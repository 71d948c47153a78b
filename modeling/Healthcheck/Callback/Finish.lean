import Healthcheck.Callback.Seat

/-!
The end of a round. Once its outcome is frozen the round is over: whatever the process still does
to the peer, a connection it holds is the one of that round, and it is kept only after a success
that was submitted at once.
-/

namespace Healthcheck

open Program

/-- An event that neither starts nor ends a round. -/
def IoEvent.inner : IoEvent → Bool
  | .claimed _ _ _ => false
  | .finished _ _ => false
  | .sampled _ _ _ => false
  | .submitted _ _ _ => false
  | _ => true

/-- An event inside of a round claims none. -/
theorem inner_claim {event : IoEvent} (i : Nat) (inner : event.inner = true) :
    event.claim i = none := by
  -- One case for each event.
  cases event <;> first | rfl | cases inner

/-- An event inside of a round is no outcome. -/
theorem inner_outcome {event : IoEvent} (i : Nat) (inner : event.inner = true) :
    event.outcome i = none := by
  -- One case for each event.
  cases event <;> first | rfl | cases inner

/-- A seat whose round is over stays so, with at most the connection it had. -/
structure Seat.Dozes (s s' : Seat) : Prop where
  active : s'.peer.probe.round.active = false
  pending : s'.peer.probe.round.pending = true → s.peer.probe.round.pending = true
  connection : ∀ c', s'.peer.probe.connection = some c' →
    ∃ c, s.peer.probe.connection = some c ∧ c'.id = c.id ∧ c.requests ≤ c'.requests ∧
      (c'.Watched → c.Watched)
  history : ∃ events, s'.history = events ++ s.history ∧ ∀ event ∈ events, event.inner = true

section Doze

variable {gen : Generation} {i : Nat}

/-- The routine of a probe is inside of a round. -/
theorem routine_inner {event : IoEvent} (routine : event.Routine i) : event.inner = true := by
  -- One case for each event.
  cases routine <;> rfl

/-- The end of a connection is inside of a round. -/
theorem closing_inner (probe : Probe) : ∀ event ∈ probe.closing i, event.inner = true :=
  fun event member => routine_inner (closing_routine i probe event member)

/-- What is noted right before the end of a round does not end it. -/
theorem noted_inner {probe : Probe} {history events : List IoEvent} {result : Bool}
    (noted : Noted gen i probe history result events) : ∀ event ∈ events, event.inner = true := by
  -- One case for each outcome.
  cases noted <;> simp [IoEvent.inner]

/-- What a process does to a probe on its own neither starts nor ends a round. -/
theorem step_inner {probe probe' : Probe} {history events : List IoEvent}
    (step : ProbeStep gen i probe history probe' events) :
    ∀ event ∈ events, event.inner = true := by
  -- The events of a step are routine, a datagram or an error.
  intro event member
  rcases step_routine i step event member with routine | ⟨whole, same⟩ | ⟨error, reading, same⟩
  · exact routine_inner routine
  · rw [same]
    rfl
  · rw [same]
    rfl

/-- A seat whose round is over dozes from the start. -/
theorem dozes_refl {s : Seat} (past : s.peer.probe.round.active = false) : s.Dozes s :=
  ⟨past, id, fun c' current => ⟨c', current, rfl, le_rfl, id⟩, [], rfl,
    fun _ member => by cases member⟩

/-- Two dozes make a longer one. -/
theorem dozes_trans {s s' s'' : Seat} (first : s.Dozes s') (second : s'.Dozes s'') :
    s.Dozes s'' := by
  -- The connection at the end is the one at the start, or none.
  refine ⟨second.active, fun pending => first.pending (second.pending pending), ?_, ?_⟩
  · intro c'' current
    obtain ⟨c', held, id', requests', watched'⟩ := second.connection c'' current
    obtain ⟨c, before, id, requests, watched⟩ := first.connection c' held
    exact ⟨c, before, id'.trans id, requests.trans requests', fun w => watched (watched' w)⟩
  · obtain ⟨events, grown, inner⟩ := first.history
    obtain ⟨events', grown', inner'⟩ := second.history
    refine ⟨events' ++ events, by rw [grown', grown, List.append_assoc], fun event member => ?_⟩
    exact (List.mem_append.mp member).elim (inner' event) (inner event)

/-- After its round a probe keeps its connection, or loses it. -/
theorem step_dozes {s : Seat} {probe' : Probe} {events : List IoEvent}
    (past : s.peer.probe.round.active = false)
    (step : ProbeStep gen i s.peer.probe s.history probe' events) :
    s.Dozes (s.handle probe' events) := by
  have grown : ∃ events', (s.handle probe' events).history = events' ++ s.history ∧
      ∀ event ∈ events', event.inner = true := ⟨events, rfl, step_inner step⟩
  -- A step that keeps the round and the connection, or that gives the connection up.
  have same : probe'.round = s.peer.probe.round →
      probe'.connection = s.peer.probe.connection → s.Dozes (s.handle probe' events) := by
    intro round connection
    refine ⟨?_, ?_, fun c' current => ?_, grown⟩
    · show probe'.round.active = false
      rw [round]
      exact past
    · show probe'.round.pending = true → _
      rw [round]
      exact id
    · change probe'.connection = some c' at current
      rw [connection] at current
      exact ⟨c', current, rfl, le_rfl, id⟩
  have gone : probe'.round.active = false →
      (probe'.round.pending = true → s.peer.probe.round.pending = true) →
      probe'.connection = none → s.Dozes (s.handle probe' events) := by
    intro active pending connection
    refine ⟨active, pending, fun c' current => ?_, grown⟩
    change probe'.connection = some c' at current
    rw [connection] at current
    cases current
  -- A step that changes the connection it keeps.
  have mapped : ∀ f : Connection → Connection, (∀ c, (f c).id = c.id) →
      (∀ c, c.requests ≤ (f c).requests) → (∀ c, (f c).Watched → c.Watched) →
      probe'.round = s.peer.probe.round → probe'.connection = s.peer.probe.connection.map f →
      s.Dozes (s.handle probe' events) := by
    intro f id requests watched round connection
    refine ⟨?_, ?_, fun c' current => ?_, grown⟩
    · show probe'.round.active = false
      rw [round]
      exact past
    · show probe'.round.pending = true → _
      rw [round]
      exact fun pending => pending
    · change probe'.connection = some c' at current
      rw [connection] at current
      obtain ⟨c, held, after⟩ := Option.map_eq_some_iff.mp current
      subst after
      exact ⟨c, held, id c, requests c, watched c⟩
  cases step with
  | tuned probe' tuned => exact same tuned.round tuned.connection
  | rested tcp =>
    refine mapped Connection.rest (fun _ => rfl) (fun _ => le_rfl) (fun c watched => ?_) rfl rfl
    rcases watched with read | write
    · cases read
    · cases write
  | prepared c current active checked =>
    rw [past] at active
    cases active
  | counted =>
    exact mapped (fun c => { c with requests := c.requests + 1 }) (fun _ => rfl)
      (fun c => Nat.le_succ c.requests) (fun _ watched => watched) rfl rfl
  | closed => exact gone past (fun pending => pending) rfl
  | lost => exact gone past (fun pending => pending) rfl
  | released pending fewer => exact gone rfl fewer rfl
  | overrun c current discarded events reads => exact gone past (fun pending => pending) rfl
  | _ => exact same rfl rfl

/-- An inner step does not wake a seat whose round is over. -/
theorem seatInnerStep_dozes {s s' : Seat} (past : s.peer.probe.round.active = false)
    (move : SeatInnerStep gen i s s') : s.Dozes s' := by
  -- A step that needs an active round is excluded.
  have quiet : s'.peer.probe = s.peer.probe → s'.history = s.history → s.Dozes s' := by
    intro probe history
    refine ⟨by rw [probe]; exact past, by rw [probe]; exact id, fun c' current => ?_,
      [], history, fun _ member => by cases member⟩
    rw [probe] at current
    exact ⟨c', current, rfl, le_rfl, id⟩
  cases move with
  | elsewhere => exact quiet rfl rfl
  | paced => exact quiet rfl rfl
  | unlisted => exact quiet rfl rfl
  | stoppedAgain => exact quiet rfl rfl
  | cleaned => exact quiet rfl rfl
  | timed => exact quiet rfl rfl
  | stopped below =>
    unfold Seat.stop
    dsimp only
    split
    · refine ⟨rfl, fun pending => ?_, fun c' current => ?_, _, rfl, closing_inner s.peer.probe⟩
      · cases pending
      · cases current
    · exact ⟨past, id, fun c' current => ⟨c', current, rfl, le_rfl, id⟩, [], rfl,
        fun _ member => by cases member⟩
  | handled probe events step => exact step_dozes past step
  | connected before error startTime how active confirmed =>
    rw [past] at active
    cases active
  | settled check =>
    refine ⟨past, fun pending => ?_, fun c' current => ⟨c', current, rfl, le_rfl, id⟩, [], rfl,
      fun _ member => by cases member⟩
    cases pending
  | _ =>
    exact ⟨past, id, fun c' current => ⟨c', current, rfl, le_rfl, id⟩, [], rfl,
      fun _ member => by cases member⟩

/-- A round that is over stays over until the peer is claimed again. -/
theorem seatInnerSteps_doze {s s' : Seat} (past : s.peer.probe.round.active = false)
    (run : SeatInnerSteps gen i s s') : s.Dozes s' := by
  -- Induction on the run.
  induction run with
  | refl => exact dozes_refl past
  | tail _ move ih => exact dozes_trans ih (seatInnerStep_dozes ih.active move)

/-- Inner steps of a process do not wake its seat either. -/
theorem byInner_doze {w w' : World} (run : InnerSteps gen w w')
    (past : (w.self.round i).active = false) : (w.self.seat i).Dozes (w'.self.seat i) :=
  seatInnerSteps_doze past (seatInnerSteps_of_inner run)

end Doze

section Cleanup

variable {gen : Generation} {i : Nat}

/-- A round's timer and its connection go once the round is over. -/
theorem byInner_probeDiscard {post : Unit → World → Prop} {w : World}
    (past : (w.self.round i).active = false)
    (holds : ∀ w', InnerSteps gen w w' → (w'.self.peers i).probe.connection = none → post () w') :
    byInner gen (probeDiscard i) post w := by
  -- The timer is stopped, and then the connection is closed.
  unfold probeDiscard
  refine along_bind (byInner_handled (fun post => wp_handle i post w _) (.timeoutEnded past) ?_)
  have ended : InnerStep gen w (w.setSelf (w.self.handle i
      { (w.self.peers i).probe with timeout := none } [])) :=
    innerStep_alone (.handled i _ _ (.timeoutEnded past))
  refine byInner_probeClose (holds _ (.tail (.single ended)
    (innerStep_alone (.handled i _ _ .closed))) ?_)
  rw [self_setSelf, Proc.close, handle_peers]

/-- Why a connection outlives its round. -/
structure Kept (gen : Generation) (i : Nat) (reusable : Bool) (c : Connection) : Prop where
  reusable : reusable = true
  tcp : (gen.conf i).checkType = .tcp
  keep : (gen.conf i).keepConnection = true
  resting : ¬ c.Watched

/-- A connection at rest is not watched. -/
theorem not_watched_rest (c : Connection) : ¬ c.rest.Watched := by
  -- Its handlers are the idle ones.
  rintro (read | write)
  · cases read
  · cases write

/-- After its round a connection is kept for the next one, or closed. -/
theorem byInner_probeCleanup {reusable : Bool} {w : World}
    (past : (w.self.round i).active = false) :
    byInner gen (probeCleanup gen i reusable) (fun _ w' =>
      ∀ c, (w'.self.peers i).probe.connection = some c → Kept gen i reusable c) w := by
  have closed : ∀ w' : World, (w'.self.peers i).probe.connection = none →
      ∀ c, (w'.self.peers i).probe.connection = some c → Kept gen i reusable c := by
    intro w' gone c current
    rw [gone] at current
    cases current
  unfold probeCleanup
  refine along_bind (byInner_self ?_)
  dsimp only
  cases current : (w.self.peers i).probe.connection with
  | none => exact byInner_probeDiscard past fun w' _ gone => closed w' gone
  | some connection =>
    refine along_bind (byInner_ask (along_ite
      (fun _ => byInner_probeDiscard ?_ fun w' _ gone => closed w' gone) fun kept => ?_))
    · rwa [passed_round]
    rw [not_or, not_or, not_or] at kept
    refine along_bind (byInner_handled (fun post => wp_handle i post _ _)
      (.timeoutEnded (by simpa [Proc.round] using past)) ?_)
    refine along_bind (byInner_ask (along_bind (byInner_ask (along_ite
      (fun _ => byInner_probeClose (closed _ ?_)) fun _ => ?_))))
    · simp [Proc.close]
    -- The idle handlers belong to TCP.
    refine along_bind (byInner_handled (fun post => wp_handle i post _ _)
      (.rested (of_not_not kept.2.2.1)) ?_)
    refine along_bind (byInner_ask (along_ite (fun _ => byInner_probeClose (closed _ ?_))
      fun _ => ?_))
    · simp [Proc.close]
    -- Whatever its idle event does, the connection keeps these handlers.
    refine along_bind (byInner_ask (along_mono (along_ite (fun _ => byInner_tcpIdle)
      fun _ => along_pure trivial) ?_))
    intro _ w' run _ c held
    obtain ⟨before, resting, _, _, watched⟩ :=
      (byInner_doze (i := i) run (by simpa [Proc.round] using past)).connection c held
    refine ⟨of_not_not kept.1, of_not_not kept.2.2.1, of_not_not kept.2.1, fun watches => ?_⟩
    simp only [Proc.seat, passed_self, self_setSelf, handle_peers, current, Option.map_some,
      Option.some.injEq] at resting
    rw [← resting] at watched
    exact not_watched_rest connection (watched watches)

/-- A process whose peer's round has been submitted, or at least it tried to. -/
def World.submitted (w : World) (i : Nat) (result : Bool) (rc : Rc) : World :=
  w.setSelf (w.self.handle i (w.self.peers i).probe [.submitted i result rc])

/-- The end of a round, from the moment its outcome is frozen: inner steps up to the result of the
submission, and then those of the cleanup. -/
structure Ending (gen : Generation) (i : Nat) (result : Bool) (w w' : World) : Prop where
  parts : ∃ rc w₁ w₂, InnerSteps gen w w₁ ∧ InnerSteps gen (w₁.submitted i result rc) w₂ ∧ w' = w₂ ∧
    (rc = .ok → (w₁.self.round i).pending = false) ∧
    ∀ c, (w'.self.peers i).probe.connection = some c →
      Kept gen i (rc = .ok && result) c ∧ 1 ≤ c.requests

/-- The cleanup after a submission, with the count of the rounds that used the connection. -/
theorem byInner_afterSubmission {result reusable : Bool} {w : World}
    (past : (w.self.round i).active = false) (success : reusable = true → result = true) :
    byInner gen (do
      if result then
        modifyProbe i fun probe =>
          { probe with connection := probe.connection.map fun c =>
              { c with requests := c.requests + 1 } }
      probeCleanup gen i reusable)
      (fun _ w' => ∀ c, (w'.self.peers i).probe.connection = some c →
        Kept gen i reusable c ∧ 1 ≤ c.requests) w := by
  cases result with
  | false =>
    -- A connection is not kept after a failure.
    refine along_mono (byInner_probeCleanup past) fun _ w' _ kept c current => ?_
    have reused := (kept c current).reusable
    exact absurd (success reused) Bool.false_ne_true
  | true =>
    refine along_bind (byInner_handled (fun post => wp_handle i post w _) .counted ?_)
    have past' : ((w.setSelf (w.self.handle i { (w.self.peers i).probe with
        connection := (w.self.peers i).probe.connection.map fun c =>
          { c with requests := c.requests + 1 } } [])).self.round i).active = false := by
      rw [self_setSelf, handle_round]
      exact past
    refine along_mono (byInner_probeCleanup past') fun _ w' run kept c current => ?_
    obtain ⟨before, held, _, requests, _⟩ := (byInner_doze run past').connection c current
    simp only [Proc.seat, self_setSelf, handle_peers] at held
    obtain ⟨first, _, counted⟩ := Option.map_eq_some_iff.mp held
    rw [← counted] at requests
    have used : 1 ≤ first.requests + 1 := Nat.le_add_left 1 first.requests
    exact ⟨kept c current, used.trans requests⟩

/-- The end of a round runs from the frozen outcome to the cleanup. -/
theorem wp_ending {result : Bool} {w : World} (past : (w.self.round i).active = false)
    (pending : (w.self.round i).pending = true) :
    wp (do
      preempt
      let rc ← settle gen i 0
      recordIo (.submitted i result rc)
      if result then
        modifyProbe i fun probe =>
          { probe with connection := probe.connection.map fun c =>
              { c with requests := c.requests + 1 } }
      probeCleanup gen i (rc = .ok && result)) (fun _ w' => Ending gen i result w w') w := by
  -- The submission is an inner step, the result is noted, the cleanup follows.
  have submission : byInner gen (do
      preempt
      settle gen i 0) (fun rc w₁ => (w₁.self.round i).active = false ∧
        (rc = .ok → (w₁.self.round i).pending = false)) w := by
    refine along_bind (byInner_preempt (byInner_settle (by rwa [preempted_self]) ?_))
    intro rc w₁ _ _ active settled
    rw [active, preempted_self]
    exact ⟨past, settled⟩
  rw [← bind_assoc, wp_bind]
  refine wp_mono submission fun rc w₁ reached => ?_
  obtain ⟨first, finished, settled⟩ := reached
  rw [wp_bind, wp_record i]
  have past' : ((w₁.submitted i result rc).self.round i).active = false := by
    rw [World.submitted, self_setSelf, handle_round]
    exact finished
  refine wp_mono (byInner_afterSubmission past' fun reused => (Bool.and_eq_true_iff.mp reused).2)
    fun _ w' reached => ?_
  exact ⟨rc, w₁, w', first, reached.1, rfl, settled, reached.2⟩

/-- The end of a round: its outcome is frozen, and the rest follows. -/
theorem finish_returned {result : Bool} {reason source : String} {error label : Option Errno}
    {events : List IoEvent} {rs : List Nat} {pos : Nat} {w w' : World}
    (noted : Noted gen i (w.self.peers i).probe (w.self.history i) result events)
    (active : (w.self.round i).active = true) (idle : (w.self.round i).pending = false)
    (returned : finish gen i result reason source error (w.noting i events label rs pos) =
      some ((), w')) :
    ∃ w₁, freeze gen i result reason source error (w.noting i events label rs pos) =
      some (true, w₁) ∧ AtomicStep gen w w₁ ∧ Ending gen i result w₁ w' := by
  -- The freeze went through, because the round was active and not yet pending.
  have round : (w.noting i events label rs pos).self.round i = w.self.round i := by
    rw [World.noting, passed_round, self_setSelf, Proc.note, handle_round]
    rfl
  have law : wp (finish gen i result reason source error) (fun _ w' => ∃ w₁,
      freeze gen i result reason source error (w.noting i events label rs pos) = some (true, w₁) ∧
        AtomicStep gen w w₁ ∧ Ending gen i result w₁ w') (w.noting i events label rs pos) := by
    unfold finish
    rw [wp_bind]
    have moment : wp (freeze gen i result reason source error) (fun froze w₁ => froze = true ∧
        (w₁.self.round i).active = false ∧ (w₁.self.round i).pending = true)
        (w.noting i events label rs pos) := by
      refine wp_freeze (fun past => ?_) (fun delay rs' pos' _ _ _ => ⟨rfl, ?_, ?_⟩)
      · rw [round, active, idle] at past
        exact (past.elim (fun ended => by cases ended) (fun waiting => by cases waiting))
      · rw [passed_round, self_setSelf, Proc.round, Proc.frozen]
        show ((Proc.setPeer _ i _).peers i).probe.round.active = false
        rw [setPeer_peers]
      · rw [passed_round, self_setSelf, Proc.round, Proc.frozen]
        show ((Proc.setPeer _ i _).peers i).probe.round.pending = true
        rw [setPeer_peers]
    refine wp_mono (wp_and (wp_returned _ _) moment) fun froze w₁ reached => ?_
    obtain ⟨frozen, same, past, pending⟩ := reached
    subst same
    rw [if_pos rfl]
    refine wp_mono (wp_ending past pending) fun _ w' ending => ?_
    exact ⟨w₁, frozen, .froze i result reason source error label events rs pos w₁ noted active idle
      frozen, ending⟩
  exact law () w' returned

/-- Inner steps are atomic ones. -/
theorem atomic_of_inner {w w' : World} (run : InnerSteps gen w w') : AtomicSteps gen w w' := by
  -- Induction on the run.
  induction run with
  | refl => exact .refl
  | tail _ move ih => exact ih.tail (.inner _ move)

/-- The end of a round consists of atomic steps. -/
theorem atomicSteps_ending {result : Bool} {w w' : World} (ending : Ending gen i result w w') :
    AtomicSteps gen w w' := by
  -- The inner steps before and after the submission.
  obtain ⟨rc, w₁, w₂, first, second, same, _⟩ := ending.parts
  subst same
  exact ((atomic_of_inner first).tail (.submitted i result rc)).trans (atomic_of_inner second)

/-- A round step is a number of atomic steps. -/
theorem atomic_of_round {w w' : World} (move : RoundStep gen w w') : AtomicSteps gen w w' := by
  -- Only a finish is more than one atomic step.
  cases move with
  | inner w' move => exact .single (.inner w' move)
  | claimed j takeover limit result w' running registered returned =>
    exact .single (.claimed j takeover limit result w' running registered returned)
  | finished j result reason source error label events rs pos w' noted active idle returned =>
    obtain ⟨w₁, _, froze, ending⟩ := finish_returned noted active idle returned
    exact .head froze (atomicSteps_ending ending)

/-- A run of round steps is one of atomic steps. -/
theorem atomic_of_rounds {w w' : World} (run : RoundSteps gen w w') : AtomicSteps gen w w' := by
  -- Induction on the run.
  induction run with
  | refl => exact .refl
  | tail _ move ih => exact ih.trans (atomic_of_round move)

end Cleanup

end Healthcheck
