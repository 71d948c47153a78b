import Healthcheck.Callback.Handle

/-! The closing and the idle events of a peer's connection, as inner steps. -/

namespace Healthcheck

open Program

section Primitives

variable {gen : Generation} {w : World}

/-- A change of the process alone is an inner step. -/
theorem innerStep_alone {proc : Proc} (change : Local gen w.self proc) : InnerStep gen w
    (w.setSelf proc) := by
  -- No answer of the environment is used up.
  have move := InnerStep.alone proc [] w.pos w.locks change
  rwa [show (w.setSelf proc).passed [] w.pos w.locks = w.setSelf proc from passed_nil _] at move

/-- An answer of the world is an inner step. -/
theorem byInner_ask {post : Answer → World → Prop}
    (holds : post (w.script w.pos) (w.passed [] (w.pos + 1) w.locks)) : byInner gen ask post w :=
  along_step ((wp_ask _ w).mpr ⟨.passed _ _ _, holds⟩)

/-- The question for the end of the worker is an inner step. -/
theorem byInner_quitting {post : Bool → World → Prop}
    (holds : post (w.script w.pos).quit (w.passed [] (w.pos + 1) w.locks)) :
    byInner gen quitting post w :=
  along_step ((wp_quitting _ w).mpr ⟨.passed _ _ _, holds⟩)

/-- Reading the process is no step. -/
theorem byInner_self {post : Proc → World → Prop} (holds : post w.self w) :
    byInner gen self post w :=
  along_still ((wp_self _ w).mpr ⟨rfl, holds⟩)

/-- Reading the world is no step. -/
theorem byInner_read {post : World → World → Prop} (holds : post w w) :
    byInner gen Program.read post w :=
  along_still ((wp_read _ w).mpr ⟨rfl, holds⟩)

/-- The clock makes an inner step, with or without a reading. -/
theorem byInner_now {post : Option Nat → World → Prop}
    (failed : ∀ pos, post none (w.passed [] pos w.locks))
    (reading : ∀ t pos, t ≤ uint64Max → post (some t) (w.passed [t] pos w.locks)) :
    byInner gen now post w :=
  -- Reading the clock changes no record.
  along_step (wp_now (fun pos => ⟨.passed _ _ _, failed pos⟩)
    fun t pos range => ⟨.passed _ _ _, reading t pos range⟩)

/-- A lock makes one, refused or taken. -/
theorem byInner_lock {mutex : Mutex} {limit : Nat} {post : Rc → World → Prop}
    (refused : ∀ rs pos, post .again (w.passed rs pos w.locks))
    (taken : ∀ rs pos, post .ok (w.passed rs pos (.acquired mutex :: w.locks))) :
    byInner gen (lock mutex limit) post w :=
  -- Taking a lock changes no record.
  along_step (wp_lock (fun rs pos => ⟨.passed _ _ _, refused rs pos⟩)
    fun rs pos => ⟨.passed _ _ _, taken rs pos⟩)

/-- The release of a lock is an inner step. -/
theorem byInner_unlock {mutex : Mutex} {post : Unit → World → Prop}
    (holds : post () (w.passed [] w.pos (.released mutex :: w.locks))) : byInner gen
    (unlock mutex) post w :=
  along_step ((wp_unlock mutex _ w).mpr ⟨.passed _ _ _, holds⟩)

/-- What runs in between is chosen by the script. -/
theorem wp_preempt {post : Unit → World → Prop} (holds : post () w.preempted) :
    wp preempt post w := by
  -- The process is stored as it is.
  have same : (((w.script w.pos).others w.sys).setProc w.me w.self) = w.preempted.sys := rfl
  simpa [preempt, World.passed, World.preempted, World.self, Sys.setProc] using holds

/-- What runs in between is an inner step. -/
theorem byInner_preempt {post : Unit → World → Prop} (holds : post () w.preempted) :
    byInner gen preempt post w :=
  along_step (wp_preempt ⟨.preempted, holds⟩)

/-- A change that concerns the process alone. -/
theorem byInner_local {x : Action Unit} {proc : Proc} {post : Unit → World → Prop}
    (does : ∀ post : Unit → World → Prop, wp x post w ↔ post () (w.setSelf proc))
    (change : Local gen w.self proc) (holds : post () (w.setSelf proc)) : byInner gen x post w :=
  -- The change is the only step.
  along_step ((does _).mpr ⟨innerStep_alone change, holds⟩)

/-- A change of one probe, which concerns the process alone. -/
theorem byInner_handled {x : Action Unit} {i : Nat} {probe : Probe} {events : List IoEvent}
    {post : Unit → World → Prop}
    (does : ∀ post : Unit → World → Prop, wp x post w ↔
      post () (w.setSelf (w.self.handle i probe events)))
    (step : ProbeStep gen i (w.self.peers i).probe (w.self.history i) probe events)
    (holds : post () (w.setSelf (w.self.handle i probe events))) : byInner gen x post w :=
  -- A step of the probe is a change of the process alone.
  byInner_local does (.handled i probe events step) holds

end Primitives

section InnerSteps

variable {gen : Generation} {w : World}

/-- A program goes on from where inner steps have led. -/
theorem byInner_resume {α : Type} {x : Action α} {post : α → World → Prop} {w' : World}
    (soFar : InnerSteps gen w w') (rest : byInner gen x post w') :
    wp x (fun a w'' => InnerSteps gen w w'' ∧ post a w'') w' :=
  -- The steps so far come first.
  wp_mono rest fun _ _ reached => ⟨soFar.trans reached.1, reached.2⟩

/-- An action in inner steps is one whatever it leaves. -/
theorem byInner_trivial {α : Type} {x : Action α} {post : α → World → Prop}
    (holds : byInner gen x post w) : byInner gen x (fun _ _ => True) w :=
  along_mono holds fun _ _ _ _ => trivial

/-- An exit is an operation of its own and keeps the stop. -/
theorem byInner_retire : byInner gen retire (fun _ w' =>
    w'.self.runtime.stopping = w.self.runtime.stopping) w := by
  -- The slot is marked or not.
  apply along_step
  refine wp_mono (wp_and (wp_returned retire w) (wp_retire (fun rs pos _ _ => ?_)
    (fun rs pos locks _ _ _ _ => ?_))) (fun _ w' reached =>
      ⟨.ran .retire w' trivial reached.1, reached.2⟩)
  · rw [passed_self]
  · show (World.passed _ rs pos locks).self.runtime.stopping = _
    rw [passed_self]
    rfl

/-- Stopping is one change of the process, and then the end of its registration. -/
theorem byInner_runtimeStop {post : Unit → World → Prop}
    (holds : ∀ w', InnerSteps gen w w' → w'.self.runtime.stopping = true → post () w') :
    byInner gen (runtimeStop gen) post w := by
  -- The flag is set, then the peers are stopped, then the slot is marked.
  have law : byInner gen (runtimeStop gen) (fun _ w' => w'.self.runtime.stopping = true) w := by
    unfold runtimeStop byInner along
    simp only [wp_bind, wp_self, wp_modifyRuntime, wp_ite, wp_pure, self_setSelf,
      setSelf_setSelf, wp_stopPeers]
    refine ⟨fun cleaned => ⟨.single (innerStep_alone (.stoppedAgain cleaned)), trivial⟩,
      fun _ => ?_⟩
    have stopped : InnerStep gen w (w.setSelf (w.self.stop gen)) := innerStep_alone .stopped
    have rest : byInner gen (do
        preempt
        retire
        modifyRuntime fun r => { r with cleaned := true })
          (fun _ w' => w'.self.runtime.stopping = true) (w.setSelf (w.self.stop gen)) := by
      refine along_bind (byInner_preempt (along_bind (along_mono byInner_retire ?_)))
      intro _ w' _ kept
      have stopping : w'.self.runtime.stopping = true := by
        rw [kept, preempted_self, self_setSelf, stop_runtime]
      exact byInner_local (fun post => wp_modifyRuntime _ post w') (.cleaned stopping)
        (by simpa using stopping)
    have whole := byInner_resume (.single stopped) rest
    simp only [wp_bind, wp_modifyRuntime, self_setSelf] at whole
    exact whole
  exact along_mono law fun _ w' => holds w'

/-- A process that does not stop goes on, one answer later. -/
theorem byInner_stopping {post : Bool → World → Prop}
    (stopped : ∀ w', InnerSteps gen w w' → w'.self.runtime.stopping = true → post true w')
    (going : ∀ pos, w.self.runtime.stopping = false → post false (w.passed [] pos w.locks)) :
    byInner gen (stopping gen) post w := by
  -- The process stops when it was stopping already, or when the worker quits.
  unfold stopping
  refine along_bind (byInner_self (along_bind
    (byInner_quitting (along_ite (fun _ => ?_) fun open_ => ?_))))
  · refine along_bind (byInner_runtimeStop fun w' run stops => along_pure (stopped w' ?_ stops))
    exact .head (.passed [] (w.pos + 1) w.locks) run
  · apply along_pure
    apply going
    simpa using fun stops => open_ (Or.inl stops)

/-- Two changes of the process in a row are one inner step. -/
theorem byInner_pair {x y : Action Unit} {α : Type} {f : Action α} {proc : Proc}
    {post : α → World → Prop}
    (does : ∀ post : Unit → World → Prop,
      wp (do x; y) post w ↔ post () (w.setSelf proc))
    (change : Local gen w.self proc) (holds : byInner gen f post (w.setSelf proc)) :
    byInner gen (do x; y; f) post w := by
  -- The two writes are one change of the process.
  have grouped : byInner gen ((do x; y) >>= fun _ => f) post w :=
    along_bind (byInner_local does change holds)
  rwa [bind_assoc] at grouped

/-- A validation is an inner step, refused or valid. -/
theorem byInner_probeValid {i : Nat} {post : Rc → World → Prop}
    (refused : ∀ rc rs pos locks, rc ≠ .ok → post rc (w.passed rs pos locks))
    (valid : ∀ rs pos locks, w.self.runtime.stopping = false → Owned gen w.sys w.self i →
      post .ok (w.passed rs pos locks)) : byInner gen (probeValid gen i) post w :=
  -- Reading the record changes nothing, and a valid round is owned.
  along_step (wp_probeValid
    (fun rc rs pos locks failed _ => ⟨.passed _ _ _, refused rc rs pos locks failed⟩)
    fun rs pos locks running owned _ => ⟨.passed _ _ _, valid rs pos locks running owned⟩)

/-- The end of a connection is a step of the probe. -/
theorem byInner_probeClose {i : Nat} {post : Unit → World → Prop}
    (holds : post () (w.setSelf (w.self.close i))) : byInner gen (probeClose i) post w :=
  byInner_handled (fun post => wp_probeClose i post w) .closed holds

/-- A result that is dropped leaves the outcome of a program. -/
theorem returned_dropped {α : Type} {x : Action α} {a : α} {w' : World}
    (returned : x w = some (a, w')) : (do let _ ← x) w = some ((), w') := by
  -- The result is thrown away.
  show (x w).bind _ = _
  rw [returned]
  rfl

/-- Publishing the progress of a round leaves its connection. -/
theorem byInner_probeWaiting {i : Nat} {post : Rc → World → Prop}
    (holds : ∀ rc w', InnerSteps gen w w' →
      (w'.self.peers i).probe.connection = (w.self.peers i).probe.connection →
      (w'.self.round i).active = (w.self.round i).active →
      (w'.self.round i).pending = (w.self.round i).pending → post rc w') :
    byInner gen (probeWaiting gen i) post w := by
  -- The publication is an operation of its own and keeps the round open.
  apply along_step
  have kept : wp (probeWaiting gen i) (fun _ w' =>
      (w'.self.peers i).probe.connection = (w.self.peers i).probe.connection ∧
        (w'.self.round i).active = (w.self.round i).active ∧
        (w'.self.round i).pending = (w.self.round i).pending) w := by
    refine wp_probeWaiting (fun _ rs pos _ _ => ?_) (fun rs pos _ _ _ _ => ?_)
      (fun rs pos _ _ _ _ => ?_)
    · simp [Proc.round]
    · simp [Proc.round, Proc.waitingPublished, Peer.setRound]
    · simp [Proc.round, Proc.waitingPublished, Peer.setRound]
  refine wp_mono (wp_and (wp_returned (probeWaiting gen i) w) kept) fun rc w' reached => ?_
  obtain ⟨returned, connection, active, pending⟩ := reached
  have move : InnerStep gen w w' := .ran (.probeWaiting i) w' trivial (returned_dropped returned)
  exact ⟨move, holds rc w' (.single move) connection active pending⟩

/-- A submission of a round that waits for it leaves its connection. -/
theorem byInner_settle {i limit : Nat} {post : Rc → World → Prop}
    (pending : (w.self.round i).pending = true)
    (holds : ∀ rc w', InnerSteps gen w w' →
      (w'.self.peers i).probe.connection = (w.self.peers i).probe.connection →
      (w'.self.round i).active = (w.self.round i).active →
      (rc = .ok → (w'.self.round i).pending = false) → post rc w') :
    byInner gen (settle gen i limit) post w := by
  -- A withdrawn round is not pending either.
  apply along_step
  have kept : wp (settle gen i limit) (fun rc w' =>
      (w'.self.peers i).probe.connection = (w.self.peers i).probe.connection ∧
        (w'.self.round i).active = (w.self.round i).active ∧
        (rc = .ok → (w'.self.round i).pending = false)) w := by
    refine wp_settle (fun _ rs pos _ failed _ => ?_) (fun rs pos _ => ?_)
      (fun t rs pos _ _ _ _ _ => ?_)
    · exact ⟨by simp, by rw [passed_round], fun ok => absurd ok failed⟩
    · simp [Proc.round, Proc.withdrawn, Peer.setRound]
    · simp [Proc.round, Proc.committed, Peer.setRound]
  refine wp_mono (wp_and (wp_returned (settle gen i limit) w) kept) fun rc w' reached => ?_
  obtain ⟨result, connection, active, settled⟩ := reached
  have returned : Op.run gen (.settle i limit) w = some ((), w') := by
    show (if (w.self.round i).pending = true then (do let _ ← settle gen i limit) else pure
      ()) w = _
    rw [if_pos pending]
    exact returned_dropped result
  have move : InnerStep gen w w' := .ran (.settle i limit) w' trivial returned
  exact ⟨move, holds rc w' (.single move) connection active settled⟩

end InnerSteps

section Connection

variable {gen : Generation}

/-- A process whose probe has discarded some bytes. -/
def Proc.drained (p : Proc) (i discarded : Nat) (events : List IoEvent) : Proc :=
  p.handle i { (p.peers i).probe with discarded := discarded } events

/-- A drained connection changes the count of its probe. -/
@[simp] theorem drained_peers (p : Proc) (i discarded : Nat) (events : List IoEvent) :
    (p.drained i discarded events).peers i =
      { p.peers i with probe := { (p.peers i).probe with discarded := discarded } } :=
  handle_peers p i _ events

/-- The events of a drained connection go in front of the earlier ones. -/
@[simp] theorem drained_record (p : Proc) (i discarded : Nat) (events : List IoEvent)
    (event : IoEvent) :
    { p.drained i discarded events with io := event :: (p.drained i discarded events).io } =
      p.drained i discarded (event :: events) := rfl

/-- A connection that is drained twice has the later count. -/
@[simp] theorem drained_drained (p : Proc) (i discarded discarded' : Nat)
    (events : List IoEvent) :
    (p.drained i discarded events).setPeer i { p.peers i with
      probe := { (p.peers i).probe with discarded := discarded' } } =
        p.drained i discarded' events := by
  -- Both writes go to the same place.
  simp [Proc.drained, Proc.handle, Proc.setPeer]

/-- The read loop goes on from where it is, or it leaves. -/
theorem wp_idleLoop {i connection start : Nat} (fuel : Nat) {w : World} {count pos : Nat}
    {events : List IoEvent} {post : Bool → World → Prop}
    (before : Drains gen i connection start none count events)
    (left : ∀ close count events pos, Drains gen i connection start (some close) count events →
      post close ((w.setSelf (w.self.drained i count events)).passed [] pos w.locks)) :
    wp (idleLoop gen i connection fuel) post
      ((w.setSelf (w.self.drained i count events)).passed [] pos w.locks) := by
  -- Induction on the fuel; every pass extends what the loop has done.
  induction fuel generalizing count events pos with
  | zero => exact wp_diverge _ _
  | succ fuel ih =>
    unfold idleLoop
    simp only [wp_bind, wp_self, wp_ask, wp_recordIo, wp_ite, wp_modifyProbe, wp_pure, passed_self,
      self_setSelf, List.nil_append, passed_passed, setSelf_passed, setSelf_setSelf,
      passed_script, passed_pos, setSelf_script, drained_record, drained_peers, drained_drained,
      setPeer_peers, passed_locks, setSelf_locks]
    generalize (w.script pos).result = result
    refine ⟨fun received => ⟨fun beyond => ?_, fun within => ?_⟩, fun nothing => ⟨fun again => ?_,
      fun _ => ⟨fun kept => ?_, fun _ => ?_⟩⟩⟩
    · have bytes : min result (idleReadSize gen count : Int) =
          ((min result (idleReadSize gen count : Int)).toNat : Int) := by omega
      rw [bytes]
      refine left true _ _ _ (.exceeded before _ ?_ ?_ beyond)
      all_goals omega
    · have bytes : min result (idleReadSize gen count : Int) =
          ((min result (idleReadSize gen count : Int)).toNat : Int) := by omega
      rw [bytes]
      refine ih (.received before _ ?_ ?_ (by omega))
      all_goals omega
    · rw [again.1]
      exact ih (.interrupted before)
    · rw [kept.1]
      exact left false _ _ _ (.kept before)
    · exact left true _ _ _ (.failed before _ (by omega))

/-- The read loop of an idle connection, and the end it may put to it. -/
theorem byInner_drain {i : Nat} (fuel : Nat) {w : World} {c : Connection}
    (current : (w.self.peers i).probe.connection = some c) :
    byInner gen (do
      if ← idleLoop gen i c.id fuel then probeClose i) (fun _ _ => True) w := by
  -- The loop as a whole is a step of the probe, by the passes it made.
  apply along_step
  have start : (w.setSelf (w.self.drained i (w.self.peers i).probe.discarded [])).passed [] w.pos
      w.locks = w := by
    rw [Proc.drained, handle_self, setSelf_self, passed_nil]
  have loop : wp (idleLoop gen i c.id fuel) (fun close w' =>
      wp (if close then probeClose i else pure ()) (fun _ w'' => InnerStep gen w w'' ∧ True) w')
      ((w.setSelf (w.self.drained i (w.self.peers i).probe.discarded [])).passed [] w.pos
        w.locks) := by
    refine wp_idleLoop fuel .start ?_
    intro close count events pos reads
    cases close with
    | false =>
      simp only [Bool.false_eq_true, if_false, wp_pure, and_true]
      exact .alone _ _ _ _ (.handled i _ _ (.drained c current count events reads))
    | true =>
      simp only [if_true, wp_probeClose, passed_self, self_setSelf, List.nil_append, setSelf_passed,
        setSelf_setSelf, and_true]
      have closed : (w.self.drained i count events).close i = w.self.handle i
          { (w.self.peers i).probe with connection := none, discarded := count }
          (.closed i c.id :: events) := by
        have held : ({ (w.self.peers i).probe with discarded := count } : Probe).connection =
          some c :=
          current
        rw [Proc.close, drained_peers, Proc.drained, handle_handle, closing_some i held]
        rfl
      rw [closed]
      exact .alone _ _ _ _ (.handled i _ _ (.overrun c current count events reads))
  rw [start] at loop
  rw [wp_bind]
  exact loop

/-- The loss of a peer closes its connection. -/
theorem byInner_lost {α : Type} {i : Nat} {f : Action α} {post : α → World → Prop} {w : World}
    (holds : byInner gen f post (w.setSelf (w.self.handle i
      { (w.self.peers i).probe with connection := none }
      ((w.self.peers i).probe.closing i ++ [.lost i])))) :
    byInner gen (do
      recordIo (.lost i)
      probeClose i
      f) post w := by
  -- The two actions are one step of the probe.
  refine byInner_pair (fun post => ?_) (.handled i _ _ .lost) holds
  rw [wp_bind, wp_record, wp_probeClose, self_setSelf, setSelf_setSelf, Proc.close,
    handle_handle, handle_peers]

/-- The handler of a retained connection consists of inner steps. -/
theorem byInner_tcpIdle {i connection : Nat} {w : World} :
    byInner gen (tcpIdle gen i connection) (fun _ _ => True) w := by
  unfold tcpIdle
  refine along_bind (byInner_self (along_ite (fun _ => along_pure trivial) fun current => ?_))
  refine along_bind (byInner_quitting (along_ite (fun _ => byInner_runtimeStop fun _ _ _ => trivial)
    fun _ => ?_))
  refine along_bind (byInner_ask (along_ite (fun _ => byInner_probeClose trivial) fun _ => ?_))
  have rest : ∀ (rc : Rc) (w : World),
      (w.self.peers i).probe.connection.map Connection.id = some connection →
      byInner gen (if rc = .declined then do
          recordIo (.lost i)
          probeClose i
        else do
          let answer ← ask
          if ← idleLoop gen i connection answer.random then probeClose i) (fun _ _ => True) w := by
    intro rc w current
    obtain ⟨c, held, id⟩ := Option.map_eq_some_iff.mp current
    subst id
    refine along_ite (fun _ => ?_) fun _ => along_bind (byInner_ask ?_)
    · have lost : byInner gen (do
          recordIo (.lost i)
          probeClose i
          pure ()) (fun _ _ => True) w := byInner_lost (along_pure trivial)
      simpa only [bind_pure_unit] using lost
    · exact byInner_drain _ (by simpa using held)
  -- Neither the other processes nor the check of the round change the connection.
  refine along_bind (byInner_preempt (along_bind
    (byInner_probeValid (fun rc rs pos _ _ => rest rc _ ?_)
    fun rs pos _ _ _ => rest .ok _ ?_)))
  · simpa using current
  · simpa using current

end Connection

end Healthcheck
