import Healthcheck.Callback.Finish
import Healthcheck.Protocol.Start

/-! The timers and the I/O events of a running round, as round steps. -/

namespace Healthcheck

open Program

/-- A round of a peer runs on this connection, and its outcome is open. -/
structure Ready (i connection : Nat) (p : Proc) : Prop where
  current : (p.peers i).probe.connection.map Connection.id = some connection
  active : (p.round i).active = true
  idle : (p.round i).pending = false

/-- A round runs on a connection with the handlers of the UDP check. -/
structure Serving (i connection : Nat) (p : Proc) : Prop extends Ready i connection p where
  served : ∃ c, (p.peers i).probe.connection = some c ∧ c.Served

/-- A running round has its timer. -/
def Timed (i : Nat) (p : Proc) : Prop :=
  (p.round i).active = true → (p.round i).pending = false → p.runtime.stopping = false →
    (p.peers i).probe.timeout.isSome = true

section RoundSteps

variable {gen : Generation} {i : Nat}

/-- What consists of inner steps consists of round steps. -/
theorem byRounds_of_inner {α : Type} {x : Action α} {post : α → World → Prop} {w : World}
    (holds : byInner gen x post w) : byRounds gen x post w :=
  along_lift (fun _ _ move => .single (.inner _ move)) holds

/-- A run of inner steps is one of round steps. -/
theorem byRounds_run {w w' : World} (run : InnerSteps gen w w') : RoundSteps gen w w' := by
  -- Induction on the run.
  induction run with
  | refl => exact .refl
  | tail _ move ih => exact ih.tail (.inner _ move)

/-- A program that begins with inner steps. -/
theorem byRounds_then {α β : Type} {x : Action β} {f : β → Action α} {post : α → World → Prop}
    {w : World} (first : byInner gen x (fun b w' => byRounds gen (f b) post w') w) :
    byRounds gen (x >>= f) post w :=
  -- The inner steps of the first part come before the round steps of the second.
  along_bind (byRounds_of_inner first)

/-- A program goes on from where round steps have led. -/
theorem byRounds_resume {α : Type} {x : Action α} {post : α → World → Prop} {w w' : World}
    (soFar : RoundSteps gen w w') (rest : byRounds gen x post w') :
    wp x (fun a w'' => RoundSteps gen w w'' ∧ post a w'') w' :=
  -- The steps so far come first.
  wp_mono rest fun _ _ reached => ⟨soFar.trans reached.1, reached.2⟩

/-- A round is over once it has ended. -/
theorem ending_past {result : Bool} {w w' : World} (past : (w.self.round i).active = false)
    (ending : Ending gen i result w w') : (w'.self.round i).active = false := by
  -- The inner steps after the freeze do not wake the round.
  obtain ⟨rc, w₁, w₂, first, second, same, _⟩ := ending.parts
  subst same
  have submitted : (w₁.submitted i result rc).self.round i = w₁.self.round i := by
    rw [World.submitted, self_setSelf, handle_round]
    rfl
  have finished : (w₁.self.round i).active = false := (byInner_doze first past).active
  rw [← submitted] at finished
  exact (byInner_doze second finished).active

/-- The end of a round is one round step, and then the round is over. -/
theorem wp_finish {result : Bool} {reason source : String} {error label : Option Errno}
    {events : List IoEvent} {rs : List Nat} {pos : Nat} {w : World} (post : Unit → World → Prop)
    (noted : Noted gen i (w.self.peers i).probe (w.self.history i) result events)
    (active : (w.self.round i).active = true) (idle : (w.self.round i).pending = false)
    (finished : ∀ w', RoundSteps gen w w' → (w'.self.round i).active = false → post () w') :
    wp (finish gen i result reason source error) (fun _ w' => RoundSteps gen w w' ∧ post () w')
      (w.noting i events label rs pos) := by
  -- The finish is a single round step.
  intro _ w' returned
  obtain ⟨w₁, frozen, _, ending⟩ := finish_returned noted active idle returned
  have move : RoundStep gen w w' :=
    .finished i result reason source error label events rs pos w' noted active idle returned
  obtain ⟨_, _, _, _, after⟩ := freeze_returned frozen
  have past : (w₁.self.round i).active = false := by
    rw [after, passed_round, self_setSelf, Proc.round, Proc.frozen]
    show ((Proc.setPeer _ i _).peers i).probe.round.active = false
    rw [setPeer_peers]
  exact ⟨.single move, finished w' (.single move) (ending_past past ending)⟩

/-- A finish consists of round steps, whatever it leaves. -/
theorem wp_finished {result : Bool} {reason source : String} {error label : Option Errno}
    {events : List IoEvent} {rs : List Nat} {pos : Nat} {w : World}
    (noted : Noted gen i (w.self.peers i).probe (w.self.history i) result events)
    (active : (w.self.round i).active = true) (idle : (w.self.round i).pending = false) :
    wp (finish gen i result reason source error) (fun _ w' => RoundSteps gen w w' ∧ True)
      (w.noting i events label rs pos) :=
  -- Nothing more is asked of the round that was finished.
  wp_finish (fun _ _ => True) noted active idle fun _ _ _ => trivial

/-- Nothing has to be noted before a round ends. -/
theorem noting_nothing (w : World) :
    w.noting i [] (w.self.peers i).probe.error [] w.pos = w := by
  -- The probe is stored as it is, and no time passes.
  have same : w.self.note i [] (w.self.peers i).probe.error = w.self := by
    rw [Proc.note]
    exact handle_self w.self i
  rw [World.noting, same, setSelf_self, passed_nil]

/-- A round ends without a note of its own. -/
theorem byRounds_finish {result : Bool} {reason source : String} {error : Option Errno} {w : World}
    {post : Unit → World → Prop} (why : Unnoted gen i (w.self.history i) result)
    (active : (w.self.round i).active = true) (idle : (w.self.round i).pending = false)
    (finished : ∀ w', RoundSteps gen w w' → (w'.self.round i).active = false → post () w') :
    byRounds gen (finish gen i result reason source error) post w := by
  -- Nothing was noted before the outcome.
  have ended : wp (finish gen i result reason source error)
    (fun _ w' => RoundSteps gen w w' ∧ post () w')
      (w.noting i [] (w.self.peers i).probe.error [] w.pos) :=
    wp_finish post (.plain result why) active idle finished
  rwa [noting_nothing] at ended

/-- A finish of an open round takes round steps, whatever follows it. -/
theorem byRounds_finished {result : Bool} {reason source : String} {error : Option Errno}
    {w : World}
    (why : Unnoted gen i (w.self.history i) result)
    (active : (w.self.round i).active = true) (idle : (w.self.round i).pending = false) :
    byRounds gen (finish gen i result reason source error) (fun _ _ => True) w :=
  -- Nothing is asked of what the finish leaves.
  byRounds_finish why active idle fun _ _ _ => trivial

/-- A single note before the end of a round. -/
theorem wp_record_noting {event : IoEvent} {post : Unit → World → Prop} {w : World} :
    wp (recordIo event) post w ↔
      post () (w.noting i [event] (w.self.peers i).probe.error [] w.pos) := by
  -- The label of the probe is left as it is.
  have same : w.noting i [event] (w.self.peers i).probe.error [] w.pos =
      w.setSelf (w.self.handle i (w.self.peers i).probe [event]) := by
    rw [World.noting]
    exact passed_nil _
  rw [wp_record i, same]

/-- A round ends right after a note. -/
theorem byRounds_noted {result : Bool} {event : IoEvent} {reason source : String}
    {error : Option Errno} {w : World} {post : Unit → World → Prop}
    (noted : Noted gen i (w.self.peers i).probe (w.self.history i) result [event])
    (active : (w.self.round i).active = true) (idle : (w.self.round i).pending = false)
    (finished : ∀ w', RoundSteps gen w w' → (w'.self.round i).active = false → post () w') :
    byRounds gen (do
      recordIo event
      finish gen i result reason source error) post w := by
  -- The note is a part of the end.
  unfold byRounds along
  rw [wp_bind, wp_record_noting (i := i)]
  exact wp_finish post noted active idle finished

/-- A round whose deadline was reached is a success for UDP only. -/
theorem byRounds_expired {t : Nat} {w : World} {post : Unit → World → Prop}
    (active : (w.self.round i).active = true) (idle : (w.self.round i).pending = false)
    (finished : ∀ w', RoundSteps gen w w' → (w'.self.round i).active = false → post () w') :
    byRounds gen (do
      recordIo (.expired i t)
      if (gen.conf i).checkType = .udp then
        finish gen i true "deadline without confirmed failure" "timer" none
      else finish gen i false "tcp timeout" "timer" none) post w := by
  -- The protocol decides the result.
  have noted : Noted gen i (w.self.peers i).probe (w.self.history i)
      ((gen.conf i).checkType = .udp) [.expired i t] := .expired t
  by_cases udp : (gen.conf i).checkType = .udp
  · rw [decide_eq_true udp] at noted
    simp only [if_pos udp]
    exact byRounds_noted noted active idle finished
  · rw [decide_eq_false udp] at noted
    simp only [if_neg udp]
    exact byRounds_noted noted active idle finished

/-- A round that is not the process's own any more is given up, with its timer and connection. -/
theorem byInner_giveUp {x : Action Unit} {still : Bool → Bool} {w : World}
    {post : Unit → World → Prop}
    (does : ∀ (post : Unit → World → Prop) (w : World), wp x post w ↔
      post () (w.setSelf (w.self.release i (still (w.self.round i).pending))))
    (fewer : ∀ pending, still pending = true → pending = true)
    (finished : ∀ w', InnerSteps gen w w' → w'.sys.shared = w.sys.shared →
      w'.self.runtime = w.self.runtime → w'.self.pid = w.self.pid →
      w'.self.round i = { w.self.round i with
        active := false, pending := still (w.self.round i).pending } → post () w') :
    byInner gen (do
      recordIo (.lost i)
      x) post w := by
  -- The loss closes the connection, and the rest of the probe follows.
  let lost := w.self.handle i { (w.self.peers i).probe with connection := none }
    ((w.self.peers i).probe.closing i ++ [.lost i])
  have first : InnerStep gen w (w.setSelf lost) := innerStep_alone (.handled i _ _ .lost)
  have round : lost.round i = w.self.round i := handle_round w.self i _ _
  have second : InnerStep gen (w.setSelf lost)
      (w.setSelf (lost.release i (still (lost.round i).pending))) := by
    have released : InnerStep gen (w.setSelf lost)
        ((w.setSelf lost).setSelf (lost.release i (still (lost.round i).pending))) := by
      refine innerStep_alone ?_
      rw [self_setSelf]
      exact .handled i _ _ (.released _ (fewer _))
    rwa [setSelf_setSelf] at released
  have same : (w.self.handle i (w.self.peers i).probe [IoEvent.lost i]).release i
      (still ((w.self.handle i (w.self.peers i).probe [IoEvent.lost i]).round i).pending) =
        lost.release i (still (lost.round i).pending) := by
    unfold lost
    simp only [Proc.release, handle_handle, handle_peers, handle_round, Probe.closing,
      Option.map_none, Option.toList_none, List.nil_append]
  unfold byInner along
  rw [wp_bind, wp_record i, does, self_setSelf, setSelf_setSelf, same]
  refine ⟨.tail (.single first) second, finished _ (.tail (.single first) second) rfl ?_ ?_ ?_⟩
  · rw [self_setSelf]
    rfl
  · rw [self_setSelf]
    rfl
  · rw [self_setSelf, Proc.release, handle_round, round]

/-- A round that is given up because its peer was lost is over. -/
theorem byInner_giveUpRound {x : Action Unit} {w : World}
    (does : ∀ (post : Unit → World → Prop) (w : World), wp x post w ↔
      post () (w.setSelf (w.self.release i (w.self.round i).pending))) :
    byInner gen (do
      recordIo (.lost i)
      x) (fun _ w' => (w'.self.round i).active = false) w := by
  -- The note and the release are one step of the probe.
  have same : ∀ (post : Unit → World → Prop) (w : World), wp x post w ↔
      post () (w.setSelf (w.self.release i (id (w.self.round i).pending))) := does
  refine byInner_giveUp same (fun _ => id) ?_
  intro w' _ _ _ _ round
  rw [round]

/-- A timeout that is set is an inner step. -/
theorem byInner_armTimeout {delay : Nat} {w : World} {post : Unit → World → Prop}
    (armed : ∀ w', InnerSteps gen w w' → (w'.self.peers i).probe.timeout.isSome = true →
    post () w') :
    byInner gen (armTimeout gen i delay) post w := by
  -- The timer is a field of the probe.
  unfold armTimeout
  refine byInner_handled (fun post => wp_handle i post w _) (.timeoutArmed _) (armed _ (.single
    (innerStep_alone (.handled i _ _ (.timeoutArmed (timerDelay gen delay))))) ?_)
  rw [self_setSelf, handle_peers]
  rfl

/-- While other processes run, and while the ownership of the peer is looked at, its round stays as
it is. -/
theorem byRounds_valid {α : Type} {f : Rc → Action α} {post : α → World → Prop} {w : World}
    (active : (w.self.round i).active = true) (idle : (w.self.round i).pending = false)
    (each : ∀ rc w', (w'.self.round i).active = true → (w'.self.round i).pending = false →
      byRounds gen (f rc) post w') :
    byRounds gen (do
      preempt
      let rc ← probeValid gen i
      f rc) post w := by
  -- Each return code leaves the round as it is.
  refine byRounds_then (byInner_preempt (byRounds_then (byInner_probeValid
    (fun rc rs pos _ _ => each rc _ ?_ ?_) fun rs pos _ _ _ => each .ok _ ?_ ?_)))
  all_goals
    rw [passed_round, preempted_self]
    assumption

/-- Whatever `timeout` finds, a round that still runs has its timer afterwards. -/
theorem byRounds_timeout {w : World} : byRounds gen (timeout gen i)
    (fun _ w' => Timed i w'.self) w := by
  -- The round is lost, it is finished, or its timer is set again.
  have past : ∀ w' : World, (w'.self.round i).active = false → Timed i w'.self := by
    intro w' finished active
    rw [finished] at active
    cases active
  have armed : ∀ w' : World, (w'.self.peers i).probe.timeout.isSome = true → Timed i w'.self :=
    fun w' timer _ _ _ => timer
  unfold timeout
  refine byRounds_then (byInner_self (along_ite (fun closed => ?_) fun opened => ?_))
  · apply along_pure
    intro active idle _
    rcases closed with past | pending
    · exact absurd active past
    · rw [Proc.round, pending] at idle
      cases idle
  rw [not_or, not_not, Bool.not_eq_true] at opened
  obtain ⟨active, idle⟩ := opened
  refine byRounds_then (byInner_quitting (along_ite (fun _ => ?_) fun _ => ?_))
  · refine byRounds_of_inner (byInner_runtimeStop fun w' _ stopped _ _ running => ?_)
    rw [stopped] at running
    cases running
  refine byRounds_valid (by rw [passed_round]; exact active) (by rw [passed_round]; exact idle)
    fun rc w' active idle => along_ite (fun _ => ?_) fun _ => ?_
  · exact byRounds_of_inner (along_mono (byInner_giveUpRound (wp_endFirst i))
      fun _ w' _ finished => past w' finished)
  refine byRounds_then (byInner_now (fun pos => ?_) fun t pos _ => ?_)
  · exact byRounds_of_inner (byInner_armTimeout fun w' _ timer => armed w' timer)
  refine byRounds_then (byInner_self (along_ite (fun _ => ?_) fun _ => ?_))
  · exact byRounds_of_inner (byInner_armTimeout fun w' _ timer => armed w' timer)
  · exact byRounds_expired (by rwa [passed_round]) (by rwa [passed_round])
      fun w' _ finished => past w' finished

/-- An event of a connection goes on only in the running round of that connection. -/
theorem byRounds_ioReady {connection : Nat} {w : World} :
    byRounds gen (ioReady gen i connection) (fun ready w' => ready = true →
      Ready i connection w'.self ∧ w'.self.peers i = w.self.peers i) w := by
  -- The event is ready only if its round is still owned.
  have refused : ∀ w' : World, false = true →
      Ready i connection w'.self ∧ w'.self.peers i = w.self.peers i :=
    fun _ impossible => by cases impossible
  unfold ioReady
  refine byRounds_then (byInner_self (along_ite (fun _ => along_pure (refused w)) fun opened => ?_))
  rw [not_or, not_not, not_or, not_not, Bool.not_eq_true] at opened
  obtain ⟨current, active, idle⟩ := opened
  refine byRounds_then (byInner_quitting (along_ite (fun _ => ?_) fun _ => ?_))
  · exact byRounds_then (byInner_runtimeStop fun w' _ _ => along_pure (refused w'))
  refine byRounds_then (byInner_preempt (byRounds_then
    (byInner_probeValid (fun rc rs pos locks failed => ?_)
    fun rs pos locks _ _ => ?_)))
  · cases rc with
    | ok => exact absurd rfl failed
    | declined =>
      have given : byRounds gen ((do
          recordIo (.lost i)
          (do
            probeDiscard i
            modifyRound i fun round => { round with active := false })) >>= fun _ => pure false)
          (fun ready w' => ready = true →
            Ready i connection w'.self ∧ w'.self.peers i = w.self.peers i)
          (((w.passed [] (w.pos + 1) w.locks).preempted).passed rs pos locks) :=
        along_bind (along_mono (byRounds_of_inner (byInner_giveUpRound (wp_discardFirst i)))
          fun _ w' _ _ => along_pure (refused w'))
      simpa only [bind_assoc] using given
    | error => exact along_pure (refused _)
    | again => exact along_pure (refused _)
  · refine byRounds_then (byInner_now (fun pos => along_pure (refused _)) fun t pos _ => ?_)
    refine byRounds_then (byInner_self (along_ite (fun _ => ?_) fun _ => ?_))
    · exact along_bind (along_mono byRounds_timeout fun _ w' _ _ => along_pure (refused w'))
    · refine along_pure fun _ => ⟨?_, ?_⟩
      · rw [passed_self, passed_self, preempted_self, passed_self]
        exact ⟨current, active, idle⟩
      · rw [passed_self, passed_self, preempted_self, passed_self]

/-- A peek leaves a note of itself, and perhaps its error. -/
theorem wp_tcpPeek {connection : Nat} {site : PeekSite} {post : Bool → World → Prop} {w : World}
    (peeked : ∀ passed label pos, post passed
      (w.noting i [.peeked i site connection passed] label [] pos)) :
    wp (tcpPeek i connection site) post w := by
  -- The peek is noted, and a failure leaves its label in the probe.
  unfold tcpPeek
  simp only [wp_bind, wp_ask, wp_record i, wp_ite, wp_pure, wp_handle, setSelf_passed, passed_self,
    self_setSelf, List.nil_append, setSelf_setSelf, handle_peers, handle_handle]
  refine ⟨fun passed => ?_, fun failed => ?_⟩
  · have note := peeked true (w.self.peers i).probe.error (w.pos + 1)
    rw [decide_eq_true passed]
    exact note
  · rw [decide_eq_false failed]
    exact peeked false _ (w.pos + 1)

/-- A TCP round ends with the peek of its connection. -/
theorem byRounds_tcpEvent {connection : Nat} {w : World}
    (watched : ∀ c, (w.self.peers i).probe.connection = some c → c.id = connection → c.Watched) :
    byRounds gen (tcpEvent gen i connection) (fun _ _ => True) w := by
  -- An event that is ready peeks and finishes the round.
  unfold tcpEvent
  refine along_bind (along_mono byRounds_ioReady fun ready w' _ reached => ?_)
  refine along_ite (fun passed => ?_) fun _ => along_pure trivial
  obtain ⟨⟨current, active, idle⟩, peer⟩ := reached passed
  obtain ⟨c, held, id⟩ := Option.map_eq_some_iff.mp current
  have watches : c.Watched := watched c (by rw [← peer]; exact held) id
  subst id
  unfold along
  rw [wp_bind]
  refine wp_tcpPeek fun passed label pos => ?_
  have noted : Noted gen i (w'.self.peers i).probe
    (w'.self.history i) passed [.peeked i .tcpEvent c.id passed] :=
    .peeked c passed held watches
  cases passed with
  | true => exact wp_finished noted active idle
  | false =>
    simp only [Bool.false_eq_true, if_false, wp_bind, wp_self]
    exact wp_finished noted active idle

end RoundSteps

section Udp

variable {gen : Generation} {i : Nat}

/-- The world right after something was done to a peer's probe. -/
def World.handled (w : World) (i : Nat) (probe : Probe) (events : List IoEvent) (rs : List Nat)
    (pos : Nat) : World :=
  (w.setSelf (w.self.handle i probe events)).passed rs pos w.locks

/-- A handled peer is one inner step, with the time it took. -/
theorem innerStep_handled {w : World} {probe : Probe} {events : List IoEvent} (rs : List Nat)
    (pos : Nat)
    (step : ProbeStep gen i (w.self.peers i).probe (w.self.history i) probe events) :
    InnerStep gen w (w.handled i probe events rs pos) :=
  .alone _ rs pos w.locks (.handled i probe events step)

/-- A handled peer has its new probe. -/
theorem handled_probe (w : World) (probe : Probe) (events : List IoEvent) (rs : List Nat)
    (pos : Nat) : ((w.handled i probe events rs pos).self.peers i).probe = probe := by
  -- The readings are no part of it.
  rw [World.handled, passed_self, self_setSelf]
  show ((w.self.handle i probe events).peers i).probe = probe
  rw [handle_peers]

/-- A handled peer has the round of its new probe. -/
theorem handled_round (w : World) (probe : Probe) (events : List IoEvent) (rs : List Nat)
    (pos : Nat) : (w.handled i probe events rs pos).self.round i = probe.round := by
  rw [Proc.round, handled_probe]

/-- A world in which nothing was done to the probe yet. -/
theorem handled_start (w : World) : w.handled i (w.self.peers i).probe [] [] w.pos = w := by
  -- Nothing was written and no time has passed.
  rw [World.handled, handle_self, setSelf_self, passed_nil]

/-- An action may be seen as one that starts at a handled peer. -/
theorem wp_from {α : Type} {x : Action α} {post : α → World → Prop} (w : World)
    (holds : wp x post (w.handled i (w.self.peers i).probe [] [] w.pos)) : wp x post w := by
  -- Nothing was handled yet.
  rwa [handled_start] at holds

section Code

variable (w : World) (probe : Probe) (events : List IoEvent) (rs : List Nat) (pos : Nat)

/-- The process of a handled peer, with its readings. -/
theorem handled_self : (w.handled i probe events rs pos).self =
    { w.self.handle i probe events with readings := rs ++ w.self.readings } := by
  -- Both writes go to the same place.
  rw [World.handled, passed_self, self_setSelf]
  rfl

/-- The peer of a handled peer has the new probe. -/
theorem handled_peers : ((w.handled i probe events rs pos).self.peers i).probe = probe :=
  handled_probe w probe events rs pos

/-- An answer moves the script on and keeps the peer handled. -/
theorem wp_ask_handled (post : Answer → World → Prop) :
    wp ask post (w.handled i probe events rs pos) ↔
      post (w.script pos) (w.handled i probe events rs (pos + 1)) := by
  -- Only the position changes.
  rw [wp_ask]
  simp [World.handled]

/-- An event goes in front of those of the handled peer. -/
theorem wp_record_handled (event : IoEvent) (post : Unit → World → Prop) :
    wp (recordIo event) post (w.handled i probe events rs pos) ↔
      post () (w.handled i probe (event :: events) rs pos) := by
  -- Both writes go to the same place.
  rw [wp_recordIo]
  simp [World.handled, World.passed, World.setSelf, World.self, Sys.setProc, Proc.handle,
    Proc.setPeer]

/-- A later write of the probe is one with the earlier. -/
theorem wp_modify_handled (f : Probe → Probe) (post : Unit → World → Prop) :
    wp (modifyProbe i f) post (w.handled i probe events rs pos) ↔
      post () (w.handled i (f probe) events rs pos) := by
  -- Both writes go to the same place.
  rw [wp_modifyProbe]
  simp [World.handled, World.passed, World.setSelf, World.self, Sys.setProc, Proc.handle,
    Proc.setPeer]

/-- A process reads itself as it was handled. -/
theorem wp_self_handled (post : Proc → World → Prop) :
    wp self post (w.handled i probe events rs pos) ↔
      post { w.self.handle i probe events with readings := rs ++ w.self.readings }
        (w.handled i probe events rs pos) := by
  rw [wp_self, handled_self]

/-- The clock adds its reading to the handled peer. -/
theorem wp_now_handled {post : Option Nat → World → Prop}
    (failed : ∀ pos, post none (w.handled i probe events rs pos))
    (reading : ∀ t pos, post (some t) (w.handled i probe events (t :: rs) pos)) :
    wp now post (w.handled i probe events rs pos) := by
  -- Time passes after the write.
  have passed : ∀ rs' pos', (w.handled i probe events rs pos).passed rs' pos' w.locks =
      w.handled i probe events (rs' ++ rs) pos' := fun rs' pos' => passed_passed _ _ _ _ _ _ _
  refine wp_now (fun pos' => ?_) (fun t pos' _ => ?_)
  · rw [show (w.handled i probe events rs pos).locks = w.locks from rfl, passed]
    exact failed pos'
  · rw [show (w.handled i probe events rs pos).locks = w.locks from rfl, passed]
    exact reading t pos'

end Code

/-- An error of a UDP socket: it ends the round, or the round goes on and waits. -/
theorem byRounds_udpError {source : String} {error : Errno} {connection : Nat} {w : World}
    (ready : Serving i connection w.self) :
    byRounds gen (udpError gen i source error) (fun goOn w' => goOn = true →
      Serving i connection w'.self) w := by
  have finished : ∀ w' : World, false = true → Serving i connection w'.self :=
    fun _ impossible => by cases impossible
  obtain ⟨⟨current, active, idle⟩, served⟩ := ready
  -- The round goes on to its end when the error was no evidence of a failure.
  have ends : ∀ (reading : Option Nat) (rs : List Nat) (pos : Nat) (reason source : String)
      (label : Option Errno), ¬ (w.self.peers i).probe.Refused error reading →
      wp (do
        finish gen i true reason source label
        return false) (fun goOn w' => RoundSteps gen w w' ∧
          (goOn = true → Serving i connection w'.self))
        (w.handled i (w.self.peers i).probe [.udpError i error reading] rs pos) := by
    intro reading rs pos reason source label unconfirmed
    have erred : InnerStep gen w (w.handled i
      (w.self.peers i).probe [.udpError i error reading] rs pos) :=
      innerStep_handled rs pos (.erred error reading unconfirmed)
    refine byRounds_resume (byRounds_run (.single erred))
      (along_bind (byRounds_finish .success ?_ ?_
      fun w' _ _ => along_pure (finished w')))
    · rw [handled_round]
      exact active
    · rw [handled_round]
      exact idle
  unfold udpError byRounds along
  refine wp_from (i := i) w ?_
  rw [wp_bind]
  refine wp_now_handled w _ _ _ _ (fun pos => ?_) (fun t pos => ?_)
  · rw [wp_bind, wp_record_handled, wp_bind, wp_self_handled]
    refine ends none _ pos _ _ _ fun refused => ?_
    obtain ⟨_, _, t, read, _⟩ := refused
    cases read
  · rw [wp_bind, wp_record_handled, wp_bind, wp_self_handled]
    dsimp only
    rw [handle_peers, wp_ite, wp_ite, wp_ite]
    refine ⟨fun late => ends _ _ pos _ _ _ fun refused => ?_, fun early => ⟨fun confirmed => ?_,
      fun unconfirmed => ⟨fun _ => ends _ _ pos _ _ _ fun refused => ?_, fun _ => ?_⟩⟩⟩
    · obtain ⟨_, _, t', read, before⟩ := refused
      cases read
      exact absurd late (Nat.not_le_of_lt before)
    · -- The one error that counts as a failure.
      obtain ⟨attempted, refusal⟩ := confirmed
      rw [refusal, wp_bind]
      have noted : Noted gen i (w.self.peers i).probe (w.self.history i) false
          [.udpError i .econnrefused (some t)] :=
        .refused t ⟨attempted, rfl, t, rfl, Nat.lt_of_not_le early⟩ served
      show wp _ _ (w.noting i _ (w.self.peers i).probe.error [t] pos)
      refine wp_mono (wp_finished noted active idle) fun _ w' reached => ?_
      rw [wp_pure]
      exact ⟨reached.1, finished w'⟩
    · exact unconfirmed ⟨refused.1, refused.2.1⟩
    · -- Any other error is noted, and the round goes on.
      have erred : InnerStep gen w (w.handled i
        (w.self.peers i).probe [.udpError i error (some t)] [t]
          pos) :=
        innerStep_handled _ _ (.erred error (some t) fun refused => unconfirmed
          ⟨refused.1, refused.2.1⟩)
      refine byRounds_resume (byRounds_run (.single erred))
        (along_bind (byRounds_of_inner (byInner_handled
        (fun post => wp_handle i post _ _) (.tuned _ ⟨rfl, rfl, rfl, rfl, rfl, id, rfl⟩)
        (along_pure fun _ => ⟨⟨?_, ?_, ?_⟩, ?_⟩))))
      · rw [self_setSelf, handle_peers, handled_peers]
        exact current
      · rw [self_setSelf, handle_round, handled_peers]
        exact active
      · rw [self_setSelf, handle_round, handled_peers]
        exact idle
      · rw [self_setSelf, handle_peers, handled_peers]
        exact served

/-- A change of labels and flags leaves the round where it is. -/
theorem ready_handled {connection : Nat} {w : World} {probe : Probe} {events : List IoEvent}
    {rs : List Nat} {pos : Nat} (ready : Serving i connection w.self)
    (round : probe.round = w.self.round i)
    (same : probe.connection = (w.self.peers i).probe.connection) :
    Serving i connection (w.handled i probe events rs pos).self := by
  -- The round and the connection are the ones before.
  refine ⟨⟨?_, ?_, ?_⟩, ?_⟩
  · rw [handled_peers, same]
    exact ready.current
  · rw [handled_round, round]
    exact ready.active
  · rw [handled_round, round]
    exact ready.idle
  · rw [handled_peers, same]
    exact ready.served

/-- A connection that is served stays so when its peer is handled without time. -/
theorem World.setSelf_ready {connection : Nat} (w : World) {probe : Probe} {events : List IoEvent}
    (ready : Serving i connection w.self) (round : probe.round = w.self.round i)
    (same : probe.connection = (w.self.peers i).probe.connection) :
    Serving i connection (w.setSelf (w.self.handle i probe events)).self := by
  -- The round and the connection are the ones before.
  refine ⟨⟨?_, ?_, ?_⟩, ?_⟩
  · rw [self_setSelf, handle_peers, same]
    exact ready.current
  · rw [self_setSelf, handle_round, round]
    exact ready.active
  · rw [self_setSelf, handle_round, round]
    exact ready.idle
  · rw [self_setSelf, handle_peers, same]
    exact ready.served

/-- An event that goes on in a round goes on with the connection it found. -/
theorem serving_ready {connection : Nat} {w w' : World} (ready : Ready i connection w'.self)
    (peer : w'.self.peers i = w.self.peers i)
    (served : ∀ c, (w.self.peers i).probe.connection = some c → c.id = connection → c.Served) :
    Serving i connection w'.self := by
  -- The test of the event leaves the peer alone.
  obtain ⟨c, held, id⟩ := Option.map_eq_some_iff.mp ready.current
  exact ⟨ready, c, held, served c (by rw [← peer]; exact held) id⟩

/-- The events of a socket that waits for a reply; a failed registration ends the round. -/
theorem byRounds_waitEvents {connection : Nat} {w : World} (ready : Serving i connection w.self) :
    byRounds gen (do
      if (← ask).flag ∧ ¬ (← ask).eventOk then
        finish gen i true "event removal failed" "event" none
      else if ¬ (← ask).eventOk then
        finish gen i true "read event registration failed" "event" none) (fun _ _ => True) w := by
  -- Either failure finishes the round.
  refine byRounds_then (byInner_ask (byRounds_then
    (byInner_ask (along_ite (fun _ => ?_) fun _ => ?_))))
  · refine byRounds_finished .success ?_ ?_
    · rw [passed_round, passed_round]
      exact ready.active
    · rw [passed_round, passed_round]
      exact ready.idle
  · refine byRounds_then (byInner_ask (along_ite (fun _ => ?_) fun _ => along_pure trivial))
    refine byRounds_finished .success ?_ ?_
    · rw [passed_round, passed_round, passed_round]
      exact ready.active
    · rw [passed_round, passed_round, passed_round]
      exact ready.idle

/-- A datagram that was sent waits for its reply in round steps. -/
theorem byRounds_udpWaitReply {connection : Nat} {w : World} (ready : Serving i connection w.self) :
    byRounds gen (udpWaitReply gen i) (fun _ _ => True) w := by
  -- The probe is written, and then the events are changed.
  unfold udpWaitReply
  refine byRounds_then (byInner_handled (fun post => wp_handle i post _ _)
    (.tuned _ ⟨rfl, rfl, rfl, rfl, rfl, (fun sending => by cases sending), rfl⟩) ?_)
  exact byRounds_waitEvents (w.setSelf_ready ready rfl rfl)

/-- The send loop ends the round, or it leaves it waiting for an event. -/
theorem byRounds_sendLoop {connection : Nat} (left : Nat) {w : World}
    (ready : Serving i connection w.self) (sending : (w.self.peers i).probe.sending = true) :
    byRounds gen (sendLoop gen i connection left) (fun rest w' => rest.isSome = true →
      Serving i connection w'.self) w := by
  have gone : ∀ w' : World, (none : Option Nat).isSome = true → Serving i connection w'.self :=
    fun _ impossible => by cases impossible
  -- Induction on the retries that are left.
  induction left generalizing w with
  | zero => exact along_pure fun _ => ready
  | succ left ih =>
    unfold sendLoop byRounds along
    refine wp_from (i := i) w ?_
    rw [wp_bind, wp_modify_handled, wp_bind, wp_ask_handled]
    dsimp only
    rw [wp_bind, wp_record_handled, wp_ite]
    refine ⟨fun whole => ?_, fun part => ?_⟩
    · -- The whole datagram was sent, and nothing more is sent in this round.
      rw [whole]
      unfold udpWaitReply
      rw [wp_bind, wp_modify_handled, wp_bind, wp_bind, wp_modify_handled]
      have sent : InnerStep gen w (w.handled i { (w.self.peers i).probe with
          attempted := true, sent := true, sending := false, stage := "wait reply" }
          [.sent i true] [] (w.pos + 1)) := innerStep_handled _ _ (.sent _ sending)
      refine wp_mono (byRounds_resume (byRounds_run (.single sent))
        (byRounds_waitEvents (ready_handled ready rfl rfl))) fun _ w' reached => ?_
      rw [wp_pure]
      exact ⟨reached.1, gone w'⟩
    · rw [Bool.eq_false_iff.mpr part]
      have attempted : InnerStep gen w (w.handled i
        { (w.self.peers i).probe with attempted := true }
          [.sent i false] [] (w.pos + 1)) := innerStep_handled _ _ (.attempted sending)
      have ready' : Serving i connection (w.handled i
        { (w.self.peers i).probe with attempted := true }
          [.sent i false] [] (w.pos + 1)).self := ready_handled ready rfl rfl
      have sending' : ((w.handled i { (w.self.peers i).probe with attempted := true }
          [.sent i false] [] (w.pos + 1)).self.peers i).probe.sending = true := by
        rw [handled_peers]
        exact sending
      refine byRounds_resume (byRounds_run (.single attempted)) ?_
      refine along_ite (fun _ => ?_) fun _ => along_ite (fun _ => ?_) fun _ => along_ite
        (fun _ => ?_) fun _ => along_pure fun _ => ready'
      · exact along_bind (byRounds_finish .success ready'.active ready'.idle
          fun w' _ _ => along_pure (gone w'))
      · refine along_bind (along_mono byRounds_ioReady fun go w' _ reached => ?_)
        refine along_ite (fun passed => ?_) fun _ => along_pure (gone w')
        obtain ⟨again, peer⟩ := reached passed
        exact ih ⟨again, by rw [peer]; exact ready'.served⟩ (by rw [peer]; exact sending')
      · refine along_bind (along_mono (byRounds_udpError ready') fun goOn w' _ reached => ?_)
        refine along_ite (fun passed => ?_) fun _ => along_pure (gone w')
        exact along_bind (along_mono (byRounds_udpWaitReply (reached passed))
          fun _ w'' _ _ => along_pure (gone w''))

/-- A UDP socket that is writable sends in round steps. -/
theorem byRounds_udpWrite {connection : Nat} {w : World}
    (served : ∀ c, (w.self.peers i).probe.connection = some c → c.id = connection → c.Served) :
    byRounds gen (udpWrite gen i connection) (fun _ _ => True) w := by
  -- The event is ready, and then the attempts are made.
  unfold udpWrite
  refine along_bind (along_mono byRounds_ioReady fun go w' _ reached => ?_)
  refine along_ite (fun passed => ?_) fun _ => along_pure trivial
  obtain ⟨ready, peer⟩ := reached passed
  refine byRounds_then (byInner_self (along_ite (fun sending => ?_) fun _ => along_pure trivial))
  refine along_bind (along_mono (byRounds_sendLoop 8 (serving_ready ready peer served) sending)
    fun rest w'' _ waits => ?_)
  match rest with
  | none => exact along_pure trivial
  | some 0 => exact along_pure trivial
  | some (n + 1) =>
    have ready := waits rfl
    refine byRounds_then (byInner_ask (along_ite (fun _ => ?_) fun _ => along_pure trivial))
    exact byRounds_finished .success (by rw [passed_round]; exact ready.active)
      (by rw [passed_round]; exact ready.idle)

/-- Passing time keeps a connection served. -/
theorem ready_passed {connection : Nat} {w : World} {rs : List Nat} {pos : Nat}
    {locks : List LockEvent} (ready : Serving i connection w.self) :
    Serving i connection (w.passed rs pos locks).self := by
  -- The readings are no part of the peer.
  rw [passed_self]
  exact ⟨⟨ready.current, ready.active, ready.idle⟩, ready.served⟩

/-- The query of the pending error ends the round, or it has an answer. -/
theorem byRounds_socketErrorLoop {connection : Nat} (left : Nat) {w : World}
    (ready : Serving i connection w.self) :
    byRounds gen (socketErrorLoop gen i connection left) (fun answer w' => answer.isSome = true →
      Serving i connection w'.self) w := by
  have gone : ∀ w' : World, (none : Option (Option Errno)).isSome = true →
      Serving i connection w'.self := fun _ impossible => by cases impossible
  -- Induction on the retries that are left.
  induction left generalizing w with
  | zero => exact along_pure (gone w)
  | succ left ih =>
    unfold socketErrorLoop
    have ready' : Serving i connection (w.passed [] (w.pos + 1) w.locks).self := ready_passed ready
    refine byRounds_then (byInner_ask (along_ite (fun _ => along_pure fun _ => ready') fun _ =>
      along_ite (fun _ => ?_) fun _ => ?_))
    · exact along_bind (byRounds_finish .success ready'.active ready'.idle
        fun w' _ _ => along_pure (gone w'))
    · refine along_bind (along_mono byRounds_ioReady fun go w' _ reached => ?_)
      refine along_ite (fun passed => ?_) fun _ => along_pure (gone w')
      obtain ⟨again, peer⟩ := reached passed
      exact ih ⟨again, by rw [peer]; exact ready'.served⟩

/-- The receive loop ends the round, or it waits for the next event. -/
theorem byRounds_receiveLoop {connection : Nat} (left : Nat) {w : World}
    (ready : Serving i connection w.self) :
    byRounds gen (receiveLoop gen i connection left) (fun waits w' => waits = true →
      Serving i connection w'.self) w := by
  -- Induction on the attempts.
  have gone : ∀ w' : World, false = true → Serving i connection w'.self :=
    fun _ impossible => by cases impossible
  induction left generalizing w with
  | zero => exact along_pure (gone w)
  | succ left ih =>
    unfold receiveLoop
    have ready' : Serving i connection (w.passed [] (w.pos + 1) w.locks).self := ready_passed ready
    refine byRounds_then (byInner_ask (along_ite (fun _ => ?_) fun _ => along_ite
      (fun _ => ?_) fun _ =>
      along_ite (fun _ => byRounds_udpError ready') fun _ => along_pure fun _ => ready'))
    · exact along_bind (byRounds_finish .success ready'.active ready'.idle
        fun w' _ _ => along_pure (gone w'))
    · refine along_bind (along_mono byRounds_ioReady fun go w' _ reached => ?_)
      refine along_ite (fun passed => ?_) fun _ => along_pure (gone w')
      obtain ⟨again, peer⟩ := reached passed
      exact ih ⟨again, by rw [peer]; exact ready'.served⟩

/-- A UDP socket that is readable receives in round steps. -/
theorem byRounds_udpRead {connection : Nat} {w : World}
    (served : ∀ c, (w.self.peers i).probe.connection = some c → c.id = connection → c.Served) :
    byRounds gen (udpRead gen i connection) (fun _ _ => True) w := by
  -- The reply is only looked for when no pending error ended the round.
  have receives : ∀ (goOn : Bool) (w : World), (goOn = true → Serving i connection w.self) →
      byRounds gen (do
        if goOn then
          if ← receiveLoop gen i connection 8 then
            if ¬ (← ask).eventOk then
              finish gen i true "read event registration failed" "event" none)
        (fun _ _ => True) w := by
    intro goOn w ready
    refine along_ite (fun passed => ?_) fun _ => along_pure trivial
    refine along_bind (along_mono (byRounds_receiveLoop 8 (ready passed))
      fun waits w' _ still => ?_)
    refine along_ite (fun waiting => ?_) fun _ => along_pure trivial
    have ready' := still waiting
    refine byRounds_then (byInner_ask (along_ite (fun _ => ?_) fun _ => along_pure trivial))
    exact byRounds_finished .success (by rw [passed_round]; exact ready'.active)
      (by rw [passed_round]; exact ready'.idle)
  unfold udpRead
  refine along_bind (along_mono byRounds_ioReady fun go w' _ reached => ?_)
  refine along_ite (fun passed => ?_) fun _ => along_pure trivial
  obtain ⟨ready, peer⟩ := reached passed
  refine along_bind (along_mono (byRounds_socketErrorLoop 8 (serving_ready ready peer served))
    fun answer w'' _ answered => ?_)
  match answer with
  | none => exact along_pure trivial
  | some none => exact along_bind (along_pure (receives true _ answered))
  | some (some error) =>
    exact along_bind (along_mono (byRounds_udpError (answered rfl)) fun goOn w₃ _ ready =>
      receives goOn w₃ ready)

/-- An event of a connection runs the handler that was installed for it. -/
theorem byRounds_runHandler {connection : Nat} {handler : Handler} {w : World}
    (watched : handler = .tcpEvent →
      ∀ c, (w.self.peers i).probe.connection = some c → c.id = connection → c.Watched)
    (served : handler.udp = true →
      ∀ c, (w.self.peers i).probe.connection = some c → c.id = connection → c.Served) :
    byRounds gen (runHandler gen i connection handler) (fun _ _ => True) w := by
  -- One case for each handler.
  cases handler with
  | unset => exact along_pure trivial
  | tcpEvent => exact byRounds_tcpEvent (watched rfl)
  | tcpIdle => exact byRounds_of_inner byInner_tcpIdle
  | udpRead => exact byRounds_udpRead (served rfl)
  | udpWrite => exact byRounds_udpWrite (served rfl)
  | idleWrite => exact along_pure trivial

end Udp

end Healthcheck
