import Healthcheck.Callback.Steady

/-! The start of a process, its claims and its watch, as round steps. -/

namespace Healthcheck

open Program

/-- A peer whose record and registration name the process has its timer. -/
def Tended (i : Nat) (w : World) : Prop :=
  Keeps w.sys w.self i → (w.self.peers i).checkEv.isSome = true

/-- A process that goes on has its watch. -/
def Watching (w : World) : Prop :=
  w.self.runtime.stopping = false → w.self.runtime.watch.isSome = true

/-- Round steps led from one world to another, and at some moment on the way something held. -/
def Passes (gen : Generation) (holds : World → Prop) (w w' : World) : Prop :=
  ∃ mid, RoundSteps gen w mid ∧ holds mid ∧ RoundSteps gen mid w'

/-- Ownership depends on the shared memory, the registration and the round the process knows. -/
theorem keeps_congr {s s' : Sys} {p p' : Proc} {i : Nat} (shared : s'.shared = s.shared)
    (runtime : p'.runtime = p.runtime) (pid : p'.pid = p.pid)
    (round : (p'.round i).inst = (p.round i).inst ∧ (p'.round i).term = (p.round i).term ∧
      (p'.round i).number = (p.round i).number)
    (keeps : Keeps s' p' i) : Keeps s p i := by
  -- The record, the slot and the identity of the round are the same.
  have record : s'.record i = s.record i := by rw [Sys.record, shared, Sys.record]
  obtain ⟨running, registered, registration, worker, inst, named, term, number⟩ := keeps
  rw [runtime] at running registered worker inst
  rw [record] at worker inst named term number
  rw [round.1] at named
  rw [round.2.1] at term
  rw [round.2.2] at number
  exact ⟨running, registered, (registered_congr shared runtime pid).mp registration, worker, inst,
    named, term, number⟩

section Passes

variable {gen : Generation}

/-- What holds at the end of a run held at some moment of it. -/
theorem passes_last {holds : World → Prop} {w w' : World} (run : RoundSteps gen w w')
    (last : holds w') : Passes gen holds w w' :=
  ⟨w', run, last, .refl⟩

/-- Such a run is a run of round steps. -/
theorem passes_run {holds : World → Prop} {w w' : World} (passes : Passes gen holds w w') :
    RoundSteps gen w w' := by
  -- The two parts follow each other.
  obtain ⟨mid, first, _, second⟩ := passes
  exact first.trans second

/-- A process that stops need not tend its peers. -/
theorem tended_stopping {i : Nat} {w : World} (stops : w.self.runtime.stopping = true) :
    Tended i w := by
  -- It does not keep them.
  intro keeps
  rw [keeps.running] at stops
  cases stops

end Passes

section Claim

variable {gen : Generation} {i : Nat}

/-- What an attempt to claim a peer leaves. -/
structure Attempted (i : Nat) (takeover : Option PeerState) (w : World) (rc : Rc) (w' : World) :
    Prop where
  claimed : rc = .ok → (w'.self.round i).active = true ∧ (w'.self.round i).pending = false ∧
    (w'.self.peers i).checkEv.isSome = true
  refused : rc ≠ .ok → (w'.self.round i).active = (w.self.round i).active
  declined : rc = .declined → takeover = none → ¬ Keeps w'.sys w'.self i

/-- An attempt to claim a peer is a round step. -/
theorem byRounds_claimRound {takeover : Option PeerState} {limit : Nat} {w : World}
    (running : w.self.runtime.stopping = false) (registered : w.self.runtime.registered = true) :
    byRounds gen (claimRound gen i takeover limit)
      (fun r w' => Attempted i takeover w r.1 w') w := by
  -- The cases of its law.
  have law : wp (claimRound gen i takeover limit)
      (fun r w' => Attempted i takeover w r.1 w') w := by
    refine wp_claimRound (fun rs pos => ?_) (fun rc wait rs pos locks failed why _ => ?_)
      (fun t rs pos locks _ _ claimable _ => ?_)
    · refine ⟨fun ok => ?_, fun _ => ?_, fun declined => ?_⟩
      · cases ok
      · rw [passed_round]
      · cases declined
    · refine ⟨fun ok => absurd ok failed, fun _ => ?_, fun declined own keeps => ?_⟩
      · rw [passed_round, self_setSelf, Proc.allocate, Proc.round, setPeer_peers]
        rfl
      · have before : Keeps w.sys w.self i := by
          refine keeps_congr ?_ ?_ ?_ ?_ keeps
          · rfl
          · rw [passed_self, self_setSelf]
            rfl
          · rw [passed_self, self_setSelf]
            rfl
          · rw [passed_round, self_setSelf, Proc.allocate, Proc.round, setPeer_peers]
            exact ⟨rfl, rfl, rfl⟩
        rcases why declined with unregistered | ⟨_, other | ⟨_, other⟩⟩
        · exact unregistered before.registration
        · exact other before.worker
        · exact other before.inst
    · refine ⟨fun _ => ?_, fun failed => absurd rfl failed, fun declined => ?_⟩
      · have pending : (w.self.round i).pending = false := claimable.idle.2
        rw [passed_round, self_setSelf, passed_self, self_setSelf]
        refine ⟨?_, ?_, ?_⟩
        · simp [Proc.claimed, Proc.round, Proc.setPeer, claimedProbe]
        · simpa [Proc.claimed, Proc.round, Proc.setPeer, claimedProbe, Proc.allocate] using pending
        · simp [Proc.claimed, Proc.setPeer]
      · cases declined
  refine along_step (wp_mono (wp_and (wp_returned _ _) law) fun r w' reached => ?_)
  exact ⟨.claimed i takeover limit r w' running registered reached.1, reached.2⟩

/-- What a claim with the start of the I/O leaves. -/
structure Entered (gen : Generation) (i : Nat) (takeover : Option PeerState) (w : World) (rc : Rc)
    (w' : World) : Prop where
  claimed : rc = .ok → Passes gen (fun mid => (mid.self.peers i).checkEv.isSome = true) w w'
  idle : rc ≠ .ok → (w.self.round i).active = false → (w'.self.round i).active = false
  declined : rc = .declined → takeover = none → ¬ Keeps w'.sys w'.self i

/-- A claim consists of the attempt and the start of the probe. -/
theorem byRounds_claim {takeover : Option PeerState} {limit : Nat} {w : World} :
    byRounds gen (claim gen i takeover limit) (fun r w' => Entered gen i takeover w r.1 w') w := by
  -- Only an attempt that succeeded starts the probe.
  unfold claim
  refine byRounds_then (byInner_self (along_ite (fun unregistered => along_pure ?_)
    fun registered => ?_))
  · refine ⟨fun ok => ?_, fun _ => id, fun _ _ keeps => unregistered keeps.registered⟩
    cases ok
  refine byRounds_then (byInner_stopping (fun w' run stops => along_ite (fun _ => along_pure ?_)
    fun goes => absurd rfl goes) fun pos running => along_ite (fun stops => ?_) fun _ => ?_)
  · refine ⟨fun ok => ?_, fun _ past => (byInner_doze run past).active, fun _ _ keeps => ?_⟩
    · cases ok
    · rw [keeps.running] at stops
      cases stops
  · cases stops
  refine byRounds_then (byInner_preempt ?_)
  have self : (w.passed [] pos w.locks).preempted.self.round i = w.self.round i := by
    rw [preempted_self, passed_round]
  have claims : byRounds gen (claimRound gen i takeover limit)
      (fun r w' => Attempted i takeover (w.passed [] pos w.locks).preempted r.1 w')
      (w.passed [] pos w.locks).preempted := by
    refine byRounds_claimRound ?_ ?_
    · rw [preempted_self, passed_self]
      exact running
    · rw [preempted_self, passed_self]
      exact of_not_not registered
  refine along_bind (along_mono claims fun r w' run attempted => ?_)
  have soFar : RoundSteps gen w w' :=
    (Relation.ReflTransGen.tail (.single (.inner _ (.passed _ _ _)))
      (.inner _ .preempted)).trans run
  obtain ⟨rc, wait⟩ := r
  cases rc with
  | ok =>
    obtain ⟨active, idle, armed⟩ := attempted.claimed rfl
    refine along_bind (along_mono (byRounds_probeStart active idle) fun _ w'' later _ =>
      along_pure ?_)
    refine ⟨fun _ => ⟨w', soFar, armed, later⟩, fun failed => absurd rfl failed, fun declined => ?_⟩
    cases declined
  | declined =>
    refine along_pure ⟨fun ok => ?_, fun failed past => ?_, attempted.declined⟩
    · cases ok
    · rw [attempted.refused failed, self]
      exact past
  | again =>
    refine along_pure ⟨fun ok => ?_, fun failed past => ?_, attempted.declined⟩
    · cases ok
    · rw [attempted.refused failed, self]
      exact past
  | error =>
    refine along_pure ⟨fun ok => ?_, fun failed past => ?_, attempted.declined⟩
    · cases ok
    · rw [attempted.refused failed, self]
      exact past

/-- The timer of a peer that was lost goes, with what was left of its last round. -/
theorem byInner_forget {w : World} (steady : Steady w.self) (past : (w.self.round i).active = false)
    (excused : ¬ Keeps w.sys w.self i) :
    byInner gen (do
      recordIo (.lost i)
      disarmCheck i
      if ((← self).peers i).allocated then probeDiscard i) (fun _ _ => True) w := by
  -- The loss closes the connection before the timers go.
  let lost := w.self.handle i { (w.self.peers i).probe with connection := none }
    ((w.self.peers i).probe.closing i ++ [.lost i])
  have first : InnerStep gen w (w.setSelf lost) := innerStep_alone (.handled i _ _ .lost)
  have second : InnerStep gen (w.setSelf lost) (w.setSelf (lost.disarm i)) := by
    have disarmed : InnerStep gen (w.setSelf lost)
        ((w.setSelf lost).setSelf ((w.setSelf lost).self.disarm i)) := by
      refine .disarmed i fun keeps => excused (keeps_congr ?_ ?_ ?_ ?_ keeps)
      · rfl
      · rw [self_setSelf]
        rfl
      · rw [self_setSelf]
        rfl
      · rw [self_setSelf, handle_round]
        exact ⟨rfl, rfl, rfl⟩
    rwa [self_setSelf, setSelf_setSelf] at disarmed
  have run : InnerSteps gen w (w.setSelf (lost.disarm i)) := .tail (.single first) second
  have peer : (lost.disarm i).peers i = { w.self.peers i with
      checkEv := none, probe := { (w.self.peers i).probe with connection := none } } := by
    rw [Proc.disarm, setPeer_peers, handle_peers]
  have third : InnerStep gen (w.setSelf (lost.disarm i)) (w.setSelf ((lost.disarm i).handle i
      { (w.self.peers i).probe with timeout := none, connection := none } [])) := by
    have ended : InnerStep gen (w.setSelf (lost.disarm i))
        ((w.setSelf (lost.disarm i)).setSelf ((w.setSelf (lost.disarm i)).self.handle i
          { ((w.setSelf (lost.disarm i)).self.peers i).probe with timeout := none } [])) := by
      refine innerStep_alone (.handled i _ _ (.timeoutEnded ?_))
      rw [self_setSelf, peer]
      exact past
    rwa [self_setSelf, setSelf_setSelf, peer] at ended
  unfold byInner along disarmCheck
  rw [wp_bind, wp_record i, wp_bind, wp_modifyPeer, wp_bind, wp_self, self_setSelf, self_setSelf,
    setPeer_peers, setSelf_setSelf, handle_peers, wp_ite]
  refine ⟨fun allocated => ?_, fun fresh => ?_⟩
  · rw [wp_probeDiscard, self_setSelf, setSelf_setSelf]
    have same : ((w.self.handle i (w.self.peers i).probe [.lost i]).setPeer i
        { w.self.peers i with checkEv := none }).discard i = (lost.disarm i).handle i
          { (w.self.peers i).probe with timeout := none, connection := none } [] := by
      simp [Proc.discard, Proc.disarm, Proc.handle, Proc.setPeer, Probe.closing, lost]
    refine ⟨?_, trivial⟩
    rw [same]
    exact run.tail third
  · rw [wp_pure]
    have alone : (w.self.peers i).probe.connection = none :=
      (steady i).connection (Bool.eq_false_iff.mpr fresh)
    have same : (w.self.handle i (w.self.peers i).probe [.lost i]).setPeer i
        { w.self.peers i with checkEv := none } = lost.disarm i := by
      simp [Proc.disarm, Proc.handle, Proc.setPeer, closing_none i alone, closed_none alone, lost]
    refine ⟨?_, trivial⟩
    rw [same]
    exact run

/-- A check timer that is set is an inner step. -/
theorem byInner_armCheck {delay : Nat} {w : World} {post : Unit → World → Prop}
    (armed : ∀ w', InnerSteps gen w w' → (w'.self.peers i).checkEv.isSome = true → post () w') :
    byInner gen (armCheck gen i delay) post w := by
  -- The timer is a field of the peer.
  have change : Local gen w.self
      (w.self.setPeer i { w.self.peers i with checkEv := some (timerDelay gen delay) }) :=
    .checkArmed i (timerDelay gen delay)
  unfold armCheck
  refine byInner_local (fun post => wp_modifyPeer i _ post w) change (armed _ (.single
    (innerStep_alone change)) ?_)
  rw [self_setSelf, setPeer_peers]
  rfl

/-- The check timer calls back, and is armed again unless the peer is not the process's own. -/
theorem byRounds_begin {w : World} (steady : Steady w.self) :
    byRounds gen (begin gen i) (fun _ w' => Passes gen (Tended i) w w') w := by
  have armed : ∀ {w w' : World} (delay : Nat), RoundSteps gen w w' →
      byRounds gen (armCheck gen i delay) (fun _ w'' => Passes gen (Tended i) w w'') w' := by
    intro w w' delay before
    refine byRounds_of_inner (byInner_armCheck fun w'' run timer => ?_)
    exact passes_last (before.trans (byRounds_run run)) fun _ => timer
  unfold begin
  refine byRounds_then (byInner_stopping (fun w' run stops => along_ite (fun _ => along_pure ?_)
    fun goes => absurd rfl goes) fun pos running => along_ite (fun stops => ?_) fun _ => ?_)
  · exact passes_last (byRounds_run run) (tended_stopping stops)
  · cases stops
  have went : RoundSteps gen w (w.passed [] pos w.locks) := .single (.inner _ (.passed _ _ _))
  refine byRounds_then (byInner_self (along_ite (fun _ => armed _ went) fun free => ?_))
  -- No round runs, and none waits.
  have past : (w.self.round i).active = false := by
    rw [← Bool.not_eq_true]
    intro runs
    refine free ⟨?_, .inl ?_⟩
    · rw [passed_self]
      show (w.self.seat i).peer.allocated = true
      rw [← Bool.not_eq_false]
      intro fresh
      have quiet := (steady i).active fresh
      change (w.self.round i).active = false at quiet
      rw [runs] at quiet
      cases quiet
    · rw [passed_self]
      exact runs
  have steady' : Steady (w.passed [] pos w.locks).self := by
    rw [passed_self]
    exact steady
  refine along_bind (byRounds_steady steady' (along_mono byRounds_claim
    fun r w' run claimed steadyAfter => ?_))
  obtain ⟨rc, wait⟩ := r
  cases rc with
  | ok =>
    obtain ⟨mid, first, timer, second⟩ := claimed.claimed rfl
    exact along_pure ⟨mid, went.trans first, fun _ => timer, second⟩
  | declined =>
    have excused := claimed.declined rfl rfl
    have finished : (w'.self.round i).active = false := by
      refine claimed.idle (fun declined => by cases declined) ?_
      rw [passed_round]
      exact past
    refine along_mono (byRounds_of_inner (byInner_forget steadyAfter finished excused))
      fun _ w'' later _ => ?_
    exact ⟨w', went.trans run, fun keeps => absurd keeps excused, later⟩
  | again => exact armed _ (went.trans run)
  | error => exact armed _ (went.trans run)

end Claim

section Watch

variable {gen : Generation} {i : Nat}

/-- A record is read under its lock, or not at all. -/
theorem byInner_readPeer {limit : Nat} {w : World} {post : Option PeerState → World → Prop}
    (refused : ∀ rs pos locks, post none (w.passed rs pos locks))
    (taken : ∀ rs pos locks, post (some (w.sys.record i)) (w.passed rs pos locks)) :
    byInner gen (readPeer i limit) post w := by
  -- The lock is refused, or it is taken and given back.
  unfold readPeer
  refine along_bind (byInner_lock (fun rs pos => along_pure (refused _ _ _)) fun rs pos => ?_)
  refine along_bind (byInner_read (along_bind (byInner_unlock (along_pure ?_))))
  rw [passed_passed, passed_shared]
  exact taken _ _ _

/-- A worker slot is read in inner steps. -/
theorem byInner_readWorker {number limit : Nat} {w : World} :
    byInner gen (readWorker number limit) (fun _ _ => True) w := by
  -- The lock is refused, or it is taken and given back.
  unfold readWorker
  refine along_bind (byInner_lock (fun rs pos => along_pure trivial) fun rs pos => ?_)
  exact along_bind (byInner_read (along_bind (byInner_unlock (along_pure trivial))))

/-- Ranking the backups only reads. -/
theorem byInner_preferredLoop {state : PeerState} {time limit : Nat} (left : Nat) {best : Nat × Nat}
    {w : World} :
    byInner gen (preferredLoop gen i state time limit left best) (fun _ _ => True) w := by
  -- Induction on the workers that are left.
  induction left generalizing best w with
  | zero => exact along_bind (byInner_self (along_pure trivial))
  | succ left ih =>
    unfold preferredLoop
    refine along_bind (byInner_now (fun pos => along_pure trivial) fun t pos _ => ?_)
    refine along_ite (fun _ => along_pure trivial) fun _ => ?_
    exact along_bind (byInner_preempt (along_bind
      (along_mono byInner_readWorker fun _ _ _ _ => ih)))

/-- A visit to a peer of another process claims it, or does nothing. -/
theorem byRounds_watchForeign {limit : Nat} {state : PeerState} {w : World} :
    byRounds gen (watchForeign gen i limit state) (fun _ _ => True) w := by
  -- Only the chosen worker claims the record.
  have takes : ∀ (chosen : Bool) (w : World), byRounds gen (do
      if chosen then
        let _ ← claim gen i (some state) limit
      return true) (fun _ _ => True) w := by
    intro chosen w
    cases chosen with
    | false => exact along_pure trivial
    | true => exact along_bind (along_mono byRounds_claim fun _ _ _ _ => along_pure trivial)
  unfold watchForeign
  refine byRounds_then (byInner_read (byRounds_then (byInner_now (fun pos => along_pure trivial)
    fun t pos _ => along_ite (fun _ => along_pure trivial) fun _ => ?_)))
  refine along_ite (fun _ => along_bind (along_pure (takes true _))) fun _ => ?_
  exact along_bind (along_mono (byRounds_of_inner (byInner_preferredLoop gen.workers))
    fun chosen w' _ _ => takes chosen w')

/-- The last part of a visit: the round of an own peer is resumed, another peer may be claimed. -/
theorem byRounds_visit {limit : Nat} {state : PeerState} {own : Prop} [Decidable own] {w : World}
    (steady : Steady w.self) :
    byRounds gen (do
      if own then do
        if ((← self).peers i).allocated ∧ ((← self).peers i).probe.round.active then
          probeResume gen i
        return true
      else watchForeign gen i limit state) (fun _ _ => True) w := by
  -- A peer of one's own is resumed, a foreign one is watched.
  refine along_ite (fun _ => ?_) fun _ => byRounds_watchForeign
  refine byRounds_then (byInner_self (byRounds_then (byInner_self (along_ite (fun running => ?_)
    fun _ => along_pure trivial))))
  exact along_bind (along_mono (byRounds_probeResume ((steady i).single running.2))
    fun _ _ _ _ => along_pure trivial)

/-- A round whose record names another owner, or another round, is given up with its timers. -/
theorem byRounds_forgetRound {α : Type} {f : Action α} {post : α → World → Prop} {w : World}
    (excused : ¬ Keeps w.sys w.self i) (rest : ∀ w', RoundSteps gen w w' → byRounds gen f post w') :
    byRounds gen (do
      recordIo (.lost i)
      probeDiscard i
      clearRound i
      disarmCheck i
      f) post w := by
  -- A round that is not kept need not have its timer.
  have does : ∀ (post : Unit → World → Prop) (w : World), wp (do
      probeDiscard i
      clearRound i) post w ↔ post () (w.setSelf (w.self.release i
        ((fun _ => false) (w.self.round i).pending))) := wp_discardClear i
  have cleared : byInner gen (do
      recordIo (.lost i)
      (do
        probeDiscard i
        clearRound i)) (fun _ w' => ¬ Keeps w'.sys w'.self i) w := by
    refine byInner_giveUp does (fun _ impossible => absurd impossible Bool.false_ne_true) ?_
    intro w' _ shared runtime pid round keeps
    refine excused (keeps_congr shared runtime pid ?_ keeps)
    rw [round]
    exact ⟨rfl, rfl, rfl⟩
  have disarmed : byInner gen ((do
      recordIo (.lost i)
      (do
        probeDiscard i
        clearRound i)) >>= fun _ => disarmCheck i) (fun _ _ => True) w := by
    refine along_bind (along_mono cleared fun _ w' _ lost => ?_)
    unfold disarmCheck
    refine along_step ((wp_modifyPeer i _ _ w').mpr ⟨?_, trivial⟩)
    exact .disarmed i lost
  have whole : byRounds gen (((do
      recordIo (.lost i)
      (do
        probeDiscard i
        clearRound i)) >>= fun _ => disarmCheck i) >>= fun _ => f) post w :=
    along_bind (along_mono (byRounds_of_inner disarmed) fun _ w' run _ => rest w' run)
  simpa only [bind_assoc] using whole

/-- A record that does not name the round of a process does not keep it. -/
theorem not_keeps {w : World} (foreign : (w.sys.record i).worker ≠ w.self.runtime.worker ∨
    (w.sys.record i).inst ≠ (w.self.round i).inst ∨ (w.sys.record i).term ≠ (w.self.round i).term ∨
    (w.sys.record i).round ≠ (w.self.round i).number) : ¬ Keeps w.sys w.self i := by
  -- Each of the four fields would have to agree.
  intro keeps
  rcases foreign with worker | inst | term | number
  · exact worker keeps.worker
  · exact inst keeps.named.symm
  · exact term keeps.term.symm
  · exact number keeps.number.symm

/-- A visit from the moment the record was read. -/
theorem byRounds_read {limit : Nat} {state : PeerState} {p : Proc} {w : World}
    (steady : Steady w.self)
    (record : state = w.sys.record i) (runtime : w.self.runtime = p.runtime)
    (round : w.self.round i = p.round i) :
    byRounds gen (do
      if (p.peers i).allocated ∧ (state.worker ≠ p.runtime.worker ∨ state.inst ≠ (p.round i).inst
          ∨ state.term ≠ (p.round i).term ∨ state.round ≠ (p.round i).number) then do
        recordIo (.lost i)
        probeDiscard i
        clearRound i
        disarmCheck i
      if state.worker = p.runtime.worker ∧ state.inst = p.runtime.inst then do
        if ((← self).peers i).allocated ∧ ((← self).peers i).probe.round.active then
          probeResume gen i
        return true
      else watchForeign gen i limit state) (fun _ _ => True) w := by
  -- The record and the round decide what is done, and nothing has changed since they were read.
  refine along_ite (fun gone => byRounds_forgetRound (not_keeps ?_) fun w' run => byRounds_visit ?_)
    fun _ => byRounds_visit steady
  · rw [← record, runtime, round]
    exact gone.2
  · exact byRounds_keep run steady

/-- A visit from the moment the round that waits was submitted. -/
theorem byRounds_look {limit : Nat} {w : World} (steady : Steady w.self) :
    byRounds gen (do
      preempt
      match ← readPeer i limit with
      | none => return true
      | some state => do
        let p ← self
        let peer := p.peers i
        let round := peer.probe.round
        if state.phase = .initial ∧ state.inst = 0 ∧ state.worker = p.runtime.worker
            ∧ peer.checkEv = none then
          armCheck gen i (firstDelay gen i (← ask).random)
        if peer.allocated ∧ (state.worker ≠ p.runtime.worker ∨ state.inst ≠ round.inst
            ∨ state.term ≠ round.term ∨ state.round ≠ round.number) then do
          recordIo (.lost i)
          probeDiscard i
          clearRound i
          disarmCheck i
        if state.worker = p.runtime.worker ∧ state.inst = p.runtime.inst then do
          if ((← self).peers i).allocated ∧ ((← self).peers i).probe.round.active then
            probeResume gen i
          return true
        else watchForeign gen i limit state) (fun _ _ => True) w := by
  refine byRounds_then (byInner_preempt (byRounds_then
    (byInner_readPeer (fun rs pos locks => along_pure trivial)
    fun rs pos locks => ?_)))
  have steady' : Steady (w.preempted.passed rs pos locks).self := by
    rw [passed_self, preempted_self]
    exact steady
  refine byRounds_then (byInner_self ?_)
  dsimp only
  refine along_ite (fun _ => ?_) fun _ => byRounds_read steady' rfl rfl rfl
  -- The first check of a peer is armed here; this leaves its round.
  unfold armCheck
  refine byRounds_then (byInner_ask (byRounds_then
    (byInner_local (fun post => wp_modifyPeer i _ post _)
    (.checkArmed i _) (byRounds_read ?_ ?_ ?_ ?_))))
  · rw [self_setSelf, passed_self]
    exact steady_local gen steady' (.checkArmed i _)
  · rfl
  · rw [self_setSelf, passed_self]
    rfl
  · rw [self_setSelf, Proc.round, setPeer_peers, passed_self]
    rfl

/-- The watch's visit to a peer. -/
theorem byRounds_watchPeer {limit : Nat} {w : World} (steady : Steady w.self) :
    byRounds gen (watchPeer gen i limit) (fun _ _ => True) w := by
  -- What is pending is settled first, and then the record is looked at.
  unfold watchPeer
  refine byRounds_then (byInner_self ?_)
  dsimp only
  refine along_ite (fun waits => ?_) fun _ => byRounds_look steady
  refine byRounds_then (byInner_preempt ?_)
  refine along_bind (byRounds_steady (by rwa [preempted_self]) (byRounds_of_inner (byInner_settle ?_
    fun _ w' _ _ _ _ steady' => byRounds_look steady')))
  rw [preempted_self]
  exact waits.2

/-- One pass of the watch. -/
theorem byRounds_watchLoop {limit : Nat} (left : Nat) {w : World} (steady : Steady w.self) :
    byRounds gen (watchLoop gen limit left) (fun _ _ => True) w := by
  -- Induction on the visits that are left.
  induction left generalizing w with
  | zero => exact along_pure trivial
  | succ left ih =>
    unfold watchLoop
    refine byRounds_then (byInner_self (byRounds_then
      (byInner_local (fun post => wp_modifyRuntime _ post _)
      (.scheduled _ _ _) ?_)))
    have steady' : Steady (w.setSelf { w.self with runtime :=
        { w.self.runtime with cursor := (w.self.runtime.cursor + 1) % gen.nelts } }).self := by
      rw [self_setSelf]
      exact steady_peers steady rfl
    refine along_bind (byRounds_steady steady' (along_mono (byRounds_watchPeer steady')
      fun goOn w' _ _ steadyAfter => ?_))
    refine along_ite (fun _ => ?_) fun _ => along_pure trivial
    refine byRounds_then (byInner_now (fun pos => along_pure trivial) fun t pos _ =>
      along_ite (fun _ => along_pure trivial) fun _ => ih ?_)
    rw [passed_self]
    exact steadyAfter

/-- The watch is armed again unless the process stops. -/
theorem byInner_rearmWatch {w : World} : byInner gen (rearmWatch gen)
    (fun _ w' => Watching w') w := by
  -- Only a process that stops goes without its watch.
  unfold rearmWatch
  refine along_bind (byInner_local (fun post => wp_modifyRuntime _ post w) (.scheduled _ _ _) ?_)
  refine along_bind (byInner_self (along_ite (fun _ => ?_) fun stops => along_pure ?_))
  · refine byInner_local (fun post => wp_modifyRuntime _ post _) (.watching _) fun _ => ?_
    rw [self_setSelf]
    rfl
  · intro running
    exact absurd running (by simpa using stops)

/-- An activation is an operation of its own. -/
theorem byInner_activate {limit reading : Nat} {w : World} :
    byInner gen (activate limit reading) (fun _ _ => True) w := by
  refine along_step (wp_mono (wp_returned (activate limit reading) w) fun rc w' returned => ?_)
  exact ⟨.ran (.activate limit reading) w' trivial (returned_dropped returned), trivial⟩

/-- The registration of the slot is an operation of its own. -/
theorem byInner_registerSlot {limit reading : Nat} {w : World} :
    byInner gen (registerSlot limit reading) (fun _ _ => True) w := by
  -- It may return anything.
  refine along_step (wp_mono (wp_returned (registerSlot limit reading) w) fun rc w' returned => ?_)
  exact ⟨.ran (.registerSlot limit reading) w' trivial (returned_dropped returned), trivial⟩

/-- A registration consists of both, with other processes in between. -/
theorem byInner_register {limit : Nat} {w : World} :
    byInner gen (register limit) (fun _ _ => True) w := by
  -- Without a time or without the activation it ends early.
  unfold register
  refine along_bind (byInner_now (fun pos => along_pure trivial) fun t pos _ => ?_)
  refine along_bind (byInner_preempt (along_bind (along_mono byInner_activate fun rc w' _ _ => ?_)))
  cases rc with
  | ok => exact along_bind (byInner_preempt byInner_registerSlot)
  | _ => exact along_pure trivial

/-- The watch calls back, and is armed again unless the process stops. -/
theorem byRounds_watch {w : World} (steady : Steady w.self) :
    byRounds gen (watch gen) (fun _ w' => Watching w') w := by
  -- The watch ends in a process that stops, or it is set again.
  unfold watch
  refine byRounds_then (byInner_stopping (fun w' run stops => along_ite (fun _ => along_pure ?_)
    fun goes => absurd rfl goes) fun pos running => along_ite (fun stops => ?_) fun _ => ?_)
  · intro running
    rw [stops] at running
    cases running
  · cases stops
  refine byRounds_then (byInner_now (fun pos => byRounds_of_inner byInner_rearmWatch)
    fun t pos _ => ?_)
  refine byRounds_then (byInner_local (fun post => wp_modifyRuntime _ post _) (.scheduled _ _ _) ?_)
  refine along_bind (byRounds_steady ?_ (along_mono (byRounds_of_inner byInner_register)
    fun rc w' _ _ steady' => along_ite (fun _ => ?_) fun _ => ?_))
  · rw [self_setSelf, passed_self, passed_self]
    exact steady_peers steady rfl
  · refine byRounds_of_inner (byInner_runtimeStop fun w'' _ stops running => ?_)
    rw [stops] at running
    cases running
  · refine byRounds_then (byInner_self (along_ite (fun _ => ?_) fun _ =>
      byRounds_of_inner byInner_rearmWatch))
    exact along_bind (along_mono (byRounds_watchLoop _ steady')
      fun _ _ _ _ => byRounds_of_inner byInner_rearmWatch)

end Watch

section Begin

variable {gen : Generation}

/-- The first timers of the peers this process is the first owner of. -/
theorem byInner_startTimers {w : World} : byInner gen (startTimers gen) (fun _ _ => True) w := by
  -- The loop goes over the peers.
  unfold startTimers
  refine along_bind (byInner_self (along_ite (fun _ => along_pure trivial) fun _ => ?_))
  refine along_bind (byInner_local (fun post => wp_modifyRuntime _ post w) (.scheduled _ _ _) ?_)
  refine along_forUpTo gen.nelts (fun i w' _ _ => ?_) trivial
  refine along_ite (fun _ => ?_) fun _ => along_pure trivial
  exact along_bind (byInner_ask (byInner_armCheck fun _ _ _ => trivial))

/-- A process starts: it registers if it can, and its watch is armed in any case. -/
theorem byInner_runtimeInit {w : World} :
    byInner gen (runtimeInit gen) (fun _ w' => Watching w') w := by
  -- The watch is set at the end, whether the worker was registered or not.
  have rest : ∀ w : World, byInner gen (do
      startTimers gen
      modifyRuntime fun r => { r with watch := some (timerDelay gen gen.interval) })
      (fun _ w' => Watching w') w := by
    intro w
    refine along_bind (along_mono byInner_startTimers fun _ w' _ _ => ?_)
    refine byInner_local (fun post => wp_modifyRuntime _ post w') (.watching _) fun _ => ?_
    rw [self_setSelf]
    rfl
  unfold runtimeInit
  refine along_bind (byInner_now (fun pos => ?_) fun t pos _ => ?_)
  · exact rest _
  · exact along_bind (along_mono byInner_register fun _ _ _ _ => rest _)

end Begin

end Healthcheck
