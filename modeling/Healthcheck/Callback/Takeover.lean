import Healthcheck.Callback.Onward
import Healthcheck.System.Spacing

/-!
Progress of a takeover. A peer whose owner is overdue does not stay with it: when the watch of any
registered process visits the peer in an environment that lets it work, its round is behind.
-/

namespace Healthcheck

open Program

section Way

variable {gen : Generation} {i early : Nat} {seen : PeerState} {w w' : World}

/-- A process on the way to a peer of another owner, which was seen overdue. -/
structure Underway (gen : Generation) (i : Nat) (seen : PeerState) (early : Nat) (w : World) :
    Prop extends Onward gen i seen early w where
  activated : w.sys.shared.activated = true
  overdue : addTime (addTime (peerDeadline gen i w.sys.shared.activatedAt seen) gen.grace)
    gen.preference ≤ milliseconds early
  foreign : seen.worker ≠ w.self.runtime.worker ∨ seen.inst ≠ w.self.runtime.inst
  room : seen.round ≠ uint64Max ∧ seen.term ≠ uint64Max

/-- A takeover that is under way stays so along round steps. -/
theorem underway_roundSteps (underway : Underway gen i seen early w) (run : RoundSteps gen w w') :
    Underway gen i seen early w' := by
  -- The activation and its time are kept.
  obtain ⟨onward, worker, inst, steps⟩ := onward_roundSteps underway.toOnward run
  obtain ⟨still, time⟩ := activated_steps steps underway.activated
  refine ⟨onward, still, ?_, ?_, underway.room⟩
  · rw [time]
    exact underway.overdue
  · rw [worker, inst]
    exact underway.foreign

end Way

section Visit

variable {gen : Generation} {i early limit : Nat} {seen : PeerState} {w : World}

/-- A smooth clock answers in an inner step. -/
theorem byInner_now_smooth {post : Option Nat → World → Prop} (smooth : Smooth w.script early)
    (reading : ∀ t pos, early ≤ t → t < addTime early lockNs →
      post (some t) (w.passed [t] pos w.locks)) : byInner gen now post w :=
  along_step (wp_now_smooth smooth fun t pos late soon => ⟨.passed _ _ _, reading t pos late soon⟩)

/-- The test of a takeover passes for an overdue peer that is as it was seen. -/
theorem claimTest_overdue {runtime : Runtime} {activatedAt started : Nat}
    (overdue : addTime (peerDeadline gen i activatedAt seen) gen.grace ≤ started)
    (foreign : seen.worker ≠ runtime.worker ∨ seen.inst ≠ runtime.inst)
    (room : seen.round ≠ uint64Max ∧ seen.term ≠ uint64Max) :
    (claimTest gen i runtime (some seen) activatedAt started seen).1 = .ok := by
  -- The other tests of a takeover pass by assumption.
  have other : ¬ (seen.worker = runtime.worker ∧ seen.inst = runtime.inst) := by tauto
  simp [claimTest, room.1, room.2, other, Nat.not_lt.mpr overdue]

/-- The time after which a backup is preferred fits into 64 bits. -/
theorem preference_le (gen : Generation) : gen.preference ≤ uint64Max :=
  max_le (grace_le gen) (mulTime_le _ _)

/-- A peer that was overdue at the start of the pass is so at every reading in it. -/
theorem overdue_later {due t : Nat} (range : due ≤ uint64Max)
    (overdue : addTime due gen.preference ≤ milliseconds early) (late : early ≤ t) :
    addTime due gen.preference ≤ milliseconds t ∧ due ≤ milliseconds t := by
  -- A later reading has later milliseconds.
  have later : milliseconds early ≤ milliseconds t := Nat.div_le_div_right late
  have first : due ≤ addTime due gen.preference := Saturating.le_add range (preference_le gen)
  omega

/-- A takeover of the peer as it was seen. -/
theorem relieves_takeover (underway : Underway gen i seen early w)
    (inTime : addTime early lockNs ≤ limit)
    (idle : (w.self.round i).active = false ∧ (w.self.round i).pending = false) :
    byRounds gen (claim gen i (some seen) limit) (fun _ w' => Relieved i seen w') w := by
  -- The test of the takeover passes at any time that may be read.
  refine relieves_claim underway.toOnward (.inr inTime) idle fun w' run t late => ?_
  have onway := underway_roundSteps underway run
  exact claimTest_overdue (overdue_later (addTime_le (grace_le gen)) onway.overdue late).2
    onway.foreign onway.room

/-- The visit to the peer as it was seen. -/
theorem relieves_foreign (underway : Underway gen i seen early w)
    (inTime : addTime early lockNs ≤ limit)
    (idle : (w.self.round i).active = false ∧ (w.self.round i).pending = false) :
    byRounds gen (watchForeign gen i limit seen) (fun _ w' => Relieved i seen w') w := by
  -- Past the preference every worker is chosen, so the claim is made.
  unfold watchForeign
  refine byRounds_then (byInner_read (byRounds_then
    (byInner_now_smooth underway.smooth fun t pos late _ => ?_)))
  obtain ⟨long, due⟩ := overdue_later (addTime_le (grace_le gen)) underway.overdue late
  refine along_ite (fun early => absurd due (Nat.not_le_of_lt early)) fun _ => ?_
  refine along_ite (fun _ => along_bind (along_pure ?_)) fun brief => absurd long brief
  have went : RoundSteps gen w (w.passed [t] pos w.locks) := .single (.inner _ (.passed _ _ _))
  refine along_ite (fun _ => along_bind (along_mono (relieves_takeover
    (underway_roundSteps underway went) inTime ?_) fun _ _ _ relieved => along_pure relieved))
    fun impossible => absurd rfl impossible
  rw [passed_round]
  exact idle

/-- A round that is given up is over, and it leaves the shared memory and the registration. -/
theorem byRounds_forgotten {α : Type} {f : Action α} {post : α → World → Prop}
    (excused : ¬ Keeps w.sys w.self i)
    (rest : ∀ w', RoundSteps gen w w' → (w'.self.round i).active = false ∧
      (w'.self.round i).pending = false → w'.sys.shared = w.sys.shared → byRounds gen f post w') :
    byRounds gen (do
      recordIo (.lost i)
      probeDiscard i
      clearRound i
      disarmCheck i
      f) post w := by
  -- Forgetting a round leaves the shared memory alone.
  have does : byRounds gen (do
      recordIo (.lost i)
      probeDiscard i
      clearRound i
      disarmCheck i
      pure ()) (fun _ _ => True) w :=
    byRounds_forgetRound excused fun _ _ => along_pure trivial
  have law : wp (do
      recordIo (.lost i)
      probeDiscard i
      clearRound i
      disarmCheck i
      pure ()) (fun _ w' => ((w'.self.round i).active = false ∧
        (w'.self.round i).pending = false) ∧ w'.sys.shared = w.sys.shared) w := by
    unfold clearRound disarmCheck
    rw [wp_bind, wp_record i, wp_bind, wp_probeDiscard, wp_bind, wp_modifyRound, wp_bind,
      wp_modifyPeer, wp_pure]
    simp [Proc.round, Proc.setPeer, Peer.setRound]
  have whole := along_bind (f := fun _ : Unit => f) (wp_mono (wp_and does law)
    fun _ w' reached => ⟨reached.1.1, rest w' reached.1.1 reached.2.1 reached.2.2⟩)
  simpa only [bind_assoc, pure_bind] using whole

/-- The local round of a peer that was seen with another owner runs and waits only if the record
names another round. -/
theorem idle_unnamed (underway : Underway gen i seen early w)
    (named : ¬ ((w.self.peers i).allocated = true ∧
      (seen.worker ≠ w.self.runtime.worker ∨ seen.inst ≠ (w.self.round i).inst ∨
        seen.term ≠ (w.self.round i).term ∨ seen.round ≠ (w.self.round i).number))) :
    (w.self.round i).active = false ∧ (w.self.round i).pending = false := by
  by_cases allocated : (w.self.peers i).allocated = true
  · obtain ⟨worker, inst, _, _⟩ : seen.worker = w.self.runtime.worker ∧
        seen.inst = (w.self.round i).inst ∧ seen.term = (w.self.round i).term ∧
          seen.round = (w.self.round i).number := by tauto
    have busy := (underway.sound.consistent i).busy w.me
    have own := (underway.sound.consistent i).named w.me
    -- A round that was ever claimed carries the instance of the process.
    have never : ((w.sys.core w.me).rounds i).number = 0 := by
      by_contra claimed
      refine underway.foreign.elim (fun other => other worker) fun other => other ?_
      rw [inst]
      exact (own claimed).2
    constructor
    · rw [Bool.eq_false_iff]
      exact fun active => busy (.inl active) never
    · rw [Bool.eq_false_iff]
      exact fun pending => busy (.inr pending) never
  · have fresh : (w.self.seat i).peer.allocated = false := Bool.eq_false_iff.mpr allocated
    exact ⟨(underway.steady i).active fresh, (underway.steady i).pending fresh⟩

/-- A visit from the moment the record was read. -/
theorem relieves_read {state : PeerState} {p : Proc} (underway : Underway gen i seen early w)
    (inTime : addTime early lockNs ≤ limit) (record : state = w.sys.record i)
    (runtime : w.self.runtime = p.runtime) (round : w.self.round i = p.round i)
    (allocated : (w.self.peers i).allocated = (p.peers i).allocated) :
    byRounds gen (do
      if (p.peers i).allocated ∧ (state.worker ≠ p.runtime.worker ∨ state.inst ≠ (p.round i).inst
          ∨ state.term ≠ (p.round i).term ∨ state.round ≠ (p.round i).number) then do
        recordIo (.lost i)
        probeDiscard i
        clearRound i
        disarmCheck i
      if state.worker = p.runtime.worker ∧ state.inst = p.runtime.inst then do
        if ((← self).peers i).allocated ∧ ((← self).peers i).probe.round.active then
          probeResume gen i
        return true
      else watchForeign gen i limit state) (fun _ w' => Relieved i seen w') w := by
  -- The record is foreign, so a round of one's own is forgotten first.
  rcases onward_open underway.toOnward with relieved | ⟨goes, registration, same⟩
  · exact relieves_once underway.toOnward relieved
      (byRounds_read underway.steady record runtime round)
  rw [same] at record
  subst record
  rw [← runtime, ← round, ← allocated]
  have other : ¬ (state.worker = w.self.runtime.worker ∧ state.inst = w.self.runtime.inst) := by
    have foreign := underway.foreign
    tauto
  refine along_ite (fun gone => byRounds_forgotten (not_keeps ?_) fun w' run idle _ => ?_)
    fun named => along_ite (fun own => absurd own other) fun _ =>
      relieves_foreign underway inTime (idle_unnamed underway named)
  · rw [same]
    exact gone.2
  · exact along_ite (fun own => absurd own other) fun _ =>
      relieves_foreign (underway_roundSteps underway run) inTime idle

/-- A visit from the moment the round that waits was submitted. -/
theorem relieves_look (underway : Underway gen i seen early w)
    (inTime : addTime early lockNs ≤ limit) :
    byRounds gen (do
      preempt
      match ← readPeer i limit with
      | none => return true
      | some state => do
        let p ← self
        let peer := p.peers i
        let round := peer.probe.round
        if state.phase = .initial ∧ state.inst = 0 ∧ state.worker = p.runtime.worker
            ∧ peer.checkEv = none then
          armCheck gen i (firstDelay gen i (← ask).random)
        if peer.allocated ∧ (state.worker ≠ p.runtime.worker ∨ state.inst ≠ round.inst
            ∨ state.term ≠ round.term ∨ state.round ≠ round.number) then do
          recordIo (.lost i)
          probeDiscard i
          clearRound i
          disarmCheck i
        if state.worker = p.runtime.worker ∧ state.inst = p.runtime.inst then do
          if ((← self).peers i).allocated ∧ ((← self).peers i).probe.round.active then
            probeResume gen i
          return true
        else watchForeign gen i limit state) (fun _ w' => Relieved i seen w') w := by
  have met : RoundSteps gen w w.preempted := .single (.inner _ .preempted)
  have onway := underway_roundSteps underway met
  have reads : ∀ post : Option PeerState → World → Prop, (∀ rs pos locks,
      post (some (w.preempted.sys.record i)) (w.preempted.passed rs pos locks)) →
      byRounds gen (readPeer i limit) post w.preempted := by
    intro post taken
    have does : byRounds gen (readPeer i limit) (fun _ _ => True) w.preempted :=
      byRounds_of_inner (byInner_readPeer (fun _ _ _ => trivial) fun _ _ _ => trivial)
    exact wp_mono (wp_and does (wp_readPeer_smooth onway.smooth (.inr inTime) taken))
      fun _ _ reached => ⟨reached.1.1, reached.2⟩
  refine byRounds_then (byInner_preempt (along_bind (reads _ fun rs pos locks => ?_)))
  have onway' : Underway gen i seen early (w.preempted.passed rs pos locks) :=
    underway_roundSteps onway (.single (.inner _ (.passed _ _ _)))
  refine byRounds_then (byInner_self ?_)
  dsimp only
  refine along_ite (fun _ => ?_) fun _ => relieves_read onway' inTime rfl rfl rfl rfl
  -- The first check of a peer is armed here; this leaves its round.
  unfold armCheck
  refine byRounds_then (byInner_ask (byRounds_then
    (byInner_local (fun post => wp_modifyPeer i _ post _)
    (.checkArmed i _) (relieves_read (underway_roundSteps onway' ?_) inTime ?_ ?_ ?_ ?_))))
  · exact .tail (.single (.inner _ (.passed [] _ _))) (.inner _ (innerStep_alone (.checkArmed i _)))
  · rfl
  · rw [self_setSelf, passed_self]
    rfl
  · rw [self_setSelf, Proc.round, setPeer_peers, passed_self]
    rfl
  · rw [self_setSelf, setPeer_peers, passed_self]

/-- The visit to a peer that was seen overdue. -/
theorem relieves_watchPeer (underway : Underway gen i seen early w)
    (inTime : addTime early lockNs ≤ limit) :
    byRounds gen (watchPeer gen i limit) (fun _ w' => Relieved i seen w') w := by
  -- What is pending is settled first, and then the record is looked at.
  unfold watchPeer
  refine byRounds_then (byInner_self ?_)
  dsimp only
  refine along_ite (fun waits => ?_) fun _ => relieves_look underway inTime
  have met : RoundSteps gen w w.preempted := .single (.inner _ .preempted)
  refine byRounds_then (byInner_preempt ?_)
  refine along_bind (byRounds_of_inner (byInner_settle ?_ fun _ w' run _ _ _ => ?_))
  · rw [preempted_self]
    exact waits.2
  · exact relieves_look (underway_roundSteps underway (met.trans (byRounds_run run))) inTime

end Visit

section Pass

variable {gen : Generation} {i early limit : Nat} {seen : PeerState} {w : World}

/-- The rest of a sequence starts where the frame steps of its first part have led. -/
theorem wp_framed {α β : Type} {x : Action α} {f : α → Action β} {post : β → World → Prop}
    (framed : Framed x) (rest : ∀ a w', FrameSteps w w' → wp (f a) post w') :
    wp (x >>= f) post w := by
  -- The frame steps of the first part are known to the second.
  rw [wp_bind]
  exact wp_mono (framed w) rest

/-- A visit that ends the pass has no clock. -/
theorem wp_watchForeign_smooth {state : PeerState} (smooth : Smooth w.script early) :
    wp (watchForeign gen i limit state) (fun goOn _ => goOn = true) w := by
  -- The clock answers in time, and then the watch goes on with or without a claim.
  have takes : ∀ (chosen : Bool) (w' : World), wp (do
      if chosen then
        let _ ← claim gen i (some state) limit
      return true) (fun goOn _ => goOn = true) w' := by
    intro chosen w'
    refine (wp_ite ..).mpr ⟨fun _ => ?_, fun _ => (wp_pure ..).mpr rfl⟩
    exact wp_framed (framed_claim _ limit) fun _ _ _ => (wp_pure ..).mpr rfl
  unfold watchForeign
  rw [wp_bind, wp_read, wp_bind]
  refine wp_now_smooth smooth fun t pos _ _ => ?_
  rw [wp_ite, wp_ite]
  refine ⟨fun _ => (wp_pure ..).mpr rfl, fun _ => ⟨fun _ => takes true _, fun _ => ?_⟩⟩
  exact wp_framed (framed_preferredLoop state _ limit _ _) fun chosen w' _ => takes chosen w'

/-- A visit with time left lets the watch go on. -/
theorem wp_visit_smooth {state : PeerState} {c d : Prop} [Decidable c] [Decidable d]
    (smooth : Smooth w.script early) :
    wp (do
      if c then do
        recordIo (.lost i)
        probeDiscard i
        clearRound i
        disarmCheck i
      if d then do
        if ((← self).peers i).allocated ∧ ((← self).peers i).probe.round.active then
          probeResume gen i
        return true
      else watchForeign gen i limit state) (fun goOn _ => goOn = true) w := by
  -- Both tests may be passed.
  have goesOn : ∀ w' : World, w'.script = w.script → wp (do
      if d then do
        if ((← self).peers i).allocated ∧ ((← self).peers i).probe.round.active then
          probeResume gen i
        return true
      else watchForeign gen i limit state) (fun goOn _ => goOn = true) w' := by
    intro w' same
    refine (wp_ite ..).mpr ⟨fun _ => ?_, fun _ => wp_watchForeign_smooth (same ▸ smooth)⟩
    rw [wp_bind, wp_self, wp_bind, wp_self, wp_ite]
    refine ⟨fun _ => ?_, fun _ => (wp_pure ..).mpr rfl⟩
    exact wp_framed framed_probeResume fun _ _ _ => (wp_pure ..).mpr rfl
  refine (wp_ite ..).mpr ⟨fun _ => ?_, fun _ => goesOn w rfl⟩
  refine wp_framed (framed_recordIo _) fun _ w₁ run₁ => wp_framed framed_probeDiscard
    fun _ w₂ run₂ => wp_framed framed_clearRound fun _ w₃ run₃ => wp_framed framed_disarmCheck
      fun _ w₄ run₄ => goesOn w₄ ?_
  exact (frameSteps_frame (((run₁.trans run₂).trans run₃).trans run₄)).2.1

/-- In time, a visit does not end the pass. -/
theorem wp_watchPeer_smooth (smooth : Smooth w.script early) :
    wp (watchPeer gen i limit) (fun goOn w' => FrameSteps w w' ∧ goOn = true) w := by
  -- The visit is framed, and it lets the watch go on.
  have looks : ∀ w' : World, w'.script = w.script → wp (do
      preempt
      match ← readPeer i limit with
      | none => return true
      | some state => do
        let p ← self
        let peer := p.peers i
        let round := peer.probe.round
        if state.phase = .initial ∧ state.inst = 0 ∧ state.worker = p.runtime.worker
            ∧ peer.checkEv = none then
          armCheck gen i (firstDelay gen i (← ask).random)
        if peer.allocated ∧ (state.worker ≠ p.runtime.worker ∨ state.inst ≠ round.inst
            ∨ state.term ≠ round.term ∨ state.round ≠ round.number) then do
          recordIo (.lost i)
          probeDiscard i
          clearRound i
          disarmCheck i
        if state.worker = p.runtime.worker ∧ state.inst = p.runtime.inst then do
          if ((← self).peers i).allocated ∧ ((← self).peers i).probe.round.active then
            probeResume gen i
          return true
        else watchForeign gen i limit state) (fun goOn _ => goOn = true) w' := by
    intro w' same
    refine wp_framed framed_preempt fun _ w₁ run₁ => wp_framed (framed_readPeer limit)
      fun found w₂ run₂ => ?_
    have script : w₂.script = w.script := (frameSteps_frame (run₁.trans run₂)).2.1.trans same
    cases found with
    | none => exact (wp_pure ..).mpr rfl
    | some state =>
      refine wp_framed framed_self fun p w₃ run₃ => (wp_ite ..).mpr ⟨fun _ => ?_, fun _ => ?_⟩
      · refine wp_framed framed_ask fun answer w₄ run₄ => wp_framed (framed_armCheck _)
          fun _ w₅ run₅ => wp_visit_smooth (?_ : Smooth w₅.script early)
        rw [(frameSteps_frame ((run₃.trans run₄).trans run₅)).2.1, script]
        exact smooth
      · refine wp_visit_smooth (?_ : Smooth w₃.script early)
        rw [(frameSteps_frame run₃).2.1, script]
        exact smooth
  refine wp_and (framed_watchPeer limit w) ?_
  unfold watchPeer
  rw [wp_bind, wp_self]
  refine (wp_ite ..).mpr ⟨fun _ => ?_, fun _ => looks w rfl⟩
  exact wp_framed framed_preempt fun _ w₁ run₁ => wp_framed (framed_settle limit)
    fun _ w₂ run₂ => looks w₂ (frameSteps_frame (run₁.trans run₂)).2.1

/-- In time, a pass makes all its visits. -/
theorem wp_watchLoop_smooth (left : Nat) (smooth : Smooth w.script early)
    (inTime : addTime early lockNs ≤ limit) (within : w.self.runtime.cursor < gen.nelts) :
    wp (watchLoop gen limit left)
      (fun _ w' => w'.self.runtime.cursor = (w.self.runtime.cursor + left) % gen.nelts) w := by
  -- Induction on the visits that are left.
  induction left generalizing w with
  | zero =>
    unfold watchLoop
    rw [wp_pure]
    exact (Nat.mod_eq_of_lt within).symm
  | succ left ih =>
    unfold watchLoop
    rw [wp_bind, wp_self, wp_bind, wp_modifyRuntime, wp_bind]
    refine wp_mono (wp_watchPeer_smooth smooth) fun goOn w' visited => ?_
    obtain ⟨run, rfl⟩ := visited
    obtain ⟨_, script, cursor⟩ := frameSteps_frame run
    rw [self_setSelf] at cursor
    refine (wp_ite ..).mpr ⟨fun _ => ?_, fun ends => absurd rfl ends⟩
    have smooth' : Smooth w'.script early := by
      rw [script]
      exact smooth
    rw [wp_bind]
    refine wp_now_smooth smooth' fun t pos _ soon => ?_
    refine (wp_ite ..).mpr ⟨fun expired => by omega, fun _ => ?_⟩
    refine wp_mono (ih smooth' ?_) fun _ w'' reached => ?_
    · rw [passed_self]
      show w'.self.runtime.cursor < gen.nelts
      rw [cursor]
      exact Nat.mod_lt _ (by omega)
    · rw [reached, passed_self]
      show (w'.self.runtime.cursor + left) % gen.nelts = _
      rw [cursor, Nat.mod_add_mod]
      congr 1
      omega

/-- A pass that visits the peer as it was seen. -/
theorem relieves_watchLoop (left distance : Nat) (underway : Underway gen i seen early w)
    (inTime : addTime early lockNs ≤ limit) (within : w.self.runtime.cursor < gen.nelts)
    (reaches : distance < left) (visits : (w.self.runtime.cursor + distance) % gen.nelts = i) :
    byRounds gen (watchLoop gen limit left) (fun _ w' => Relieved i seen w') w := by
  -- Induction on the visits that are left, the peer comes nearer with each of them.
  induction left generalizing w distance with
  | zero => omega
  | succ left ih =>
    unfold watchLoop
    refine byRounds_then (byInner_self (byRounds_then
      (byInner_local (fun post => wp_modifyRuntime _ post _)
      (.scheduled _ _ _) ?_)))
    have onway := underway_roundSteps underway (.single (.inner _ (innerStep_alone (.scheduled
      ((w.self.runtime.cursor + 1) % gen.nelts) w.self.runtime.budget
      w.self.runtime.timersStarted))))
    have rest : ∀ w', Underway gen i seen early w' →
        byRounds gen (watchLoop gen limit left) (fun _ _ => True) w' :=
      fun w' underway' => byRounds_watchLoop left underway'.steady
    cases distance with
    | zero =>
      have here : w.self.runtime.cursor = i := by
        rw [← visits]
        exact (Nat.mod_eq_of_lt within).symm
      rw [here]
      rw [here] at onway
      refine along_bind (along_mono (relieves_watchPeer onway inTime)
        fun goOn w' run relieved => ?_)
      have onway' := underway_roundSteps onway run
      refine relieves_once onway'.toOnward relieved
        (along_ite (fun _ => ?_) fun _ => along_pure trivial)
      refine byRounds_then (byInner_now (fun pos => along_pure trivial) fun t pos _ =>
        along_ite (fun _ => along_pure trivial) fun _ => rest _ ?_)
      exact underway_roundSteps onway' (.single (.inner _ (.passed _ _ _)))
    | succ nearer =>
      have visit := wp_and
        (byRounds_watchPeer onway.steady : byRounds gen
          (watchPeer gen w.self.runtime.cursor limit) _ _)
        (wp_watchPeer_smooth onway.smooth)
      refine along_bind (wp_mono visit fun goOn w' reached => ⟨reached.1.1, ?_⟩)
      obtain ⟨⟨run, _⟩, steps, rfl⟩ := reached
      have onway' := underway_roundSteps onway run
      have cursor := (frameSteps_frame steps).2.2
      rw [self_setSelf] at cursor
      refine along_ite (fun _ => ?_) fun ends => absurd rfl ends
      refine byRounds_then (byInner_now_smooth onway'.smooth fun t pos _ soon =>
        along_ite (fun expired => by omega) fun _ => ?_)
      · refine ih nearer (underway_roundSteps onway' (.single (.inner _ (.passed _ _ _)))) ?_
          (by omega) ?_
        · rw [passed_self]
          show w'.self.runtime.cursor < gen.nelts
          rw [cursor]
          exact Nat.mod_lt _ (by omega)
        · rw [passed_self]
          show (w'.self.runtime.cursor + nearer) % gen.nelts = i
          rw [cursor, Nat.mod_add_mod, ← visits]
          congr 1
          omega

/-- A pass of the watch from its registration on, when the peer is among the next ones. -/
theorem relieves_enlisted (distance : Nat) (underway : Underway gen i seen early w)
    (inTime : addTime early lockNs ≤ limit) (within : w.self.runtime.cursor < gen.nelts)
    (reaches : distance < min gen.nelts batch)
    (visits : (w.self.runtime.cursor + distance) % gen.nelts = i) :
    byRounds gen (do
      if (← register limit) = .declined then runtimeStop gen
      else do
        if (← self).runtime.registered then watchLoop gen limit (min gen.nelts batch)
        rearmWatch gen) (fun _ w' => Relieved i seen w') w := by
  -- The registration is renewed or lost, and then the peers are visited.
  have registers := wp_and (byRounds_of_inner byInner_register : byRounds gen (register limit) _ w)
    (framed_register limit w)
  refine along_bind (wp_mono registers fun rc w' reached => ⟨reached.1.1, ?_⟩)
  obtain ⟨⟨run, _⟩, steps⟩ := reached
  have onway := underway_roundSteps underway run
  have cursor := (frameSteps_frame steps).2.2
  refine along_ite (fun _ => ?_) fun _ => ?_
  · refine byRounds_of_inner (byInner_runtimeStop fun w'' _ stops running => ?_)
    rw [stops] at running
    cases running
  · refine byRounds_then (byInner_self (along_ite (fun _ => ?_) fun unlisted =>
      absurd onway.listed unlisted))
    have loops := relieves_watchLoop (min gen.nelts batch) distance onway inTime
      (by rwa [cursor]) reaches (by rwa [cursor])
    exact along_bind (along_mono loops fun _ w'' later relieved =>
      relieves_once (underway_roundSteps onway later).toOnward relieved
        (byRounds_of_inner (along_mono byInner_rearmWatch
        fun _ _ _ _ => trivial)))

/-- A pass of the watch, when the peer is among the next ones. -/
theorem relieves_watch (distance : Nat) (underway : Underway gen i seen early w)
    (within : w.self.runtime.cursor < gen.nelts) (reaches : distance < min gen.nelts batch)
    (visits : (w.self.runtime.cursor + distance) % gen.nelts = i) :
    byRounds gen (watch gen) (fun _ w' => Relieved i seen w') w := by
  -- The process stops, or it reads the clock and registers before it visits the peers.
  unfold watch
  refine byRounds_then (byInner_stopping (fun w' run stops => along_ite (fun _ => along_pure
    fun running => ?_) fun goes => absurd rfl goes) fun pos running => along_ite (fun stops => ?_)
    fun _ => ?_)
  · rw [stops] at running
    cases running
  · cases stops
  have went := underway_roundSteps underway (.single (.inner _ (.passed [] pos w.locks)))
  refine byRounds_then (byInner_now_smooth went.smooth fun t pos' late _ => ?_)
  have timed := underway_roundSteps went (.single (.inner _ (.passed [t] pos' w.locks)))
  refine byRounds_then (byInner_local (fun post => wp_modifyRuntime _ post _) (.scheduled _ _ _) ?_)
  have onway := fun cursor budget timersStarted => underway_roundSteps timed
    (.single (.inner _ (innerStep_alone (.scheduled cursor budget timersStarted))))
  refine relieves_enlisted distance (onway _ _ _) (addTime_mono late le_rfl (by decide)) ?_
    reaches ?_
  · rw [self_setSelf, passed_self, passed_self]
    exact within
  · rw [self_setSelf, passed_self, passed_self]
    exact visits

/-- In time, a pass of a process that goes on makes all its visits. -/
theorem wp_watch_smooth (underway : Underway gen i seen early w)
    (within : w.self.runtime.cursor < gen.nelts) :
    wp (watch gen) (fun _ w' => w'.self.runtime.stopping = true ∨
      w'.self.runtime.cursor = (w.self.runtime.cursor + min gen.nelts batch) % gen.nelts) w := by
  -- The process stops, or the loop makes all of its turns.
  have does : byRounds gen (stopping gen) (fun stops w' => stops = true →
    w'.self.runtime.stopping = true)
      w :=
    byRounds_of_inner (byInner_stopping (fun _ _ stopped _ => stopped) fun _ _ stops =>
      by cases stops)
  unfold watch
  rw [wp_bind]
  refine wp_mono (wp_and does (framed_stopping w)) fun ends w₁ reached => ?_
  obtain ⟨⟨run₁, halts⟩, steps₁⟩ := reached
  have onway₁ := underway_roundSteps underway run₁
  refine (wp_ite ..).mpr ⟨fun yes => (wp_pure ..).mpr (.inl (halts yes)), fun _ => ?_⟩
  rw [wp_bind]
  refine wp_now_smooth onway₁.smooth fun t pos late _ => ?_
  have timed := underway_roundSteps onway₁ (.single (.inner _ (.passed [t] pos w₁.locks)))
  have onway₂ := fun cursor budget timersStarted => underway_roundSteps timed
    (.single (.inner _ (innerStep_alone (.scheduled cursor budget timersStarted))))
  rw [wp_bind, wp_modifyRuntime, wp_bind]
  refine wp_mono (wp_and (byRounds_of_inner (byInner_register : byInner gen ..))
    (framed_register _ _))
    fun rc w₂ reached => ?_
  obtain ⟨⟨run₂, _⟩, steps₂⟩ := reached
  have onway := underway_roundSteps (onway₂ _ _ _) run₂
  have cursor : w₂.self.runtime.cursor = w.self.runtime.cursor := by
    rw [(frameSteps_frame steps₂).2.2, self_setSelf, passed_self]
    exact (frameSteps_frame steps₁).2.2
  refine (wp_ite ..).mpr ⟨fun _ => ?_, fun _ => ?_⟩
  · have stops : byInner gen (runtimeStop gen) (fun _ w' => w'.self.runtime.stopping = true) w₂ :=
      byInner_runtimeStop fun _ _ stopped => stopped
    exact wp_mono stops fun _ _ reached => .inl reached.2
  · rw [wp_bind, wp_self]
    refine (wp_ite ..).mpr ⟨fun _ => ?_, fun unlisted => absurd onway.listed unlisted⟩
    rw [wp_bind]
    refine wp_mono (wp_watchLoop_smooth (min gen.nelts batch) onway.smooth
      (addTime_mono late le_rfl (by decide)) (by rwa [cursor])) fun _ w₃ passed => ?_
    rw [cursor] at passed
    unfold rearmWatch
    simp only [wp_bind, wp_modifyRuntime, wp_self, wp_ite, wp_pure, self_setSelf]
    exact ⟨fun _ => .inr passed, fun _ => .inr passed⟩

end Pass

end Healthcheck
