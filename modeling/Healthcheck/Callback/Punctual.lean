import Healthcheck.Callback.Ended
import Healthcheck.Callback.Patrol
import Healthcheck.System.Standing

/-!
Progress of the rounds that run. A round that its peer's record names does not outlive its deadline:
the timeout that its process has armed ends it and submits its outcome.
-/

namespace Healthcheck

open Program

section Peaceful

variable {gen : Generation} {i early limit : Nat} {w : World}

/-- An environment that lets a process work, and does not ask it to quit. -/
structure Peaceful (script : Nat → Answer) (early : Nat) : Prop extends Smooth script early where
  stays : ∀ n, (script n).quit = false

/-- The owner of a round gets both locks. -/
theorem wp_lockRecord_peaceful {post : Except Rc PeerState → World → Prop}
    (smooth : Smooth w.script early) (inTime : InTime early limit)
    (owned : Owned gen w.sys w.self i)
    (taken : ∀ rs pos locks, post (.ok (w.sys.record i)) (w.passed rs pos locks)) :
    wp (lockRecord i limit) post w := by
  obtain ⟨_, slotInst, exiting, pid, worker, inst, term, number, owner⟩ := owned
  unfold lockRecord
  rw [wp_bind, wp_self, wp_bind]
  refine wp_lock_smooth smooth inTime fun rs pos => ?_
  simp only [wp_bind, wp_read, wp_ite, wp_unlock, wp_pure]
  refine ⟨fun lost => ?_, fun _ => wp_lock_smooth smooth inTime fun rs' pos' => ?_⟩
  · -- The registration is the one of the round.
    simp only [Sys.slot, Proc.round] at slotInst exiting pid
    simp [slotInst, exiting, pid] at lost
  · simp only [wp_bind, wp_read, wp_ite, wp_unlock, wp_pure]
    refine ⟨fun lost => ?_, fun _ => ?_⟩
    · -- So is the record.
      simp only [Sys.record, Proc.round] at worker inst term number owner
      simp [worker, inst, term, number, owner] at lost
    · simpa [Sys.record] using taken (rs' ++ rs) pos' _

/-- The owner of a record takes its lock in time. -/
theorem wp_ownedLock_peaceful {post : Except Rc PeerState → World → Prop}
    (peaceful : Peaceful w.script early)
    (inTime : InTime early limit) (budget : InTime early w.self.runtime.budget)
    (running : w.self.runtime.stopping = false) (owned : Owned gen w.sys w.self i)
    (taken : ∀ rs pos locks, post (.ok (w.sys.record i)) (w.passed rs pos locks)) :
    wp (ownedLock gen i limit) post w := by
  have usable : ¬ (w.self.runtime.stopping = true ∨ (w.script w.pos).quit = true ∨
      ((w.self.peers i).probe.round).generation ≠ gen.generation) := by
    have current := owned.generation
    rw [Proc.round] at current
    simp [running, peaceful.stays, current]
  unfold ownedLock
  simp only [wp_bind, wp_self, wp_quitting, wp_ite, wp_pure]
  refine ⟨fun refused => absurd refused usable, fun _ => ?_⟩
  -- Whichever limit is chosen, it leaves time for the locks.
  have body : ∀ rs pos limit, InTime early limit →
      wp (lockRecord i limit) post (w.passed rs pos w.locks) := by
    intro rs pos limit inside
    refine wp_lockRecord_peaceful peaceful.toSmooth inside
      ((owned_passed gen w rs pos w.locks i).mpr owned) fun rs' pos' locks => ?_
    simpa using taken (rs' ++ rs) pos' locks
  refine ⟨fun _ => ?_, fun _ => body _ _ _ ?_⟩
  · refine wp_now_smooth peaceful.toSmooth fun t pos late _ => ?_
    have small : lockNs ≤ uint64Max := by decide
    have window : addTime early lockNs ≤ addTime t lockNs := addTime_mono late le_rfl small
    simpa using body [t] pos _ (.inr window)
  · split
    · exact budget
    · exact inTime

/-- The owner of a record finds its round valid. -/
theorem wp_probeValid_peaceful {post : Rc → World → Prop} (peaceful : Peaceful w.script early)
    (budget : InTime early w.self.runtime.budget) (running : w.self.runtime.stopping = false)
    (owned : Owned gen w.sys w.self i) (taken : ∀ rs pos locks, post .ok (w.passed rs pos locks)) :
    wp (probeValid gen i) post w := by
  -- The lock is taken and given back.
  unfold probeValid
  rw [wp_bind]
  refine wp_ownedLock_peaceful peaceful (.inl rfl) budget running owned fun rs pos locks => ?_
  simpa [ownedUnlock] using taken rs pos _

/-- The owner of a round that stands open can submit it. -/
theorem wp_submit_peaceful (peaceful : Peaceful w.script early) (inTime : InTime early limit)
    (budget : InTime early w.self.runtime.budget) (running : w.self.runtime.stopping = false)
    (owned : Owned gen w.sys w.self i)
    (stage : (w.sys.record i).phase = .preparing ∨ (w.sys.record i).phase = .inflight) :
    wp (submit gen i limit) (fun rc _ => rc = .ok) w := by
  -- The lock is taken, the clock answers, and the record is still open.
  unfold submit
  rw [wp_bind]
  refine wp_ownedLock_peaceful peaceful inTime budget running owned fun rs pos locks => ?_
  simp only [wp_bind, wp_quitting, wp_ite, ownedUnlock, wp_unlock, wp_self, wp_pure]
  refine ⟨fun refused => ?_, fun _ => wp_now_smooth peaceful.toSmooth fun t pos' _ _ => ?_⟩
  · simp only [passed_script, peaceful.stays, Bool.false_eq_true, or_false] at refused
    rcases stage with preparing | inflight
    · exact absurd preparing refused.1
    · exact absurd inflight refused.2
  · simp [wp_bind, wp_self, wp_read, wp_publishPeer, wp_unlock, wp_modifyRound, wp_ite,
      wp_modifyPeer, wp_pure]

/-- What the owner submits brings the record to the end of its round. -/
theorem wp_settle_peaceful (peaceful : Peaceful w.script early) (inTime : InTime early limit)
    (budget : InTime early w.self.runtime.budget) (running : w.self.runtime.stopping = false)
    (owned : Owned gen w.sys w.self i)
    (stage : (w.sys.record i).phase = .preparing ∨ (w.sys.record i).phase = .inflight) :
    wp (settle gen i limit) (fun _ w' => (w'.sys.record i).round = (w.sys.record i).round ∧
      (w'.sys.record i).phase = .waiting) w := by
  -- The submission goes through, and it leaves the record WAITING.
  have submits : wp (settle gen i limit) (fun rc _ => rc = .ok) w := by
    unfold settle
    rw [wp_bind]
    refine wp_mono (wp_submit_peaceful peaceful inTime budget running owned stage)
      fun rc w' ok => ?_
    subst ok
    rw [wp_ite]
    refine ⟨fun declined => ?_, fun _ => (wp_pure ..).mpr rfl⟩
    cases declined
  have commits : wp (settle gen i limit) (fun rc w' => rc = .ok →
      (w'.sys.record i).round = (w.sys.record i).round ∧ (w'.sys.record i).phase = .waiting) w := by
    refine wp_settle (fun rc _ _ _ failed _ ok => absurd ok failed)
      (fun _ _ _ ok => by cases ok) fun t rs pos locks _ _ _ _ _ => ?_
    simp [World.published, World.setSelf, Sys.setProc, Sys.record, submitState]
  exact wp_mono (wp_and submits commits) fun rc w' reached => reached.2 reached.1

end Peaceful

/-- A record that is as far as it comes in its round before the submission. -/
def PeerState.unsubmitted (state : PeerState) : PeerState :=
  { state with phase := .inflight }

/-- Beyond that a round has been submitted, or another one has begun. -/
theorem unsubmitted_lt {seen state : PeerState} :
    seen.unsubmitted.progress < state.progress ↔
      seen.round < state.round ∨ (state.round = seen.round ∧ state.phase = .waiting) := by
  -- The phases of a round are numbered in their order.
  show 4 * seen.round + 2 < 4 * state.round + state.phase.place ↔ _
  cases phase : state.phase <;> simp [Phase.place] <;> omega

section Way

variable {gen : Generation} {i early : Nat} {seen : PeerState} {w w' : World}

/-- A process is in the round of a peer that the record, as it was seen, stands for. -/
structure Holding (gen : Generation) (i : Nat) (seen : PeerState) (p : Proc) : Prop where
  claim : p.core.claim i = seen.claim
  inst : (p.round i).inst = p.runtime.inst
  generation : (p.round i).generation = gen.generation
  stage : seen.phase = .preparing ∨ seen.phase = .inflight

/-- What a process holds is read from its round and its runtime. -/
theorem holding_congr {p p' : Proc} (runtime : p'.runtime = p.runtime) (pid : p'.pid = p.pid)
    (identity : (p'.round i).inst = (p.round i).inst ∧ (p'.round i).term = (p.round i).term ∧
      (p'.round i).number = (p.round i).number ∧ (p'.round i).started = (p.round i).started ∧
      (p'.round i).generation = (p.round i).generation)
    (holding : Holding gen i seen p) : Holding gen i seen p' := by
  -- Each field is the one before.
  obtain ⟨claim, inst, generation, stage⟩ := holding
  obtain ⟨inst', term', number', started', generation'⟩ := identity
  refine ⟨?_, ?_, generation'.trans generation, stage⟩
  · rw [← claim]
    simp only [Core.claim, Proc.core, inst', term', number', started', runtime, pid]
  · rw [inst', runtime, inst]

/-- A registered process in its round owns the record that stands for it. -/
theorem owned_holding {s : Sys} {p : Proc} (holding : Holding gen i seen p)
    (registration : Registered s p) (claim : p.core.claim i = (s.record i).claim) :
    Owned gen s p i := by
  -- The registration and the claim are in place.
  obtain ⟨_, inst, generation, _⟩ := holding
  obtain ⟨slotInst, exiting, pid⟩ := registration
  exact ⟨generation, slotInst.trans inst.symm, exiting, pid, (congrArg Claim.worker claim).symm,
    (congrArg Claim.inst claim).symm, (congrArg Claim.term claim).symm,
    (congrArg Claim.round claim).symm, (congrArg Claim.owner claim).symm⟩

/-- A process on the way to the end of its round of a peer, which was seen open. -/
structure Expiring (gen : Generation) (i : Nat) (seen : PeerState) (early : Nat) (w : World) :
    Prop extends Onward gen i seen early w where
  peaceful : Peaceful w.script early
  budget : InTime early w.self.runtime.budget
  holding : Holding gen i seen w.self

/-- Steps that leave the process in its round. -/
theorem expiring_atomicSteps (expiring : Expiring gen i seen early w) (run : AtomicSteps gen w w')
    (script : w'.script = w.script) (runtime : w'.self.runtime = w.self.runtime)
    (pid : w'.self.pid = w.self.pid) (round : w'.self.round i = w.self.round i) :
    Expiring gen i seen early w' := by
  -- The process is still on its way, and it holds what it held.
  refine ⟨(onward_atomicSteps expiring.toOnward run).1, ?_, ?_, holding_congr runtime pid ?_
    expiring.holding⟩
  · rw [script]
    exact expiring.peaceful
  · rw [runtime]
    exact expiring.budget
  · simp only [round, and_self]

/-- Until the round has been submitted, the process owns the record, which stands open. -/
theorem expiring_open (expiring : Expiring gen i seen early w) : Relieved i seen.unsubmitted w ∨
    (w.self.runtime.stopping = false ∧ Owned gen w.sys w.self i ∧
      (w.sys.record i).round = seen.round ∧
      ((w.sys.record i).phase = .preparing ∨ (w.sys.record i).phase = .inflight)) := by
  by_cases goes : w.self.runtime.stopping = false
  · by_cases registration : Registered w.sys w.self
    · by_cases further : seen.unsubmitted.progress < (w.sys.record i).progress
      · exact .inl fun _ _ => further
      -- The record is in the round in which it was seen, and not behind the phase that it had.
      have reached : seen.progress ≤ (w.sys.record i).progress := by
        rcases expiring.record with same | later
        · rw [same]
        · exact later.le
      have between : (w.sys.record i).round = seen.round ∧
          ((w.sys.record i).phase = .preparing ∨ (w.sys.record i).phase = .inflight) := by
        rw [unsubmitted_lt] at further
        have stage := expiring.holding.stage
        simp only [PeerState.progress] at reached
        cases phase : (w.sys.record i).phase <;> rcases stage with seenAt | seenAt <;>
          simp [phase, seenAt, Phase.place] at reached further ⊢ <;> omega
      obtain ⟨round, open_⟩ := between
      have consistent := expiring.sound.consistent i
      have named : ((w.sys.core w.me).rounds i).number = (w.sys.record i).round :=
        (congrArg Claim.round expiring.holding.claim).trans round.symm
      have claimed : ((w.sys.core w.me).rounds i).number ≠ 0 := by
        rw [named]
        intro none
        rw [consistent.initial.mpr none] at open_
        simp at open_
      have claim : w.self.core.claim i = (w.sys.record i).claim :=
        consistent.matched w.me claimed named
      exact .inr ⟨goes, owned_holding expiring.holding registration claim, round, open_⟩
    · exact .inl fun _ held => absurd held registration
  · exact .inl fun running => absurd running goes

/-- What follows the submission of a round. -/
theorem wp_submission {result : Bool} {post : Rc → World → Prop}
    (past : (w.self.round i).active = false) (pending : (w.self.round i).pending = true)
    (settles : wp (settle gen i 0) post w) :
    wp (do
      let rc ← settle gen i 0
      recordIo (.submitted i result rc)
      if result then
        modifyProbe i fun probe =>
          { probe with connection := probe.connection.map fun c =>
              { c with requests := c.requests + 1 } }
      probeCleanup gen i (rc = .ok && result)) (fun _ w' => ∃ rc w₁,
        AtomicSteps gen w w₁ ∧ post rc w₁ ∧ AtomicSteps gen w₁ w') w := by
  -- What follows the submission leaves the records alone.
  have submission : byInner gen (settle gen i 0) (fun _ w₁ =>
      (w₁.self.round i).active = false) w :=
    byInner_settle pending fun _ w₁ _ _ active _ => active.trans past
  rw [wp_bind]
  refine wp_mono (wp_and submission settles) fun rc w₁ reached => ?_
  obtain ⟨⟨first, finished⟩, settled⟩ := reached
  rw [wp_bind, wp_record i]
  have past' : ((w₁.submitted i result rc).self.round i).active = false := by
    rw [World.submitted, self_setSelf, handle_round]
    exact finished
  refine wp_mono (byInner_afterSubmission past' fun reused => (Bool.and_eq_true_iff.mp reused).2)
    fun _ w' reached => ?_
  exact ⟨rc, w₁, atomic_of_inner first, settled,
    .head (.submitted i result rc) (atomic_of_inner reached.1)⟩

/-- The submission of a round that is over and waits for it. -/
theorem relieves_submission {result : Bool} (expiring : Expiring gen i seen early w)
    (past : (w.self.round i).active = false) (pending : (w.self.round i).pending = true) :
    wp (do
      preempt
      let rc ← settle gen i 0
      recordIo (.submitted i result rc)
      if result then
        modifyProbe i fun probe =>
          { probe with connection := probe.connection.map fun c =>
              { c with requests := c.requests + 1 } }
      probeCleanup gen i (rc = .ok && result)) (fun _ w' => Relieved i seen.unsubmitted w') w := by
  rw [wp_bind]
  refine wp_preempt ?_
  have onway : Expiring gen i seen early w.preempted :=
    expiring_atomicSteps expiring (.single (.inner _ .preempted)) rfl (by rw [preempted_self])
      (by rw [preempted_self]) (by rw [preempted_self])
  have past' : (w.preempted.self.round i).active = false := by rwa [preempted_self]
  have pending' : (w.preempted.self.round i).pending = true := by rwa [preempted_self]
  rcases expiring_open onway with relieved | ⟨goes, owned, round, stage⟩
  · -- Others were faster.
    have submits : wp (settle gen i 0) (fun _ _ => True) w.preempted := fun _ _ _ => trivial
    refine wp_mono (wp_submission past' pending' submits) ?_
    rintro _ w' ⟨rc, w₁, first, _, second⟩
    exact relieved_atomicSteps onway.toOnward (first.trans second) relieved
  · refine wp_mono (wp_submission past' pending' (wp_settle_peaceful onway.peaceful (.inl rfl)
      onway.budget goes owned stage)) ?_
    rintro _ w' ⟨rc, w₁, first, ⟨same, submitted⟩, second⟩
    refine relieved_atomicSteps (onward_atomicSteps onway.toOnward first).1 second fun _ _ => ?_
    exact unsubmitted_lt.mpr (.inr ⟨same.trans round, submitted⟩)

/-- A note concerns neither the process nor the round. -/
theorem noting_kept (w : World) (i : Nat) (events : List IoEvent) (label : Option Errno)
    (pos : Nat) :
    (w.noting i events label [] pos).script = w.script ∧
      (w.noting i events label [] pos).self.runtime = w.self.runtime ∧
      (w.noting i events label [] pos).self.pid = w.self.pid ∧
      (w.noting i events label [] pos).self.round i = w.self.round i := by
  -- The notes are written into the probe.
  refine ⟨rfl, ?_, ?_, ?_⟩
  all_goals rw [World.noting, Proc.note]
  · rw [passed_self, self_setSelf]
    rfl
  · rw [passed_self, self_setSelf]
    rfl
  · rw [passed_round, self_setSelf, handle_round]
    rfl

/-- The end of a running round, right after what led to its outcome was noted. -/
theorem relieves_finish {result : Bool} {reason source : String} {error label : Option Errno}
    {events : List IoEvent} {pos : Nat} (expiring : Expiring gen i seen early w)
    (noted : Noted gen i (w.self.peers i).probe (w.self.history i) result events)
    (active : (w.self.round i).active = true) (idle : (w.self.round i).pending = false) :
    wp (finish gen i result reason source error) (fun _ w' => Relieved i seen.unsubmitted w')
      (w.noting i events label [] pos) := by
  -- The outcome is frozen, and its submission goes through.
  obtain ⟨script', runtime', pid', round'⟩ := noting_kept w i events label pos
  have moment : wp (freeze gen i result reason source error) (fun froze w₁ => froze = true ∧
      w₁.script = w.script ∧ w₁.self.runtime = w.self.runtime ∧ w₁.self.pid = w.self.pid ∧
      (w₁.self.round i).active = false ∧ (w₁.self.round i).pending = true ∧
      ((w₁.self.round i).inst = (w.self.round i).inst ∧
        (w₁.self.round i).term = (w.self.round i).term ∧
        (w₁.self.round i).number = (w.self.round i).number ∧
        (w₁.self.round i).started = (w.self.round i).started ∧
        (w₁.self.round i).generation = (w.self.round i).generation))
      (w.noting i events label [] pos) := by
    rw [← script', ← runtime', ← pid', ← round']
    refine wp_freeze (fun past => ?_) (fun delay rs pos _ _ _ => ?_)
    · rw [round', active, idle] at past
      simp at past
    · simp [World.noted, Proc.frozen, Proc.round, Proc.setPeer]
  unfold finish
  rw [wp_bind]
  refine wp_mono (wp_and (wp_returned _ _) moment) fun froze w₁ reached => ?_
  obtain ⟨returned, same, script, runtime, pid, past, pending, identity⟩ := reached
  subst same
  have frozen : AtomicStep gen w w₁ :=
    .froze i result reason source error label events [] pos w₁ noted active idle returned
  rw [if_pos rfl]
  refine relieves_submission ⟨(onward_atomicSteps expiring.toOnward (.single frozen)).1, ?_, ?_,
    holding_congr runtime pid identity expiring.holding⟩ past pending
  · rw [script]
    exact expiring.peaceful
  · rw [runtime]
    exact expiring.budget

/-- The end of a running round whose deadline was reached. -/
theorem relieves_expired {t : Nat} (expiring : Expiring gen i seen early w)
    (active : (w.self.round i).active = true) (idle : (w.self.round i).pending = false) :
    wp (do
      recordIo (.expired i t)
      if (gen.conf i).checkType = .udp then
        finish gen i true "deadline without confirmed failure" "timer" none
      else finish gen i false "tcp timeout" "timer" none)
      (fun _ w' => Relieved i seen.unsubmitted w') w := by
  -- The deadline that was reached is a note of both results.
  have noted : Noted gen i (w.self.peers i).probe (w.self.history i)
      ((gen.conf i).checkType = .udp) [.expired i t] := .expired t
  rw [wp_bind, wp_record_noting (i := i)]
  by_cases udp : (gen.conf i).checkType = .udp
  · rw [if_pos udp]
    rw [decide_eq_true udp] at noted
    exact relieves_finish expiring noted active idle
  · rw [if_neg udp]
    rw [decide_eq_false udp] at noted
    exact relieves_finish expiring noted active idle

/-- What `timeout` does once it knows whether the round is still its own. -/
theorem byRounds_expire {rc : Rc} (active : (w.self.round i).active = true)
    (idle : (w.self.round i).pending = false) :
    byRounds gen (do
      if rc = .declined then do
        recordIo (.lost i)
        modifyRound i fun round => { round with active := false }
        probeDiscard i
      else
        match ← now with
        | none => armTimeout gen i 1
        | some reading =>
          let deadline := ((← self).peers i).probe.round.deadline
          if milliseconds reading < deadline then
            armTimeout gen i (deadline - milliseconds reading)
          else do
            recordIo (.expired i reading)
            if (gen.conf i).checkType = .udp then
              finish gen i true "deadline without confirmed failure" "timer" none
            else finish gen i false "tcp timeout" "timer" none) (fun _ _ => True) w := by
  -- The round is lost, it is finished, or its timer is set again.
  have armed : ∀ (delay : Nat) (w' : World), byRounds gen (armTimeout gen i delay)
      (fun _ _ => True) w' :=
    fun _ _ => byRounds_of_inner (byInner_armTimeout fun _ _ _ => trivial)
  refine along_ite (fun _ => ?_) fun _ => ?_
  · exact byRounds_of_inner (along_mono (byInner_giveUpRound (wp_endFirst i))
      fun _ _ _ _ => trivial)
  refine byRounds_then (byInner_now (fun pos => armed 1 _) fun t pos _ => ?_)
  refine byRounds_then (byInner_self (along_ite (fun _ => armed _ _) fun _ => ?_))
  exact byRounds_expired (by rwa [passed_round]) (by rwa [passed_round]) fun _ _ _ => trivial

/-- The timeout of a running round whose deadline is over. -/
theorem relieves_timeout (expiring : Expiring gen i seen early w)
    (active : (w.self.round i).active = true) (idle : (w.self.round i).pending = false)
    (late : (w.self.round i).deadline ≤ milliseconds early) :
    wp (timeout gen i) (fun _ w' => Relieved i seen.unsubmitted w') w := by
  unfold timeout
  rw [wp_bind, wp_self, wp_ite]
  refine ⟨fun closed => ?_, fun _ => ?_⟩
  · rw [← Proc.round, active, idle] at closed
    simp at closed
  rw [wp_bind, wp_quitting, wp_ite]
  refine ⟨fun _ => ?_, fun _ => (wp_bind ..).mpr (wp_preempt ?_)⟩
  · -- A process that stops leaves the peer to others.
    have stops : byInner gen (runtimeStop gen) (fun _ w' => w'.self.runtime.stopping = true)
        (w.passed [] (w.pos + 1) w.locks) := byInner_runtimeStop fun _ _ stopped => stopped
    refine wp_mono stops fun _ _ reached goes => ?_
    rw [reached.2] at goes
    cases goes
  have before : AtomicSteps gen w (w.passed [] (w.pos + 1) w.locks).preempted :=
    .tail (.single (.inner _ (.passed _ _ _))) (.inner _ .preempted)
  have onway := expiring_atomicSteps expiring before rfl (by rw [preempted_self, passed_self])
    (by rw [preempted_self, passed_self]) (by rw [preempted_self, passed_round])
  have round : (w.passed [] (w.pos + 1) w.locks).preempted.self.round i = w.self.round i := by
    rw [preempted_self, passed_round]
  rw [← round] at active idle late
  generalize (w.passed [] (w.pos + 1) w.locks).preempted = w₁ at onway active idle late
  rcases expiring_open onway with relieved | ⟨goes, owned, _⟩
  · -- Others were faster, so the round is given up.
    refine wp_mono (byRounds_then (byInner_probeValid (fun rc rs pos _ _ => byRounds_expire ?_ ?_)
      fun rs pos _ _ _ => byRounds_expire ?_ ?_)) fun _ w' reached =>
        relieved_roundSteps onway.toOnward reached.1 relieved
    all_goals rwa [passed_round]
  rw [wp_bind]
  refine wp_probeValid_peaceful onway.peaceful onway.budget goes owned fun rs pos locks => ?_
  rw [wp_ite]
  refine ⟨fun declined => ?_, fun _ => (wp_bind ..).mpr (wp_now_smooth onway.smooth
    fun t pos' after _ => ?_)⟩
  · cases declined
  dsimp only
  rw [wp_bind, wp_self, wp_ite]
  refine ⟨fun early' => ?_, fun _ => ?_⟩
  · -- The clock does not run back behind the deadline.
    have later : milliseconds early ≤ milliseconds t := Nat.div_le_div_right after
    rw [← Proc.round, passed_round, passed_round] at early'
    omega
  have went : AtomicSteps gen w₁ ((w₁.passed rs pos locks).passed [t] pos'
    (w₁.passed rs pos locks).locks) :=
    .tail (.single (.inner _ (.passed _ _ _))) (.inner _ (.passed _ _ _))
  have ends := expiring_atomicSteps onway went rfl (by simp) (by simp)
    (by rw [passed_round, passed_round])
  have runs : (((w₁.passed rs pos locks).passed [t] pos'
      (w₁.passed rs pos locks).locks).self.round i).active = true := by
    rwa [passed_round, passed_round]
  have waits : (((w₁.passed rs pos locks).passed [t] pos'
      (w₁.passed rs pos locks).locks).self.round i).pending = false := by
    rwa [passed_round, passed_round]
  exact relieves_expired ends runs waits

end Way

section Budget

variable {gen : Generation} {w : World}

/-- The watch is set again with an empty budget. -/
theorem wp_rearmWatch_budget :
    wp (rearmWatch gen) (fun _ w' => w'.self.runtime.budget = 0) w := by
  -- The budget is the first write.
  unfold rearmWatch
  simp [wp_bind, wp_modifyRuntime, wp_self, wp_ite, wp_pure, self_setSelf]

/-- The limit of a pass does not outlive the pass, unless the process stops in it. -/
theorem wp_watch_budget : wp (watch gen) (fun _ w' =>
    w'.self.runtime.stopping = true ∨ w'.self.runtime.budget = 0) w := by
  -- Every way through the watch ends with the stop or with the timer.
  have does : byInner gen (stopping gen) (fun stops w' => stops = true →
      w'.self.runtime.stopping = true) w :=
    byInner_stopping (fun _ _ stopped _ => stopped) fun _ _ stops => by cases stops
  have rearms : ∀ w' : World, wp (rearmWatch gen) (fun _ w'' =>
      w''.self.runtime.stopping = true ∨ w''.self.runtime.budget = 0) w' :=
    fun _ => wp_mono wp_rearmWatch_budget fun _ _ none => .inr none
  unfold watch
  rw [wp_bind]
  refine wp_mono does fun ends w₁ reached => (wp_ite ..).mpr ⟨fun yes => ?_, fun _ => ?_⟩
  · exact (wp_pure ..).mpr (.inl (reached.2 yes))
  rw [wp_bind]
  refine wp_now (fun _ => rearms _) fun t pos _ => ?_
  rw [wp_bind, wp_modifyRuntime]
  refine wp_framed (framed_register _) fun rc w₂ _ => (wp_ite ..).mpr ⟨fun _ => ?_, fun _ => ?_⟩
  · have stops : byInner gen (runtimeStop gen) (fun _ w' => w'.self.runtime.stopping = true) w₂ :=
      byInner_runtimeStop fun _ _ stopped => stopped
    exact wp_mono stops fun _ _ reached => .inl reached.2
  · rw [wp_bind, wp_self]
    refine (wp_ite ..).mpr ⟨fun _ => ?_, fun _ => rearms _⟩
    rw [wp_bind]
    have loops : Relates (watchLoop gen (addTime t lockNs) (min gen.nelts batch))
      (WatchSteps gen) :=
      byWatch_watchLoop _ _
    exact wp_mono (loops w₂) fun _ _ _ => rearms _

/-- Between two callbacks a process that goes on has no limit of a pass. -/
theorem life_budget {me : Nat} {start : Sys → Prop} {between : Sys → Sys → Prop} {s : Sys}
    (life : Life gen me start between s) (goes : (s.procs me).runtime.stopping = false) :
    (s.procs me).runtime.budget = 0 := by
  -- Induction on the life, one callback at its end.
  induction life with
  | started w w' pid worker mine begins fresh others returned =>
    have run := framed_runtimeInit w () w' returned
    rw [self_mine ((frameSteps_frame run).1.trans mine), frameSteps_budget run, fresh]
    rfl
  | others s s' life moved ih =>
    rw [procs_setProc] at goes ⊢
    exact ih goes
  | called callback w w' mine life others returned ih =>
    have steady : Steady w.self := by
      rw [← self_mine mine]
      exact life_steady life
    have course := callbackRun_callback callback steady () w' returned
    have after : w'.sys.procs me = w'.self :=
      self_mine ((watchSteps_halted (byWatch_callback callback w () w' returned)
        (by rw [← self_mine mine]; exact life_halted life)).1.trans mine)
    rw [after] at goes ⊢
    have went : w.self.runtime.stopping = false := by
      rw [Bool.eq_false_iff]
      intro stops
      rw [stopping_callbackRun steady course stops] at goes
      cases goes
    rw [self_mine mine] at ih
    by_cases other : callback = .watchTimer
    · subst other
      by_cases armed : w.self.runtime.watch.isSome = true
      · rcases wp_watchTimer armed wp_watch_budget () w' returned with stops | none
        · rw [goes] at stops
          cases stops
        · exact none
      · -- The watch is not armed, so nothing happens.
        have still : wp (Callback.watchTimer.run gen) (fun _ w' => w' = w) w := by
          unfold Callback.run
          rw [wp_bind, wp_self, wp_ite]
          exact ⟨fun yes => absurd yes armed, fun _ => (wp_pure ..).mpr rfl⟩
        rw [still () w' returned]
        exact ih went
    · rw [frameSteps_budget (framed_callback callback other w () w' returned)]
      exact ih went

end Budget

section Life

variable {gen : Generation} {me i early : Nat} {root : Sys} {w w' : World}

/-- A round that runs in its process, and that the record stands for, is seen open. -/
theorem life_holding (initial : Initial gen root) (life : WorkerLife gen me root w.sys)
    (mine : w.me = me) (active : (w.self.round i).active = true)
    (named : (w.self.round i).number = (w.sys.record i).round) :
    w.self.runtime.registered = true ∧ Holding gen i (w.sys.record i) w.self := by
  -- A running round that the record names is still open there.
  have run := (life_steps life).1
  have sound : Sound w.sys := (settled_steps (settled_initial initial) run).sound
  have standing : Standing gen w.sys i := standing_reachable initial run
  have consistent := sound.consistent i
  subst mine
  have runs : ((w.sys.core w.me).rounds i).active = true := active
  have claimed := consistent.busy w.me (.inl runs)
  obtain ⟨registered, inst⟩ := consistent.named w.me claimed
  exact ⟨registered, consistent.matched w.me claimed named, inst,
    standing.generation w.me (.inl runs), standing.opened w.me (.inl runs) named⟩

/-- A timer of a round that is armed calls `timeout`. -/
theorem wp_timeoutTimer {post : Unit → World → Prop}
    (armed : (w.self.peers i).probe.timeout.isSome = true)
    (holds : wp (timeout gen i) post (w.setSelf (w.self.handle i
      { (w.self.peers i).probe with timeout := none } []))) :
    wp ((Callback.timeoutTimer i).run gen) post w := by
  -- The timer is armed, so the timeout is run.
  unfold Callback.run
  rw [wp_bind, wp_self, wp_ite, wp_bind, wp_handle i, wp_pure]
  exact ⟨fun _ => holds, fun idle => absurd armed idle⟩

/-- No round outlives its deadline. When the timeout of a round that the peer's record names calls
back at its deadline or later, in an environment that lets its process work, the round has been
submitted or overtaken by a later one, unless the process stops or loses its registration. -/
theorem round_expires (initial : Initial gen root) (life : WorkerLife gen me root w.sys)
    (mine : w.me = me) (listed : i < gen.nelts) (active : (w.self.round i).active = true)
    (named : (w.self.round i).number = (w.sys.record i).round)
    (late : (w.self.round i).deadline ≤ milliseconds early) (peaceful : Peaceful w.script early)
    (others : ∀ n s, OtherSteps gen me s ((w.script n).others s))
    (returned : (Callback.timeoutTimer i).run gen w = some ((), w'))
    (goes : w'.self.runtime.stopping = false) (registration : Registered w'.sys w'.self) :
    (w.sys.record i).round < (w'.sys.record i).round ∨
      ((w'.sys.record i).round = (w.sys.record i).round ∧ (w'.sys.record i).phase = .waiting) := by
  -- The timeout finishes the round, and its submission goes through.
  obtain ⟨registered, holding⟩ := life_holding initial life mine active named
  obtain ⟨_, timeout, single, _⟩ := no_orphan initial life listed
  rw [self_mine mine] at timeout single
  have idle : (w.self.round i).pending = false := by
    rw [Bool.eq_false_iff]
    exact fun pending => single ⟨active, pending⟩
  have went : w.self.runtime.stopping = false := by
    rw [Bool.eq_false_iff]
    intro stops
    rw [← self_mine mine] at stops active
    rw [(stopping_idle life listed stops).1] at active
    cases active
  have budget : w.self.runtime.budget = 0 := by
    have none := life_budget life
    rw [self_mine mine] at none
    exact none went
  have onward : Onward gen i (w.sys.record i) early (w.setSelf (w.self.handle i
      { (w.self.peers i).probe with timeout := none } [])) :=
    life_onward initial life mine registered rfl rfl (quieter_handle _ _ (Round.Quieter.refl _))
      (fun steady => steady_expire steady i) others peaceful.toSmooth
  have expiring : Expiring gen i (w.sys.record i) early (w.setSelf (w.self.handle i
      { (w.self.peers i).probe with timeout := none } [])) := by
    refine ⟨onward, peaceful, ?_, ?_⟩
    · rw [self_setSelf]
      exact .inl budget
    · rw [self_setSelf]
      refine holding_congr ?_ ?_ ?_ holding
      · rfl
      · rfl
      · simp [Proc.round]
  have relieved := wp_timeoutTimer (timeout active) (relieves_timeout expiring ?_ ?_ ?_)
    () w' returned
  · exact unsubmitted_lt.mp (relieved goes registration)
  all_goals rwa [self_setSelf, handle_round]

/-- The timeout of a round whose connection never became ready. -/
def expiredLife : Option Sys :=
  claimedLife.bind fun s => callAll sample 0 [(.timeoutTimer 0, fun _ => quietAt 100000)] s

/-- A quiet environment is peaceful. -/
theorem peaceful_quietAt : Peaceful (fun _ => quietAt 100000) 100000000000 :=
  ⟨smooth_quietAt, fun _ => rfl⟩

/-- A worker whose round is past its deadline. -/
theorem round_expires_claimed : ∃ s s', claimedLife = some s ∧ expiredLife = some s' ∧
    ((s.record 0).round < (s'.record 0).round ∨
      ((s'.record 0).round = (s.record 0).round ∧ (s'.record 0).phase = .waiting)) := by
  -- Both ends of the call are computed, and the theorem says what became of the round.
  have before : (claimedLife.map fun s => (((s.procs 0).round 0).active,
      decide (((s.procs 0).round 0).number = (s.record 0).round),
      decide (((s.procs 0).round 0).deadline ≤ 100000))) = some (true, true, true) := by
    decide +kernel
  have after : (expiredLife.map fun s => ((s.procs 0).runtime.stopping,
      decide ((s.slot (s.procs 0).runtime.worker).inst = (s.procs 0).runtime.inst),
      (s.slot (s.procs 0).runtime.worker).exiting,
      decide ((s.slot (s.procs 0).runtime.worker).pid = (s.procs 0).pid))) =
      some (false, true, false, true) := by decide +kernel
  obtain ⟨s, claimed, state⟩ := Option.map_eq_some_iff.mp before
  obtain ⟨s', expired, ended⟩ := Option.map_eq_some_iff.mp after
  obtain ⟨active, named, late⟩ : _ ∧ _ ∧ _ := by simpa using state
  obtain ⟨goes, mine, leaving, pid⟩ : _ ∧ _ ∧ _ ∧ _ := by simpa using ended
  refine ⟨s, s', claimed, expired, ?_⟩
  rw [expiredLife, claimed, Option.bind_some, callAll, Option.bind_eq_some_iff] at expired
  obtain ⟨⟨_, w⟩, returned, rest⟩ := expired
  cases rest
  have life := worker_claimedLife claimed
  have reached : ((s.procs 0).round 0).deadline ≤ milliseconds 100000000000 :=
    late.trans (by decide)
  have same : w.sys.procs 0 = w.self :=
    self_mine (life_callback rfl life (fun _ _ => .refl) returned).2.me
  rw [same] at goes mine leaving pid
  exact round_expires (w := { sys := s, me := 0, script := fun _ => quietAt 100000 })
    (fresh_initial sample) life rfl (by decide) active named reached peaceful_quietAt
    (fun _ _ => .refl) returned goes ⟨mine, leaving, pid⟩

end Life

end Healthcheck
