import Healthcheck.Callback.Footprint
import Healthcheck.Callback.Locks
import Healthcheck.Callback.Orphan
import Healthcheck.System.Advance
import Healthcheck.System.Preferred

/-!
Progress under good conditions: an environment that lets a process work, and a process on the way to
a record that has come further than it was seen, or will have when the process is done.
-/

namespace Healthcheck

open Program

/-- An environment that lets a process work for the time of one pass: the locks are free, there is
memory, and the clock is read within that time. -/
structure Smooth (script : Nat → Answer) (early : Nat) : Prop where
  lock : ∀ n, (script n).lock = true
  alloc : ∀ n, (script n).alloc = true
  clock : ∀ n, ∃ t, (script n).reading t ∧ early ≤ t ∧ t < addTime early lockNs

section Smooth

variable {gen : Generation} {i early limit : Nat} {w : World}

/-- A smooth clock answers within the time for a lock. -/
theorem wp_now_smooth {post : Option Nat → World → Prop} (smooth : Smooth w.script early)
    (reading : ∀ t pos, early ≤ t → t < addTime early lockNs → post (some t)
    (w.passed [t] pos w.locks)) :
    wp now post w := by
  -- The answer is valid and in range.
  obtain ⟨t, ⟨ts, clock, valid, same⟩, late, soon⟩ := smooth.clock w.pos
  unfold now
  rw [wp_bind, wp_ask, clock]
  simp only [wp_ite, wp_pure, wp_bind, wp_modifySelf]
  refine ⟨fun negative => absurd negative valid, fun _ => ?_⟩
  have taken := reading t (w.pos + 1) late soon
  rw [same] at taken
  simpa [World.passed, World.setSelf, World.self, Sys.setProc] using taken

/-- The limits of the callers leave time for a lock. -/
def InTime (early limit : Nat) : Prop :=
  limit = 0 ∨ addTime early lockNs ≤ limit

/-- A free lock is taken in time. -/
theorem wp_lock_smooth {mutex : Mutex} {post : Rc → World → Prop} (smooth : Smooth w.script early)
    (inTime : InTime early limit)
    (taken : ∀ rs pos, post .ok (w.passed rs pos (.acquired mutex :: w.locks))) :
    wp (lock mutex limit) post w := by
  unfold lock
  rw [wp_bind]
  refine wp_now_smooth smooth fun t pos late soon => ?_
  simp only [wp_ite, wp_pure, wp_bind, wp_ask, wp_change]
  refine ⟨fun expired => ?_, fun _ => ⟨fun _ => ?_, fun busy => ?_⟩⟩
  · -- Neither a limit of one lock time nor that of the pass has been reached.
    have small : lockNs ≤ uint64Max := by decide
    have window : addTime early lockNs ≤ addTime t lockNs := addTime_mono late le_rfl small
    rcases inTime with none | enough
    · rw [if_pos none] at expired
      omega
    · split at expired
      · omega
      · omega
  · have result := taken [t] (pos + 1)
    simpa [World.passed, World.self, Sys.setProc] using result
  · rw [passed_script] at busy
    exact absurd (smooth.lock _) busy

/-- A record is read in time. -/
theorem wp_readPeer_smooth {post : Option PeerState → World → Prop} (smooth : Smooth w.script early)
    (inTime : InTime early limit)
    (taken : ∀ rs pos locks, post (some (w.sys.record i)) (w.passed rs pos locks)) :
    wp (readPeer i limit) post w := by
  -- The lock is taken and given back.
  unfold readPeer
  rw [wp_bind]
  refine wp_lock_smooth smooth inTime fun rs pos => ?_
  simp only [wp_bind, wp_read, wp_unlock, wp_pure]
  simpa [Sys.record] using taken rs pos _

/-- A claim whose test passes is carried out. -/
theorem wp_claimRecord_smooth {takeover : Option PeerState} {started : Nat}
    (smooth : Smooth w.script early) (inTime : InTime early limit)
    (registration : Registered w.sys w.self)
    (test : (claimTest gen i w.self.runtime takeover w.sys.shared.activatedAt started
      (w.sys.record i)).1 = .ok) :
    wp (claimRecord gen i takeover limit started) (fun r w' => r.1 = .ok ∧
      w'.sys.record i = claimState (gen.conf i) w.self.runtime w.self.pid started (w.sys.record i))
      w := by
  -- Both locks are taken, and the test passes.
  obtain ⟨inst, exiting, pid⟩ := registration
  simp only [Sys.slot] at inst exiting pid
  unfold claimRecord
  rw [wp_bind, wp_self, wp_bind]
  refine wp_lock_smooth smooth inTime fun rs pos => ?_
  simp only [wp_bind, wp_read, wp_ite, wp_unlock, wp_pure]
  refine ⟨fun lost => ?_, fun _ => wp_lock_smooth smooth inTime fun rs' pos' => ?_⟩
  · simp [inst, exiting, pid] at lost
  · simp only [wp_bind, wp_read, wp_ite, wp_unlock, wp_pure, wp_publishPeer, wp_recordIo,
      wp_modifyPeer]
    refine ⟨fun _ => ?_, fun failed => ?_⟩
    · simp [World.passed, World.setSelf, World.published, World.self, Sys.setProc, Sys.record]
    · exact absurd (by simpa [Sys.record] using test) failed

/-- A claim whose test passes at all of the times that may be read succeeds. -/
theorem wp_claimRound_smooth {takeover : Option PeerState} (smooth : Smooth w.script early)
    (inTime : InTime early limit) (registration : Registered w.sys w.self)
    (idle : (w.self.round i).active = false ∧ (w.self.round i).pending = false)
    (test : ∀ t, early ≤ t → t < addTime early lockNs →
      (claimTest gen i w.self.runtime takeover w.sys.shared.activatedAt (milliseconds t)
        (w.sys.record i)).1 = .ok) :
    wp (claimRound gen i takeover limit) (fun r w' => r.1 = .ok ∧
      ∃ started, w'.sys.record i =
        claimState (gen.conf i) w.self.runtime w.self.pid started (w.sys.record i)) w := by
  -- There is memory, the clock answers, and both locks are taken.
  unfold claimRound
  simp only [wp_bind, wp_self, wp_ask, wp_ite, wp_pure, wp_modifyPeer]
  refine ⟨fun refused => absurd (smooth.alloc w.pos) refused.2, fun _ => ⟨fun busy => ?_, fun _ =>
    wp_now_smooth smooth fun t pos late soon => ?_⟩⟩
  · obtain ⟨past, waits⟩ := idle
    rw [Proc.round] at past waits
    simp [past, waits] at busy
  · have inside : InTime early (if limit = 0 then addTime t lockNs else limit) := by
      have small : lockNs ≤ uint64Max := by decide
      have window : addTime early lockNs ≤ addTime t lockNs := addTime_mono late le_rfl small
      split
      · exact .inr window
      · exact inTime
    refine wp_mono (wp_claimRecord_smooth smooth inside ?_ ?_) fun r w' reached => ?_
    · refine (registered_congr ?_ ?_ ?_).mpr registration
      · rfl
      · simp
      · simp [Proc.setPeer]
    · simpa [Sys.record] using test t late soon
    · refine ⟨reached.1, milliseconds t, ?_⟩
      simpa [Sys.record, Proc.setPeer] using reached.2

end Smooth

section Way

variable {gen : Generation} {i early : Nat} {seen : PeerState} {w w' : World}

/-- A registered process on the way to a peer, whose record is as it was seen or has come further
since. -/
structure Onward (gen : Generation) (i : Nat) (seen : PeerState) (early : Nat) (w : World) :
    Prop where
  sound : Sound w.sys
  status : w.self.status = .running
  listed : w.self.runtime.registered = true
  record : w.sys.record i = seen ∨ seen.progress < (w.sys.record i).progress
  steady : Steady w.self
  others : ∀ n s, OtherSteps gen w.me s ((w.script n).others s)
  smooth : Smooth w.script early

/-- A process that goes on, with its registration in place, leaves the peer further on. -/
def Relieved (i : Nat) (seen : PeerState) (w : World) : Prop :=
  w.self.runtime.stopping = false → Registered w.sys w.self →
    seen.progress < (w.sys.record i).progress

/-- Whatever the process and the others do, it stays on the way, under its registration. -/
theorem onward_atomicSteps (onward : Onward gen i seen early w) (run : AtomicSteps gen w w') :
    Onward gen i seen early w' ∧ w'.self.runtime.worker = w.self.runtime.worker ∧
      w'.self.runtime.inst = w.self.runtime.inst ∧ Steps gen w.sys w'.sys := by
  obtain ⟨sound, status, listed, record, steady, others, smooth⟩ := onward
  have guaranteed := guaranteed_atomicSteps status others run
  obtain ⟨after, worker, inst⟩ := listed_steps sound guaranteed.steps
    (listed : (w.sys.core w.me).registered = true)
  have self : w'.self = w'.sys.procs w.me := by rw [World.self, guaranteed.me]
  refine ⟨⟨steps_keep Sound sound_step sound guaranteed.steps, guaranteed.status.trans status, ?_,
    ?_, (atomicSteps_steady (fun _ => True) (fun _ _ _ => trivial) steady run trivial).1,
    fun n s => ?_, ?_⟩, ?_, ?_, guaranteed.steps⟩
  · rw [self]
    exact after
  · -- The record only moves on.
    rcases record with same | further
    · rw [← same]
      exact progress_steps guaranteed.steps
    · exact .inr (Nat.lt_of_lt_of_le further (progress_le guaranteed.steps))
  · rw [guaranteed.me, guaranteed.script]
    exact others n s
  · rw [guaranteed.script]
    exact smooth
  · rw [self]
    exact worker
  · rw [self]
    exact inst

/-- A process stays on the way along round steps. -/
theorem onward_roundSteps (onward : Onward gen i seen early w) (run : RoundSteps gen w w') :
    Onward gen i seen early w' ∧ w'.self.runtime.worker = w.self.runtime.worker ∧
      w'.self.runtime.inst = w.self.runtime.inst ∧ Steps gen w.sys w'.sys :=
  -- The steps of a round are atomic steps.
  onward_atomicSteps onward (atomic_of_rounds run)

/-- A process that stops does not go on again. -/
theorem stopping_atomicStep (steady : Steady w.self) (move : AtomicStep gen w w')
    (stops : w.self.runtime.stopping = true) : w'.self.runtime.stopping = true := by
  -- No step of the seat takes the stop back.
  have kept : (w'.self.seat 0).runtime.stopping = true := by
    refine atomicStep_keep (fun s => s.runtime.stopping = true) (fun _ held move => ?_)
      (fun held claim => ?_) (fun _ _ held _ _ => held) steady move stops
    · cases move with
      | paced runtime stopping => exact stopping.trans held
      | stopped below =>
        unfold Seat.stop
        dsimp only
        split <;> rfl
      | unlisted beyond => rfl
      | stoppedAgain cleaned => rfl
      | connected before error startTime how active confirmed =>
        cases startTime with
        | none => exact held
        | some time => exact held
      | _ => exact held
    · cases claim with
      | kept => exact held
      | allocated => exact held
      | claimed started next _ _ _ => exact held
  exact kept

/-- A peer that was relieved stays relieved. -/
theorem relieved_atomicSteps {mark : PeerState} (onward : Onward gen i seen early w)
    (run : AtomicSteps gen w w') (relieved : Relieved i mark w) : Relieved i mark w' := by
  -- The record only goes further, and a registration that is in place was in place before.
  intro goes registration
  have guaranteed := guaranteed_atomicSteps onward.status onward.others run
  have self : w'.self = w'.sys.procs w.me := by rw [World.self, guaranteed.me]
  have went : w.self.runtime.stopping = false := by
    rw [Bool.eq_false_iff]
    intro stops
    have stopped := (atomicSteps_steady (fun w => w.self.runtime.stopping = true)
      stopping_atomicStep onward.steady run stops).2
    rw [goes] at stopped
    cases stopped
  rw [self] at registration
  have before : Registered w.sys (w.sys.procs w.me) :=
    registered_steps onward.sound guaranteed.steps onward.listed registration
  exact Nat.lt_of_lt_of_le (relieved went before) (progress_le guaranteed.steps)

/-- A peer that was relieved stays relieved along round steps. -/
theorem relieved_roundSteps {mark : PeerState} (onward : Onward gen i seen early w)
    (run : RoundSteps gen w w') (relieved : Relieved i mark w) : Relieved i mark w' :=
  relieved_atomicSteps onward (atomic_of_rounds run) relieved

/-- Until the peer has come further, the process goes on and sees it as it was. -/
theorem onward_open (onward : Onward gen i seen early w) :
    Relieved i seen w ∨ (w.self.runtime.stopping = false ∧ Registered w.sys w.self ∧
      w.sys.record i = seen) := by
  -- The process stopped, lost its registration or finds the record further on, unless nothing has
  -- changed.
  rcases onward.record with same | further
  · by_cases goes : w.self.runtime.stopping = false
    · by_cases registration : Registered w.sys w.self
      · exact .inr ⟨goes, registration, same⟩
      · exact .inl fun _ named => absurd named registration
    · exact .inl fun running => absurd running goes
  · exact .inl fun _ _ => further

/-- Whatever a process does later, a peer that has come further stays so. -/
theorem relieves_once {α : Type} {x : Action α} (onward : Onward gen i seen early w)
    (relieved : Relieved i seen w) (does : byRounds gen x (fun _ _ => True) w) :
    byRounds gen x (fun _ w' => Relieved i seen w') w :=
  -- Any round steps keep the relief.
  along_mono does fun _ _ run _ => relieved_roundSteps onward run relieved

/-- The process that a world is about. -/
theorem self_mine {me : Nat} (mine : w.me = me) : w.sys.procs me = w.self := by
  -- Two names of one process.
  rw [← mine]
  rfl

/-- A process sets out when it was registered some steps of the protocol ago. -/
theorem onward_start {me : Nat} {s : Sys} (sound : Sound s) (mine : w.me = me)
    (listed : (s.procs me).runtime.registered = true) (run : Steps gen s w.sys)
    (status : w.self.status = .running) (steady : Steady w.self)
    (others : ∀ n s, OtherSteps gen me s ((w.script n).others s))
    (smooth : Smooth w.script early) : Onward gen i (s.record i) early w ∧
      w.self.runtime.worker = (s.procs me).runtime.worker ∧
      w.self.runtime.inst = (s.procs me).runtime.inst := by
  -- The record only goes further along the run, and the process keeps its registration.
  obtain ⟨after, worker, inst⟩ := listed_steps sound run listed
  have self : w.self.core = w.sys.core me := by
    rw [← self_mine mine]
    rfl
  refine ⟨⟨steps_keep Sound sound_step sound run, status, ?_, progress_steps run, steady, ?_,
    smooth⟩, (congrArg Core.worker self).trans worker, (congrArg Core.inst self).trans inst⟩
  · exact (congrArg Core.registered self).trans after
  · rw [mine]
    exact others

end Way

section Claim

variable {gen : Generation} {i early limit : Nat} {seen : PeerState} {w : World}

/-- What follows a claim: the start of the I/O of a round that was claimed. -/
theorem byRounds_claimStart {takeover : Option PeerState} {r : Rc × Nat} {w₀ : World}
    (attempted : Attempted i takeover w₀ r.1 w) :
    byRounds gen (claimStart gen i r) (fun _ _ => True) w := by
  -- Only a claim that succeeded starts a probe.
  obtain ⟨rc, wait⟩ := r
  cases rc with
  | ok =>
    obtain ⟨active, idle, _⟩ := attempted.claimed rfl
    exact along_bind (along_mono (byRounds_probeStart active idle) fun _ _ _ _ =>
      along_pure trivial)
  | _ => exact along_pure trivial

/-- A claim that the record, as it was seen, allows at any time of the pass. -/
theorem relieves_claim {takeover : Option PeerState} (onward : Onward gen i seen early w)
    (inTime : InTime early limit)
    (idle : (w.self.round i).active = false ∧ (w.self.round i).pending = false)
    (test : ∀ w', RoundSteps gen w w' → ∀ t, early ≤ t →
      (claimTest gen i w'.self.runtime takeover w'.sys.shared.activatedAt (milliseconds t) seen).1 =
        .ok) :
    byRounds gen (claim gen i takeover limit) (fun _ w' => Relieved i seen w') w := by
  have takes : ∀ {w' : World}, RoundSteps gen w w' → w'.self.runtime.stopping = false →
      w'.self.round i = w.self.round i →
      byRounds gen (claimRound gen i takeover limit) (fun r w'' =>
        byRounds gen (claimStart gen i r) (fun _ w' => Relieved i seen w') w'') w' := by
    intro w' before goes same
    have onway := (onward_roundSteps onward before).1
    have tries : byRounds gen (claimRound gen i takeover limit)
        (fun r w'' => Attempted i takeover w' r.1 w'') w' := byRounds_claimRound goes onway.listed
    rcases onward_open onway with relieved | ⟨_, registration, record⟩
    · exact along_mono tries fun r _ run attempted => relieves_once (onward_roundSteps onway run).1
        (relieved_roundSteps onway run relieved) (byRounds_claimStart attempted)
    · -- The record is as it was seen, so the claim is carried out.
      have passes : ∀ t, early ≤ t → t < addTime early lockNs →
          (claimTest gen i w'.self.runtime takeover w'.sys.shared.activatedAt (milliseconds t)
            (w'.sys.record i)).1 = .ok := by
        intro t late _
        rw [record]
        exact test w' before t late
      have law := wp_claimRound_smooth onway.smooth inTime registration (same ▸ idle) passes
      refine wp_mono (wp_and tries law) ?_
      rintro r w'' ⟨⟨run, attempted⟩, ok, started, claimed⟩
      refine ⟨run, relieves_once (onward_roundSteps onway run).1 (fun _ _ => ?_)
        (byRounds_claimStart attempted)⟩
      rw [claimed, record]
      exact progress_claimed _ _ _ _ _
  rw [claim_eq]
  refine along_bind ?_
  unfold claimEntry
  refine byRounds_then (byInner_self (along_ite (fun unregistered => ?_) fun _ => ?_))
  · exact absurd onward.listed unregistered
  refine byRounds_then (byInner_stopping (fun w' run stops => along_ite (fun _ => along_pure ?_)
    fun goes => absurd rfl goes) fun pos running => along_ite (fun stops => ?_) fun _ => ?_)
  · refine along_pure fun running => ?_
    rw [stops] at running
    cases running
  · cases stops
  have went : RoundSteps gen w (w.passed [] pos w.locks) := .single (.inner _ (.passed _ _ _))
  refine byRounds_then (byInner_preempt (takes ?_ ?_ ?_))
  · exact went.tail (.inner _ .preempted)
  · rw [preempted_self, passed_self]
    exact running
  · rw [preempted_self, passed_round]

end Claim

end Healthcheck
