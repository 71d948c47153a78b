import Healthcheck.Runtime.Ownership
import Healthcheck.Runtime.PrimitiveLaws

/-!
What each operation on the shared records can do: either nothing but use up answers of the
environment, or one publication whose preconditions are those the code has checked.
-/

namespace Healthcheck

open Program

/-- The published record of a peer. -/
def Sys.record (s : Sys) (i : Nat) : PeerState :=
  (s.shared.peers i).current

/-- The published registration of a worker number. -/
def Sys.slot (s : Sys) (worker : Nat) : WorkerState :=
  (s.shared.workers worker).current

/-- The local round of a peer. -/
def Proc.round (p : Proc) (i : Nat) : Round :=
  (p.peers i).probe.round

/-- A process changed in one peer. -/
def Proc.setPeer (p : Proc) (i : Nat) (peer : Peer) : Proc :=
  { p with peers := Function.update p.peers i peer }

/-- A probe changed in its round. -/
def Peer.setRound (peer : Peer) (round : Round) : Peer :=
  { peer with probe := { peer.probe with round := round } }

/-- The registration slot still carries this process, and it is not exiting. -/
structure Registered (s : Sys) (p : Proc) : Prop where
  inst : (s.slot p.runtime.worker).inst = p.runtime.inst
  exiting : (s.slot p.runtime.worker).exiting = false
  pid : (s.slot p.runtime.worker).pid = p.pid

/-- Registration depends on the shared slots, the runtime and the process number only. -/
theorem registered_congr {s s' : Sys} {p p' : Proc} (shared : s'.shared = s.shared)
    (runtime : p'.runtime = p.runtime) (pid : p'.pid = p.pid) :
    Registered s' p' ↔ Registered s p := by
  -- Only the slot and the names of the process are read.
  constructor
  · rintro ⟨inst, exiting, number⟩
    rw [Sys.slot, shared, runtime] at inst exiting number
    exact ⟨inst, exiting, by rw [← pid]; exact number⟩
  · rintro ⟨inst, exiting, number⟩
    constructor <;> rw [Sys.slot, shared, runtime]
    · exact inst
    · exact exiting
    · rw [pid]
      exact number

/-- What `ngx_healthcheck_owned_lock` has checked when it succeeds. -/
structure Owned (gen : Generation) (s : Sys) (p : Proc) (i : Nat) : Prop where
  generation : (p.round i).generation = gen.generation
  slotInst : (s.slot p.runtime.worker).inst = (p.round i).inst
  exiting : (s.slot p.runtime.worker).exiting = false
  pid : (s.slot p.runtime.worker).pid = p.pid
  worker : (s.record i).worker = p.runtime.worker
  inst : (s.record i).inst = (p.round i).inst
  term : (s.record i).term = (p.round i).term
  number : (s.record i).round = (p.round i).number
  owner : (s.record i).owner = p.pid

/-- The world after a publication of a peer's record. -/
def World.published (w : World) (i : Nat) (state : PeerState) (event : Event) : World :=
  { w with sys := { w.sys with
      shared := { w.sys.shared with
        peers := Function.update w.sys.shared.peers i (publish (w.sys.shared.peers i) state) }
      trace := event :: w.sys.trace } }

/-- The world after a publication of a registration. -/
def World.enrolled (w : World) (worker : Nat) (state : WorkerState) : World :=
  { w with sys := { w.sys with
      shared := { w.sys.shared with
        workers := Function.update w.sys.shared.workers worker
          (publishWorker (w.sys.shared.workers worker) state) } } }

/-- The world after an event of the generation's history. -/
def World.noted (w : World) (event : Event) : World :=
  { w with sys := { w.sys with trace := event :: w.sys.trace } }

/-- Passing time keeps the records. -/
@[simp] theorem passed_record (w : World) (rs : List Nat) (pos : Nat) (locks : List LockEvent)
    (i : Nat) : (w.passed rs pos locks).sys.record i = w.sys.record i := rfl

/-- Passing time keeps the worker slots. -/
@[simp] theorem passed_slot (w : World) (rs : List Nat) (pos : Nat) (locks : List LockEvent)
    (worker : Nat) : (w.passed rs pos locks).sys.slot worker = w.sys.slot worker := rfl

/-- Passing time keeps the rounds of the process. -/
@[simp] theorem passed_round (w : World) (rs : List Nat) (pos : Nat) (locks : List LockEvent)
    (i : Nat) : (w.passed rs pos locks).self.round i = w.self.round i := by
  -- The readings of the clock are no part of a round.
  simp [Proc.round]

/-- Passing time keeps what a process owns. -/
theorem owned_passed (gen : Generation) (w : World) (rs : List Nat) (pos : Nat)
    (locks : List LockEvent) (i : Nat) :
    Owned gen (w.passed rs pos locks).sys (w.passed rs pos locks).self i ↔
      Owned gen w.sys w.self i := by
  -- Every field reads the shared records or a part of the process that time does not change.
  constructor
  · rintro ⟨generation, slotInst, exiting, pid, worker, inst, term, number, owner⟩
    simp only [passed_record, passed_slot, passed_self] at *
    exact ⟨generation, slotInst, exiting, pid, worker, inst, term, number, owner⟩
  · rintro ⟨generation, slotInst, exiting, pid, worker, inst, term, number, owner⟩
    constructor <;> simp only [passed_record, passed_slot, passed_self] <;>
      assumption

/-- A publication is a step of the shared memory alone. -/
@[simp] theorem published_self (w : World) (i : Nat) (state : PeerState) (event : Event) :
    (w.published i state event).self = w.self := rfl

/-- A published worker slot is no change of the process. -/
@[simp] theorem enrolled_self (w : World) (worker : Nat) (state : WorkerState) :
    (w.enrolled worker state).self = w.self := rfl

/-- An event is noted outside of the process. -/
@[simp] theorem noted_self (w : World) (event : Event) : (w.noted event).self = w.self := rfl

/-- A published record is stored together with its event. -/
@[simp] theorem wp_publishPeer (i : Nat) (state : PeerState) (event : Event)
    (post : Unit → World → Prop) (w : World) :
    wp (publishPeer i state event) post w ↔ post () (w.published i state event) := by
  -- Both are plain writes.
  simp [publishPeer, modifyShared, emit, World.published]

/-- A published slot is stored without an event. -/
@[simp] theorem wp_publishRegistration (worker : Nat) (state : WorkerState)
    (post : Unit → World → Prop) (w : World) :
    wp (publishRegistration worker state) post w ↔ post () (w.enrolled worker state) := by
  -- It is one write.
  simp [publishRegistration, modifyShared, World.enrolled]

/-- An event goes to the history alone. -/
@[simp] theorem wp_emit (event : Event) (post : Unit → World → Prop) (w : World) :
    wp (emit event) post w ↔ post () (w.noted event) := by
  -- It is one write.
  simp [emit, World.noted]

/-- A change of the runtime keeps the rest of the process. -/
@[simp] theorem wp_modifyRuntime (f : Runtime → Runtime) (post : Unit → World → Prop)
    (w : World) : wp (modifyRuntime f) post w ↔
      post () (w.setSelf { w.self with runtime := f w.self.runtime }) := by
  -- It is a change of the process itself.
  simp [modifyRuntime]

/-- A change of one peer keeps the others. -/
@[simp] theorem wp_modifyPeer (i : Nat) (f : Peer → Peer) (post : Unit → World → Prop)
    (w : World) : wp (modifyPeer i f) post w ↔
      post () (w.setSelf (w.self.setPeer i (f (w.self.peers i)))) := by
  -- It is a change of the process itself.
  simp [modifyPeer, Proc.setPeer]

/-- A change of a probe keeps the rest of its peer. -/
@[simp] theorem wp_modifyProbe (i : Nat) (f : Probe → Probe) (post : Unit → World → Prop)
    (w : World) : wp (modifyProbe i f) post w ↔
      post () (w.setSelf (w.self.setPeer i
        { w.self.peers i with probe := f (w.self.peers i).probe })) := by
  -- It is a change of the peer.
  simp [modifyProbe]

/-- A change of a round keeps the rest of its probe. -/
@[simp] theorem wp_modifyRound (i : Nat) (f : Round → Round) (post : Unit → World → Prop)
    (w : World) : wp (modifyRound i f) post w ↔
      post () (w.setSelf (w.self.setPeer i ((w.self.peers i).setRound (f (w.self.round i))))) := by
  -- It is a change of the probe.
  simp [modifyRound, Peer.setRound, Proc.round]

/-- An I/O event goes in front of the earlier ones. -/
@[simp] theorem wp_recordIo (event : IoEvent) (post : Unit → World → Prop) (w : World) :
    wp (recordIo event) post w ↔
      post () (w.setSelf { w.self with io := event :: w.self.io }) := by
  -- It is a change of the process itself.
  simp [recordIo]

/-- What an operation on one peer adds to the history of the process's locks: nothing, the lock of
its own worker slot, or that lock and then the peer's, all of them released in the end. -/
inductive CriticalSection (worker i : Nat) (past : List LockEvent) : List LockEvent → Prop
  | none : CriticalSection worker i past past
  | outer : CriticalSection worker i past
      (.released (.worker worker) :: .acquired (.worker worker) :: past)
  | both : CriticalSection worker i past
      (.released (.worker worker) :: .released (.peer i) ::
        .acquired (.peer i) :: .acquired (.worker worker) :: past)

/-- Both locks are taken only when the registration and the record name the round. -/
theorem wp_lockRecord (gen : Generation) {i limit : Nat}
    {post : Except Rc PeerState → World → Prop} {w : World}
    (current : (w.self.round i).generation = gen.generation)
    (refused : ∀ rc rs pos locks, rc ≠ .ok →
      CriticalSection w.self.runtime.worker i w.locks locks →
      post (.error rc) (w.passed rs pos locks))
    (taken : ∀ rs pos, Owned gen w.sys w.self i → post (.ok (w.sys.record i))
      (w.passed rs pos
        (.acquired (.peer i) :: .acquired (.worker w.self.runtime.worker) :: w.locks))) :
    wp (lockRecord i limit) post w := by
  have again : ∀ rs pos locks, CriticalSection w.self.runtime.worker i w.locks locks →
      post (.error .again) (w.passed rs pos locks) :=
    fun rs pos locks => refused .again rs pos locks (by decide)
  have declined : ∀ rs pos locks, CriticalSection w.self.runtime.worker i w.locks locks →
      post (.error .declined) (w.passed rs pos locks) :=
    fun rs pos locks => refused .declined rs pos locks (by decide)
  unfold lockRecord
  rw [wp_bind, wp_self, wp_bind]
  apply wp_lock
  · intro rs pos
    simpa using again rs pos _ .none
  · intro rs pos
    simp only [wp_bind, wp_read, wp_ite, wp_unlock, wp_pure]
    refine ⟨fun _ => by simpa using declined rs pos _ .outer, fun registration => ?_⟩
    apply wp_lock
    · intro rs' pos'
      simpa using again (rs' ++ rs) pos' _ .outer
    · intro rs' pos'
      simp only [wp_bind, wp_read, wp_ite, wp_unlock, wp_pure]
      refine ⟨fun _ => by simpa using declined (rs' ++ rs) pos' _ .both, fun identity => ?_⟩
      -- Neither test failed, so the record is the one this round claimed.
      simp only [passed_shared, not_or, not_not, Bool.not_eq_true] at registration identity
      obtain ⟨slotInst, exiting, pid⟩ := registration
      obtain ⟨worker, inst, term, number, owner⟩ := identity
      have owned : Owned gen w.sys w.self i :=
        ⟨current, slotInst, exiting, pid, worker, inst, term, number, owner⟩
      simpa [Sys.record] using taken (rs' ++ rs) pos' owned

/-- The owned lock is refused without a lock left, or is taken by the owner of the record. -/
theorem wp_ownedLock {gen : Generation} {i limit : Nat}
    {post : Except Rc PeerState → World → Prop} {w : World}
    (refused : ∀ rc rs pos locks, rc ≠ .ok →
      CriticalSection w.self.runtime.worker i w.locks locks →
      post (.error rc) (w.passed rs pos locks))
    (taken : ∀ rs pos, w.self.runtime.stopping = false → Owned gen w.sys w.self i →
      post (.ok (w.sys.record i)) (w.passed rs pos
        (.acquired (.peer i) :: .acquired (.worker w.self.runtime.worker) :: w.locks))) :
    wp (ownedLock gen i limit) post w := by
  unfold ownedLock
  simp only [wp_bind, wp_self, wp_quitting, wp_ite, wp_pure]
  refine ⟨fun _ => refused .declined _ _ _ (by decide) .none, fun usable => ?_⟩
  simp only [not_or, not_not, Bool.not_eq_true] at usable
  obtain ⟨running, _, current⟩ := usable
  -- Whichever limit is chosen, the locks and the checks behind it are the same.
  have body : ∀ rs pos limit, wp (lockRecord i limit) post (w.passed rs pos w.locks) := by
    intro rs pos limit
    refine wp_lockRecord gen ?_ ?_ ?_
    · simpa [Proc.round] using current
    · intro rc rs' pos' locks failed released
      simpa using refused rc (rs' ++ rs) pos' locks failed (by simpa using released)
    · intro rs' pos' owned
      simpa using taken (rs' ++ rs) pos' running
        ((owned_passed gen w rs pos w.locks i).mp owned)
  refine ⟨fun _ => ?_, fun _ => body _ _ _⟩
  refine wp_now ?_ ?_
  · intro pos
    simpa using refused .again _ pos _ (by decide) .none
  · intro t pos _
    simpa using body [t] pos _

/-- Checking a round's identity changes nothing. -/
theorem wp_probeValid {gen : Generation} {i : Nat} {post : Rc → World → Prop} {w : World}
    (refused : ∀ rc rs pos locks, rc ≠ .ok →
      CriticalSection w.self.runtime.worker i w.locks locks → post rc (w.passed rs pos locks))
    (valid : ∀ rs pos locks, w.self.runtime.stopping = false → Owned gen w.sys w.self i →
      CriticalSection w.self.runtime.worker i w.locks locks → post .ok (w.passed rs pos locks)) :
    wp (probeValid gen i) post w := by
  -- The owned lock decides, and it is given back in both cases.
  unfold probeValid
  rw [wp_bind]
  refine wp_ownedLock ?_ ?_
  · intro rc rs pos locks failed released
    simpa using refused rc rs pos locks failed released
  · intro rs pos running owned
    simpa [ownedUnlock] using valid rs pos _ running owned .both

/-- The deadline of a prepared round is published once, while the record is still preparing. -/
def inflightState (deadline : Nat) (state : PeerState) : PeerState :=
  { state with phase := .inflight, deadline := deadline }

/-- A round whose waiting stage has been registered. -/
def Proc.waitingPublished (p : Proc) (i : Nat) : Proc :=
  p.setPeer i ((p.peers i).setRound { p.round i with waitingPublished := true })

/-- A probe that waits moves a PREPARING record to INFLIGHT, and leaves any later one as it is. -/
theorem wp_probeWaiting {gen : Generation} {i : Nat} {post : Rc → World → Prop} {w : World}
    (kept : ∀ rc rs pos locks, CriticalSection w.self.runtime.worker i w.locks locks →
      post rc (w.passed rs pos locks))
    (late : ∀ rs pos locks, Owned gen w.sys w.self i → (w.sys.record i).phase ≠ .preparing →
      CriticalSection w.self.runtime.worker i w.locks locks →
      post .ok ((w.setSelf (w.self.waitingPublished i)).passed rs pos locks))
    (progress : ∀ rs pos locks, Owned gen w.sys w.self i → (w.sys.record i).phase = .preparing →
      CriticalSection w.self.runtime.worker i w.locks locks →
      let next := inflightState (w.self.round i).deadline (w.sys.record i)
      post .ok (((w.published i next (.inflight w.me i (w.sys.record i) next)).setSelf
        (w.self.waitingPublished i)).passed rs pos locks)) :
    wp (probeWaiting gen i) post w := by
  -- Only a PREPARING record is published; the round notes that it was asked either way.
  unfold probeWaiting
  simp only [wp_bind, wp_self, wp_ite, wp_pure]
  refine ⟨fun _ => by simpa [passed_nil] using kept .ok [] w.pos _ .none, fun _ => ?_⟩
  refine wp_ownedLock ?_ ?_
  · intro rc rs pos locks _ released
    simpa using kept rc rs pos locks released
  · intro rs pos _ owned
    simp only [wp_bind, wp_ite, wp_read, wp_publishPeer, wp_pure, wp_modifyRound, ownedUnlock,
      wp_unlock, wp_self]
    refine ⟨fun preparing => ?_, fun other => ?_⟩
    · have result := progress rs pos _ owned preparing .both
      simpa [World.passed, World.setSelf, World.published, World.self, Sys.setProc,
        Proc.waitingPublished, Proc.setPeer, Proc.round, inflightState] using result
    · have result := late rs pos _ owned other .both
      simpa [World.passed, World.setSelf, World.self, Sys.setProc,
        Proc.waitingPublished, Proc.setPeer, Proc.round] using result

/-- The local state after a commit: nothing is pending, and an overrun round starts the next. -/
def Proc.committed (gen : Generation) (p : Proc) (i : Nat) (overran : Prop) [Decidable overran] :
    Proc :=
  p.setPeer i
    { (p.peers i).setRound { p.round i with pending := false } with
      checkEv := if overran then some (timerDelay gen 0) else (p.peers i).checkEv }

/-- A submission is refused without effect, or publishes the frozen result of a round that is
still preparing or in flight. -/
theorem wp_submit {gen : Generation} {i limit : Nat} {post : Rc → World → Prop} {w : World}
    (refused : ∀ rc rs pos locks, rc ≠ .ok →
      CriticalSection w.self.runtime.worker i w.locks locks → post rc (w.passed rs pos locks))
    (committed : ∀ t rs pos locks, w.self.runtime.stopping = false →
      Owned gen w.sys w.self i →
      (w.sys.record i).phase = .preparing ∨ (w.sys.record i).phase = .inflight →
      CriticalSection w.self.runtime.worker i w.locks locks →
      let round := w.self.round i
      let next := submitState gen.word (gen.conf i) round.result round.sampled (milliseconds t)
        (w.sys.record i)
      post .ok (((w.published i next
          (.committed w.me i round.result round.sampled (w.sys.record i) next)).setSelf
        (w.self.committed gen i (milliseconds t ≥
          addTime (w.sys.record i).started (gen.conf i).checkInterval))).passed rs pos locks)) :
    wp (submit gen i limit) post w := by
  unfold submit
  rw [wp_bind]
  refine wp_ownedLock ?_ ?_
  · intro rc rs pos locks failed released
    simpa using refused rc rs pos locks failed released
  · intro rs pos running owned
    simp only [wp_bind, wp_quitting, wp_ite, ownedUnlock, wp_unlock, wp_self, wp_pure]
    refine ⟨fun _ => by simpa using refused .declined _ _ _ (by decide) .both, fun open_ => ?_⟩
    have stage : (w.sys.record i).phase = .preparing ∨ (w.sys.record i).phase = .inflight := by
      by_contra neither
      exact open_ (Or.inl (by simpa using not_or.mp neither))
    refine wp_now ?_ ?_
    · intro pos'
      simpa using refused .again _ pos' _ (by decide) .both
    · intro t pos' _
      have result := committed t ([t] ++ rs) pos' _ running owned stage .both
      simp only [wp_bind, wp_self, wp_read, wp_publishPeer, wp_unlock, wp_modifyRound, wp_ite,
        wp_modifyPeer, wp_pure]
      -- The timer is armed in the same step in which the pending flag is cleared.
      refine ⟨fun overran => ?_, fun timely => ?_⟩
      · rw [Proc.committed] at result
        simpa [overran, World.passed, World.setSelf, World.published, World.self, Sys.setProc,
          Proc.setPeer, Proc.round, Peer.setRound] using result
      · rw [Proc.committed] at result
        simpa [timely, World.passed, World.setSelf, World.published, World.self, Sys.setProc,
          Proc.setPeer, Proc.round, Peer.setRound] using result

/-- A process that no longer waits to submit a peer's round. -/
def Proc.withdrawn (p : Proc) (i : Nat) : Proc :=
  p.setPeer i ((p.peers i).setRound { p.round i with pending := false })

/-- Settling commits the frozen outcome, withdraws the round that was lost, or leaves it for a
retry. -/
theorem wp_settle {gen : Generation} {i limit : Nat} {post : Rc → World → Prop} {w : World}
    (refused : ∀ rc rs pos locks, rc ≠ .ok → rc ≠ .declined → post rc (w.passed rs pos locks))
    (declined : ∀ rs pos locks,
      post .declined ((w.setSelf (w.self.withdrawn i)).passed rs pos locks))
    (committed : ∀ t rs pos locks, w.self.runtime.stopping = false →
      Owned gen w.sys w.self i →
      (w.sys.record i).phase = .preparing ∨ (w.sys.record i).phase = .inflight →
      CriticalSection w.self.runtime.worker i w.locks locks →
      let round := w.self.round i
      let next := submitState gen.word (gen.conf i) round.result round.sampled (milliseconds t)
        (w.sys.record i)
      post .ok (((w.published i next
          (.committed w.me i round.result round.sampled (w.sys.record i) next)).setSelf
        (w.self.committed gen i (milliseconds t ≥
          addTime (w.sys.record i).started (gen.conf i).checkInterval))).passed rs pos locks)) :
    wp (settle gen i limit) post w := by
  -- A submission that was declined withdraws the round.
  unfold settle
  rw [wp_bind]
  refine wp_submit ?_ ?_
  · intro rc rs pos locks failed _
    simp only [wp_bind, wp_ite, wp_modifyRound, wp_pure]
    refine ⟨fun asked => ?_, fun other => refused rc rs pos locks failed other⟩
    subst asked
    have result := declined rs pos locks
    simpa [World.passed, World.setSelf, World.self, Sys.setProc, Proc.withdrawn, Proc.setPeer,
      Proc.round] using result
  · intro t rs pos locks running owned stage released
    simpa using committed t rs pos locks running owned stage released

/-- The event of a delay sample, when it was taken from a connection. -/
def Probe.sampling (probe : Probe) (i : Nat) (delay : Option Nat) : List IoEvent :=
  (delay.bind fun delay => probe.connection.map fun c => IoEvent.sampled i c.id delay).toList

/-- A sample is recorded under the connection it was taken from. -/
@[simp] theorem wp_recordSample (i : Nat) (delay : Option Nat) (post : Unit → World → Prop)
    (w : World) : wp (recordSample i delay) post w ↔ post () (w.setSelf
      { w.self with io := (w.self.peers i).probe.sampling i delay ++ w.self.io }) := by
  unfold recordSample Probe.sampling
  rw [wp_bind, wp_self]
  -- Without a sample the history stays as it is.
  have same : post () w ↔ post () (w.setSelf { w.self with io := [] ++ w.self.io }) := by
    rw [show w.setSelf { w.self with io := [] ++ w.self.io } = w from setSelf_self w]
  cases delay with
  | none => exact (wp_pure _ post w).trans same
  | some delay =>
    cases connected : (w.self.peers i).probe.connection with
    | none => exact (wp_pure _ post w).trans same
    | some connection => simp

/-- The local state after an effective finish. -/
def Proc.frozen (p : Proc) (i : Nat) (result : Bool) (delay : Option Nat)
    (reason source : String) (error : Option Errno) : Proc :=
  { p.setPeer i
      { p.peers i with probe := { (p.peers i).probe with
          reason := reason, source := source, error := error
          round := { p.round i with
            active := false, pending := true, result := result, sample := delay.isSome
            delay := delay.getD (p.round i).delay } } } with
    io := (p.peers i).probe.sampling i delay ++ .finished i result :: p.io }

/-- A sample is taken by a success of a TCP check, from a connection that no round has used. -/
def Samples (gen : Generation) (p : Proc) (i : Nat) (result : Bool) (delay : Option Nat) : Prop :=
  delay.isSome = true → result = true ∧ (gen.conf i).checkType = .tcp ∧
    ∃ c, (p.peers i).probe.connection = some c ∧ c.requests = 0

/-- Taking a sample reads the clock at most, and what it gives was measured on this result. -/
theorem wp_takeSample {gen : Generation} {i : Nat} {result : Bool}
    {post : Option Nat → World → Prop} {w : World}
    (taken : ∀ delay rs pos, Samples gen w.self i result delay → post delay
    (w.passed rs pos w.locks)) :
    wp (takeSample gen i result) post w := by
  -- The clock is read for a good TCP result on a fresh connection.
  unfold takeSample
  simp only [wp_bind, wp_self, wp_ite, wp_pure]
  refine ⟨fun unused => wp_now (fun pos => ?_) (fun t pos _ => ?_), fun _ => ?_⟩
  · exact taken none [] pos (fun none => by cases none)
  · refine taken _ [t] pos fun _ => ⟨unused.1, unused.2.1, ?_⟩
    obtain ⟨c, connected, fresh⟩ := (Option.any_eq_true _ _).mp unused.2.2
    exact ⟨c, connected, beq_iff_eq.mp fresh⟩
  · simpa [passed_nil] using taken none [] w.pos (fun none => by cases none)

/-- The first finish of an active round freezes its outcome, and every later one does nothing. -/
theorem wp_freeze {gen : Generation} {i : Nat} {result : Bool} {reason source : String}
    {error : Option Errno} {post : Bool → World → Prop} {w : World}
    (past : (w.self.round i).active = false ∨ (w.self.round i).pending = true → post false w)
    (frozen : ∀ delay rs pos, (w.self.round i).active = true → (w.self.round i).pending = false →
      Samples gen w.self i result delay →
      post true (((w.noted (.frozen w.me i (w.self.round i).number result delay)).setSelf
        (w.self.frozen i result delay reason source error)).passed rs pos w.locks)) :
    wp (freeze gen i result reason source error) post w := by
  unfold freeze
  simp only [wp_bind, wp_self, wp_ite, wp_pure]
  refine ⟨fun ended => past (by simpa [Proc.round] using ended), fun running => ?_⟩
  simp only [not_or, Bool.not_eq_true] at running
  obtain ⟨active, idle⟩ := running
  have active : (w.self.round i).active = true := by simpa [Proc.round] using active
  -- Whatever sample is taken, the freeze that follows is the same.
  refine wp_takeSample fun delay rs pos samples => ?_
  simpa [World.passed, World.setSelf, World.self, Sys.setProc, World.noted, Proc.frozen,
    Proc.setPeer, Proc.round, Probe.sampling] using frozen delay rs pos active idle samples

/-- Activation is done once, under its own lock. -/
theorem wp_activate {limit reading : Nat} {post : Rc → World → Prop} {w : World}
    (kept : ∀ rc rs pos locks, post rc (w.passed rs pos locks))
    (activated : ∀ rs pos locks, post .ok
      ({ w with sys := { w.sys with shared := w.sys.shared.activate reading } }.passed
        rs pos locks)) :
    wp (activate limit reading) post w := by
  -- An instant that is set already is kept without the lock.
  unfold activate
  simp only [wp_bind, wp_read, wp_ite, wp_pure]
  refine ⟨fun _ => by simpa [passed_nil] using kept .ok [] w.pos w.locks, fun _ => ?_⟩
  refine wp_lock ?_ ?_
  · intro rs pos
    simpa using kept .again rs pos w.locks
  · intro rs pos
    simp only [wp_bind, modifyShared, wp_change, wp_unlock, wp_pure]
    simpa [World.passed, World.self, Sys.setProc] using activated rs pos
      (.released .activation :: .acquired .activation :: w.locks)

/-- The process after its first registration. -/
def Proc.enrolled (p : Proc) (inst : Nat) : Proc :=
  { p with runtime := { p.runtime with inst := inst, registered := true } }

/-- A registration attempt is refused, opens a new instance, or renews the heartbeat of a
registration that still is the process's own. -/
theorem wp_registerSlot {limit reading : Nat} {post : Rc → World → Prop} {w : World}
    (refused : ∀ rc rs pos locks, rc ≠ .ok → rc ≠ .declined → post rc (w.passed rs pos locks))
    (declined : ∀ rs pos locks, w.self.runtime.registered = true → ¬ Registered w.sys w.self →
      post .declined (w.passed rs pos locks))
    (opened : ∀ rs pos locks, w.self.runtime.registered = false →
      (w.sys.slot w.self.runtime.worker).inst ≠ uint64Max →
      let worker := w.self.runtime.worker
      let inst := (w.sys.slot worker).inst + 1
      post .ok ((((w.enrolled worker
          { pid := w.self.pid, inst := inst, exiting := false,
            heartbeat := milliseconds reading }).noted
        (.registered w.me worker inst)).setSelf (w.self.enrolled inst)).passed rs pos locks))
    (renewed : ∀ rs pos locks, w.self.runtime.registered = true → Registered w.sys w.self →
      let worker := w.self.runtime.worker
      post .ok ((w.enrolled worker
        { w.sys.slot worker with heartbeat := milliseconds reading }).passed rs pos locks)) :
    wp (registerSlot limit reading) post w := by
  -- A registered process checks its own slot; any other one opens the next instance.
  let released : List LockEvent := .released (.worker w.self.runtime.worker) ::
    .acquired (.worker w.self.runtime.worker) :: w.locks
  unfold registerSlot
  rw [wp_bind, wp_self, wp_bind]
  refine wp_lock ?_ ?_
  · intro rs pos
    simpa using refused .again rs pos _ (by decide) (by decide)
  · intro rs pos
    simp only [wp_bind, wp_read, wp_ite, wp_unlock, wp_pure, wp_publishRegistration, wp_emit,
      wp_modifyRuntime]
    refine ⟨fun fresh => ⟨fun _ => ?_, fun room => ?_⟩, fun old => ⟨fun lost => ?_, fun mine => ?_⟩⟩
    · simpa using refused .error rs pos _ (by decide) (by decide)
    · have result := opened rs pos released (by simpa using fresh) (by simpa [Sys.slot] using room)
      simpa [released, World.passed, World.setSelf, World.enrolled, World.noted, World.self,
        Sys.setProc,
        Sys.slot, Proc.enrolled] using result
    · have result := declined rs pos released (by simpa using old) (by
        rintro ⟨inst, exiting, pid⟩
        simp only [Sys.slot] at inst exiting pid
        simp [inst, exiting, pid] at lost)
      simpa [released] using result
    · simp only [passed_shared, not_or, not_not, Bool.not_eq_true] at mine
      obtain ⟨inst, pid, exiting⟩ := mine
      have result := renewed rs pos released (by simpa using old) ⟨inst, exiting, pid⟩
      simpa [released, World.passed, World.setSelf, World.enrolled, World.self, Sys.setProc,
        Sys.slot] using result

/-- A process marks its registration as exiting only while the slot is its own. -/
theorem wp_retire {post : Unit → World → Prop} {w : World}
    (kept : ∀ rs pos locks, (∀ i, CriticalSection w.self.runtime.worker i w.locks locks) →
      post () (w.passed rs pos locks))
    (retired : ∀ rs pos locks, w.self.runtime.registered = true →
      (w.sys.slot w.self.runtime.worker).pid = w.self.pid →
      (w.sys.slot w.self.runtime.worker).inst = w.self.runtime.inst →
      (∀ i, CriticalSection w.self.runtime.worker i w.locks locks) →
      let worker := w.self.runtime.worker
      post () (((w.enrolled worker { w.sys.slot worker with exiting := true }).noted
        (.exited w.me worker (w.sys.slot worker).inst)).passed rs pos locks)) :
    wp retire post w := by
  -- The slot is only marked while it still names this process.
  unfold retire
  simp only [wp_bind, wp_self, wp_ite, wp_pure]
  refine ⟨fun registered => wp_lock ?_ ?_, fun _ => by
    simpa [passed_nil] using kept [] w.pos w.locks fun _ => .none⟩
  · intro rs pos
    simpa using kept rs pos w.locks fun _ => .none
  · intro rs pos
    simp only [wp_bind, wp_read, wp_ite, wp_unlock, wp_publishRegistration, wp_emit]
    refine ⟨fun mine => ?_, fun _ => by simpa using kept rs pos _ fun _ => .outer⟩
    have result := retired rs pos _ registered mine.1 mine.2 fun _ => .outer
    simpa [World.passed, World.enrolled, World.noted, World.self, Sys.setProc,
      Sys.slot] using result

/-- What a claim has checked when it publishes. -/
structure Claimable (gen : Generation) (s : Sys) (p : Proc) (i : Nat)
    (takeover : Option PeerState) (started : Nat) : Prop where
  registration : Registered s p
  idle : (p.round i).active = false ∧ (p.round i).pending = false
  test : (claimTest gen i p.runtime takeover s.shared.activatedAt started (s.record i)).1 = .ok

/-- A process that has allocated a peer's probe. -/
def Proc.allocate (p : Proc) (i : Nat) : Proc :=
  p.setPeer i { p.peers i with allocated := true }

/-- The local state after a claim. -/
def Proc.claimed (gen : Generation) (p : Proc) (i started : Nat) (next : PeerState) : Proc :=
  { p.setPeer i
      { p.peers i with
        probe := claimedProbe gen i started next (p.peers i).probe
        checkEv := some (timerDelay gen (gen.conf i).checkInterval) } with
    io := .claimed i next.deadline ((p.peers i).probe.connection.map Connection.id) :: p.io }

/-- What a regular claim has checked of the record when its test passes. -/
structure RegularTest (gen : Generation) (i : Nat) (runtime : Runtime) (started : Nat)
    (state : PeerState) : Prop where
  worker : state.worker = runtime.worker
  inst : state.inst = 0 ∨ state.inst = runtime.inst
  phase : state.phase = .initial ∨ state.phase = .waiting
  due : state.started = 0 ∨ addTime state.started (gen.conf i).checkInterval ≤ started

/-- What a takeover has checked of the record when its test passes. -/
structure TakeoverTest (gen : Generation) (i : Nat) (runtime : Runtime) (observed : PeerState)
    (activatedAt started : Nat) (state : PeerState) : Prop where
  term : state.term = observed.term
  round : state.round = observed.round
  phase : state.phase = observed.phase
  deadline : state.deadline = observed.deadline
  overdue : addTime (peerDeadline gen i activatedAt state) gen.grace ≤ started
  foreign : ¬ (state.worker = runtime.worker ∧ state.inst = runtime.inst)

/-- A claim's test passes only with room in the counters and under the rule of its kind. -/
theorem claimTest_ok {gen : Generation} {i : Nat} {runtime : Runtime}
    {takeover : Option PeerState} {activatedAt started : Nat} {state : PeerState}
    (passed : (claimTest gen i runtime takeover activatedAt started state).1 = .ok) :
    state.round ≠ uint64Max ∧
      (state.worker ≠ runtime.worker ∨ state.inst ≠ runtime.inst → state.term ≠ uint64Max) ∧
      match takeover with
      | none => RegularTest gen i runtime started state
      | some observed => TakeoverTest gen i runtime observed activatedAt started state := by
  -- Two branches accept: a takeover and a regular claim.
  unfold claimTest at passed
  cases takeover with
  | none =>
    dsimp only at passed ⊢
    split at passed
    · cases passed
    rename_i owner
    split at passed
    · cases passed
    rename_i stage
    split at passed
    · cases passed
    rename_i due
    split at passed
    · cases passed
    rename_i room
    simp only [not_or, not_and, not_not, not_lt] at owner stage due room
    refine ⟨room.1, fun foreign => room.2 foreign, owner.1, ?_, ?_, ?_⟩
    · by_cases none : state.inst = 0
      · exact Or.inl none
      · exact Or.inr (owner.2 none)
    · by_cases first : state.phase = .initial
      · exact Or.inl first
      · exact Or.inr (stage first)
    · by_cases none : state.started = 0
      · exact Or.inl none
      · exact Or.inr (due none)
  | some observed =>
    dsimp only at passed ⊢
    split at passed
    · cases passed
    rename_i observation
    split at passed
    · cases passed
    rename_i room
    simp only [not_or, not_and, not_not, not_lt] at observation room
    obtain ⟨term, round, phase, deadline, overdue, foreign⟩ := observation
    exact ⟨room.1, fun named => room.2 named, term, round, phase, deadline, overdue,
      fun own => foreign own.1 own.2⟩

/-- Only a regular claim is declined by the record, and only when the record names another. -/
theorem claimTest_declined {gen : Generation} {i : Nat} {runtime : Runtime}
    {takeover : Option PeerState} {activatedAt started : Nat} {state : PeerState}
    (declined : (claimTest gen i runtime takeover activatedAt started state).1 = .declined) :
    takeover = none ∧ (state.worker ≠ runtime.worker ∨
      state.inst ≠ 0 ∧ state.inst ≠ runtime.inst) := by
  -- A takeover never declines; a regular claim leaves the peer to another owner.
  unfold claimTest at declined
  cases takeover with
  | none =>
    dsimp only at declined
    split at declined
    · rename_i other
      exact ⟨rfl, other⟩
    · split at declined
      · cases declined
      · split at declined
        · cases declined
        · split at declined <;> cases declined
  | some observed =>
    dsimp only at declined
    split at declined
    · cases declined
    · split at declined <;> cases declined

/-- A claim under the locks of the slot and of the record is refused as a whole or published as a
whole. -/
theorem wp_claimRecord {gen : Generation} {i limit started : Nat} {takeover : Option PeerState}
    {post : Rc × Nat → World → Prop} {w : World}
    (idle : (w.self.round i).active = false ∧ (w.self.round i).pending = false)
    (refused : ∀ rc wait rs pos locks, rc ≠ .ok →
      (rc = .declined → ¬ Registered w.sys w.self ∨ takeover = none ∧
        ((w.sys.record i).worker ≠ w.self.runtime.worker ∨
          (w.sys.record i).inst ≠ 0 ∧ (w.sys.record i).inst ≠ w.self.runtime.inst)) →
      CriticalSection w.self.runtime.worker i w.locks locks →
      post (rc, wait) (w.passed rs pos locks))
    (claimed : ∀ rs pos locks, Claimable gen w.sys w.self i takeover started →
      CriticalSection w.self.runtime.worker i w.locks locks →
      let next := claimState (gen.conf i) w.self.runtime w.self.pid started (w.sys.record i)
      post (.ok, 0) (((w.published i next
          (.claimed w.me i takeover started (w.sys.record i) next)).setSelf
        (w.self.claimed gen i started next)).passed rs pos locks)) :
    wp (claimRecord gen i takeover limit started) post w := by
  -- The slot is locked before the record, and each refusal gives back what was taken.
  have again : ∀ rs pos locks, CriticalSection w.self.runtime.worker i w.locks locks →
      post (.again, 0) (w.passed rs pos locks) :=
    fun rs pos locks => refused .again 0 rs pos locks (by decide) (by simp)
  unfold claimRecord
  rw [wp_bind, wp_self, wp_bind]
  refine wp_lock ?_ ?_
  · intro rs pos
    simpa using again rs pos _ .none
  · intro rs pos
    simp only [wp_bind, wp_read, wp_ite, wp_unlock, wp_pure]
    refine ⟨fun lost => ?_, fun mine => wp_lock ?_ ?_⟩
    · have result := refused .declined 0 rs pos _ (by decide) (fun _ => Or.inl (by
        rintro ⟨inst, exiting, pid⟩
        simp only [Sys.slot] at inst exiting pid
        simp [inst, exiting, pid] at lost)) .outer
      simpa using result
    · intro rs' pos'
      simpa using again (rs' ++ rs) pos' _ .outer
    · intro rs' pos'
      simp only [passed_shared, not_or, not_not, Bool.not_eq_true] at mine
      obtain ⟨inst, exiting, pid⟩ := mine
      simp only [wp_bind, wp_read, wp_ite, wp_unlock, wp_pure, wp_publishPeer, wp_recordIo,
        wp_modifyPeer]
      refine ⟨fun passed => ?_, fun failed => ?_⟩
      · have result := claimed (rs' ++ rs) pos' _ ⟨⟨inst, exiting, pid⟩, idle, by
          simpa [Sys.record] using passed⟩ .both
        simpa [World.passed, World.setSelf, World.published, World.self, Sys.setProc, Sys.record,
          Proc.claimed, Proc.setPeer] using result
      · have result := refused
          (claimTest gen i w.self.runtime takeover w.sys.shared.activatedAt started
            (w.sys.record i)).1
          (claimTest gen i w.self.runtime takeover w.sys.shared.activatedAt started
            (w.sys.record i)).2
          (rs' ++ rs) pos' _ (by simpa [Sys.record] using failed)
          (fun declined => Or.inr (claimTest_declined declined)) .both
        simpa [Sys.record] using result

/-- A claim allocates the peer and reads the clock, and then proceeds under the locks. -/
theorem wp_claimRound {gen : Generation} {i limit : Nat} {takeover : Option PeerState}
    {post : Rc × Nat → World → Prop} {w : World}
    (unallocated : ∀ rs pos, post (.error, 0) (w.passed rs pos w.locks))
    (refused : ∀ rc wait rs pos locks, rc ≠ .ok →
      (rc = .declined → ¬ Registered w.sys w.self ∨ takeover = none ∧
        ((w.sys.record i).worker ≠ w.self.runtime.worker ∨
          (w.sys.record i).inst ≠ 0 ∧ (w.sys.record i).inst ≠ w.self.runtime.inst)) →
      CriticalSection w.self.runtime.worker i w.locks locks →
      post (rc, wait) ((w.setSelf (w.self.allocate i)).passed rs pos locks))
    (claimed : ∀ t rs pos locks, t ∈ rs → t ≤ uint64Max →
      Claimable gen w.sys w.self i takeover (milliseconds t) →
      CriticalSection w.self.runtime.worker i w.locks locks →
      let started := milliseconds t
      let next := claimState (gen.conf i) w.self.runtime w.self.pid started (w.sys.record i)
      post (.ok, 0) (((w.published i next
          (.claimed w.me i takeover started (w.sys.record i) next)).setSelf
        ((w.self.allocate i).claimed gen i started next)).passed rs pos locks)) :
    wp (claimRound gen i takeover limit) post w := by
  unfold claimRound
  simp only [wp_bind, wp_self, wp_ask, wp_ite, wp_pure, wp_modifyPeer]
  refine ⟨fun _ => unallocated _ _, fun _ => ⟨fun _ => ?_, fun idle => wp_now ?_ ?_⟩⟩
  · have result := refused .again 0 [] (w.pos + 1) _ (by decide) (by simp) .none
    simpa [World.passed, World.setSelf, World.self, Sys.setProc, Proc.allocate, Proc.setPeer]
      using result
  · intro pos
    have result := refused .again 0 [] pos _ (by decide) (by simp) .none
    simpa [World.passed, World.setSelf, World.self, Sys.setProc, Proc.allocate, Proc.setPeer]
      using result
  · intro t pos range
    simp only [not_or, Bool.not_eq_true] at idle
    have shape : (((w.passed [] (w.pos + 1) w.locks).setSelf
        ((w.passed [] (w.pos + 1) w.locks).self.setPeer i
          { (w.passed [] (w.pos + 1) w.locks).self.peers i with allocated := true })).passed
            [t] pos w.locks) = (w.setSelf (w.self.allocate i)).passed [t] pos w.locks := by
      simp [World.passed, World.setSelf, World.self, Sys.setProc, Proc.allocate, Proc.setPeer]
    simp only [setSelf_locks, passed_locks] at shape ⊢
    rw [shape]
    -- The allocation and the reading leave the registration and the record as they were.
    have runtime : ((w.setSelf (w.self.allocate i)).passed [t] pos w.locks).self.runtime =
        w.self.runtime := by
      simp [Proc.allocate, Proc.setPeer]
    have pid : ((w.setSelf (w.self.allocate i)).passed [t] pos w.locks).self.pid =
        w.self.pid := by
      simp [Proc.allocate, Proc.setPeer]
    have registered : Registered ((w.setSelf (w.self.allocate i)).passed [t] pos w.locks).sys
        ((w.setSelf (w.self.allocate i)).passed [t] pos w.locks).self ↔
          Registered w.sys w.self := registered_congr rfl runtime pid
    refine wp_claimRecord ?_ ?_ ?_
    · simpa [Proc.round, Proc.allocate, Proc.setPeer] using idle
    · intro rc wait rs pos' locks failed declined released
      rw [registered, runtime] at declined
      rw [runtime] at released
      simpa using refused rc wait (rs ++ [t]) pos' locks failed declined released
    · intro rs pos' locks claimable released
      rw [runtime] at released
      have result := claimed t (rs ++ [t]) pos' locks (by simp) range
        ⟨registered.mp claimable.registration, by simpa [Proc.round] using idle, by
          rw [← runtime]; exact claimable.test⟩ released
      simpa [World.passed, World.setSelf, World.published, World.self, Sys.setProc, Sys.record,
        Proc.claimed, Proc.allocate, Proc.setPeer] using result

end Healthcheck
