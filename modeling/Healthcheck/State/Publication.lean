import Healthcheck.Library.TornWrite
import Healthcheck.State.Record

/-!
The publication of a peer's record as the machine really does it: one field after the other, then
the word, by a lock holder that may die anywhere; and the balancers' query, which takes no lock.
-/

namespace Healthcheck

open DoubleSlot Relation

/-- The fields of `ngx_healthcheck_peer_state_t`, those of its health sample included. -/
inductive PeerField where
  | accessTime
  | riseCount
  | fallCount
  | down
  | lastCheckDelay
  | avgCheckDelay
  | minCheckDelay
  | maxCheckDelay
  | delayTotal
  | delaySampleCount
  | started
  | owner
  | worker
  | inst
  | term
  | round
  | deadline
  | phase
  deriving DecidableEq, Repr

/-- One field of a record written into another. -/
def copyField (field : PeerField) (source target : PeerState) : PeerState :=
  match field with
  | .accessTime => { target with health.accessTime := source.health.accessTime }
  | .riseCount => { target with health.riseCount := source.health.riseCount }
  | .fallCount => { target with health.fallCount := source.health.fallCount }
  | .down => { target with health.down := source.health.down }
  | .lastCheckDelay => { target with health.lastCheckDelay := source.health.lastCheckDelay }
  | .avgCheckDelay => { target with health.avgCheckDelay := source.health.avgCheckDelay }
  | .minCheckDelay => { target with health.minCheckDelay := source.health.minCheckDelay }
  | .maxCheckDelay => { target with health.maxCheckDelay := source.health.maxCheckDelay }
  | .delayTotal => { target with health.delayTotal := source.health.delayTotal }
  | .delaySampleCount => { target with health.delaySampleCount := source.health.delaySampleCount }
  | .started => { target with started := source.started }
  | .owner => { target with owner := source.owner }
  | .worker => { target with worker := source.worker }
  | .inst => { target with inst := source.inst }
  | .term => { target with term := source.term }
  | .round => { target with round := source.round }
  | .deadline => { target with deadline := source.deadline }
  | .phase => { target with phase := source.phase }

/-- Two records have the same value in a field. -/
def agreeField (field : PeerField) (a b : PeerState) : Prop :=
  match field with
  | .accessTime => a.health.accessTime = b.health.accessTime
  | .riseCount => a.health.riseCount = b.health.riseCount
  | .fallCount => a.health.fallCount = b.health.fallCount
  | .down => a.health.down = b.health.down
  | .lastCheckDelay => a.health.lastCheckDelay = b.health.lastCheckDelay
  | .avgCheckDelay => a.health.avgCheckDelay = b.health.avgCheckDelay
  | .minCheckDelay => a.health.minCheckDelay = b.health.minCheckDelay
  | .maxCheckDelay => a.health.maxCheckDelay = b.health.maxCheckDelay
  | .delayTotal => a.health.delayTotal = b.health.delayTotal
  | .delaySampleCount => a.health.delaySampleCount = b.health.delaySampleCount
  | .started => a.started = b.started
  | .owner => a.owner = b.owner
  | .worker => a.worker = b.worker
  | .inst => a.inst = b.inst
  | .term => a.term = b.term
  | .round => a.round = b.round
  | .deadline => a.deadline = b.deadline
  | .phase => a.phase = b.phase

/-- A field that agrees stays so when another one is written. -/
theorem copyField_kept (j k : PeerField) (source target : PeerState)
    (agreed : agreeField k target source) : agreeField k (copyField j source target) source := by
  -- The field just written agrees by construction, every other one as before.
  by_cases same : k = j
  · subst same
    cases k <;> rfl
  · cases j <;> cases k <;> first
      | exact agreed
      | exact absurd rfl same

/-- Records that agree in every field are the same record. -/
theorem agreeField_whole (a b : PeerState) (agreed : ∀ k, agreeField k a b) : a = b := by
  obtain ⟨health, started, owner, worker, inst, term, round, deadline, phase⟩ := a
  obtain ⟨health', started', owner', worker', inst', term', round', deadline', phase'⟩ := b
  -- The health sample first, field by field.
  have sample : health = health' := by
    obtain ⟨access, rise, fall, down, last, avg, min, max, total, count⟩ := health
    obtain ⟨access', rise', fall', down', last', avg', min', max', total', count'⟩ := health'
    cases (agreed .accessTime : access = access')
    cases (agreed .riseCount : rise = rise')
    cases (agreed .fallCount : fall = fall')
    cases (agreed .down : down = down')
    cases (agreed .lastCheckDelay : last = last')
    cases (agreed .avgCheckDelay : avg = avg')
    cases (agreed .minCheckDelay : min = min')
    cases (agreed .maxCheckDelay : max = max')
    cases (agreed .delayTotal : total = total')
    cases (agreed .delaySampleCount : count = count')
    rfl
  cases sample
  cases (agreed .started : started = started')
  cases (agreed .owner : owner = owner')
  cases (agreed .worker : worker = worker')
  cases (agreed .inst : inst = inst')
  cases (agreed .term : term = term')
  cases (agreed .round : round = round')
  cases (agreed .deadline : deadline = deadline')
  cases (agreed .phase : phase = phase')
  rfl

/-- A peer's record is copied field by field. -/
def peerLayout : Layout PeerState PeerField :=
  { copy := copyField
    agree := agreeField
    copied := fun k _ _ => by cases k <;> rfl
    kept := copyField_kept
    whole := agreeField_whole }

/-- Every field once, in the order of the declaration. -/
def peerFields : List PeerField :=
  [.accessTime, .riseCount, .fallCount, .down, .lastCheckDelay, .avgCheckDelay, .minCheckDelay,
    .maxCheckDelay, .delayTotal, .delaySampleCount, .started, .owner, .worker, .inst, .term,
    .round, .deadline, .phase]

/-- The list of fields has every one of them. -/
theorem peerFields_complete (k : PeerField) : k ∈ peerFields := by
  -- There are eight of them.
  cases k <;> decide

/-- A peer's record under its lock, with the processes that use it. -/
abbrev PeerMachine (P : Type) := Machine PeerState PeerField P

/-- Any number of steps of any processes on one peer's record. -/
abbrev PeerRun {P : Type} [DecidableEq P] : PeerMachine P → PeerMachine P → Prop :=
  ReflTransGen (Machine.Step peerLayout downTag)

/-- `publish` is what a publication does when its process survives it. -/
theorem publish_run {P : Type} [DecidableEq P] (m : PeerMachine P) (p : P) (state : PeerState)
    (holds : m.holder = some p) (alive : m.alive p = true)
    (idle : m.writing = none ∧ m.reading = none) :
    PeerRun m { m with memory := publish m.memory state
                       passed := state :: m.passed
                       completed := state :: m.completed } :=
  -- The library's run, at the fields of a peer.
  Machine.publish_run peerFields_complete m p state holds alive idle

/-- The peers a module published to its balancers, `ngx_upstream_check_peers_t`. -/
structure Peers (word : Word) where
  nelts : Nat
  /-- The count is a machine word. -/
  nelts_le : nelts ≤ word.max
  /-- The shared memory of each peer; `none` is `NULL`. -/
  shm : Nat → Option PeerShm

/-- `(ngx_uint_t) NGX_ERROR`, the index of a server that is not checked. -/
def ngxError (word : Word) : Nat :=
  word.max

/-- The query of a balancer, with the peers its module published. -/
def peerDown {word : Word} (peersCtx : Option (Peers word)) (index : Nat) : Nat :=
  match peersCtx with
  | none => 0
  | some peers =>
    if index ≥ peers.nelts then 0
    else
      match peers.shm index with
      | none => 0
      | some shm => if shm.downBit then 1 else 0

/-- `ngx_http_upstream_check_peer_down`. -/
def httpPeerDown {word : Word} (httpPeersCtx : Option (Peers word)) (index : Nat) : Nat :=
  peerDown httpPeersCtx index

/-- `ngx_stream_upstream_check_peer_down`. -/
def streamPeerDown {word : Word} (streamPeersCtx : Option (Peers word)) (index : Nat) : Nat :=
  peerDown streamPeersCtx index

/-- The routing bit of a word that carries a record's tag. -/
theorem downBit_of_tag {peer : PeerShm} {state : PeerState}
    (tagged : peer.published / 2 = downTag state / 2) :
    peer.downBit = decide (state.health.down ≠ 0) := by
  -- The tag has nothing but this bit above the lowest one.
  unfold PeerShm.downBit
  rw [and_two_ne_zero, tagged]
  unfold downTag
  by_cases up : state.health.down = 0
  · simp [up]
  · simp [up]

/-- A peer's record is intact wherever its publishers and readers have died. -/
theorem peer_intact {P : Type} [DecidableEq P] {m : PeerMachine P}
    (run : PeerRun (Machine.start {}) m) : m.Intact peerLayout downTag {} := by
  -- Induction on the run, one step at its end.
  induction run with
  | refl => exact Machine.intact_start peerLayout rfl
  | tail _ step intact => exact Machine.intact_step downTag_even intact step

/-- An index that is registered answers from the memory of its peer. -/
theorem peerDown_registered {word : Word} {peers : Peers word} {index : Nat} {shm : PeerShm}
    (registered : index < peers.nelts) (bound : peers.shm index = some shm) :
    peerDown (some peers) index = if shm.downBit then 1 else 0 := by
  -- The index passes the test of the bound.
  have inside : ¬ index ≥ peers.nelts := Nat.not_le.mpr registered
  simp only [peerDown, inside, if_false, bound]

/-- An index that is not registered answers that the server is up. -/
theorem peerDown_unregistered {word : Word} (peersCtx : Option (Peers word)) {index : Nat}
    (unregistered : index = ngxError word ∨ ∀ peers, peersCtx = some peers → peers.nelts ≤ index) :
    peerDown peersCtx index = 0 := by
  -- There is no context, or the index fails the test of its bound.
  cases peersCtx with
  | none => rfl
  | some peers =>
    have outside : peers.nelts ≤ index := by
      rcases unregistered with error | beyond
      · rw [error]
        exact peers.nelts_le
      · exact beyond peers rfl
    exact if_pos outside

/-- Crash-safe publication: wherever processes die, the current record is the one whose word was
stored last, reads return whole records, and the lock-free query answers its down value. -/
theorem crash_safe_publication {P : Type} [DecidableEq P] {m : PeerMachine P}
    (run : PeerRun (Machine.start {}) m) (binary : ∀ state ∈ m.passed, state.health.down ≤ 1) :
    (m.memory.current = m.latest {} ∧ (m.latest {} = {} ∨ m.latest {} ∈ m.passed)) ∧
      PeerShm.downBit m.memory = decide (m.memory.current.health.down ≠ 0) ∧
      (∀ pair ∈ m.returned, pair.1 = pair.2 ∧ (pair.1 = {} ∨ pair.1 ∈ m.passed)) ∧
      (∀ (word : Word) (peers : Peers word) (index : Nat), index < peers.nelts →
        peers.shm index = some m.memory →
        httpPeerDown (some peers) index = (m.latest {}).health.down ∧
          streamPeerDown (some peers) index = (m.latest {}).health.down) ∧
      ∀ (word : Word) (peersCtx : Option (Peers word)) (index : Nat),
        (index = ngxError word ∨ ∀ peers, peersCtx = some peers → peers.nelts ≤ index) →
        httpPeerDown peersCtx index = 0 ∧ streamPeerDown peersCtx index = 0 := by
  have intact := peer_intact run
  have bit := downBit_of_tag intact.tagged
  have known : m.latest {} = {} ∨ m.latest {} ∈ m.passed :=
    (m.latest_known {}).imp id (intact.completed _)
  -- A published down value is zero or one, and so is the first one.
  have small : (m.latest {}).health.down ≤ 1 := by
    rcases known with first | passed
    · rw [first]
      exact Nat.zero_le 1
    · exact binary _ passed
  have answer : ∀ (word : Word) (peers : Peers word) (index : Nat), index < peers.nelts →
      peers.shm index = some m.memory →
      peerDown (some peers) index = (m.latest {}).health.down := by
    intro word peers index registered bound
    rw [peerDown_registered registered bound, bit]
    by_cases up : (m.latest {}).health.down = 0
    · simp [up]
    · have one : (m.latest {}).health.down = 1 := by omega
      simp [one]
  refine ⟨⟨intact.current, known⟩, ?_, ?_, ?_, ?_⟩
  · rw [intact.current]
    exact bit
  · intro pair member
    obtain ⟨same, origin⟩ := intact.returned pair member
    exact ⟨same, origin.imp id (intact.completed _)⟩
  · intro word peers index registered bound
    exact ⟨answer word peers index registered bound, answer word peers index registered bound⟩
  · intro word peersCtx index unregistered
    exact ⟨peerDown_unregistered peersCtx unregistered,
      peerDown_unregistered peersCtx unregistered⟩

/-- A publisher dies with one field written, and its lock is taken from it: the record published
before is still the current one. -/
theorem crash_safe_publication_torn : ∃ m : PeerMachine Nat, PeerRun (Machine.start {}) m ∧
    m.holder = some 1 ∧ m.passed = [{ started := 7 }, { health := { down := 1 } }] ∧
    m.memory.current = m.latest {} ∧ PeerShm.downBit m.memory = true := by
  -- A publication, a crash in the middle of the next one, and a recovery.
  have first : PeerRun (Machine.start {}) _ :=
    (ReflTransGen.single (.take _ 0 rfl rfl)).trans
      (publish_run _ 0 { health := { down := 1 } } rfl rfl ⟨rfl, rfl⟩)
  have torn : PeerRun (Machine.start {}) _ :=
    (first.tail (.begin _ 0 { started := 7 } peerFields rfl rfl ⟨rfl, rfl⟩
      peerFields_complete)).tail (.write _ _ .accessTime _ _ rfl)
  have recovered : PeerRun (Machine.start {}) _ :=
    ((torn.tail (.die _ 0 rfl)).tail (.recover _ 0 rfl rfl)).tail (.take _ 1 rfl rfl)
  obtain ⟨⟨current, _⟩, bit, _⟩ := crash_safe_publication recovered (by simp [Machine.start])
  exact ⟨_, recovered, rfl, rfl, current, bit⟩

end Healthcheck
