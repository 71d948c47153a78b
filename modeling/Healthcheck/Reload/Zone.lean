import Healthcheck.Reload.Identity
import Healthcheck.System.Run

/-! The shared memory of a new generation, and what it inherits from the generation before. -/

namespace Healthcheck

open BucketIndex

/-- What `ngx_healthcheck_init_zone` finds in the configuration of its module and of the core. -/
structure ZoneConf where
  word : Word
  order : ByteOrder
  generation : Nat
  tag : Nat
  master : Bool
  workerProcesses : Int
  peers : List ConfPeer
  /-- `offsetof(ngx_upstream_check_peers_shm_t, peers)`. -/
  headerSize : Nat
  /-- `sizeof(ngx_upstream_check_peer_shm_t)`. -/
  peerSize : Nat
  /-- `sizeof(ngx_healthcheck_worker_shm_t)`. -/
  workerSize : Nat

/-- What `ngx_healthcheck_init_zone` learns while it runs. -/
structure ZoneEnv where
  /-- Whether a call that can fail succeeds. -/
  works : Site → Bool
  /-- Whether new peer `i` gets the lock of its old record in time. -/
  locked : Nat → Bool
  /-- The old records when new peer `i` reads its own: the old processes go on publishing. -/
  memory : Nat → Nat → PeerShm

/-- The number of worker slots; a master without workers still gets one. -/
def ZoneConf.workers (conf : ZoneConf) : Nat :=
  if conf.master ∧ conf.workerProcesses > 0 then conf.workerProcesses.toNat else 1

/-- `ngx_healthcheck_read_peer` on the old record at a position; `none` is `NGX_AGAIN`. -/
def ZoneEnv.readPeer (env : ZoneEnv) (i position : Nat) : Option PeerState :=
  if env.locked i then some (env.memory i position).current else none

/-- `ngx_healthcheck_copy_shm_identity`; `none` is `NGX_ERROR`. -/
def copyShmIdentity (works : Site → Bool) (i : Nat) (peer : ConfPeer) : Option Identity := do
  guard (works (.sockaddr i))
  guard (works (.checkSockaddr i))
  if peer.upstreamName.length ≠ 0 then guard (works (.upstreamName i))
  return { upstreamName := peer.upstreamName, sockaddr := peer.peerAddr,
           checkSockaddr := peer.checkPeerAddr, checkType := peer.conf.checkType.code }

/-- UDP checks have no delay, so a UDP peer inherits none. -/
def clearDelays (conf : CheckConf) (health : Health) : Health :=
  if conf.checkType = .udp then
    { health with lastCheckDelay := 0, avgCheckDelay := 0, minCheckDelay := 0, maxCheckDelay := 0,
                  delayTotal := 0, delaySampleCount := 0 }
  else health

/-- What a new record has of the health of an old one: all of it for a TCP peer, and for a UDP peer
all but the delays, which are zero. -/
structure Inherited (type : CheckType) (old new : Health) : Prop where
  whole : type = .tcp → new = old
  accessTime : new.accessTime = old.accessTime
  riseCount : new.riseCount = old.riseCount
  fallCount : new.fallCount = old.fallCount
  down : new.down = old.down
  undelayed : type = .udp →
    new.lastCheckDelay = 0 ∧ new.avgCheckDelay = 0 ∧ new.minCheckDelay = 0 ∧
      new.maxCheckDelay = 0 ∧ new.delayTotal = 0 ∧ new.delaySampleCount = 0

/-- The health of a peer without a history: nothing but the configured value. -/
def untouchedHealth (defaultDown : Nat) : Health :=
  { accessTime := 0, riseCount := 0, fallCount := 0, down := defaultDown, lastCheckDelay := 0
    avgCheckDelay := 0, minCheckDelay := 0, maxCheckDelay := 0, delayTotal := 0
    delaySampleCount := 0 }

/-- The state built for new peer `i` from the old state it could read. -/
def inheritState (conf : CheckConf) (workers i : Nat) (previous : Option PeerState) : PeerState :=
  let state := previous.getD { health := { down := conf.defaultDown } }
  { state with
    health := clearDelays conf state.health
    owner := invalidPid
    worker := i % workers
    inst := 0
    term := 0
    round := 0
    deadline := 0
    phase := .initial }

/-- The loop over the new peers: their identities and their records, in order. -/
def initPeers (conf : ZoneConf) (env : ZoneEnv) (old : Nat → Identity) :
    Nat → List ConfPeer → Index Nat → Option (List (Identity × PeerShm))
  | _, [], _ => some []
  | i, peer :: rest, index => do
    let identity ← copyShmIdentity env.works i peer
    guard (env.works (.peerLock i))
    let (previous, index) := identityIndexTake conf.word conf.order old index peer
    let state := inheritState peer.conf conf.workers i (previous.bind (env.readPeer i))
    let others ← initPeers conf env old (i + 1) rest index
    return (identity, publish PeerShm.zero state) :: others

/-- The table of a generation. Nothing uses a record beyond the table; there the function is filled
up with untouched records. -/
def ZoneConf.table (conf : ZoneConf) (records : List (Identity × PeerShm)) : PeersShm × Shared :=
  ({ magic := shmMagic, version := shmVersion, generation := conf.generation,
     number := conf.peers.length, workerCount := conf.workers,
     peers := fun i => (records[i]?.map Prod.fst).getD {} },
   { peers := fun i => (records[i]?.map Prod.snd).getD
      (publish PeerShm.zero { worker := i % conf.workers }) })

/-- `ngx_healthcheck_init_zone` with the zones of the old cycle; `none` is `NGX_ERROR`. -/
def initZone (conf : ZoneConf) (env : ZoneEnv) (oldCycle : Option (List ShmZone)) :
    Option (PeersShm × Shared) := do
  let count := conf.peers.length
  guard (¬ (count > (conf.word.max - conf.headerSize) / conf.peerSize
    ∨ conf.workers > conf.word.max / conf.workerSize))
  guard (env.works .table)
  guard (env.works .workers)
  guard (env.works .activationLock)
  guard ((List.range conf.workers).all fun worker => env.works (.workerLock worker))
  let old := findLatestPeersShm oldCycle conf.tag
  guard (env.works .temporary)
  let index ← identityIndexCreate conf.word conf.order env.works old
  -- An index over no table has no entries whose identities could be looked at.
  let identities := (old.map PeersShm.peers).getD fun _ => {}
  let records ← initPeers conf env identities 0 conf.peers index
  return conf.table records

/-- A copy that succeeds is the peer's identity. -/
theorem copyShmIdentity_some {works : Site → Bool} {i : Nat} {peer : ConfPeer}
    {identity : Identity} (copied : copyShmIdentity works i peer = some identity) :
    identity = peer.identity := by
  simp only [copyShmIdentity, Option.bind_eq_bind, Option.bind_eq_some_iff] at copied
  obtain ⟨_, _, _, _, rest⟩ := copied
  -- An empty name is not allocated.
  split at rest
  · obtain ⟨_, _, last⟩ := Option.bind_eq_some_iff.mp rest
    cases last
    rfl
  · cases rest
    rfl

/-- The record a new peer is initialized with, whether or not it found an old one. -/
theorem inheritState_fresh (conf : CheckConf) (workers i : Nat) (previous : Option PeerState) :
    (inheritState conf workers i previous).phase = .initial ∧
      (inheritState conf workers i previous).inst = 0 ∧
      (inheritState conf workers i previous).term = 0 ∧
      (inheritState conf workers i previous).round = 0 ∧
      (inheritState conf workers i previous).deadline = 0 ∧
      (inheritState conf workers i previous).worker = i % workers :=
  -- The record starts without an owner and without a round, whatever it inherits.
  ⟨rfl, rfl, rfl, rfl, rfl, rfl⟩

/-- Only UDP peers lose anything of the health they inherit, and only their delays. -/
theorem clearDelays_inherited (conf : CheckConf) (health : Health) :
    Inherited conf.checkType health (clearDelays conf health) := by
  -- The two check types are the two branches of the definition.
  cases type : conf.checkType <;> constructor <;> simp [clearDelays, type]

/-- A peer that read an old state carries its health and its start time. -/
theorem inheritState_some (conf : CheckConf) (workers i : Nat) (state : PeerState) :
    Inherited conf.checkType state.health (inheritState conf workers i (some state)).health ∧
      (inheritState conf workers i (some state)).started = state.started :=
  -- The health is inherited, and the time of the last round with it.
  ⟨clearDelays_inherited conf state.health, rfl⟩

/-- A peer that read nothing starts with the configured value and without a history. -/
theorem inheritState_none (conf : CheckConf) (workers i : Nat) :
    (inheritState conf workers i none).health = untouchedHealth conf.defaultDown ∧
      (inheritState conf workers i none).started = 0 := by
  refine ⟨?_, rfl⟩
  show clearDelays conf { down := conf.defaultDown } = _
  -- Its delays are zero before they are cleared, if they are.
  unfold clearDelays
  split
  · rfl
  · rfl

/-- The loop builds one record for each new peer, from what the index gave to that peer. -/
theorem initPeers_spec {conf : ZoneConf} {env : ZoneEnv} {old : Nat → Identity} {first : Nat}
    {peers : List ConfPeer} {index : Index Nat} {records : List (Identity × PeerShm)}
    (built : initPeers conf env old first peers index = some records) :
    ∀ (i : Nat) (peer : ConfPeer), peers[i]? = some peer →
      ∃ previous, (identityIndexTakes conf.word conf.order old index peers)[i]? = some previous ∧
        records[i]? = some (peer.identity, publish PeerShm.zero
          (inheritState peer.conf conf.workers (first + i)
            (previous.bind (env.readPeer (first + i))))) := by
  -- Induction on the list: the first peer takes its record before the others.
  induction peers generalizing first index records with
  | nil =>
    intro i peer listed
    simp at listed
  | cons head rest ih =>
    simp only [initPeers, Option.bind_eq_bind, Option.bind_eq_some_iff] at built
    obtain ⟨identity, copied, _, _, others, later, result⟩ := built
    cases result
    have same := copyShmIdentity_some copied
    intro i peer listed
    cases i with
    | zero =>
      have here : head = peer := by simpa using listed
      cases here
      exact ⟨_, rfl, by rw [same]; rfl⟩
    | succ i =>
      obtain ⟨previous, taken, record⟩ := ih later i peer (by simpa using listed)
      refine ⟨previous, taken, ?_⟩
      rw [List.getElem?_cons_succ, record]
      rw [show first + 1 + i = first + (i + 1) by omega]

/-- The loop builds as many records as there are peers. -/
theorem initPeers_length {conf : ZoneConf} {env : ZoneEnv} {old : Nat → Identity} {first : Nat}
    {peers : List ConfPeer} {index : Index Nat} {records : List (Identity × PeerShm)}
    (built : initPeers conf env old first peers index = some records) :
    records.length = peers.length := by
  -- Induction on the peers: each one gets a record.
  induction peers generalizing first index records with
  | nil =>
    cases built
    rfl
  | cons head rest ih =>
    simp only [initPeers, Option.bind_eq_bind, Option.bind_eq_some_iff] at built
    obtain ⟨identity, _, _, _, others, later, result⟩ := built
    cases result
    rw [List.length_cons, List.length_cons, ih later]

/-- What a zone's initialization did once it succeeded. -/
theorem initZone_spec {conf : ZoneConf} {env : ZoneEnv} {oldCycle : Option (List ShmZone)}
    {table : PeersShm} {shared : Shared}
    (done : initZone conf env oldCycle = some (table, shared)) :
    ∃ index records, identityIndexCreate conf.word conf.order env.works
        (findLatestPeersShm oldCycle conf.tag) = some index ∧
      initPeers conf env (((findLatestPeersShm oldCycle conf.tag).map PeersShm.peers).getD
        fun _ => {}) 0 conf.peers index = some records ∧
      (table, shared) = conf.table records := by
  -- The index is created first, then the records, and then the table.
  simp only [initZone, Option.bind_eq_bind, Option.bind_eq_some_iff] at done
  obtain ⟨_, _, _, _, _, _, _, _, _, _, _, _, index, created, records, built, last⟩ := done
  cases last
  exact ⟨index, records, created, built, rfl⟩

/-- What a zone's initialization wrote for a peer of the configuration: its identity in the table,
and a published record that goes on from the old one the index gave, as far as it was read. -/
theorem initZone_record {conf : ZoneConf} {env : ZoneEnv} {oldCycle : Option (List ShmZone)}
    {table : PeersShm} {shared : Shared}
    (done : initZone conf env oldCycle = some (table, shared)) {i : Nat} {peer : ConfPeer}
    (listed : conf.peers[i]? = some peer) :
    ∃ index previous, identityIndexCreate conf.word conf.order env.works
        (findLatestPeersShm oldCycle conf.tag) = some index ∧
      (identityIndexTakes conf.word conf.order
        (((findLatestPeersShm oldCycle conf.tag).map PeersShm.peers).getD fun _ => {}) index
        conf.peers)[i]? = some previous ∧
      table.peers i = peer.identity ∧
      shared.peers i = publish PeerShm.zero
        (inheritState peer.conf conf.workers i (previous.bind (env.readPeer i))) := by
  obtain ⟨index, records, created, built, result⟩ := initZone_spec done
  obtain ⟨previous, taken, record⟩ := initPeers_spec built i peer listed
  rw [Nat.zero_add] at record
  -- The loop's record is the one at this position of the table.
  refine ⟨index, previous, created, taken, ?_, ?_⟩
  · rw [(Prod.mk.inj result).1]
    simp [record]
  · rw [(Prod.mk.inj result).2]
    simp [record]

/-- Every record a zone's initialization leaves was published, and belongs to no round: inside the
table it is the one of its peer, beyond it nothing else was ever written. -/
theorem initZone_published {conf : ZoneConf} {env : ZoneEnv} {oldCycle : Option (List ShmZone)}
    {table : PeersShm} {shared : Shared}
    (done : initZone conf env oldCycle = some (table, shared)) (i : Nat) :
    ∃ state, shared.peers i = publish PeerShm.zero state ∧ state.phase = .initial ∧
      state.inst = 0 ∧ state.term = 0 ∧ state.round = 0 ∧ state.deadline = 0 ∧
      state.worker = i % conf.workers := by
  -- A peer of the configuration has a record of its own.
  cases listed : conf.peers[i]? with
  | some peer =>
    obtain ⟨_, previous, _, _, _, memory⟩ := initZone_record done listed
    exact ⟨_, memory, inheritState_fresh _ _ _ _⟩
  | none =>
    obtain ⟨_, records, _, built, result⟩ := initZone_spec done
    have beyond : records[i]? = none := by
      rw [List.getElem?_eq_none_iff] at listed ⊢
      rw [initPeers_length built]
      exact listed
    refine ⟨{ worker := i % conf.workers }, ?_, rfl, rfl, rfl, rfl, rfl, rfl⟩
    rw [(Prod.mk.inj result).2]
    simp [beyond]

/-- Reload inheritance is a maximal one-to-one matching of old records and new peers by identity,
and every new record is that of its matched old one, or the default. -/
theorem inheritance (conf : ZoneConf) (env : ZoneEnv) {old : PeersShm} (valid : old.Valid)
    {index : Index Nat}
    (created : identityIndexCreate conf.word conf.order env.works (some old) = some index) :
    let given := identityIndexTakes conf.word conf.order old.peers index conf.peers
    (∀ (i j : Nat) position, given[i]? = some (some position) → given[j]? = some (some position) →
      i = j) ∧
    (∀ (i : Nat) position, given[i]? = some (some position) → position < old.number ∧
      ∃ peer, conf.peers[i]? = some peer ∧ old.peers position = peer.identity) ∧
    (∀ (i : Nat) peer, conf.peers[i]? = some peer → given[i]? = some none →
      ∀ position < old.number, old.peers position = peer.identity →
        ∃ j < i, given[j]? = some (some position)) ∧
    (∀ identity, (Matching.served (conf.peers.map ConfPeer.identity) given identity).card =
      min ((Finset.range old.number).filter (old.peers · = identity)).card
        (Matching.wanting (conf.peers.map ConfPeer.identity) identity).card) ∧
    ∀ oldCycle table shared, findLatestPeersShm oldCycle conf.tag = some old →
      initZone conf env oldCycle = some (table, shared) →
      ∀ (i : Nat) peer, conf.peers[i]? = some peer →
        (∀ position, given[i]? = some (some position) → env.locked i = true →
          Inherited peer.conf.checkType (env.memory i position).current.health
              (shared.peers i).current.health ∧
            (shared.peers i).current.started = (env.memory i position).current.started) ∧
        (given[i]? = some none →
          (shared.peers i).current.health = untouchedHealth peer.conf.defaultDown ∧
            (shared.peers i).current.started = 0) ∧
        (shared.peers i).current.phase = .initial ∧
        (shared.peers i).current.inst = 0 ∧
        (shared.peers i).current.term = 0 ∧
        (shared.peers i).current.round = 0 ∧
        (shared.peers i).downBit = decide ((shared.peers i).current.health.down ≠ 0) := by
  intro given
  have maximal := identityIndexTakes_maximal valid created conf.peers
  refine ⟨maximal.once, ?_, ?_, Matching.served_card maximal, ?_⟩
  · intro i position taken
    obtain ⟨entry, wanted⟩ := maximal.known i position taken
    refine ⟨Finset.mem_range.mp entry, ?_⟩
    rw [List.getElem?_map, Option.map_eq_some_iff] at wanted
    obtain ⟨peer, listed, same⟩ := wanted
    exact ⟨peer, listed, same.symm⟩
  · intro i peer listed nothing position entry same
    apply maximal.exhausted i nothing position (Finset.mem_range.mpr entry)
    rw [List.getElem?_map, listed, same]
    rfl
  · intro oldCycle table shared latest done i peer listed
    obtain ⟨index', previous, created', taken, _, memory⟩ := initZone_record done listed
    rw [latest] at created' taken
    -- The index is created once, so the record was taken from the one of the statement.
    have same : index' = index := Option.some.inj (created'.symm.trans created)
    subst same
    rw [memory, current_publish, downBit_publish]
    refine ⟨?_, ?_, rfl, rfl, rfl, rfl, rfl⟩
    · intro position matched locked
      have found : previous = some position := Option.some.inj (taken.symm.trans matched)
      rw [found, Option.bind_some, ZoneEnv.readPeer, if_pos locked]
      exact inheritState_some peer.conf conf.workers i _
    · intro unmatched
      have nothing : previous = none := Option.some.inj (taken.symm.trans unmatched)
      rw [nothing, Option.bind_none]
      exact inheritState_none peer.conf conf.workers i

/-- A server listed under an upstream's name, checked at its own address. -/
def samplePeer (name address : List UInt8) : ConfPeer :=
  { upstreamName := name, peerAddr := address, checkPeerAddr := address, conf := sampleConf }

/-- A server of the same upstream that is checked by datagrams. -/
def datagramPeer : ConfPeer :=
  { samplePeer [97] [7] with conf := { sampleConf with checkType := .udp } }

/-- An old table in which one server stands twice, around another one, and once more for UDP. -/
def sampleOld : PeersShm :=
  { magic := shmMagic, version := shmVersion, generation := 1, number := 4, workerCount := 2,
    peers := fun i =>
      (if i = 3 then datagramPeer else samplePeer [97] [if i = 1 then 8 else 7]).identity }

/-- The same server listed three times, and once for UDP. -/
def sampleZone : ZoneConf :=
  { word := .bits64, order := .little, generation := 2, tag := 0, master := true,
    workerProcesses := 2, peers := List.replicate 3 (samplePeer [97] [7]) ++ [datagramPeer],
    headerSize := 128, peerSize := 512, workerSize := 128 }

/-- Every call succeeds, and the old peers are down since their rounds 5 to 8. -/
def sampleEnv : ZoneEnv :=
  { works := fun _ => true, locked := fun _ => true,
    memory := fun _ i => publish PeerShm.zero
      { health := { down := 1, fallCount := i + 2, lastCheckDelay := 30 }, started := i + 5 } }

/-- Of three new peers of one identity two inherit, as many as there were old ones: the first of
them goes on from the last old record, with its delays, the third starts anew. The UDP peer goes on
from its own record, without delays. -/
theorem inheritance_duplicates : ∃ index table shared,
    identityIndexTakes .bits64 .little sampleOld.peers index sampleZone.peers =
      [some 2, some 0, none, some 3] ∧
    (Matching.served (sampleZone.peers.map ConfPeer.identity) [some 2, some 0, none, some 3]
      (samplePeer [97] [7]).identity).card = 2 ∧
    initZone sampleZone sampleEnv (some [{ tag := 0, data := some (some sampleOld) }]) =
      some (table, shared) ∧
    (shared.peers 0).current.health = { down := 1, fallCount := 4, lastCheckDelay := 30 } ∧
    (shared.peers 0).current.started = 7 ∧ (shared.peers 0).downBit = true ∧
    (shared.peers 2).current.health = { down := 1 } ∧
    (shared.peers 3).current.health.fallCount = 5 ∧
    (shared.peers 3).current.health.lastCheckDelay = 0 := by
  have present : (identityIndexCreate .bits64 .little sampleEnv.works (some sampleOld)).isSome := by
    decide +kernel
  obtain ⟨index, created⟩ := Option.isSome_iff_exists.mp present
  have given : (identityIndexCreate .bits64 .little sampleEnv.works (some sampleOld)).map
      (fun index => identityIndexTakes .bits64 .little sampleOld.peers index sampleZone.peers) =
        some [some 2, some 0, none, some 3] := by
    decide +kernel
  rw [created, Option.map_some, Option.some.injEq] at given
  have initialized : (initZone sampleZone sampleEnv
      (some [{ tag := 0, data := some (some sampleOld) }])).isSome := by
    decide +kernel
  obtain ⟨⟨table, shared⟩, done⟩ := Option.isSome_iff_exists.mp initialized
  obtain ⟨_, _, _, count, records⟩ := inheritance sampleZone sampleEnv ⟨rfl, rfl⟩ created
  -- Both sides of the count are numbers here.
  have number : (Matching.served (sampleZone.peers.map ConfPeer.identity)
      (identityIndexTakes .bits64 .little sampleOld.peers index sampleZone.peers)
      (samplePeer [97] [7]).identity).card = 2 :=
    (count _).trans (by decide +kernel)
  rw [given] at number
  -- What each of the four was given, and what its record has from there.
  have taken : ∀ i : Nat, (identityIndexTakes .bits64 .little sampleOld.peers index
      sampleZone.peers)[i]? = [some 2, some 0, none, some 3][i]? := fun i => by rw [given]
  obtain ⟨first, _, _, _, _, _, bit⟩ := records _ table shared rfl done 0 (samplePeer [97] [7]) rfl
  obtain ⟨_, third, _⟩ := records _ table shared rfl done 2 (samplePeer [97] [7]) rfl
  obtain ⟨last, _⟩ := records _ table shared rfl done 3 datagramPeer rfl
  obtain ⟨whole, started⟩ := first 2 (taken 0) rfl
  obtain ⟨datagram, _⟩ := last 3 (taken 3) rfl
  have health := whole.whole rfl
  refine ⟨index, table, shared, given, number, done, health.trans (by decide +kernel),
    started.trans (by decide +kernel), ?_, (third (taken 2)).1.trans (by decide +kernel),
    datagram.fallCount.trans (by decide +kernel), (datagram.undelayed rfl).1⟩
  rw [bit, health]
  decide +kernel

/-- A zone's initialization leaves the shared memory a generation starts from. -/
theorem initZone_initial {conf : ZoneConf} {env : ZoneEnv} {oldCycle : Option (List ShmZone)}
    {table : PeersShm} {shared : Shared} (done : initZone conf env oldCycle = some (table, shared))
    (gen : Generation) (same : gen.workers = conf.workers) : Initial gen { shared := shared } := by
  -- Every record of the memory is the published one of a peer without a round.
  have record : ∀ i, ∃ state, Sys.record { shared := shared } i = state ∧
      state.phase = .initial ∧ state.inst = 0 ∧ state.term = 0 ∧ state.round = 0 ∧
      state.deadline = 0 ∧ state.worker = i % conf.workers := by
    intro i
    obtain ⟨state, memory, facts⟩ := initZone_published done i
    refine ⟨state, ?_, facts⟩
    show (shared.peers i).current = state
    rw [memory, current_publish]
  -- The rest of the shared memory is as the table's creation leaves it.
  obtain ⟨_, records, _, _, result⟩ := initZone_spec done
  cases result
  constructor
  · exact fun i => by obtain ⟨_, rfl, facts⟩ := record i; exact facts.1
  · exact fun i => by obtain ⟨_, rfl, facts⟩ := record i; rw [same]; exact facts.2.2.2.2.2
  · exact fun i => by obtain ⟨_, rfl, facts⟩ := record i; exact facts.2.1
  · exact fun i => by obtain ⟨_, rfl, facts⟩ := record i; exact facts.2.2.1
  · exact fun i => by obtain ⟨_, rfl, facts⟩ := record i; exact facts.2.2.2.1
  · exact fun i => by obtain ⟨_, rfl, facts⟩ := record i; exact facts.2.2.2.2.1
  · exact fun _ => rfl
  · rfl
  · exact fun _ => rfl
  · rfl

end Healthcheck
