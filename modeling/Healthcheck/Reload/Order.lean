import Healthcheck.Reload.Zone

/-!
Which old record a new peer inherits from when the configuration has not changed: a server that
stands several times in an upstream takes its old records in the opposite order.
-/

namespace Healthcheck

open BucketIndex

/-- Entering the records in order puts the later ones in front. -/
theorem enterRecords_descending {word : Word} {order : ByteOrder} {works : Site → Bool}
    {peers : Nat → Identity} {bucketCount number : Nat} {index : Index Nat}
    (entered : enterRecords word order works peers (Index.empty bucketCount) number = some index) :
    index.Descending := by
  induction number generalizing index with
  | zero =>
    cases entered
    exact descending_empty _
  | succ number ih =>
    simp only [enterRecords, Option.bind_eq_bind, Option.bind_eq_some_iff] at entered
    obtain ⟨earlier, before, _, _, last⟩ := entered
    cases last
    -- The positions entered so far are the smaller ones.
    apply descending_insert (ih before)
    intro position present
    exact Finset.mem_range.mp (((enterRecords_spec before).2 position).mp present)

/-- The index of a valid table has the later records in front. -/
theorem identityIndexCreate_descending {word : Word} {order : ByteOrder} {works : Site → Bool}
    {table : PeersShm} (valid : table.Valid) {index : Index Nat}
    (created : identityIndexCreate word order works (some table) = some index) :
    index.Descending := by
  -- Later records are put before earlier ones in their bucket.
  simp only [identityIndexCreate, Option.bind_eq_bind, Option.bind_eq_some_iff] at created
  obtain ⟨_, _, _, _, _, _, _, _, entered⟩ := created
  have accepted : ¬ (table.magic ≠ shmMagic ∨ table.version ≠ shmVersion) := by
    simp [valid.1, valid.2]
  rw [if_neg accepted] at entered
  exact enterRecords_descending entered

/-- The calls for a list of new peers hand out the last old record of an identity first. -/
theorem identityIndexTakes_latest {word : Word} {order : ByteOrder} {works : Site → Bool}
    {table : PeersShm} (valid : table.Valid) {index : Index Nat}
    (created : identityIndexCreate word order works (some table) = some index)
    (peers : List ConfPeer) :
    Matching.Latest (Finset.range table.number) table.peers
      (identityIndexTakes word order table.peers index peers) := by
  -- A descending index gives its largest entry first.
  obtain ⟨sound, held⟩ := identityIndexCreate_spec valid created
  have descending := identityIndexCreate_descending valid created
  apply takes_latest ConfPeer.identity _ _ peers sound descending held
  · intro peer position
    exact identityEqual_iff (table.peers position) peer
  · intro peer position same
    show shmIdentityHash word order (table.peers position) = peerIdentityHash word order peer
    rw [same, hash_agrees]

/-- A reload with the peers, in order, that the old table was made for. -/
structure Unchanged (conf : ZoneConf) (old : PeersShm) : Prop where
  valid : old.Valid
  number : old.number = conf.peers.length
  identities : ∀ (i : Nat) peer, conf.peers[i]? = some peer → old.peers i = peer.identity

/-- The records of one identity before a position. -/
def sameBefore (old : PeersShm) (i : Nat) : Finset Nat :=
  (Finset.range i).filter (old.peers · = old.peers i)

/-- The records of one identity after a position. -/
def sameAfter (old : PeersShm) (i : Nat) : Finset Nat :=
  (Finset.range old.number).filter fun j => old.peers j = old.peers i ∧ i < j

/-- Two positions of one identity, one as far from its first record as the other is from its
last. -/
structure Mirrors (old : PeersShm) (i position : Nat) : Prop where
  inside : position < old.number
  same : old.peers position = old.peers i
  opposite : (sameBefore old i).card = (sameAfter old position).card

variable {conf : ZoneConf} {old : PeersShm}

/-- The request at a position asks for the identity of the old record there. -/
theorem Unchanged.request (unchanged : Unchanged conf old) {i : Nat} (inside : i < old.number) :
    (conf.peers.map ConfPeer.identity)[i]? = some (old.peers i) := by
  -- The peer at a position has the identity of the old record there.
  rw [unchanged.number] at inside
  rw [List.getElem?_map, List.getElem?_eq_getElem inside, Option.map_some,
    unchanged.identities i _ (List.getElem?_eq_getElem inside)]

/-- As many peers ask for an identity as there are records of it. -/
theorem Unchanged.wanting (unchanged : Unchanged conf old) (identity : Identity) :
    Matching.wanting (conf.peers.map ConfPeer.identity) identity =
      (Finset.range old.number).filter (old.peers · = identity) := by
  -- Both sides are the positions with the identity.
  ext i
  simp only [Matching.wanting, Finset.mem_filter, Finset.mem_range, List.length_map,
    ← unchanged.number]
  constructor
  · rintro ⟨inside, wanted⟩
    rw [unchanged.request inside, Option.some.injEq] at wanted
    exact ⟨inside, wanted⟩
  · rintro ⟨inside, same⟩
    exact ⟨inside, by rw [unchanged.request inside, same]⟩

/-- Every peer of an unchanged configuration is given an old record, the mirrored one. -/
theorem Unchanged.given (unchanged : Unchanged conf old) {works : Site → Bool} {index : Index Nat}
    (created : identityIndexCreate conf.word conf.order works (some old) = some index) {i : Nat}
    (inside : i < old.number) :
    ∃ position, (identityIndexTakes conf.word conf.order old.peers index conf.peers)[i]? =
      some (some position) ∧ Mirrors old i position := by
  have maximal := identityIndexTakes_maximal unchanged.valid created conf.peers
  have latest := identityIndexTakes_latest unchanged.valid created conf.peers
  have asked := unchanged.request inside
  -- There are enough records for everyone who asks.
  have everyone : Matching.served (conf.peers.map ConfPeer.identity)
      (identityIndexTakes conf.word conf.order old.peers index conf.peers) (old.peers i) =
        Matching.wanting (conf.peers.map ConfPeer.identity) (old.peers i) := by
    apply Finset.eq_of_subset_of_card_le (Finset.filter_subset _ _)
    show _ ≤ (Matching.served _ _ _).card
    rw [Matching.served_card maximal, unchanged.wanting, Nat.min_self]
  have member : i ∈ Matching.served (conf.peers.map ConfPeer.identity)
      (identityIndexTakes conf.word conf.order old.peers index conf.peers) (old.peers i) := by
    rw [everyone, unchanged.wanting]
    exact Finset.mem_filter.mpr ⟨Finset.mem_range.mpr inside, rfl⟩
  obtain ⟨position, entry, held⟩ := Matching.served_entry maximal member
  obtain ⟨known, same⟩ := Finset.mem_filter.mp entry
  refine ⟨position, held, Finset.mem_range.mp known, same, ?_⟩
  -- The requests count through the records of the identity from the last one down.
  have counted := Matching.card_larger maximal latest held
  rw [same] at counted
  have before : Matching.earlier (conf.peers.map ConfPeer.identity) i (old.peers i) =
      sameBefore old i := by
    ext j
    simp only [Matching.earlier, unchanged.wanting, sameBefore, Finset.mem_filter,
      Finset.mem_range]
    constructor
    · rintro ⟨⟨_, same⟩, earlier⟩
      exact ⟨earlier, same⟩
    · rintro ⟨earlier, same⟩
      exact ⟨⟨Nat.lt_trans earlier inside, same⟩, earlier⟩
  rw [← before]
  exact counted

/-- A record whose identity stands once is its own mirror. -/
theorem Mirrors.unique {i position : Nat} (mirrors : Mirrors old i position)
    (single : ∀ j < old.number, old.peers j = old.peers i → j = i) : position = i :=
  -- There is no other record with the identity.
  single position mirrors.inside mirrors.same

/-- A reload of an unchanged configuration preserves the health and the start time of every peer
up to the order of its duplicates: a new record goes on from the old record that mirrors it among
those of its identity, from its own one where the identity stands once. -/
theorem unchanged_reload {conf : ZoneConf} {old : PeersShm} (unchanged : Unchanged conf old)
    {env : ZoneEnv} (readable : ∀ i < old.number, env.locked i = true)
    {oldCycle : Option (List ShmZone)} (latest : findLatestPeersShm oldCycle conf.tag = some old)
    {table : PeersShm} {shared : Shared}
    (done : initZone conf env oldCycle = some (table, shared)) {i : Nat} {peer : ConfPeer}
    (listed : conf.peers[i]? = some peer) :
    ∃ position, Mirrors old i position ∧
      ((∀ j < old.number, old.peers j = old.peers i → j = i) → position = i) ∧
      Inherited peer.conf.checkType (env.memory i position).current.health
        (shared.peers i).current.health ∧
      (shared.peers i).current.started = (env.memory i position).current.started := by
  -- The positions with one identity are handed out from the last to the first.
  obtain ⟨index, previous, created, taken, _, memory⟩ := initZone_record done listed
  rw [latest] at created taken
  have inside : i < old.number := by
    rw [unchanged.number]
    exact (List.getElem?_eq_some_iff.mp listed).1
  obtain ⟨position, given, mirrors⟩ := unchanged.given created inside
  have found : previous = some position := Option.some.inj (taken.symm.trans given)
  -- The old record could be read, so the new one goes on from it.
  rw [found, Option.bind_some, ZoneEnv.readPeer, if_pos (readable i inside)] at memory
  rw [memory, current_publish]
  exact ⟨position, mirrors, mirrors.unique, inheritState_some peer.conf conf.workers i _⟩

/-- An old table in which one server stands twice. -/
def twinOld : PeersShm :=
  { sampleOld with number := 2, peers := fun _ => (samplePeer [97] [7]).identity }

/-- The configuration it was made for. -/
def twinZone : ZoneConf :=
  { sampleZone with peers := List.replicate 2 (samplePeer [97] [7]) }

/-- The zone of the twins is reloaded as it was. -/
theorem twin_unchanged : Unchanged twinZone twinOld := by
  -- Both peers have the identity of both records.
  refine ⟨⟨rfl, rfl⟩, rfl, ?_⟩
  intro i peer listed
  have member := List.mem_of_getElem? listed
  rw [List.eq_of_mem_replicate member]
  rfl

/-- Of two records of one server, the first new one goes on from the second old one, with its whole
health. -/
theorem unchanged_reload_twins : ∃ table shared,
    initZone twinZone sampleEnv (some [{ tag := 0, data := some (some twinOld) }]) =
      some (table, shared) ∧
    ∃ position, Mirrors twinOld 0 position ∧
      (shared.peers 0).current.health = (sampleEnv.memory 0 position).current.health ∧
      (shared.peers 0).current.started = (sampleEnv.memory 0 position).current.started := by
  -- The zone is initialized by computation, and the theorem names the record it mirrors.
  have initialized : (initZone twinZone sampleEnv
      (some [{ tag := 0, data := some (some twinOld) }])).isSome := by
    decide +kernel
  obtain ⟨⟨table, shared⟩, done⟩ := Option.isSome_iff_exists.mp initialized
  have readable : ∀ i < twinOld.number, sampleEnv.locked i = true := fun _ _ => rfl
  have listed : twinZone.peers[0]? = some (samplePeer [97] [7]) := rfl
  obtain ⟨position, mirrors, _, inherited, started⟩ :=
    unchanged_reload twin_unchanged readable rfl done listed
  exact ⟨table, shared, done, position, mirrors, inherited.whole rfl, started⟩

/-- The first new record of the two does not go on from the first old one. -/
theorem unchanged_reload_swaps : ∃ table shared,
    initZone twinZone sampleEnv (some [{ tag := 0, data := some (some twinOld) }]) =
      some (table, shared) ∧
    Unchanged twinZone twinOld ∧ (∀ i, sampleEnv.locked i = true) ∧
    (shared.peers 0).current.health.fallCount ≠ (sampleEnv.memory 0 0).current.health.fallCount ∧
    (shared.peers 0).current.started ≠ (sampleEnv.memory 0 0).current.started := by
  -- The zone is initialized by computation, and its first peer has the health of the second.
  have initialized : (initZone twinZone sampleEnv
      (some [{ tag := 0, data := some (some twinOld) }])).map
        (fun pair => ((pair.2.peers 0).current.health.fallCount,
          (pair.2.peers 0).current.started)) = some (3, 6) := by
    decide +kernel
  obtain ⟨⟨table, shared⟩, done, same⟩ := Option.map_eq_some_iff.mp initialized
  obtain ⟨falls, started⟩ := Prod.mk.inj same
  refine ⟨table, shared, done, twin_unchanged, fun _ => rfl, ?_, ?_⟩
  · rw [show (shared.peers 0).current.health.fallCount = 3 from falls]
    decide +kernel
  · rw [show (shared.peers 0).current.started = 6 from started]
    decide +kernel

end Healthcheck
