import Healthcheck.Library.BucketIndex
import Healthcheck.Runtime.Process

/-! Peer identities, their two hash functions, and the index of the records a reload inherits from. -/

namespace Healthcheck

open BucketIndex

/-- How the platform orders the bytes of a word. -/
inductive ByteOrder where
  | little
  | big
  deriving DecidableEq, Repr

/-- The size of a word or a pointer, in bytes. -/
def Word.bytes : Word → Nat
  | .bits32 => 4
  | .bits64 => 8

/-- A word as it lies in memory. -/
def wordBytes (word : Word) (order : ByteOrder) (value : Nat) : List UInt8 :=
  -- The lowest byte comes first on a little-endian machine and last on a big-endian one.
  let low := (List.range word.bytes).map fun k => UInt8.ofNat (value / 256 ^ k)
  match order with
  | .little => low
  | .big => low.reverse

/-- `NGX_CHECK_TYPE_TCP` and `NGX_CHECK_TYPE_UDP`. -/
def CheckType.code : CheckType → Nat
  | .tcp => 1
  | .udp => 4

/-- The part of `ngx_upstream_check_peer_shm_t` that never changes. -/
structure Identity where
  upstreamName : List UInt8 := []
  sockaddr : List UInt8 := []
  checkSockaddr : List UInt8 := []
  checkType : Nat := 0
  deriving DecidableEq, Repr

/-- What the configuration fixes about a peer, `ngx_upstream_check_peer_s`. -/
structure ConfPeer where
  upstreamName : List UInt8
  peerAddr : List UInt8
  checkPeerAddr : List UInt8
  conf : CheckConf
  deriving DecidableEq, Repr

/-- `ngx_upstream_check_peers_shm_t` without its mutable records and its worker table. -/
structure PeersShm where
  magic : Nat
  version : Nat
  generation : Nat
  number : Nat
  workerCount : Nat
  peers : Nat → Identity

/-- `NGX_HEALTHCHECK_SHM_MAGIC`. -/
def shmMagic : Nat := 0x48434b31

/-- `NGX_HEALTHCHECK_SHM_VERSION`. -/
def shmVersion : Nat := 3

/-- A table with the layout of this version of the module. -/
def PeersShm.Valid (table : PeersShm) : Prop :=
  table.magic = shmMagic ∧ table.version = shmVersion

/-- A shared memory zone of a cycle: its tag, and its data with the table that the data publishes.
Both can be `NULL`. -/
structure ShmZone where
  tag : Nat
  data : Option (Option PeersShm)

/-- `ngx_healthcheck_find_latest_peers_shm`; a cycle is the list of its zones, or `NULL`. -/
def findLatestPeersShm (cycle : Option (List ShmZone)) (tag : Nat) : Option PeersShm :=
  match cycle with
  | none => none
  | some zones => zones.foldl visit none
where
  /-- One pass of the loop over the zones. -/
  visit (latest : Option PeersShm) (zone : ShmZone) : Option PeersShm :=
    if zone.tag ≠ tag then latest
    else
      match zone.data with
      | none => latest
      | some none => latest
      | some (some candidate) =>
        if candidate.magic ≠ shmMagic ∨ candidate.version ≠ shmVersion then latest
        else
          match latest with
          | none => some candidate
          | some table =>
            if candidate.generation > table.generation then some candidate else some table

/-- `ngx_healthcheck_hash_bytes`. -/
def hashBytes (word : Word) (hash : Nat) (data : List UInt8) : Nat :=
  -- The multiplication keeps the low bits of the word.
  data.foldl (fun hash byte => (hash ^^^ byte.toNat) * 16777619 % word.size) hash

/-- `ngx_healthcheck_shm_identity_hash`. -/
def shmIdentityHash (word : Word) (order : ByteOrder) (peer : Identity) : Nat :=
  let hash := 2166136261
  let hash := hashBytes word hash peer.upstreamName
  let hash := hashBytes word hash peer.sockaddr
  let hash := hashBytes word hash peer.checkSockaddr
  hashBytes word hash (wordBytes word order peer.checkType)

/-- `ngx_healthcheck_peer_identity_hash`. -/
def peerIdentityHash (word : Word) (order : ByteOrder) (peer : ConfPeer) : Nat :=
  let type := peer.conf.checkType.code
  let hash := 2166136261
  let hash := hashBytes word hash peer.upstreamName
  let hash := hashBytes word hash peer.peerAddr
  let hash := hashBytes word hash peer.checkPeerAddr
  hashBytes word hash (wordBytes word order type)

/-- `ngx_memcmp` returns zero. -/
def memEqual (a b : List UInt8) (length : Nat) : Bool :=
  a.take length == b.take length

/-- `ngx_healthcheck_identity_equal`. -/
def identityEqual (old : Identity) (peer : ConfPeer) : Bool :=
  if old.checkType ≠ peer.conf.checkType.code
      ∨ old.upstreamName.length ≠ peer.upstreamName.length
      ∨ old.sockaddr.length ≠ peer.peerAddr.length
      ∨ old.checkSockaddr.length ≠ peer.checkPeerAddr.length then false
  else
    memEqual old.upstreamName peer.upstreamName old.upstreamName.length
      && memEqual old.sockaddr peer.peerAddr old.sockaddr.length
      && memEqual old.checkSockaddr peer.checkPeerAddr old.checkSockaddr.length

/-- The calls of a zone's initialization that fail when memory or a lock file is not to be had. -/
inductive Site where
  | table
  | workers
  | activationLock
  | workerLock (worker : Nat)
  | temporary
  | index
  | buckets
  | node (position : Nat)
  | sockaddr (i : Nat)
  | checkSockaddr (i : Nat)
  | upstreamName (i : Nat)
  | peerLock (i : Nat)
  deriving DecidableEq, Repr

/-- The loop over the old records: the first ones are entered before the last. -/
def enterRecords (word : Word) (order : ByteOrder) (works : Site → Bool) (peers : Nat → Identity)
    (index : Index Nat) : Nat → Option (Index Nat)
  | 0 => some index
  | i + 1 => do
    let index ← enterRecords word order works peers index i
    guard (works (.node i))
    return index.insert (shmIdentityHash word order (peers i)) i

/-- `ngx_healthcheck_identity_index_create`; `none` is `NULL`, and so is a table that is `none`. An
entry is the position of an old record. -/
def identityIndexCreate (word : Word) (order : ByteOrder) (works : Site → Bool)
    (peersShm : Option PeersShm) : Option (Index Nat) := do
  guard (works .index)
  match peersShm with
  | none => do
    guard (works .buckets)
    return Index.empty 1
  | some table => do
    guard (table.number ≤ (word.max - 1) / 2)
    let bucketCount := if table.number ≠ 0 then table.number * 2 + 1 else 1
    guard (bucketCount ≤ word.max / word.bytes)
    guard (works .buckets)
    if table.magic ≠ shmMagic ∨ table.version ≠ shmVersion then return Index.empty bucketCount
    else enterRecords word order works table.peers (Index.empty bucketCount) table.number

/-- `ngx_healthcheck_identity_index_take`, given the identities of the old records. -/
def identityIndexTake (word : Word) (order : ByteOrder) (old : Nat → Identity) (index : Index Nat)
    (peer : ConfPeer) : Option Nat × Index Nat :=
  index.take (peerIdentityHash word order peer) fun position => identityEqual (old position) peer

/-- The calls of `identityIndexTake` for a list of new peers. -/
def identityIndexTakes (word : Word) (order : ByteOrder) (old : Nat → Identity) (index : Index Nat)
    (peers : List ConfPeer) : List (Option Nat) :=
  (index.takes (peerIdentityHash word order)
    (fun peer position => identityEqual (old position) peer) peers).1

/-- The identity a configured peer has once it is copied to shared memory. -/
def ConfPeer.identity (peer : ConfPeer) : Identity :=
  { upstreamName := peer.upstreamName, sockaddr := peer.peerAddr,
    checkSockaddr := peer.checkPeerAddr, checkType := peer.conf.checkType.code }

/-- The two hash functions agree on a configured peer and its copy. -/
theorem hash_agrees (word : Word) (order : ByteOrder) (peer : ConfPeer) :
    shmIdentityHash word order peer.identity = peerIdentityHash word order peer :=
  -- Both hash the same bytes in the same order.
  rfl

/-- Comparing all bytes of two strings of one length compares the strings. -/
theorem memEqual_iff {a b : List UInt8} (lengths : a.length = b.length) :
    memEqual a b a.length = true ↔ a = b := by
  -- All bytes are compared.
  unfold memEqual
  rw [List.take_length, lengths, List.take_length, beq_iff_eq]

/-- The comparison accepts a record exactly when it has the peer's identity. -/
theorem identityEqual_iff (old : Identity) (peer : ConfPeer) :
    identityEqual old peer = true ↔ old = peer.identity := by
  unfold identityEqual
  constructor
  · intro equal
    split at equal
    · cases equal
    · -- No length differs, so the three comparisons see whole strings.
      rename_i alike
      simp only [not_or, not_not] at alike
      obtain ⟨type, name, address, check⟩ := alike
      simp only [Bool.and_eq_true, memEqual_iff name, memEqual_iff address,
        memEqual_iff check] at equal
      obtain ⟨⟨sameName, sameAddress⟩, sameCheck⟩ := equal
      obtain ⟨_, _, _, _⟩ := old
      simp only [ConfPeer.identity, Identity.mk.injEq]
      exact ⟨sameName, sameAddress, sameCheck, type⟩
  · intro same
    rw [same]
    simp [ConfPeer.identity, memEqual_iff]

/-- Entering the records of a table makes exactly their positions findable. -/
theorem enterRecords_spec {word : Word} {order : ByteOrder} {works : Site → Bool}
    {peers : Nat → Identity} {bucketCount number : Nat} {index : Index Nat}
    (entered : enterRecords word order works peers (Index.empty bucketCount) number = some index) :
    index.Sound (fun position => shmIdentityHash word order (peers position)) ∧
      ∀ position, index.Has position ↔ position ∈ Finset.range number := by
  -- Induction on the number of records; the next one has not been entered before.
  induction number generalizing index with
  | zero =>
    cases entered
    refine ⟨sound_empty _ _, fun position => ?_⟩
    simp [Index.Has, Index.empty]
  | succ number ih =>
    simp only [enterRecords, Option.bind_eq_bind, Option.bind_eq_some_iff] at entered
    obtain ⟨earlier, before, _, _, last⟩ := entered
    cases last
    obtain ⟨sound, held⟩ := ih before
    have fresh : ¬ earlier.Has number := by
      rw [held]
      exact Finset.notMem_range_self
    refine ⟨sound_insert sound fresh, fun position => ?_⟩
    rw [has_insert, held, Finset.mem_range, Finset.mem_range]
    omega

/-- The index of a valid table holds the positions of its records. -/
theorem identityIndexCreate_spec {word : Word} {order : ByteOrder} {works : Site → Bool}
    {table : PeersShm} (valid : table.Valid) {index : Index Nat}
    (created : identityIndexCreate word order works (some table) = some index) :
    index.Sound (fun position => shmIdentityHash word order (table.peers position)) ∧
      ∀ position, index.Has position ↔ position ∈ Finset.range table.number := by
  -- Every record of the table is entered once, in its order.
  simp only [identityIndexCreate, Option.bind_eq_bind, Option.bind_eq_some_iff] at created
  obtain ⟨_, _, _, _, _, _, _, _, entered⟩ := created
  have accepted : ¬ (table.magic ≠ shmMagic ∨ table.version ≠ shmVersion) := by
    simp [valid.1, valid.2]
  rw [if_neg accepted] at entered
  exact enterRecords_spec entered

/-- An index over no table, or over one of another layout, has no entries. -/
theorem identityIndexCreate_empty {word : Word} {order : ByteOrder} {works : Site → Bool}
    {peersShm : Option PeersShm}
    (invalid : ∀ table, peersShm = some table →
      table.magic ≠ shmMagic ∨ table.version ≠ shmVersion)
    {index : Index Nat} (created : identityIndexCreate word order works peersShm = some index) :
    ∃ bucketCount, index = Index.empty bucketCount := by
  -- Without a valid table nothing is entered.
  cases peersShm with
  | none =>
    simp only [identityIndexCreate, Option.bind_eq_bind, Option.bind_eq_some_iff] at created
    obtain ⟨_, _, _, _, same⟩ := created
    cases same
    exact ⟨1, rfl⟩
  | some table =>
    simp only [identityIndexCreate, Option.bind_eq_bind, Option.bind_eq_some_iff] at created
    obtain ⟨_, _, _, _, _, _, _, _, same⟩ := created
    rw [if_pos (invalid table rfl)] at same
    cases same
    exact ⟨_, rfl⟩

/-- The calls for a list of new peers make a maximal matching of old records and new peers. -/
theorem identityIndexTakes_maximal {word : Word} {order : ByteOrder} {works : Site → Bool}
    {table : PeersShm} (valid : table.Valid) {index : Index Nat}
    (created : identityIndexCreate word order works (some table) = some index)
    (peers : List ConfPeer) :
    Matching.Maximal (Finset.range table.number) table.peers (peers.map ConfPeer.identity)
      (identityIndexTakes word order table.peers index peers) := by
  -- The index is sound for the table, so its takings are those of a matching.
  obtain ⟨sound, held⟩ := identityIndexCreate_spec valid created
  apply takes_maximal _ _ peers sound held
  · intro peer position
    exact identityEqual_iff (table.peers position) peer
  · intro peer position same
    show shmIdentityHash word order (table.peers position) = peerIdentityHash word order peer
    rw [same, hash_agrees]

end Healthcheck
