import Healthcheck.State.Publication
import Healthcheck.Runtime.Process

/-!
The collection of a status request: the records of one or two groups of peers are read in batches,
and a batch that runs out of budget or finds a record locked is continued later where it stopped.
-/

namespace Healthcheck

/-- A configured peer as the status pages see it. -/
structure SourcePeer where
  index : Nat
  upstreamName : List UInt8
  /-- `peer_addr->name`. -/
  addrName : List UInt8
  conf : CheckConf
  /-- Whether `shm` is bound. -/
  shm : Bool
  deriving DecidableEq, Repr

/-- A group of peers; a peer's `index` is its position. -/
structure Source where
  generation : Nat
  peers : List SourcePeer
  indexed : ∀ (i : Nat) (peer : SourcePeer), peers[i]? = some peer → peer.index = i

/-- `ngx_healthcheck_snapshot_peer_t`. -/
structure SnapshotPeer where
  index : Nat
  upstreamName : List UInt8
  addrName : List UInt8
  conf : CheckConf
  health : Health
  deriving DecidableEq, Repr

/-- `ngx_healthcheck_snapshot_t`. -/
structure Snapshot where
  peers : List SnapshotPeer := []
  generation : Nat := 0
  total : Nat := 0
  up : Nat := 0
  next : Nat := 0
  deriving DecidableEq, Repr

/-- `NGX_HEALTHCHECK_STATUS_BATCH`. -/
def statusBatch : Nat := 256

/-- The filter of the status pages: flag 1 keeps the peers that are down, else flag 2 keeps those
that are up. -/
def hidden (flag : Nat) (health : Health) : Bool :=
  if flag &&& 1 ≠ 0 then health.down == 0 else flag &&& 2 ≠ 0 && health.down ≠ 0

/-- The peers of a group that may be missing. -/
def sourcePeers (source : Option Source) : List SourcePeer :=
  (source.map Source.peers).getD []

/-- `ngx_healthcheck_snapshot_init`. -/
def snapshotInit (source : Option Source) : Snapshot :=
  match source with
  | none => {}
  | some source => { generation := source.generation, total := source.peers.length }

/-- What the environment answers to one `ngx_healthcheck_try_read_peer`: whether the lock was
taken, the record's memory as any run of its publishers has left it at that moment, and whether a
row can be pushed. -/
structure Reading where
  locked : Bool
  machine : PeerMachine Nat
  run : PeerRun (.start {}) machine
  pushed : Bool

/-- The state a reading returns. -/
def Reading.state (reading : Reading) : PeerState :=
  reading.machine.memory.current

/-- A record that was read, and where. -/
structure Read where
  module : Nat
  index : Nat
  reading : Reading

/-- `NGX_OK`, `NGX_ERROR`, `NGX_AGAIN` and `NGX_BUSY`. -/
inductive Collected where
  | ok
  | error
  | again
  | busy
  deriving DecidableEq, Repr

/-- The state of one batch in one group. -/
structure Batch where
  snapshot : Snapshot
  remaining : Nat
  /-- How many answers of the environment were used up. -/
  pos : Nat
  /-- The records read, the latest last. -/
  reads : List Read

/-- The row of a peer. -/
def SourcePeer.row (peer : SourcePeer) (health : Health) : SnapshotPeer :=
  { index := peer.index, upstreamName := peer.upstreamName, addrName := peer.addrName,
    conf := peer.conf, health := health }

/-- A batch after a record was read. -/
def Batch.advance (batch : Batch) (module : Nat) (reading : Reading) : Batch :=
  { snapshot := { batch.snapshot with
      next := batch.snapshot.next + 1
      up := batch.snapshot.up + if reading.state.health.down = 0 then 1 else 0 }
    remaining := batch.remaining - 1
    pos := batch.pos + 1
    reads := batch.reads ++ [{ module := module, index := batch.snapshot.next, reading :=
      reading }] }

/-- A batch with one more row. -/
def Batch.push (batch : Batch) (row : SnapshotPeer) : Batch :=
  { batch with snapshot := { batch.snapshot with peers := batch.snapshot.peers ++ [row] } }

/-- The loop of `ngx_healthcheck_snapshot_step` over the peers that are left. -/
def stepLoop (script : Nat → Reading) (module flag : Nat) :
    List SourcePeer → Batch → Collected × Batch
  | [], batch => (.ok, batch)
  | peer :: rest, batch =>
    if batch.remaining = 0 then (.busy, batch)
    else if ¬ peer.shm then (.error, batch)
    else
      let reading := script batch.pos
      if ¬ reading.locked then (.again, { batch with pos := batch.pos + 1 })
      else
        let batch := batch.advance module reading
        if hidden flag reading.state.health then stepLoop script module flag rest batch
        else if ¬ reading.pushed then (.error, batch)
        else stepLoop script module flag rest (batch.push (peer.row reading.state.health))

/-- `ngx_healthcheck_snapshot_step`. -/
def snapshotStep (script : Nat → Reading) (module flag : Nat) (source : Option Source)
    (batch : Batch) : Collected × Batch :=
  stepLoop script module flag ((sourcePeers source).drop batch.snapshot.next) batch

/-- The part of `ngx_healthcheck_request_t` that collects. -/
structure Collector where
  count : Nat
  sources : Nat → Option Source
  flag : Nat
  snapshots : Nat → Snapshot
  module : Nat := 0
  pos : Nat := 0
  reads : List Read := []

/-- The collection of a new request. -/
def Collector.init (count : Nat) (sources : Nat → Option Source) (flag : Nat) : Collector :=
  { count := count, sources := sources, flag := flag,
    snapshots := fun module => snapshotInit (sources module) }

/-- The batch that works on the current group of a collection. -/
def Collector.batch (c : Collector) (remaining : Nat) : Batch :=
  { snapshot := c.snapshots c.module, remaining := remaining, pos := c.pos, reads := c.reads }

/-- A collection after a batch has worked on its current group. -/
def Collector.put (c : Collector) (batch : Batch) : Collector :=
  { c with snapshots := Function.update c.snapshots c.module batch.snapshot
           pos := batch.pos
           reads := batch.reads }

/-- The loop of `ngx_healthcheck_request_collect` over the groups that are left. -/
def collectLoop (script : Nat → Reading) : Nat → Nat → Collector → Collected × Collector
  | 0, _, c => (.ok, c)
  | left + 1, remaining, c =>
    let result := snapshotStep script c.module c.flag (c.sources c.module) (c.batch remaining)
    if result.1 ≠ .ok then (result.1, c.put result.2)
    else
      collectLoop script left result.2.remaining { c.put result.2 with module := c.module + 1 }

/-- `ngx_healthcheck_request_collect`: one batch over all groups. -/
def collect (script : Nat → Reading) (c : Collector) : Collected × Collector :=
  collectLoop script (c.count - c.module) statusBatch c

/-- `ngx_healthcheck_request_resume`: a request that waits collects another batch. -/
def resume (script : Nat → Reading) (state : Collected × Collector) : Collected × Collector :=
  if state.1 = .again ∨ state.1 = .busy then collect script state.2 else state

/-- A status request after its first batches; it starts like one that has been suspended. -/
def afterBatches (script : Nat → Reading) (c : Collector) : Nat → Collected × Collector
  | 0 => (.busy, c)
  | n + 1 => resume script (afterBatches script c n)

end Healthcheck
