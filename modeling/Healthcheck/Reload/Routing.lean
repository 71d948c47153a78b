import Healthcheck.Config.Registration
import Healthcheck.Reload.Cycle
import Healthcheck.System.Invariant

/-!
From the configuration to the balancers: whichever server an entry of a balancer stands for, the
query made for the entry answers with the present health of that very server.
-/

namespace Healthcheck

/-- The routing bit of every record says what the record says. -/
def Routed (s : Sys) : Prop :=
  ∀ i, (s.shared.peers i).downBit = decide ((s.record i).health.down ≠ 0)

/-- Memory that is not written keeps its routing bit. -/
theorem Routed.kept {s s' : Sys} (routed : Routed s) (same : s'.shared.peers = s.shared.peers) :
    Routed s' := by
  -- No record has changed.
  intro i
  have here := routed i
  unfold Sys.record at here ⊢
  rw [same]
  exact here

/-- A publication sets the routing bit of the record it publishes. -/
theorem Routed.published {s s' : Sys} (routed : Routed s) {i : Nat} {state : PeerState}
    (shared : s'.shared = s.shared.publishPeer i state) : Routed s' := by
  -- The record that was published is routed by its new state, the others as before.
  intro j
  have here := routed j
  unfold Sys.record at here ⊢
  by_cases same : j = i
  · have memory : s'.shared.peers j = publish (s.shared.peers j) state := by
      rw [shared, same]
      simp [Shared.publishPeer]
    rw [memory, current_publish, downBit_publish]
  · have memory : s'.shared.peers j = s.shared.peers j := by
      rw [shared]
      simp [Shared.publishPeer, same]
    rw [memory]
    exact here

/-- The activation of a generation leaves its records. -/
theorem peers_activate (reading : Nat) (shared : Shared) :
    (shared.activate reading).peers = shared.peers := by
  -- It changes the time and the flag.
  unfold Shared.activate
  split <;> rfl

/-- Every step keeps the routing bits in line: records are only written whole. -/
theorem routed_step {gen : Generation} {s s' : Sys} (routed : Routed s) (step : Step gen s s') :
    Routed s' := by
  -- A step publishes a record or leaves all of them.
  cases step_turn step with
  | spawned p worker pid unused slot positive after =>
    subst after
    exact routed.kept rfl
  | crashed p running after =>
    subst after
    exact routed.kept rfl
  | moved p running frame move =>
    cases move with
    | quiet shared _ _ => exact routed.kept (by rw [shared])
    | activated _ shared _ _ => exact routed.kept (by rw [shared, peers_activate])
    | opened _ _ _ shared _ _ => exact routed.kept (by rw [shared]; rfl)
    | renewed _ _ _ shared _ _ => exact routed.kept (by rw [shared]; rfl)
    | retired _ _ _ shared _ _ => exact routed.kept (by rw [shared]; rfl)
    | claimed _ _ _ _ _ _ _ _ shared _ _ => exact routed.published shared
    | prepared _ _ _ shared _ _ _ => exact routed.kept (by rw [shared])
    | progressed _ _ _ _ _ shared _ _ => exact routed.published shared
    | froze _ _ _ _ _ shared _ _ => exact routed.kept (by rw [shared])
    | committed _ _ _ _ _ _ _ shared _ _ => exact routed.published shared

/-- A generation starts with records that were published. -/
theorem routed_first {word : Word} {module : Module} {tag : Nat} {era : Era}
    {oldCycle : Option (List ShmZone)} (loaded : era.Loaded word module tag oldCycle) :
    Routed era.first := by
  intro i
  -- In the table and beyond it, the record is the one of a publication.
  obtain ⟨state, memory, _⟩ := initZone_published loaded.initialized i
  show (era.shared.peers i).downBit = decide ((era.shared.peers i).current.health.down ≠ 0)
  rw [memory, current_publish, downBit_publish]

/-- Every reachable state of a generation is routed. -/
theorem routed_reaches {word : Word} {module : Module} {tag : Nat} {era : Era}
    {oldCycle : Option (List ShmZone)} (loaded : era.Loaded word module tag oldCycle) {s : Sys}
    (reached : era.Reaches s) : Routed s :=
  steps_keep Routed routed_step (routed_first loaded) reached

/-- What the balancers of a process ask, once it has bound the peers of its cycle. -/
structure Bound {word : Word} (ctx : Peers word) (count : Nat) (s : Sys) : Prop where
  nelts : ctx.nelts = count
  memory : ∀ i < count, ctx.shm i = some (s.shared.peers i)

/-- Whoever loads a configuration and runs it, the balancers route by the present health of their
own servers. Each entry that has to be checked has one peer, in order and without a gap, whose
record has the identity of the entry's upstream, its address and its check address, and the query
for the entry answers whether that record is down; the query for any other entry always answers that
it is not. -/
theorem routing_follows {word : Word} {module : Module} {tag : Nat} {r : Registrar}
    {visits : List (Upstream × Visit)} {entries : List (Upstream × RrPeer)}
    {peers : List CheckPeer} (platform : r.word = word)
    (made : initRrPeers r visits [] = some (entries, peers))
    {era : Era} {oldCycle : Option (List ShmZone)} (loaded : era.Loaded word module tag oldCycle)
    (configured : era.conf.peers = peers.map CheckPeer.configured) {s : Sys}
    (reached : era.Reaches s) :
    entries.map (fun entry => (entry.1, entry.2.visit)) = visits ∧
    (entries.filter Monitored).map (·.2.checkIndex) = List.range peers.length ∧
    ∀ entry ∈ entries,
      (Monitored entry = true → ∃ conf, entry.1.conf = some conf ∧
        (conf.port ≠ 0 → r.hasPort entry.2.visit.address.family = true) ∧
        era.table.peers entry.2.checkIndex =
          { upstreamName := entry.1.host
            sockaddr := entry.2.visit.address.sockaddr
            checkSockaddr := if conf.port = 0 then entry.2.visit.address.sockaddr
              else r.setPort entry.2.visit.address.sockaddr conf.port
            checkType := conf.checkType.code } ∧
        ∀ ctx : Peers word, Bound ctx peers.length s →
          (peerDown (some ctx) entry.2.checkIndex = 1 ↔
            (s.record entry.2.checkIndex).health.down ≠ 0)) ∧
      (Monitored entry = false →
        ∀ ctx : Option (Peers word), peerDown ctx entry.2.checkIndex = 0) := by
  obtain ⟨entered, visited⟩ := initRrPeers_enters made
  have indices := entered.indices
  rw [List.length_nil, Nat.sub_zero, ← List.range_eq_range'] at indices
  refine ⟨visited, indices, fun entry member => ⟨fun checked => ?_, fun alone ctx => ?_⟩⟩
  · obtain ⟨conf, check, config, address, registered⟩ := entered.backed entry member checked
    obtain ⟨sockaddr, port⟩ := checkAddress_sockaddr address
    have inside := (List.getElem?_eq_some_iff.mp registered).1
    refine ⟨conf, config, port, ?_, fun ctx bound => ?_⟩
    · -- The table holds the identity of the peer that was registered.
      have peer := congrArg (Option.map CheckPeer.configured) registered
      rw [← List.getElem?_map, ← configured] at peer
      rw [loaded.identity peer, ← sockaddr]
      rfl
    · have registeredHere : entry.2.checkIndex < ctx.nelts := by
        rw [bound.nelts]
        exact inside
      rw [peerDown_registered registeredHere (bound.memory _ inside), routed_reaches loaded reached]
      simp
  · exact peerDown_unregistered ctx (.inl (by rw [entered.unchecked entry member alone, platform]))

/-- Servers that are checked at a port of their own. -/
def portConf : CheckConf :=
  { sampleConf with port := 8080 }

/-- An address of IPv4: the family, the port and the host. -/
def localAddr (host : UInt8) : Addr :=
  { family := .inet, sockaddr := [2, 0, 0, 80, 127, 0, 0, host], name := [host] }

/-- A registration with enough memory. -/
def plainRegistrar : Registrar :=
  { word := .bits64, haveInet6 := true
    setPort := fun sockaddr port =>
      sockaddr.take 2 ++ [UInt8.ofNat (port / 256), UInt8.ofNat port] ++ sockaddr.drop 4
    sockNtop := id, works := fun _ _ => true }

/-- An upstream with a server that is checked, one that is marked as down, and one that was
resolved. -/
def portVisits : List (Upstream × Visit) :=
  [({ host := [97], conf := some portConf }, .server false (localAddr 1)),
    ({ host := [97], conf := some portConf }, .server true (localAddr 2)),
    ({ host := [98], conf := none }, .resolved (localAddr 3))]

/-- The one peer that is registered for them. -/
def portPeer : CheckPeer :=
  { index := 0, upstreamName := [97], conf := portConf, peerAddr := localAddr 1
    checkPeerAddr := { localAddr 1 with
      sockaddr := [2, 0, 31, 144, 127, 0, 0, 1], name := [2, 0, 31, 144, 127, 0, 0, 1] } }

/-- The generation that checks it. -/
def portEra (table : PeersShm) (shared : Shared) : Era :=
  { soloEra 1 sampleEnv table shared with
    conf := { soloZone 1 with peers := [portPeer.configured] }
    gen := { sample with conf := fun _ => portConf
                         coherent := fun _ => by constructor <;> decide } }

/-- Its first round, a success. -/
def firstSuccess : List Command :=
  workerRun 0 0 100 10 [(10, .claimRound 0 none 0), (20, .restartDeadline 0),
    (20, .probeWaiting 0), (40, .freeze 0 true "tcp peek success" "recv" none), (40, .settle 0 0)]

/-- What a process binds to that generation. -/
def portCtx (s : Sys) : Peers .bits64 :=
  { nelts := 1, nelts_le := by decide, shm := fun i => some (s.shared.peers i) }

/-- The peer is checked at its own port. The query skips its server until the first success, and
never the other ones. -/
theorem routing_follows_success : ∃ (era : Era) (s : Sys), era.Reaches s ∧
    (era.table.peers 0).checkSockaddr = [2, 0, 31, 144, 127, 0, 0, 1] ∧
    peerDown (some (portCtx era.first)) 0 = 1 ∧ (s.record 0).health.down = 0 ∧
    peerDown (some (portCtx s)) 0 ≠ 1 ∧ peerDown (some (portCtx s)) (ngxError .bits64) = 0 := by
  have made : initRrPeers plainRegistrar portVisits [] = some
      (portVisits.mapIdx fun i visit =>
        (visit.1, { visit := visit.2, checkIndex := if i = 0 then 0 else ngxError .bits64 }),
      [portPeer]) := by
    decide +kernel
  have noted : ((initZone { soloZone 1 with peers := [portPeer.configured] } sampleEnv none).bind
      fun zone => (runAll { sample with
        conf := fun _ => portConf, coherent := fun _ => by constructor <;> decide } firstSuccess
          { shared := zone.2 }).map fun s => ((zone.2.peers 0).current.health.down,
            (s.record 0).health.down)) = some (1, 0) := by
    decide +kernel
  obtain ⟨⟨table, shared⟩, done, ran⟩ := Option.bind_eq_some_iff.mp noted
  obtain ⟨s, run, health⟩ := Option.map_eq_some_iff.mp ran
  obtain ⟨first, up⟩ := Prod.mk.inj health
  have loaded : (portEra table shared).Loaded .bits64 .http 0 none := by
    refine ⟨⟨0, true, true, rfl⟩, done, rfl, rfl, rfl, rfl, rfl, rfl, rfl, ?_⟩
    intro i peer listed
    cases i with
    | zero =>
      cases listed
      rfl
    | succ i => cases listed
  have reached : (portEra table shared).Reaches s := runAll_steps run
  -- What holds of every state holds of the first one and of the one after the success.
  obtain ⟨_, _, before⟩ := routing_follows rfl made loaded rfl .refl
  obtain ⟨_, _, after⟩ := routing_follows rfl made loaded rfl reached
  obtain ⟨_, same, _, identity, asked⟩ := (before _ List.mem_cons_self).1 rfl
  obtain ⟨_, _, _, _, answers⟩ := (after _ List.mem_cons_self).1 rfl
  have silent := (after _ (List.mem_cons_of_mem _ List.mem_cons_self)).2 rfl
  cases same
  refine ⟨_, s, reached, ?_, (asked (portCtx _) ⟨rfl, fun _ _ => rfl⟩).mpr ?_, up, fun down => ?_,
    silent _⟩
  · exact (congrArg Identity.checkSockaddr identity).trans (by decide +kernel)
  · exact ne_of_eq_of_ne first (by decide)
  · exact (answers (portCtx s) ⟨rfl, fun _ _ => rfl⟩).mp down up

end Healthcheck
