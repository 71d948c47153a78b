import Healthcheck.State.Publication
import Healthcheck.Reload.Identity

/-!
The registration of the servers of an upstream while the configuration is loaded: each server that
has to be checked gets a peer of its own, and the balancer's entry for it the peer's index.
-/

namespace Healthcheck

/-- An address family, as far as a check port is concerned. -/
inductive Family where
  | inet
  | inet6
  | other
  deriving DecidableEq, Repr

/-- An address of a server, `ngx_addr_t`. -/
structure Addr where
  family : Family
  sockaddr : List UInt8
  name : List UInt8
  deriving DecidableEq, Repr

/-- `ngx_upstream_check_peer_t` as far as registration fills it in. -/
structure CheckPeer where
  index : Nat
  upstreamName : List UInt8
  conf : CheckConf
  peerAddr : Addr
  checkPeerAddr : Addr
  deriving DecidableEq, Repr

/-- The calls of a registration that fail without memory. -/
inductive RegisterSite where
  | check
  | sockaddr
  | name
  | push
  deriving DecidableEq, Repr

/-- What registration relies on; the functions of the core are taken as they are. -/
structure Registrar where
  word : Word
  /-- `NGX_HAVE_INET6`. -/
  haveInet6 : Bool
  /-- `ngx_inet_set_port`. -/
  setPort : List UInt8 → Nat → List UInt8
  /-- `ngx_sock_ntop` with the port. -/
  sockNtop : List UInt8 → List UInt8
  /-- Whether a call of the registration of peer `index` succeeds. -/
  works : Nat → RegisterSite → Bool

/-- The families that have a port. -/
def Registrar.hasPort (r : Registrar) (family : Family) : Bool :=
  match family with
  | .inet => true
  | .inet6 => r.haveInet6
  | .other => false

/-- The address that a peer is checked at; `none` stands for a failure of
`ngx_healthcheck_add_peer`. -/
def checkAddress (r : Registrar) (index : Nat) (conf : CheckConf) (address : Addr) : Option Addr :=
  if conf.port ≠ 0 then do
    -- `check port=%ui cannot be used with server "%V"`.
    guard (r.hasPort address.family)
    guard (r.works index .check)
    guard (r.works index .sockaddr)
    let sockaddr := r.setPort address.sockaddr conf.port
    guard (r.works index .name)
    return { family := address.family, sockaddr := sockaddr, name := r.sockNtop sockaddr }
  else some address

/-- `ngx_healthcheck_add_peer`, with the peers registered so far. A module without a configuration
and one that is all zeros are not enabled. -/
def addPeer (r : Registrar) (peers : List CheckPeer) (conf : Option CheckConf)
    (upstream : List UInt8) (address : Addr) : Nat × List CheckPeer :=
  match conf with
  | none => (ngxError r.word, peers)
  | some conf =>
    if conf.checkInterval = 0 then (ngxError r.word, peers)
    else
      match checkAddress r peers.length conf address with
      | none => (ngxError r.word, peers)
      | some check =>
        -- An array that fits into memory has fewer elements than there are words.
        if r.works peers.length .push ∧ peers.length < r.word.max then
          (peers.length, peers ++ [{ index := peers.length, upstreamName := upstream, conf := conf
                                     peerAddr := address, checkPeerAddr := check }])
        else (ngxError r.word, peers)

/-- What the core makes an entry of a balancer for. -/
inductive Visit where
  /-- An address of a server that the upstream lists. -/
  | server (down : Bool) (address : Addr)
  /-- An address of an implicit upstream, or one that is resolved at run time. -/
  | resolved (address : Addr)
  deriving DecidableEq, Repr

/-- The address of an entry. -/
def Visit.address : Visit → Addr
  | .server _ address => address
  | .resolved address => address

/-- An upstream: its host and the module's configuration for it, if `srv_conf` has one. -/
structure Upstream where
  host : List UInt8
  conf : Option CheckConf
  deriving DecidableEq, Repr

/-- `ngx_http_upstream_check_enabled` and `ngx_stream_upstream_check_enabled`. -/
def Upstream.checkEnabled (us : Upstream) : Bool :=
  us.conf.any fun conf => conf.checkInterval ≠ 0

/-- `ngx_http_upstream_check_add_peer` and `ngx_stream_upstream_check_add_peer`. -/
def upstreamCheckAddPeer (r : Registrar) (peers : List CheckPeer) (us : Upstream) (address : Addr) :
    Nat × List CheckPeer :=
  if ¬ us.checkEnabled then (ngxError r.word, peers)
  else addPeer r peers us.conf us.host address

/-- An entry of a balancer, `ngx_http_upstream_rr_peer_t`, as far as the checks are concerned. -/
structure RrPeer where
  visit : Visit
  checkIndex : Nat
  deriving DecidableEq, Repr

/-- What the balancers' code does about the checks when it makes an entry; `none` is `NGX_ERROR`,
which ends the loading of the configuration. Entries that no listed server stands behind get no
index. -/
def initRrPeer (r : Registrar) (us : Upstream) (visit : Visit) (peers : List CheckPeer) :
    Option (RrPeer × List CheckPeer) :=
  match visit with
  | .resolved _ => some ({ visit := visit, checkIndex := ngxError r.word }, peers)
  | .server down address =>
    if ¬ down ∧ us.checkEnabled then
      let (index, peers) := upstreamCheckAddPeer r peers us address
      if index = ngxError r.word then none
      else some ({ visit := visit, checkIndex := index }, peers)
    else some ({ visit := visit, checkIndex := ngxError r.word }, peers)

/-- The loading of a configuration. Which upstreams, servers and addresses the core visits, and in
which order, is up to the core. -/
def initRrPeers (r : Registrar) :
    List (Upstream × Visit) → List CheckPeer → Option (List (Upstream × RrPeer) × List CheckPeer)
  | [], peers => some ([], peers)
  | (us, visit) :: rest, peers => do
    let (entry, peers) ← initRrPeer r us visit peers
    let (entries, peers) ← initRrPeers r rest peers
    return ((us, entry) :: entries, peers)

/-- What a zone is initialized from. -/
def CheckPeer.configured (peer : CheckPeer) : ConfPeer :=
  { upstreamName := peer.upstreamName, peerAddr := peer.peerAddr.sockaddr
    checkPeerAddr := peer.checkPeerAddr.sockaddr, conf := peer.conf }

/-- A balancer's entry has to be checked: its server is listed, and not marked as down, in an
upstream with checks. -/
def Monitored (entry : Upstream × RrPeer) : Bool :=
  match entry.2.visit with
  | .server down _ => !down && entry.1.checkEnabled
  | .resolved _ => false

/-- An entry has a peer of its own, registered for its upstream and its address. -/
def Backed (r : Registrar) (peers : List CheckPeer) (entry : Upstream × RrPeer) : Prop :=
  ∃ conf check, entry.1.conf = some conf ∧
    checkAddress r entry.2.checkIndex conf entry.2.visit.address = some check ∧
    peers[entry.2.checkIndex]? = some
      { index := entry.2.checkIndex, upstreamName := entry.1.host, conf := conf
        peerAddr := entry.2.visit.address, checkPeerAddr := check }

/-- What a part of the loading does: entries are made and peers registered for those that have to be
checked, one after the other. -/
structure Enters (r : Registrar) (peers : List CheckPeer) (entries : List (Upstream × RrPeer))
    (peers' : List CheckPeer) : Prop where
  grows : peers <+: peers'
  bounded : peers.length ≤ r.word.max → peers'.length ≤ r.word.max
  indices : (entries.filter Monitored).map (·.2.checkIndex) =
    List.range' peers.length (peers'.length - peers.length)
  backed : ∀ entry ∈ entries, Monitored entry = true → Backed r peers' entry
  unchecked : ∀ entry ∈ entries, Monitored entry = false → entry.2.checkIndex = ngxError r.word

variable {r : Registrar} {us : Upstream} {peers peers' peers'' : List CheckPeer}

/-- Peers that are registered stay where they are. -/
theorem Backed.grow {entry : Upstream × RrPeer} (backed : Backed r peers entry)
    (grows : peers <+: peers') : Backed r peers' entry := by
  -- What is registered stays at its index when more is registered.
  obtain ⟨conf, check, configured, address, registered⟩ := backed
  obtain ⟨inside, _⟩ := List.getElem?_eq_some_iff.mp registered
  obtain ⟨new, rfl⟩ := grows
  exact ⟨conf, check, configured, address, by rw [List.getElem?_append_left inside, registered]⟩

/-- Nothing enters, and nothing changes. -/
theorem enters_nothing (r : Registrar) (peers : List CheckPeer) : Enters r peers [] peers := by
  -- There is no entry to look at.
  refine ⟨List.prefix_rfl, id, ?_, fun entry member => ?_, fun entry member => ?_⟩
  · simp
  · cases member
  · cases member

/-- Two parts of the loading make a longer one. -/
theorem Enters.append {first second : List (Upstream × RrPeer)}
    (before : Enters r peers first peers')
    (after : Enters r peers' second peers'') : Enters r peers (first ++ second) peers'' := by
  refine ⟨before.grows.trans after.grows, fun room => after.bounded (before.bounded room), ?_,
    fun entry member checked => ?_, fun entry member alone => ?_⟩
  · -- The second range goes on where the first one ends.
    have low := before.grows.length_le
    have high := after.grows.length_le
    rw [List.filter_append, List.map_append, before.indices, after.indices]
    have start : peers'.length = peers.length + (peers'.length - peers.length) := by omega
    have total : peers''.length - peers.length =
        (peers'.length - peers.length) + (peers''.length - peers'.length) := by omega
    rw [total, ← List.range'_append_1, ← start]
  · rcases List.mem_append.mp member with early | late
    · exact (before.backed entry early checked).grow after.grows
    · exact after.backed entry late checked
  · rcases List.mem_append.mp member with early | late
    · exact before.unchecked entry early alone
    · exact after.unchecked entry late alone

/-- A peer that was registered is the last one, and its index is not the error. -/
theorem addPeer_some {conf : Option CheckConf} {upstream : List UInt8} {address : Addr}
    (registered : (addPeer r peers conf upstream address).1 ≠ ngxError r.word) :
    peers.length < r.word.max ∧ (addPeer r peers conf upstream address).1 = peers.length ∧
      ∃ conf' check, conf = some conf' ∧
        checkAddress r peers.length conf' address = some check ∧
        (addPeer r peers conf upstream address).2 =
          peers ++ [{ index := peers.length, upstreamName := upstream, conf := conf'
                      peerAddr := address, checkPeerAddr := check }] := by
  unfold addPeer at registered ⊢
  -- Only the last branch returns an index.
  cases conf with
  | none => exact absurd rfl registered
  | some conf =>
    by_cases off : conf.checkInterval = 0
    · simp [off] at registered
    · cases found : checkAddress r peers.length conf address with
      | none => simp [off, found] at registered
      | some check =>
        by_cases room : r.works peers.length .push = true ∧ peers.length < r.word.max
        · simp only [off, found, if_pos room, if_false]
          exact ⟨room.2, trivial, conf, check, rfl, found, rfl⟩
        · simp [off, found, room] at registered

/-- The address a peer is checked at is its own, or its own with the check port. -/
theorem checkAddress_sockaddr {index : Nat} {conf : CheckConf} {address check : Addr}
    (found : checkAddress r index conf address = some check) :
    check.sockaddr = (if conf.port = 0 then address.sockaddr
      else r.setPort address.sockaddr conf.port) ∧
      (conf.port ≠ 0 → r.hasPort address.family = true) := by
  unfold checkAddress at found
  by_cases own : conf.port = 0
  · rw [if_neg (not_not.mpr own)] at found
    cases found
    exact ⟨by rw [if_pos own], fun other => absurd own other⟩
  · -- Every step before the new address can fail.
    rw [if_pos own] at found
    simp only [Option.bind_eq_bind, Option.bind_eq_some_iff] at found
    obtain ⟨_, port, _, _, _, _, _, _, result⟩ := found
    cases result
    refine ⟨by rw [if_neg own], fun _ => ?_⟩
    simpa using port

/-- An entry that has to be checked is registered, or the loading ends; any other one stays without
a peer. -/
theorem initRrPeer_enters {visit : Visit} {entry : RrPeer}
    (made : initRrPeer r us visit peers = some (entry, peers')) :
    Enters r peers [(us, entry)] peers' ∧ entry.visit = visit := by
  -- What is not registered adds nothing to the array.
  have passed : Monitored (us, ⟨visit, ngxError r.word⟩) = false →
      Enters r peers [(us, ⟨visit, ngxError r.word⟩)] peers := by
    intro alone
    refine ⟨List.prefix_rfl, id, ?_, fun other member checked => ?_, fun other member _ => ?_⟩
    · rw [List.filter_cons_of_neg (by simp [alone])]
      simp
    · cases List.mem_singleton.mp member
      rw [alone] at checked
      cases checked
    · cases List.mem_singleton.mp member
      rfl
  unfold initRrPeer at made
  cases visit with
  | resolved address =>
    cases made
    exact ⟨passed rfl, rfl⟩
  | server down address =>
    dsimp only at made
    split at made
    · rename_i active
      simp only [upstreamCheckAddPeer, active.2, not_true, if_false] at made
      split at made
      · cases made
      · rename_i registered
        obtain ⟨room, index, conf, check, configured, found, array⟩ := addPeer_some registered
        cases made
        rw [array, index]
        refine ⟨⟨List.prefix_append .., fun _ => ?_, ?_, fun other member _ => ?_,
          fun other member alone => ?_⟩, rfl⟩
        · rw [List.length_append, List.length_singleton]
          omega
        · simp [Monitored, active]
        · cases List.mem_singleton.mp member
          exact ⟨conf, check, configured, found, by simp [Visit.address]⟩
        · cases List.mem_singleton.mp member
          simp [Monitored, active] at alone
    · rename_i inactive
      cases made
      exact ⟨passed (by simpa [Monitored] using inactive), rfl⟩

/-- The loading makes an entry for each visit, in order. -/
theorem initRrPeers_enters {visits : List (Upstream × Visit)}
    {entries : List (Upstream × RrPeer)}
    (made : initRrPeers r visits peers = some (entries, peers')) :
    Enters r peers entries peers' ∧
      entries.map (fun entry => (entry.1, entry.2.visit)) = visits := by
  -- Induction on the visits: the peers of the first one are there before the others'.
  induction visits generalizing peers entries with
  | nil =>
    cases made
    exact ⟨enters_nothing r _, rfl⟩
  | cons visit rest ih =>
    simp only [initRrPeers, Option.bind_eq_bind, Option.bind_eq_some_iff] at made
    obtain ⟨⟨entry, between⟩, first, ⟨others, last⟩, later, result⟩ := made
    cases result
    obtain ⟨entered, visited⟩ := initRrPeer_enters first
    obtain ⟨enteredRest, restMade⟩ := ih later
    refine ⟨entered.append enteredRest, ?_⟩
    rw [List.map_cons, restMade, visited]

end Healthcheck
