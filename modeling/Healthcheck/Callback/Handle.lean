import Healthcheck.Callback.Effect

/-! Changes of one probe: what they leave of the process, and the code that makes them. -/

namespace Healthcheck

open Program

section Handle

variable (p : Proc) (i : Nat) (probe probe' : Probe) (events events' : List IoEvent)

/-- Changing one peer twice is changing it once. -/
@[simp] theorem setPeer_setPeer (peer peer' : Peer) :
    (p.setPeer i peer).setPeer i peer' = p.setPeer i peer' := by
  -- Both go to the same place.
  simp [Proc.setPeer]

/-- A peer that was stored is read back. -/
@[simp] theorem setPeer_peers (peer : Peer) : (p.setPeer i peer).peers i = peer := by
  -- An update at its own place.
  simp [Proc.setPeer]

/-- The other peers are as they were. -/
theorem setPeer_peers_other {j : Nat} (peer : Peer) (other : j ≠ i) :
    (p.setPeer i peer).peers j = p.peers j := by
  -- An update at another place.
  simp [Proc.setPeer, other]

/-- Storing a peer keeps the runtime. -/
@[simp] theorem setPeer_runtime (peer : Peer) : (p.setPeer i peer).runtime = p.runtime := rfl

/-- Storing a peer keeps the record of the I/O. -/
@[simp] theorem setPeer_io (peer : Peer) : (p.setPeer i peer).io = p.io := rfl

/-- A handled peer has the new probe. -/
@[simp] theorem handle_peers :
    (p.handle i probe events).peers i = { p.peers i with probe := probe } :=
  setPeer_peers p i _

/-- The other peers are as they were. -/
theorem handle_peers_other {j : Nat} (other : j ≠ i) :
    (p.handle i probe events).peers j = p.peers j :=
  setPeer_peers_other p i _ other

/-- The events of a handled peer go in front of the earlier ones. -/
@[simp] theorem handle_io : (p.handle i probe events).io = events ++ p.io := rfl

/-- Handling a peer keeps the runtime. -/
@[simp] theorem handle_runtime : (p.handle i probe events).runtime = p.runtime := rfl

/-- The round of a handled peer is that of the new probe. -/
@[simp] theorem handle_round : (p.handle i probe events).round i = probe.round := by
  -- The round is a part of the probe.
  rw [Proc.round, handle_peers]

/-- A peer that is handled twice has the later probe and all of the events. -/
@[simp] theorem handle_handle :
    (p.handle i probe events).handle i probe' events' = p.handle i probe' (events' ++ events) := by
  -- Both go to the same place.
  simp [Proc.handle, Proc.setPeer]

/-- A change of a probe that changes nothing. -/
@[simp] theorem handle_self : p.handle i (p.peers i).probe [] = p := by
  -- The probe that is stored is the one that was there.
  simp [Proc.handle, Proc.setPeer]

end Handle

/-- Answers used up before a change of the process are used up after it. -/
theorem setSelf_passed (w : World) (pos : Nat) (locks : List LockEvent) (proc : Proc) :
    (w.passed [] pos locks).setSelf proc = (w.setSelf proc).passed [] pos locks := by
  -- The readings of the process are written either way.
  simp [World.passed, World.setSelf, World.self, Sys.setProc]

/-- A probe that has no connection closes none. -/
theorem closing_none {probe : Probe} (i : Nat) (alone : probe.connection = none) :
    probe.closing i = [] := by
  -- There is nothing to close.
  rw [Probe.closing, alone]
  rfl

/-- Closing a connection is one event. -/
theorem closing_some {probe : Probe} (i : Nat) {c : Connection}
    (current : probe.connection = some c) :
    probe.closing i = [.closed i c.id] := by
  -- The connection is the current one.
  rw [Probe.closing, current]
  rfl

/-- Without a connection the probe stays as it is. -/
theorem closed_none {probe : Probe} (alone : probe.connection = none) :
    { probe with connection := none } = probe := by
  -- The field is written with the value it has.
  rw [← alone]

section Code

variable (i : Nat) (post : Unit → World → Prop) (w : World)

/-- A change of the probe alone. -/
theorem wp_handle (f : Probe → Probe) :
    wp (modifyProbe i f) post w ↔
      post () (w.setSelf (w.self.handle i (f (w.self.peers i).probe) [])) :=
  wp_modifyProbe i f post w

/-- An event alone. -/
theorem wp_record (event : IoEvent) :
    wp (recordIo event) post w ↔
      post () (w.setSelf (w.self.handle i (w.self.peers i).probe [event])) := by
  -- The probe is written with the value it has.
  rw [wp_recordIo]
  have same : ({ w.self with io := event :: w.self.io } : Proc) =
      w.self.handle i (w.self.peers i).probe [event] := by
    simp [Proc.handle, Proc.setPeer]
  rw [same]

/-- Closing handles the peer without its connection. -/
@[simp] theorem wp_probeClose :
    wp (probeClose i) post w ↔ post () (w.setSelf (w.self.close i)) := by
  unfold probeClose
  rw [wp_bind, wp_self]
  cases current : (w.self.peers i).probe.connection with
  | none =>
    -- Without a connection the probe is left as it is.
    have same : w.self.close i = w.self := by
      rw [Proc.close, closing_none i current, closed_none current, handle_self]
    rw [same, setSelf_self]
    exact wp_pure _ _ _
  | some connection =>
    rw [Proc.close, closing_some i current]
    simp only [wp_bind, wp_modifyProbe, wp_recordIo, self_setSelf, setSelf_setSelf]
    exact Iff.rfl

/-- Discarding handles the peer without its timer and its connection. -/
@[simp] theorem wp_probeDiscard :
    wp (probeDiscard i) post w ↔ post () (w.setSelf (w.self.discard i)) := by
  -- The two writes of the probe are one.
  unfold probeDiscard
  simp only [wp_bind, wp_handle, wp_probeClose, self_setSelf, setSelf_setSelf]
  rw [Proc.close, handle_handle, handle_peers, List.append_nil]
  exact Iff.rfl

/-- A probe that is discarded before its round ends releases the round. -/
theorem wp_discardFirst :
    wp (do
      probeDiscard i
      modifyRound i fun round => { round with active := false }) post w ↔
      post () (w.setSelf (w.self.release i (w.self.round i).pending)) := by
  -- The writes of the probe are one.
  simp only [wp_bind, wp_probeDiscard, modifyRound, wp_handle, self_setSelf, setSelf_setSelf]
  rw [Proc.discard, handle_handle, handle_peers]
  exact Iff.rfl

/-- A round that ends before its probe is discarded is released as well. -/
theorem wp_endFirst :
    wp (do
      modifyRound i fun round => { round with active := false }
      probeDiscard i) post w ↔
      post () (w.setSelf (w.self.release i (w.self.round i).pending)) := by
  -- The writes of the probe are one.
  simp only [wp_bind, wp_probeDiscard, modifyRound, wp_handle, self_setSelf, setSelf_setSelf]
  rw [Proc.discard, handle_handle, handle_peers, List.append_nil]
  exact Iff.rfl

/-- A round that is cleared is not pending either. -/
theorem wp_discardClear :
    wp (do
      probeDiscard i
      clearRound i) post w ↔ post () (w.setSelf (w.self.release i false)) := by
  -- The writes of the probe are one.
  unfold clearRound
  simp only [wp_bind, wp_probeDiscard, modifyRound, wp_handle, self_setSelf, setSelf_setSelf]
  rw [Proc.discard, handle_handle, handle_peers]
  exact Iff.rfl

/-- Stopping a peer stops its timer and releases the round of an allocated one. -/
@[simp] theorem wp_stopPeer :
    wp (stopPeer i) post w ↔ post () (w.setSelf (w.self.stopPeer i)) := by
  -- A peer that was never allocated has no probe.
  unfold stopPeer disarmCheck Proc.stopPeer
  have allocated : ((w.self.setPeer i { w.self.peers i with checkEv := none }).peers i).allocated =
      (w.self.peers i).allocated := by
    rw [setPeer_peers]
  rw [wp_bind, wp_modifyPeer, wp_bind, wp_self, self_setSelf, allocated]
  split
  · rw [wp_discardClear, self_setSelf, setSelf_setSelf]
    exact Iff.rfl
  · rw [wp_pure]
    exact Iff.rfl

end Code

/-- The loop of `runtimeStop` over the peers. -/
theorem wp_stopPeers (n : Nat) (post : Unit → World → Prop) (w : World) :
    wp (forUpTo stopPeer n) post w ↔ post () (w.setSelf (w.self.stopPeers n)) := by
  -- Induction on the number of peers; the last one is stopped last.
  induction n generalizing post with
  | zero =>
    rw [forUpTo, wp_pure, Proc.stopPeers, setSelf_self]
  | succ n ih =>
    rw [forUpTo, wp_bind, ih, wp_stopPeer, self_setSelf, setSelf_setSelf]
    exact Iff.rfl

/-- Stopping a peer keeps the runtime. -/
@[simp] theorem stopPeer_runtime (p : Proc) (i : Nat) : (p.stopPeer i).runtime = p.runtime := by
  -- With and without a probe.
  unfold Proc.stopPeer
  split <;> rfl

/-- Stopping some peers keeps it, too. -/
@[simp] theorem stopPeers_runtime (p : Proc) (n : Nat) : (p.stopPeers n).runtime = p.runtime := by
  -- Induction on the peers.
  induction n with
  | zero => rfl
  | succ n ih => rw [Proc.stopPeers, stopPeer_runtime, ih]

/-- Stopping sets the flag and ends the watch. -/
@[simp] theorem stop_runtime (gen : Generation) (p : Proc) :
    (p.stop gen).runtime = { p.runtime with stopping := true, watch := none } := by
  -- The peers are no part of the runtime.
  rw [Proc.stop, stopPeers_runtime]

end Healthcheck
