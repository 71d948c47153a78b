import Healthcheck.System.Step

/-!
The inversion of a step: the few ways in which one operation of a process can change the shared
records, the history and the protocol part of that process.
-/

namespace Healthcheck

open Program

/-- Nothing of the other processes changes, and clock readings are only added. -/
structure Frame (p : Nat) (s s' : Sys) : Prop where
  others : ∀ q, q ≠ p → s'.procs q = s.procs q
  readings : (s.procs p).readings <:+ (s'.procs p).readings

/-- The shared memory after a publication of a peer's record. -/
def Shared.publishPeer (shared : Shared) (i : Nat) (state : PeerState) : Shared :=
  { shared with peers := Function.update shared.peers i (publish (shared.peers i) state) }

/-- The shared memory after a publication of a registration. -/
def Shared.enroll (shared : Shared) (worker : Nat) (state : WorkerState) : Shared :=
  { shared with
    workers := Function.update shared.workers worker
      (publishWorker (shared.workers worker) state) }

/-- A process changed in one round. -/
def Core.setRound (core : Core) (i : Nat) (round : Round) : Core :=
  { core with rounds := Function.update core.rounds i round }

/-- The local round after a claim. -/
def claimedRound (gen : Generation) (started : Nat) (next : PeerState) (round : Round) : Round :=
  { round with
    inst := next.inst, term := next.term, number := next.round, generation := gen.generation,
    started := started, deadline := next.deadline, active := true, sample := false,
    waitingPublished := false }

/-- The local round after an effective finish. -/
def frozenRound (result : Bool) (delay : Option Nat) (round : Round) : Round :=
  { round with active := false, pending := true, result := result, sample := delay.isSome
               delay := delay.getD round.delay }

/-- What one operation of a process does to the system. -/
inductive Move (gen : Generation) (p : Nat) (s s' : Sys) : Prop
  | quiet (shared : s'.shared = s.shared) (trace : s'.trace = s.trace)
      (core : (s.procs p).core.Quieter (s'.procs p).core)
  | activated (reading : Nat) (shared : s'.shared = s.shared.activate reading)
      (trace : s'.trace = s.trace) (core : (s'.procs p).core = (s.procs p).core)
  | opened (heartbeat : Nat) (fresh : (s.procs p).runtime.registered = false)
      (room : (s.slot (s.procs p).runtime.worker).inst ≠ uint64Max)
      (shared : s'.shared = s.shared.enroll (s.procs p).runtime.worker
        { pid := (s.procs p).pid, inst := (s.slot (s.procs p).runtime.worker).inst + 1,
          exiting := false, heartbeat := heartbeat })
      (trace : s'.trace = .registered p (s.procs p).runtime.worker
        ((s.slot (s.procs p).runtime.worker).inst + 1) :: s.trace)
      (core : (s'.procs p).core = { (s.procs p).core with
        inst := (s.slot (s.procs p).runtime.worker).inst + 1, registered := true })
  | renewed (heartbeat : Nat) (registered : (s.procs p).runtime.registered = true)
      (mine : Registered s (s.procs p))
      (shared : s'.shared = s.shared.enroll (s.procs p).runtime.worker
        { s.slot (s.procs p).runtime.worker with heartbeat := heartbeat })
      (trace : s'.trace = s.trace) (core : (s'.procs p).core = (s.procs p).core)
  | retired (registered : (s.procs p).runtime.registered = true)
      (pid : (s.slot (s.procs p).runtime.worker).pid = (s.procs p).pid)
      (inst : (s.slot (s.procs p).runtime.worker).inst = (s.procs p).runtime.inst)
      (shared : s'.shared = s.shared.enroll (s.procs p).runtime.worker
        { s.slot (s.procs p).runtime.worker with exiting := true })
      (trace : s'.trace = .exited p (s.procs p).runtime.worker
        (s.slot (s.procs p).runtime.worker).inst :: s.trace)
      (core : (s'.procs p).core = (s.procs p).core)
  | claimed (i : Nat) (takeover : Option PeerState) (started : Nat) (next : PeerState)
      (registered : (s.procs p).runtime.registered = true)
      (claimable : Claimable gen s (s.procs p) i takeover started)
      (read : ∃ t ∈ (s'.procs p).readings, t ≤ uint64Max ∧ started = milliseconds t)
      (state : next = claimState (gen.conf i) (s.procs p).runtime (s.procs p).pid started
        (s.record i))
      (shared : s'.shared = s.shared.publishPeer i next)
      (trace : s'.trace = .claimed p i takeover started (s.record i) next :: s.trace)
      (core : (s'.procs p).core = (s.procs p).core.setRound i
        (claimedRound gen started next ((s.procs p).round i)))
  | prepared (i : Nat) (t : Nat) (tcp : (gen.conf i).checkType = .tcp)
      (shared : s'.shared = s.shared) (trace : s'.trace = s.trace)
      (read : (s'.procs p).readings = t :: (s.procs p).readings)
      (core : (s'.procs p).core = (s.procs p).core.setRound i
        { (s.procs p).round i with
          deadline := addTime (milliseconds t) (gen.conf i).checkTimeout })
  | progressed (i : Nat) (next : PeerState) (owned : Owned gen s (s.procs p) i)
      (preparing : (s.record i).phase = .preparing)
      (state : next = inflightState ((s.procs p).round i).deadline (s.record i))
      (shared : s'.shared = s.shared.publishPeer i next)
      (trace : s'.trace = .inflight p i (s.record i) next :: s.trace)
      (core : (s'.procs p).core = (s.procs p).core.setRound i
        { (s.procs p).round i with waitingPublished := true })
  | froze (i : Nat) (result : Bool) (delay : Option Nat)
      (active : ((s.procs p).round i).active = true)
      (idle : ((s.procs p).round i).pending = false)
      (shared : s'.shared = s.shared)
      (trace : s'.trace = .frozen p i ((s.procs p).round i).number result delay :: s.trace)
      (core : (s'.procs p).core = (s.procs p).core.setRound i
        (frozenRound result delay ((s.procs p).round i)))
      (sample : delay.isSome = true → (gen.conf i).checkType = .tcp)
  | committed (i : Nat) (submitted : Nat) (next : PeerState) (owned : Owned gen s (s.procs p) i)
      (pending : ((s.procs p).round i).pending = true)
      (stage : (s.record i).phase = .preparing ∨ (s.record i).phase = .inflight)
      (state : next = submitState gen.word (gen.conf i) ((s.procs p).round i).result
        ((s.procs p).round i).sampled submitted (s.record i))
      (shared : s'.shared = s.shared.publishPeer i next)
      (trace : s'.trace = .committed p i ((s.procs p).round i).result
        ((s.procs p).round i).sampled (s.record i) next :: s.trace)
      (core : (s'.procs p).core = (s.procs p).core.setRound i
        { (s.procs p).round i with pending := false })

/-- A local round that ends nothing is quieter than itself. -/
theorem Round.Quieter.refl (round : Round) : round.Quieter round :=
  -- Nothing was set.
  ⟨rfl, id, id⟩

/-- A process that did nothing is as quiet as it was. -/
theorem Core.Quieter.refl (core : Core) : core.Quieter core :=
  -- Each round is as quiet as it was.
  ⟨rfl, rfl, rfl, rfl, rfl, fun i => Round.Quieter.refl (core.rounds i)⟩

/-- Changing the round of one peer in a quiet way is a quiet change of the process. -/
theorem Core.Quieter.setRound {core : Core} {i : Nat} {round : Round}
    (quieter : (core.rounds i).Quieter round) : core.Quieter (core.setRound i round) := by
  -- Only the round that was set is compared anew.
  refine ⟨rfl, rfl, rfl, rfl, rfl, fun j => ?_⟩
  by_cases same : j = i
  · subst same
    simpa [Core.setRound] using quieter
  · simpa [Core.setRound, same] using Round.Quieter.refl (core.rounds j)

/-- The protocol part of a process changed in one peer. -/
theorem core_setPeer (p : Proc) (i : Nat) (peer : Peer) :
    (p.setPeer i peer).core = p.core.setRound i peer.probe.round := by
  -- The core sees the round of a peer and nothing else of it.
  unfold Proc.core Core.setRound Proc.setPeer
  congr 1
  funext j
  by_cases same : j = i
  · subst same
    simp [Proc.round]
  · simp [Proc.round, same]

/-- The core sees a change of the round as a round that was set. -/
theorem core_setRound (p : Proc) (i : Nat) (round : Round) :
    (p.setPeer i ((p.peers i).setRound round)).core = p.core.setRound i round :=
  -- A change of the round is one of the peer.
  core_setPeer p i _

/-- The later of two rounds counts. -/
theorem core_setRound_setRound (core : Core) (i : Nat) (round round' : Round) :
    (core.setRound i round).setRound i round' = core.setRound i round' := by
  -- Both go to the same place.
  simp [Core.setRound]

/-- The protocol part of a process after a claim. -/
theorem core_claimed (gen : Generation) (p : Proc) (i started : Nat) (next : PeerState) :
    (p.claimed gen i started next).core =
      p.core.setRound i (claimedRound gen started next (p.round i)) :=
  -- A claim stores the round in its peer.
  core_setPeer p i _

/-- The outcome of an operation: one move of the process, in its frame. -/
def Moved (gen : Generation) (w w' : World) : Prop :=
  Frame w.me w.sys w'.sys ∧ Move gen w.me w.sys w'.sys

/-- A world that differs in the process's own state and in the shared part is in the frame. -/
theorem frame_of {w w' : World} (proc : Proc) (rs : List Nat)
    (procs : w'.sys.procs = Function.update w.sys.procs w.me proc)
    (readings : proc.readings = rs ++ w.self.readings) : Frame w.me w.sys w'.sys := by
  -- The other processes are as they were, and the readings only grow.
  constructor
  · intro q other
    rw [procs, Function.update_of_ne other]
  · rw [procs, Function.update_self, readings]
    exact List.suffix_append rs _

/-- An operation that only used up answers did nothing the others can see. -/
theorem moved_passed (gen : Generation) (w : World) (rs : List Nat) (pos : Nat)
    (locks : List LockEvent) : Moved gen w (w.passed rs pos locks) := by
  -- The core does not hold the readings.
  refine ⟨frame_of _ rs rfl rfl, .quiet rfl rfl ?_⟩
  have same : ((w.passed rs pos locks).sys.procs w.me).core = (w.sys.procs w.me).core := by
    simp [World.passed, Sys.setProc, World.self, Proc.core, funext_iff, Proc.round]
  rw [same]
  exact Core.Quieter.refl _

/-- A local change that leaves a quieter protocol part is a quiet move. -/
theorem moved_alone {gen : Generation} {w : World} {proc : Proc} (rs : List Nat) (pos : Nat)
    (locks : List LockEvent) (readings : proc.readings = w.self.readings)
    (quieter : w.self.core.Quieter proc.core) :
    Moved gen w ((w.setSelf proc).passed rs pos locks) := by
  -- The shared memory and the history are as they were.
  refine ⟨frame_of { proc with readings := rs ++ proc.readings } rs ?_ ?_, .quiet rfl rfl ?_⟩
  · simp [World.passed, World.setSelf, Sys.setProc, World.self]
  · simp [readings]
  · have same : (((w.setSelf proc).passed rs pos locks).sys.procs w.me).core = proc.core := by
      simp [World.passed, World.setSelf, Sys.setProc, World.self, Proc.core, funext_iff,
        Proc.round]
    rw [same]
    exact quieter

/-- A change of the shared part and of one process stays in that process's frame. -/
theorem frame_change {w x : World} {proc : Proc} {rs : List Nat} {pos : Nat}
    {locks : List LockEvent}
    (me : x.me = w.me) (procs : x.sys.procs = w.sys.procs)
    (readings : proc.readings = w.self.readings) :
    Frame w.me w.sys ((x.setSelf proc).passed rs pos locks).sys := by
  -- The change of the process is its only one.
  refine frame_of { proc with readings := rs ++ proc.readings } rs ?_ (by simp [readings])
  simp [World.passed, World.setSelf, Sys.setProc, World.self, me, procs]

/-- The protocol part of the process after such a change. -/
theorem core_change {w x : World} {proc : Proc} {core : Core} {rs : List Nat} {pos : Nat}
    {locks : List LockEvent} (me : x.me = w.me) (changed : proc.core = core) :
    (((x.setSelf proc).passed rs pos locks).sys.procs w.me).core = core := by
  -- Passing time keeps the core.
  rw [← changed, ← me]
  simp [World.passed, World.setSelf, Sys.setProc, World.self, Proc.core, funext_iff, Proc.round]

/-- The readings an operation took are among those of the process. -/
theorem read_change {w x : World} {proc : Proc} {rs : List Nat} {pos : Nat} {locks : List LockEvent}
    {t : Nat} (me : x.me = w.me) (read : t ∈ rs) :
    t ∈ (((x.setSelf proc).passed rs pos locks).sys.procs w.me).readings := by
  -- The new readings come first.
  rw [← me]
  simp [World.passed, World.setSelf, World.self, Sys.setProc, read]

/-- A change of the shared part alone stays in the frame of every process. -/
theorem frame_shared {w x : World} {rs : List Nat} {pos : Nat} {locks : List LockEvent}
    (me : x.me = w.me) (procs : x.sys.procs = w.sys.procs) :
    Frame w.me w.sys (x.passed rs pos locks).sys := by
  -- The process itself only gains its readings.
  refine frame_of { w.self with readings := rs ++ w.self.readings } rs ?_ rfl
  simp [World.passed, Sys.setProc, World.self, me, procs]

/-- A change of the shared part alone leaves the process's protocol part. -/
theorem core_shared {w x : World} {rs : List Nat} {pos : Nat} {locks : List LockEvent}
    (me : x.me = w.me) (procs : x.sys.procs = w.sys.procs) :
    ((x.passed rs pos locks).sys.procs w.me).core = (w.sys.procs w.me).core := by
  -- The process is stored with its readings alone.
  rw [← me, ← procs]
  simp [World.passed, Sys.setProc, World.self, Proc.core, funext_iff, Proc.round]

/-- An activation changes the shared instant at most. -/
theorem activate_moved (gen : Generation) (limit reading : Nat) (w : World) :
    wp (activate limit reading) (fun _ w' => Moved gen w w') w := by
  -- The cases of its law.
  refine wp_activate (fun _ rs pos locks => moved_passed gen w rs pos locks) (fun rs pos _ => ?_)
  exact ⟨frame_shared rfl rfl, .activated reading rfl rfl (core_shared rfl rfl)⟩

/-- A registration opens an instance or refreshes its own. -/
theorem registerSlot_moved (gen : Generation) (limit reading : Nat) (w : World) :
    wp (registerSlot limit reading) (fun _ w' => Moved gen w w') w := by
  -- The cases of its law.
  refine wp_registerSlot (fun _ rs pos locks _ _ => moved_passed gen w rs pos locks)
    (fun rs pos locks _ _ => moved_passed gen w rs pos locks) (fun rs pos _ fresh room => ?_)
    (fun rs pos _ old mine => ?_)
  · exact ⟨frame_change rfl rfl rfl,
      .opened (milliseconds reading) fresh room rfl rfl (core_change rfl rfl)⟩
  · exact ⟨frame_shared rfl rfl,
      .renewed (milliseconds reading) old mine rfl rfl (core_shared rfl rfl)⟩

/-- An exit marks the slot of the process at most. -/
theorem retire_moved (gen : Generation) (w : World) :
    wp retire (fun _ w' => Moved gen w w') w := by
  -- The cases of its law.
  refine wp_retire (fun rs pos locks _ => moved_passed gen w rs pos locks)
    (fun rs pos _ old pid inst _ => ?_)
  exact ⟨frame_shared rfl rfl, .retired old pid inst rfl rfl (core_shared rfl rfl)⟩

/-- A new deadline is set in the round of a TCP check at most. -/
theorem restartDeadline_moved (gen : Generation) (i t : Nat) (pos : Nat) (w : World) :
    wp (restartDeadline gen i t) (fun _ w' => Moved gen w w') (w.passed [t] pos w.locks) := by
  -- Only a TCP check sets a new deadline, counted from the reading that was just taken.
  unfold restartDeadline
  simp only [wp_ite, wp_modifyRound, wp_pure]
  refine ⟨fun tcp => ?_, fun _ => moved_passed gen w [t] pos w.locks⟩
  have swapped : (w.passed [t] pos w.locks).setSelf
      ((w.passed [t] pos w.locks).self.setPeer i
        (((w.passed [t] pos w.locks).self.peers i).setRound
          { (w.passed [t] pos w.locks).self.round i with
            deadline := addTime (milliseconds t) (gen.conf i).checkTimeout })) =
      (w.setSelf (w.self.setPeer i ((w.self.peers i).setRound
        { w.self.round i with
          deadline := addTime (milliseconds t) (gen.conf i).checkTimeout }))).passed
        [t] pos w.locks := by
    simp [World.passed, World.setSelf, World.self, Sys.setProc, Proc.setPeer, Proc.round]
  rw [swapped]
  refine ⟨frame_change rfl rfl rfl,
    .prepared i t tcp rfl rfl ?_ (core_change rfl (core_setRound w.self i _))⟩
  simp [World.passed, World.setSelf, World.self, Sys.setProc, Proc.setPeer]

/-- Waiting moves a PREPARING record to INFLIGHT at most. -/
theorem probeWaiting_moved (gen : Generation) (i : Nat) (w : World) :
    wp (probeWaiting gen i) (fun _ w' => Moved gen w w') w := by
  -- A PREPARING record becomes INFLIGHT, any later one stays as it is.
  refine wp_probeWaiting (fun _ rs pos locks _ => moved_passed gen w rs pos locks)
    (fun rs pos locks _ _ _ => ?_) (fun rs pos _ owned preparing _ => ?_)
  · refine moved_alone rs pos locks rfl ?_
    rw [Proc.waitingPublished, core_setRound]
    exact Core.Quieter.setRound ⟨rfl, id, id⟩
  · exact ⟨frame_change rfl rfl rfl, .progressed i _ owned preparing rfl rfl rfl
      (core_change rfl (core_setRound w.self i _))⟩

/-- A finish freezes the outcome of the round at most. -/
theorem freeze_moved (gen : Generation) (i : Nat) (result : Bool) (reason source : String)
    (error : Option Errno) (w : World) :
    wp (freeze gen i result reason source error) (fun _ w' => Moved gen w w') w := by
  -- The cases of its law.
  refine wp_freeze (fun _ => ?_) (fun delay rs pos active idle samples => ?_)
  · have nothing := moved_passed gen w [] w.pos w.locks
    rwa [passed_nil] at nothing
  · exact ⟨frame_change rfl rfl rfl, .froze i result delay active idle rfl rfl
      (core_change rfl (core_setPeer w.self i _)) fun sampled => (samples sampled).2.1⟩

/-- A submission commits the frozen outcome or withdraws it. -/
theorem settle_moved (gen : Generation) (i limit : Nat) (w : World)
    (pending : (w.self.round i).pending = true) :
    wp (settle gen i limit) (fun _ w' => Moved gen w w') w := by
  -- The cases of its law.
  refine wp_settle (fun _ rs pos locks _ _ => moved_passed gen w rs pos locks)
    (fun rs pos locks => ?_) (fun t rs pos _ _ owned stage _ => ?_)
  · refine moved_alone rs pos locks rfl ?_
    rw [Proc.withdrawn, core_setRound]
    exact Core.Quieter.setRound ⟨rfl, id, by simp⟩
  · exact ⟨frame_change rfl rfl rfl, .committed i (milliseconds t) _ owned pending stage rfl rfl rfl
      (core_change rfl (core_setPeer w.self i _))⟩

/-- A claim starts a round of a registered process at most. -/
theorem claimRound_moved (gen : Generation) (i : Nat) (takeover : Option PeerState)
    (limit : Nat) (w : World) (registered : w.self.runtime.registered = true) :
    wp (claimRound gen i takeover limit) (fun _ w' => Moved gen w w') w := by
  -- The cases of its law.
  refine wp_claimRound (fun rs pos => moved_passed gen w rs pos _)
    (fun _ _ rs pos locks _ _ _ => ?_) (fun t rs pos _ read range claimable _ => ?_)
  · refine moved_alone rs pos locks rfl ?_
    rw [Proc.allocate, core_setPeer]
    exact Core.Quieter.setRound (Round.Quieter.refl _)
  · refine ⟨frame_change rfl rfl rfl, .claimed i takeover (milliseconds t) _ registered claimable
      ⟨t, read_change rfl read, range, rfl⟩ rfl rfl rfl (core_change rfl ?_)⟩
    rw [core_claimed, Proc.allocate, core_setPeer, core_setRound_setRound]
    simp [Proc.setPeer, World.self, Proc.round]

/-- The inversion of an operation: whatever it returns, it made one move in its own frame. -/
theorem op_moved (gen : Generation) (op : Op) (w : World) :
    wp (op.run gen) (fun _ w' => Moved gen w w') w := by
  -- One lemma for each operation.
  have nothing : Moved gen w w := by
    have kept := moved_passed gen w [] w.pos w.locks
    rwa [passed_nil] at kept
  cases op with
  | activate limit reading =>
    simp only [Op.run, wp_bind, wp_pure]
    exact activate_moved gen limit reading w
  | registerSlot limit reading =>
    simp only [Op.run, wp_bind, wp_pure]
    exact registerSlot_moved gen limit reading w
  | claimRound i takeover limit =>
    simp only [Op.run, wp_bind, wp_self, wp_ite, wp_pure]
    exact ⟨claimRound_moved gen i takeover limit w, fun _ => nothing⟩
  | restartDeadline i =>
    simp only [Op.run, wp_bind]
    refine wp_now ?_ ?_
    · intro pos
      simpa using moved_passed gen w [] pos w.locks
    · intro t pos _
      exact restartDeadline_moved gen i t pos w
  | probeWaiting i =>
    simp only [Op.run, wp_bind, wp_pure]
    exact probeWaiting_moved gen i w
  | freeze i result reason source error =>
    simp only [Op.run, wp_bind, wp_pure]
    exact freeze_moved gen i result reason source error w
  | settle i limit =>
    simp only [Op.run, wp_bind, wp_self, wp_ite, wp_pure]
    exact ⟨settle_moved gen i limit w, fun _ => nothing⟩
  | retire => exact retire_moved gen w

/-- What one step of the system is: a process starts, dies, or makes a move in its frame. -/
inductive Turn (gen : Generation) (s s' : Sys) : Prop
  | spawned (p worker : Nat) (pid : Int) (unused : (s.procs p).status = .absent)
      (slot : worker < gen.workers) (positive : 0 < pid)
      (after : s' = s.setProc p (Proc.start pid worker))
  | crashed (p : Nat) (running : (s.procs p).status = .running)
      (after : s' = s.setProc p { s.procs p with status := .dead })
  | moved (p : Nat) (running : (s.procs p).status = .running) (frame : Frame p s s')
      (move : Move gen p s s')

/-- Every step is one of these. -/
theorem step_turn {gen : Generation} {s s' : Sys} (step : Step gen s s') : Turn gen s s' := by
  -- A call is the move of its operation.
  cases step with
  | spawn _ p worker pid unused slot positive =>
    exact .spawned p worker pid unused slot positive rfl
  | crash _ p running => exact .crashed p running rfl
  | call op w w' running returned =>
    obtain ⟨frame, move⟩ := op_moved gen op w () w' returned
    exact .moved w.me running frame move
  | alone _ p proc running quieter readings =>
    refine .moved p running ⟨fun q other => ?_, ?_⟩ (.quiet rfl rfl ?_)
    · exact Function.update_of_ne other _ _
    · simpa [Sys.setProc] using readings
    · simpa [Sys.setProc] using quieter

end Healthcheck
