import Healthcheck.Callback.Guarantee
import Healthcheck.Callback.Retained
import Healthcheck.System.Advance

/-!
No peer is orphaned. The process that a peer's record names will check the peer again: its check
timer is armed whenever the event loop waits.
-/

namespace Healthcheck

open Program

section Back

variable {gen : Generation} {i : Nat}

/-- Ownership is as it was, when the identities in the record, the slot and the process are. -/
theorem keeps_back {s s' : Sys} {p p' : Proc} (record : (s'.record i).claim = (s.record i).claim)
    (slot : (s'.slot p.runtime.worker).inst = (s.slot p.runtime.worker).inst ∧
      (s'.slot p.runtime.worker).pid = (s.slot p.runtime.worker).pid ∧
      ((s'.slot p.runtime.worker).exiting = false → (s.slot p.runtime.worker).exiting = false))
    (running : p'.runtime.stopping = false → p.runtime.stopping = false)
    (worker : p'.runtime.worker = p.runtime.worker) (inst : p'.runtime.inst = p.runtime.inst)
    (registered : p'.runtime.registered = p.runtime.registered) (pid : p'.pid = p.pid)
    (round : (p'.round i).inst = (p.round i).inst ∧ (p'.round i).term = (p.round i).term ∧
      (p'.round i).number = (p.round i).number)
    (keeps : Keeps s' p' i) : Keeps s p i := by
  -- Each of the fields is the one before.
  have workers : (s'.record i).worker = (s.record i).worker := congrArg Claim.worker record
  have insts : (s'.record i).inst = (s.record i).inst := congrArg Claim.inst record
  have terms : (s'.record i).term = (s.record i).term := congrArg Claim.term record
  have rounds : (s'.record i).round = (s.record i).round := congrArg Claim.round record
  obtain ⟨goes, listed, ⟨mine, leaving, number⟩, owner, own, named, term, current⟩ := keeps
  rw [worker] at mine leaving number owner
  rw [inst] at mine own
  refine ⟨running goes, registered ▸ listed, ⟨slot.1 ▸ mine, slot.2.2 leaving, ?_⟩, workers ▸ owner,
    insts ▸ own, ?_, ?_, ?_⟩
  · rw [← slot.2.1, number, pid]
  · rw [← round.1, named, insts]
  · rw [← round.2.1, term, terms]
  · rw [← round.2.2, current, rounds]

/-- A peer stays tended, when its ownership is as it was and its timer was not deleted. -/
theorem tended_back {w w' : World}
    (armed : (w.self.peers i).checkEv.isSome = true → (w'.self.peers i).checkEv.isSome = true)
    (back : Keeps w'.sys w'.self i → Keeps w.sys w.self i) (tended : Tended i w) : Tended i w' :=
  -- The check timer was armed before and still is.
  fun keeps => armed (tended (back keeps))

end Back

section Others

variable {gen : Generation} {i me : Nat}

/-- What a step leaves to a process that takes no part in it was its own before. -/
theorem keeps_step {s s' : Sys} (sound : Sound s) (step : Step gen s s')
    (same : s'.procs me = s.procs me) (keeps : Keeps s' (s.procs me) i) :
    Keeps s (s.procs me) i := by
  cases step_turn step with
  | spawned p worker pid unused slot positive after =>
    subst after
    refine keeps_congr ?_ rfl rfl ⟨rfl, rfl, rfl⟩ keeps
    rfl
  | crashed p running after =>
    subst after
    refine keeps_congr ?_ rfl rfl ⟨rfl, rfl, rfl⟩ keeps
    rfl
  | moved p running frame move =>
    have listed : (s.core me).registered = true := keeps.registered
    have inst := inst_moved sound move.enrolls listed keeps.registration.inst
    have slot := slot_moved move _ inst
    have back : (s'.record i).claim = (s.record i).claim → Keeps s (s.procs me) i := fun record =>
      keeps_back record ⟨inst, slot⟩ id rfl rfl rfl rfl ⟨rfl, rfl, rfl⟩ keeps
    cases move.touches i with
    | kept record => exact back (by rw [record])
    | claimed takeover started registered claimable _ record _ round =>
      -- The record names the claimant, which is the process itself only if its round changes.
      have ours : (s.core me).worker = (s.core p).worker := by
        have owner := keeps.worker
        rw [record] at owner
        exact owner.symm
      have mine : (s.core me).inst = (s.core p).inst := by
        have own := keeps.inst
        rw [record] at own
        exact own.symm
      have itself := sound.registrations.unique me p listed registered ours mine
      subst itself
      have number := (sound.consistent i).number me
      have counted : ((s'.core me).rounds i).number = (s.record i).round + 1 := by
        rw [round, record]
        rfl
      have unchanged : s'.core me = s.core me := by rw [Sys.core, Sys.core, same]
      rw [unchanged] at counted
      omega
    | prepared t _ record => exact back (by rw [record])
    | progressed owned preparing record => exact back (by rw [record]; rfl)
    | froze result delay active idle record => exact back (by rw [record])
    | committed submitted owned pending stage record => exact back (by rw [record]; rfl)

/-- What the others do does not make this process the owner of a peer. -/
theorem keeps_others {s s' : Sys} (sound : Sound s) (moved : OtherSteps gen me s s')
    (keeps : Keeps s' (s.procs me) i) : Keeps s (s.procs me) i := by
  -- Induction on the steps of the others, the last one first.
  induction moved with
  | refl => exact keeps
  | @tail mid s' run step ih =>
    obtain ⟨before, same⟩ := steps_others run
    have soundly : Sound mid := steps_keep Sound sound_step sound before
    rw [← same] at keeps
    have kept := keeps_step soundly step.1 step.2 keeps
    rw [same] at kept
    exact ih kept

end Others

section Own

variable {gen : Generation} {i : Nat}

/-- Passing time keeps a peer tended. -/
theorem tended_passed {w : World} (rs : List Nat) (pos : Nat) (locks : List LockEvent)
    (tended : Tended i w) : Tended i (w.passed rs pos locks) := by
  -- Neither the timers nor the records change.
  refine tended_back (fun armed => ?_) (keeps_congr ?_ ?_ ?_ ?_) tended
  · rwa [passed_self]
  · rfl
  · rw [passed_self]
  · rw [passed_self]
  · rw [passed_round]
    exact ⟨rfl, rfl, rfl⟩

/-- An armed check timer stays armed if the write of a peer leaves it so. -/
theorem setPeer_check (p : Proc) {j : Nat} {peer : Peer}
    (kept : (p.peers j).checkEv.isSome = true → peer.checkEv.isSome = true)
    (armed : (p.peers i).checkEv.isSome = true) :
    ((p.setPeer j peer).peers i).checkEv.isSome = true := by
  -- The peer itself or another one.
  by_cases same : i = j
  · subst same
    rw [setPeer_peers]
    exact kept armed
  · rwa [setPeer_peers_other p j _ same]

/-- The identities of the rounds of a process changed in one peer. -/
theorem setPeer_ids (p : Proc) {j : Nat} {peer : Peer}
    (round : peer.probe.round.inst = (p.round j).inst ∧ peer.probe.round.term = (p.round j).term ∧
      peer.probe.round.number = (p.round j).number) :
    ((p.setPeer j peer).round i).inst = (p.round i).inst ∧
      ((p.setPeer j peer).round i).term = (p.round i).term ∧
      ((p.setPeer j peer).round i).number = (p.round i).number := by
  -- The peer itself or another one.
  by_cases same : i = j
  · subst same
    rw [Proc.round, setPeer_peers]
    exact round
  · rw [Proc.round, setPeer_peers_other p j _ same]
    exact ⟨rfl, rfl, rfl⟩

/-- On its own a process that goes on deletes no check timer. -/
theorem local_check {p p' : Proc} (change : Local gen p p') (goes : p'.runtime.stopping = false) :
    p.runtime.stopping = false ∧
      ((p.peers i).checkEv.isSome = true → (p'.peers i).checkEv.isSome = true) := by
  -- Of the changes of a process only the stop clears a check timer.
  cases change with
  | stopped =>
    rw [stop_runtime] at goes
    cases goes
  | stoppedAgain cleaned => cases goes
  | checkArmed j delay => exact ⟨goes, setPeer_check p fun _ => rfl⟩
  | handled j probe events step => exact ⟨goes, setPeer_check p id⟩
  | connected j before error startTime how active confirmed =>
    cases startTime with
    | none => exact ⟨goes, setPeer_check p id⟩
    | some time => exact ⟨goes, setPeer_check p id⟩
  | _ => exact ⟨goes, id⟩

/-- A change of the process alone keeps a peer tended. -/
theorem tended_local {w : World} {proc : Proc} (change : Local gen w.self proc)
    (tended : Tended i w) : Tended i (w.setSelf proc) := by
  -- The round keeps its identity, because the change is quiet.
  intro keeps
  rw [self_setSelf] at keeps ⊢
  obtain ⟨running, armed⟩ := local_check (i := i) change keeps.running
  obtain ⟨quieter, _⟩ := local_quieter change
  have round : (proc.round i).inst = (w.self.round i).inst ∧
      (proc.round i).term = (w.self.round i).term ∧
      (proc.round i).number = (w.self.round i).number := by
    obtain ⟨same, _, _⟩ := quieter.rounds i
    change proc.round i = _ at same
    rw [same]
    exact ⟨rfl, rfl, rfl⟩
  refine armed (tended (keeps_back ?_ ⟨?_, ?_, ?_⟩ (fun _ => running) quieter.worker quieter.inst
    quieter.registered quieter.pid round keeps))
  · rfl
  · rfl
  · rfl
  · exact id

/-- A publication of the process about its own round tends the peer as before. -/
theorem tended_published {w : World} {j : Nat} {state : PeerState} {event : Event} {peer : Peer}
    (claim : state.claim = (w.sys.record j).claim)
    (round : peer.probe.round.inst = (w.self.round j).inst ∧
      peer.probe.round.term = (w.self.round j).term ∧
      peer.probe.round.number = (w.self.round j).number)
    (kept : (w.self.peers j).checkEv.isSome = true → peer.checkEv.isSome = true)
    (tended : Tended i w) :
    Tended i ((w.published j state event).setSelf (w.self.setPeer j peer)) := by
  -- The claim of the record and that of the round are as they were.
  have record : (((w.published j state event).setSelf (w.self.setPeer j peer)).sys.record i).claim =
      (w.sys.record i).claim := by
    by_cases same : i = j
    · subst same
      rw [← claim]
      simp [Sys.record, World.published]
    · simp [Sys.record, World.published, same]
  intro keeps
  rw [self_setSelf] at keeps ⊢
  refine setPeer_check _ kept (tended (keeps_back record ⟨rfl, rfl, id⟩ ?_ ?_ ?_ ?_ ?_
    (setPeer_ids w.self round) keeps))
  · exact id
  all_goals rfl

/-- A change of one peer of the process that keeps the identity of its round. -/
theorem tended_setPeer {w : World} {j : Nat} {peer : Peer} (io : List IoEvent)
    (round : peer.probe.round.inst = (w.self.round j).inst ∧
      peer.probe.round.term = (w.self.round j).term ∧
      peer.probe.round.number = (w.self.round j).number)
    (kept : (w.self.peers j).checkEv.isSome = true → peer.checkEv.isSome = true)
    (tended : Tended i w) : Tended i (w.setSelf { w.self.setPeer j peer with io := io }) := by
  -- The claim of the round is as it was.
  intro keeps
  rw [self_setSelf] at keeps ⊢
  refine setPeer_check _ kept (tended (keeps_congr ?_ ?_ ?_ ?_ keeps))
  · rfl
  · rfl
  · rfl
  · exact setPeer_ids w.self round

/-- The timer of another peer is deleted. -/
theorem tended_disarm {w : World} {j : Nat} (other : j ≠ i) (tended : Tended i w) :
    Tended i (w.setSelf (w.self.disarm j)) := by
  -- The timer of another peer is written.
  intro keeps
  rw [self_setSelf, Proc.disarm] at keeps ⊢
  rw [setPeer_peers_other _ _ _ (Ne.symm other)]
  refine tended (keeps_congr ?_ ?_ ?_ ?_ keeps)
  · rfl
  · rfl
  · rfl
  · rw [Proc.round, setPeer_peers_other _ _ _ (Ne.symm other)]
    exact ⟨rfl, rfl, rfl⟩

/-- An operation that neither starts nor ends a round tends the peers as before. -/
theorem tended_op {op : Op} {w : World} (inner : op.Inner) (sound : Sound w.sys)
    (tended : Tended i w) : wp (op.run gen) (fun _ w' => Tended i w') w := by
  cases op with
  | activate limit reading =>
    simp only [Op.run, wp_bind, wp_pure]
    refine wp_activate (fun _ rs pos locks => tended_passed rs pos locks tended)
      (fun rs pos locks => tended_passed rs pos locks ?_)
    intro keeps
    refine tended (keeps_back ?_ ?_ id rfl rfl rfl rfl ⟨rfl, rfl, rfl⟩ keeps)
    · rw [record_activated rfl]
    · rw [slot_activated rfl]
      exact ⟨rfl, rfl, id⟩
  | registerSlot limit reading =>
    simp only [Op.run, wp_bind, wp_pure]
    refine wp_registerSlot (fun _ rs pos locks _ _ => tended_passed rs pos locks tended)
      (fun rs pos locks _ _ => tended_passed rs pos locks tended)
      (fun rs pos locks _ _ => tended_passed rs pos locks ?_)
      (fun rs pos locks _ _ => tended_passed rs pos locks ?_)
    · -- No record names an instance that is new.
      intro keeps
      rw [self_setSelf] at keeps
      have known := (sound.consistent i).known
      have worker : (w.sys.record i).worker = w.self.runtime.worker := keeps.worker
      have inst : (w.sys.record i).inst = (w.sys.slot w.self.runtime.worker).inst + 1 := keeps.inst
      rw [worker, inst] at known
      exact absurd known (Nat.not_succ_le_self _)
    · intro keeps
      refine tended (keeps_back ?_ ?_ id rfl rfl rfl rfl ⟨rfl, rfl, rfl⟩ keeps)
      · rfl
      · simp [World.enrolled, Sys.slot]
  | claimRound j takeover limit => cases inner
  | restartDeadline j =>
    simp only [Op.run, wp_bind]
    refine wp_now (fun pos => by simpa using tended_passed [] pos w.locks tended)
      (fun t pos _ => ?_)
    unfold restartDeadline
    simp only [wp_ite, wp_modifyRound, wp_pure]
    refine ⟨fun tcp => ?_, fun _ => tended_passed [t] pos w.locks tended⟩
    exact tended_setPeer _ ⟨rfl, rfl, rfl⟩ id (tended_passed [t] pos w.locks tended)
  | probeWaiting j =>
    simp only [Op.run, wp_bind, wp_pure]
    refine wp_probeWaiting (fun _ rs pos locks _ => tended_passed rs pos locks tended)
      (fun rs pos locks _ _ _ => tended_passed rs pos locks ?_)
      (fun rs pos locks _ _ _ => tended_passed rs pos locks ?_)
    · exact tended_setPeer _ ⟨rfl, rfl, rfl⟩ id tended
    · exact tended_published rfl ⟨rfl, rfl, rfl⟩ id tended
  | freeze j result reason source error => cases inner
  | settle j limit =>
    simp only [Op.run, wp_bind, wp_self, wp_ite, wp_pure]
    refine ⟨fun _ => wp_settle (fun _ rs pos locks _ _ => tended_passed rs pos locks tended)
      (fun rs pos locks => tended_passed rs pos locks ?_)
      (fun t rs pos locks _ _ _ _ => tended_passed rs pos locks ?_), fun _ => tended⟩
    · exact tended_setPeer _ ⟨rfl, rfl, rfl⟩ id tended
    · refine tended_published rfl ⟨rfl, rfl, rfl⟩ (fun armed => ?_) tended
      split
      · rfl
      · exact armed
  | retire =>
    refine wp_retire (fun rs pos locks _ => tended_passed rs pos locks tended)
      (fun rs pos locks _ _ _ _ => tended_passed rs pos locks ?_)
    intro keeps
    -- A process that is leaving has no registration any more.
    have leaving := keeps.registration.exiting
    simp [World.enrolled, World.noted, World.self, Sys.slot] at leaving

/-- A claim arms the timer of the claimed peer, and leaves the other peers as they were. -/
theorem tended_claimRound {j : Nat} {takeover : Option PeerState} {limit : Nat} {w : World}
    (tended : Tended i w) : wp (claimRound gen j takeover limit) (fun _ w' => Tended i w') w := by
  -- A claim sets the check timer of its own peer and leaves the other peers alone.
  refine wp_claimRound (fun rs pos => tended_passed rs pos _ tended)
    (fun rc wait rs pos locks _ _ _ => tended_passed rs pos locks ?_)
    (fun t rs pos locks _ _ _ _ => tended_passed rs pos locks ?_)
  · exact tended_setPeer _ ⟨rfl, rfl, rfl⟩ id tended
  · intro keeps
    rw [self_setSelf] at keeps ⊢
    by_cases same : i = j
    · subst same
      simp [Proc.claimed, Proc.setPeer]
    · have other : ((w.self.allocate j).claimed gen j (milliseconds t) (claimState (gen.conf j)
          w.self.runtime w.self.pid (milliseconds t) (w.sys.record j))).peers i =
            w.self.peers i := by
        simp [Proc.claimed, Proc.allocate, Proc.setPeer, same]
      rw [other]
      have ids := congrArg (fun peer => peer.probe.round) other
      refine tended (keeps_back ?_ ⟨?_, ?_, ?_⟩ ?_ ?_ ?_ ?_ ?_ ?_ keeps)
      · simp [Sys.record, World.published, same]
      · rfl
      · rfl
      · exact id
      · exact id
      · rfl
      · rfl
      · rfl
      · rfl
      · exact ⟨congrArg Round.inst ids, congrArg Round.term ids, congrArg Round.number ids⟩

/-- Every step of a process tends its peers, given that the others keep to the protocol. -/
theorem tended_atomicStep {w w' : World} (sound : Sound w.sys)
    (others : ∀ n s, OtherSteps gen w.me s ((w.script n).others s)) (move : AtomicStep gen w w')
    (tended : Tended i w) : Tended i w' := by
  cases move with
  | inner w' move =>
    cases move with
    | passed rs pos locks => exact tended_passed rs pos locks tended
    | preempted =>
      refine tended_back (fun armed => ?_) (fun keeps => ?_) tended
      · rwa [preempted_self]
      · rw [preempted_self] at keeps
        refine keeps_others sound (others w.pos w.sys) ?_
        refine keeps_congr ?_ rfl rfl ⟨rfl, rfl, rfl⟩ keeps
        rfl
    | alone proc rs pos locks change =>
      exact tended_passed rs pos locks (tended_local change tended)
    | disarmed j excused =>
      by_cases same : i = j
      · -- Only the timer of a peer that is not kept is deleted.
        subst same
        intro keeps
        rw [self_setSelf] at keeps
        refine absurd (keeps_congr ?_ ?_ ?_ ?_ keeps) excused
        · rfl
        · rfl
        · rfl
        · rw [Proc.round, Proc.disarm, setPeer_peers]
          exact ⟨rfl, rfl, rfl⟩
      · exact tended_disarm (Ne.symm same) tended
    | ran op w' inner returned => exact tended_op inner sound tended () w' returned
  | claimed j takeover limit result w' _ _ returned =>
    exact tended_claimRound tended result w' returned
  | froze j result reason source error label events rs pos w' _ _ _ returned =>
    obtain ⟨delay, rs', pos', _, after⟩ := freeze_returned returned
    have noted : Tended i (w.noting j events label rs pos) :=
      tended_passed rs pos w.locks (tended_setPeer _ ⟨rfl, rfl, rfl⟩ id tended)
    rw [after]
    refine tended_passed rs' pos' _ (tended_setPeer _ ⟨rfl, rfl, rfl⟩ id fun keeps => noted ?_)
    refine keeps_congr ?_ rfl rfl ⟨rfl, rfl, rfl⟩ keeps
    rfl
  | submitted j result rc => exact tended_setPeer _ ⟨rfl, rfl, rfl⟩ id tended

/-- Atomic steps keep a peer tended. -/
theorem tended_atomicSteps {w w' : World} (sound : Sound w.sys) (running : w.self.status = .running)
    (others : ∀ n s, OtherSteps gen w.me s ((w.script n).others s)) (run : AtomicSteps gen w w')
    (tended : Tended i w) : Tended i w' := by
  -- Induction on the atomic steps; what has run so far is a run of the protocol.
  induction run with
  | refl => exact tended
  | @tail mid w' run move ih =>
    have soFar := guaranteed_atomicSteps running others run
    refine tended_atomicStep (steps_keep Sound sound_step sound soFar.steps) (fun n s => ?_) move ih
    rw [soFar.me, soFar.script]
    exact others n s

/-- A whole callback keeps a peer tended. -/
theorem tended_callbackRun {w w' : World} (sound : Sound w.sys) (running : w.self.status = .running)
    (others : ∀ n s, OtherSteps gen w.me s ((w.script n).others s)) (course : CallbackRun gen w w')
    (tended : Tended i w) : Tended i w' := by
  have onwards : ∀ {proc : Proc}, RoundSteps gen (w.setSelf proc) w' →
      proc.readings = w.self.readings → w.self.core.Quieter proc.core →
      Tended i (w.setSelf proc) → Tended i w' := by
    intro proc run readings quieter armed
    have rang : Guaranteed gen w (w.setSelf proc) := guaranteed_setSelf running readings quieter
    exact tended_atomicSteps (steps_keep Sound sound_step sound rang.steps)
      (rang.status.trans running) others (atomic_of_rounds run) armed
  cases course with
  | quiet _ run => exact tended_atomicSteps sound running others (atomic_of_rounds run) tended
  | checked j _ passes =>
    by_cases same : j = i
    · -- The timer that called back has been armed again at some moment of the callback.
      subst same
      obtain ⟨mid, before, armed, after⟩ := passes
      have rang : Guaranteed gen w (w.setSelf (w.self.disarm j)) :=
        guaranteed_setSelf running rfl (quieter_setPeer _ (Round.Quieter.refl _))
      have soFar := rang.trans
        (guaranteed_atomicSteps (rang.status.trans running) others (atomic_of_rounds before))
      refine tended_atomicSteps (steps_keep Sound sound_step sound soFar.steps)
        (soFar.status.trans running) (fun n s => ?_) (atomic_of_rounds after) armed
      rw [soFar.me, soFar.script]
      exact others n s
    · exact onwards (passes_run passes) rfl (quieter_setPeer _ (Round.Quieter.refl _))
        (tended_disarm same tended)
  | timed j _ passes =>
    refine onwards (passes_run passes) rfl (quieter_handle _ [] (Round.Quieter.refl _)) ?_
    exact tended_setPeer _ ⟨rfl, rfl, rfl⟩ id tended
  | watched _ passes =>
    refine onwards (passes_run passes) rfl (Core.Quieter.refl _) ?_
    refine tended_back (fun armed => ?_) (fun keeps => ?_) tended
    · rw [self_setSelf]
      exact armed
    · rw [self_setSelf] at keeps
      obtain ⟨goes, listed, ⟨mine, leaving, number⟩, owner, own, named, term, current⟩ := keeps
      exact ⟨goes, listed, ⟨mine, leaving, number⟩, owner, own, named, term, current⟩

end Own

section Timers

variable {gen : Generation} {i : Nat}

/-- A running round of a seat has its timeout, unless the process stops. -/
def Seat.Timed (s : Seat) : Prop :=
  s.peer.probe.round.active = true → s.peer.probe.round.pending = false →
    s.runtime.stopping = false → s.peer.probe.timeout.isSome = true

/-- The process of a seat has its watch, unless it stops. -/
def Seat.Watching (s : Seat) : Prop :=
  s.runtime.stopping = false → s.runtime.watch.isSome = true

/-- What holds of a seat after every step of its process, a timer that calls back apart. -/
theorem atomicStep_keep (invariant : Seat → Prop)
    (byInner : ∀ {s s'}, s.Steady → invariant s → SeatInnerStep gen i s s' → invariant s')
    (claims : ∀ {s s'}, invariant s → SeatClaim gen i s s' → invariant s')
    (ends : ∀ {s : Seat} (probe : Probe) (events : List IoEvent), invariant s →
      probe.timeout = s.peer.probe.timeout →
      (probe.round.active = true → probe.round = s.peer.probe.round) →
      invariant (s.handle probe events))
    {w w' : World} (steady : Steady w.self) (move : AtomicStep gen w w')
    (held : invariant (w.self.seat i)) : invariant (w'.self.seat i) := by
  -- One case for each step; the end of a round only writes the probe.
  cases move with
  | inner w' move => exact byInner (steady i) held (seatInnerStep_of_inner move)
  | claimed j takeover limit result w' _ _ returned =>
    exact claims held (seatClaim_claimRound result w' returned)
  | froze j result reason source error label events rs pos w' noted _ _ returned =>
    obtain ⟨delay, _, after⟩ := seat_froze (i := i) (noted_own j noted) returned
    rw [after]
    split
    · rw [Seat.frozen, Seat.note]
      exact ends _ _ (ends _ _ held rfl fun _ => rfl) rfl fun impossible => by cases impossible
    · exact held
  | submitted j result rc =>
    rw [self_setSelf, seat_submitted]
    split
    · exact ends _ _ held rfl fun _ => rfl
    · exact held

/-- A step of the probe leaves a running round with its timeout. -/
theorem step_timed {s : Seat} {probe' : Probe} {events : List IoEvent} (timed : s.Timed)
    (step : ProbeStep gen i s.peer.probe s.history probe' events) :
    (s.handle probe' events).Timed := by
  -- The timer is only stopped when the round is over.
  intro active idle running
  cases step with
  | timeoutArmed delay => rfl
  | timeoutEnded past =>
    rw [show s.peer.probe.round.active = true from active] at past
    cases past
  | tuned probe' tuned =>
    have round : probe'.round = s.peer.probe.round := tuned.round
    show probe'.timeout.isSome = true
    rw [tuned.timeout]
    exact timed (round ▸ active) (round ▸ idle) running
  | released pending fewer => cases active
  | _ => exact timed active idle running

/-- An inner step ends the timeout only of a round that is over. -/
theorem seatInnerStep_timed {s s' : Seat} (steady : s.Steady) (timed : s.Timed)
    (move : SeatInnerStep gen i s s') : s'.Timed := by
  cases move with
  | paced runtime stopping cleaned watch =>
    exact fun active idle running => timed active idle (stopping ▸ running)
  | stopped below =>
    intro _ _ running
    rw [Seat.stop] at running
    split at running
    all_goals cases running
  | unlisted beyond => exact fun _ _ running => by cases running
  | stoppedAgain cleaned => exact fun _ _ running => by cases running
  | handled probe events step => exact step_timed timed step
  | connected before error startTime how active confirmed =>
    cases startTime with
    | none => exact timed
    | some time => exact timed
  | settled check =>
    -- A round that runs does not wait for its submission.
    exact fun active _ running => timed active (steady.single active) running
  | _ => exact timed

/-- An atomic step leaves a running round with its timeout. -/
theorem timed_atomicStep {w w' : World} (steady : Steady w.self) (move : AtomicStep gen w w')
    (timed : Timed i w.self) : Timed i w'.self := by
  -- A claim sets the timeout with its round.
  refine atomicStep_keep Seat.Timed seatInnerStep_timed (fun held claim => ?_)
    (fun probe events held timeout same active idle running => ?_) steady move timed
  · cases claim with
    | kept => exact held
    | allocated => exact held
    | claimed started next _ _ _ => exact fun _ _ _ => rfl
  · have round := same active
    show probe.timeout.isSome = true
    rw [timeout]
    exact held (round ▸ active) (round ▸ idle) running

/-- An inner step ends the watch only of a process that stops. -/
theorem seatInnerStep_watching {s s' : Seat} (watching : s.Watching)
    (move : SeatInnerStep gen i s s') :
    s'.Watching := by
  -- Only a stop clears the watch.
  cases move with
  | paced runtime stopping cleaned watch =>
    exact fun running => watch (watching (stopping ▸ running))
  | stopped below =>
    intro running
    rw [Seat.stop] at running
    split at running
    all_goals cases running
  | unlisted beyond => exact fun running => by cases running
  | stoppedAgain cleaned => exact fun running => by cases running
  | connected before error startTime how active confirmed =>
    cases startTime with
    | none => exact watching
    | some time => exact watching
  | _ => exact watching

/-- An atomic step keeps the watch of a process that goes on. -/
theorem watching_atomicStep {w w' : World} (steady : Steady w.self) (move : AtomicStep gen w w')
    (watching : Watching w) : Watching w' := by
  -- The seat of any peer shows the runtime.
  have kept : (w'.self.seat 0).Watching := by
    refine atomicStep_keep Seat.Watching (fun _ => seatInnerStep_watching) (fun held claim => ?_)
      (fun _ _ held _ _ => held) steady move watching
    cases claim with
    | kept => exact held
    | allocated => exact held
    | claimed started next _ _ _ => exact held
  exact kept

/-- What every atomic step of a steady process keeps is kept by any number of them. -/
theorem atomicSteps_steady (invariant : World → Prop)
    (keeps : ∀ {w w'}, Steady w.self → AtomicStep gen w w' → invariant w → invariant w')
    {w w' : World} (steady : Steady w.self) (run : AtomicSteps gen w w') (held : invariant w) :
    Steady w'.self ∧ invariant w' := by
  -- Induction on the run.
  induction run with
  | refl => exact ⟨steady, held⟩
  | tail _ move ih => exact ⟨steady_atomicStep ih.1 move, keeps ih.1 move ih.2⟩

/-- Before and after a moment of a callback that armed a timer. -/
theorem passes_steady (invariant : World → Prop)
    (keeps : ∀ {w w'}, Steady w.self → AtomicStep gen w w' → invariant w → invariant w')
    {w w' : World} (steady : Steady w.self) (passes : Passes gen invariant w w') :
    invariant w' := by
  -- The invariant holds at some moment, and from there to the end.
  obtain ⟨mid, before, armed, after⟩ := passes
  have reached : Steady mid.self := byRounds_keep before steady
  exact (atomicSteps_steady invariant keeps reached (atomic_of_rounds after) armed).2

/-- A whole callback leaves a running round with its timeout. -/
theorem timed_callbackRun {w w' : World} (steady : Steady w.self) (course : CallbackRun gen w w')
    (timed : Timed i w.self) : Timed i w'.self := by
  have onwards : ∀ {proc : Proc}, RoundSteps gen (w.setSelf proc) w' → Steady proc →
      Timed i proc → Timed i w'.self := by
    intro proc run still armed
    rw [← self_setSelf w proc] at still armed
    exact (atomicSteps_steady (fun w => Timed i w.self) timed_atomicStep still
      (atomic_of_rounds run) armed).2
  cases course with
  | quiet _ run =>
    exact (atomicSteps_steady (fun w => Timed i w.self) timed_atomicStep steady
      (atomic_of_rounds run) timed).2
  | checked j _ passes =>
    refine onwards (passes_run passes) (steady_disarm steady j) ?_
    obtain ⟨check, seat⟩ := seat_disarm w.self j i
    show ((w.self.disarm j).seat i).Timed
    rw [seat]
    exact timed
  | timed j _ passes =>
    by_cases same : j = i
    · -- The timeout that called back is armed again, or the round is over.
      subst same
      refine passes_steady (fun w => Timed j w.self) timed_atomicStep ?_ passes
      rw [self_setSelf]
      exact steady_expire steady j
    · have kept : ((w.self.handle j { (w.self.peers j).probe with timeout :=
        none } []).seat i).Timed := by
        rw [seat_handle_other _ _ _ (fun _ member => by cases member) (Ne.symm same)]
        exact timed
      exact onwards (passes_run passes) (steady_expire steady j) kept
  | watched _ passes => exact onwards (passes_run passes) (steady_peers steady rfl) timed

/-- A whole callback keeps the watch of a process that goes on. -/
theorem watching_callbackRun {w w' : World} (steady : Steady w.self) (course : CallbackRun gen w w')
    (watching : Watching w) : Watching w' := by
  -- Only the watch itself clears the timer, and then it is set again.
  have onwards : ∀ {proc : Proc}, RoundSteps gen (w.setSelf proc) w' → Steady proc →
      proc.runtime = w.self.runtime → Watching w' := by
    intro proc run still same
    have armed : Watching (w.setSelf proc) := by
      rw [Watching, self_setSelf, same]
      exact watching
    rw [← self_setSelf w proc] at still
    exact (atomicSteps_steady Watching watching_atomicStep still (atomic_of_rounds run) armed).2
  cases course with
  | quiet _ run => exact (atomicSteps_steady Watching watching_atomicStep steady
      (atomic_of_rounds run) watching).2
  | checked j _ passes => exact onwards (passes_run passes) (steady_disarm steady j) rfl
  | timed j _ passes => exact onwards (passes_run passes) (steady_expire steady j) rfl
  | watched _ passes =>
    refine passes_steady Watching watching_atomicStep ?_ passes
    rw [self_setSelf]
    exact steady_peers steady rfl

end Timers

section Life

variable {gen : Generation} {me i : Nat} {first s : Sys}

/-- What is armed while the event loop of a process waits. -/
structure Tending (s : Sys) (me i : Nat) : Prop where
  check : Keeps s (s.procs me) i → ((s.procs me).peers i).checkEv.isSome = true
  timeout : Timed i (s.procs me)
  watch : (s.procs me).runtime.stopping = false → (s.procs me).runtime.watch.isSome = true

/-- What is armed before a callback is armed after it. -/
theorem callbackRun_tending {w w' : World} (mine : w.me = me) (sound : Sound w.sys)
    (running : w.self.status = .running) (steady : Steady w.self)
    (others : ∀ n s, OtherSteps gen me s ((w.script n).others s)) (course : CallbackRun gen w w')
    (tended : Tended i w) (timed : Timed i w.self) (watching : Watching w') :
    Tending w'.sys me i := by
  -- The three timers one by one.
  subst mine
  have self : w'.sys.procs w.me = w'.self := by rw [World.self, callbackRun_me course]
  refine ⟨?_, ?_, ?_⟩
  · rw [self]
    exact tended_callbackRun sound running others course tended
  · rw [self]
    exact timed_callbackRun steady course timed
  · rw [self]
    exact watching

/-- In every life the timers are armed that have to be. -/
theorem life_tending (initial : Initial gen first) (life : WorkerLife gen me first s) :
    Tending s me i := by
  have soundly : ∀ {s}, Steps gen first s → Sound s := fun run =>
    (settled_steps (settled_initial initial) run).sound
  -- Induction on the life: each callback leaves the timers it found armed, or arms them again.
  induction life with
  | started w w' pid worker mine begins fresh others returned =>
    have steady : Steady w.self := by
      rw [fresh]
      exact steady_start pid worker
    refine callbackRun_tending mine (soundly begins) (congrArg Proc.status fresh) steady others
      (.quiet w' (callbackRun_started returned)) (fun keeps => ?_) ?_
      (along_returned byInner_runtimeInit returned).2
    · -- A process that starts is not registered.
      have registered := keeps.registered
      rw [fresh] at registered
      cases registered
    · rw [fresh]
      exact fun active => by cases active
  | others s s' life moved ih =>
    obtain ⟨run, same⟩ := steps_others moved
    rw [setProc_same same]
    refine ⟨fun keeps => ?_, ?_, ?_⟩
    · rw [same] at keeps ⊢
      exact ih.check (keeps_others (soundly (life_steps life).1) moved keeps)
    · rw [same]
      exact ih.timeout
    · rw [same]
      exact ih.watch
  | called callback w w' mine life others returned ih =>
    obtain ⟨run, running⟩ := life_steps life
    have self : w.self = w.sys.procs me := by rw [World.self, mine]
    have steady : Steady w.self := self ▸ life_steady life
    have course : CallbackRun gen w w' := callbackRun_callback callback steady () w' returned
    refine callbackRun_tending mine (soundly run) (self ▸ running) steady others course ?_ ?_ ?_
    · rw [Tended, self]
      exact ih.check
    · rw [self]
      exact ih.timeout
    · refine watching_callbackRun steady course ?_
      rw [Watching, self]
      exact ih.watch

/-- The process that a record names, with its registration in place, is the owner of the peer. -/
theorem keeps_of_named (settled : Settled s) (running : (s.procs me).runtime.stopping = false)
    (listed : (s.procs me).runtime.registered = true) (registration : Registered s (s.procs me))
    (worker : (s.record i).worker = (s.procs me).runtime.worker)
    (inst : (s.record i).inst = (s.procs me).runtime.inst) : Keeps s (s.procs me) i := by
  -- The record names the process, so its round is the acknowledged one.
  have consistent := settled.sound.consistent i
  have number := settled.acknowledged i me listed worker inst
  have positive : 1 ≤ (s.procs me).runtime.inst :=
    (settled.sound.registrations.enrolled me listed).1
  have claimed : ((s.core me).rounds i).number ≠ 0 := by
    rw [number]
    intro unclaimed
    have none := consistent.inst.mpr unclaimed
    rw [inst] at none
    omega
  have claim := consistent.matched me claimed number
  exact ⟨running, listed, registration, worker, inst, congrArg Claim.inst claim,
    congrArg Claim.term claim, number⟩

/-- No peer is orphaned, in every life of a worker among any others: while the event loop waits,
the process that a peer's record names, and whose registration is in place, has the timer of the
peer's next round; a running round has its timeout and does not wait for its submission; a round
that waits has the watch to submit it. -/
theorem no_orphan (initial : Initial gen first) (life : WorkerLife gen me first s)
    (listed : i < gen.nelts) :
    ((s.procs me).runtime.stopping = false → (s.procs me).runtime.registered = true →
      Registered s (s.procs me) → (s.record i).worker = (s.procs me).runtime.worker →
      (s.record i).inst = (s.procs me).runtime.inst →
      ((s.procs me).peers i).checkEv.isSome = true) ∧
    (((s.procs me).round i).active = true →
      ((s.procs me).peers i).probe.timeout.isSome = true) ∧
    ¬ (((s.procs me).round i).active = true ∧ ((s.procs me).round i).pending = true) ∧
    (((s.procs me).round i).pending = true → (s.procs me).runtime.watch.isSome = true) := by
  -- The timers are those of a tended life.
  obtain ⟨check, timeout, watch⟩ : Tending s me i := life_tending initial life
  have settled := settled_steps (settled_initial initial) (life_steps life).1
  have single := (life_steady life i).single
  have goes : ((s.procs me).round i).active = true ∨ ((s.procs me).round i).pending = true →
      (s.procs me).runtime.stopping = false := by
    intro busy
    rw [Bool.eq_false_iff]
    intro stops
    obtain ⟨past, idle, _⟩ := stopping_idle life listed stops
    rw [past, idle] at busy
    simp at busy
  refine ⟨fun running registered registration worker inst => ?_, fun active => ?_,
    fun ⟨active, pending⟩ => ?_, fun pending => watch (goes (.inr pending))⟩
  · exact check (keeps_of_named settled running registered registration worker inst)
  · exact timeout active (single active) (goes (.inl active))
  · have settles : ((s.procs me).round i).pending = false := single active
    rw [settles] at pending
    cases pending

/-- A worker with a running round and both of its timers. -/
theorem no_orphan_claimed : ∃ s, claimedLife = some s ∧
    ((s.procs 0).round 0).active = true ∧ ((s.procs 0).peers 0).checkEv.isSome = true ∧
    ((s.procs 0).peers 0).probe.timeout.isSome = true := by
  -- The life is computed, and the theorem names the timers at its end.
  have noted : (claimedLife.map fun s => (((s.procs 0).round 0).active,
      (s.procs 0).runtime.stopping, (s.procs 0).runtime.registered)) =
      some (true, false, true) := by decide +kernel
  have enrolled : (claimedLife.map fun s => ((s.slot (s.procs 0).runtime.worker).inst ==
      (s.procs 0).runtime.inst && !(s.slot (s.procs 0).runtime.worker).exiting &&
      (s.slot (s.procs 0).runtime.worker).pid == (s.procs 0).pid &&
      (s.record 0).worker == (s.procs 0).runtime.worker &&
      (s.record 0).inst == (s.procs 0).runtime.inst)) = some true := by decide +kernel
  obtain ⟨s, ran, state⟩ := Option.map_eq_some_iff.mp noted
  obtain ⟨active, running, listed⟩ : _ ∧ _ ∧ _ := by simpa using state
  rw [ran] at enrolled
  obtain ⟨⟨⟨⟨mine, leaving⟩, number⟩, worker⟩, inst⟩ : (((_ ∧ _) ∧ _) ∧ _) ∧ _ := by
    simpa using enrolled
  obtain ⟨check, timeout, _⟩ := no_orphan (fresh_initial sample) (worker_claimedLife ran)
    (by decide : 0 < sample.nelts)
  exact ⟨s, ran, active, check running listed ⟨mine, leaving, number⟩ worker inst, timeout active⟩

end Life

end Healthcheck
