import Healthcheck.System.Move

/-!
A step as one peer sees it: its record, its part of the history, and the local rounds the processes
keep for it. Moves on other peers are quiet here.
-/

namespace Healthcheck

/-- The protocol part of a process of the system. -/
def Sys.core (s : Sys) (p : Nat) : Core :=
  (s.procs p).core

/-- The peer an event is about; registrations concern no single peer. -/
def Event.peer : Event → Option Nat
  | .registered _ _ _ => none
  | .exited _ _ _ => none
  | .claimed _ i _ _ _ _ => some i
  | .inflight _ i _ _ => some i
  | .frozen _ i _ _ _ => some i
  | .committed _ i _ _ _ _ => some i

/-- The history of one peer, newest first. -/
def Sys.events (s : Sys) (i : Nat) : List Event :=
  s.trace.filter fun event => event.peer = some i

/-- What a move changes of the registrations. -/
inductive Enrolls (p : Nat) (s s' : Sys) : Prop
  | same (slots : ∀ worker, (s'.slot worker).inst = (s.slot worker).inst)
      (registered : (s'.core p).registered = (s.core p).registered)
      (worker : (s'.core p).worker = (s.core p).worker) (inst : (s'.core p).inst = (s.core p).inst)
      (pid : (s'.core p).pid = (s.core p).pid) (status : (s'.core p).status = (s.core p).status)
      (exiting : ∀ worker, (s.slot worker).exiting = true → (s'.slot worker).exiting = true)
  | opened (fresh : (s.core p).registered = false)
      (slot : (s'.slot (s.core p).worker).inst = (s.slot (s.core p).worker).inst + 1)
      (others : ∀ worker, worker ≠ (s.core p).worker → s'.slot worker = s.slot worker)
      (records : ∀ i, s'.record i = s.record i)
      (core : s'.core p = { s.core p with
        inst := (s.slot (s.core p).worker).inst + 1, registered := true })

/-- What a move of a process changes of one peer. -/
inductive Touches (gen : Generation) (p i : Nat) (s s' : Sys) : Prop
  | kept (record : s'.record i = s.record i) (events : s'.events i = s.events i)
      (round : ((s.core p).rounds i).Quieter ((s'.core p).rounds i))
  | claimed (takeover : Option PeerState) (started : Nat)
      (registered : (s.core p).registered = true)
      (claimable : Claimable gen s (s.procs p) i takeover started)
      (read : ∃ t ∈ (s'.procs p).readings, t ≤ uint64Max ∧ started = milliseconds t)
      (record : s'.record i =
        claimState (gen.conf i) (s.procs p).runtime (s.procs p).pid started (s.record i))
      (events : s'.events i = .claimed p i takeover started (s.record i)
        (s'.record i) :: s.events i)
      (round : (s'.core p).rounds i =
        claimedRound gen started (s'.record i) ((s.core p).rounds i))
  | prepared (t : Nat) (tcp : (gen.conf i).checkType = .tcp)
      (record : s'.record i = s.record i) (events : s'.events i = s.events i)
      (read : (s'.procs p).readings = t :: (s.procs p).readings)
      (round : (s'.core p).rounds i = { (s.core p).rounds i with
        deadline := addTime (milliseconds t) (gen.conf i).checkTimeout })
  | progressed (owned : Owned gen s (s.procs p) i) (preparing : (s.record i).phase = .preparing)
      (record : s'.record i = inflightState ((s.core p).rounds i).deadline (s.record i))
      (events : s'.events i = .inflight p i (s.record i) (s'.record i) :: s.events i)
      (round : (s'.core p).rounds i = { (s.core p).rounds i with waitingPublished := true })
  | froze (result : Bool) (delay : Option Nat) (active : ((s.core p).rounds i).active = true)
      (idle : ((s.core p).rounds i).pending = false) (record : s'.record i = s.record i)
      (events : s'.events i =
        .frozen p i ((s.core p).rounds i).number result delay :: s.events i)
      (round : (s'.core p).rounds i = frozenRound result delay ((s.core p).rounds i))
      (sample : delay.isSome = true → (gen.conf i).checkType = .tcp)
  | committed (submitted : Nat) (owned : Owned gen s (s.procs p) i)
      (pending : ((s.core p).rounds i).pending = true)
      (stage : (s.record i).phase = .preparing ∨ (s.record i).phase = .inflight)
      (record : s'.record i = submitState gen.word (gen.conf i) ((s.core p).rounds i).result
        ((s.core p).rounds i).sampled submitted (s.record i))
      (events : s'.events i = .committed p i ((s.core p).rounds i).result
        ((s.core p).rounds i).sampled (s.record i) (s'.record i) :: s.events i)
      (round : (s'.core p).rounds i = { (s.core p).rounds i with pending := false })

section Shared

variable {s s' : Sys}

/-- Without a change of the shared memory the records are the same. -/
theorem record_same (shared : s'.shared = s.shared) (i : Nat) : s'.record i = s.record i := by
  -- A record is read from the shared memory.
  rw [Sys.record, Sys.record, shared]

/-- Without a change of the shared memory the slots are the same. -/
theorem slot_same (shared : s'.shared = s.shared) (worker : Nat) :
    s'.slot worker = s.slot worker := by
  -- A slot is read from the shared memory.
  rw [Sys.slot, Sys.slot, shared]

/-- An activation keeps the records. -/
theorem record_activated {reading : Nat} (shared : s'.shared = s.shared.activate reading)
    (i : Nat) : s'.record i = s.record i := by
  -- It sets the instant or nothing.
  rw [Sys.record, Sys.record, shared]
  unfold Shared.activate
  split <;> rfl

/-- An activation keeps the slots. -/
theorem slot_activated {reading : Nat} (shared : s'.shared = s.shared.activate reading)
    (worker : Nat) : s'.slot worker = s.slot worker := by
  -- It sets the instant or nothing.
  rw [Sys.slot, Sys.slot, shared]
  unfold Shared.activate
  split <;> rfl

/-- A published slot keeps the records. -/
theorem record_enrolled {worker : Nat} {state : WorkerState}
    (shared : s'.shared = s.shared.enroll worker state) (i : Nat) :
    s'.record i = s.record i := by
  -- They are stored apart.
  rw [Sys.record, Sys.record, shared]
  rfl

/-- A published slot is read back. -/
theorem slot_enrolled {worker : Nat} {state : WorkerState}
    (shared : s'.shared = s.shared.enroll worker state) : s'.slot worker = state := by
  -- An update at its own place.
  simp [Sys.slot, shared, Shared.enroll]

/-- The other slots are as they were. -/
theorem slot_enrolled_other {worker number : Nat} {state : WorkerState}
    (shared : s'.shared = s.shared.enroll worker state) (other : number ≠ worker) :
    s'.slot number = s.slot number := by
  -- An update at another place.
  simp [Sys.slot, shared, Shared.enroll, other]

/-- A published record is read back. -/
theorem record_published {i : Nat} {state : PeerState}
    (shared : s'.shared = s.shared.publishPeer i state) : s'.record i = state := by
  -- An update at its own place.
  simp [Sys.record, shared, Shared.publishPeer]

/-- The other records are as they were. -/
theorem record_published_other {i j : Nat} {state : PeerState}
    (shared : s'.shared = s.shared.publishPeer i state) (other : j ≠ i) :
    s'.record j = s.record j := by
  -- An update at another place.
  simp [Sys.record, shared, Shared.publishPeer, other]

/-- A published record keeps the slots. -/
theorem slot_published {i : Nat} {state : PeerState}
    (shared : s'.shared = s.shared.publishPeer i state) (worker : Nat) :
    s'.slot worker = s.slot worker := by
  -- They are stored apart.
  rw [Sys.slot, Sys.slot, shared]
  rfl

/-- Without a new event the history of a peer is the same. -/
theorem events_same (trace : s'.trace = s.trace) (i : Nat) : s'.events i = s.events i := by
  -- It is a part of the whole history.
  rw [Sys.events, Sys.events, trace]

/-- An event of the peer goes in front of its history. -/
theorem events_cons {event : Event} {i : Nat} (trace : s'.trace = event :: s.trace)
    (about : event.peer = some i) : s'.events i = event :: s.events i := by
  -- It passes the filter.
  simp [Sys.events, trace, about]

/-- An event of another peer is left out. -/
theorem events_other {event : Event} {i : Nat} (trace : s'.trace = event :: s.trace)
    (about : event.peer ≠ some i) : s'.events i = s.events i := by
  -- It does not pass the filter.
  simp [Sys.events, trace, about]

end Shared

/-- Renewing or ending a registration keeps every instance number. -/
theorem slot_inst_enrolled {s s' : Sys} {worker : Nat} {state : WorkerState}
    (shared : s'.shared = s.shared.enroll worker state)
    (kept : state.inst = (s.slot worker).inst) (number : Nat) :
    (s'.slot number).inst = (s.slot number).inst := by
  -- The slot that was written keeps its instance, too.
  by_cases same : number = worker
  · rw [same, slot_enrolled shared, kept]
  · rw [slot_enrolled_other shared same]

/-- A round that was set is read back. -/
@[simp] theorem setRound_rounds (core : Core) (i : Nat) (round : Round) :
    (core.setRound i round).rounds i = round := by
  -- An update at its own place.
  simp [Core.setRound]

/-- The other rounds are as they were. -/
theorem setRound_rounds_other (core : Core) {i j : Nat} (round : Round) (other : j ≠ i) :
    (core.setRound i round).rounds j = core.rounds j := by
  -- An update at another place.
  simp [Core.setRound, other]

/-- Only a first registration changes an instance number or the identity of a process. -/
theorem Move.enrolls {gen : Generation} {p : Nat} {s s' : Sys} (move : Move gen p s s') :
    Enrolls p s s' := by
  -- Changing one round leaves the identity of the process.
  have within : ∀ {i round}, (s'.procs p).core = (s.procs p).core.setRound i round →
      (∀ worker, s'.slot worker = s.slot worker) → Enrolls p s s' := by
    intro i round core slots
    refine .same (fun worker => by rw [slots]) ?_ ?_ ?_ ?_ ?_ (fun worker gone => ?_)
    · simp only [Sys.core, core]
      rfl
    · simp only [Sys.core, core]
      rfl
    · simp only [Sys.core, core]
      rfl
    · simp only [Sys.core, core]
      rfl
    · simp only [Sys.core, core]
      rfl
    · rwa [slots]
  -- So does renewing or ending its registration.
  have marks : ∀ {state}, (s'.procs p).core = (s.procs p).core →
      s'.shared = s.shared.enroll (s.procs p).runtime.worker state →
      state.inst = (s.slot (s.procs p).runtime.worker).inst →
      ((s.slot (s.procs p).runtime.worker).exiting = true → state.exiting = true) →
      Enrolls p s s' := by
    intro state core shared inst exiting
    refine .same (slot_inst_enrolled shared inst) ?_ ?_ ?_ ?_ ?_ (fun worker gone => ?_)
    · simp only [Sys.core, core]
    · simp only [Sys.core, core]
    · simp only [Sys.core, core]
    · simp only [Sys.core, core]
    · simp only [Sys.core, core]
    · by_cases same : worker = (s.procs p).runtime.worker
      · rw [same, slot_enrolled shared]
        exact exiting (same ▸ gone)
      · rwa [slot_enrolled_other shared same]
  cases move with
  | quiet shared _ core =>
    exact .same (fun worker => by rw [slot_same shared]) core.registered core.worker core.inst
      core.pid core.status (fun worker gone => by rwa [slot_same shared])
  | activated _ shared _ core =>
    have slots := slot_activated shared
    refine .same (fun worker => by rw [slots]) ?_ ?_ ?_ ?_ ?_ (fun worker gone => by rwa [slots])
    all_goals simp only [Sys.core, core]
  | opened _ fresh _ shared _ core =>
    refine .opened fresh ?_ (fun worker other => ?_) (record_enrolled shared) core
    · exact congrArg WorkerState.inst (slot_enrolled shared)
    · exact slot_enrolled_other shared other
  | renewed _ _ _ shared _ core => exact marks core shared rfl id
  | retired _ _ _ shared _ core => exact marks core shared rfl (fun _ => rfl)
  | claimed i _ _ _ _ _ _ _ shared _ core => exact within core (slot_published shared)
  | prepared i _ _ shared _ _ core => exact within core (slot_same shared)
  | progressed i _ _ _ _ shared _ core => exact within core (slot_published shared)
  | froze i _ _ _ _ shared _ core => exact within core (slot_same shared)
  | committed i _ _ _ _ _ _ shared _ core => exact within core (slot_published shared)

/-- A move on another peer, or on none, is quiet for this one. -/
theorem Move.touches {gen : Generation} {p : Nat} {s s' : Sys} (move : Move gen p s s')
    (i : Nat) : Touches gen p i s s' := by
  -- Quiet moves first: nothing of the peer changes but, perhaps, a local round that ends.
  have quiet : ∀ {round}, s'.record i = s.record i → s'.events i = s.events i →
      (s'.procs p).core.rounds i = round → ((s.procs p).core.rounds i).Quieter round →
      Touches gen p i s s' := by
    intro round record events rounds quieter
    refine .kept record events ?_
    rw [Sys.core, Sys.core, rounds]
    exact quieter
  have kept : s'.record i = s.record i → s'.events i = s.events i →
      (s'.procs p).core.rounds i = (s.procs p).core.rounds i → Touches gen p i s s' :=
    fun record events rounds => quiet record events rounds (Round.Quieter.refl _)
  cases move with
  | quiet shared trace core =>
    exact quiet (record_same shared i) (events_same trace i) rfl (core.rounds i)
  | activated _ shared trace core =>
    exact kept (record_activated shared i) (events_same trace i) (by rw [core])
  | opened _ _ _ shared trace core =>
    exact kept (record_enrolled shared i) (events_other trace (by simp [Event.peer]))
      (by rw [core])
  | renewed _ _ _ shared trace core =>
    exact kept (record_enrolled shared i) (events_same trace i) (by rw [core])
  | retired _ _ _ shared trace core =>
    exact kept (record_enrolled shared i) (events_other trace (by simp [Event.peer]))
      (by rw [core])
  | claimed j takeover started next registered claimable read state shared trace core =>
    by_cases same : j = i
    · subst same
      have record := record_published shared
      refine .claimed takeover started registered claimable read (record.trans state) ?_ ?_
      · rw [record]
        exact events_cons trace rfl
      · rw [record, Sys.core, core, setRound_rounds]
        rfl
    · exact kept (record_published_other shared (Ne.symm same))
        (events_other trace (by simp [Event.peer, same]))
        (by rw [core, setRound_rounds_other _ _ (Ne.symm same)])
  | prepared j t tcp shared trace read core =>
    by_cases same : j = i
    · subst same
      refine .prepared t tcp (record_same shared j) (events_same trace j) read ?_
      rw [Sys.core, core, setRound_rounds]
      rfl
    · exact kept (record_same shared i) (events_same trace i)
        (by rw [core, setRound_rounds_other _ _ (Ne.symm same)])
  | progressed j next owned preparing state shared trace core =>
    by_cases same : j = i
    · subst same
      have record := record_published shared
      refine .progressed owned preparing (record.trans state) ?_ ?_
      · rw [record]
        exact events_cons trace rfl
      · rw [Sys.core, core, setRound_rounds]
        rfl
    · exact kept (record_published_other shared (Ne.symm same))
        (events_other trace (by simp [Event.peer, same]))
        (by rw [core, setRound_rounds_other _ _ (Ne.symm same)])
  | froze j result delay active idle shared trace core sample =>
    by_cases same : j = i
    · subst same
      refine .froze result delay active idle (record_same shared j)
        (events_cons trace rfl) ?_ sample
      rw [Sys.core, core, setRound_rounds]
      rfl
    · exact kept (record_same shared i) (events_other trace (by simp [Event.peer, same]))
        (by rw [core, setRound_rounds_other _ _ (Ne.symm same)])
  | committed j submitted next owned pending stage state shared trace core =>
    by_cases same : j = i
    · subst same
      have record := record_published shared
      refine .committed submitted owned pending stage (record.trans state) ?_ ?_
      · rw [record]
        exact events_cons trace rfl
      · rw [Sys.core, core, setRound_rounds]
        rfl
    · exact kept (record_published_other shared (Ne.symm same))
        (events_other trace (by simp [Event.peer, same]))
        (by rw [core, setRound_rounds_other _ _ (Ne.symm same)])

end Healthcheck
