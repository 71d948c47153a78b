import Healthcheck.System.History

/-!
Fencing: instance numbers and terms only grow, and whoever publishes a peer's record is, at that
moment, the registered process whose claim the record names.
-/

namespace Healthcheck

open Program Trace

/-- The process that published a record. -/
def Event.publisher : Event → Option Nat
  | .registered _ _ _ => none
  | .exited _ _ _ => none
  | .claimed p _ _ _ _ _ => some p
  | .inflight p _ _ _ => some p
  | .frozen _ _ _ _ _ => none
  | .committed p _ _ _ _ _ => some p

/-- A process whose latest registration, in a history, is this one, and which has not exited. -/
structure Holds (p worker inst : Nat) (history : List Event) : Prop where
  registered : .registered p worker inst ∈ history
  newest : ∀ q other, .registered q worker other ∈ history → other ≤ inst
  running : ∀ q, .exited q worker inst ∉ history

/-- Only the holder of a worker number publishes, under its own name; a regular claim finds its
worker number with instance zero or its own; a process marks only its own registration as exiting. -/
structure Entitled (event : Event) (past : List Event) : Prop where
  holds : ∀ p, event.publisher = some p → ∃ worker inst, Holds p worker inst past ∧
    (∀ before after, event.publication = some (before, after) →
      after.worker = worker ∧ after.inst = inst) ∧
    ∀ i now before after, event = .claimed p i none now before after →
      before.worker = worker ∧ (before.inst = 0 ∨ before.inst = inst)
  exits : ∀ p worker inst, event = .exited p worker inst → .registered p worker inst ∈ past

/-- Registrations of a worker number are given out in increasing order. -/
def Later (newer older : Event) : Prop :=
  ∀ p q worker inst inst', newer = .registered p worker inst →
    older = .registered q worker inst' → inst' < inst

/-- The latest claim of a peer's history. -/
def latestClaim : List Event → Option (Nat × PeerState)
  | [] => none
  | .claimed p _ _ _ _ after :: _ => some (p, after)
  | _ :: older => latestClaim older

/-- Progress and commits continue the latest claim, by its own claimant. -/
def Continues (event : Event) (past : List Event) : Prop :=
  ∀ p i before after result sample,
    event = .inflight p i before after ∨ event = .committed p i result sample before after →
      ∃ claimed, latestClaim past = some (p, claimed) ∧ claimed.claim = before.claim

/-- The older of two records has the smaller term, or the same term and the same owner. -/
def Owns (newer older : PeerState) : Prop :=
  older.term ≤ newer.term ∧
    (older.term = newer.term → older.worker = newer.worker ∧ older.inst = newer.inst)

/-- Ownership is handed on along terms that do not decrease. -/
theorem Owns.trans {a b c : PeerState} (first : Owns a b) (second : Owns b c) : Owns a c := by
  -- With equal terms at both ends all three are equal.
  obtain ⟨below, same⟩ := first
  obtain ⟨below', same'⟩ := second
  refine ⟨by omega, fun equal => ?_⟩
  obtain ⟨worker, inst⟩ := same (by omega)
  obtain ⟨worker', inst'⟩ := same' (by omega)
  exact ⟨worker'.trans worker, inst'.trans inst⟩

/-- Every transition of the phase machine keeps the order of the terms. -/
theorem owns_of_follows {event : Event} {before after : PeerState} (follows : event.Follows)
    (publication : event.publication = some (before, after)) : Owns after before := by
  -- Only a claim changes the owner, and then the term is a new one.
  have kept : after.term = before.term → after.worker = before.worker →
      after.inst = before.inst → Owns after before := by
    intro term worker inst
    exact ⟨by omega, fun _ => ⟨worker.symm, inst.symm⟩⟩
  cases event with
  | registered _ _ _ => cases publication
  | exited _ _ _ => cases publication
  | frozen _ _ _ _ _ => cases publication
  | claimed _ _ takeover now b a =>
    cases publication
    by_cases same : after.worker = before.worker ∧ after.inst = before.inst
    · exact kept (follows.stayed same) same.1 same.2
    · have raised : after.term = before.term + 1 := by
        refine follows.moved ?_
        by_contra neither
        exact same (by simpa [not_or] using neither)
      exact ⟨by omega, fun equal => by omega⟩
  | inflight _ _ b a =>
    cases publication
    exact kept (by rw [follows.rest]) (by rw [follows.rest]) (by rw [follows.rest])
  | committed _ _ _ _ b a =>
    cases publication
    exact kept (by rw [follows.rest]) (by rw [follows.rest]) (by rw [follows.rest])

/-- A peer's records, newest first: terms never grow backwards, and one term has one owner. -/
theorem owns_reachable {gen : Generation} {s₀ s : Sys} (initial : Initial gen s₀)
    (run : Steps gen s₀ s) (i : Nat) :
    (values (s₀.record i) (s.published i)).Pairwise Owns := by
  -- Neighbours in the chain are related, and the relation is transitive.
  refine linked_pairwise (R := Owns) (fun first second => first.trans second)
    (linked_reachable initial run i) (fun link member => ?_)
  obtain ⟨event, found, publication⟩ := List.mem_filterMap.mp member
  exact owns_of_follows (follows_reachable initial run i event found) publication

/-- A process whose local round the record names has registered and still holds its slot. -/
theorem owned_holder {gen : Generation} {s : Sys} {p i : Nat} (inv : Consistent s i)
    (owned : Owned gen s (s.procs p) i) (stage : (s.record i).phase ≠ .initial) :
    ((s.core p).rounds i).number ≠ 0 ∧ (s.core p).registered = true ∧
      Registered s (s.procs p) ∧ (s.core p).claim i = (s.record i).claim := by
  -- A round with a number has the claim of its record.
  have number : ((s.core p).rounds i).number = (s.record i).round := owned.number.symm
  have positive : ((s.core p).rounds i).number ≠ 0 := by
    rw [number]
    exact fun zero => stage (inv.initial.mpr zero)
  obtain ⟨registered, inst⟩ := inv.named p positive
  exact ⟨positive, registered, ⟨owned.slotInst.trans inst, owned.exiting, owned.pid⟩,
    inv.matched p positive number⟩

/-- What a move adds to the history of the generation. -/
inductive Logs (p : Nat) (s s' : Sys) : Prop
  | silent (trace : s'.trace = s.trace) (enrolls : (s'.core p).registered = (s.core p).registered)
  | registered (fresh : (s.core p).registered = false)
      (trace : s'.trace = .registered p (s.core p).worker
        ((s.slot (s.core p).worker).inst + 1) :: s.trace)
      (core : s'.core p = { s.core p with
        inst := (s.slot (s.core p).worker).inst + 1, registered := true })
  | exited (mine : (s.core p).registered = true)
      (inst : (s.slot (s.core p).worker).inst = (s.core p).inst)
      (marked : (s'.slot (s.core p).worker).exiting = true)
      (trace : s'.trace = .exited p (s.core p).worker (s.core p).inst :: s.trace)
      (enrolls : (s'.core p).registered = (s.core p).registered)
  | froze (i number : Nat) (result : Bool) (sample : Option Nat)
      (trace : s'.trace = .frozen p i number result sample :: s.trace)
      (enrolls : (s'.core p).registered = (s.core p).registered)
  | published (event : Event) (publisher : event.publisher = some p)
      (mine : (s.core p).registered = true) (registered : Registered s (s.procs p))
      (names : ∀ before after, event.publication = some (before, after) →
        after.worker = (s.core p).worker ∧ after.inst = (s.core p).inst)
      (regular : ∀ i now before after, event = .claimed p i none now before after →
        before.worker = (s.core p).worker ∧
          (before.inst = 0 ∨ before.inst = (s.core p).inst))
      (trace : s'.trace = event :: s.trace)
      (enrolls : (s'.core p).registered = (s.core p).registered)

/-- A step of a process logs at most one registration or exit of its own. -/
theorem Move.logs {gen : Generation} {p : Nat} {s s' : Sys} (inv : Sound s)
    (move : Move gen p s s') : Logs p s s' := by
  -- One case for each kind of step.
  have within : ∀ {i round}, (s'.procs p).core = (s.procs p).core.setRound i round →
      (s'.core p).registered = (s.core p).registered := by
    intro i round core
    rw [Sys.core, core]
    rfl
  have shared_ : (s'.procs p).core = (s.procs p).core →
      (s'.core p).registered = (s.core p).registered := by
    intro core
    rw [Sys.core, core]
    rfl
  cases move with
  | quiet _ trace core => exact .silent trace core.registered
  | activated _ _ trace core => exact .silent trace (shared_ core)
  | opened _ fresh _ _ trace core => exact .registered fresh trace core
  | renewed _ _ _ _ trace core => exact .silent trace (shared_ core)
  | retired mine pid inst shared trace core =>
    refine .exited mine inst ?_ ?_ (shared_ core)
    · exact congrArg WorkerState.exiting (slot_enrolled shared)
    · rw [trace, inst]
      rfl
  | claimed i takeover started next mine claimable _ state _ trace core =>
    refine .published _ rfl mine claimable.registration ?_ ?_ trace (within core)
    · intro before after publication
      cases publication
      rw [state]
      exact ⟨rfl, rfl⟩
    · intro j now before after same
      cases same
      obtain ⟨_, _, rule⟩ := claimTest_ok claimable.test
      exact ⟨rule.worker, rule.inst⟩
  | prepared i t _ _ trace _ core => exact .silent trace (within core)
  | progressed i next owned preparing state _ trace core =>
    obtain ⟨positive, mine, registered, _⟩ := owned_holder (inv.consistent i) owned
      (by rw [preparing]; decide)
    have inst := ((inv.consistent i).named p positive).2
    refine .published _ rfl mine registered ?_ ?_ trace (within core)
    · intro before after publication
      cases publication
      rw [state]
      exact ⟨owned.worker, owned.inst.trans inst⟩
    · intro j now before after same
      cases same
  | froze i result delay _ _ _ trace core => exact .froze i _ result delay trace (within core)
  | committed i submitted next owned pending stage state _ trace core =>
    obtain ⟨positive, mine, registered, _⟩ := owned_holder (inv.consistent i) owned
      (by rcases stage with stage | stage <;> rw [stage] <;> decide)
    have inst := ((inv.consistent i).named p positive).2
    refine .published _ rfl mine registered ?_ ?_ trace (within core)
    · intro before after publication
      cases publication
      rw [state]
      exact ⟨owned.worker, owned.inst.trans inst⟩
    · intro j now before after same
      cases same

/-- The history tells of every registration, and everything in it was entitled to happen. -/
structure Recorded (s : Sys) : Prop where
  registered : ∀ p worker inst, .registered p worker inst ∈ s.trace →
    (s.core p).registered = true ∧ (s.core p).worker = worker ∧ (s.core p).inst = inst
  logged : ∀ p, (s.core p).registered = true →
    .registered p (s.core p).worker (s.core p).inst ∈ s.trace
  exited : ∀ p worker inst, .exited p worker inst ∈ s.trace → inst ≤ (s.slot worker).inst ∧
    ((s.slot worker).inst = inst → (s.slot worker).exiting = true)
  ordered : s.trace.Pairwise Later
  entitled : Along Entitled s.trace

/-- Nothing is recorded in a fresh system. -/
theorem recorded_initial {gen : Generation} {s : Sys} (initial : Initial gen s) :
    Recorded s := by
  -- There is no event and no registered process.
  have empty := initial.trace
  have cores : ∀ p, (s.core p).registered = false := by
    intro p
    rw [Sys.core, initial.procs]
    rfl
  refine ⟨?_, fun p mine => ?_, ?_, ?_, ?_⟩
  · simp [empty]
  · rw [cores p] at mine
    cases mine
  · simp [empty]
  · simp [empty]
  · rw [empty]
    exact along_nil Entitled

/-- A registered process holds its worker number as long as its slot says so. -/
theorem holds_of_registered {s : Sys} {p : Nat} (inv : Registrations s) (recorded : Recorded s)
    (mine : (s.core p).registered = true) (registered : Registered s (s.procs p)) :
    Holds p (s.core p).worker (s.core p).inst s.trace := by
  -- Another process with the same slot and instance would be registered there as well.
  have slot : (s.slot (s.core p).worker).inst = (s.core p).inst := registered.inst
  refine ⟨recorded.logged p mine, fun q other member => ?_, fun q member => ?_⟩
  · obtain ⟨theirs, worker, inst⟩ := recorded.registered q _ _ member
    have bound := (inv.enrolled q theirs).2
    rw [worker, inst, slot] at bound
    exact bound
  · have marked := (recorded.exited q _ _ member).2 slot
    have running : (s.slot (s.core p).worker).exiting = false := registered.exiting
    rw [running] at marked
    cases marked

/-- Slots move forward only: a number grows, or stays with an exit that stays. -/
theorem exited_step {p : Nat} {s s' : Sys} (enrolls : Enrolls p s s') (worker inst : Nat)
    (before : inst ≤ (s.slot worker).inst ∧
      ((s.slot worker).inst = inst → (s.slot worker).exiting = true)) :
    inst ≤ (s'.slot worker).inst ∧
      ((s'.slot worker).inst = inst → (s'.slot worker).exiting = true) := by
  -- An instance that left is marked or was passed.
  obtain ⟨bound, marked⟩ := before
  cases enrolls with
  | same slots _ _ _ _ _ exiting =>
    rw [slots]
    exact ⟨bound, fun same => exiting worker (marked same)⟩
  | opened fresh slot others =>
    by_cases ours : worker = (s.core p).worker
    · subst ours
      exact ⟨by omega, fun same => by omega⟩
    · rw [others worker ours]
      exact ⟨bound, marked⟩

/-- A registration, once made, is a process's own for good. -/
theorem registered_kept {p q : Nat} {s s' : Sys} (frame : Frame p s s')
    (enrolls : Enrolls p s s') (mine : (s.core q).registered = true) :
    (s'.core q).registered = true ∧ (s'.core q).worker = (s.core q).worker ∧
      (s'.core q).inst = (s.core q).inst := by
  -- Only the process of the step may change its registration.
  by_cases same : q = p
  · subst same
    cases enrolls with
    | same _ registered worker inst => exact ⟨registered.trans mine, worker, inst⟩
    | opened fresh =>
      rw [fresh] at mine
      cases mine
  · rw [core_other frame same]
    exact ⟨mine, rfl, rfl⟩

/-- A step that adds nothing to the history leaves what the history tells as it was. -/
theorem recorded_silent {s s' : Sys} (recorded : Recorded s)
    (kept : ∀ q, (s.core q).registered = true → (s'.core q).registered = true ∧
      (s'.core q).worker = (s.core q).worker ∧ (s'.core q).inst = (s.core q).inst)
    (back : ∀ q, (s'.core q).registered = true → (s.core q).registered = true)
    (exited : ∀ worker inst, inst ≤ (s.slot worker).inst ∧
      ((s.slot worker).inst = inst → (s.slot worker).exiting = true) →
      inst ≤ (s'.slot worker).inst ∧
        ((s'.slot worker).inst = inst → (s'.slot worker).exiting = true))
    (trace : s'.trace = s.trace) : Recorded s' := by
  -- The history is the same, so each part goes over.
  refine ⟨fun q worker inst member => ?_, fun q mine => ?_, fun q worker inst member => ?_, ?_, ?_⟩
  · rw [trace] at member
    obtain ⟨mine, named, number⟩ := recorded.registered q worker inst member
    obtain ⟨still, worker', inst'⟩ := kept q mine
    exact ⟨still, worker'.trans named, inst'.trans number⟩
  · obtain ⟨_, worker', inst'⟩ := kept q (back q mine)
    rw [worker', inst', trace]
    exact recorded.logged q (back q mine)
  · rw [trace] at member
    exact exited worker inst (recorded.exited q worker inst member)
  · rw [trace]
    exact recorded.ordered
  · rw [trace]
    exact recorded.entitled

/-- An entitled event that is no registration may be added to the history. -/
theorem recorded_grow {s s' : Sys} {event : Event} (recorded : Recorded s)
    (kept : ∀ q, (s.core q).registered = true → (s'.core q).registered = true ∧
      (s'.core q).worker = (s.core q).worker ∧ (s'.core q).inst = (s.core q).inst)
    (back : ∀ q, (s'.core q).registered = true → (s.core q).registered = true)
    (exited : ∀ worker inst, inst ≤ (s.slot worker).inst ∧
      ((s.slot worker).inst = inst → (s.slot worker).exiting = true) →
      inst ≤ (s'.slot worker).inst ∧
        ((s'.slot worker).inst = inst → (s'.slot worker).exiting = true))
    (trace : s'.trace = event :: s.trace)
    (other : ∀ q worker inst, event ≠ .registered q worker inst)
    (exits : ∀ q worker inst, event = .exited q worker inst → inst ≤ (s'.slot worker).inst ∧
      ((s'.slot worker).inst = inst → (s'.slot worker).exiting = true))
    (entitled : Entitled event s.trace) : Recorded s' := by
  -- The new event registers nobody, and an exit leaves its slot marked.
  refine ⟨fun q worker inst member => ?_, fun q mine => ?_, fun q worker inst member => ?_, ?_, ?_⟩
  · rw [trace] at member
    rcases List.mem_cons.mp member with new | old
    · exact absurd new.symm (other q worker inst)
    · obtain ⟨mine, named, number⟩ := recorded.registered q worker inst old
      obtain ⟨still, worker', inst'⟩ := kept q mine
      exact ⟨still, worker'.trans named, inst'.trans number⟩
  · obtain ⟨_, worker', inst'⟩ := kept q (back q mine)
    rw [worker', inst', trace]
    exact List.mem_cons_of_mem _ (recorded.logged q (back q mine))
  · rw [trace] at member
    rcases List.mem_cons.mp member with new | old
    · exact exits q worker inst new.symm
    · exact exited worker inst (recorded.exited q worker inst old)
  · rw [trace]
    refine List.pairwise_cons.mpr ⟨fun older _ => ?_, recorded.ordered⟩
    intro q r worker inst inst' new _
    exact absurd new (other q worker inst)
  · rw [trace]
    exact along_cons.mpr ⟨entitled, recorded.entitled⟩

/-- A first registration gets a number above all others of its worker. -/
theorem recorded_opened {p : Nat} {s s' : Sys} (inv : Sound s) (recorded : Recorded s)
    (frame : Frame p s s') (enrolls : Enrolls p s s')
    (trace : s'.trace = .registered p (s.core p).worker
      ((s.slot (s.core p).worker).inst + 1) :: s.trace)
    (core : s'.core p = { s.core p with
      inst := (s.slot (s.core p).worker).inst + 1, registered := true }) : Recorded s' := by
  -- The new registration has an instance that no earlier one had.
  refine ⟨fun q worker inst member => ?_, fun q mine => ?_, fun q worker inst member => ?_, ?_, ?_⟩
  · rw [trace] at member
    rcases List.mem_cons.mp member with new | old
    · cases new
      rw [core]
      exact ⟨rfl, rfl, rfl⟩
    · obtain ⟨mine, named, number⟩ := recorded.registered q worker inst old
      obtain ⟨still, worker', inst'⟩ := registered_kept frame enrolls mine
      exact ⟨still, worker'.trans named, inst'.trans number⟩
  · rw [trace]
    by_cases same : q = p
    · rw [same, core]
      exact List.mem_cons_self
    · rw [core_other frame same] at mine ⊢
      exact List.mem_cons_of_mem _ (recorded.logged q mine)
  · rw [trace] at member
    rcases List.mem_cons.mp member with new | old
    · cases new
    · exact exited_step enrolls worker inst (recorded.exited q worker inst old)
  · rw [trace]
    refine List.pairwise_cons.mpr ⟨fun older member => ?_, recorded.ordered⟩
    intro q r worker inst inst' new old
    cases new
    subst old
    obtain ⟨theirs, named, number⟩ := recorded.registered r _ inst' member
    have bound := (inv.registrations.enrolled r theirs).2
    rw [named, number] at bound
    omega
  · rw [trace]
    refine along_cons.mpr ⟨⟨fun q publisher => ?_, fun q worker inst exits => ?_⟩,
      recorded.entitled⟩
    · cases publisher
    · cases exits

/-- A step keeps the recorded registrations in line with the processes. -/
theorem recorded_step {gen : Generation} {s s' : Sys} (inv : Sound s) (recorded : Recorded s)
    (step : Step gen s s') : Recorded s' := by
  -- One case for each turn of the system.
  cases step_turn step with
  | spawned p worker pid unused slot positive after =>
    subst after
    have blank : (s.core p).registered = false := by
      rw [Sys.core, inv.registrations.absent p unused]
      rfl
    refine recorded_silent recorded (fun q mine => ?_) (fun q mine => ?_)
      (fun _ _ fact => fact) rfl
    · by_cases same : q = p
      · rw [same, blank] at mine
        cases mine
      · rw [core_setProc_other s _ same]
        exact ⟨mine, rfl, rfl⟩
    · by_cases same : q = p
      · rw [same, core_setProc] at mine
        cases mine
      · rwa [core_setProc_other s _ same] at mine
  | crashed p running after =>
    subst after
    refine recorded_silent recorded (fun q mine => ?_) (fun q mine => ?_)
      (fun _ _ fact => fact) rfl
    · by_cases same : q = p
      · rw [same, core_setProc]
        exact ⟨same ▸ mine, rfl, rfl⟩
      · rw [core_setProc_other s _ same]
        exact ⟨mine, rfl, rfl⟩
    · by_cases same : q = p
      · rw [same, core_setProc] at mine
        rw [same]
        exact mine
      · rwa [core_setProc_other s _ same] at mine
  | moved p running frame move =>
    have enrolls := move.enrolls
    have kept : ∀ q, (s.core q).registered = true → _ :=
      fun q mine => registered_kept frame enrolls mine
    have exited : ∀ worker inst, _ := fun worker inst fact =>
      exited_step enrolls worker inst fact
    have back : (s'.core p).registered = (s.core p).registered →
        ∀ q, (s'.core q).registered = true → (s.core q).registered = true := by
      intro unchanged q mine
      by_cases same : q = p
      · rw [same, unchanged] at mine
        rw [same]
        exact mine
      · rwa [core_other frame same] at mine
    cases move.logs inv with
    | silent trace unchanged =>
      exact recorded_silent recorded kept (back unchanged) exited trace
    | registered _ trace core =>
      exact recorded_opened inv recorded frame enrolls trace core
    | exited mine inst marked trace unchanged =>
      refine recorded_grow recorded kept (back unchanged) exited trace (by simp) ?_ ⟨?_, ?_⟩
      · intro q worker number exits
        cases exits
        have bound := slots_le enrolls (s.core p).worker
        exact ⟨by omega, fun _ => marked⟩
      · intro q publisher
        cases publisher
      · intro q worker number exits
        cases exits
        exact recorded.logged p mine
    | froze i number result sample trace unchanged =>
      refine recorded_grow recorded kept (back unchanged) exited trace (by simp) (by simp) ⟨?_, ?_⟩
      · intro q publisher
        cases publisher
      · intro q worker number exits
        cases exits
    | published event publisher mine registered names regular trace unchanged =>
      refine recorded_grow recorded kept (back unchanged) exited trace ?_ ?_ ⟨?_, ?_⟩
      · rintro q worker inst rfl
        cases publisher
      · rintro q worker inst rfl
        cases publisher
      · intro q publishes
        rw [publisher] at publishes
        cases publishes
        exact ⟨_, _, holds_of_registered inv.registrations recorded mine registered, names,
          regular⟩
      · rintro q worker inst rfl
        cases publisher

/-- In every run the history records who is registered. -/
theorem recorded_reachable {gen : Generation} {s₀ s : Sys} (initial : Initial gen s₀)
    (run : Steps gen s₀ s) : Recorded s := by
  -- The invariants of the system go along.
  refine (steps_keep (fun s => Sound s ∧ Recorded s) ?_
    ⟨sound_initial initial, recorded_initial initial⟩ run).2
  rintro s s' ⟨inv, recorded⟩ step
  exact ⟨sound_step inv step, recorded_step inv recorded step⟩

/-- The latest claim of a peer is the one its record names, and whoever still has that round is the
process that made it. -/
structure Claimed (s : Sys) (i : Nat) : Prop where
  latest : ∀ p claimed, latestClaim (s.events i) = some (p, claimed) →
    claimed.claim = (s.record i).claim
  claimant : ∀ p, ((s.core p).rounds i).number ≠ 0 →
    ((s.core p).rounds i).number = (s.record i).round →
    ∃ claimed, latestClaim (s.events i) = some (p, claimed)
  continues : Along Continues (s.events i)

/-- No record is claimed in a fresh system. -/
theorem claimed_initial {gen : Generation} {s : Sys} (initial : Initial gen s) (i : Nat) :
    Claimed s i := by
  -- There is no event and no round.
  have empty : s.events i = [] := by
    rw [Sys.events, initial.trace]
    rfl
  refine ⟨?_, fun p busy => ?_, ?_⟩
  · rw [empty]
    intro p claimed none
    cases none
  · rw [Sys.core, initial.procs] at busy
    exact absurd rfl busy
  · rw [empty]
    exact along_nil Continues

/-- A change that keeps the identity of the record, the round numbers and the latest claim. -/
theorem claimed_congr {s s' : Sys} {i : Nat} (inv : Claimed s i)
    (record : (s'.record i).claim = (s.record i).claim)
    (rounds : ∀ p, ((s'.core p).rounds i).number = ((s.core p).rounds i).number)
    (latest : latestClaim (s'.events i) = latestClaim (s.events i))
    (continues : Along Continues (s'.events i)) : Claimed s' i := by
  -- The claims of the record and of the processes are the old ones.
  have number : (s'.record i).round = (s.record i).round := congrArg Claim.round record
  refine ⟨fun p claimed found => ?_, fun p busy current => ?_, continues⟩
  · rw [record]
    rw [latest] at found
    exact inv.latest p claimed found
  · rw [rounds] at busy current
    rw [number] at current
    rw [latest]
    exact inv.claimant p busy current

/-- A process that progresses or commits a round made the latest claim. -/
theorem continues_owned {gen : Generation} {s : Sys} {p i : Nat} (inv : Claimed s i)
    (consistent : Consistent s i) (owned : Owned gen s (s.procs p) i)
    (stage : (s.record i).phase ≠ .initial) :
    ∃ claimed, latestClaim (s.events i) = some (p, claimed) ∧
      claimed.claim = (s.record i).claim := by
  -- The latest claim is that of the owner.
  obtain ⟨positive, _, _, _⟩ := owned_holder consistent owned stage
  obtain ⟨claimed, found⟩ := inv.claimant p positive owned.number.symm
  exact ⟨claimed, found, inv.latest p claimed found⟩

/-- A step continues the latest claim or makes a new one. -/
theorem claimed_step {gen : Generation} {s s' : Sys} {i : Nat} (inv : Claimed s i)
    (sound : Sound s) (step : Step gen s s') : Claimed s' i := by
  have consistent := sound.consistent i
  cases step_turn step with
  | spawned p worker pid unused slot positive after =>
    subst after
    refine claimed_congr inv rfl (fun q => ?_) rfl inv.continues
    by_cases same : q = p
    · rw [same, core_setProc, Sys.core, sound.registrations.absent p unused]
      rfl
    · rw [core_setProc_other s _ same]
  | crashed p running after =>
    subst after
    refine claimed_congr inv rfl (fun q => ?_) rfl inv.continues
    by_cases same : q = p
    · rw [same, core_setProc]
      rfl
    · rw [core_setProc_other s _ same]
  | moved p running frame move =>
    -- Only a claim changes a round's number.
    have numbers : ((s'.core p).rounds i).number = ((s.core p).rounds i).number →
        ∀ q, ((s'.core q).rounds i).number = ((s.core q).rounds i).number := by
      intro mine q
      by_cases same : q = p
      · rw [same, mine]
      · rw [core_other frame same]
    cases move.touches i with
    | kept record events round =>
      obtain ⟨same, _, _⟩ := round
      exact claimed_congr inv (by rw [record]) (numbers (by rw [same])) (by rw [events])
        (by rw [events]; exact inv.continues)
    | claimed takeover started mine claimable _ record events round =>
      have next : (s'.record i).round = (s.record i).round + 1 := by rw [record]; rfl
      refine ⟨fun q claimed found => ?_, fun q busy current => ?_, ?_⟩
      · rw [events] at found
        cases found
        rfl
      · by_cases same : q = p
        · rw [same, events]
          exact ⟨_, rfl⟩
        · rw [core_other frame same, next] at current
          have below := consistent.number q
          omega
      · rw [events]
        refine along_cons.mpr ⟨?_, inv.continues⟩
        rintro q j before after result sample (other | other)
        · cases other
        · cases other
    | prepared t _ record events _ round =>
      exact claimed_congr inv (by rw [record]) (numbers (by rw [round])) (by rw [events])
        (by rw [events]; exact inv.continues)
    | progressed owned preparing record events round =>
      refine claimed_congr inv (by rw [record]; rfl) (numbers (by rw [round])) (by rw [events]; rfl)
        ?_
      rw [events]
      refine along_cons.mpr ⟨?_, inv.continues⟩
      rintro q j before after result sample (new | other)
      · cases new
        exact continues_owned inv consistent owned (by rw [preparing]; decide)
      · cases other
    | froze result delay _ _ record events round =>
      refine claimed_congr inv (by rw [record]) (numbers (by rw [round]; rfl)) (by rw [events]; rfl)
        ?_
      rw [events]
      refine along_cons.mpr ⟨?_, inv.continues⟩
      rintro q j before after result sample (other | other)
      · cases other
      · cases other
    | committed submitted owned _ stage record events round =>
      refine claimed_congr inv (by rw [record]; rfl) (numbers (by rw [round])) (by rw [events]; rfl)
        ?_
      rw [events]
      refine along_cons.mpr ⟨?_, inv.continues⟩
      rintro q j before after result sample (other | new)
      · cases other
      · cases new
        exact continues_owned inv consistent owned
          (by rcases stage with stage | stage <;> rw [stage] <;> decide)

/-- In every run each event continues the latest claim of its record. -/
theorem claimed_reachable {gen : Generation} {s₀ s : Sys} (initial : Initial gen s₀)
    (run : Steps gen s₀ s) (i : Nat) : Claimed s i := by
  -- The invariants of the system go along.
  refine (steps_keep (fun s => Sound s ∧ Claimed s i) ?_
    ⟨sound_initial initial, claimed_initial initial i⟩ run).2
  rintro s s' ⟨sound, inv⟩ step
  exact ⟨sound_step sound step, claimed_step inv sound step⟩

/-- Another claim of the peer has been published since the one a process's round stands for. -/
def Superseded (s : Sys) (p i : Nat) : Prop :=
  ∃ q claimed, latestClaim (s.events i) = some (q, claimed) ∧ claimed.claim ≠ (s.core p).claim i

/-- A superseded round changes nothing of its peer any more. -/
theorem superseded_kept {gen : Generation} {w w' : World} {i limit : Nat} {op : Op}
    (sound : Sound w.sys) (claimed : Claimed w.sys i) (superseded : Superseded w.sys w.me i)
    (late : op = .probeWaiting i ∨ op = .settle i limit)
    (returned : op.run gen w = some ((), w')) : w'.sys.record i = w.sys.record i := by
  obtain ⟨q, latest, found, other⟩ := superseded
  have foreign : ¬ ((w.sys.core w.me).claim i = (w.sys.record i).claim) := by
    rw [← claimed.latest q latest found]
    exact fun same => other same.symm
  -- Publishing needs a round the record names.
  have owned : Owned gen w.sys w.self i → (w.sys.record i).phase ≠ .initial → False :=
    fun owned stage => foreign (owned_holder (sound.consistent i) owned stage).2.2.2
  have kept : wp (op.run gen) (fun _ w' => w'.sys.record i = w.sys.record i) w := by
    rcases late with rfl | rfl
    · simp only [Op.run, wp_bind, wp_pure]
      refine wp_probeWaiting (fun _ _ _ _ _ => rfl) (fun _ _ _ _ _ _ => rfl)
        (fun _ _ _ mine preparing _ => ?_)
      exact (owned mine (by rw [preparing]; decide)).elim
    · simp only [Op.run, wp_bind, wp_self, wp_ite, wp_pure]
      refine ⟨fun _ => ?_, fun _ => trivial⟩
      refine wp_settle (fun _ _ _ _ _ _ => rfl) (fun _ _ _ => rfl)
        (fun _ _ _ _ _ mine stage _ => ?_)
      exact (owned mine (by rcases stage with stage | stage <;> rw [stage] <;> decide)).elim
  exact kept () w' returned

/-- The end of a process changes no peer, no other worker's slot, and not even its own worker's
slot when a newer process has registered there. -/
theorem retire_bounded {gen : Generation} {w w' : World}
    (returned : Op.retire.run gen w = some ((), w')) :
    (∀ i, w'.sys.record i = w.sys.record i) ∧
      (∀ worker, worker ≠ (w.sys.core w.me).worker → w'.sys.slot worker = w.sys.slot worker) ∧
      ((w.sys.slot (w.sys.core w.me).worker).inst ≠ (w.sys.core w.me).inst →
        w'.sys.shared = w.sys.shared) := by
  -- Only the slot of the process is written, and only with its instance in it.
  have bounded : wp retire (fun _ w' => (∀ i, w'.sys.record i = w.sys.record i) ∧
      (∀ worker, worker ≠ w.self.runtime.worker → w'.sys.slot worker = w.sys.slot worker) ∧
      ((w.sys.slot w.self.runtime.worker).inst ≠ w.self.runtime.inst →
        w'.sys.shared = w.sys.shared)) w := by
    refine wp_retire (fun _ _ _ _ => ⟨fun _ => rfl, fun _ _ => rfl, fun _ => rfl⟩)
      (fun rs pos _ _ _ inst _ => ⟨fun _ => rfl, fun worker other => ?_, fun old => ?_⟩)
    · exact congrArg DoubleSlot.current (Function.update_of_ne other _ _)
    · exact absurd inst old
  exact bounded () w' returned

/-- The instance of a slot never decreases. -/
theorem slots_step {gen : Generation} {s s' : Sys} (step : Step gen s s') (worker : Nat) :
    (s.slot worker).inst ≤ (s'.slot worker).inst := by
  -- Only a registration and an exit write a slot.
  cases step_turn step with
  | spawned p number pid unused slot positive after =>
    subst after
    exact Nat.le_refl _
  | crashed p running after =>
    subst after
    exact Nat.le_refl _
  | moved p running frame move => exact slots_le move.enrolls worker

/-- A step never takes a term back. -/
theorem term_step {gen : Generation} {s s' : Sys} (step : Step gen s s') (i : Nat) :
    (s.record i).term ≤ (s'.record i).term := by
  -- A publication keeps the order of the terms.
  cases advances_step step i with
  | kept record => rw [record]
  | published event _ publication follows => exact (owns_of_follows follows publication).1

/-- Fencing and unique ownership in every reachable state: instance numbers and terms only grow and
name one owner each, only the entitled owner of the latest claim publishes, and the end of an old
process touches nothing that is newer. -/
theorem fencing {gen : Generation} {s₀ s : Sys} (initial : Initial gen s₀)
    (run : Steps gen s₀ s) :
    ((∀ s' worker, Steps gen s s' → (s.slot worker).inst ≤ (s'.slot worker).inst) ∧
      s.trace.Pairwise Later) ∧
    ((∀ s' i, Steps gen s s' → (s.record i).term ≤ (s'.record i).term) ∧
      ∀ i, Linked (s₀.record i) (s.published i) (s.record i) ∧
        (values (s₀.record i) (s.published i)).Pairwise Owns) ∧
    ((∀ i, Along Continues (s.events i)) ∧
      (∀ (i limit : Nat) (op : Op) (w w' : World), w.sys = s → Superseded s w.me i →
        op = .probeWaiting i ∨ op = .settle i limit → op.run gen w = some ((), w') →
        w'.sys.record i = s.record i) ∧
      Along Entitled s.trace) ∧
    ∀ w w' : World, w.sys = s → Op.retire.run gen w = some ((), w') →
      (∀ i, w'.sys.record i = s.record i) ∧
        (∀ worker, worker ≠ (s.core w.me).worker → w'.sys.slot worker = s.slot worker) ∧
        ((s.slot (s.core w.me).worker).inst ≠ (s.core w.me).inst →
          w'.sys.shared = s.shared) := by
  -- Each part reads off its own invariant.
  have sound := sound_reachable initial run
  have recorded := recorded_reachable initial run
  refine ⟨⟨fun s' worker later => ?_, recorded.ordered⟩, ⟨fun s' i later => ?_, fun i => ?_⟩,
    ⟨fun i => (claimed_reachable initial run i).continues, ?_, recorded.entitled⟩, ?_⟩
  · exact steps_keep (fun s' => (s.slot worker).inst ≤ (s'.slot worker).inst)
      (fun reached step => Nat.le_trans reached (slots_step step worker)) (Nat.le_refl _) later
  · exact steps_keep (fun s' => (s.record i).term ≤ (s'.record i).term)
      (fun reached step => Nat.le_trans reached (term_step step i)) (Nat.le_refl _) later
  · exact ⟨linked_reachable initial run i, owns_reachable initial run i⟩
  · rintro i limit op w w' rfl superseded late returned
    exact superseded_kept sound (claimed_reachable initial run i) superseded late returned
  · rintro w w' rfl returned
    exact retire_bounded returned

/-- A worker claims a round and freezes its outcome, is replaced, and then submits too late. -/
def replaced : List Command :=
  workerRun 0 0 100 10 [(10, .claimRound 0 none 0), (30, .freeze 0 true "" "" none)] ++
    workerRun 1 0 101 20 [] ++ [.call 0 (quietAt 40) (.settle 0 0)]

/-- A run of the sample in which a second process replaces the first one. -/
theorem fencing_replaced : ((reached sample replaced).slot 0).inst = 2 ∧
    ((reached sample replaced).record 0).phase = .preparing ∧
    (reached sample replaced).trace.Pairwise Later :=
  -- The run is computed, and the theorem orders its trace.
  ⟨by decide +kernel, by decide +kernel,
    (fencing (fresh_initial sample) (reached_steps sample replaced)).1.2⟩

end Healthcheck
