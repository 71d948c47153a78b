import Healthcheck.System.Peer

/-!
What holds in every reachable state: each registration has an instance number of its own, and each
local round is either an old one or the one the peer's record names.
-/

namespace Healthcheck

/-- What holds initially and is kept by every step holds after every run. -/
theorem steps_keep {gen : Generation} (invariant : Sys → Prop)
    (keeps : ∀ {s s'}, invariant s → Step gen s s' → invariant s') {s s' : Sys}
    (start : invariant s) (run : Steps gen s s') : invariant s' := by
  -- Induction on the run, one step at its end.
  induction run with
  | refl => exact start
  | tail _ step reached => exact keeps reached step

/-- The identity of a claimed round. -/
structure Claim where
  worker : Nat
  inst : Nat
  term : Nat
  round : Nat
  started : Nat
  owner : Int
  deriving DecidableEq, Repr

/-- The claim a published record belongs to. -/
def PeerState.claim (state : PeerState) : Claim :=
  { worker := state.worker, inst := state.inst, term := state.term, round := state.round,
    started := state.started, owner := state.owner }

/-- The claim a process's local round stands for. -/
def Core.claim (core : Core) (i : Nat) : Claim :=
  { worker := core.worker, inst := (core.rounds i).inst, term := (core.rounds i).term,
    round := (core.rounds i).number, started := (core.rounds i).started, owner := core.pid }

/-- Every registration has an instance number of its own. -/
structure Registrations (s : Sys) : Prop where
  absent : ∀ p, (s.procs p).status = .absent → s.procs p = {}
  enrolled : ∀ p, (s.core p).registered = true →
    1 ≤ (s.core p).inst ∧ (s.core p).inst ≤ (s.slot (s.core p).worker).inst
  unique : ∀ p q, (s.core p).registered = true → (s.core q).registered = true →
    (s.core p).worker = (s.core q).worker → (s.core p).inst = (s.core q).inst → p = q

/-- A step of one process keeps the core of every other one. -/
theorem core_other {p q : Nat} {s s' : Sys} (frame : Frame p s s') (other : q ≠ p) :
    s'.core q = s.core q := by
  -- The frame of the step.
  rw [Sys.core, Sys.core, frame.others q other]

/-- A process that was stored is read back. -/
theorem procs_setProc (s : Sys) (p : Nat) (proc : Proc) : (s.setProc p proc).procs p = proc := by
  -- An update at its own place.
  simp [Sys.setProc]

/-- Storing one process keeps the others. -/
theorem procs_setProc_other (s : Sys) {p q : Nat} (proc : Proc) (other : q ≠ p) :
    (s.setProc p proc).procs q = s.procs q := by
  -- An update at another place.
  simp [Sys.setProc, other]

/-- The core of a process that was stored is read back. -/
theorem core_setProc (s : Sys) (p : Nat) (proc : Proc) : (s.setProc p proc).core p = proc.core := by
  -- An update at its own place.
  simp [Sys.core, Sys.setProc]

/-- Storing one process keeps the cores of the others. -/
theorem core_setProc_other (s : Sys) {p q : Nat} (proc : Proc) (other : q ≠ p) :
    (s.setProc p proc).core q = s.core q := by
  -- An update at another place.
  simp [Sys.core, Sys.setProc, other]

/-- No process is registered in a fresh system. -/
theorem registrations_initial {gen : Generation} {s : Sys} (initial : Initial gen s) :
    Registrations s := by
  -- Every process is blank.
  have cores : ∀ p, (s.core p).registered = false := by
    intro p
    rw [Sys.core, initial.procs]
    rfl
  refine ⟨fun p _ => initial.procs p, fun p registered => ?_, fun p q registered => ?_⟩
  · rw [cores p] at registered
    cases registered
  · rw [cores p] at registered
    cases registered

/-- Registrations are kept when no instance number and no identity changes. -/
theorem registrations_congr {s s' : Sys} (inv : Registrations s)
    (absent : ∀ p, (s'.procs p).status = .absent → s'.procs p = {})
    (slots : ∀ worker, (s'.slot worker).inst = (s.slot worker).inst)
    (same : ∀ p, (s'.core p).registered = true → (s.core p).registered = true ∧
      (s'.core p).worker = (s.core p).worker ∧ (s'.core p).inst = (s.core p).inst) :
    Registrations s' := by
  -- No process was registered anew.
  refine ⟨absent, fun p registered => ?_, fun p q first second worker inst => ?_⟩
  · obtain ⟨before, worker, inst⟩ := same p registered
    rw [worker, inst, slots]
    exact inv.enrolled p before
  · obtain ⟨before, ours, mine⟩ := same p first
    obtain ⟨before', theirs, other⟩ := same q second
    rw [ours, theirs] at worker
    rw [mine, other] at inst
    exact inv.unique p q before before' worker inst

/-- A process that works is not absent, before or after its move. -/
theorem absent_moved {gen : Generation} {p : Nat} {s s' : Sys} (inv : Registrations s)
    (running : (s.procs p).status = .running) (frame : Frame p s s') (move : Move gen p s s') :
    ∀ q, (s'.procs q).status = .absent → s'.procs q = {} := by
  -- A move leaves its process running.
  intro q gone
  by_cases same : q = p
  · have status : (s'.core p).status = (s.core p).status := by
      cases move.enrolls with
      | same _ _ _ _ _ status => exact status
      | opened _ _ _ _ core => rw [core]
    rw [same] at gone
    have before : (s.procs p).status = .absent := status.symm.trans gone
    rw [running] at before
    cases before
  · rw [frame.others q same] at gone ⊢
    exact inv.absent q gone

/-- A step keeps two registered processes from sharing an instance. -/
theorem registrations_step {gen : Generation} {s s' : Sys} (inv : Registrations s)
    (step : Step gen s s') : Registrations s' := by
  cases step_turn step with
  | spawned p worker pid unused slot positive after =>
    -- A starting process is not registered.
    subst after
    refine registrations_congr inv (fun q gone => ?_) (fun _ => rfl) (fun q registered => ?_)
    · by_cases same : q = p
      · simp [Sys.setProc, same, Proc.start] at gone
      · simp only [Sys.setProc, Function.update_of_ne same] at gone ⊢
        exact inv.absent q gone
    · by_cases same : q = p
      · rw [same, core_setProc] at registered
        cases registered
      · rw [core_setProc_other s _ same] at registered ⊢
        exact ⟨registered, rfl, rfl⟩
  | crashed p running after =>
    subst after
    refine registrations_congr inv (fun q gone => ?_) (fun _ => rfl) (fun q registered => ?_)
    · by_cases same : q = p
      · simp [Sys.setProc, same] at gone
      · simp only [Sys.setProc, Function.update_of_ne same] at gone ⊢
        exact inv.absent q gone
    · by_cases same : q = p
      · rw [same, core_setProc] at registered ⊢
        exact ⟨registered, rfl, rfl⟩
      · rw [core_setProc_other s _ same] at registered ⊢
        exact ⟨registered, rfl, rfl⟩
  | moved p running frame move =>
    have absent := absent_moved inv running frame move
    cases move.enrolls with
    | same slots registered worker inst _ _ =>
      refine registrations_congr inv absent slots (fun q claimed => ?_)
      by_cases same : q = p
      · subst same
        exact ⟨registered ▸ claimed, worker, inst⟩
      · rw [core_other frame same] at claimed ⊢
        exact ⟨claimed, rfl, rfl⟩
    | opened fresh slot others _ core =>
      -- The new instance number is above every number given out for this worker.
      have below : ∀ q, q ≠ p → (s.core q).registered = true →
          (s.core q).worker = (s.core p).worker → (s.core q).inst ≠ (s'.core p).inst := by
        intro q _ registered worker
        have bound := (inv.enrolled q registered).2
        rw [core, worker] at *
        simp only
        omega
      have worker : (s'.core p).worker = (s.core p).worker := by rw [core]
      refine ⟨absent, fun q registered => ?_, fun q r first second named inst => ?_⟩
      · by_cases same : q = p
        · rw [same, core]
          simp only
          omega
        · rw [core_other frame same] at registered ⊢
          obtain ⟨positive, bound⟩ := inv.enrolled q registered
          refine ⟨positive, ?_⟩
          by_cases ours : (s.core q).worker = (s.core p).worker
          · rw [ours] at bound ⊢
            omega
          · rw [others _ ours]
            exact bound
      · by_cases left : q = p
        · by_cases right : r = p
          · rw [left, right]
          · subst left
            rw [core_other frame right] at second named inst
            exact absurd inst.symm (below r right second (named.symm.trans worker))
        · by_cases right : r = p
          · subst right
            rw [core_other frame left] at first named inst
            exact absurd inst (below q left first (named.trans worker))
          · rw [core_other frame left] at first named inst
            rw [core_other frame right] at second named inst
            exact inv.unique q r first second named inst

/-- A peer's record and the local rounds agree. -/
structure Consistent (s : Sys) (i : Nat) : Prop where
  initial : (s.record i).phase = .initial ↔ (s.record i).round = 0
  term : (s.record i).term = 0 ↔ (s.record i).round = 0
  inst : (s.record i).inst = 0 ↔ (s.record i).round = 0
  known : (s.record i).inst ≤ (s.slot (s.record i).worker).inst
  number : ∀ p, ((s.core p).rounds i).number ≤ (s.record i).round
  named : ∀ p, ((s.core p).rounds i).number ≠ 0 →
    (s.core p).registered = true ∧ ((s.core p).rounds i).inst = (s.core p).inst
  busy : ∀ p, ((s.core p).rounds i).active = true ∨ ((s.core p).rounds i).pending = true →
    ((s.core p).rounds i).number ≠ 0
  exclusive : ∀ p, ((s.core p).rounds i).active = true → ((s.core p).rounds i).pending = false
  matched : ∀ p, ((s.core p).rounds i).number ≠ 0 →
    ((s.core p).rounds i).number = (s.record i).round → (s.core p).claim i = (s.record i).claim
  unique : ∀ p q, ((s.core p).rounds i).number ≠ 0 →
    ((s.core p).rounds i).number = ((s.core q).rounds i).number → p = q

/-- A fresh record agrees with the processes. -/
theorem consistent_initial {gen : Generation} {s : Sys} (initial : Initial gen s) (i : Nat) :
    Consistent s i := by
  -- None of them has a round.
  have idle : ∀ p, (s.core p).rounds i = {} := by
    intro p
    rw [Sys.core, initial.procs]
    rfl
  constructor
  · simp [initial.phase, initial.round]
  · simp [initial.term, initial.round]
  · simp [initial.inst, initial.round]
  · simp [initial.inst]
  · simp [idle, initial.round]
  · simp [idle]
  · simp [idle]
  · simp [idle]
  · simp [idle]
  · simp [idle]

/-- A change that no identity takes part in keeps a peer consistent. -/
theorem consistent_congr {s s' : Sys} {i : Nat} (inv : Consistent s i)
    (initial : (s'.record i).phase = .initial ↔ (s.record i).phase = .initial)
    (record : (s'.record i).claim = (s.record i).claim)
    (slots : ∀ worker, (s.slot worker).inst ≤ (s'.slot worker).inst)
    (round : ∀ p, ((s'.core p).rounds i).number = ((s.core p).rounds i).number)
    (claim : ∀ p, ((s.core p).rounds i).number ≠ 0 → (s'.core p).claim i = (s.core p).claim i ∧
      (s'.core p).registered = (s.core p).registered ∧ (s'.core p).inst = (s.core p).inst)
    (busy : ∀ p, ((s'.core p).rounds i).active = true ∨ ((s'.core p).rounds i).pending = true →
      ((s.core p).rounds i).active = true ∨ ((s.core p).rounds i).pending = true)
    (exclusive : ∀ p, ((s'.core p).rounds i).active = true →
      ((s'.core p).rounds i).pending = false) : Consistent s' i := by
  -- What the rounds are compared with has not changed.
  have rounds : (s'.record i).round = (s.record i).round := congrArg Claim.round record
  have terms : (s'.record i).term = (s.record i).term := congrArg Claim.term record
  have insts : (s'.record i).inst = (s.record i).inst := congrArg Claim.inst record
  have workers : (s'.record i).worker = (s.record i).worker := congrArg Claim.worker record
  refine ⟨?_, ?_, ?_, ?_, fun p => ?_, fun p named => ?_, fun p occupied => ?_, exclusive,
    fun p named current => ?_, fun p q named same => ?_⟩
  · rw [initial, rounds]
    exact inv.initial
  · rw [terms, rounds]
    exact inv.term
  · rw [insts, rounds]
    exact inv.inst
  · rw [insts, workers]
    exact Nat.le_trans inv.known (slots _)
  · rw [round, rounds]
    exact inv.number p
  · rw [round] at named
    obtain ⟨claimed, registered, inst⟩ := claim p named
    rw [registered, inst]
    have mine : ((s'.core p).rounds i).inst = ((s.core p).rounds i).inst :=
      congrArg Claim.inst claimed
    rw [mine]
    exact inv.named p named
  · rw [round]
    exact inv.busy p (busy p occupied)
  · rw [round] at named current
    rw [rounds] at current
    rw [(claim p named).1, record]
    exact inv.matched p named current
  · rw [round] at named same
    rw [round] at same
    exact inv.unique p q named same

/-- The instance of a slot never decreases in a move. -/
theorem slots_le {p : Nat} {s s' : Sys} (enrolls : Enrolls p s s') (worker : Nat) :
    (s.slot worker).inst ≤ (s'.slot worker).inst := by
  -- Only the process of the move writes its slot.
  cases enrolls with
  | same slots => rw [slots]
  | opened _ slot others =>
    by_cases ours : worker = (s.core p).worker
    · rw [ours]
      omega
    · rw [others worker ours]

/-- A move that keeps the identities of the record and of the mover's round keeps the peer
consistent. -/
theorem consistent_moved {p i : Nat} {s s' : Sys} (inv : Consistent s i) (frame : Frame p s s')
    (enrolls : Enrolls p s s')
    (initial : (s'.record i).phase = .initial ↔ (s.record i).phase = .initial)
    (record : (s'.record i).claim = (s.record i).claim)
    (round : ∃ round : Round, (s'.core p).rounds i = round ∧
      round.number = ((s.core p).rounds i).number ∧ round.inst = ((s.core p).rounds i).inst ∧
      round.term = ((s.core p).rounds i).term ∧ round.started = ((s.core p).rounds i).started ∧
      (round.active = true ∨ round.pending = true →
        ((s.core p).rounds i).active = true ∨ ((s.core p).rounds i).pending = true) ∧
      (round.active = true → round.pending = false)) : Consistent s' i := by
  obtain ⟨after, rounds, number, inst, term, started, busy, exclusive⟩ := round
  subst rounds
  refine consistent_congr inv initial record (slots_le enrolls) (fun q => ?_) (fun q named => ?_)
    (fun q occupied => ?_) (fun q active => ?_)
  · by_cases same : q = p
    · rw [same, number]
    · rw [core_other frame same]
  · by_cases same : q = p
    · subst same
      cases enrolls with
      | same _ registered worker own pid _ =>
        refine ⟨?_, registered, own⟩
        unfold Core.claim
        rw [worker, pid, number, inst, term, started]
      | opened fresh =>
        -- A process that has a round has registered before.
        have known := (inv.named q named).1
        rw [fresh] at known
        cases known
    · rw [core_other frame same]
      exact ⟨rfl, rfl, rfl⟩
  · by_cases same : q = p
    · rw [same] at occupied ⊢
      exact busy occupied
    · rwa [core_other frame same] at occupied
  · by_cases same : q = p
    · rw [same] at active ⊢
      exact exclusive active
    · rw [core_other frame same] at active ⊢
      exact inv.exclusive q active

/-- A claim makes the claimant's round the one the record names. -/
theorem consistent_claimed {gen : Generation} {p i started : Nat} {takeover : Option PeerState}
    {s s' : Sys} (inv : Consistent s i) (registrations : Registrations s) (frame : Frame p s s')
    (enrolls : Enrolls p s s') (registered : (s.core p).registered = true)
    (claimable : Claimable gen s (s.procs p) i takeover started)
    (record : s'.record i =
      claimState (gen.conf i) (s.procs p).runtime (s.procs p).pid started (s.record i))
    (round : (s'.core p).rounds i =
      claimedRound gen started (s'.record i) ((s.core p).rounds i)) : Consistent s' i := by
  cases enrolls with
  | opened fresh =>
    rw [registered] at fresh
    cases fresh
  | same slots kept worker inst pid _ =>
    obtain ⟨positive, _⟩ := registrations.enrolled p registered
    have slot : (s.slot (s.core p).worker).inst = (s.core p).inst := claimable.registration.inst
    have number : (s'.record i).round = (s.record i).round + 1 := by rw [record]; rfl
    have named : (s'.record i).inst = (s.core p).inst := by rw [record]; rfl
    have owner : (s'.record i).worker = (s.core p).worker := by rw [record]; rfl
    have phase : (s'.record i).phase = .preparing := by rw [record]; rfl
    have term : (s'.record i).term ≠ 0 := by
      -- The first claim of a peer changes its owner, later ones find a positive term.
      rw [record]
      change (if (s.record i).worker ≠ (s.core p).worker ∨ (s.record i).inst ≠ (s.core p).inst
        then (s.record i).term + 1 else (s.record i).term) ≠ 0
      split
      · omega
      · rename_i own
        intro zero
        have first : (s.record i).inst = 0 := inv.inst.mpr (inv.term.mp zero)
        simp only [not_or, not_not] at own
        omega
    have other : ∀ q, q ≠ p → ((s'.core q).rounds i).number ≤ (s.record i).round := by
      intro q different
      rw [core_other frame different]
      exact inv.number q
    have mine : ((s'.core p).rounds i).number = (s'.record i).round := by rw [round]; rfl
    refine ⟨by simp [phase, number], by simp [term, number], ?_, ?_, fun q => ?_,
      fun q busy => ?_, fun q occupied => ?_, fun q active => ?_, fun q busy current => ?_,
      fun q r busy same => ?_⟩
    · rw [named, number]
      omega
    · rw [named, owner, slots, slot]
    · by_cases same : q = p
      · rw [same, mine]
      · have below := other q same
        omega
    · by_cases same : q = p
      · rw [same, kept, round, inst]
        exact ⟨registered, named⟩
      · rw [core_other frame same] at busy ⊢
        exact inv.named q busy
    · by_cases same : q = p
      · rw [same, mine, number]
        omega
      · rw [core_other frame same] at occupied ⊢
        exact inv.busy q occupied
    · by_cases same : q = p
      · rw [same, round]
        exact claimable.idle.2
      · rw [core_other frame same] at active ⊢
        exact inv.exclusive q active
    · by_cases same : q = p
      · subst same
        unfold Core.claim PeerState.claim
        rw [round, worker, pid]
        rw [record]
        rfl
      · have below := other q same
        omega
    · by_cases left : q = p
      · by_cases right : r = p
        · rw [left, right]
        · have below := other r right
          rw [left, mine, number] at same
          omega
      · by_cases right : r = p
        · have below := other q left
          rw [right, mine, number] at same
          omega
        · rw [core_other frame left] at busy same
          rw [core_other frame right] at same
          exact inv.unique q r busy same

/-- A step keeps the rounds of the processes in line with the record. -/
theorem consistent_step {gen : Generation} {i : Nat} {s s' : Sys} (inv : Consistent s i)
    (registrations : Registrations s) (step : Step gen s s') : Consistent s' i := by
  cases step_turn step with
  | spawned p worker pid unused slot positive after =>
    -- An unused process has no rounds, and neither has a starting one.
    subst after
    have blank : (s.core p).rounds i = {} := by
      rw [Sys.core, registrations.absent p unused]
      rfl
    have fresh : ((s.setProc p (Proc.start pid worker)).core p).rounds i = {} := by
      rw [core_setProc]
      rfl
    refine consistent_congr inv Iff.rfl rfl (fun _ => Nat.le_refl _) (fun q => ?_)
      (fun q named => ?_) (fun q occupied => ?_) (fun q active => ?_)
    · by_cases same : q = p
      · rw [same, fresh, blank]
      · rw [core_setProc_other s _ same]
    · by_cases same : q = p
      · rw [same, blank] at named
        exact absurd rfl named
      · rw [core_setProc_other s _ same]
        exact ⟨rfl, rfl, rfl⟩
    · by_cases same : q = p
      · rw [same, fresh] at occupied
        simp at occupied
      · rwa [core_setProc_other s _ same] at occupied
    · by_cases same : q = p
      · rw [same, fresh]
      · rw [core_setProc_other s _ same] at active ⊢
        exact inv.exclusive q active
  | crashed p running after =>
    subst after
    have rounds : ∀ q, ((s.setProc p { s.procs p with status := .dead }).core q).rounds =
        (s.core q).rounds := by
      intro q
      by_cases same : q = p
      · rw [same, core_setProc]
        rfl
      · rw [core_setProc_other s _ same]
    refine consistent_congr inv Iff.rfl rfl (fun _ => Nat.le_refl _) (fun q => by rw [rounds])
      (fun q _ => ?_) (fun q occupied => by rwa [rounds] at occupied) (fun q active => ?_)
    · by_cases same : q = p
      · rw [same, core_setProc]
        exact ⟨rfl, rfl, rfl⟩
      · rw [core_setProc_other s _ same]
        exact ⟨rfl, rfl, rfl⟩
    · rw [rounds] at active ⊢
      exact inv.exclusive q active
  | moved p running frame move =>
    have enrolls := move.enrolls
    cases move.touches i with
    | kept record _ round =>
      obtain ⟨same, active, pending⟩ := round
      refine consistent_moved inv frame enrolls (by rw [record]) (by rw [record])
        ⟨_, rfl, by rw [same], by rw [same], by rw [same], by rw [same], ?_, fun busy => ?_⟩
      · exact Or.imp active pending
      · have idle := inv.exclusive p (active busy)
        by_contra waiting
        rw [Bool.not_eq_false] at waiting
        rw [pending waiting] at idle
        cases idle
    | claimed takeover started registered claimable _ record _ round =>
      exact consistent_claimed inv registrations frame enrolls registered claimable record round
    | prepared t _ record _ _ round =>
      exact consistent_moved inv frame enrolls (by rw [record]) (by rw [record])
        ⟨_, round, rfl, rfl, rfl, rfl, id, inv.exclusive p⟩
    | progressed owned preparing record _ round =>
      exact consistent_moved inv frame enrolls (by rw [record, preparing]; simp [inflightState])
        (by rw [record]; rfl) ⟨_, round, rfl, rfl, rfl, rfl, id, inv.exclusive p⟩
    | froze result delay active idle record _ round =>
      refine consistent_moved inv frame enrolls (by rw [record]) (by rw [record])
        ⟨_, round, rfl, rfl, rfl, rfl, fun _ => Or.inl active, fun busy => ?_⟩
      cases busy
    | committed submitted owned pending stage record _ round =>
      refine consistent_moved inv frame enrolls ?_ (by rw [record]; rfl)
        ⟨_, round, rfl, rfl, rfl, rfl, ?_, fun _ => rfl⟩
      · rw [record]
        rcases stage with stage | stage <;> simp [stage, submitState]
      · intro _
        exact Or.inr pending

/-- What every reachable state of a generation satisfies. -/
structure Sound (s : Sys) : Prop where
  registrations : Registrations s
  consistent : ∀ i, Consistent s i

/-- A fresh system is sound. -/
theorem sound_initial {gen : Generation} {s : Sys} (initial : Initial gen s) : Sound s :=
  ⟨registrations_initial initial, consistent_initial initial⟩

/-- A step keeps a system sound. -/
theorem sound_step {gen : Generation} {s s' : Sys} (inv : Sound s) (step : Step gen s s') :
    Sound s' :=
  -- Each record stays consistent with the registrations before the step.
  ⟨registrations_step inv.registrations step,
    fun i => consistent_step (inv.consistent i) inv.registrations step⟩

/-- Every system in a run is sound. -/
theorem sound_reachable {gen : Generation} {s₀ s : Sys} (initial : Initial gen s₀)
    (run : Steps gen s₀ s) : Sound s :=
  steps_keep Sound sound_step (sound_initial initial) run

end Healthcheck
