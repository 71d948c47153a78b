import Healthcheck.System.Invariant
import Healthcheck.System.Run
import Healthcheck.Library.Trace

/-!
The history of a peer's record: each publication follows the one before it, and each is one of the
three transitions of the phase machine.
-/

namespace Healthcheck

open Trace

/-- The record an event replaced and the record it published. -/
def Event.publication : Event → Option (PeerState × PeerState)
  | .registered _ _ _ => none
  | .exited _ _ _ => none
  | .claimed _ _ _ _ before after => some (before, after)
  | .inflight _ _ before after => some (before, after)
  | .frozen _ _ _ _ _ => none
  | .committed _ _ _ _ before after => some (before, after)

/-- The publications of a peer's record, newest first. -/
def Sys.published (s : Sys) (i : Nat) : List (PeerState × PeerState) :=
  (s.events i).filterMap Event.publication

/-- A claim of the recorded owner, or a takeover, begins a round and leaves the health alone. -/
structure Claims (takeover : Option PeerState) (now : Nat) (before after : PeerState) : Prop where
  stage : takeover = none → before.phase = .initial ∨ before.phase = .waiting
  owner : takeover = none →
    before.worker = after.worker ∧ (before.inst = 0 ∨ before.inst = after.inst)
  phase : after.phase = .preparing
  round : after.round = before.round + 1
  moved : after.worker ≠ before.worker ∨ after.inst ≠ before.inst → after.term = before.term + 1
  stayed : after.worker = before.worker ∧ after.inst = before.inst → after.term = before.term
  started : after.started = now
  health : after.health = before.health

/-- The end of the preparation changes the phase and the deadline, nothing else. -/
structure Progresses (before after : PeerState) : Prop where
  stage : before.phase = .preparing
  phase : after.phase = .inflight
  rest : after = { before with phase := .inflight, deadline := after.deadline }

/-- A submission changes the health, the phase and the deadline, nothing else. -/
structure Commits (before after : PeerState) : Prop where
  stage : before.phase = .preparing ∨ before.phase = .inflight
  phase : after.phase = .waiting
  rest : after = { before with health := after.health, phase := .waiting,
                               deadline := after.deadline }

/-- The transition of the phase machine an event stands for. -/
def Event.Follows : Event → Prop
  | .registered _ _ _ => True
  | .exited _ _ _ => True
  | .claimed _ _ takeover now before after => Claims takeover now before after
  | .inflight _ _ before after => Progresses before after
  | .frozen _ _ _ _ _ => True
  | .committed _ _ _ _ before after => Commits before after

/-- A step of the system leaves a peer's record and its publications alone, or publishes one record
over the present one by a transition of the phase machine. -/
inductive Advances (i : Nat) (s s' : Sys) : Prop
  | kept (record : s'.record i = s.record i) (published : s'.published i = s.published i)
  | published (event : Event) (events : s'.events i = event :: s.events i)
      (publication : event.publication = some (s.record i, s'.record i))
      (follows : event.Follows)

/-- How often the published deadline of one round changed before the round's commit. -/
def Sys.deadlineChanges (s : Sys) (i round : Nat) : Nat :=
  (s.published i).countP fun (before, after) =>
    before.round = round ∧ after.round = round ∧ after.phase ≠ .waiting ∧
      after.deadline ≠ before.deadline

/-- A claim that passed its test is a claim of the phase machine. -/
theorem claims_claimState {gen : Generation} {s : Sys} {p : Proc} {i started : Nat}
    {takeover : Option PeerState} (claimable : Claimable gen s p i takeover started) :
    Claims takeover started (s.record i)
      (claimState (gen.conf i) p.runtime p.pid started (s.record i)) := by
  -- A takeover and a regular claim pass different tests.
  obtain ⟨_, _, rule⟩ := claimTest_ok claimable.test
  have regular : takeover = none →
      RegularTest gen i p.runtime started (s.record i) := by
    intro none
    subst none
    exact rule
  constructor
  · exact fun none => (regular none).phase
  · exact fun none => ⟨(regular none).worker, (regular none).inst⟩
  · rfl
  · rfl
  · intro moved
    have foreign : (s.record i).worker ≠ p.runtime.worker ∨
        (s.record i).inst ≠ p.runtime.inst := moved.imp Ne.symm Ne.symm
    exact if_pos foreign
  · rintro ⟨worker, inst⟩
    have own : ¬ ((s.record i).worker ≠ p.runtime.worker ∨
        (s.record i).inst ≠ p.runtime.inst) := by
      rintro (other | other)
      · exact other worker.symm
      · exact other inst.symm
    exact if_neg own
  · rfl
  · rfl

/-- Every move advances every peer by at most one transition. -/
theorem advances_moved {gen : Generation} {p : Nat} {s s' : Sys} (move : Move gen p s s')
    (i : Nat) : Advances i s s' := by
  -- One case for each way to touch the record.
  cases move.touches i with
  | kept record events _ => exact .kept record (by rw [Sys.published, Sys.published, events])
  | claimed takeover started _ claimable _ record events _ =>
    refine .published _ events rfl ?_
    rw [record]
    exact claims_claimState claimable
  | prepared _ _ record events _ _ =>
    exact .kept record (by rw [Sys.published, Sys.published, events])
  | progressed _ preparing record events _ =>
    refine .published _ events rfl ?_
    rw [record]
    exact ⟨preparing, rfl, rfl⟩
  | froze _ _ _ _ record events _ =>
    refine .kept record ?_
    rw [Sys.published, Sys.published, events]
    rfl
  | committed _ _ _ stage record events _ =>
    refine .published _ events rfl ?_
    rw [record]
    exact ⟨stage, rfl, rfl⟩

/-- A step of the system advances a record along the phases or keeps it. -/
theorem advances_step {gen : Generation} {s s' : Sys} (step : Step gen s s') (i : Nat) :
    Advances i s s' := by
  -- Only a move of a process can publish.
  cases step_turn step with
  | spawned p worker pid unused slot positive after =>
    subst after
    exact .kept rfl rfl
  | crashed p running after =>
    subst after
    exact .kept rfl rfl
  | moved p running frame move => exact advances_moved move i

/-- A publication goes in front of the earlier ones. -/
theorem published_cons {s s' : Sys} {i : Nat} {event : Event} {before after : PeerState}
    (events : s'.events i = event :: s.events i)
    (publication : event.publication = some (before, after)) :
    s'.published i = (before, after) :: s.published i := by
  -- The publications are a part of the events.
  rw [Sys.published, Sys.published, events, List.filterMap_cons_some publication]

/-- The publications of a peer lead from its first record to the present one. -/
theorem linked_reachable {gen : Generation} {s₀ s : Sys} (initial : Initial gen s₀)
    (run : Steps gen s₀ s) (i : Nat) : Linked (s₀.record i) (s.published i) (s.record i) := by
  -- Induction on the run: each publication starts from the record as it is.
  refine steps_keep (fun s => Linked (s₀.record i) (s.published i) (s.record i))
    ?_ ?_ run
  · intro s s' linked step
    cases advances_step step i with
    | kept record published =>
      rw [record, published]
      exact linked
    | published event events publication _ =>
      rw [published_cons events publication]
      exact ⟨rfl, linked⟩
  · have empty : s₀.published i = [] := by
      rw [Sys.published, Sys.events, initial.trace]
      rfl
    rw [empty]
    exact rfl

/-- Every event of the history is a transition of the phase machine. -/
theorem follows_reachable {gen : Generation} {s₀ s : Sys} (initial : Initial gen s₀)
    (run : Steps gen s₀ s) (i : Nat) : ∀ event ∈ s.events i, event.Follows := by
  -- Induction on the run: only the new event is to be looked at.
  refine steps_keep (fun s => ∀ event ∈ s.events i, event.Follows) ?_ ?_ run
  · intro s s' follows step
    cases step_turn step with
    | spawned p worker pid unused slot positive after =>
      subst after
      exact follows
    | crashed p running after =>
      subst after
      exact follows
    | moved p running frame move =>
      have cons : ∀ event, s'.events i = event :: s.events i → event.Follows →
          ∀ event ∈ s'.events i, event.Follows := by
        intro event events new other member
        rw [events] at member
        rcases List.mem_cons.mp member with rfl | old
        · exact new
        · exact follows other old
      cases move.touches i with
      | kept _ events _ => rwa [events]
      | claimed takeover started _ claimable _ record events _ =>
        refine cons _ events ?_
        rw [record]
        exact claims_claimState claimable
      | prepared _ _ _ events _ _ => rwa [events]
      | progressed _ preparing record events _ =>
        refine cons _ events ?_
        rw [record]
        exact ⟨preparing, rfl, rfl⟩
      | froze _ _ _ _ _ events _ => exact cons _ events trivial
      | committed _ _ _ stage record events _ =>
        refine cons _ events ?_
        rw [record]
        exact ⟨stage, rfl, rfl⟩
  · intro event member
    rw [Sys.events, initial.trace] at member
    cases member

/-- The count of deadline changes says which rounds can still change theirs. -/
structure DeadlineSettled (i round : Nat) (s : Sys) : Prop where
  once : s.deadlineChanges i round ≤ 1
  ahead : (s.record i).round < round → s.deadlineChanges i round = 0
  preparing : (s.record i).round = round → (s.record i).phase = .preparing →
    s.deadlineChanges i round = 0

/-- One more entry adds one to a count at most. -/
theorem countP_cons_le {α : Type} (test : α → Bool) (a : α) (rest : List α) :
    (a :: rest).countP test ≤ rest.countP test + 1 := by
  -- It passes the test or not.
  rw [List.countP_cons]
  cases test a <;> simp

/-- A publication that is not the progress of this round leaves the count as it was. -/
theorem deadlineChanges_cons {s s' : Sys} {i : Nat} (round : Nat) {before after : PeerState}
    (published : s'.published i = (before, after) :: s.published i)
    (other : ¬ (before.round = round ∧ after.round = round ∧ after.phase ≠ .waiting)) :
    s'.deadlineChanges i round = s.deadlineChanges i round := by
  -- The new publication is not counted.
  have skipped : ¬ (before.round = round ∧ after.round = round ∧ after.phase ≠ .waiting ∧
      after.deadline ≠ before.deadline) := fun all => other ⟨all.1, all.2.1, all.2.2.1⟩
  simp [Sys.deadlineChanges, published, skipped]

/-- A step changes the deadline of a round once at most. -/
theorem deadlineSettled_step {gen : Generation} {s s' : Sys} {i round : Nat}
    (settled : DeadlineSettled i round s) (step : Step gen s s') : DeadlineSettled i round s' := by
  cases advances_step step i with
  | kept record published =>
    obtain ⟨once, ahead, preparing⟩ := settled
    have same : s'.deadlineChanges i round = s.deadlineChanges i round := by
      rw [Sys.deadlineChanges, Sys.deadlineChanges, published]
    rw [← same] at once ahead preparing
    rw [← record] at ahead preparing
    exact ⟨once, ahead, preparing⟩
  | published event events publication follows =>
    have published := published_cons events publication
    cases event with
    | registered _ _ _ => cases publication
    | exited _ _ _ => cases publication
    | frozen _ _ _ _ _ => cases publication
    | claimed _ _ takeover now before after =>
      cases publication
      -- A claim opens the next round, whose deadline nobody has changed yet.
      have next := follows.round
      have same := deadlineChanges_cons round published (by omega)
      refine ⟨same ▸ settled.once, fun below => ?_, fun current _ => ?_⟩
      · rw [same]
        exact settled.ahead (by omega)
      · rw [same]
        exact settled.ahead (by omega)
    | inflight _ _ before after =>
      cases publication
      have kept : (s'.record i).round = (s.record i).round := by rw [follows.rest]
      have late : (s'.record i).phase ≠ .preparing := by rw [follows.phase]; decide
      by_cases current : (s.record i).round = round
      · -- The one change of this round happens now.
        have none := settled.preparing current follows.stage
        have bound : s'.deadlineChanges i round ≤ s.deadlineChanges i round + 1 := by
          rw [Sys.deadlineChanges, Sys.deadlineChanges, published]
          exact countP_cons_le _ _ _
        refine ⟨by omega, fun below => by omega, fun _ phase => absurd phase late⟩
      · have same := deadlineChanges_cons round published (fun all => current all.1)
        refine ⟨same ▸ settled.once, fun below => ?_, fun _ phase => absurd phase late⟩
        rw [same]
        exact settled.ahead (by omega)
    | committed _ _ _ _ before after =>
      cases publication
      have kept : (s'.record i).round = (s.record i).round := by rw [follows.rest]
      have same := deadlineChanges_cons round published
        (fun all => all.2.2 follows.phase)
      refine ⟨same ▸ settled.once, fun below => ?_, fun _ phase => ?_⟩
      · rw [same]
        exact settled.ahead (by omega)
      · rw [follows.phase] at phase
        cases phase

/-- In every run the deadline of a round changes once at most. -/
theorem deadlineSettled_reachable {gen : Generation} {s₀ s : Sys} (initial : Initial gen s₀)
    (run : Steps gen s₀ s) (i round : Nat) : DeadlineSettled i round s := by
  -- Nothing has changed at the start.
  refine steps_keep (DeadlineSettled i round) deadlineSettled_step ?_ run
  have zero : s₀.deadlineChanges i round = 0 := by
    rw [Sys.deadlineChanges, Sys.published, Sys.events, initial.trace]
    rfl
  exact ⟨by omega, fun _ => zero, fun _ _ => zero⟩

/-- A peer that left its initial phase never enters it again. -/
theorem initial_left {gen : Generation} {s s' : Sys} {i : Nat} (run : Steps gen s s')
    (left : (s.record i).phase ≠ .initial) : (s'.record i).phase ≠ .initial := by
  -- Induction on the run: no publication goes back to INITIAL.
  refine steps_keep (fun s => (s.record i).phase ≠ .initial) ?_ left run
  intro s s' left step
  cases advances_step step i with
  | kept record _ => rwa [record]
  | published event _ publication follows =>
    cases event with
    | registered _ _ _ => cases publication
    | exited _ _ _ => cases publication
    | frozen _ _ _ _ _ => cases publication
    | claimed _ _ takeover now before after =>
      cases publication
      rw [follows.phase]
      decide
    | inflight _ _ before after =>
      cases publication
      rw [follows.phase]
      decide
    | committed _ _ _ _ before after =>
      cases publication
      rw [follows.phase]
      decide

/-- The phase machine of a peer: its records are linked by claims, progress and commits, a round
changes its published deadline at most once before its commit, and the initial phase is the state
before the first claim, which is never entered again. -/
theorem phase_machine {gen : Generation} {s₀ s : Sys} (initial : Initial gen s₀)
    (run : Steps gen s₀ s) (i : Nat) :
    Linked (s₀.record i) (s.published i) (s.record i) ∧
      (∀ event ∈ s.events i, event.Follows) ∧
      (∀ s', Step gen s s' → Advances i s s') ∧
      (∀ round, s.deadlineChanges i round ≤ 1) ∧
      (∀ s', Steps gen s s' → (s.record i).phase ≠ .initial → (s'.record i).phase ≠ .initial) ∧
      ((s.record i).phase = .initial ↔ (s.record i).round = 0) ∧
      ((s.record i).round = 0 ↔ (s.record i).term = 0) ∧
      ((s.record i).term = 0 ↔ (s.record i).inst = 0) := by
  -- Each part reads off its own law.
  have consistent := (sound_reachable initial run).consistent i
  refine ⟨linked_reachable initial run i, follows_reachable initial run i,
    fun s' step => advances_step step i,
    fun round => (deadlineSettled_reachable initial run i round).once,
    fun s' later left => initial_left later left, consistent.initial, consistent.term.symm, ?_⟩
  rw [consistent.term, consistent.inst]

/-- Two rounds of one worker, one second after the interval has passed. -/
def twoRounds : List Command :=
  workerRun 0 0 100 10 [(10, .claimRound 0 none 0), (20, .restartDeadline 0),
    (20, .probeWaiting 0), (40, .freeze 0 true "tcp peek success" "recv" none),
    (40, .settle 0 0), (4010, .claimRound 0 none 0)]

/-- Two rounds of the sample, the second one in preparation. -/
theorem phase_machine_twoRounds :
    (reached sample twoRounds).events 0 ≠ [] ∧
      ((reached sample twoRounds).record 0).phase = .preparing ∧
      ∀ round, (reached sample twoRounds).deadlineChanges 0 round ≤ 1 :=
  -- The run is computed, and the theorem counts the changes of its deadlines.
  ⟨by decide +kernel, by decide +kernel,
    (phase_machine (fresh_initial sample) (reached_steps sample twoRounds) 0).2.2.2.1⟩

end Healthcheck
