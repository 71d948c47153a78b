import Healthcheck.System.Fencing
import Healthcheck.Protocol.Probe

/-!
Exactly-once commits: each round freezes at most one outcome, publishes at most that one, and a
peer's health is the fold of the outcomes published so far.
-/

namespace Healthcheck

open Program Trace

/-- The outcome of a committed round. -/
structure Outcome where
  round : Nat
  result : Bool
  sample : Option Nat
  deriving DecidableEq, Repr

/-- The outcome an event commits. -/
def Event.commit : Event → Option Outcome
  | .committed _ _ result sample before _ =>
    some { round := before.round, result := result, sample := sample }
  | _ => none

/-- The committed outcomes of a peer, newest first. -/
def Sys.commits (s : Sys) (i : Nat) : List Outcome :=
  (s.events i).filterMap Event.commit

/-- A health record without its time stamp. -/
def Health.untimed (health : Health) : Health :=
  { health with accessTime := 0 }

/-- The health after some outcomes, the oldest of which counts first. -/
def foldHealth (gen : Generation) (i : Nat) (start : Health) (commits : List Outcome) : Health :=
  commits.foldr (fun outcome health =>
    submitHealth gen.word (gen.conf i) health outcome.result outcome.sample) start

/-- An outcome is frozen once in the round of its claim, and committed after it was frozen. -/
def Settles (event : Event) (past : List Event) : Prop :=
  (∀ p i round result sample, event = .frozen p i round result sample →
    (∃ takeover now before after,
      .claimed p i takeover now before after ∈ past ∧ after.round = round) ∧
    ∀ q result' sample', .frozen q i round result' sample' ∉ past) ∧
  ∀ p i result sample before after, event = .committed p i result sample before after →
    .frozen p i before.round result sample ∈ past

/-- A delay sample is added alike with and without the time of the sample. -/
theorem untimed_addDelay (word : Word) (health : Health) (delay : Nat) :
    (health.addDelay word delay).untimed = health.untimed.addDelay word delay := by
  -- The delays do not hold that time.
  unfold Health.addDelay
  have same : health.untimed.delays = health.delays := rfl
  rw [same]
  cases updateDelay word health.delays delay <;> rfl

/-- The health update neither reads nor writes the time stamp. -/
theorem untimed_submitHealth (word : Word) (conf : CheckConf) (health : Health) (result : Bool)
    (sample : Option Nat) : (submitHealth word conf health result sample).untimed =
      submitHealth word conf health.untimed result sample := by
  -- A result and its sample are added alike with and without the times.
  unfold submitHealth
  cases result with
  | true =>
    cases sample with
    | none => rfl
    | some delay => exact untimed_addDelay word _ delay
  | false => rfl

/-- The rounds of the commits, and how they stand to the present record. -/
structure Committed (gen : Generation) (first : Health) (s : Sys) (i : Nat) : Prop where
  decreasing : (s.commits i).Pairwise fun newer older => older.round < newer.round
  below : ∀ outcome ∈ s.commits i, outcome.round ≤ (s.record i).round
  opened : (s.record i).phase = .preparing ∨ (s.record i).phase = .inflight →
    ∀ outcome ∈ s.commits i, outcome.round < (s.record i).round
  health : (s.record i).health.untimed = foldHealth gen i first.untimed (s.commits i)

/-- Nothing was committed in a fresh system. -/
theorem committed_initial {gen : Generation} {s : Sys} (initial : Initial gen s) (i : Nat) :
    Committed gen (s.record i).health s i := by
  -- The history is empty.
  have empty : s.commits i = [] := by
    rw [Sys.commits, Sys.events, initial.trace]
    rfl
  refine ⟨?_, ?_, ?_, ?_⟩
  · simp [empty]
  · simp [empty]
  · simp [empty]
  · rw [empty]
    rfl

/-- A commit goes in front of the earlier ones. -/
theorem commits_cons {s s' : Sys} {i : Nat} {event : Event} {outcome : Outcome}
    (events : s'.events i = event :: s.events i) (commit : event.commit = some outcome) :
    s'.commits i = outcome :: s.commits i := by
  -- The commits are a part of the events.
  rw [Sys.commits, Sys.commits, events, List.filterMap_cons_some commit]

/-- Any other event keeps the commits. -/
theorem commits_other {s s' : Sys} {i : Nat} {event : Event}
    (events : s'.events i = event :: s.events i) (commit : event.commit = none) :
    s'.commits i = s.commits i := by
  -- It is left out of them.
  rw [Sys.commits, Sys.commits, events, List.filterMap_cons_none commit]

/-- A step keeps the health at the fold over the commits. -/
theorem committed_step {gen : Generation} {first : Health} {s s' : Sys} {i : Nat}
    (inv : Committed gen first s i) (step : Step gen s s') : Committed gen first s' i := by
  obtain ⟨decreasing, below, opened, health⟩ := inv
  -- A step without a commit keeps the commits and may only move the round on.
  have kept : s'.commits i = s.commits i → (s'.record i).health = (s.record i).health →
      ((s'.record i).round = (s.record i).round ∧
        ((s'.record i).phase = .preparing ∨ (s'.record i).phase = .inflight →
          (s.record i).phase = .preparing ∨ (s.record i).phase = .inflight) ∨
        (s'.record i).round = (s.record i).round + 1) → Committed gen first s' i := by
    intro commits same rounds
    refine ⟨by rw [commits]; exact decreasing, fun outcome member => ?_,
      fun stage outcome member => ?_, by rw [commits, same]; exact health⟩
    · rw [commits] at member
      have bound := below outcome member
      omega
    · rw [commits] at member
      rcases rounds with ⟨round, stays⟩ | next
      · rw [round]
        exact opened (stays stage) outcome member
      · have bound := below outcome member
        omega
  cases step_turn step with
  | spawned p worker pid unused slot positive after =>
    subst after
    exact kept rfl rfl (Or.inl ⟨rfl, id⟩)
  | crashed p running after =>
    subst after
    exact kept rfl rfl (Or.inl ⟨rfl, id⟩)
  | moved p running frame move =>
    cases move.touches i with
    | kept record events _ =>
      refine kept (by rw [Sys.commits, Sys.commits, events]) (by rw [record]) (Or.inl ?_)
      rw [record]
      exact ⟨rfl, id⟩
    | claimed _ _ _ _ _ record events _ =>
      refine kept (commits_other events rfl) ?_ (Or.inr ?_)
      · rw [record]
        rfl
      · rw [record]
        rfl
    | prepared _ _ record events _ _ =>
      refine kept (by rw [Sys.commits, Sys.commits, events]) (by rw [record]) (Or.inl ?_)
      rw [record]
      exact ⟨rfl, id⟩
    | progressed _ preparing record events _ =>
      refine kept (commits_other events rfl) ?_ (Or.inl ⟨?_, fun _ => Or.inl preparing⟩)
      · rw [record]
        rfl
      · rw [record]
        rfl
    | froze _ _ _ _ record events _ =>
      refine kept (commits_other events rfl) (by rw [record]) (Or.inl ?_)
      rw [record]
      exact ⟨rfl, id⟩
    | committed submitted _ _ stage record events _ =>
      have commits := commits_cons events rfl
      have round : (s'.record i).round = (s.record i).round := by rw [record]; rfl
      have waiting : (s'.record i).phase = .waiting := by rw [record]; rfl
      refine ⟨?_, fun outcome member => ?_, fun late => ?_, ?_⟩
      · rw [commits]
        exact List.pairwise_cons.mpr ⟨opened stage, decreasing⟩
      · rw [commits] at member
        rw [round]
        rcases List.mem_cons.mp member with rfl | old
        · exact Nat.le_refl _
        · exact below outcome old
      · rw [waiting] at late
        simp at late
      · rw [commits, record]
        change (submitHealth gen.word (gen.conf i) (s.record i).health _ _).untimed = _
        rw [untimed_submitHealth, health]
        rfl

/-- In every run the health is the fold over the commits. -/
theorem committed_reachable {gen : Generation} {s₀ s : Sys} (initial : Initial gen s₀)
    (run : Steps gen s₀ s) (i : Nat) : Committed gen (s₀.record i).health s i :=
  -- The step lemma along the run.
  steps_keep (fun s => Committed gen (s₀.record i).health s i) committed_step
    (committed_initial initial i) run

/-- Only TCP checks give delay samples: neither a local round nor a commit of another peer has
one. -/
structure Sampled (gen : Generation) (s : Sys) (i : Nat) : Prop where
  rounds : ∀ p, ((s.core p).rounds i).sampled.isSome = true → (gen.conf i).checkType = .tcp
  commits : ∀ outcome ∈ s.commits i, outcome.sample.isSome = true → (gen.conf i).checkType = .tcp

/-- Nothing was sampled in a fresh system. -/
theorem sampled_initial {gen : Generation} {s : Sys} (initial : Initial gen s) (i : Nat) :
    Sampled gen s i := by
  -- There is no round and no commit.
  refine ⟨fun p sample => ?_, fun outcome member => ?_⟩
  · rw [Sys.core, initial.procs] at sample
    cases sample
  · rw [Sys.commits, Sys.events, initial.trace] at member
    cases member

/-- A frozen round keeps the sample that it was given. -/
@[simp] theorem sampled_frozenRound (result : Bool) (delay : Option Nat) (round : Round) :
    (frozenRound result delay round).sampled = delay := by
  -- With a sample and without one.
  cases delay <;> rfl

/-- A sample comes into a round when it is frozen, and from there into the commit. -/
theorem sampled_step {gen : Generation} {s s' : Sys} {i : Nat} (inv : Sampled gen s i)
    (step : Step gen s s') : Sampled gen s' i := by
  cases step_turn step with
  | spawned p worker pid unused slot positive after =>
    subst after
    refine ⟨fun q sample => ?_, inv.commits⟩
    by_cases same : q = p
    · rw [same, core_setProc] at sample
      cases sample
    · rw [core_setProc_other s _ same] at sample
      exact inv.rounds q sample
  | crashed p running after =>
    subst after
    refine ⟨fun q sample => ?_, inv.commits⟩
    by_cases same : q = p
    · rw [same, core_setProc] at sample
      exact inv.rounds p sample
    · rw [core_setProc_other s _ same] at sample
      exact inv.rounds q sample
  | moved p running frame move =>
    -- The other processes keep their rounds, so the mover's round and the commits decide.
    have mover : (((s'.core p).rounds i).sampled.isSome = true → (gen.conf i).checkType = .tcp) →
        (∀ outcome ∈ s'.commits i, outcome.sample.isSome = true →
          (gen.conf i).checkType = .tcp) → Sampled gen s' i := by
      refine fun own commits => ⟨fun q sample => ?_, commits⟩
      by_cases same : q = p
      · rw [same] at sample
        exact own sample
      · rw [core_other frame same] at sample
        exact inv.rounds q sample
    cases move.touches i with
    | kept record events round =>
      refine mover (fun sample => inv.rounds p ?_) (by rw [Sys.commits, events]; exact inv.commits)
      rw [round.1] at sample
      exact sample
    | claimed takeover started mine claimable read record events round =>
      refine mover (fun sample => ?_) (by rw [commits_other events rfl]; exact inv.commits)
      rw [round] at sample
      cases sample
    | prepared t tcp => exact mover (fun _ => tcp) fun _ _ _ => tcp
    | progressed owned preparing record events round =>
      refine mover (fun sample => inv.rounds p ?_)
        (by rw [commits_other events rfl]; exact inv.commits)
      rw [round] at sample
      exact sample
    | froze result delay active idle record events round sample =>
      refine mover (fun sampled => sample ?_) (by rw [commits_other events rfl]; exact inv.commits)
      rwa [round, sampled_frozenRound] at sampled
    | committed submitted owned pending stage record events round =>
      refine mover (fun sample => inv.rounds p ?_) fun outcome member sample => ?_
      · rw [round] at sample
        exact sample
      · rw [commits_cons events rfl] at member
        rcases List.mem_cons.mp member with rfl | earlier
        · exact inv.rounds p sample
        · exact inv.commits outcome earlier sample

/-- In every run only the rounds of TCP checks carry samples. -/
theorem sampled_reachable {gen : Generation} {s₀ s : Sys} (initial : Initial gen s₀)
    (run : Steps gen s₀ s) (i : Nat) : Sampled gen s i :=
  -- The step lemma along the run.
  steps_keep (fun s => Sampled gen s i) sampled_step (sampled_initial initial i) run

/-- How frozen outcomes stand to the local rounds they came from. -/
structure Frozen (s : Sys) (i : Nat) : Prop where
  bounded : ∀ p round result sample, .frozen p i round result sample ∈ s.events i →
    round ≤ (s.record i).round
  open_ : ∀ p, ((s.core p).rounds i).active = true → ∀ q result sample,
    .frozen q i ((s.core p).rounds i).number result sample ∉ s.events i
  waiting : ∀ p, ((s.core p).rounds i).pending = true →
    .frozen p i ((s.core p).rounds i).number ((s.core p).rounds i).result
      ((s.core p).rounds i).sampled ∈ s.events i
  claims : ∀ p, ((s.core p).rounds i).number ≠ 0 → ∃ takeover now before after,
    .claimed p i takeover now before after ∈ s.events i ∧
      after.round = ((s.core p).rounds i).number
  settles : Along Settles (s.events i)

/-- No outcome is frozen in a fresh system. -/
theorem frozen_initial {gen : Generation} {s : Sys} (initial : Initial gen s) (i : Nat) :
    Frozen s i := by
  -- There is no event and no active round.
  have empty : s.events i = [] := by
    rw [Sys.events, initial.trace]
    rfl
  have idle : ∀ p, (s.core p).rounds i = {} := by
    intro p
    rw [Sys.core, initial.procs]
    rfl
  refine ⟨?_, ?_, ?_, ?_, ?_⟩
  · simp [empty]
  · simp [idle]
  · simp [idle]
  · simp [idle]
  · rw [empty]
    exact along_nil Settles

/-- A step that freezes nothing keeps the frozen outcomes, when local rounds only end. -/
theorem frozen_grow {s s' : Sys} {i : Nat} (inv : Frozen s i) (new : List Event)
    (events : s'.events i = new ++ s.events i)
    (thawed : ∀ p round result sample, .frozen p i round result sample ∉ new)
    (record : (s.record i).round ≤ (s'.record i).round)
    (active : ∀ p, ((s'.core p).rounds i).active = true →
      ((s.core p).rounds i).active = true ∧
        ((s'.core p).rounds i).number = ((s.core p).rounds i).number ∨
      (s.record i).round < ((s'.core p).rounds i).number)
    (pending : ∀ p, ((s'.core p).rounds i).pending = true →
      ((s.core p).rounds i).pending = true ∧
        ((s'.core p).rounds i).number = ((s.core p).rounds i).number ∧
        ((s'.core p).rounds i).result = ((s.core p).rounds i).result ∧
        ((s'.core p).rounds i).sampled = ((s.core p).rounds i).sampled)
    (claims : ∀ p, ((s'.core p).rounds i).number ≠ 0 →
      ((s'.core p).rounds i).number = ((s.core p).rounds i).number ∨
      ∃ takeover now before after, .claimed p i takeover now before after ∈ new ∧
        after.round = ((s'.core p).rounds i).number)
    (settles : Along Settles (s'.events i)) : Frozen s' i := by
  -- The new events freeze nothing, so the frozen rounds are the old ones.
  have old : ∀ p round result sample, .frozen p i round result sample ∈ s'.events i →
      .frozen p i round result sample ∈ s.events i := by
    intro p round result sample member
    rw [events] at member
    exact (List.mem_append.mp member).resolve_left (thawed p round result sample)
  refine ⟨fun p round result sample member => ?_, fun p busy q result sample member => ?_,
    fun p busy => ?_, fun p busy => ?_, settles⟩
  · exact Nat.le_trans (inv.bounded p round result sample (old p round result sample member)) record
  · have before := old q _ result sample member
    rcases active p busy with ⟨still, number⟩ | ahead
    · rw [number] at before
      exact inv.open_ p still q result sample before
    · have bound := inv.bounded q _ result sample before
      omega
  · obtain ⟨still, number, result, sampled⟩ := pending p busy
    rw [number, result, sampled, events]
    exact List.mem_append_right new (inv.waiting p still)
  · rw [events]
    rcases claims p busy with number | ⟨takeover, now, before, after, found, round⟩
    · rw [number] at busy ⊢
      obtain ⟨takeover, now, before, after, found, round⟩ := inv.claims p busy
      exact ⟨takeover, now, before, after, List.mem_append_right new found, round⟩
    · exact ⟨takeover, now, before, after, List.mem_append_left _ found, round⟩

/-- Freezing a round adds its outcome, which nobody has frozen before. -/
theorem frozen_froze {p i : Nat} {result : Bool} {delay : Option Nat} {s s' : Sys}
    (inv : Frozen s i) (consistent : Consistent s i) (frame : Frame p s s')
    (active : ((s.core p).rounds i).active = true) (record : s'.record i = s.record i)
    (events : s'.events i = .frozen p i ((s.core p).rounds i).number result delay :: s.events i)
    (round : (s'.core p).rounds i = frozenRound result delay ((s.core p).rounds i)) :
    Frozen s' i := by
  have positive := consistent.busy p (Or.inl active)
  have number : ((s'.core p).rounds i).number = ((s.core p).rounds i).number := by rw [round]; rfl
  refine ⟨fun q n outcome sample member => ?_, fun q busy r outcome sample member => ?_,
    fun q busy => ?_, fun q busy => ?_, ?_⟩
  · rw [record]
    rw [events] at member
    rcases List.mem_cons.mp member with new | old
    · cases new
      exact consistent.number p
    · exact inv.bounded q n outcome sample old
  · by_cases same : q = p
    · rw [same, round] at busy
      cases busy
    · rw [core_other frame same] at busy member
      rw [events] at member
      rcases List.mem_cons.mp member with new | old
      · -- Two processes never have the same round of a peer.
        injection new with _ _ clash
        exact same (consistent.unique p q positive clash.symm).symm
      · exact inv.open_ q busy r outcome sample old
  · by_cases same : q = p
    · rw [same, events, round, sampled_frozenRound]
      exact List.mem_cons_self
    · rw [core_other frame same] at busy ⊢
      rw [events]
      exact List.mem_cons_of_mem _ (inv.waiting q busy)
  · have before : ((s'.core q).rounds i).number = ((s.core q).rounds i).number := by
      by_cases same : q = p
      · rw [same, number]
      · rw [core_other frame same]
    rw [before] at busy ⊢
    obtain ⟨takeover, now, b, a, found, after⟩ := inv.claims q busy
    rw [events]
    exact ⟨takeover, now, b, a, List.mem_cons_of_mem _ found, after⟩
  · rw [events]
    refine along_cons.mpr ⟨⟨?_, ?_⟩, inv.settles⟩
    · intro q j n outcome sample new
      cases new
      exact ⟨inv.claims p positive, inv.open_ p active⟩
    · intro q j outcome sample before after new
      cases new

/-- A step freezes a round once at most, and only while that round is active. -/
theorem frozen_step {gen : Generation} {s s' : Sys} {i : Nat} (inv : Frozen s i)
    (sound : Sound s) (step : Step gen s s') : Frozen s' i := by
  have consistent := sound.consistent i
  cases step_turn step with
  | spawned p worker pid unused slot positive after =>
    subst after
    have blank : (s.core p).rounds i = {} := by
      rw [Sys.core, sound.registrations.absent p unused]
      rfl
    have rounds : ∀ q, ((s.setProc p (Proc.start pid worker)).core q).rounds i =
        (s.core q).rounds i := by
      intro q
      by_cases same : q = p
      · rw [same, core_setProc, blank]
        rfl
      · rw [core_setProc_other s _ same]
    exact frozen_grow inv [] rfl (by simp) (Nat.le_refl _)
      (fun q busy => Or.inl ⟨by rwa [rounds] at busy, by rw [rounds]⟩)
      (fun q busy => ⟨by rwa [rounds] at busy, by rw [rounds], by rw [rounds], by rw [rounds]⟩)
      (fun q _ => Or.inl (by rw [rounds])) inv.settles
  | crashed p running after =>
    subst after
    have rounds : ∀ q, ((s.setProc p { s.procs p with status := .dead }).core q).rounds i =
        (s.core q).rounds i := by
      intro q
      by_cases same : q = p
      · rw [same, core_setProc]
        rfl
      · rw [core_setProc_other s _ same]
    exact frozen_grow inv [] rfl (by simp) (Nat.le_refl _)
      (fun q busy => Or.inl ⟨by rwa [rounds] at busy, by rw [rounds]⟩)
      (fun q busy => ⟨by rwa [rounds] at busy, by rw [rounds], by rw [rounds], by rw [rounds]⟩)
      (fun q _ => Or.inl (by rw [rounds])) inv.settles
  | moved p running frame move =>
    -- A mover whose round keeps its number and outcome, and at most ends.
    have calm : ∀ new : List Event, s'.events i = new ++ s.events i →
        (∀ p round result sample, .frozen p i round result sample ∉ new) →
        (s.record i).round ≤ (s'.record i).round →
        (∃ round, (s'.core p).rounds i = round ∧
          round.number = ((s.core p).rounds i).number ∧
          (round.active = true → ((s.core p).rounds i).active = true) ∧
          (round.pending = true → ((s.core p).rounds i).pending = true) ∧
          round.result = ((s.core p).rounds i).result ∧
          round.sampled = ((s.core p).rounds i).sampled) →
        Along Settles (s'.events i) → Frozen s' i := by
      rintro new events thawed record ⟨round, rounds, number, active, pending, result, sampled⟩
        settles
      subst rounds
      refine frozen_grow inv new events thawed record (fun q busy => Or.inl ?_) (fun q busy => ?_)
        (fun q _ => Or.inl ?_) settles
      · by_cases same : q = p
        · rw [same] at busy ⊢
          exact ⟨active busy, number⟩
        · rw [core_other frame same] at busy ⊢
          exact ⟨busy, rfl⟩
      · by_cases same : q = p
        · rw [same] at busy ⊢
          exact ⟨pending busy, number, result, sampled⟩
        · rw [core_other frame same] at busy ⊢
          exact ⟨busy, rfl, rfl, rfl⟩
      · by_cases same : q = p
        · rw [same, number]
        · rw [core_other frame same]
    cases move.touches i with
    | kept record events round =>
      obtain ⟨same, active, pending⟩ := round
      refine calm [] events (by simp) (by rw [record]) ⟨_, rfl, by rw [same], active, pending,
        by rw [same], by rw [same]; rfl⟩ (by rw [events]; exact inv.settles)
    | claimed takeover started mine claimable _ record events round =>
      have next : (s'.record i).round = (s.record i).round + 1 := by rw [record]; rfl
      have number : ((s'.core p).rounds i).number = (s'.record i).round := by rw [round]; rfl
      refine frozen_grow inv [_] events (by simp) (by omega) (fun q busy => ?_) (fun q busy => ?_)
        (fun q busy => ?_) ?_
      · by_cases same : q = p
        · rw [same]
          exact Or.inr (by omega)
        · rw [core_other frame same] at busy ⊢
          exact Or.inl ⟨busy, rfl⟩
      · by_cases same : q = p
        · rw [same, round] at busy
          have idle := claimable.idle.2
          rw [show (claimedRound gen started (s'.record i) ((s.core p).rounds i)).pending =
            ((s.procs p).round i).pending from rfl, idle] at busy
          cases busy
        · rw [core_other frame same] at busy ⊢
          exact ⟨busy, rfl, rfl, rfl⟩
      · by_cases same : q = p
        · rw [same, number]
          exact Or.inr ⟨takeover, started, _, _, List.mem_cons_self, rfl⟩
        · rw [core_other frame same]
          exact Or.inl rfl
      · rw [events]
        refine along_cons.mpr ⟨⟨?_, ?_⟩, inv.settles⟩
        · intro q j n outcome sample other
          cases other
        · intro q j outcome sample before after other
          cases other
    | prepared t _ record events _ round =>
      exact calm [] events (by simp) (by rw [record])
        ⟨_, round, rfl, id, id, rfl, rfl⟩ (by rw [events]; exact inv.settles)
    | progressed owned preparing record events round =>
      refine calm [_] events (by simp) (by rw [record]; exact Nat.le_refl _)
        ⟨_, round, rfl, id, id, rfl, rfl⟩ ?_
      rw [events]
      refine along_cons.mpr ⟨⟨?_, ?_⟩, inv.settles⟩
      · intro q j n outcome sample other
        cases other
      · intro q j outcome sample before after other
        cases other
    | froze result delay active idle record events round =>
      exact frozen_froze inv consistent frame active record events round
    | committed submitted owned pending stage record events round =>
      refine calm [_] events (by simp) (by rw [record]; exact Nat.le_refl _)
        ⟨_, round, rfl, id, by simp, rfl, rfl⟩ ?_
      rw [events]
      refine along_cons.mpr ⟨⟨?_, ?_⟩, inv.settles⟩
      · intro q j n outcome sample other
        cases other
      · intro q j outcome sample before after new
        cases new
        have number : ((s.core p).rounds i).number = (s.record i).round := owned.number.symm
        have waiting := inv.waiting p pending
        rwa [number] at waiting

/-- In every run a frozen outcome is the only one of its round. -/
theorem frozen_reachable {gen : Generation} {s₀ s : Sys} (initial : Initial gen s₀)
    (run : Steps gen s₀ s) (i : Nat) : Frozen s i := by
  -- The invariants of the system go along.
  refine (steps_keep (fun s => Sound s ∧ Frozen s i) ?_
    ⟨sound_initial initial, frozen_initial initial i⟩ run).2
  rintro s s' ⟨sound, inv⟩ step
  exact ⟨sound_step sound step, frozen_step inv sound step⟩

/-- A finish of a round that is over changes nothing at all. -/
theorem finish_over {gen : Generation} {i : Nat} {result : Bool} {reason source : String}
    {error : Option Errno} {w : World}
    (past : (w.self.round i).active = false ∨ (w.self.round i).pending = true) :
    wp (finish gen i result reason source error) (fun _ w' => w' = w) w := by
  -- The outcome cannot be frozen again.
  unfold finish
  rw [wp_bind]
  refine wp_freeze (fun _ => ?_) (fun delay rs pos active idle _ => ?_)
  · simp
  · rcases past with done | done
    · rw [active] at done
      cases done
    · rw [idle] at done
      cases done

/-- Exactly-once commits: in every reachable state a peer's committed rounds strictly increase, each
committed outcome is the only one frozen in its round by the round's claimant, a later finish of
that round changes nothing, and the health is the fold of the committed outcomes. -/
theorem exactly_once {gen : Generation} {s₀ s : Sys} (initial : Initial gen s₀)
    (run : Steps gen s₀ s) (i : Nat) :
    ((s.commits i).Pairwise fun newer older => older.round < newer.round) ∧
      Along Settles (s.events i) ∧
      (∀ (w : World) outcome sample result reason source error, w.sys = s →
        .frozen w.me i (w.self.round i).number outcome sample ∈ s.events i →
        wp (finish gen i result reason source error) (fun _ w' => w' = w) w) ∧
      (s.record i).health.untimed =
        foldHealth gen i (s₀.record i).health.untimed (s.commits i) := by
  -- Each part reads off its own invariant.
  have committed := committed_reachable initial run i
  have frozen := frozen_reachable initial run i
  refine ⟨committed.decreasing, frozen.settles, ?_, committed.health⟩
  rintro w outcome sample result reason source error rfl member
  refine finish_over (Or.inl ?_)
  by_contra busy
  rw [Bool.not_eq_false] at busy
  exact frozen.open_ w.me busy w.me outcome sample member

/-- Two rounds of the sample, of which the first one is committed. -/
theorem exactly_once_twoRounds : ((reached sample twoRounds).commits 0).length = 1 ∧
    ((reached sample twoRounds).record 0).health.untimed =
      foldHealth sample 0 ((fresh sample).record 0).health.untimed
        ((reached sample twoRounds).commits 0) :=
  -- The run is computed, and the theorem folds what it committed.
  ⟨by decide +kernel,
    (exactly_once (fresh_initial sample) (reached_steps sample twoRounds) 0).2.2.2⟩

end Healthcheck
