import Healthcheck.System.History

/-!
Spacing of the rounds and the discipline of takeovers: a published deadline never lies before the
start of its round plus the timeout, and only an overdue round is taken over.
-/

namespace Healthcheck

open Trace

/-- No process reads the monotonic clock backwards. -/
def Monotone (s : Sys) : Prop :=
  ∀ p, (s.procs p).readings.Pairwise (· ≥ ·)

/-- Monotone readings were monotone before a step. -/
theorem monotone_before {gen : Generation} {s s' : Sys} (registrations : Registrations s)
    (step : Step gen s s') (monotone : Monotone s') : Monotone s := by
  -- A step only adds readings in front.
  intro q
  cases step_turn step with
  | spawned p worker pid unused slot positive after =>
    subst after
    by_cases same : q = p
    · rw [same, registrations.absent p unused]
      exact List.Pairwise.nil
    · have later := monotone q
      rwa [procs_setProc_other s _ same] at later
  | crashed p running after =>
    subst after
    have later := monotone q
    by_cases same : q = p
    · rw [same, procs_setProc] at later
      rw [same]
      exact later
    · rwa [procs_setProc_other s _ same] at later
  | moved p running frame move =>
    have later := monotone q
    by_cases same : q = p
    · rw [same] at later ⊢
      exact later.sublist frame.readings.sublist
    · rwa [frame.others q same] at later

/-- A deadline is at least one timeout after the start of its round. -/
structure Timely (gen : Generation) (s : Sys) (i : Nat) : Prop where
  record : (s.record i).phase ≠ .initial →
    addTime (s.record i).started (gen.conf i).checkTimeout ≤ (s.record i).deadline
  round : ∀ p, ((s.core p).rounds i).number ≠ 0 →
    addTime ((s.core p).rounds i).started (gen.conf i).checkTimeout ≤
        ((s.core p).rounds i).deadline ∧
      ∃ t ∈ (s.procs p).readings, ((s.core p).rounds i).started = milliseconds t

/-- The timeout of a check fits into 64 bits. -/
theorem timeout_le (gen : Generation) (i : Nat) : (gen.conf i).checkTimeout ≤ uint64Max := by
  -- It is smaller than the interval, which fits into the word.
  have coherent := gen.coherent i
  have below := coherent.timeout_lt
  have bound := coherent.interval_max
  have word : gen.word.max ≤ uint64Max := by cases gen.word <;> decide
  omega

/-- The interval of a check fits into 64 bits. -/
theorem interval_le (gen : Generation) (i : Nat) : (gen.conf i).checkInterval ≤ uint64Max := by
  -- It fits into the word of the machine.
  have bound := (gen.coherent i).interval_max
  have word : gen.word.max ≤ uint64Max := by cases gen.word <;> decide
  omega

/-- No deadline is set in a fresh system. -/
theorem timely_initial {gen : Generation} {s : Sys} (initial : Initial gen s) (i : Nat) :
    Timely gen s i := by
  -- The phase is INITIAL, and no process has a round.
  refine ⟨fun left => absurd (initial.phase i) left, fun p busy => ?_⟩
  rw [Sys.core, initial.procs] at busy
  exact absurd rfl busy

/-- A change of the record alone, or of a round that is older than the record. -/
theorem timely_congr {gen : Generation} {p i : Nat} {s s' : Sys} (inv : Timely gen s i)
    (frame : Frame p s s')
    (record : (s'.record i).phase ≠ .initial →
      addTime (s'.record i).started (gen.conf i).checkTimeout ≤ (s'.record i).deadline)
    (round : ((s'.core p).rounds i).number = ((s.core p).rounds i).number ∧
      ((s'.core p).rounds i).started = ((s.core p).rounds i).started ∧
      ((s'.core p).rounds i).deadline = ((s.core p).rounds i).deadline) : Timely gen s' i := by
  -- The round of the moving process has the times that it had.
  refine ⟨record, fun q busy => ?_⟩
  by_cases same : q = p
  · subst same
    obtain ⟨number, started, deadline⟩ := round
    rw [number] at busy
    obtain ⟨timely, t, read, start⟩ := inv.round q busy
    rw [started, deadline]
    exact ⟨timely, t, frame.readings.subset read, start⟩
  · rw [core_other frame same] at busy ⊢
    rw [frame.others q same]
    exact inv.round q busy

/-- A step keeps each deadline at least a timeout after its start. -/
theorem timely_step {gen : Generation} {s s' : Sys} {i : Nat} (inv : Timely gen s i)
    (sound : Sound s) (step : Step gen s s') (monotone : Monotone s') : Timely gen s' i := by
  have consistent := sound.consistent i
  cases step_turn step with
  | spawned p worker pid unused slot positive after =>
    subst after
    refine ⟨inv.record, fun q busy => ?_⟩
    by_cases same : q = p
    · rw [same, core_setProc] at busy
      exact absurd rfl busy
    · rw [core_setProc_other s _ same] at busy ⊢
      rw [procs_setProc_other s _ same]
      exact inv.round q busy
  | crashed p running after =>
    subst after
    refine ⟨inv.record, fun q busy => ?_⟩
    by_cases same : q = p
    · rw [same, core_setProc] at busy
      rw [same, core_setProc, procs_setProc]
      exact inv.round p busy
    · rw [core_setProc_other s _ same] at busy ⊢
      rw [procs_setProc_other s _ same]
      exact inv.round q busy
  | moved p running frame move =>
    cases move.touches i with
    | kept record _ round =>
      obtain ⟨same, _, _⟩ := round
      exact timely_congr inv frame (by rw [record]; exact inv.record)
        ⟨by rw [same], by rw [same], by rw [same]⟩
    | claimed takeover started mine claimable read record _ round =>
      have deadline : (s'.record i).deadline = addTime started (gen.conf i).checkTimeout := by
        rw [record]
        rfl
      have start : (s'.record i).started = started := by rw [record]; rfl
      refine ⟨fun _ => by rw [deadline, start], fun q busy => ?_⟩
      by_cases same : q = p
      · obtain ⟨t, member, _, reading⟩ := read
        rw [same, round]
        refine ⟨?_, t, member, reading⟩
        change addTime started _ ≤ (s'.record i).deadline
        rw [deadline]
      · rw [core_other frame same] at busy ⊢
        rw [frame.others q same]
        exact inv.round q busy
    | prepared t tcp record _ read round =>
      refine ⟨by rw [record]; exact inv.record, fun q busy => ?_⟩
      by_cases same : q = p
      · subst same
        rw [round] at busy
        obtain ⟨_, earlier, member, start⟩ := inv.round q busy
        -- The new reading is no earlier than the one the round started with.
        have sorted := monotone q
        rw [read] at sorted
        have order : earlier ≤ t := (List.pairwise_cons.mp sorted).1 earlier member
        rw [round]
        refine ⟨?_, earlier, ?_, start⟩
        · change addTime ((s.core q).rounds i).started _ ≤ addTime (milliseconds t) _
          rw [start]
          exact addTime_mono (Nat.div_le_div_right order) (Nat.le_refl _) (timeout_le gen i)
        · rw [read]
          exact List.mem_cons_of_mem _ member
      · rw [core_other frame same] at busy ⊢
        rw [frame.others q same]
        exact inv.round q busy
    | progressed owned preparing record _ round =>
      have stage : (s.record i).phase ≠ .initial := by rw [preparing]; decide
      have positive : ((s.core p).rounds i).number ≠ 0 := by
        rw [show ((s.core p).rounds i).number = (s.record i).round from owned.number.symm]
        exact fun zero => stage (consistent.initial.mpr zero)
      -- The record takes over the deadline of the round that it names.
      have start : ((s.core p).rounds i).started = (s.record i).started :=
        congrArg Claim.started (consistent.matched p positive owned.number.symm)
      refine timely_congr inv frame (fun _ => ?_) ⟨by rw [round], by rw [round], by rw [round]⟩
      rw [record]
      change addTime (s.record i).started _ ≤ ((s.core p).rounds i).deadline
      rw [← start]
      exact (inv.round p positive).1
    | froze result delay _ _ record _ round =>
      exact timely_congr inv frame (by rw [record]; exact inv.record)
        ⟨by rw [round]; rfl, by rw [round]; rfl, by rw [round]; rfl⟩
    | committed submitted owned _ stage record _ round =>
      refine timely_congr inv frame (fun _ => ?_) ⟨by rw [round], by rw [round], by rw [round]⟩
      rw [record]
      change addTime (s.record i).started _ ≤
        max (addTime (s.record i).started (gen.conf i).checkInterval) submitted
      refine Nat.le_trans ?_ (Nat.le_max_left _ _)
      exact addTime_mono (Nat.le_refl _) (Nat.le_of_lt (gen.coherent i).timeout_lt)
        (interval_le gen i)

/-- In every run each deadline is at least a timeout after its start. -/
theorem timely_reachable {gen : Generation} {s₀ s : Sys} (initial : Initial gen s₀)
    (run : Steps gen s₀ s) (monotone : Monotone s) (i : Nat) : Timely gen s i := by
  -- Induction on the run; monotone readings at its end are monotone all along.
  induction run with
  | refl => exact timely_initial initial i
  | tail earlier step ih =>
    have sound := sound_reachable initial earlier
    exact timely_step (ih (monotone_before sound.registrations step monotone)) sound step monotone

/-- What a claim of process `p` over the present record has respected at its start time. -/
structure Spaced (gen : Generation) (s : Sys) (p i : Nat) (takeover : Option PeerState)
    (now : Nat) (before after : PeerState) : Prop where
  record : before = s.record i ∧ after.started = now
  regular : takeover = none → (before.phase = .initial ∨ before.phase = .waiting) ∧
    before.worker = (s.core p).worker ∧ (before.inst = 0 ∨ before.inst = (s.core p).inst) ∧
    (before.started = 0 ∨ addTime before.started (gen.conf i).checkInterval ≤ now)
  observed : ∀ observed, takeover = some observed → before.term = observed.term ∧
    before.round = observed.round ∧ before.phase = observed.phase ∧
    before.deadline = observed.deadline
  overdue : takeover ≠ none → before.phase ≠ .initial → addTime before.deadline gen.grace ≤ now
  unstarted : takeover ≠ none → before.phase = .initial →
    addTime (addTime s.shared.activatedAt (addTime (max (gen.conf i).checkInterval 1000)
      (max ((gen.conf i).checkInterval / 2) 1))) gen.grace ≤ now
  deadline : before.phase ≠ .initial →
    addTime before.started (gen.conf i).checkTimeout ≤ before.deadline
  preempted : before.phase ≠ .initial → after.worker ≠ before.worker ∨ after.inst ≠ before.inst →
    addTime before.deadline gen.grace ≤ now
  apart : before.phase ≠ .initial → ¬ (takeover = none ∧ before.started = 0) →
    before.started + min (gen.conf i).checkInterval ((gen.conf i).checkTimeout + gen.grace) ≤
      after.started

/-- The grace of a takeover fits into 64 bits. -/
theorem grace_le (gen : Generation) : gen.grace ≤ uint64Max :=
  Nat.max_le.mpr ⟨by decide, mulTime_le _ _⟩

/-- A millisecond reading never reaches the value at which times saturate. -/
theorem milliseconds_lt {t : Nat} (range : t ≤ uint64Max) : milliseconds t < uint64Max := by
  -- A division by a million shrinks the largest number.
  have positive := uint64Max_pos
  have small : milliseconds t ≤ uint64Max / 1000000 := Nat.div_le_div_right range
  have shrunk : uint64Max / 1000000 < uint64Max := Nat.div_lt_self positive (by decide)
  omega

/-- A claim that passed its test under a monotone clock is spaced. -/
theorem spaced_claimed {gen : Generation} {s : Sys} {p i t : Nat} {takeover : Option PeerState}
    (consistent : Consistent s i) (timely : Timely gen s i) (range : t ≤ uint64Max)
    (claimable : Claimable gen s (s.procs p) i takeover (milliseconds t)) :
    Spaced gen s p i takeover (milliseconds t) (s.record i)
      (claimState (gen.conf i) (s.procs p).runtime (s.procs p).pid (milliseconds t)
        (s.record i)) := by
  obtain ⟨_, _, rule⟩ := claimTest_ok claimable.test
  have below := milliseconds_lt range
  have regular : takeover = none →
      RegularTest gen i (s.procs p).runtime (milliseconds t) (s.record i) := by
    rintro rfl
    exact rule
  have seized : ∀ observed, takeover = some observed → TakeoverTest gen i (s.procs p).runtime
      observed s.shared.activatedAt (milliseconds t) (s.record i) := by
    rintro observed rfl
    exact rule
  have overdue : takeover ≠ none → (s.record i).phase ≠ .initial →
      addTime (s.record i).deadline gen.grace ≤ milliseconds t := by
    intro some_ stage
    obtain ⟨observed, found⟩ := Option.ne_none_iff_exists'.mp some_
    have late := (seized observed found).overdue
    rwa [peerDeadline, if_pos stage] at late
  refine ⟨⟨rfl, rfl⟩, fun none => ?_, fun observed found => ?_, overdue, fun some_ stage => ?_,
    timely.record, fun stage moved => ?_, fun stage exception => ?_⟩
  · obtain ⟨worker, inst, phase, due⟩ := regular none
    exact ⟨phase, worker, inst, due⟩
  · obtain ⟨term, round, phase, deadline, _, _⟩ := seized observed found
    exact ⟨term, round, phase, deadline⟩
  · obtain ⟨observed, found⟩ := Option.ne_none_iff_exists'.mp some_
    have late := (seized observed found).overdue
    rwa [peerDeadline, if_neg (not_not.mpr stage)] at late
  · -- A regular claim outside the initial phase never changes the owner.
    cases takeover with
    | some observed => exact overdue (by simp) stage
    | none =>
      obtain ⟨worker, inst, _, _⟩ := regular rfl
      have positive : (s.record i).inst ≠ 0 := fun zero =>
        stage (consistent.initial.mpr (consistent.inst.mp zero))
      have own : (s.record i).inst = (s.procs p).runtime.inst := inst.resolve_left positive
      rcases moved with other | other
      · exact absurd worker.symm other
      · exact absurd own.symm other
  · change _ ≤ milliseconds t
    cases takeover with
    | none =>
      have due := (regular rfl).due.resolve_left (fun zero => exception ⟨rfl, zero⟩)
      have apart := Saturating.le_of_add_le (interval_le gen i) due below
      omega
    | some observed =>
      have late := overdue (by simp) stage
      have early := addTime_mono (timely.record stage) (Nat.le_refl gen.grace) (grace_le gen)
      have both : addTime (addTime (s.record i).started (gen.conf i).checkTimeout) gen.grace =
          min ((s.record i).started + (gen.conf i).checkTimeout + gen.grace) uint64Max :=
        Saturating.add_add (timeout_le gen i) (grace_le gen)
      omega

/-- Round spacing and takeover discipline, for every claim a step publishes: the start times are at
least the interval, or the timeout and the grace, apart unless a regular claim finds a round that
started at time zero. -/
theorem spacing {gen : Generation} {s₀ s s' : Sys} (initial : Initial gen s₀)
    (run : Steps gen s₀ s) (step : Step gen s s') (monotone : Monotone s') {p i now : Nat}
    {takeover : Option PeerState} {before after : PeerState}
    (published : s'.events i = .claimed p i takeover now before after :: s.events i) :
    Spaced gen s p i takeover now before after := by
  have sound := sound_reachable initial run
  have timely := timely_reachable initial run
    (monotone_before sound.registrations step monotone) i
  -- The step published this claim, so it is a claim of this process.
  have longer : s'.events i ≠ s.events i := by
    rw [published]
    exact fun same => absurd (congrArg List.length same) (by simp)
  cases step_turn step with
  | spawned q worker pid unused slot positive after =>
    subst after
    exact absurd rfl longer
  | crashed q running after =>
    subst after
    exact absurd rfl longer
  | moved q running frame move =>
    cases move.touches i with
    | kept _ events => exact absurd events longer
    | prepared _ _ _ events => exact absurd events longer
    | progressed _ _ _ events =>
      rw [published] at events
      cases events
    | froze _ _ _ _ _ events =>
      rw [published] at events
      cases events
    | committed _ _ _ _ _ events =>
      rw [published] at events
      cases events
    | claimed observed started mine claimable read record events =>
      obtain ⟨t, _, range, start⟩ := read
      subst start
      rw [published] at events
      injection events with same _
      injection same with process _ kind time old new
      subst process kind time old new
      rw [record]
      exact spaced_claimed (sound.consistent i) timely range claimable

/-- A round of one worker until its commit. -/
def oneRound (time : Nat) : List Command :=
  workerRun 0 0 100 time [(time, .claimRound 0 none 0),
    (time, .freeze 0 true "tcp peek success" "recv" none), (time, .settle 0 0)]

/-- The claim of the next round. -/
def nextClaim (time : Nat) : Command :=
  .call 0 (quietAt time) (.claimRound 0 none 0)

/-- Only one process runs, so one process's readings decide. -/
theorem monotone_single {commands : List Command}
    (single : ∀ command ∈ commands, command.proc = 0)
    (sorted : ((reached sample commands).procs 0).readings.Pairwise (· ≥ ·)) :
    Monotone (reached sample commands) := by
  -- Only one process read the clock.
  intro q
  by_cases zero : q = 0
  · rw [zero]
    exact sorted
  · rw [reached_other (fun command member => by rw [single command member]; exact zero)]
    exact List.Pairwise.nil

/-- A committed round of the sample and the claim after its interval. -/
theorem spacing_oneRound : Spaced sample (reached sample (oneRound 10)) 0 0 none 3010
    ((reached sample (oneRound 10)).record 0)
    ((reached sample (oneRound 10 ++ [nextClaim 3010])).record 0) :=
  -- The round was started at 10, and the last command claims the next one.
  spacing (fresh_initial sample) (reached_steps sample (oneRound 10))
    (reached_last (oneRound 10) (nextClaim 3010) (by decide +kernel))
      (monotone_single (by decide) (by decide +kernel))
    (by decide +kernel)

/-- A round that starts in the first millisecond of the clock looks like one that never started, so
the next one may follow it a millisecond later. -/
theorem spacing_fails_at_zero :
    Initial sample (fresh sample) ∧
      Steps sample (fresh sample) (reached sample (oneRound 0 ++ [nextClaim 1])) ∧
      Monotone (reached sample (oneRound 0 ++ [nextClaim 1])) ∧
      ∃ before after, (reached sample (oneRound 0 ++ [nextClaim 1])).events 0 =
          .claimed 0 0 none 1 before after :: (reached sample (oneRound 0)).events 0 ∧
        before.phase = .waiting ∧ before.started = 0 ∧ after.started = 1 ∧
        after.started < before.started +
          min (sample.conf 0).checkInterval ((sample.conf 0).checkTimeout + sample.grace) :=
  -- Both claims are carried out, one millisecond apart.
  ⟨fresh_initial sample, reached_steps sample _,
    monotone_single (by decide) (by decide +kernel),
    (reached sample (oneRound 0)).record 0,
    (reached sample (oneRound 0 ++ [nextClaim 1])).record 0, by decide +kernel⟩

end Healthcheck
