import Healthcheck.Common.DelayLaws
import Healthcheck.Library.Hysteresis
import Healthcheck.System.Commit

/-! What the thresholds and the delay statistics make of the history of a peer's outcomes. -/

namespace Healthcheck

/-- The counters of a health record and its routing state. -/
def Health.counters (health : Health) : Hysteresis.State :=
  { count := fun value => if value then health.riseCount else health.fallCount
    down := health.down }

/-- Counters of a health record as machine words, of which at most one is in use. -/
structure Health.Fresh (word : Word) (health : Health) : Prop where
  rise : health.riseCount ≤ word.max
  fall : health.fallCount ≤ word.max
  exclusive : health.riseCount = 0 ∨ health.fallCount = 0

/-- The thresholds of a check, for the counters of its peer's health. -/
def CheckConf.limits {word : Word} {conf : CheckConf} (coherent : conf.Coherent word)
    (fits : conf.Fits word) : Hysteresis.Limits where
  threshold value := if value then conf.riseCount else conf.fallCount
  top := word.max
  positive value := by
    cases value with
    | true => exact coherent.rise_pos
    | false => exact coherent.fall_pos
  fits value := by
    cases value with
    | true => exact fits.rise
    | false => exact fits.fall

/-- The threshold of a result. -/
def CheckConf.threshold (conf : CheckConf) (result : Bool) : Nat :=
  if result then conf.riseCount else conf.fallCount

/-- The counter of a result. -/
def Health.counter (health : Health) (result : Bool) : Nat :=
  if result then health.riseCount else health.fallCount

/-- The trailing run of one result among some outcomes, newest first; outcomes of that result
alone continue the run that a counter was started with. -/
def consecutive (value : Bool) (start : Nat) (commits : List Outcome) : Nat :=
  (commits.takeWhile (·.result == value)).length +
    if ∀ outcome ∈ commits, outcome.result = value then start else 0

/-- Whether an outcome leaves its counter at or above the threshold. -/
def Decides (gen : Generation) (i : Nat) (start : Health) (outcome : Outcome)
    (earlier : List Outcome) : Prop :=
  (gen.conf i).threshold outcome.result ≤
    (foldHealth gen i start (outcome :: earlier)).counter outcome.result

/-- The health of a peer after some outcomes, newest first. -/
structure HealthLaw (gen : Generation) (i : Nat) (start : Health) (commits : List Outcome) :
    Prop where
  exclusive : (foldHealth gen i start commits).riseCount = 0 ∨
    (foldHealth gen i start commits).fallCount = 0
  rising : (gen.conf i).riseCount ≤ (foldHealth gen i start commits).riseCount ↔
    (gen.conf i).riseCount ≤ consecutive true start.riseCount commits
  falling : (gen.conf i).fallCount ≤ (foldHealth gen i start commits).fallCount ↔
    (gen.conf i).fallCount ≤ consecutive false start.fallCount commits
  /-- The last outcome that decides has the switch. -/
  decided : ∀ later outcome earlier, commits = later ++ outcome :: earlier →
    Decides gen i start outcome earlier →
    (∀ newer other older, later = newer ++ other :: older →
      ¬ Decides gen i start other (older ++ outcome :: earlier)) →
    (foldHealth gen i start commits).down = if outcome.result then 0 else 1
  undecided : (∀ later outcome earlier, commits = later ++ outcome :: earlier →
      ¬ Decides gen i start outcome earlier) →
    (foldHealth gen i start commits).down = start.down
  /-- A peer goes down only with enough consecutive failures. -/
  downed : ∀ later outcome earlier, commits = later ++ outcome :: earlier →
    (foldHealth gen i start earlier).down ≠ 1 →
    (foldHealth gen i start (outcome :: earlier)).down = 1 →
    outcome.result = false ∧
      (gen.conf i).fallCount ≤ consecutive false start.fallCount (outcome :: earlier)
  /-- A peer comes up only with enough consecutive successes. -/
  restored : ∀ later outcome earlier, commits = later ++ outcome :: earlier →
    (foldHealth gen i start earlier).down ≠ 0 →
    (foldHealth gen i start (outcome :: earlier)).down = 0 →
    outcome.result = true ∧
      (gen.conf i).riseCount ≤ consecutive true start.riseCount (outcome :: earlier)
  /-- A peer that is up has not failed often enough, and one that is down not succeeded. -/
  below : commits ≠ [] →
    ((foldHealth gen i start commits).down = 0 →
      (foldHealth gen i start commits).fallCount < (gen.conf i).fallCount) ∧
    ((foldHealth gen i start commits).down ≠ 0 →
      (foldHealth gen i start commits).riseCount < (gen.conf i).riseCount)

/-- A delay sample keeps the counters. -/
theorem counters_addDelay (word : Word) (health : Health) (delay : Nat) :
    (health.addDelay word delay).counters = health.counters := by
  -- They are stored apart.
  unfold Health.addDelay
  cases updateDelay word health.delays delay <;> rfl

/-- A submission moves the counters as the thresholds say, whatever it does with its sample. -/
theorem counters_submitHealth {word : Word} {conf : CheckConf} (coherent : conf.Coherent word)
    (fits : conf.Fits word) (health : Health) (result : Bool) (sample : Option Nat) :
    (submitHealth word conf health result sample).counters =
      (conf.limits coherent fits).step result health.counters := by
  cases result with
  | true =>
    have counted : ∀ health' : Health, health'.counters =
        (submitHealth word conf health true none).counters →
        health'.counters = (conf.limits coherent fits).step true health.counters := by
      intro health' same
      rw [same]
      unfold Health.counters Hysteresis.Limits.step
      congr 1
    cases sample with
    | none => exact counted _ rfl
    -- The delay sample comes after the counters and leaves them alone.
    | some delay => exact counted _ (counters_addDelay ..)
  | false =>
    unfold Health.counters Hysteresis.Limits.step
    congr 1
    funext value
    cases value <;> rfl

/-- The fold of the submissions is a run of the two counters. -/
theorem counters_foldHealth {gen : Generation} {i : Nat} (fits : (gen.conf i).Fits gen.word)
    (start : Health) (commits : List Outcome) :
    (foldHealth gen i start commits).counters =
      ((gen.conf i).limits (gen.coherent i) fits).after start.counters
        (commits.map Outcome.result) := by
  -- Induction on the commits: each one counts its result.
  induction commits with
  | nil => rfl
  | cons outcome earlier ih =>
    rw [List.map_cons, Hysteresis.after_cons, ← ih]
    exact counters_submitHealth (gen.coherent i) fits _ outcome.result outcome.sample

/-- The run of equal results is the one of the library. -/
theorem run_eq_consecutive (value : Bool) (start : Nat) (commits : List Outcome) :
    Hysteresis.run value start (commits.map Outcome.result) =
      consecutive value start commits := by
  -- The results are a part of the commits.
  unfold Hysteresis.run consecutive
  rw [List.takeWhile_map, List.length_map]
  simp only [List.forall_mem_map]
  rfl

variable {gen : Generation} {i : Nat} {start : Health}

/-- A record with machine words and one counter in use starts the two counters afresh. -/
theorem counters_fresh (fits : (gen.conf i).Fits gen.word) (fresh : start.Fresh gen.word) :
    ((gen.conf i).limits (gen.coherent i) fits).Fresh start.counters := by
  -- One limit for each side.
  constructor
  · exact fresh.exclusive
  · intro value
    cases value with
    | true => exact fresh.rise
    | false => exact fresh.fall

/-- An outcome decides in the record when it decides for the two counters. -/
theorem decides_iff (fits : (gen.conf i).Fits gen.word) (outcome : Outcome)
    (earlier : List Outcome) :
    Decides gen i start outcome earlier ↔
      ((gen.conf i).limits (gen.coherent i) fits).Decisive start.counters outcome.result
        (earlier.map Outcome.result) := by
  -- Both read the counters before and after the outcome.
  unfold Decides Hysteresis.Limits.Decisive
  rw [← List.map_cons, ← counters_foldHealth fits]
  rfl

/-- The routing state is the switch of the two counters. -/
theorem down_foldHealth (fits : (gen.conf i).Fits gen.word) (commits : List Outcome) :
    (foldHealth gen i start commits).down =
      (((gen.conf i).limits (gen.coherent i) fits).after start.counters
        (commits.map Outcome.result)).down := by
  -- The state is one of the counters.
  rw [← counters_foldHealth fits]
  rfl

/-- A counter of the record is the counter of its result. -/
theorem counter_foldHealth (fits : (gen.conf i).Fits gen.word) (commits : List Outcome)
    (value : Bool) :
    (foldHealth gen i start commits).counter value =
      (((gen.conf i).limits (gen.coherent i) fits).after start.counters
        (commits.map Outcome.result)).count value := by
  -- The count of one side is one of the counters.
  rw [← counters_foldHealth fits]
  rfl

/-- A counter is at or above its threshold exactly when the trailing run of its result is. -/
theorem threshold_le_counter (fits : (gen.conf i).Fits gen.word) (fresh : start.Fresh gen.word)
    (commits : List Outcome) (value : Bool) :
    (gen.conf i).threshold value ≤ (foldHealth gen i start commits).counter value ↔
      (gen.conf i).threshold value ≤ consecutive value (start.counter value) commits := by
  -- The law of the library at these limits.
  rw [counter_foldHealth fits, ← run_eq_consecutive]
  exact Hysteresis.reaches_iff (counters_fresh fits fresh) value _

/-- Outcomes that decide nothing leave the routing state as it was before them. -/
theorem down_append (fits : (gen.conf i).Fits gen.word) {later earlier : List Outcome}
    (quiet : ∀ newer outcome older, later = newer ++ outcome :: older →
      ¬ Decides gen i start outcome (older ++ earlier)) :
    (foldHealth gen i start (later ++ earlier)).down =
      (foldHealth gen i start earlier).down := by
  rw [down_foldHealth fits, down_foldHealth fits, List.map_append]
  apply Hysteresis.down_kept
  intro newer result older split decisive
  -- A split of the results is a split of the outcomes they belong to.
  obtain ⟨newer', rest, rfl, rfl, tail⟩ := List.map_eq_append_iff.mp split
  obtain ⟨outcome, older', rfl, rfl, rfl⟩ := List.map_eq_cons_iff.mp tail
  apply quiet newer' outcome older' rfl
  rw [decides_iff fits, List.map_append]
  exact decisive

/-- The routing state only moves with an outcome that decides, to the side of that outcome. -/
theorem down_moves (fits : (gen.conf i).Fits gen.word) (fresh : start.Fresh gen.word)
    {outcome : Outcome} {earlier : List Outcome} (side : Bool)
    (before : (foldHealth gen i start earlier).down ≠ if side then 0 else 1)
    (now : (foldHealth gen i start (outcome :: earlier)).down = if side then 0 else 1) :
    outcome.result = side ∧
      (gen.conf i).threshold side ≤
        consecutive side (start.counter side) (outcome :: earlier) := by
  -- The law of the library at these limits.
  rw [down_foldHealth fits] at before now
  obtain ⟨decisive, value⟩ := Hysteresis.down_moved before now
  have same : outcome.result = side := by
    cases side <;> cases result : outcome.result <;> simp [result] at value ⊢
  refine ⟨same, ?_⟩
  rw [← threshold_le_counter fits fresh, ← same]
  exact (decides_iff fits outcome earlier).mpr decisive

/-- The health of a peer is what its thresholds make of the whole history of its outcomes: the
counters measure trailing runs, saturated or not, and the last outcome that completed a run of
its threshold's length has the routing state. -/
theorem hysteresis (fits : (gen.conf i).Fits gen.word) (fresh : start.Fresh gen.word)
    (commits : List Outcome) : HealthLaw gen i start commits := by
  -- Each field is a law of the library at these limits.
  constructor
  · have one := Hysteresis.exclusive_after (counters_fresh fits fresh)
      (commits.map Outcome.result)
    rw [← counters_foldHealth fits] at one
    exact one
  · exact threshold_le_counter fits fresh commits true
  · exact threshold_le_counter fits fresh commits false
  · intro later outcome earlier split decides quiet
    rw [split, down_append fits quiet, down_foldHealth fits, List.map_cons]
    exact Hysteresis.down_decisive ((decides_iff fits outcome earlier).mp decides)
  · intro quiet
    have kept : (foldHealth gen i start (commits ++ [])).down =
        (foldHealth gen i start []).down := by
      apply down_append fits
      intro newer outcome older split
      rw [List.append_nil]
      exact quiet newer outcome older split
    rw [List.append_nil] at kept
    exact kept
  · intro later outcome earlier _ before now
    exact down_moves fits fresh false before now
  · intro later outcome earlier _ before now
    exact down_moves fits fresh true before now
  · intro some
    obtain ⟨outcome, earlier, rfl⟩ := List.exists_cons_of_ne_nil some
    have below : ∀ side : Bool,
        (foldHealth gen i start (outcome :: earlier)).down ≠ (if side then 0 else 1) →
        (foldHealth gen i start (outcome :: earlier)).counter side <
          (gen.conf i).threshold side := by
      intro side other
      rw [counter_foldHealth fits, List.map_cons]
      rw [down_foldHealth fits, List.map_cons] at other
      exact Hysteresis.below_threshold other
    exact ⟨fun up => below false (by rw [up]; decide), fun down => below true down⟩

/-- A counter that is full falls back to the threshold, and the peer stays down. -/
theorem hysteresis_saturated :
    (foldHealth sample 0 { fallCount := sample.word.max, down := 1 }
      [{ round := 1, result := false, sample := none }]).fallCount = (sample.conf 0).fallCount ∧
    HealthLaw sample 0 { fallCount := sample.word.max, down := 1 }
      [{ round := 1, result := false, sample := none }] :=
  -- An inherited counter may be as large as a word.
  ⟨by decide, hysteresis ⟨by decide, by decide⟩ ⟨by decide, by decide, by decide⟩ _⟩

/-- The delay an outcome adds to the statistics. -/
def Outcome.delay (outcome : Outcome) : Option Nat :=
  if outcome.result then outcome.sample else none

/-- A delay sample changes the statistics as they say, and a refused one leaves them. -/
theorem delays_addDelay (word : Word) (health : Health) (delay : Nat) :
    (health.addDelay word delay).delays =
      (updateDelayIn word.size health.delays delay).getD health.delays := by
  -- A refused sample keeps the delays.
  unfold Health.addDelay updateDelay
  cases updateDelayIn word.size health.delays delay <;> rfl

/-- The statistics of a peer are fed with the samples of its successful outcomes. -/
theorem delays_foldHealth (gen : Generation) (i : Nat) (start : Health)
    (commits : List Outcome) :
    (foldHealth gen i start commits).delays =
      feed gen.word.size start.delays (commits.filterMap Outcome.delay) := by
  induction commits with
  | nil => rfl
  | cons outcome earlier ih =>
    obtain ⟨round, result, sample⟩ := outcome
    show (submitHealth gen.word (gen.conf i) (foldHealth gen i start earlier) result
      sample).delays = _
    -- Failures have no delay, and a success has one when its check sampled it.
    cases result with
    | false => exact ih
    | true =>
      cases sample with
      | none => exact ih
      | some delay =>
        rw [List.filterMap_cons_some (show Outcome.delay _ = some delay from rfl), feed_cons,
          ← ih]
        exact delays_addDelay gen.word _ delay

end Healthcheck
