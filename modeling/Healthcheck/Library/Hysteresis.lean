import Mathlib.Data.List.Basic
import Mathlib.Order.MinMax

/-!
A switch that two counters of consecutive results move, with thresholds of their own, and its
behaviour in closed form. Histories are lists with the newest result first.
-/

namespace Hysteresis

/-- The thresholds of the two counters, and the largest value a counter can hold. -/
structure Limits where
  /-- The threshold of the counter of successes (`true`) and of failures (`false`). -/
  threshold : Bool → Nat
  top : Nat
  positive : ∀ value, 1 ≤ threshold value
  fits : ∀ value, threshold value ≤ top

/-- The two counters and the switch, which is zero while the successes have it. -/
structure State where
  count : Bool → Nat
  down : Nat

variable (limits : Limits)

/-- A full counter falls back to its threshold instead of wrapping. -/
def Limits.bump (value : Bool) (count : Nat) : Nat :=
  if count < limits.top then count + 1 else limits.threshold value

/-- One result moves its own counter, clears the other, and moves the switch at the threshold. -/
def Limits.step (result : Bool) (state : State) : State :=
  let counted := limits.bump result (state.count result)
  { count := fun value => if value = result then counted else 0
    down := if limits.threshold result ≤ counted then (if result then 0 else 1) else state.down }

/-- The state after a history. -/
def Limits.after (start : State) (results : List Bool) : State :=
  results.foldr limits.step start

/-- The length of the trailing run of a result, which a history of that result alone extends by
the count it started with. -/
def run (value : Bool) (start : Nat) (results : List Bool) : Nat :=
  (results.takeWhile (· == value)).length + if ∀ result ∈ results, result = value then start else 0

/-- Whether the newest result leaves its counter at or above its threshold. -/
def Limits.Decisive (start : State) (result : Bool) (earlier : List Bool) : Prop :=
  limits.threshold result ≤ (limits.after start (result :: earlier)).count result

/-- What a counter knows of the run it counts: its length, or that it is past the threshold. -/
def Limits.Tracks (value : Bool) (count run : Nat) : Prop :=
  count = run ∧ run ≤ limits.top ∨
    limits.threshold value ≤ count ∧ count ≤ limits.top ∧ limits.threshold value ≤ run

/-- Starting counters that machine words can hold, at most one of them in use. -/
structure Limits.Fresh (start : State) : Prop where
  exclusive : start.count true = 0 ∨ start.count false = 0
  fits : ∀ value, start.count value ≤ limits.top

/-- Without results a run is as long as it was at the start. -/
@[simp] theorem run_nil (value : Bool) (start : Nat) : run value start [] = start := by
  simp [run]

/-- A result continues the run of its own value and ends every other one. -/
theorem run_cons (value : Bool) (start : Nat) (result : Bool) (earlier : List Bool) :
    run value start (result :: earlier) =
      if result = value then run value start earlier + 1 else 0 := by
  -- A result goes on with the run, or ends it.
  unfold run
  by_cases same : result = value
  · subst same
    simp only [List.takeWhile_cons, beq_self_eq_true, if_true, List.length_cons,
      List.forall_mem_cons, true_and]
    omega
  · have differs : (result == value) = false := by simpa using same
    simp [same]

/-- Without results the state is the one at the start. -/
@[simp] theorem after_nil (start : State) : limits.after start [] = start := rfl

/-- The newest result moves the state that the earlier ones led to. -/
theorem after_cons (start : State) (result : Bool) (earlier : List Bool) :
    limits.after start (result :: earlier) = limits.step result (limits.after start earlier) := rfl

variable {limits}

/-- A counter reaches its threshold exactly when its run does. -/
theorem Limits.Tracks.reaches {value : Bool} {count run : Nat}
    (tracks : limits.Tracks value count run) :
    limits.threshold value ≤ count ↔ limits.threshold value ≤ run := by
  -- A count that stopped early has reached the threshold, and so has its run.
  rcases tracks with ⟨same, _⟩ | ⟨counted, _, long⟩
  · rw [same]
  · exact ⟨fun _ => long, fun _ => counted⟩

/-- Counting on keeps track of a longer run, also where the counter is full. -/
theorem Limits.Tracks.bump {value : Bool} {count run : Nat}
    (tracks : limits.Tracks value count run) :
    limits.Tracks value (limits.bump value count) (run + 1) := by
  have fits := limits.fits value
  unfold Limits.bump
  rcases tracks with ⟨same, within⟩ | ⟨counted, within, long⟩
  · by_cases room : count < limits.top
    · rw [if_pos room]
      exact Or.inl ⟨by omega, by omega⟩
    -- A full counter has counted the whole run, which is longer than the threshold by now.
    · rw [if_neg room]
      exact Or.inr ⟨Nat.le_refl _, fits, by omega⟩
  · by_cases room : count < limits.top
    · rw [if_pos room]
      exact Or.inr ⟨by omega, by omega, by omega⟩
    · rw [if_neg room]
      exact Or.inr ⟨Nat.le_refl _, fits, by omega⟩

/-- After every history each counter knows its run. -/
theorem tracks_after {start : State} (fresh : limits.Fresh start) (value : Bool)
    (results : List Bool) :
    limits.Tracks value ((limits.after start results).count value)
      (run value (start.count value) results) := by
  induction results with
  | nil => exact Or.inl ⟨by simp, by simpa using fresh.fits value⟩
  | cons result earlier ih =>
    rw [after_cons, run_cons]
    by_cases same : result = value
    · -- The counter of the result counts on.
      subst same
      simp only [Limits.step, if_true]
      exact ih.bump
    · -- The other counter is cleared with the run it counted.
      simp only [Limits.step, if_neg same, if_neg (Ne.symm same)]
      exact Or.inl ⟨rfl, Nat.zero_le _⟩

/-- A counter is at or above its threshold exactly when the trailing run is that long. -/
theorem reaches_iff {start : State} (fresh : limits.Fresh start) (value : Bool)
    (results : List Bool) :
    limits.threshold value ≤ (limits.after start results).count value ↔
      limits.threshold value ≤ run value (start.count value) results :=
  -- The count tracks the run from a fresh start on.
  (tracks_after fresh value results).reaches

/-- At most one of the counters is in use. -/
theorem exclusive_after {start : State} (fresh : limits.Fresh start) (results : List Bool) :
    (limits.after start results).count true = 0 ∨
      (limits.after start results).count false = 0 := by
  cases results with
  | nil => exact fresh.exclusive
  | cons result earlier =>
    -- The newest result has cleared the counter of the other one.
    rw [after_cons]
    cases result with
    | true => exact Or.inr rfl
    | false => exact Or.inl rfl

/-- A decisive result moves the switch to its own side. -/
theorem down_decisive {start : State} {result : Bool} {earlier : List Bool}
    (decisive : limits.Decisive start result earlier) :
    (limits.after start (result :: earlier)).down = if result then 0 else 1 := by
  -- The count has reached its threshold, so the switch is set.
  have reached : limits.threshold result ≤
      limits.bump result ((limits.after start earlier).count result) := by
    simpa [Limits.Decisive, after_cons, Limits.step] using decisive
  rw [after_cons]
  simp only [Limits.step, if_pos reached]

/-- Any other result leaves the switch alone. -/
theorem down_indecisive {start : State} {result : Bool} {earlier : List Bool}
    (indecisive : ¬ limits.Decisive start result earlier) :
    (limits.after start (result :: earlier)).down = (limits.after start earlier).down := by
  -- Below the threshold only the count moves.
  have below : ¬ limits.threshold result ≤
      limits.bump result ((limits.after start earlier).count result) := by
    simpa [Limits.Decisive, after_cons, Limits.step] using indecisive
  rw [after_cons]
  simp only [Limits.step, if_neg below]

/-- Results that decide nothing leave the switch as it was before them. -/
theorem down_kept {start : State} {later earlier : List Bool}
    (indecisive : ∀ newer result older, later = newer ++ result :: older →
      ¬ limits.Decisive start result (older ++ earlier)) :
    (limits.after start (later ++ earlier)).down = (limits.after start earlier).down := by
  -- Induction on the later results, each of which leaves the switch.
  induction later with
  | nil => rfl
  | cons result later ih =>
    rw [List.cons_append, down_indecisive (indecisive [] result later rfl)]
    apply ih
    intro newer r older split
    exact indecisive (result :: newer) r older (by rw [split, List.cons_append])

/-- The switch only moves at a decisive result, to the side of that result. -/
theorem down_moved {start : State} {result : Bool} {earlier : List Bool} {value : Nat}
    (before : (limits.after start earlier).down ≠ value)
    (now : (limits.after start (result :: earlier)).down = value) :
    limits.Decisive start result earlier ∧ value = if result then 0 else 1 := by
  -- An indecisive result would have left the switch where it was.
  by_cases decisive : limits.Decisive start result earlier
  · exact ⟨decisive, by rw [← now, down_decisive decisive]⟩
  · rw [down_indecisive decisive] at now
    exact absurd now before

/-- After a result, a counter at its threshold has the switch on its side. -/
theorem below_threshold {start : State} {result : Bool} {earlier : List Bool} {value : Bool}
    (side : (limits.after start (result :: earlier)).down ≠ if value then 0 else 1) :
    (limits.after start (result :: earlier)).count value < limits.threshold value := by
  by_cases same : result = value
  · subst same
    by_contra reached
    exact side (down_decisive (Nat.le_of_not_lt reached))
  · -- The other counter was cleared, and thresholds are positive.
    have positive := limits.positive value
    simp only [after_cons, Limits.step, if_neg (Ne.symm same)]
    omega

end Hysteresis
