import Mathlib.Algebra.Order.BigOperators.Group.List
import Mathlib.Algebra.Order.Group.Nat
import Mathlib.Order.Bounds.Basic
import Healthcheck.Common.Delay

/-!
The delay statistics over any sequence of samples, in exact arithmetic: a second version of the
update that refuses to wrap and to divide by zero never has to refuse, and computes the same.
-/

namespace Healthcheck

/-- What 64-bit arithmetic can do that exact arithmetic does not. -/
inductive Fault where
  | wrapped
  | dividedByZero
  deriving DecidableEq, Repr

/-- The exact result of an operation, if 64 bits hold it. -/
def fitting (value : Nat) : Except Fault Nat :=
  if value ≤ uint64Max then .ok value else .error .wrapped

/-- A quotient by something. -/
def quotient (a b : Nat) : Except Fault Nat :=
  if b = 0 then .error .dividedByZero else .ok (a / b)

/-- The halving loop without a bound on its passes: the count shrinks in each. -/
def halveExact (oldAvg delay count total : Nat) : Except Fault (Option (Nat × Nat)) :=
  if total > uint64Max - delay then
    if count / 2 = 0 then .ok none
    else do
      let total ← fitting (oldAvg * (count / 2))
      halveExact oldAvg delay (count / 2) total
  else .ok (some (count, total))
termination_by count

/-- The count the overflow path starts from: half of the old one, or what the average allows. -/
def halvedCount (oldAvg halved : Nat) : Except Fault Nat :=
  if oldAvg ≠ 0 then do
    let bound ← quotient uint64Max oldAvg
    return if halved > bound then bound else halved
  else .ok halved

/-- The overflow path in exact arithmetic. -/
def rescaleExact (stats : DelayStats) (delay : Nat) : Except Fault (Option (Nat × Nat)) := do
  let oldAvg ← quotient stats.delayTotal stats.delaySampleCount
  let halved ← fitting (stats.delaySampleCount / 2 + 1)
  let count ← halvedCount oldAvg halved
  if count = 0 then return none
  else do
    let total ← fitting (oldAvg * count)
    halveExact oldAvg delay count total

/-- The history a new delay is added to, in exact arithmetic. -/
def historyExact (stats : DelayStats) (delay : Nat) : Except Fault (Option (Nat × Nat)) :=
  if stats.delayTotal > uint64Max - delay ∨ stats.delaySampleCount = uint64Max then
    rescaleExact stats delay
  else .ok (some (stats.delaySampleCount, stats.delayTotal))

/-- The update in exact arithmetic. -/
def updateExact (stats : DelayStats) (delay : Nat) : Except Fault (Option DelayStats) :=
  if stats.delaySampleCount = 0 then
    .ok (some { last := delay, avg := delay, min := delay, max := delay,
                delayTotal := delay, delaySampleCount := 1 })
  else do
    match ← historyExact stats delay with
    | none => return none
    | some (count, total) =>
      let total ← fitting (total + delay)
      let count ← fitting (count + 1)
      let avg ← quotient total count
      return some
        { last := delay
          avg := avg
          min := if delay < stats.min then delay else stats.min
          max := if delay > stats.max then delay else stats.max
          delayTotal := total
          delaySampleCount := count }

/-- The statistics after some delays, newest first; a refused delay leaves the record as it is. -/
def feed (range : Nat) (empty : DelayStats) (delays : List Nat) : DelayStats :=
  delays.foldr (fun delay stats => (updateDelayIn range stats delay).getD stats) empty

/-- The delays among them that were not refused. -/
def accepted (range : Nat) (empty : DelayStats) : List Nat → List Nat
  | [] => []
  | delay :: earlier =>
    if (updateDelayIn range (feed range empty earlier) delay).isSome then
      delay :: accepted range empty earlier
    else accepted range empty earlier

/-- A record that holds the statistics of at least one sample. -/
structure DelayStats.Sound (range : Nat) (stats : DelayStats) : Prop where
  counted : 1 ≤ stats.delaySampleCount
  count_le : stats.delaySampleCount ≤ uint64Max
  total_le : stats.delayTotal ≤ uint64Max
  least : stats.min * stats.delaySampleCount ≤ stats.delayTotal
  greatest : stats.delayTotal ≤ stats.max * stats.delaySampleCount
  average : stats.avg = stats.delayTotal / stats.delaySampleCount
  bounded : stats.max < range

/-- A value in range is not wrapped. -/
theorem wrap64_of_le {value : Nat} (small : value ≤ uint64Max) : wrap64 value = value := by
  -- It is below the modulus.
  unfold wrap64
  unfold uint64Max at small
  omega

/-- A value in range fits. -/
@[simp] theorem fitting_of_le {value : Nat} (small : value ≤ uint64Max) :
    fitting value = .ok value :=
  if_pos small

/-- A positive divisor gives the quotient. -/
@[simp] theorem quotient_of_pos {a b : Nat} (positive : 0 < b) : quotient a b = .ok (a / b) :=
  if_neg (by omega)

/-- The average of a sound record lies between its extremes. -/
theorem DelayStats.Sound.average_bounds {range : Nat} {stats : DelayStats}
    (sound : stats.Sound range) : stats.min ≤ stats.avg ∧ stats.avg ≤ stats.max := by
  -- The total lies between the smallest and the largest sample, each taken as often as there are
  -- samples.
  rw [sound.average]
  constructor
  · exact (Nat.le_div_iff_mul_le sound.counted).mpr sound.least
  · exact Nat.div_le_of_le_mul (by rw [Nat.mul_comm]; exact sound.greatest)

variable {oldAvg delay count fuel : Nat}

/-- The halving loop refuses the delay only where the average itself leaves no room for it. -/
theorem halveDelay_none (crowded : uint64Max - delay < oldAvg) (counted : 1 ≤ count)
    (fits : oldAvg * count ≤ uint64Max) :
    halveDelay oldAvg delay fuel count (oldAvg * count) = none := by
  induction fuel generalizing count with
  | zero => rfl
  | succ fuel ih =>
    -- The average is part of every total, so no pass ends the loop with a total that fits.
    have large : oldAvg ≤ oldAvg * count := Nat.le_mul_of_pos_right _ counted
    have past : oldAvg * count > uint64Max - delay := by omega
    rw [halveDelay, if_pos past]
    by_cases last : count / 2 = 0
    · rw [if_pos last]
    · have smaller : oldAvg * (count / 2) ≤ oldAvg * count :=
        Nat.mul_le_mul_left _ (Nat.div_le_self _ _)
      rw [if_neg last, wrap64_of_le (by omega)]
      exact ih (by omega) (by omega)

/-- Elsewhere it ends with a history of the same average that leaves room for the delay. -/
theorem halveDelay_some (room : oldAvg ≤ uint64Max - delay) (counted : 1 ≤ count)
    (bits : count < 2 ^ fuel) (fits : oldAvg * count ≤ uint64Max) :
    ∃ kept, 1 ≤ kept ∧ kept ≤ count ∧ oldAvg * kept ≤ uint64Max - delay ∧
      halveDelay oldAvg delay fuel count (oldAvg * count) = some (kept, oldAvg * kept) := by
  induction fuel generalizing count with
  | zero => omega
  | succ fuel ih =>
    rw [halveDelay]
    by_cases past : oldAvg * count > uint64Max - delay
    · -- A count of one would leave a total that fits.
      have several : count / 2 ≠ 0 := by
        intro one
        have single : count = 1 := by omega
        rw [single, Nat.mul_one] at past
        omega
      have smaller : oldAvg * (count / 2) ≤ oldAvg * count :=
        Nat.mul_le_mul_left _ (Nat.div_le_self _ _)
      rw [if_pos past, if_neg several, wrap64_of_le (by omega)]
      have fewer : count / 2 < 2 ^ fuel := by
        rw [Nat.pow_succ] at bits
        omega
      obtain ⟨kept, least, most, within, result⟩ :=
        ih (Nat.pos_of_ne_zero several) fewer (by omega)
      exact ⟨kept, least, by omega, within, result⟩
    · rw [if_neg past]
      exact ⟨count, counted, Nat.le_refl _, by omega, rfl⟩

/-- The loop needs no bound on its passes, and no pass wraps. -/
theorem halveExact_eq (counted : 1 ≤ count) (bits : count < 2 ^ fuel)
    (fits : oldAvg * count ≤ uint64Max) :
    halveExact oldAvg delay count (oldAvg * count) =
      .ok (halveDelay oldAvg delay fuel count (oldAvg * count)) := by
  -- Induction on the bits of the count: each halving loses one.
  induction fuel generalizing count with
  | zero => omega
  | succ fuel ih =>
    rw [halveExact, halveDelay]
    by_cases past : oldAvg * count > uint64Max - delay
    · rw [if_pos past, if_pos past]
      by_cases last : count / 2 = 0
      · rw [if_pos last, if_pos last]
      · have smaller : oldAvg * (count / 2) ≤ oldAvg * count :=
          Nat.mul_le_mul_left _ (Nat.div_le_self _ _)
        have fewer : count / 2 < 2 ^ fuel := by
          rw [Nat.pow_succ] at bits
          omega
        rw [if_neg last, if_neg last, fitting_of_le (by omega), wrap64_of_le (by omega)]
        exact ih (Nat.pos_of_ne_zero last) fewer (by omega)
    · rw [if_neg past, if_neg past]

/-- The count the overflow path starts the loop with. -/
def startCount (oldAvg halved : Nat) : Nat :=
  if oldAvg ≠ 0 ∧ halved > uint64Max / oldAvg then uint64Max / oldAvg else halved

/-- The quotient that bounds the count is only taken by an average that is not zero. -/
theorem halvedCount_eq (oldAvg halved : Nat) :
    halvedCount oldAvg halved = .ok (startCount oldAvg halved) := by
  -- Neither branch divides by zero.
  unfold halvedCount startCount
  by_cases zero : oldAvg = 0
  · simp [zero]
  · rw [if_pos zero, quotient_of_pos (Nat.pos_of_ne_zero zero)]
    by_cases large : halved > uint64Max / oldAvg
    · rw [if_pos ⟨zero, large⟩]
      simp only [bind, Except.bind, pure, Except.pure, if_pos large]
    · rw [if_neg (fun both => large both.2)]
      simp only [bind, Except.bind, pure, Except.pure, if_neg large]

/-- A count that was halved starts at one or more. -/
theorem startCount_pos {halved : Nat} (small : oldAvg ≤ uint64Max) (positive : 1 ≤ halved) :
    1 ≤ startCount oldAvg halved := by
  -- A bound that cuts it is a quotient by no more than the range.
  unfold startCount
  split
  · rename_i large
    exact Nat.div_pos small (Nat.pos_of_ne_zero large.1)
  · exact positive

/-- The count to start with is not larger than the halved one. -/
theorem startCount_le (oldAvg halved : Nat) : startCount oldAvg halved ≤ halved := by
  -- It is the halved count or less than that.
  unfold startCount
  split <;> omega

/-- The average fits as often as the count to start with. -/
theorem mul_startCount_le (oldAvg halved : Nat) :
    oldAvg * startCount oldAvg halved ≤ uint64Max := by
  -- Whatever is over the quotient is cut to it.
  by_cases zero : oldAvg = 0
  · simp [zero]
  · have bound : startCount oldAvg halved ≤ uint64Max / oldAvg := by
      unfold startCount
      split
      · exact Nat.le_refl _
      · rename_i fits
        exact Nat.le_of_not_lt fun large => fits ⟨zero, large⟩
    exact Nat.le_trans (Nat.mul_le_mul_left _ bound) (Nat.mul_div_le _ _)

variable {range : Nat} {stats : DelayStats}

/-- The average and the count that the overflow path of a record enters the loop with. -/
structure Rescales (stats : DelayStats) (delay average count : Nat) : Prop where
  average_eq : average = stats.delayTotal / stats.delaySampleCount
  counted : 1 ≤ count
  count_lt : count < uint64Max
  fits : average * count ≤ uint64Max
  machine : rescaleDelay stats delay = halveDelay average delay 65 count (average * count)
  exact : rescaleExact stats delay = halveExact average delay count (average * count)

/-- A sound history can be rescaled for any new sample. -/
theorem rescales (sound : stats.Sound range) (delay : Nat) :
    ∃ average count, Rescales stats delay average count := by
  -- The halving ends with an average and a count for which the sample fits.
  have counted := sound.counted
  have halved_lt : stats.delaySampleCount / 2 + 1 < uint64Max := by
    have := sound.count_le
    unfold uint64Max at *
    omega
  have small : stats.delayTotal / stats.delaySampleCount ≤ uint64Max :=
    Nat.le_trans (Nat.div_le_self _ _) sound.total_le
  have positive := startCount_pos small (Nat.le_add_left 1 (stats.delaySampleCount / 2))
  have most := startCount_le (stats.delayTotal / stats.delaySampleCount)
    (stats.delaySampleCount / 2 + 1)
  have fits := mul_startCount_le (stats.delayTotal / stats.delaySampleCount)
    (stats.delaySampleCount / 2 + 1)
  refine ⟨_, _, rfl, positive, by omega, fits, ?_, ?_⟩
  · have shape : rescaleDelay stats delay =
        let count := startCount (stats.delayTotal / stats.delaySampleCount)
          (wrap64 (stats.delaySampleCount / 2 + 1))
        if count = 0 then none
        else halveDelay (stats.delayTotal / stats.delaySampleCount) delay 65 count
          (wrap64 (stats.delayTotal / stats.delaySampleCount * count)) := rfl
    rw [shape, wrap64_of_le (by omega)]
    dsimp only
    rw [if_neg (by omega), wrap64_of_le fits]
  · unfold rescaleExact
    rw [quotient_of_pos counted, fitting_of_le (by omega)]
    simp only [bind, Except.bind]
    rw [halvedCount_eq]
    simp only
    rw [if_neg (by omega), fitting_of_le fits]

/-- The history a sound record gives a delay it has room for. -/
structure History (stats : DelayStats) (delay count total : Nat) : Prop where
  counted : 1 ≤ count
  count_lt : count < uint64Max
  room : total ≤ uint64Max - delay
  least : stats.min * count ≤ total
  greatest : total ≤ stats.max * count
  /-- Without an overflow the history is the whole one. -/
  whole : stats.delayTotal + delay ≤ uint64Max → stats.delaySampleCount < uint64Max →
    count = stats.delaySampleCount ∧ total = stats.delayTotal

/-- The history in exact arithmetic is the one the machine computes. -/
theorem historyExact_eq (sound : stats.Sound range) (delay : Nat) :
    historyExact stats delay = .ok (delayHistory stats delay) := by
  -- The history is rescaled before the sample, or the sample fits as it is.
  unfold historyExact delayHistory
  by_cases past : stats.delayTotal > uint64Max - delay ∨ stats.delaySampleCount = uint64Max
  · obtain ⟨average, count, rescale⟩ := rescales sound delay
    have bits : count < 2 ^ 65 := by
      have := rescale.count_lt
      unfold uint64Max at this
      omega
    rw [if_pos past, if_pos past, rescale.machine, rescale.exact]
    exact halveExact_eq rescale.counted bits rescale.fits
  · rw [if_neg past, if_neg past]

/-- A delay is refused where the average leaves no room for it. -/
theorem delayHistory_none (sound : stats.Sound range)
    (crowded : uint64Max - delay < stats.delayTotal / stats.delaySampleCount) :
    delayHistory stats delay = none := by
  -- Even the average alone leaves no room for the sample.
  have large : stats.delayTotal / stats.delaySampleCount ≤ stats.delayTotal :=
    Nat.div_le_self _ _
  obtain ⟨average, count, rescale⟩ := rescales sound delay
  unfold delayHistory
  rw [if_pos (Or.inl (by omega)), rescale.machine]
  exact halveDelay_none (by rw [rescale.average_eq]; exact crowded) rescale.counted rescale.fits

/-- A delay the average has room for gets a history with that average's bounds. -/
theorem delayHistory_some (sound : stats.Sound range) (small : delay ≤ uint64Max)
    (room : stats.delayTotal / stats.delaySampleCount ≤ uint64Max - delay) :
    ∃ count total, delayHistory stats delay = some (count, total) ∧
      History stats delay count total := by
  unfold delayHistory
  by_cases past : stats.delayTotal > uint64Max - delay ∨ stats.delaySampleCount = uint64Max
  · rw [if_pos past]
    obtain ⟨average, count, rescale⟩ := rescales sound delay
    have bits : count < 2 ^ 65 := by
      have := rescale.count_lt
      unfold uint64Max at this
      omega
    obtain ⟨kept, least, most, within, result⟩ :=
      halveDelay_some (by rw [rescale.average_eq]; exact room) rescale.counted bits rescale.fits
    refine ⟨kept, average * kept, by rw [rescale.machine, result], least, ?_, within, ?_, ?_, ?_⟩
    · have := rescale.count_lt
      omega
    · -- The rescaled total has the old average, which lies between the extremes.
      have bounds := sound.average_bounds
      rw [sound.average, ← rescale.average_eq] at bounds
      exact Nat.mul_le_mul_right _ bounds.1
    · have bounds := sound.average_bounds
      rw [sound.average, ← rescale.average_eq] at bounds
      exact Nat.mul_le_mul_right _ bounds.2
    · intro total count
      omega
  · rw [if_neg past]
    have := sound.count_le
    exact ⟨_, _, rfl, sound.counted, by omega, by omega, sound.least, sound.greatest,
      fun _ _ => ⟨rfl, rfl⟩⟩

/-- The statistics with one more delay over a given history. -/
def DelayStats.next (stats : DelayStats) (delay count total : Nat) : DelayStats :=
  { last := delay
    avg := (total + delay) / (count + 1)
    min := if delay < stats.min then delay else stats.min
    max := if delay > stats.max then delay else stats.max
    delayTotal := total + delay
    delaySampleCount := count + 1 }

/-- A record without samples. -/
def DelayStats.zero : DelayStats :=
  { last := 0, avg := 0, min := 0, max := 0, delayTotal := 0, delaySampleCount := 0 }

/-- The statistics of one delay. -/
def DelayStats.single (delay : Nat) : DelayStats :=
  { last := delay, avg := delay, min := delay, max := delay, delayTotal := delay,
    delaySampleCount := 1 }

/-- One sample is a sound history. -/
theorem sound_single (fits : delay < range) (wide : range ≤ 2 ^ 64) :
    (DelayStats.single delay).Sound range where
  -- A single delay is its own minimum, maximum and average.
  counted := Nat.le_refl _
  count_le := by
    show 1 ≤ uint64Max
    decide
  total_le := by
    show delay ≤ 2 ^ 64 - 1
    omega
  least := Nat.le_of_eq (Nat.mul_one _)
  greatest := Nat.le_of_eq (Nat.mul_one _).symm
  average := (Nat.div_one _).symm
  bounded := fits

/-- One more delay keeps the sum between the extremes, however the history was rescaled. -/
theorem sound_next {total : Nat} (sound : stats.Sound range)
    (history : History stats delay count total) (fits : delay < range) (wide : range ≤ 2 ^ 64) :
    (stats.next delay count total).Sound range := by
  -- The new totals are in range because the history left room for the sample.
  have small : delay ≤ uint64Max := by
    unfold uint64Max
    omega
  obtain ⟨counted, count_lt, room, least, greatest, _⟩ := history
  have bounded := sound.bounded
  have below : (stats.next delay count total).min ≤ stats.min ∧
      (stats.next delay count total).min ≤ delay := by
    unfold DelayStats.next
    dsimp only
    split <;> omega
  have above : stats.max ≤ (stats.next delay count total).max ∧
      delay ≤ (stats.next delay count total).max := by
    unfold DelayStats.next
    dsimp only
    split <;> omega
  constructor
  · show 1 ≤ count + 1
    omega
  · show count + 1 ≤ uint64Max
    omega
  · show total + delay ≤ uint64Max
    omega
  · show _ * (count + 1) ≤ total + delay
    have old := Nat.mul_le_mul_right count below.1
    rw [Nat.mul_add, Nat.mul_one]
    omega
  · show total + delay ≤ _ * (count + 1)
    have old := Nat.mul_le_mul_right count above.1
    rw [Nat.mul_add, Nat.mul_one]
    omega
  · rfl
  · show (if delay > stats.max then delay else stats.max) < range
    split <;> omega

/-- A record that holds no sample takes any delay. -/
theorem update_empty (empty : stats.delaySampleCount = 0) (delay : Nat) :
    updateDelayIn range stats delay = some (DelayStats.single delay) ∧
      updateExact stats delay = .ok (some (DelayStats.single delay)) :=
  -- Without samples both computations start anew.
  ⟨if_pos empty, if_pos empty⟩

/-- A delay that fits is added to its history, and the machine computes the exact numbers. -/
theorem update_some (sound : stats.Sound range) (fits : delay < range) (wide : range ≤ 2 ^ 64)
    (room : stats.delayTotal / stats.delaySampleCount ≤ uint64Max - delay) :
    ∃ count total, History stats delay count total ∧
      updateDelayIn range stats delay = some (stats.next delay count total) ∧
      updateExact stats delay = .ok (some (stats.next delay count total)) := by
  have small : delay ≤ uint64Max := by
    unfold uint64Max
    omega
  obtain ⟨count, total, found, history⟩ := delayHistory_some sound small room
  have next := sound_next sound history fits wide
  have several : ¬ stats.delaySampleCount = 0 := Nat.ne_of_gt sound.counted
  have total_le : total + delay ≤ uint64Max := next.total_le
  have count_le : count + 1 ≤ uint64Max := next.count_le
  -- The average is at most the largest delay, so the cast keeps it.
  have cast : (total + delay) / (count + 1) % range = (total + delay) / (count + 1) :=
    Nat.mod_eq_of_lt (Nat.lt_of_le_of_lt (next.average_bounds).2 next.bounded)
  refine ⟨count, total, history, ?_, ?_⟩
  · unfold updateDelayIn
    rw [if_neg several, found]
    dsimp only
    rw [wrap64_of_le total_le, wrap64_of_le count_le, if_neg (Nat.succ_ne_zero count), cast]
    rfl
  · unfold updateExact
    rw [if_neg several, historyExact_eq sound, found]
    simp only [bind, Except.bind, fitting_of_le total_le, fitting_of_le count_le,
      quotient_of_pos (Nat.succ_pos count)]
    rfl

/-- A delay is refused where the average leaves no room for it. -/
theorem update_none (sound : stats.Sound range)
    (crowded : uint64Max - delay < stats.delayTotal / stats.delaySampleCount) :
    updateDelayIn range stats delay = none ∧ updateExact stats delay = .ok none := by
  -- No history can be built for the sample, exactly or on the machine.
  have several : ¬ stats.delaySampleCount = 0 := Nat.ne_of_gt sound.counted
  have found := delayHistory_none sound crowded
  constructor
  · unfold updateDelayIn
    rw [if_neg several, found]
  · unfold updateExact
    rw [if_neg several, historyExact_eq sound, found]
    rfl

/-- What a record says about the samples it has taken, newest first. -/
structure DelayStats.Meaningful (range : Nat) (stats : DelayStats) (samples : List Nat) :
    Prop where
  sound : stats.Sound range
  last : samples.head? = some stats.last
  least : IsLeast (fun sample => sample ∈ samples) stats.min
  greatest : IsGreatest (fun sample => sample ∈ samples) stats.max
  /-- While 64 bits hold the sum and the number of the samples, the record has both. -/
  representable : samples.sum ≤ uint64Max → samples.length ≤ uint64Max →
    stats.delayTotal = samples.sum ∧ stats.delaySampleCount = samples.length

/-- The statistics of one sample mean that sample. -/
theorem meaningful_single (fits : delay < range) (wide : range ≤ 2 ^ 64) :
    (DelayStats.single delay).Meaningful range [delay] where
  -- The statistics are those of the one delay.
  sound := sound_single fits wide
  last := rfl
  least := ⟨List.mem_singleton_self _, fun _ member => (List.mem_singleton.mp member).ge⟩
  greatest := ⟨List.mem_singleton_self _, fun _ member => (List.mem_singleton.mp member).le⟩
  representable := by
    intro _ _
    exact ⟨(List.sum_singleton).symm, rfl⟩

/-- The smaller of a new sample and the least old one is the least of all. -/
theorem isLeast_cons {samples : List Nat} {least : Nat}
    (old : IsLeast (fun sample => sample ∈ samples) least) (sample : Nat) :
    IsLeast (fun s => s ∈ sample :: samples) (if sample < least then sample else least) := by
  -- The new sample is the smallest, or the old one still is.
  by_cases smaller : sample < least
  · rw [if_pos smaller]
    refine ⟨List.mem_cons_self, fun other member => ?_⟩
    rcases List.mem_cons.mp member with same | earlier
    · exact same.ge
    · exact Nat.le_trans (Nat.le_of_lt smaller) (old.2 earlier)
  · rw [if_neg smaller]
    refine ⟨List.mem_cons_of_mem _ old.1, fun other member => ?_⟩
    rcases List.mem_cons.mp member with same | earlier
    · rw [same]
      exact Nat.le_of_not_lt smaller
    · exact old.2 earlier

/-- The larger of a new sample and the greatest old one is the greatest of all. -/
theorem isGreatest_cons {samples : List Nat} {greatest : Nat}
    (old : IsGreatest (fun sample => sample ∈ samples) greatest) (sample : Nat) :
    IsGreatest (fun s => s ∈ sample :: samples)
      (if sample > greatest then sample else greatest) := by
  -- The new sample is the largest, or the old one still is.
  by_cases larger : sample > greatest
  · rw [if_pos larger]
    refine ⟨List.mem_cons_self, fun other member => ?_⟩
    rcases List.mem_cons.mp member with same | earlier
    · exact same.le
    · exact Nat.le_trans (old.2 earlier) (Nat.le_of_lt larger)
  · rw [if_neg larger]
    refine ⟨List.mem_cons_of_mem _ old.1, fun other member => ?_⟩
    rcases List.mem_cons.mp member with same | earlier
    · rw [same]
      exact Nat.le_of_not_lt larger
    · exact old.2 earlier

/-- The next statistics mean the samples with the new one. -/
theorem meaningful_next {samples : List Nat} {total : Nat}
    (meaningful : stats.Meaningful range samples) (history : History stats delay count total)
    (fits : delay < range) (wide : range ≤ 2 ^ 64) :
    (stats.next delay count total).Meaningful range (delay :: samples) := by
  obtain ⟨sound, _, least, greatest, representable⟩ := meaningful
  constructor
  · exact sound_next sound history fits wide
  · rfl
  · exact isLeast_cons least delay
  · exact isGreatest_cons greatest delay
  · intro sum length
    rw [List.sum_cons] at sum
    rw [List.length_cons] at length
    -- A representable sum never took the overflow path, so the history is the whole one.
    obtain ⟨total_eq, count_eq⟩ := representable (by omega) (by omega)
    obtain ⟨whole_count, whole_total⟩ := history.whole (by omega) (by omega)
    constructor
    · show total + delay = (delay :: samples).sum
      rw [List.sum_cons]
      omega
    · show count + 1 = (delay :: samples).length
      rw [List.length_cons]
      omega

/-- The newest delay is fed last. -/
theorem feed_cons (range : Nat) (empty : DelayStats) (delay : Nat) (earlier : List Nat) :
    feed range empty (delay :: earlier) =
      (updateDelayIn range (feed range empty earlier) delay).getD (feed range empty earlier) :=
  rfl

/-- Whatever was fed, the record is the one it started with or means the accepted samples. -/
theorem feed_meaningful {empty : DelayStats} (vacant : empty.delaySampleCount = 0)
    (wide : range ≤ 2 ^ 64) (delays : List Nat) (fits : ∀ delay ∈ delays, delay < range) :
    accepted range empty delays = [] ∧ feed range empty delays = empty ∨
      accepted range empty delays ≠ [] ∧
        (feed range empty delays).Meaningful range (accepted range empty delays) := by
  induction delays with
  | nil => exact Or.inl ⟨rfl, rfl⟩
  | cons delay earlier ih =>
    have here : delay < range := fits delay List.mem_cons_self
    rw [feed_cons, accepted]
    rcases ih fun d member => fits d (List.mem_cons_of_mem _ member) with
      ⟨none, same⟩ | ⟨some, meaningful⟩
    · -- The first delay is never refused.
      have vacant' : (feed range empty earlier).delaySampleCount = 0 := by
        rw [same]
        exact vacant
      rw [show updateDelayIn range (feed range empty earlier) delay = _ from
        (update_empty vacant' delay).1, none]
      exact Or.inr ⟨by simp, meaningful_single here wide⟩
    · by_cases room : (feed range empty earlier).delayTotal /
          (feed range empty earlier).delaySampleCount ≤ uint64Max - delay
      · obtain ⟨count, total, history, taken, _⟩ :=
          update_some meaningful.sound here wide room
        rw [taken]
        exact Or.inr ⟨by simp, meaningful_next meaningful history here wide⟩
      · have refused := (update_none meaningful.sound (Nat.lt_of_not_le room)).1
        rw [refused]
        exact Or.inr ⟨some, meaningful⟩

/-- While the sum of all delays is representable, none of them is refused. -/
theorem accepted_all {empty : DelayStats} (vacant : empty.delaySampleCount = 0)
    (wide : range ≤ 2 ^ 64) (delays : List Nat) (fits : ∀ delay ∈ delays, delay < range)
    (sum : delays.sum ≤ uint64Max) : accepted range empty delays = delays := by
  induction delays with
  | nil => rfl
  | cons delay earlier ih =>
    have here : delay < range := fits delay List.mem_cons_self
    have before : ∀ d ∈ earlier, d < range := fun d member =>
      fits d (List.mem_cons_of_mem _ member)
    rw [List.sum_cons] at sum
    have all := ih before (by omega)
    rw [accepted, all]
    rcases feed_meaningful vacant wide earlier before with ⟨_, same⟩ | ⟨_, meaningful⟩
    · have first : (feed range empty earlier).delaySampleCount = 0 := by
        rw [same]
        exact vacant
      rw [(update_empty first delay).1]
      rfl
    · -- The average is at most the sum of the earlier delays, which leaves room for this one.
      have room : (feed range empty earlier).delayTotal /
          (feed range empty earlier).delaySampleCount ≤ uint64Max - delay := by
        have average := meaningful.sound.average_bounds.2
        have member : (feed range empty earlier).max ∈ earlier := by
          have greatest := meaningful.greatest.1
          rw [all] at greatest
          exact greatest
        have largest := List.le_sum_of_mem member
        rw [meaningful.sound.average] at average
        omega
      obtain ⟨count, total, _, taken, _⟩ := update_some meaningful.sound here wide room
      rw [taken]
      rfl

/-- The delay statistics after any sequence of delays, and what the next delay meets. -/
structure DelayLaw (range : Nat) (empty : DelayStats) (delays : List Nat) : Prop where
  /-- No operation wraps or divides by zero, and the halving loop ends. -/
  exact_next : ∀ delay < range, updateExact (feed range empty delays) delay =
    .ok (updateDelayIn range (feed range empty delays) delay)
  refused : ∀ delay < range, updateDelayIn range (feed range empty delays) delay = none ↔
    (feed range empty delays).delaySampleCount ≠ 0 ∧
      uint64Max < (feed range empty delays).delayTotal /
        (feed range empty delays).delaySampleCount + delay
  untouched : accepted range empty delays = [] → feed range empty delays = empty
  meaningful : accepted range empty delays ≠ [] →
    (feed range empty delays).Meaningful range (accepted range empty delays)
  average : accepted range empty delays ≠ [] →
    (feed range empty delays).min ≤ (feed range empty delays).avg ∧
      (feed range empty delays).avg ≤ (feed range empty delays).max ∧
      (feed range empty delays).avg < range
  /-- Nothing is refused while the sum of all delays is representable. -/
  complete : delays.sum ≤ uint64Max → accepted range empty delays = delays

/-- The delay statistics stay meaningful for ever. -/
theorem delays_meaningful {range : Nat} {empty : DelayStats}
    (vacant : empty.delaySampleCount = 0) (wide : range ≤ 2 ^ 64) (delays : List Nat)
    (fits : ∀ delay ∈ delays, delay < range) : DelayLaw range empty delays := by
  -- The delays so far left the statistics empty or meaningful; one more starts them, is refused,
  -- or is added.
  have small : ∀ delay < range, delay ≤ uint64Max := by
    intro delay below
    unfold uint64Max
    omega
  have state := feed_meaningful vacant wide delays fits
  constructor
  · intro delay below
    rcases state with ⟨_, same⟩ | ⟨_, meaningful⟩
    · have first : (feed range empty delays).delaySampleCount = 0 := by
        rw [same]
        exact vacant
      obtain ⟨machine, exact⟩ : updateDelayIn range _ delay = _ ∧ _ := update_empty first delay
      rw [exact, machine]
    · by_cases room : (feed range empty delays).delayTotal /
          (feed range empty delays).delaySampleCount ≤ uint64Max - delay
      · obtain ⟨count, total, _, machine, exact⟩ :=
          update_some meaningful.sound below wide room
        rw [exact, machine]
      · obtain ⟨machine, exact⟩ := update_none meaningful.sound (Nat.lt_of_not_le room)
        rw [exact, machine]
  · intro delay below
    have := small delay below
    rcases state with ⟨_, same⟩ | ⟨_, meaningful⟩
    · have first : (feed range empty delays).delaySampleCount = 0 := by
        rw [same]
        exact vacant
      rw [(update_empty first delay).1]
      constructor
      · intro refused
        cases refused
      · intro crowded
        exact absurd first crowded.1
    · have several := meaningful.sound.counted
      by_cases room : (feed range empty delays).delayTotal /
          (feed range empty delays).delaySampleCount ≤ uint64Max - delay
      · obtain ⟨count, total, _, machine, _⟩ := update_some meaningful.sound below wide room
        rw [machine]
        constructor
        · intro refused
          cases refused
        · intro crowded
          omega
      · rw [(update_none meaningful.sound (Nat.lt_of_not_le room)).1]
        exact ⟨fun _ => ⟨by omega, by omega⟩, fun _ => rfl⟩
  · intro none
    rcases state with ⟨_, same⟩ | ⟨some, _⟩
    · exact same
    · exact absurd none some
  · intro some
    rcases state with ⟨none, _⟩ | ⟨_, meaningful⟩
    · exact absurd none some
    · exact meaningful
  · intro some
    rcases state with ⟨none, _⟩ | ⟨_, meaningful⟩
    · exact absurd none some
    · have bounds := meaningful.sound.average_bounds
      exact ⟨bounds.1, bounds.2, Nat.lt_of_le_of_lt bounds.2 meaningful.sound.bounded⟩
  · exact accepted_all vacant wide delays fits

/-- A delay at the edge of the range is taken, and the one after it is refused. -/
theorem delays_meaningful_edge :
    accepted (2 ^ 64) DelayStats.zero [1, uint64Max] = [uint64Max] ∧
      DelayLaw (2 ^ 64) DelayStats.zero [1, uint64Max] :=
  -- The older delay fills the sum, so the newer one is refused.
  ⟨by decide +kernel, delays_meaningful rfl (Nat.le_refl _) _ (by decide +kernel)⟩

end Healthcheck
