import Healthcheck.State.Record

/-! The running delay statistics of a peer and their rescaling at the edge of 64-bit arithmetic. -/

namespace Healthcheck

/-- `ngx_healthcheck_delay_stats_t`. -/
structure DelayStats where
  last : Nat
  avg : Nat
  min : Nat
  max : Nat
  delayTotal : Nat
  delaySampleCount : Nat
  deriving DecidableEq, Repr

/-- Unsigned 64-bit arithmetic keeps the low 64 bits. -/
def wrap64 (value : Nat) : Nat :=
  value % 2 ^ 64

/-- The loop that halves the sample count until another delay fits below the largest total. -/
def halveDelay (oldAvg delay : Nat) : Nat → Nat → Nat → Option (Nat × Nat)
  -- Each pass halves the count, so the bits of the count bound the number of passes.
  | 0, _, _ => none
  | fuel + 1, count, total =>
    if total > uint64Max - delay then
      if count / 2 = 0 then none
      else halveDelay oldAvg delay fuel (count / 2) (wrap64 (oldAvg * (count / 2)))
    else some (count, total)

/-- The overflow path: the history keeps its average and loses weight. -/
def rescaleDelay (stats : DelayStats) (delay : Nat) : Option (Nat × Nat) :=
  let oldAvg := stats.delayTotal / stats.delaySampleCount
  let halved := wrap64 (stats.delaySampleCount / 2 + 1)
  let count := if oldAvg ≠ 0 ∧ halved > uint64Max / oldAvg then uint64Max / oldAvg else halved
  if count = 0 then none
  else halveDelay oldAvg delay 65 count (wrap64 (oldAvg * count))

/-- The history a new delay is added to: sample count and total, rescaled where it must be. -/
def delayHistory (stats : DelayStats) (delay : Nat) : Option (Nat × Nat) :=
  if stats.delayTotal > uint64Max - delay ∨ stats.delaySampleCount = uint64Max then
    rescaleDelay stats delay
  else some (stats.delaySampleCount, stats.delayTotal)

/-- `ngx_healthcheck_update_delay` on a record that exists, where `ngx_msec_t` has some range;
`none` is `NGX_ERROR`. -/
def updateDelayIn (range : Nat) (stats : DelayStats) (delay : Nat) : Option DelayStats :=
  if stats.delaySampleCount = 0 then
    some { last := delay, avg := delay, min := delay, max := delay,
           delayTotal := delay, delaySampleCount := 1 }
  else
    match delayHistory stats delay with
    | none => none
    | some (count, total) =>
      let total := wrap64 (total + delay)
      let count := wrap64 (count + 1)
      if count = 0 then none
      else some
        { last := delay
          -- The average is cast to the machine's `ngx_msec_t`.
          avg := total / count % range
          min := if delay < stats.min then delay else stats.min
          max := if delay > stats.max then delay else stats.max
          delayTotal := total
          delaySampleCount := count }

/-- `ngx_healthcheck_update_delay` on a platform, whose `ngx_msec_t` is a machine word. -/
def updateDelay (word : Word) : DelayStats → Nat → Option DelayStats :=
  updateDelayIn word.size

end Healthcheck
