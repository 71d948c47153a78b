import Mathlib.Order.Lattice

/-!
The best of the numbers below a bound, found by one pass that starts with a sentinel for none.
-/

namespace Argmax

variable {α : Type} [LinearOrder α] (sentinel : Nat) (lowest : α) (fits : Nat → Bool)
  (score : Nat → α)

/-- One number against the best so far. -/
def better (number : Nat) (best : Nat × α) : Nat × α :=
  if fits number = true ∧ (best.1 = sentinel ∨ best.2 < score number) then (number, score number)
  else best

/-- The pass over the numbers below a bound. -/
def scan : Nat → Nat × α
  | 0 => (sentinel, lowest)
  | n + 1 => better sentinel fits score n (scan n)

/-- The first of the fitting numbers with the highest score. -/
structure Best (n m : Nat) : Prop where
  below : m < n
  fitting : fits m = true
  highest : ∀ k < n, fits k = true → score k ≤ score m
  first : ∀ k < m, fits k = true → score k < score m

/-- The pass finds the best number; the sentinel is left exactly when no number fits. -/
theorem scan_spec {n : Nat} (bound : n ≤ sentinel) :
    (scan sentinel lowest fits score n = (sentinel, lowest) ∧ ∀ k < n, fits k = false) ∨
      ∃ m, Best fits score n m ∧ scan sentinel lowest fits score n = (m, score m) := by
  -- Induction on the bound: the last number is compared with the best of the ones before it.
  induction n with
  | zero => exact Or.inl ⟨rfl, fun k below => absurd below (Nat.not_lt_zero k)⟩
  | succ n ih =>
    obtain ⟨found, nothing⟩ | ⟨m, best, found⟩ := ih (Nat.le_of_succ_le bound)
    · cases fit : fits n with
      | true =>
        refine Or.inr ⟨n, ⟨Nat.lt_succ_self n, fit, ?_, ?_⟩, ?_⟩
        · intro k below fitting
          rcases Nat.lt_succ_iff_lt_or_eq.mp below with earlier | rfl
          · exact absurd fitting (by rw [nothing k earlier]; decide)
          · exact le_rfl
        · intro k earlier fitting
          exact absurd fitting (by rw [nothing k earlier]; decide)
        · rw [scan, found]
          exact if_pos ⟨fit, Or.inl rfl⟩
      | false =>
        refine Or.inl ⟨?_, ?_⟩
        · rw [scan, found]
          exact if_neg fun both => absurd both.1 (by rw [fit]; decide)
        · intro k below
          rcases Nat.lt_succ_iff_lt_or_eq.mp below with earlier | rfl
          · exact nothing k earlier
          · exact fit
    · -- The best so far is below the bound, so it is not the sentinel.
      have real : m ≠ sentinel := by
        have below := best.below
        omega
      by_cases beats : fits n = true ∧ score m < score n
      · refine Or.inr ⟨n, ⟨Nat.lt_succ_self n, beats.1, ?_, ?_⟩, ?_⟩
        · intro k below fitting
          rcases Nat.lt_succ_iff_lt_or_eq.mp below with earlier | rfl
          · exact le_of_lt (lt_of_le_of_lt (best.highest k earlier fitting) beats.2)
          · exact le_rfl
        · intro k earlier fitting
          exact lt_of_le_of_lt (best.highest k earlier fitting) beats.2
        · rw [scan, found]
          exact if_pos ⟨beats.1, Or.inr beats.2⟩
      · refine Or.inr ⟨m, ⟨Nat.lt_succ_of_lt best.below, best.fitting, ?_, best.first⟩, ?_⟩
        · intro k below fitting
          rcases Nat.lt_succ_iff_lt_or_eq.mp below with earlier | rfl
          · exact best.highest k earlier fitting
          · exact not_lt.mp fun higher => beats ⟨fitting, higher⟩
        · rw [scan, found]
          refine if_neg fun both => ?_
          exact both.2.elim real fun higher => beats ⟨both.1, higher⟩

/-- The outcome of the pass is one number exactly when some number fits. -/
theorem scan_unique {n : Nat} (bound : n ≤ sentinel) (some_fits : ∃ k < n, fits k = true) :
    ∃ m, m < n ∧ fits m = true ∧
      ∀ k, (scan sentinel lowest fits score n).1 = k ↔ k = m := by
  -- The scan finds a best candidate or reports that there is none, and one exists.
  obtain ⟨_, nothing⟩ | ⟨m, best, found⟩ := scan_spec sentinel lowest fits score bound
  · obtain ⟨k, below, fitting⟩ := some_fits
    exact absurd fitting (by rw [nothing k below]; decide)
  · refine ⟨m, best.below, best.fitting, fun k => ?_⟩
    rw [found]
    exact eq_comm

end Argmax
