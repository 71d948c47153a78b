import Mathlib.Order.Lattice

/-!
A meter of waiting: something waits at one place after another, never at an earlier place again,
and reports how long it has waited at the current one. A report comes after some waiting at its
place at the earliest, and some time after the last report.
-/

namespace Throttle

variable {α : Type}

/-- What the meter keeps; `started` is zero until the first wait. -/
structure Meter (α : Type) where
  started : Nat
  place : α
  next : Nat

/-- A report of waiting, and when it was made. -/
structure Report (α : Type) where
  place : α
  elapsed : Nat
  time : Nat

variable [DecidableEq α] (warn period : Nat)

/-- A wait at a new place starts the measurement. -/
def Meter.arrive (m : Meter α) (place : α) (now : Nat) : Meter α :=
  if m.started = 0 ∨ m.place ≠ place then
    { started := now, place := place, next := max m.next (now + warn) }
  else m

/-- The report that is due, if any. -/
def Meter.due (m : Meter α) (now : Nat) : Option (Report α) :=
  if m.next ≤ now then some { place := m.place, elapsed := now - m.started, time := now } else none

/-- A report puts the next one off. -/
def Meter.settle (m : Meter α) (now : Nat) : Meter α :=
  if m.next ≤ now then { m with next := now + period } else m

/-- The meter after a wait. -/
def Meter.wait (m : Meter α) (place : α) (now : Nat) : Meter α :=
  (m.arrive warn place now).settle period now

/-- When the first wait at a place was; waits are listed newest first. -/
def firstWait (waits : List (α × Nat)) (place : α) : Option Nat :=
  (waits.reverse.find? fun wait => wait.1 = place).map Prod.snd

/-- A report tells how long its place has been waited at, and that is long enough. -/
def Honest (waits : List (α × Nat)) (report : Report α) : Prop :=
  (report.place, report.time) ∈ waits ∧
    ∃ first, firstWait waits report.place = some first ∧ first + warn ≤ report.time ∧
      report.elapsed = report.time - first

/-- What the meter knows about the waits and reports so far. -/
structure Known [LinearOrder α] (m : Meter α) (waits : List (α × Nat))
    (reports : List (Report α)) : Prop where
  fresh : waits = [] → m.started = 0
  started : waits ≠ [] → m.started ≠ 0 ∧ firstWait waits m.place = some m.started ∧
    m.started + warn ≤ m.next
  behind : ∀ wait ∈ waits, wait.1 ≤ m.place
  honest : ∀ report ∈ reports, Honest warn waits report
  spaced : ∀ report ∈ reports, report.time + period ≤ m.next
  apart : reports.Pairwise fun newer older => older.time + period ≤ newer.time

/-- A later wait leaves the first one at a place what it was. -/
theorem firstWait_cons {waits : List (α × Nat)} {place : α} {first : Nat}
    (found : firstWait waits place = some first) (wait : α × Nat) :
    firstWait (wait :: waits) place = some first := by
  -- What was first stays first.
  obtain ⟨earliest, here, rfl⟩ := Option.map_eq_some_iff.mp found
  unfold firstWait
  rw [List.reverse_cons, List.find?_append, here]
  rfl

/-- A wait at a place nothing has waited at is the first one there. -/
theorem firstWait_new {waits : List (α × Nat)} {place : α}
    (unseen : ∀ wait ∈ waits, wait.1 ≠ place) (now : Nat) :
    firstWait ((place, now) :: waits) place = some now := by
  -- No earlier wait was at this place.
  have none_before : waits.reverse.find? (fun wait => wait.1 = place) = none := by
    simpa using unseen
  unfold firstWait
  rw [List.reverse_cons, List.find?_append, none_before]
  simp

/-- A report stays honest when the party goes on waiting. -/
theorem honest_cons {waits : List (α × Nat)} {report : Report α}
    (honest : Honest warn waits report) (wait : α × Nat) :
    Honest warn (wait :: waits) report := by
  -- The first wait at its place is still the same.
  obtain ⟨member, first, found, late, elapsed⟩ := honest
  exact ⟨List.mem_cons_of_mem _ member, first, firstWait_cons found wait, late, elapsed⟩

variable [LinearOrder α] {m : Meter α} {waits : List (α × Nat)} {reports : List (Report α)}

/-- Before the first wait nothing is known. -/
theorem known_start {place : α} {next : Nat} :
    Known warn period { started := 0, place := place, next := next } [] [] := by
  -- Nothing was waited for and nothing reported.
  constructor
  · exact fun _ => rfl
  · exact fun some_wait => absurd rfl some_wait
  all_goals simp

/-- Arriving at the same or a later place. -/
theorem arrive_known (known : Known warn period m waits reports) {place : α} {now : Nat}
    (positive : now ≠ 0) (forward : ∀ wait ∈ waits, m.place ≤ place) :
    Known warn period (m.arrive warn place now) ((place, now) :: waits) reports ∧
      (m.arrive warn place now).place = place := by
  obtain ⟨fresh, started, behind, honest, spaced, apart⟩ := known
  unfold Meter.arrive
  by_cases new : m.started = 0 ∨ m.place ≠ place
  · rw [if_pos new]
    -- The place is later than all that were waited at.
    have unseen : ∀ wait ∈ waits, wait.1 < place := by
      intro wait member
      have some_wait : waits ≠ [] := List.ne_nil_of_mem member
      have moved : m.place ≠ place := new.resolve_left (started some_wait).1
      exact lt_of_le_of_lt (behind wait member) (lt_of_le_of_ne (forward wait member) moved)
    refine ⟨⟨?_, ?_, ?_, ?_, ?_, apart⟩, rfl⟩
    · exact fun none_left => absurd none_left (List.cons_ne_nil _ _)
    · intro _
      exact ⟨positive, firstWait_new (fun wait member => ne_of_lt (unseen wait member)) now,
        Nat.le_max_right _ _⟩
    · intro wait member
      rcases List.mem_cons.mp member with rfl | earlier
      · exact le_rfl
      · exact le_of_lt (unseen wait earlier)
    · exact fun report member => honest_cons warn (honest report member) _
    · exact fun report member => Nat.le_trans (spaced report member) (Nat.le_max_left _ _)
  · rw [if_neg new]
    obtain ⟨running, same⟩ := not_or.mp new
    have place_eq : m.place = place := not_not.mp same
    have some_wait : waits ≠ [] := fun none_yet => running (fresh none_yet)
    obtain ⟨_, first, late⟩ := started some_wait
    refine ⟨⟨?_, ?_, ?_, ?_, spaced, apart⟩, place_eq⟩
    · exact fun none_left => absurd none_left (List.cons_ne_nil _ _)
    · exact fun _ => ⟨running, firstWait_cons first _, late⟩
    · intro wait member
      rcases List.mem_cons.mp member with rfl | earlier
      · exact le_of_eq place_eq.symm
      · exact behind wait earlier
    · exact fun report member => honest_cons warn (honest report member) _

/-- The meter knows its waits and reports after one more wait. -/
theorem wait_known (known : Known warn period m waits reports) {place : α} {now : Nat}
    (positive : now ≠ 0) (forward : ∀ wait ∈ waits, m.place ≤ place) :
    Known warn period (m.wait warn period place now) ((place, now) :: waits)
      (((m.arrive warn place now).due now).toList ++ reports) := by
  -- The meter arrives first, and then a report may be due.
  obtain ⟨arrived, here⟩ := arrive_known warn period known positive forward
  unfold Meter.wait Meter.settle Meter.due
  generalize m.arrive warn place now = arrival at arrived here
  by_cases late : arrival.next ≤ now
  · rw [if_pos late, if_pos late]
    obtain ⟨fresh, started, behind, honest, spaced, apart⟩ := arrived
    obtain ⟨running, first, after⟩ := started (List.cons_ne_nil _ _)
    refine ⟨fresh, fun _ => ⟨running, first, ?_⟩, behind, ?_, ?_, ?_⟩
    · exact Nat.le_trans after (Nat.le_trans late (Nat.le_add_right _ _))
    · intro report member
      rcases List.mem_cons.mp member with rfl | earlier
      · refine ⟨?_, arrival.started, first, Nat.le_trans after late, rfl⟩
        rw [here]
        exact List.mem_cons_self
      · exact honest report earlier
    · intro report member
      rcases List.mem_cons.mp member with rfl | earlier
      · exact Nat.le_refl _
      · exact Nat.le_trans (spaced report earlier) (Nat.le_trans late (Nat.le_add_right _ _))
    · exact List.pairwise_cons.mpr
        ⟨fun report member => Nat.le_trans (spaced report member) late, apart⟩
  · rw [if_neg late, if_neg late]
    exact arrived

end Throttle
