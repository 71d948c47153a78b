import Mathlib.Data.List.Basic

/-! Histories, newest first: each event is judged by what happened before it. -/

namespace Trace

variable {α : Type}

/-- A property of an event and its past holds at every event of a history. -/
def Along (holds : α → List α → Prop) (history : List α) : Prop :=
  ∀ newer event older, history = newer ++ event :: older → holds event older

/-- An empty history has no event that could break a property. -/
theorem along_nil (holds : α → List α → Prop) : Along holds [] := by
  -- It cannot be split at an event.
  intro newer event older split
  simp at split

/-- A property holds along a history when it holds at its newest event and along the rest. -/
theorem along_cons {holds : α → List α → Prop} {event : α} {history : List α} :
    Along holds (event :: history) ↔ holds event history ∧ Along holds history := by
  constructor
  · intro all
    exact ⟨all [] event history rfl, fun newer other older split =>
      all (event :: newer) other older (by rw [split]; rfl)⟩
  · rintro ⟨new, rest⟩ newer other older split
    -- The event is the newest one, or one of the rest.
    cases newer with
    | nil =>
      cases split
      exact new
    | cons first newer =>
      cases split
      exact rest newer other older rfl

/-- More events, each of which has the property whatever its past is. -/
theorem along_append {holds : α → List α → Prop} {events history : List α}
    (new : ∀ event ∈ events, ∀ older, holds event older) (all : Along holds history) :
    Along holds (events ++ history) := by
  -- Induction on the new events.
  induction events with
  | nil => exact all
  | cons event rest ih =>
    exact along_cons.mpr ⟨new event List.mem_cons_self _,
      ih fun event member => new event (List.mem_cons_of_mem _ member)⟩

/-- A law of an event, its past and what came after it, newest first, holds at every event of a
history. -/
def Ahead (law : α → List α → List α → Prop) (history : List α) : Prop :=
  ∀ newer event older, history = newer ++ event :: older → law event older newer

/-- An empty history has no event that could break a law. -/
theorem ahead_nil (law : α → List α → List α → Prop) : Ahead law [] := by
  -- It cannot be split at an event.
  intro newer event older split
  simp at split

/-- More events keep a law that what comes later cannot break. -/
theorem ahead_append {law : α → List α → List α → Prop}
    (grows : ∀ {event older newer} more, law event older newer → law event older (more ++ newer))
    (events : List α) {history : List α}
    (new : ∀ newer event older, events = newer ++ event :: older →
      law event (older ++ history) newer)
    (all : Ahead law history) : Ahead law (events ++ history) := by
  intro newer event older split
  -- The event is one of the new ones, or one of the history.
  rcases List.append_eq_append_iff.mp split with ⟨later, newest, past⟩ | ⟨rest, whole, past⟩
  · rw [newest]
    exact grows events (all later event older past)
  · cases rest with
    | nil =>
      rw [List.append_nil] at whole
      rw [← whole, ← List.append_nil events]
      exact grows events (all [] event older past.symm)
    | cons first rest =>
      cases past
      exact new newer event rest whole

/-- One more event keeps a law that what comes later cannot break. -/
theorem ahead_cons {law : α → List α → List α → Prop}
    (grows : ∀ {event older newer} more, law event older newer → law event older (more ++ newer))
    {event : α} {history : List α} (new : law event history []) (all : Ahead law history) :
    Ahead law (event :: history) := by
  -- A single event is a history of its own.
  have only : ∀ newer newest older, [event] = newer ++ newest :: older →
      law newest (older ++ history) newer := by
    intro newer newest older split
    cases newer with
    | nil =>
      cases split
      exact new
    | cons first rest => simp at split
  exact ahead_append grows [event] only all

/-- What a history ends with is older than any event that is not a part of it. -/
theorem ends_before {rest later before ending : List α} {event : α}
    (split : rest ++ ending = later ++ event :: before) (other : event ∉ ending) :
    ∃ middle, before = middle ++ ending := by
  -- The event would otherwise be a part of the ending.
  rcases List.append_eq_append_iff.mp split with ⟨late, _, inside⟩ | ⟨early, _, past⟩
  · exact absurd (inside ▸ List.mem_append_right late List.mem_cons_self) other
  · cases early with
    | nil =>
      rw [List.nil_append] at past
      exact absurd (past ▸ List.mem_cons_self) other
    | cons first middle =>
      cases past
      exact ⟨middle, rfl⟩

/-- Replacements lead from a first value to the present one, each replacing its predecessor. -/
def Linked (first : α) : List (α × α) → α → Prop
  | [], now => now = first
  | (before, after) :: older, now => now = after ∧ Linked first older before

/-- The values a linked history went through, newest first. -/
def values (first : α) (links : List (α × α)) : List α :=
  links.map Prod.snd ++ [first]

/-- The newest value is the present one. -/
theorem values_head {first now : α} {links : List (α × α)} (linked : Linked first links now) :
    ∃ older, values first links = now :: older := by
  -- Without replacements the first value is the present one.
  cases links with
  | nil =>
    cases linked
    exact ⟨[], rfl⟩
  | cons link older =>
    obtain ⟨before, after⟩ := link
    obtain ⟨same, _⟩ := linked
    exact ⟨values first older, by rw [same]; rfl⟩

/-- A transitive relation across every replacement holds between any two values. -/
theorem linked_pairwise {R : α → α → Prop} (transitive : ∀ {a b c}, R a b → R b c → R a c)
    {first now : α} {links : List (α × α)} (linked : Linked first links now)
    (each : ∀ link ∈ links, R link.2 link.1) : (values first links).Pairwise R := by
  -- Induction on the history: the newest value is related to its predecessor, hence to all.
  induction links generalizing now with
  | nil => exact List.pairwise_singleton R first
  | cons link older ih =>
    obtain ⟨before, after⟩ := link
    obtain ⟨_, rest⟩ := linked
    have sorted := ih rest (fun link member => each link (List.mem_cons_of_mem _ member))
    have newest : R after before := each _ List.mem_cons_self
    obtain ⟨past, shape⟩ := values_head rest
    refine List.pairwise_cons.mpr ⟨fun value member => ?_, sorted⟩
    change value ∈ values first older at member
    rw [shape] at member
    rcases List.mem_cons.mp member with same | earlier
    · rw [same]
      exact newest
    · rw [shape] at sorted
      exact transitive newest ((List.pairwise_cons.mp sorted).1 value earlier)

end Trace
