import Mathlib.Data.List.Count
import Healthcheck.Library.Trace

/-!
Leases: a party takes one resource at a time, uses it, and returns it. The history of this is a
list, newest first.
-/

namespace Lease

/-- What is done with a resource. -/
inductive Use (α : Type) where
  | taken (resource : α)
  | used (resource : α)
  | returned (resource : α)
  deriving DecidableEq, Repr

variable {α : Type}

/-- The resource a use is about. -/
def Use.resource : Use α → α
  | .taken resource => resource
  | .used resource => resource
  | .returned resource => resource

/-- The resource that is held after a history. -/
def held : List (Use α) → Option α
  | [] => none
  | .taken resource :: _ => some resource
  | .used _ :: older => held older
  | .returned _ :: _ => none

/-- A resource is taken when none is held, and for the first time; it is used and returned when it
is the one that is held. -/
def Proper : Use α → List (Use α) → Prop
  | .taken resource, older => held older = none ∧ .taken resource ∉ older
  | .used resource, older => held older = some resource
  | .returned resource, older => held older = some resource

section Steps

variable {history : List (Use α)} {resource : α}

/-- The older part of a proper history is proper. -/
theorem proper_older {newer : List (Use α)} (proper : Trace.Along Proper (newer ++ history)) :
    Trace.Along Proper history :=
  fun front use past split => proper (newer ++ front) use past (by rw [split, List.append_assoc])

/-- A resource is taken properly when none is held and it is new. -/
theorem proper_taken (proper : Trace.Along Proper history) (free : held history = none)
    (fresh : .taken resource ∉ history) : Trace.Along Proper (.taken resource :: history) :=
  -- The new use is judged by the history, the others as before.
  Trace.along_cons.mpr ⟨⟨free, fresh⟩, proper⟩

/-- The resource that is held is returned properly. -/
theorem proper_returned (proper : Trace.Along Proper history)
    (current : held history = some resource) :
    Trace.Along Proper (.returned resource :: history) :=
  -- The new use is judged by the history, the others as before.
  Trace.along_cons.mpr ⟨current, proper⟩

/-- Any number of uses of the resource that is held. -/
theorem proper_uses (uses : List (Use α)) (same : ∀ use ∈ uses, use = .used resource)
    (proper : Trace.Along Proper history) (current : held history = some resource) :
    Trace.Along Proper (uses ++ history) ∧ held (uses ++ history) = some resource := by
  -- Induction on the uses, the newest one first.
  induction uses with
  | nil => exact ⟨proper, current⟩
  | cons use rest ih =>
    obtain ⟨before, still⟩ := ih fun use member => same use (List.mem_cons_of_mem _ member)
    rw [same use List.mem_cons_self]
    exact ⟨Trace.along_cons.mpr ⟨still, before⟩, still⟩

/-- Uses take nothing. -/
theorem taken_uses (uses : List (Use α)) (same : ∀ use ∈ uses, use = .used resource) {other : α}
    (member : .taken other ∈ uses ++ history) : .taken other ∈ history := by
  -- The uses in front are no takings.
  rcases List.mem_append.mp member with new | old
  · cases same _ new
  · exact old

end Steps

section Accounts

variable {history : List (Use α)} {resource : α}

/-- What is held has been taken. -/
theorem taken_held (proper : Trace.Along Proper history) (current : held history = some resource) :
    .taken resource ∈ history := by
  -- Induction on the history, the newest use first.
  induction history with
  | nil => cases current
  | cons use older ih =>
    obtain ⟨_, before⟩ := Trace.along_cons.mp proper
    cases use with
    | taken other =>
      cases current
      exact List.mem_cons_self
    | used other => exact List.mem_cons_of_mem _ (ih before current)
    | returned other => cases current

/-- What is held after a return was taken since. -/
theorem held_after_return {newer older : List (Use α)} {returned : α}
    (current : held (newer ++ .returned returned :: older) = some resource) :
    .taken resource ∈ newer := by
  -- Induction on what came later, the newest use first.
  induction newer with
  | nil => cases current
  | cons use rest ih =>
    cases use with
    | taken other =>
      cases current
      exact List.mem_cons_self
    | used other => exact List.mem_cons_of_mem _ (ih current)
    | returned other => cases current

/-- A resource that was returned is left alone: it is not used, not returned and not taken again. -/
theorem alone_after_return {newer older : List (Use α)}
    (proper : Trace.Along Proper (newer ++ .returned resource :: older)) :
    ∀ use ∈ newer, use.resource ≠ resource := by
  -- Induction on what came later, the newest use first.
  induction newer with
  | nil => exact fun use member => by cases member
  | cons newest rest ih =>
    rw [List.cons_append] at proper
    obtain ⟨law, before⟩ := Trace.along_cons.mp proper
    have alone := ih before
    have away : .taken resource ∉ rest := fun member => alone _ member rfl
    have gone : held (rest ++ .returned resource :: older) ≠ some resource :=
      fun current => away (held_after_return current)
    have taken : .taken resource ∈ older := by
      obtain ⟨current, earlier⟩ := Trace.along_cons.mp (proper_older before)
      exact taken_held earlier current
    intro use member
    rcases List.mem_cons.mp member with same | later
    · rw [same]
      rintro rfl
      cases newest with
      | taken other =>
        exact law.2 (List.mem_append_right _ (List.mem_cons_of_mem _ taken))
      | used other => exact gone law
      | returned other => exact gone law
    · exact alone use later

variable [DecidableEq α]

/-- Every resource that was taken is held or was returned, and none twice. -/
theorem balance (proper : Trace.Along Proper history) (resource : α) :
    history.count (.returned resource) + (if held history = some resource then 1 else 0) =
      history.count (.taken resource) ∧ history.count (.taken resource) ≤ 1 := by
  -- Induction on the history: a taking opens the account, a return closes it.
  induction history with
  | nil => simp [held]
  | cons use older ih =>
    obtain ⟨law, before⟩ := Trace.along_cons.mp proper
    obtain ⟨balanced, once⟩ := ih before
    cases use with
    | taken other =>
      obtain ⟨free, fresh⟩ := law
      rw [free] at balanced
      by_cases same : other = resource
      · subst same
        have none : older.count (.taken other) = 0 := List.count_eq_zero.mpr fresh
        simp [held, none] at balanced ⊢
        exact balanced
      · simp [held, same] at balanced ⊢
        exact ⟨balanced, once⟩
    | used other =>
      rw [List.count_cons_of_ne (by simp), List.count_cons_of_ne (by simp)]
      exact ⟨balanced, once⟩
    | returned other =>
      have current : held older = some other := law
      rw [current] at balanced
      by_cases same : other = resource
      · subst same
        simp [held] at balanced ⊢
        exact ⟨balanced, once⟩
      · simp [held, same] at balanced ⊢
        exact ⟨balanced, once⟩

end Accounts

end Lease
