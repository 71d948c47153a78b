import Healthcheck.Runtime.Schedule

/-! What the I/O history of a process says about one of its peers. -/

namespace Healthcheck

/-- The peer an I/O event is about. -/
def IoEvent.peer : IoEvent → Nat
  | .claimed peer _ _ => peer
  | .peeked peer _ _ _ => peer
  | .connecting peer => peer
  | .closed peer _ => peer
  | .idleRead peer _ _ _ _ => peer
  | .sent peer _ => peer
  | .udpError peer _ _ => peer
  | .finished peer _ => peer
  | .sampled peer _ _ => peer
  | .submitted peer _ _ => peer
  | .confirmed peer => peer
  | .lost peer => peer
  | .aged peer _ _ => peer
  | .established peer _ _ => peer
  | .expired peer _ => peer
  | .unclocked peer => peer

/-- The deadline a claim of a peer fixes. -/
def IoEvent.claim (i : Nat) : IoEvent → Option Nat
  | .claimed peer deadline _ => if peer = i then some deadline else none
  | _ => none

/-- What an event says about the ownership of a peer. -/
def IoEvent.ownership (i : Nat) : IoEvent → Option Bool
  | .confirmed peer => if peer = i then some true else none
  | .lost peer => if peer = i then some false else none
  | _ => none

/-- What an event says about the last round of a peer: nothing while the round runs, and then its
result with what the submission at its end returned. -/
def IoEvent.outcome (i : Nat) : IoEvent → Option (Option (Bool × Rc))
  | .claimed peer _ _ => if peer = i then some none else none
  | .submitted peer result rc => if peer = i then some (some (result, rc)) else none
  | _ => none

/-- The newest thing a history says, by an aspect of its events. -/
def newest {α : Type} (aspect : IoEvent → Option α) (io : List IoEvent) : Option α :=
  io.findSome? aspect

/-- The events since the last claim of a peer. -/
def sinceClaim (i : Nat) (io : List IoEvent) : List IoEvent :=
  io.takeWhile fun event => (event.claim i).isNone

/-- The last callback that looked at the ownership of a peer found it lost. -/
def Lost (i : Nat) (io : List IoEvent) : Prop :=
  newest (IoEvent.ownership i) io = some false

/-- The newest event decides, unless it says nothing. -/
@[simp] theorem newest_cons {α : Type} (aspect : IoEvent → Option α) (event : IoEvent)
    (io : List IoEvent) : newest aspect (event :: io) = (aspect event).or (newest aspect io) := by
  -- It speaks or it does not.
  unfold newest
  rw [List.findSome?_cons]
  cases aspect event <;> rfl

/-- Nothing was said before the first event. -/
@[simp] theorem newest_nil {α : Type} (aspect : IoEvent → Option α) : newest aspect [] = none := rfl

/-- Events an aspect says nothing about leave what is newest. -/
theorem newest_append {α : Type} {aspect : IoEvent → Option α} {events : List IoEvent}
    (silent : ∀ event ∈ events, aspect event = none) (io : List IoEvent) :
    newest aspect (events ++ io) = newest aspect io := by
  -- Induction on the events that were added.
  induction events with
  | nil => rfl
  | cons event rest ih =>
    rw [List.cons_append, newest_cons, silent event List.mem_cons_self, Option.none_or]
    exact ih fun event member => silent event (List.mem_cons_of_mem _ member)

/-- Events other than claims of the peer extend the history since its claim. -/
theorem sinceClaim_append {i : Nat} {events : List IoEvent}
    (silent : ∀ event ∈ events, event.claim i = none) (io : List IoEvent) :
    sinceClaim i (events ++ io) = events ++ sinceClaim i io := by
  -- Induction on the events.
  induction events with
  | nil => rfl
  | cons event rest ih =>
    have first : event.claim i = none := silent event List.mem_cons_self
    unfold sinceClaim at ih ⊢
    rw [List.cons_append, List.takeWhile_cons, first]
    simp only [Option.isNone_none, if_true, List.cons_append, List.cons.injEq, true_and]
    exact ih fun event member => silent event (List.mem_cons_of_mem _ member)

/-- A claim starts a new round without events. -/
theorem sinceClaim_claimed (i deadline : Nat) (retained : Option Nat) (io : List IoEvent) :
    sinceClaim i (.claimed i deadline retained :: io) = [] := by
  -- The claim stops the search.
  simp [sinceClaim, IoEvent.claim]

/-- The events since the claim are events of the history. -/
theorem mem_of_sinceClaim {i : Nat} {event : IoEvent} {io : List IoEvent}
    (member : event ∈ sinceClaim i io) : event ∈ io :=
  List.takeWhile_subset _ member

end Healthcheck
