import Healthcheck.Callback.Footprint
import Healthcheck.Callback.Guarantee

/-!
The order of the locks. No callback of any process takes a lock inside another one except a peer's
inside a worker slot's, so processes that wait for each other's locks never wait in a circle.
-/

namespace Healthcheck

open Program

/-- Between two moments, locks were taken one at a time or a peer's inside a worker slot's, and all
of them were released. -/
structure Ordered (before after : List LockEvent) : Prop where
  grown : before <:+ after
  nested : ∀ past mutex, before <:+ past → LockEvent.acquired mutex :: past <:+ after →
    heldLocks past = heldLocks before ∨
      ∃ number i, mutex = .peer i ∧ heldLocks past = .worker number :: heldLocks before
  released : heldLocks after = heldLocks before

section Histories

variable {before middle after : List LockEvent}

/-- No lock is taken without an event. -/
theorem Ordered.refl (before : List LockEvent) : Ordered before before := by
  -- There is nothing between a history and itself.
  refine ⟨List.suffix_refl _, fun past mutex during found => ?_, rfl⟩
  have longer := found.length_le
  have shorter := during.length_le
  simp only [List.length_cons] at longer
  omega

/-- Two ordered parts make an ordered whole. -/
theorem Ordered.trans (first : Ordered before middle) (second : Ordered middle after) :
    Ordered before after := by
  refine ⟨first.grown.trans second.grown, fun past mutex during found => ?_,
    second.released.trans first.released⟩
  -- The acquisition lies in one of the two parts.
  rcases List.suffix_or_suffix_of_suffix found second.grown with early | late
  · exact first.nested past mutex during early
  · rcases List.suffix_cons_iff.mp late with whole | later
    · exact first.nested past mutex during (whole ▸ List.suffix_refl _)
    · rw [← first.released]
      exact second.nested past mutex later found

/-- The acquisitions of one scope, the newest first. -/
theorem LockScope.ordered {worker : Nat} (scope : LockScope worker before after) :
    Ordered before after := by
  -- One case for each shape of a critical section.
  have earlier : ∀ {past : List LockEvent} {event : LockEvent}, before <:+ past →
      ¬ event :: past <:+ before := by
    intro past event during found
    have longer := found.length_le
    have shorter := during.length_le
    simp only [List.length_cons] at longer
    omega
  cases scope with
  | none => exact .refl _
  | single mutex =>
    refine ⟨(List.suffix_cons _ _).trans (List.suffix_cons _ _), fun past taken during found => ?_,
      by simp [heldLocks]⟩
    simp only [List.suffix_cons_iff, List.cons.injEq, reduceCtorEq, false_and, false_or] at found
    rcases found with ⟨_, rfl⟩ | found
    · exact .inl rfl
    · exact (earlier during found).elim
  | nested i =>
    refine ⟨((List.suffix_cons _ _).trans (List.suffix_cons _ _)).trans
      ((List.suffix_cons _ _).trans (List.suffix_cons _ _)), fun past taken during found => ?_,
      by simp [heldLocks]⟩
    simp only [List.suffix_cons_iff, List.cons.injEq, reduceCtorEq, false_and, false_or,
      LockEvent.acquired.injEq] at found
    rcases found with ⟨rfl, rfl⟩ | ⟨rfl, rfl⟩ | found
    · exact .inr ⟨worker, i, rfl, rfl⟩
    · exact .inl rfl
    · exact (earlier during found).elim

/-- At no moment more than two locks are held. -/
theorem Ordered.held_le (ordered : Ordered before after) (idle : heldLocks before = [])
    {past : List LockEvent} (during : before <:+ past) (within : past <:+ after) :
    (heldLocks past).length ≤ 2 := by
  -- Induction on the history, its newest event first.
  induction past with
  | nil => simp [heldLocks]
  | cons event past ih =>
    rcases List.suffix_cons_iff.mp during with whole | inside
    · rw [← whole, idle]
      simp
    have fewer := ih inside ((List.suffix_cons _ _).trans within)
    cases event with
    | acquired mutex =>
      rcases ordered.nested past mutex inside within with none | ⟨number, i, _, one⟩
      · simp [heldLocks, none, idle]
      · simp [heldLocks, one, idle]
    | released mutex =>
      exact List.length_erase_le.trans fewer

end Histories

section Callbacks

variable {gen : Generation} {w w' : World}

/-- Frame steps keep the order of the locks. -/
theorem frameSteps_ordered (run : FrameSteps w w') : Ordered w.locks w'.locks := by
  -- Induction on the run.
  induction run with
  | refl => exact .refl _
  | tail _ step ih => exact ih.trans step.locks.ordered

/-- The steps of the watch keep the order of the locks. -/
theorem watchSteps_ordered (run : WatchSteps gen w w') : Ordered w.locks w'.locks := by
  -- Induction on the run.
  induction run with
  | refl => exact .refl _
  | tail _ pace ih =>
    cases pace with
    | step w' step => exact ih.trans step.locks.ordered
    | turned cursor listed => exact ih
    | limited budget => exact ih

/-- What the event loop of a process can run, its start included. -/
inductive Entry (gen : Generation) : Action Unit → Prop
  | init : Entry gen (runtimeInit gen)
  | callback (callback : Callback) : Entry gen (callback.run gen)

/-- Every entry of the runtime keeps the order of the locks. -/
theorem entry_ordered {x : Action Unit} (entry : Entry gen x) (returned : x w = some ((), w')) :
    Ordered w.locks w'.locks := by
  -- The start of a worker, or a callback.
  cases entry with
  | init => exact frameSteps_ordered (framed_runtimeInit w () w' returned)
  | callback callback => exact watchSteps_ordered (byWatch_callback callback w () w' returned)

/-- A lock was taken inside another one, by some process that the event loop called without any. -/
def Nests (gen : Generation) (outer inner : Mutex) : Prop :=
  ∃ (x : Action Unit) (w w' : World) (past : List LockEvent), Entry gen x ∧
    heldLocks w.locks = [] ∧ x w = some ((), w') ∧ w.locks <:+ past ∧
      .acquired inner :: past <:+ w'.locks ∧ outer ∈ heldLocks past

/-- Inside a lock only a peer's lock is taken, and that lock is a worker slot's. -/
theorem nests_kinds {outer inner : Mutex} (nests : Nests gen outer inner) :
    (∃ number, outer = .worker number) ∧ ∃ i, inner = .peer i := by
  -- What is held in between was taken inside of the entry.
  obtain ⟨x, w, w', past, entry, idle, returned, during, found, held⟩ := nests
  rcases (entry_ordered entry returned).nested past inner during found with none |
    ⟨number, i, kind, one⟩
  · rw [none, idle] at held
    cases held
  · rw [one, idle] at held
    exact ⟨⟨number, List.mem_singleton.mp held⟩, i, kind⟩

/-- Whatever the event loops of the processes call, in whatever environments, they come back without
locks, hold at most two at a time, and never take them in a circle. -/
theorem lock_order (gen : Generation) :
    (∀ (x : Action Unit) (w w' : World), Entry gen x → heldLocks w.locks = [] →
      x w = some ((), w') → heldLocks w'.locks = [] ∧
        ∀ past, w.locks <:+ past → past <:+ w'.locks → (heldLocks past).length ≤ 2) ∧
    ∀ mutex, ¬ Relation.TransGen (Nests gen) mutex mutex := by
  refine ⟨fun x w w' entry idle returned => ?_, fun mutex circle => ?_⟩
  · have ordered := entry_ordered entry returned
    exact ⟨ordered.released.trans idle, fun past during within =>
      ordered.held_le idle during within⟩
  · -- Along a chain of nestings the first lock is a worker's and the last one a peer's.
    have ends : ∀ {last}, Relation.TransGen (Nests gen) mutex last →
        (∃ number, mutex = .worker number) ∧ ∃ i, last = .peer i := by
      intro last chain
      induction chain with
      | single nests => exact nests_kinds nests
      | tail _ nests ih => exact ⟨ih.1, (nests_kinds nests).2⟩
    obtain ⟨⟨number, first⟩, i, last⟩ := ends circle
    rw [first] at last
    cases last

/-- A worker that has started claims its first round. -/
theorem lock_order_claimed : Nests sample (.worker 0) (.peer 0) ∧
    ¬ Nests sample (.peer 0) (.worker 0) := by
  -- The claim of the sample takes both locks.
  have noted : ((lived sample 0 (fun _ => quietAt 1000) [] (fresh sample)).bind fun s =>
      (Callback.run sample (.checkTimer 0)
        { sys := s, me := 0, script := fun _ => quietAt 4000 }).map fun result =>
          decide ([LockEvent.acquired (.peer 0), .acquired (.worker 0)] <:+ result.2.locks)) =
      some true := by decide +kernel
  obtain ⟨s, _, called⟩ := Option.bind_eq_some_iff.mp noted
  obtain ⟨⟨_, w⟩, returned, found⟩ := Option.map_eq_some_iff.mp called
  have claims : Nests sample (.worker 0) (.peer 0) :=
    ⟨_, _, w, [.acquired (.worker 0)], .callback (.checkTimer 0), rfl, returned, List.nil_suffix,
      of_decide_eq_true found, by decide⟩
  exact ⟨claims, fun reverse => (lock_order sample).2 (.worker 0) (.tail (.single claims) reverse)⟩

end Callbacks

end Healthcheck
