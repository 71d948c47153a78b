import Mathlib.Logic.Relation

/-! Programs that read and change a state and may never return, with their weakest preconditions. -/

namespace Program

/-- A program over a state: it ends with a value and a new state, or it never returns. -/
abbrev Prog (σ α : Type) := StateT σ Option α

variable {σ α β : Type}

/-- Reading the whole state. -/
def read : Prog σ σ :=
  -- Reading leaves the state as it was.
  fun s => some (s, s)

/-- Replacing the state by its image under a function. -/
def change (f : σ → σ) : Prog σ Unit :=
  -- Only the state carries the effect.
  fun s => some ((), f s)

/-- A program that never returns. -/
def diverge : Prog σ α :=
  -- No final state exists.
  fun _ => none

/-- Every way the program can return satisfies the postcondition. -/
def wp (x : Prog σ α) (post : α → σ → Prop) (s : σ) : Prop :=
  -- A run that never returns satisfies every postcondition.
  ∀ a s', x s = some (a, s') → post a s'

/-- Returning a value establishes what holds of it. -/
@[simp] theorem wp_pure (a : α) (post : α → σ → Prop) (s : σ) :
    wp (pure a) post s ↔ post a s := by
  -- Returning a value has exactly one outcome.
  constructor
  · intro holds
    exact holds a s rfl
  · intro holds b s' returned
    cases returned
    exact holds

/-- Reading establishes what holds of the state. -/
@[simp] theorem wp_read (post : σ → σ → Prop) (s : σ) : wp read post s ↔ post s s := by
  -- Reading has exactly one outcome.
  constructor
  · intro holds
    exact holds s s rfl
  · intro holds b s' returned
    cases returned
    exact holds

/-- A change establishes what holds of the changed state. -/
@[simp] theorem wp_change (f : σ → σ) (post : Unit → σ → Prop) (s : σ) :
    wp (change f) post s ↔ post () (f s) := by
  -- A change has exactly one outcome.
  constructor
  · intro holds
    exact holds () (f s) rfl
  · intro holds b s' returned
    cases returned
    exact holds

/-- A program without outcomes establishes anything. -/
@[simp] theorem wp_diverge (post : α → σ → Prop) (s : σ) : wp (diverge : Prog σ α) post s := by
  -- There is nothing to show it of.
  intro a s' returned
  cases returned

/-- A sequence is a program whose outcomes the next one starts from. -/
@[simp] theorem wp_bind (x : Prog σ α) (f : α → Prog σ β) (post : β → σ → Prop) (s : σ) :
    wp (x >>= f) post s ↔ wp x (fun a s' => wp (f a) post s') s := by
  -- The second program starts where the first one ended.
  have unfolded : (x >>= f) s = (x s).bind (fun result => f result.1 result.2) := by
    change (x s).bind _ = _
    rfl
  constructor
  · intro holds a s' first b s'' second
    exact holds b s'' (by rw [unfolded, first]; exact second)
  · intro holds b s'' returned
    rw [unfolded] at returned
    cases first : x s with
    | none => simp [first] at returned
    | some result =>
      rw [first] at returned
      exact holds result.1 result.2 first b s'' returned

/-- A function on the result is applied to every outcome. -/
@[simp] theorem wp_map (f : α → β) (x : Prog σ α) (post : β → σ → Prop) (s : σ) :
    wp (f <$> x) post s ↔ wp x (fun a s' => post (f a) s') s := by
  -- Mapping is a sequence that ends with a return.
  rw [map_eq_pure_bind, wp_bind]
  simp only [wp_pure]

/-- A choice is judged by the branch that is taken. -/
@[simp] theorem wp_ite (c : Prop) [Decidable c] (x y : Prog σ α) (post : α → σ → Prop) (s : σ) :
    wp (if c then x else y) post s ↔ (c → wp x post s) ∧ (¬ c → wp y post s) := by
  -- Only the chosen branch runs.
  by_cases taken : c <;> simp [taken]

/-- A weaker postcondition still holds. -/
theorem wp_mono {x : Prog σ α} {post post' : α → σ → Prop} {s : σ}
    (holds : wp x post s) (weaker : ∀ a s', post a s' → post' a s') : wp x post' s :=
  -- Each outcome satisfies what is stronger.
  fun a s' returned => weaker a s' (holds a s' returned)

/-- Two postconditions of one program hold together. -/
theorem wp_and {x : Prog σ α} {post post' : α → σ → Prop} {s : σ}
    (left : wp x post s) (right : wp x post' s) : wp x (fun a s' => post a s' ∧ post' a s') s :=
  -- Each outcome satisfies both.
  fun a s' returned => ⟨left a s' returned, right a s' returned⟩

/-- Running a body once for each index below a bound, in increasing order. -/
def forUpTo (body : Nat → Prog σ Unit) : Nat → Prog σ Unit
  -- The earlier indices run before the last one.
  | 0 => pure ()
  | n + 1 => do
    forUpTo body n
    body n

/-- A loop keeps what each pass of its body moves from one index to the next. -/
theorem wp_forUpTo {body : Nat → Prog σ Unit} (invariant : Nat → σ → Prop) (n : Nat)
    (pass : ∀ i s, i < n → invariant i s → wp (body i) (fun _ s' => invariant (i + 1) s') s)
    {s : σ} (start : invariant 0 s) : wp (forUpTo body n) (fun _ s' => invariant n s') s := by
  -- Induction on the bound: the last pass starts from what the earlier passes established.
  induction n with
  | zero => simpa [forUpTo] using start
  | succ n ih =>
    simp only [forUpTo, wp_bind]
    refine wp_mono (ih (fun i s below => pass i s (by omega))) ?_
    intro _ s' reached
    exact pass n s' (by omega) reached

/-- The program returns, and its outcome satisfies the postcondition. -/
def ends (x : Prog σ α) (post : α → σ → Prop) (s : σ) : Prop :=
  -- A program has at most one outcome, so nothing is left open.
  ∃ a s', x s = some (a, s') ∧ post a s'

/-- Returning a value ends with it. -/
@[simp] theorem ends_pure (a : α) (post : α → σ → Prop) (s : σ) :
    ends (pure a) post s ↔ post a s := by
  -- Returning has exactly one outcome.
  constructor
  · rintro ⟨b, s', returned, holds⟩
    cases returned
    exact holds
  · intro holds
    exact ⟨a, s, rfl, holds⟩

/-- Reading ends with the state. -/
@[simp] theorem ends_read (post : σ → σ → Prop) (s : σ) : ends read post s ↔ post s s := by
  -- Reading has exactly one outcome.
  constructor
  · rintro ⟨b, s', returned, holds⟩
    cases returned
    exact holds
  · intro holds
    exact ⟨s, s, rfl, holds⟩

/-- A change ends in the changed state. -/
@[simp] theorem ends_change (f : σ → σ) (post : Unit → σ → Prop) (s : σ) :
    ends (change f) post s ↔ post () (f s) := by
  -- A change has exactly one outcome.
  constructor
  · rintro ⟨b, s', returned, holds⟩
    cases returned
    exact holds
  · intro holds
    exact ⟨(), f s, rfl, holds⟩

/-- A sequence ends when the next program ends from the outcome of the first. -/
@[simp] theorem ends_bind (x : Prog σ α) (f : α → Prog σ β) (post : β → σ → Prop) (s : σ) :
    ends (x >>= f) post s ↔ ends x (fun a s' => ends (f a) post s') s := by
  -- The only outcome of the first program is where the next one starts.
  have unfolded : (x >>= f) s = (x s).bind (fun result => f result.1 result.2) := by
    change (x s).bind _ = _
    rfl
  constructor
  · rintro ⟨b, s'', returned, holds⟩
    rw [unfolded] at returned
    cases first : x s with
    | none => simp [first] at returned
    | some result =>
      rw [first] at returned
      exact ⟨result.1, result.2, first, b, s'', returned, holds⟩
  · rintro ⟨a, s', first, b, s'', second, holds⟩
    exact ⟨b, s'', by rw [unfolded, first]; exact second, holds⟩

/-- A function on the result is applied to the outcome. -/
@[simp] theorem ends_map (f : α → β) (x : Prog σ α) (post : β → σ → Prop) (s : σ) :
    ends (f <$> x) post s ↔ ends x (fun a s' => post (f a) s') s := by
  -- Mapping is a sequence that ends with a return.
  rw [map_eq_pure_bind, ends_bind]
  simp only [ends_pure]

/-- A choice ends as the branch does that is taken. -/
@[simp] theorem ends_ite (c : Prop) [Decidable c] (x y : Prog σ α) (post : α → σ → Prop)
    (s : σ) : ends (if c then x else y) post s ↔ (c → ends x post s) ∧ (¬ c → ends y post s) := by
  -- Only the chosen branch runs.
  by_cases taken : c <;> simp [taken]

/-- A program that ends somewhere ends wherever that is included. -/
theorem ends_mono {x : Prog σ α} {post post' : α → σ → Prop} {s : σ}
    (holds : ends x post s) (weaker : ∀ a s', post a s' → post' a s') : ends x post' s := by
  -- The outcome stays the same.
  obtain ⟨a, s', returned, reached⟩ := holds
  exact ⟨a, s', returned, weaker a s' reached⟩

/-- What holds of the one outcome holds of every outcome. -/
theorem wp_of_ends {x : Prog σ α} {post : α → σ → Prop} {s : σ} (holds : ends x post s) :
    wp x post s := by
  -- There is no other outcome than the one it ends with.
  obtain ⟨a, s', returned, reached⟩ := holds
  intro b s'' other
  rw [returned] at other
  cases other
  exact reached

/-- Every outcome of the program stands in a relation to the state it started from. -/
def Relates (x : Prog σ α) (R : σ → σ → Prop) : Prop :=
  -- The starting state is arbitrary, so the relation composes along a sequence.
  ∀ s, wp x (fun _ s' => R s s') s

section Relates

variable {R : σ → σ → Prop} (reflexive : ∀ s, R s s)
  (transitive : ∀ {a b c}, R a b → R b c → R a c)

include reflexive in
/-- Returning a value leaves the state. -/
theorem Relates.pure (a : α) : Relates (pure a : Prog σ α) R := by
  -- The relation is reflexive.
  intro s
  simpa using reflexive s

include reflexive in
/-- Reading leaves the state. -/
theorem Relates.read : Relates (read : Prog σ σ) R := by
  -- The relation is reflexive.
  intro s
  simpa using reflexive s

include transitive in
/-- A transitive relation holds across a sequence when it holds across both parts. -/
theorem Relates.bind {x : Prog σ α} {f : α → Prog σ β} (first : Relates x R)
    (second : ∀ a, Relates (f a) R) : Relates (x >>= f) R := by
  -- The relation is transitive.
  intro s
  rw [wp_bind]
  refine wp_mono (first s) ?_
  intro a s' reached
  refine wp_mono (second a s') ?_
  intro b s'' later
  exact transitive reached later

/-- A choice relates as both branches do. -/
theorem Relates.ite {c : Prop} [Decidable c] {x y : Prog σ α} (yes : Relates x R)
    (no : Relates y R) : Relates (if c then x else y) R := by
  -- Only the chosen branch runs.
  intro s
  exact (wp_ite c x y _ s).mpr ⟨fun _ => yes s, fun _ => no s⟩

include reflexive transitive in
/-- A loop relates as each of its passes does. -/
theorem Relates.forUpTo {body : Nat → Prog σ Unit} (each : ∀ i, Relates (body i) R) (n : Nat) :
    Relates (forUpTo body n) R := by
  -- The invariant of the loop is the relation to the state before its first pass.
  intro s
  refine wp_forUpTo (fun _ s' => R s s') n ?_ (reflexive s)
  intro i s' _ reached
  exact wp_mono (each i s') (fun _ _ later => transitive reached later)

end Relates

/-- Every outcome is reached by steps of a relation, and satisfies the postcondition. -/
def along (step : σ → σ → Prop) (x : Prog σ α) (post : α → σ → Prop) (s : σ) : Prop :=
  -- A program that calls others is described by the steps of all of them.
  wp x (fun a s' => Relation.ReflTransGen step s s' ∧ post a s') s

section Along

variable {step : σ → σ → Prop} {post : α → σ → Prop} {s : σ}

/-- What a program that is described by steps did when it returned. -/
theorem along_returned {x : Prog σ α} (holds : along step x post s) {a : α} {s' : σ}
    (returned : x s = some (a, s')) : Relation.ReflTransGen step s s' ∧ post a s' :=
  -- The outcome is one of those that steps reach.
  holds a s' returned

/-- Returning a value takes no step. -/
theorem along_pure {a : α} (holds : post a s) : along step (pure a) post s := by
  -- Nothing has changed.
  rw [along, wp_pure]
  exact ⟨.refl, holds⟩

/-- The steps of a sequence are those of its first part, then those of its second. -/
theorem along_bind {x : Prog σ β} {f : β → Prog σ α}
    (holds : along step x (fun b s' => along step (f b) post s') s) :
    along step (x >>= f) post s := by
  -- The steps of the second program come after those of the first.
  rw [along, wp_bind]
  refine wp_mono holds ?_
  intro b s' first
  refine wp_mono first.2 ?_
  intro a s'' second
  exact ⟨first.1.trans second.1, second.2⟩

/-- A choice takes the steps of the branch that is taken. -/
theorem along_ite {c : Prop} [Decidable c] {x y : Prog σ α} (yes : c → along step x post s)
    (no : ¬ c → along step y post s) : along step (if c then x else y) post s := by
  -- Only the chosen branch runs.
  rw [along, wp_ite]
  exact ⟨yes, no⟩

/-- What is reached satisfies whatever follows from it. -/
theorem along_mono {x : Prog σ α} {post' : α → σ → Prop} (holds : along step x post s)
    (weaker : ∀ a s', Relation.ReflTransGen step s s' → post a s' → post' a s') :
    along step x post' s := by
  -- The steps stay the same.
  refine wp_mono holds ?_
  intro a s' reached
  exact ⟨reached.1, weaker a s' reached.1 reached.2⟩

/-- What is described by steps is described by the steps these consist of. -/
theorem along_lift {step' : σ → σ → Prop} {x : Prog σ α}
    (consists : ∀ s s', step s s' → Relation.ReflTransGen step' s s')
    (holds : along step x post s) : along step' x post s := by
  refine wp_mono holds ?_
  intro a s' reached
  obtain ⟨run, result⟩ := reached
  refine ⟨?_, result⟩
  clear result
  -- Induction on the steps, one at the end.
  induction run with
  | refl => exact .refl
  | tail _ last ih => exact ih.trans (consists _ _ last)

/-- What every step keeps may be used in the postcondition. -/
theorem along_keep {x : Prog σ α} {invariant : σ → Prop}
    (keeps : ∀ s s', step s s' → invariant s → invariant s') (start : invariant s)
    (holds : along step x (fun a s' => invariant s' → post a s') s) : along step x post s := by
  -- Induction on the steps: the invariant holds at the outcome.
  refine along_mono holds ?_
  intro a s' run reached
  apply reached
  clear reached
  induction run with
  | refl => exact start
  | tail _ last ih => exact keeps _ _ last ih

/-- A program whose outcomes are single steps. -/
theorem along_step {x : Prog σ α} (holds : wp x (fun a s' => step s s' ∧ post a s') s) :
    along step x post s := by
  -- A single step is a run.
  refine wp_mono holds ?_
  intro a s' reached
  exact ⟨.single reached.1, reached.2⟩

/-- A program that leaves the state as it is. -/
theorem along_still {x : Prog σ α} (holds : wp x (fun a s' => s' = s ∧ post a s') s) :
    along step x post s := by
  -- No step is a run.
  refine wp_mono holds ?_
  intro a s' reached
  obtain ⟨same, result⟩ := reached
  subst same
  exact ⟨.refl, result⟩

/-- The equation of a program's own outcome may be used in its postcondition. -/
theorem wp_returned (x : Prog σ α) (s : σ) : wp x (fun a s' => x s = some (a, s')) s :=
  fun _ _ returned => returned

/-- A loop is described by the steps of its passes. -/
theorem along_forUpTo {body : Nat → Prog σ Unit} {invariant : σ → Prop} (n : Nat)
    (pass : ∀ i s, i < n → invariant s → along step (body i) (fun _ s' => invariant s') s)
    (start : invariant s) : along step (forUpTo body n) (fun _ s' => invariant s') s := by
  -- Induction on the bound, the last pass at the end.
  induction n with
  | zero => exact along_pure start
  | succ n ih =>
    apply along_bind
    apply along_mono (ih fun i s below => pass i s (Nat.lt_succ_of_lt below))
    intro _ s' _ reached
    exact pass n s' (Nat.lt_succ_self n) reached

end Along

end Program
