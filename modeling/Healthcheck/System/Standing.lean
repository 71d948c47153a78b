import Healthcheck.System.Invariant

/-! A round that runs or waits in a process stands open in the peer's record, if that names it. -/

namespace Healthcheck

/-- What a local round that runs or waits for its submission shares with the peer's record. -/
structure Standing (gen : Generation) (s : Sys) (i : Nat) : Prop where
  generation : ∀ p, ((s.core p).rounds i).active = true ∨ ((s.core p).rounds i).pending = true →
    ((s.core p).rounds i).generation = gen.generation
  opened : ∀ p, ((s.core p).rounds i).active = true ∨ ((s.core p).rounds i).pending = true →
    ((s.core p).rounds i).number = (s.record i).round →
    (s.record i).phase = .preparing ∨ (s.record i).phase = .inflight

variable {gen : Generation} {i : Nat} {s s' : Sys}

/-- No round stands open in a fresh system. -/
theorem standing_initial (initial : Initial gen s) (i : Nat) : Standing gen s i := by
  -- At the start no process has a round.
  have idle : ∀ p, (s.core p).rounds i = {} := by
    intro p
    rw [Sys.core, initial.procs]
    rfl
  refine ⟨fun p busy => ?_, fun p busy => ?_⟩
  · simp [idle] at busy
  · simp [idle] at busy

/-- Rounds that only end, under a record that keeps its round and stays open, stand as before. -/
theorem standing_congr (inv : Standing gen s i) (round : (s'.record i).round = (s.record i).round)
    (phase : (s.record i).phase = .preparing ∨ (s.record i).phase = .inflight →
      (s'.record i).phase = .preparing ∨ (s'.record i).phase = .inflight)
    (rounds : ∀ p, ((s'.core p).rounds i).active = true ∨ ((s'.core p).rounds i).pending = true →
      (((s.core p).rounds i).active = true ∨ ((s.core p).rounds i).pending = true) ∧
        ((s'.core p).rounds i).generation = ((s.core p).rounds i).generation ∧
        ((s'.core p).rounds i).number = ((s.core p).rounds i).number) : Standing gen s' i := by
  -- What the open rounds are compared with has not changed.
  refine ⟨fun p busy => ?_, fun p busy named => ?_⟩
  · obtain ⟨before, generation, _⟩ := rounds p busy
    exact generation.trans (inv.generation p before)
  · obtain ⟨before, _, number⟩ := rounds p busy
    refine phase (inv.opened p before ?_)
    rw [← number, ← round]
    exact named

/-- A step keeps the record of an open round PREPARING or INFLIGHT. -/
theorem standing_step (inv : Standing gen s i) (sound : Sound s) (step : Step gen s s') :
    Standing gen s' i := by
  have consistent := sound.consistent i
  cases step_turn step with
  | spawned p worker pid unused slot positive after =>
    subst after
    refine standing_congr inv rfl id fun q busy => ?_
    by_cases same : q = p
    · -- A starting process has no rounds.
      rw [same, core_setProc] at busy
      rcases busy with active | pending
      · cases active
      · cases pending
    · rw [core_setProc_other s _ same] at busy ⊢
      exact ⟨busy, rfl, rfl⟩
  | crashed p running after =>
    subst after
    refine standing_congr inv rfl id fun q busy => ?_
    by_cases same : q = p
    · rw [same, core_setProc] at busy ⊢
      exact ⟨busy, rfl, rfl⟩
    · rw [core_setProc_other s _ same] at busy ⊢
      exact ⟨busy, rfl, rfl⟩
  | moved p running frame move =>
    -- Only the rounds of the moving process change.
    have others : ∀ q, q ≠ p → ((s'.core q).rounds i) = ((s.core q).rounds i) :=
      fun q other => by rw [core_other frame other]
    have keeps : (s'.record i).round = (s.record i).round →
        ((s.record i).phase = .preparing ∨ (s.record i).phase = .inflight →
          (s'.record i).phase = .preparing ∨ (s'.record i).phase = .inflight) →
        (((s'.core p).rounds i).active = true ∨ ((s'.core p).rounds i).pending = true →
          (((s.core p).rounds i).active = true ∨ ((s.core p).rounds i).pending = true) ∧
          ((s'.core p).rounds i).generation = ((s.core p).rounds i).generation ∧
          ((s'.core p).rounds i).number = ((s.core p).rounds i).number) → Standing gen s' i := by
      intro round phase own
      refine standing_congr inv round phase fun q busy => ?_
      by_cases same : q = p
      · subst same
        exact own busy
      · rw [others q same] at busy ⊢
        exact ⟨busy, rfl, rfl⟩
    cases move.touches i with
    | kept record _ round =>
      refine keeps (by rw [record]) (by rw [record]; exact id) fun busy => ⟨?_, ?_, ?_⟩
      · exact busy.imp round.2.1 round.2.2
      · rw [round.1]
      · rw [round.1]
    | claimed takeover started registered claimable _ record _ round =>
      refine ⟨fun q busy => ?_, fun q busy named => ?_⟩
      · by_cases same : q = p
        · rw [same, round]
          rfl
        · rw [others q same] at busy ⊢
          exact inv.generation q busy
      · left
        rw [record]
        rfl
    | prepared t _ record _ _ round =>
      refine keeps (by rw [record]) (by rw [record]; exact id) fun busy => ?_
      rw [round] at busy ⊢
      exact ⟨busy, rfl, rfl⟩
    | progressed owned preparing record _ round =>
      refine keeps (by rw [record]; rfl) (fun _ => .inr (by rw [record]; rfl)) fun busy => ?_
      rw [round] at busy ⊢
      exact ⟨busy, rfl, rfl⟩
    | froze result delay active idle record _ round =>
      refine keeps (by rw [record]) (by rw [record]; exact id) fun _ => ⟨.inl active, ?_, ?_⟩
      · rw [round]
        rfl
      · rw [round]
        rfl
    | committed submitted owned pending stage record _ round =>
      -- The committed round was the only one that the record could name, and it is over.
      have idle : ¬ (((s'.core p).rounds i).active = true ∨ ((s'.core p).rounds i).pending =
        true) := by
        rw [round]
        rintro (active | waits)
        · rw [consistent.exclusive p active] at pending
          cases pending
        · cases waits
      refine ⟨fun q busy => ?_, fun q busy named => ?_⟩
      · by_cases same : q = p
        · exact absurd (same ▸ busy) idle
        · rw [others q same] at busy ⊢
          exact inv.generation q busy
      · by_cases same : q = p
        · exact absurd (same ▸ busy) idle
        · rw [others q same] at busy named
          have mine : ((s.core p).rounds i).number = ((s.core q).rounds i).number := by
            rw [named, record]
            exact owned.number.symm
          exact absurd (consistent.unique p q (consistent.busy p (.inr pending)) mine).symm same

/-- In every reachable state the rounds of the processes stand open as their records say. -/
theorem standing_reachable {s₀ : Sys} (initial : Initial gen s₀) (run : Steps gen s₀ s) :
    Standing gen s i := by
  -- The invariants of the system go along.
  have both := steps_keep (fun s => Sound s ∧ Standing gen s i)
    (fun inv step => ⟨sound_step inv.1 step, standing_step inv.2 inv.1 step⟩)
    ⟨sound_initial initial, standing_initial initial i⟩ run
  exact both.2

end Healthcheck
