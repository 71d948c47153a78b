import Healthcheck.System.Invariant

/-! The process that a peer's record names knows the round of that record. -/

namespace Healthcheck

/-- A registered process whose worker number and instance the record carries has claimed that
record's round itself. -/
def Acknowledged (s : Sys) (i : Nat) : Prop :=
  ∀ p, (s.core p).registered = true → (s.record i).worker = (s.core p).worker →
    (s.record i).inst = (s.core p).inst → ((s.core p).rounds i).number = (s.record i).round

/-- At the start no process is registered that could name a record. -/
theorem acknowledged_initial {gen : Generation} {s : Sys} (initial : Initial gen s) (i : Nat) :
    Acknowledged s i := by
  -- No process is registered yet.
  intro p registered
  rw [Sys.core, initial.procs] at registered
  cases registered

/-- A move that keeps the identities of the record and of the rounds keeps the acknowledgement. -/
theorem acknowledged_congr {s s' : Sys} {i : Nat} (inv : Acknowledged s i)
    (record : (s'.record i).claim = (s.record i).claim)
    (same : ∀ p, (s'.core p).registered = true → (s'.record i).inst = (s'.core p).inst →
      (s'.record i).worker = (s'.core p).worker →
      (s.core p).registered = true ∧ (s'.core p).worker = (s.core p).worker ∧
        (s'.core p).inst = (s.core p).inst ∧
        ((s'.core p).rounds i).number = ((s.core p).rounds i).number) : Acknowledged s' i := by
  -- What the invariant speaks about has not changed.
  intro p registered worker inst
  obtain ⟨before, ours, mine, number⟩ := same p registered inst worker
  rw [number, show (s'.record i).round = (s.record i).round from congrArg Claim.round record]
  apply inv p before
  · rw [← ours, ← worker]
    exact (congrArg Claim.worker record).symm
  · rw [← mine, ← inst]
    exact (congrArg Claim.inst record).symm

/-- A process that registers now is not one that a record already names. -/
theorem unnamed_opened {p i : Nat} {s s' : Sys} (sound : Sound s)
    (records : s'.record i = s.record i)
    (core : s'.core p = { s.core p with
      inst := (s.slot (s.core p).worker).inst + 1, registered := true })
    (worker : (s'.record i).worker = (s'.core p).worker) :
    (s'.record i).inst ≠ (s'.core p).inst := by
  -- A record knows no instance beyond that of the slot.
  intro inst
  have known := (sound.consistent i).known
  rw [records, core] at worker inst
  rw [worker, inst] at known
  exact absurd known (Nat.not_succ_le_self _)

/-- A claim names the claimant, and no other registered process has its instance. -/
theorem acknowledged_claimed {gen : Generation} {p i started : Nat} {s s' : Sys}
    (registrations : Registrations s) (frame : Frame p s s')
    (registered : (s.core p).registered = true)
    (record : s'.record i =
      claimState (gen.conf i) (s.procs p).runtime (s.procs p).pid started (s.record i))
    (round : (s'.core p).rounds i =
      claimedRound gen started (s'.record i) ((s.core p).rounds i)) : Acknowledged s' i := by
  -- The claim is acknowledged by the process that made it.
  intro q listed worker inst
  by_cases same : q = p
  · rw [same, round]
    rfl
  · rw [core_other frame same] at listed worker inst
    have ours : (s.core p).worker = (s.core q).worker := by rw [← worker, record]; rfl
    have mine : (s.core p).inst = (s.core q).inst := by rw [← inst, record]; rfl
    exact absurd (registrations.unique p q registered listed ours mine).symm same

/-- Every step keeps what records say about registered processes. -/
theorem acknowledged_step {gen : Generation} {i : Nat} {s s' : Sys} (inv : Acknowledged s i)
    (sound : Sound s) (step : Step gen s s') : Acknowledged s' i := by
  cases step_turn step with
  | spawned p worker pid unused slot positive after =>
    -- A starting process is not registered.
    subst after
    refine acknowledged_congr inv rfl fun q registered _ _ => ?_
    by_cases same : q = p
    · rw [same, core_setProc] at registered
      cases registered
    · rw [core_setProc_other s _ same] at registered ⊢
      exact ⟨registered, rfl, rfl, rfl⟩
  | crashed p running after =>
    subst after
    refine acknowledged_congr inv rfl fun q registered _ _ => ?_
    by_cases same : q = p
    · rw [same, core_setProc] at registered ⊢
      exact ⟨registered, rfl, rfl, rfl⟩
    · rw [core_setProc_other s _ same] at registered ⊢
      exact ⟨registered, rfl, rfl, rfl⟩
  | moved p running frame move =>
    have enrolls := move.enrolls
    -- Every move but a claim keeps the identity of the record and the numbers of the rounds.
    have keeps : (s'.record i).claim = (s.record i).claim →
        ((s'.core p).rounds i).number = ((s.core p).rounds i).number → Acknowledged s' i := by
      intro record number
      refine acknowledged_congr inv record fun q registered inst worker => ?_
      by_cases same : q = p
      · subst same
        cases enrolls with
        | same _ listed ours mine _ _ => exact ⟨listed ▸ registered, ours, mine, number⟩
        | opened _ _ _ records core =>
          exact absurd inst (unnamed_opened sound (records i) core worker)
      · rw [core_other frame same] at registered ⊢
        exact ⟨registered, rfl, rfl, rfl⟩
    cases move.touches i with
    | kept record _ round => exact keeps (by rw [record]) (by rw [round.1])
    | claimed takeover started registered claimable _ record _ round =>
      exact acknowledged_claimed sound.registrations frame registered record round
    | prepared t _ record _ _ round => exact keeps (by rw [record]) (by rw [round])
    | progressed owned preparing record _ round =>
      exact keeps (by rw [record]; rfl) (by rw [round])
    | froze result delay active idle record _ round =>
      exact keeps (by rw [record]) (by rw [round]; rfl)
    | committed submitted owned pending stage record _ round =>
      exact keeps (by rw [record]; rfl) (by rw [round])

/-- What every reachable state satisfies, with the acknowledgement of every peer. -/
structure Settled (s : Sys) : Prop where
  sound : Sound s
  acknowledged : ∀ i, Acknowledged s i

/-- The first state is settled. -/
theorem settled_initial {gen : Generation} {s : Sys} (initial : Initial gen s) : Settled s :=
  ⟨sound_initial initial, acknowledged_initial initial⟩

/-- Every step keeps the state settled. -/
theorem settled_step {gen : Generation} {s s' : Sys} (inv : Settled s) (step : Step gen s s') :
    Settled s' :=
  -- The acknowledgements are kept because the state before the step is sound.
  ⟨sound_step inv.sound step, fun i => acknowledged_step (inv.acknowledged i) inv.sound step⟩

/-- Any number of steps keeps the state settled. -/
theorem settled_steps {gen : Generation} {s s' : Sys} (inv : Settled s) (run : Steps gen s s') :
    Settled s' :=
  steps_keep Settled settled_step inv run

end Healthcheck
