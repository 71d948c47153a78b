import Healthcheck.System.Acknowledge

/-! What never goes back in a generation: the rounds of a peer, the activation, a lost registration. -/

namespace Healthcheck

/-- The place of a phase in its round. -/
def Phase.place : Phase → Nat
  | .initial => 0
  | .preparing => 1
  | .inflight => 2
  | .waiting => 3

/-- How far the rounds of a peer have come. -/
def PeerState.progress (state : PeerState) : Nat :=
  4 * state.round + state.phase.place

section Progress

variable {gen : Generation} {i : Nat} {s s' : Sys}

/-- There are four phases in a round. -/
theorem place_le (phase : Phase) : phase.place ≤ 3 := by
  -- One case for each phase.
  cases phase <;> decide

/-- A claim starts the next round, wherever the one before was. -/
theorem progress_claimed (conf : CheckConf) (runtime : Runtime) (pid : Int) (started : Nat)
    (state : PeerState) :
    state.progress < (claimState conf runtime pid started state).progress := by
  -- A claim starts the next round.
  have least := place_le state.phase
  show 4 * state.round + state.phase.place < 4 * (state.round + 1) + 1
  omega

/-- Every step of the protocol leaves the record of a peer, or brings its rounds forward. -/
theorem progress_step (step : Step gen s s') :
    s'.record i = s.record i ∨ (s.record i).progress < (s'.record i).progress := by
  -- A record is left alone, or it goes on in its round or to the next one.
  cases step_turn step with
  | spawned p worker pid unused slot positive after =>
    subst after
    exact .inl rfl
  | crashed p running after =>
    subst after
    exact .inl rfl
  | moved p running frame move =>
    cases move.touches i with
    | kept record => exact .inl record
    | claimed takeover started registered claimable read record =>
      rw [record]
      exact .inr (progress_claimed _ _ _ _ _)
    | prepared t tcp record => exact .inl record
    | progressed owned preparing record =>
      rw [record]
      refine .inr ?_
      show 4 * (s.record i).round + (s.record i).phase.place < 4 * (s.record i).round + 2
      rw [preparing]
      exact Nat.lt_succ_self _
    | froze result delay active idle record => exact .inl record
    | committed submitted owned pending stage record =>
      rw [record]
      refine .inr ?_
      show 4 * (s.record i).round + (s.record i).phase.place < 4 * (s.record i).round + 3
      rcases stage with preparing | inflight
      · rw [preparing]
        simp [Phase.place]
      · rw [inflight]
        simp [Phase.place]

/-- A record is the same after some steps, or it has gone on. -/
theorem progress_steps (run : Steps gen s s') :
    s'.record i = s.record i ∨ (s.record i).progress < (s'.record i).progress := by
  -- Induction on the steps.
  induction run with
  | refl => exact .inl rfl
  | tail _ step ih =>
    rcases progress_step (i := i) step with same | further
    · rw [same]
      exact ih
    · rcases ih with same | before
      · rw [same] at further
        exact .inr further
      · exact .inr (Nat.lt_trans before further)

/-- The progress of a record never falls. -/
theorem progress_le (run : Steps gen s s') :
    (s.record i).progress ≤ (s'.record i).progress := by
  -- It is the same record, or one further on.
  rcases progress_steps (i := i) run with same | further
  · rw [same]
  · exact Nat.le_of_lt further

end Progress

section Registration

variable {gen : Generation} {s s' : Sys} {p me : Nat}

/-- A move leaves the registrations of the instances that were there. -/
theorem slot_moved (move : Move gen p s s') (worker : Nat)
    (inst : (s'.slot worker).inst = (s.slot worker).inst) :
    (s'.slot worker).pid = (s.slot worker).pid ∧
      ((s'.slot worker).exiting = false → (s.slot worker).exiting = false) := by
  -- A slot with the same instance has at most been marked as exiting.
  have same : s'.slot worker = s.slot worker → (s'.slot worker).pid = (s.slot worker).pid ∧
      ((s'.slot worker).exiting = false → (s.slot worker).exiting = false) := by
    intro slot
    rw [slot]
    exact ⟨rfl, id⟩
  cases move with
  | quiet shared => exact same (slot_same shared worker)
  | activated reading shared => exact same (slot_activated shared worker)
  | opened heartbeat fresh room shared =>
    by_cases mine : worker = (s.procs p).runtime.worker
    · subst mine
      rw [slot_enrolled shared] at inst
      exact absurd inst (Nat.succ_ne_self _)
    · exact same (slot_enrolled_other shared mine)
  | renewed heartbeat registered mine shared =>
    by_cases ours : worker = (s.procs p).runtime.worker
    · subst ours
      rw [slot_enrolled shared]
      exact ⟨rfl, id⟩
    · exact same (slot_enrolled_other shared ours)
  | retired registered pid number shared =>
    by_cases ours : worker = (s.procs p).runtime.worker
    · subst ours
      rw [slot_enrolled shared]
      exact ⟨rfl, fun leaving => by cases leaving⟩
    · exact same (slot_enrolled_other shared ours)
  | claimed j takeover started next registered claimable read state shared =>
    exact same (slot_published shared worker)
  | prepared j t tcp shared => exact same (slot_same shared worker)
  | progressed j next owned preparing state shared => exact same (slot_published shared worker)
  | froze j result delay active idle shared => exact same (slot_same shared worker)
  | committed j submitted next owned pending stage state shared =>
    exact same (slot_published shared worker)

/-- A registered process finds the instance number of its slot as it was, if the slot still carries
its own. -/
theorem inst_moved (sound : Sound s) (enrolls : Enrolls p s s')
    (listed : (s.core me).registered = true)
    (mine : (s'.slot (s.core me).worker).inst = (s.core me).inst) :
    (s'.slot (s.core me).worker).inst = (s.slot (s.core me).worker).inst := by
  cases enrolls with
  | same slots => exact slots _
  | opened fresh slot others =>
    by_cases ours : (s.core me).worker = (s.core p).worker
    · -- A newer instance would be above the process's own.
      have known := (sound.registrations.enrolled me listed).2
      rw [ours] at mine known
      omega
    · rw [others _ ours]

/-- A process that is registered stays what it is, whoever makes the step. -/
theorem listed_step (sound : Sound s) (step : Step gen s s')
    (listed : (s.core me).registered = true) :
    (s'.core me).registered = true ∧ (s'.core me).worker = (s.core me).worker ∧
      (s'.core me).inst = (s.core me).inst ∧ (s'.core me).pid = (s.core me).pid := by
  have same : s'.core me = s.core me → (s'.core me).registered = true ∧
      (s'.core me).worker = (s.core me).worker ∧ (s'.core me).inst = (s.core me).inst ∧
        (s'.core me).pid = (s.core me).pid := by
    intro core
    rw [core]
    exact ⟨listed, rfl, rfl, rfl⟩
  cases step_turn step with
  | spawned p worker pid unused slot positive after =>
    subst after
    by_cases other : me = p
    · -- A process that starts has not been there before.
      subst other
      have none := sound.registrations.absent me unused
      rw [Sys.core, none] at listed
      cases listed
    · exact same (core_setProc_other s _ other)
  | crashed p running after =>
    subst after
    by_cases other : me = p
    · subst other
      rw [core_setProc]
      exact ⟨listed, rfl, rfl, rfl⟩
    · exact same (core_setProc_other s _ other)
  | moved p running frame move =>
    by_cases other : me = p
    · subst other
      cases move.enrolls with
      | same slots registered worker inst pid => exact ⟨registered.trans listed, worker, inst, pid⟩
      | opened fresh =>
        rw [fresh] at listed
        cases listed
    · exact same (core_other frame other)

/-- A registration that is in place after a step was in place before it. -/
theorem registered_step (sound : Sound s) (step : Step gen s s')
    (listed : (s.core me).registered = true) (after : Registered s' (s'.procs me)) :
    Registered s (s.procs me) := by
  -- A registration that holds after a step was not lost before it.
  obtain ⟨_, worker, own, number⟩ := listed_step sound step listed
  obtain ⟨inst, leaving, pid⟩ := after
  change (s'.slot (s'.core me).worker).inst = (s'.core me).inst at inst
  change (s'.slot (s'.core me).worker).exiting = false at leaving
  change (s'.slot (s'.core me).worker).pid = (s'.core me).pid at pid
  rw [worker] at inst leaving pid
  rw [own] at inst
  rw [number] at pid
  have back : (s'.slot (s.core me).worker).inst = (s.slot (s.core me).worker).inst →
      ((s'.slot (s.core me).worker).pid = (s.slot (s.core me).worker).pid ∧
        ((s'.slot (s.core me).worker).exiting = false →
          (s.slot (s.core me).worker).exiting = false)) → Registered s (s.procs me) :=
    fun same ⟨pids, exiting⟩ => ⟨same ▸ inst, exiting leaving, pids ▸ pid⟩
  cases step_turn step with
  | spawned p worker pid unused slot positive after =>
    subst after
    exact back rfl ⟨rfl, id⟩
  | crashed p running after =>
    subst after
    exact back rfl ⟨rfl, id⟩
  | moved p running frame move =>
    have same := inst_moved sound move.enrolls listed inst
    exact back same (slot_moved move _ same)

/-- A registered process stays so, with its worker and its instance. -/
theorem listed_steps (sound : Sound s) (run : Steps gen s s')
    (listed : (s.core me).registered = true) :
    (s'.core me).registered = true ∧ (s'.core me).worker = (s.core me).worker ∧
      (s'.core me).inst = (s.core me).inst := by
  -- Induction on the steps.
  induction run with
  | refl => exact ⟨listed, rfl, rfl⟩
  | tail before step ih =>
    obtain ⟨still, worker, inst⟩ := ih
    obtain ⟨after, same, own, _⟩ :=
      listed_step (steps_keep Sound sound_step sound before) step still
    exact ⟨after, same.trans worker, own.trans inst⟩

/-- A registration that holds after some steps held before them. -/
theorem registered_steps (sound : Sound s) (run : Steps gen s s')
    (listed : (s.core me).registered = true) (after : Registered s' (s'.procs me)) :
    Registered s (s.procs me) := by
  -- Induction on the steps, the last one first.
  induction run with
  | refl => exact after
  | tail before step ih =>
    exact ih (registered_step (steps_keep Sound sound_step sound before) step
      (listed_steps sound before listed).1 after)

end Registration

section Activation

variable {gen : Generation} {s s' : Sys}

/-- The time of the activation is fixed once it is set. -/
theorem activated_step (step : Step gen s s') (active : s.shared.activated = true) :
    s'.shared.activated = true ∧ s'.shared.activatedAt = s.shared.activatedAt := by
  -- Only an activation changes these fields, and not in an active generation.
  cases step_turn step with
  | spawned p worker pid unused slot positive after =>
    subst after
    exact ⟨active, rfl⟩
  | crashed p running after =>
    subst after
    exact ⟨active, rfl⟩
  | moved p running frame move =>
    have kept : s'.shared.activated = s.shared.activated ∧
        s'.shared.activatedAt = s.shared.activatedAt := by
      cases move with
      | activated reading shared =>
        rw [shared, Shared.activate, if_pos active]
        exact ⟨rfl, rfl⟩
      | quiet shared =>
        rw [shared]
        exact ⟨rfl, rfl⟩
      | opened heartbeat fresh room shared =>
        rw [shared]
        exact ⟨rfl, rfl⟩
      | renewed heartbeat registered mine shared =>
        rw [shared]
        exact ⟨rfl, rfl⟩
      | retired registered pid inst shared =>
        rw [shared]
        exact ⟨rfl, rfl⟩
      | claimed i takeover started next registered claimable read state shared =>
        rw [shared]
        exact ⟨rfl, rfl⟩
      | prepared i t tcp shared =>
        rw [shared]
        exact ⟨rfl, rfl⟩
      | progressed i next owned preparing state shared =>
        rw [shared]
        exact ⟨rfl, rfl⟩
      | froze i result delay active idle shared =>
        rw [shared]
        exact ⟨rfl, rfl⟩
      | committed i submitted next owned pending stage state shared =>
        rw [shared]
        exact ⟨rfl, rfl⟩
    exact ⟨kept.1.trans active, kept.2⟩

/-- An active generation stays active since the same time. -/
theorem activated_steps (run : Steps gen s s') (active : s.shared.activated = true) :
    s'.shared.activated = true ∧ s'.shared.activatedAt = s.shared.activatedAt := by
  -- Induction on the steps.
  induction run with
  | refl => exact ⟨active, rfl⟩
  | tail _ step ih =>
    obtain ⟨still, time⟩ := activated_step step ih.1
    exact ⟨still, time.trans ih.2⟩

end Activation

end Healthcheck
