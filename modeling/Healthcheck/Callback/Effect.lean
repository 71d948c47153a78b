import Healthcheck.Callback.Steps
import Healthcheck.Runtime.OwnershipLaws

/-! What the inner steps of a process change of the process itself. -/

namespace Healthcheck

open Program

/-- What one inner step changes of its process, its clock readings apart. -/
inductive Change (gen : Generation) (p : Proc) : Proc → Prop
  | kept : Change gen p p
  | alone (p' : Proc) (change : Local gen p p') : Change gen p p'
  | disarmed (i : Nat) : Change gen p (p.disarm i)
  | enrolled (inst : Nat) : Change gen p (p.enrolled inst)
  | prepared (i deadline : Nat) (tcp : (gen.conf i).checkType = .tcp) :
      Change gen p (p.setPeer i ((p.peers i).setRound { p.round i with deadline := deadline }))
  | waited (i : Nat) : Change gen p (p.waitingPublished i)
  | settled (i : Nat) (check : Option Nat) (armed : (p.peers i).checkEv.isSome → check.isSome) :
      Change gen p (p.setPeer i
        { (p.peers i).setRound { p.round i with pending := false } with checkEv := check })

/-- A world whose process changed once, and may have read the clock. -/
structure Changed (gen : Generation) (w w' : World) : Prop where
  me : w'.me = w.me
  script : w'.script = w.script
  change : ∃ proc rs, Change gen w.self proc ∧
    w'.self = { proc with readings := rs ++ proc.readings }

/-- What runs in between leaves the process alone. -/
@[simp] theorem preempted_self (w : World) : w.preempted.self = w.self := by
  -- Only the rest of the system is replaced.
  simp [World.preempted, World.self, Sys.setProc]

/-- What runs in between leaves the number of the process alone. -/
@[simp] theorem preempted_me (w : World) : w.preempted.me = w.me := rfl

/-- What runs in between leaves the script alone. -/
@[simp] theorem preempted_script (w : World) : w.preempted.script = w.script := rfl

/-- A change of the process and the time that passes make one change of the world. -/
theorem changed_passed {gen : Generation} {w x : World} {proc : Proc} (rs : List Nat)
    (pos : Nat) (locks : List LockEvent) (me : x.me = w.me) (script : x.script = w.script)
    (self : x.self = proc) (change : Change gen w.self proc) :
    Changed gen w (x.passed rs pos locks) :=
  ⟨me, script, proc, rs, change, by rw [passed_self, self]⟩

/-- An operation in the peers of its process. -/
theorem op_changed {gen : Generation} {op : Op} (w : World) (inner : op.Inner) :
    wp (op.run gen) (fun _ w' => Changed gen w w') w := by
  -- An operation that did nothing used up answers at most.
  have kept : ∀ rs pos locks, Changed gen w (w.passed rs pos locks) :=
    fun rs pos locks => changed_passed rs pos locks rfl rfl rfl .kept
  have nothing : Changed gen w w := ⟨rfl, rfl, w.self, [], .kept, rfl⟩
  cases op with
  | activate limit reading =>
    simp only [Op.run, wp_bind, wp_pure]
    refine wp_activate (fun _ rs pos locks => kept rs pos locks) (fun rs pos _ => ?_)
    exact changed_passed rs pos _ rfl rfl rfl .kept
  | registerSlot limit reading =>
    simp only [Op.run, wp_bind, wp_pure]
    refine wp_registerSlot (fun _ rs pos locks _ _ => kept rs pos locks)
      (fun rs pos locks _ _ => kept rs pos locks) (fun rs pos _ _ _ => ?_)
      (fun rs pos _ _ _ => ?_)
    · exact changed_passed rs pos _ rfl rfl (self_setSelf _ _) (.enrolled _)
    · exact changed_passed rs pos _ rfl rfl rfl .kept
  | claimRound i takeover limit => cases inner
  | restartDeadline i =>
    simp only [Op.run, wp_bind]
    refine wp_now (fun pos => by simpa using kept [] pos w.locks) (fun t pos _ => ?_)
    unfold restartDeadline
    simp only [wp_ite, wp_modifyRound, wp_pure]
    refine ⟨fun tcp => ?_, fun _ => kept [t] pos w.locks⟩
    refine ⟨rfl, rfl, _, [t], .prepared i (addTime (milliseconds t)
      (gen.conf i).checkTimeout) tcp, ?_⟩
    simp [Proc.setPeer, Proc.round]
  | probeWaiting i =>
    simp only [Op.run, wp_bind, wp_pure]
    refine wp_probeWaiting (fun _ rs pos locks _ => kept rs pos locks) (fun rs pos _ _ _ _ => ?_)
      (fun rs pos _ _ _ _ => ?_)
    · exact changed_passed rs pos _ rfl rfl (self_setSelf _ _) (.waited i)
    · exact changed_passed rs pos _ rfl rfl (self_setSelf _ _) (.waited i)
  | freeze i result reason source error => cases inner
  | settle i limit =>
    simp only [Op.run, wp_bind, wp_self, wp_ite, wp_pure]
    refine ⟨fun _ => wp_settle (fun _ rs pos locks _ _ => kept rs pos locks) (fun rs pos _ => ?_)
      (fun t rs pos _ _ _ _ _ => ?_), fun _ => nothing⟩
    · exact changed_passed rs pos _ rfl rfl (self_setSelf _ _)
        (.settled i (w.self.peers i).checkEv id)
    · refine changed_passed rs pos _ rfl rfl (self_setSelf _ _) (.settled i _ fun armed => ?_)
      split
      · rfl
      · exact armed
  | retire =>
    refine wp_retire (fun rs pos locks _ => kept rs pos locks) (fun rs pos _ _ _ _ _ => ?_)
    exact changed_passed rs pos _ rfl rfl rfl .kept

/-- The world after a round's outcome was frozen. -/
theorem freeze_returned {gen : Generation} {i : Nat} {result : Bool} {reason source : String}
    {error : Option Errno} {w w' : World}
    (returned : freeze gen i result reason source error w = some (true, w')) :
    ∃ delay rs pos, Samples gen w.self i result delay ∧
      w' = ((w.noted (.frozen w.me i (w.self.round i).number result delay)).setSelf
        (w.self.frozen i result delay reason source error)).passed rs pos w.locks := by
  -- The law of the function, read at its return.
  have law : wp (freeze gen i result reason source error) (fun froze w' => froze = true →
      ∃ delay rs pos, Samples gen w.self i result delay ∧
        w' = ((w.noted (.frozen w.me i (w.self.round i).number result delay)).setSelf
          (w.self.frozen i result delay reason source error)).passed rs pos w.locks) w := by
    refine wp_freeze (fun _ refused => by cases refused) (fun delay rs pos _ _ samples _ => ?_)
    exact ⟨delay, rs, pos, samples, rfl⟩
  exact law true w' returned rfl

/-- The change an inner step makes to its process. -/
theorem innerStep_changed {gen : Generation} {w w' : World} (move : InnerStep gen w w') :
    Changed gen w w' := by
  -- One case for each step.
  cases move with
  | passed rs pos locks => exact changed_passed rs pos locks rfl rfl rfl .kept
  | preempted => exact ⟨rfl, rfl, w.self, [], .kept, by rw [preempted_self]; rfl⟩
  | alone proc rs pos locks change =>
    exact changed_passed rs pos locks rfl rfl (self_setSelf _ _) (.alone proc change)
  | disarmed i _ => exact ⟨rfl, rfl, _, [], .disarmed i, by rw [self_setSelf]; rfl⟩
  | ran op w' inner returned => exact op_changed w inner () w' returned

end Healthcheck
