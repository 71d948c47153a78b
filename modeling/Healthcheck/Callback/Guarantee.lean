import Healthcheck.Callback.Life
import Healthcheck.System.Acknowledge
import Healthcheck.System.Peer
import Healthcheck.System.Run

/-!
What a process guarantees to the others. Its callbacks, with all that happens in them, are runs of
the protocol, provided that the other processes keep to the protocol while it waits.
-/

namespace Healthcheck

open Program

/-- Steps of a generation in which process `me` takes no part. -/
abbrev OtherSteps (gen : Generation) (me : Nat) : Sys → Sys → Prop :=
  Relation.ReflTransGen fun s s' => Step gen s s' ∧ s'.procs me = s.procs me

/-- The life of process `me` in a generation: it was spawned in a run of the protocol, and the other
processes keep to the protocol. -/
abbrev WorkerLife (gen : Generation) (me : Nat) (first : Sys) : Sys → Prop :=
  Life gen me (Steps gen first) (OtherSteps gen me)

/-- What the others do are steps of the system that leave this process alone. -/
theorem steps_others {gen : Generation} {me : Nat} {s s' : Sys} (moved : OtherSteps gen me s s') :
    Steps gen s s' ∧ s'.procs me = s.procs me := by
  -- Induction on their steps.
  induction moved with
  | refl => exact ⟨.refl, rfl⟩
  | tail _ step ih => exact ⟨ih.1.tail step.1, step.2.trans ih.2⟩

/-- Putting a process back that the others left alone changes nothing. -/
theorem setProc_same {s s' : Sys} {me : Nat} (same : s'.procs me = s.procs me) :
    s'.setProc me (s.procs me) = s' := by
  -- The process that is stored is the one that was there.
  simp [Sys.setProc, ← same]

section Quiet

variable {gen : Generation}

/-- Two quiet changes of a round make a quiet one. -/
theorem Round.Quieter.trans {a b c : Round} (first : a.Quieter b) (second : b.Quieter c) :
    a.Quieter c := by
  -- The flags can only be cleared.
  obtain ⟨same, active, pending⟩ := first
  obtain ⟨same', active', pending'⟩ := second
  refine ⟨?_, active ∘ active', pending ∘ pending'⟩
  rw [same', same]

/-- Two quiet changes of a process make a quiet one. -/
theorem Core.Quieter.trans {a b c : Core} (first : a.Quieter b) (second : b.Quieter c) :
    a.Quieter c :=
  ⟨second.status.trans first.status, second.pid.trans first.pid, second.worker.trans first.worker,
    second.inst.trans first.inst, second.registered.trans first.registered,
    fun i => (first.rounds i).trans (second.rounds i)⟩

/-- A process changed in one peer, when the round of that peer is quieter. -/
theorem quieter_setPeer (p : Proc) {i : Nat} {peer : Peer}
    (quieter : (p.round i).Quieter peer.probe.round) : p.core.Quieter (p.setPeer i peer).core := by
  -- The core sees the round of the peer and nothing else of it.
  rw [core_setPeer]
  exact Core.Quieter.setRound quieter

/-- A probe that is written is as quiet as its round. -/
theorem quieter_handle (p : Proc) {i : Nat} {probe : Probe} (events : List IoEvent)
    (quieter : (p.round i).Quieter probe.round) :
    p.core.Quieter (p.handle i probe events).core :=
  quieter_setPeer p quieter

/-- A step of the probe is quiet. -/
theorem step_quieter {i : Nat} {probe probe' : Probe} {history events : List IoEvent}
    (step : ProbeStep gen i probe history probe' events) : probe.round.Quieter probe'.round := by
  -- One case for each step.
  cases step with
  | tuned probe' tuned =>
    rw [tuned.round]
    exact Round.Quieter.refl _
  | released pending fewer =>
    refine ⟨rfl, fun runs => ?_, fewer⟩
    cases runs
  | _ => exact Round.Quieter.refl _

/-- Stopping a peer is quiet. -/
theorem stopPeer_quieter (p : Proc) (i : Nat) : p.core.Quieter (p.stopPeer i).core := by
  -- Only the flags of an allocated peer are cleared.
  have disarmed : p.core.Quieter (p.disarm i).core := quieter_setPeer p (Round.Quieter.refl _)
  unfold Proc.stopPeer
  split
  · refine disarmed.trans (quieter_handle _ _ ⟨rfl, fun runs => ?_, fun waits => ?_⟩)
    · cases runs
    · cases waits
  · exact disarmed

/-- Stopping the runtime is quiet. -/
theorem stop_quieter (p : Proc) : p.core.Quieter (p.stop gen).core := by
  -- Induction on the peers.
  have peers : ∀ (p : Proc) (n : Nat), p.core.Quieter (p.stopPeers n).core := by
    intro p n
    induction n with
    | zero => exact Core.Quieter.refl _
    | succ n ih => exact ih.trans (stopPeer_quieter _ n)
  have begun : p.core.Quieter
      { p with runtime := { p.runtime with stopping := true, watch := none } }.core :=
    Core.Quieter.refl _
  exact begun.trans (peers _ gen.nelts)

/-- What a process does on its own cannot be seen by the others. -/
theorem local_quieter {p p' : Proc} (change : Local gen p p') :
    p.core.Quieter p'.core ∧ p'.readings = p.readings := by
  -- One case for each change.
  cases change with
  | stopped =>
    refine ⟨stop_quieter p, ?_⟩
    have peers : ∀ (p : Proc) (n : Nat), (p.stopPeers n).readings = p.readings := by
      intro p n
      induction n with
      | zero => rfl
      | succ n ih =>
        rw [← ih, Proc.stopPeers, Proc.stopPeer]
        split <;> rfl
    exact peers _ gen.nelts
  | checkArmed i delay => exact ⟨quieter_setPeer p (Round.Quieter.refl _), rfl⟩
  | handled i probe events step => exact ⟨quieter_handle p events (step_quieter step), rfl⟩
  | connected i before error startTime how active confirmed =>
    cases startTime with
    | none => exact ⟨quieter_handle p (.connecting i :: before) (Round.Quieter.refl _), rfl⟩
    | some time =>
      exact ⟨quieter_handle p (.established i p.opened time :: .connecting i :: before)
        (Round.Quieter.refl _), rfl⟩
  | _ => exact ⟨Core.Quieter.refl _, rfl⟩

end Quiet

section Guarantee

variable {gen : Generation}

/-- A process moved by a run of the protocol, and goes on in the same environment. -/
structure Guaranteed (gen : Generation) (w w' : World) : Prop where
  steps : Steps gen w.sys w'.sys
  status : w'.self.status = w.self.status
  me : w'.me = w.me
  script : w'.script = w.script

/-- A process that did nothing kept its guarantee. -/
theorem Guaranteed.refl (w : World) : Guaranteed gen w w :=
  ⟨.refl, rfl, rfl, rfl⟩

/-- The guarantee holds for two parts if it holds for each. -/
theorem Guaranteed.trans {w w' w'' : World} (first : Guaranteed gen w w')
    (second : Guaranteed gen w' w'') : Guaranteed gen w w'' :=
  ⟨first.steps.trans second.steps, second.status.trans first.status, second.me.trans first.me,
    second.script.trans first.script⟩

/-- A change that the others cannot see is one step of its process. -/
theorem guaranteed_alone {w : World} {proc : Proc} (running : w.self.status = .running)
    (rs : List Nat) (pos : Nat) (locks : List LockEvent)
    (readings : proc.readings = w.self.readings)
    (quieter : w.self.core.Quieter proc.core) :
    Guaranteed gen w ((w.setSelf proc).passed rs pos locks) := by
  -- A quiet change of the process alone is no step of the system.
  have after : ((w.setSelf proc).passed rs pos locks).sys =
      w.sys.setProc w.me { proc with readings := rs ++ proc.readings } := by
    simp [World.passed, World.setSelf, World.self, Sys.setProc]
  refine ⟨?_, ?_, rfl, rfl⟩
  · rw [after]
    refine .single (.alone w.sys w.me _ running quieter ?_)
    exact readings ▸ List.suffix_append rs w.self.readings
  · rw [passed_self, self_setSelf]
    exact quieter.status

/-- A quiet change keeps the guarantee. -/
theorem guaranteed_setSelf {w : World} {proc : Proc} (running : w.self.status = .running)
    (readings : proc.readings = w.self.readings) (quieter : w.self.core.Quieter proc.core) :
    Guaranteed gen w (w.setSelf proc) := by
  -- No time passes.
  have alone : Guaranteed gen w ((w.setSelf proc).passed [] (w.setSelf proc).pos
      (w.setSelf proc).locks) := guaranteed_alone running [] _ _ readings quieter
  rwa [passed_nil] at alone

/-- An operation is one step of its process, which lives on. -/
theorem guaranteed_ran (op : Op) {w w' : World} (running : w.self.status = .running)
    (me : w'.me = w.me) (script : w'.script = w.script)
    (returned : op.run gen w = some ((), w')) : Guaranteed gen w w' := by
  -- The operation is a step of the system, and the process runs on.
  refine ⟨.single (.call op w w' running returned), ?_, me, script⟩
  have status : (w'.sys.core w.me).status = (w.sys.core w.me).status := by
    cases (op_moved gen op w () w' returned).2.enrolls with
    | same _ _ _ _ _ status => exact status
    | opened _ _ _ _ core => rw [core]
  show (w'.sys.procs w'.me).status = _
  rw [me]
  exact status

/-- A step of a process is a run of the protocol. -/
theorem guaranteed_atomicStep {w w' : World} (running : w.self.status = .running)
    (others : ∀ n s, OtherSteps gen w.me s ((w.script n).others s)) (move : AtomicStep gen w w') :
    Guaranteed gen w w' := by
  cases move with
  | inner w' move =>
    cases move with
    | passed rs pos locks =>
      have alone : Guaranteed gen w ((w.setSelf w.self).passed rs pos locks) :=
        guaranteed_alone running rs pos locks rfl (Core.Quieter.refl _)
      rwa [setSelf_self] at alone
    | preempted =>
      -- The process itself is as it was, so what ran were steps of the others.
      obtain ⟨run, same⟩ := steps_others (others w.pos w.sys)
      refine ⟨?_, by rw [preempted_self], rfl, rfl⟩
      show Steps gen w.sys (((w.script w.pos).others w.sys).setProc w.me (w.sys.procs w.me))
      rw [setProc_same same]
      exact run
    | alone proc rs pos locks change =>
      obtain ⟨quieter, readings⟩ := local_quieter change
      exact guaranteed_alone running rs pos locks readings quieter
    | disarmed i _ =>
      exact guaranteed_setSelf running rfl (quieter_setPeer _ (Round.Quieter.refl _))
    | ran op w' inner returned =>
      have changed := op_changed w inner () w' returned
      exact guaranteed_ran op running changed.me changed.script returned
  | claimed i takeover limit result w' _ registered returned =>
    have law : wp (claimRound gen i takeover limit)
        (fun _ w' => w'.me = w.me ∧ w'.script = w.script) w :=
      wp_claimRound (fun _ _ => ⟨rfl, rfl⟩) (fun _ _ _ _ _ _ _ _ => ⟨rfl, rfl⟩)
        (fun _ _ _ _ _ _ _ _ => ⟨rfl, rfl⟩)
    obtain ⟨me, script⟩ := law result w' returned
    -- The operation asks for the registration, which the code has tested before.
    have run : (Op.claimRound i takeover limit).run gen w =
        (do let _ ← claimRound gen i takeover limit) w := by
      show (if w.self.runtime.registered = true then _ else _ : Action Unit) w = _
      rw [if_pos registered]
    refine guaranteed_ran (.claimRound i takeover limit) running me script ?_
    rw [run]
    exact returned_dropped returned
  | froze i result reason source error label events rs pos w' noted active idle returned =>
    have first : Guaranteed gen w (w.noting i events label rs pos) :=
      guaranteed_alone running rs pos w.locks rfl (quieter_handle _ events (Round.Quieter.refl _))
    have shape := freeze_returned returned
    obtain ⟨delay, rs', pos', _, after⟩ := shape
    refine first.trans (guaranteed_ran (.freeze i result reason source error)
      (first.status.trans running) ?_ ?_ (returned_dropped returned))
    · rw [after]
      rfl
    · rw [after]
      rfl
  | submitted i result rc =>
    exact guaranteed_setSelf running rfl (quieter_handle _ _ (Round.Quieter.refl _))

/-- Atomic steps keep the guarantee if the others take steps of the system. -/
theorem guaranteed_atomicSteps {w w' : World} (running : w.self.status = .running)
    (others : ∀ n s, OtherSteps gen w.me s ((w.script n).others s)) (run : AtomicSteps gen w w') :
    Guaranteed gen w w' := by
  -- Induction on the run.
  induction run with
  | refl => exact .refl w
  | tail _ move ih =>
    refine ih.trans (guaranteed_atomicStep (ih.status.trans running) (fun n s => ?_) move)
    rw [ih.me, ih.script]
    exact others n s

/-- A timer that called back, and what its handler then did. -/
theorem guaranteed_rang {w w' : World} {proc : Proc} (running : w.self.status = .running)
    (others : ∀ n s, OtherSteps gen w.me s ((w.script n).others s))
    (readings : proc.readings = w.self.readings) (quieter : w.self.core.Quieter proc.core)
    (run : RoundSteps gen (w.setSelf proc) w') : Guaranteed gen w w' := by
  -- The timer is cleared first, and then the atomic steps follow.
  have rang : Guaranteed gen w (w.setSelf proc) := guaranteed_setSelf running readings quieter
  exact rang.trans (guaranteed_atomicSteps (rang.status.trans running) others
    (atomic_of_rounds run))

/-- A whole callback keeps the guarantee. -/
theorem guaranteed_callbackRun {w w' : World} (running : w.self.status = .running)
    (others : ∀ n s, OtherSteps gen w.me s ((w.script n).others s))
    (course : CallbackRun gen w w') :
    Guaranteed gen w w' := by
  -- One case for each kind of callback.
  cases course with
  | quiet _ run => exact guaranteed_atomicSteps running others (atomic_of_rounds run)
  | checked i _ passes =>
    refine guaranteed_rang running others ?_ ?_ (passes_run passes)
    · rfl
    · exact quieter_setPeer _ (Round.Quieter.refl _)
  | timed i _ passes =>
    refine guaranteed_rang running others ?_ ?_ (passes_run passes)
    · rfl
    · exact quieter_handle _ [] (Round.Quieter.refl _)
  | watched _ passes =>
    refine guaranteed_rang running others ?_ ?_ (passes_run passes)
    · rfl
    · exact Core.Quieter.refl _

end Guarantee

section Life

variable {gen : Generation} {me : Nat} {first s : Sys}

/-- A process is steady in all of its life. -/
theorem life_steady {start : Sys → Prop} {between : Sys → Sys → Prop}
    (life : Life gen me start between s) : Steady (s.procs me) :=
  (life_keep (fun _ => True) (fun _ _ => trivial) (fun _ _ _ _ _ => trivial) life).1

/-- The run of a callback is a run of the protocol, and leaves it running. -/
theorem callbackRun_steps {w w' : World} (mine : w.me = me) (before : Steps gen first w.sys)
    (running : (w.sys.procs me).status = .running)
    (others : ∀ n s, OtherSteps gen me s ((w.script n).others s)) (course : CallbackRun gen w w') :
    Steps gen first w'.sys ∧ (w'.sys.procs me).status = .running := by
  -- The guarantee of the callback extends the run of the system.
  subst mine
  have guaranteed := guaranteed_callbackRun running others course
  refine ⟨before.trans guaranteed.steps, ?_⟩
  rw [← guaranteed.me]
  exact guaranteed.status.trans running

/-- A life is a run of the protocol, and its process is alive. -/
theorem life_steps (life : WorkerLife gen me first s) :
    Steps gen first s ∧ (s.procs me).status = .running := by
  -- Induction on the life, one callback at its end.
  induction life with
  | started w w' pid worker mine begins fresh others returned =>
    refine callbackRun_steps mine begins ?_ others (.quiet w' (callbackRun_started returned))
    rw [← mine]
    exact congrArg Proc.status fresh
  | others s s' life moved ih =>
    obtain ⟨run, same⟩ := steps_others moved
    rw [setProc_same same, same]
    exact ⟨ih.1.trans run, ih.2⟩
  | called callback w w' mine life others returned ih =>
    have steady : Steady w.self := by
      rw [World.self, mine]
      exact life_steady life
    exact callbackRun_steps mine ih.1 ih.2 others
      (callbackRun_callback callback steady () w' returned)

/-- What every step of the protocol keeps holds in every life, whatever callbacks the event loop
runs, in whatever order and environment, and whatever the other processes do before and during
them. -/
theorem callbacks_refine {invariant : Sys → Prop} (life : WorkerLife gen me first s)
    (keeps : ∀ s s', invariant s → Step gen s s' → invariant s') (start : invariant first) :
    Steps gen first s ∧ (s.procs me).status = .running ∧ invariant s := by
  -- A life is a run of the system, and the invariant holds along it.
  obtain ⟨run, running⟩ := life_steps life
  exact ⟨run, running, steps_keep invariant (keeps _ _) start run⟩

/-- A list of callbacks that is carried out while the other processes rest continues a life. -/
theorem worker_callAll {calls : List (Callback × (Nat → Answer))} {s s' : Sys}
    (life : WorkerLife gen me first s) (rest : ∀ call ∈ calls, ∀ n, (call.2 n).others = id)
    (ran : callAll gen me calls s = some s') : WorkerLife gen me first s' := by
  -- Induction on the calls.
  induction calls generalizing s with
  | nil =>
    cases ran
    exact life
  | cons call later ih =>
    simp only [callAll, Option.bind_eq_some_iff] at ran
    obtain ⟨⟨_, w⟩, returned, after⟩ := ran
    refine ih (.called call.1 _ w rfl life (fun n s => ?_) returned)
      (fun call member => rest call (List.mem_cons_of_mem _ member)) after
    show OtherSteps gen me s ((call.2 n).others s)
    rw [rest call List.mem_cons_self n]
    exact .refl

/-- The life of a worker that is started while the other processes rest. -/
theorem worker_lived {root : Sys} {script : Nat → Answer}
    {calls : List (Callback × (Nat → Answer))} {s : Sys} (before : Steps gen root first)
    (unused : (first.procs me).status = .absent) (quiet : ∀ n, (script n).others = id)
    (rest : ∀ call ∈ calls, ∀ n, (call.2 n).others = id)
    (ran : lived gen me script calls first = some s) : WorkerLife gen me root s := by
  -- The start of the worker, and then its calls.
  simp only [lived, Option.bind_eq_some_iff] at ran
  obtain ⟨⟨_, w⟩, returned, after⟩ := ran
  refine worker_callAll (.started _ w 1 0 rfl ?_ (self_setSelf
    { sys := first, me := me, script := script } _) (fun n s => ?_) returned) rest after
  · exact before.tail (.spawn first me 0 1 unused gen.workers_pos (by decide))
  · show OtherSteps gen me s ((script n).others s)
    rw [quiet n]
    exact .refl

/-- A worker that has claimed its first round and waits for its connection. -/
def claimedLife : Option Sys :=
  lived sample 0 (fun _ => quietAt 1000)
    [(.checkTimer 0, fun _ => { quietAt 4000 with connect := .again, flag := true })] (fresh sample)

/-- The sample life is one of a worker. -/
theorem worker_claimedLife {s : Sys} (ran : claimedLife = some s) :
    WorkerLife sample 0 (fresh sample) s := by
  -- Between its calls the rest of the system stands still.
  refine worker_lived .refl rfl (fun _ => rfl) (fun call member n => ?_) ran
  rw [List.mem_singleton.mp member]
  rfl

/-- A worker that claims a round, seen as a run of the system. -/
theorem callbacks_refine_claimed : ∃ s, claimedLife = some s ∧ (s.record 0).round = 1 ∧
    Steps sample (fresh sample) s ∧ Sound s := by
  -- The life is computed, and the theorem makes it a run of the system.
  have noted : (claimedLife.map fun s => (s.record 0).round) = some 1 := by decide +kernel
  obtain ⟨s, ran, round⟩ := Option.map_eq_some_iff.mp noted
  obtain ⟨run, _, sound⟩ := callbacks_refine (worker_claimedLife ran)
    (fun _ _ reached step => sound_step reached step) (sound_initial (fresh_initial sample))
  exact ⟨s, ran, round, run, sound⟩

end Life

end Healthcheck
