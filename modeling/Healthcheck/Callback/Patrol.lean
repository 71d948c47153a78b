import Healthcheck.Callback.Takeover

/-!
How long a takeover takes. The watch goes round the peers, so after so many passes that all of them
were visited, no peer is left with an owner that was overdue before.
-/

namespace Healthcheck

open Program

/-- Passes of the watch of process `me` in environments that let it work, all of them when `due`
is over. Between them the event loop runs any other callbacks, and other processes run. -/
inductive Patrol (gen : Generation) (me due : Nat) (first : Sys) : Nat → Sys → Prop
  | start : Patrol gen me due first 0 first
  | others (passes : Nat) (s s' : Sys) (patrol : Patrol gen me due first passes s)
      (moved : OtherSteps gen me s s') : Patrol gen me due first passes s'
  | called (passes : Nat) (callback : Callback) (w w' : World) (mine : w.me = me)
      (other : callback ≠ .watchTimer) (patrol : Patrol gen me due first passes w.sys)
      (others : ∀ n s, OtherSteps gen me s ((w.script n).others s))
      (returned : callback.run gen w = some ((), w')) : Patrol gen me due first passes w'.sys
  | passed (passes early : Nat) (w w' : World) (mine : w.me = me)
      (late : due ≤ milliseconds early) (smooth : Smooth w.script early)
      (patrol : Patrol gen me due first passes w.sys)
      (others : ∀ n s, OtherSteps gen me s ((w.script n).others s))
      (returned : Callback.watchTimer.run gen w = some ((), w')) :
      Patrol gen me due first (passes + 1) w'.sys

section Stopping

variable {gen : Generation} {w w' : World}

/-- Round steps of a process that stops leave it stopping. -/
theorem stopping_roundSteps (steady : Steady w.self) (run : RoundSteps gen w w')
    (stops : w.self.runtime.stopping = true) : w'.self.runtime.stopping = true :=
  -- The stop is kept by each atomic step.
  (atomicSteps_steady (fun w => w.self.runtime.stopping = true) stopping_atomicStep steady
    (atomic_of_rounds run) stops).2

/-- No callback makes a process that stops go on. -/
theorem stopping_callbackRun (steady : Steady w.self) (course : CallbackRun gen w w')
    (stops : w.self.runtime.stopping = true) : w'.self.runtime.stopping = true := by
  -- One case for each kind of callback.
  cases course with
  | quiet _ run => exact stopping_roundSteps steady run stops
  | checked i _ passes =>
    refine stopping_roundSteps ?_ (passes_run passes) ?_
    · rw [self_setSelf]
      exact steady_disarm steady i
    · rw [self_setSelf]
      exact stops
  | timed i _ passes =>
    refine stopping_roundSteps ?_ (passes_run passes) ?_
    · rw [self_setSelf]
      exact steady_expire steady i
    · rw [self_setSelf]
      exact stops
  | watched _ passes =>
    refine stopping_roundSteps ?_ (passes_run passes) ?_
    · rw [self_setSelf]
      exact steady_peers steady rfl
    · rw [self_setSelf]
      exact stops

end Stopping

section Life

variable {gen : Generation} {me : Nat} {first s s' : Sys}

/-- The watch of a living process is at a configured peer. -/
theorem life_cursor (life : WorkerLife gen me first s) (peers : 0 < gen.nelts) :
    (s.procs me).runtime.cursor < gen.nelts := by
  -- Induction on the life, one callback at its end.
  induction life with
  | started w w' pid worker mine begins fresh others returned =>
    obtain ⟨same, _, cursor⟩ := frameSteps_frame (framed_runtimeInit w () w' returned)
    rw [self_mine (same.trans mine), cursor, fresh]
    exact peers
  | others s s' life moved ih =>
    obtain ⟨_, same⟩ := steps_others moved
    rw [setProc_same same, same]
    exact ih
  | called callback w w' mine life others returned ih =>
    rw [self_mine mine] at ih
    obtain ⟨same, within⟩ := watchSteps_cursor (byWatch_callback callback w () w' returned) ih
    rw [self_mine (same.trans mine)]
    exact within

/-- A time of patrols is part of the life of its process. -/
theorem life_patrol {due passes : Nat} (life : WorkerLife gen me first s)
    (patrol : Patrol gen me due s passes s') : WorkerLife gen me first s' := by
  -- Induction on the patrol.
  induction patrol with
  | start => exact life
  | others passes s s' patrol moved ih =>
    have later : WorkerLife gen me first (s'.setProc me (s.procs me)) := .others s s' ih moved
    rwa [setProc_same (steps_others moved).2] at later
  | called passes callback w w' mine other patrol others returned ih =>
    exact .called callback w w' mine ih others returned
  | passed passes early w w' mine late smooth patrol others returned ih =>
    exact .called .watchTimer w w' mine ih others returned

/-- A callback in a life keeps to the protocol. -/
theorem life_callback {callback : Callback} {w w' : World} (mine : w.me = me)
    (life : WorkerLife gen me first w.sys)
    (others : ∀ n s, OtherSteps gen me s ((w.script n).others s))
    (returned : callback.run gen w = some ((), w')) :
    CallbackRun gen w w' ∧ Guaranteed gen w w' := by
  -- The process is steady and running before the callback.
  have steady : Steady w.self := by
    rw [← self_mine mine]
    exact life_steady life
  have running : w.self.status = .running := by
    rw [← self_mine mine]
    exact (life_steps life).2
  have course := callbackRun_callback callback steady () w' returned
  subst mine
  exact ⟨course, guaranteed_callbackRun running others course⟩

/-- A process that one of its timers has called, which is not armed any more, sets out from where it
was. -/
theorem life_onward {i early : Nat} {w : World} {proc : Proc} (initial : Initial gen first)
    (life : WorkerLife gen me first w.sys) (mine : w.me = me)
    (listed : w.self.runtime.registered = true) (status : proc.status = w.self.status)
    (readings : proc.readings = w.self.readings) (quieter : w.self.core.Quieter proc.core)
    (steady : Steady w.self → Steady proc)
    (others : ∀ n s, OtherSteps gen me s ((w.script n).others s))
    (smooth : Smooth w.script early) :
    Onward gen i (w.sys.record i) early (w.setSelf proc) := by
  -- The life reaches the callback, and a quiet change of the process does not lead off.
  obtain ⟨run, running⟩ := life_steps life
  have rests := life_steady life
  rw [self_mine mine] at running rests
  have rang : Guaranteed gen w (w.setSelf proc) := guaranteed_setSelf running readings quieter
  refine (onward_start (w := w.setSelf proc) (settled_steps
    (settled_initial initial) run).sound mine
    ?_ rang.steps ?_ ?_ others smooth).1
  · rw [self_mine mine]
    exact listed
  · rw [self_setSelf, status]
    exact running
  · rw [self_setSelf]
    exact steady rests

end Life

section Relief

variable {gen : Generation} {me i due : Nat} {first s : Sys}

/-- What is known of a peer before a time of patrols: its owner is another process, and it will be
overdue, whichever backup its record prefers, when that time begins. -/
structure Overdue (gen : Generation) (me i due : Nat) (s : Sys) : Prop where
  listed : (s.procs me).runtime.registered = true
  activated : s.shared.activated = true
  foreign : (s.record i).worker ≠ (s.procs me).runtime.worker ∨
    (s.record i).inst ≠ (s.procs me).runtime.inst
  overdue : addTime (addTime (peerDeadline gen i s.shared.activatedAt (s.record i)) gen.grace)
    gen.preference ≤ due
  room : (s.record i).round ≠ uint64Max ∧ (s.record i).term ≠ uint64Max

/-- A process that has begun a pass, some steps of the protocol later. -/
theorem overdue_underway {early : Nat} {w : World} (sound : Sound s) (mine : w.me = me)
    (overdue : Overdue gen me i due s) (run : Steps gen s w.sys)
    (status : w.self.status = .running) (late : due ≤ milliseconds early) (steady : Steady w.self)
    (others : ∀ n s, OtherSteps gen me s ((w.script n).others s))
    (smooth : Smooth w.script early) : Underway gen i (s.record i) early w := by
  -- The process is on its way, and the takeover is due by then.
  obtain ⟨listed, activated, foreign, before, room⟩ := overdue
  obtain ⟨onward, worker, inst⟩ := onward_start sound mine listed run status steady others smooth
  obtain ⟨still, time⟩ := activated_steps run activated
  refine ⟨onward, still, ?_, ?_, room⟩
  · rw [time]
    exact before.trans late
  · rw [worker, inst]
    exact foreign

/-- A timer of the watch that is armed calls the watch. -/
theorem wp_watchTimer {post : Unit → World → Prop} {w : World}
    (armed : w.self.runtime.watch.isSome = true)
    (holds : wp (watch gen) post (w.setSelf { w.self with
      runtime := { w.self.runtime with watch := none } })) :
    wp (Callback.watchTimer.run gen) post w := by
  -- The timer is armed, so the watch is run.
  unfold Callback.run
  rw [wp_bind, wp_self, wp_ite, wp_bind, wp_modifyRuntime, wp_pure]
  exact ⟨fun _ => holds, fun idle => absurd armed idle⟩

/-- What a number of passes has done, as long as the process goes on and stays registered: the watch
went round that far, and the peer was relieved if it was on the way. -/
structure Patrolled (gen : Generation) (me i : Nat) (first : Sys) (passes : Nat) (s : Sys) :
    Prop where
  run : Steps gen first s
  round : (s.procs me).runtime.stopping = false → Registered s (s.procs me) →
    (s.procs me).runtime.cursor =
      ((first.procs me).runtime.cursor + passes * min gen.nelts batch) % gen.nelts
  relieved : (s.procs me).runtime.stopping = false → Registered s (s.procs me) →
    ∀ distance < passes * min gen.nelts batch,
      ((first.procs me).runtime.cursor + distance) % gen.nelts = i →
      (first.record i).progress < (s.record i).progress

/-- Between the passes nothing is lost. -/
theorem patrolled_later {passes : Nat} {s' : Sys} (sound : Sound s)
    (listed : (s.procs me).runtime.registered = true)
    (patrolled : Patrolled gen me i first passes s) (run : Steps gen s s')
    (stops : (s.procs me).runtime.stopping = true → (s'.procs me).runtime.stopping = true)
    (cursor : (s'.procs me).runtime.cursor = (s.procs me).runtime.cursor) :
    Patrolled gen me i first passes s' := by
  -- A relieved peer stays relieved, and the cursor is where it was.
  obtain ⟨before, round, relieved⟩ := patrolled
  have goes : (s'.procs me).runtime.stopping = false → (s.procs me).runtime.stopping = false := by
    intro running
    rw [Bool.eq_false_iff]
    intro stopped
    rw [stops stopped] at running
    cases running
  refine ⟨before.trans run, fun running registration => ?_, fun running registration distance
    reached visits => ?_⟩
  · rw [cursor]
    exact round (goes running) (registered_steps sound run listed registration)
  · exact Nat.lt_of_lt_of_le (relieved (goes running)
      (registered_steps sound run listed registration) distance reached visits) (progress_le run)

/-- One pass, after the passes before it. -/
theorem patrolled_pass {root : Sys} {passes early : Nat} {w w' : World} (initial : Initial gen root)
    (life : WorkerLife gen me root w.sys) (peers : 0 < gen.nelts) (sound : Sound first)
    (overdue : Overdue gen me i due first) (mine : w.me = me) (late : due ≤ milliseconds early)
    (smooth : Smooth w.script early)
    (others : ∀ n s, OtherSteps gen me s ((w.script n).others s))
    (returned : Callback.watchTimer.run gen w = some ((), w'))
    (patrolled : Patrolled gen me i first passes w.sys) :
    Patrolled gen me i first (passes + 1) w'.sys := by
  obtain ⟨course, guaranteed⟩ := life_callback mine life others returned
  obtain ⟨before, round, relieved⟩ := patrolled
  have after : w'.sys.procs me = w'.self := self_mine (guaranteed.me.trans mine)
  have steady : Steady w.self := by
    rw [← self_mine mine]
    exact life_steady life
  have running : w.self.status = .running := by
    rw [← self_mine mine]
    exact (life_steps life).2
  have listed := (listed_steps sound before overdue.listed).1
  rw [self_mine mine] at round relieved
  -- A process that goes on after the pass had its watch armed before it.
  have goes : w'.self.runtime.stopping = false → w.self.runtime.stopping = false := by
    intro running
    rw [Bool.eq_false_iff]
    intro stops
    rw [stopping_callbackRun steady course stops] at running
    cases running
  have armed : w.self.runtime.stopping = false → w.self.runtime.watch.isSome = true := by
    have tending : Tending w.sys me i := life_tending initial life
    rw [← self_mine mine]
    exact tending.watch
  have rang : Guaranteed gen w (w.setSelf { w.self with
      runtime := { w.self.runtime with watch := none } }) :=
    guaranteed_setSelf running rfl (Core.Quieter.refl _)
  have onway : Underway gen i (first.record i) early (w.setSelf { w.self with
      runtime := { w.self.runtime with watch := none } }) :=
    overdue_underway sound mine overdue (before.trans rang.steps) (rang.status.trans running) late
      (by rw [self_setSelf]; exact steady_peers steady rfl) others smooth
  have back : Registered w'.sys w'.self → Registered w.sys w.self := by
    intro registration
    rw [← after] at registration
    have earlier := registered_steps (steps_keep Sound sound_step sound before) guaranteed.steps
      listed registration
    rwa [self_mine mine] at earlier
  have here : w.self.runtime.stopping = false → Registered w.sys w.self →
      (w.setSelf { w.self with runtime := { w.self.runtime with watch :=
        none } }).self.runtime.cursor =
        ((first.procs me).runtime.cursor + passes * min gen.nelts batch) % gen.nelts := by
    intro running registration
    rw [self_setSelf]
    exact round running registration
  refine ⟨before.trans guaranteed.steps, fun running registration => ?_,
    fun running registration distance reached visits => ?_⟩
  · rw [after] at running registration ⊢
    have cursor := here (goes running) (back registration)
    have within := Nat.mod_lt ((first.procs me).runtime.cursor + passes * min gen.nelts batch) peers
    rw [← cursor] at within
    rcases wp_watchTimer (armed (goes running)) (wp_watch_smooth onway within) () w' returned with
      stops | moved
    · rw [running] at stops
      cases stops
    · rw [moved, cursor, Nat.mod_add_mod, Nat.add_assoc, Nat.add_mul, Nat.one_mul]
  · rw [after] at running registration
    by_cases earlier : distance < passes * min gen.nelts batch
    · exact Nat.lt_of_lt_of_le (relieved (goes running) (back registration) distance earlier visits)
        (progress_le guaranteed.steps)
    · -- The peer is among those that this pass visits.
      have cursor := here (goes running) (back registration)
      have within := Nat.mod_lt ((first.procs me).runtime.cursor + passes * min gen.nelts batch)
        peers
      rw [← cursor] at within
      have next : distance - passes * min gen.nelts batch < min gen.nelts batch := by
        rw [Nat.add_mul, Nat.one_mul] at reached
        omega
      have there : ((w.setSelf { w.self with
          runtime := { w.self.runtime with watch := none } }).self.runtime.cursor +
            (distance - passes * min gen.nelts batch)) % gen.nelts = i := by
        rw [cursor, Nat.mod_add_mod, ← visits]
        congr 1
        omega
      have visit := wp_watchTimer (armed (goes running))
        (relieves_watch _ onway within next there) () w' returned
      exact visit.2 running registration

/-- Any number of passes, with all that happens between them. -/
theorem patrol_passes {root : Sys} {passes : Nat} {s' : Sys} (initial : Initial gen root)
    (life : WorkerLife gen me root first) (peers : 0 < gen.nelts)
    (overdue : Overdue gen me i due first) (patrol : Patrol gen me due first passes s') :
    Patrolled gen me i first passes s' := by
  have sound : Sound first :=
    (settled_steps (settled_initial initial) (life_steps life).1).sound
  -- Induction on the patrol, one pass at its end.
  induction patrol with
  | start =>
    refine ⟨.refl, fun _ _ => ?_, fun _ _ distance reached => by omega⟩
    rw [Nat.zero_mul, Nat.add_zero]
    exact (Nat.mod_eq_of_lt (life_cursor life peers)).symm
  | others passes s s' patrol moved ih =>
    obtain ⟨run, same⟩ := steps_others moved
    have sound' := steps_keep Sound sound_step sound ih.run
    exact patrolled_later sound' (listed_steps sound ih.run overdue.listed).1 ih run
      (fun stops => by rwa [same]) (by rw [same])
  | called passes callback w w' mine other patrol others returned ih =>
    have lived := life_patrol life patrol
    obtain ⟨course, guaranteed⟩ := life_callback mine lived others returned
    have steady : Steady w.self := by
      rw [← self_mine mine]
      exact life_steady lived
    have after : w'.sys.procs me = w'.self := self_mine (guaranteed.me.trans mine)
    refine patrolled_later (steps_keep Sound sound_step sound ih.run)
      (listed_steps sound ih.run overdue.listed).1 ih guaranteed.steps ?_ ?_
    · rw [after, self_mine mine]
      exact stopping_callbackRun steady course
    · rw [after, self_mine mine]
      exact (frameSteps_frame (framed_callback callback other w () w' returned)).2.2
  | passed passes early w w' mine late smooth patrol others returned ih =>
    exact patrolled_pass initial (life_patrol life patrol) peers sound overdue mine late smooth
      others returned ih

/-- A peer whose owner is overdue does not stay as it is: after enough passes of the watch of any
registered process that lets it go round all peers, the peer's round is behind, unless the process
stops or loses its registration. -/
theorem overdue_relieved {root : Sys} {passes : Nat} {s' : Sys} (initial : Initial gen root)
    (life : WorkerLife gen me root first) (listed : i < gen.nelts)
    (overdue : Overdue gen me i due first) (patrol : Patrol gen me due first passes s')
    (enough : gen.nelts ≤ passes * batch) (goes : (s'.procs me).runtime.stopping = false)
    (registration : Registered s' (s'.procs me)) :
    (first.record i).progress < (s'.record i).progress := by
  have peers : 0 < gen.nelts := by omega
  have within := life_cursor life peers
  have all : gen.nelts ≤ passes * min gen.nelts batch := by
    have some : 0 < passes := by
      rw [Nat.pos_iff_ne_zero]
      intro none
      rw [none, Nat.zero_mul] at enough
      omega
    rcases Nat.le_total gen.nelts batch with few | many
    · rw [Nat.min_eq_left few]
      exact Nat.le_mul_of_pos_left _ some
    · rw [Nat.min_eq_right many]
      exact enough
  -- The peer lies ahead of the cursor, or once round.
  have ahead : ((first.procs me).runtime.cursor +
      (i + gen.nelts - (first.procs me).runtime.cursor) % gen.nelts) % gen.nelts = i := by
    rw [Nat.add_mod_mod]
    have sum : (first.procs me).runtime.cursor +
        (i + gen.nelts - (first.procs me).runtime.cursor) = i + gen.nelts := by omega
    rw [sum, Nat.add_mod_right, Nat.mod_eq_of_lt listed]
  have passed : Patrolled gen me i first passes s' :=
    patrol_passes initial life peers overdue patrol
  exact passed.relieved goes registration _ (Nat.lt_of_lt_of_le (Nat.mod_lt _ peers) all) ahead

/-- A worker has claimed a round, and another process is started in its place. -/
def supersededLife : Option Sys :=
  claimedLife.bind fun s => lived sample 1 (fun _ => quietAt 6000) [] s

/-- The watch of the new worker makes a pass much later. -/
def patrolledLife : Option Sys :=
  supersededLife.bind fun s => callAll sample 1 [(.watchTimer, fun _ => quietAt 100000)] s

/-- A clock that stands still lets a process work. -/
theorem smooth_quietAt : Smooth (fun _ => quietAt 100000) 100000000000 := by
  -- The answers are constant.
  refine ⟨fun _ => rfl, fun _ => rfl, fun _ => ⟨100000000000, ?_, le_rfl, by decide⟩⟩
  exact ⟨⟨100, 0⟩, rfl, by decide, by decide⟩

/-- The life of the new worker, which finds the round that the old one has left. -/
theorem worker_superseded {s : Sys} (ran : supersededLife = some s) :
    WorkerLife sample 1 (fresh sample) s := by
  -- A second worker starts after the first one has claimed.
  obtain ⟨first, claimed, started⟩ := Option.bind_eq_some_iff.mp ran
  have absent : (claimedLife.map fun s => (s.procs 1).status) = some .absent := by decide +kernel
  rw [claimed] at absent
  exact worker_lived (life_steps (worker_claimedLife claimed)).1 (Option.some.inj absent)
    (fun _ => rfl) (fun call member => by cases member) started

/-- A round that belongs to a replaced process is taken over. -/
theorem overdue_relieved_superseded : ∃ s s', supersededLife = some s ∧ patrolledLife = some s' ∧
    (s.record 0).round = 1 ∧ (s.record 0).inst ≠ (s.procs 1).runtime.inst ∧
    (s.record 0).progress < (s'.record 0).progress := by
  -- The second worker takes the record of the first one over.
  have before : (supersededLife.map fun s => ((s.procs 1).runtime.registered, s.shared.activated,
      (s.procs 1).runtime.inst, (s.record 0).inst, (s.record 0).round, (s.record 0).term)) =
      some (true, true, 2, 1, 1, 1) := by decide +kernel
  have due : (supersededLife.map fun s => addTime (addTime (peerDeadline sample 0
      s.shared.activatedAt (s.record 0)) sample.grace) sample.preference) = some 7000 := by
    decide +kernel
  have after : (patrolledLife.map fun s => ((s.procs 1).runtime.stopping,
      decide ((s.slot (s.procs 1).runtime.worker).inst = (s.procs 1).runtime.inst),
      (s.slot (s.procs 1).runtime.worker).exiting,
      decide ((s.slot (s.procs 1).runtime.worker).pid = (s.procs 1).pid))) =
      some (false, true, false, true) := by decide +kernel
  obtain ⟨s, started, state⟩ := Option.map_eq_some_iff.mp before
  obtain ⟨s', passed, ended⟩ := Option.map_eq_some_iff.mp after
  obtain ⟨listed, active, own, inst, round, term⟩ : _ ∧ _ ∧ _ ∧ _ ∧ _ ∧ _ := by simpa using state
  obtain ⟨goes, mine, leaving, number⟩ : _ ∧ _ ∧ _ ∧ _ := by simpa using ended
  rw [started] at due
  have foreign : (s.record 0).inst ≠ (s.procs 1).runtime.inst := by
    rw [own, inst]
    decide
  refine ⟨s, s', started, passed, round, foreign, ?_⟩
  rw [patrolledLife, started, Option.bind_some, callAll, Option.bind_eq_some_iff] at passed
  obtain ⟨⟨_, w⟩, returned, rest⟩ := passed
  cases rest
  have overdue : Overdue sample 1 0 7000 s := by
    refine ⟨listed, active, .inr foreign, (Option.some.inj due).le, ?_⟩
    rw [round, term]
    decide
  have patrol : Patrol sample 1 7000 s 1 w.sys :=
    .passed 0 100000000000 { sys := s, me := 1, script := fun _ => quietAt 100000 } w rfl
      (by decide)
      smooth_quietAt .start (fun _ _ => .refl) returned
  exact overdue_relieved (fresh_initial sample) (worker_superseded started) (by decide) overdue
    patrol (by decide) goes ⟨mine, leaving, number⟩

end Relief

end Healthcheck
