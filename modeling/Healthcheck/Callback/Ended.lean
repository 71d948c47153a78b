import Healthcheck.Callback.Footprint
import Healthcheck.Callback.Guarantee
import Healthcheck.System.Advance

/-!
The end of a process's part in the checks. Whatever the event loop of a process that has stopped
still calls, and whenever, it only lets timers expire.
-/

namespace Healthcheck

open Program

/-- A process after some of its timers have expired. -/
structure Proc.Expired (p p' : Proc) : Prop where
  same : ∃ peers watch, p' = { p with peers := peers, runtime := { p.runtime with watch := watch } }
  watch : p'.runtime.watch = none ∨ p'.runtime.watch = p.runtime.watch
  peers : ∀ i, ∃ check timeout,
    p'.peers i = { p.peers i with
      checkEv := check, probe := { (p.peers i).probe with timeout := timeout } } ∧
    (check = none ∨ check = (p.peers i).checkEv) ∧
    (timeout = none ∨ timeout = (p.peers i).probe.timeout)

/-- A process that has stopped. -/
structure Proc.Ended (p : Proc) : Prop where
  stopping : p.runtime.stopping = true
  cleaned : p.runtime.cleaned = true

/-- The process let timers expire, and touched nothing else: no lock, no shared memory, no clock. -/
structure World.Rested (w w' : World) : Prop where
  me : w'.me = w.me
  locks : w'.locks = w.locks
  sys : ∃ p, w.self.Expired p ∧ w'.sys = w.sys.setProc w.me p

section Expiry

variable {p p' p'' : Proc}

/-- No timer has to expire. -/
theorem Proc.Expired.refl (p : Proc) : p.Expired p :=
  ⟨⟨p.peers, p.runtime.watch, rfl⟩, .inr rfl, fun _ => ⟨_, _, rfl, .inr rfl, .inr rfl⟩⟩

/-- A check timer that fires is gone. -/
theorem expired_disarm (p : Proc) (i : Nat) : p.Expired (p.disarm i) := by
  -- Only the peer itself is written.
  refine ⟨⟨_, p.runtime.watch, rfl⟩, .inr rfl, fun j => ?_⟩
  by_cases same : j = i
  · subst same
    exact ⟨none, _, by simp [Proc.disarm, Proc.setPeer], .inl rfl, .inr rfl⟩
  · exact ⟨_, _, by simp [Proc.disarm, Proc.setPeer, same], .inr rfl, .inr rfl⟩

/-- A timeout that fires is gone. -/
theorem expired_timeout (p : Proc) (i : Nat) :
    p.Expired (p.setPeer i { p.peers i with
      probe := { (p.peers i).probe with timeout := none } }) := by
  -- Only the peer itself is written.
  refine ⟨⟨_, p.runtime.watch, rfl⟩, .inr rfl, fun j => ?_⟩
  by_cases same : j = i
  · subst same
    exact ⟨_, none, by simp [Proc.setPeer], .inr rfl, .inl rfl⟩
  · exact ⟨_, _, by simp [Proc.setPeer, same], .inr rfl, .inr rfl⟩

/-- A watch that fires is gone. -/
theorem expired_watch (p : Proc) :
    p.Expired { p with runtime := { p.runtime with watch := none } } :=
  ⟨⟨p.peers, none, rfl⟩, .inl rfl, fun _ => ⟨_, _, rfl, .inr rfl, .inr rfl⟩⟩

/-- Timers that expire one after the other have all expired. -/
theorem Proc.Expired.trans (first : p.Expired p') (second : p'.Expired p'') : p.Expired p'' := by
  -- Each timer is gone or is the one it was.
  obtain ⟨⟨peers, watch, rfl⟩, running, timers⟩ := first
  obtain ⟨⟨peers', watch', rfl⟩, running', timers'⟩ := second
  refine ⟨⟨peers', watch', rfl⟩, ?_, fun i => ?_⟩
  · rcases running' with none | same
    · exact .inl none
    · rw [same]
      exact running
  · obtain ⟨check, timeout, peer, checks, timeouts⟩ := timers i
    obtain ⟨check', timeout', peer', checks', timeouts'⟩ := timers' i
    rw [peer] at peer' checks' timeouts'
    refine ⟨check', timeout', peer', ?_, ?_⟩
    · rcases checks' with none | same
      · exact .inl none
      · rw [same]
        exact checks
    · rcases timeouts' with none | same
      · exact .inl none
      · rw [same]
        exact timeouts

/-- A stopped process stays stopped while its timers expire. -/
theorem Proc.Expired.ended (expired : p.Expired p') (ended : p.Ended) : p'.Ended := by
  -- The flags are not written.
  obtain ⟨⟨peers, watch, rfl⟩, _, _⟩ := expired
  exact ⟨ended.stopping, ended.cleaned⟩

end Expiry

section Idle

variable {gen : Generation} {i : Nat} {w : World}

/-- Nothing happened but that the environment was asked. -/
def Asked (w w' : World) : Prop :=
  ∃ pos, w' = w.passed [] pos w.locks

/-- Not even a question was asked. -/
theorem asked_refl (w : World) : Asked w w :=
  ⟨w.pos, (passed_nil w).symm⟩

/-- Stopping once more changes nothing. -/
theorem wp_runtimeStop_ended {post : Unit → World → Prop} (ended : w.self.Ended)
    (holds : post () w) : wp (runtimeStop gen) post w := by
  -- The flags are set already, so the stop writes what was there.
  unfold runtimeStop
  rw [wp_bind, wp_self, wp_bind, wp_modifyRuntime, wp_ite]
  refine ⟨fun _ => ?_, fun dirty => absurd ended.cleaned dirty⟩
  have same : { w.self with runtime := { w.self.runtime with stopping := true } } = w.self := by
    rw [← ended.stopping]
  rw [wp_pure, same, setSelf_self]
  exact holds

/-- A stopped process finds itself stopping. -/
theorem wp_stopping_ended {post : Bool → World → Prop} (ended : w.self.Ended)
    (holds : post true (w.passed [] (w.pos + 1) w.locks)) : wp (stopping gen) post w := by
  -- The flag is set, whatever the world answers.
  unfold stopping
  rw [wp_bind, wp_self, wp_bind, wp_quitting, wp_ite]
  refine ⟨fun _ => ?_, fun goes => absurd (.inl ended.stopping) goes⟩
  rw [wp_bind]
  refine wp_runtimeStop_ended (by rw [passed_self]; exact ⟨ended.stopping, ended.cleaned⟩) ?_
  rw [wp_pure]
  exact holds

/-- A check timer of a stopped process does nothing. -/
theorem wp_begin_ended (ended : w.self.Ended) : wp (begin gen i) (fun _ w' => Asked w w') w := by
  -- It returns after the first test.
  unfold begin
  rw [wp_bind]
  refine wp_stopping_ended ended ?_
  rw [wp_ite, wp_pure]
  exact ⟨fun _ => ⟨_, rfl⟩, fun goes => absurd rfl goes⟩

/-- The watch of a stopped process does nothing. -/
theorem wp_watch_ended (ended : w.self.Ended) : wp (watch gen) (fun _ w' => Asked w w') w := by
  -- It returns after the first test.
  unfold watch
  rw [wp_bind]
  refine wp_stopping_ended ended ?_
  rw [wp_ite, wp_pure]
  exact ⟨fun _ => ⟨_, rfl⟩, fun goes => absurd rfl goes⟩

/-- A timeout of a stopped process does nothing. -/
theorem wp_timeout_ended (ended : w.self.Ended) :
    wp (timeout gen i) (fun _ w' => Asked w w') w := by
  -- Without a round it returns at once, else it stops once more.
  unfold timeout
  rw [wp_bind, wp_self]
  refine (wp_ite ..).mpr ⟨fun _ => (wp_pure ..).mpr (asked_refl w), fun _ => ?_⟩
  rw [wp_bind, wp_quitting, wp_ite]
  refine ⟨fun _ => ?_, fun goes => absurd (.inr ended.stopping) goes⟩
  exact wp_runtimeStop_ended (by rw [passed_self]; exact ⟨ended.stopping, ended.cleaned⟩) ⟨_, rfl⟩

/-- No event of a connection gets past the test that every handler makes first. -/
theorem wp_ioReady_ended {connection : Nat} (ended : w.self.Ended) :
    wp (ioReady gen i connection) (fun ready w' => ready = false ∧ Asked w w') w := by
  -- Another connection or the flag ends the event.
  unfold ioReady
  rw [wp_bind, wp_self]
  refine (wp_ite ..).mpr ⟨fun _ => (wp_pure ..).mpr ⟨rfl, asked_refl w⟩, fun _ => ?_⟩
  rw [wp_bind, wp_quitting, wp_ite]
  refine ⟨fun _ => ?_, fun goes => absurd (.inr ended.stopping) goes⟩
  rw [wp_bind]
  refine wp_runtimeStop_ended (by rw [passed_self]; exact ⟨ended.stopping, ended.cleaned⟩) ?_
  rw [wp_pure]
  exact ⟨rfl, _, rfl⟩

/-- A retained connection of a stopped process is left alone. -/
theorem wp_tcpIdle_ended {connection : Nat} (ended : w.self.Ended) :
    wp (tcpIdle gen i connection) (fun _ w' => Asked w w') w := by
  -- Another connection or the flag ends the event.
  unfold tcpIdle
  rw [wp_bind, wp_self]
  refine (wp_ite ..).mpr ⟨fun _ => (wp_pure ..).mpr (asked_refl w), fun _ => ?_⟩
  rw [wp_bind, wp_quitting, wp_ite]
  refine ⟨fun _ => ?_, fun goes => absurd (.inl ended.stopping) goes⟩
  exact wp_runtimeStop_ended (by rw [passed_self]; exact ⟨ended.stopping, ended.cleaned⟩) ⟨_, rfl⟩

/-- No handler of a stopped process does anything. -/
theorem wp_runHandler_ended {connection : Nat} {handler : Handler} (ended : w.self.Ended) :
    wp (runHandler gen i connection handler) (fun _ w' => Asked w w') w := by
  -- The handlers of a check differ only behind the test.
  have refused : ∀ {x : Action Unit}, wp (do if ← ioReady gen i connection then x)
      (fun _ w' => Asked w w') w := by
    intro x
    rw [wp_bind]
    refine wp_mono (wp_ioReady_ended ended) fun ready w' reached => ?_
    obtain ⟨rfl, asked⟩ := reached
    exact (wp_pure ..).mpr asked
  cases handler with
  | tcpEvent => exact refused
  | tcpIdle => exact wp_tcpIdle_ended ended
  | udpRead => exact refused
  | udpWrite => exact refused
  | idleWrite => exact (wp_pure ..).mpr (asked_refl w)
  | unset => exact (wp_pure ..).mpr (asked_refl w)

end Idle

section Callbacks

variable {gen : Generation} {w : World}

/-- A question alone leaves the process at rest. -/
theorem rested_asked {w' : World} (asked : Asked w w') : w.Rested w' := by
  -- No timer expired.
  obtain ⟨pos, rfl⟩ := asked
  refine ⟨rfl, rfl, w.self, .refl _, ?_⟩
  simp [World.passed, World.self, Sys.setProc]

/-- A timer expired, and its handler did nothing. -/
theorem rested_expired {p : Proc} {w' : World} (expired : w.self.Expired p)
    (asked : Asked (w.setSelf p) w') : w.Rested w' := by
  -- The timers that expired are all that changed.
  obtain ⟨pos, rfl⟩ := asked
  refine ⟨rfl, rfl, p, expired, ?_⟩
  simp [World.passed, World.setSelf, World.self, Sys.setProc]

/-- Whatever the event loop calls after the end only lets a timer expire. -/
theorem wp_callback_ended (callback : Callback) (ended : w.self.Ended) :
    wp (callback.run gen) (fun _ w' => w.Rested w') w := by
  -- One case for each callback.
  have quiet : w.Rested w := rested_asked (asked_refl w)
  have later : ∀ {p : Proc}, w.self.Expired p → (w.setSelf p).self.Ended := by
    intro p expired
    rw [self_setSelf]
    exact expired.ended ended
  cases callback with
  | checkTimer i =>
    unfold Callback.run disarmCheck
    rw [wp_bind, wp_self, wp_ite, wp_bind, wp_modifyPeer, wp_pure]
    have expired := expired_disarm w.self i
    exact ⟨fun _ => wp_mono (wp_begin_ended (later expired))
      fun _ _ asked => rested_expired expired asked, fun _ => quiet⟩
  | timeoutTimer i =>
    unfold Callback.run
    rw [wp_bind, wp_self, wp_ite, wp_bind, wp_modifyProbe, wp_pure]
    have expired := expired_timeout w.self i
    exact ⟨fun _ => wp_mono (wp_timeout_ended (later expired))
      fun _ _ asked => rested_expired expired asked, fun _ => quiet⟩
  | watchTimer =>
    unfold Callback.run
    rw [wp_bind, wp_self, wp_ite, wp_bind, wp_modifyRuntime, wp_pure]
    have expired := expired_watch w.self
    exact ⟨fun _ => wp_mono (wp_watch_ended (later expired))
      fun _ _ asked => rested_expired expired asked, fun _ => quiet⟩
  | readEvent i =>
    unfold Callback.run connectionEvent
    rw [wp_bind, wp_self]
    split
    · exact (wp_pure ..).mpr quiet
    · exact wp_mono (wp_runHandler_ended ended) fun _ _ asked => rested_asked asked
  | writeEvent i =>
    unfold Callback.run connectionEvent
    rw [wp_bind, wp_self]
    split
    · exact (wp_pure ..).mpr quiet
    · exact wp_mono (wp_runHandler_ended ended) fun _ _ asked => rested_asked asked
  | exit => exact wp_runtimeStop_ended ended quiet

end Callbacks

section Life

variable {gen : Generation} {me : Nat} {start : Sys → Prop} {between : Sys → Sys → Prop}
  {s s' : Sys}

/-- Between two callbacks a process goes on or has stopped. -/
theorem life_halted (life : Life gen me start between s) :
    (s.procs me).runtime.stopping = (s.procs me).runtime.cleaned := by
  -- Induction on the life, one callback at its end.
  induction life with
  | started w w' pid worker mine begins fresh others returned =>
    have run : WatchSteps gen w w' := framed_runtimeInit.byWatch w () w' returned
    obtain ⟨same, halted⟩ := watchSteps_halted run (by rw [fresh]; rfl)
    rwa [World.self, same, mine] at halted
  | others s s' life moved ih => simpa [Sys.setProc] using ih
  | called callback w w' mine life others returned ih =>
    rw [← mine] at ih
    obtain ⟨same, halted⟩ := watchSteps_halted (byWatch_callback callback w () w' returned) ih
    rwa [World.self, same, mine] at halted

/-- What the event loop of a process calls later, in any environments, and what the other processes
do meanwhile. -/
inductive Afterwards (gen : Generation) (me : Nat) (between : Sys → Sys → Prop) (first : Sys) :
    Sys → Prop
  | now : Afterwards gen me between first first
  | others (s s' : Sys) (later : Afterwards gen me between first s) (moved : between s s') :
      Afterwards gen me between first (s'.setProc me (s.procs me))
  | called (callback : Callback) (w w' : World) (mine : w.me = me)
      (later : Afterwards gen me between first w.sys)
      (others : ∀ n s, between s ((w.script n).others s))
      (returned : callback.run gen w = some ((), w')) : Afterwards gen me between first w'.sys

/-- A process that has stopped only lets timers expire, whatever its event loop still calls: it takes
no lock, reads no clock, opens, uses and closes no socket, and what happens to the shared memory is
the work of the other processes. -/
theorem stopped_rests (life : Life gen me start between s)
    (stops : (s.procs me).runtime.stopping = true) (later : Afterwards gen me between s s')
    (invariant : Shared → Prop)
    (kept : ∀ t t', between t t' → invariant t.shared → invariant t'.shared)
    (holds : invariant s.shared) :
    (s.procs me).Expired (s'.procs me) ∧ invariant s'.shared ∧
      ∀ (callback : Callback) (w w' : World), w.me = me → w.sys = s' →
        callback.run gen w = some ((), w') → w'.locks = w.locks := by
  have ended : (s.procs me).Ended := ⟨stops, life_halted life ▸ stops⟩
  suffices rests : (s.procs me).Expired (s'.procs me) ∧ invariant s'.shared by
    refine ⟨rests.1, rests.2, fun callback w w' mine sys returned => ?_⟩
    subst mine sys
    exact (wp_callback_ended callback (rests.1.ended ended) () w' returned).locks
  -- Induction on what is called later.
  induction later with
  | now => exact ⟨.refl _, holds⟩
  | others t t' later moved ih =>
    refine ⟨?_, kept t t' moved ih.2⟩
    have same : (t'.setProc me (t.procs me)).procs me = t.procs me := by simp [Sys.setProc]
    rw [same]
    exact ih.1
  | called callback w w' mine later others returned ih =>
    subst mine
    obtain ⟨expired, shared⟩ := ih
    obtain ⟨_, _, p, lapsed, sys⟩ :=
      wp_callback_ended callback (expired.ended ended) () w' returned
    rw [sys]
    refine ⟨?_, shared⟩
    have same : (w.sys.setProc w.me p).procs w.me = p := by simp [Sys.setProc]
    rw [same]
    exact expired.trans lapsed

/-- A worker that exits in the middle of its first round. -/
def exitedLife : Option Sys :=
  lived sample 0 (fun _ => quietAt 1000)
    [(.checkTimer 0, fun _ => { quietAt 4000 with connect := .again, flag := true }),
      (.exit, fun _ => quietAt 4001)] (fresh sample)

/-- A watch that fires in a process that has exited changes nothing. -/
theorem stopped_rests_exited : ∃ s s', exitedLife = some s ∧
    callAll sample 0 [(.watchTimer, fun _ => quietAt 5000)] s = some s' ∧
    (s'.procs 0).io = (s.procs 0).io ∧ 5 ≤ (s'.record 0).progress := by
  -- Both ends of the call are computed, and the theorem says what lies between.
  have noted : (exitedLife.map fun s => ((s.procs 0).runtime.stopping,
      decide (5 ≤ (s.record 0).progress))) = some (true, true) := by decide +kernel
  have after : (exitedLife.bind fun s =>
      (callAll sample 0 [(.watchTimer, fun _ => quietAt 5000)] s).map fun _ => true) =
      some true := by decide +kernel
  obtain ⟨s, ran, state⟩ := Option.map_eq_some_iff.mp noted
  obtain ⟨stops, far⟩ : _ ∧ _ := by simpa using state
  rw [ran, Option.bind_some] at after
  obtain ⟨s', called, _⟩ := Option.map_eq_some_iff.mp after
  refine ⟨s, s', ran, called, ?_⟩
  rw [callAll, Option.bind_eq_some_iff] at called
  obtain ⟨⟨_, w⟩, returned, rest⟩ := called
  cases rest
  have life : WorkerLife sample 0 (fresh sample) s := by
    refine worker_lived .refl rfl (fun _ => rfl) (fun call member n => ?_) ran
    rcases List.mem_cons.mp member with rfl | member
    · rfl
    · rw [List.mem_singleton.mp member]
      rfl
  have later : Afterwards sample 0 (OtherSteps sample 0) s w.sys :=
    .called .watchTimer { sys := s, me := 0, script := fun _ => quietAt 5000 } w rfl .now
      (fun _ _ => .refl) returned
  obtain ⟨expired, further, _⟩ := stopped_rests life stops later
    (fun shared => 5 ≤ (shared.peers 0).current.progress)
    (fun t t' moved held => held.trans (progress_le (i := 0) (steps_others moved).1)) far
  obtain ⟨peers, watch, same⟩ := expired.same
  exact ⟨by rw [same], further⟩

end Life

end Healthcheck
