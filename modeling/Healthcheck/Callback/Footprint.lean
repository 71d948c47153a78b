import Healthcheck.Callback.ProbeSteps

/-!
What the code of a round leaves alone: the environment, the order of the watch, and the locks beyond
the critical section it is in. Each function is a sequence of frame steps, read off its body.
-/

namespace Healthcheck

open Program

/-- What one step adds to the history of a process's locks: nothing, one lock alone, or the lock of
its own worker slot with a peer's inside. -/
inductive LockScope (worker : Nat) (past : List LockEvent) : List LockEvent → Prop
  | none : LockScope worker past past
  | single (mutex : Mutex) : LockScope worker past (.released mutex :: .acquired mutex :: past)
  | nested (i : Nat) : LockScope worker past
      (.released (.worker worker) :: .released (.peer i) ::
        .acquired (.peer i) :: .acquired (.worker worker) :: past)

/-- What the code of a round leaves of the process's own part in the checks. -/
def Runtime.course (r : Runtime) : Nat × Nat × Bool × Bool :=
  (r.cursor, r.budget, r.stopping, r.cleaned)

/-- One step of the code of a round; a process that starts to stop in it has stopped after it. -/
structure FrameStep (w w' : World) : Prop where
  me : w'.me = w.me
  script : w'.script = w.script
  cursor : w'.self.runtime.cursor = w.self.runtime.cursor
  budget : w'.self.runtime.budget = w.self.runtime.budget
  halted : w.self.runtime.stopping = w.self.runtime.cleaned →
    w'.self.runtime.stopping = w'.self.runtime.cleaned
  locks : LockScope w.self.runtime.worker w.locks w'.locks

/-- Any number of steps of the code of a round. -/
abbrev FrameSteps : World → World → Prop :=
  Relation.ReflTransGen FrameStep

/-- Every outcome of the program is reached by frame steps. -/
def Framed {α : Type} (x : Action α) : Prop :=
  Relates x FrameSteps

/-- The critical section of a peer nests its locks in the right order. -/
theorem CriticalSection.scope {worker i : Nat} {past after : List LockEvent}
    (critical : CriticalSection worker i past after) : LockScope worker past after := by
  -- No lock, the lock of the worker, or both.
  cases critical with
  | none => exact .none
  | outer => exact .single _
  | both => exact .nested i

section Combinators

variable {α β : Type}

/-- An action that returns at once is framed. -/
theorem Framed.pure (a : α) : Framed (pure a : Action α) :=
  Relates.pure (fun _ => .refl) a

/-- Two framed actions make a framed one. -/
theorem Framed.bind {x : Action α} {f : α → Action β} (first : Framed x)
    (second : ∀ a, Framed (f a)) : Framed (x >>= f) :=
  Relates.bind (fun before after => before.trans after) first second

/-- Both branches of a test have to be framed. -/
theorem Framed.ite {c : Prop} [Decidable c] {x y : Action α} (yes : Framed x) (no : Framed y) :
    Framed (if c then x else y) :=
  Relates.ite yes no

/-- A loop is framed if each of its turns is. -/
theorem Framed.forUpTo {body : Nat → Action Unit} (each : ∀ i, Framed (body i)) (n : Nat) :
    Framed (forUpTo body n) :=
  Relates.forUpTo (fun _ => .refl) (fun before after => before.trans after) each n

/-- An action is framed if it makes a single frame step. -/
theorem Framed.single {x : Action α} (step : ∀ w, wp x (fun _ w' => FrameStep w w') w) : Framed x :=
  fun w => wp_mono (step w) fun _ _ reached => .single reached

/-- A step that leaves the process's part in the checks. -/
theorem FrameStep.of_course {w w' : World} (me : w'.me = w.me) (script : w'.script = w.script)
    (course : w'.self.runtime.course = w.self.runtime.course)
    (scope : LockScope w.self.runtime.worker w.locks w'.locks) : FrameStep w w' := by
  -- The four fields are compared at once.
  simp only [Runtime.course, Prod.mk.injEq] at course
  obtain ⟨cursor, budget, stopping, cleaned⟩ := course
  exact ⟨me, script, cursor, budget, fun halted => by rw [stopping, cleaned, halted], scope⟩

/-- A change that leaves the locks and the process's part in the checks. -/
theorem Framed.change {f : World → World} (me : ∀ w, (f w).me = w.me)
    (script : ∀ w, (f w).script = w.script) (locks : ∀ w, (f w).locks = w.locks)
    (course : ∀ w, (f w).self.runtime.course = w.self.runtime.course) : Framed (change f) := by
  -- A plain write makes a single step.
  refine .single fun w => ?_
  rw [wp_change]
  exact .of_course (me w) (script w) (course w) (by rw [locks w]; exact .none)

/-- Reading leaves everything. -/
theorem Framed.read : Framed read :=
  -- Nothing is written.
  Relates.read fun _ => .refl

end Combinators

/-- A program whose outcome is clock readings, answers and one scope of locks. -/
theorem frameStep_passed {w w' : World} {rs : List Nat} {pos : Nat} {locks : List LockEvent}
    (me : w'.me = w.me) (script : w'.script = w.script)
    (course : w'.self.runtime.course = w.self.runtime.course)
    (scope : LockScope w.self.runtime.worker w.locks locks) :
    FrameStep w (w'.passed rs pos locks) :=
  -- Passing time adds readings to the process and nothing else.
  .of_course me script (by rw [passed_self]; exact course) scope

section Primitives

/-- An answer of the world only moves the script on. -/
theorem framed_ask : Framed ask := by
  -- One step without a lock.
  refine .single fun w => ?_
  rw [wp_ask]
  exact frameStep_passed rfl rfl rfl .none

/-- Reading the process changes nothing. -/
theorem framed_self : Framed self :=
  .bind .read fun _ => .pure _

/-- A change of the process is framed if it leaves the course of the runtime alone. -/
theorem framed_modifySelf {f : Proc → Proc}
    (course : ∀ p, (f p).runtime.course = p.runtime.course) : Framed (modifySelf f) :=
  .change (fun _ => rfl) (fun _ => rfl) (fun _ => rfl) fun w => by
    rw [self_setSelf]
    exact course w.self

/-- A change of the runtime is framed if it leaves its course alone. -/
theorem framed_modifyRuntime {f : Runtime → Runtime} (course : ∀ r, (f r).course = r.course) :
    Framed (modifyRuntime f) :=
  framed_modifySelf fun p => course p.runtime

/-- A peer is no part of the runtime. -/
theorem framed_modifyPeer (i : Nat) (f : Peer → Peer) : Framed (modifyPeer i f) :=
  framed_modifySelf fun _ => rfl

/-- A probe is no part of the runtime. -/
theorem framed_modifyProbe (i : Nat) (f : Probe → Probe) : Framed (modifyProbe i f) :=
  framed_modifyPeer i _

/-- A round is no part of the runtime. -/
theorem framed_modifyRound (i : Nat) (f : Round → Round) : Framed (modifyRound i f) :=
  framed_modifyProbe i _

/-- The record of the I/O is no part of the runtime. -/
theorem framed_recordIo (event : IoEvent) : Framed (recordIo event) :=
  framed_modifySelf fun _ => rfl

/-- The history is no part of the process. -/
theorem framed_emit (event : Event) : Framed (emit event) :=
  .change (fun _ => rfl) (fun _ => rfl) (fun _ => rfl) fun _ => rfl

/-- What runs in between leaves the process alone. -/
theorem framed_preempt : Framed preempt := by
  -- One step without a lock.
  refine .single fun w => wp_preempt ?_
  exact .of_course rfl rfl (by rw [preempted_self]) .none

/-- Whether the worker quits is an answer of the world. -/
theorem framed_quitting : Framed quitting :=
  .bind framed_ask fun _ => .pure _

/-- The clock adds a reading at most. -/
theorem framed_now : Framed now :=
  .single fun _ => wp_now (fun _ => frameStep_passed rfl rfl rfl .none)
    fun _ _ _ => frameStep_passed rfl rfl rfl .none

end Primitives

section Shared

variable {gen : Generation} {i : Nat}

/-- The activation takes its own lock alone. -/
theorem framed_activate (limit reading : Nat) : Framed (activate limit reading) := by
  -- The lock is refused, or it is taken and given back.
  refine .single fun w => ?_
  unfold activate
  simp only [wp_bind, wp_read, wp_ite, wp_pure]
  refine ⟨fun _ => .of_course rfl rfl rfl .none, fun _ => wp_lock (fun rs pos => ?_)
    fun rs pos => ?_⟩
  · rw [wp_pure]
    exact frameStep_passed rfl rfl rfl .none
  · simp only [wp_bind, modifyShared, wp_change, wp_unlock, wp_pure]
    refine .of_course rfl rfl ?_ (.single .activation)
    simp [World.passed, World.self, Sys.setProc]

/-- The registration takes the lock of its own slot alone. -/
theorem framed_registerSlot (limit reading : Nat) : Framed (registerSlot limit reading) := by
  refine .single fun w => ?_
  unfold registerSlot
  rw [wp_bind, wp_self, wp_bind]
  refine wp_lock (fun rs pos => ?_) fun rs pos => ?_
  · rw [wp_pure]
    exact frameStep_passed rfl rfl rfl .none
  · simp only [wp_bind, wp_read, wp_ite, wp_unlock, wp_pure, wp_publishRegistration, wp_emit,
      wp_modifyRuntime]
    -- Every way out releases the one lock that was taken.
    refine ⟨fun _ => ⟨fun _ => ?_, fun _ => ?_⟩, fun _ => ⟨fun _ => ?_, fun _ => ?_⟩⟩
    all_goals refine .of_course rfl rfl ?_ (.single _)
    all_goals simp [World.passed, World.setSelf, World.enrolled, World.noted, World.self,
      Sys.setProc, Runtime.course]

/-- The validation leaves the locks as its critical section does. -/
theorem framed_probeValid : Framed (probeValid gen i) :=
  .single fun _ => wp_probeValid
    (fun _ _ _ _ _ released => frameStep_passed rfl rfl rfl released.scope)
    fun _ _ _ _ _ released => frameStep_passed rfl rfl rfl released.scope

/-- The publication of INFLIGHT leaves the locks as its critical section does. -/
theorem framed_probeWaiting : Framed (probeWaiting gen i) :=
  .single fun _ => wp_probeWaiting
    (fun _ _ _ _ released => frameStep_passed rfl rfl rfl released.scope)
    (fun _ _ _ _ _ released => frameStep_passed rfl rfl (by rw [self_setSelf]; rfl) released.scope)
    fun _ _ _ _ _ released => frameStep_passed rfl rfl (by rw [self_setSelf]; rfl) released.scope

/-- The submission leaves the locks as its critical section does. -/
theorem framed_submit (limit : Nat) : Framed (submit gen i limit) :=
  .single fun _ => wp_submit
    (fun _ _ _ _ _ released => frameStep_passed rfl rfl rfl released.scope)
    fun _ _ _ _ _ _ _ released => frameStep_passed rfl rfl
      (by rw [self_setSelf]; rfl) released.scope

/-- A claim leaves the locks as its critical section does, and stores the new round. -/
theorem framed_claimRound (takeover : Option PeerState) (limit : Nat) :
    Framed (claimRound gen i takeover limit) :=
  -- The runtime goes its course, and the lock of the peer is given back.
  .single fun _ => wp_claimRound
    (fun _ _ => frameStep_passed rfl rfl rfl .none)
    (fun _ _ _ _ _ _ _ released => frameStep_passed rfl rfl (by rw [self_setSelf]; rfl)
      released.scope)
    fun _ _ _ _ _ _ _ released => frameStep_passed rfl rfl (by rw [self_setSelf]; rfl)
      released.scope

/-- A critical section that only reads. -/
theorem framed_section {α : Type} (mutex : Mutex) (limit : Nat) (f : World → α) :
    Framed (do
      match ← lock mutex limit with
      | .ok => do
        let state := f (← read)
        unlock mutex
        return some state
      | _ => return none) := by
  -- The lock is refused, or it is taken and given back.
  refine .single fun w => ?_
  rw [wp_bind]
  refine wp_lock (fun rs pos => ?_) fun rs pos => ?_
  · rw [wp_pure]
    exact frameStep_passed rfl rfl rfl .none
  · simp only [wp_bind, wp_read, wp_unlock, wp_pure, passed_passed]
    exact frameStep_passed rfl rfl rfl (.single mutex)

/-- A record is copied under its own lock. -/
theorem framed_readPeer (limit : Nat) : Framed (readPeer i limit) :=
  framed_section (.peer i) limit fun w => (w.sys.shared.peers i).current

/-- A worker slot is copied under its own lock. -/
theorem framed_readWorker (number limit : Nat) : Framed (readWorker number limit) :=
  framed_section (.worker number) limit fun w => (w.sys.shared.workers number).current

end Shared

section Lifecycle

variable {gen : Generation} {i : Nat}

/-- Closing a connection writes its probe. -/
theorem framed_probeClose : Framed (probeClose i) := by
  -- There may be no connection.
  refine .bind framed_self fun p => ?_
  split
  · exact .pure _
  · exact .bind (framed_modifyProbe i _) fun _ => framed_recordIo _

/-- Discarding a probe stops its timer first. -/
theorem framed_probeDiscard : Framed (probeDiscard i) :=
  .bind (framed_modifyProbe i _) fun _ => framed_probeClose

/-- The check timer is a field of the peer. -/
theorem framed_armCheck (delay : Nat) : Framed (armCheck gen i delay) :=
  framed_modifyPeer i _

/-- A check timer that is stopped is a field of the peer as well. -/
theorem framed_disarmCheck : Framed (disarmCheck i) :=
  framed_modifyPeer i _

/-- The timeout is a field of the probe. -/
theorem framed_armTimeout (delay : Nat) : Framed (armTimeout gen i delay) :=
  framed_modifyProbe i _

/-- Clearing a round writes the round alone. -/
theorem framed_clearRound : Framed (clearRound i) :=
  framed_modifyRound i _

/-- Stopping is one step: the process is cleaned up when it comes back. -/
theorem framed_runtimeStop : Framed (runtimeStop gen) := by
  -- A runtime that was stopped before is left as it is.
  refine .single fun w => ?_
  unfold runtimeStop
  simp only [wp_bind, wp_self, wp_modifyRuntime, wp_ite, wp_pure, self_setSelf, setSelf_setSelf,
    wp_stopPeers]
  have runtime : (w.self.stop gen).runtime =
      { w.self.runtime with stopping := true, watch := none } := stop_runtime gen w.self
  refine ⟨fun cleaned => ⟨rfl, rfl, ?_, ?_, fun _ => ?_, .none⟩, fun _ => wp_preempt ?_⟩
  · rw [self_setSelf]
  · rw [self_setSelf]
  · rw [self_setSelf]
    exact cleaned.symm
  have stopped : ∀ w' : World, w'.me = w.me → w'.script = w.script →
      w'.self.runtime = (w.self.stop gen).runtime →
      LockScope w.self.runtime.worker w.locks w'.locks → FrameStep w
        (w'.setSelf { w'.self with runtime := { w'.self.runtime with cleaned := true } }) := by
    intro w' me script same scope
    refine ⟨me, script, ?_, ?_, fun _ => ?_, scope⟩
    · rw [self_setSelf, same, runtime]
    · rw [self_setSelf, same, runtime]
    · rw [self_setSelf, same, runtime]
  have worker : (w.setSelf (w.self.stop gen)).preempted.self.runtime.worker =
      w.self.runtime.worker := by
    rw [preempted_self, self_setSelf, runtime]
  refine wp_retire (fun rs pos locks released => ?_) fun rs pos locks _ _ _ released => ?_
  · refine stopped _ rfl rfl ?_ (worker ▸ (released 0).scope)
    rw [passed_self, preempted_self, self_setSelf]
    rfl
  · refine stopped _ rfl rfl ?_ (worker ▸ (released 0).scope)
    rw [passed_self, noted_self, enrolled_self, preempted_self, self_setSelf]
    rfl

/-- A callback that finds the worker quitting stops the runtime. -/
theorem framed_stopping : Framed (stopping gen) := by
  -- It is asked for in each callback.
  refine .bind framed_self fun p => .bind framed_quitting fun quit => .ite ?_ (.pure _)
  exact .bind framed_runtimeStop fun _ => .pure _

/-- A registration activates the peers before it takes its slot. -/
theorem framed_register (limit : Nat) : Framed (register limit) := by
  -- Without a time or without the activation it ends early.
  refine .bind framed_now fun time => ?_
  cases time with
  | none => exact .pure _
  | some reading =>
    refine .bind framed_preempt fun _ => .bind (framed_activate limit reading) fun rc => ?_
    cases rc with
    | ok => exact .bind framed_preempt fun _ => framed_registerSlot limit reading
    | _ => exact .pure _

/-- The check timers are set for all of the peers, once. -/
theorem framed_startTimers : Framed (startTimers gen) := by
  -- The loop goes over the peers.
  refine .bind framed_self fun p => .ite (.pure _) (.bind (framed_modifyRuntime fun _ => rfl)
    fun _ => .forUpTo (fun i => .ite ?_ (.pure _)) _)
  exact .bind framed_ask fun _ => framed_armCheck _

/-- The start of a worker registers it and sets its timers. -/
theorem framed_runtimeInit : Framed (runtimeInit gen) := by
  -- Without a time only the timers are set.
  have rest : Framed (do
      startTimers gen
      modifyRuntime fun r => { r with watch := some (timerDelay gen gen.interval) }) :=
    .bind framed_startTimers fun _ => framed_modifyRuntime fun _ => rfl
  refine .bind framed_now fun time => ?_
  cases time with
  | none => exact rest
  | some reading => exact .bind (framed_register _) fun _ => rest

end Lifecycle

section Outcome

variable {gen : Generation} {i : Nat}

/-- Settling submits the outcome and may withdraw the round. -/
theorem framed_settle (limit : Nat) : Framed (settle gen i limit) := by
  -- The withdrawal writes the round.
  refine .bind (framed_submit limit) fun rc => .ite ?_ (.pure _)
  exact .bind (framed_modifyRound i _) fun _ => .pure _

/-- Freezing an outcome stops the timer and reports the round. -/
theorem framed_freeze (result : Bool) (reason source : String) (error : Option Errno) :
    Framed (freeze gen i result reason source error) := by
  -- An outcome that is frozen already is kept.
  refine .bind framed_self fun p => .ite (.pure _) (.bind ?_ fun delay => ?_)
  · exact .bind framed_self fun _ => .ite (.bind framed_now fun _ => .pure _) (.pure _)
  refine .bind (framed_modifyProbe i _) fun _ => .bind .read fun w => .bind (framed_emit _)
    fun _ => .bind (framed_recordIo _) fun _ => .bind (.bind framed_self fun p => ?_)
      fun _ => .pure _
  split
  · exact framed_recordIo _
  · exact .pure _

/-- A drained connection is read until it would block. -/
theorem framed_idleLoop (connection fuel : Nat) : Framed (idleLoop gen i connection fuel) := by
  -- Induction on the fuel; a loop that has not returned has no outcome.
  induction fuel with
  | zero => exact fun w => wp_diverge _ w
  | succ fuel ih =>
    unfold idleLoop
    refine .bind framed_self fun p => .bind framed_ask fun answer =>
      .bind (framed_recordIo _) fun _ => .ite (.bind (framed_modifyProbe i _) fun _ => ?_)
        (.ite ih ?_)
    · exact .bind framed_self fun p' => .ite (.pure _) ih
    · exact .bind framed_ask fun _ => .ite (.pure _) (.pure _)

/-- A retained connection is closed, or it is drained. -/
theorem framed_tcpIdle (connection : Nat) : Framed (tcpIdle gen i connection) := by
  -- The tests in the order of the source.
  refine .bind framed_self fun p => .ite (.pure _) (.bind framed_quitting fun quit =>
    .ite framed_runtimeStop (.bind framed_ask fun answer => .ite framed_probeClose ?_))
  refine .bind framed_preempt fun _ => .bind framed_probeValid fun rc =>
    .ite (.bind (framed_recordIo _) fun _ => framed_probeClose) ?_
  exact .bind framed_ask fun _ => .bind (framed_idleLoop connection _) fun ends =>
    .ite framed_probeClose (.pure _)

/-- A finished probe is closed, or its connection is retained. -/
theorem framed_probeCleanup (reusable : Bool) : Framed (probeCleanup gen i reusable) := by
  -- The tests in the order of the source.
  refine .bind framed_self fun p => ?_
  dsimp only
  split
  · exact framed_probeDiscard
  refine .bind framed_ask fun answer => .ite framed_probeDiscard
    (.bind (framed_modifyProbe i _) fun _ => .bind framed_ask fun active =>
      .bind framed_ask fun removed => .ite framed_probeClose ?_)
  refine .bind (framed_modifyProbe i _) fun _ => .bind framed_ask fun added =>
    .ite framed_probeClose (.bind framed_ask fun ready => .ite (framed_tcpIdle _) (.pure _))

/-- A finish freezes the outcome and submits it. -/
theorem framed_finish (result : Bool) (reason source : String) (error : Option Errno) :
    Framed (finish gen i result reason source error) := by
  -- The probe is cleaned up in any case.
  refine .bind (framed_freeze result reason source error) fun froze => .ite ?_ (.pure _)
  refine .bind framed_preempt fun _ => .bind (framed_settle 0) fun rc =>
    .bind (framed_recordIo _) fun _ => .ite ?_ (framed_probeCleanup _)
  exact .bind (framed_modifyProbe i _) fun _ => framed_probeCleanup _

/-- A timeout finishes its round, sets the timer again or finds the round lost. -/
theorem framed_timeout : Framed (timeout gen i) := by
  -- The tests in the order of the source.
  refine .bind framed_self fun p => .ite (.pure _) (.bind framed_quitting fun quit =>
    .ite framed_runtimeStop (.bind framed_preempt fun _ => .bind framed_probeValid fun rc =>
      .ite ?_ (.bind framed_now fun time => ?_)))
  · exact .bind (framed_recordIo _) fun _ => .bind (framed_modifyRound i _) fun _ =>
      framed_probeDiscard
  · cases time with
    | none => exact framed_armTimeout 1
    | some reading =>
      exact .bind framed_self fun p' => .ite (framed_armTimeout _)
        (.bind (framed_recordIo _) fun _ => .ite (framed_finish _ _ _ _) (framed_finish _ _ _ _))

/-- An event of a connection first makes sure that its round is still owned. -/
theorem framed_ioReady (connection : Nat) : Framed (ioReady gen i connection) := by
  -- One case for each return code.
  refine .bind framed_self fun p => .ite (.pure _) (.bind framed_quitting fun quit =>
    .ite (.bind framed_runtimeStop fun _ => .pure _) (.bind framed_preempt fun _ =>
      .bind framed_probeValid fun rc => ?_))
  cases rc with
  | declined =>
    exact .bind (framed_recordIo _) fun _ => .bind framed_probeDiscard fun _ =>
      .bind (framed_modifyRound i _) fun _ => .pure _
  | ok =>
    refine .bind framed_now fun time => ?_
    cases time with
    | none => exact .pure _
    | some reading =>
      exact .bind framed_self fun p' => .ite (.bind framed_timeout fun _ => .pure _) (.pure _)
  | _ => exact .pure _

end Outcome

section Events

variable {gen : Generation} {i : Nat}

/-- A peek writes the probe at most. -/
theorem framed_tcpPeek (connection : Nat) (site : PeekSite) :
    Framed (tcpPeek i connection site) := by
  -- It fails or it passes.
  refine .bind framed_ask fun answer => .bind (framed_recordIo _) fun _ => .ite (.pure _) ?_
  exact .bind (framed_modifyProbe i _) fun _ => .pure _

/-- A TCP event peeks and finishes the round. -/
theorem framed_tcpEvent (connection : Nat) : Framed (tcpEvent gen i connection) := by
  -- Both ways finish it.
  refine .bind (framed_ioReady connection) fun ready => .ite (.bind (framed_tcpPeek connection _)
    fun passed => .ite (framed_finish _ _ _ _) ?_) (.pure _)
  exact .bind framed_self fun p => framed_finish _ _ _ _

/-- An error of UDP finishes the round or is ignored. -/
theorem framed_udpError (source : String) (error : Errno) :
    Framed (udpError gen i source error) := by
  -- Every way that ends the round is a finish.
  have ends : ∀ result reason source error, Framed (do
      finish gen i result reason source error
      return false) :=
    fun _ _ _ _ => .bind (framed_finish _ _ _ _) fun _ => .pure _
  refine .bind framed_now fun time => .bind (framed_recordIo _) fun _ => .bind framed_self
    fun p => ?_
  cases time with
  | none => exact ends _ _ _ _
  | some reading =>
    refine .ite (ends _ _ _ _) (.ite (ends _ _ _ _) (.ite (ends _ _ _ _) ?_))
    exact .bind (framed_modifyProbe i _) fun _ => .pure _

/-- A sent datagram waits for its reply. -/
theorem framed_udpWaitReply : Framed (udpWaitReply gen i) := by
  -- The events are changed, or the round is finished.
  refine .bind (framed_modifyProbe i _) fun _ => .bind framed_ask fun active =>
    .bind framed_ask fun removed => .ite (framed_finish _ _ _ _) ?_
  exact .bind framed_ask fun added => .ite (framed_finish _ _ _ _) (.pure _)

/-- A datagram is sent in a number of attempts. -/
theorem framed_sendLoop (connection left : Nat) : Framed (sendLoop gen i connection left) := by
  -- Induction on the attempts that are left.
  induction left with
  | zero => exact .pure _
  | succ left ih =>
    refine .bind (framed_modifyProbe i _) fun _ => .bind framed_ask fun answer =>
      .bind (framed_recordIo _) fun _ => .ite ?_ (.ite ?_ (.ite ?_ (.ite ?_ (.pure _))))
    · exact .bind (framed_modifyProbe i _) fun _ => .bind framed_udpWaitReply fun _ => .pure _
    · exact .bind (framed_finish _ _ _ _) fun _ => .pure _
    · exact .bind (framed_ioReady connection) fun ready => .ite ih (.pure _)
    · exact .bind (framed_udpError _ _) fun goOn => .ite (.bind framed_udpWaitReply
        fun _ => .pure _) (.pure _)

/-- A UDP socket that is writable sends its datagram. -/
theorem framed_udpWrite (connection : Nat) : Framed (udpWrite gen i connection) := by
  -- The event is ready and the attempts are made.
  refine .bind (framed_ioReady connection) fun ready => .ite (.bind framed_self fun p =>
    .ite (.bind (framed_sendLoop connection 8) fun left => ?_) (.pure _)) (.pure _)
  split
  · exact .pure _
  · exact .pure _
  · exact .bind framed_ask fun answer => .ite (framed_finish _ _ _ _) (.pure _)

/-- The error queue of a socket is read in a number of attempts. -/
theorem framed_socketErrorLoop (connection left : Nat) :
    Framed (socketErrorLoop gen i connection left) := by
  -- Induction on the attempts that are left.
  induction left with
  | zero => exact .pure _
  | succ left ih =>
    refine .bind framed_ask fun answer => .ite (.pure _) (.ite ?_ ?_)
    · exact .bind (framed_finish _ _ _ _) fun _ => .pure _
    · exact .bind (framed_ioReady connection) fun ready => .ite ih (.pure _)

/-- A reply is received in a number of attempts. -/
theorem framed_receiveLoop (connection left : Nat) :
    Framed (receiveLoop gen i connection left) := by
  -- Induction on the attempts that are left.
  induction left with
  | zero => exact .pure _
  | succ left ih =>
    refine .bind framed_ask fun answer => .ite ?_ (.ite ?_ (.ite (framed_udpError _ _) (.pure _)))
    · exact .bind (framed_finish _ _ _ _) fun _ => .pure _
    · exact .bind (framed_ioReady connection) fun ready => .ite ih (.pure _)

/-- A UDP socket that is readable reads its errors and its replies. -/
theorem framed_udpRead (connection : Nat) : Framed (udpRead gen i connection) := by
  -- The receiving half is framed on its own.
  have receives : Framed (do
      if ← receiveLoop gen i connection 8 then
        if ¬ (← ask).eventOk then
          finish gen i true "read event registration failed" "event" none) := by
    refine .bind (framed_receiveLoop connection 8) fun waits => .ite ?_ (.pure _)
    exact .bind framed_ask fun answer => .ite (framed_finish _ _ _ _) (.pure _)
  refine .bind (framed_ioReady connection) fun ready => .ite (.bind
    (framed_socketErrorLoop connection 8) fun pendingError => ?_) (.pure _)
  cases pendingError with
  | none => exact .pure _
  | some pendingError =>
    cases pendingError with
    | none => exact .bind (.pure _) fun goOn => .ite receives (.pure _)
    | some error => exact .bind (framed_udpError _ _) fun goOn => .ite receives (.pure _)

/-- Each handler of a connection is framed. -/
theorem framed_runHandler (connection : Nat) (handler : Handler) :
    Framed (runHandler gen i connection handler) := by
  -- One case for each handler.
  cases handler with
  | tcpEvent => exact framed_tcpEvent connection
  | tcpIdle => exact framed_tcpIdle connection
  | udpRead => exact framed_udpRead connection
  | udpWrite => exact framed_udpWrite connection
  | idleWrite => exact .pure _
  | unset => exact .pure _

end Events

section Start

variable {gen : Generation} {i : Nat}

/-- A connection that expired is closed. -/
theorem framed_expireConnection : Framed (expireConnection gen i) := by
  -- There may be no connection.
  refine .bind framed_ask fun answer => .bind framed_self fun p => ?_
  split
  · exact .pure _
  · exact .bind (framed_recordIo _) fun _ => .ite framed_probeClose (.pure _)

/-- A connection is opened, or the attempt is recorded as failed. -/
theorem framed_connectPeer : Framed (connectPeer i) := by
  -- The attempt is refused or accepted.
  refine .bind framed_ask fun answer => .bind (framed_recordIo _) fun _ => .ite ?_ ?_
  · exact .bind (framed_modifyProbe i _) fun _ => .pure _
  · exact .bind framed_self fun p => .bind (framed_modifySelf fun _ => rfl) fun _ =>
      .bind (framed_modifyProbe i _) fun _ => .bind (framed_recordIo _) fun _ => .pure _

/-- A connection that was opened sets its deadline and publishes INFLIGHT. -/
theorem framed_connected (connection : Nat) (rc : Rc) :
    Framed (connected gen i connection rc) := by
  -- Without a time the round is finished.
  refine .bind (framed_modifyProbe i _) fun _ => .bind framed_now fun time => ?_
  cases time with
  | none => exact .bind (framed_recordIo _) fun _ => framed_finish _ _ _ _
  | some reading =>
    refine .bind (.ite (framed_modifyRound i _) (.pure _)) fun _ => .bind (framed_modifyProbe i _)
      fun _ => .bind framed_preempt fun _ => .bind framed_probeWaiting fun _ => ?_
    exact .bind framed_self fun p => .bind (framed_armTimeout _) fun _ =>
      .ite (framed_runHandler connection _) (.pure _)

/-- A probe connects anew, and the attempt may finish its round. -/
theorem framed_reconnect : Framed (reconnect gen i) := by
  -- There may be no connection afterwards.
  refine .bind framed_connectPeer fun rc => .bind framed_self fun p => ?_
  split
  · exact framed_finish _ _ _ _
  · refine .bind (framed_modifyProbe i _) fun _ => .bind framed_ask fun answer => .ite ?_
      (framed_connected _ rc)
    exact .bind framed_probeClose fun _ => framed_finish _ _ _ _

/-- A probe makes sure of its round, peeks at a retained connection or connects anew. -/
theorem framed_probeStart : Framed (probeStart gen i) := by
  -- One case for each return code.
  refine .bind framed_preempt fun _ => .bind framed_probeValid fun rc => ?_
  cases rc with
  | declined =>
    exact .bind (framed_recordIo _) fun _ => .bind (framed_modifyRound i _) fun _ =>
      framed_probeDiscard
  | ok =>
    refine .bind (framed_recordIo _) fun _ => .bind framed_now fun time => ?_
    cases time with
    | none => exact .pure _
    | some reading =>
      refine .bind framed_self fun p => .ite framed_timeout (.bind framed_expireConnection
        fun _ => .bind framed_self fun p' => ?_)
      split
      · exact framed_reconnect
      · exact .bind (framed_tcpPeek _ _) fun passed => .ite (framed_connected _ _)
          (.bind framed_probeClose fun _ => framed_reconnect)
  | _ => exact .pure _

/-- A resumed probe runs the handler of its connection. -/
theorem framed_resumeEvent (handler : Connection → Handler) :
    Framed (resumeEvent gen i handler) := by
  -- There may be no connection.
  refine .bind framed_ask fun answer => .bind framed_self fun p => ?_
  split
  · exact .pure _
  · exact .ite (framed_runHandler _ _) (.pure _)

/-- A probe that was left open is started, timed out or resumed. -/
theorem framed_probeResume : Framed (probeResume gen i) := by
  -- The tests in the order of the source.
  refine .bind framed_self fun p => .ite (.pure _) (.ite framed_probeStart
    (.bind framed_preempt fun _ => .bind framed_probeWaiting fun _ => .bind framed_now fun time =>
      .ite framed_timeout (.bind (framed_resumeEvent _) fun _ => ?_)))
  exact .bind framed_self fun p' => .ite (framed_resumeEvent _) (.pure _)

/-- An event runs the handler of its connection. -/
theorem framed_connectionEvent (handler : Connection → Handler) :
    Framed (connectionEvent gen i handler) := by
  -- There may be no connection.
  refine .bind framed_self fun p => ?_
  split
  · exact .pure _
  · exact framed_runHandler _ _

end Start

section Schedule

variable {gen : Generation} {i : Nat}

/-- A claim that succeeds starts its probe. -/
theorem framed_claim (takeover : Option PeerState) (limit : Nat) :
    Framed (claim gen i takeover limit) := by
  -- Any other one returns its code.
  refine .bind framed_self fun p => .ite (.pure _) (.bind framed_stopping fun stops =>
    .ite (.pure _) (.bind framed_preempt fun _ => .bind (framed_claimRound takeover limit)
      fun r => ?_))
  split
  · exact .bind framed_probeStart fun _ => .pure _
  · exact .pure _

/-- A check timer begins a round or is set again. -/
theorem framed_begin : Framed (begin gen i) := by
  -- One case for each return code.
  refine .bind framed_stopping fun stops => .ite (.pure _) (.bind framed_self fun p =>
    .ite (framed_armCheck _) (.bind (framed_claim none 0) fun r => ?_))
  split
  · exact .pure _
  · exact .bind (framed_recordIo _) fun _ => .bind framed_disarmCheck fun _ =>
      .bind framed_self fun p' => .ite framed_probeDiscard (.pure _)
  · exact framed_armCheck _
  · exact framed_armCheck _

/-- The preferred worker is searched among all slots. -/
theorem framed_preferredLoop (state : PeerState) (time limit left : Nat) (best : Nat × Nat) :
    Framed (preferredLoop gen i state time limit left best) := by
  -- Induction on the workers that are left.
  induction left generalizing best with
  | zero => exact .bind framed_self fun p => .pure _
  | succ left ih =>
    refine .bind framed_now fun fresh => ?_
    cases fresh with
    | none => exact .pure _
    | some fresh =>
      exact .ite (.pure _) (.bind framed_preempt fun _ => .bind (framed_readWorker _ limit)
        fun candidate => ih _)

/-- A foreign record is taken over, or it is left to its owner. -/
theorem framed_watchForeign (limit : Nat) (state : PeerState) :
    Framed (watchForeign gen i limit state) := by
  -- The claim is made only by the chosen worker.
  have takes : ∀ chosen : Bool, Framed (do
      if chosen then
        let _ ← claim gen i (some state) limit
      return true) :=
    fun _ => .ite (.bind (framed_claim _ limit) fun _ => .pure _) (.pure _)
  refine .bind .read fun w => .bind framed_now fun time => ?_
  cases time with
  | none => exact .pure _
  | some reading =>
    refine .ite (.pure _) (.ite (.bind (.pure _) takes) ?_)
    exact .bind (framed_preferredLoop state _ limit _ _) takes

/-- What the watch does with a peer, from the moment its record was read. -/
theorem framed_visit {limit : Nat} {state : PeerState} {c d : Prop} [Decidable c] [Decidable d] :
    Framed (do
      if c then do
        recordIo (.lost i)
        probeDiscard i
        clearRound i
        disarmCheck i
      if d then do
        if ((← self).peers i).allocated ∧ ((← self).peers i).probe.round.active then
          probeResume gen i
        return true
      else watchForeign gen i limit state) := by
  -- Both tests may be passed.
  have goesOn : Framed (do
      if d then do
        if ((← self).peers i).allocated ∧ ((← self).peers i).probe.round.active then
          probeResume gen i
        return true
      else watchForeign gen i limit state) := by
    refine .ite (.bind framed_self fun p => .bind framed_self fun p' => .ite ?_ (.pure _))
      (framed_watchForeign limit state)
    exact .bind framed_probeResume fun _ => .pure _
  refine .ite ?_ goesOn
  exact .bind (framed_recordIo _) fun _ => .bind framed_probeDiscard fun _ =>
    .bind framed_clearRound fun _ => .bind framed_disarmCheck fun _ => goesOn

/-- A visit settles what is pending and looks at the record. -/
theorem framed_watchPeer (limit : Nat) : Framed (watchPeer gen i limit) := by
  refine .bind framed_self fun p => .ite (.bind framed_preempt fun _ =>
    .bind (framed_settle limit) fun _ => ?_) ?_
  -- With or without a round to settle, the record is looked at next.
  all_goals
    refine .bind framed_preempt fun _ => .bind (framed_readPeer limit) fun found => ?_
    cases found with
    | none => exact .pure _
    | some state =>
      refine .bind framed_self fun p => .ite ?_ framed_visit
      exact .bind framed_ask fun answer => .bind (framed_armCheck _) fun _ => framed_visit

end Schedule

/-- One step of the code of a callback: the watch also goes on to the next peer, and sets the limit
of its pass. -/
inductive WatchStep (gen : Generation) (w : World) : World → Prop
  | step (w' : World) (step : FrameStep w w') : WatchStep gen w w'
  | turned (cursor : Nat) (listed : 0 < gen.nelts → cursor < gen.nelts) :
      WatchStep gen w (w.setSelf { w.self with runtime :=
        { w.self.runtime with cursor := cursor } })
  | limited (budget : Nat) :
      WatchStep gen w (w.setSelf { w.self with runtime :=
        { w.self.runtime with budget := budget } })

/-- Any number of steps of the code of a callback, those of the watch included. -/
abbrev WatchSteps (gen : Generation) : World → World → Prop :=
  Relation.ReflTransGen (WatchStep gen)

section Callback

variable {gen : Generation} {α β : Type}

/-- What is framed consists of steps of the watch. -/
theorem Framed.byWatch {x : Action α} (framed : Framed x) : Relates x (WatchSteps gen) := by
  intro w
  refine wp_mono (framed w) fun _ w' steps => ?_
  exact Relation.ReflTransGen.mono (fun _ _ step => WatchStep.step _ step) _ _ steps

/-- Two actions in watch steps make one. -/
theorem byWatch_bind {x : Action α} {f : α → Action β} (first : Relates x (WatchSteps gen))
    (second : ∀ a, Relates (f a) (WatchSteps gen)) : Relates (x >>= f) (WatchSteps gen) :=
  Relates.bind (fun before after => before.trans after) first second

/-- The watch visits its peers one after the other. -/
theorem byWatch_watchLoop (limit left : Nat) : Relates (watchLoop gen limit left)
    (WatchSteps gen) := by
  -- Induction on the visits that are left.
  induction left with
  | zero => exact (Framed.pure ()).byWatch
  | succ left ih =>
    have turns : ∀ i, Relates (modifyRuntime fun r => { r with cursor := (i + 1) % gen.nelts })
        (WatchSteps gen) := by
      intro i w
      rw [wp_modifyRuntime]
      exact .single (.turned _ fun some => Nat.mod_lt _ some)
    refine byWatch_bind framed_self.byWatch fun p => byWatch_bind (turns _) fun _ =>
      byWatch_bind (framed_watchPeer limit).byWatch fun goOn => Relates.ite ?_
        (Framed.pure ()).byWatch
    refine byWatch_bind framed_now.byWatch fun time => ?_
    cases time with
    | none => exact (Framed.pure ()).byWatch
    | some reading => exact Relates.ite (Framed.pure ()).byWatch ih

/-- The budget of the watch is written by the watch itself. -/
theorem byWatch_limit (budget : Nat) :
    Relates (modifyRuntime fun r => { r with budget := budget }) (WatchSteps gen) := by
  -- One step.
  intro w
  rw [wp_modifyRuntime]
  exact .single (.limited budget)

/-- The watch is set again with a fresh budget. -/
theorem byWatch_rearmWatch : Relates (rearmWatch gen) (WatchSteps gen) :=
  byWatch_bind (byWatch_limit 0) fun _ => byWatch_bind framed_self.byWatch fun _ =>
    Relates.ite (Framed.byWatch (framed_modifyRuntime fun _ => rfl)) (Framed.pure ()).byWatch

/-- The watch registers the worker and visits its peers. -/
theorem byWatch_watch : Relates (watch gen) (WatchSteps gen) := by
  -- Without a time it is only set again.
  refine byWatch_bind framed_stopping.byWatch fun stops => Relates.ite (Framed.pure ()).byWatch
    (byWatch_bind framed_now.byWatch fun time => ?_)
  cases time with
  | none => exact byWatch_rearmWatch
  | some reading =>
    refine byWatch_bind (byWatch_limit _) fun _ =>
      byWatch_bind (framed_register _).byWatch fun rc => Relates.ite framed_runtimeStop.byWatch ?_
    refine byWatch_bind framed_self.byWatch fun p => Relates.ite ?_ byWatch_rearmWatch
    exact byWatch_bind (byWatch_watchLoop _ _) fun _ => byWatch_rearmWatch

/-- A callback other than the watch leaves the order of the watch. -/
theorem framed_callback (callback : Callback) (other : callback ≠ .watchTimer) :
    Framed (callback.run gen) := by
  -- One case for each callback.
  cases callback with
  | checkTimer i =>
    exact .bind framed_self fun p => .ite (.bind framed_disarmCheck fun _ => framed_begin)
      (.pure _)
  | timeoutTimer i =>
    exact .bind framed_self fun p => .ite (.bind (framed_modifyProbe i _) fun _ => framed_timeout)
      (.pure _)
  | watchTimer => exact absurd rfl other
  | readEvent i => exact framed_connectionEvent _
  | writeEvent i => exact framed_connectionEvent _
  | exit => exact framed_runtimeStop

/-- Every callback is a sequence of frame steps and turns of the watch. -/
theorem byWatch_callback (callback : Callback) : Relates (callback.run gen) (WatchSteps gen) := by
  -- The watch is the only callback that writes the cursor.
  by_cases other : callback = .watchTimer
  · subst other
    refine byWatch_bind framed_self.byWatch fun p => Relates.ite ?_ (Framed.pure ()).byWatch
    exact byWatch_bind (Framed.byWatch (framed_modifyRuntime fun _ => rfl)) fun _ => byWatch_watch
  · exact (framed_callback callback other).byWatch

end Callback

/-- Frame steps leave the environment and the order of the watch. -/
theorem frameSteps_frame {w w' : World} (run : FrameSteps w w') :
    w'.me = w.me ∧ w'.script = w.script ∧
      w'.self.runtime.cursor = w.self.runtime.cursor := by
  -- Induction on the run.
  induction run with
  | refl => exact ⟨rfl, rfl, rfl⟩
  | tail _ step ih =>
    exact ⟨step.me.trans ih.1, step.script.trans ih.2.1, step.cursor.trans ih.2.2⟩

/-- Framed runs keep the budget of the watch. -/
theorem frameSteps_budget {w w' : World} (run : FrameSteps w w') :
    w'.self.runtime.budget = w.self.runtime.budget := by
  -- Induction on the run.
  induction run with
  | refl => rfl
  | tail _ step ih => exact step.budget.trans ih

/-- When a callback comes back, its process goes on or has stopped. -/
theorem watchSteps_halted {gen : Generation} {w w' : World} (run : WatchSteps gen w w')
    (halted : w.self.runtime.stopping = w.self.runtime.cleaned) :
    w'.me = w.me ∧ w'.self.runtime.stopping = w'.self.runtime.cleaned := by
  -- Induction on the run: a step of the watch itself does not stop the runtime.
  induction run with
  | refl => exact ⟨rfl, halted⟩
  | tail _ pace ih =>
    cases pace with
    | step w' step => exact ⟨step.me.trans ih.1, step.halted ih.2⟩
    | turned cursor listed => exact ⟨ih.1, by rw [self_setSelf]; exact ih.2⟩
    | limited budget => exact ⟨ih.1, by rw [self_setSelf]; exact ih.2⟩

/-- The watch stays within the configured peers. -/
theorem watchSteps_cursor {gen : Generation} {w w' : World} (run : WatchSteps gen w w')
    (within : w.self.runtime.cursor < gen.nelts) :
    w'.me = w.me ∧ w'.self.runtime.cursor < gen.nelts := by
  -- Induction on the run: the watch turns its cursor within the peers.
  induction run with
  | refl => exact ⟨rfl, within⟩
  | tail _ pace ih =>
    cases pace with
    | step w' step => exact ⟨step.me.trans ih.1, by rw [step.cursor]; exact ih.2⟩
    | turned cursor listed => exact ⟨ih.1, by rw [self_setSelf]; exact listed (by omega)⟩
    | limited budget => exact ⟨ih.1, by rw [self_setSelf]; exact ih.2⟩

end Healthcheck
