import Healthcheck.Callback.RunSteps

/-!
The life of a process: it starts, and then the event loop calls its timers and handlers in any
order, each in whatever environment it finds. Between its callbacks, and at the moments inside them
where it waits, other processes run.
-/

namespace Healthcheck

open Program

/-- What a callback does: round steps, and a timer that called back is armed again in time, or is not
needed any more. -/
inductive CallbackRun (gen : Generation) (w : World) : World → Prop
  | quiet (w' : World) (run : RoundSteps gen w w') : CallbackRun gen w w'
  | checked (i : Nat) (w' : World)
      (passes : Passes gen (Tended i) (w.setSelf (w.self.disarm i)) w') : CallbackRun gen w w'
  | timed (i : Nat) (w' : World)
      (passes : Passes gen (fun mid => Timed i mid.self)
        (w.setSelf (w.self.handle i { (w.self.peers i).probe with timeout := none } [])) w') :
      CallbackRun gen w w'
  | watched (w' : World)
      (passes : Passes gen Watching
        (w.setSelf { w.self with runtime := { w.self.runtime with watch := none } }) w') :
      CallbackRun gen w w'

/-- The life of process `me`, by the states of the system between its callbacks. It starts in a
system of some kind, and the other processes only take steps of some kind. -/
inductive Life (gen : Generation) (me : Nat) (start : Sys → Prop) (between : Sys → Sys → Prop) :
    Sys → Prop
  | started (w w' : World) (pid : Int) (worker : Nat) (mine : w.me = me) (begins : start w.sys)
      (fresh : w.self = Proc.start pid worker)
      (others : ∀ n s, between s ((w.script n).others s))
      (returned : runtimeInit gen w = some ((), w')) : Life gen me start between w'.sys
  | others (s s' : Sys) (life : Life gen me start between s) (moved : between s s') :
      Life gen me start between (s'.setProc me (s.procs me))
  | called (callback : Callback) (w w' : World) (mine : w.me = me)
      (life : Life gen me start between w.sys)
      (others : ∀ n s, between s ((w.script n).others s))
      (returned : callback.run gen w = some ((), w')) : Life gen me start between w'.sys

section CallbackRun

variable {gen : Generation}

/-- A timer that called back is not armed any more; nothing else changed. -/
theorem steady_rang {p p' : Proc} (steady : Steady p)
    (rang : ∀ j, ∃ runtime check timeout, p'.seat j = { p.seat j with
      runtime := runtime
      peer := { p.peers j with
        checkEv := check, probe := { (p.peers j).probe with timeout := timeout } } }) :
    Steady p' := by
  -- Neither the timers nor the runtime belong to a round.
  intro j
  obtain ⟨runtime, check, timeout, seat⟩ := rang j
  rw [seat]
  exact steady_same (steady j) rfl id id

/-- Stopping a check timer changes that timer alone. -/
theorem seat_disarm (p : Proc) (i j : Nat) : ∃ check, (p.disarm i).seat j =
    { p.seat j with peer := { p.peers j with checkEv := check } } := by
  -- The peer itself or another one.
  by_cases same : j = i
  · subst same
    exact ⟨none, seat_setPeer p j _⟩
  · exact ⟨(p.peers j).checkEv, seat_setPeer_other p j same⟩

/-- A timeout that expired changes that timer alone. -/
theorem seat_expire (p : Proc) (i j : Nat) : ∃ timeout,
    (p.handle i { (p.peers i).probe with timeout := none } []).seat j =
      { p.seat j with peer := { p.peers j with
        probe := { (p.peers j).probe with timeout := timeout } } } := by
  -- The peer itself or another one.
  have own : ∀ event ∈ ([] : List IoEvent), event.peer = i := fun _ member => by cases member
  by_cases same : j = i
  · subst same
    exact ⟨none, seat_handle p j _ own⟩
  · exact ⟨(p.peers j).probe.timeout, seat_handle_other p j _ own same⟩

/-- A process stays steady when a check timer is stopped. -/
theorem steady_disarm {p : Proc} (steady : Steady p) (i : Nat) : Steady (p.disarm i) := by
  -- Only the timer changes.
  refine steady_rang steady fun j => ?_
  obtain ⟨check, seat⟩ := seat_disarm p i j
  exact ⟨p.runtime, check, (p.peers j).probe.timeout, seat⟩

/-- A process stays steady when a timeout expires. -/
theorem steady_expire {p : Proc} (steady : Steady p) (i : Nat) :
    Steady (p.handle i { (p.peers i).probe with timeout := none } []) := by
  -- Only the timer changes.
  refine steady_rang steady fun j => ?_
  obtain ⟨timeout, seat⟩ := seat_expire p i j
  exact ⟨p.runtime, (p.peers j).checkEv, timeout, seat⟩

/-- A program that continues after a timer was cleared. -/
theorem byRounds_passes {x : Action Unit} {holds : World → Prop} {w : World}
    (does : byRounds gen x (fun _ w' => holds w') w) :
    wp x (fun _ w' => Passes gen holds w w') w :=
  -- What holds at the end holds at the last world that was passed.
  wp_mono does fun _ _ reached => passes_last reached.1 reached.2

/-- Every callback does this. -/
theorem callbackRun_callback (callback : Callback) {w : World} (steady : Steady w.self) :
    wp (callback.run gen) (fun _ w' => CallbackRun gen w w') w := by
  -- One case for each callback.
  have nothing : CallbackRun gen w w := .quiet w .refl
  cases callback with
  | checkTimer i =>
    unfold Callback.run disarmCheck
    rw [wp_bind, wp_self, wp_ite, wp_bind, wp_modifyPeer, wp_pure]
    refine ⟨fun _ => ?_, fun _ => nothing⟩
    have steady' : Steady (w.setSelf (w.self.disarm i)).self := by
      rw [self_setSelf]
      exact steady_disarm steady i
    exact wp_mono (byRounds_begin steady') fun _ w' reached => .checked i w' reached.2
  | timeoutTimer i =>
    unfold Callback.run
    rw [wp_bind, wp_self, wp_ite, wp_bind, wp_handle, wp_pure]
    exact ⟨fun _ => wp_mono (byRounds_passes byRounds_timeout) fun _ w' passes =>
      .timed i w' passes,
      fun _ => nothing⟩
  | watchTimer =>
    unfold Callback.run
    rw [wp_bind, wp_self, wp_ite, wp_bind, wp_modifyRuntime, wp_pure]
    refine ⟨fun _ => ?_, fun _ => nothing⟩
    have steady' : Steady (w.setSelf { w.self with
        runtime := { w.self.runtime with watch := none } }).self := by
      rw [self_setSelf]
      exact steady_peers steady rfl
    exact wp_mono (byRounds_passes (byRounds_watch steady')) fun _ w' passes => .watched w' passes
  | readEvent i =>
    have event : byRounds gen (connectionEvent gen i Connection.readHandler) (fun _ _ => True) w :=
      byRounds_connectionEvent (fun _ => .inl) fun _ => .inl
    exact wp_mono event fun _ w' reached => .quiet w' reached.1
  | writeEvent i =>
    have event : byRounds gen (connectionEvent gen i Connection.writeHandler) (fun _ _ => True) w :=
      byRounds_connectionEvent (fun _ => .inr) fun _ => .inr
    exact wp_mono event fun _ w' reached => .quiet w' reached.1
  | exit =>
    have stops : byRounds gen (runtimeStop gen) (fun _ _ => True) w :=
      byRounds_of_inner (byInner_runtimeStop fun _ _ _ => trivial)
    exact wp_mono stops fun _ w' reached => .quiet w' reached.1

/-- A timer that calls back, at the seat of each peer. -/
theorem atomicSteps_rang {w w' : World} {p : Proc} {i : Nat}
    (rang : SeatAtomicStep gen i (w.self.seat i) (p.seat i))
    (run : RoundSteps gen (w.setSelf p) w') : SeatAtomicSteps gen i (w.self.seat i)
    (w'.self.seat i) := by
  -- The timer is cleared by the first step of the seat.
  have after := seatAtomicSteps_of_atomic (i := i) (atomic_of_rounds run)
  rw [self_setSelf] at after
  exact .head rang after

/-- The run of a callback, at the seat of each peer. -/
theorem atomicSteps_callbackRun {w w' : World} (course : CallbackRun gen w w') (i : Nat) :
    SeatAtomicSteps gen i (w.self.seat i) (w'.self.seat i) := by
  -- One case for each kind of callback.
  cases course with
  | quiet _ run => exact seatAtomicSteps_of_atomic (atomic_of_rounds run)
  | checked j _ passes =>
    obtain ⟨check, seat⟩ := seat_disarm w.self j i
    refine atomicSteps_rang ?_ (passes_run passes)
    rw [seat]
    exact .inner _ (.timed check)
  | timed j _ passes =>
    obtain ⟨timeout, seat⟩ := seat_expire w.self j i
    refine atomicSteps_rang ?_ (passes_run passes)
    rw [seat]
    exact .rang w.self.runtime rfl rfl (w.self.peers i).checkEv timeout
  | watched _ passes =>
    refine atomicSteps_rang ?_ (passes_run passes)
    exact .rang { w.self.runtime with watch := none } rfl rfl (w.self.peers i).checkEv
      (w.self.peers i).probe.timeout

end CallbackRun

section Me

variable {gen : Generation}

/-- A process does not become another one. -/
theorem atomicStep_me {w w' : World} (move : AtomicStep gen w w') : w'.me = w.me := by
  -- One case for each step.
  cases move with
  | inner w' move => exact (innerStep_changed move).me
  | claimed i takeover limit result w' running registered returned =>
    have law : wp (claimRound gen i takeover limit) (fun _ w' => w'.me = w.me) w :=
      wp_claimRound (fun _ _ => rfl) (fun _ _ _ _ _ _ _ _ => rfl) (fun _ _ _ _ _ _ _ _ => rfl)
    exact law result w' returned
  | froze i result reason source error label events rs pos w' noted active idle returned =>
    obtain ⟨_, _, _, _, after⟩ := freeze_returned returned
    rw [after]
    rfl
  | submitted i result rc => rfl

/-- A process does not become another one in a run of atomic steps. -/
theorem atomicSteps_me {w w' : World} (run : AtomicSteps gen w w') : w'.me = w.me := by
  -- Induction on the run.
  induction run with
  | refl => rfl
  | tail _ move ih => rw [atomicStep_me move, ih]

/-- A process does not become another one in a callback. -/
theorem callbackRun_me {w w' : World} (course : CallbackRun gen w w') : w'.me = w.me := by
  -- One case for each kind of callback.
  cases course with
  | quiet _ run => exact atomicSteps_me (atomic_of_rounds run)
  | checked _ _ passes =>
    have me := atomicSteps_me (atomic_of_rounds (passes_run passes))
    exact me
  | timed _ _ passes =>
    have me := atomicSteps_me (atomic_of_rounds (passes_run passes))
    exact me
  | watched _ passes =>
    have me := atomicSteps_me (atomic_of_rounds (passes_run passes))
    exact me

end Me

/-- What a process that starts knows of a peer. -/
def Seat.start (worker : Nat) : Seat :=
  { runtime := { worker := worker }, opened := 0, peer := {}, history := [] }

section Life

variable {gen : Generation} {me : Nat} {start : Sys → Prop} {between : Sys → Sys → Prop} {s : Sys}

/-- A process that starts is steady. -/
theorem steady_start (pid : Int) (worker : Nat) : Steady (Proc.start pid worker) := by
  -- It has no round.
  intro i
  refine ⟨fun runs => ?_, fun _ => rfl, fun _ => rfl, fun _ => rfl⟩
  cases runs

/-- A process that starts its part in the checks. -/
theorem callbackRun_started {w w' : World} (returned : runtimeInit gen w = some ((), w')) :
    RoundSteps gen w w' :=
  -- The start of a worker is a run of round steps.
  byRounds_run (along_returned byInner_runtimeInit returned).1

/-- What every life keeps: it holds of a process that starts, and every callback keeps it. -/
theorem life_keep (invariant : Proc → Prop)
    (starts : ∀ pid worker, invariant (Proc.start pid worker))
    (keeps : ∀ w w', CallbackRun gen w w' → Steady w.self → invariant w.self → invariant w'.self)
    (life : Life gen me start between s) : Steady (s.procs me) ∧ invariant (s.procs me) := by
  have course : ∀ w w', CallbackRun gen w w' → Steady w.self → Steady w'.self :=
    fun w w' course steady i =>
      seatAtomicSteps_keep (fun reached move => seatAtomicStep_steady reached move)
        (atomicSteps_callbackRun course i) (steady i)
  -- Induction on the life; the other processes leave the process alone.
  induction life with
  | started w w' pid worker mine _ fresh _ returned =>
    have begun : CallbackRun gen w w' := .quiet w' (callbackRun_started returned)
    have self : w'.sys.procs me = w'.self := by rw [World.self, callbackRun_me begun, mine]
    have steady : Steady w.self := by
      rw [fresh]
      exact steady_start pid worker
    have held : invariant w.self := by
      rw [fresh]
      exact starts pid worker
    rw [self]
    exact ⟨course w w' begun steady, keeps w w' begun steady held⟩
  | others s s' _ _ ih =>
    have self : (s'.setProc me (s.procs me)).procs me = s.procs me := by simp [Sys.setProc]
    rw [self]
    exact ih
  | called callback w w' mine _ _ returned ih =>
    have self : w.sys.procs me = w.self := by rw [World.self, mine]
    rw [self] at ih
    have done : CallbackRun gen w w' := callbackRun_callback callback ih.1 () w' returned
    have self' : w'.sys.procs me = w'.self := by rw [World.self, callbackRun_me done, mine]
    rw [self']
    exact ⟨course w w' done ih.1, keeps w w' done ih.1 ih.2⟩

/-- What every step at a seat keeps holds of the seat in every life. -/
theorem life_seat {invariant : Seat → Prop} {i : Nat}
    (starts : ∀ worker, invariant (Seat.start worker))
    (keeps : ∀ {s s'}, invariant s → SeatAtomicStep gen i s s' → invariant s')
    (life : Life gen me start between s) : invariant ((s.procs me).seat i) := by
  -- The invariant along the life, beside the steadiness of the process.
  have kept : Steady (s.procs me) ∧ invariant ((s.procs me).seat i) :=
    life_keep (fun p => invariant (p.seat i)) (fun _ worker => starts worker)
      (fun w w' course _ held => seatAtomicSteps_keep keeps
        (atomicSteps_callbackRun course i) held) life
  exact kept.2

end Life

section Lived

variable {gen : Generation} {me : Nat}

/-- The callbacks of a list, each with its environment, one after the other. -/
def callAll (gen : Generation) (me : Nat) : List (Callback × (Nat → Answer)) → Sys → Option Sys
  | [], s => some s
  | (callback, script) :: rest, s =>
    (callback.run gen { sys := s, me := me, script := script }).bind fun result =>
      callAll gen me rest result.2.sys

/-- A process that starts, and whose event loop then calls the callbacks of a list. -/
def lived (gen : Generation) (me : Nat) (script : Nat → Answer)
    (calls : List (Callback × (Nat → Answer))) (s : Sys) : Option Sys :=
  (runtimeInit gen { sys := s.setProc me (Proc.start 1 0), me := me, script := script }).bind
    fun result => callAll gen me calls result.2.sys

/-- Any system may be found at the start, and any may be left by other processes. -/
abbrev AnyLife (gen : Generation) (me : Nat) : Sys → Prop :=
  Life gen me (fun _ => True) (fun _ _ => True)

/-- The calls of a list are a part of a life. -/
theorem life_callAll {calls : List (Callback × (Nat → Answer))} {s s' : Sys}
    (life : AnyLife gen me s) (ran : callAll gen me calls s = some s') : AnyLife gen me s' := by
  -- Induction on the list: the first callback is the first one called.
  induction calls generalizing s with
  | nil =>
    cases ran
    exact life
  | cons call rest ih =>
    simp only [callAll, Option.bind_eq_some_iff] at ran
    obtain ⟨⟨_, w⟩, returned, later⟩ := ran
    exact ih (.called call.1 _ w rfl life (fun _ _ => trivial) returned) later

/-- A list of callbacks that is carried out is a life. -/
theorem life_lived {script : Nat → Answer} {calls : List (Callback × (Nat → Answer))} {s s' : Sys}
    (ran : lived gen me script calls s = some s') : AnyLife gen me s' := by
  -- The start of the worker, and then its calls.
  simp only [lived, Option.bind_eq_some_iff] at ran
  obtain ⟨⟨_, w⟩, returned, later⟩ := ran
  exact life_callAll
    (.started _ w 1 0 rfl trivial (self_setSelf { sys := s, me := me, script := script } _)
      (fun _ _ => trivial) returned) later

end Lived

end Healthcheck
