import Healthcheck.Callback.Life

/-! The round steps of a process at the seats of its peers: the end of a round is one step. -/

namespace Healthcheck

open Program

/-- What a round step does to a seat: inner steps, an attempt to claim the peer, or the whole end of a round. -/
inductive SeatRoundStep (gen : Generation) (i : Nat) (s : Seat) : Seat → Prop
  | byInner (s' : Seat) (run : SeatInnerSteps gen i s s') : SeatRoundStep gen i s s'
  | claim (s' : Seat) (running : s.runtime.stopping = false) (claim : SeatClaim gen i s s') :
      SeatRoundStep gen i s s'
  | finished (result : Bool) (delay : Option Nat) (reason source : String)
      (error label : Option Errno) (events : List IoEvent) (rc : Rc) (s₁ s' : Seat)
      (noted : Noted gen i s.peer.probe s.history result events)
      (active : s.peer.probe.round.active = true)
      (sample : delay.isSome = true →
        result = true ∧ ∃ c, s.peer.probe.connection = some c ∧ c.requests = 0)
      (first : SeatInnerSteps gen i
        ((s.note events label).frozen i result delay reason source error) s₁)
      (settled : rc = .ok → s₁.peer.probe.round.pending = false)
      (second : SeatInnerSteps gen i (s₁.handle s₁.peer.probe [.submitted i result rc]) s')
      (kept : ∀ c, s'.peer.probe.connection = some c →
        Kept gen i (rc = .ok && result) c ∧ 1 ≤ c.requests) : SeatRoundStep gen i s s'
  /-- A timer calls back, and is no longer armed. -/
  | rang (runtime : Runtime) (stopping : runtime.stopping = s.runtime.stopping)
      (cleaned : runtime.cleaned = s.runtime.cleaned) (check timeout : Option Nat) :
      SeatRoundStep gen i s { s with
        runtime := runtime
        peer := { s.peer with checkEv := check, probe :=
          { s.peer.probe with timeout := timeout } } }

/-- Any number of round steps at a seat. -/
abbrev SeatRoundSteps (gen : Generation) (i : Nat) : Seat → Seat → Prop :=
  Relation.ReflTransGen (SeatRoundStep gen i)

section RoundSteps

variable {gen : Generation} {i : Nat}

/-- A round step of a process is one of each seat. -/
theorem seatRoundStep_of_round {w w' : World} (move : RoundStep gen w w') :
    SeatRoundStep gen i (w.self.seat i) (w'.self.seat i) := by
  -- One case for each step.
  cases move with
  | inner w' move => exact .byInner _ (.single (seatInnerStep_of_inner move))
  | claimed j takeover limit result w' running registered returned =>
    exact .claim _ running (seatClaim_claimRound result w' returned)
  | finished j result reason source error label events rs pos w' noted active idle returned =>
    obtain ⟨w₁, froze, _, ending⟩ := finish_returned noted active idle returned
    obtain ⟨delay, samples, frozen⟩ := seat_froze (i := i) (noted_own j noted) froze
    obtain ⟨rc, w₂, w₃, first, second, same, settled, kept⟩ := ending.parts
    subst same
    have before : SeatInnerSteps gen i (w₁.self.seat i) (w₂.self.seat i) :=
      seatInnerSteps_of_inner first
    have after : SeatInnerSteps gen i ((w₂.submitted j result rc).self.seat i) (w'.self.seat i) :=
      seatInnerSteps_of_inner second
    rw [World.submitted, self_setSelf, seat_submitted] at after
    rw [frozen] at before
    by_cases own : i = j
    · subst own
      rw [if_pos rfl] at before after
      exact .finished result delay reason source error label events rc _ _ noted active samples
        before settled after kept
    · rw [if_neg own] at before after
      exact .byInner _ (before.trans after)

/-- A run of round steps is one at each seat. -/
theorem seatRoundSteps_of_round {w w' : World} (run : RoundSteps gen w w') :
    SeatRoundSteps gen i (w.self.seat i) (w'.self.seat i) := by
  -- Induction on the run.
  induction run with
  | refl => exact .refl
  | tail _ move ih => exact ih.tail (seatRoundStep_of_round move)

/-- A timer that calls back, and the round steps that follow, at the seat of each peer. -/
theorem seatRoundSteps_rang {w w' : World} {p : Proc}
    (rang : SeatRoundStep gen i (w.self.seat i) (p.seat i))
    (run : RoundSteps gen (w.setSelf p) w') : SeatRoundSteps gen i (w.self.seat i)
    (w'.self.seat i) := by
  -- The timer is cleared by the first step of the seat.
  have after : SeatRoundSteps gen i ((w.setSelf p).self.seat i) (w'.self.seat i) :=
    seatRoundSteps_of_round run
  rw [self_setSelf] at after
  exact .head rang after

/-- The run of a callback, in round steps at the seat of each peer. -/
theorem seatRoundSteps_callback {w w' : World} (course : CallbackRun gen w w') :
    SeatRoundSteps gen i (w.self.seat i) (w'.self.seat i) := by
  -- One case for each kind of callback.
  cases course with
  | quiet _ run => exact seatRoundSteps_of_round run
  | checked j _ passes =>
    obtain ⟨check, seat⟩ := seat_disarm w.self j i
    refine seatRoundSteps_rang ?_ (passes_run passes)
    rw [seat]
    exact .byInner _ (.single (.timed check))
  | timed j _ passes =>
    obtain ⟨timeout, seat⟩ := seat_expire w.self j i
    refine seatRoundSteps_rang ?_ (passes_run passes)
    rw [seat]
    exact .rang w.self.runtime rfl rfl (w.self.peers i).checkEv timeout
  | watched _ passes =>
    refine seatRoundSteps_rang ?_ (passes_run passes)
    exact .rang { w.self.runtime with watch := none } rfl rfl (w.self.peers i).checkEv
      (w.self.peers i).probe.timeout

/-- An invariant of the round steps holds along their runs. -/
theorem seatRoundSteps_keep {invariant : Seat → Prop}
    (keeps : ∀ {s s'}, invariant s → SeatRoundStep gen i s s' → invariant s') {s s' : Seat}
    (run : SeatRoundSteps gen i s s') (start : invariant s) : invariant s' := by
  -- Induction on the run.
  induction run with
  | refl => exact start
  | tail _ move reached => exact keeps reached move

/-- What every round step at a seat keeps holds of the seat in every life. -/
theorem life_roundSteps {me : Nat} {start : Sys → Prop} {between : Sys → Sys → Prop} {s : Sys}
    {invariant : Seat → Prop} (starts : ∀ worker, invariant (Seat.start worker))
    (keeps : ∀ {s s'}, invariant s → SeatRoundStep gen i s s' → invariant s')
    (life : Life gen me start between s) : invariant ((s.procs me).seat i) := by
  -- The invariant along the life, beside the steadiness of the process.
  have kept : Steady (s.procs me) ∧ invariant ((s.procs me).seat i) :=
    life_keep (fun p => invariant (p.seat i)) (fun _ worker => starts worker)
      (fun w w' course _ held => seatRoundSteps_keep keeps
        (seatRoundSteps_callback course) held) life
  exact kept.2

end RoundSteps

end Healthcheck
