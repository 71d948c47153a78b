import Healthcheck.Callback.StartSteps

/-! What every process keeps of its rounds: a round does not both run and wait for its submission,
and a probe that was not allocated has no round and no connection. -/

namespace Healthcheck

open Program

/-- A round does not both run and wait, and there is nothing in a probe before it is allocated. -/
structure Seat.Steady (s : Seat) : Prop where
  single : s.peer.probe.round.active = true → s.peer.probe.round.pending = false
  active : s.peer.allocated = false → s.peer.probe.round.active = false
  pending : s.peer.allocated = false → s.peer.probe.round.pending = false
  connection : s.peer.allocated = false → s.peer.probe.connection = none

/-- The rounds of every peer of a process are steady. -/
def Steady (p : Proc) : Prop :=
  ∀ i, (p.seat i).Steady

/-- Steadiness is about the probes of the peers. -/
theorem steady_peers {p p' : Proc} (steady : Steady p) (peers : p'.peers = p.peers) :
    Steady p' := by
  -- Only the peers are looked at.
  intro i
  have peer : (p'.seat i).peer = (p.seat i).peer := congrFun peers i
  obtain ⟨single, active, pending, connection⟩ := steady i
  rw [← peer] at single active pending connection
  exact ⟨single, active, pending, connection⟩

section Seat

variable {gen : Generation} {i : Nat}

/-- A seat with the same probe, whatever else happened. -/
theorem steady_same {s s' : Seat} (steady : s.Steady)
    (round : s'.peer.probe.round = s.peer.probe.round)
    (connection : s.peer.probe.connection = none → s'.peer.probe.connection = none)
    (allocated : s'.peer.allocated = false → s.peer.allocated = false) : s'.Steady := by
  -- The round is the one before.
  refine ⟨?_, fun fresh => ?_, fun fresh => ?_, fun fresh => ?_⟩
  · rw [round]
    exact steady.single
  · rw [round]
    exact steady.active (allocated fresh)
  · rw [round]
    exact steady.pending (allocated fresh)
  · exact connection (steady.connection (allocated fresh))

/-- A seat whose round is over, with no more to submit than before. -/
theorem steady_past {s s' : Seat} (steady : s.Steady) (active : s'.peer.probe.round.active = false)
    (pending : s'.peer.probe.round.pending = true → s.peer.probe.round.pending = true)
    (connection : s.peer.probe.connection = none → s'.peer.probe.connection = none)
    (allocated : s'.peer.allocated = false → s.peer.allocated = false) : s'.Steady := by
  -- The round does not run, and it waits for its submission only if it did before.
  refine ⟨fun runs => ?_, fun _ => active, fun fresh => ?_, fun fresh => ?_⟩
  · rw [active] at runs
    cases runs
  · have quiet := steady.pending (allocated fresh)
    rw [Bool.eq_false_iff]
    intro waits
    rw [pending waits] at quiet
    cases quiet
  · exact connection (steady.connection (allocated fresh))

/-- A step of the probe keeps its seat steady. -/
theorem step_steady {s : Seat} {probe' : Probe} {events : List IoEvent} (steady : s.Steady)
    (step : ProbeStep gen i s.peer.probe s.history probe' events) :
    (s.handle probe' events).Steady := by
  -- One case for each step.
  cases step with
  | tuned probe' tuned =>
    refine steady_same steady tuned.round (fun alone => ?_) id
    show probe'.connection = none
    rw [tuned.connection]
    exact alone
  | rested tcp =>
    refine steady_same steady rfl (fun alone => ?_) id
    show s.peer.probe.connection.map _ = none
    rw [alone]
    rfl
  | prepared c current active checked =>
    refine steady_same steady rfl (fun alone => ?_) id
    rw [alone] at current
    cases current
  | counted =>
    refine steady_same steady rfl (fun alone => ?_) id
    show s.peer.probe.connection.map _ = none
    rw [alone]
    rfl
  | closed => exact steady_same steady rfl (fun _ => rfl) id
  | lost => exact steady_same steady rfl (fun _ => rfl) id
  | released pending fewer => exact steady_past steady rfl fewer (fun _ => rfl) id
  | overrun c current discarded events reads => exact steady_same steady rfl (fun _ => rfl) id
  | _ => exact steady_same steady rfl id id

/-- An inner step keeps its seat steady. -/
theorem seatInnerStep_steady {s s' : Seat} (steady : s.Steady) (move : SeatInnerStep gen i s s') :
    s'.Steady := by
  cases move with
  | stopped below =>
    unfold Seat.stop
    dsimp only
    split
    · refine steady_past steady rfl (fun waits => ?_) (fun _ => rfl) id
      cases waits
    · exact steady_same steady rfl id id
  | handled probe events step => exact step_steady steady step
  | connected before error startTime how active confirmed =>
    -- A round that runs has an allocated probe.
    have impossible : s.peer.allocated ≠ false := by
      intro fresh
      rw [steady.active fresh] at active
      cases active
    cases startTime with
    | none =>
      exact ⟨steady.single, fun fresh => absurd fresh impossible,
        fun fresh => absurd fresh impossible, fun fresh => absurd fresh impossible⟩
    | some time =>
      exact ⟨steady.single, fun fresh => absurd fresh impossible,
        fun fresh => absurd fresh impossible, fun fresh => absurd fresh impossible⟩
  | prepared deadline tcp =>
    exact ⟨steady.single, steady.active, steady.pending, steady.connection⟩
  | waited => exact ⟨steady.single, steady.active, steady.pending, steady.connection⟩
  | settled check =>
    exact ⟨fun _ => rfl, steady.active, fun _ => rfl, steady.connection⟩
  | _ => exact steady_same steady rfl id id

/-- An atomic step keeps its seat steady. -/
theorem seatAtomicStep_steady {s s' : Seat} (steady : s.Steady) (move : SeatAtomicStep gen i s s') :
    s'.Steady := by
  -- One case for each step.
  cases move with
  | inner s' move => exact seatInnerStep_steady steady move
  | allocated =>
    refine ⟨steady.single, fun fresh => ?_, fun fresh => ?_, fun fresh => ?_⟩
    all_goals cases fresh
  | claimed started next running active pending deadline =>
    refine ⟨fun _ => pending, fun fresh => ?_, fun fresh => ?_, fun fresh => ?_⟩
    all_goals cases fresh
  | froze result delay reason source error label events noted active idle sample =>
    have impossible : s.peer.allocated ≠ false := by
      intro fresh
      rw [steady.active fresh] at active
      cases active
    refine ⟨fun runs => ?_, fun fresh => absurd fresh impossible,
      fun fresh => absurd fresh impossible, fun fresh => absurd fresh impossible⟩
    cases runs
  | submitted result rc => exact steady_same steady rfl id id
  | rang runtime stopping cleaned check timeout => exact steady_same steady rfl id id

end Seat

section RoundSteps

/-- A change that concerns the process alone keeps it steady. -/
theorem steady_local (gen : Generation) {p p' : Proc} (steady : Steady p)
    (change : Local gen p p') : Steady p' :=
  -- Seat by seat.
  fun i => seatInnerStep_steady (steady i) (seatInnerStep_local change)

variable {gen : Generation}

/-- An atomic step keeps a process steady. -/
theorem steady_atomicStep {w w' : World} (steady : Steady w.self) (move : AtomicStep gen w w') :
    Steady w'.self :=
  fun i => seatAtomicStep_steady (steady i) (seatAtomicStep_of_atomic move)

/-- A round step keeps a process steady. -/
theorem steady_roundStep {w w' : World} (move : RoundStep gen w w') (steady : Steady w.self) :
    Steady w'.self := by
  -- It consists of atomic ones.
  intro i
  exact seatAtomicSteps_keep (fun reached move => seatAtomicStep_steady reached move)
    (seatAtomicSteps_of_atomic (atomic_of_round move)) (steady i)

/-- A run of round steps keeps a process steady. -/
theorem byRounds_keep {w w' : World} (run : RoundSteps gen w w') (steady : Steady w.self) :
    Steady w'.self := by
  -- Induction on the run.
  induction run with
  | refl => exact steady
  | tail _ move ih => exact steady_roundStep move ih

/-- What a program does leaves its process steady. -/
theorem byRounds_steady {α : Type} {x : Action α} {post : α → World → Prop} {w : World}
    (steady : Steady w.self)
    (holds : byRounds gen x (fun a w' => Steady w'.self → post a w') w) : byRounds gen x post w :=
  -- The steadiness goes along with the steps.
  along_keep (fun _ _ => steady_roundStep) steady holds

end RoundSteps

end Healthcheck
