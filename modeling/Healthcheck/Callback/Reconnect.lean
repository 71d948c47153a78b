import Healthcheck.Callback.Life
import Healthcheck.System.Run
import Healthcheck.Library.Trace

/-!
Failing peeks of a retained connection. A round that starts with a retained connection peeks it
twice: while it is prepared, where a failure leads to a new connection, and in the handler of the
TCP check, where a failure ends the round.
-/

namespace Healthcheck

open Program

/-- The connection a claim of a peer found retained, if there was one. -/
def IoEvent.retained (i : Nat) : IoEvent → Option (Option Nat)
  | .claimed peer _ connection => if peer = i then some connection else none
  | _ => none

/-- What must follow at once: a failing peek in a preparation leads to a new connection, a peek in
the handler of the check is the outcome of the round, and without a clock a prepared round fails,
unless it is a UDP round. -/
structure Answered (gen : Generation) (i : Nat) (event : IoEvent) (older newer : List IoEvent) :
    Prop where
  broken : ∀ connection, event = .peeked i .probeStart connection false →
    ∃ rest, newer = rest ++ [.connecting i, .closed i connection]
  checked : ∀ connection passed, event = .peeked i .tcpEvent connection passed →
    ∃ rest, newer = rest ++ [.finished i passed]
  unclocked : event = .unclocked i →
    ∃ rest, newer = rest ++ [.finished i ((gen.conf i).checkType = .udp)]

/-- Every event in the history of a seat was answered. -/
def Seat.Answers (gen : Generation) (i : Nat) (s : Seat) : Prop :=
  Trace.Ahead (Answered gen i) s.history

/-- An event that nothing has to follow. -/
def IoEvent.inert : IoEvent → Bool
  | .peeked _ site _ passed => passed && site == .probeStart
  | .unclocked _ => false
  | _ => true

section Peeks

variable {gen : Generation} {i : Nat} {history : List IoEvent}

/-- Later events leave an answer where it is. -/
theorem answered_grows {event : IoEvent} {older newer : List IoEvent} (more : List IoEvent)
    (answered : Answered gen i event older newer) : Answered gen i event older (more ++ newer) := by
  -- The answer is the oldest part of what is newer.
  refine ⟨fun connection same => ?_, fun connection passed same => ?_, fun same => ?_⟩
  · obtain ⟨rest, after⟩ := answered.broken connection same
    exact ⟨more ++ rest, by rw [after, List.append_assoc]⟩
  · obtain ⟨rest, after⟩ := answered.checked connection passed same
    exact ⟨more ++ rest, by rw [after, List.append_assoc]⟩
  · obtain ⟨rest, after⟩ := answered.unclocked same
    exact ⟨more ++ rest, by rw [after, List.append_assoc]⟩

/-- An event that nothing has to follow is answered. -/
theorem answered_inert {event : IoEvent} {older newer : List IoEvent}
    (inert : event.inert = true) : Answered gen i event older newer := by
  -- It is none of the events that call for an answer.
  refine ⟨fun connection same => ?_, fun connection passed same => ?_, fun same => ?_⟩
  · rw [same] at inert
    cases inert
  · rw [same] at inert
    cases passed <;> cases inert
  · rw [same] at inert
    cases inert

/-- Other events keep what the peeks led to. -/
theorem ahead_inert (events : List IoEvent)
    (inert : ∀ event ∈ events, event.inert = true)
    (answered : Trace.Ahead (Answered gen i) history) :
    Trace.Ahead (Answered gen i) (events ++ history) := by
  -- Nothing has to follow an inert event.
  refine Trace.ahead_append answered_grows events (fun newer event older split => ?_) answered
  refine answered_inert (inert event ?_)
  rw [split]
  exact List.mem_append_right _ List.mem_cons_self

/-- A peek in a preparation that failed, and the new connection. -/
theorem ahead_connecting (events : List IoEvent) {probe : Probe} {before : List IoEvent}
    (how : Reconnects gen i probe before) (inert : ∀ event ∈ events, event.inert = true)
    (answered : Trace.Ahead (Answered gen i) history) :
    Trace.Ahead (Answered gen i) (events ++ .connecting i :: before ++ history) := by
  -- One case for each reason to connect.
  rw [List.append_assoc]
  refine ahead_inert events inert ?_
  cases how with
  | fresh => exact ahead_inert [.connecting i] (by simp [IoEvent.inert]) answered
  | expired c retained currentMsec =>
    exact ahead_inert [.connecting i, .closed i c.id, .aged i c.id currentMsec]
      (by simp [IoEvent.inert]) answered
  | failed c retained currentMsec young =>
    have aged : Trace.Ahead (Answered gen i) ([.aged i c.id currentMsec] ++ history) :=
      ahead_inert _ (by simp [IoEvent.inert]) answered
    refine Trace.ahead_append answered_grows
      [.connecting i, .closed i c.id, .peeked i .probeStart c.id false]
      (fun newer event older split => ?_) aged
    rcases newer with _ | ⟨first, _ | ⟨second, _ | ⟨third, rest⟩⟩⟩
    · cases split
      exact answered_inert rfl
    · cases split
      exact answered_inert rfl
    · cases split
      refine ⟨fun connection same => ?_, fun connection passed same => (by cases same),
        fun same => (by cases same)⟩
      cases same
      exact ⟨[], rfl⟩
    · simp at split

/-- What a process does to a probe on its own includes no peek that decides anything. -/
theorem step_inert {probe probe' : Probe} {history events : List IoEvent}
    (step : ProbeStep gen i probe history probe' events) :
    ∀ event ∈ events, event.inert = true := by
  -- One case for each step.
  have closing : ∀ event ∈ probe.closing i, event.inert = true := by
    intro event member
    obtain ⟨c, _, same⟩ := mem_closing i member
    rw [same]
    rfl
  have reads : ∀ {connection discarded count : Nat} {close : Option Bool} {events : List IoEvent},
      Drains gen i connection discarded close count events →
      ∀ event ∈ events, event.inert = true := by
    intro connection discarded count close events passes event member
    obtain ⟨_, _, _, same⟩ := mem_drains i passes event member
    rw [same]
    rfl
  cases step with
  | closed => exact closing
  | lost =>
    intro event member
    rcases List.mem_append.mp member with closed | lost
    · exact closing event closed
    · rw [List.mem_singleton.mp lost]
      rfl
  | released => exact closing
  | drained c current discarded events passes => exact reads passes
  | overrun c current discarded events passes =>
    intro event member
    rcases List.mem_cons.mp member with closed | read
    · rw [closed]
      rfl
    · exact reads passes event read
  | _ => simp [IoEvent.inert]

/-- An inner step keeps every event of its seat answered. -/
theorem seatInnerStep_answers {s s' : Seat} (answered : s.Answers gen i)
    (move : SeatInnerStep gen i s s') :
    s'.Answers gen i := by
  -- One case for each step.
  cases move with
  | stopped below =>
    unfold Seat.stop
    dsimp only
    split
    · refine ahead_inert (s.peer.probe.closing i) (fun event member => ?_) answered
      obtain ⟨c, _, same⟩ := mem_closing i member
      rw [same]
      rfl
    · exact answered
  | handled probe events step => exact ahead_inert events (step_inert step) answered
  | connected before error startTime how active confirmed =>
    cases startTime with
    | none => exact ahead_connecting [] how (by simp) answered
    | some time =>
      exact ahead_connecting [.established i s.opened time] how (by simp [IoEvent.inert])
        answered
  | _ => exact answered

/-- The outcome of a round follows the peek it was taken from. -/
theorem froze_answered {s : Seat} {result : Bool} {delay : Option Nat} {events : List IoEvent}
    (noted : Noted gen i s.peer.probe s.history result events)
    (answered : Trace.Ahead (Answered gen i) s.history) :
    Trace.Ahead (Answered gen i) ((s.peer.probe.sampling i delay ++ [.finished i result]) ++
      (events ++ s.history)) := by
  have sampled : ∀ event ∈ s.peer.probe.sampling i delay, event.inert = true := by
    intro event member
    obtain ⟨_, _, _, _, same⟩ := mem_sampling i member
    rw [same]
    rfl
  rw [List.append_assoc]
  refine ahead_inert _ sampled ?_
  -- An end that answers its only note.
  have answers : ∀ (event : IoEvent) (verdict : Bool),
      Answered gen i event s.history [.finished i verdict] →
        Trace.Ahead (Answered gen i) ([.finished i verdict, event] ++ s.history) := by
    intro event verdict law
    refine Trace.ahead_append answered_grows _ (fun newer other older split => ?_) answered
    rcases newer with _ | ⟨first, _ | ⟨second, rest⟩⟩
    · cases split
      exact answered_inert rfl
    · cases split
      exact law
    · simp at split
  cases noted with
  | plain result why => exact ahead_inert [.finished i result] (by simp [IoEvent.inert]) answered
  | expired now => exact answers (.expired i now) _ (answered_inert rfl)
  | unclocked =>
    refine answers (.unclocked i) _ ⟨fun _ same => (by cases same), fun _ _ same => (by cases same),
      fun _ => ⟨[], rfl⟩⟩
  | refused t evidence served =>
    exact answers (.udpError i .econnrefused (some t)) _ (answered_inert rfl)
  | peeked c passed current watched =>
    refine answers (.peeked i .tcpEvent c.id result) _ ⟨fun _ same => (by cases same),
      fun connection passed same => ?_, fun same => (by cases same)⟩
    cases same
    exact ⟨[], rfl⟩

/-- An atomic step keeps every event of its seat answered. -/
theorem seatAtomicStep_answers {s s' : Seat} (answered : s.Answers gen i)
    (move : SeatAtomicStep gen i s s') : s'.Answers gen i := by
  -- What an atomic step adds to the inner ones is inert, or the outcome of a round.
  cases move with
  | inner s' move => exact seatInnerStep_answers answered move
  | allocated => exact answered
  | claimed started next running active pending deadline =>
    exact ahead_inert [_] (by simp [IoEvent.inert]) answered
  | froze result delay reason source error label events noted active idle sample =>
    exact froze_answered noted answered
  | submitted result rc => exact ahead_inert [_] (by simp [IoEvent.inert]) answered
  | rang runtime stopping cleaned check timeout => exact answered

end Peeks

section Retained

/-- A worker whose first TCP check succeeds, and whose second one starts with the connection it
kept, in some environment. -/
def retainedLife (script : Nat → Answer) : Option Sys :=
  lived sample 0 (fun _ => quietAt 1000)
    [(.checkTimer 0, fun _ => { quietAt 4000 with connect := .again, flag := true }),
      (.writeEvent 0, fun _ => { quietAt 4001 with result := 1, eventOk := true }),
      (.checkTimer 0, script)]
    (fresh sample)

/-- The kept connection is closed by the server between the two peeks of the second round. -/
def closedBetween : Nat → Answer :=
  fun n => { quietAt 7000 with result := if n = 18 then 1 else 0 }

/-- The kept connection is found closed by the first peek of the second round. -/
def closedBefore : Nat → Answer :=
  fun _ => { quietAt 7000 with connect := .again, flag := true }

/-- What the two rounds have in common, newest first. -/
def secondRound : List IoEvent :=
  [.aged 0 0 0, .confirmed 0, .claimed 0 8000 (some 0), .submitted 0 true .ok, .sampled 0 0 1,
    .finished 0 true, .peeked 0 .tcpEvent 0 true, .established 0 0 0, .connecting 0, .confirmed 0,
    .claimed 0 5000 none]

end Retained

end Healthcheck
