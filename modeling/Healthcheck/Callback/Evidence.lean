import Healthcheck.Callback.Life
import Healthcheck.System.Run
import Healthcheck.Library.Trace

/-!
The evidence rule of the UDP check. A round fails exactly when the peer refused a datagram of this
round in time; whatever else ends it counts as a success.
-/

namespace Healthcheck

open Program

/-- The outcome of a peer's round, as it was frozen. -/
def IoEvent.verdict (i : Nat) : IoEvent → Option Bool
  | .finished peer result => if peer = i then some result else none
  | _ => none

/-- An event that is no part of the evidence for an outcome. -/
def IoEvent.quiet : IoEvent → Bool
  | .claimed _ _ _ => false
  | .sent _ _ => false
  | .udpError _ _ _ => false
  | .finished _ _ => false
  | _ => true

/-- Something was sent in the current round, whether or not it went out. -/
def Tried (i : Nat) (history : List IoEvent) : Prop :=
  ∃ whole, .sent i whole ∈ sinceClaim i history

/-- A refusal that proves a failure: it was seen after something was sent in this round, and before
the deadline the claim fixed. -/
def Proves (i : Nat) (event : IoEvent) (older : List IoEvent) : Prop :=
  ∃ t deadline, event = .udpError i .econnrefused (some t) ∧ Tried i older ∧
    newest (IoEvent.claim i) older = some deadline ∧ milliseconds t < deadline

/-- The current round holds evidence of a failure. -/
def Evidence (i : Nat) : List IoEvent → Prop
  | [] => False
  | event :: older => event.claim i = none ∧ (Proves i event older ∨ Evidence i older)

/-- A round fails exactly when it holds evidence. -/
def Judged (i : Nat) (event : IoEvent) (older : List IoEvent) : Prop :=
  ∀ result, event = .finished i result → (result = false ↔ Evidence i older)

/-- Evidence ends the round at once. -/
def Convicts (i : Nat) (event : IoEvent) (older newer : List IoEvent) : Prop :=
  Proves i event older → ∃ rest, newer = rest ++ [.finished i false]

/-- At most one datagram goes out in a round. -/
def SentOnce (i : Nat) (event : IoEvent) (older : List IoEvent) : Prop :=
  event = .sent i true → .sent i true ∉ sinceClaim i older

/-- What holds of the rounds of a UDP peer. -/
structure Seat.Judges (i : Nat) (s : Seat) : Prop where
  attempted : s.peer.probe.attempted = true ↔ Tried i s.history
  sending : s.peer.probe.sending = true → .sent i true ∉ sinceClaim i s.history
  unwatched : ∀ c, s.peer.probe.connection = some c → ¬ c.Watched
  unproven : s.peer.probe.round.active = true → ¬ Evidence i s.history
  deadline : newest (IoEvent.claim i) s.history = some s.peer.probe.round.deadline ∨
    newest (IoEvent.claim i) s.history = none ∧ s.peer.probe.round.active = false
  result : s.peer.probe.round.pending = true →
    newest (IoEvent.verdict i) s.history = some s.peer.probe.round.result
  judged : Trace.Along (Judged i) s.history
  convicts : Trace.Ahead (Convicts i) s.history
  once : Trace.Along (SentOnce i) s.history

section Events

variable {i : Nat} {event : IoEvent} {history : List IoEvent}

/-- A quiet event claims no round. -/
theorem quiet_claim (quiet : event.quiet = true) : event.claim i = none := by
  -- A claim is excluded by assumption.
  cases event with
  | claimed => cases quiet
  | _ => rfl

/-- A quiet event gives no verdict. -/
theorem quiet_verdict (quiet : event.quiet = true) : event.verdict i = none := by
  -- A verdict is excluded by assumption.
  cases event with
  | finished => cases quiet
  | _ => rfl

/-- A quiet event proves no failure. -/
theorem not_proves_quiet (quiet : event.quiet = true) : ¬ Proves i event history := by
  -- What proves a failure is not quiet.
  rintro ⟨t, deadline, same, _⟩
  rw [same] at quiet
  cases quiet

/-- Events that are neither claims nor datagrams leave what was sent in the round. -/
theorem sent_append {whole : Bool} {events : List IoEvent}
    (silent : ∀ event ∈ events, event.claim i = none) (unsent : .sent i whole ∉ events) :
    .sent i whole ∈ sinceClaim i (events ++ history) ↔ .sent i whole ∈ sinceClaim i history := by
  -- The new events are none of the claim or the datagram.
  rw [sinceClaim_append silent, List.mem_append]
  constructor
  · rintro (new | old)
    · exact absurd new unsent
    · exact old
  · exact .inr

/-- Quiet events send nothing. -/
theorem sent_quiet {whole : Bool} {events : List IoEvent}
    (quiet : ∀ event ∈ events, event.quiet = true) :
    .sent i whole ∈ sinceClaim i (events ++ history) ↔ .sent i whole ∈ sinceClaim i history :=
  -- Quiet events are no sends and claim nothing.
  sent_append (fun event member => quiet_claim (quiet event member))
    fun member => (by cases quiet _ member)

/-- After quiet events the round has tried to send just when it had before. -/
theorem tried_quiet {events : List IoEvent} (quiet : ∀ event ∈ events, event.quiet = true) :
    Tried i (events ++ history) ↔ Tried i history :=
  exists_congr fun _ => sent_quiet quiet

/-- After quiet events the evidence against the peer is what it was. -/
theorem evidence_quiet {events : List IoEvent} (quiet : ∀ event ∈ events, event.quiet = true) :
    Evidence i (events ++ history) ↔ Evidence i history := by
  -- Induction on the events.
  induction events with
  | nil => rfl
  | cons event rest ih =>
    have first : event.quiet = true := quiet event List.mem_cons_self
    have others : ∀ event ∈ rest, event.quiet = true :=
      fun event member => quiet event (List.mem_cons_of_mem _ member)
    rw [List.cons_append]
    constructor
    · rintro ⟨_, proves | evidence⟩
      · exact absurd proves (not_proves_quiet first)
      · exact (ih others).mp evidence
    · exact fun evidence => ⟨quiet_claim first, .inr ((ih others).mpr evidence)⟩

/-- Evidence never goes away while more is noted. -/
theorem convicts_grows {older newer : List IoEvent} (more : List IoEvent)
    (convicts : Convicts i event older newer) : Convicts i event older (more ++ newer) := by
  -- The verdict stays where it is.
  intro proves
  obtain ⟨rest, after⟩ := convicts proves
  exact ⟨more ++ rest, by rw [after, List.append_assoc]⟩

/-- Quiet events keep the laws of the history. -/
theorem laws_quiet {events : List IoEvent} (quiet : ∀ event ∈ events, event.quiet = true)
    (judged : Trace.Along (Judged i) history) (convicts : Trace.Ahead (Convicts i) history)
    (once : Trace.Along (SentOnce i) history) :
    Trace.Along (Judged i) (events ++ history) ∧ Trace.Ahead (Convicts i) (events ++ history) ∧
      Trace.Along (SentOnce i) (events ++ history) := by
  -- A quiet event is no verdict, no proof and no datagram.
  refine ⟨Trace.along_append (fun event member older result same => ?_) judged,
    Trace.ahead_append convicts_grows events (fun newer event older split proves => ?_) convicts,
    Trace.along_append (fun event member older same => ?_) once⟩
  · rw [same] at member
    cases quiet _ member
  · have member : event ∈ events := by
      rw [split]
      exact List.mem_append_right _ List.mem_cons_self
    exact absurd proves (not_proves_quiet (quiet event member))
  · rw [same] at member
    cases quiet _ member

end Events

section Keep

variable {gen : Generation} {i : Nat}

/-- A step that notes nothing of interest, and neither starts a round nor changes a running one. -/
theorem judges_quiet {s s' : Seat} (events : List IoEvent) (judges : s.Judges i)
    (history : s'.history = events ++ s.history) (quiet : ∀ event ∈ events, event.quiet = true)
    (attempted : s'.peer.probe.attempted = s.peer.probe.attempted)
    (sending : s'.peer.probe.sending = true → s.peer.probe.sending = true)
    (unwatched : ∀ c, s'.peer.probe.connection = some c → ¬ c.Watched)
    (active : s'.peer.probe.round.active = true → s.peer.probe.round.active = true)
    (pending : s'.peer.probe.round.pending = true → s.peer.probe.round.pending = true)
    (deadline : s'.peer.probe.round.deadline = s.peer.probe.round.deadline)
    (result : s'.peer.probe.round.result = s.peer.probe.round.result) : s'.Judges i := by
  -- The flags and the history say what they said before.
  obtain ⟨judged, convicts, once⟩ := laws_quiet quiet judges.judged judges.convicts judges.once
  have silent : ∀ event ∈ events, event.claim i = none :=
    fun event member => quiet_claim (quiet event member)
  rw [← history] at judged convicts once
  refine ⟨?_, fun sends => ?_, unwatched, fun runs => ?_, ?_, fun waits => ?_,
    judged, convicts, once⟩
  · rw [attempted, history, tried_quiet quiet]
    exact judges.attempted
  · rw [history, sent_quiet quiet]
    exact judges.sending (sending sends)
  · rw [history, evidence_quiet quiet]
    exact judges.unproven (active runs)
  · rw [history, newest_append silent, deadline]
    refine judges.deadline.imp_right fun unclaimed => ⟨unclaimed.1, ?_⟩
    rw [Bool.eq_false_iff]
    intro runs
    rw [active runs] at unclaimed
    cases unclaimed.2
  · rw [history, newest_append fun event member => quiet_verdict (quiet event member), result]
    exact judges.result (pending waits)

/-- The routine of a probe is quiet. -/
theorem routine_quiet {event : IoEvent} (routine : event.Routine i) : event.quiet = true := by
  -- One case for each event.
  cases routine <;> rfl

/-- The end of a connection is quiet. -/
theorem closing_quiet (probe : Probe) : ∀ event ∈ probe.closing i, event.quiet = true :=
  fun event member => routine_quiet (closing_routine i probe event member)

/-- The handlers of a UDP check are no TCP handlers. -/
theorem install_unwatched (c : Connection) : ¬ (c.install .udp).Watched := by
  -- The two handlers of UDP are not those of TCP.
  rintro (read | write)
  · cases read
  · cases write

/-- A datagram, or an attempt to send one, is noted in a seat. -/
theorem judges_sent {s : Seat} {probe' : Probe} (whole : Bool) (judges : s.Judges i)
    (connection : probe'.connection = s.peer.probe.connection)
    (round : probe'.round = s.peer.probe.round) (attempted : probe'.attempted = true)
    (sending : s.peer.probe.sending = true)
    (stops : probe'.sending = true → whole = false ∧ s.peer.probe.sending = true) :
    (s.handle probe' [.sent i whole]).Judges i := by
  -- A whole datagram is sent once, because the flag is cleared with it.
  have grown : sinceClaim i (.sent i whole :: s.history) =
      .sent i whole :: sinceClaim i s.history := by
    simp [sinceClaim, IoEvent.claim]
  have active : (s.handle probe' [.sent i whole]).peer.probe.round = s.peer.probe.round := round
  refine ⟨⟨fun _ => ⟨whole, ?_⟩, fun _ => attempted⟩, fun sends member => ?_, fun c current => ?_,
    fun runs evidence => ?_, ?_, fun waits => ?_, ?_, ?_, ?_⟩
  · show IoEvent.sent i whole ∈ sinceClaim i (.sent i whole :: s.history)
    rw [grown]
    exact List.mem_cons_self
  · obtain ⟨partly, still⟩ := stops sends
    subst partly
    change IoEvent.sent i true ∈ sinceClaim i (.sent i false :: s.history) at member
    rw [grown] at member
    rcases List.mem_cons.mp member with same | earlier
    · cases same
    · exact judges.sending still earlier
  · exact judges.unwatched c (connection ▸ current)
  · rw [active] at runs
    obtain ⟨_, ⟨t, deadline, same, _⟩ | earlier⟩ := evidence
    · cases same
    · exact judges.unproven runs earlier
  · rw [active]
    exact judges.deadline
  · rw [active] at waits ⊢
    exact judges.result waits
  · exact Trace.along_cons.mpr ⟨fun _ same => (by cases same), judges.judged⟩
  · refine Trace.ahead_cons convicts_grows (fun proves => ?_) judges.convicts
    obtain ⟨t, deadline, same, _⟩ := proves
    cases same
  · exact Trace.along_cons.mpr ⟨fun same => judges.sending sending, judges.once⟩

/-- The probe believes whatever proves a failure. -/
theorem refused_of_proves {s : Seat} {error : Errno} {reading : Option Nat} (judges : s.Judges i)
    (proves : Proves i (.udpError i error reading) s.history) :
    s.peer.probe.Refused error reading := by
  -- The deadline of the proof is that of the claim.
  obtain ⟨t, deadline, same, tried, fixed, early⟩ := proves
  cases same
  rcases judges.deadline with claimed | ⟨unclaimed, _⟩
  · rw [claimed] at fixed
    cases fixed
    exact ⟨judges.attempted.mpr tried, rfl, t, rfl, early⟩
  · rw [unclaimed] at fixed
    cases fixed

/-- What the probe of a running round believes proves a failure. -/
theorem proves_of_refused {s : Seat} {t : Nat} (judges : s.Judges i)
    (active : s.peer.probe.round.active = true)
    (refused : s.peer.probe.Refused .econnrefused (some t)) :
    Proves i (.udpError i .econnrefused (some t)) s.history := by
  -- An active round has the deadline of its claim.
  obtain ⟨attempted, _, t', taken, early⟩ := refused
  cases taken
  rcases judges.deadline with claimed | ⟨_, ended⟩
  · exact ⟨t, _, rfl, judges.attempted.mp attempted, claimed, early⟩
  · rw [active] at ended
    cases ended

/-- An error that is no evidence leaves the round as it is. -/
theorem judges_erred {s : Seat} {error : Errno} {reading : Option Nat} (judges : s.Judges i)
    (unproven : ¬ Proves i (.udpError i error reading) s.history) :
    (s.handle s.peer.probe [.udpError i error reading]).Judges i := by
  -- The error proves nothing, so the evidence is what it was.
  have grown : sinceClaim i (.udpError i error reading :: s.history) =
      .udpError i error reading :: sinceClaim i s.history := by
    simp [sinceClaim, IoEvent.claim]
  have sent : ∀ whole, IoEvent.sent i whole ∈ sinceClaim i
    (.udpError i error reading :: s.history) ↔
      IoEvent.sent i whole ∈ sinceClaim i s.history := by
    intro whole
    rw [grown, List.mem_cons]
    simp
  refine ⟨judges.attempted.trans (exists_congr fun whole => (sent whole).symm), fun sends => ?_,
    judges.unwatched, fun runs evidence => ?_, judges.deadline, judges.result, ?_, ?_, ?_⟩
  · exact fun member => judges.sending sends ((sent true).mp member)
  · obtain ⟨_, proves | earlier⟩ := evidence
    · exact unproven proves
    · exact judges.unproven runs earlier
  · exact Trace.along_cons.mpr ⟨fun _ same => (by cases same), judges.judged⟩
  · exact Trace.ahead_cons convicts_grows (fun proves => absurd proves unproven) judges.convicts
  · exact Trace.along_cons.mpr ⟨fun same => (by cases same), judges.once⟩

/-- A step of a UDP probe keeps the record of its evidence. -/
theorem step_judges {s : Seat} {probe' : Probe} {events : List IoEvent} (judges : s.Judges i)
    (udp : (gen.conf i).checkType = .udp)
    (step : ProbeStep gen i s.peer.probe s.history probe' events) :
    (s.handle probe' events).Judges i := by
  have lonely : ∀ c, (none : Option Connection) = some c → ¬ c.Watched :=
    fun _ held => (by cases held)
  -- A step that notes only routine, and leaves the round alone.
  have kept : (∀ event ∈ events, event.Routine i) →
      probe'.attempted = s.peer.probe.attempted →
      (probe'.sending = true → s.peer.probe.sending = true) →
      (∀ c, probe'.connection = some c → ¬ c.Watched) → probe'.round = s.peer.probe.round →
      (s.handle probe' events).Judges i := by
    intro routine attempted sending unwatched round
    have same : (s.handle probe' events).peer.probe.round = s.peer.probe.round := round
    refine judges_quiet events judges rfl (fun event member => routine_quiet (routine event member))
      attempted sending unwatched ?_ ?_ ?_ ?_
    all_goals rw [same]
    all_goals exact id
  cases step with
  | tuned probe' tuned =>
    refine kept (by simp) tuned.attempted tuned.sending (fun c current => ?_) tuned.round
    rw [tuned.connection] at current
    exact judges.unwatched c current
  | rested tcp =>
    rw [udp] at tcp
    cases tcp
  | prepared c current active checked =>
    refine kept (by simp) rfl id (fun c' held => ?_) rfl
    cases held
    rw [udp]
    exact install_unwatched c
  | counted =>
    refine kept (by simp) rfl id (fun c' held => ?_) rfl
    obtain ⟨c, current, same⟩ := Option.map_eq_some_iff.mp held
    rw [← same]
    exact judges.unwatched c current
  | closed => exact kept (closing_routine i _) rfl id lonely rfl
  | lost =>
    refine kept (fun event member => ?_) rfl id lonely rfl
    rcases List.mem_append.mp member with closing | lost
    · exact closing_routine i _ event closing
    · rw [List.mem_singleton.mp lost]
      exact .lost
  | released pending fewer =>
    exact judges_quiet _ judges rfl (closing_quiet _) rfl id lonely
      (fun runs => (by cases runs)) fewer
      rfl rfl
  | confirmed =>
    refine kept (fun event member => ?_) rfl id judges.unwatched rfl
    rw [List.mem_singleton.mp member]
    exact .confirmed
  | peeked c retained currentMsec young =>
    refine kept (fun event member => ?_) rfl id judges.unwatched rfl
    rcases List.mem_cons.mp member with peeked | aged
    · rw [peeked]
      exact .peeked .probeStart c.id true
    · rw [List.mem_singleton.mp aged]
      exact .aged c.id currentMsec
  | sent stage sending =>
    exact judges_sent true judges rfl rfl rfl sending fun sends => (by cases sends)
  | attempted sending => exact judges_sent false judges rfl rfl rfl sending fun sends =>
      ⟨rfl, sends⟩
  | erred error reading unconfirmed =>
    exact judges_erred judges fun proves => unconfirmed (refused_of_proves judges proves)
  | drained c current count events passes =>
    exact kept (drains_routine i passes) rfl id judges.unwatched rfl
  | overrun c current count events passes =>
    refine kept (fun event member => ?_) rfl id lonely rfl
    rcases List.mem_cons.mp member with closed | read
    · rw [closed]
      exact .closed c.id
    · exact drains_routine i passes event read
  | timeoutArmed delay => exact kept (by simp) rfl id judges.unwatched rfl
  | timeoutEnded past => exact kept (by simp) rfl id judges.unwatched rfl

/-- An inner step keeps the record of the evidence. -/
theorem seatInnerStep_judges {s s' : Seat} (judges : s.Judges i)
    (udp : (gen.conf i).checkType = .udp)
    (move : SeatInnerStep gen i s s') : s'.Judges i := by
  have lonely : ∀ c, (none : Option Connection) = some c → ¬ c.Watched :=
    fun _ held => (by cases held)
  -- Most inner steps leave the probe and the history.
  have kept : s'.history = s.history → s'.peer.probe = s.peer.probe → s'.Judges i := by
    intro history probe
    refine judges_quiet [] judges history (by simp) ?_ ?_ ?_ ?_ ?_ ?_ ?_
    all_goals rw [probe]
    · exact id
    · exact judges.unwatched
    · exact id
    · exact id
  cases move with
  | stopped below =>
    unfold Seat.stop
    dsimp only
    split
    · exact judges_quiet _ judges rfl (closing_quiet _) rfl id lonely (fun runs => (by cases runs))
        (fun waits => (by cases waits)) rfl rfl
    · exact judges_quiet [] judges rfl (by simp) rfl id judges.unwatched id id rfl rfl
  | handled probe events step => exact step_judges judges udp step
  | connected before error startTime how active confirmed =>
    cases startTime with
    | none =>
      exact judges_quiet _ judges rfl
        (fun event member => routine_quiet (connects_routine i how none event member)) rfl id lonely
        id id rfl rfl
    | some time =>
      refine judges_quiet _ judges rfl (fun event member =>
        routine_quiet (connects_routine i how (some (s.opened, time)) event member)) rfl id
        (fun c held => ?_) id id rfl rfl
      cases held
      rintro (read | write)
      · cases read
      · cases write
  | prepared deadline tcp =>
    rw [udp] at tcp
    cases tcp
  | waited => exact judges_quiet [] judges rfl (by simp) rfl id judges.unwatched id id rfl rfl
  | settled check =>
    exact judges_quiet [] judges rfl (by simp) rfl id judges.unwatched id
      (fun waits => (by cases waits)) rfl rfl
  | _ => exact kept rfl rfl

/-- A claim starts a round in which nothing happened yet. -/
theorem claimed_judges {s : Seat} {started : Nat} {next : PeerState} (judges : s.Judges i)
    (pending : s.peer.probe.round.pending = false) : (s.claimed gen i started next).Judges i := by
  -- A claim starts without evidence and without a datagram.
  have none : sinceClaim i (s.claimed gen i started next).history = [] :=
    sinceClaim_claimed i next.deadline _ s.history
  have newly : newest (IoEvent.claim i) (s.claimed gen i started next).history =
      some next.deadline := by
    simp [Seat.claimed, IoEvent.claim]
  refine ⟨⟨fun tried => (by cases tried), ?_⟩, fun _ member => ?_, judges.unwatched, ?_, .inl newly,
    fun waits => ?_, ?_, ?_, ?_⟩
  · rintro ⟨whole, member⟩
    rw [none] at member
    cases member
  · rw [none] at member
    cases member
  · rintro _ ⟨silent, _⟩
    simp [IoEvent.claim] at silent
  · change s.peer.probe.round.pending = true at waits
    rw [pending] at waits
    cases waits
  · exact Trace.along_cons.mpr ⟨fun _ same => (by cases same), judges.judged⟩
  · refine Trace.ahead_cons convicts_grows (fun proves => ?_) judges.convicts
    obtain ⟨_, _, same, _⟩ := proves
    cases same
  · exact Trace.along_cons.mpr ⟨fun same => (by cases same), judges.once⟩

/-- The end of a round, after what led to its outcome: the verdict is a failure exactly when there
is evidence, which it then follows at once. -/
theorem frozen_judges {s : Seat} {events : List IoEvent} {label error : Option Errno}
    {result : Bool} {delay : Option Nat} {reason source : String} (judges : s.Judges i)
    (silent : ∀ event ∈ events, event.claim i = none) (unsent : ∀ whole, .sent i whole ∉ events)
    (judged : Trace.Along (Judged i) (events ++ s.history))
    (once : Trace.Along (SentOnce i) (events ++ s.history))
    (verdict : result = false ↔ Evidence i (events ++ s.history))
    (convicts : Trace.Ahead (Convicts i) (.finished i result :: (events ++ s.history))) :
    ((s.note events label).frozen i result delay reason source error).Judges i := by
  -- The verdict agrees with the evidence, and nothing is sent after it.
  have sampled : ∀ event ∈ s.peer.probe.sampling i delay, event.quiet = true := by
    intro event member
    obtain ⟨_, _, _, _, same⟩ := mem_sampling i member
    rw [same]
    rfl
  have history : ((s.note events label).frozen i result delay reason source error).history =
      s.peer.probe.sampling i delay ++ .finished i result :: (events ++ s.history) := by
    show (s.peer.probe.sampling i delay ++ [.finished i result]) ++ (events ++ s.history) = _
    rw [List.append_assoc]
    rfl
  have sent : ∀ whole, IoEvent.sent i whole ∈ sinceClaim i
      ((s.note events label).frozen i result delay reason source error).history ↔
        IoEvent.sent i whole ∈ sinceClaim i s.history := by
    intro whole
    rw [history, sent_quiet sampled]
    have finished : IoEvent.sent i whole ∈
        sinceClaim i ([.finished i result] ++ (events ++ s.history)) ↔
          IoEvent.sent i whole ∈ sinceClaim i (events ++ s.history) :=
      sent_append (by simp [IoEvent.claim]) (by simp)
    exact finished.trans (sent_append silent (unsent whole))
  have finished : Trace.Along (Judged i) (.finished i result :: (events ++ s.history)) ∧
      Trace.Along (SentOnce i) (.finished i result :: (events ++ s.history)) := by
    refine ⟨Trace.along_cons.mpr ⟨fun result' same => ?_, judged⟩,
      Trace.along_cons.mpr ⟨fun same => (by cases same), once⟩⟩
    cases same
    exact verdict
  obtain ⟨judged', convicts', once'⟩ := laws_quiet sampled finished.1 convicts finished.2
  rw [← history] at judged' convicts' once'
  have claims : newest (IoEvent.claim i)
      ((s.note events label).frozen i result delay reason source error).history =
        newest (IoEvent.claim i) s.history := by
    rw [history, newest_append fun event member => quiet_claim (sampled event member), newest_cons,
      newest_append silent]
    rfl
  have verdicts : newest (IoEvent.verdict i)
      ((s.note events label).frozen i result delay reason source error).history = some result := by
    rw [history, newest_append fun event member => quiet_verdict (sampled event member),
      newest_cons]
    simp [IoEvent.verdict]
  refine ⟨judges.attempted.trans (exists_congr fun whole => (sent whole).symm),
    fun sends member => ?_,
    judges.unwatched, fun runs => (by cases runs), ?_, fun _ => verdicts, judged', convicts', once'⟩
  · exact judges.sending sends ((sent true).mp member)
  · rw [claims]
    exact judges.deadline.imp_right fun unclaimed => ⟨unclaimed.1, rfl⟩

/-- A round that ends as a success, after notes that are no evidence. -/
theorem succeeded_judges {s : Seat} {events : List IoEvent} {label error : Option Errno}
    {delay : Option Nat} {reason source : String} (judges : s.Judges i)
    (active : s.peer.probe.round.active = true) (quiet : ∀ event ∈ events, event.quiet = true) :
    ((s.note events label).frozen i true delay reason source error).Judges i := by
  -- A running round has no evidence yet, and the notes bring none.
  obtain ⟨judged, convicts, once⟩ :=
    laws_quiet quiet judges.judged judges.convicts judges.once
  refine frozen_judges judges (fun event member => quiet_claim (quiet event member))
    (fun whole member => by cases quiet _ member) judged once ?_ ?_
  · exact ⟨fun fails => (by cases fails), fun evidence =>
      absurd ((evidence_quiet quiet).mp evidence) (judges.unproven active)⟩
  · refine Trace.ahead_cons convicts_grows (fun proves => ?_) convicts
    obtain ⟨_, _, same, _⟩ := proves
    cases same

/-- A claim, a finish or a submission keeps the record of the evidence. -/
theorem seatAtomicStep_judges {s s' : Seat} (judges : s.Judges i)
    (udp : (gen.conf i).checkType = .udp) (move : SeatAtomicStep gen i s s') : s'.Judges i := by
  cases move with
  | inner s' move => exact seatInnerStep_judges judges udp move
  | allocated => exact judges_quiet [] judges rfl (by simp) rfl id judges.unwatched id id rfl rfl
  | claimed started next running active pending deadline => exact claimed_judges judges pending
  | froze result delay reason source error label events noted active idle sample =>
    cases noted with
    | plain result why =>
      cases why with
      | success => exact succeeded_judges judges active (by simp)
      | unprepared tcp none => exact absurd udp tcp
    | expired now =>
      rw [decide_eq_true udp]
      exact succeeded_judges judges active (by simp [IoEvent.quiet])
    | unclocked =>
      rw [decide_eq_true udp]
      exact succeeded_judges judges active (by simp [IoEvent.quiet])
    | refused t evidence served =>
      -- The evidence and the verdict that follows it come together.
      have proves := proves_of_refused judges active evidence
      have earlier : Trace.Ahead (Convicts i)
          ([.finished i false, .udpError i .econnrefused (some t)] ++ s.history) := by
        refine Trace.ahead_append convicts_grows _ (fun newer event older split => ?_)
          judges.convicts
        rcases newer with _ | ⟨first, _ | ⟨second, rest⟩⟩
        · cases split
          rintro ⟨_, _, same, _⟩
          cases same
        · cases split
          exact fun _ => ⟨[], rfl⟩
        · simp at split
      refine frozen_judges judges (by simp [IoEvent.claim]) (by simp) ?_ ?_ ?_ earlier
      · exact Trace.along_cons.mpr ⟨fun _ same => (by cases same), judges.judged⟩
      · exact Trace.along_cons.mpr ⟨fun same => (by cases same), judges.once⟩
      · exact ⟨fun _ => ⟨rfl, .inl proves⟩, fun _ => rfl⟩
    | peeked c passed current watched => exact absurd watched (judges.unwatched c current)
  | submitted result rc =>
    exact judges_quiet [_] judges rfl
      (by simp [IoEvent.quiet]) rfl id judges.unwatched id id rfl rfl
  | rang runtime stopping cleaned check timeout =>
    exact judges_quiet [] judges rfl (by simp) rfl id judges.unwatched id id rfl rfl

end Keep

section Rule

variable {gen : Generation} {me : Nat} {start : Sys → Prop} {between : Sys → Sys → Prop} {s : Sys}

/-- A process that starts has judged nothing. -/
theorem start_judges (i worker : Nat) : (Seat.start worker).Judges i := by
  -- There is no history.
  refine ⟨⟨fun tried => (by cases tried), ?_⟩, fun sends => (by cases sends),
    fun _ held => (by cases held), fun runs => (by cases runs), .inr ⟨rfl, rfl⟩,
    fun waits => (by cases waits), Trace.along_nil _, Trace.ahead_nil _, Trace.along_nil _⟩
  rintro ⟨_, member⟩
  cases member

/-- The evidence rule, in every life of a process: a UDP round is frozen as a failure exactly when
the peer refused a datagram of the round before the deadline its claim fixed, which ends the round
at once; the deadline stays, and at most one datagram goes out. -/
theorem evidence_rule (life : Life gen me start between s) (i : Nat)
    (udp : (gen.conf i).checkType = .udp) :
    (∀ newer result older, (s.procs me).history i = newer ++ .finished i result :: older →
      (result = false ↔ Evidence i older)) ∧
    (∀ newer event older, (s.procs me).history i = newer ++ event :: older →
      Proves i event older → ∃ rest, newer = rest ++ [.finished i false]) ∧
    (((s.procs me).round i).pending = true →
      newest (IoEvent.verdict i) ((s.procs me).history i) =
        some ((s.procs me).round i).result) ∧
    (((s.procs me).round i).active = true →
      newest (IoEvent.claim i) ((s.procs me).history i) =
        some ((s.procs me).round i).deadline) ∧
    ∀ newer older, (s.procs me).history i = newer ++ .sent i true :: older →
      .sent i true ∉ sinceClaim i older := by
  -- The invariant along the life.
  have judges : ((s.procs me).seat i).Judges i :=
    life_seat (start_judges i) (fun reached move => seatAtomicStep_judges reached udp move) life
  refine ⟨fun newer result older split => ?_, judges.convicts, judges.result, fun runs => ?_,
    fun newer older split => ?_⟩
  · exact judges.judged newer _ older split result rfl
  · rcases judges.deadline with claimed | ⟨_, ended⟩
    · exact claimed
    · change ((s.procs me).round i).active = false at ended
      rw [runs] at ended
      cases ended
  · exact judges.once newer _ older split rfl

/-- A generation whose peers are checked by one UDP datagram. -/
def udpSample : Generation :=
  { sample with
    conf := fun _ => { sampleConf with checkType := .udp, send := [0] }
    coherent := fun _ => by constructor <;> decide }

/-- A worker whose datagram is refused at once. -/
def refusedLife : Option Sys :=
  lived udpSample 0 (fun _ => quietAt 1000)
    [(.checkTimer 0, fun _ =>
        { quietAt 4000 with connect := .ok, flag := true, eventOk := true, result := 1 }),
      (.readEvent 0, fun _ => { quietAt 4001 with socketError := some .econnrefused })]
    (fresh udpSample)

/-- The events that lead to the verdict on the refused datagram, newest first. -/
def refusal : List IoEvent :=
  [.udpError 0 .econnrefused (some 4001000000), .sent 0 true, .established 0 0 0, .connecting 0,
    .confirmed 0, .claimed 0 5000 none]

/-- A refused datagram finishes its round with a failure. -/
theorem evidence_rule_refused : ∃ s, refusedLife = some s ∧
    (s.procs 0).history 0 =
      [.closed 0 0, .submitted 0 false .ok] ++ .finished 0 false :: refusal ∧
    Evidence 0 refusal := by
  -- The history is computed, and the theorem finds the evidence in it.
  have noted : (refusedLife.map fun s => (s.procs 0).history 0) = some
      ([.closed 0 0, .submitted 0 false .ok] ++ .finished 0 false :: refusal) := by decide +kernel
  obtain ⟨s, ran, history⟩ := Option.map_eq_some_iff.mp noted
  exact ⟨s, ran, history, ((evidence_rule (life_lived ran) 0 rfl).1 _ false refusal history).mp rfl⟩

end Rule

end Healthcheck
