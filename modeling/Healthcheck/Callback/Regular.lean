import Healthcheck.Callback.Patrol
import Healthcheck.System.Standing

/-!
Progress of the regular rounds. A peer that waits for its next round gets one from the timer that
its process has armed for it, however the other processes run meanwhile.
-/

namespace Healthcheck

open Program

section Way

variable {gen : Generation} {i early : Nat} {seen : PeerState} {w w' : World}

/-- A process on the way to a peer of its own, which was seen waiting for a round that is due. -/
structure Due (gen : Generation) (i : Nat) (seen : PeerState) (early : Nat) (w : World) :
    Prop extends Onward gen i seen early w where
  own : seen.worker = w.self.runtime.worker ∧ (seen.inst = 0 ∨ seen.inst = w.self.runtime.inst)
  free : seen.phase = .initial ∨ seen.phase = .waiting
  due : seen.started = 0 ∨ addTime seen.started (gen.conf i).checkInterval ≤ milliseconds early
  room : seen.round ≠ uint64Max ∧ (seen.inst = 0 → seen.term = 0)

/-- A round that is due stays due along round steps. -/
theorem due_roundSteps (due : Due gen i seen early w) (run : RoundSteps gen w w') :
    Due gen i seen early w' := by
  -- The process keeps its number and its instance; the rest is about what was seen.
  obtain ⟨onward, worker, inst, _⟩ := onward_roundSteps due.toOnward run
  refine ⟨onward, ?_, due.free, due.due, due.room⟩
  rw [worker, inst]
  exact due.own

/-- The test of a regular claim passes for a peer that is due as it was seen. -/
theorem claimTest_due {runtime : Runtime} {activatedAt started : Nat}
    (own : seen.worker = runtime.worker ∧ (seen.inst = 0 ∨ seen.inst = runtime.inst))
    (free : seen.phase = .initial ∨ seen.phase = .waiting)
    (due : seen.started = 0 ∨ addTime seen.started (gen.conf i).checkInterval ≤ started)
    (room : seen.round ≠ uint64Max ∧ (seen.inst = 0 → seen.term = 0)) :
    (claimTest gen i runtime none activatedAt started seen).1 = .ok := by
  -- None of the refusals applies, in the order in which the claim tests them.
  have mine : ¬ (seen.worker ≠ runtime.worker ∨ (seen.inst ≠ 0 ∧ seen.inst ≠ runtime.inst)) := by
    tauto
  have waits : ¬ (seen.phase ≠ .initial ∧ seen.phase ≠ .waiting) := by tauto
  have reached : ¬ (seen.started ≠ 0 ∧
      started < addTime seen.started (gen.conf i).checkInterval) := by omega
  have counted : ¬ (seen.round = uint64Max ∨
      ((seen.worker ≠ runtime.worker ∨ seen.inst ≠ runtime.inst) ∧ seen.term = uint64Max)) := by
    rintro (last | ⟨foreign, last⟩)
    · exact room.1 last
    · have fresh : seen.inst = 0 := by tauto
      rw [room.2 fresh] at last
      cases last
  simp only [claimTest, if_neg mine, if_neg waits, if_neg reached, if_neg counted]

/-- The regular claim of the peer as it was seen. -/
theorem relieves_regular (due : Due gen i seen early w)
    (idle : (w.self.round i).active = false ∧ (w.self.round i).pending = false) :
    byRounds gen (claim gen i none 0) (fun _ w' => Relieved i seen w') w := by
  refine relieves_claim due.toOnward (.inl rfl) idle fun w' run t late => ?_
  have onway := due_roundSteps due run
  -- The clock does not run back, so a round that was due is due at the claim.
  have later : milliseconds early ≤ milliseconds t := Nat.div_le_div_right late
  exact claimTest_due onway.own onway.free (onway.due.imp id fun before => before.trans later)
    onway.room

/-- The check timer of an idle peer that is due. -/
theorem relieves_begin (due : Due gen i seen early w)
    (idle : (w.self.round i).active = false ∧ (w.self.round i).pending = false) :
    byRounds gen (begin gen i) (fun _ w' => Relieved i seen w') w := by
  unfold begin
  refine byRounds_then (byInner_stopping (fun w' run stops => along_ite (fun _ => along_pure ?_)
    fun goes => absurd rfl goes) fun pos running => along_ite (fun stops => ?_) fun _ => ?_)
  · refine fun goes => ?_
    rw [stops] at goes
    cases goes
  · cases stops
  have went : RoundSteps gen w (w.passed [] pos w.locks) := .single (.inner _ (.passed _ _ _))
  have onway := due_roundSteps due went
  have quiet : ((w.passed [] pos w.locks).self.round i).active = false ∧
      ((w.passed [] pos w.locks).self.round i).pending = false := by
    rw [passed_round]
    exact idle
  refine byRounds_then (byInner_self (along_ite (fun busy => ?_) fun _ => ?_))
  · obtain ⟨_, active | pending⟩ := busy
    · rw [← Proc.round, quiet.1] at active
      cases active
    · rw [← Proc.round, quiet.2] at pending
      cases pending
  -- The claim leaves the peer further on; what follows it only sets the timers.
  refine along_bind (wp_mono (wp_and (byRounds_steady onway.steady (along_mono byRounds_claim
    fun _ _ _ entered after => And.intro entered after)) (relieves_regular onway quiet)) ?_)
  rintro ⟨rc, wait⟩ w' ⟨⟨run, entered, steady⟩, _, relieved⟩
  refine ⟨run, ?_⟩
  have after := (due_roundSteps onway run).toOnward
  have arms : ∀ delay, byRounds gen (armCheck gen i delay) (fun _ w' => Relieved i seen w') w' :=
    fun delay => relieves_once after relieved
      (byRounds_of_inner (byInner_armCheck fun _ _ _ => trivial))
  cases rc with
  | ok => exact along_pure relieved
  | declined =>
    have past : (w'.self.round i).active = false :=
      entered.idle (fun declined => by cases declined) quiet.1
    exact relieves_once after relieved
      (byRounds_of_inner (byInner_forget steady past (entered.declined rfl rfl)))
  | again => exact arms _
  | error => exact arms _

end Way

section Life

variable {gen : Generation} {me i early : Nat} {root : Sys} {w w' : World}

/-- A process is idle at a peer of its own that waits for its next round. -/
theorem life_free (initial : Initial gen root) (life : WorkerLife gen me root w.sys)
    (mine : w.me = me) (listed : w.self.runtime.registered = true)
    (own : (w.sys.record i).worker = w.self.runtime.worker ∧
      ((w.sys.record i).inst = 0 ∨ (w.sys.record i).inst = w.self.runtime.inst))
    (free : (w.sys.record i).phase = .initial ∨ (w.sys.record i).phase = .waiting) :
    (w.self.round i).active = false ∧ (w.self.round i).pending = false := by
  have run := (life_steps life).1
  have settled : Settled w.sys := settled_steps (settled_initial initial) run
  have standing : Standing gen w.sys i := standing_reachable initial run
  have consistent := settled.sound.consistent i
  subst mine
  have idle : ¬ (((w.sys.core w.me).rounds i).active = true ∨
      ((w.sys.core w.me).rounds i).pending = true) := by
    intro busy
    have claimed := consistent.busy w.me busy
    have within := consistent.number w.me
    rcases own with ⟨worker, fresh | inst⟩
    · -- Nobody has claimed the peer yet.
      have none := consistent.inst.mp fresh
      omega
    · -- The record would stand for a round that is open.
      have named := settled.acknowledged i w.me listed worker inst
      rcases standing.opened w.me busy named with preparing | inflight
      · rw [preparing] at free
        simp at free
      · rw [inflight] at free
        simp at free
  rw [not_or, Bool.not_eq_true, Bool.not_eq_true] at idle
  exact idle

/-- A check timer that is armed calls `begin`. -/
theorem wp_checkTimer {post : Unit → World → Prop}
    (armed : (w.self.peers i).checkEv.isSome = true)
    (holds : wp (begin gen i) post (w.setSelf (w.self.disarm i))) :
    wp ((Callback.checkTimer i).run gen) post w := by
  -- The timer is armed, so the round is begun.
  unfold Callback.run disarmCheck
  rw [wp_bind, wp_self, wp_ite, wp_bind, wp_modifyPeer, wp_pure]
  exact ⟨fun _ => holds, fun idle => absurd armed idle⟩

/-- The regular rounds go on. When the check timer of a peer calls back its process, be it the one
that the record names or the worker that a peer without a round belongs to, after the interval of
the last round and in an environment that lets the process work, a next round has begun, unless the
process stops or loses its registration. -/
theorem round_begins (initial : Initial gen root) (life : WorkerLife gen me root w.sys)
    (mine : w.me = me) (listed : w.self.runtime.registered = true)
    (own : (w.sys.record i).worker = w.self.runtime.worker ∧
      ((w.sys.record i).inst = 0 ∨ (w.sys.record i).inst = w.self.runtime.inst))
    (free : (w.sys.record i).phase = .initial ∨ (w.sys.record i).phase = .waiting)
    (due : (w.sys.record i).started = 0 ∨
      addTime (w.sys.record i).started (gen.conf i).checkInterval ≤ milliseconds early)
    (room : (w.sys.record i).round ≠ uint64Max) (armed : (w.self.peers i).checkEv.isSome = true)
    (smooth : Smooth w.script early)
    (others : ∀ n s, OtherSteps gen me s ((w.script n).others s))
    (returned : (Callback.checkTimer i).run gen w = some ((), w'))
    (goes : w'.self.runtime.stopping = false) (registration : Registered w'.sys w'.self) :
    (w.sys.record i).round < (w'.sys.record i).round := by
  have idle := life_free initial life mine listed own free
  have sound : Sound w.sys :=
    (settled_steps (settled_initial initial) (life_steps life).1).sound
  have onward : Onward gen i (w.sys.record i) early (w.setSelf (w.self.disarm i)) := by
    refine life_onward initial life mine listed rfl rfl ?_ (fun steady => steady_disarm steady i)
      others smooth
    exact quieter_setPeer _ (Round.Quieter.refl _)
  have begins : Due gen i (w.sys.record i) early (w.setSelf (w.self.disarm i)) := by
    refine ⟨onward, ?_, free, due, room, fun fresh => ?_⟩
    · rw [self_setSelf]
      exact own
    · exact (sound.consistent i).term.mpr ((sound.consistent i).inst.mp fresh)
  have quiet : ((w.setSelf (w.self.disarm i)).self.round i).active = false ∧
      ((w.setSelf (w.self.disarm i)).self.round i).pending = false := by
    rw [self_setSelf, Proc.disarm, Proc.round, setPeer_peers]
    exact idle
  have relieved := (wp_checkTimer armed (relieves_begin begins quiet) () w' returned).2
  have further := relieved goes registration
  have after : Sound w'.sys := (settled_steps (settled_initial initial)
    (life_steps (.called (.checkTimer i) w w' mine life others returned)).1).sound
  -- Nothing comes after a round but the next one.
  have least := place_le (w'.sys.record i).phase
  rcases free with unclaimed | submitted
  · rw [(sound.consistent i).initial.mp unclaimed, Nat.pos_iff_ne_zero]
    intro none
    rw [PeerState.progress, PeerState.progress, none,
      (after.consistent i).initial.mpr none] at further
    simp [Phase.place] at further
  · rw [PeerState.progress, PeerState.progress, submitted, Phase.place] at further
    omega

/-- A worker whose first round succeeded; its check timer calls back much later. -/
def begunLife : Option Sys :=
  keptLife.bind fun s => callAll sample 0 [(.checkTimer 0, fun _ => quietAt 100000)] s

/-- The second round of a peer. -/
theorem round_begins_second : ∃ s s', keptLife = some s ∧ begunLife = some s' ∧
    (s.record 0).phase = .waiting ∧ (s.record 0).round = 1 ∧ 1 < (s'.record 0).round := by
  -- The first round is over, and its interval has passed.
  have before : (keptLife.map fun s => ((s.procs 0).runtime.registered,
      ((s.procs 0).peers 0).checkEv.isSome, (s.procs 0).runtime.worker,
      (s.procs 0).runtime.inst)) = some (true, true, 0, 1) := by decide +kernel
  have past : (keptLife.map fun s => ((s.record 0).worker, (s.record 0).inst,
      (s.record 0).phase, (s.record 0).started, (s.record 0).round)) =
      some (0, 1, .waiting, 4000, 1) := by decide +kernel
  have after : (begunLife.map fun s => ((s.procs 0).runtime.stopping,
      decide ((s.slot (s.procs 0).runtime.worker).inst = (s.procs 0).runtime.inst),
      (s.slot (s.procs 0).runtime.worker).exiting,
      decide ((s.slot (s.procs 0).runtime.worker).pid = (s.procs 0).pid))) =
      some (false, true, false, true) := by decide +kernel
  obtain ⟨s, kept, state⟩ := Option.map_eq_some_iff.mp before
  obtain ⟨s', begun, ended⟩ := Option.map_eq_some_iff.mp after
  rw [kept] at past
  obtain ⟨listed, armed, number, own⟩ : _ ∧ _ ∧ _ ∧ _ := by simpa using state
  obtain ⟨worker, inst, phase, started, round⟩ : _ ∧ _ ∧ _ ∧ _ ∧ _ := by simpa using past
  obtain ⟨goes, mine, leaving, pid⟩ : _ ∧ _ ∧ _ ∧ _ := by simpa using ended
  refine ⟨s, s', kept, begun, phase, round, ?_⟩
  rw [begunLife, kept, Option.bind_some, callAll, Option.bind_eq_some_iff] at begun
  obtain ⟨⟨_, w⟩, returned, rest⟩ := begun
  cases rest
  have life : WorkerLife sample 0 (fresh sample) s := by
    refine worker_lived .refl rfl (fun _ => rfl) (fun call member n => ?_) kept
    simp only [List.mem_cons, List.not_mem_nil, or_false] at member
    rcases member with rfl | rfl
    · rfl
    · rfl
  have same : w.sys.procs 0 = w.self :=
    self_mine (life_callback rfl life (fun _ _ => .refl) returned).2.me
  rw [same] at goes mine leaving pid
  have interval : addTime (s.record 0).started (sample.conf 0).checkInterval ≤
      milliseconds 100000000000 := by
    rw [started]
    decide
  rw [← round]
  exact round_begins (w := { sys := s, me := 0, script := fun _ => quietAt 100000 })
    (fresh_initial sample) life rfl listed ⟨worker.trans number.symm, .inr (inst.trans own.symm)⟩
    (.inr phase) (.inr interval) (by rw [round]; decide) armed smooth_quietAt (fun _ _ => .refl)
    returned goes ⟨mine, leaving, pid⟩

end Life

end Healthcheck
