import Healthcheck.Runtime.PrimitiveLaws
import Healthcheck.Status.PageLaws
import Healthcheck.Status.Wait

/-!
The lines of a waiting request are truthful and throttled: its state is a meter of waiting at the
places of the collection, which never goes back.
-/

namespace Healthcheck

open Throttle

/-- The meter that a waiting request keeps. -/
def Waiting.meter (w : Waiting) : Meter (Nat ×ₗ Nat) :=
  { started := w.started, place := toLex (w.waitingModule, w.waitingPeer), next := w.nextLog }

/-- The peer a line is about. -/
def Diagnostic.place (d : Diagnostic) : Nat ×ₗ Nat :=
  toLex (d.group, d.peer)

/-- The report that a line makes. -/
def Diagnostic.report (d : Diagnostic) : Report (Nat ×ₗ Nat) :=
  { place := d.place, elapsed := d.elapsedMs, time := d.time }

/-- A reading in milliseconds is far from the end of its range. -/
theorem milliseconds_room {answer : Resumption} {now : Nat}
    (read : answer.milliseconds = some now) : now + 5000 ≤ uint64Max := by
  -- A reading of the clock is far below the largest number.
  obtain ⟨ts, _, valid⟩ := Option.bind_eq_some_iff.mp read
  split at valid
  · cases valid
  · cases valid
    have small := now_le ts
    have parts := Nat.div_mul_le_self (addTime (mulTime ts.sec.toNat 1000000000) ts.nsec) 1000000
    unfold milliseconds
    unfold uint64Max at *
    omega

/-- A sum in range is exact. -/
theorem addTime_exact {a b : Nat} (room : a + b ≤ uint64Max) : addTime a b = a + b :=
  -- The sum does not reach the limit.
  (Saturating.add_eq_min (by omega)).trans (Nat.min_eq_left room)

variable {w : Waiting} {c : Collector} {now : Nat}

/-- An arrival is one of the meter, at a warning time that does not saturate. -/
theorem arrive_meter (room : now + 5000 ≤ uint64Max) :
    (w.arrive c.module (c.snapshots c.module).next now).meter =
      w.meter.arrive statusWarnMs c.place now := by
  -- The place is the old one or a new one.
  have exact_sum : addTime now statusWarnMs = now + statusWarnMs :=
    addTime_exact (by unfold statusWarnMs; omega)
  unfold Waiting.arrive Meter.arrive Waiting.meter Collector.place
  have same : (w.started = 0 ∨ toLex (w.waitingModule, w.waitingPeer) ≠
      toLex (c.module, (c.snapshots c.module).next)) ↔
        (w.started = 0 ∨ w.waitingModule ≠ c.module ∨
          w.waitingPeer ≠ (c.snapshots c.module).next) := by
    rw [ne_eq, toLex_inj, Prod.mk.injEq, not_and_or]
  by_cases new : w.started = 0 ∨ w.waitingModule ≠ c.module ∨
      w.waitingPeer ≠ (c.snapshots c.module).next
  · rw [if_pos new, if_pos (same.mpr new), exact_sum]
  · rw [if_neg new, if_neg fun other => new (same.mp other)]

/-- A settlement is one of the meter, at a line time that does not saturate. -/
theorem settle_meter (room : now + 5000 ≤ uint64Max) :
    (w.settle now).meter = w.meter.settle statusLogMs now := by
  -- The line is due or not.
  have exact_sum : addTime now statusLogMs = now + statusLogMs :=
    addTime_exact (by unfold statusLogMs; omega)
  unfold Waiting.settle Meter.settle
  by_cases late : now ≥ w.nextLog
  · rw [if_pos late, if_pos (show w.meter.next ≤ now from late), exact_sum]
    rfl
  · rw [if_neg late, if_neg (show ¬ w.meter.next ≤ now from late)]

/-- The line that is due is the meter's report. -/
theorem due_report (module : Nat → Nat) (holder : Int) (here : w.meter.place = c.place) :
    (w.due module c holder now).toList.map Diagnostic.report =
      (w.meter.due now).toList := by
  -- The line is due for both or for none.
  unfold Waiting.due Meter.due
  by_cases late : now ≥ w.nextLog
  · rw [if_pos late, if_pos (show w.meter.next ≤ now from late), here]
    rfl
  · rw [if_neg late, if_neg (show ¬ w.meter.next ≤ now from late)]
    rfl

section Forward

variable {script : Nat → Reading}

/-- The groups that are left are collected from the current place on. -/
theorem collectLoop_forward (left remaining : Nat) (c : Collector)
    (success : (collectLoop script left remaining c).1 ≠ .error) :
    c.place ≤ (collectLoop script left remaining c).2.place := by
  -- Induction on the groups: the current one goes on, or the next one starts.
  induction left generalizing remaining c with
  | zero => exact le_rfl
  | succ left ih =>
    unfold collectLoop at success ⊢
    dsimp only at success ⊢
    have step := snapshotStep_advanced script c.module c.flag (c.sources c.module)
      (c.batch remaining)
    generalize snapshotStep script c.module c.flag (c.sources c.module) (c.batch remaining) = result
      at step success ⊢
    obtain ⟨outcome, batch'⟩ := result
    dsimp only at step success ⊢
    by_cases done : outcome = .ok
    · rw [if_neg (by simp [done])] at success ⊢
      refine le_trans ?_ (ih _ _ success)
      exact Prod.Lex.toLex_le_toLex.mpr (Or.inl (Nat.lt_succ_self _))
    · rw [if_pos done] at success ⊢
      obtain ⟨⟨new, advanced⟩, _⟩ := step success
      have next : (c.snapshots c.module).next ≤ batch'.snapshot.next := by
        rw [advanced.next]
        exact Nat.le_add_right _ _
      refine Prod.Lex.toLex_le_toLex.mpr (Or.inr ⟨rfl, ?_⟩)
      show _ ≤ ((c.put batch').snapshots c.module).next
      rwa [show (c.put batch').snapshots c.module = batch'.snapshot from Function.update_self ..]

/-- A collection only goes forward. -/
theorem collect_forward (c : Collector) (success : (collect script c).1 ≠ .error) :
    c.place ≤ (collect script c).2.place :=
  collectLoop_forward _ _ c success

end Forward

section Run

variable {module : Nat → Nat} {script : Nat → Reading}

/-- What holds of a request between two events. -/
structure Request.Sound (r : Request) : Prop where
  known : Known statusWarnMs statusLogMs r.waiting.meter r.waits
    (r.diagnostics.map Diagnostic.report)
  ahead : r.state.1 ≠ .error → r.waits ≠ [] → r.waiting.meter.place ≤ r.state.2.place

/-- A wait keeps the meter true. -/
theorem requestWait_sound {answer : Resumption} {r : Request} (sound : r.Sound)
    (positive : ∀ now, answer.milliseconds = some now → now ≠ 0)
    (open_ : r.state.1 ≠ .error) : (requestWait module answer r).Sound := by
  -- The wait reads the clock once, or fails.
  obtain ⟨known, ahead⟩ := sound
  unfold requestWait
  split
  · exact ⟨known, fun success => absurd rfl success⟩
  split
  · dsimp only
    cases read : answer.milliseconds with
    | none => exact ⟨known, ahead⟩
    | some now =>
      have room := milliseconds_room read
      have forward : ∀ wait ∈ r.waits, r.waiting.meter.place ≤ r.state.2.place :=
        fun wait member => ahead open_ (List.ne_nil_of_mem member)
      have next := wait_known statusWarnMs statusLogMs known (positive now read) forward
      have here := (arrive_known statusWarnMs statusLogMs known (positive now read) forward).2
      have arrived := arrive_meter (w := r.waiting) (c := r.state.2) room
      constructor
      · dsimp only
        rw [settle_meter room, arrived, List.map_append,
          due_report module answer.holder (by rw [arrived]; exact here), arrived]
        exact next
      · intro _ _
        dsimp only
        rw [settle_meter room, arrived]
        have settled : ∀ m : Meter (Nat ×ₗ Nat), (m.settle statusLogMs now).place = m.place := by
          intro m
          unfold Meter.settle
          split <;> rfl
        rw [settled, here]
  · exact ⟨known, ahead⟩

/-- A resumption keeps the meter sound. -/
theorem requestResume_sound {answer : Resumption} {r : Request} (sound : r.Sound)
    (positive : ∀ now, answer.milliseconds = some now → now ≠ 0) :
    (requestResume module script answer r).Sound := by
  -- The batch first, then the wait.
  obtain ⟨known, ahead⟩ := sound
  unfold requestResume
  by_cases suspended : r.state.1 = .again ∨ r.state.1 = .busy
  · rw [if_pos suspended]
    have open_ : r.state.1 ≠ .error := by
      obtain again | busy := suspended
      · rw [again]
        decide
      · rw [busy]
        decide
    split
    · exact ⟨known, fun success => absurd rfl success⟩
    · dsimp only
      have collected : ({ r with state := collect script r.state.2 } : Request).Sound := by
        refine ⟨known, fun success some_wait => ?_⟩
        exact le_trans (ahead open_ some_wait) (collect_forward r.state.2 success)
      split
      · rename_i waits
        apply requestWait_sound collected positive
        obtain again | busy := waits
        · show (collect script r.state.2).1 ≠ .error
          rw [again]
          decide
        · show (collect script r.state.2).1 ≠ .error
          rw [busy]
          decide
      · exact collected
  · rw [if_neg suspended]
    exact ⟨known, ahead⟩

/-- The meter is sound after every resumption. -/
theorem runRequest_sound (module : Nat → Nat) (script : Nat → Reading) {answers : Nat → Resumption}
    (positive : ∀ k now, (answers k).milliseconds = some now → now ≠ 0) (c : Collector) (n : Nat) :
    (runRequest module script answers c n).Sound := by
  -- Induction on the resumptions.
  induction n with
  | zero => exact ⟨known_start statusWarnMs statusLogMs, fun _ none_yet => absurd rfl none_yet⟩
  | succ n ih => exact requestResume_sound ih (positive n)

/-- A line that is due names the module of the group it is about. -/
theorem due_named {holder : Int} {line : Diagnostic}
    (member : line ∈ (w.due module c holder now).toList) : line.module = module line.group := by
  -- A line is due or there is none.
  unfold Waiting.due at member
  split at member
  · cases List.mem_singleton.mp member
    rfl
  · cases member

/-- Every line of a request names the module of the group it is about. -/
theorem runRequest_named (module : Nat → Nat) (script : Nat → Reading)
    (answers : Nat → Resumption) (c : Collector) (n : Nat) :
    ∀ line ∈ (runRequest module script answers c n).diagnostics,
      line.module = module line.group := by
  -- Induction on the resumptions: a wait adds the line that is due, and nothing else adds any.
  induction n with
  | zero => simp [runRequest]
  | succ n ih =>
    have waits : ∀ (answer : Resumption) (r : Request),
        (∀ line ∈ r.diagnostics, line.module = module line.group) →
          ∀ line ∈ (requestWait module answer r).diagnostics, line.module = module line.group := by
      intro answer r before
      unfold requestWait
      split
      · exact before
      split
      · dsimp only
        cases answer.milliseconds with
        | none => exact before
        | some now =>
          intro line member
          rcases List.mem_append.mp member with due | earlier
          · exact due_named due
          · exact before line earlier
      · exact before
    unfold runRequest requestResume
    split
    · split
      · exact ih
      · dsimp only
        split
        · exact waits _ _ ih
        · exact ih
    · exact ih

end Run

/-- Whatever a status request meets, each of its lines names the module of its group, is written
when the request has waited for a second or more at the peer it names, counted from the first
contended read of that very peer, and gives that time; and there are five seconds between any two
lines. -/
theorem diagnostics_throttled (module : Nat → Nat) (script : Nat → Reading)
    (answers : Nat → Resumption) (count : Nat) (sources : Nat → Option Source) (flag n : Nat)
    (positive : ∀ k now, (answers k).milliseconds = some now → now ≠ 0) :
    (∀ line ∈ (runRequest module script answers (.init count sources flag) n).diagnostics,
      line.module = module line.group ∧ (line.place, line.time) ∈
          (runRequest module script answers (.init count sources flag) n).waits ∧
        ∃ first,
          firstWait (runRequest module script answers (.init count sources flag) n).waits
              line.place = some first ∧
            first + 1000 ≤ line.time ∧ line.elapsedMs = line.time - first) ∧
      (runRequest module script answers (.init count sources flag) n).diagnostics.Pairwise
        fun newer older => older.time + 5000 ≤ newer.time := by
  -- The law of the meter, read at the lines of the request.
  have sound := runRequest_sound module script positive (.init count sources flag) n
  constructor
  · intro line member
    exact ⟨runRequest_named module script answers _ n line member,
      sound.known.honest line.report (List.mem_map_of_mem member)⟩
  · exact List.pairwise_map.mp sound.known.apart

/-- A request that is resumed a second after its start. -/
def secondLater (k : Nat) : Resumption :=
  { gone := false, readable := true, holder := 7
    clock := some { sec := if k = 0 then 1 else 2, nsec := ⟨0, by decide⟩ } }

/-- The clock of the sample is never at zero. -/
theorem secondLater_positive (k now : Nat) (read : (secondLater k).milliseconds = some now) :
    now ≠ 0 := by
  -- The first reading is at one second, every later one at two.
  by_cases start : k = 0
  · subst start
    cases read
    decide
  · have later : (secondLater k).milliseconds = some 2000 := by
      simp only [secondLater, start, if_false]
      rfl
    rw [later] at read
    cases read
    decide

/-- A lock that stays taken is reported after a second, for a peer of the module that the group
belongs to. -/
theorem diagnostics_throttled_sample :
    ((runRequest (fun group => group + 3) (fun _ => { sampleReading with locked := false })
        secondLater (.init 1 (fun _ => some backendSource) 0) 2).diagnostics.map fun line =>
          (line.elapsedMs, line.peer)) = [(1000, 0)] ∧
    ∀ line ∈ (runRequest (fun group => group + 3) (fun _ => { sampleReading with locked := false })
        secondLater (.init 1 (fun _ => some backendSource) 0) 2).diagnostics,
      line.module = line.group + 3 :=
  -- The request is run by computation, and the theorem ties each line to its module.
  ⟨by rfl, fun line member => ((diagnostics_throttled (fun group => group + 3)
    (fun _ => { sampleReading with locked := false }) secondLater 1
      (fun _ => some backendSource) 0 2 secondLater_positive).1 line member).1⟩

end Healthcheck
