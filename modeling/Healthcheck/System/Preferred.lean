import Healthcheck.Library.Argmax
import Healthcheck.Runtime.Schedule
import Healthcheck.System.Run

/-!
The backup of a peer: all workers that see the same registrations choose the same one.
-/

namespace Healthcheck

open Program

/-- The reading of the clock that an answer gives. -/
def Answer.reading (answer : Answer) (t : Nat) : Prop :=
  ∃ ts, answer.clock = some ts ∧ ¬ ts.sec < 0 ∧
    t = addTime (mulTime ts.sec.toNat 1000000000) ts.nsec

/-- The registrations of a system. -/
def Sys.Shows (s : Sys) (workers : Nat) (table : Nat → WorkerState) : Prop :=
  ∀ number < workers, (s.shared.workers number).current = table number

/-- From here on every registration can be read before the limit, and stays as it is. -/
structure World.Readable (w : World) (workers limit : Nat) (table : Nat → WorkerState) :
    Prop where
  shows : w.sys.Shows workers table
  clock : ∀ k ≥ w.pos, ∃ t < limit, (w.script k).reading t
  free : ∀ k ≥ w.pos, (w.script k).lock = true
  others : ∀ k ≥ w.pos, ∀ s : Sys, s.Shows workers table →
    ((w.script k).others s).Shows workers table

/-- A process that is still the same one later. -/
def World.Later (w w' : World) : Prop :=
  w'.self.runtime = w.self.runtime

variable {workers limit : Nat} {table : Nat → WorkerState} {w : World}

/-- A world stays readable while its clock goes on. -/
theorem readable_passed (readable : w.Readable workers limit table) {pos : Nat}
    (forward : w.pos ≤ pos) (rs : List Nat) (locks : List LockEvent) :
    (w.passed rs pos locks).Readable workers limit table := by
  -- Later readings are among the earlier ones.
  obtain ⟨shows, clock, free, others⟩ := readable
  constructor
  · exact shows
  · exact fun k later => clock k (Nat.le_trans forward later)
  · exact fun k later => free k (Nat.le_trans forward later)
  · exact fun k later => others k (Nat.le_trans forward later)

/-- The clock is read before the limit. -/
theorem ends_now (readable : w.Readable workers limit table) :
    ends now (fun reading w' => (∃ t < limit, reading = some t) ∧
      w'.Readable workers limit table ∧ w.Later w') w := by
  -- The clock answers, and the answer is early enough.
  obtain ⟨t, early, ts, clock, valid, reading⟩ := readable.clock w.pos (Nat.le_refl _)
  unfold now
  rw [ends_bind, ends_ask, clock]
  dsimp only
  rw [if_neg valid]
  simp only [ends_bind, modifySelf, ends_change, ends_pure]
  refine ⟨⟨t, early, by rw [reading]⟩, ?_, ?_⟩
  · have later := readable_passed readable (Nat.le_succ w.pos) [t] w.locks
    simpa [World.passed, World.setSelf, World.self, Sys.setProc, reading] using later
  · simp [World.Later]

/-- The lock of a registration is taken. -/
theorem ends_lock (mutex : Mutex) (readable : w.Readable workers limit table) :
    ends (lock mutex limit) (fun rc w' => rc = .ok ∧ w'.Readable workers limit table ∧
      w.Later w') w := by
  -- The lock is free, and the deadline is not reached.
  unfold lock
  rw [ends_bind]
  refine ends_mono (ends_now readable) ?_
  rintro _ w' ⟨⟨t, early, rfl⟩, readable', later⟩
  dsimp only
  have timed : ¬ (if limit = 0 then addTime t lockNs else limit) ≤ t := by
    rw [if_neg (by omega)]
    omega
  rw [if_neg timed, ends_bind, ends_ask, if_pos (readable'.free w'.pos (Nat.le_refl _))]
  simp only [ends_bind, ends_change, ends_pure, true_and]
  constructor
  · have next := readable_passed readable' (Nat.le_succ w'.pos) []
      (.acquired mutex :: w'.locks)
    simpa [World.passed, World.self, Sys.setProc] using next
  · simpa [World.Later, World.passed, World.self, Sys.setProc] using later

/-- The slot of a candidate is read as it stands in the table. -/
theorem ends_readWorker {number : Nat} (inside : number < workers)
    (readable : w.Readable workers limit table) :
    ends (readWorker number limit) (fun candidate w' => candidate = some (table number) ∧
      w'.Readable workers limit table ∧ w.Later w') w := by
  -- The lock is taken, the slot is read, the lock is given back.
  unfold readWorker
  rw [ends_bind]
  refine ends_mono (ends_lock (.worker number) readable) ?_
  rintro _ w' ⟨rfl, readable', later⟩
  simp only [ends_bind, ends_read, unlock, ends_change, ends_pure]
  refine ⟨congrArg some (readable'.shows number inside), ?_, later⟩
  have next := readable_passed readable' (Nat.le_refl w'.pos) []
    (.released (.worker number) :: w'.locks)
  simpa [World.passed, World.self, Sys.setProc] using next

/-- Other processes may run in between and leave the table alone. -/
theorem ends_preempt (readable : w.Readable workers limit table) :
    ends preempt (fun _ w' => w'.Readable workers limit table ∧ w.Later w') w := by
  -- What the world does there keeps it readable.
  unfold preempt
  rw [ends_bind, ends_ask, ends_change]
  have forward := readable_passed readable (Nat.le_succ w.pos) [] w.locks
  obtain ⟨shows, clock, free, others⟩ := forward
  refine ⟨⟨?_, clock, free, others⟩, ?_⟩
  · exact readable.others w.pos (Nat.le_refl _) _ shows
  · simp [World.Later, World.self, Sys.setProc, World.passed]

variable {gen : Generation} {i time : Nat} {state : PeerState}

/-- The comparison with the best backup so far is a step of the pass. -/
theorem betterBackup_eq (number : Nat) (best : Nat × Nat) :
    betterBackup gen i state time number (some (table number)) best =
      Argmax.better gen.word.max (fun number => eligible gen state time number (table number))
        (score gen i) number best := rfl

/-- The worker that all registrations together make the backup. -/
def backup (gen : Generation) (i : Nat) (state : PeerState) (time : Nat)
    (table : Nat → WorkerState) (n : Nat) : Nat × Nat :=
  Argmax.scan gen.word.max 0 (fun number => eligible gen state time number (table number))
    (score gen i) n

/-- The loop continues the pass over the registrations. -/
theorem ends_preferredLoop (i time : Nat) (state : PeerState) {left : Nat}
    (bound : left ≤ gen.workers)
    (readable : w.Readable gen.workers limit table) :
    ends (preferredLoop gen i state time limit left
        (backup gen i state time table (gen.workers - left)))
      (fun chosen _ => chosen =
        decide ((backup gen i state time table gen.workers).1 = w.self.runtime.worker)) w := by
  -- Induction on the registrations that are still to be read.
  induction left generalizing w with
  | zero =>
    unfold preferredLoop
    simp only [ends_bind, ends_self, ends_pure, Nat.sub_zero]
  | succ left ih =>
    unfold preferredLoop
    rw [ends_bind]
    refine ends_mono (ends_now readable) ?_
    rintro _ clocked ⟨⟨t, early, rfl⟩, readable, later⟩
    dsimp only
    rw [if_neg (by omega), ends_bind]
    refine ends_mono (ends_preempt readable) ?_
    rintro _ preempted ⟨readable, later'⟩
    rw [ends_bind]
    refine ends_mono (ends_readWorker (by omega) readable) ?_
    rintro _ w' ⟨rfl, readable, later''⟩
    rw [betterBackup_eq]
    have next : gen.workers - left = gen.workers - (left + 1) + 1 := by omega
    have step := ih (by omega) readable
    rw [next] at step
    rw [show w.self.runtime = w'.self.runtime from
      (later''.trans (later'.trans later)).symm]
    exact step

/-- A worker chooses itself exactly when it is the one that all registrations together choose. -/
theorem ends_preferred (i time : Nat) (state : PeerState)
    (readable : w.Readable gen.workers limit table) :
    ends (preferred gen i state time limit)
      (fun chosen _ => chosen =
        decide ((backup gen i state time table gen.workers).1 = w.self.runtime.worker)) w := by
  -- The loop starts at the first worker.
  have whole := ends_preferredLoop i time state (Nat.le_refl gen.workers) readable
  rwa [Nat.sub_self] at whole

/-- A process that is registered in the table. -/
structure World.Evaluates (w : World) (gen : Generation) (number limit : Nat)
    (table : Nat → WorkerState) : Prop where
  worker : w.self.runtime.worker = number
  inst : w.self.runtime.inst = (table number).inst
  readable : w.Readable gen.workers limit table

/-- The process takes itself for the preferred backup. -/
def Chosen (gen : Generation) (i : Nat) (state : PeerState) (time limit : Nat) (w : World) :
    Prop :=
  ends (preferred gen i state time limit) (fun chosen _ => chosen = true) w

/-- The table has a worker of this number. -/
def Enlisted (gen : Generation) (table : Nat → WorkerState) (number : Nat) : Prop :=
  number < gen.workers ∧ (table number).inst ≠ 0

/-- A worker is chosen just when the search ends at it. -/
theorem chosen_iff (i time : Nat) (state : PeerState) {number : Nat}
    (evaluates : w.Evaluates gen number limit table) :
    Chosen gen i state time limit w ↔
      (backup gen i state time table gen.workers).1 = number := by
  -- The search ends with one outcome.
  have outcome := ends_preferred i time state evaluates.readable
  rw [evaluates.worker] at outcome
  constructor
  · rintro ⟨chosen, w', returned, yes⟩
    exact of_decide_eq_true ((wp_of_ends outcome chosen w' returned).symm.trans yes)
  · intro same
    exact ends_mono outcome fun chosen _ decided => decided.trans (decide_eq_true same)

/-- Only a registered worker is eligible, and not the owner on record. -/
theorem eligible_registered {number : Nat} {candidate : WorkerState}
    (fits : eligible gen state time number candidate = true) :
    candidate.inst ≠ 0 ∧ ¬ (number = state.worker ∧ candidate.inst = state.inst) := by
  -- An unused slot and the owner itself are excluded.
  unfold eligible at fits
  simp only [Bool.and_eq_true, decide_eq_true_eq, Bool.not_eq_true'] at fits
  refine ⟨fits.1.1.1.1, fun owner => ?_⟩
  have other := fits.1.1.2
  simp [owner.1, owner.2] at other

/-- If all registered workers evaluate the same table, state and time, then exactly one of them is
the preferred backup when any is eligible, and it is eligible itself; none is when none is
eligible, and the owner on record never is. -/
theorem preferred_unique (gen : Generation) (i : Nat) (state : PeerState) (time limit : Nat)
    (table : Nat → WorkerState) (worlds : Nat → World) (fits : gen.workers ≤ gen.word.max)
    (all : ∀ number, Enlisted gen table number →
      (worlds number).Evaluates gen number limit table) :
    (∀ number, Enlisted gen table number →
      ends (preferred gen i state time limit) (fun _ _ => True) (worlds number)) ∧
    ((∃ number < gen.workers, eligible gen state time number (table number) = true) →
      ∃ number, Enlisted gen table number ∧
        eligible gen state time number (table number) = true ∧
          ∀ other, Enlisted gen table other →
            (Chosen gen i state time limit (worlds other) ↔ other = number)) ∧
    ((¬ ∃ number < gen.workers, eligible gen state time number (table number) = true) →
      ∀ number, Enlisted gen table number →
        ¬ Chosen gen i state time limit (worlds number)) ∧
    ∀ number, Enlisted gen table number → number = state.worker →
      (worlds number).self.runtime.inst = state.inst →
        ¬ Chosen gen i state time limit (worlds number) := by
  have verdict := fun number registered =>
    chosen_iff i time state (all number registered)
  have outcome := Argmax.scan_spec gen.word.max 0
    (fun number => eligible gen state time number (table number)) (score gen i) fits
  have unique := Argmax.scan_unique gen.word.max 0
    (fun number => eligible gen state time number (table number)) (score gen i) fits
  refine ⟨?_, ?_, ?_, ?_⟩
  · intro number registered
    exact ends_mono (ends_preferred i time state (all number registered).readable)
      fun _ _ _ => trivial
  · intro any
    obtain ⟨number, below, fitting, only⟩ := unique any
    refine ⟨number, ⟨below, (eligible_registered fitting).1⟩, fitting, ?_⟩
    intro other registered
    rw [verdict other registered]
    exact only other
  · intro nobody number registered chosen
    obtain ⟨found, _⟩ | ⟨m, best, _⟩ := outcome
    · -- The sentinel is no worker's number.
      have same := (verdict number registered).mp chosen
      unfold backup at same
      rw [found] at same
      have below := registered.1
      dsimp only at same
      omega
    · exact nobody ⟨m, best.below, best.fitting⟩
  · rintro number registered rfl owner chosen
    have same := (verdict _ registered).mp chosen
    obtain ⟨found, _⟩ | ⟨m, best, found⟩ := outcome
    · unfold backup at same
      rw [found] at same
      have below := registered.1
      dsimp only at same
      omega
    · unfold backup at same
      rw [found] at same
      dsimp only at same
      rw [same] at best
      refine (eligible_registered best.fitting).2 ⟨rfl, ?_⟩
      rw [← (all _ registered).inst]
      exact owner

/-- Two workers, of which the second is the owner on record. -/
def sampleTable (number : Nat) : WorkerState :=
  { inst := 3 + number, heartbeat := 5000 }

/-- A worker that evaluates the sample table in a quiet environment. -/
def sampleWorld (number : Nat) : World :=
  { sys :=
      { shared :=
          { workers := fun number => { published := 0, slots := fun _ => sampleTable number },
            peers := fun _ => PeerShm.zero }
        procs := fun _ => { runtime := { worker := number, inst := 3 + number } } }
    me := 0
    script := fun _ => quietAt 5500 }

/-- The sample world answers each question. -/
theorem sampleWorld_evaluates (number : Nat) :
    (sampleWorld number).Evaluates sample number 9000000000 sampleTable := by
  -- Its clock is early, its locks are free and its table never changes.
  constructor
  · rfl
  · rfl
  · constructor
    · exact fun _ _ => rfl
    · exact fun _ _ => ⟨5500000000, by decide, _, rfl, by decide, by decide⟩
    · exact fun _ _ => rfl
    · exact fun _ _ _ shows => shows

/-- Two candidates, of which the sample chooses one. -/
theorem preferred_unique_sample :
    ∃ number, Enlisted sample sampleTable number ∧
      eligible sample { worker := 1, inst := 4 } 5500 number (sampleTable number) = true ∧
        ∀ other, Enlisted sample sampleTable other →
          (Chosen sample 0 { worker := 1, inst := 4 } 5500 9000000000 (sampleWorld other) ↔
            other = number) :=
  -- Every worker is evaluated, and the first one is eligible.
  (preferred_unique sample 0 { worker := 1, inst := 4 } 5500 9000000000 sampleTable sampleWorld
    (by decide) fun number _ => sampleWorld_evaluates number).2.1 ⟨0, by decide, by decide⟩

end Healthcheck
