import Mathlib.Logic.Relation
import Healthcheck.State.Record

/-!
The lock of one record: a word that is zero or the PID of its holder, taken and released by
compare-and-set, and taken away from a holder whose PID no longer exists. Reading the holder, testing
it and releasing its lock are separate steps, and any process may pause or die between any two.
-/

namespace Healthcheck

open Relation

/-- What `kill(holder, 0)` reports. -/
inductive Kill where
  | exists_
  | esrch
  /-- Another error, such as `EPERM`. -/
  | other
  deriving DecidableEq, Repr

/-- The two operations that take the lock of a record. -/
inductive Caller where
  /-- `ngx_healthcheck_lock` with its absolute limit in nanoseconds. -/
  | lock (limit : Nat)
  | tryReadPeer
  deriving DecidableEq, Repr

/-- Where a process is in the code of a record's lock. -/
inductive LockPc where
  /-- Outside; the last call did not end with the lock. -/
  | outside
  /-- The first clock reading of `ngx_healthcheck_lock`. -/
  | begin (limit : Nat)
  /-- The head of its loop. -/
  | head (limit now : Nat)
  /-- `ngx_shmtx_trylock`; the second attempt of `ngx_healthcheck_try_read_peer` is its last. -/
  | trylock (caller : Caller) (last : Bool)
  /-- `ngx_healthcheck_recover_lock` reads the holder. -/
  | holder (caller : Caller)
  /-- It tests the holder it has read. -/
  | kill (caller : Caller) (holder : Nat)
  /-- `ngx_shmtx_force_unlock` on the holder it has tested. -/
  | force (caller : Caller) (holder : Nat)
  /-- The clock reading at the end of the loop. -/
  | pause (limit : Nat)
  /-- The call has returned `NGX_OK`, or reads the record: the critical section. -/
  | inside
  deriving DecidableEq, Repr

/-- A process as its lock sees it. -/
structure LockProc where
  pid : Nat := 0
  alive : Bool := false
  pc : LockPc := .outside
  /-- The last `kill` of the process: the PID it tested and what it was told. -/
  told : Option (Nat × Kill) := none
  deriving DecidableEq, Repr

/-- What a process does after `ngx_healthcheck_recover_lock` returned. -/
def recovered (caller : Caller) (released : Bool) : LockPc :=
  match caller with
  | .lock limit => .pause limit
  | .tryReadPeer => if released then .trylock .tryReadPeer true else .outside

/-- The next instruction of a process on the lock word. -/
def LockProc.next (p : LockProc) (word : Nat) (clock : Option Nat) (answer : Kill) :
    LockProc × Nat :=
  match p.pc with
  | .outside => (p, word)
  | .begin limit =>
    match clock with
    | none => ({ p with pc := .outside }, word)
    | some now =>
      ({ p with pc := .head (if limit = 0 then addTime now lockNs else limit) now }, word)
  | .head limit now =>
    ({ p with pc := if limit ≤ now then .outside else .trylock (.lock limit) false }, word)
  | .trylock caller last =>
    if word = 0 then ({ p with pc := .inside }, p.pid)
    else ({ p with pc := if last then .outside else .holder caller }, word)
  | .holder caller =>
    ({ p with pc := if 0 < word then .kill caller word else recovered caller false }, word)
  | .kill caller holder =>
    ({ p with told := some (holder, answer)
              pc := if answer = .esrch then .force caller holder else recovered caller false },
                word)
  | .force caller holder =>
    if word = holder then ({ p with pc := recovered caller true }, 0)
    else ({ p with pc := recovered caller false }, word)
  | .pause limit =>
    match clock with
    | none => ({ p with pc := .outside }, word)
    | some now => ({ p with pc := .head limit now }, word)
  -- `ngx_shmtx_unlock` clears the word when it still is the process's own.
  | .inside => ({ p with pc := .outside }, if word = p.pid then 0 else word)

/-- Where a call starts. -/
def Caller.entry : Caller → LockPc
  | .lock limit => .begin limit
  | .tryReadPeer => .trylock .tryReadPeer false

/-- The lock word of one record and the processes that use it. -/
structure LockSys where
  word : Nat := 0
  procs : Nat → LockProc := fun _ => {}

/-- A process acts on a PID it has read. -/
def LockProc.ActsOn (p : LockProc) (pid : Nat) : Prop :=
  p.alive = true ∧ ∃ caller, p.pc = .kill caller pid ∨ p.pc = .force caller pid

/-- A process runs and is in its critical section. -/
def LockProc.Inside (p : LockProc) : Prop :=
  p.alive = true ∧ p.pc = .inside

/-- The system with one process, and perhaps the word, changed. -/
def LockSys.put (s : LockSys) (q : Nat) (p : LockProc) (word : Nat) : LockSys :=
  { word := word, procs := Function.update s.procs q p }

/-- A step of process `q`. -/
inductive LockStep (q : Nat) : LockSys → LockSys → Prop
  /-- A process starts; its PID is new among those running and those someone still acts on. -/
  | spawn (s : LockSys) (pid : Nat) (gone : (s.procs q).alive = false) (positive : 0 < pid)
      (unused : ∀ p, (s.procs p).alive = true → (s.procs p).pid ≠ pid)
      (unread : ∀ p, ¬ (s.procs p).ActsOn pid) :
      LockStep q s (s.put q { pid := pid, alive := true } s.word)
  | crash (s : LockSys) (alive : (s.procs q).alive = true) :
      LockStep q s (s.put q { s.procs q with alive := false } s.word)
  | call (s : LockSys) (caller : Caller) (alive : (s.procs q).alive = true)
      (outside : (s.procs q).pc = .outside) :
      LockStep q s (s.put q { s.procs q with pc := caller.entry } s.word)
  /-- An instruction; `kill` reports `ESRCH` only when no process has the PID. -/
  | run (s : LockSys) (clock : Option Nat) (answer : Kill) (alive : (s.procs q).alive = true)
      (honest : ∀ caller holder, (s.procs q).pc = .kill caller holder → answer = .esrch →
        ∀ p, (s.procs p).alive = true → (s.procs p).pid ≠ holder) :
      LockStep q s (s.put q ((s.procs q).next s.word clock answer).1
        ((s.procs q).next s.word clock answer).2)

/-- Reachability by steps of any processes. -/
abbrev LockRun : LockSys → LockSys → Prop :=
  ReflTransGen fun s s' => ∃ q, LockStep q s s'

/-- The invariant of the lock. -/
structure Guarded (s : LockSys) : Prop where
  positive : ∀ p, (s.procs p).alive = true → 0 < (s.procs p).pid
  distinct : ∀ p q, (s.procs p).alive = true → (s.procs q).alive = true →
    (s.procs p).pid = (s.procs q).pid → p = q
  holds : ∀ p, (s.procs p).Inside → s.word = (s.procs p).pid
  doomed : ∀ q caller holder, (s.procs q).alive = true → (s.procs q).pc = .force caller holder →
    (s.procs q).told = some (holder, .esrch) ∧
      ∀ p, (s.procs p).alive = true → (s.procs p).pid ≠ holder

/-- The invariant holds before any process has started. -/
theorem guarded_start : Guarded {} := by
  -- No process is alive.
  constructor
  · intro p alive
    cases alive
  · intro p q alive
    cases alive
  · rintro p ⟨alive, _⟩
    cases alive
  · intro q caller holder alive
    cases alive

/-- The changed process is the new one. -/
@[simp] theorem put_self (s : LockSys) (q : Nat) (p : LockProc) (word : Nat) :
    (s.put q p word).procs q = p := by
  simp [LockSys.put]

/-- The other processes are as before. -/
theorem put_other (s : LockSys) {p q : Nat} (proc : LockProc) (word : Nat) (other : p ≠ q) :
    (s.put q proc word).procs p = s.procs p := by
  simp [LockSys.put, other]

/-- An instruction changes neither the PID nor the life of its process. -/
theorem next_identity (p : LockProc) (word : Nat) (clock : Option Nat) (answer : Kill) :
    (p.next word clock answer).1.pid = p.pid ∧ (p.next word clock answer).1.alive = p.alive := by
  -- No instruction changes who the process is.
  unfold LockProc.next
  cases p.pc with
  | begin limit => cases clock <;> exact ⟨rfl, rfl⟩
  | pause limit => cases clock <;> exact ⟨rfl, rfl⟩
  | trylock caller last => dsimp only; split <;> exact ⟨rfl, rfl⟩
  | force caller holder => dsimp only; split <;> exact ⟨rfl, rfl⟩
  | outside => exact ⟨rfl, rfl⟩
  | head limit now => exact ⟨rfl, rfl⟩
  | holder caller => exact ⟨rfl, rfl⟩
  | kill caller holder => exact ⟨rfl, rfl⟩
  | inside => exact ⟨rfl, rfl⟩

/-- What one instruction does to the word, and where it leaves the process. -/
inductive Instruction (p : LockProc) (word : Nat) (answer : Kill) (p' : LockProc) (word' : Nat) :
    Prop
  | quiet (same : word' = word) (outside : p'.pc ≠ .inside)
      (calm : ∀ caller holder, p'.pc ≠ .force caller holder)
  | tested (caller : Caller) (holder : Nat) (same : word' = word) (at_ : p.pc = .kill caller holder)
      (dead : answer = .esrch) (told : p'.told = some (holder, .esrch))
      (next : p'.pc = .force caller holder)
  | taken (free : word = 0) (mine : word' = p.pid) (next : p'.pc = .inside)
  | forced (caller : Caller) (holder : Nat) (at_ : p.pc = .force caller holder)
      (held : word = holder) (freed : word' = 0) (outside : p'.pc ≠ .inside)
      (calm : ∀ caller holder, p'.pc ≠ .force caller holder)
  | released (at_ : p.pc = .inside) (freed : word' = if word = p.pid then 0 else word)
      (next : p'.pc = .outside)

/-- After a recovery the process is neither inside nor about to take a lock away. -/
theorem recovered_calm (caller : Caller) (released : Bool) :
    recovered caller released ≠ .inside ∧
      ∀ caller' holder, recovered caller released ≠ .force caller' holder := by
  -- Both callers and both results are looked at.
  cases caller <;> cases released <;> simp [recovered]

/-- Every instruction is one of the five kinds. -/
theorem next_instruction (p : LockProc) (word : Nat) (clock : Option Nat) (answer : Kill) :
    Instruction p word answer (p.next word clock answer).1 (p.next word clock answer).2 := by
  -- One case for each place in the code.
  unfold LockProc.next
  cases at_ : p.pc with
  | outside => exact .quiet rfl (by simp [at_]) (by simp [at_])
  | begin limit => cases clock <;> exact .quiet rfl (by simp) (by simp)
  | pause limit => cases clock <;> exact .quiet rfl (by simp) (by simp)
  | head limit now =>
    dsimp only
    split
    · exact .quiet rfl (by simp) (by simp)
    · exact .quiet rfl (by simp) (by simp)
  | trylock caller last =>
    dsimp only
    split
    · rename_i free
      exact .taken free rfl rfl
    · exact .quiet rfl (by cases last <;> simp) (by cases last <;> simp)
  | holder caller =>
    dsimp only
    split
    · exact .quiet rfl (by simp) (by simp)
    · exact .quiet rfl (recovered_calm caller false).1 (recovered_calm caller false).2
  | kill caller holder =>
    dsimp only
    split
    · rename_i dead
      subst dead
      exact .tested caller holder rfl at_ rfl rfl rfl
    · exact .quiet rfl (recovered_calm caller false).1 (recovered_calm caller false).2
  | force caller holder =>
    dsimp only
    split
    · rename_i held
      exact .forced caller holder at_ held rfl (recovered_calm caller true).1
        (recovered_calm caller true).2
    · exact .quiet rfl (recovered_calm caller false).1 (recovered_calm caller false).2
  | inside => exact .released at_ rfl rfl

/-- The invariant after a change of one process that keeps its PID. -/
theorem guarded_put {s : LockSys} {q : Nat} {p : LockProc} {word : Nat} (inv : Guarded s)
    (pid : p.pid = (s.procs q).pid) (alive : p.alive = true → (s.procs q).alive = true)
    (mine : p.Inside → word = p.pid)
    (others : ∀ r, r ≠ q → (s.procs r).Inside → word = (s.procs r).pid)
    (doomed : ∀ caller holder, p.alive = true → p.pc = .force caller holder →
      p.told = some (holder, .esrch) ∧
        ∀ r, (s.procs r).alive = true → (s.procs r).pid ≠ holder) :
    Guarded (s.put q p word) := by
  -- Whoever runs afterwards ran before, with the same PID.
  have before : ∀ r, ((s.put q p word).procs r).alive = true →
      (s.procs r).alive = true ∧ ((s.put q p word).procs r).pid = (s.procs r).pid := by
    intro r running
    by_cases same : r = q
    · subst same
      rw [put_self] at running ⊢
      exact ⟨alive running, pid⟩
    · rw [put_other s p word same] at running ⊢
      exact ⟨running, rfl⟩
  refine ⟨fun r running => ?_, fun r t first second same => ?_, fun r inside => ?_,
    fun r caller holder running at_ => ?_⟩
  · obtain ⟨earlier, number⟩ := before r running
    rw [number]
    exact inv.positive r earlier
  · obtain ⟨earlier, number⟩ := before r first
    obtain ⟨earlier', number'⟩ := before t second
    exact inv.distinct r t earlier earlier' (by rw [← number, ← number', same])
  · by_cases same : r = q
    · subst same
      rw [put_self] at inside ⊢
      exact mine inside
    · rw [put_other s p word same] at inside ⊢
      exact others r same inside
  · have known : ((s.put q p word).procs r).told = some (holder, .esrch) ∧
        ∀ t, (s.procs t).alive = true → (s.procs t).pid ≠ holder := by
      by_cases same : r = q
      · subst same
        rw [put_self] at running at_ ⊢
        exact doomed caller holder running at_
      · rw [put_other s p word same] at running at_ ⊢
        exact inv.doomed r caller holder running at_
    refine ⟨known.1, fun t still => ?_⟩
    obtain ⟨earlier, number⟩ := before t still
    rw [number]
    exact known.2 t earlier

/-- A process that starts with a new PID keeps the invariant. -/
theorem guarded_spawn {s : LockSys} {q pid : Nat} (inv : Guarded s) (positive : 0 < pid)
    (unused : ∀ p, (s.procs p).alive = true → (s.procs p).pid ≠ pid)
    (unread : ∀ p, ¬ (s.procs p).ActsOn pid) :
    Guarded (s.put q { pid := pid, alive := true } s.word) := by
  refine ⟨fun r running => ?_, fun r t first second same => ?_, fun r inside => ?_,
    fun r caller holder running at_ => ?_⟩
  · by_cases same : r = q
    · rw [same, put_self]
      exact positive
    · rw [put_other s _ _ same] at running ⊢
      exact inv.positive r running
  · by_cases left : r = q
    · by_cases right : t = q
      · rw [left, right]
      · rw [left, put_self, put_other s _ _ right] at same
        rw [put_other s _ _ right] at second
        exact absurd same.symm (unused t second)
    · by_cases right : t = q
      · rw [right, put_self, put_other s _ _ left] at same
        rw [put_other s _ _ left] at first
        exact absurd same (unused r first)
      · rw [put_other s _ _ left] at first same
        rw [put_other s _ _ right] at second same
        exact inv.distinct r t first second same
  · by_cases same : r = q
    · rw [same, put_self] at inside
      cases inside.2
    · rw [put_other s _ _ same] at inside ⊢
      exact inv.holds r inside
  · by_cases same : r = q
    · rw [same, put_self] at at_
      cases at_
    · rw [put_other s _ _ same] at running at_ ⊢
      obtain ⟨told, absent⟩ := inv.doomed r caller holder running at_
      refine ⟨told, fun t still => ?_⟩
      by_cases new : t = q
      · -- A PID someone is about to release is not given to a new process.
        rw [new, put_self]
        rintro rfl
        exact unread r ⟨running, caller, Or.inr at_⟩
      · rw [put_other s _ _ new] at still ⊢
        exact absent t still

/-- The word of a lock another process holds changes only by that process. -/
theorem word_kept {s : LockSys} {q r : Nat} (inv : Guarded s) {answer : Kill} {p' : LockProc}
    {word' : Nat} (running : (s.procs q).alive = true)
    (instruction : Instruction (s.procs q) s.word answer p' word') (other : r ≠ q)
    (inside : (s.procs r).Inside) : word' = s.word := by
  -- An instruction that changes the word takes a free one, or one whose holder is gone.
  have held := inv.holds r inside
  cases instruction with
  | quiet same => exact same
  | tested _ _ same => exact same
  | taken free =>
    have positive := inv.positive r inside.1
    omega
  | forced caller holder at_ of_ =>
    exact absurd (held.symm.trans of_) ((inv.doomed q caller holder running at_).2 r inside.1)
  | released at_ _ _ =>
    have mine := inv.holds q ⟨running, at_⟩
    exact absurd (inv.distinct r q inside.1 running (held.symm.trans mine)) other

/-- Every step keeps the invariant. -/
theorem guarded_step {q : Nat} {s s' : LockSys} (inv : Guarded s) (step : LockStep q s s') :
    Guarded s' := by
  -- A start, a death, a call, or an instruction.
  cases step with
  | spawn pid _ positive unused unread => exact guarded_spawn inv positive unused unread
  | crash alive =>
    refine guarded_put inv rfl (fun dead => by cases dead) ?_ (fun r _ => inv.holds r) ?_
    · rintro ⟨dead, _⟩
      cases dead
    · intro caller holder dead
      cases dead
  | call caller alive outside =>
    refine guarded_put inv rfl (fun _ => alive) ?_ (fun r _ => inv.holds r) ?_
    · rintro ⟨_, at_⟩
      cases caller <;> cases at_
    · intro caller' holder _ at_
      cases caller <;> cases at_
  | run clock answer alive honest =>
    obtain ⟨pid, life⟩ := next_identity (s.procs q) s.word clock answer
    have instruction := next_instruction (s.procs q) s.word clock answer
    refine guarded_put inv pid (fun _ => alive) (fun inside => ?_) (fun r other inside => ?_)
      (fun caller holder running at_ => ?_)
    · cases instruction with
      | taken _ mine _ => rw [mine, pid]
      | quiet _ outside => exact absurd inside.2 outside
      | tested _ _ _ _ _ _ next =>
        have at_ := inside.2
        rw [next] at at_
        cases at_
      | forced _ _ _ _ _ outside => exact absurd inside.2 outside
      | released _ _ next =>
        have at_ := inside.2
        rw [next] at at_
        cases at_
    · rw [word_kept inv alive instruction other inside]
      exact inv.holds r inside
    · cases instruction with
      | taken _ _ next =>
        rw [next] at at_
        cases at_
      | quiet _ _ calm => exact absurd at_ (calm caller holder)
      | tested _ _ _ before dead told next =>
        rw [next] at at_
        cases at_
        exact ⟨told, honest _ _ before dead⟩
      | forced _ _ _ _ _ _ calm => exact absurd at_ (calm caller holder)
      | released _ _ next =>
        rw [next] at at_
        cases at_

/-- The invariant holds in every reachable state. -/
theorem guarded_reachable {s : LockSys} (run : LockRun {} s) : Guarded s := by
  -- Induction on the run, one step at its end.
  induction run with
  | refl => exact guarded_start
  | tail _ step inv =>
    obtain ⟨q, step⟩ := step
    exact guarded_step inv step

/-- A step that frees a held lock, or gives it away, is the holder's own release or the end of a
recovery that was told `ESRCH`. -/
theorem word_changed {q : Nat} {s s' : LockSys} (inv : Guarded s) (step : LockStep q s s')
    (held : s.word ≠ 0) (changed : s'.word ≠ s.word) :
    s'.word = 0 ∧ ((s.procs q).Inside ∧ (s.procs q).pid = s.word ∨
      (s.procs q).told = some (s.word, .esrch)) := by
  -- Only a recovery or the holder itself clears the word.
  cases step with
  | spawn => exact absurd rfl changed
  | crash => exact absurd rfl changed
  | call => exact absurd rfl changed
  | run clock answer alive honest =>
    have instruction := next_instruction (s.procs q) s.word clock answer
    cases instruction with
    | quiet same => exact absurd same changed
    | tested _ _ same => exact absurd same changed
    | taken free => exact absurd free held
    | forced caller holder at_ of_ freed =>
      refine ⟨freed, Or.inr ?_⟩
      rw [of_]
      exact (inv.doomed q caller holder alive at_).1
    | released at_ freed =>
      have mine := inv.holds q ⟨alive, at_⟩
      refine ⟨?_, Or.inl ⟨⟨alive, at_⟩, mine.symm⟩⟩
      exact freed.trans (if_pos mine)

/-- Mutual exclusion with dead-holder recovery, in every reachable state of a record's lock. -/
theorem lock_exclusion {s : LockSys} (run : LockRun {} s) :
    (∀ p q, (s.procs p).Inside → (s.procs q).Inside → p = q) ∧
      (∀ p, (s.procs p).Inside → s.word = (s.procs p).pid) ∧
      (∀ p q s', (s.procs p).Inside → q ≠ p → LockStep q s s' →
        s'.word = s.word ∧ (s'.procs p).Inside) ∧
      ∀ q s', LockStep q s s' → s.word ≠ 0 → s'.word ≠ s.word →
        s'.word = 0 ∧ ((s.procs q).Inside ∧ (s.procs q).pid = s.word ∨
          (s.procs q).told = some (s.word, .esrch)) := by
  -- All four parts follow from the invariant.
  have inv := guarded_reachable run
  refine ⟨fun p q first second => ?_, inv.holds, fun p q s' inside other step => ?_,
    fun q s' step held changed => word_changed inv step held changed⟩
  · exact inv.distinct p q first.1 second.1
      ((inv.holds p first).symm.trans (inv.holds q second))
  · cases step with
    | spawn => exact ⟨rfl, by rwa [put_other s _ _ other.symm]⟩
    | crash => exact ⟨rfl, by rwa [put_other s _ _ other.symm]⟩
    | call => exact ⟨rfl, by rwa [put_other s _ _ other.symm]⟩
    | run clock answer alive honest =>
      refine ⟨word_kept inv alive (next_instruction (s.procs q) s.word clock answer) other.symm
        inside, ?_⟩
      rwa [put_other s _ _ other.symm]

/-- An instruction that tests nobody is always possible. -/
theorem lock_run {q : Nat} {s : LockSys} (clock : Option Nat) (alive : (s.procs q).alive = true)
    (calm : ∀ caller holder, (s.procs q).pc ≠ .kill caller holder) :
    LockStep q s (s.put q ((s.procs q).next s.word clock .other).1
      ((s.procs q).next s.word clock .other).2) :=
  -- No process is tested, so nothing has to be true of the answer.
  .run s clock .other alive (fun caller holder at_ => absurd at_ (calm caller holder))

/-- A process waits for a lock that is taken, and gets it after the holder has died inside. -/
theorem lock_exclusion_recovered : ∃ s, LockRun {} s ∧ (s.procs 1).Inside ∧ s.word = 9 ∧
    (s.procs 1).told = some (7, .esrch) ∧ (s.procs 0).alive = false ∧
    ∀ p, (s.procs p).Inside → p = 1 := by
  -- Process 0 takes the lock.
  have started : LockRun {} _ :=
    (ReflTransGen.single ⟨0, .spawn {} 7 rfl (by decide) (fun _ alive => by cases alive)
      (fun _ acts => by cases acts.1)⟩).tail ⟨0, .call _ (.lock 0) rfl rfl⟩
  have taken : LockRun {} _ :=
    ((started.tail ⟨0, lock_run (some 5) rfl (fun _ _ => nofun)⟩).tail
      ⟨0, lock_run none rfl (fun _ _ => nofun)⟩).tail
        ⟨0, lock_run none rfl (fun _ _ => nofun)⟩
  -- Process 1 finds it taken by a process that exists.
  have second : LockRun {} _ := taken.tail ⟨1, .spawn _ 9 rfl (by decide)
    (fun p alive => by
      rcases p with _ | p
      · decide
      · cases alive)
    (fun p acts => by
      rcases p with _ | p
      · obtain ⟨_, _, same | same⟩ := acts <;> cases same
      · cases acts.1)⟩
  have waits : LockRun {} _ :=
    (((((second.tail ⟨1, .call _ (.lock 0) rfl rfl⟩).tail
      ⟨1, lock_run (some 5) rfl (fun _ _ => nofun)⟩).tail
        ⟨1, lock_run none rfl (fun _ _ => nofun)⟩).tail
          ⟨1, lock_run none rfl (fun _ _ => nofun)⟩).tail
            ⟨1, lock_run none rfl (fun _ _ => nofun)⟩).tail
              ⟨1, .run _ none .exists_ rfl (fun _ _ _ gone => nomatch gone)⟩
  -- The holder dies, and its lock is taken away from it.
  have died : LockRun {} _ :=
    ((((waits.tail ⟨0, .crash _ rfl⟩).tail
      ⟨1, lock_run (some 6) rfl (fun _ _ => nofun)⟩).tail
        ⟨1, lock_run none rfl (fun _ _ => nofun)⟩).tail
          ⟨1, lock_run none rfl (fun _ _ => nofun)⟩).tail
            ⟨1, lock_run none rfl (fun _ _ => nofun)⟩
  have told : LockRun {} _ := died.tail ⟨1, .run _ none .esrch rfl
    (fun caller holder at_ _ p alive => by
      cases at_
      rcases p with _ | _ | p
      · cases alive
      · decide
      · cases alive)⟩
  have recovered : LockRun {} _ :=
    (((told.tail ⟨1, lock_run none rfl (fun _ _ => nofun)⟩).tail
      ⟨1, lock_run (some 7) rfl (fun _ _ => nofun)⟩).tail
        ⟨1, lock_run none rfl (fun _ _ => nofun)⟩).tail
          ⟨1, lock_run none rfl (fun _ _ => nofun)⟩
  exact ⟨_, recovered, ⟨rfl, rfl⟩, rfl, rfl, rfl,
    fun p inside => (lock_exclusion recovered).1 p 1 inside ⟨rfl, rfl⟩⟩
end Healthcheck
