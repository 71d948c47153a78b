import Healthcheck.Runtime.Process

/-! What each primitive operation leaves of the world it started in. -/

namespace Healthcheck

open Program

/-- The world after answers of the environment were used up: clock readings were added, and the
history of the locks may be longer. -/
def World.passed (w : World) (readings : List Nat) (pos : Nat) (locks : List LockEvent) : World :=
  { w with
    sys := w.sys.setProc w.me { w.self with readings := readings ++ w.self.readings }
    pos := pos
    locks := locks }

/-- A process that was stored is read back. -/
@[simp] theorem self_setSelf (w : World) (proc : Proc) : (w.setSelf proc).self = proc := by
  -- It was stored under the number of the process itself.
  simp [World.self, World.setSelf, Sys.setProc]

/-- The later of two stores counts. -/
@[simp] theorem setSelf_setSelf (w : World) (proc proc' : Proc) :
    (w.setSelf proc).setSelf proc' = w.setSelf proc' := by
  -- Both go to the same place.
  simp [World.setSelf, Sys.setProc]

/-- Storing the process as it is changes nothing. -/
@[simp] theorem setSelf_self (w : World) : w.setSelf w.self = w := by
  -- An update by the value that is there.
  simp [World.self, World.setSelf, Sys.setProc]

/-- A stored process keeps its number. -/
@[simp] theorem setSelf_me (w : World) (proc : Proc) : (w.setSelf proc).me = w.me := rfl

/-- A stored process keeps its script. -/
@[simp] theorem setSelf_script (w : World) (proc : Proc) :
    (w.setSelf proc).script = w.script := rfl

/-- A stored process keeps its position in the script. -/
@[simp] theorem setSelf_pos (w : World) (proc : Proc) : (w.setSelf proc).pos = w.pos := rfl

/-- A stored process keeps its locks. -/
@[simp] theorem setSelf_locks (w : World) (proc : Proc) : (w.setSelf proc).locks = w.locks := rfl

/-- A stored process leaves the shared memory alone. -/
@[simp] theorem setSelf_shared (w : World) (proc : Proc) :
    (w.setSelf proc).sys.shared = w.sys.shared := rfl

/-- A stored process leaves the history alone. -/
@[simp] theorem setSelf_trace (w : World) (proc : Proc) :
    (w.setSelf proc).sys.trace = w.sys.trace := rfl

/-- Passing time keeps the number of the process. -/
@[simp] theorem passed_me (w : World) (rs : List Nat) (pos : Nat) (locks : List LockEvent) :
    (w.passed rs pos locks).me = w.me := rfl

/-- Passing time keeps the script. -/
@[simp] theorem passed_script (w : World) (rs : List Nat) (pos : Nat) (locks : List LockEvent) :
    (w.passed rs pos locks).script = w.script := rfl

/-- Passing time moves to the given position. -/
@[simp] theorem passed_pos (w : World) (rs : List Nat) (pos : Nat) (locks : List LockEvent) :
    (w.passed rs pos locks).pos = pos := rfl

/-- Passing time leaves the given locks. -/
@[simp] theorem passed_locks (w : World) (rs : List Nat) (pos : Nat) (locks : List LockEvent) :
    (w.passed rs pos locks).locks = locks := rfl

/-- Passing time leaves the shared memory alone. -/
@[simp] theorem passed_shared (w : World) (rs : List Nat) (pos : Nat) (locks : List LockEvent) :
    (w.passed rs pos locks).sys.shared = w.sys.shared := rfl

/-- Passing time leaves the history alone. -/
@[simp] theorem passed_trace (w : World) (rs : List Nat) (pos : Nat) (locks : List LockEvent) :
    (w.passed rs pos locks).sys.trace = w.sys.trace := rfl

/-- Passing time adds the readings of the clock to the process. -/
@[simp] theorem passed_self (w : World) (rs : List Nat) (pos : Nat) (locks : List LockEvent) :
    (w.passed rs pos locks).self = { w.self with readings := rs ++ w.self.readings } := by
  -- Nothing else of the process is touched.
  simp [World.passed, World.self, Sys.setProc]

/-- Two passages of time are one. -/
@[simp] theorem passed_passed (w : World) (rs rs' : List Nat) (pos pos' : Nat)
    (locks locks' : List LockEvent) :
    (w.passed rs pos locks).passed rs' pos' locks' = w.passed (rs' ++ rs) pos' locks' := by
  -- The readings add up, the position and the locks are the later ones.
  simp [World.passed, World.self, Sys.setProc, List.append_assoc]

/-- Using up no reading and no answer changes nothing. -/
theorem passed_nil (w : World) : w.passed [] w.pos w.locks = w := by
  -- Nothing was read and nothing was moved.
  simp [World.passed, World.self, Sys.setProc]

/-- An answer comes from the script, whose position moves by one. -/
@[simp] theorem wp_ask (post : Answer → World → Prop) (w : World) :
    wp ask post w ↔ post (w.script w.pos) (w.passed [] (w.pos + 1) w.locks) := by
  -- Only the position in the script moves.
  have moved : w.passed [] (w.pos + 1) w.locks = { w with pos := w.pos + 1 } := by
    simp [World.passed, World.self, Sys.setProc]
  simp [ask, moved]

/-- A question to the world always ends. -/
theorem ends_ask (post : Answer → World → Prop) (w : World) :
    ends ask post w ↔ post (w.script w.pos) (w.passed [] (w.pos + 1) w.locks) := by
  -- Only the position in the script moves.
  have moved : w.passed [] (w.pos + 1) w.locks = { w with pos := w.pos + 1 } := by
    simp [World.passed, World.self, Sys.setProc]
  simp [ask, moved]

/-- Reading one's own process ends. -/
theorem ends_self (post : Proc → World → Prop) (w : World) :
    ends self post w ↔ post w.self w := by
  -- It is a plain read.
  simp [self]

/-- A process reads itself as it is. -/
@[simp] theorem wp_self (post : Proc → World → Prop) (w : World) :
    wp self post w ↔ post w.self w := by
  -- It is a plain read.
  simp [self]

/-- A process changes itself by the given function. -/
@[simp] theorem wp_modifySelf (f : Proc → Proc) (post : Unit → World → Prop) (w : World) :
    wp (modifySelf f) post w ↔ post () (w.setSelf (f w.self)) := by
  -- It is one write.
  simp [modifySelf]

/-- Whether the worker quits is an answer of the world. -/
@[simp] theorem wp_quitting (post : Bool → World → Prop) (w : World) :
    wp quitting post w ↔ post (w.script w.pos).quit (w.passed [] (w.pos + 1) w.locks) := by
  -- One answer is taken from the script.
  simp [quitting]

/-- A lock that is given back is recorded as released. -/
@[simp] theorem wp_unlock (mutex : Mutex) (post : Unit → World → Prop) (w : World) :
    wp (unlock mutex) post w ↔ post () (w.passed [] w.pos (.released mutex :: w.locks)) := by
  -- Only the locks change.
  have released : w.passed [] w.pos (.released mutex :: w.locks) =
    { w with locks := .released mutex :: w.locks } := by
    simp [World.passed, World.self, Sys.setProc]
  simp [unlock, released]

/-- A reading of the clock fits 64 bits. -/
theorem now_le (ts : Timespec) :
    addTime (mulTime ts.sec.toNat 1000000000) ts.nsec ≤ uint64Max := by
  -- The saturated addition never passes the largest number.
  refine addTime_le ?_
  have below := ts.nsec.isLt
  unfold uint64Max
  omega

/-- The clock fails, or its reading is added to the history of the process. -/
theorem wp_now {post : Option Nat → World → Prop} {w : World}
    (failed : ∀ pos, post none (w.passed [] pos w.locks))
    (reading : ∀ t pos, t ≤ uint64Max → post (some t) (w.passed [t] pos w.locks)) :
    wp now post w := by
  -- The clock fails or reads an instant that fits.
  unfold now
  rw [wp_bind, wp_ask]
  cases clock : (w.script w.pos).clock with
  | none => simpa using failed _
  | some ts =>
    simp only [wp_ite, wp_pure, wp_bind, wp_modifySelf]
    refine ⟨fun _ => failed _, fun _ => ?_⟩
    have taken := reading _ (w.pos + 1) (now_le ts)
    simpa [World.passed, World.setSelf, World.self, Sys.setProc] using taken

/-- An attempt to lock either gives up or adds an acquisition to the history of the locks. -/
theorem wp_lock {mutex : Mutex} {limit : Nat} {post : Rc → World → Prop} {w : World}
    (refused : ∀ rs pos, post .again (w.passed rs pos w.locks))
    (taken : ∀ rs pos, post .ok (w.passed rs pos (.acquired mutex :: w.locks))) :
    wp (lock mutex limit) post w := by
  -- The lock is tried only if the clock was read and the limit is not reached.
  unfold lock
  rw [wp_bind]
  apply wp_now
  · intro pos
    simpa using refused _ _
  · intro t pos _
    simp only [wp_ite, wp_pure, wp_bind, wp_ask, wp_change]
    refine ⟨fun _ => refused _ _, fun _ => ⟨fun _ => ?_, fun _ => by simpa using refused _ _⟩⟩
    have result := taken [t] (pos + 1)
    simpa [World.passed, World.self, Sys.setProc] using result

end Healthcheck
