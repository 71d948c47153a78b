import Healthcheck.Runtime.OwnershipLaws
import Mathlib.Logic.Relation

/-!
A generation as a system of processes. Each step is one operation of one process, with at most one
critical section: while it holds its locks no other process can use the records they guard, so
between any two of its operations any number of steps of other processes may happen, and a paused
process is one that takes no step.
-/

namespace Healthcheck

open Program

/-- The operations of a process that use the shared records or the identity of a round. -/
inductive Op where
  | activate (limit reading : Nat)
  | registerSlot (limit reading : Nat)
  | claimRound (i : Nat) (takeover : Option PeerState) (limit : Nat)
  | restartDeadline (i : Nat)
  | probeWaiting (i : Nat)
  | freeze (i : Nat) (result : Bool) (reason source : String) (error : Option Errno)
  | settle (i limit : Nat)
  | retire

/-- An operation runs the code of the same name. -/
def Op.run (gen : Generation) : Op → Action Unit
  | .activate limit reading => do
    let _ ← Healthcheck.activate limit reading
  | .registerSlot limit reading => do
    let _ ← Healthcheck.registerSlot limit reading
  | .claimRound i takeover limit => do
    -- A process that has not registered claims nothing.
    if (← self).runtime.registered then
      let _ ← Healthcheck.claimRound gen i takeover limit
  | .restartDeadline i => do
    match ← now with
    | none => return ()
    | some reading => Healthcheck.restartDeadline gen i reading
  | .probeWaiting i => do
    let _ ← Healthcheck.probeWaiting gen i
  | .freeze i result reason source error => do
    let _ ← Healthcheck.freeze gen i result reason source error
  | .settle i limit => do
    -- Only a round that waits for its submission is submitted.
    if ((← self).round i).pending then
      let _ ← Healthcheck.settle gen i limit
  | .retire => Healthcheck.retire

/-- The part of a process the protocol between the processes depends on. -/
structure Core where
  status : Status
  pid : Int
  worker : Nat
  inst : Nat
  registered : Bool
  rounds : Nat → Round

/-- The protocol part of a process. -/
def Proc.core (p : Proc) : Core :=
  { status := p.status, pid := p.pid, worker := p.runtime.worker, inst := p.runtime.inst,
    registered := p.runtime.registered, rounds := p.round }

/-- A round may end locally, or be marked as registered, without anything else changing. -/
def Round.Quieter (round round' : Round) : Prop :=
  round' = { round with active := round'.active, pending := round'.pending,
                        waitingPublished := round'.waitingPublished } ∧
    (round'.active = true → round.active = true) ∧ (round'.pending = true → round.pending = true)

/-- A change of a process that the others cannot see. -/
structure Core.Quieter (core core' : Core) : Prop where
  status : core'.status = core.status
  pid : core'.pid = core.pid
  worker : core'.worker = core.worker
  inst : core'.inst = core.inst
  registered : core'.registered = core.registered
  rounds : ∀ i, (core.rounds i).Quieter (core'.rounds i)

/-- A process as it starts: it has registered nowhere and claimed nothing. -/
def Proc.start (pid : Int) (worker : Nat) : Proc :=
  { status := .running, pid := pid, runtime := { worker := worker } }

/-- One step of a generation. -/
inductive Step (gen : Generation) : Sys → Sys → Prop
  /-- A worker is started, or started again after its predecessor died. -/
  | spawn (s : Sys) (p worker : Nat) (pid : Int) (unused : (s.procs p).status = .absent)
      (slot : worker < gen.workers) (positive : 0 < pid) :
      Step gen s (s.setProc p (Proc.start pid worker))
  /-- A process dies at any moment outside or before the publication of a critical section. -/
  | crash (s : Sys) (p : Nat) (running : (s.procs p).status = .running) :
      Step gen s (s.setProc p { s.procs p with status := .dead })
  /-- A process runs one operation in whatever environment it finds itself. -/
  | call (op : Op) (w w' : World) (running : w.self.status = .running)
      (returned : op.run gen w = some ((), w')) : Step gen w.sys w'.sys
  /-- A process works on its own: sockets, timers, clock readings, a round given up. -/
  | alone (s : Sys) (p : Nat) (proc : Proc) (running : (s.procs p).status = .running)
      (quieter : (s.procs p).core.Quieter proc.core)
      (readings : (s.procs p).readings <:+ proc.readings) : Step gen s (s.setProc p proc)

/-- Reachability by any number of steps of any processes. -/
abbrev Steps (gen : Generation) : Sys → Sys → Prop :=
  Relation.ReflTransGen (Step gen)

/-- The start of a generation: every peer's record is as `ngx_healthcheck_init_zone` publishes it,
with inherited or default health, and no process has run yet. -/
structure Initial (gen : Generation) (s : Sys) : Prop where
  phase : ∀ i, (s.record i).phase = .initial
  worker : ∀ i, (s.record i).worker = i % gen.workers
  inst : ∀ i, (s.record i).inst = 0
  term : ∀ i, (s.record i).term = 0
  round : ∀ i, (s.record i).round = 0
  deadline : ∀ i, (s.record i).deadline = 0
  slots : ∀ worker, s.shared.workers worker = WorkerShm.zero
  activated : s.shared.activated = false
  procs : ∀ p, s.procs p = {}
  trace : s.trace = []

end Healthcheck
