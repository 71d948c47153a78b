import Healthcheck.System.Move

/-! Runs that can be evaluated: a list of commands is carried out in a system, or is refused. -/

namespace Healthcheck

/-- A step of a run in which the environment gives one answer throughout an operation. -/
inductive Command where
  | spawn (p worker : Nat) (pid : Int)
  | crash (p : Nat)
  | call (p : Nat) (answer : Answer) (op : Op)

/-- A process enters an operation in which the environment always answers the same. -/
def World.enter (s : Sys) (p : Nat) (answer : Answer) : World :=
  { sys := s, me := p, script := fun _ => answer }

/-- A command is refused when the system cannot take the step. -/
def Command.run (gen : Generation) (s : Sys) : Command → Option Sys
  | .spawn p worker pid =>
    if (s.procs p).status = .absent ∧ worker < gen.workers ∧ 0 < pid then
      some (s.setProc p (Proc.start pid worker))
    else none
  | .crash p =>
    if (s.procs p).status = .running then some (s.setProc p { s.procs p with status := .dead })
    else none
  | .call p answer op =>
    if (s.procs p).status = .running then
      (op.run gen (World.enter s p answer)).map fun result => result.2.sys
    else none

/-- The commands of a list, one after the other. -/
def runAll (gen : Generation) : List Command → Sys → Option Sys
  | [], s => some s
  | command :: rest, s => (command.run gen s).bind (runAll gen rest)

/-- The process a command is about. -/
def Command.proc : Command → Nat
  | .spawn p _ _ => p
  | .crash p => p
  | .call p _ _ => p

/-- A command that is carried out is a step. -/
theorem command_step {gen : Generation} {s s' : Sys} {command : Command}
    (ran : command.run gen s = some s') : Step gen s s' := by
  -- One case for each command.
  cases command with
  | spawn p worker pid =>
    simp only [Command.run, Option.ite_none_right_eq_some, Option.some.injEq] at ran
    obtain ⟨⟨unused, slot, positive⟩, after⟩ := ran
    subst after
    exact .spawn s p worker pid unused slot positive
  | crash p =>
    simp only [Command.run, Option.ite_none_right_eq_some, Option.some.injEq] at ran
    obtain ⟨running, after⟩ := ran
    subst after
    exact .crash s p running
  | call p answer op =>
    simp only [Command.run, Option.ite_none_right_eq_some, Option.map_eq_some_iff] at ran
    obtain ⟨running, ⟨_, w⟩, returned, after⟩ := ran
    subst after
    exact .call op (World.enter s p answer) w running returned

/-- A command changes no process but the one it is about. -/
theorem command_other {gen : Generation} {s s' : Sys} {command : Command} {q : Nat}
    (ran : command.run gen s = some s') (other : q ≠ command.proc) : s'.procs q = s.procs q := by
  -- A command moves its own process.
  cases command with
  | spawn p worker pid =>
    simp only [Command.run, Option.ite_none_right_eq_some, Option.some.injEq] at ran
    rw [← ran.2]
    exact Function.update_of_ne other _ _
  | crash p =>
    simp only [Command.run, Option.ite_none_right_eq_some, Option.some.injEq] at ran
    rw [← ran.2]
    exact Function.update_of_ne other _ _
  | call p answer op =>
    simp only [Command.run, Option.ite_none_right_eq_some, Option.map_eq_some_iff] at ran
    obtain ⟨_, ⟨_, w⟩, returned, after⟩ := ran
    rw [← after]
    exact (op_moved gen op _ () w returned).1.others q other

/-- A list of commands changes no process but those it is about. -/
theorem runAll_other {gen : Generation} {commands : List Command} {s s' : Sys} {q : Nat}
    (ran : runAll gen commands s = some s') (other : ∀ command ∈ commands, q ≠ command.proc) :
    s'.procs q = s.procs q := by
  -- Induction on the commands.
  induction commands generalizing s with
  | nil =>
    cases ran
    rfl
  | cons command rest ih =>
    simp only [runAll, Option.bind_eq_some_iff] at ran
    obtain ⟨mid, first, later⟩ := ran
    rw [ih later (fun command member => other command (List.mem_cons_of_mem _ member))]
    exact command_other first (other command List.mem_cons_self)

/-- A list of commands that is carried out is a run. -/
theorem runAll_steps {gen : Generation} {commands : List Command} {s s' : Sys}
    (ran : runAll gen commands s = some s') : Steps gen s s' := by
  -- Induction on the list: the first command is the first step.
  induction commands generalizing s with
  | nil =>
    cases ran
    exact .refl
  | cons command rest ih =>
    simp only [runAll, Option.bind_eq_some_iff] at ran
    obtain ⟨mid, first, later⟩ := ran
    exact .head (command_step first) (ih later)

/-- A TCP check every three seconds that times out after one. -/
def sampleConf : CheckConf :=
  { fallCount := 2, riseCount := 1, checkInterval := 3000, checkTimeout := 1000, checkType := .tcp,
    send := [], defaultDown := 1, keepConnection := true, rehandshake := 0, keepalive := false,
    keepaliveIdle := 0, keepaliveInterval := 0, keepaliveCount := 0 }

/-- A generation of two worker numbers in which every peer is checked alike. -/
def sample : Generation :=
  { word := .bits64, module := .http, generation := 1, workers := 2, nelts := 1,
    conf := fun _ => sampleConf, timerResolution := 0, murmurHash := fun _ => 0,
    workers_pos := by decide, coherent := fun _ => by constructor <;> decide }

/-- The record of a peer that inherits nothing. -/
def defaultRecord (gen : Generation) (i : Nat) : PeerState :=
  { health := { down := (gen.conf i).defaultDown }, owner := invalidPid,
    worker := i % gen.workers }

/-- A generation without a predecessor, before any process runs. -/
def fresh (gen : Generation) : Sys :=
  { shared := { peers := fun i => publish PeerShm.zero (defaultRecord gen i) } }

/-- A fresh system holds the default records. -/
theorem fresh_record (gen : Generation) (i : Nat) : (fresh gen).record i = defaultRecord gen i :=
  current_publish PeerShm.zero (defaultRecord gen i)

/-- A fresh system is an initial one. -/
theorem fresh_initial (gen : Generation) : Initial gen (fresh gen) := by
  -- Each field is that of a default record.
  refine ⟨fun i => ?_, fun i => ?_, fun i => ?_, fun i => ?_, fun i => ?_, fun i => ?_,
    fun _ => rfl, rfl, fun _ => rfl, rfl⟩
  all_goals rw [fresh_record]; rfl

/-- Where a list of commands leads from the start of a generation; a refused list leads nowhere. -/
def reached (gen : Generation) (commands : List Command) : Sys :=
  (runAll gen commands (fresh gen)).getD (fresh gen)

/-- What the commands reach is reached by steps. -/
theorem reached_steps (gen : Generation) (commands : List Command) :
    Steps gen (fresh gen) (reached gen commands) := by
  -- Refused commands leave the fresh system.
  unfold reached
  cases ran : runAll gen commands (fresh gen) with
  | none => exact .refl
  | some s => exact runAll_steps ran

/-- A process no command is about is as it was at the start. -/
theorem reached_other {gen : Generation} {commands : List Command} {q : Nat}
    (other : ∀ command ∈ commands, q ≠ command.proc) : (reached gen commands).procs q = {} := by
  -- Refused commands leave the fresh system, where the process is blank.
  unfold reached
  cases ran : runAll gen commands (fresh gen) with
  | none => rfl
  | some s => exact runAll_other ran other

/-- The last command of a list that is carried out is the last step of its run. -/
theorem reached_last {gen : Generation} (commands : List Command) (command : Command)
    (carried : (runAll gen (commands ++ [command]) (fresh gen)).isSome) :
    Step gen (reached gen commands) (reached gen (commands ++ [command])) := by
  -- A list with one more command runs the last one at the end.
  have split : ∀ (commands : List Command) (s : Sys), runAll gen (commands ++ [command]) s =
      (runAll gen commands s).bind fun s => command.run gen s := by
    intro commands
    induction commands with
    | nil =>
      intro s
      simp [runAll]
    | cons first rest ih =>
      intro s
      simp only [List.cons_append, runAll, ih, Option.bind_assoc]
  unfold reached
  rw [split] at carried ⊢
  cases ran : runAll gen commands (fresh gen) with
  | none => simp [ran] at carried
  | some s =>
    rw [ran] at carried
    simp only [Option.bind_some, Option.getD_some] at carried ⊢
    obtain ⟨s', last⟩ := Option.isSome_iff_exists.mp carried
    rw [last]
    exact command_step last

/-- A quiet environment at a time in milliseconds: the clock runs, locks are free. -/
def quietAt (milliseconds : Nat) : Answer :=
  { clock := some { sec := milliseconds / 1000,
                    nsec := Fin.ofNat 1000000000 (milliseconds % 1000 * 1000000) }
    lock := true
    alloc := true }

/-- Process `p` starts as a worker, registers, and runs operations at given times. -/
def workerRun (p worker : Nat) (pid : Int) (time : Nat) (rest : List (Nat × Op)) : List Command :=
  .spawn p worker pid :: .call p (quietAt time) (.activate 0 (time * 1000000)) ::
    .call p (quietAt time) (.registerSlot 0 (time * 1000000)) ::
    rest.map fun (time, op) => .call p (quietAt time) op

end Healthcheck
