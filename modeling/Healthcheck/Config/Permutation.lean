import Mathlib.Data.List.Pairwise
import Healthcheck.Config.KeepaliveLaws

/-!
The order of the parameters of a `check` directive does not matter: each of them means an
assignment that does not depend on what was read before it, and two assignments of different
parameters commute.
-/

namespace Healthcheck

open Ascii

/-- The keys of the parameters. -/
def parameterKeys : List String :=
  ["type=", "port=", "interval=", "timeout=", "rise=", "fall=", "default_down=", "reuse=",
    "keepalive="]

/-- The key an argument starts with. -/
def keyOf (argument : List UInt8) : Option String :=
  parameterKeys.find? fun key => (argument.dropPrefix? (bytes key)).isSome

/-- What an argument of the directive sets. A time that is not given stays as it was. -/
inductive Assignment where
  | type (kind : CheckType)
  | port (number : Nat)
  | interval (number : Nat)
  | timeout (number : Nat)
  | rise (number : Nat)
  | fall (number : Nat)
  | down (flag : Nat)
  | reuse (mode : Handshake) (time : Option Nat)
  | keepaliveOff
  | keepalive (mode : Handshake) (time : Option Nat) (idle every count : Nat)

/-- The parameter an assignment belongs to. -/
def Assignment.key : Assignment → String
  | .type _ => "type="
  | .port _ => "port="
  | .interval _ => "interval="
  | .timeout _ => "timeout="
  | .rise _ => "rise="
  | .fall _ => "fall="
  | .down _ => "default_down="
  | .reuse _ _ => "reuse="
  | .keepaliveOff => "keepalive="
  | .keepalive _ _ _ _ _ => "keepalive="

/-- The effect of an assignment. -/
def Assignment.apply (locals : CheckLocals) : Assignment → CheckLocals
  | .type kind => { locals with checkType := some kind }
  | .port number => { locals with port := number }
  | .interval number => { locals with args := { locals.args with interval := number } }
  | .timeout number =>
    { locals with args := { locals.args with timeout := number, timeoutSet := true } }
  | .rise number => { locals with rise := number }
  | .fall number => { locals with fall := number }
  | .down flag => { locals with down := some flag }
  | .reuse mode time =>
    { locals with
      args := { locals.args with reuse := mode, reuseTime := time.getD locals.args.reuseTime } }
  | .keepaliveOff => { locals with args := { locals.args with keepalive := false } }
  | .keepalive mode time idle every count =>
    { locals with
      args := { locals.args with
        keepalive := true, keepaliveHandshake := mode
        keepaliveTime := time.getD locals.args.keepaliveTime, keepaliveIdle := idle
        keepaliveInterval := every, keepaliveCount := count } }

/-- Assignments of different parameters touch different variables. -/
theorem Assignment.apply_comm {one two : Assignment} (differ : one.key ≠ two.key)
    (locals : CheckLocals) :
    two.apply (one.apply locals) = one.apply (two.apply locals) := by
  -- Two assignments of different keys set different fields.
  cases one <;> cases two
  all_goals first | rfl | exact absurd rfl differ

variable {platform : Platform} {arith : Arith}

/-- A parameter whose value means an assignment, whatever was read before. -/
def Setter.Assigns (setter : Setter) (key : String) : Prop :=
  ∀ value, ∃ assignment : Option Assignment,
    (∀ locals, setter value locals = .ok (assignment.map (·.apply locals))) ∧
      ∀ meant ∈ assignment, meant.key = key

/-- A setter that maps what it reads. -/
theorem assigns_map {α : Type} {setter : Setter} {key : String} (read : List UInt8 → Option α)
    (assignment : α → Assignment) (named : ∀ a, (assignment a).key = key)
    (same : ∀ value locals,
      setter value locals = .ok ((read value).map fun a => (assignment a).apply locals)) :
    setter.Assigns key := by
  -- A value that is read is assigned, and one that is not is refused.
  intro value
  refine ⟨(read value).map assignment, ?_, ?_⟩
  · intro locals
    rw [same, Option.map_map]
    rfl
  · intro meant given
    obtain ⟨a, _, rfl⟩ := Option.map_eq_some_iff.mp given
    exact named a

/-- The mode of a reconnection does not depend on the time before it. -/
theorem parseHandshake_assigns (lawful : arith.Lawful platform.word) (field : List UInt8) :
    ∃ result : Option (Handshake × Option Nat), ∀ time,
      parseHandshake platform arith field time =
        .ok (result.map fun pair => (pair.1, pair.2.getD time)) := by
  -- The mode does not depend on the time that was set before.
  unfold parseHandshake
  by_cases off : equalFold field (bytes "off") = true
  · exact ⟨some (.off, none), fun time => if_pos off⟩
  by_cases on : field = [] ∨ equalFold field (bytes "on") = true
  · refine ⟨some (.default, none), fun time => ?_⟩
    rw [if_neg off, if_pos on]
    rfl
  simp only [if_neg off, if_neg on]
  cases platform.parseTime field with
  | none => exact ⟨none, fun time => rfl⟩
  | some seconds =>
    dsimp only
    by_cases refused : seconds = 0 ∨ seconds > platform.rehandshakeMax / 1000
    · exact ⟨none, fun time => if_pos refused⟩
    · have range := (milliseconds_le refused).2
      have fits := (rehandshakeMax_le platform).1
      have exact : ((seconds : Int) * 1000) = ((seconds * 1000 : Nat) : Int) := by
        simp
      refine ⟨some (.time, some (seconds * 1000)), fun time => ?_⟩
      rw [if_neg refused, exact, lawful.word_eq _ (by omega)]
      rfl

/-- The keepalive parameter sets all that an earlier one of them may have set. -/
theorem parseKeepalive_assigns (lawful : arith.Lawful platform.word) (value : List UInt8) :
    ∃ assignment : Option Assignment,
      (∀ locals : CheckLocals, parseKeepalive platform arith value locals.args =
        .ok (assignment.map fun meant => (meant.apply locals).args)) ∧
      (∀ meant ∈ assignment, meant.key = "keepalive=" ∧
        ∀ locals : CheckLocals, meant.apply locals =
          { locals with args := (meant.apply locals).args }) := by
  unfold parseKeepalive
  by_cases empty : value = []
  · refine ⟨none, fun locals => if_pos empty, nofun⟩
  by_cases off : equalFold value (bytes "off") = true
  · refine ⟨some .keepaliveOff, fun locals => ?_, ?_⟩
    · rw [if_neg empty, if_pos off]
      rfl
    · rintro meant ⟨⟩
      exact ⟨rfl, fun _ => rfl⟩
  simp only [if_neg empty, if_neg off, keepaliveFields_eq (show 5 + 0 = 5 from rfl)
    (Nat.zero_le 4) (Nat.zero_le _), List.drop_zero]
  by_cases few : (value.splitOn 58).length ≤ 4
  · obtain ⟨first, read⟩ := parseHandshake_assigns lawful (fieldOf value 0)
    refine ⟨first.bind fun pair => (keepaliveSeconds platform (fieldOf value 1) 0).bind
      fun idle => (keepaliveSeconds platform (fieldOf value 2) 0).bind fun interval =>
        (keepaliveProbes platform (fieldOf value 3) 0).map fun count =>
          .keepalive pair.1 pair.2 idle interval count, ?_, ?_⟩
    · intro locals
      rw [takeFields_pad (List.splitOn_ne_nil 58 value) few]
      refine (takeFields_four ⟨rfl, rfl, rfl, rfl⟩ _ _ _ _ (read _)).trans ?_
      -- Each part that is missing leaves nothing on either side.
      cases first with
      | none => rfl
      | some pair =>
        change Except.ok ((keepaliveSeconds platform (fieldOf value 1) 0).bind _) = _
        cases keepaliveSeconds platform (fieldOf value 1) 0 with
        | none => rfl
        | some idle =>
          change Except.ok ((keepaliveSeconds platform (fieldOf value 2) 0).bind _) = _
          cases keepaliveSeconds platform (fieldOf value 2) 0 with
          | none => rfl
          | some interval =>
            change Except.ok ((keepaliveProbes platform (fieldOf value 3) 0).map _) = _
            cases keepaliveProbes platform (fieldOf value 3) 0 with
            | none => rfl
            | some count => rfl
    · intro meant given
      obtain ⟨pair, _, rest⟩ := Option.bind_eq_some_iff.mp given
      obtain ⟨idle, _, rest⟩ := Option.bind_eq_some_iff.mp rest
      obtain ⟨interval, _, rest⟩ := Option.bind_eq_some_iff.mp rest
      obtain ⟨count, _, rfl⟩ := Option.map_eq_some_iff.mp rest
      exact ⟨rfl, fun _ => rfl⟩
  · refine ⟨none, fun locals => ?_, nofun⟩
    generalize ({ locals.args with
      keepalive := true, keepaliveHandshake := .default, keepaliveIdle := 0
      keepaliveInterval := 0, keepaliveCount := 0 } : CheckArgs) = args
    obtain ⟨result, read⟩ := takeFields_answers lawful 0 (value.splitOn 58) args
    cases result with
    | none => exact read
    | some args' => exact absurd read (takeFields_many (by omega) (by omega))

/-- The setter of `reuse=` assigns a mode and a time. -/
theorem setReuse_assigns (lawful : arith.Lawful platform.word) :
    (setReuse platform arith).Assigns "reuse=" := by
  -- Its value is read without a look at the locals.
  intro value
  unfold setReuse
  by_cases empty : value = []
  · exact ⟨none, fun locals => if_pos empty, nofun⟩
  obtain ⟨result, read⟩ := parseHandshake_assigns lawful value
  refine ⟨result.map fun pair => .reuse pair.1 pair.2, fun locals => ?_, ?_⟩
  · rw [if_neg empty, read]
    cases result with
    | none => rfl
    | some pair => rfl
  · intro meant given
    obtain ⟨pair, _, rfl⟩ := Option.map_eq_some_iff.mp given
    rfl

/-- The setter of `keepalive=` assigns the four fields. -/
theorem setKeepalive_assigns (lawful : arith.Lawful platform.word) :
    (setKeepalive platform arith).Assigns "keepalive=" := by
  -- Its value is read without a look at the locals.
  intro value
  obtain ⟨assignment, read, meant⟩ := parseKeepalive_assigns lawful value
  refine ⟨assignment, fun locals => ?_, fun given member => (meant given member).1⟩
  unfold setKeepalive
  rw [read]
  cases assignment with
  | none => rfl
  | some given =>
    exact congrArg (fun locals => Except.ok (some locals)) ((meant given rfl).2 locals).symm

/-- The setter of `default_down=` assigns a flag. -/
theorem setDown_assigns : setDown.Assigns "default_down=" := by
  -- Its text is one of two, or it is refused.
  intro flag
  unfold setDown
  by_cases yes : equalFold (terminated flag) (bytes "true") = true
  · refine ⟨some (.down 1), fun locals => congrArg Except.ok (if_pos yes), ?_⟩
    rintro meant ⟨⟩
    rfl
  by_cases no : equalFold (terminated flag) (bytes "false") = true
  · refine ⟨some (.down 0), fun locals => ?_, ?_⟩
    · rw [if_neg yes, if_pos no]
      rfl
    · rintro meant ⟨⟩
      rfl
  · refine ⟨none, fun locals => ?_, nofun⟩
    rw [if_neg yes, if_neg no]
    rfl

/-- Every parameter means an assignment of its own variables. -/
theorem parameters_assign (lawful : arith.Lawful platform.word) :
    ∀ entry ∈ parameters platform arith, entry.2.Assigns entry.1 := by
  -- One setter after the other.
  unfold parameters
  simp only [List.forall_mem_cons, List.not_mem_nil, false_implies, implies_true, and_true]
  refine ⟨?_, ?_, ?_, ?_, ?_, ?_, setDown_assigns, setReuse_assigns lawful,
    setKeepalive_assigns lawful⟩
  · exact assigns_map (fun name => checkTypes.find? fun type => type.2 = name)
      (fun type => .type type.1) (fun _ => rfl) fun _ _ => rfl
  · exact assigns_map _ .port (fun _ => rfl) fun _ _ => rfl
  · exact assigns_map _ .interval (fun _ => rfl) fun _ _ => rfl
  · exact assigns_map _ .timeout (fun _ => rfl) fun _ _ => rfl
  · exact assigns_map _ .rise (fun _ => rfl) fun _ _ => rfl
  · exact assigns_map _ .fall (fun _ => rfl) fun _ _ => rfl

/-- The setter of an argument is the one of its key. -/
theorem parameterOf_keyOf (platform : Platform) (arith : Arith) (argument : List UInt8) :
    (parameterOf platform arith argument = none ∧ keyOf argument = none) ∨
      ∃ key setter value, parameterOf platform arith argument = some (setter, value) ∧
        keyOf argument = some key ∧ (key, setter) ∈ parameters platform arith := by
  have keys : parameterKeys = (parameters platform arith).map (·.1) := rfl
  unfold parameterOf keyOf
  rw [keys]
  -- Induction on the parameters that are still to be tried.
  induction parameters platform arith with
  | nil => exact Or.inl ⟨rfl, rfl⟩
  | cons entry rest ih =>
    obtain ⟨key, setter⟩ := entry
    rw [List.map_cons, List.findSome?_cons, List.find?_cons]
    dsimp only
    cases argument.dropPrefix? (bytes key) with
    | some value => exact Or.inr ⟨key, setter, value, rfl, rfl, List.mem_cons_self⟩
    | none =>
      obtain ⟨unknown, unkeyed⟩ | ⟨key', setter', value, found, keyed, member⟩ := ih
      · exact Or.inl ⟨unknown, unkeyed⟩
      · exact Or.inr ⟨key', setter', value, found, keyed, List.mem_cons_of_mem _ member⟩

/-- An argument means an assignment of the variables of its key, if it is valid. -/
theorem checkArgument_assigns (lawful : arith.Lawful platform.word) (argument : List UInt8) :
    ∃ assignment : Option Assignment,
      (∀ locals, checkArgument platform arith argument locals =
        .ok (assignment.map (·.apply locals))) ∧
      ∀ meant ∈ assignment, keyOf argument = some meant.key := by
  -- The key of the argument was found in the table, and its setter assigns.
  unfold checkArgument
  obtain ⟨unknown, _⟩ | ⟨key, setter, value, found, keyed, member⟩ :=
    parameterOf_keyOf platform arith argument
  · rw [unknown]
    exact ⟨none, fun _ => rfl, nofun⟩
  · rw [found]
    obtain ⟨assignment, set, named⟩ := parameters_assign lawful _ member value
    exact ⟨assignment, set, fun meant given => by rw [keyed, named meant given]⟩

/-- One argument after the ones before it, where nothing follows a refusal. -/
def argumentStep (platform : Platform) (arith : Arith) (read : Option CheckLocals)
    (argument : List UInt8) : Option CheckLocals :=
  read.bind fun locals => (checkArgument platform arith argument locals).toOption.join

/-- The loop over the arguments is a fold. -/
theorem checkArguments_fold (lawful : arith.Lawful platform.word)
    (arguments : List (List UInt8)) (locals : CheckLocals) :
    (checkArguments platform arith arguments locals).toOption =
      arguments.foldl (argumentStep platform arith) (some locals) := by
  -- Induction on the arguments; a refused one refuses the whole list.
  have refused : ∀ rest : List (List UInt8),
      rest.foldl (argumentStep platform arith) none = none := by
    intro rest
    induction rest with
    | nil => rfl
    | cons argument rest ih => exact ih
  induction arguments generalizing locals with
  | nil => rfl
  | cons argument rest ih =>
    obtain ⟨assignment, set, _⟩ := checkArgument_assigns lawful argument
    unfold checkArguments
    rw [List.foldl_cons, argumentStep, Option.bind_some, set]
    cases assignment with
    | none => exact (refused rest).symm
    | some meant => exact ih _

/-- Arguments of different keys may change places. -/
theorem argumentStep_comm (lawful : arith.Lawful platform.word) {one two : List UInt8}
    (differ : ∀ key, keyOf one = some key → keyOf two ≠ some key) (read : Option CheckLocals) :
    argumentStep platform arith (argumentStep platform arith read one) two =
      argumentStep platform arith (argumentStep platform arith read two) one := by
  -- Each argument assigns under its own key, or refuses whatever was read.
  obtain ⟨first, setFirst, keyFirst⟩ := checkArgument_assigns lawful one
  obtain ⟨second, setSecond, keySecond⟩ := checkArgument_assigns lawful two
  unfold argumentStep
  simp only [setFirst, setSecond, Except.toOption, Option.join_some]
  cases read with
  | none => rfl
  | some locals =>
    cases first with
    | none => cases second with
      | none => rfl
      | some meant => rfl
    | some meant =>
      cases second with
      | none => rfl
      | some other =>
        simp only [Option.map_some, Option.bind_some, Option.some.injEq]
        apply Assignment.apply_comm
        intro same
        exact differ _ (keyFirst meant rfl) (by rw [same]; exact keySecond other rfl)

/-- Two orders of the same parameters are both refused, or accepted with the same result. -/
theorem check_perm (platform : Platform) (conf : CheckConf)
    (arguments arguments' : List (List UInt8)) (same : arguments.Perm arguments')
    (once : (arguments.filterMap keyOf).Nodup) :
    (check platform (.machine platform.word) conf arguments).toOption =
      (check platform (.machine platform.word) conf arguments').toOption := by
  -- The fold over the arguments is the same in either order, as no key occurs twice.
  have lawful := lawful_machine platform.word
  have apart : ∀ one ∈ arguments, ∀ two ∈ arguments, one ≠ two →
      ∀ key, keyOf one = some key → keyOf two ≠ some key := by
    intro one here two there differ key first second
    have symmetric : Std.Symm fun one two : List UInt8 =>
        ∀ key, keyOf one = some key → ∀ key', keyOf two = some key' → key ≠ key' :=
      ⟨fun _ _ apart _ first _ second same => apart _ second _ first same.symm⟩
    exact (List.pairwise_filterMap.mp once).forall here there differ key first key second rfl
  have fold := same.foldl_eq' (f := argumentStep platform (.machine platform.word))
    (fun one here two there read => by
      by_cases equal : one = two
      · rw [equal]
      · exact argumentStep_comm lawful (apart one here two there equal) read) (some {})
  rw [← checkArguments_fold lawful, ← checkArguments_fold lawful] at fold
  unfold check
  revert fold
  cases checkArguments platform (.machine platform.word) arguments {} with
  | error refusal =>
    cases checkArguments platform (.machine platform.word) arguments' {} with
    | error refusal' => exact fun _ => rfl
    | ok locals' => exact nofun
  | ok locals =>
    cases checkArguments platform (.machine platform.word) arguments' {} with
    | error refusal' => exact nofun
    | ok locals' =>
      intro fold
      cases fold
      rfl

/-- The parameters of the sample directive in another order. -/
theorem check_perm_sample :
    (check samplePlatform (.machine .bits64) zeroConf sampleArguments).toOption =
      (check samplePlatform (.machine .bits64) zeroConf sampleArguments.reverse).toOption :=
  -- The keys of the sample are all different.
  check_perm samplePlatform zeroConf sampleArguments sampleArguments.reverse
    (List.reverse_perm _).symm (by decide)

end Healthcheck
