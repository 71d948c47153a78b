import Mathlib.Order.Bounds.Basic
import Healthcheck.Config.Check

/-!
What an accepted `check` directive promises, and that its arithmetic never wraps: exact arithmetic,
which refuses to, accepts and refuses the same directives with the same results.
-/

namespace Healthcheck

open Ascii

/-- A chain succeeds when its first part does and the rest does with its result. -/
theorem bind_eq_ok {ε α β : Type} {x : Except ε α} {f : α → Except ε β} {b : β} :
    (x >>= f) = .ok b ↔ ∃ a, x = .ok a ∧ f a = .ok b := by
  -- A computation that fails ends the sequence.
  cases x with
  | error e =>
    constructor
    · intro ok
      cases ok
    · rintro ⟨_, ok, _⟩
      cases ok
  | ok a =>
    constructor
    · intro ok
      exact ⟨a, rfl, ok⟩
    · rintro ⟨_, same, ok⟩
      cases same
      exact ok

/-- Arithmetic that gives every result its own value when it is in range. -/
structure Arith.Lawful (word : Word) (arith : Arith) : Prop where
  word_eq : ∀ value : Nat, value ≤ word.max → arith.word value = .ok value
  wide_eq : ∀ value : Nat, value ≤ uint64Max → arith.wide value = .ok value

/-- Machine arithmetic is exact on words. -/
theorem lawful_machine (word : Word) : (Arith.machine word).Lawful word := by
  -- A word is below the modulus.
  constructor
  · intro value small
    have positive : 0 < word.size := by cases word <;> decide
    have size : value < word.size := by
      unfold Word.max at small
      omega
    unfold Arith.machine
    dsimp only
    rw [← Int.natCast_emod, Nat.mod_eq_of_lt size]
    rfl
  · intro value small
    have size : value < 2 ^ 64 := by
      unfold uint64Max at small
      omega
    unfold Arith.machine
    dsimp only
    rw [show ((2 : Int) ^ 64) = ((2 ^ 64 : Nat) : Int) from rfl, ← Int.natCast_emod,
      Nat.mod_eq_of_lt size]
    rfl

/-- Exact arithmetic is exact on words. -/
theorem lawful_exact (word : Word) : (Arith.exact word).Lawful word := by
  -- The test of the range succeeds.
  constructor
  · intro value small
    exact if_pos ⟨Int.natCast_nonneg value, by omega⟩
  · intro value small
    exact if_pos ⟨Int.natCast_nonneg value, by omega⟩

/-- A reconnection time in milliseconds that a timer can represent. -/
def Handshake.Timely (platform : Platform) (mode : Handshake) (time : Nat) : Prop :=
  mode = .time → 1000 ≤ time ∧ time ≤ platform.rehandshakeMax

/-- What holds of the arguments while they are read. -/
structure CheckArgs.Sound (platform : Platform) (args : CheckArgs) : Prop where
  interval_le : args.interval ≤ platform.word.max / 2
  timeout_pos : args.timeoutSet = true → 1 ≤ args.timeout
  reuse : args.reuse.Timely platform args.reuseTime
  handshake : args.keepaliveHandshake.Timely platform args.keepaliveTime
  idle : args.keepaliveIdle ≤ keepaliveTimeMax
  probe : args.keepaliveInterval ≤ keepaliveTimeMax
  count : args.keepaliveCount ≤ keepcntMax

/-- What holds of the whole directive while it is read. -/
structure CheckLocals.Sound (platform : Platform) (locals : CheckLocals) : Prop where
  args : locals.args.Sound platform
  port : locals.port ≤ 65535
  rise : 1 ≤ locals.rise ∧ locals.rise ≤ platform.word.max
  fall : 1 ≤ locals.fall ∧ locals.fall ≤ platform.word.max
  down : locals.down.getD 0 ≤ 1

variable {platform : Platform} {arith other : Arith}

/-- The largest rehandshake interval fits in a word. -/
theorem rehandshakeMax_le (platform : Platform) :
    platform.rehandshakeMax ≤ platform.word.max ∧ platform.rehandshakeMax < uint64Max := by
  -- Both word sizes are looked at.
  unfold Platform.rehandshakeMax
  cases platform.word <;> decide

/-- A time that is accepted is in range in milliseconds. -/
theorem milliseconds_le {seconds : Nat}
    (accepted : ¬ (seconds = 0 ∨ seconds > platform.rehandshakeMax / 1000)) :
    1000 ≤ seconds * 1000 ∧ seconds * 1000 ≤ platform.rehandshakeMax := by
  -- The bound on the seconds is the one on the milliseconds, divided.
  omega

/-- Two lawful arithmetics read a handshake mode alike. -/
theorem parseHandshake_congr (one : arith.Lawful platform.word)
    (two : other.Lawful platform.word) (value : List UInt8) (time : Nat) :
    parseHandshake platform arith value time = parseHandshake platform other value time := by
  unfold parseHandshake
  split
  · rfl
  · split
    · rfl
    · split
      · rfl
      · rename_i seconds _
        split
        · rfl
        · -- The only operation is in range.
          rename_i accepted
          have range := (milliseconds_le accepted).2
          have fits := (rehandshakeMax_le platform).1
          have exact : ((seconds : Int) * 1000) = ((seconds * 1000 : Nat) : Int) := by
            simp
          rw [exact, one.word_eq _ (by omega), two.word_eq _ (by omega)]

/-- A mode that is a time comes with one in range. -/
theorem parseHandshake_timely (lawful : arith.Lawful platform.word) {value : List UInt8}
    {time time' : Nat} {mode : Handshake}
    (read : parseHandshake platform arith value time = .ok (some (mode, time'))) :
    mode.Timely platform time' := by
  -- Only the two timed modes set a time, and both are bounded.
  intro timed
  subst timed
  unfold parseHandshake at read
  split at read
  · cases read
  · split at read
    · cases read
    · split at read
      · cases read
      · rename_i seconds _
        split at read
        · cases read
        · rename_i accepted
          have range := milliseconds_le accepted
          have fits := (rehandshakeMax_le platform).1
          have exact : ((seconds : Int) * 1000) = ((seconds * 1000 : Nat) : Int) := by
            simp
          rw [exact, lawful.word_eq _ (by omega)] at read
          cases read
          exact range

/-- Two lawful arithmetics read a keepalive field alike. -/
theorem keepaliveField_congr (one : arith.Lawful platform.word)
    (two : other.Lawful platform.word) (n : Nat) (field : List UInt8) (args : CheckArgs) :
    keepaliveField platform arith n field args = keepaliveField platform other n field args := by
  -- Only the first field computes anything.
  unfold keepaliveField
  split
  · rw [parseHandshake_congr one two]
  all_goals rfl

/-- Two lawful arithmetics read the keepalive fields alike. -/
theorem keepaliveFields_congr (one : arith.Lawful platform.word)
    (two : other.Lawful platform.word) (value : List UInt8) (fuel n p : Nat)
    (args : CheckArgs) :
    keepaliveFields platform arith value fuel n p args =
      keepaliveFields platform other value fuel n p args := by
  -- Induction on the fuel: one field, and then the others.
  induction fuel generalizing n p args with
  | zero => rfl
  | succ fuel ih =>
    unfold keepaliveFields
    dsimp only
    rw [keepaliveField_congr one two]
    simp only [ih]

/-- Two lawful arithmetics read a keepalive value alike. -/
theorem parseKeepalive_congr (one : arith.Lawful platform.word)
    (two : other.Lawful platform.word) (value : List UInt8) (args : CheckArgs) :
    parseKeepalive platform arith value args = parseKeepalive platform other value args := by
  -- Its fields are read alike.
  unfold parseKeepalive
  rw [keepaliveFields_congr one two]

/-- Two lawful arithmetics read an argument alike. -/
theorem checkArgument_congr (one : arith.Lawful platform.word)
    (two : other.Lawful platform.word) (argument : List UInt8) (locals : CheckLocals) :
    checkArgument platform arith argument locals =
      checkArgument platform other argument locals := by
  -- Only the setters that compute differ in their text.
  have reuse : setReuse platform arith = setReuse platform other := by
    funext value locals
    unfold setReuse
    rw [parseHandshake_congr one two]
  have keepalive : setKeepalive platform arith = setKeepalive platform other := by
    funext value locals
    unfold setKeepalive
    rw [parseKeepalive_congr one two]
  unfold checkArgument parameterOf parameters
  rw [reuse, keepalive]

/-- Two lawful arithmetics read the arguments alike. -/
theorem checkArguments_congr (one : arith.Lawful platform.word)
    (two : other.Lawful platform.word) (arguments : List (List UInt8)) (locals : CheckLocals) :
    checkArguments platform arith arguments locals =
      checkArguments platform other arguments locals := by
  -- Induction on the arguments.
  induction arguments generalizing locals with
  | nil => rfl
  | cons argument rest ih =>
    unfold checkArguments
    rw [checkArgument_congr one two]
    simp only [ih]

/-- A chain that ends in an option gives something only from something. -/
theorem map_eq_ok_some {α β : Type} {x : Except Refusal (Option α)} {f : α → β} {b : β} :
    (do return (← x).map f) = (.ok (some b) : Except Refusal (Option β)) ↔
      ∃ a, x = .ok (some a) ∧ f a = b := by
  -- The computation succeeds with a value that is mapped.
  rw [bind_eq_ok]
  constructor
  · rintro ⟨result, ok, same⟩
    obtain ⟨a, found, value⟩ := Option.map_eq_some_iff.mp (Except.ok.inj same)
    exact ⟨a, by rw [ok, found], value⟩
  · rintro ⟨a, ok, value⟩
    exact ⟨some a, ok, by rw [Option.map_some, value]; rfl⟩

/-- A number of seconds that was read is not larger than its limit. -/
theorem keepaliveSeconds_le {field : List UInt8} {omitted seconds : Nat}
    (small : omitted ≤ keepaliveTimeMax)
    (read : keepaliveSeconds platform field omitted = some seconds) :
    seconds ≤ keepaliveTimeMax := by
  -- The field is empty, or its number was tested.
  unfold keepaliveSeconds at read
  split at read
  · cases read
    exact small
  · exact (of_decide_eq_true (Option.filter_eq_some_iff.mp read).2).2

/-- A number of probes that was read is not larger than its limit. -/
theorem keepaliveProbes_le {field : List UInt8} {omitted count : Nat}
    (small : omitted ≤ keepcntMax)
    (read : keepaliveProbes platform field omitted = some count) : count ≤ keepcntMax := by
  -- The field is empty, or its number was tested.
  unfold keepaliveProbes at read
  split at read
  · cases read
    exact small
  · exact (of_decide_eq_true (Option.filter_eq_some_iff.mp read).2).2

/-- A field of the keepalive parameter is taken over only in range. -/
theorem keepaliveField_sound (lawful : arith.Lawful platform.word) {n : Nat}
    {field : List UInt8} {args args' : CheckArgs} (sound : args.Sound platform)
    (read : keepaliveField platform arith n field args = .ok (some args')) :
    args'.Sound platform := by
  -- Each of the four fields sets one argument, within its bounds.
  obtain ⟨interval, timeout, reuse, handshake, idle, probe, count⟩ := sound
  unfold keepaliveField at read
  split at read
  · obtain ⟨⟨mode, time⟩, parsed, rfl⟩ := map_eq_ok_some.mp read
    exact ⟨interval, timeout, reuse, parseHandshake_timely lawful parsed, idle, probe, count⟩
  · obtain ⟨seconds, parsed, rfl⟩ := Option.map_eq_some_iff.mp (Except.ok.inj read)
    exact ⟨interval, timeout, reuse, handshake, keepaliveSeconds_le idle parsed, probe, count⟩
  · obtain ⟨seconds, parsed, rfl⟩ := Option.map_eq_some_iff.mp (Except.ok.inj read)
    exact ⟨interval, timeout, reuse, handshake, idle, keepaliveSeconds_le probe parsed, count⟩
  · obtain ⟨number, parsed, rfl⟩ := Option.map_eq_some_iff.mp (Except.ok.inj read)
    exact ⟨interval, timeout, reuse, handshake, idle, probe, keepaliveProbes_le count parsed⟩
  · cases Except.ok.inj read

/-- Fields that were read keep the arguments sound. -/
theorem keepaliveFields_sound (lawful : arith.Lawful platform.word) {value : List UInt8}
    {fuel n p : Nat} {args args' : CheckArgs} (sound : args.Sound platform)
    (read : keepaliveFields platform arith value fuel n p args = .ok (some args')) :
    args'.Sound platform := by
  -- Induction on the fuel: one field, and then the others.
  induction fuel generalizing n p args with
  | zero => cases read
  | succ fuel ih =>
    unfold keepaliveFields at read
    split at read
    · obtain ⟨result, parsed, rest⟩ := bind_eq_ok.mp read
      cases result with
      | none => cases rest
      | some between => exact ih (keepaliveField_sound lawful sound parsed) rest
    · cases read
      exact sound

/-- A keepalive value that was read keeps the arguments sound. -/
theorem parseKeepalive_sound (lawful : arith.Lawful platform.word) {value : List UInt8}
    {args args' : CheckArgs} (sound : args.Sound platform)
    (read : parseKeepalive platform arith value args = .ok (some args')) :
    args'.Sound platform := by
  obtain ⟨interval, timeout, reuse, handshake, idle, probe, count⟩ := sound
  unfold parseKeepalive at read
  split at read
  · cases read
  · split at read
    · cases read
      exact ⟨interval, timeout, reuse, handshake, idle, probe, count⟩
    · -- The fields start from the module's defaults.
      apply keepaliveFields_sound lawful _ read
      have untimed : Handshake.default.Timely platform args.keepaliveTime := by
        intro timed
        cases timed
      exact ⟨interval, timeout, reuse, untimed, Nat.zero_le _, Nat.zero_le _, Nat.zero_le _⟩

/-- A positive number is one that a machine word holds. -/
theorem positive_range {digits : List UInt8} {number : Nat}
    (read : positive platform digits = some number) :
    1 ≤ number ∧ number ≤ platform.word.max / 2 := by
  -- The number is parsed as a word and is not zero.
  obtain ⟨parsed, nonzero⟩ := Option.filter_eq_some_iff.mp read
  have bound := platform.atoi_le digits number parsed
  have differs : number ≠ 0 := by simpa using nonzero
  omega

/-- A positive number that was read is a word. -/
theorem positive_word {digits : List UInt8} {number : Nat}
    (read : positive platform digits = some number) :
    1 ≤ number ∧ number ≤ platform.word.max := by
  -- It is half a word at most.
  have range := positive_range read
  omega

/-- What holds of the directive while it is read survives a parameter. -/
def Setter.Keeps (platform : Platform) (setter : Setter) : Prop :=
  ∀ value locals locals', locals.Sound platform → setter value locals = .ok (some locals') →
    locals'.Sound platform

/-- Every parameter keeps the directive sound. -/
theorem parameters_keep (lawful : arith.Lawful platform.word) :
    ∀ entry ∈ parameters platform arith, entry.2.Keeps platform := by
  -- One setter after the other.
  unfold parameters
  simp only [List.forall_mem_cons, List.not_mem_nil, false_implies, implies_true, and_true]
  refine ⟨?_, ?_, ?_, ?_, ?_, ?_, ?_, ?_, ?_⟩
  all_goals
    intro value locals locals' sound read
    obtain ⟨args, port, rise, fall, down⟩ := sound
    have ⟨interval, timeout, reuse, handshake, idle, probe, count⟩ := args
  · obtain ⟨type, _, rfl⟩ := Option.map_eq_some_iff.mp (Except.ok.inj read)
    exact ⟨args, port, rise, fall, down⟩
  · obtain ⟨number, parsed, rfl⟩ := Option.map_eq_some_iff.mp (Except.ok.inj read)
    have range := of_decide_eq_true (Option.filter_eq_some_iff.mp parsed).2
    exact ⟨args, range.2, rise, fall, down⟩
  · obtain ⟨number, parsed, rfl⟩ := Option.map_eq_some_iff.mp (Except.ok.inj read)
    exact ⟨⟨(positive_range parsed).2, timeout, reuse, handshake, idle, probe, count⟩, port,
      rise, fall, down⟩
  · obtain ⟨number, parsed, rfl⟩ := Option.map_eq_some_iff.mp (Except.ok.inj read)
    exact ⟨⟨interval, fun _ => (positive_range parsed).1, reuse, handshake, idle, probe,
      count⟩, port, rise, fall, down⟩
  · obtain ⟨number, parsed, rfl⟩ := Option.map_eq_some_iff.mp (Except.ok.inj read)
    exact ⟨args, port, positive_word parsed, fall, down⟩
  · obtain ⟨number, parsed, rfl⟩ := Option.map_eq_some_iff.mp (Except.ok.inj read)
    exact ⟨args, port, rise, positive_word parsed, down⟩
  · unfold setDown at read
    have found := Except.ok.inj read
    split at found
    · cases found
      exact ⟨args, port, rise, fall, Nat.le_refl 1⟩
    · split at found
      · cases found
        exact ⟨args, port, rise, fall, Nat.zero_le 1⟩
      · cases found
  · unfold setReuse at read
    split at read
    · cases read
    · obtain ⟨⟨mode, time⟩, parsed, rfl⟩ := map_eq_ok_some.mp read
      exact ⟨⟨interval, timeout, parseHandshake_timely lawful parsed, handshake, idle, probe,
        count⟩, port, rise, fall, down⟩
  · obtain ⟨args', parsed, rfl⟩ := map_eq_ok_some.mp read
    exact ⟨parseKeepalive_sound lawful args parsed, port, rise, fall, down⟩

/-- An argument that was read keeps the arguments sound. -/
theorem checkArgument_sound (lawful : arith.Lawful platform.word) {argument : List UInt8}
    {locals locals' : CheckLocals} (sound : locals.Sound platform)
    (read : checkArgument platform arith argument locals = .ok (some locals')) :
    locals'.Sound platform := by
  -- The setter of its key was found in the table.
  unfold checkArgument at read
  split at read
  · cases read
  · rename_i setter value found
    obtain ⟨entry, member, starts⟩ := List.exists_of_findSome?_eq_some found
    obtain ⟨rest, _, pair⟩ := Option.map_eq_some_iff.mp starts
    cases pair
    exact parameters_keep lawful entry member value locals locals' sound read

/-- Whatever the arguments are, what is read from them is sound. -/
theorem checkArguments_sound (lawful : arith.Lawful platform.word)
    {arguments : List (List UInt8)} {locals locals' : CheckLocals}
    (sound : locals.Sound platform)
    (read : checkArguments platform arith arguments locals = .ok locals') :
    locals'.Sound platform := by
  -- Induction on the arguments.
  induction arguments generalizing locals with
  | nil =>
    cases read
    exact sound
  | cons argument rest ih =>
    obtain ⟨result, parsed, later⟩ := bind_eq_ok.mp read
    cases result with
    | none => cases later
    | some between => exact ih (checkArgument_sound lawful sound parsed) later

/-- The defaults pass every check that given values have to pass. -/
theorem defaults_sound (platform : Platform) : ({} : CheckLocals).Sound platform := by
  -- The defaults pass each of the bounds.
  have positive : 5000 ≤ platform.word.max / 2 := by cases platform.word <;> decide
  constructor
  · constructor
    · exact positive
    · intro given
      cases given
    · intro timed
      cases timed
    · intro timed
      cases timed
    · exact Nat.zero_le _
    · exact Nat.zero_le _
    · exact Nat.zero_le _
  · exact Nat.zero_le _
  · show 1 ≤ 2 ∧ 2 ≤ platform.word.max
    omega
  · show 1 ≤ 3 ∧ 3 ≤ platform.word.max
    omega
  · exact Nat.zero_le _

/-- Half a word leaves room for a second and for doubling. -/
theorem half_word (platform : Platform) :
    platform.word.max / 2 + 1000 ≤ platform.word.max ∧
      platform.word.max / 2 * 2 ≤ uint64Max ∧ platform.word.max ≤ uint64Max := by
  -- Both word sizes are looked at.
  cases platform.word <;> decide

/-- Two lawful arithmetics complete the timeout alike. -/
theorem finishTimeout_congr (one : arith.Lawful platform.word)
    (two : other.Lawful platform.word) {args : CheckArgs} (sound : args.Sound platform) :
    finishTimeout arith args = finishTimeout other args := by
  -- The difference that is computed is not negative.
  have range := sound.interval_le
  have exact : ((args.interval : Int) - (args.interval / 10 : Nat)) =
      ((args.interval - args.interval / 10 : Nat) : Int) := by
    omega
  unfold finishTimeout
  rw [exact, one.word_eq _ (by omega), two.word_eq _ (by omega)]

/-- The timeout of an accepted directive lies strictly within the interval. -/
theorem finishTimeout_range (lawful : arith.Lawful platform.word) {args : CheckArgs}
    {timeout : Nat} (sound : args.Sound platform) (long : 100 ≤ args.interval)
    (done : finishTimeout arith args = .ok timeout) : 0 < timeout ∧ timeout < args.interval := by
  have range := sound.interval_le
  unfold finishTimeout at done
  split at done
  · rename_i given
    have positive := sound.timeout_pos given
    split at done
    · cases done
    · cases done
      omega
  · -- Nine tenths of at least a hundred milliseconds.
    have exact : ((args.interval : Int) - (args.interval / 10 : Nat)) =
        ((args.interval - args.interval / 10 : Nat) : Int) := by
      omega
    rw [exact, lawful.word_eq _ (by omega)] at done
    cases done
    omega

/-- The idle times that are multiplied are small. -/
theorem givenIdle_eq (lawful : arith.Lawful platform.word) {idle : Nat}
    (small : idle ≤ keepaliveTimeMax) (handshake : Nat) :
    givenIdle arith idle handshake =
      if handshake ≠ uint64Max ∧ idle * 1000 ≥ handshake then
        .error (.message "check keepalive idle must be less than the rehandshake interval")
      else .ok idle := by
  -- The product fits in a word, so both arithmetics compare the same numbers.
  have exact : ((idle : Int) * 1000) = ((idle * 1000 : Nat) : Int) := by simp
  have range : idle * 1000 ≤ uint64Max := by
    unfold keepaliveTimeMax at small
    unfold uint64Max
    omega
  unfold givenIdle
  rw [exact, lawful.wide_eq _ range]
  by_cases never : handshake = uint64Max
  · simp [never]
  · by_cases late : idle * 1000 ≥ handshake
    · simp only [if_neg never, bind, Except.bind, if_pos late, if_pos (And.intro never late)]
    · have fine : ¬ (handshake ≠ uint64Max ∧ idle * 1000 ≥ handshake) := fun both => late both.2
      simp only [if_neg never, bind, Except.bind, if_neg late, if_neg fine]
      rfl

/-- The interval in whole seconds, rounded up, unless a reconnection comes first. -/
def defaultIdle (interval handshake : Nat) : Nat :=
  if handshake = uint64Max then (interval + 999) / 1000
  else min ((interval + 999) / 1000) ((handshake - 1) / 1000)

/-- An omitted idle time is the default one. -/
theorem omittedIdle_eq (lawful : arith.Lawful platform.word) {interval handshake : Nat}
    (range : interval ≤ platform.word.max / 2) (positive : 1 ≤ handshake)
    (small : handshake ≤ uint64Max) :
    omittedIdle arith interval handshake = .ok (defaultIdle interval handshake) := by
  -- Every intermediate result fits in a word.
  have half := half_word platform
  have up : ((interval : Int) + 999) = ((interval + 999 : Nat) : Int) := by simp
  have down : ((handshake : Int) - 1) = ((handshake - 1 : Nat) : Int) := by omega
  unfold omittedIdle defaultIdle
  rw [up, down, lawful.word_eq _ (by omega), lawful.wide_eq _ (by omega)]
  by_cases never : handshake = uint64Max
  · simp only [never, if_pos, bind, Except.bind]
    rfl
  · simp only [if_neg never, bind, Except.bind]
    rfl

/-- Two lawful arithmetics complete the idle time alike. -/
theorem finishIdle_congr (one : arith.Lawful platform.word) (two : other.Lawful platform.word)
    {args : CheckArgs} {interval handshake : Nat} (sound : args.Sound platform)
    (range : interval ≤ platform.word.max / 2) (positive : 1 ≤ handshake)
    (small : handshake ≤ uint64Max) :
    finishIdle arith interval handshake args = finishIdle other interval handshake args := by
  -- A given idle time and an omitted one are both in range.
  unfold finishIdle
  rw [givenIdle_eq one sound.idle, givenIdle_eq two sound.idle,
    omittedIdle_eq one range positive small, omittedIdle_eq two range positive small]

/-- The idle time of an accepted directive. -/
structure IdleFits (args : CheckArgs) (interval handshake idle : Nat) : Prop where
  positive : 1 ≤ idle
  most : idle ≤ keepaliveTimeMax
  early : handshake ≠ uint64Max → idle * 1000 < handshake
  omitted : args.keepaliveIdle = 0 →
    idle = min (defaultIdle interval handshake) keepaliveTimeMax

/-- An idle time that was accepted ends before the handshake of the connection. -/
theorem finishIdle_fits (lawful : arith.Lawful platform.word) {args : CheckArgs}
    {interval handshake idle : Nat} (sound : args.Sound platform)
    (range : interval ≤ platform.word.max / 2) (positive : 1 ≤ handshake)
    (small : handshake ≤ uint64Max)
    (done : finishIdle arith interval handshake args = .ok idle) :
    IdleFits args interval handshake idle := by
  have limit := sound.idle
  unfold finishIdle at done
  split at done
  · rename_i given
    rw [givenIdle_eq lawful limit] at done
    split at done
    · cases done
    · rename_i fine
      cases done
      constructor
      · omega
      · exact limit
      · intro finite
        by_contra late
        exact fine ⟨finite, by omega⟩
      · intro none
        exact absurd none given
  · rw [omittedIdle_eq lawful range positive small] at done
    obtain ⟨rounded, same, rest⟩ := bind_eq_ok.mp done
    cases same
    split at rest
    · cases rest
    · cases rest
      constructor
      · show 1 ≤ min _ keepaliveTimeMax
        unfold keepaliveTimeMax
        omega
      · exact Nat.min_le_right _ _
      · -- Rounded down, the largest whole second is below the reconnection time.
        intro finite
        have bound : min (defaultIdle interval handshake) keepaliveTimeMax ≤
            (handshake - 1) / 1000 := by
          unfold defaultIdle
          rw [if_neg finite]
          omega
        omega
      · intro _
        rfl

/-- The module's own reconnection time. -/
def CheckArgs.ownTime (platform : Platform) (args : CheckArgs) : Nat :=
  min (max 30000 (args.interval * 2)) platform.rehandshakeMax

/-- The reconnection times that `reuse` and an enabled `keepalive` contribute, never apart. -/
def CheckArgs.limits (platform : Platform) (args : CheckArgs) : Nat × Nat :=
  (handshakeTime args.reuse (args.ownTime platform) args.reuseTime,
    if args.keepalive then
      handshakeTime args.keepaliveHandshake (args.ownTime platform) args.keepaliveTime
    else uint64Max)

/-- The parameters of the upstream once its reconnection time is known. -/
def finishedConf (conf : CheckConf) (args : CheckArgs) (timeout handshake : Nat) : CheckConf :=
  { conf with
    checkInterval := args.interval, checkTimeout := timeout
    keepConnection := decide (args.reuse ≠ .off) || args.keepalive
    rehandshake := if handshake = uint64Max then 0 else handshake
    keepalive := args.keepalive }

/-- A reconnection time is never, or one that a timer can represent. -/
theorem handshakeTime_range {mode : Handshake} {time own : Nat}
    (small : own ≤ platform.rehandshakeMax)
    (timely : mode.Timely platform time) :
    handshakeTime mode own time = uint64Max ∨
      handshakeTime mode own time ≤ platform.rehandshakeMax := by
  -- A mode sets no limit, its own time or the largest one.
  cases mode with
  | off => exact Or.inl rfl
  | default => exact Or.inr small
  | time => exact Or.inr (timely rfl).2

/-- Both limits are absent or in range. -/
theorem limits_range {args : CheckArgs} (sound : args.Sound platform) :
    ((args.limits platform).1 = uint64Max ∨ (args.limits platform).1 ≤ platform.rehandshakeMax) ∧
      ((args.limits platform).2 = uint64Max ∨
        (args.limits platform).2 ≤ platform.rehandshakeMax) := by
  -- Each comes from one of the two timed modes.
  have own : args.ownTime platform ≤ platform.rehandshakeMax := Nat.min_le_right _ _
  constructor
  · exact handshakeTime_range own sound.reuse
  · show (if args.keepalive then _ else uint64Max) = uint64Max ∨ _
    unfold CheckArgs.limits
    dsimp only
    split
    · exact handshakeTime_range own sound.handshake
    · exact Or.inl rfl

/-- The part of the directive's end that follows the timeout, with its arithmetic carried out. -/
def finishTimes (platform : Platform) (arith : Arith) (conf : CheckConf) (args : CheckArgs)
    (timeout : Nat) : Except Refusal CheckConf :=
  if conf.checkType ≠ .tcp ∧ (args.reuse ≠ .off ∨ args.keepalive) then
    .error (.message "reuse and keepalive are only valid with type=tcp")
  else if (args.limits platform).1 ≤ args.interval ∨
      (args.limits platform).2 ≤ args.interval then
    .error (.message "check rehandshake interval must be greater than interval")
  else
    let handshake := min (args.limits platform).1 (args.limits platform).2
    let conf := finishedConf conf args timeout handshake
    if ¬ args.keepalive then .ok conf else finishKeepalive platform arith conf args handshake

/-- The end of the directive, with the tests of the times as one step. -/
theorem finishConf_eq (lawful : arith.Lawful platform.word) {args : CheckArgs}
    (sound : args.Sound platform) (conf : CheckConf) :
    finishConf platform arith conf args =
      if args.interval < 100 then .error (.message "check interval must be at least 100 ms")
      else finishTimeout arith args >>= finishTimes platform arith conf args := by
  have half := half_word platform
  have range := sound.interval_le
  have limits := limits_range sound
  have most := rehandshakeMax_le platform
  have double : ((args.interval : Int) * 2) = ((args.interval * 2 : Nat) : Int) := by simp
  -- The reconnection time is never or one that a timer can represent, so its cast keeps it.
  have cast : keptHandshake arith (min (args.limits platform).1 (args.limits platform).2) =
      .ok (if min (args.limits platform).1 (args.limits platform).2 = uint64Max then 0
        else min (args.limits platform).1 (args.limits platform).2) := by
    unfold keptHandshake
    split
    · rfl
    · exact lawful.word_eq _ (by omega)
  unfold finishConf
  rw [double, lawful.wide_eq _ (by omega)]
  refine if_congr Iff.rfl rfl (bind_congr fun timeout => ?_)
  unfold finishTimes
  refine if_congr Iff.rfl rfl ?_
  show (if (args.limits platform).1 ≤ args.interval ∨
      (args.limits platform).2 ≤ args.interval then _ else keptHandshake arith
        (min (args.limits platform).1 (args.limits platform).2) >>= _) = _
  rw [cast]
  exact if_congr Iff.rfl rfl (if_congr Iff.rfl rfl rfl)

/-- The finite reconnection time of a mode, as a list. -/
def Handshake.contributes (mode : Handshake) (own time : Nat) : List Nat :=
  match mode with
  | .off => []
  | .default => [own]
  | .time => [time]

/-- The finite reconnection times of `reuse` and an enabled `keepalive`. -/
def CheckArgs.contributed (platform : Platform) (args : CheckArgs) : List Nat :=
  args.reuse.contributes (args.ownTime platform) args.reuseTime ++
    if args.keepalive then
      args.keepaliveHandshake.contributes (args.ownTime platform) args.keepaliveTime
    else []

/-- What the module makes of an accepted directive, given the arguments as they were read. -/
structure CheckConf.Accepted (platform : Platform) (args : CheckArgs) (conf : CheckConf) :
    Prop where
  coherent : conf.Coherent platform.word
  fits : conf.Fits platform.word
  port : conf.port ≤ 65535
  udp : conf.checkType = .udp → conf.keepConnection = false ∧ conf.keepalive = false
  never : conf.rehandshake = 0 ↔ args.contributed platform = []
  soonest : args.contributed platform ≠ [] →
    IsLeast (fun time => time ∈ args.contributed platform) conf.rehandshake ∧
      conf.checkInterval < conf.rehandshake
  keeps : conf.keepalive = true → conf.keepConnection = true
  probe : conf.keepalive = true → 1 ≤ conf.keepaliveInterval ∧
    conf.keepaliveInterval ≤ conf.keepaliveIdle ∧ conf.keepaliveIdle ≤ keepaliveTimeMax
  count : conf.keepalive = true → 1 ≤ conf.keepaliveCount ∧ conf.keepaliveCount ≤ keepcntMax
  early : conf.keepalive = true → conf.rehandshake ≠ 0 →
    conf.keepaliveIdle * 1000 < conf.rehandshake
  omitted : conf.keepalive = true → args.keepaliveIdle = 0 →
    conf.keepaliveIdle = min keepaliveTimeMax
      (if conf.rehandshake = 0 then (conf.checkInterval + 999) / 1000
        else min ((conf.checkInterval + 999) / 1000) ((conf.rehandshake - 1) / 1000))

/-- A mode that is off is never, and any other one contributes its time. -/
theorem handshakeTime_cases {mode : Handshake} {time : Nat} (platform : Platform)
    (args : CheckArgs) (timely : mode.Timely platform time) :
    handshakeTime mode (args.ownTime platform) time = uint64Max ∧
        mode.contributes (args.ownTime platform) time = [] ∨
      handshakeTime mode (args.ownTime platform) time < uint64Max ∧
        mode.contributes (args.ownTime platform) time =
          [handshakeTime mode (args.ownTime platform) time] := by
  -- A mode without a time contributes nothing, any other one contributes its time.
  have most := (rehandshakeMax_le platform).2
  have own : args.ownTime platform ≤ platform.rehandshakeMax := Nat.min_le_right _ _
  cases mode with
  | off => exact Or.inl ⟨rfl, rfl⟩
  | default => exact Or.inr ⟨Nat.lt_of_le_of_lt own most, rfl⟩
  | time => exact Or.inr ⟨Nat.lt_of_le_of_lt (timely rfl).2 most, rfl⟩

/-- The smaller limit is never exactly when nothing is contributed, and else the least of that. -/
theorem limits_contributed {args : CheckArgs} (sound : args.Sound platform) :
    (args.contributed platform = [] ∧
        min (args.limits platform).1 (args.limits platform).2 = uint64Max) ∨
      min (args.limits platform).1 (args.limits platform).2 < uint64Max ∧
        IsLeast (fun time => time ∈ args.contributed platform)
          (min (args.limits platform).1 (args.limits platform).2) := by
  have second : (args.limits platform).2 = uint64Max ∧
        (if args.keepalive then
          args.keepaliveHandshake.contributes (args.ownTime platform) args.keepaliveTime
          else []) = [] ∨
      (args.limits platform).2 < uint64Max ∧
        (if args.keepalive then
          args.keepaliveHandshake.contributes (args.ownTime platform) args.keepaliveTime
          else []) = [(args.limits platform).2] := by
    unfold CheckArgs.limits
    dsimp only
    by_cases alive : args.keepalive = true
    · rw [if_pos alive, if_pos alive]
      exact handshakeTime_cases platform args sound.handshake
    · rw [if_neg alive, if_neg alive]
      exact Or.inl ⟨rfl, rfl⟩
  have first := handshakeTime_cases platform args sound.reuse
  have shown : (args.limits platform).1 =
      handshakeTime args.reuse (args.ownTime platform) args.reuseTime := rfl
  unfold CheckArgs.contributed
  rw [← shown] at first
  -- Never is larger than every time that is contributed.
  rcases first with ⟨never, none⟩ | ⟨small, one⟩ <;>
    rcases second with ⟨never', none'⟩ | ⟨small', one'⟩
  · rw [none, none', never, never']
    exact Or.inl ⟨rfl, Nat.min_self _⟩
  · rw [none, one', never, Nat.min_eq_right (Nat.le_of_lt small')]
    exact Or.inr ⟨small', List.mem_singleton_self _,
      fun _ member => (List.mem_singleton.mp member).ge⟩
  · rw [one, none', never', Nat.min_eq_left (Nat.le_of_lt small)]
    exact Or.inr ⟨small, List.mem_singleton_self _,
      fun _ member => (List.mem_singleton.mp member).ge⟩
  · rw [one, one']
    refine Or.inr ⟨Nat.lt_of_le_of_lt (Nat.min_le_left _ _) small, ?_, ?_⟩
    · show min _ _ ∈ [_, _]
      rcases Nat.le_total (args.limits platform).1 (args.limits platform).2 with before | after
      · rw [Nat.min_eq_left before]
        exact List.mem_cons_self
      · rw [Nat.min_eq_right after]
        exact List.mem_cons_of_mem _ (List.mem_singleton_self _)
    · intro time member
      rcases List.mem_cons.mp member with same | other
      · rw [same]
        exact Nat.min_le_left _ _
      · rw [List.mem_singleton.mp other]
        exact Nat.min_le_right _ _

/-- The end of the keepalive parameters sets these, in range, and nothing else. -/
theorem finishKeepalive_fits (lawful : arith.Lawful platform.word) {args : CheckArgs}
    {conf conf' : CheckConf} {handshake : Nat} (sound : args.Sound platform)
    (range : conf.checkInterval ≤ platform.word.max / 2) (positive : 1 ≤ handshake)
    (small : handshake ≤ uint64Max)
    (done : finishKeepalive platform arith conf args handshake = .ok conf') :
    ∃ idle interval count,
      conf' = { conf with keepaliveIdle := idle, keepaliveInterval := interval,
                          keepaliveCount := count } ∧
      IdleFits args conf.checkInterval handshake idle ∧ (1 ≤ interval ∧ interval ≤ idle) ∧
      1 ≤ count ∧ count ≤ keepcntMax := by
  -- The three times are completed one after the other.
  have limit := sound.count
  unfold finishKeepalive at done
  split at done
  · cases done
  obtain ⟨idle, found, rest⟩ := bind_eq_ok.mp done
  dsimp only at rest
  by_cases beyond : (if args.keepaliveInterval ≠ 0 then args.keepaliveInterval else 1) > idle
  · rw [if_pos beyond] at rest
    cases rest
  · rw [if_neg beyond] at rest
    cases Except.ok.inj rest
    refine ⟨_, _, _, rfl, finishIdle_fits lawful sound range positive small found,
      ⟨?_, Nat.le_of_not_lt beyond⟩, ?_⟩
    · split <;> omega
    · unfold keepcntMax at *
      split <;> omega

/-- The reconnection time as it is kept says which times were contributed. -/
theorem finishedConf_times {args : CheckArgs} (sound : args.Sound platform) (conf : CheckConf)
    (timeout : Nat)
    (late : ¬ ((args.limits platform).1 ≤ args.interval ∨
      (args.limits platform).2 ≤ args.interval)) :
    let handshake := min (args.limits platform).1 (args.limits platform).2
    let kept := (finishedConf conf args timeout handshake).rehandshake
    (handshake = uint64Max ∧ kept = 0 ∧ args.contributed platform = [] ∨
      handshake ≠ uint64Max ∧ kept = handshake ∧ args.contributed platform ≠ [] ∧
        IsLeast (fun time => time ∈ args.contributed platform) kept) ∧
      args.interval < handshake ∧ handshake ≤ uint64Max := by
  -- The smaller limit is kept, unless both are absent.
  intro handshake kept
  have beyond : args.interval < handshake := by
    show args.interval < min _ _
    omega
  rcases limits_contributed sound with ⟨none, never⟩ | ⟨finite, least⟩
  · exact ⟨Or.inl ⟨never, if_pos never, none⟩, beyond, Nat.le_of_eq never⟩
  · have differs : handshake ≠ uint64Max := Nat.ne_of_lt finite
    have same : kept = handshake := if_neg differs
    refine ⟨Or.inr ⟨differs, same, ?_, by rw [same]; exact least⟩, beyond, Nat.le_of_lt finite⟩
    intro none
    have member := least.1
    rw [none] at member
    cases member

/-- The end of a directive keeps what the parameters promise, and adds what it computes. -/
theorem finishConf_accepted (lawful : arith.Lawful platform.word) {args : CheckArgs}
    {conf conf' : CheckConf} (sound : args.Sound platform) (port : conf.port ≤ 65535)
    (rise : 1 ≤ conf.riseCount ∧ conf.riseCount ≤ platform.word.max)
    (fall : 1 ≤ conf.fallCount ∧ conf.fallCount ≤ platform.word.max)
    (down : conf.defaultDown ≤ 1)
    (done : finishConf platform arith conf args = .ok conf') :
    conf'.Accepted platform args := by
  rw [finishConf_eq lawful sound] at done
  split at done
  · cases done
  rename_i short
  have long : 100 ≤ args.interval := Nat.le_of_not_lt short
  obtain ⟨timeout, timed, rest⟩ := bind_eq_ok.mp done
  have within := finishTimeout_range lawful sound long timed
  have range := sound.interval_le
  unfold finishTimes at rest
  split at rest
  · cases rest
  rename_i typed
  split at rest
  · cases rest
  rename_i late
  have ⟨times, beyond, small⟩ := finishedConf_times sound conf timeout late
  have coherent : (finishedConf conf args timeout
      (min (args.limits platform).1 (args.limits platform).2)).Coherent platform.word :=
    ⟨long, by
      show args.interval ≤ _
      omega, within.1, within.2, rise.1, fall.1, down⟩
  have udp : conf.checkType = .udp → (decide (args.reuse ≠ .off) || args.keepalive) = false ∧
      args.keepalive = false := by
    -- The directive was refused for any type but TCP with one of the parameters.
    intro datagram
    have plain : ¬ (args.reuse ≠ .off ∨ args.keepalive = true) := fun either =>
      typed ⟨by rw [datagram]; decide, either⟩
    constructor
    · simpa [not_or] using plain
    · simpa using fun alive => plain (Or.inr alive)
  have never : (finishedConf conf args timeout
      (min (args.limits platform).1 (args.limits platform).2)).rehandshake = 0 ↔
        args.contributed platform = [] := by
    rcases times with ⟨_, zero, none⟩ | ⟨_, same, some, _⟩
    · exact ⟨fun _ => none, fun _ => zero⟩
    · exact ⟨fun zero => by omega, fun none => absurd none some⟩
  have soonest : args.contributed platform ≠ [] →
      IsLeast (fun time => time ∈ args.contributed platform)
        (finishedConf conf args timeout
          (min (args.limits platform).1 (args.limits platform).2)).rehandshake ∧
      args.interval < (finishedConf conf args timeout
        (min (args.limits platform).1 (args.limits platform).2)).rehandshake := by
    intro some
    rcases times with ⟨_, _, none⟩ | ⟨_, same, _, least⟩
    · exact absurd none some
    · exact ⟨least, by rw [same]; exact beyond⟩
  dsimp only at rest
  split at rest
  · -- Without keepalive the keepalive parameters stay as they were.
    rename_i plain
    have off : args.keepalive = false := by simpa using plain
    cases rest
    constructor
    · exact coherent
    · exact ⟨rise.2, fall.2⟩
    · exact port
    · exact udp
    · exact never
    · exact soonest
    all_goals
      intro alive
      exact absurd (show args.keepalive = true from alive) (by rw [off]; decide)
  · rename_i alive
    have on : args.keepalive = true := by simpa using alive
    obtain ⟨idle, interval, count, rfl, idleFits, probe, counted⟩ :=
      finishKeepalive_fits lawful sound (by exact range) (by omega) small rest
    constructor
    · exact ⟨coherent.1, coherent.2, coherent.3, coherent.4, coherent.5, coherent.6,
        coherent.7⟩
    · exact ⟨rise.2, fall.2⟩
    · exact port
    · exact udp
    · exact never
    · exact soonest
    · intro _
      show (decide (args.reuse ≠ .off) || args.keepalive) = true
      rw [on, Bool.or_true]
    · intro _
      exact ⟨probe.1, probe.2, idleFits.most⟩
    · intro _
      exact counted
    · intro _ kept
      rcases times with ⟨_, zero, _⟩ | ⟨finite, same, _⟩
      · exact absurd zero kept
      · exact Nat.lt_of_lt_of_eq (idleFits.early finite) same.symm
    · intro _ none
      show idle = min keepaliveTimeMax
        (if (finishedConf conf args timeout _).rehandshake = 0 then (args.interval + 999) / 1000
          else min ((args.interval + 999) / 1000)
            (((finishedConf conf args timeout _).rehandshake - 1) / 1000))
      have formula := idleFits.omitted none
      rw [Nat.min_comm] at formula
      rw [formula]
      congr 1
      rcases times with ⟨endless, zero, _⟩ | ⟨finite, same, some, _⟩
      · rw [if_pos zero]
        exact if_pos endless
      · rw [if_neg fun zero => some (never.mp zero), same]
        exact if_neg finite

/-- The end of a directive depends on its arithmetic only where that would wrap. -/
theorem finishConf_congr (one : arith.Lawful platform.word) (two : other.Lawful platform.word)
    {args : CheckArgs} (sound : args.Sound platform) (conf : CheckConf) :
    finishConf platform arith conf args = finishConf platform other conf args := by
  -- Each of the completed times is the same.
  have range := sound.interval_le
  rw [finishConf_eq one sound, finishConf_eq two sound, finishTimeout_congr one two sound]
  refine if_congr Iff.rfl rfl (bind_congr fun timeout => ?_)
  unfold finishTimes
  split
  · rfl
  split
  · rfl
  rename_i late
  have ⟨_, beyond, small⟩ := finishedConf_times sound conf timeout late
  dsimp only
  unfold finishKeepalive
  rw [finishIdle_congr one two sound (by exact range) (by omega) small]

/-- The directive means the same in exact arithmetic, where wrapping around would refuse it. -/
theorem check_congr (one : arith.Lawful platform.word) (two : other.Lawful platform.word)
    (conf : CheckConf) (arguments : List (List UInt8)) :
    check platform arith conf arguments = check platform other conf arguments := by
  -- The arguments are read alike, and so is what completes them.
  unfold check
  rw [checkArguments_congr one two]
  cases read : checkArguments platform other arguments {} with
  | error refusal => rfl
  | ok locals =>
    have sound := checkArguments_sound two (defaults_sound platform) read
    exact finishConf_congr one two sound.args _

/-- Every accepted directive gives a coherent configuration, computed without wrapping around. -/
theorem check_coherent (platform : Platform) (before conf : CheckConf)
    (arguments : List (List UInt8))
    (accepted : check platform (.machine platform.word) before arguments = .ok conf) :
    check platform (.exact platform.word) before arguments = .ok conf ∧
      ∃ locals, checkArguments platform (.machine platform.word) arguments {} = .ok locals ∧
        conf.Accepted platform locals.args := by
  -- The machine is exact here, and what it accepts has passed every test.
  have lawful := lawful_machine platform.word
  constructor
  · rw [check_congr (lawful_exact platform.word) lawful]
    exact accepted
  · obtain ⟨locals, read, done⟩ := bind_eq_ok.mp accepted
    have sound := checkArguments_sound lawful (defaults_sound platform) read
    exact ⟨locals, read, finishConf_accepted lawful sound.args sound.port sound.rise sound.fall
      sound.down done⟩

/-- A platform whose parsers read bare numbers. -/
def samplePlatform : Platform where
  word := .bits64
  keepaliveTunable := true
  atoi digits := (decimal digits).filter (· ≤ Word.bits64.max / 2)
  parseTime := decimal
  atoi_le := by
    intro digits number read
    exact of_decide_eq_true (Option.filter_eq_some_iff.mp read).2

/-- The parameters of an upstream before its directive is read. -/
def zeroConf : CheckConf :=
  { fallCount := 0, riseCount := 0, checkInterval := 0, checkTimeout := 0, checkType := .tcp,
    send := [], defaultDown := 0, keepConnection := false, rehandshake := 0, keepalive := false,
    keepaliveIdle := 0, keepaliveInterval := 0, keepaliveCount := 0 }

/-- A directive with two reconnection times, of which the smaller one counts. -/
def sampleArguments : List (List UInt8) :=
  [bytes "interval=40000", bytes "reuse=120", bytes "keepalive=300::2"]

/-- What the directive is accepted with. -/
def acceptedConf : CheckConf :=
  { zeroConf with
    riseCount := 2, fallCount := 3, checkInterval := 40000, checkTimeout := 5000
    keepConnection := true, rehandshake := 120000, keepalive := true, keepaliveIdle := 40
    keepaliveInterval := 2, keepaliveCount := 3 }

/-- The sample directive is accepted. -/
theorem check_coherent_sample :
    check samplePlatform (.exact .bits64) zeroConf sampleArguments = .ok acceptedConf ∧
      ∃ locals, checkArguments samplePlatform (.machine .bits64) sampleArguments {} =
          .ok locals ∧ acceptedConf.Accepted samplePlatform locals.args :=
  -- The exact run is computed, and the theorem gives the one of the machine.
  check_coherent samplePlatform zeroConf acceptedConf sampleArguments (by decide +kernel)

end Healthcheck
