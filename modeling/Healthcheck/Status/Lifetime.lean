import Healthcheck.Status.PageLaws
import Healthcheck.Status.WaitLaws

/-!
A status request from the content handler to its end: it answers at once, or it is suspended with a
timer and a cleanup until it is finalized or the core drops it.
-/

namespace Healthcheck

/-- What becomes known to the core about the result of a request. -/
inductive Verdict where
  /-- The content handler returned. -/
  | returned (rc : Int)
  /-- `ngx_http_finalize_request`. -/
  | finalized (rc : Int)
  deriving DecidableEq, Repr

/-- `NGX_ERROR`. -/
def rcError : Int := -1

/-- `NGX_DONE`. -/
def rcDone : Int := -4

/-- `NGX_HTTP_INTERNAL_SERVER_ERROR`. -/
def rcInternal : Int := 500

/-- What the core and the pool answer to the start of a request. -/
structure RequestStart where
  /-- `r->connection->error`. -/
  lost : Bool
  /-- Whether there is memory for the context. -/
  context : Bool
  /-- Whether there is memory for the rows of each group. -/
  rows : Nat → Bool
  /-- Whether a cleanup can be added. -/
  cleanup : Bool
  answer : Resumption

/-- A status request, with what the core has of it. -/
structure Lifetime where
  request : Request
  /-- The delay of the `retry` event, while it is armed. -/
  timer : Option Nat := none
  /-- Whether the cleanup has a handler. -/
  cleanup : Bool := false
  /-- The references to the main request that were taken for this one. -/
  references : Int := 0
  /-- Newest first. -/
  verdicts : List Verdict := []
  /-- The core has released the request and its pool. -/
  freed : Bool := false

/-- `ngx_healthcheck_request_cleanup`. -/
def requestCleanup (s : Lifetime) : Lifetime :=
  { s with timer := none, cleanup := false }

/-- The content handler returns. -/
def Lifetime.return (s : Lifetime) (rc : Int) : Lifetime :=
  { s with verdicts := .returned rc :: s.verdicts }

/-- The end of `ngx_healthcheck_request_resume`: finalizing gives the reference back. -/
def Lifetime.finalize (s : Lifetime) (rc : Int) : Lifetime :=
  let s := requestCleanup s
  { s with references := s.references - 1, verdicts := .finalized rc :: s.verdicts }

/-- A batch of a request is collected. -/
def Lifetime.collect (script : Nat → Reading) (s : Lifetime) : Lifetime :=
  { s with request := { s.request with state := Healthcheck.collect script s.request.state.2 } }

/-- `ngx_healthcheck_request_wait` up to its timer. -/
def Lifetime.wait (module : Nat → Nat) (answer : Resumption) (s : Lifetime) : Lifetime :=
  { s with request := requestWait module answer s.request }

/-- The timer of a request that waits. -/
def Lifetime.arm (s : Lifetime) : Lifetime :=
  { s with timer := some s.request.retry }

/-- The core releases a request; a cleanup that has a handler runs. -/
def Lifetime.release (s : Lifetime) : Lifetime :=
  { (if s.cleanup then requestCleanup s else s) with freed := true }

variable (module : Nat → Nat) (script : Nat → Reading) (output : (Nat → Snapshot) → Int)

/-- The part of `ngx_healthcheck_status_request` that suspends a request after its first batch. -/
def startWait (start : RequestStart) (s : Lifetime) : Lifetime :=
  if ¬ start.cleanup then s.return rcInternal
  else
    let s := { s with cleanup := true }.wait module start.answer
    if ¬ start.answer.readable then (requestCleanup s).return rcInternal
    -- The content phase gives back the reference it has; this one is for the timer.
    else { s.arm with references := s.references + 1 }.return rcDone

/-- `ngx_healthcheck_status_request`; `output` formats the snapshots and sends the page. -/
def statusRequest (start : RequestStart) (c : Collector) : Lifetime :=
  let s : Lifetime := { request := { state := (.busy, c) } }
  if c.count = 0 ∨ c.count > 2 ∨ start.lost ∨ ¬ start.context ∨ ¬ ∀ i < c.count, start.rows i then
    s.return rcInternal
  else
    let s := s.collect script
    match s.request.state.1 with
    | .ok => s.return (output s.request.state.2.snapshots)
    | .error => s.return rcInternal
    | .again | .busy => startWait module start s

/-- `ngx_healthcheck_request_resume`. -/
def resumeRequest (answer : Resumption) (s : Lifetime) : Lifetime :=
  if answer.gone then s.finalize rcError
  else
    let s := s.collect script
    match s.request.state.1 with
    | .ok => s.finalize (output s.request.state.2.snapshots)
    | .error => s.finalize rcInternal
    | .again | .busy =>
      let s := s.wait module answer
      if ¬ answer.readable then s.finalize rcError else s.arm

/-- The life of a request, with the number of its batches; `begins` and `resumes` restrict what the
core answers. Its timer calls back only while it is armed, and the core may release it any time. -/
inductive RequestLife (begins : RequestStart → Prop) (resumes : Resumption → Prop)
    (c : Collector) : Nat → Lifetime → Prop
  | started (start : RequestStart) (may : begins start) :
      RequestLife begins resumes c 1 (statusRequest module script output start c)
  | resumed (n delay : Nat) (s : Lifetime) (answer : Resumption)
      (life : RequestLife begins resumes c n s) (armed : s.timer = some delay)
      (may : resumes answer) :
      RequestLife begins resumes c (n + 1)
        (resumeRequest module script output answer { s with timer := none })
  | released (n : Nat) (s : Lifetime) (life : RequestLife begins resumes c n s)
      (held : s.freed = false) : RequestLife begins resumes c n s.release

/-- The start of a request is refused something that it needs. -/
def RequestStart.Refuses (start : RequestStart) (count : Nat) : Prop :=
  (count = 0 ∨ count > 2 ∨ start.lost = true ∨ ¬ start.context = true ∨
    ¬ ∀ i < count, start.rows i = true) ∨ ¬ start.cleanup = true ∨ ¬ start.answer.readable = true

/-- A request that is resumed cannot go on. -/
def Resumption.Refuses (answer : Resumption) : Prop :=
  answer.gone = true ∨ ¬ answer.readable = true

/-- The core may refuse something. -/
def Troubled (begins : RequestStart → Prop) (resumes : Resumption → Prop) (count : Nat) : Prop :=
  (∃ start, begins start ∧ start.Refuses count) ∨ ∃ answer, resumes answer ∧ answer.Refuses

/-- A result of a request after its batches: an error, when the core refused something or the
collection failed, or what the output of complete snapshots gave. -/
def Results (trouble : Prop) (c : Collector) (n : Nat) (rc : Int) : Prop :=
  (rc = rcError ∨ rc = rcInternal) ∧ (trouble ∨ (afterBatches script c n).1 = .error) ∨
    (afterBatches script c n).1 = .ok ∧ rc = output (afterBatches script c n).2.snapshots

/-- A request that waits: its timer is armed and its cleanup is set, so that the core can drop it,
and it has a reference of its own. -/
structure Lifetime.Suspended (c : Collector) (n : Nat) (s : Lifetime) : Prop where
  state : s.request.state = afterBatches script c n
  waits : s.request.state.1 = .again ∨ s.request.state.1 = .busy
  timer : s.timer = some (if s.request.state.1 = .again then statusRetryMs else statusYieldMs)
  cleanup : s.cleanup = true
  references : s.references = 1
  verdicts : s.verdicts = [.returned rcDone]
  held : s.freed = false

/-- A request that is over: nothing of it is left in the core, its reference is given back, and the
core got one result, from the content handler or from finalizing it later. -/
structure Lifetime.Answered (trouble : Prop) (c : Collector) (n : Nat) (s : Lifetime) :
    Prop where
  timer : s.timer = none
  cleanup : s.cleanup = false
  references : s.references = 0
  verdict : ∃ rc, Results script output trouble c n rc ∧
    (n = 1 ∧ s.verdicts = [.returned rc] ∨ s.verdicts = [.finalized rc, .returned rcDone])

/-- A request that the core dropped while it waited. -/
structure Lifetime.Dropped (s : Lifetime) : Prop where
  timer : s.timer = none
  cleanup : s.cleanup = false
  verdicts : s.verdicts = [.returned rcDone]
  freed : s.freed = true

/-- Once its read event is registered, a request waits in the state it has. -/
theorem requestWait_readable {answer : Resumption} (readable : answer.readable = true)
    (r : Request) : (requestWait module answer r).state = r.state ∧
      (requestWait module answer r).retry =
        if r.state.1 = .again then statusRetryMs else statusYieldMs := by
  unfold requestWait
  rw [if_neg (by simp [readable])]
  by_cases again : r.state.1 = .again
  · rw [if_pos again, if_pos again]
    -- A clock that fails leaves the waiting out, not the timer.
    cases answer.milliseconds with
    | none => exact ⟨rfl, rfl⟩
    | some now => exact ⟨rfl, rfl⟩
  · rw [if_neg again, if_neg again]
    exact ⟨rfl, rfl⟩

variable {module script output} {c : Collector} {n : Nat} {s : Lifetime} {trouble : Prop}

/-- A suspended request that is resumed collects the next batch. -/
theorem suspended_next (suspended : s.Suspended script c n) :
    collect script s.request.state.2 = afterBatches script c (n + 1) := by
  -- A wait keeps what was collected.
  have waits := suspended.waits
  rw [suspended.state] at waits ⊢
  rw [afterBatches, resume, if_pos waits]

/-- A request in its content handler, before anything was left with the core. -/
structure Lifetime.Opening (s : Lifetime) : Prop where
  timer : s.timer = none
  cleanup : s.cleanup = false
  references : s.references = 0
  verdicts : s.verdicts = []
  held : s.freed = false

/-- A request whose timer called back. -/
structure Lifetime.Resuming (s : Lifetime) : Prop where
  cleanup : s.cleanup = true
  references : s.references = 1
  verdicts : s.verdicts = [.returned rcDone]
  held : s.freed = false

/-- The end of a request that was resumed. -/
theorem finalize_answered (resuming : s.Resuming) {rc : Int}
    (results : Results script output trouble c n rc) :
    (s.finalize rc).Answered script output trouble c n := by
  -- The last reference goes with the answer.
  refine ⟨rfl, rfl, ?_, rc, results, .inr ?_⟩
  · show s.references - 1 = 0
    rw [resuming.references]
    rfl
  · show Verdict.finalized rc :: s.verdicts = _
    rw [resuming.verdicts]

/-- The end of a request in its content handler. -/
theorem return_answered (opening : s.Opening) {rc : Int}
    (results : Results script output trouble c 1 rc) :
    (s.return rc).Answered script output trouble c 1 := by
  -- The handler returns without a reference or a timer.
  refine ⟨opening.timer, opening.cleanup, opening.references, rc, results, .inl ⟨rfl, ?_⟩⟩
  show Verdict.returned rc :: s.verdicts = _
  rw [opening.verdicts]

/-- A request waits with the timer that its last batch calls for. -/
theorem arm_suspended {answer : Resumption} (readable : answer.readable = true)
    (state : s.request.state = afterBatches script c n)
    (waits : s.request.state.1 = .again ∨ s.request.state.1 = .busy) (resuming : s.Resuming) :
    (s.wait module answer).arm.Suspended script c n := by
  -- The wait keeps what was collected and sets the timer.
  obtain ⟨same, retry⟩ := requestWait_readable module readable s.request
  have kept : (s.wait module answer).arm.request.state = s.request.state := same
  refine ⟨kept.trans state, ?_, ?_, resuming.cleanup, resuming.references, resuming.verdicts,
    resuming.held⟩
  · rw [kept]
    exact waits
  · rw [kept]
    exact congrArg some retry

/-- A request that is resumed waits again or is over. -/
theorem resumeRequest_settles (suspended : s.Suspended script c n) (answer : Resumption)
    (refuses : answer.Refuses → trouble) :
    (resumeRequest module script output answer { s with timer := none }).Suspended script c
      (n + 1) ∨
    (resumeRequest module script output answer { s with timer := none }).Answered script output
      trouble c (n + 1) := by
  unfold resumeRequest
  by_cases gone : answer.gone = true
  · rw [if_pos gone]
    exact .inr (finalize_answered
      ⟨suspended.cleanup, suspended.references, suspended.verdicts, suspended.held⟩
      (.inl ⟨.inl rfl, .inl (refuses (.inl gone))⟩))
  rw [if_neg gone]
  -- Collecting changes the state of the collection only.
  have next := suspended_next suspended
  have state : (Lifetime.collect script { s with timer := none }).request.state =
      afterBatches script c (n + 1) := next
  have resuming : (Lifetime.collect script { s with timer := none }).Resuming :=
    ⟨suspended.cleanup, suspended.references, suspended.verdicts, suspended.held⟩
  generalize Lifetime.collect script { s with timer := none } = batched at *
  have waiting : batched.request.state.1 = .again ∨ batched.request.state.1 = .busy →
      (if ¬ answer.readable then (batched.wait module answer).finalize rcError
        else (batched.wait module answer).arm).Suspended script c (n + 1) ∨
      (if ¬ answer.readable then (batched.wait module answer).finalize rcError
        else (batched.wait module answer).arm).Answered script output trouble c (n + 1) := by
    intro waits
    by_cases readable : answer.readable = true
    · rw [if_neg (by simp [readable])]
      exact .inl (arm_suspended readable state waits resuming)
    · rw [if_pos (by simp [readable])]
      have failed : (batched.wait module answer).Resuming :=
        ⟨resuming.cleanup, resuming.references, resuming.verdicts, resuming.held⟩
      exact .inr (finalize_answered failed (.inl ⟨.inl rfl, .inl (refuses (.inr readable))⟩))
  dsimp only
  -- The cases are those of the batch.
  cases outcome : batched.request.state.1 with
  | ok =>
    refine .inr (finalize_answered resuming (.inr ⟨?_, ?_⟩))
    · rw [← state, outcome]
    · rw [← state]
  | error =>
    refine .inr (finalize_answered resuming (.inl ⟨.inr rfl, .inr ?_⟩))
    rw [← state, outcome]
  | again => exact waiting (.inl outcome)
  | busy => exact waiting (.inr outcome)

/-- A request that has to wait after its first batch does so, or is refused what it needs. -/
theorem startWait_settles (start : RequestStart) (opening : s.Opening)
    (state : s.request.state = afterBatches script c 1)
    (waits : s.request.state.1 = .again ∨ s.request.state.1 = .busy)
    (refuses : ¬ start.cleanup = true ∨ ¬ start.answer.readable = true → trouble) :
    (startWait module start s).Suspended script c 1 ∨
      (startWait module start s).Answered script output trouble c 1 := by
  unfold startWait
  by_cases added : start.cleanup = true
  · rw [if_neg (by simp [added])]
    by_cases readable : start.answer.readable = true
    · rw [if_neg (by simp [readable])]
      have references : s.references + 1 = 1 := by
        rw [opening.references]
        rfl
      have verdicts : .returned rcDone :: s.verdicts = [.returned rcDone] := by
        rw [opening.verdicts]
      -- Taking the reference and returning change nothing that the wait looks at.
      exact .inl (arm_suspended
        (s := { s with
          cleanup := true, references := s.references + 1
          verdicts := .returned rcDone :: s.verdicts })
        readable state waits ⟨rfl, references, verdicts, opening.held⟩)
    · rw [if_pos (by simp [readable])]
      -- The cleanup that was set before the wait is cleared again.
      have cleared : (requestCleanup
          (Lifetime.wait module start.answer { s with cleanup := true })).Opening :=
        ⟨rfl, rfl, opening.references, opening.verdicts, opening.held⟩
      exact .inr (return_answered cleared (.inl ⟨.inr rfl, .inl (refuses (.inr readable))⟩))
  · rw [if_pos (by simp [added])]
    exact .inr (return_answered opening (.inl ⟨.inr rfl, .inl (refuses (.inl added))⟩))

/-- A request waits after its start, or is over. -/
theorem statusRequest_settles (start : RequestStart) (c : Collector)
    (refuses : start.Refuses c.count → trouble) :
    (statusRequest module script output start c).Suspended script c 1 ∨
    (statusRequest module script output start c).Answered script output trouble c 1 := by
  unfold statusRequest
  dsimp only
  split
  · next refused =>
    have opening : Lifetime.Opening { request := { state := (.busy, c) } } :=
      ⟨rfl, rfl, rfl, rfl, rfl⟩
    exact .inr (return_answered opening (.inl ⟨.inr rfl, .inl (refuses (.inl refused))⟩))
  have state : (Lifetime.collect script { request := { state := (.busy, c) } }).request.state =
      afterBatches script c 1 := rfl
  have opening : (Lifetime.collect script { request := { state := (.busy, c) } }).Opening :=
    ⟨rfl, rfl, rfl, rfl, rfl⟩
  generalize Lifetime.collect script { request := { state := (.busy, c) } } = batched at *
  -- The cases are those of the first batch.
  cases outcome : batched.request.state.1 with
  | ok =>
    refine .inr (return_answered opening (.inr ⟨?_, ?_⟩))
    · rw [← state, outcome]
    · rw [← state]
  | error =>
    refine .inr (return_answered opening (.inl ⟨.inr rfl, .inr ?_⟩))
    rw [← state, outcome]
  | again =>
    exact startWait_settles start opening state (.inl outcome) fun cause => refuses (.inr cause)
  | busy =>
    exact startWait_settles start opening state (.inr outcome) fun cause => refuses (.inr cause)

/-- The core drops a request that waits; one that is over has nothing left to run. -/
theorem release_settles (settled : s.Suspended script c n ∨ s.Answered script output trouble c n) :
    s.release.Answered script output trouble c n ∨ s.release.Dropped := by
  -- A suspended request is dropped, an answered one stays as it is.
  unfold Lifetime.release
  rcases settled with suspended | answered
  · rw [if_pos suspended.cleanup]
    exact .inr ⟨rfl, rfl, suspended.verdicts, rfl⟩
  · rw [if_neg (by simp [answered.cleanup])]
    exact .inl ⟨answered.timer, answered.cleanup, answered.references, answered.verdict⟩

/-- Every request that was started waits, is over, or was dropped. -/
theorem life_settles {begins : RequestStart → Prop} {resumes : Resumption → Prop}
    (life : RequestLife module script output begins resumes c n s) :
    s.Suspended script c n ∨
      s.Answered script output (Troubled begins resumes c.count) c n ∨ s.Dropped := by
  -- Induction on the life; only a request that waits has a timer that can call back.
  induction life with
  | started start may =>
    exact (statusRequest_settles start c fun refused => .inl ⟨start, may, refused⟩).imp_right .inl
  | resumed n delay s answer _ armed may ih =>
    rcases ih with suspended | answered | dropped
    · exact (resumeRequest_settles suspended answer fun refused =>
        .inr ⟨answer, may, refused⟩).imp_right .inl
    · rw [answered.timer] at armed
      cases armed
    · rw [dropped.timer] at armed
      cases armed
  | released n s _ held ih =>
    rcases ih with suspended | answered | dropped
    · exact .inr (release_settles (.inl suspended))
    · exact .inr (release_settles (.inr answered))
    · rw [dropped.freed] at held
      cases held

/-- The result a verdict carries. -/
def Verdict.rc : Verdict → Int
  | .returned rc => rc
  | .finalized rc => rc

/-- A request collects a batch when it starts. -/
theorem life_batches {begins : RequestStart → Prop} {resumes : Resumption → Prop}
    (life : RequestLife module script output begins resumes c n s) : 1 ≤ n := by
  -- Induction on the life.
  induction life with
  | started => exact Nat.le_refl 1
  | resumed => omega
  | released _ _ _ _ ih => exact ih

/-- Without contention a request that still waits has not had a batch for each 256 peers. -/
theorem suspended_calm {count : Nat} {sources : Nat → Option Source} {flag : Nat}
    (calm : Calm script count sources) (suspended : s.Suspended script (.init count sources flag) n)
    (some_ : 1 ≤ n) : statusBatch * n < peersTotal count sources := by
  -- Without trouble a request only waits for more peers.
  have waits := suspended.waits
  rw [suspended.state] at waits
  rcases afterBatches_calm calm flag n with ok | ⟨-, -, none_yet | below⟩
  · rw [ok] at waits
    rcases waits with again | busy
    · cases again
    · cases busy
  · omega
  · exact below

/-- Without contention and refusals, what is over was answered with the output of its page. -/
theorem answered_calm {count : Nat} {sources : Nat → Option Source} {flag : Nat}
    (calm : Calm script count sources) (untroubled : ¬ trouble)
    (answered : s.Answered script output trouble (.init count sources flag) n) :
    s.verdicts.head?.map Verdict.rc =
      some (output (afterBatches script (.init count sources flag) n).2.snapshots) := by
  obtain ⟨rc, results, verdicts⟩ := answered.verdict
  have same : rc = output (afterBatches script (.init count sources flag) n).2.snapshots := by
    rcases results with ⟨-, refused | failed⟩ | ⟨-, same⟩
    · exact absurd refused untroubled
    · -- The collection of a calm request does not fail.
      rcases afterBatches_calm calm flag n with ok | ⟨busy, -, -⟩
      · rw [ok] at failed
        cases failed
      · rw [busy] at failed
        cases failed
    · exact same
  rw [← same]
  rcases verdicts with ⟨-, once⟩ | later
  · rw [once]
    rfl
  · rw [later]
    rfl

/-- Whatever the core and the peers' locks answer, in any order of resumptions and with the core
releasing the request at any time, a status request waits with its timer armed, its cleanup set and
one reference of its own, or it is over with exactly one result and nothing left behind, or the
core dropped it while it waited, and its timer is gone with it. An error is its result only if the
core refused something or the collection failed. Without contention and refusals it waits only
while it had fewer batches than one for each 256 peers, and ends with the output of its page. -/
theorem request_answered_once {begins : RequestStart → Prop} {resumes : Resumption → Prop}
    {count : Nat} {sources : Nat → Option Source} {flag : Nat}
    (life : RequestLife module script output begins resumes (.init count sources flag) n s) :
    (s.Suspended script (.init count sources flag) n ∨
      s.Answered script output (Troubled begins resumes count) (.init count sources flag) n ∨
      s.Dropped) ∧
    (Calm script count sources → ¬ Troubled begins resumes count → s.freed = false →
      (s.timer ≠ none → statusBatch * n < peersTotal count sources) ∧
      (s.timer = none → s.verdicts.head?.map Verdict.rc =
        some (output (afterBatches script (.init count sources flag) n).2.snapshots))) := by
  -- Every state of a life is suspended, answered or dropped.
  have settled := life_settles life
  refine ⟨settled, fun calm untroubled held => ?_⟩
  rcases settled with suspended | answered | dropped
  · refine ⟨fun _ => suspended_calm calm suspended (life_batches life), fun ended => ?_⟩
    rw [suspended.timer] at ended
    cases ended
  · exact ⟨fun armed => absurd answered.timer armed,
      fun _ => answered_calm calm untroubled answered⟩
  · rw [dropped.freed] at held
    cases held

/-- A start that is refused nothing. -/
def grantedStart : RequestStart :=
  { lost := false, context := true, rows := fun _ => true, cleanup := true
    answer := secondLater 0 }

/-- The record is locked when it is read first. -/
def contendedOnce (pos : Nat) : Reading :=
  { sampleReading with locked := pos ≠ 0 }

/-- The output of the CSV page. -/
def csvOutput (snapshots : Nat → Snapshot) : Int :=
  ((requestOutput .bits64 sampleCore csvRequest (.status .csv 0) snapshots).map Response.rc).getD
    rcInternal

/-- A request that finds its first record locked, and is answered when it is resumed. -/
def contendedLife : Lifetime :=
  resumeRequest id contendedOnce csvOutput (secondLater 1)
    { statusRequest id contendedOnce csvOutput grantedStart
        (.init 2 (fun _ => some backendSource) 0) with timer := none }

/-- A request that meets a lock, waits and is answered once. -/
theorem request_answered_once_contended :
    contendedLife.verdicts = [.finalized 0, .returned rcDone] ∧
    (contendedLife.Suspended contendedOnce (.init 2 (fun _ => some backendSource) 0) 2 ∨
      contendedLife.Answered contendedOnce csvOutput
        (Troubled (· = grantedStart) (· = secondLater 1) 2)
        (.init 2 (fun _ => some backendSource) 0) 2 ∨
      contendedLife.Dropped) := by
  -- The life is built step by step, and the theorem is read at its end.
  have waits : (statusRequest id contendedOnce csvOutput grantedStart
      (.init 2 (fun _ => some backendSource) 0)).timer = some statusRetryMs := by
    decide +kernel
  have life : RequestLife id contendedOnce csvOutput (· = grantedStart) (· = secondLater 1)
      (.init 2 (fun _ => some backendSource) 0) 2 contendedLife :=
    .resumed 1 statusRetryMs _ (secondLater 1) (.started grantedStart rfl) waits rfl
  exact ⟨by decide +kernel, (request_answered_once life).1⟩

end Healthcheck
