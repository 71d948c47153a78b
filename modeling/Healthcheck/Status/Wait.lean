import Mathlib.Data.Prod.Lex
import Healthcheck.Library.Throttle
import Healthcheck.Status.SnapshotLaws

/-!
A status request that has to wait: it collects again after a short delay, and says what it waits
for when that takes long.
-/

namespace Healthcheck

open Throttle

/-- What the environment answers to one resumption of a request. -/
structure Resumption where
  /-- The connection has an error or is closed, or the request was terminated. -/
  gone : Bool
  /-- Whether the read event could be registered, if that is up to the request. -/
  readable : Bool
  clock : Option Timespec
  /-- The word of the lock that is waited for. -/
  holder : Int

/-- `ngx_healthcheck_now` in milliseconds. -/
def Resumption.milliseconds (answer : Resumption) : Option Nat :=
  answer.clock.bind fun ts =>
    if ts.sec < 0 then none
    else some (Healthcheck.milliseconds (addTime (mulTime ts.sec.toNat 1000000000) ts.nsec))

/-- `NGX_HEALTHCHECK_STATUS_WARN_MS`. -/
def statusWarnMs : Nat := 1000

/-- `NGX_HEALTHCHECK_STATUS_LOG_MS`. -/
def statusLogMs : Nat := 5000

/-- `NGX_HEALTHCHECK_STATUS_RETRY_MS`. -/
def statusRetryMs : Nat := 5

/-- `NGX_HEALTHCHECK_STATUS_YIELD_MS`. -/
def statusYieldMs : Nat := 1

/-- The part of `ngx_healthcheck_request_t` that waits. -/
structure Waiting where
  started : Nat := 0
  waitingModule : Nat := 0
  waitingPeer : Nat := 0
  nextLog : Nat := 0

/-- A `healthcheck status waiting` line. -/
structure Diagnostic where
  /-- The number of the group's module. -/
  module : Nat
  peer : Nat
  generation : Nat
  holder : Int
  elapsedMs : Nat
  /-- The position of the group in the request; not part of the line. -/
  group : Nat
  /-- When it was written; not part of the line either. -/
  time : Nat

/-- The start of a wait for another peer. -/
def Waiting.arrive (w : Waiting) (module next now : Nat) : Waiting :=
  if w.started = 0 ∨ w.waitingModule ≠ module ∨ w.waitingPeer ≠ next then
    { started := now, waitingModule := module, waitingPeer := next
      nextLog := max w.nextLog (addTime now statusWarnMs) }
  else w

/-- The line that is due; `module` gives the number of each group's module. -/
def Waiting.due (w : Waiting) (module : Nat → Nat) (c : Collector) (holder : Int) (now : Nat) :
    Option Diagnostic :=
  if now ≥ w.nextLog then
    some { module := module c.module, peer := (c.snapshots c.module).next
           generation := ((c.sources c.module).map Source.generation).getD 0
           holder := holder, elapsedMs := now - w.started, group := c.module
           time := now }
  else none

/-- A line puts the next one off. -/
def Waiting.settle (w : Waiting) (now : Nat) : Waiting :=
  if now ≥ w.nextLog then { w with nextLog := addTime now statusLogMs } else w

/-- A status request between two events. -/
structure Request where
  state : Collected × Collector
  waiting : Waiting := {}
  /-- The delay the `retry` timer was armed with. -/
  retry : Nat := 0
  /-- The lines written, newest first. -/
  diagnostics : List Diagnostic := []
  /-- The contended reads with the clock's reading at each, newest first. -/
  waits : List ((Nat ×ₗ Nat) × Nat) := []

/-- The group and the peer that a collection has come to. -/
def Collector.place (c : Collector) : Nat ×ₗ Nat :=
  toLex (c.module, (c.snapshots c.module).next)

variable (module : Nat → Nat) (script : Nat → Reading)

/-- `ngx_healthcheck_request_wait`; an error ends the request. -/
def requestWait (answer : Resumption) (r : Request) : Request :=
  if ¬ answer.readable then { r with state := (.error, r.state.2) }
  else if r.state.1 = .again then
    let c := r.state.2
    match answer.milliseconds with
    | none => { r with retry := statusRetryMs }
    | some now =>
      let waiting := r.waiting.arrive c.module (c.snapshots c.module).next now
      { r with
        waiting := waiting.settle now
        retry := statusRetryMs
        diagnostics := (waiting.due module c answer.holder now).toList ++ r.diagnostics
        waits := (c.place, now) :: r.waits }
  else { r with retry := statusYieldMs }

/-- `ngx_healthcheck_request_resume`, and the start of a request alike: a batch is collected, and
the request waits unless that ended it. -/
def requestResume (answer : Resumption) (r : Request) : Request :=
  if r.state.1 = .again ∨ r.state.1 = .busy then
    if answer.gone then { r with state := (.error, r.state.2) }
    else
      let r := { r with state := collect script r.state.2 }
      if r.state.1 = .again ∨ r.state.1 = .busy then requestWait module answer r else r
  else r

/-- A status request after its start and its first resumptions. -/
def runRequest (answers : Nat → Resumption) (c : Collector) :
    Nat → Request
  | 0 => { state := (.busy, c) }
  | n + 1 => requestResume module script (answers n) (runRequest answers c n)

end Healthcheck
