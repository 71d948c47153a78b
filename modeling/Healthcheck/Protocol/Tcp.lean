import Healthcheck.Protocol.Probe

/-! The TCP check: one byte is peeked from a connection. -/

namespace Healthcheck

open Program

/-- `ngx_healthcheck_tcp_peek`: a byte or `EAGAIN` passes, anything else is kept as an error. -/
def tcpPeek (i connection : Nat) (site : PeekSite) : Action Bool := do
  let answer ← ask
  let passed := answer.result = 1 ∨ (answer.result = -1 ∧ answer.errno = .eagain)
  recordIo (.peeked i site connection passed)
  if passed then return true
  else do
    modifyProbe i fun probe =>
      { probe with error := if answer.result = -1 then some answer.errno else none }
    return false

/-- `ngx_healthcheck_tcp_event`. -/
def tcpEvent (gen : Generation) (i connection : Nat) : Action Unit := do
  if ← ioReady gen i connection then
    if ← tcpPeek i connection .tcpEvent then
      finish gen i true "tcp peek success" "recv" none
    else finish gen i false "tcp closed or error" "recv" ((← self).peers i).probe.error

end Healthcheck
