import Healthcheck.Status.Format

/-!
The two status pages as requests see them: which output a handler chooses, and how the chain the
writer built is sent.
-/

namespace Healthcheck

open Program

/-- The method of a request; the handlers refuse any other. -/
inductive Method where
  | get
  | head
  deriving DecidableEq, Repr

/-- A request of a status page, with the arguments that `ngx_http_arg` finds in it. -/
structure StatusRequest where
  method : Method
  /-- `r->main == NULL || r == r->main`. -/
  main : Bool
  format : Option (List UInt8)
  status : Option (List UInt8)
  deriving DecidableEq, Repr

/-- What the core answers while a response is made. -/
structure HttpCore where
  pool : Pool
  /-- The result of `ngx_http_send_header`. -/
  header : Int
  /-- `r->header_only` after it. -/
  headerOnly : Bool
  /-- The result of `ngx_http_output_filter`. -/
  filter : Int

/-- The formats of `healthcheck_status`. -/
inductive StatusFormat where
  | html
  | csv
  | json
  | prometheus
  deriving DecidableEq, Repr

/-- The names in `ngx_check_status_formats`. -/
def StatusFormat.name : StatusFormat → List UInt8
  | .html => Ascii.bytes "html"
  | .csv => Ascii.bytes "csv"
  | .json => Ascii.bytes "json"
  | .prometheus => Ascii.bytes "prometheus"

/-- `ngx_http_get_check_status_format_conf`. -/
def statusFormat (value : List UInt8) : Option StatusFormat :=
  [.html, .csv, .json, .prometheus].find? fun format => value = format.name

/-- `ngx_http_upstream_check_format`. -/
def checkFormat (value : List UInt8) : Option (Fin 3) :=
  if value = Ascii.bytes "html" then some 0
  else if value = Ascii.bytes "csv" then some 1
  else if value = Ascii.bytes "json" then some 2
  else none

/-- The flag both handlers read from the `status` argument; a bad one is only logged. -/
def statusFlag : Option (List UInt8) → Nat
  | none => 0
  | some value =>
    if Ascii.equalFold value (Ascii.bytes "down") then 1
    else if Ascii.equalFold value (Ascii.bytes "up") then 2
    else 0

/-- A location that serves one of the pages, with its configured format. -/
inductive Endpoint where
  /-- `healthcheck_status`. -/
  | status (format : StatusFormat)
  /-- `check_status`. -/
  | legacy (format : Fin 3)
  deriving DecidableEq, Repr

/-- What a handler passes to `ngx_healthcheck_status_request`. -/
inductive Page where
  | status (format : StatusFormat) (flag : Nat)
  | legacy (format : Fin 3) (flag : Nat)
  deriving DecidableEq, Repr

/-- `ngx_upstream_check_status_handler` and `ngx_http_upstream_check_status_handler`: an argument
that names no format leaves the configured one. -/
def StatusRequest.page (request : StatusRequest) : Endpoint → Page
  | .status format =>
    .status ((request.format.bind statusFormat).getD format) (statusFlag request.status)
  | .legacy format =>
    .legacy ((request.format.bind checkFormat).getD format) (statusFlag request.status)

/-- How many groups a page shows. -/
def Page.count : Page → Nat
  | .status .. => 2
  | .legacy .. => 1

/-- The filter of a page. -/
def Page.flag : Page → Nat
  | .status _ flag => flag
  | .legacy _ flag => flag

/-- The calls of the output function of a page. -/
def Page.calls (word : Word) (snapshots : Nat → Snapshot) : Page → List Call
  | .status .html flag => htmlFormat word (snapshots 0) (snapshots 1) flag
  | .status .csv flag => csvFormat (snapshots 0) (snapshots 1) flag
  | .status .json _ => jsonFormat word (snapshots 0) (snapshots 1)
  | .status .prometheus flag => prometheusFormat word (snapshots 0) (snapshots 1) flag
  | .legacy format _ => legacyOutput (snapshots 0) format

/-- A buffer of the chain that is sent. -/
structure Buffer where
  block : Block
  lastBuf : Bool := false
  lastInChain : Bool := false

/-- What was done with a response: its result, what was set in `headers_out`, and the chain that
`ngx_http_output_filter` was given, if it was called. -/
structure Response where
  rc : Int
  status : Option Nat := none
  contentLength : Option Nat := none
  output : Option (List Buffer) := none

/-- The chain of a writer, with the flags of its tail set. -/
def Writer.buffers (w : Writer) (main : Bool) : List Buffer :=
  w.chain.dropLast.map (fun block => { block := block }) ++
    w.chain.getLast?.toList.map fun block =>
      { block := block, lastBuf := main, lastInChain := true }

/-- `ngx_healthcheck_status_writer_send`. -/
def send (core : HttpCore) (request : StatusRequest) (w : Writer) : Response :=
  if core.header = -1 ∨ core.header > 0 ∨ core.headerOnly ∨ request.method = .head ∨
      w.chain = [] then
    { rc := core.header, status := some 200, contentLength := some w.length }
  else
    { rc := core.filter, status := some 200, contentLength := some w.length,
      output := some (w.buffers request.main) }

/-- `ngx_healthcheck_request_output`. -/
def requestOutput (word : Word) (core : HttpCore) (request : StatusRequest) (page : Page)
    (snapshots : Nat → Snapshot) : Option Response :=
  (runCalls word (page.calls word snapshots) (.init core.pool)).map fun result =>
    if result.1 = .ok then send core request result.2 else { rc := 500 }

/-- The response to a status request after its batches: none while it waits for another one. -/
def statusResponse (word : Word) (core : HttpCore) (request : StatusRequest) (endpoint : Endpoint)
    (script : Nat → Reading) (sources : Nat → Option Source) (batches : Nat) : Option Response :=
  let page := request.page endpoint
  let collection := afterBatches script (.init page.count sources page.flag) batches
  match collection.1 with
  | .ok => requestOutput word core request page collection.2.snapshots
  | .error => some { rc := 500 }
  | .again | .busy => none

end Healthcheck
