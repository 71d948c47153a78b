import Healthcheck.Library.Scan
import Healthcheck.Status.Csv

/-!
Readers of the pages of `healthcheck_status`. A reader is given the bytes of a page and, in order,
the two names of each of its rows, which may be any bytes and can only be compared. Everything else
it finds in the page: the sections, the other fields, and where the rows end.
-/

namespace Healthcheck

open Scan

/-- What every format shows of a peer. -/
structure ShownRow where
  module : Module
  index : Nat
  down : Bool
  deriving DecidableEq, Repr

/-- The names in a row. -/
structure RowNames where
  upstream : List UInt8
  host : List UInt8
  deriving DecidableEq, Repr

/-- Passes over a literal. -/
def pass (literal : String) : Scan UInt8 Unit :=
  expect (Ascii.bytes literal)

/-- Passes over lines. -/
def passLines (n : Nat) : Scan UInt8 Unit :=
  times (field csvNewline) n

/-- Reads a number up to a mark. -/
def readNumber (mark : UInt8) : Scan UInt8 Nat :=
  (field mark).convert Ascii.decimal

/-- The group that a label names. -/
def groupOf (label : List UInt8) : Option Module :=
  if label = Ascii.bytes "http" then some .http
  else if label = Ascii.bytes "stream" then some .stream
  else none

/-- Whether a status is that of a peer that is down. -/
def downOf (status : List UInt8) : Option Bool :=
  if status = Ascii.bytes "up" then some false
  else if status = Ascii.bytes "down" then some true
  else none

/-- Whether the peer of an activity sample is down, with the value that says so. -/
def activity (value : Nat) : Option (Bool × Nat) :=
  if value = 0 then some (true, value)
  else if value = 1 then some (false, value)
  else none

/-- Reads a cell of an HTML table. -/
def readCell : Scan UInt8 (List UInt8) := do
  pass "    <td>"
  let content ← field '<'.toUInt8
  pass "/td>\n"
  return content

/-- Passes over a cell with a name. -/
def passName (name : List UInt8) : Scan UInt8 Unit := do
  pass "    <td>"
  expect name
  pass "</td>\n"

/-- Reads a row of an HTML table. -/
def readHtmlRow (module : Module) (names : RowNames) : Scan UInt8 ShownRow := do
  pass "  <tr"
  -- The color of the row.
  let _ ← field csvNewline
  let index ← readCell.convert Ascii.decimal
  passName names.upstream
  passName names.host
  let down ← readCell.convert downOf
  -- The counters, the type, the port and the delays.
  times readCell 8
  pass "  </tr>\n"
  return { module, index, down }

/-- Passes over the head of the table of a group. -/
def passHead (heading : String) : Scan UInt8 Unit := do
  pass heading
  let _ ← field csvNewline
  passLines 15

/-- Reads the HTML page: a table for each group. -/
def readHtml (names : List RowNames) : Scan UInt8 (List ShownRow) := do
  passLines 8
  passHead "<h2>http upstream servers </h2>"
  let http ← many (readHtmlRow .http) names
  pass "</table>\n"
  passHead "<h2>stream upstream servers </h2>"
  let stream ← (many (readHtmlRow .stream) http.2).convert exhausted
  passLines 3
  return http.1 ++ stream

/-- Reads a line of the CSV page. -/
def readCsvRow (names : RowNames) : Scan UInt8 ShownRow := do
  let index ← readNumber csvComma
  let module ← (field csvComma).convert groupOf
  expect names.upstream
  pass ","
  expect names.host
  pass ","
  -- The counters, the type, the port and the delays.
  times (field csvComma) 8
  let down ← (field csvNewline).convert downOf
  return { module, index, down }

/-- Reads the CSV page: a line for each row, after the names of the columns. -/
def readCsv (names : List RowNames) : Scan UInt8 (List ShownRow) := do
  passLines 1
  (many readCsvRow names).convert exhausted

/-- Reads a row of a JSON array. -/
def readJsonRow (module : Module) (names : RowNames) : Scan UInt8 ShownRow := do
  pass "    \x7b\"index\": "
  let index ← readNumber csvComma
  pass " \"upstream\": \""
  expect names.upstream
  pass "\", \"name\": \""
  expect names.host
  pass "\", \"status\": \""
  let down ← (field Json.quote).convert downOf
  -- The other members.
  let _ ← field csvNewline
  return { module, index, down }

/-- What the JSON page shows. -/
structure JsonPage where
  total : Nat
  rows : List ShownRow
  deriving DecidableEq, Repr

/-- Reads the JSON page: its total, and an array for each group. -/
def readJson (names : List RowNames) : Scan UInt8 JsonPage := do
  pass "\x7b\"servers\": \x7b\n  \"total\": "
  let total ← readNumber csvComma
  -- The generation.
  passLines 2
  pass "  \"http\": [\n"
  let http ← many (readJsonRow .http) names
  pass "  ],\n  \"stream\": [\n"
  let stream ← (many (readJsonRow .stream) http.2).convert exhausted
  pass "  ]\n\x7d\x7d\n"
  return { total, rows := http.1 ++ stream }

/-- Reads a sample of a counter of a Prometheus page. -/
def readSample (metric : String) (names : RowNames) : Scan UInt8 ShownRow := do
  pass metric
  pass "\x7bindex=\""
  let index ← readNumber Json.quote
  pass ",upstream_type=\""
  let module ← (field Json.quote).convert groupOf
  pass ",upstream=\""
  expect names.upstream
  pass "\",name=\""
  expect names.host
  pass "\",status=\""
  let down ← (field Json.quote).convert downOf
  -- The other labels, and the value.
  let _ ← field csvNewline
  return { module, index, down }

/-- Reads a sample of the activity metric, with its value. -/
def readActive (names : RowNames) : Scan UInt8 (ShownRow × Nat) := do
  pass "nginx_upstream_server_active"
  pass "\x7bindex=\""
  let index ← readNumber Json.quote
  pass ",upstream_type=\""
  let module ← (field Json.quote).convert groupOf
  pass ",upstream=\""
  expect names.upstream
  pass "\",name=\""
  expect names.host
  pass "\",type=\""
  let _ ← field Json.quote
  pass ",port=\""
  let _ ← field Json.quote
  pass "\x7d "
  let active ← (readNumber csvNewline).convert activity
  return ({ module, index, down := active.1 }, active.2)

/-- What a Prometheus page shows. -/
structure PrometheusPage where
  count : Nat
  up : Nat
  down : Nat
  rise : List ShownRow
  fall : List ShownRow
  active : List (ShownRow × Nat)
  deriving DecidableEq, Repr

/-- Reads one of the totals, after its two comment lines. -/
def readTotal (name : String) : Scan UInt8 Nat := do
  passLines 2
  pass "nginx_upstream_count_"
  pass name
  pass " "
  readNumber csvNewline

/-- Reads a Prometheus page: the totals, and three families of samples. -/
def readPrometheus (names : List RowNames) : Scan UInt8 PrometheusPage := do
  let count ← readTotal "total"
  let up ← readTotal "up"
  let down ← readTotal "down"
  -- The generation.
  let _ ← readTotal "generation"
  passLines 2
  let rise ← (many (readSample "nginx_upstream_server_rise") names).convert exhausted
  passLines 2
  let fall ← (many (readSample "nginx_upstream_server_fall") names).convert exhausted
  passLines 2
  let active ← (many readActive names).convert exhausted
  return { count, up, down, rise, fall, active }

end Healthcheck
