import Healthcheck.Status.Render
import Healthcheck.Status.Snapshot

/-!
The formats of the two status pages. Each is a sequence of writer calls that ends with the first
call that fails.
-/

namespace Healthcheck

/-- The bytes of adjacent literals. -/
def text (parts : List String) : List UInt8 :=
  parts.flatMap Ascii.bytes

/-- `check_type_conf->name`. -/
def CheckType.name : CheckType → List UInt8
  | .tcp => Ascii.bytes "tcp"
  | .udp => Ascii.bytes "udp"

/-- A sum of two `ngx_uint_t`. -/
def wordAdd (word : Word) (a b : Nat) : Nat :=
  (a + b) % word.size

/-- A difference of two `ngx_uint_t`. -/
def wordSub (word : Word) (a b : Nat) : Nat :=
  (a + (word.size - b)) % word.size

/-- The rows a format shows, once more filtered by the flag. -/
def Snapshot.shown (snapshot : Snapshot) (flag : Nat) : List SnapshotPeer :=
  snapshot.peers.filter fun peer => !hidden flag peer.health

/-- `health.down ? "down" : "up"`. -/
def SnapshotPeer.status (peer : SnapshotPeer) : Arg :=
  .cstring (Ascii.bytes (if peer.health.down ≠ 0 then "down" else "up"))

/-- The mark of a row whose peer is down. -/
def SnapshotPeer.mark (peer : SnapshotPeer) : Arg :=
  .cstring (Ascii.bytes (if peer.health.down ≠ 0 then " bgcolor=\"#FF0000\"" else ""))

/-- The delays of a row, in the order the formats show them. -/
def SnapshotPeer.delays (peer : SnapshotPeer) : List Arg :=
  [.number peer.health.lastCheckDelay, .number peer.health.avgCheckDelay,
    .number peer.health.minCheckDelay, .number peer.health.maxCheckDelay]

/-- The generation shown for both groups. -/
def shownGeneration (http stream : Snapshot) : Nat :=
  if stream.generation ≠ 0 then stream.generation else http.generation

/-- The head of an HTML table, up to the columns that both pages have. -/
def htmlColumns : List String :=
  ["<table style=\"background-color:white\" cellspacing=\"0\" ",
    "       cellpadding=\"3\" border=\"1\">\n",
    "  <tr bgcolor=\"#C0C0C0\">\n",
    "    <th>Index</th>\n",
    "    <th>Upstream</th>\n",
    "    <th>Name</th>\n",
    "    <th>Status</th>\n",
    "    <th>Rise counts</th>\n",
    "    <th>Fall counts</th>\n",
    "    <th>Check type</th>\n",
    "    <th>Check port</th>\n"]

/-- The columns of delays. -/
def htmlDelayColumns : List String :=
  ["    <th>Last delay(ms)</th>\n",
    "    <th>Avg delay(ms)</th>\n",
    "    <th>Min delay(ms)</th>\n",
    "    <th>Max delay(ms)</th>\n",
    "  </tr>\n"]

/-- The cells of an HTML row, up to those that both pages have. -/
def htmlCells : List String :=
  ["  <tr%s>\n",
    "    <td>%ui</td>\n",
    "    <td>%V</td>\n",
    "    <td>%V</td>\n",
    "    <td>%s</td>\n",
    "    <td>%ui</td>\n",
    "    <td>%ui</td>\n",
    "    <td>%V</td>\n",
    "    <td>%ui</td>\n"]

/-- The arguments of these cells. -/
def SnapshotPeer.htmlArgs (peer : SnapshotPeer) : List Arg :=
  [peer.mark, .number peer.index, .string peer.upstreamName, .string peer.addrName, peer.status,
    .number peer.health.riseCount, .number peer.health.fallCount,
    .string peer.conf.checkType.name, .number peer.conf.port]

/-- The format of a row of `ngx_upstream_check_status_html_format`. -/
def htmlRowFormat : List UInt8 :=
  text (htmlCells ++
    ["    <td>%M</td>\n", "    <td>%M</td>\n", "    <td>%M</td>\n", "    <td>%M</td>\n",
      "  </tr>\n"])

/-- One row of `ngx_upstream_check_status_html_format`. -/
def htmlRow (peer : SnapshotPeer) : Call :=
  .printf htmlRowFormat (peer.htmlArgs ++ peer.delays)

/-- The head of an HTML page. -/
def htmlHead : List UInt8 :=
  text
    ["<!DOCTYPE html PUBLIC \"-//W3C//DTD XHTML 1.0 Strict//EN\n",
      "\"http://www.w3.org/TR/xhtml1/DTD/xhtml1-strict.dtd\">\n",
      "<html xmlns=\"http://www.w3.org/1999/xhtml\">\n",
      "<head>\n",
      "  <title>Nginx upstream status checker</title>\n",
      "</head>\n",
      "<body>\n",
      "<h1  align=\"center\">Nginx upstream status monitor</h1>\n"]

/-- The head of the table of the HTTP group. -/
def htmlHttpHead : List UInt8 :=
  text (["<h2>http upstream servers </h2> up: %ui down: %ui total: %ui\n"] ++ htmlColumns ++
    htmlDelayColumns)

/-- The head of the table of the stream group. -/
def htmlStreamHead : List UInt8 :=
  text (["<h2>stream upstream servers </h2> up: %ui down: %ui total: %ui\n"] ++ htmlColumns ++
    htmlDelayColumns)

/-- The end of an HTML page. -/
def htmlFoot : List UInt8 :=
  text
    ["</table>\n",
      "<h2>total servers(check enabled): %ui </h2>\n",
      "</body></html>\n"]

/-- The counts over the table of one group. -/
def Snapshot.htmlArgs (word : Word) (snapshot : Snapshot) : List Arg :=
  [.number snapshot.up, .number (wordSub word snapshot.total snapshot.up), .number snapshot.total]

/-- `ngx_upstream_check_status_html_format`. -/
def htmlFormat (word : Word) (http stream : Snapshot) (flag : Nat) : List Call :=
  [.printf htmlHead [], .printf htmlHttpHead (http.htmlArgs word)] ++
    (http.shown flag).map htmlRow ++
    [.printf (text ["</table>\n"]) [], .printf htmlStreamHead (stream.htmlArgs word)] ++
    (stream.shown flag).map htmlRow ++
    [.printf htmlFoot [.number (wordAdd word stream.total http.total)]]

/-- One row of `ngx_upstream_check_status_csv_format`. -/
def csvRow (fmt : List UInt8) (peer : SnapshotPeer) : Call :=
  .printf fmt
    ([.number peer.index, .string peer.upstreamName, .string peer.addrName,
      .number peer.health.riseCount, .number peer.health.fallCount,
      .string peer.conf.checkType.name, .number peer.conf.port] ++ peer.delays ++ [peer.status])

/-- The head of a CSV page. -/
def csvHead : List UInt8 :=
  text
    ["index,upstream_type,upstream_name,host,rise,fall,check_type,check_port,",
      "last_delay,avg_delay,min_delay,max_delay,status\n"]

/-- The format of an HTTP row of a CSV page. -/
def csvHttpFormat : List UInt8 :=
  text ["%ui,http,%V,%V,%ui,%ui,%V,%ui,%M,%M,%M,%M,%s\n"]

/-- The format of a stream row of a CSV page. -/
def csvStreamFormat : List UInt8 :=
  text ["%ui,stream,%V,%V,%ui,%ui,%V,%ui,%M,%M,%M,%M,%s\n"]

/-- `ngx_upstream_check_status_csv_format`. -/
def csvFormat (http stream : Snapshot) (flag : Nat) : List Call :=
  [.printf csvHead []] ++
    (http.shown flag).map (csvRow csvHttpFormat) ++
    (stream.shown flag).map (csvRow csvStreamFormat)

/-- The members of a JSON row that both pages have. -/
def jsonMembers : List String :=
  ["    \x7b\"index\": %ui, ",
    "\"upstream\": \"%V\", ",
    "\"name\": \"%V\", ",
    "\"status\": \"%s\", ",
    "\"rise\": %ui, ",
    "\"fall\": %ui, ",
    "\"type\": \"%V\", ",
    "\"port\": %ui"]

/-- The arguments of these members. -/
def SnapshotPeer.jsonArgs (peer : SnapshotPeer) : List Arg :=
  [.number peer.index, .string peer.upstreamName, .string peer.addrName, peer.status,
    .number peer.health.riseCount, .number peer.health.fallCount,
    .string peer.conf.checkType.name, .number peer.conf.port]

/-- What follows a row: a comma unless it is the last one. -/
def comma (last : Bool) : Arg :=
  .cstring (Ascii.bytes (if last then "" else ","))

/-- The format of a row of `ngx_upstream_check_status_json_format`. -/
def jsonRowFormat : List UInt8 :=
  text (jsonMembers ++
    [", ",
      "\"last_delay_ms\": %M, ",
      "\"avg_delay_ms\": %M, ",
      "\"min_delay_ms\": %M, ",
      "\"max_delay_ms\": %M\x7d",
      "%s\n"])

/-- One row of `ngx_upstream_check_status_json_format`. -/
def jsonRow (peer : SnapshotPeer) (last : Bool) : Call :=
  .printf jsonRowFormat (peer.jsonArgs ++ peer.delays ++ [comma last])

/-- The rows of one JSON array. -/
def jsonRows (row : SnapshotPeer → Bool → Call) : List SnapshotPeer → List Call
  | [] => []
  | peer :: rest => row peer rest.isEmpty :: jsonRows row rest

/-- The head of a JSON page, up to its first array. -/
def jsonHead : List UInt8 :=
  text
    ["\x7b\"servers\": \x7b\n",
      "  \"total\": %ui,\n",
      "  \"generation\": %ui,\n",
      "  \"http\": [\n"]

/-- `ngx_upstream_check_status_json_format`. -/
def jsonFormat (word : Word) (http stream : Snapshot) : List Call :=
  [.printf jsonHead
      [.number (wordAdd word http.peers.length stream.peers.length),
        .number (shownGeneration http stream)]] ++
    jsonRows jsonRow http.peers ++
    [.printf (text ["  ],\n  \"stream\": [\n"]) []] ++
    jsonRows jsonRow stream.peers ++
    [.printf (text ["  ]\n"]) [], .printf (text ["\x7d\x7d\n"]) []]

/-- One sample line of a Prometheus metric that names a peer's status. -/
def prometheusRow (fmt : List UInt8) (type : String) (value : SnapshotPeer → Nat)
    (peer : SnapshotPeer) : Call :=
  .printf fmt
    [.number peer.index, .string (Ascii.bytes type), .string peer.upstreamName,
      .string peer.addrName, peer.status, .string peer.conf.checkType.name,
      .number peer.conf.port, .number (value peer)]

/-- The format of a line of the rise metric. -/
def riseFormat : List UInt8 :=
  text
    ["nginx_upstream_server_rise\x7bindex=\"%ui\",upstream_type=\"%V\",upstream=\"%V\",",
      "name=\"%V\",status=\"%s\",type=\"%V\",port=\"%ui\"\x7d %ui\n"]

/-- The format of a line of the fall metric. -/
def fallFormat : List UInt8 :=
  text
    ["nginx_upstream_server_fall\x7bindex=\"%ui\",upstream_type=\"%V\",upstream=\"%V\",",
      "name=\"%V\",status=\"%s\",type=\"%V\",port=\"%ui\"\x7d %ui\n"]

/-- The format of a line of the activity metric, which has no status label. -/
def activeFormat : List UInt8 :=
  text
    ["nginx_upstream_server_active\x7bindex=\"%ui\",upstream_type=\"%V\",upstream=\"%V\",",
      "name=\"%V\",type=\"%V\",port=\"%ui\"\x7d %ui\n"]

/-- One sample line of the activity metric. -/
def prometheusActive (type : String) (peer : SnapshotPeer) : Call :=
  .printf activeFormat
    [.number peer.index, .string (Ascii.bytes type), .string peer.upstreamName,
      .string peer.addrName, .string peer.conf.checkType.name, .number peer.conf.port,
      -- The source passes an `int`, which the directive reads as a word.
      .number (if peer.health.down ≠ 0 then 0 else 1)]

/-- How many of the shown rows satisfy a condition, counted in an `ngx_uint_t`. -/
def countShown (word : Word) (http stream : Snapshot) (flag : Nat)
    (counted : SnapshotPeer → Bool) : Nat :=
  (http.shown flag ++ stream.shown flag).countP counted % word.size

/-- The totals at the head of a Prometheus page. -/
def prometheusHead : List UInt8 :=
  text
    ["# HELP nginx_upstream_count_total Nginx total number of servers\n",
      "# TYPE nginx_upstream_count_total gauge\n",
      "nginx_upstream_count_total %ui\n",
      "# HELP nginx_upstream_count_up Nginx total number of servers that are UP\n",
      "# TYPE nginx_upstream_count_up gauge\n",
      "nginx_upstream_count_up %ui\n",
      "# HELP nginx_upstream_count_down Nginx total number of servers that are DOWN\n",
      "# TYPE nginx_upstream_count_down gauge\n",
      "nginx_upstream_count_down %ui\n",
      "# HELP nginx_upstream_count_generation Nginx generation\n",
      "# TYPE nginx_upstream_count_generation gauge\n",
      "nginx_upstream_count_generation %ui\n"]

/-- The head of the rise metric. -/
def riseHead : List UInt8 :=
  text
    ["# HELP nginx_upstream_server_rise Nginx rise counter\n",
      "# TYPE nginx_upstream_server_rise counter\n"]

/-- The head of the fall metric. -/
def fallHead : List UInt8 :=
  text
    ["# HELP nginx_upstream_server_fall Nginx fall counter\n",
      "# TYPE nginx_upstream_server_fall counter\n"]

/-- The head of the activity metric. -/
def activeHead : List UInt8 :=
  text
    ["# HELP nginx_upstream_server_active Nginx active 1 for UP / 0 for DOWN\n",
      "# TYPE nginx_upstream_server_active gauge\n"]

/-- One metric of a Prometheus page: its head, and a line for each shown row. -/
def prometheusMetric (http stream : Snapshot) (flag : Nat) (head : List UInt8)
    (row : String → SnapshotPeer → Call) : List Call :=
  [.printf head []] ++ (http.shown flag).map (row "http") ++
    (stream.shown flag).map (row "stream")

/-- `ngx_http_upstream_check_status_prometheus_format`. -/
def prometheusFormat (word : Word) (http stream : Snapshot) (flag : Nat) : List Call :=
  [.printf prometheusHead
      [.number (countShown word http stream flag fun _ => true),
        .number (countShown word http stream flag fun peer => peer.health.down == 0),
        .number (countShown word http stream flag fun peer => peer.health.down != 0),
        .number (shownGeneration http stream)]] ++
    prometheusMetric http stream flag riseHead
      (fun type => prometheusRow riseFormat type fun peer => peer.health.riseCount) ++
    prometheusMetric http stream flag fallHead
      (fun type => prometheusRow fallFormat type fun peer => peer.health.fallCount) ++
    prometheusMetric http stream flag activeHead prometheusActive

/-- An HTML row of the legacy page. -/
def legacyHtmlFormat : List UInt8 :=
  text (htmlCells ++ ["  </tr>\n"])

/-- A CSV row of the legacy page. -/
def legacyCsvFormat : List UInt8 :=
  text ["%ui,%V,%V,%s,%ui,%ui,%V,%ui\n"]

/-- A JSON row of the legacy page. -/
def legacyJsonFormat : List UInt8 :=
  text (jsonMembers ++ ["\x7d%s\n"])

/-- One row of `ngx_healthcheck_legacy_output`. -/
def legacyRow (format : Nat) (peer : SnapshotPeer) (last : Bool) : Call :=
  if format = 0 then .printf legacyHtmlFormat peer.htmlArgs
  else if format = 1 then .printf legacyCsvFormat peer.jsonArgs
  else .printf legacyJsonFormat (peer.jsonArgs ++ [comma last])

/-- The head of the legacy HTML page. -/
def legacyHtmlHead : List UInt8 :=
  text
    (["<!DOCTYPE html PUBLIC \"-//W3C//DTD XHTML 1.0 Strict//EN\n",
      "\"http://www.w3.org/TR/xhtml1/DTD/xhtml1-strict.dtd\">\n",
      "<html xmlns=\"http://www.w3.org/1999/xhtml\">\n",
      "<head>\n",
      "  <title>Nginx http upstream check status</title>\n",
      "</head>\n",
      "<body>\n",
      "<h1>Nginx http upstream check status</h1>\n",
      "<h2>Check upstream server number: %ui, generation: %ui</h2>\n"] ++ htmlColumns ++
      ["  </tr>\n"])

/-- The head of the legacy JSON page. -/
def legacyJsonHead : List UInt8 :=
  text
    ["\x7b\"servers\": \x7b\n",
      "  \"total\": %ui,\n",
      "  \"generation\": %ui,\n",
      "  \"server\": [\n"]

/-- What the legacy page writes before its rows; CSV has no head. -/
def legacyHead (snapshot : Snapshot) (format : Nat) : List Call :=
  if format = 0 then
    [.printf legacyHtmlHead [.number snapshot.peers.length, .number snapshot.generation]]
  else if format = 2 then
    [.printf legacyJsonHead [.number snapshot.peers.length, .number snapshot.generation]]
  else []

/-- What the legacy page writes after its rows. -/
def legacyFoot (format : Nat) : List Call :=
  if format = 0 then [.printf (text ["</table>\n</body>\n</html>\n"]) []]
  else if format = 2 then [.printf (text ["  ]\n\x7d\x7d\n"]) []]
  else []

/-- `ngx_healthcheck_legacy_output`. -/
def legacyOutput (snapshot : Snapshot) (format : Nat) : List Call :=
  legacyHead snapshot format ++ jsonRows (legacyRow format) snapshot.peers ++ legacyFoot format

end Healthcheck
