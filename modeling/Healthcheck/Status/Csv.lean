import Healthcheck.Library.Delimited
import Healthcheck.Status.Document

/-! The CSV pages as tables: what a reader takes from them, and when that is what they show. -/

namespace Healthcheck

open Delimited

/-- The separator of fields. -/
def csvComma : UInt8 :=
  ','.toUInt8

/-- The end of a line. -/
def csvNewline : UInt8 :=
  '\n'.toUInt8

/-- What a line of either page says about a peer. -/
structure CsvEntry where
  index : Nat
  upstream : List UInt8
  host : List UInt8
  down : Bool
  rise : Nat
  fall : Nat
  type : CheckType
  port : Nat
  deriving DecidableEq, Repr

/-- What a line of the page of both groups adds to that; -1 is no delay. -/
structure TimedEntry extends CsvEntry where
  module : Module
  last : Option Nat
  avg : Option Nat
  min : Option Nat
  max : Option Nat
  deriving DecidableEq, Repr

/-- The line of a peer. -/
def SnapshotPeer.entry (peer : SnapshotPeer) : CsvEntry :=
  { index := peer.index, upstream := peer.upstreamName, host := peer.addrName
    down := peer.health.down ≠ 0, rise := peer.health.riseCount, fall := peer.health.fallCount
    type := peer.conf.checkType, port := peer.conf.port }

/-- A delay, unless it is `(ngx_msec_t) -1`. -/
def shownDelay (word : Word) (value : Nat) : Option Nat :=
  if value = word.max then none else some value

/-- The line of a peer of a group. -/
def SnapshotPeer.timedEntry (word : Word) (module : Module) (peer : SnapshotPeer) : TimedEntry :=
  { peer.entry with
    module := module
    last := shownDelay word peer.health.lastCheckDelay
    avg := shownDelay word peer.health.avgCheckDelay
    min := shownDelay word peer.health.minCheckDelay
    max := shownDelay word peer.health.maxCheckDelay }

/-- The name of a state. -/
def statusName (down : Bool) : List UInt8 :=
  Ascii.bytes (if down then "down" else "up")

/-- The name of a group. -/
def Module.column : Module → List UInt8
  | .http => Ascii.bytes "http"
  | .stream => Ascii.bytes "stream"

/-- The format of the rows of a group. -/
def Module.csvFormat : Module → List UInt8
  | .http => csvHttpFormat
  | .stream => csvStreamFormat

/-- Reads a number of milliseconds. -/
def readDelay (field : List UInt8) : Option (Option Nat) :=
  if field = Ascii.bytes "-1" then some none else (Ascii.decimal field).map some

/-- Reads a line of the legacy page. -/
def readEntry : List (List UInt8) → Option CsvEntry
  | [index, upstream, host, status, rise, fall, type, port] => do
    let index ← Ascii.decimal index
    let down ← [false, true].find? fun down => status = statusName down
    let rise ← Ascii.decimal rise
    let fall ← Ascii.decimal fall
    let type ← [CheckType.tcp, .udp].find? fun known => type = known.name
    let port ← Ascii.decimal port
    return { index, upstream, host, down, rise, fall, type, port }
  | _ => none

/-- Reads a line of the page of both groups. -/
def readTimedEntry : List (List UInt8) → Option TimedEntry
  | [index, module, upstream, host, rise, fall, type, port, last, avg, min, max, status] => do
    let entry ← readEntry [index, upstream, host, status, rise, fall, type, port]
    let module ← [Module.http, .stream].find? fun known => module = known.column
    let last ← readDelay last
    let avg ← readDelay avg
    let min ← readDelay min
    let max ← readDelay max
    return { entry with module, last, avg, min, max }
  | _ => none

/-- The names of the columns. -/
def csvColumns : List (List UInt8) :=
  ["index", "upstream_type", "upstream_name", "host", "rise", "fall", "check_type", "check_port",
    "last_delay", "avg_delay", "min_delay", "max_delay", "status"].map Ascii.bytes

/-- Reads the page of both groups: its first line has the names of the columns. -/
def decodeCsv (text : List UInt8) : Option (List TimedEntry) := do
  let table ← decode csvComma csvNewline text
  if table.head? = some csvColumns then table.tail.mapM readTimedEntry else none

/-- Reads the legacy page, which starts with its first row. -/
def decodeLegacyCsv (text : List UInt8) : Option (List CsvEntry) := do
  let table ← decode csvComma csvNewline text
  table.mapM readEntry

/-- The names of a row can stand in a table as they are. -/
def SnapshotPeer.Tabular (peer : SnapshotPeer) : Prop :=
  (csvComma ∉ peer.upstreamName ∧ csvNewline ∉ peer.upstreamName) ∧
    csvComma ∉ peer.addrName ∧ csvNewline ∉ peer.addrName

/-- The fields of a row of the legacy page. -/
def SnapshotPeer.fields (peer : SnapshotPeer) : List (List UInt8) :=
  [Ascii.numeral peer.index, peer.upstreamName, peer.addrName, statusName (peer.health.down ≠ 0),
    Ascii.numeral peer.health.riseCount, Ascii.numeral peer.health.fallCount,
    peer.conf.checkType.name, Ascii.numeral peer.conf.port]

/-- The fields of a row of the page of both groups. -/
def SnapshotPeer.timedFields (word : Word) (module : Module) (peer : SnapshotPeer) :
    List (List UInt8) :=
  [Ascii.numeral peer.index, module.column, peer.upstreamName, peer.addrName,
    Ascii.numeral peer.health.riseCount, Ascii.numeral peer.health.fallCount,
    peer.conf.checkType.name, Ascii.numeral peer.conf.port,
    msecNumeral word peer.health.lastCheckDelay, msecNumeral word peer.health.avgCheckDelay,
    msecNumeral word peer.health.minCheckDelay, msecNumeral word peer.health.maxCheckDelay,
    statusName (peer.health.down ≠ 0)]

/-- The bytes that end a field in one of the formats. -/
def fieldMarks : List UInt8 :=
  [csvComma, csvNewline, Json.quote, '<'.toUInt8]

/-- There are four marks. -/
theorem marks_cases {mark : UInt8} (ends : mark ∈ fieldMarks) :
    mark = csvComma ∨ mark = csvNewline ∨ mark = Json.quote ∨ mark = '<'.toUInt8 := by
  -- They are listed.
  simpa [fieldMarks] using ends

/-- No mark is a digit or a minus sign. -/
theorem marks_apart {mark : UInt8} (ends : mark ∈ fieldMarks) : mark < 45 ∨ 57 < mark := by
  -- Each mark is checked.
  rcases marks_cases ends with rfl | rfl | rfl | rfl <;> decide

/-- A numeral has digits only. -/
theorem numeral_clean {mark : UInt8} (ends : mark ∈ fieldMarks) (number : Nat) :
    mark ∉ Ascii.numeral number := by
  -- Digits are between 48 and 57.
  intro inside
  obtain ⟨low, high⟩ := Ascii.numeral_digits number mark inside
  rcases marks_apart ends with below | above
  · exact absurd (UInt8.lt_of_lt_of_le below (by decide : (45 : UInt8) ≤ 48))
      (UInt8.not_lt.mpr low)
  · exact absurd above (UInt8.not_lt.mpr high)

/-- A number of milliseconds has digits only, or is -1. -/
theorem msecNumeral_clean {mark : UInt8} (ends : mark ∈ fieldMarks) (word : Word) (value : Nat) :
    mark ∉ msecNumeral word value := by
  -- The value -1 is checked for each mark.
  unfold msecNumeral
  split
  · rcases marks_cases ends with rfl | rfl | rfl | rfl <;> decide
  · exact numeral_clean ends value

/-- The name of a state has letters only. -/
theorem statusName_clean {mark : UInt8} (ends : mark ∈ fieldMarks) (down : Bool) :
    mark ∉ statusName down := by
  -- Both names are checked for each mark.
  rcases marks_cases ends with rfl | rfl | rfl | rfl <;> cases down <;> decide

/-- The name of a type has letters only. -/
theorem type_clean {mark : UInt8} (ends : mark ∈ fieldMarks) (type : CheckType) :
    mark ∉ type.name := by
  -- Both names are checked for each mark.
  rcases marks_cases ends with rfl | rfl | rfl | rfl <;> cases type <;> decide

/-- The name of a group has letters only. -/
theorem column_clean {mark : UInt8} (ends : mark ∈ fieldMarks) (module : Module) :
    mark ∉ module.column := by
  -- Both names are checked for each mark.
  rcases marks_cases ends with rfl | rfl | rfl | rfl <;> cases module <;> decide

/-- A number of milliseconds is read back, -1 as none. -/
theorem readDelay_msecNumeral (word : Word) (value : Nat) :
    readDelay (msecNumeral word value) = some (shownDelay word value) := by
  -- The largest number of the word is shown as -1.
  unfold readDelay msecNumeral shownDelay
  split
  · rfl
  · have digits : Ascii.numeral value ≠ Ascii.bytes "-1" := by
      intro same
      have minus : 45 ∈ Ascii.numeral value := by
        rw [same]
        decide
      exact absurd (Ascii.numeral_digits value 45 minus).1 (by decide)
    rw [if_neg digits, Ascii.decimal_numeral]
    rfl

/-- A state is read back from its name. -/
theorem status_reads (down : Bool) :
    ([false, true].find? fun known => statusName down = statusName known) = some down := by
  -- Two states with two names.
  cases down <;> decide

/-- A type of check is read back from its name. -/
theorem type_reads (type : CheckType) :
    ([CheckType.tcp, .udp].find? fun known => type.name = known.name) = some type := by
  -- Two types with two names.
  cases type <;> decide

/-- A group is read back from its name. -/
theorem column_reads (module : Module) :
    ([Module.http, .stream].find? fun known => module.column = known.column) = some module := by
  -- Two groups with two names.
  cases module <;> decide

/-- The fields of a row are read as its line. -/
theorem readEntry_fields (peer : SnapshotPeer) : readEntry peer.fields = some peer.entry := by
  -- Each field is read back by its own lemma.
  simp [readEntry, SnapshotPeer.fields, SnapshotPeer.entry, Ascii.decimal_numeral, status_reads,
    type_reads]

/-- A row with delays is read back. -/
theorem readTimedEntry_fields (word : Word) (module : Module) (peer : SnapshotPeer) :
    readTimedEntry (peer.timedFields word module) = some (peer.timedEntry word module) := by
  -- The first fields are those of a row without delays.
  have entry := readEntry_fields peer
  rw [SnapshotPeer.fields] at entry
  rw [SnapshotPeer.timedFields, readTimedEntry, entry]
  simp [SnapshotPeer.timedEntry, column_reads, readDelay_msecNumeral]

/-- Names are taken from the fields as they are. -/
theorem readEntry_names {fields : List (List UInt8)} {entry : CsvEntry}
    (read : readEntry fields = some entry) : entry.upstream ∈ fields ∧ entry.host ∈ fields := by
  -- A row that was read has just the fields of a row.
  unfold readEntry at read
  split at read
  · simp only [Option.bind_eq_bind, Option.bind_eq_some_iff, Option.pure_def,
      Option.some.injEq] at read
    obtain ⟨_, _, _, _, _, _, _, _, _, _, _, _, rfl⟩ := read
    simp
  · cases read

/-- The names of a row with delays stand among its fields. -/
theorem readTimedEntry_names {fields : List (List UInt8)} {entry : TimedEntry}
    (read : readTimedEntry fields = some entry) :
    entry.upstream ∈ fields ∧ entry.host ∈ fields := by
  unfold readTimedEntry at read
  split at read
  · simp only [Option.bind_eq_bind, Option.bind_eq_some_iff, Option.pure_def,
      Option.some.injEq] at read
    obtain ⟨inner, found, _, _, _, _, _, _, _, _, _, _, rfl⟩ := read
    -- The fields of the shorter line are some of this one's.
    refine (readEntry_names found).imp ?_ ?_ <;>
    · intro name
      simp only [List.mem_cons, List.not_mem_nil, or_false] at name ⊢
      tauto
  · cases read

/-- A row whose names are tabular has clean fields only. -/
theorem fields_clean {peer : SnapshotPeer} (tabular : peer.Tabular) :
    ∀ field ∈ peer.fields, csvComma ∉ field ∧ csvNewline ∉ field := by
  -- The names are clean by assumption, and the other fields always.
  have comma : csvComma ∈ fieldMarks := by decide
  have newline : csvNewline ∈ fieldMarks := by decide
  simp [SnapshotPeer.fields, numeral_clean, statusName_clean, type_clean, comma, newline, tabular.1,
    tabular.2]

/-- A row of the page of both groups is rendered as its fields. -/
theorem timedFields_clean {peer : SnapshotPeer} (tabular : peer.Tabular) (word : Word)
    (module : Module) :
    ∀ field ∈ peer.timedFields word module, csvComma ∉ field ∧ csvNewline ∉ field := by
  -- The names are clean by assumption, and the other fields always.
  have comma : csvComma ∈ fieldMarks := by decide
  have newline : csvNewline ∈ fieldMarks := by decide
  simp [SnapshotPeer.timedFields, numeral_clean, msecNumeral_clean, statusName_clean, type_clean,
    column_clean, comma, newline, tabular.1, tabular.2]

/-- A list is read when all its elements are. -/
theorem mapM_eq_some {α β : Type} {read : α → Option β} {parts : List α} {whole : List β} :
    parts.mapM read = some whole ↔ parts.map read = whole.map some := by
  -- Induction on the parts.
  induction parts generalizing whole with
  | nil =>
    simp only [List.mapM_nil, Option.pure_def, Option.some.injEq, List.map_nil]
    exact ⟨fun same => by simp [← same], fun same => (List.map_eq_nil_iff.mp same.symm).symm⟩
  | cons first rest ih =>
    cases whole with
    | nil => simp [List.mapM_cons, Option.bind_eq_some_iff]
    | cons head tail =>
      simp [List.mapM_cons, Option.bind_eq_some_iff, ih]

/-- Names that are copied from the fields of a table are as clean as these. -/
theorem names_clean {Line : Type} {read : List (List UInt8) → Option Line}
    (name : Line → List UInt8)
    (copied : ∀ {fields line}, read fields = some line → name line ∈ fields)
    {rows : List (List (List UInt8))} (clean : Clean csvComma csvNewline rows)
    {lines : List Line} (all : rows.mapM read = some lines) :
    ∀ line ∈ lines, csvComma ∉ name line ∧ csvNewline ∉ name line := by
  intro line found
  -- The line was read from a row, which has the name as a field.
  have image : some line ∈ rows.map read := by
    rw [mapM_eq_some.mp all]
    exact List.mem_map_of_mem found
  obtain ⟨fields, inside, reads⟩ := List.mem_map.mp image
  exact (clean fields inside).2 (name line) (copied reads)

/-- The formats of the rows, cut into their pieces. -/
theorem csv_pieces :
    pieces (Ascii.terminated legacyCsvFormat) =
        [.unsigned, .byte csvComma, .string, .byte csvComma, .string, .byte csvComma, .cstring,
          .byte csvComma, .unsigned, .byte csvComma, .unsigned, .byte csvComma, .string,
          .byte csvComma, .unsigned, .byte csvNewline] ∧
      ∀ module : Module, pieces (Ascii.terminated module.csvFormat) =
        .unsigned :: .byte csvComma :: (module.column.map .byte ++
          [.byte csvComma, .string, .byte csvComma, .string, .byte csvComma, .unsigned,
            .byte csvComma, .unsigned, .byte csvComma, .string, .byte csvComma, .unsigned,
            .byte csvComma, .msec, .byte csvComma, .msec, .byte csvComma, .msec, .byte csvComma,
            .msec, .byte csvComma, .cstring, .byte csvNewline]) := by
  -- The formats of the source are constants.
  refine ⟨by rfl, fun module => ?_⟩
  cases module <;> rfl

/-- The state of a row as it is written. -/
theorem status_rendered (peer : SnapshotPeer) :
    peer.status = .cstring (statusName (peer.health.down ≠ 0)) ∧
      Ascii.terminated (statusName (peer.health.down ≠ 0)) =
        statusName (peer.health.down ≠ 0) := by
  -- Neither name holds a zero byte.
  have ended := (status_plain peer).2
  simp only [SnapshotPeer.status, statusName, decide_eq_true_eq]
  exact ⟨trivial, ended⟩

/-- A row of the legacy page is the line of its fields. -/
theorem legacyRow_rendered (word : Word) (peer : SnapshotPeer) (last : Bool) :
    (legacyRow 1 peer last).rendered word =
      [csvComma].intercalate peer.fields ++ [csvNewline] := by
  -- A row is its format with the pieces filled in.
  obtain ⟨status, ended⟩ := status_rendered peer
  change Call.rendered word (.printf legacyCsvFormat peer.jsonArgs) = _
  rw [Call.rendered, csv_pieces.1, SnapshotPeer.jsonArgs, status]
  simp only [render, ended, SnapshotPeer.fields, List.intercalate_cons_cons,
    List.intercalate_singleton, List.append_assoc, List.cons_append, List.nil_append]

/-- The plain bytes of a format are rendered as they stand. -/
theorem render_bytes (word : Word) (bytes : List UInt8) (rest : List Piece) (args : List Arg) :
    render word (bytes.map .byte ++ rest) args = bytes ++ render word rest args := by
  -- Induction on the bytes.
  induction bytes with
  | nil => rfl
  | cons byte others ih => simp [render, ih]

/-- A row of a group is the line of its fields, the group's name among them. -/
theorem csvRow_rendered (word : Word) (module : Module) (peer : SnapshotPeer) :
    (csvRow module.csvFormat peer).rendered word =
      [csvComma].intercalate (peer.timedFields word module) ++ [csvNewline] := by
  -- A row is its format with the pieces filled in.
  obtain ⟨status, ended⟩ := status_rendered peer
  rw [csvRow, Call.rendered, csv_pieces.2, SnapshotPeer.delays, status]
  simp only [render, render_bytes, ended, SnapshotPeer.timedFields, List.intercalate_cons_cons,
    List.intercalate_singleton, List.append_assoc, List.cons_append, List.nil_append]

/-- The table of the page of both groups. -/
def csvTable (word : Word) (http stream : Snapshot) (flag : Nat) : List (List (List UInt8)) :=
  csvColumns :: ((http.shown flag).map (·.timedFields word .http) ++
    (stream.shown flag).map (·.timedFields word .stream))

/-- The lines of the page of both groups. -/
def csvEntries (word : Word) (http stream : Snapshot) (flag : Nat) : List TimedEntry :=
  (http.shown flag).map (·.timedEntry word .http) ++
    (stream.shown flag).map (·.timedEntry word .stream)

/-- The page of both groups is its table as text. -/
theorem csv_rendered (word : Word) (snapshots : Nat → Snapshot) (flag : Nat) :
    (Page.status .csv flag).rendered word snapshots =
      encode csvComma csvNewline (csvTable word (snapshots 0) (snapshots 1) flag) := by
  -- The heading and the rows of both groups follow each other.
  have head : Call.rendered word (.printf csvHead []) =
      [csvComma].intercalate csvColumns ++ [csvNewline] := by
    cases word <;> rfl
  have rows : ∀ (module : Module) (peers : List SnapshotPeer),
      (peers.map (csvRow module.csvFormat)).flatMap (Call.rendered word) =
        encode csvComma csvNewline (peers.map (·.timedFields word module)) := by
    intro module peers
    simp [encode, unlines, List.flatMap_map, csvRow_rendered]
  have http := rows .http ((snapshots 0).shown flag)
  have stream := rows .stream ((snapshots 1).shown flag)
  rw [Page.rendered, Page.calls, csvFormat, List.flatMap_append, List.flatMap_append,
    List.flatMap_singleton, head]
  simp only [Module.csvFormat] at http stream
  rw [http, stream]
  simp [csvTable, encode, unlines]

/-- The legacy page is its table as text. -/
theorem legacyCsv_rendered (word : Word) (snapshots : Nat → Snapshot) (flag : Nat) :
    (Page.legacy 1 flag).rendered word snapshots =
      encode csvComma csvNewline ((snapshots 0).peers.map SnapshotPeer.fields) := by
  -- The rows follow each other without a heading.
  have rows : ∀ peers : List SnapshotPeer,
      (jsonRows (legacyRow 1) peers).flatMap (Call.rendered word) =
        encode csvComma csvNewline (peers.map SnapshotPeer.fields) := by
    intro peers
    induction peers with
    | nil => rfl
    | cons peer rest ih =>
      rw [jsonRows, List.flatMap_cons, ih, legacyRow_rendered]
      simp [encode, unlines]
  have calls : (Page.legacy 1 flag).calls word snapshots =
      jsonRows (legacyRow 1) (snapshots 0).peers := by
    simp [Page.calls, legacyOutput, legacyHead, legacyFoot]
  rw [Page.rendered, calls, rows]

/-- The page of both groups is read as its lines exactly when all names are tabular. -/
theorem csv_reads (word : Word) (snapshots : Nat → Snapshot) (flag : Nat) :
    decodeCsv ((Page.status .csv flag).rendered word snapshots) =
        some (csvEntries word (snapshots 0) (snapshots 1) flag) ↔
      ∀ peer ∈ (snapshots 0).shown flag ++ (snapshots 1).shown flag, peer.Tabular := by
  constructor
  · intro read peer found
    -- Whatever the table is that was read, its names are those of the rows that are shown.
    obtain ⟨table, decoded, rest⟩ := Option.bind_eq_some_iff.mp read
    have clean := ((decode_eq_some (by decide)).mp decoded).2
    split at rest
    · have tail : Clean csvComma csvNewline table.tail := fun row inside =>
        clean row (List.mem_of_mem_tail inside)
      have line : ∃ module, peer.timedEntry word module ∈
          csvEntries word (snapshots 0) (snapshots 1) flag := by
        rcases List.mem_append.mp found with http | stream
        · exact ⟨.http, List.mem_append_left _ (List.mem_map_of_mem http)⟩
        · exact ⟨.stream, List.mem_append_right _ (List.mem_map_of_mem stream)⟩
      obtain ⟨module, inside⟩ := line
      exact ⟨names_clean (fun line => line.upstream) (fun read => (readTimedEntry_names read).1)
          tail rest _ inside,
        names_clean (fun line => line.host) (fun read => (readTimedEntry_names read).2)
          tail rest _ inside⟩
    · cases rest
  · intro tabular
    have clean : Clean csvComma csvNewline (csvTable word (snapshots 0) (snapshots 1) flag) := by
      have rows : ∀ peer ∈ (snapshots 0).shown flag ++ (snapshots 1).shown flag, ∀ module,
          peer.timedFields word module ≠ [] ∧ ∀ field ∈ peer.timedFields word module,
            csvComma ∉ field ∧ csvNewline ∉ field := fun peer found module =>
        ⟨List.cons_ne_nil _ _, timedFields_clean (tabular peer found) word module⟩
      refine List.forall_mem_cons.mpr ⟨by decide, fun row inside => ?_⟩
      rcases List.mem_append.mp inside with http | stream
      · obtain ⟨peer, found, rfl⟩ := List.mem_map.mp http
        exact rows peer (List.mem_append_left _ found) .http
      · obtain ⟨peer, found, rfl⟩ := List.mem_map.mp stream
        exact rows peer (List.mem_append_right _ found) .stream
    have decoded := (decode_eq_some (by decide)).mpr
      ⟨(csv_rendered word snapshots flag).symm, clean⟩
    -- Every row is read as its line.
    have lines : (((snapshots 0).shown flag).map (·.timedFields word .http) ++
        ((snapshots 1).shown flag).map (·.timedFields word .stream)).mapM readTimedEntry =
          some (csvEntries word (snapshots 0) (snapshots 1) flag) := by
      rw [mapM_eq_some]
      simp [csvEntries, Function.comp_def, readTimedEntry_fields]
    rw [decodeCsv, decoded]
    simpa [csvTable] using lines

/-- The legacy page is read as its lines exactly when all names are tabular. -/
theorem legacyCsv_reads (word : Word) (snapshots : Nat → Snapshot) (flag : Nat) :
    decodeLegacyCsv ((Page.legacy 1 flag).rendered word snapshots) =
        some ((snapshots 0).peers.map SnapshotPeer.entry) ↔
      ∀ peer ∈ (snapshots 0).peers, peer.Tabular := by
  -- A name with a comma or a line feed is no field of any row.
  constructor
  · intro read peer found
    obtain ⟨table, decoded, rest⟩ := Option.bind_eq_some_iff.mp read
    have clean := ((decode_eq_some (by decide)).mp decoded).2
    have inside : peer.entry ∈ (snapshots 0).peers.map SnapshotPeer.entry :=
      List.mem_map_of_mem found
    exact ⟨names_clean CsvEntry.upstream (fun read => (readEntry_names read).1) clean rest _ inside,
      names_clean CsvEntry.host (fun read => (readEntry_names read).2) clean rest _ inside⟩
  · intro tabular
    have clean : Clean csvComma csvNewline ((snapshots 0).peers.map SnapshotPeer.fields) := by
      intro row inside
      obtain ⟨peer, found, rfl⟩ := List.mem_map.mp inside
      exact ⟨List.cons_ne_nil _ _, fields_clean (tabular peer found)⟩
    have decoded := (decode_eq_some (by decide)).mpr
      ⟨(legacyCsv_rendered word snapshots flag).symm, clean⟩
    rw [decodeLegacyCsv, decoded, Option.bind_eq_bind, Option.bind_some, mapM_eq_some]
    simp [Function.comp_def, readEntry_fields]

/-- Both CSV pages, once formatted, are tables: a reader that only splits lines and fields takes
the rows of the snapshots from them exactly when no name has a comma or a line feed, because names
are copied as they are. -/
theorem csv_decodes {word : Word} {pool : Pool} {snapshots : Nat → Snapshot}
    (fits : ∀ module, (snapshots module).Fits word) (flag : Nat) :
    (∀ w, runCalls word ((Page.status .csv flag).calls word snapshots) (.init pool) =
        some (.ok, w) →
      (decodeCsv w.content = some (csvEntries word (snapshots 0) (snapshots 1) flag) ↔
        ∀ peer ∈ (snapshots 0).shown flag ++ (snapshots 1).shown flag, peer.Tabular)) ∧
    (∀ w, runCalls word ((Page.legacy 1 flag).calls word snapshots) (.init pool) =
        some (.ok, w) →
      (decodeLegacyCsv w.content = some ((snapshots 0).peers.map SnapshotPeer.entry) ↔
        ∀ peer ∈ (snapshots 0).peers, peer.Tabular)) := by
  -- The content is what the calls render.
  refine ⟨fun w formatted => ?_, fun w formatted => ?_⟩
  · rw [(formatted_content fits formatted).2]
    exact csv_reads word snapshots flag
  · rw [(formatted_content fits formatted).2]
    exact legacyCsv_reads word snapshots flag

/-- Two groups of two peers each, where the upstream of the first group has a comma in its name. -/
def commaSnapshots : Nat → Snapshot
  | 0 => { mixedSnapshots 0 with
      peers := (mixedSnapshots 0).peers.map fun peer =>
        { peer with upstreamName := Ascii.bytes "back,end" } }
  | module => mixedSnapshots module

/-- The numbers of these groups are machine words. -/
theorem commaSnapshots_fits (module : Nat) : (commaSnapshots module).Fits .bits64 := by
  -- A name is no number.
  match module with
  | 0 =>
    have fits := mixedSnapshots_fits 0
    refine ⟨fits.generation, fits.total, fits.up, by decide, fun peer found => ?_⟩
    obtain ⟨plain, member, rfl⟩ := List.mem_map.mp found
    exact { fits.rows plain member with }
  | module + 1 => exact mixedSnapshots_fits (module + 1)

/-- The rows of two groups are read back, and not those of a group with a comma in a name. -/
theorem csv_decodes_sample : (∃ w,
    runCalls .bits64 ((Page.status .csv 0).calls .bits64 mixedSnapshots) (.init sampleCore.pool) =
      some (.ok, w) ∧
    decodeCsv w.content = some (csvEntries .bits64 (mixedSnapshots 0) (mixedSnapshots 1) 0)) ∧
    ∃ w,
    runCalls .bits64 ((Page.status .csv 0).calls .bits64 commaSnapshots) (.init sampleCore.pool) =
      some (.ok, w) ∧
    decodeCsv w.content ≠ some (csvEntries .bits64 (commaSnapshots 0) (commaSnapshots 1) 0) := by
  -- The theorem is used on both sides of the equivalence.
  have ok : ∀ snapshots, snapshots = mixedSnapshots ∨ snapshots = commaSnapshots →
      (runCalls .bits64 ((Page.status .csv 0).calls .bits64 snapshots)
        (.init sampleCore.pool)).map Prod.fst = some .ok := by
    rintro snapshots (rfl | rfl)
    · decide +kernel
    · decide +kernel
  constructor
  · obtain ⟨⟨rc, w⟩, formatted, rfl⟩ := Option.map_eq_some_iff.mp (ok _ (.inl rfl))
    refine ⟨w, formatted, ((csv_decodes mixedSnapshots_fits 0).1 w formatted).mpr ?_⟩
    have tabular : ∀ peer ∈ (mixedSnapshots 0).shown 0 ++ (mixedSnapshots 1).shown 0,
        (csvComma ∉ peer.upstreamName ∧ csvNewline ∉ peer.upstreamName) ∧
          csvComma ∉ peer.addrName ∧ csvNewline ∉ peer.addrName := by
      decide +kernel
    exact tabular
  · obtain ⟨⟨rc, w⟩, formatted, rfl⟩ := Option.map_eq_some_iff.mp (ok _ (.inr rfl))
    refine ⟨w, formatted, fun read => ?_⟩
    have tabular := ((csv_decodes commaSnapshots_fits 0).1 w formatted).mp read
    have comma : ∃ peer ∈ (commaSnapshots 0).shown 0 ++ (commaSnapshots 1).shown 0,
        csvComma ∈ peer.upstreamName := by
      decide +kernel
    obtain ⟨peer, shown, inside⟩ := comma
    exact (tabular peer shown).1.1 inside

end Healthcheck
