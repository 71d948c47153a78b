import Healthcheck.Status.Reading
import Healthcheck.Status.SnapshotLaws

/-!
What the pages of `healthcheck_status` show: each of them is read as the rows that were collected,
and the totals agree with the rows.
-/

namespace Healthcheck

open Scan DoubleSlot

/-- The shown row of a collected one. -/
def SnapshotPeer.shownRow (module : Module) (peer : SnapshotPeer) : ShownRow :=
  { module := module, index := peer.index, down := peer.health.down != 0 }

/-- The names of a row. -/
def SnapshotPeer.names (peer : SnapshotPeer) : RowNames :=
  { upstream := peer.upstreamName, host := peer.addrName }

/-- All collected rows, those of the HTTP group first. -/
def collectedRows (http stream : Snapshot) : List ShownRow :=
  http.peers.map (SnapshotPeer.shownRow .http) ++ stream.peers.map (SnapshotPeer.shownRow .stream)

/-- The names of all collected rows. -/
def collectedNames (http stream : Snapshot) : List RowNames :=
  http.peers.map SnapshotPeer.names ++ stream.peers.map SnapshotPeer.names

/-- The state of a peer, as the formats name it. -/
def SnapshotPeer.state (peer : SnapshotPeer) : List UInt8 :=
  statusName (peer.health.down ≠ 0)

/-- The name of a state is read as the state. -/
theorem downOf_state (peer : SnapshotPeer) : downOf peer.state = some (peer.health.down != 0) := by
  -- Both states are checked.
  unfold SnapshotPeer.state
  by_cases down : peer.health.down = 0
  · rw [down]
    rfl
  · have there : (peer.health.down != 0) = true := by simpa using down
    rw [there, decide_eq_true down]
    rfl

/-- The name of a group is read as the group. -/
theorem groupOf_column (module : Module) : groupOf module.column = some module := by
  -- Both groups are checked.
  cases module <;> rfl

/-- A number is read up to its mark. -/
theorem takes_number {mark : UInt8} (ends : mark ∈ fieldMarks) (number : Nat) :
    Takes (readNumber mark) (Ascii.numeral number ++ [mark]) number :=
  -- A numeral holds no mark.
  (takes_field (numeral_clean ends number)).convert (Ascii.decimal_numeral number)

/-- A state is read up to its mark. -/
theorem takes_state {mark : UInt8} (ends : mark ∈ fieldMarks) (peer : SnapshotPeer) :
    Takes ((field mark).convert downOf) (peer.state ++ [mark]) (peer.health.down != 0) :=
  -- The two names of the state hold no mark.
  (takes_field (statusName_clean ends _)).convert (downOf_state peer)

/-- A group is read up to its mark. -/
theorem takes_group {mark : UInt8} (ends : mark ∈ fieldMarks) (module : Module) :
    Takes ((field mark).convert groupOf) (module.column ++ [mark]) module :=
  -- The two names of the groups hold no mark.
  (takes_field (column_clean ends module)).convert (groupOf_column module)

/-- The fields of a row behind its names and its state. -/
def SnapshotPeer.others (word : Word) (peer : SnapshotPeer) : List (List UInt8) :=
  [Ascii.numeral peer.health.riseCount, Ascii.numeral peer.health.fallCount,
    peer.conf.checkType.name, Ascii.numeral peer.conf.port,
    msecNumeral word peer.health.lastCheckDelay, msecNumeral word peer.health.avgCheckDelay,
    msecNumeral word peer.health.minCheckDelay, msecNumeral word peer.health.maxCheckDelay]

/-- None of them has a mark. -/
theorem others_clean {mark : UInt8} (ends : mark ∈ fieldMarks) (word : Word)
    (peer : SnapshotPeer) : ∀ content ∈ peer.others word, mark ∉ content := by
  -- They are numbers and the name of a type.
  simp [SnapshotPeer.others, numeral_clean, msecNumeral_clean, type_clean, ends]

/-- Line feeds and quotation marks end fields, and so do commas and the ends of cells. -/
theorem marks_end : csvNewline ∈ fieldMarks ∧ Json.quote ∈ fieldMarks ∧ csvComma ∈ fieldMarks ∧
    '<'.toUInt8 ∈ fieldMarks := by
  decide

section Html

/-- A cell of an HTML table. -/
def cell (content : List UInt8) : List UInt8 :=
  Ascii.bytes "    <td>" ++ (content ++ Ascii.bytes "</td>\n")

/-- A cell is read as its content. -/
theorem takes_cell {content : List UInt8} (clean : '<'.toUInt8 ∉ content) :
    Takes readCell (cell content) content := by
  -- The content ends where the closing tag starts.
  have shape : cell content =
      Ascii.bytes "    <td>" ++ ((content ++ ['<'.toUInt8]) ++ Ascii.bytes "/td>\n") := by
    rw [List.append_assoc]
    rfl
  rw [shape]
  exact (takes_expect _).bind ((takes_field clean).bind ((takes_expect _).last _))

/-- A cell with a name is passed over. -/
theorem takes_name (name : List UInt8) : Takes (passName name) (cell name) () :=
  -- The tags and the name between them are passed one after the other.
  (takes_expect _).bind ((takes_expect _).bind (takes_expect _))

/-- Cells are passed over one by one. -/
theorem takes_cells {contents : List (List UInt8)}
    (clean : ∀ content ∈ contents, '<'.toUInt8 ∉ content) :
    Takes (times readCell contents.length) (contents.flatMap cell) () := by
  -- By induction on the cells.
  induction contents with
  | nil => exact takes_none _
  | cons first rest ih =>
    obtain ⟨here, later⟩ := List.forall_mem_cons.mp clean
    exact (takes_cell here).again (ih later)

/-- The pieces of a cell. -/
def cellPieces (piece : Piece) (rest : List Piece) : List Piece :=
  literal "    <td>" ++ piece :: (literal "</td>\n" ++ rest)

/-- The format of an HTML row, cut into its cells. -/
theorem htmlRow_pieces : pieces (Ascii.terminated htmlRowFormat) =
    literal "  <tr" ++ .cstring :: (literal ">\n" ++
      cellPieces .unsigned (cellPieces .string (cellPieces .string (cellPieces .cstring
        (cellPieces .unsigned (cellPieces .unsigned (cellPieces .string (cellPieces .unsigned
          (cellPieces .msec (cellPieces .msec (cellPieces .msec (cellPieces .msec
            (literal "  </tr>\n"))))))))))))) := by
  -- The format of the source is a constant.
  decide +kernel

/-- The color of a row. -/
def SnapshotPeer.color (peer : SnapshotPeer) : List UInt8 :=
  Ascii.bytes (if peer.health.down ≠ 0 then " bgcolor=\"#FF0000\"" else "")

/-- The color is written as it is, and has no line feed. -/
theorem color_written (peer : SnapshotPeer) :
    peer.mark = .cstring peer.color ∧ Ascii.terminated peer.color = peer.color ∧
      csvNewline ∉ peer.color ++ Ascii.bytes ">" := by
  -- Both colors are checked.
  unfold SnapshotPeer.mark SnapshotPeer.color
  refine ⟨rfl, ?_⟩
  split <;> exact ⟨by decide, by decide⟩

/-- A row is a sequence of cells. -/
theorem htmlRow_rendered (word : Word) (peer : SnapshotPeer) :
    (htmlRow peer).rendered word =
      Ascii.bytes "  <tr" ++ (((peer.color ++ Ascii.bytes ">") ++ [csvNewline]) ++
        (cell (Ascii.numeral peer.index) ++ (cell peer.upstreamName ++ (cell peer.addrName ++
          (cell peer.state ++ ((peer.others word).flatMap cell ++
            Ascii.bytes "  </tr>\n")))))) := by
  -- Each directive is replaced by its argument.
  obtain ⟨color, written, -⟩ := color_written peer
  obtain ⟨status, ended⟩ := status_rendered peer
  have opened : Ascii.bytes ">\n" = Ascii.bytes ">" ++ [csvNewline] := rfl
  rw [htmlRow, Call.rendered, htmlRow_pieces, SnapshotPeer.htmlArgs, SnapshotPeer.delays, color,
    status]
  simp only [cellPieces, render_literal, render, render_whole, written, ended, cell,
    SnapshotPeer.state, SnapshotPeer.others, List.flatMap_cons, List.flatMap_nil,
    List.append_assoc, List.cons_append, List.nil_append, opened]

/-- A row is read as what it shows. -/
theorem takes_htmlRow (word : Word) (module : Module) (peer : SnapshotPeer) :
    Takes (readHtmlRow module peer.names) ((htmlRow peer).rendered word)
      (peer.shownRow module) := by
  -- The cells are read in their order.
  obtain ⟨newline, -, -, angle⟩ := marks_end
  have index : Takes (readCell.convert Ascii.decimal) (cell (Ascii.numeral peer.index))
      peer.index :=
    (takes_cell (numeral_clean angle _)).convert (Ascii.decimal_numeral _)
  have state : Takes (readCell.convert downOf) (cell peer.state) (peer.health.down != 0) :=
    (takes_cell (statusName_clean angle _)).convert (downOf_state peer)
  rw [htmlRow_rendered]
  exact (takes_expect _).bind ((takes_field (color_written peer).2.2).bind
    (index.bind ((takes_name _).bind ((takes_name _).bind (state.bind
      ((takes_cells (others_clean angle word peer)).bind ((takes_expect _).last _)))))))

/-- Bytes are written as they stand. -/
theorem render_closed (word : Word) (bytes : List UInt8) :
    render word (bytes.map .byte) [] = bytes := by
  -- Every piece is a byte.
  have parts := render_bytes word bytes [] []
  simpa [render] using parts

/-- A format without directives is written as it stands. -/
theorem rendered_bytes (word : Word) {fmt : List UInt8}
    (shape : pieces (Ascii.terminated fmt) = fmt.map .byte) :
    Call.rendered word (.printf fmt []) = fmt := by
  -- Every piece is a byte.
  rw [Call.rendered, shape, render_closed]

/-- The pieces of the head of a table. -/
def headingPieces (heading : String) : List Piece :=
  literal heading ++ (literal " up: " ++ .unsigned :: (literal " down: " ++ .unsigned ::
    (literal " total: " ++ .unsigned :: .byte csvNewline ::
      (text (htmlColumns ++ htmlDelayColumns)).map .byte)))

/-- The heads and the foot of an HTML page, cut into their pieces. -/
theorem html_pieces :
    pieces (Ascii.terminated htmlHead) = htmlHead.map .byte ∧
      pieces (Ascii.terminated htmlHttpHead) = headingPieces "<h2>http upstream servers </h2>" ∧
        pieces (Ascii.terminated htmlStreamHead) =
            headingPieces "<h2>stream upstream servers </h2>" ∧
          pieces (Ascii.terminated htmlFoot) =
            literal "</table>\n" ++ (literal "<h2>total servers(check enabled): " ++ .unsigned ::
              literal " </h2>\n</body></html>\n") := by
  -- The formats of the source are constants.
  decide +kernel

/-- The lines of the head of an HTML page, and of the head of a table. -/
theorem html_lines :
    (Delimited.lines csvNewline htmlHead).map List.length = some 8 ∧
      (Delimited.lines csvNewline (text (htmlColumns ++ htmlDelayColumns))).map List.length =
        some 15 := by
  -- The headings are constants.
  decide +kernel

/-- The head of a table is passed over. -/
theorem takes_heading (word : Word) {fmt : List UInt8} {heading : String}
    (shape : pieces (Ascii.terminated fmt) = headingPieces heading) (snapshot : Snapshot) :
    Takes (passHead heading) (Call.rendered word (.printf fmt (snapshot.htmlArgs word))) () := by
  -- The counts are on the line of the heading.
  let counts := Ascii.bytes " up: " ++ (Ascii.numeral snapshot.up ++ (Ascii.bytes " down: " ++
    (Ascii.numeral (wordSub word snapshot.total snapshot.up) ++ (Ascii.bytes " total: " ++
      Ascii.numeral snapshot.total))))
  have rendered : Call.rendered word (.printf fmt (snapshot.htmlArgs word)) =
      Ascii.bytes heading ++ ((counts ++ [csvNewline]) ++
        text (htmlColumns ++ htmlDelayColumns)) := by
    rw [Call.rendered, shape, Snapshot.htmlArgs]
    simp only [headingPieces, render_literal, render, render_closed, counts, List.append_assoc,
      List.cons_append, List.nil_append]
  have clean : csvNewline ∉ counts := by
    have literals : csvNewline ∉ Ascii.bytes " up: " ∧ csvNewline ∉ Ascii.bytes " down: " ∧
        csvNewline ∉ Ascii.bytes " total: " := by
      decide
    simp [counts, literals, numeral_clean marks_end.1]
  rw [rendered]
  exact (takes_expect _).bind ((takes_field clean).bind (takes_lines html_lines.2))

/-- The foot of an HTML page is passed over. -/
theorem takes_foot (word : Word) (total : Nat) :
    Takes (passLines 3) (Call.rendered word (.printf htmlFoot [.number total])) () := by
  -- The total is on the second of three lines.
  have rendered : Call.rendered word (.printf htmlFoot [.number total]) =
      Delimited.unlines csvNewline [Ascii.bytes "</table>",
        Ascii.bytes "<h2>total servers(check enabled): " ++ (Ascii.numeral total ++
          Ascii.bytes " </h2>"), Ascii.bytes "</body></html>"] := by
    have first : Ascii.bytes "</table>\n" = Ascii.bytes "</table>" ++ [csvNewline] := rfl
    have others : Ascii.bytes " </h2>\n</body></html>\n" =
        Ascii.bytes " </h2>" ++ (csvNewline ::
          (Ascii.bytes "</body></html>" ++ [csvNewline])) := rfl
    rw [Call.rendered, html_pieces.2.2.2]
    simp only [render_literal, render, render_whole, Delimited.unlines, List.flatMap_cons,
      List.flatMap_nil, List.append_assoc, List.cons_append, List.nil_append, List.append_nil,
      first, others]
  have clean : ∀ line ∈ [Ascii.bytes "</table>",
      Ascii.bytes "<h2>total servers(check enabled): " ++ (Ascii.numeral total ++
        Ascii.bytes " </h2>"), Ascii.bytes "</body></html>"], csvNewline ∉ line := by
    have literals : csvNewline ∉ Ascii.bytes "</table>" ∧
        csvNewline ∉ Ascii.bytes "<h2>total servers(check enabled): " ∧
          csvNewline ∉ Ascii.bytes " </h2>" ∧ csvNewline ∉ Ascii.bytes "</body></html>" := by
      decide
    simp [literals, numeral_clean marks_end.1]
  rw [rendered]
  exact takes_unlines clean

/-- The rows of a table, as text. -/
def htmlRows (word : Word) (peers : List SnapshotPeer) : List UInt8 :=
  (peers.map htmlRow).flatMap (Call.rendered word)

/-- The HTML page is read as the collected rows. -/
theorem takes_html (word : Word) {http stream : Snapshot} {flag : Nat}
    (httpShown : http.shown flag = http.peers) (streamShown : stream.shown flag = stream.peers) :
    Takes (readHtml (collectedNames http stream))
      ((htmlFormat word http stream flag).flatMap (Call.rendered word))
      (collectedRows http stream) := by
  -- The rows of the first table end at its closing tag, where no row starts.
  obtain ⟨head, httpHead, streamHead, -⟩ := html_pieces
  have between : Call.rendered word (.printf (text ["</table>\n"]) []) =
      Ascii.bytes "</table>\n" := rendered_literal word (by rfl)
  have shape : (htmlFormat word http stream flag).flatMap (Call.rendered word) =
      htmlHead ++ (Call.rendered word (.printf htmlHttpHead (http.htmlArgs word)) ++
        (htmlRows word http.peers ++ (Ascii.bytes "</table>\n" ++
          (Call.rendered word (.printf htmlStreamHead (stream.htmlArgs word)) ++
            (htmlRows word stream.peers ++
              Call.rendered word
                (.printf htmlFoot [.number (wordAdd word stream.total http.total)])))))) := by
    rw [htmlFormat, httpShown, streamShown]
    simp only [List.flatMap_append, List.flatMap_cons, List.flatMap_nil, List.append_nil,
      List.append_assoc, between, rendered_bytes word head, htmlRows]
  have each : ∀ module peer rest, ∃ front,
      htmlRows word (peer :: rest) = front ++ htmlRows word rest ∧
        Takes (readHtmlRow module peer.names) front (peer.shownRow module) :=
    fun module peer rest => ⟨_, rfl, takes_htmlRow word module peer⟩
  have stops : ∀ other ∈ stream.peers.map SnapshotPeer.names, ∀ back rest,
      (readHtmlRow .http other).run (Ascii.bytes "</table>\n" ++ back ++ rest) = none := by
    intro other _ back rest
    rw [readHtmlRow, StateT.run_bind, List.append_assoc, pass, expect_none (by decide)]
    rfl
  rw [shape]
  exact (takes_lines html_lines.1).bind ((takes_heading word httpHead http).bind
    (Takes.many rfl (each .http) (fun other found => stops other found _) http.peers
      ((takes_expect _).bind ((takes_heading word streamHead stream).bind
        ((Takes.all rfl (each .stream) stream.peers).bind ((takes_foot word _).last _))))))

end Html

/-- The collected rows with their groups. -/
def collectedItems (http stream : Snapshot) : List (Module × SnapshotPeer) :=
  http.peers.map (fun peer => (Module.http, peer)) ++
    stream.peers.map (fun peer => (Module.stream, peer))

/-- What their rows show. -/
theorem items_rows (http stream : Snapshot) :
    (collectedItems http stream).map (fun item => item.2.shownRow item.1) =
      collectedRows http stream := by
  -- Both groups are mapped in their order.
  simp [collectedItems, collectedRows, Function.comp_def]

/-- Their names. -/
theorem items_names (http stream : Snapshot) :
    (collectedItems http stream).map (fun item => item.2.names) = collectedNames http stream := by
  -- Both groups are mapped in their order.
  simp [collectedItems, collectedNames, Function.comp_def]

/-- The text of rows that are made one by one. -/
def rowsText (render : Module × SnapshotPeer → List UInt8) (items : List (Module × SnapshotPeer)) :
    List UInt8 :=
  items.flatMap render

/-- The rows of both groups, made one by one, are read with the collected names. -/
theorem takes_items {α : Type} {row : RowNames → Scan UInt8 α}
    {render : Module × SnapshotPeer → List UInt8} {value : Module × SnapshotPeer → α}
    (takes : ∀ item, Takes (row item.2.names) (render item) (value item)) (http stream : Snapshot) :
    Takes ((many row (collectedNames http stream)).convert exhausted)
      (rowsText render (collectedItems http stream))
      ((collectedItems http stream).map value) := by
  -- Each row is read with its own names.
  rw [← items_names]
  exact Takes.all rfl (fun item items => ⟨_, rfl, takes item⟩) _

section Csv

/-- A line is a sequence of fields. -/
theorem csvLine_eq (word : Word) (module : Module) (peer : SnapshotPeer) :
    (csvRow module.csvFormat peer).rendered word =
      (Ascii.numeral peer.index ++ [csvComma]) ++ ((module.column ++ [csvComma]) ++
        (peer.upstreamName ++ (Ascii.bytes "," ++ (peer.addrName ++ (Ascii.bytes "," ++
          (Delimited.unlines csvComma (peer.others word) ++ (peer.state ++ [csvNewline]))))))) := by
  -- The fields are separated by commas.
  have comma : Ascii.bytes "," = [csvComma] := rfl
  rw [csvRow_rendered, comma]
  simp only [SnapshotPeer.timedFields, SnapshotPeer.others, SnapshotPeer.state, Delimited.unlines,
    List.intercalate_cons_cons, List.intercalate_singleton, List.flatMap_cons, List.flatMap_nil,
    List.append_assoc, List.cons_append, List.nil_append]

/-- A line is read as what it shows. -/
theorem takes_csvRow (word : Word) (item : Module × SnapshotPeer) :
    Takes (readCsvRow item.2.names) ((csvRow item.1.csvFormat item.2).rendered word)
      (item.2.shownRow item.1) := by
  -- The fields are read in their order.
  obtain ⟨newline, -, comma, -⟩ := marks_end
  rw [csvLine_eq]
  exact (takes_number comma _).bind ((takes_group comma _).bind ((takes_expect _).bind
    ((takes_expect _).bind ((takes_expect _).bind ((takes_expect _).bind
      ((takes_unlines (others_clean comma word item.2)).bind
        ((takes_state newline item.2).last _)))))))

/-- The CSV page is read as the collected rows. -/
theorem takes_csv (word : Word) {http stream : Snapshot} {flag : Nat}
    (httpShown : http.shown flag = http.peers) (streamShown : stream.shown flag = stream.peers) :
    Takes (readCsv (collectedNames http stream))
      ((csvFormat http stream flag).flatMap (Call.rendered word))
      (collectedRows http stream) := by
  -- The names of the columns are one line.
  have head : pieces (Ascii.terminated csvHead) = csvHead.map .byte ∧
      (Delimited.lines csvNewline csvHead).map List.length = some 1 := by
    decide +kernel
  have shape : (csvFormat http stream flag).flatMap (Call.rendered word) =
      csvHead ++ rowsText (fun item => (csvRow item.1.csvFormat item.2).rendered word)
        (collectedItems http stream) := by
    rw [csvFormat, httpShown, streamShown]
    simp [rendered_bytes word head.1, rowsText, collectedItems, List.flatMap_map,
      Module.csvFormat]
  rw [shape, ← items_rows]
  exact (takes_lines head.2).bind (takes_items (takes_csvRow word) http stream)

end Csv

section JsonRows

/-- The bytes of a comma unless a row is the last one. -/
def commaBytes (last : Bool) : List UInt8 :=
  Ascii.bytes (if last then "" else ",")

/-- The comma is written as it is, and is no line feed. -/
theorem comma_written (last : Bool) :
    comma last = .cstring (commaBytes last) ∧
      Ascii.terminated (commaBytes last) = commaBytes last ∧ csvNewline ∉ commaBytes last := by
  -- Both cases are checked.
  cases last <;> exact ⟨rfl, by decide, by decide⟩

/-- The members of a row behind its status. -/
def jsonOthers (word : Word) (peer : SnapshotPeer) (last : Bool) : List UInt8 :=
  Ascii.bytes ", \"rise\": " ++ (Ascii.numeral peer.health.riseCount ++
    (Ascii.bytes ", \"fall\": " ++ (Ascii.numeral peer.health.fallCount ++
      (Ascii.bytes ", \"type\": \"" ++ (peer.conf.checkType.name ++
        (Ascii.bytes "\", \"port\": " ++ (Ascii.numeral peer.conf.port ++
          (Ascii.bytes ", \"last_delay_ms\": " ++ (msecNumeral word peer.health.lastCheckDelay ++
            (Ascii.bytes ", \"avg_delay_ms\": " ++ (msecNumeral word peer.health.avgCheckDelay ++
              (Ascii.bytes ", \"min_delay_ms\": " ++
                (msecNumeral word peer.health.minCheckDelay ++
                  (Ascii.bytes ", \"max_delay_ms\": " ++
                    (msecNumeral word peer.health.maxCheckDelay ++
                      (Ascii.bytes "\x7d" ++ commaBytes last))))))))))))))))

/-- They are on the line of the row. -/
theorem jsonOthers_clean (word : Word) (peer : SnapshotPeer) (last : Bool) :
    csvNewline ∉ jsonOthers word peer last := by
  -- Neither the literals nor the values have a line feed.
  obtain ⟨newline, -⟩ := marks_end
  have counters : csvNewline ∉ Ascii.bytes ", \"rise\": " ∧
      csvNewline ∉ Ascii.bytes ", \"fall\": " ∧ csvNewline ∉ Ascii.bytes ", \"type\": \"" ∧
        csvNewline ∉ Ascii.bytes "\", \"port\": " := by
    decide
  have delays : csvNewline ∉ Ascii.bytes ", \"last_delay_ms\": " ∧
      csvNewline ∉ Ascii.bytes ", \"avg_delay_ms\": " ∧
        csvNewline ∉ Ascii.bytes ", \"min_delay_ms\": " ∧
          csvNewline ∉ Ascii.bytes ", \"max_delay_ms\": " ∧
            csvNewline ∉ Ascii.bytes "\x7d" := by
    decide
  simp [jsonOthers, counters, delays, numeral_clean newline, type_clean newline,
    msecNumeral_clean newline, (comma_written last).2.2]

/-- The format of a JSON row, cut into its pieces. -/
theorem jsonRow_pieces : pieces (Ascii.terminated jsonRowFormat) =
    literal "    \x7b\"index\": " ++ .unsigned :: .byte csvComma :: (literal " \"upstream\": \"" ++
      .string :: (literal "\", \"name\": \"" ++ .string :: (literal "\", \"status\": \"" ++
        .cstring :: .byte Json.quote :: (literal ", \"rise\": " ++ .unsigned ::
          (literal ", \"fall\": " ++ .unsigned :: (literal ", \"type\": \"" ++ .string ::
            (literal "\", \"port\": " ++ .unsigned :: (literal ", \"last_delay_ms\": " ++ .msec ::
              (literal ", \"avg_delay_ms\": " ++ .msec ::
                (literal ", \"min_delay_ms\": " ++ .msec ::
                (literal ", \"max_delay_ms\": " ++ .msec :: (literal "\x7d" ++ .cstring ::
                  .byte csvNewline :: [])))))))))))) := by
  -- The format of the source is a constant.
  decide +kernel

/-- A row of an array is a line. -/
theorem jsonRow_rendered (word : Word) (peer : SnapshotPeer) (last : Bool) :
    (jsonRow peer last).rendered word =
      Ascii.bytes "    \x7b\"index\": " ++ ((Ascii.numeral peer.index ++ [csvComma]) ++
        (Ascii.bytes " \"upstream\": \"" ++ (peer.upstreamName ++
          (Ascii.bytes "\", \"name\": \"" ++ (peer.addrName ++
            (Ascii.bytes "\", \"status\": \"" ++ ((peer.state ++ [Json.quote]) ++
              (jsonOthers word peer last ++ [csvNewline])))))))) := by
  -- Each directive is replaced by its argument.
  obtain ⟨status, ended⟩ := status_rendered peer
  obtain ⟨comma, written, -⟩ := comma_written last
  rw [jsonRow, Call.rendered, jsonRow_pieces, SnapshotPeer.jsonArgs, SnapshotPeer.delays, status,
    comma]
  simp only [render_literal, render, ended, written, jsonOthers, SnapshotPeer.state,
    List.append_assoc, List.cons_append, List.nil_append]

/-- A row is read as what it shows. -/
theorem takes_jsonRow (word : Word) (module : Module) (peer : SnapshotPeer) (last : Bool) :
    Takes (readJsonRow module peer.names) ((jsonRow peer last).rendered word)
      (peer.shownRow module) := by
  -- The members are read in their order.
  obtain ⟨newline, quote, comma, -⟩ := marks_end
  rw [jsonRow_rendered]
  exact (takes_expect _).bind ((takes_number comma _).bind ((takes_expect _).bind
    ((takes_expect _).bind ((takes_expect _).bind ((takes_expect _).bind ((takes_expect _).bind
      ((takes_state quote peer).bind ((takes_field (jsonOthers_clean word peer last)).last _))))))))

/-- The rows of an array, as text. -/
def jsonText (word : Word) (peers : List SnapshotPeer) : List UInt8 :=
  (jsonRows jsonRow peers).flatMap (Call.rendered word)

/-- The head of a JSON page, cut into its pieces. -/
theorem jsonHead_pieces : pieces (Ascii.terminated jsonHead) =
    literal "\x7b\"servers\": \x7b\n  \"total\": " ++ .unsigned :: .byte csvComma ::
      .byte csvNewline :: (literal "  \"generation\": " ++ .unsigned :: (literal "," ++
        .byte csvNewline :: literal "  \"http\": [\n")) := by
  -- The format of the source is a constant.
  decide +kernel

/-- The JSON page is read as the collected rows and their number. -/
theorem takes_json (word : Word) (http stream : Snapshot) :
    Takes (readJson (collectedNames http stream))
      ((jsonFormat word http stream).flatMap (Call.rendered word))
      { total := wordAdd word http.peers.length stream.peers.length
        rows := collectedRows http stream } := by
  -- The rows of the first array end at its bracket, where no row starts.
  obtain ⟨newline, -, comma, -⟩ := marks_end
  have between : Call.rendered word (.printf (text ["  ],\n  \"stream\": [\n"]) []) =
      Ascii.bytes "  ],\n  \"stream\": [\n" := rendered_literal word (by rfl)
  have bracket : Call.rendered word (.printf (text ["  ]\n"]) []) = Ascii.bytes "  ]\n" :=
    rendered_literal word (by rfl)
  have braces : Call.rendered word (.printf (text ["\x7d\x7d\n"]) []) =
      Ascii.bytes "\x7d\x7d\n" := rendered_literal word (by rfl)
  have closing : Ascii.bytes "  ]\n\x7d\x7d\n" =
    Ascii.bytes "  ]\n" ++ Ascii.bytes "\x7d\x7d\n" := rfl
  let generation := Ascii.bytes "  \"generation\": " ++
    (Ascii.numeral (shownGeneration http stream) ++ Ascii.bytes ",")
  have shape : (jsonFormat word http stream).flatMap (Call.rendered word) =
      Ascii.bytes "\x7b\"servers\": \x7b\n  \"total\": " ++
        ((Ascii.numeral (wordAdd word http.peers.length stream.peers.length) ++ [csvComma]) ++
          (Delimited.unlines csvNewline [[], generation] ++ (Ascii.bytes "  \"http\": [\n" ++
            (jsonText word http.peers ++ (Ascii.bytes "  ],\n  \"stream\": [\n" ++
              (jsonText word stream.peers ++ Ascii.bytes "  ]\n\x7d\x7d\n")))))) := by
    have head : ∀ total generation, Call.rendered word
        (.printf jsonHead [.number total, .number generation]) =
          Ascii.bytes "\x7b\"servers\": \x7b\n  \"total\": " ++ (Ascii.numeral total ++
            csvComma :: csvNewline :: (Ascii.bytes "  \"generation\": " ++
              (Ascii.numeral generation ++ (Ascii.bytes "," ++
                csvNewline :: Ascii.bytes "  \"http\": [\n")))) := by
      intro total generation
      simp only [Call.rendered, jsonHead_pieces, render_literal, render, render_whole]
    rw [jsonFormat, closing]
    simp only [List.flatMap_append, List.flatMap_cons, List.flatMap_nil, between, bracket, braces,
      head, jsonText, generation, Delimited.unlines, List.append_assoc, List.cons_append,
      List.nil_append, List.append_nil]
  have clean : ∀ line ∈ [[], generation], csvNewline ∉ line := by
    have literals : csvNewline ∉ Ascii.bytes "  \"generation\": " ∧
      csvNewline ∉ Ascii.bytes "," := by
      decide
    simp [generation, literals, numeral_clean newline]
  have each : ∀ module peer rest, ∃ front,
      jsonText word (peer :: rest) = front ++ jsonText word rest ∧
        Takes (readJsonRow module peer.names) front (peer.shownRow module) :=
    fun module peer rest => ⟨_, rfl, takes_jsonRow word module peer rest.isEmpty⟩
  have stops : ∀ other ∈ stream.peers.map SnapshotPeer.names, ∀ back rest,
      (readJsonRow .http other).run
        (Ascii.bytes "  ],\n  \"stream\": [\n" ++ back ++ rest) = none := by
    intro other _ back rest
    rw [readJsonRow, StateT.run_bind, List.append_assoc, pass, expect_none (by decide)]
    rfl
  rw [shape]
  exact (takes_expect _).bind ((takes_number comma _).bind ((takes_unlines clean).bind
    ((takes_expect _).bind (Takes.many rfl (each .http) (fun other found => stops other found _)
      http.peers ((takes_expect _).bind ((Takes.all rfl (each .stream) stream.peers).bind
        ((takes_expect _).last _)))))))

end JsonRows

section Prometheus

/-- The labels of a sample up to its names. -/
def sampleFront (metric : String) (item : Module × SnapshotPeer) (rest : List UInt8) :
    List UInt8 :=
  Ascii.bytes metric ++ (Ascii.bytes "\x7bindex=\"" ++ ((Ascii.numeral item.2.index ++
    [Json.quote]) ++ (Ascii.bytes ",upstream_type=\"" ++ ((item.1.column ++ [Json.quote]) ++
      (Ascii.bytes ",upstream=\"" ++ (item.2.upstreamName ++ (Ascii.bytes "\",name=\"" ++
        (item.2.addrName ++ rest))))))))

/-- The pieces of these labels. -/
def frontPieces (metric : String) (rest : List Piece) : List Piece :=
  literal metric ++ (literal "\x7bindex=\"" ++ .unsigned :: .byte Json.quote ::
    (literal ",upstream_type=\"" ++ .string :: .byte Json.quote :: (literal ",upstream=\"" ++
      .string :: (literal "\",name=\"" ++ .string :: rest))))

/-- The labels behind the state, and the value of a sample. -/
def sampleOthers (value : Nat) (peer : SnapshotPeer) : List UInt8 :=
  Ascii.bytes ",type=\"" ++ (peer.conf.checkType.name ++ (Ascii.bytes "\",port=\"" ++
    (Ascii.numeral peer.conf.port ++ (Ascii.bytes "\"\x7d " ++ Ascii.numeral value))))

/-- They are on the line of the sample. -/
theorem sampleOthers_clean (value : Nat) (peer : SnapshotPeer) :
    csvNewline ∉ sampleOthers value peer := by
  -- Neither the literals nor the values have a line feed.
  obtain ⟨newline, -⟩ := marks_end
  have literals : csvNewline ∉ Ascii.bytes ",type=\"" ∧ csvNewline ∉ Ascii.bytes "\",port=\"" ∧
      csvNewline ∉ Ascii.bytes "\"\x7d " := by
    decide
  simp [sampleOthers, literals, numeral_clean newline, type_clean newline]

/-- The pieces of a sample of a counter. -/
def samplePieces (metric : String) : List Piece :=
  frontPieces metric (literal "\",status=\"" ++ .cstring :: .byte Json.quote ::
    (literal ",type=\"" ++ .string :: (literal "\",port=\"" ++ .unsigned ::
      (literal "\"\x7d " ++ .unsigned :: .byte csvNewline :: []))))

/-- The formats of the samples, cut into their pieces. -/
theorem sample_pieces :
    pieces (Ascii.terminated riseFormat) = samplePieces "nginx_upstream_server_rise" ∧
      pieces (Ascii.terminated fallFormat) = samplePieces "nginx_upstream_server_fall" ∧
        pieces (Ascii.terminated activeFormat) = frontPieces "nginx_upstream_server_active"
          (literal "\",type=\"" ++ .string :: .byte Json.quote :: (literal ",port=\"" ++
            .unsigned :: .byte Json.quote :: (literal "\x7d " ++ .unsigned ::
              .byte csvNewline :: []))) := by
  -- The formats of the source are constants.
  decide +kernel

/-- The label of a group. -/
def Module.label : Module → String
  | .http => "http"
  | .stream => "stream"

/-- A label is the name of its group. -/
theorem label_column (module : Module) : Ascii.bytes module.label = module.column := by
  -- Both groups are checked.
  cases module <;> rfl

/-- A sample of a counter is a line. -/
theorem prometheusRow_rendered (word : Word) {fmt : List UInt8} {metric : String}
    (shape : pieces (Ascii.terminated fmt) = samplePieces metric) (value : SnapshotPeer → Nat)
    (item : Module × SnapshotPeer) :
    (prometheusRow fmt item.1.label value item.2).rendered word =
      sampleFront metric item (Ascii.bytes "\",status=\"" ++ ((item.2.state ++ [Json.quote]) ++
        (sampleOthers (value item.2) item.2 ++ [csvNewline]))) := by
  -- Each directive is replaced by its argument.
  obtain ⟨status, ended⟩ := status_rendered item.2
  rw [prometheusRow, Call.rendered, shape, status, label_column]
  simp only [samplePieces, frontPieces, render_literal, render, ended, sampleFront, sampleOthers,
    SnapshotPeer.state, List.append_assoc, List.cons_append, List.nil_append]

/-- A sample of a counter is read as what it shows. -/
theorem takes_sample (word : Word) {fmt : List UInt8} {metric : String}
    (shape : pieces (Ascii.terminated fmt) = samplePieces metric) (value : SnapshotPeer → Nat)
    (item : Module × SnapshotPeer) :
    Takes (readSample metric item.2.names)
      ((prometheusRow fmt item.1.label value item.2).rendered word)
      (item.2.shownRow item.1) := by
  -- The labels are read in their order.
  obtain ⟨-, quote, -, -⟩ := marks_end
  rw [prometheusRow_rendered word shape]
  exact (takes_expect _).bind ((takes_expect _).bind ((takes_number quote _).bind
    ((takes_expect _).bind ((takes_group quote _).bind ((takes_expect _).bind
      ((takes_expect _).bind ((takes_expect _).bind ((takes_expect _).bind ((takes_expect _).bind
        ((takes_state quote item.2).bind
          ((takes_field (sampleOthers_clean _ _)).last _)))))))))))

/-- The value of an activity sample. -/
def SnapshotPeer.active (peer : SnapshotPeer) : Nat :=
  if peer.health.down ≠ 0 then 0 else 1

/-- The value says whether the peer is down. -/
theorem activity_active (peer : SnapshotPeer) :
    activity peer.active = some (peer.health.down != 0, peer.active) := by
  -- Both values are checked.
  unfold SnapshotPeer.active
  by_cases down : peer.health.down = 0
  · rw [if_neg (not_not_intro down), down]
    rfl
  · have there : (peer.health.down != 0) = true := by simpa using down
    rw [if_pos down, there]
    rfl

/-- An activity sample is a line. -/
theorem prometheusActive_rendered (word : Word) (item : Module × SnapshotPeer) :
    (prometheusActive item.1.label item.2).rendered word =
      sampleFront "nginx_upstream_server_active" item (Ascii.bytes "\",type=\"" ++
        ((item.2.conf.checkType.name ++ [Json.quote]) ++ (Ascii.bytes ",port=\"" ++
          ((Ascii.numeral item.2.conf.port ++ [Json.quote]) ++ (Ascii.bytes "\x7d " ++
            (Ascii.numeral item.2.active ++ [csvNewline])))))) := by
  -- Each directive is replaced by its argument.
  rw [prometheusActive, Call.rendered, sample_pieces.2.2, label_column]
  simp only [frontPieces, render_literal, render, sampleFront, SnapshotPeer.active,
    List.append_assoc, List.cons_append, List.nil_append]

/-- An activity sample is read as what it shows, with its value. -/
theorem takes_active (word : Word) (item : Module × SnapshotPeer) :
    Takes (readActive item.2.names) ((prometheusActive item.1.label item.2).rendered word)
      (item.2.shownRow item.1, item.2.active) := by
  -- The labels are read in their order, and the value stands for the state.
  obtain ⟨newline, quote, -, -⟩ := marks_end
  rw [prometheusActive_rendered]
  exact (takes_expect _).bind ((takes_expect _).bind ((takes_number quote _).bind
    ((takes_expect _).bind ((takes_group quote _).bind ((takes_expect _).bind
      ((takes_expect _).bind ((takes_expect _).bind ((takes_expect _).bind ((takes_expect _).bind
        ((takes_field (type_clean quote _)).bind ((takes_expect _).bind
          ((takes_field (numeral_clean quote _)).bind ((takes_expect _).bind
            (((takes_number newline _).convert (activity_active item.2)).last _))))))))))))))

/-- The text of a family: its two comment lines, and its samples. -/
theorem family_rendered (word : Word) {call : String → SnapshotPeer → Call}
    {http stream : Snapshot} {flag : Nat} {head : List UInt8}
    (httpShown : http.shown flag = http.peers) (streamShown : stream.shown flag = stream.peers)
    (shape : pieces (Ascii.terminated head) = head.map .byte) :
    (prometheusMetric http stream flag head call).flatMap (Call.rendered word) =
      head ++ rowsText (fun item => (call item.1.label item.2).rendered word)
        (collectedItems http stream) := by
  -- Both groups have their samples in the same family.
  rw [prometheusMetric, httpShown, streamShown]
  simp [rendered_bytes word shape, rowsText, collectedItems, List.flatMap_map, Module.label]

/-- The comment lines of a total. -/
def totalComments (name help : String) : List UInt8 :=
  text ["# HELP nginx_upstream_count_", name, " Nginx ", help, "\n",
    "# TYPE nginx_upstream_count_", name, " gauge\n"]

/-- The pieces of a total. -/
def totalPieces (name help : String) (rest : List Piece) : List Piece :=
  (totalComments name help).map .byte ++ (literal "nginx_upstream_count_" ++ (literal name ++
    (literal " " ++ .unsigned :: .byte csvNewline :: rest)))

/-- The head of a Prometheus page, cut into its totals. -/
theorem totals_pieces : pieces (Ascii.terminated prometheusHead) =
    totalPieces "total" "total number of servers"
      (totalPieces "up" "total number of servers that are UP"
        (totalPieces "down" "total number of servers that are DOWN"
          (totalPieces "generation" "generation" []))) := by
  -- The format of the source is a constant.
  decide +kernel

/-- A total as text. -/
def totalText (name help : String) (value : Nat) : List UInt8 :=
  totalComments name help ++ (Ascii.bytes "nginx_upstream_count_" ++ (Ascii.bytes name ++
    (Ascii.bytes " " ++ (Ascii.numeral value ++ [csvNewline]))))

/-- A total is written as its text. -/
theorem render_total (word : Word) (name help : String) (value : Nat) (rest : List Piece)
    (args : List Arg) :
    render word (totalPieces name help rest) (.number value :: args) =
      totalText name help value ++ render word rest args := by
  -- The directive is replaced by the value.
  simp only [totalPieces, totalText, render_bytes, render_literal, render, List.append_assoc,
    List.cons_append, List.nil_append]

/-- A total is read as its value. -/
theorem takes_total {name help : String}
    (comments : (Delimited.lines csvNewline (totalComments name help)).map List.length = some 2)
    (value : Nat) : Takes (readTotal name) (totalText name help value) value :=
  -- Two lines of comments stand before the number.
  (takes_lines comments).bind ((takes_expect _).bind ((takes_expect _).bind ((takes_expect _).bind
    (takes_number marks_end.1 value))))

/-- The heads of the families are comment lines. -/
theorem family_heads :
    (pieces (Ascii.terminated riseHead) = riseHead.map .byte ∧
      (Delimited.lines csvNewline riseHead).map List.length = some 2) ∧
    (pieces (Ascii.terminated fallHead) = fallHead.map .byte ∧
      (Delimited.lines csvNewline fallHead).map List.length = some 2) ∧
    (pieces (Ascii.terminated activeHead) = activeHead.map .byte ∧
      (Delimited.lines csvNewline activeHead).map List.length = some 2) := by
  -- The headings of the source are constants.
  decide +kernel

/-- What the activity samples show. -/
def collectedActive (http stream : Snapshot) : List (ShownRow × Nat) :=
  (collectedItems http stream).map fun item => (item.2.shownRow item.1, item.2.active)

/-- A Prometheus page is read as its totals and three times the collected rows. -/
theorem takes_prometheus (word : Word) {http stream : Snapshot} {flag : Nat}
    (httpShown : http.shown flag = http.peers) (streamShown : stream.shown flag = stream.peers) :
    Takes (readPrometheus (collectedNames http stream))
      ((prometheusFormat word http stream flag).flatMap (Call.rendered word))
      { count := countShown word http stream flag fun _ => true
        up := countShown word http stream flag fun peer => peer.health.down == 0
        down := countShown word http stream flag fun peer => peer.health.down != 0
        rise := collectedRows http stream
        fall := collectedRows http stream
        active := collectedActive http stream } := by
  -- The totals stand before the families, and each family has its own name.
  obtain ⟨riseShape, fallShape, -⟩ := sample_pieces
  obtain ⟨⟨rise, riseLines⟩, ⟨fall, fallLines⟩, active, activeLines⟩ := family_heads
  have comments :
      (Delimited.lines csvNewline (totalComments "total" "total number of servers")).map
          List.length = some 2 ∧
        (Delimited.lines csvNewline
          (totalComments "up" "total number of servers that are UP")).map List.length = some 2 ∧
        (Delimited.lines csvNewline
          (totalComments "down" "total number of servers that are DOWN")).map List.length =
            some 2 ∧
        (Delimited.lines csvNewline (totalComments "generation" "generation")).map List.length =
          some 2 := by
    decide +kernel
  have head : ∀ count up down generation, Call.rendered word (.printf prometheusHead
      [.number count, .number up, .number down, .number generation]) =
        totalText "total" "total number of servers" count ++
          (totalText "up" "total number of servers that are UP" up ++
            (totalText "down" "total number of servers that are DOWN" down ++
              totalText "generation" "generation" generation)) := by
    intro count up down generation
    have ended : render word [] [] = [] := rfl
    rw [Call.rendered, totals_pieces, render_total, render_total, render_total, render_total,
      ended, List.append_nil]
  rw [prometheusFormat, List.flatMap_append, List.flatMap_append, List.flatMap_append,
    List.flatMap_singleton, head, family_rendered word httpShown streamShown rise,
    family_rendered word httpShown streamShown fall,
    family_rendered word httpShown streamShown active]
  simp only [List.append_assoc]
  rw [← items_rows]
  exact (takes_total comments.1 _).bind ((takes_total comments.2.1 _).bind
    ((takes_total comments.2.2.1 _).bind ((takes_total comments.2.2.2 _).bind
      ((takes_lines riseLines).bind ((takes_items (takes_sample word riseShape _) _ _).bind
        ((takes_lines fallLines).bind ((takes_items (takes_sample word fallShape _) _ _).bind
          ((takes_lines activeLines).bind
            ((takes_items (takes_active word) http stream).last _)))))))))

end Prometheus

/-- As many samples are 1 as rows are up. -/
theorem sum_active (peers : List SnapshotPeer) :
    (peers.map SnapshotPeer.active).sum = peers.countP fun peer => peer.health.down == 0 := by
  -- By induction on the rows.
  induction peers with
  | nil => rfl
  | cons peer peers ih =>
    rw [List.map_cons, List.sum_cons, List.countP_cons, ih, SnapshotPeer.active]
    by_cases down : peer.health.down = 0
    · simp [down, Nat.add_comm]
    · simp [down]

/-- Every row is up or down. -/
theorem countP_up_down (peers : List SnapshotPeer) :
    peers.length = peers.countP (fun peer => peer.health.down == 0) +
      peers.countP fun peer => peer.health.down != 0 := by
  -- Each peer passes one of the two tests.
  have parts := List.length_eq_countP_add_countP (p := fun peer : SnapshotPeer =>
    peer.health.down == 0) (l := peers)
  have other : peers.countP (fun peer => decide ¬ (peer.health.down == 0) = true) =
      peers.countP fun peer => peer.health.down != 0 := by
    congr 1
    funext peer
    by_cases down : peer.health.down = 0 <;> simp [down]
  rw [other] at parts
  exact parts

/-- What is collected passes the filter it was collected with. -/
theorem collected_shown {c : Collector} (processed : Processed c) (module : Nat) :
    (c.snapshots module).shown c.flag = (c.snapshots module).peers := by
  -- The collector has filtered by the same flag.
  have rows := (processed_reported processed module).rows
  apply List.filter_eq_self.mpr
  intro peer member
  rw [rows] at member
  obtain ⟨read, _, found⟩ := List.mem_filterMap.mp member
  unfold Read.row at found
  split at found
  · cases found
  · rename_i visible
    obtain ⟨source, _, rfl⟩ := Option.map_eq_some_iff.mp found
    simpa [SourcePeer.row] using visible

/-- What the pages of both groups show, read from their bytes: the same rows everywhere, and totals
that count them. -/
structure FormatsAgree (word : Word) (snapshots : Nat → Snapshot) (flag : Nat) : Prop where
  html : (readHtml (collectedNames (snapshots 0) (snapshots 1))).whole
    ((Page.status .html flag).rendered word snapshots) =
      some (collectedRows (snapshots 0) (snapshots 1))
  csv : (readCsv (collectedNames (snapshots 0) (snapshots 1))).whole
    ((Page.status .csv flag).rendered word snapshots) =
      some (collectedRows (snapshots 0) (snapshots 1))
  totals : ∃ json prometheus,
    (readJson (collectedNames (snapshots 0) (snapshots 1))).whole
        ((Page.status .json flag).rendered word snapshots) = some json ∧
      (readPrometheus (collectedNames (snapshots 0) (snapshots 1))).whole
        ((Page.status .prometheus flag).rendered word snapshots) = some prometheus ∧
      json.rows = collectedRows (snapshots 0) (snapshots 1) ∧
      prometheus.rise = collectedRows (snapshots 0) (snapshots 1) ∧
      prometheus.fall = collectedRows (snapshots 0) (snapshots 1) ∧
      prometheus.active.map Prod.fst = collectedRows (snapshots 0) (snapshots 1) ∧
      prometheus.count = prometheus.up + prometheus.down ∧
      prometheus.rise.length = prometheus.count ∧
      prometheus.fall.length = prometheus.count ∧
      prometheus.active.length = prometheus.count ∧
      (prometheus.active.map Prod.snd).sum = prometheus.up ∧
      json.total = prometheus.count
  written : (∀ module, (snapshots module).Fits word) → ∀ format pool w,
    runCalls word ((Page.status format flag).calls word snapshots) (.init pool) = some (.ok, w) →
      w.content = (Page.status format flag).rendered word snapshots

/-- The rows of two snapshots that pass the filter agree in all formats, if they can be counted. -/
theorem shown_agree (word : Word) {snapshots : Nat → Snapshot} {flag : Nat}
    (httpShown : (snapshots 0).shown flag = (snapshots 0).peers)
    (streamShown : (snapshots 1).shown flag = (snapshots 1).peers)
    (room : (snapshots 0).peers.length + (snapshots 1).peers.length ≤ word.max) :
    FormatsAgree word snapshots flag := by
  -- No count overflows, and the activity samples stand for the rows that are up.
  have range := word_max_lt word
  have count : ∀ counted : SnapshotPeer → Bool, countShown word (snapshots 0) (snapshots 1) flag
      counted = ((snapshots 0).peers ++ (snapshots 1).peers).countP counted := by
    intro counted
    have below := List.countP_le_length (p := counted)
      (l := (snapshots 0).peers ++ (snapshots 1).peers)
    rw [List.length_append] at below
    rw [countShown, httpShown, streamShown, Nat.mod_eq_of_lt (by omega)]
  have total : wordAdd word (snapshots 0).peers.length (snapshots 1).peers.length =
      ((snapshots 0).peers ++ (snapshots 1).peers).countP fun _ => true := by
    rw [List.countP_true, List.length_append]
    exact Nat.mod_eq_of_lt (by omega)
  have rows : (collectedRows (snapshots 0) (snapshots 1)).length =
      ((snapshots 0).peers ++ (snapshots 1).peers).countP fun _ => true := by
    simp [collectedRows]
  have active : (collectedActive (snapshots 0) (snapshots 1)).map Prod.fst =
        collectedRows (snapshots 0) (snapshots 1) ∧
      (collectedActive (snapshots 0) (snapshots 1)).map Prod.snd =
        ((snapshots 0).peers ++ (snapshots 1).peers).map SnapshotPeer.active := by
    simp [collectedActive, collectedItems, collectedRows, Function.comp_def]
  refine
    { html := (takes_html word httpShown streamShown).whole
      csv := (takes_csv word httpShown streamShown).whole
      totals := ⟨_, _, (takes_json word _ _).whole,
        (takes_prometheus word httpShown streamShown).whole, rfl, rfl, rfl, active.1, ?_, ?_, ?_,
        ?_, ?_, ?_⟩
      written := fun fits format pool w formatted => (formatted_content fits formatted).2 }
  · rw [count, count, count, List.countP_true]
    exact countP_up_down _
  · rw [count, rows]
  · rw [count, rows]
  · rw [count, ← rows, ← active.1, List.length_map]
  · rw [active.2, sum_active]
    exact (count _).symm
  · rw [total, count]

/-- Whatever a status request collects, every format shows exactly the collected rows, in one
order, and the totals count them; the rows of both groups lie in one address space. -/
theorem formats_agree (word : Word) (script : Nat → Reading) (sources : Nat → Option Source)
    (flag n : Nat) (done : (afterBatches script (.init 2 sources flag) n).1 = .ok)
    (room : ((afterBatches script (.init 2 sources flag) n).2.snapshots 0).peers.length +
      ((afterBatches script (.init 2 sources flag) n).2.snapshots 1).peers.length ≤ word.max) :
    FormatsAgree word (afterBatches script (.init 2 sources flag) n).2.snapshots flag := by
  -- The collector's filter has passed every row that the formats filter again.
  obtain ⟨processed, -, -, same, -⟩ :=
    afterBatches_processed script 2 sources flag n (by rw [done]; decide)
  have httpShown := collected_shown processed 0
  have streamShown := collected_shown processed 1
  rw [same] at httpShown streamShown
  exact shown_agree word httpShown streamShown room

/-- A reading of a record that says its peer is down. -/
def downReading : Reading :=
  { locked := true
    machine := { (Machine.start {} : PeerMachine Nat) with
      memory := publish (Machine.start {} : PeerMachine Nat).memory { health := { down := 1 } }
      holder := some 0
      passed := [{ health := { down := 1 } }]
      completed := [{ health := { down := 1 } }] }
    run := (Relation.ReflTransGen.single (.take _ 0 rfl rfl)).trans
      (publish_run _ 0 { health := { down := 1 } } rfl rfl ⟨rfl, rfl⟩)
    pushed := true }

/-- A group of two peers with the same names. -/
def pairSource : Source where
  generation := 1
  peers := [backendPeer, { backendPeer with index := 1 }]
  indexed i peer found := by
    match i with
    | 0 | 1 =>
      cases found
      rfl

/-- Two groups of two peers each, all of them down but the second one of the HTTP group. -/
theorem formats_agree_sample : ∃ snapshots : Nat → Snapshot,
    FormatsAgree .bits64 snapshots 0 ∧
    collectedRows (snapshots 0) (snapshots 1) =
      [{ module := .http, index := 0, down := true },
        { module := .http, index := 1, down := false },
        { module := .stream, index := 0, down := true },
        { module := .stream, index := 1, down := true }] := by
  -- The second of the four readings is that of a record that was never published.
  let script := fun pos => if pos = 1 then sampleReading else downReading
  have done : (afterBatches script (.init 2 (fun _ => some pairSource) 0) 1).1 = .ok := by
    decide +kernel
  exact ⟨_, formats_agree .bits64 script (fun _ => some pairSource) 0 1 done (by decide +kernel),
    by decide +kernel⟩

end Healthcheck
