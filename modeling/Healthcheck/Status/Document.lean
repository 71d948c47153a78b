import Healthcheck.Library.JsonGrammar
import Healthcheck.Library.JsonLexing
import Healthcheck.Status.PageLaws

/-! The JSON pages as documents: what they should decode to, and when they do. -/

namespace Healthcheck

open Json

/-- A whole number in a document. -/
def numberValue (value : Nat) : Value :=
  .number value 0

/-- A number of milliseconds in a document: `(ngx_msec_t) -1` is -1. -/
def delayValue (word : Word) (value : Nat) : Value :=
  .number (if value = word.max then -1 else value) 0

/-- A member of a document. -/
def member (key : String) (value : Value) : List UInt8 × Value :=
  (Ascii.bytes key, value)

/-- The members of a row that both pages have. -/
def SnapshotPeer.members (peer : SnapshotPeer) : List (List UInt8 × Value) :=
  [member "index" (numberValue peer.index),
    member "upstream" (.string peer.upstreamName),
    member "name" (.string peer.addrName),
    member "status" (.string (Ascii.bytes (if peer.health.down ≠ 0 then "down" else "up"))),
    member "rise" (numberValue peer.health.riseCount),
    member "fall" (numberValue peer.health.fallCount),
    member "type" (.string peer.conf.checkType.name),
    member "port" (numberValue peer.conf.port)]

/-- The delays of a row. -/
def SnapshotPeer.delayMembers (word : Word) (peer : SnapshotPeer) :
    List (List UInt8 × Value) :=
  [member "last_delay_ms" (delayValue word peer.health.lastCheckDelay),
    member "avg_delay_ms" (delayValue word peer.health.avgCheckDelay),
    member "min_delay_ms" (delayValue word peer.health.minCheckDelay),
    member "max_delay_ms" (delayValue word peer.health.maxCheckDelay)]

/-- The document of `healthcheck_status`. -/
def statusDocument (word : Word) (http stream : Snapshot) : Value :=
  let row := fun peer : SnapshotPeer => Value.object (peer.members ++ peer.delayMembers word)
  .object [member "servers" (.object
    [member "total" (numberValue (http.peers.length + stream.peers.length)),
      member "generation" (numberValue (shownGeneration http stream)),
      member "http" (.array (http.peers.map row)),
      member "stream" (.array (stream.peers.map row))])]

/-- The document of `check_status`. -/
def legacyDocument (snapshot : Snapshot) : Value :=
  .object [member "servers" (.object
    [member "total" (numberValue snapshot.peers.length),
      member "generation" (numberValue snapshot.generation),
      member "server" (.array (snapshot.peers.map fun peer => .object peer.members))])]

/-- The names of a row can stand in a JSON string as they are: they are UTF-8 and have no
quotation mark, backslash or control character. -/
def SnapshotPeer.Plain (peer : SnapshotPeer) : Prop :=
  plain [] peer.upstreamName = true ∧ plain [] peer.addrName = true

/-- The pieces of a text without directives. -/
def literal (text : String) : List Piece :=
  (Ascii.bytes text).map .byte

/-- A text in a format is rendered as it stands. -/
theorem render_literal (word : Word) (text : String) (rest : List Piece) (args : List Arg) :
    render word (literal text ++ rest) args = Ascii.bytes text ++ render word rest args := by
  -- Induction on its bytes.
  unfold literal
  induction Ascii.bytes text with
  | nil => rfl
  | cons byte others ih => simp [render, ih]

/-- A format that is only text is rendered as that text. -/
theorem render_whole (word : Word) (text : String) :
    render word (literal text) [] = Ascii.bytes text := by
  -- Nothing follows the text.
  have parts := render_literal word text [] []
  simpa [render] using parts

/-- The pieces of the members that both pages have. -/
def memberPieces (rest : List Piece) : List Piece :=
  literal "    \x7b\"index\": " ++ .unsigned :: (literal ", \"upstream\": \"" ++
    .string :: .byte quote :: (literal ", \"name\": \"" ++
    .string :: .byte quote :: (literal ", \"status\": \"" ++
    .cstring :: .byte quote :: (literal ", \"rise\": " ++
    .unsigned :: (literal ", \"fall\": " ++
    .unsigned :: (literal ", \"type\": \"" ++
    .string :: .byte quote :: (literal ", \"port\": " ++ .unsigned :: rest)))))))

/-- The two names of the state need no escape and hold no zero byte. -/
theorem status_plain (peer : SnapshotPeer) :
    plain [] (Ascii.bytes (if peer.health.down ≠ 0 then "down" else "up")) = true ∧
      Ascii.terminated (Ascii.bytes (if peer.health.down ≠ 0 then "down" else "up")) =
        Ascii.bytes (if peer.health.down ≠ 0 then "down" else "up") := by
  -- Both names are constants.
  split <;> exact ⟨rfl, rfl⟩

/-- The names of the types need no escape. -/
theorem type_plain (type : CheckType) : plain [] type.name = true := by
  -- Both names are constants.
  cases type <;> rfl

/-- The members of a row are read as they are exactly when its names are plain. -/
theorem lexFrom_members (word : Word) (peer : SnapshotPeer) {rest : List Piece} {args : List Arg}
    {gap b c : List UInt8} {tokens : List Token} (more : List Token) {after : Mode}
    (rendered : render word rest args ++ c = gap ++ b)
    (front : run .idle gap = some (tokens, after)) (closed : closes gap = true) :
    lexFrom .idle (render word (memberPieces rest) (peer.jsonArgs ++ args) ++ c) =
        some (.openObject :: (memberTokens peer.members ++ (tokens ++ more))) ↔
      peer.Plain ∧ lexFrom after b = some more := by
  obtain ⟨statusPlain, statusEnd⟩ := status_plain peer
  simp only [memberPieces, SnapshotPeer.jsonArgs, List.cons_append, List.nil_append, render_literal,
    render, List.append_assoc, rendered, SnapshotPeer.status, statusEnd]
  simp only [SnapshotPeer.members, member, memberTokens, separator, Value.tokens, numberValue,
    List.isEmpty_cons, List.isEmpty_nil, if_true, if_false, List.cons_append, List.nil_append,
    Bool.false_eq_true]
  -- The text and its tokens are walked through in parallel, from one argument to the next.
  have index : run .idle (Ascii.bytes "    \x7b\"index\": ") =
      some ([.openObject, .string (Ascii.bytes "index"), .colon], .idle) := by rfl
  refine (lexFrom_front index _ _).trans ?_
  have upstream : run .idle (Ascii.bytes ", \"upstream\": \"") =
      some ([.comma, .string (Ascii.bytes "upstream"), .colon], .string [] []) := by rfl
  refine (lexFrom_numeral upstream _ _ _ (by rfl)).trans ?_
  have name : run .idle (Ascii.bytes ", \"name\": \"") =
      some ([.comma, .string (Ascii.bytes "name"), .colon], .string [] []) := by rfl
  refine (lexFrom_text name _ _ _ ⟨_, rfl⟩).trans ?_
  have status : run .idle (Ascii.bytes ", \"status\": \"") =
      some ([.comma, .string (Ascii.bytes "status"), .colon], .string [] []) := by rfl
  refine (and_congr_right fun _ => lexFrom_text status _ _ _ ⟨_, rfl⟩).trans ?_
  rw [SnapshotPeer.Plain, and_assoc]
  refine and_congr_right fun _ => and_congr_right fun _ => ?_
  have rise : run .idle (Ascii.bytes ", \"rise\": ") =
      some ([.comma, .string (Ascii.bytes "rise"), .colon], .idle) := by rfl
  refine (lexFrom_plain rise _ _ statusPlain).trans ?_
  have fall : run .idle (Ascii.bytes ", \"fall\": ") =
      some ([.comma, .string (Ascii.bytes "fall"), .colon], .idle) := by rfl
  refine (lexFrom_numeral fall _ _ _ (by rfl)).trans ?_
  have type : run .idle (Ascii.bytes ", \"type\": \"") =
      some ([.comma, .string (Ascii.bytes "type"), .colon], .string [] []) := by rfl
  refine (lexFrom_numeral type _ _ _ (by rfl)).trans ?_
  have port : run .idle (Ascii.bytes ", \"port\": ") =
      some ([.comma, .string (Ascii.bytes "port"), .colon], .idle) := by rfl
  refine (lexFrom_plain port _ _ (type_plain _)).trans ?_
  exact lexFrom_numeral front b more _ closed

/-- A number of milliseconds and the bytes between it and what follows. -/
theorem lexFrom_delay (word : Word) (value : Nat) {gap : List UInt8} {tokens : List Token}
    {after : Mode} (front : run .idle gap = some (tokens, after)) (closed : closes gap = true)
    (b : List UInt8) (more : List Token) :
    lexFrom .idle (msecNumeral word value ++ (gap ++ b)) =
        some (.number (if value = word.max then -1 else value) 0 :: (tokens ++ more)) ↔
      lexFrom after b = some more := by
  -- The largest number of the word is shown as -1.
  unfold msecNumeral
  split
  · have minus : run .idle (Ascii.bytes "-1") = some ([], .number (whole true 1)) := by
      rfl
    exact lexFrom_number front b more minus closed
  · exact lexFrom_numeral front b more value closed

/-- The pieces of the delays of a row. -/
def delayPieces (rest : List Piece) : List Piece :=
  literal ", \"last_delay_ms\": " ++ .msec :: (literal ", \"avg_delay_ms\": " ++
    .msec :: (literal ", \"min_delay_ms\": " ++ .msec :: (literal ", \"max_delay_ms\": " ++
    .msec :: rest)))

/-- The pieces of the end of a row. -/
def endPieces : List Piece :=
  literal "\x7d" ++ .cstring :: literal "\n"

/-- What follows a row. -/
def rowEnd (last : Bool) : List Token :=
  if last then [] else [.comma]

/-- The end of a row: its brace, a comma unless the row is the last one, and a line feed. -/
def endBytes (last : Bool) : List UInt8 :=
  Ascii.bytes (if last then "\x7d\n" else "\x7d,\n")

/-- A row ends with a comma or without one. -/
theorem render_end (word : Word) (last : Bool) :
    render word endPieces [comma last] = endBytes last := by
  -- Four constants.
  cases word <;> cases last <;> rfl

/-- The end of a row closes the object. -/
theorem run_end (last : Bool) :
    run .idle (endBytes last) = some (.closeObject :: rowEnd last, .idle) := by
  -- Two constants.
  cases last <;> rfl

/-- The end of a row is a gap after a number. -/
theorem closes_end (last : Bool) : closes (endBytes last) = true := by
  -- Two constants.
  cases last <;> rfl

/-- A row is read as its value exactly when its names are plain, whatever follows it. -/
def Row (word : Word) (row : SnapshotPeer → Bool → Call) (value : SnapshotPeer → Value) : Prop :=
  ∀ peer last b more,
    lexFrom .idle ((row peer last).rendered word ++ b) =
        some ((value peer).tokens ++ (rowEnd last ++ more)) ↔
      peer.Plain ∧ lexFrom .idle b = some more

/-- The formats of both rows, cut into their pieces. -/
theorem row_pieces : pieces (Ascii.terminated legacyJsonFormat) = memberPieces endPieces ∧
    pieces (Ascii.terminated jsonRowFormat) = memberPieces (delayPieces endPieces) := by
  -- The formats of the source are constants.
  decide +kernel

/-- A row of the legacy page is read as an object with the members of its peer. -/
theorem legacyRow_reads (word : Word) :
    Row word (legacyRow 2) fun peer => .object peer.members := by
  -- The members are read up to the end of the row.
  intro peer last b more
  have rendered : render word endPieces [comma last] ++ b = endBytes last ++ b := by
    rw [render_end]
  have read := lexFrom_members word peer more rendered (run_end last) (closes_end last)
  change lexFrom .idle (Call.rendered word (.printf legacyJsonFormat _) ++ b) = _ ↔ _
  rw [Call.rendered, row_pieces.1]
  simpa [Value.tokens] using read

/-- A row of the page is read as an object with the members and the delays. -/
theorem jsonRow_reads (word : Word) :
    Row word jsonRow fun peer => .object (peer.members ++ peer.delayMembers word) := by
  -- The four delays stand between the members and the end of the row.
  intro peer last b more
  have latest : run .idle (Ascii.bytes ", \"last_delay_ms\": ") =
      some ([.comma, .string (Ascii.bytes "last_delay_ms"), .colon], .idle) := by rfl
  have average : run .idle (Ascii.bytes ", \"avg_delay_ms\": ") =
      some ([.comma, .string (Ascii.bytes "avg_delay_ms"), .colon], .idle) := by rfl
  have least : run .idle (Ascii.bytes ", \"min_delay_ms\": ") =
      some ([.comma, .string (Ascii.bytes "min_delay_ms"), .colon], .idle) := by rfl
  have greatest : run .idle (Ascii.bytes ", \"max_delay_ms\": ") =
      some ([.comma, .string (Ascii.bytes "max_delay_ms"), .colon], .idle) := by rfl
  have rendered : render word (delayPieces endPieces) (peer.delays ++ [comma last]) ++ b =
      Ascii.bytes ", \"last_delay_ms\": " ++ (msecNumeral word peer.health.lastCheckDelay ++
        (Ascii.bytes ", \"avg_delay_ms\": " ++ (msecNumeral word peer.health.avgCheckDelay ++
          (Ascii.bytes ", \"min_delay_ms\": " ++ (msecNumeral word peer.health.minCheckDelay ++
            (Ascii.bytes ", \"max_delay_ms\": " ++ (msecNumeral word peer.health.maxCheckDelay ++
              (endBytes last ++ b)))))))) := by
    simp only [delayPieces, SnapshotPeer.delays, List.cons_append, List.nil_append, render_literal,
      render, List.append_assoc, render_end]
  have delays :=
    (lexFrom_delay word peer.health.lastCheckDelay average (by rfl) _ _).trans
      ((lexFrom_delay word peer.health.avgCheckDelay least (by rfl) _ _).trans
        ((lexFrom_delay word peer.health.minCheckDelay greatest (by rfl) _ _).trans
          (lexFrom_delay word peer.health.maxCheckDelay (run_end last) (closes_end last) b more)))
  have read := (lexFrom_members word peer _ rendered latest (by rfl)).trans
    (and_congr_right fun _ => delays)
  change lexFrom .idle (Call.rendered word (.printf jsonRowFormat _) ++ b) = _ ↔ _
  rw [Call.rendered, row_pieces.2, List.append_assoc]
  simpa [Value.tokens, SnapshotPeer.members, SnapshotPeer.delayMembers, member, memberTokens,
    separator, delayValue] using read

/-- The rows of an array are read as their values exactly when all their names are plain. -/
theorem lexFrom_rows {word : Word} {row : SnapshotPeer → Bool → Call}
    {value : SnapshotPeer → Value} (reads : Row word row value) (peers : List SnapshotPeer)
    (b : List UInt8) (more : List Token) :
    lexFrom .idle ((jsonRows row peers).flatMap (Call.rendered word) ++ b) =
        some (itemTokens (peers.map value) ++ more) ↔
      (∀ peer ∈ peers, peer.Plain) ∧ lexFrom .idle b = some more := by
  -- Induction on the peers.
  induction peers with
  | nil => simp [jsonRows, itemTokens]
  | cons peer rest ih =>
    have comma : separator (rest.map value) = rowEnd rest.isEmpty := by
      simp [separator, rowEnd]
    rw [jsonRows, List.flatMap_cons, List.append_assoc, List.map_cons, itemTokens, comma,
      List.append_assoc, List.append_assoc, reads peer, ih, List.forall_mem_cons, and_assoc]

/-- The pieces of the head of a document, up to its first array. -/
def headPieces (gap : String) : List Piece :=
  literal "\x7b\"servers\": \x7b\n  \"total\": " ++ .unsigned ::
    (literal ",\n  \"generation\": " ++ .unsigned :: literal gap)

/-- The tokens of the head of a document, with the name of its first array. -/
def headTokens (total generation : Nat) (name : String) : List Token :=
  [.openObject, .string (Ascii.bytes "servers"), .colon, .openObject,
    .string (Ascii.bytes "total"), .colon, .number total 0, .comma,
    .string (Ascii.bytes "generation"), .colon, .number generation 0, .comma,
    .string (Ascii.bytes name), .colon, .openArray]

/-- The head of a page is read up to its first list. -/
theorem lexFrom_head (word : Word) {fmt : List UInt8} {gap name : String}
    (shape : pieces (Ascii.terminated fmt) = headPieces gap)
    (front : run .idle (Ascii.bytes gap) =
      some ([.comma, .string (Ascii.bytes name), .colon, .openArray], .idle))
    (closed : closes (Ascii.bytes gap) = true) (total generation : Nat) (b : List UInt8)
    (more : List Token) :
    lexFrom .idle (Call.rendered word (.printf fmt [.number total, .number generation]) ++ b) =
        some (headTokens total generation name ++ more) ↔
      lexFrom .idle b = some more := by
  -- Two numbers stand between the names.
  have rendered : Call.rendered word (.printf fmt [.number total, .number generation]) ++ b =
      Ascii.bytes "\x7b\"servers\": \x7b\n  \"total\": " ++ (Ascii.numeral total ++
        (Ascii.bytes ",\n  \"generation\": " ++ (Ascii.numeral generation ++
          (Ascii.bytes gap ++ b)))) := by
    simp only [Call.rendered, shape, headPieces, render_literal, render, List.append_assoc,
      render_whole]
  rw [rendered]
  have opening : run .idle (Ascii.bytes "\x7b\"servers\": \x7b\n  \"total\": ") =
      some ([.openObject, .string (Ascii.bytes "servers"), .colon, .openObject,
        .string (Ascii.bytes "total"), .colon], .idle) := by rfl
  have middle : run .idle (Ascii.bytes ",\n  \"generation\": ") =
      some ([.comma, .string (Ascii.bytes "generation"), .colon], .idle) := by rfl
  exact (lexFrom_front opening _ _).trans
    ((lexFrom_numeral middle _ _ total (by rfl)).trans
      (lexFrom_numeral front b more generation closed))

/-- A literal is written as it stands. -/
theorem rendered_literal (word : Word) {fmt : List UInt8} {bytes : String}
    (shape : pieces (Ascii.terminated fmt) = literal bytes) :
    Call.rendered word (.printf fmt []) = Ascii.bytes bytes := by
  -- There is no directive to fill in.
  rw [Call.rendered, shape, render_whole]

/-- The legacy page decodes to its document exactly when all its names are plain. -/
theorem legacy_decodes (word : Word) (snapshots : Nat → Snapshot) (flag : Nat) :
    decode ((Page.legacy 2 flag).rendered word snapshots) = some (legacyDocument (snapshots 0)) ↔
      ∀ peer ∈ (snapshots 0).peers, peer.Plain := by
  -- The tokens of the page are those of the document.
  have calls : (Page.legacy 2 flag).calls word snapshots =
      .printf legacyJsonHead
          [.number (snapshots 0).peers.length, .number (snapshots 0).generation] ::
        (jsonRows (legacyRow 2) (snapshots 0).peers ++
          [.printf (text ["  ]\n\x7d\x7d\n"]) []]) := rfl
  have foot : Call.rendered word (.printf (text ["  ]\n\x7d\x7d\n"]) []) =
      Ascii.bytes "  ]\n\x7d\x7d\n" := rendered_literal word (by rfl)
  have closing : lexFrom .idle (Ascii.bytes "  ]\n\x7d\x7d\n") =
      some [.closeArray, .closeObject, .closeObject] := by rfl
  have head : pieces (Ascii.terminated legacyJsonHead) = headPieces ",\n  \"server\": [\n" := by
    rfl
  have server : run .idle (Ascii.bytes ",\n  \"server\": [\n") =
      some ([.comma, .string (Ascii.bytes "server"), .colon, .openArray], .idle) := by
    rfl
  have read := (lexFrom_head word head server (by rfl) (snapshots 0).peers.length
    (snapshots 0).generation _ _).trans
      (lexFrom_rows (legacyRow_reads word) (snapshots 0).peers (Ascii.bytes "  ]\n\x7d\x7d\n")
        [.closeArray, .closeObject, .closeObject])
  rw [decode_eq_some, lex, Page.rendered, calls, List.flatMap_cons, List.flatMap_append,
    List.flatMap_singleton, foot]
  simpa [closing, headTokens, legacyDocument, member, numberValue, Value.tokens, memberTokens,
    separator] using read

/-- The page of both groups decodes to its document exactly when all their names are plain. -/
theorem status_decodes {word : Word} {snapshots : Nat → Snapshot}
    (fits : ∀ module, (snapshots module).Fits word) (flag : Nat) :
    decode ((Page.status .json flag).rendered word snapshots) =
        some (statusDocument word (snapshots 0) (snapshots 1)) ↔
      ∀ peer ∈ (snapshots 0).peers ++ (snapshots 1).peers, peer.Plain := by
  -- The tokens of the page are those of the document.
  have total : wordAdd word (snapshots 0).peers.length (snapshots 1).peers.length =
      (snapshots 0).peers.length + (snapshots 1).peers.length := by
    have http := (fits 0).rows_fit
    have stream := (fits 1).rows_fit
    have below := word_max_lt word
    exact Nat.mod_eq_of_lt (by omega)
  have calls : (Page.status .json flag).calls word snapshots =
      .printf jsonHead
          [.number ((snapshots 0).peers.length + (snapshots 1).peers.length),
            .number (shownGeneration (snapshots 0) (snapshots 1))] ::
        (jsonRows jsonRow (snapshots 0).peers ++
          (.printf (text ["  ],\n  \"stream\": [\n"]) [] ::
            (jsonRows jsonRow (snapshots 1).peers ++
              [.printf (text ["  ]\n"]) [], .printf (text ["\x7d\x7d\n"]) []]))) := by
    simp [Page.calls, jsonFormat, total]
  have between : Call.rendered word (.printf (text ["  ],\n  \"stream\": [\n"]) []) =
      Ascii.bytes "  ],\n  \"stream\": [\n" := rendered_literal word (by rfl)
  have bracket : Call.rendered word (.printf (text ["  ]\n"]) []) = Ascii.bytes "  ]\n" :=
    rendered_literal word (by rfl)
  have braces : Call.rendered word (.printf (text ["\x7d\x7d\n"]) []) =
      Ascii.bytes "\x7d\x7d\n" := rendered_literal word (by rfl)
  have closing : lexFrom .idle (Ascii.bytes "  ]\n" ++ Ascii.bytes "\x7d\x7d\n") =
      some [.closeArray, .closeObject, .closeObject] := by rfl
  have head : pieces (Ascii.terminated jsonHead) = headPieces ",\n  \"http\": [\n" := by
    rfl
  have http : run .idle (Ascii.bytes ",\n  \"http\": [\n") =
      some ([.comma, .string (Ascii.bytes "http"), .colon, .openArray], .idle) := by
    rfl
  have stream : run .idle (Ascii.bytes "  ],\n  \"stream\": [\n") =
      some ([.closeArray, .comma, .string (Ascii.bytes "stream"), .colon, .openArray], .idle) := by
    rfl
  have second := lexFrom_rows (jsonRow_reads word) (snapshots 1).peers
    (Ascii.bytes "  ]\n" ++ Ascii.bytes "\x7d\x7d\n") [.closeArray, .closeObject, .closeObject]
  have first := (lexFrom_rows (jsonRow_reads word) (snapshots 0).peers _ _).trans
    (and_congr_right fun _ => (lexFrom_front stream _ _).trans second)
  have read := (lexFrom_head word head http (by rfl)
    ((snapshots 0).peers.length + (snapshots 1).peers.length)
    (shownGeneration (snapshots 0) (snapshots 1)) _ _).trans first
  rw [decode_eq_some, lex, Page.rendered, calls]
  simp only [List.flatMap_cons, List.flatMap_append, List.flatMap_nil, List.append_nil, between,
    bracket, braces]
  simpa [closing, headTokens, statusDocument, member, numberValue, Value.tokens, memberTokens,
    separator, or_imp, forall_and] using read

/-- Both JSON pages, once formatted, are one document each: it decodes to the rows of its
snapshots exactly when every name in them is UTF-8 without quotation marks, backslashes and control
characters, because names are copied as they are. -/
theorem json_decodes {word : Word} {pool : Pool} {snapshots : Nat → Snapshot}
    (fits : ∀ module, (snapshots module).Fits word) (flag : Nat) :
    (∀ w, runCalls word ((Page.status .json flag).calls word snapshots) (.init pool) =
        some (.ok, w) →
      (decode w.content = some (statusDocument word (snapshots 0) (snapshots 1)) ↔
        ∀ peer ∈ (snapshots 0).peers ++ (snapshots 1).peers, peer.Plain)) ∧
    (∀ w, runCalls word ((Page.legacy 2 flag).calls word snapshots) (.init pool) =
        some (.ok, w) →
      (decode w.content = some (legacyDocument (snapshots 0)) ↔
        ∀ peer ∈ (snapshots 0).peers, peer.Plain)) := by
  -- The content is what the calls render.
  refine ⟨fun w formatted => ?_, fun w formatted => ?_⟩
  · rw [(formatted_content fits formatted).2]
    exact status_decodes fits flag
  · rw [(formatted_content fits formatted).2]
    exact legacy_decodes word snapshots flag

/-- The rows of two groups of two peers each, with commas between all of them. -/
theorem json_decodes_sample : ∃ w,
    runCalls .bits64 ((Page.status .json 0).calls .bits64 mixedSnapshots) (.init sampleCore.pool) =
      some (.ok, w) ∧
    decode w.content = some (statusDocument .bits64 (mixedSnapshots 0) (mixedSnapshots 1)) := by
  have ok : (runCalls .bits64 ((Page.status .json 0).calls .bits64 mixedSnapshots)
      (.init sampleCore.pool)).map Prod.fst = some .ok := by
    decide +kernel
  obtain ⟨⟨rc, w⟩, formatted, rfl⟩ := Option.map_eq_some_iff.mp ok
  refine ⟨w, formatted, ((json_decodes mixedSnapshots_fits 0).1 w formatted).mpr ?_⟩
  -- No name of the four rows needs an escape.
  have plainly : ∀ peer ∈ (mixedSnapshots 0).peers ++ (mixedSnapshots 1).peers,
      plain [] peer.upstreamName = true ∧ plain [] peer.addrName = true := by
    decide +kernel
  exact plainly

/-- An upstream whose name has a quotation mark, with one server. -/
def quotedSnapshots : Nat → Snapshot
  | 0 =>
    { peers := [{ backendPeer.row {} with upstreamName := Ascii.bytes "a\"b" }], generation := 1
      total := 1, up := 1, next := 1 }
  | _ => {}

/-- A quotation mark in a name ends the name's string, and what follows is no document. -/
theorem quoted_name_undecodable : ∃ w,
    runCalls .bits64 ((Page.status .json 0).calls .bits64 quotedSnapshots) (.init sampleCore.pool) =
      some (.ok, w) ∧
    decode w.content = none := by
  -- The page of the sample is computed.
  have ok : (runCalls .bits64 ((Page.status .json 0).calls .bits64 quotedSnapshots)
      (.init sampleCore.pool)).map (fun result => (result.1, (decode result.2.content).isNone)) =
      some (.ok, true) := by
    decide +kernel
  obtain ⟨⟨rc, w⟩, formatted, same⟩ := Option.map_eq_some_iff.mp ok
  obtain ⟨rfl, undecodable⟩ := Prod.mk.injEq .. ▸ same
  exact ⟨w, formatted, Option.isNone_iff_eq_none.mp undecodable⟩

end Healthcheck
