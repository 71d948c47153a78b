import Healthcheck.Status.FormatLaws
import Healthcheck.Status.Page

/-! Which responses of the status pages are terminated. -/

namespace Healthcheck

open Program Blocks

/-- A response is completed by the last buffer of a chain that has the announced length. -/
def Response.Terminated (response : Response) : Prop :=
  ∃ front last, response.output = some (front ++ [last]) ∧
    last.lastBuf = true ∧ last.lastInChain = true ∧
    (∀ buffer ∈ front, buffer.lastBuf = false ∧ buffer.lastInChain = false) ∧
    response.contentLength =
      some ((front ++ [last]).map fun buffer => buffer.block.bytes.length).sum

/-- The calls of every page fit their formats. -/
theorem page_typed {word : Word} {snapshots : Nat → Snapshot}
    (fits : ∀ module, (snapshots module).Fits word) (page : Page) :
    ∀ call ∈ page.calls word snapshots, call.typed word = true := by
  -- One lemma for each format.
  cases page with
  | legacy format flag => exact legacyOutput_typed (fits 0) format
  | status format flag =>
    cases format with
    | html => exact htmlFormat_typed (fits 0) (fits 1) flag
    | csv => exact csvFormat_typed (fits 0) (fits 1) flag
    | json => exact jsonFormat_typed (fits 0) (fits 1)
    | prometheus => exact prometheusFormat_typed (fits 0) (fits 1) flag

/-- A format that starts with a literal byte writes something. -/
theorem literal_writes (word : Word) {fmt : List UInt8} (byte : UInt8)
    (shape : (pieces (Ascii.terminated fmt)).head? = some (.byte byte)) (args : List Arg) :
    Call.rendered word (.printf fmt args) ≠ [] := by
  -- The first byte is plain, so it is always written.
  obtain ⟨rest, whole⟩ := List.head?_eq_some_iff.mp shape
  rw [Call.rendered, whole, render]
  exact List.cons_ne_nil _ _

/-- A row of the legacy CSV page starts with a number. -/
theorem csvRow_writes (word : Word) (peer : SnapshotPeer) (last : Bool) :
    (legacyRow 1 peer last).rendered word ≠ [] := by
  -- A numeral is never empty.
  have shape : (pieces (Ascii.terminated legacyCsvFormat)).head? = some .unsigned := by
    rfl
  obtain ⟨rest, whole⟩ := List.head?_eq_some_iff.mp shape
  change Call.rendered word (.printf legacyCsvFormat peer.jsonArgs) ≠ []
  rw [Call.rendered, whole, SnapshotPeer.jsonArgs, render]
  simp [Ascii.numeral_ne_nil]

/-- The bytes a page stands for. -/
def Page.rendered (word : Word) (snapshots : Nat → Snapshot) (page : Page) : List UInt8 :=
  (page.calls word snapshots).flatMap (Call.rendered word)

/-- A page is not empty once one of its calls wrote something. -/
theorem writes_cons {word : Word} {call : Call} (some_ : call.rendered word ≠ [])
    (calls : List Call) : (call :: calls).flatMap (Call.rendered word) ≠ [] := by
  simp [some_]

/-- The legacy CSV page, which has no head, is the only one that can be empty. -/
theorem rendered_eq_nil (word : Word) (snapshots : Nat → Snapshot) (page : Page) :
    page.rendered word snapshots = [] ↔
      (∃ flag, page = .legacy 1 flag) ∧ (snapshots 0).peers = [] := by
  -- Every other page starts with a heading.
  constructor
  · intro empty
    cases page with
    | status format flag =>
      refine absurd empty ?_
      cases format with
      | html => exact writes_cons (literal_writes word '<'.toUInt8 (by rfl) _) _
      | csv => exact writes_cons (literal_writes word 'i'.toUInt8 (by rfl) _) _
      | json => exact writes_cons (literal_writes word '{'.toUInt8 (by rfl) _) _
      | prometheus =>
        exact writes_cons (literal_writes word '#'.toUInt8 (by rfl) _) _
    | legacy format flag =>
      match format with
      | 0 =>
        have head : ∀ args, Call.rendered word (.printf legacyHtmlHead args) ≠ [] :=
          literal_writes word '<'.toUInt8 (by rfl)
        exact absurd empty (writes_cons (head _) _)
      | 2 =>
        have head : ∀ args, Call.rendered word (.printf legacyJsonHead args) ≠ [] :=
          literal_writes word '{'.toUInt8 (by rfl)
        exact absurd empty (writes_cons (head _) _)
      | 1 =>
        refine ⟨⟨flag, rfl⟩, ?_⟩
        cases rows : (snapshots 0).peers with
        | nil => rfl
        | cons peer rest =>
          have calls : Page.calls word snapshots (.legacy 1 flag) =
              jsonRows (legacyRow 1) (peer :: rest) := by
            simp [Page.calls, legacyOutput, legacyHead, legacyFoot, rows]
          rw [Page.rendered, calls] at empty
          exact absurd empty (writes_cons (csvRow_writes word peer _) _)
  · rintro ⟨⟨flag, rfl⟩, rows⟩
    simp [Page.rendered, Page.calls, legacyOutput, legacyHead, legacyFoot, rows, jsonRows]

/-- The blocks of a chain hold as many bytes as their concatenation. -/
theorem block_sum (chain : List Block) :
    (chain.map fun block => block.bytes.length).sum = (chain.map Block.bytes).flatten.length := by
  rw [List.length_flatten, List.map_map]
  rfl

/-- Sending terminates the response exactly when the chain has a tail. -/
theorem send_terminated {core : HttpCore} {request : StatusRequest} {w : Writer} (sound : w.Sound)
    (get : request.method = .get) (main : request.main = true) (header : core.header = 0)
    (body : core.headerOnly = false) : (send core request w).Terminated ↔ w.chain ≠ [] := by
  -- Only the last block of a chain carries the flags.
  unfold send
  rcases w.chain.eq_nil_or_concat with empty | ⟨front, last, shape⟩
  · simp [empty, Response.Terminated]
  · rw [List.concat_eq_append] at shape
    have whole : w.length = ((front ++ [last]).map fun block => block.bytes.length).sum := by
      rw [sound.length, Writer.content, ← shape, block_sum]
    have nonempty : w.chain ≠ [] := by simp [shape]
    rw [if_neg (by simp [get, header, body, nonempty])]
    refine iff_of_true ?_ nonempty
    refine ⟨front.map (fun block => { block := block }),
      { block := last, lastBuf := true, lastInChain := true }, ?_, rfl, rfl, ?_, ?_⟩
    · simp [Writer.buffers, shape, main]
    · simp
    · simpa [Function.comp_def] using whole

/-- What formatting a page that succeeded leaves in a new writer. -/
theorem formatted_content {word : Word} {pool : Pool} {snapshots : Nat → Snapshot}
    (fits : ∀ module, (snapshots module).Fits word) {page : Page} {w : Writer}
    (formatted : runCalls word (page.calls word snapshots) (.init pool) = some (.ok, w)) :
    w.Sound ∧ w.content = page.rendered word snapshots := by
  -- Each call of a page fits its format.
  have wrote := wp_of_ends (ends_runCalls _ (page_typed fits page) (.init pool)) _ _ formatted
  exact wrote.1.2 rfl (sound_init pool)

/-- A packed chain has no empty block, so only an empty chain has no content. -/
theorem content_eq_nil {w : Writer} (sound : w.Sound) : w.content = [] ↔ w.chain = [] := by
  -- A packed chain has no empty block.
  constructor
  · intro empty
    have count := packed_length sound.packed (by decide)
    have none : (w.chain.map Block.bytes).flatten.length = 0 := by
      rw [← Writer.content, empty, List.length_nil]
    rw [none, List.length_map] at count
    exact List.length_eq_zero_iff.mp count
  · intro empty
    simp [Writer.content, empty]

/-- A response to a main GET request whose header was sent is terminated, unless it is the legacy
CSV page and has no rows: that page has no head, so no block was added whose flags could be set. -/
theorem response_terminated {word : Word} {core : HttpCore} {request : StatusRequest}
    {snapshots : Nat → Snapshot} (endpoint : Endpoint)
    (fits : ∀ module, (snapshots module).Fits word) (get : request.method = .get)
    (main : request.main = true) (header : core.header = 0) (body : core.headerOnly = false)
    {w : Writer}
    (formatted : runCalls word ((request.page endpoint).calls word snapshots) (.init core.pool) =
      some (.ok, w)) :
    (∃ response, requestOutput word core request (request.page endpoint) snapshots = some response ∧
      response.Terminated) ↔
    ¬ ((∃ flag, request.page endpoint = .legacy 1 flag) ∧ (snapshots 0).peers = []) := by
  -- A chain is empty just when nothing was written.
  obtain ⟨sound, content⟩ := formatted_content fits formatted
  have sent : requestOutput word core request (request.page endpoint) snapshots =
      some (send core request w) := by
    simp [requestOutput, formatted]
  rw [sent, ← rendered_eq_nil word, ← content, content_eq_nil sound]
  simpa using send_terminated sound get main header body

/-- A core whose pool has memory and that sends what it is given. -/
def sampleCore : HttpCore :=
  { pool := { grants := fun _ => true }, header := 0, headerOnly := false, filter := 0 }

/-- A peer of an HTTP group, whose record was never published. -/
def backendPeer : SourcePeer :=
  { index := 0, upstreamName := Ascii.bytes "backend", addrName := Ascii.bytes "127.0.0.1:80"
    conf := { fallCount := 5, riseCount := 2, checkInterval := 30000, checkTimeout := 1000
              checkType := .tcp, send := [], defaultDown := 0, keepConnection := false
              rehandshake := 0, keepalive := false, keepaliveIdle := 0, keepaliveInterval := 0
              keepaliveCount := 0 }
    shm := true }

/-- The group of that peer. -/
def backendSource : Source where
  generation := 1
  peers := [backendPeer]
  indexed i peer found := by
    match i with
    | 0 =>
      cases found
      rfl

/-- Its record was read at once. -/
def sampleReading : Reading :=
  { locked := true, machine := .start {}, run := .refl, pushed := true }

/-- `?format=csv&status=down`. -/
def downCsvRequest : StatusRequest :=
  { method := .get, main := true, format := some (Ascii.bytes "csv")
    status := some (Ascii.bytes "down") }

/-- The same page without its filter has a row. -/
def csvRequest : StatusRequest :=
  { downCsvRequest with status := none }

/-- What it collected. -/
def sampleSnapshots : Nat → Snapshot
  | 0 => { peers := [backendPeer.row {}], generation := 1, total := 1, up := 1, next := 1 }
  | _ => {}

/-- The sample snapshots fit. -/
theorem sampleSnapshots_fits (module : Nat) : (sampleSnapshots module).Fits .bits64 := by
  -- One row in the first group, none in the others.
  have row : (backendPeer.row {}).Fits .bits64 := by
    constructor <;> decide
  match module with
  | 0 => exact ⟨by decide, by decide, by decide, by decide, by simpa [sampleSnapshots] using row⟩
  | _ + 1 =>
    exact ⟨Nat.zero_le _, Nat.zero_le _, Nat.zero_le _, Nat.zero_le _, by simp [sampleSnapshots]⟩

/-- Two groups of two peers each: a peer that is down among the first, and delays that were measured
among the second. -/
def mixedSnapshots : Nat → Snapshot
  | 0 =>
    { peers := [backendPeer.row {},
        { backendPeer.row { down := 1, fallCount := 7 } with
            index := 1, addrName := Ascii.bytes "127.0.0.2:80" }]
      generation := 3, total := 2, up := 1, next := 2 }
  | 1 =>
    { peers := [{ backendPeer.row { riseCount := 4 } with upstreamName := Ascii.bytes "dns" },
        { backendPeer.row { riseCount := 9, lastCheckDelay := 12, avgCheckDelay := 15,
                            minCheckDelay := 10, maxCheckDelay := 20 } with
            index := 1, upstreamName := Ascii.bytes "dns" }]
      generation := 5, total := 2, up := 2, next := 2 }
  | _ => {}

/-- The numbers of these groups are machine words. -/
theorem mixedSnapshots_fits (module : Nat) : (mixedSnapshots module).Fits .bits64 := by
  -- One group at a time, and one row at a time in it.
  match module with
  | 0 =>
    refine ⟨by decide, by decide, by decide, by decide, fun peer found => ?_⟩
    simp only [mixedSnapshots, List.mem_cons, List.not_mem_nil, or_false] at found
    rcases found with same | same <;> rw [same] <;> constructor <;> decide
  | 1 =>
    refine ⟨by decide, by decide, by decide, by decide, fun peer found => ?_⟩
    simp only [mixedSnapshots, List.mem_cons, List.not_mem_nil, or_false] at found
    rcases found with same | same <;> rw [same] <;> constructor <;> decide
  | _ + 2 =>
    exact ⟨Nat.zero_le _, Nat.zero_le _, Nat.zero_le _, Nat.zero_le _, by simp [mixedSnapshots]⟩

/-- A legacy CSV page with one row carries the flags. -/
theorem response_terminated_csv : ∃ response,
    requestOutput .bits64 sampleCore csvRequest (csvRequest.page (.legacy 0)) sampleSnapshots =
      some response ∧ response.Terminated := by
  -- The calls are computed, and the theorem reads the flags of their chain.
  have ok : (runCalls .bits64 ((csvRequest.page (.legacy 0)).calls .bits64 sampleSnapshots)
      (.init sampleCore.pool)).map Prod.fst = some .ok := by
    decide +kernel
  obtain ⟨⟨rc, w⟩, formatted, rfl⟩ := Option.map_eq_some_iff.mp ok
  exact (response_terminated (.legacy 0) sampleSnapshots_fits rfl rfl rfl rfl formatted).mpr
    fun empty => absurd empty.2 (by simp [sampleSnapshots])

/-- With every peer up, the legacy page sends a header and then nothing that ends the response. -/
theorem down_csv_unterminated : ∃ response,
    statusResponse .bits64 sampleCore downCsvRequest (.legacy 0) (fun _ => sampleReading)
      (fun _ => some backendSource) 1 = some response ∧
    response.rc = 0 ∧ response.contentLength = some 0 ∧ response.output = none ∧
    ¬ response.Terminated := by
  -- The only peer is up, so the filter leaves no row.
  refine ⟨{ rc := 0, status := some 200, contentLength := some 0 }, ?_, rfl, rfl, rfl, ?_⟩
  · rfl
  · simp [Response.Terminated]

end Healthcheck
