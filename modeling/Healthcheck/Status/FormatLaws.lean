import Healthcheck.Status.Format
import Healthcheck.Status.WriterLaws

/-! The arguments of every format fit its directives when the numbers of a snapshot are words. -/

namespace Healthcheck

/-- The shown numbers of a row are machine words. -/
structure SnapshotPeer.Fits (word : Word) (peer : SnapshotPeer) : Prop where
  index : peer.index ≤ word.max
  port : peer.conf.port ≤ word.max
  rise : peer.health.riseCount ≤ word.max
  fall : peer.health.fallCount ≤ word.max
  last : peer.health.lastCheckDelay ≤ word.max
  avg : peer.health.avgCheckDelay ≤ word.max
  min : peer.health.minCheckDelay ≤ word.max
  max : peer.health.maxCheckDelay ≤ word.max

/-- The shown numbers of a snapshot are machine words. -/
structure Snapshot.Fits (word : Word) (snapshot : Snapshot) : Prop where
  generation : snapshot.generation ≤ word.max
  total : snapshot.total ≤ word.max
  up : snapshot.up ≤ word.max
  /-- A row takes more than two bytes of the address space. -/
  rows_fit : 2 * snapshot.peers.length ≤ word.max
  rows : ∀ peer ∈ snapshot.peers, peer.Fits word

/-- A piece that reads an argument, or that ends the format. -/
def Piece.directive : Piece → Bool
  | .byte _ => false
  | _ => true

/-- The directives of a format string. -/
def directives (fmt : List UInt8) : List Piece :=
  (pieces (Ascii.terminated fmt)).filter Piece.directive

/-- Literal bytes do not matter to the types of the arguments. -/
theorem typed_directives (word : Word) (shape : List Piece) (args : List Arg) :
    typed word shape args = typed word (shape.filter Piece.directive) args := by
  -- Induction on the pieces: plain bytes take no argument.
  induction shape generalizing args with
  | nil => rfl
  | cons piece rest ih =>
    cases piece with
    | byte byte => simpa [Piece.directive, typed] using ih args
    | invalid =>
      rw [List.filter_cons_of_pos rfl]
      simp only [typed]
    | string | cstring | unsigned | msec =>
      rw [List.filter_cons_of_pos rfl]
      rcases args with _ | ⟨arg, args⟩
      · simp only [typed]
      · cases arg <;> simp only [typed, ih args]

/-- A call is typed if the directives of its format fit its arguments. -/
theorem printf_typed (word : Word) (fmt : List UInt8) (args : List Arg) :
    Call.typed word (.printf fmt args) = typed word (directives fmt) args :=
  typed_directives word _ args

/-- The largest number of a word is smaller than its size. -/
theorem word_max_lt (word : Word) : word.max < word.size := by
  -- Both words.
  cases word <;> decide

/-- What is smaller than the size of a word is at most its largest number. -/
theorem le_word_max {word : Word} {value : Nat} (below : value < word.size) :
    value ≤ word.max := by
  -- The size is one more.
  unfold Word.max
  omega

/-- A remainder by the size of a word fits into it. -/
theorem mod_le_word_max (word : Word) (value : Nat) : value % word.size ≤ word.max :=
  le_word_max (Nat.mod_lt _ (Nat.zero_lt_of_lt (word_max_lt word)))

/-- One fits into a word. -/
theorem one_le_word_max (word : Word) : 1 ≤ word.max := by
  -- Both words.
  cases word <;> decide

/-- The rows a format shows are rows of the snapshot. -/
theorem shown_fits {word : Word} {snapshot : Snapshot} (fits : snapshot.Fits word) (flag : Nat)
    {peer : SnapshotPeer} (shown : peer ∈ snapshot.shown flag) : peer.Fits word :=
  -- A row that is shown is one of the snapshot.
  fits.rows peer (List.mem_of_mem_filter shown)

/-- The number of rows of a snapshot that fits is itself in range. -/
theorem Snapshot.Fits.count {word : Word} {snapshot : Snapshot} (fits : snapshot.Fits word) :
    snapshot.peers.length ≤ word.max := by
  -- Twice their number fits.
  have room := fits.rows_fit
  omega

/-- The generation that is shown fits into a word. -/
theorem shownGeneration_fits {word : Word} {http stream : Snapshot} (fits : http.Fits word)
    (fits' : stream.Fits word) : shownGeneration http stream ≤ word.max := by
  -- It is that of one of the two groups.
  unfold shownGeneration
  split
  · exact fits'.generation
  · exact fits.generation

/-- A row of the HTML page fits its format. -/
theorem htmlRow_typed {word : Word} {peer : SnapshotPeer} (fits : peer.Fits word) :
    (htmlRow peer).typed word = true := by
  -- The numbers of a peer that fits are in range.
  have shape : directives htmlRowFormat =
      [.cstring, .unsigned, .string, .string, .cstring, .unsigned, .unsigned, .string, .unsigned,
        .msec, .msec, .msec, .msec] := by
    rfl
  obtain ⟨index, port, rise, fall, last, avg, min, max⟩ := fits
  rw [htmlRow, printf_typed, shape]
  simp [SnapshotPeer.htmlArgs, SnapshotPeer.mark, SnapshotPeer.status, SnapshotPeer.delays,
    typed, *]

/-- A row of the CSV page fits its format. -/
theorem csvRow_typed {word : Word} {peer : SnapshotPeer} (fits : peer.Fits word)
    {fmt : List UInt8}
    (shape : directives fmt =
      [.unsigned, .string, .string, .unsigned, .unsigned, .string, .unsigned, .msec, .msec, .msec,
        .msec, .cstring]) :
    (csvRow fmt peer).typed word = true := by
  -- The numbers of a peer that fits are in range.
  obtain ⟨index, port, rise, fall, last, avg, min, max⟩ := fits
  rw [csvRow, printf_typed, shape]
  simp [SnapshotPeer.status, SnapshotPeer.delays, typed, *]

/-- A row of the JSON page fits its format. -/
theorem jsonRow_typed {word : Word} {peer : SnapshotPeer} (fits : peer.Fits word) (last : Bool) :
    (jsonRow peer last).typed word = true := by
  -- The numbers of a peer that fits are in range.
  have shape : directives jsonRowFormat =
      [.unsigned, .string, .string, .cstring, .unsigned, .unsigned, .string, .unsigned, .msec,
        .msec, .msec, .msec, .cstring] := by
    rfl
  obtain ⟨index, port, rise, fall, latest, avg, min, max⟩ := fits
  rw [jsonRow, printf_typed, shape]
  simp [SnapshotPeer.jsonArgs, SnapshotPeer.status, SnapshotPeer.delays, comma, typed, *]

/-- A sample of the Prometheus page fits its format. -/
theorem prometheusRow_typed {word : Word} {peer : SnapshotPeer} (fits : peer.Fits word)
    {fmt : List UInt8} {value : SnapshotPeer → Nat} (range : value peer ≤ word.max)
    (shape : directives fmt =
      [.unsigned, .string, .string, .string, .cstring, .string, .unsigned, .unsigned])
    (type : String) : (prometheusRow fmt type value peer).typed word = true := by
  -- The value is in range by assumption.
  rw [prometheusRow, printf_typed, shape]
  simp [SnapshotPeer.status, typed, fits.index, fits.port, range]

/-- A sample of the activity fits its format. -/
theorem prometheusActive_typed {word : Word} {peer : SnapshotPeer} (fits : peer.Fits word)
    (type : String) : (prometheusActive type peer).typed word = true := by
  -- The value is zero or one.
  have shape : directives activeFormat =
      [.unsigned, .string, .string, .string, .string, .unsigned, .unsigned] := by
    rfl
  have active : (if peer.health.down = 0 then 1 else 0) ≤ word.max := by
    split
    · exact one_le_word_max word
    · exact Nat.zero_le _
  rw [prometheusActive, printf_typed, shape]
  simp [typed, fits.index, fits.port, active]

/-- A row of a legacy page fits its format in each of the formats. -/
theorem legacyRow_typed {word : Word} {peer : SnapshotPeer} (fits : peer.Fits word) (format : Nat)
    (last : Bool) : (legacyRow format peer last).typed word = true := by
  -- One format for each page, and the numbers are in range.
  have html : directives legacyHtmlFormat =
      [.cstring, .unsigned, .string, .string, .cstring, .unsigned, .unsigned, .string,
        .unsigned] := by
    rfl
  have csv : directives legacyCsvFormat =
      [.unsigned, .string, .string, .cstring, .unsigned, .unsigned, .string, .unsigned] := by
    rfl
  have json : directives legacyJsonFormat =
      [.unsigned, .string, .string, .cstring, .unsigned, .unsigned, .string, .unsigned,
        .cstring] := by
    rfl
  unfold legacyRow
  split
  · rw [printf_typed, html]
    simp [SnapshotPeer.htmlArgs, SnapshotPeer.mark, SnapshotPeer.status, typed, fits.index,
      fits.port, fits.rise, fits.fall]
  split
  · rw [printf_typed, csv]
    simp [SnapshotPeer.jsonArgs, SnapshotPeer.status, typed, fits.index, fits.port, fits.rise,
      fits.fall]
  · rw [printf_typed, json]
    simp [SnapshotPeer.jsonArgs, SnapshotPeer.status, comma, typed, fits.index, fits.port,
      fits.rise, fits.fall]

/-- The calls for the rows of a JSON array are made by one function of a row. -/
theorem jsonRows_typed {word : Word} {row : SnapshotPeer → Bool → Call}
    {peers : List SnapshotPeer} (each : ∀ peer ∈ peers, ∀ last, (row peer last).typed word = true) :
    ∀ call ∈ jsonRows row peers, call.typed word = true := by
  -- Induction on the rows.
  induction peers with
  | nil => simp [jsonRows]
  | cons peer rest ih =>
    simp only [jsonRows, List.mem_cons, forall_eq_or_imp] at each ⊢
    exact ⟨each.1 _, ih each.2⟩

/-- Rows that fit one by one fit together. -/
theorem map_typed {word : Word} {row : SnapshotPeer → Call} {peers : List SnapshotPeer}
    (each : ∀ peer ∈ peers, (row peer).typed word = true) :
    ∀ call ∈ peers.map row, call.typed word = true := by
  simpa using each

/-- A literal has no directive, so it needs no argument. -/
theorem literal_typed (word : Word) {fmt : List UInt8} (shape : directives fmt = []) :
    Call.typed word (.printf fmt []) = true := by
  -- There is no directive to fill in.
  rw [printf_typed, shape, typed]

/-- The head of an HTML table fits its format. -/
theorem htmlHead_typed (word : Word) {snapshot : Snapshot} (fits : snapshot.Fits word)
    {fmt : List UInt8} (shape : directives fmt = [.unsigned, .unsigned, .unsigned]) :
    Call.typed word (.printf fmt (snapshot.htmlArgs word)) = true := by
  -- The counts of a snapshot that fits are in range.
  rw [printf_typed, shape]
  simp [Snapshot.htmlArgs, typed, fits.up, fits.total, wordSub, mod_le_word_max]

/-- The directives of the long heads. -/
theorem head_directives :
    directives htmlHead = [] ∧ directives htmlHttpHead = [.unsigned, .unsigned, .unsigned] ∧
      directives htmlStreamHead = [.unsigned, .unsigned, .unsigned] ∧
      directives prometheusHead = [.unsigned, .unsigned, .unsigned, .unsigned] ∧
      directives legacyHtmlHead = [.unsigned, .unsigned] := by
  -- The formats of the source are constants.
  decide +kernel

section Formats

variable {word : Word} {http stream : Snapshot} (fits : http.Fits word)
  (fits' : stream.Fits word) (flag : Nat)

include fits fits'

/-- The whole HTML page fits its formats. -/
theorem htmlFormat_typed : ∀ call ∈ htmlFormat word http stream flag, call.typed word = true := by
  -- The heads and the rows one after the other.
  obtain ⟨head, httpHead, streamHead, -⟩ := head_directives
  simp only [htmlFormat, List.forall_mem_append, List.forall_mem_cons]
  refine ⟨⟨⟨⟨⟨?_, ?_, ?_⟩, ?_⟩, ?_, ?_, ?_⟩, ?_⟩, ?_, ?_⟩
  · exact literal_typed word head
  · exact htmlHead_typed word fits httpHead
  · simp
  · exact map_typed fun peer shown => htmlRow_typed (shown_fits fits flag shown)
  · exact literal_typed word (by rfl)
  · exact htmlHead_typed word fits' streamHead
  · simp
  · exact map_typed fun peer shown => htmlRow_typed (shown_fits fits' flag shown)
  · have shape : directives htmlFoot = [.unsigned] := by rfl
    rw [printf_typed, shape]
    simp [typed, wordAdd, mod_le_word_max]
  · simp

/-- The whole CSV page fits its formats. -/
theorem csvFormat_typed : ∀ call ∈ csvFormat http stream flag, call.typed word = true := by
  -- The head and the rows of both groups.
  simp only [csvFormat, List.forall_mem_append, List.forall_mem_singleton]
  refine ⟨⟨?_, ?_⟩, ?_⟩
  · exact literal_typed word (by rfl)
  · exact map_typed fun peer shown => csvRow_typed (shown_fits fits flag shown) (by rfl)
  · exact map_typed fun peer shown => csvRow_typed (shown_fits fits' flag shown) (by rfl)

/-- The whole JSON page fits its formats. -/
theorem jsonFormat_typed : ∀ call ∈ jsonFormat word http stream, call.typed word = true := by
  -- The heads and the rows of both groups.
  simp only [jsonFormat, List.forall_mem_append, List.forall_mem_cons]
  refine ⟨⟨⟨⟨⟨?_, ?_⟩, ?_⟩, ?_, ?_⟩, ?_⟩, ?_, ?_, ?_⟩
  · have shape : directives jsonHead = [.unsigned, .unsigned] := by rfl
    rw [printf_typed, shape]
    simp [typed, wordAdd, mod_le_word_max, shownGeneration_fits fits fits']
  · simp
  · exact jsonRows_typed fun peer found last => jsonRow_typed (fits.rows peer found) last
  · exact literal_typed word (by rfl)
  · simp
  · exact jsonRows_typed fun peer found last => jsonRow_typed (fits'.rows peer found) last
  · exact literal_typed word (by rfl)
  · exact literal_typed word (by rfl)
  · simp

/-- A family of samples fits its formats. -/
theorem prometheusMetric_typed {head : List UInt8} {row : String → SnapshotPeer → Call}
    (shape : directives head = [])
    (each : ∀ type (peer : SnapshotPeer), peer.Fits word → (row type peer).typed word = true) :
    ∀ call ∈ prometheusMetric http stream flag head row, call.typed word = true := by
  -- The head and the samples of both groups.
  simp only [prometheusMetric, List.forall_mem_append, List.forall_mem_singleton]
  refine ⟨⟨?_, ?_⟩, ?_⟩
  · exact literal_typed word shape
  · exact map_typed fun peer shown => each _ peer (shown_fits fits flag shown)
  · exact map_typed fun peer shown => each _ peer (shown_fits fits' flag shown)

/-- The whole Prometheus page fits its formats. -/
theorem prometheusFormat_typed :
    ∀ call ∈ prometheusFormat word http stream flag, call.typed word = true := by
  -- The totals and the three families.
  obtain ⟨-, -, -, head, -⟩ := head_directives
  simp only [prometheusFormat, List.forall_mem_append, List.forall_mem_singleton]
  refine ⟨⟨⟨?_, ?_⟩, ?_⟩, ?_⟩
  · rw [printf_typed, head]
    simp [typed, countShown, mod_le_word_max, shownGeneration_fits fits fits']
  · exact prometheusMetric_typed fits fits' flag (by rfl) fun type peer whole =>
      prometheusRow_typed whole whole.rise (by rfl) type
  · exact prometheusMetric_typed fits fits' flag (by rfl) fun type peer whole =>
      prometheusRow_typed whole whole.fall (by rfl) type
  · exact prometheusMetric_typed fits fits' flag (by rfl) fun type peer whole =>
      prometheusActive_typed whole type

end Formats

/-- A whole legacy page fits its formats. -/
theorem legacyOutput_typed {word : Word} {snapshot : Snapshot} (fits : snapshot.Fits word)
    (format : Nat) : ∀ call ∈ legacyOutput snapshot format, call.typed word = true := by
  -- The head, the rows and the foot of each format.
  obtain ⟨-, -, -, -, html⟩ := head_directives
  simp only [legacyOutput, List.forall_mem_append]
  refine ⟨⟨?_, ?_⟩, ?_⟩
  · have json : directives legacyJsonHead = [.unsigned, .unsigned] := by rfl
    unfold legacyHead
    split
    · rw [List.forall_mem_singleton, printf_typed, html]
      simp [typed, fits.count, fits.generation]
    split
    · rw [List.forall_mem_singleton, printf_typed, json]
      simp [typed, fits.count, fits.generation]
    · simp
  · exact jsonRows_typed fun peer found last => legacyRow_typed (fits.rows peer found) format last
  · unfold legacyFoot
    split
    · exact List.forall_mem_singleton.mpr (literal_typed word (by rfl))
    split
    · exact List.forall_mem_singleton.mpr (literal_typed word (by rfl))
    · simp

end Healthcheck
