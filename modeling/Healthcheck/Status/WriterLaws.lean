import Healthcheck.Library.Blocks
import Healthcheck.Status.Render

/-! The block writer concatenates: what its calls were given is what its chain holds, in order. -/

namespace Healthcheck

open Program Blocks

/-- The bytes of the chain, in order. -/
def Writer.content (w : Writer) : List UInt8 :=
  (w.chain.map Block.bytes).flatten

/-- The chain is packed, and the counters count it. -/
structure Writer.Sound (w : Writer) : Prop where
  packed : Packed blockSize (w.chain.map Block.bytes)
  length : w.length = w.content.length
  blocks : w.blocks = w.chain.length

/-- A call that returned, and added the bytes it should if it succeeded. -/
def Wrote (bytes : List UInt8) (w : Writer) (rc : Rc) (w' : Writer) : Prop :=
  (rc = .ok ∨ rc = .error) ∧
    (rc = .ok → w.Sound → w'.Sound ∧ w'.content = w.content ++ bytes)

/-- A fresh writer is sound. -/
theorem sound_init (pool : Pool) : (Writer.init pool).Sound :=
  ⟨packed_nil, rfl, rfl⟩

/-- What did nothing wrote nothing. -/
theorem wrote_nil (w : Writer) : Wrote [] w .ok w :=
  ⟨.inl rfl, fun _ sound => ⟨sound, by simp⟩⟩

/-- What failed may have written anything. -/
theorem wrote_error (bytes : List UInt8) (w w' : Writer) : Wrote bytes w .error w' :=
  ⟨.inr rfl, by simp⟩

/-- What two calls wrote one after the other. -/
theorem Wrote.trans {a b : List UInt8} {w w' w'' : Writer} {rc : Rc} (first : Wrote a w .ok w')
    (second : Wrote b w' rc w'') : Wrote (a ++ b) w rc w'' := by
  -- The texts follow each other.
  refine ⟨second.1, fun ok sound => ?_⟩
  obtain ⟨sound', before⟩ := first.2 rfl sound
  obtain ⟨sound'', after⟩ := second.2 ok sound'
  exact ⟨sound'', by rw [after, before, List.append_assoc]⟩

/-- A request for memory is answered by the pool. -/
@[simp] theorem ends_palloc (post : Bool → Writer → Prop) (w : Writer) :
    ends palloc post w ↔ post (w.pool.grants w.pool.asked)
      { w with pool := { w.pool with asked := w.pool.asked + 1 } } := by
  -- The next answer is taken.
  simp [palloc]

/-- The tail block has room, and filling it keeps the chain packed. -/
structure Roomy (w w' : Writer) (front : List Block) (last : Block) : Prop where
  chain : w'.chain = front ++ [last]
  room : last.bytes.length < blockSize
  content : w'.content = w.content
  length : w'.length = w.length
  blocks : w.blocks = w.chain.length → w'.blocks = w'.chain.length
  packed : Packed blockSize (w.chain.map Block.bytes) → ∀ more, 0 < more.length →
    last.bytes.length + more.length ≤ blockSize →
    Packed blockSize (front.map Block.bytes ++ [last.bytes ++ more])

/-- A new block goes behind a chain that is empty or whose last block is full. -/
theorem ends_addBlock {w : Writer} (full : w.full = true) :
    ends addBlock (fun rc w' => rc = .error ∨ rc = .ok ∧ ∃ front last,
      Roomy w w' front last) w := by
  -- A new block is empty, or there is no memory.
  unfold addBlock
  simp only [ends_bind, ends_palloc, ends_ite, ends_pure, ends_change]
  refine ⟨fun _ => .inl trivial, fun _ => .inr
    ⟨trivial, w.chain, {}, rfl, by decide, ?_, rfl, ?_, ?_⟩⟩
  · simp [Writer.content]
  · intro counted
    simp [counted]
  · intro packed more nonempty fits
    rcases w.chain.eq_nil_or_concat with empty | ⟨front, last, shape⟩
    · rw [empty]
      exact packed_concat.mpr ⟨by simp, nonempty, by simpa using fits⟩
    · rw [List.concat_eq_append] at shape
      have whole : last.bytes.length = blockSize := by
        simpa [Writer.full, shape] using full
      rw [shape, List.map_append] at packed ⊢
      exact packed.grow whole nonempty (by simpa using fits)

/-- A tail that is not full has room. -/
theorem roomy_still {w : Writer} (room : ¬ w.full = true) : ∃ front last, Roomy w w front last := by
  -- Its block is the last of the chain.
  rcases w.chain.eq_nil_or_concat with empty | ⟨front, last, shape⟩
  · exact absurd (by simp [Writer.full, empty]) room
  · rw [List.concat_eq_append] at shape
    have below : last.bytes.length ≠ blockSize := by
      simpa [Writer.full, shape] using room
    refine ⟨front, last, shape, lt_of_le_of_ne last.fits below, rfl, rfl, id, ?_⟩
    intro packed more _ fits
    rw [shape, List.map_append] at packed
    exact packed.extend fits

/-- There is room afterwards, or there was no memory. -/
theorem ends_makeRoom (w : Writer) : ends makeRoom
    (fun rc w' => rc = .error ∨ rc = .ok ∧ ∃ front last, Roomy w w' front last) w := by
  -- A full tail gets a new block.
  unfold makeRoom
  simp only [ends_bind, ends_read, ends_ite, ends_pure]
  exact ⟨ends_addBlock, fun room => .inr ⟨trivial, roomy_still room⟩⟩

/-- One pass of the loop copies what the tail block has room for. -/
theorem wrote_fill {w w' : Writer} {front : List Block} {last : Block}
    (roomy : Roomy w w' front last) {more : List UInt8} (nonempty : 0 < more.length)
    (fits : (last.bytes ++ more).length ≤ blockSize) :
    Wrote more w .ok
      { w' with chain := w'.chain.dropLast ++ [{ bytes := last.bytes ++ more, fits := fits }]
                length := w'.length + more.length } := by
  -- The tail is the only block that changed.
  refine ⟨.inl rfl, fun _ sound => ?_⟩
  have content : Writer.content
      { w' with chain := w'.chain.dropLast ++ [{ bytes := last.bytes ++ more, fits := fits }]
                length := w'.length + more.length } = w.content ++ more := by
    rw [← roomy.content]
    simp [Writer.content, roomy.chain]
  refine ⟨⟨?_, ?_, ?_⟩, content⟩
  · have packed := roomy.packed sound.packed more nonempty (by simpa using fits)
    simpa [roomy.chain] using packed
  · rw [content, List.length_append, ← sound.length, ← roomy.length]
  · have counted := roomy.blocks sound.blocks
    simpa [roomy.chain] using counted

/-- What fits is copied into the tail block. -/
theorem ends_fillTail {w : Writer} {front : List Block} {last : Block} {data : List UInt8}
    (chain : w.chain = front ++ [last]) (fits : (last.bytes ++ data).length ≤ blockSize)
    (post : Unit → Writer → Prop) :
    ends (fillTail data) post w ↔ post ()
      { w with chain := w.chain.dropLast ++ [{ bytes := last.bytes ++ data, fits := fits }] } := by
  -- The tail is the last of the chain.
  unfold fillTail
  rw [ends_bind, ends_read, chain, List.getLast?_concat]
  simp only [dif_pos fits, ends_change, chain]

/-- A loop with enough fuel copies all of its bytes. -/
theorem ends_appendLoop (fuel : Nat) (data : List UInt8) (enough : data.length ≤ fuel)
    (w : Writer) : ends (appendLoop fuel data) (Wrote data w) w := by
  -- Induction on the fuel; a pass copies at least one byte into the tail block.
  induction fuel generalizing data w with
  | zero =>
    have empty : data = [] := List.length_eq_zero_iff.mp (by omega)
    subst empty
    simpa [appendLoop] using wrote_nil w
  | succ fuel ih =>
    cases data with
    | nil => simpa [appendLoop] using wrote_nil w
    | cons byte rest =>
      unfold appendLoop
      rw [ends_bind]
      refine ends_mono (ends_makeRoom w) fun rc w' reached => ?_
      rcases reached with rfl | ⟨rfl, front, last, roomy⟩
      · simpa using wrote_error _ w w'
      rw [ends_ite]
      refine ⟨fun failed => absurd rfl failed, fun _ => ?_⟩
      rw [ends_bind, ends_read, roomy.chain, List.getLast?_concat]
      generalize whole : byte :: rest = data at enough ⊢
      have positive : 0 < data.length := by simp [← whole]
      have below := roomy.room
      dsimp only
      rw [ends_bind, ends_read, ends_ite]
      refine ⟨fun _ => (ends_pure _ _ _).mpr (wrote_error _ w w'), fun _ => ?_⟩
      have copied : (data.take (min (blockSize - last.bytes.length) data.length)).length =
          min (blockSize - last.bytes.length) data.length := by
        rw [List.length_take]
        omega
      have fits : (last.bytes ++ data.take (min (blockSize - last.bytes.length) data.length)).length
          ≤ blockSize := by
        rw [List.length_append, copied]
        omega
      rw [ends_bind, ends_fillTail roomy.chain fits, ends_bind, ends_change]
      have filled := wrote_fill roomy (by rw [copied]; omega) fits
      rw [copied] at filled
      refine ends_mono (ih (data.drop (min (blockSize - last.bytes.length) data.length)) ?_ _)
        fun rc w'' later => ?_
      · rw [List.length_drop]
        omega
      · have both := filled.trans later
        rwa [List.take_append_drop] at both

/-- Appending always returns, and adds all its data when it succeeds. -/
theorem ends_append (data : List UInt8) (w : Writer) : ends (append data) (Wrote data w) w :=
  -- A pass copies at least one byte, so the length is enough fuel.
  ends_appendLoop data.length data (Nat.le_refl _) w

/-- The loop over the digits ends with the numeral when the buffer has room for it. -/
theorem uintDigits_eq (room value : Nat) (written : List UInt8) (fits : value < 10 ^ room)
    (some_ : 0 < room) :
    uintDigits room value written = some (Ascii.numeral value ++ written) := by
  -- Induction on the room: each pass writes the last digit of what is left.
  induction room generalizing value written with
  | zero => omega
  | succ room ih =>
    unfold uintDigits
    by_cases large : 10 ≤ value
    · have more : value / 10 ≠ 0 := by omega
      have shorter : value / 10 < 10 ^ room := by
        rw [Nat.pow_succ] at fits
        omega
      have left : 0 < room := by
        rcases Nat.eq_zero_or_pos room with none | left
        · subst none
          omega
        · exact left
      rw [if_pos more, ih _ _ shorter left, Ascii.numeral_large large, List.append_assoc]
      rfl
    · have last : ¬ value / 10 ≠ 0 := by omega
      rw [if_neg last, Ascii.numeral_small (by omega), Nat.mod_eq_of_lt (by omega)]
      rfl

/-- The numbers of a word fit into 64 bits. -/
theorem word_max_le (word : Word) : word.max ≤ uint64Max := by
  -- Both words.
  cases word <;> decide

/-- A number is written as its numeral. -/
theorem ends_appendUint {value : Nat} (range : value ≤ uint64Max) (w : Writer) :
    ends (appendUint value) (Wrote (Ascii.numeral value) w) w := by
  -- A numeral fits into the buffer on the stack.
  have fits : value < 10 ^ int64Len := by
    unfold uint64Max at range
    unfold int64Len
    omega
  unfold appendUint
  rw [uintDigits_eq int64Len value [] fits (by decide), List.append_nil]
  exact ends_append _ w

/-- The text between two directives is written as it stands. -/
theorem ends_flush (literal : List UInt8) (w : Writer) :
    ends (flush literal) (Wrote literal w) w := by
  -- An empty one is not written at all.
  unfold flush
  rw [ends_ite]
  refine ⟨fun _ => ends_append literal w, fun empty => ?_⟩
  rw [not_not] at empty
  subst empty
  exact (ends_pure _ _ _).mpr (wrote_nil w)


/-- A call that writes some bytes, and succeeds only under a condition. -/
def WroteIf (bytes : List UInt8) (good : Prop) (w : Writer) (rc : Rc) (w' : Writer) : Prop :=
  Wrote bytes w rc w' ∧ (rc = .ok → good)

/-- A failure promises nothing. -/
theorem wroteIf_error (bytes : List UInt8) (good : Prop) (w w' : Writer) :
    WroteIf bytes good w .error w' :=
  ⟨wrote_error bytes w w', by simp⟩

/-- A call and the rest of a format write one after the other. -/
theorem ends_then {x rest : Writing Rc} {a b : List UInt8} {good : Prop} {w : Writer}
    (first : ends x (Wrote a w) w) (second : ∀ w', ends rest (WroteIf b good w') w') :
    ends (andThen x rest) (WroteIf (a ++ b) good w) w := by
  -- The second part runs only after the first one succeeded.
  unfold andThen
  rw [ends_bind]
  refine ends_mono first fun rc w' wrote => ?_
  rw [ends_ite]
  refine ⟨fun ok => ?_, fun failed => ?_⟩
  · subst ok
    exact ends_mono (second w') fun rc w'' later => ⟨wrote.trans later.1, later.2⟩
  · have error : rc = .error := wrote.1.resolve_left failed
    subst error
    exact (ends_pure _ _ _).mpr (wroteIf_error _ _ w w')

/-- Two texts are written one after the other. -/
theorem ends_andThen {x rest : Writing Rc} {a b : List UInt8} {w : Writer}
    (first : ends x (Wrote a w) w) (second : ∀ w', ends rest (Wrote b w') w') :
    ends (andThen x rest) (Wrote (a ++ b) w) w := by
  -- The second part is good in any case.
  have both : ends (andThen x rest) (WroteIf (a ++ b) True w) w := ends_then first fun w' =>
    ends_mono (second w') fun _ _ wrote => ⟨wrote, fun _ => trivial⟩
  exact ends_mono both fun _ _ wrote => wrote.1

/-- A time is written as its numeral, the largest one as -1. -/
theorem ends_appendMsec {word : Word} {value : Nat} (range : value ≤ word.max) (w : Writer) :
    ends (appendMsec word value) (Wrote (msecNumeral word value) w) w := by
  -- The two branches of the source.
  unfold appendMsec msecNumeral
  rw [ends_ite]
  refine ⟨fun all => ?_, fun other => ?_⟩
  · rw [if_pos all]
    exact ends_andThen (ends_append (Ascii.bytes "-") w) fun w' => ends_appendUint (by decide) w'
  · rw [if_neg other]
    exact ends_appendUint (Nat.le_trans range (word_max_le word)) w

/-- A literal run, the text of a directive, and the rest of the format. -/
theorem ends_directive {x rest : Writing Rc} {text tail : List UInt8} {good : Prop}
    (literal : List UInt8) (w : Writer) (first : ∀ w, ends x (Wrote text w) w)
    (second : ∀ w, ends rest (WroteIf ([] ++ tail) good w) w) :
    ends (andThen (flush literal) (andThen x rest))
      (WroteIf (literal ++ (text ++ tail)) good w) w :=
  -- First the text in front, then the argument, then the rest.
  ends_then (ends_flush literal w) fun w' => ends_then (first w') second

/-- A literal run, and then the end of the call. -/
theorem ends_invalid (literal text : List UInt8) (good : Prop) (w : Writer) :
    ends (andThen (flush literal) (return .error)) (WroteIf (literal ++ text) good w) w :=
  -- The text in front is written before the failure.
  ends_then (ends_flush literal w) fun w' => (ends_pure _ _ _).mpr (wroteIf_error _ _ w' w')

/-- The argument of a directive that fits it, and the arguments behind it. -/
theorem typed_string {word : Word} {rest : List Piece} {args : List Arg}
    (fits : typed word (.string :: rest) args = true) :
    ∃ value more, args = .string value :: more ∧ typed word rest more = true := by
  -- Any other argument is refused.
  rcases args with _ | ⟨_ | _ | _, more⟩
  case cons.string => exact ⟨_, more, rfl, fits⟩
  all_goals cases fits

/-- An argument for %s is a terminated string. -/
theorem typed_cstring {word : Word} {rest : List Piece} {args : List Arg}
    (fits : typed word (.cstring :: rest) args = true) :
    ∃ value more, args = .cstring value :: more ∧ typed word rest more = true := by
  -- Any other argument is refused.
  rcases args with _ | ⟨_ | _ | _, more⟩
  case cons.cstring => exact ⟨_, more, rfl, fits⟩
  all_goals cases fits

/-- A directive that reads a number fits a machine word. -/
theorem typed_number {word : Word} {piece : Piece} {rest : List Piece} {args : List Arg}
    (reads : piece = .unsigned ∨ piece = .msec)
    (fits : typed word (piece :: rest) args = true) :
    ∃ value more, args = .number value :: more ∧ value ≤ word.max ∧
      typed word rest more = true := by
  -- Any other argument is refused.
  rcases reads with rfl | rfl <;> rcases args with _ | ⟨_ | _ | _, more⟩
  case inl.cons.number | inr.cons.number =>
    rw [typed, Bool.and_eq_true, decide_eq_true_eq] at fits
    exact ⟨_, more, rfl, fits⟩
  all_goals cases fits

/-- A format whose arguments fit is rendered, or a directive is unknown. -/
theorem ends_printfLoop (word : Word) (fmt literal : List UInt8) (args : List Arg)
    (fits : typed word (pieces fmt) args = true) (w : Writer) :
    ends (printfLoop word fmt literal args)
      (WroteIf (literal ++ render word (pieces fmt) args) (.invalid ∉ pieces fmt) w) w := by
  -- Induction on the pieces of the format.
  induction fmt using pieces.induct generalizing literal args w with
  | case1 =>
    refine ends_mono (ends_flush literal w) fun rc w' wrote => ⟨?_, fun _ => by simp [pieces]⟩
    simpa [pieces, render] using wrote
  | case2 c fmt text ih =>
    rw [pieces_text text] at fits ⊢
    have rest := ih (literal ++ [c]) args fits w
    rw [printfLoop.eq_def]
    simpa [text, render] using rest
  | case3 c percent =>
    rw [not_not.mp percent, printfLoop.eq_def]
    exact ends_invalid literal _ _ w
  | case4 c percent fmt ih =>
    rw [not_not.mp percent, pieces_percent] at fits ⊢
    rw [printfLoop.eq_def]
    simp only [List.mem_cons, reduceCtorEq, false_or, render]
    exact ends_directive literal w (ends_append _) (ih [] args fits)
  | case5 c percent fmt _ ih =>
    rw [not_not.mp percent, pieces_string] at fits ⊢
    rw [printfLoop.eq_def]
    simp only [List.mem_cons, reduceCtorEq, false_or]
    obtain ⟨value, args, rfl, fits⟩ := typed_string fits
    exact ends_directive literal w (ends_append value) (ih [] args fits)
  | case6 c percent fmt _ _ ih =>
    rw [not_not.mp percent, pieces_cstring] at fits ⊢
    rw [printfLoop.eq_def]
    simp only [List.mem_cons, reduceCtorEq, false_or]
    obtain ⟨string, args, rfl, fits⟩ := typed_cstring fits
    exact ends_directive literal w (ends_append _) (ih [] args fits)
  | case7 c percent fmt _ _ _ ih =>
    rw [not_not.mp percent, pieces_msec] at fits ⊢
    rw [printfLoop.eq_def]
    simp only [List.mem_cons, reduceCtorEq, false_or]
    obtain ⟨value, args, rfl, range, fits⟩ := typed_number (.inr rfl) fits
    exact ends_directive literal w (ends_appendMsec range) (ih [] args fits)
  | case8 c percent =>
    rw [not_not.mp percent, printfLoop.eq_def]
    exact ends_invalid literal _ _ w
  | case9 c percent fmt _ _ _ _ ih =>
    rw [not_not.mp percent, pieces_unsigned] at fits ⊢
    rw [printfLoop.eq_def]
    simp only [List.mem_cons, reduceCtorEq, false_or]
    obtain ⟨value, args, rfl, range, fits⟩ := typed_number (.inl rfl) fits
    exact ends_directive literal w
      (ends_appendUint (Nat.le_trans range (word_max_le word))) (ih [] args fits)
  | case10 c percent e fmt other notPercent notString notCstring =>
    rw [not_not.mp percent, printfLoop.eq_def]
    have failed := ends_invalid literal (render word
      (pieces ('%'.toUInt8 :: 'u'.toUInt8 :: e :: fmt)) args)
      (.invalid ∉ pieces ('%'.toUInt8 :: 'u'.toUInt8 :: e :: fmt)) w
    simpa [other, notPercent, notString, notCstring] using failed
  | case11 c percent d fmt notPercent notString notCstring notMsec notUnsigned =>
    rw [not_not.mp percent, printfLoop.eq_def]
    have failed := ends_invalid literal (render word (pieces ('%'.toUInt8 :: d :: fmt)) args)
      (.invalid ∉ pieces ('%'.toUInt8 :: d :: fmt)) w
    simpa [notPercent, notString, notCstring, notMsec, notUnsigned] using failed

/-- A call of the formatter renders its format. -/
theorem ends_printf {word : Word} {fmt : List UInt8} {args : List Arg}
    (fits : typed word (pieces (Ascii.terminated fmt)) args = true) (w : Writer) :
    ends (printf word fmt args) (WroteIf (render word (pieces (Ascii.terminated fmt)) args)
      (.invalid ∉ pieces (Ascii.terminated fmt)) w) w := by
  -- The loop starts without a text in front.
  have run := ends_printfLoop word (Ascii.terminated fmt) [] args fits w
  rwa [List.nil_append] at run

/-- A call of the writer returns, and writes what it stands for. -/
theorem ends_call {word : Word} {call : Call} (fits : call.typed word = true) (w : Writer) :
    ends (call.run word) (WroteIf (call.rendered word) call.Valid w) w := by
  -- A call copies its data as they are, or prints a format.
  cases call with
  | append data => exact ends_mono (ends_append data w) fun _ _ wrote => ⟨wrote, fun _ => trivial⟩
  | printf fmt args => exact ends_printf fits w

/-- Calls in a row write one after the other. -/
theorem ends_runCalls {word : Word} (calls : List Call)
    (fits : ∀ call ∈ calls, call.typed word = true)
    (w : Writer) : ends (runCalls word calls)
      (WroteIf (calls.flatMap (Call.rendered word)) (∀ call ∈ calls, call.Valid) w) w := by
  -- Induction on the calls: the first one that fails ends the page.
  induction calls generalizing w with
  | nil => exact (ends_pure _ _ _).mpr ⟨wrote_nil w, by simp⟩
  | cons call calls ih =>
    have others := ih fun call found => fits call (by simp [found])
    unfold runCalls andThen
    rw [ends_bind]
    refine ends_mono (ends_call (fits call (by simp)) w) fun rc w' wrote => ?_
    rw [ends_ite]
    refine ⟨fun ok => ?_, fun failed => ?_⟩
    · subst ok
      refine ends_mono (others w') fun rc w'' later => ⟨wrote.1.trans later.1, fun ok => ?_⟩
      simpa using ⟨wrote.2 rfl, later.2 ok⟩
    · have error : rc = .error := wrote.1.1.resolve_left failed
      subst error
      exact (ends_pure _ _ _).mpr (wroteIf_error _ _ w w')

/-- What a writer's chain holds after calls that succeeded. -/
structure Concatenates (bytes : List UInt8) (w : Writer) : Prop where
  content : w.content = bytes
  length : w.length = bytes.length
  packed : Packed blockSize (w.chain.map Block.bytes)
  counted : w.blocks = w.chain.length
  ceiling : w.chain.length = (bytes.length + (blockSize - 1)) / blockSize

/-- Calls on a new writer always return, and if none of them fails its chain holds the renderings
of the calls, in packed blocks. A format with another directive, or a trailing percent sign, fails
whatever was written before. -/
theorem writer_concatenates (word : Word) (pool : Pool) (calls : List Call)
    (fits : ∀ call ∈ calls, call.typed word = true) :
    ends (runCalls word calls) (fun rc w => rc = .ok →
      (∀ call ∈ calls, call.Valid) ∧ Concatenates (calls.flatMap (Call.rendered word)) w)
      (.init pool) ∧
    ∀ call ∈ calls, ¬ call.Valid → ∀ w, ends (call.run word) (fun rc _ => rc = .error) w := by
  -- The blocks are packed, so their number follows from the length.
  refine ⟨ends_mono (ends_runCalls calls fits _) fun rc w wrote ok => ⟨wrote.2 ok, ?_⟩,
    fun call found invalid w => ?_⟩
  · obtain ⟨sound, content⟩ := wrote.1.2 ok (sound_init pool)
    have content : w.content = calls.flatMap (Call.rendered word) := content
    refine ⟨content, by rw [sound.length, content], sound.packed, sound.blocks, ?_⟩
    have count := packed_length sound.packed (by decide)
    rw [List.length_map] at count
    rw [count, ← content]
    rfl
  · refine ends_mono (ends_call (fits call found) w) fun rc w' wrote => ?_
    exact wrote.1.1.resolve_left fun ok => invalid (wrote.2 ok)

/-- A call with every directive, and one without a format. -/
def sampleCalls : List Call :=
  [.printf (Ascii.bytes "%ui,%V,%s,%M,%%") [.number 7, .string (Ascii.bytes "a"),
      .cstring (Ascii.bytes "up"), .number (2 ^ 64 - 1)],
    .append (Ascii.bytes "!")]

/-- These calls succeed, and the chain holds both renderings. -/
theorem writer_concatenates_sample : ∃ w,
    runCalls .bits64 sampleCalls (.init { grants := fun _ => true }) = some (.ok, w) ∧
    w.content = Ascii.bytes "7,a,up,-1,%!" := by
  have ok : (runCalls .bits64 sampleCalls (.init { grants := fun _ => true })).map Prod.fst =
      some .ok := by
    decide +kernel
  obtain ⟨⟨rc, w⟩, formatted, rfl⟩ := Option.map_eq_some_iff.mp ok
  -- The calls return once, so what the law says of their end is about this writer.
  obtain ⟨_, w', same, holds⟩ :=
    (writer_concatenates .bits64 { grants := fun _ => true } sampleCalls (by decide +kernel)).1
  rw [formatted] at same
  cases same
  exact ⟨w, formatted, (holds rfl).2.content.trans (by decide +kernel)⟩

end Healthcheck
