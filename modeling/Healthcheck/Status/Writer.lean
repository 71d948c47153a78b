import Healthcheck.Library.Ascii
import Healthcheck.Runtime.Process

/-!
The writer of the status pages: bytes of any length go into a chain of blocks of one size, which
are allocated from the request's pool when they are needed.

A program of the writer that never returns stands for undefined behaviour: a write outside a block
or before the digit buffer, or an argument that is not of the type its directive reads.
-/

namespace Healthcheck

open Program

/-- `NGX_HEALTHCHECK_STATUS_BLOCK_SIZE`. -/
def blockSize : Nat := 128 * 1024

/-- `INT64_MAX`, the largest `off_t`. -/
def int64Max : Nat := 2 ^ 63 - 1

/-- `NGX_INT64_LEN`. -/
def int64Len : Nat := 20

/-- A buffer of one block: the bytes between its `pos`, which never moves, and its `last`. -/
structure Block where
  bytes : List UInt8 := []
  fits : bytes.length ≤ blockSize := by decide

/-- The request's pool: whether each of its allocations succeeds. -/
structure Pool where
  grants : Nat → Bool
  asked : Nat := 0

/-- `ngx_healthcheck_status_writer_t`; the chain runs from `head` to `tail`. -/
structure Writer where
  pool : Pool
  chain : List Block := []
  length : Nat := 0
  blocks : Nat := 0

/-- `ngx_healthcheck_status_writer_init`. -/
def Writer.init (pool : Pool) : Writer :=
  { pool := pool }

/-- An action of a writer may stop without a result. -/
abbrev Writing := Prog Writer

/-- `ngx_palloc` and `ngx_pcalloc`: whether there is memory. -/
def palloc : Writing Bool := do
  let pool := (← read).pool
  change fun w => { w with pool := { pool with asked := pool.asked + 1 } }
  return pool.grants pool.asked

/-- `ngx_healthcheck_status_writer_add_block`. -/
def addBlock : Writing Rc := do
  let chain ← palloc
  let buffer ← palloc
  let data ← palloc
  if ¬ chain ∨ ¬ buffer ∨ ¬ data then return .error
  else do
    change fun w => { w with chain := w.chain ++ [{}], blocks := w.blocks + 1 }
    return .ok

/-- There is no tail block, or it has no room. -/
def Writer.full (w : Writer) : Bool :=
  match w.chain.getLast? with
  | none => true
  | some block => block.bytes.length = blockSize

/-- A block is added only when the tail block cannot take another byte. -/
def makeRoom : Writing Rc := do
  if (← read).full then addBlock else return .ok

/-- `ngx_cpymem` to the `last` of the tail block. -/
def fillTail (data : List UInt8) : Writing Unit := do
  match (← read).chain.getLast? with
  | none => diverge
  | some block =>
    if fits : (block.bytes ++ data).length ≤ blockSize then
      change fun w =>
        { w with chain := w.chain.dropLast ++ [{ bytes := block.bytes ++ data, fits := fits }] }
    else diverge

/-- The loop of `ngx_healthcheck_status_writer_append`. -/
def appendLoop : Nat → List UInt8 → Writing Rc
  -- Each pass copies at least one byte, so the length of the data bounds the number of passes.
  | _, [] => return .ok
  | 0, _ => diverge
  | fuel + 1, data => do
    let rc ← makeRoom
    if rc ≠ .ok then return .error
    else
      match (← read).chain.getLast? with
      | none => diverge
      | some block => do
        let copy := min (blockSize - block.bytes.length) data.length
        if (← read).length > int64Max - copy then return .error
        else do
          fillTail (data.take copy)
          change fun w => { w with length := w.length + copy }
          appendLoop fuel (data.drop copy)

/-- `ngx_healthcheck_status_writer_append`. -/
def append (data : List UInt8) : Writing Rc :=
  appendLoop data.length data

/-- The loop that writes decimal digits from the end of a buffer; `none` is a write before it. -/
def uintDigits : Nat → Nat → List UInt8 → Option (List UInt8)
  | 0, _, _ => none
  | room + 1, value, written =>
    let written := UInt8.ofNat (48 + value % 10) :: written
    if value / 10 ≠ 0 then uintDigits room (value / 10) written else some written

/-- `ngx_healthcheck_status_writer_append_uint`. -/
def appendUint (value : Nat) : Writing Rc :=
  match uintDigits int64Len value [] with
  | none => diverge
  | some digits => append digits

/-- An argument of `ngx_healthcheck_status_writer_printf`. -/
inductive Arg where
  /-- `ngx_str_t *`. -/
  | string (bytes : List UInt8)
  /-- `const char *`: the memory from there on. -/
  | cstring (bytes : List UInt8)
  /-- `ngx_uint_t` or `ngx_msec_t`. -/
  | number (value : Nat)
  deriving DecidableEq, Repr

/-- The literal run between two directives. -/
def flush (literal : List UInt8) : Writing Rc :=
  if literal ≠ [] then append literal else return .ok

/-- A number of milliseconds; the largest one is shown as -1. -/
def appendMsec (word : Word) (value : Nat) : Writing Rc :=
  if value = word.max then do
    let rc ← append (Ascii.bytes "-")
    if rc = .ok then appendUint 1 else return rc
  else appendUint value

/-- What follows a call that must succeed. -/
def andThen (x rest : Writing Rc) : Writing Rc := do
  let rc ← x
  if rc = .ok then rest else return rc

/-- The loop of `ngx_healthcheck_status_writer_printf`, with the literal run read so far. -/
def printfLoop (word : Word) : List UInt8 → List UInt8 → List Arg → Writing Rc
  | [], literal, _ => flush literal
  | c :: fmt, literal, args =>
    if c ≠ '%'.toUInt8 then printfLoop word fmt (literal ++ [c]) args
    else
      andThen (flush literal)
        (match fmt with
        | [] => return .error
        | d :: fmt =>
          if d = '%'.toUInt8 then
            andThen (append (Ascii.bytes "%")) (printfLoop word fmt [] args)
          else if d = 'V'.toUInt8 then
            match args with
            | .string value :: args => andThen (append value) (printfLoop word fmt [] args)
            | _ => diverge
          else if d = 's'.toUInt8 then
            match args with
            | .cstring string :: args =>
              andThen (append (Ascii.terminated string)) (printfLoop word fmt [] args)
            | _ => diverge
          else if d = 'u'.toUInt8 then
            match fmt with
            | [] => return .error
            | e :: fmt =>
              if e ≠ 'i'.toUInt8 then return .error
              else
                match args with
                | .number value :: args => andThen (appendUint value) (printfLoop word fmt [] args)
                | _ => diverge
          else if d = 'M'.toUInt8 then
            match args with
            | .number value :: args =>
              andThen (appendMsec word value) (printfLoop word fmt [] args)
            | _ => diverge
          else return .error)

/-- `ngx_healthcheck_status_writer_printf`. -/
def printf (word : Word) (fmt : List UInt8) (args : List Arg) : Writing Rc :=
  printfLoop word (Ascii.terminated fmt) [] args

end Healthcheck
