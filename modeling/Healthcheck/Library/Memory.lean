import Healthcheck.Library.Ascii

/-! Byte addresses: a read of an address that nothing is known to lie at is a fault. -/

namespace Memory

open Ascii

/-- What ends a computation without a result. -/
inductive Trap where
  /-- The byte at this address may not be read. -/
  | fault (address : Nat)
  /-- It has not come to an end. -/
  | endless
  deriving DecidableEq, Repr

/-- The byte at each address that may be read. -/
abbrev Bytes := Nat → Option UInt8

/-- Nothing but one byte string, from an address. -/
def holding (data : Nat) (value : List UInt8) : Bytes := fun address =>
  if data ≤ address then value[address - data]? else none

variable (memory : Bytes)

/-- One byte. -/
def load (address : Nat) : Except Trap UInt8 :=
  (memory address).elim (.error (.fault address)) .ok

/-- As many bytes as are asked for. -/
def loads : (count address : Nat) → Except Trap (List UInt8)
  | 0, _ => .ok []
  | count + 1, address => do
    let byte ← load memory address
    return byte :: (← loads count (address + 1))

/-- Comparison with a literal without regard to case, which ends at the first difference. -/
def compareFold : (literal : List UInt8) → (address : Nat) → Except Trap Bool
  | [], _ => .ok true
  | letter :: literal, address => do
    if lower (← load memory address) = lower letter then compareFold literal (address + 1)
    else return false

/-- The address of the first such byte among as many as are asked for. -/
def search (wanted : UInt8) : (count address : Nat) → Except Trap (Option Nat)
  | 0, _ => .ok none
  | count + 1, address => do
    if (← load memory address) = wanted then return some address
    else search wanted count (address + 1)

variable {data : Nat} {value : List UInt8}

/-- A byte of the text is loaded from its address. -/
theorem load_holding {p : Nat} {byte : UInt8} {rest : List UInt8}
    (here : value.drop p = byte :: rest) : load (holding data value) (data + p) = .ok byte := by
  -- The address lies inside the block that holds the text.
  have found : value[p]? = some byte := by
    have first : (value.drop p)[0]? = some byte := by rw [here]; rfl
    rwa [List.getElem?_drop, Nat.add_zero] at first
  unfold load holding
  rw [if_pos (Nat.le_add_right data p), Nat.add_sub_cancel_left, found]
  rfl

/-- What follows a byte lies at the next address. -/
theorem drop_next {p : Nat} {byte : UInt8} {rest : List UInt8}
    (here : value.drop p = byte :: rest) : value.drop (p + 1) = rest := by
  -- One byte further, one byte less is left.
  rw [← List.drop_drop, here]
  rfl

/-- Bytes remain before the end. -/
theorem exists_drop {p count : Nat} (inside : p + (count + 1) ≤ value.length) :
    ∃ byte rest, value.drop p = byte :: rest := by
  -- The text does not end here.
  cases here : value.drop p with
  | nil =>
    have short := List.drop_eq_nil_iff.mp here
    omega
  | cons byte rest => exact ⟨byte, rest, rfl⟩

/-- Reading within a byte string gives its bytes. -/
theorem loads_holding {count p : Nat} (inside : p + count ≤ value.length) :
    loads (holding data value) count (data + p) = .ok ((value.drop p).take count) := by
  -- Induction on the number of bytes.
  induction count generalizing p with
  | zero => rfl
  | succ count ih =>
    obtain ⟨byte, rest, here⟩ := exists_drop inside
    have next := ih (p := p + 1) (by omega)
    rw [drop_next here] at next
    unfold loads
    rw [load_holding here, Nat.add_assoc, next, here]
    rfl

/-- Comparison with a literal of the same length reads no further than that length. -/
theorem compareFold_holding {literal : List UInt8} {p : Nat}
    (inside : p + literal.length ≤ value.length) :
    compareFold (holding data value) literal (data + p) =
      .ok (equalFold ((value.drop p).take literal.length) literal) := by
  induction literal generalizing p with
  | nil => rfl
  | cons letter literal ih =>
    obtain ⟨byte, rest, here⟩ := exists_drop inside
    have next := ih (p := p + 1) (by simp only [List.length_cons] at inside; omega)
    rw [drop_next here] at next
    unfold compareFold
    rw [load_holding here, Nat.add_assoc, next, here]
    unfold equalFold
    simp only [List.length_cons, List.take_succ_cons, List.map_cons, List.cons_beq_cons]
    -- The comparison goes on exactly when the letters agree.
    by_cases same : lower byte = lower letter
    · simp [same, bind, Except.bind]
    · simp [same, bind, Except.bind, pure, Except.pure]

/-- The search among what is left of a byte string. -/
theorem search_holding {wanted : UInt8} {count p : Nat} (whole : p + count = value.length) :
    search (holding data value) wanted count (data + p) =
      .ok (((value.drop p).findIdx? (· == wanted)).map (data + p + ·)) := by
  -- Induction on the bytes that are left: the wanted one is here or further on.
  induction count generalizing p with
  | zero =>
    rw [List.drop_eq_nil_iff.mpr (by omega)]
    rfl
  | succ count ih =>
    obtain ⟨byte, rest, here⟩ := exists_drop (Nat.le_of_eq whole)
    have next := ih (p := p + 1) (by omega)
    rw [drop_next here] at next
    unfold search
    rw [load_holding here, Nat.add_assoc, next, here, List.findIdx?_cons]
    by_cases same : byte = wanted
    · simp [same, bind, Except.bind, pure, Except.pure]
    · simp only [bind, Except.bind, if_neg same, beq_iff_eq, Option.map_map]
      congr 2
      funext index
      simp only [Function.comp_apply]
      omega

end Memory
