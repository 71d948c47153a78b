import Mathlib.Algebra.Group.Nat.Defs

/-! Byte strings: their literals, and comparison without regard to case. -/

namespace Ascii

/-- The bytes of a literal. -/
def bytes (text : String) : List UInt8 :=
  text.toUTF8.data.toList

/-- The lower case of a byte. -/
def lower (byte : UInt8) : UInt8 :=
  if 65 ≤ byte ∧ byte ≤ 90 then byte + 32 else byte

/-- Equality without regard to the case of letters. -/
def equalFold (a b : List UInt8) : Bool :=
  a.map lower == b.map lower

/-- A C string ends at its first zero byte. -/
def terminated (text : List UInt8) : List UInt8 :=
  text.takeWhile (· ≠ 0)

/-- The number a string of decimal digits stands for. -/
def decimal (digits : List UInt8) : Option Nat :=
  if digits = [] then none
  else digits.foldlM (fun number digit =>
    if 48 ≤ digit ∧ digit ≤ 57 then some (number * 10 + (digit.toNat - 48)) else none) 0

/-- The decimal digits of a number, without leading zeros. -/
def numeral (number : Nat) : List UInt8 :=
  (Nat.toDigits 10 number).map Char.toUInt8

/-- A single digit. -/
theorem digitChar_byte {digit : Nat} (small : digit < 10) :
    digit.digitChar.toUInt8 = UInt8.ofNat (48 + digit) := by
  -- Ten digits, each checked.
  rcases digit with _ | _ | _ | _ | _ | _ | _ | _ | _ | _ | digit
  all_goals first | rfl | omega

/-- A number below ten is one digit. -/
theorem numeral_small {number : Nat} (small : number < 10) :
    numeral number = [UInt8.ofNat (48 + number)] := by
  -- Its only digit is the one the conversion gives.
  rw [numeral, Nat.toDigits_of_lt_base small, List.map_singleton, digitChar_byte small]

/-- The last digit of a longer number follows the digits of the rest. -/
theorem numeral_large {number : Nat} (large : 10 ≤ number) :
    numeral number = numeral (number / 10) ++ [UInt8.ofNat (48 + number % 10)] := by
  -- The conversion splits off the last digit.
  rw [numeral, Nat.toDigits_of_base_le (by decide) large, List.map_append, List.map_singleton,
    digitChar_byte (Nat.mod_lt _ (by decide))]
  rfl

/-- A numeral has at least one digit. -/
theorem numeral_ne_nil (number : Nat) : numeral number ≠ [] := by
  -- The conversion gives at least one digit.
  simp [numeral, Nat.toDigits_ne_nil]

/-- The digits of two numbers differ as numbers do. -/
theorem digit_injective {a b : Nat} (first : a < 10) (second : b < 10)
    (same : UInt8.ofNat (48 + a) = UInt8.ofNat (48 + b)) : a = b := by
  -- No two digits wrap around to the same byte.
  have equal := congrArg UInt8.toNat same
  simp only [UInt8.toNat_ofNat'] at equal
  omega

/-- A number can be read off its numeral. -/
theorem numeral_injective {a b : Nat} (same : numeral a = numeral b) : a = b := by
  -- Strong induction: without their last digits the numbers are smaller.
  induction a using Nat.strongRecOn generalizing b with
  | _ a ih =>
    rcases Nat.lt_or_ge a 10 with smallA | largeA <;> rcases Nat.lt_or_ge b 10 with smallB | largeB
    · rw [numeral_small smallA, numeral_small smallB, List.singleton_inj] at same
      exact digit_injective smallA smallB same
    · -- One digit against at least two.
      rw [numeral_small smallA, numeral_large largeB] at same
      have length := congrArg List.length same
      have front := List.length_pos_iff.mpr (numeral_ne_nil (b / 10))
      simp only [List.length_singleton, List.length_append] at length
      omega
    · rw [numeral_large largeA, numeral_small smallB] at same
      have length := congrArg List.length same
      have front := List.length_pos_iff.mpr (numeral_ne_nil (a / 10))
      simp only [List.length_singleton, List.length_append] at length
      omega
    · rw [numeral_large largeA, numeral_large largeB] at same
      obtain ⟨front, last⟩ := List.append_inj' same rfl
      have rest := ih (a / 10) (by omega) front
      have digit := digit_injective (Nat.mod_lt a (by decide)) (Nat.mod_lt b (by decide))
        (List.singleton_inj.mp last)
      omega

/-- The byte of a digit is a digit with its value. -/
theorem digit_reads {digit : Nat} (small : digit < 10) :
    (48 ≤ UInt8.ofNat (48 + digit) ∧ UInt8.ofNat (48 + digit) ≤ 57) ∧
      (UInt8.ofNat (48 + digit)).toNat - 48 = digit := by
  -- There are only ten digits to look at.
  rcases digit with _ | _ | _ | _ | _ | _ | _ | _ | _ | _ | digit
  all_goals first | decide | omega

/-- A numeral has digits only. -/
theorem numeral_digits (number : Nat) : ∀ byte ∈ numeral number, 48 ≤ byte ∧ byte ≤ 57 := by
  -- Strong induction: the digits before the last one are those of a smaller number.
  induction number using Nat.strongRecOn with
  | _ number ih =>
    intro byte found
    rcases Nat.lt_or_ge number 10 with small | large
    · rw [numeral_small small, List.mem_singleton] at found
      rw [found]
      exact (digit_reads small).1
    · rw [numeral_large large, List.mem_append, List.mem_singleton] at found
      rcases found with before | rfl
      · exact ih (number / 10) (by omega) byte before
      · exact (digit_reads (Nat.mod_lt number (by decide : 0 < 10))).1

/-- A numeral is read back as the number it was written for. -/
theorem decimal_numeral (number : Nat) : decimal (numeral number) = some number := by
  rw [decimal, if_neg (numeral_ne_nil number)]
  -- Strong induction: the digits before the last one are those of a smaller number.
  induction number using Nat.strongRecOn with
  | _ number ih =>
    rcases Nat.lt_or_ge number 10 with small | large
    · obtain ⟨range, value⟩ := digit_reads small
      rw [numeral_small small, List.foldlM_cons, if_pos range, value]
      simp
    · obtain ⟨range, value⟩ := digit_reads (Nat.mod_lt number (by decide : 0 < 10))
      have before := ih (number / 10) (by omega)
      have whole : number / 10 * 10 + number % 10 = number := by omega
      rw [numeral_large large, List.foldlM_append, before, Option.bind_eq_bind, Option.bind_some,
        List.foldlM_cons, if_pos range, value, whole]
      rfl

/-- A number below a power of ten has as many digits at most. -/
theorem numeral_length {number digits : Nat} (some : 0 < digits) (small : number < 10 ^ digits) :
    (numeral number).length ≤ digits := by
  -- The bytes of a numeral are its digits.
  rw [numeral, List.length_map]
  exact (Nat.length_toDigits_le_iff (by decide) some).mpr small

end Ascii
