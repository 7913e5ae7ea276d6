import Mathlib.Data.List.Basic
import Mathlib.Data.Int.Notation
import Mathlib.Data.Nat.Notation
import SetadJang.Framework.PyText

/-!
# Digits

The decimal digits of `\d`, the digits of `str.isdigit`, and `int` of a text.  The tables are
those of the Unicode character database.
-/

namespace SetadJang.Framework

/-- The zeros of the decimal digits, category `Nd`; each is followed by its one to nine. -/
def decimalZeros : List ℕ :=
  [0x30, 0x660, 0x6f0, 0x7c0, 0x966, 0x9e6, 0xa66, 0xae6, 0xb66, 0xbe6, 0xc66, 0xce6, 0xd66,
    0xde6, 0xe50, 0xed0, 0xf20, 0x1040, 0x1090, 0x17e0, 0x1810, 0x1946, 0x19d0, 0x1a80, 0x1a90,
    0x1b50, 0x1bb0, 0x1c40, 0x1c50, 0xa620, 0xa8d0, 0xa900, 0xa9d0, 0xa9f0, 0xaa50, 0xabf0,
    0xff10, 0x104a0, 0x10d30, 0x11066, 0x110f0, 0x11136, 0x111d0, 0x112f0, 0x11450, 0x114d0,
    0x11650, 0x116c0, 0x11730, 0x118e0, 0x11950, 0x11c50, 0x11d50, 0x11da0, 0x11f50, 0x16a60,
    0x16ac0, 0x16b50, 0x1d7ce, 0x1d7d8, 0x1d7e2, 0x1d7ec, 0x1d7f6, 0x1e140, 0x1e2f0, 0x1e4f0,
    0x1e950, 0x1fbf0]

/-- `\d` on a string. -/
def pyIsDecimal (c : Char) : Bool :=
  decimalZeros.any fun z => decide (z ≤ c.toNat) && decide (c.toNat ≤ z + 9)

/-- Digits that are not decimal: superscripts, circled numbers and the like. -/
def otherDigits : List (ℕ × ℕ) :=
  [(178, 179), (185, 185), (4969, 4977), (6618, 6618), (8304, 8304), (8308, 8313), (8320, 8329),
    (9312, 9320), (9332, 9340), (9352, 9360), (9450, 9450), (9461, 9469), (9471, 9471),
    (10102, 10110), (10112, 10120), (10122, 10130), (68160, 68163), (69216, 69224),
    (69714, 69722), (127232, 127242)]

/-- `str.isdigit` of one character. -/
def pyIsDigitChar (c : Char) : Bool :=
  pyIsDecimal c || otherDigits.any fun r => decide (r.1 ≤ c.toNat) && decide (c.toNat ≤ r.2)

/-- `str.isdigit`. -/
def pyIsDigit (s : String) : Bool := !s.toList.isEmpty && s.toList.all pyIsDigitChar

/-- A decimal digit is no white space. -/
theorem not_isSpace_of_isDecimal {c : Char} (h : pyIsDecimal c = true) : pyIsSpace c = false := by
  simp only [pyIsDecimal, List.any_eq_true, Bool.and_eq_true, decide_eq_true_eq] at h
  obtain ⟨z, hmem, hlow, hhigh⟩ := h
  have hclear : ∀ z ∈ decimalZeros, z + 9 < 0x85 ∧ 33 ≤ z ∨ 0xA0 < z ∧
      (z + 9 < 0x1680 ∨ 0x1680 < z) ∧ (z + 9 < 0x2000 ∨ 0x205F < z) ∧
      (z + 9 < 0x3000 ∨ 0x3000 < z) := by decide
  have hz := hclear z hmem
  simp only [pyIsSpace, Bool.or_eq_false_iff, Bool.and_eq_false_iff, decide_eq_false_iff_not,
    beq_eq_false_iff_ne]
  omega

/-! ## Integers in texts -/

/-- A character as `int` reads it: a digit of any script as its ASCII digit. -/
def intChar (c : Char) : Char :=
  if c.toNat < 128 then c
  else if pyIsSpace c then ' '
  else
    match decimalZeros.find? fun z => decide (z ≤ c.toNat) && decide (c.toNat ≤ z + 9) with
    | some z => Char.ofNat (48 + (c.toNat - z))
    | none => '?'

def isAsciiSpace (c : Char) : Bool := c == ' ' || (decide (9 ≤ c.toNat) && decide (c.toNat ≤ 13))

/-- Digits with single underscores between them; more than 4300 digits are refused. -/
def pyDigits (cs : List Char) : Option ℕ :=
  let groups := pySplit '_' cs
  if (groups.all fun group => !group.isEmpty && group.all Char.isDigit) = true ∧
      groups.flatten.length ≤ 4300 then
    some (Nat.ofDigitChars 10 groups.flatten 0)
  else none

/-- `int(text)`; `none` is a `ValueError`. -/
def pyInt (s : String) : Option ℤ :=
  let cs := (s.toList.map intChar).dropWhile isAsciiSpace
  match (cs.reverse.dropWhile isAsciiSpace).reverse with
  | '+' :: cs => (pyDigits cs).map Int.ofNat
  | '-' :: cs => (pyDigits cs).map fun n => -(n : ℤ)
  | cs => (pyDigits cs).map Int.ofNat

end SetadJang.Framework
