import Mathlib.Algebra.Order.Ring.Nat
import Mathlib.Data.List.Basic
import Mathlib.Data.Nat.Notation

/-!
# Numbers in bytes

Numbers of a fixed width in both byte orders, and reading at a position of a file.  A read past
the end gets the bytes that are there.
-/

namespace SetadJang.Framework

/-! ## Byte orders -/

/-- `int.from_bytes(bytes, "little")`. -/
def leNat : List UInt8 → ℕ
  | [] => 0
  | b :: bs => b.toNat + 256 * leNat bs

/-- `int.from_bytes(bytes, "big")`. -/
def beNat (bs : List UInt8) : ℕ := leNat bs.reverse

/-- The number in `width` bytes, the lowest first. -/
def leBytes : ℕ → ℕ → List UInt8
  | 0, _ => []
  | width + 1, n => UInt8.ofNat n :: leBytes width (n / 256)

/-- The number in `width` bytes, the highest first. -/
def beBytes (width n : ℕ) : List UInt8 := (leBytes width n).reverse

@[simp] theorem length_leBytes (width n : ℕ) : (leBytes width n).length = width := by
  induction width generalizing n with
  | zero => rfl
  | succ width ih => rw [leBytes, List.length_cons, ih]

@[simp] theorem length_beBytes (width n : ℕ) : (beBytes width n).length = width := by
  rw [beBytes, List.length_reverse, length_leBytes]

theorem leNat_leBytes {width n : ℕ} (h : n < 256 ^ width) : leNat (leBytes width n) = n := by
  induction width generalizing n with
  | zero =>
      rw [Nat.pow_zero] at h
      rw [leBytes, leNat]
      omega
  | succ width ih =>
      rw [Nat.pow_succ] at h
      rw [leBytes, leNat, ih (by omega), UInt8.toNat_ofNat']
      omega

/-- A number that fits its width is read back. -/
theorem beNat_beBytes {width n : ℕ} (h : n < 256 ^ width) : beNat (beBytes width n) = n := by
  rw [beNat, beBytes, List.reverse_reverse, leNat_leBytes h]

/-! ## Reading -/

/-- `file.seek(pos)` and `file.read(n)`. -/
def readAt (file : List UInt8) (pos n : ℕ) : List UInt8 := (file.drop pos).take n

/-- `bs[i:j]`. -/
def slice (bs : List UInt8) (i j : ℕ) : List UInt8 := (bs.take j).drop i

theorem length_readAt (file : List UInt8) (pos n : ℕ) :
    (readAt file pos n).length = min n (file.length - pos) := by
  rw [readAt, List.length_take, List.length_drop]

/-- What lies behind a front and a skipped stretch. -/
theorem readAt_append {front skipped rest : List UInt8} {pos n : ℕ}
    (hpos : pos = front.length + skipped.length) :
    readAt (front ++ (skipped ++ rest)) pos n = rest.take n := by
  rw [readAt, ← List.append_assoc, List.drop_left' (by rw [List.length_append, hpos])]

theorem slice_append {front field rest : List UInt8} {i j : ℕ} (hi : front.length = i)
    (hj : i + field.length = j) : slice (front ++ (field ++ rest)) i j = field := by
  rw [slice, List.drop_take, List.drop_left' hi, List.take_left' (by omega)]

/-- A cut behind the slice does not change it. -/
theorem slice_take {bs : List UInt8} {i j n : ℕ} (h : j ≤ n) :
    slice (bs.take n) i j = slice bs i j := by
  rw [slice, List.take_take, Nat.min_eq_left h, slice]

end SetadJang.Framework
