import Mathlib.Data.Int.Order.Basic

/-!
# Cache entries that expire

One key of a cache that keeps an entry for exactly the timeout it was set with.  Instants are
microseconds, timeouts seconds.  `hit` is the usual way to count in windows of a fixed length:
the first hit opens a window, and a hit does not move its end.
-/

namespace SetadJang.Framework

/-- A number of seconds, in microseconds. -/
def ticks (seconds : ℤ) : ℤ := seconds * 1000000

/-- A value and the instant from which it is gone. -/
structure Entry (α : Type) where
  value : α
  expiresAt : ℤ
deriving DecidableEq, Repr

/-- What the cache holds under one key. -/
abbrev Slot (α : Type) := Option (Entry α)

namespace Slot

variable {α : Type}

/-- The entry is there, and not expired. -/
def Live (now : ℤ) (s : Slot α) : Prop := ∃ e, s = some e ∧ now < e.expiresAt

/-- `cache.get`. -/
def get (now : ℤ) (s : Slot α) : Option α :=
  match s with
  | some e => if now < e.expiresAt then some e.value else none
  | none => none

/-- `cache.set`. -/
def put (now timeout : ℤ) (value : α) : Slot α := some ⟨value, now + ticks timeout⟩

/-- `cache.incr`, which keeps the timeout; `none` is the `ValueError` of a key that is not
there. -/
def incr (now : ℤ) (s : Slot ℕ) : Option (ℕ × Slot ℕ) :=
  match s with
  | some e =>
      if now < e.expiresAt then some (e.value + 1, some { e with value := e.value + 1 }) else none
  | none => none

/-- `incr`, or a first entry: the count after it and the slot. -/
def hit (now timeout : ℤ) (s : Slot ℕ) : ℕ × Slot ℕ :=
  match s.incr now with
  | some counted => counted
  | none => (1, put now timeout 1)

theorem get_of_lt {now : ℤ} {e : Entry α} (h : now < e.expiresAt) :
    get now (some e) = some e.value := if_pos h

theorem incr_of_lt {now : ℤ} {e : Entry ℕ} (h : now < e.expiresAt) :
    incr now (some e) = some (e.value + 1, some { e with value := e.value + 1 }) := if_pos h

theorem incr_eq_none_iff {now : ℤ} {s : Slot ℕ} : s.incr now = none ↔ ¬ s.Live now := by
  cases s with
  | none => simp [incr, Live]
  | some e => simp [incr, Live]

end Slot

end SetadJang.Framework
