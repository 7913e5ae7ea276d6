import Mathlib.Data.List.Pairwise
import Mathlib.Tactic.Ring

/-!
# Leases

A key that is added only where it is missing, that has an end, and that is deleted by its name:
whoever adds it takes a lease, and whoever deletes it ends the lease that is there, whoever has
taken it.  As long as nobody holds on past the end of a lease there is one holder at most.
-/

namespace SetadJang.Framework

/-- The key is there: its end is not reached. -/
def Live (lease : Option ℕ) (now : ℕ) : Prop := ∃ stop ∈ lease, now < stop

instance decidableLive (lease : Option ℕ) (now : ℕ) : Decidable (Live lease now) :=
  match lease with
  | none => isFalse (by rintro ⟨stop, h, -⟩; cases h)
  | some stop => decidable_of_iff (now < stop) ⟨fun h => ⟨stop, rfl, h⟩, by rintro ⟨_, ⟨⟩, h⟩; exact h⟩

variable {H : Type} {holds holds' : H → ℕ → Prop} {lease : Option ℕ} {now : ℕ}

/-- Whoever holds a lease up to `stop` holds the one that is there, and nobody else does. -/
structure Exclusive (holds : H → ℕ → Prop) (lease : Option ℕ) (now : ℕ) : Prop where
  current : ∀ h stop, holds h stop → lease = some stop ∧ now < stop
  unique : ∀ h h' stop stop', holds h stop → holds h' stop' → h = h'

/-- Nobody holds. -/
theorem exclusive_of_nobody (lease : Option ℕ) (now : ℕ) (h : ∀ i stop, ¬ holds i stop) :
    Exclusive holds lease now :=
  ⟨fun i stop hi => absurd hi (h i stop), fun i _ stop _ hi => absurd hi (h i stop)⟩

namespace Exclusive

variable (hx : Exclusive holds lease now)

include hx

theorem mono (h : ∀ i stop, holds' i stop → holds i stop) : Exclusive holds' lease now :=
  ⟨fun i stop hi => hx.current i stop (h i stop hi),
    fun i j stop stop' hi hj => hx.unique i j stop stop' (h i stop hi) (h j stop' hj)⟩

/-- Time passes, and nobody holds on past an end. -/
theorem wait {later : ℕ} (h : ∀ i stop, holds i stop → later < stop) :
    Exclusive holds lease later :=
  ⟨fun i stop hi => ⟨(hx.current i stop hi).1, h i stop hi⟩, hx.unique⟩

/-- Where the key is not there, nobody holds. -/
theorem nobody (hdead : ¬ Live lease now) (i : H) (stop : ℕ) : ¬ holds i stop := fun hi =>
  hdead ⟨stop, (hx.current i stop hi).1, (hx.current i stop hi).2⟩

/-- A key that is not there is added by `i`. -/
theorem take {i : H} {stop : ℕ} (hdead : ¬ Live lease now) (hstop : now < stop)
    (h : ∀ j end', holds' j end' → holds j end' ∨ j = i ∧ end' = stop) :
    Exclusive holds' (some stop) now := by
  have hnew : ∀ j end', holds' j end' → j = i ∧ end' = stop := fun j end' hj =>
    (h j end' hj).resolve_left (hx.nobody hdead j end')
  constructor
  · intro j end' hj
    obtain ⟨-, rfl⟩ := hnew j end' hj
    exact ⟨rfl, hstop⟩
  · intro j j' end' end'' hj hj'
    exact (hnew j end' hj).1.trans (hnew j' end'' hj').1.symm

/-- The holder `i` deletes the key and is gone. -/
theorem free {i : H} {stop : ℕ} (hi : holds i stop)
    (h : ∀ j end', holds' j end' → holds j end' ∧ j ≠ i) : Exclusive holds' none now :=
  exclusive_of_nobody none now fun j end' hj =>
    (h j end' hj).2 (hx.unique j i end' stop (h j end' hj).1 hi)

end Exclusive

/-! ## Leases of one length -/

/-- Leases of the length `d` that do not overlap and start between `first` and `last`. -/
theorem length_mul_le_of_spaced {d : ℕ} {starts : List ℕ} (first last : ℕ)
    (hspaced : starts.Pairwise fun a b => a + d ≤ b)
    (hin : ∀ a ∈ starts, first ≤ a ∧ a ≤ last) : starts.length * d ≤ last + d - first := by
  induction starts generalizing first with
  | nil => simp
  | cons a rest ih =>
      obtain ⟨hhead, htail⟩ := List.pairwise_cons.mp hspaced
      obtain ⟨hfirst, hlast⟩ := hin a List.mem_cons_self
      have hrest : rest.length * d ≤ last + d - (a + d) :=
        ih (a + d) htail fun b hb => ⟨hhead b hb, (hin b (List.mem_cons_of_mem a hb)).2⟩
      calc (a :: rest).length * d = rest.length * d + d := by rw [List.length_cons]; ring
        _ ≤ last + d - first := by omega

end SetadJang.Framework
