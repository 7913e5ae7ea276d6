import Mathlib.Data.List.Basic
import Mathlib.Data.List.Induction
import Mathlib.Data.List.Range

/-!
# Hash chains

A record of a chain carries its position, the digest of its predecessor and its
own digest, which can be recomputed from its content and the predecessor's.
`Linked` says that a list of records is a piece of a chain: it starts at a given
position after a given digest, without gap and without fork.
-/

namespace SetadJang.Framework

/-- How records are chained. -/
structure Chaining (R H : Type) where
  index : R → ℕ
  previous : R → H
  digest : R → H
  recompute : R → H → H

namespace Chaining

variable {R H : Type} (C : Chaining R H)

/-- The records continue a chain whose next position is `i` and whose last digest
is `h`. -/
def Linked : ℕ → H → List R → Prop
  | _, _, [] => True
  | i, h, r :: rows =>
      C.index r = i ∧ C.previous r = h ∧ C.digest r = C.recompute r h ∧
        Linked (i + 1) (C.digest r) rows

/-- The last digest of a chain that starts after `h`. -/
def head (h : H) (rows : List R) : H := rows.foldl (fun _ r => C.digest r) h

@[simp] theorem head_snoc (h : H) (rows : List R) (r : R) :
    C.head h (rows ++ [r]) = C.digest r := by
  simp [head]

theorem linked_append (i : ℕ) (h : H) (xs ys : List R) :
    C.Linked i h (xs ++ ys) ↔
      C.Linked i h xs ∧ C.Linked (i + xs.length) (C.head h xs) ys := by
  induction xs generalizing i h with
  | nil => simp [Linked, head]
  | cons r xs ih =>
      simp only [List.cons_append, Linked, ih, and_assoc, List.length_cons]
      rw [Nat.add_assoc, Nat.add_comm 1]
      rfl

/-- A chain grows by a record that fits its end. -/
theorem linked_snoc (i : ℕ) (h : H) (rows : List R) (r : R) :
    C.Linked i h (rows ++ [r]) ↔
      C.Linked i h rows ∧ C.index r = i + rows.length ∧ C.previous r = C.head h rows ∧
        C.digest r = C.recompute r (C.head h rows) := by
  simp [linked_append, Linked]

variable {C} {i : ℕ} {h : H} {xs ys rows : List R}

theorem Linked.earlier (hlinked : C.Linked i h ys) (hpre : xs <+: ys) : C.Linked i h xs := by
  obtain ⟨rest, rfl⟩ := hpre
  exact ((C.linked_append i h xs rest).mp hlinked).1

/-- No gap and no duplicate: the positions are consecutive. -/
theorem Linked.indices (hlinked : C.Linked i h rows) :
    rows.map C.index = List.range' i rows.length := by
  induction rows generalizing i h with
  | nil => rfl
  | cons r rows ih =>
      obtain ⟨hindex, -, -, hrest⟩ := hlinked
      rw [List.map_cons, ih hrest, hindex, List.length_cons, List.range'_succ]

/-- Each digest is the one recomputed from the record itself. -/
theorem Linked.digest_eq (hlinked : C.Linked i h rows) :
    ∀ r ∈ rows, C.digest r = C.recompute r (C.previous r) := by
  induction rows generalizing i h with
  | nil => exact fun _ hr => absurd hr List.not_mem_nil
  | cons a rows ih =>
      obtain ⟨-, hprevious, hdigest, hrest⟩ := hlinked
      intro r hr
      rcases List.mem_cons.mp hr with rfl | hr
      · rw [hprevious, hdigest]
      · exact ih hrest r hr

/-- Each record points to the one before it. -/
theorem Linked.previous_eq (hlinked : C.Linked i h rows) {k : ℕ} {r r' : R}
    (hr : rows[k]? = some r) (hr' : rows[k + 1]? = some r') : C.previous r' = C.digest r := by
  induction rows generalizing i h k with
  | nil => simp at hr
  | cons a rows ih =>
      obtain ⟨-, -, -, hrest⟩ := hlinked
      cases k with
      | succ k => exact ih hrest (by simpa using hr) (by simpa using hr')
      | zero =>
          cases rows with
          | nil => simp at hr'
          | cons b rows =>
              obtain rfl : a = r := by simpa using hr
              obtain rfl : b = r' := by simpa using hr'
              exact hrest.2.1

theorem Linked.previous_first (hlinked : C.Linked i h rows) {r : R} (hr : rows[0]? = some r) :
    C.previous r = h := by
  cases rows with
  | nil => simp at hr
  | cons a rows =>
      obtain rfl : a = r := by simpa using hr
      exact hlinked.2.1

/-- No fork: two continuations of one chain claim the same position. -/
theorem Linked.clash {a : R} (hxa : C.Linked i h (xs ++ [a])) (hxy : C.Linked i h (xs ++ ys))
    (hne : ys ≠ []) : ∃ b ∈ ys, C.index b = C.index a := by
  cases ys with
  | nil => exact absurd rfl hne
  | cons b ys =>
      have ha := ((C.linked_append i h xs [a]).mp hxa).2.1
      have hb := ((C.linked_append i h xs (b :: ys)).mp hxy).2.1
      exact ⟨b, by simp, hb.trans ha.symm⟩

/-! ## What a digest pins

`Continues` leaves the positions out: each record points to the one before it and its digest
is the one recomputed from it.  This is what a walk over the records can check. -/

/-- The records continue a chain whose last digest is `h`. -/
def Continues (C : Chaining R H) : H → List R → Prop
  | _, [] => True
  | h, r :: rows => C.previous r = h ∧ C.digest r = C.recompute r h ∧ C.Continues (C.digest r) rows

theorem continues_append (C : Chaining R H) (h : H) (xs ys : List R) :
    C.Continues h (xs ++ ys) ↔ C.Continues h xs ∧ C.Continues (C.head h xs) ys := by
  induction xs generalizing h with
  | nil => simp [Continues, head]
  | cons r xs ih =>
      simp only [List.cons_append, Continues, ih, and_assoc]
      rfl

theorem continues_snoc (C : Chaining R H) (h : H) (rows : List R) (r : R) :
    C.Continues h (rows ++ [r]) ↔
      C.Continues h rows ∧ C.previous r = C.head h rows ∧
        C.digest r = C.recompute r (C.head h rows) := by
  simp [continues_append, Continues]

/-- **The head pins the history.**  When a digest determines what it was computed from, two
chains with the same head have the same contents, as long as they are equally long or
neither of them comes back to the start. -/
theorem Continues.pinned {P : Type} {content : R → P}
    (hinjective : ∀ r s a b, C.recompute r a = C.recompute s b → a = b ∧ content r = content s)
    (hxs : C.Continues h xs) (hys : C.Continues h ys) (hhead : C.head h xs = C.head h ys)
    (hend : xs.length = ys.length ∨ ∀ r ∈ xs ++ ys, C.digest r ≠ h) :
    xs.map C.digest = ys.map C.digest ∧ xs.map content = ys.map content := by
  induction xs using List.reverseRecOn generalizing ys with
  | nil =>
      rcases List.eq_nil_or_concat ys with rfl | ⟨ys, s, rfl⟩
      · exact ⟨rfl, rfl⟩
      · rw [List.concat_eq_append] at hend hhead
        rcases hend with hlength | hstart
        · simp at hlength
        · rw [head_snoc] at hhead
          exact absurd hhead.symm (hstart s (by simp))
  | append_singleton xs r ih =>
      rcases List.eq_nil_or_concat ys with rfl | ⟨ys, s, rfl⟩
      · rcases hend with hlength | hstart
        · simp at hlength
        · rw [head_snoc] at hhead
          exact absurd hhead (hstart r (by simp))
      · rw [List.concat_eq_append] at hys hend hhead ⊢
        obtain ⟨hxs, -, hr⟩ := (continues_snoc C h xs r).mp hxs
        obtain ⟨hys, -, hs⟩ := (continues_snoc C h ys s).mp hys
        rw [head_snoc, head_snoc] at hhead
        obtain ⟨hbefore, hcontent⟩ := hinjective r s _ _ (hr.symm.trans (hhead.trans hs))
        obtain ⟨hdigests, hcontents⟩ : xs.map C.digest = ys.map C.digest ∧
            xs.map content = ys.map content := by
          refine ih hxs hys hbefore (hend.imp (fun hlength => ?_) fun hstart x hx => ?_)
          · simpa using hlength
          · refine hstart x ?_
            rcases List.mem_append.mp hx with hx | hx <;> simp [hx]
        simp only [List.map_append, List.map_singleton, hdigests, hcontents, hhead, hcontent,
          and_self]

/-- Every digest but the head is the predecessor of a record. -/
theorem Continues.digests (hrows : C.Continues h rows) :
    h :: rows.map C.digest = rows.map C.previous ++ [C.head h rows] := by
  induction rows generalizing h with
  | nil => rfl
  | cons r rows ih =>
      obtain ⟨hprevious, -, hrest⟩ := hrows
      have hhead : C.head h (r :: rows) = C.head (C.digest r) rows := rfl
      rw [List.map_cons, List.map_cons, List.cons_append, hhead, ← ih hrest, hprevious]

/-- The records of a chain do not make another chain in another order. -/
theorem Continues.head_perm (hxs : C.Continues h xs) (hys : C.Continues h ys)
    (hperm : xs.Perm ys) : C.head h xs = C.head h ys := by
  have hdigests : (h :: xs.map C.digest).Perm (h :: ys.map C.digest) := (hperm.map _).cons h
  rw [hxs.digests, hys.digests] at hdigests
  have hheads : [C.head h xs].Perm [C.head h ys] :=
    (List.perm_append_left_iff _).mp (hdigests.trans ((hperm.symm.map _).append_right _))
  exact List.singleton_perm_singleton.mp hheads

end Chaining

end SetadJang.Framework
