import SetadJang.Framework.UniqueNames

/-!
# The slug generators that cut

Three apps number a slug until none of the stored rows has it, and cut the base so that the
column holds the numbered slug.  A longer number cuts the base shorter, and a cut base may itself
end like a number.
-/

namespace SetadJang.UniqueSlugs

open SetadJang.Framework

/-! ## Slugs of a length -/

/-- `text[:stop]`, where a negative stop counts from the end. -/
def pySliceTo (text : List Char) (stop : ℤ) : List Char :=
  if 0 ≤ stop then text.take stop.toNat else text.take (text.length - stop.natAbs)

/-- The base, cut to leave room for the number. -/
def cutStem (base : String) (maxLength n : ℕ) : String :=
  let suffixText := "-" ++ toString n
  String.ofList (pySliceTo base.toList ((maxLength : ℤ) - suffixText.length))

/-- The loop of the generators, with at most `steps` turns. -/
def freeSlug (stored : List String) (base : String) (maxLength steps : ℕ) : Option String :=
  freeName stored.contains (cutStem base maxLength) base steps

/-- `slugify(value, allow_unicode=True)[:max_length] or fallback`. -/
def slugBase (slugify : String → String) (value : String) (maxLength : ℕ) (fallback : String) :
    String :=
  let base := String.ofList ((slugify value).toList.take maxLength)
  if base = "" then fallback else base

/-- `uuid.uuid4().hex[:12]`. -/
structure HexBase where
  text : String
  length : text.length = 12

/-- The slug that the loop ends with: not stored, not empty, and short enough. -/
def FindsSlug (stored : List String) (maxLength : ℕ) (run : ℕ → Option String) : Prop :=
  ∃ slug, (∀ steps ≥ stored.length + 1, run steps = some slug) ∧
    slug ≠ "" ∧ slug.length ≤ maxLength ∧ slug ∉ stored

theorem length_pySliceTo_le {text : List Char} {stop : ℤ} (h : 0 ≤ stop) :
    ((pySliceTo text stop).length : ℤ) ≤ stop := by
  rw [pySliceTo, if_pos h, List.length_take]
  omega

theorem length_str_le {n e : ℕ} (he : 0 < e) (h : n < 10 ^ e) : (toString n).length ≤ e := by
  rw [← String.length_toList, Nat.toString_eq_repr, Nat.toList_repr]
  exact Nat.toDigits_length 10 n e he h

/-- A numbered slug fits as long as its number does. -/
theorem length_numbered_le {base : String} {maxLength n e : ℕ} (he : 0 < e) (hn : n < 10 ^ e)
    (hmax : e + 1 ≤ maxLength) : (numbered (cutStem base maxLength) n).length ≤ maxLength := by
  have hdigits := length_str_le he hn
  have hsuffix : ("-" ++ toString n).length = 1 + (toString n).length := by
    rw [String.length_append]
    rfl
  have hstem := @length_pySliceTo_le base.toList ((maxLength : ℤ) - ("-" ++ toString n).length)
    (by omega)
  rw [numbered, String.append_assoc, String.length_append, cutStem, String.length_ofList]
  omega

theorem numbered_ne_empty (stem : ℕ → String) (n : ℕ) : numbered stem n ≠ "" := by
  intro h
  have htext := congrArg String.toList h
  simp [numbered] at htext

/-- The generators with a base that fits, over few enough rows that a number fits too. -/
theorem freeSlug_finds {stored : List String} {base : String} {maxLength : ℕ}
    (hmax : 20 ≤ maxLength) (hstored : stored.length < 10 ^ 15) (hbase : base ≠ "")
    (hfits : base.length ≤ maxLength) : FindsSlug stored maxLength (freeSlug stored base maxLength) := by
  obtain ⟨k, hk, hfree, -, hruns⟩ := @freeName_ends stored.contains (cutStem base maxLength) base
    stored (fun name h => List.contains_iff_mem.mp h)
  refine ⟨candidate (cutStem base maxLength) base k, hruns, ?_, ?_, ?_⟩
  · cases k with
    | zero => exact hbase
    | succ k => exact numbered_ne_empty _ _
  · cases k with
    | zero => exact hfits
    | succ k => exact length_numbered_le (by decide : 0 < 16) (by omega) (by omega)
  · intro hmem
    rw [List.contains_iff_mem.mpr hmem] at hfree
    cases hfree

theorem slugBase_fits {slugify : String → String} {value : String} {maxLength : ℕ}
    {fallback : String} (hne : fallback ≠ "") (hshort : fallback.length ≤ maxLength) :
    slugBase slugify value maxLength fallback ≠ "" ∧
      (slugBase slugify value maxLength fallback).length ≤ maxLength := by
  unfold slugBase
  dsimp only
  split
  · exact ⟨hne, hshort⟩
  · rename_i hsome
    refine ⟨hsome, ?_⟩
    rw [String.length_ofList, List.length_take]
    exact Nat.min_le_left _ _

/-! ## The three generators -/

section Generators

variable (slugify : String → String)

/-- The slugs that the query of `support_desk` sees: the row with the excluded key is left out. -/
def storedSlugs (rows : List (ℕ × String)) (excludePk : Option ℕ) : List String :=
  (rows.filter fun row => excludePk != some row.1).map Prod.snd

/-- `_unique_slug` of `support_desk`. -/
def supportDeskUniqueSlug (rows : List (ℕ × String)) (value : String) (maxLength : ℕ)
    (excludePk : Option ℕ) (hex : HexBase) (steps : ℕ) : Option String :=
  freeSlug (storedSlugs rows excludePk) (slugBase slugify value maxLength hex.text) maxLength steps

/-- `_unique_slug` of `kindness_wall`. -/
def kindnessWallUniqueSlug (stored : List String) (value : String) (maxLength : ℕ)
    (hex : HexBase) (steps : ℕ) : Option String :=
  freeSlug stored (slugBase slugify value maxLength hex.text) maxLength steps

/-- `_generate_unique_slug` of `lms`. -/
def lmsGenerateUniqueSlug (stored : List String) (baseValue : String) (maxLength steps : ℕ) :
    Option String :=
  freeSlug stored (slugBase slugify baseValue maxLength "item") maxLength steps

/-- **The generators end**, with a slug that is free and fits, after at most one turn more than
there are stored slugs. -/
theorem uniqueSlugs_terminate (value : String) (hex : HexBase) (excludePk : Option ℕ)
    {rows : List (ℕ × String)} {stored : List String} {maxLength : ℕ} (hmax : 20 ≤ maxLength)
    (hrows : (storedSlugs rows excludePk).length < 10 ^ 15) (hstored : stored.length < 10 ^ 15) :
    FindsSlug (storedSlugs rows excludePk) maxLength
        (supportDeskUniqueSlug slugify rows value maxLength excludePk hex) ∧
      FindsSlug stored maxLength (kindnessWallUniqueSlug slugify stored value maxLength hex) ∧
      FindsSlug stored maxLength (lmsGenerateUniqueSlug slugify stored value maxLength) := by
  have hhex : hex.text ≠ "" ∧ hex.text.length ≤ maxLength := by
    refine ⟨fun hempty => ?_, by rw [hex.length]; omega⟩
    have hlength := hex.length
    rw [hempty] at hlength
    exact absurd hlength (by decide)
  obtain ⟨hne, hfits⟩ := @slugBase_fits slugify value maxLength hex.text hhex.1 hhex.2
  obtain ⟨hne', hfits'⟩ := @slugBase_fits slugify value maxLength "item" (by decide)
    (le_trans (by decide) hmax)
  exact ⟨freeSlug_finds hmax hrows hne hfits, freeSlug_finds hmax hstored hne hfits,
    freeSlug_finds hmax hstored hne' hfits'⟩

end Generators

/-- The base is cut so that it numbers itself: `aaaaaaaaaaaaaaaaaa-2` is taken, and its second
candidate is the base again. -/
theorem uniqueSlugs_terminate_cut :
    FindsSlug ["aaaaaaaaaaaaaaaaaa-2"] 20
      (lmsGenerateUniqueSlug id ["aaaaaaaaaaaaaaaaaa-2"] "aaaaaaaaaaaaaaaaaa-2" 20) :=
  (@uniqueSlugs_terminate id "aaaaaaaaaaaaaaaaaa-2" ⟨"0123456789ab", rfl⟩ none []
    ["aaaaaaaaaaaaaaaaaa-2"] 20 le_rfl (by decide) (by decide)).2.2

end SetadJang.UniqueSlugs
