import SetadJang.Framework.Repeats
import SetadJang.Framework.UniqueNames
import SetadJang.R4J.ListQueries

/-!
# The slugs of criminals

A criminal that is saved without a slug gets one from its name, numbered until no row has it.
The public pages look a criminal up by a text: text of digits is read as a primary key, any
other text as a slug.  The number is added without a look at the column, and a name may
consist of digits.
-/

namespace SetadJang.R4J

open SetadJang.Framework

/-! ## The generator -/

/-- The width of the column. -/
def slugMaxLength : ℕ := 200

section Generator

variable (slugify : String → String)

/-- `slugify(f"{first_name} {last_name}") or "criminal"`. -/
def slugBase (firstName lastName : String) : String :=
  let base := slugify (firstName ++ " " ++ lastName)
  if base = "" then "criminal" else base

/-- The slugs that the loop tries in turn. -/
def slugCandidate (firstName lastName : String) : ℕ → String :=
  candidate (fun _ => slugBase slugify firstName lastName) (slugBase slugify firstName lastName)

/-- `_generate_unique_slug` over the slugs of all rows, with at most `steps` turns of its loop. -/
def generateUniqueSlug (stored : List String) (firstName lastName : String) (steps : ℕ) :
    Option String :=
  freeName stored.contains (fun _ => slugBase slugify firstName lastName)
    (slugBase slugify firstName lastName) steps

/-- The loop ends, with a slug that no row has and that the column holds. -/
def GeneratesSlug (stored : List String) (firstName lastName : String) : Prop :=
  ∃ slug, (∀ steps ≥ stored.length + 1,
      generateUniqueSlug slugify stored firstName lastName steps = some slug) ∧
    slug ∉ stored ∧ slug.length ≤ slugMaxLength

theorem length_toString_mono {m n : ℕ} (h : m ≤ n) : (toString m).length ≤ (toString n).length := by
  simp only [← String.length_toList, Nat.toString_eq_repr, Nat.toList_repr]
  have hpos : 0 < (Nat.toDigits 10 n).length := Nat.length_toDigits_pos
  have hlt := (Nat.length_toDigits_le_iff (by decide : 1 < 10) hpos).mp le_rfl
  exact (Nat.length_toDigits_le_iff (by decide) hpos).mpr (by omega)

/-- A later candidate is not shorter. -/
theorem length_slugCandidate_mono {firstName lastName : String} {j k : ℕ} (h : j ≤ k) :
    (slugCandidate slugify firstName lastName j).length ≤
      (slugCandidate slugify firstName lastName k).length := by
  cases j with
  | zero =>
      cases k with
      | zero => exact le_rfl
      | succ k =>
          simp only [slugCandidate, candidate, numbered, String.length_append]
          omega
  | succ j =>
      obtain ⟨k, rfl⟩ : ∃ k', k = k' + 1 := ⟨k - 1, by omega⟩
      have hdigits := @length_toString_mono (j + 2) (k + 2) (by omega)
      simp only [slugCandidate, candidate, numbered, String.length_append]
      omega

/-- The first free candidate is the shortest: it fits when any free one does. -/
theorem generatesSlug_iff {stored : List String} {firstName lastName : String} :
    GeneratesSlug slugify stored firstName lastName ↔
      ∃ k, slugCandidate slugify firstName lastName k ∉ stored ∧
        (slugCandidate slugify firstName lastName k).length ≤ slugMaxLength := by
  constructor
  · rintro ⟨slug, hruns, hfree, hfits⟩
    obtain ⟨k, -, rfl, -, -⟩ := freeName_eq_some_iff.mp (hruns _ le_rfl)
    exact ⟨k, hfree, hfits⟩
  · rintro ⟨k, hfree, hfits⟩
    obtain ⟨first, -, hnew, hbusy, hruns⟩ := @freeName_ends stored.contains
      (fun _ => slugBase slugify firstName lastName) (slugBase slugify firstName lastName) stored
      (fun name h => List.contains_iff_mem.mp h)
    have hle : first ≤ k := by
      by_contra hlt
      exact hfree (List.contains_iff_mem.mp (hbusy k (by omega)))
    refine ⟨_, hruns, fun hmem => ?_, le_trans (length_slugCandidate_mono slugify hle) hfits⟩
    rw [List.contains_iff_mem.mpr hmem] at hnew
    cases hnew

end Generator

/-! ## The lookup -/

/-- The table of criminals; the keys are unique, and so are the slugs. -/
structure CriminalTable where
  rows : List R4JCriminal
  keys : (rows.map R4JCriminal.id).Nodup
  slugs : (rows.map R4JCriminal.slug).Nodup

/-- `R4JCriminal.published`. -/
def CriminalTable.published (t : CriminalTable) : List R4JCriminal :=
  t.rows.filter fun c => c.isPublished && c.isActive

/-- What `_lookup_criminal` is called with. -/
inductive Lookup where
  | int (n : ℤ)
  | str (s : String)
deriving DecidableEq, Repr

/-- What it does not catch. -/
inductive LookupError where
  | valueError
  | multipleObjectsReturned
deriving DecidableEq, Repr

/-- `queryset.get(…)`, with `None` for `DoesNotExist`. -/
def getOrNone (queryset : List R4JCriminal) (p : R4JCriminal → Bool) :
    Except LookupError (Option R4JCriminal) :=
  match queryset.filter p with
  | [] => .ok none
  | [c] => .ok (some c)
  | _ :: _ :: _ => .error .multipleObjectsReturned

def getByPk (queryset : List R4JCriminal) (pk : ℤ) : Except LookupError (Option R4JCriminal) :=
  getOrNone queryset fun c => (c.id : ℤ) == pk

/-- `_lookup_criminal`. -/
def lookupCriminal (queryset : List R4JCriminal) :
    Lookup → Except LookupError (Option R4JCriminal)
  | .int n => getByPk queryset n
  | .str s =>
      if pyIsDigit s then
        match pyInt s with
        | none => .error .valueError
        | some n => getByPk queryset n
      else getOrNone queryset fun c => c.slug == s

theorem getOrNone_of_singleton {queryset : List R4JCriminal} {p : R4JCriminal → Bool}
    {c : R4JCriminal} (h : queryset.filter p = [c]) : getOrNone queryset p = .ok (some c) := by
  rw [getOrNone, h]

theorem getOrNone_finds {queryset : List R4JCriminal} {p : R4JCriminal → Bool} {c : R4JCriminal}
    (h : getOrNone queryset p = .ok (some c)) : c ∈ queryset ∧ p c = true := by
  unfold getOrNone at h
  split at h
  · cases h
  · rename_i only hfilter
    obtain rfl : only = c := by simpa using h
    exact List.mem_filter.mp (hfilter ▸ List.mem_singleton_self only)
  · cases h

namespace CriminalTable

variable {t : CriminalTable} {c : R4JCriminal}

theorem published_keys (t : CriminalTable) : (t.published.map R4JCriminal.id).Nodup :=
  (List.filter_sublist.map _).nodup t.keys

theorem published_slugs (t : CriminalTable) : (t.published.map R4JCriminal.slug).Nodup :=
  (List.filter_sublist.map _).nodup t.slugs

theorem getByPk_own (hc : c ∈ t.published) : getByPk t.published c.id = .ok (some c) := by
  refine getOrNone_of_singleton ?_
  rw [← filter_key_of_nodup t.published_keys hc]
  refine List.filter_congr fun d _ => ?_
  rw [Bool.eq_iff_iff]
  simp only [beq_iff_eq, Nat.cast_inj]

/-- A published criminal is found by its slug unless the slug is a text of digits, and then when
the digits are its own key. -/
theorem lookup_slug_iff (hc : c ∈ t.published) :
    lookupCriminal t.published (.str c.slug) = .ok (some c) ↔
      (pyIsDigit c.slug = true → pyInt c.slug = some (c.id : ℤ)) := by
  rw [lookupCriminal]
  cases hdigits : pyIsDigit c.slug with
  | false =>
      rw [if_neg Bool.false_ne_true]
      constructor
      · intro _ h
        cases h
      · intro _
        exact getOrNone_of_singleton (filter_key_of_nodup t.published_slugs hc)
  | true =>
      rw [if_pos rfl]
      constructor
      · intro hfound _
        split at hfound
        · cases hfound
        · rename_i n hint
          obtain ⟨-, hpk⟩ := getOrNone_finds hfound
          rw [hint, beq_iff_eq.mp hpk]
      · intro hown
        rw [hown rfl]
        exact getByPk_own hc

end CriminalTable

/-- **Slugs of profiles.**  The generator yields a free slug that fits exactly when one of its
candidates is free and fits, and the published criminals are found by their slugs exactly when
no slug is a text of digits other than the key of its row. -/
theorem criminalSlugs_identify_iff (slugify : String → String) (firstName lastName : String)
    (t : CriminalTable) :
    (GeneratesSlug slugify (t.rows.map R4JCriminal.slug) firstName lastName ↔
        ∃ k, slugCandidate slugify firstName lastName k ∉ t.rows.map R4JCriminal.slug ∧
          (slugCandidate slugify firstName lastName k).length ≤ slugMaxLength) ∧
      ((∀ c ∈ t.published, lookupCriminal t.published (.str c.slug) = .ok (some c)) ↔
        ∀ c ∈ t.published, pyIsDigit c.slug = true → pyInt c.slug = some (c.id : ℤ)) :=
  ⟨generatesSlug_iff slugify,
    forall₂_congr fun _ hc => CriminalTable.lookup_slug_iff hc⟩

/-! ## Long names and names of digits -/

/-- `slugify` on ASCII text, letter by letter after the lower-casing. -/
def asciiSlugChars (cs : List Char) : List Char :=
  let kept := (cs.map Char.toLower).filter fun c => c.isAlphanum || "_- ".toList.contains c
  let joined := kept.foldr (fun c out =>
    if c == '-' || c == ' ' then (if out.head? == some '-' then out else '-' :: out)
    else c :: out) []
  let strip := List.dropWhile fun c => c == '-' || c == '_'
  (strip (strip joined).reverse).reverse

def asciiSlugify (value : String) : String := String.ofList (asciiSlugChars value.toList)

def nameOf (c : Char) : String := String.ofList (List.replicate 150 c)

/-- The first row, published under a slug. -/
def slugRow (slug : String) : R4JCriminal :=
  ⟨1, slug, "12", "!", .unknown, "", "", "", true, true, 0, 0, [], []⟩

def slugTable (slug : String) : CriminalTable := ⟨[slugRow slug], by simp, by simp⟩

theorem length_slugBase_long :
    (slugBase asciiSlugify (nameOf 'a') (nameOf 'b')).length = 301 := by
  have hslug : (asciiSlugify (nameOf 'a' ++ " " ++ nameOf 'b')).length = 301 := by
    simp only [asciiSlugify, nameOf, String.length_ofList, String.toList_append,
      String.toList_ofList]
    decide +kernel
  rw [slugBase, if_neg]
  · exact hslug
  · intro hempty
    rw [hempty] at hslug
    exact absurd hslug (by decide)

/-- A hundred and fifty letters twice make a slug that the column does not hold; the slug of
`12 !` is read as the key 12; the digit one of another script is no number. -/
theorem criminalSlugs_misidentify :
    ¬ GeneratesSlug asciiSlugify [] (nameOf 'a') (nameOf 'b') ∧
      generateUniqueSlug asciiSlugify [] "12" "!" 1 = some "12" ∧
      lookupCriminal (slugTable "12").published (.str "12") = .ok none ∧
      lookupCriminal (slugTable "፩").published (.str "፩") = .error .valueError := by
  refine ⟨fun hgenerates => ?_, by decide +kernel, by decide +kernel, by decide +kernel⟩
  obtain ⟨k, -, hfits⟩ := (generatesSlug_iff asciiSlugify).mp hgenerates
  have hbase := le_trans (length_slugCandidate_mono asciiSlugify (Nat.zero_le k)) hfits
  rw [slugCandidate, candidate, length_slugBase_long] at hbase
  exact absurd hbase (by decide)

end SetadJang.R4J
