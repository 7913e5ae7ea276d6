import Mathlib.Data.List.Dedup
import SetadJang.R4J.ListQueries

/-!
# Which queries share a cached page

The texts of a query string are joined with separators that they may hold themselves, and two
strings with the same texts need not be read alike.  The cache keeps their answers apart
exactly where the texts differ, or the strings are read alike, or neither ever shows a row.
-/

namespace SetadJang.R4J

open SetadJang.Framework SetadJang.Core

/-! ## Equal keys -/

/-- What the key knows of a query string: the joined texts, and the text under the digest. -/
def SameTexts (q q' : QueryDict) : Prop :=
  ":".intercalate q.keyTexts = ":".intercalate q'.keyTexts ∧
    (q.relevantKeys = [] ↔ q'.relevantKeys = []) ∧ q.filtersText = q'.filtersText

theorem noFilters_not_hex (short : Hexdigest) (s : String) : short.digest s ≠ "no_filters" := by
  intro h
  have hn := short.hex s 'n' (by simp [h])
  exact absurd hn (by decide)

theorem colon_not_mem_signature (short : Hexdigest) (q : QueryDict) :
    ':' ∉ (q.filtersSignature short).toList := by
  unfold QueryDict.filtersSignature
  split
  · decide
  · intro hcolon
    exact absurd (short.hex _ _ hcolon) (by decide)

theorem filtersSignature_eq_iff (short : Hexdigest) (q q' : QueryDict) :
    q.filtersSignature short = q'.filtersSignature short ↔
      (q.relevantKeys = [] ↔ q'.relevantKeys = []) ∧ q.filtersText = q'.filtersText := by
  unfold QueryDict.filtersSignature
  by_cases hq : q.relevantKeys = []
  · by_cases hq' : q'.relevantKeys = []
    · simp [hq, hq', QueryDict.filtersText]
    · simp [hq, hq', (noFilters_not_hex short _).symm]
  · by_cases hq' : q'.relevantKeys = []
    · simp [hq, hq', noFilters_not_hex short _]
    · simp [hq, hq', short.injective.eq_iff]

/-- **The key** says no more of a query string than its texts. -/
theorem publicPageKey_eq_iff (short long : Hexdigest) (version : ℕ) (q q' : QueryDict) :
    publicPageKey short long version q = publicPageKey short long version q' ↔
      SameTexts q q' := by
  have hconcat : ∀ r : QueryDict, ":".intercalate (r.keyTexts ++ [r.filtersSignature short]) =
      ":".intercalate r.keyTexts ++ ":" ++ r.filtersSignature short := by
    intro r
    rw [String.intercalate_append_of_ne_nil (by simp [QueryDict.keyTexts]) (by simp),
      String.intercalate_singleton]
  rw [publicPageKey, publicPageKey, payloadKey_eq_iff long.injective (by simp) (by simp),
    SameTexts, ← filtersSignature_eq_iff short]
  constructor
  · intro h
    exact join_concat_inj (c := ':') (by simp [QueryDict.keyTexts]) (by simp [QueryDict.keyTexts])
      (colon_not_mem_signature short q) (colon_not_mem_signature short q') h
  · rintro ⟨htexts, hsignature⟩
    rw [hconcat, hconcat, htexts, hsignature]

/-! ## Equal answers -/

/-- Two query strings that the view reads alike: the same page, and the same values for every
other parameter. -/
def ReadAlike (q q' : QueryDict) : Prop :=
  q.pageNumber = q'.pageNumber ∧ q.otherParams = q'.otherParams

/-- No row is ever shown: the page is none, or the filters match no criminal at all. -/
def ShowsNone (engine : QueryEngine) (q : QueryDict) : Prop :=
  q.pageNumber = none ∨ ∀ c, engine.lists q.filters c = false

/-- The first page, which is there even when it is empty. -/
def AsksFirst (q : QueryDict) : Prop :=
  q.pageNumber = some .last ∨ q.pageNumber = some (.number 1)

theorem mem_otherParams {q : QueryDict} {key : String} {values : List String} :
    (key, values) ∈ q.otherParams ↔ key ∈ q.keys ∧ key ≠ "page" ∧ values = q.getlist key := by
  simp only [QueryDict.otherParams, List.mem_map, List.mem_insertionSort, List.mem_filter,
    bne_iff_ne, Prod.mk.injEq]
  constructor
  · rintro ⟨_, ⟨hkey, hpage⟩, rfl, rfl⟩
    exact ⟨hkey, hpage, rfl⟩
  · rintro ⟨hkey, hpage, rfl⟩
    exact ⟨key, ⟨hkey, hpage⟩, rfl, rfl⟩

theorem getlist_eq_nil {q : QueryDict} {key : String} (h : key ∉ q.keys) : q.getlist key = [] := by
  rw [QueryDict.getlist, List.map_eq_nil_iff, List.filter_eq_nil_iff]
  intro item hitem hkey
  refine h (List.mem_dedup.mpr ?_)
  rw [← beq_iff_eq.mp hkey]
  exact List.mem_map_of_mem hitem

/-- The other parameters give all their values. -/
theorem get_of_otherParams {q q' : QueryDict} (h : q.otherParams = q'.otherParams) {key : String}
    (hkey : key ≠ "page") : q.get key = q'.get key := by
  have hlist : q.getlist key = q'.getlist key := by
    by_cases hq : key ∈ q.keys
    · have hmem := mem_otherParams.mpr ⟨hq, hkey, rfl⟩
      rw [h] at hmem
      exact (mem_otherParams.mp hmem).2.2
    · have hq' : key ∉ q'.keys := by
        intro hmem
        have hmem' := mem_otherParams.mpr ⟨hmem, hkey, rfl⟩
        rw [← h] at hmem'
        exact hq (mem_otherParams.mp hmem').1
      rw [getlist_eq_nil hq, getlist_eq_nil hq']
  rw [QueryDict.get, QueryDict.get, hlist]

theorem filters_of_otherParams {q q' : QueryDict} (h : q.otherParams = q'.otherParams) :
    q.filters = q'.filters ∧ q.pageSize = q'.pageSize := by
  have hget : ∀ key, key ≠ "page" → q.get key = q'.get key := fun _ => get_of_otherParams h
  constructor
  · simp only [QueryDict.filters, hget "search" (by decide), hget "country" (by decide),
      hget "province" (by decide), hget "city" (by decide), hget "gender" (by decide),
      hget "ordering" (by decide)]
  · rw [QueryDict.pageSize, QueryDict.pageSize, hget "page_size" (by decide)]

theorem pageSize_pos (q : QueryDict) : 0 < q.pageSize := by
  unfold QueryDict.pageSize QueryDict.defaultPageSize
  split
  · split_ifs with hn
    · decide
    · omega
  · decide

/-- A number that a query asks for is positive. -/
theorem pageNumber_pos {q : QueryDict} {n : ℕ} (h : q.pageNumber = some (.number n)) : 0 < n := by
  unfold QueryDict.pageNumber at h
  simp only at h
  split_ifs at h
  · cases h
    decide
  · cases h
  · split at h
    · split_ifs at h with hn
      cases h
      omega
    · cases h

theorem uncachedList_of_readAlike (engine : QueryEngine) {q q' : QueryDict} (h : ReadAlike q q')
    (table : List R4JCriminal) : uncachedList engine table q = uncachedList engine table q' := by
  obtain ⟨hpage, hothers⟩ := h
  obtain ⟨hfilters, hsize⟩ := filters_of_otherParams hothers
  rw [uncachedList, uncachedList, hpage, hothers, hfilters, hsize]

theorem rows_length (engine : QueryEngine) (filters : Option PublicFilters)
    (table : List R4JCriminal) :
    (engine.rows filters table).length = (table.filter (engine.lists filters)).length :=
  (engine.arrange_perm _ _).length_eq

theorem numPages_empty {size : ℕ} (h : 0 < size) : numPages 0 size = 1 := by
  rw [numPages, Nat.max_eq_left (Nat.zero_le 1), Nat.add_sub_cancel_left, Nat.div_self h]

/-- The answer of a query that matches no row. -/
theorem uncachedList_of_empty {engine : QueryEngine} {table : List R4JCriminal} {q : QueryDict}
    (h : engine.rows q.filters table = []) :
    (AsksFirst q → uncachedList engine table q = .page 0 none none []) ∧
      (¬ AsksFirst q → uncachedList engine table q = .notFound) := by
  have hpages := numPages_empty (pageSize_pos q)
  constructor
  · rintro (hlast | hone)
    · simp [uncachedList, h, hlast, hpages, nextLink, previousLink, PageNumber.resolve]
    · simp [uncachedList, h, hone, hpages, nextLink, previousLink, PageNumber.resolve]
  · intro hnot
    cases hpage : q.pageNumber with
    | none => simp [uncachedList, hpage]
    | some page =>
        cases page with
        | last => exact absurd (Or.inl hpage) hnot
        | number n =>
            have hpos := pageNumber_pos hpage
            have hne : n ≠ 1 := by
              rintro rfl
              exact hnot (Or.inr hpage)
            have hlarge : ¬ n ≤ 1 := by omega
            simp [uncachedList, h, hpage, hpages, hlarge, PageNumber.resolve]

theorem uncachedList_of_showsNone {engine : QueryEngine} {q : QueryDict}
    (h : ShowsNone engine q) (table : List R4JCriminal) :
    (AsksFirst q → uncachedList engine table q = .page 0 none none []) ∧
      (¬ AsksFirst q → uncachedList engine table q = .notFound) := by
  rcases h with hnone | hbarren
  · refine ⟨?_, fun _ => by simp [uncachedList, hnone]⟩
    rintro (hlast | hone)
    · rw [hnone] at hlast
      cases hlast
    · rw [hnone] at hone
      cases hone
  · refine uncachedList_of_empty (List.eq_nil_of_length_eq_zero ?_)
    rw [rows_length, List.length_eq_zero_iff, List.filter_eq_nil_iff]
    intro c _
    simp [hbarren c]

/-- Without a row the first page alone is found. -/
theorem asksFirst_iff {engine : QueryEngine} {q : QueryDict} (h : ShowsNone engine q) :
    AsksFirst q ↔ uncachedList engine [] q ≠ .notFound := by
  obtain ⟨hfirst, hother⟩ := uncachedList_of_showsNone h []
  constructor
  · intro hasks
    rw [hfirst hasks]
    exact nofun
  · intro hfound
    by_contra hnot
    exact hfound (hother hnot)

/-! ## A table that tells queries apart -/

/-- Rows for `k` pages of a query, all of them alike. -/
theorem exists_pages {engine : QueryEngine} {q : QueryDict} {c : R4JCriminal}
    (hc : engine.lists q.filters c = true) {k : ℕ} (hk : 0 < k) :
    ∃ table, numPages (engine.rows q.filters table).length q.pageSize = k := by
  refine ⟨List.replicate (k * q.pageSize) c, ?_⟩
  have hpos := pageSize_pos q
  have hall : (List.replicate (k * q.pageSize) c).filter (engine.lists q.filters) =
      List.replicate (k * q.pageSize) c := by simp [hc]
  have hcount : 1 ≤ k * q.pageSize := Nat.mul_pos hk hpos
  rw [rows_length, hall, List.length_replicate, numPages, Nat.max_eq_right hcount]
  rw [Nat.add_sub_assoc hpos, Nat.mul_comm, Nat.mul_add_div hpos,
    Nat.div_eq_of_lt (Nat.sub_lt hpos Nat.one_pos), Nat.add_zero]

/-- The links of an answer that has a page. -/
theorem links_of_answer {engine : QueryEngine} {table : List R4JCriminal} {q : QueryDict}
    {count : ℕ} {next previous : Option PageLink} {results : List PublicCriminal}
    (h : uncachedList engine table q = .page count next previous results) :
    ∃ page pages, q.pageNumber = some page ∧
      next = nextLink pages (page.resolve pages) q.otherParams ∧
      previous = previousLink (page.resolve pages) q.otherParams := by
  unfold uncachedList at h
  simp only at h
  split at h
  · cases h
  · next page hpage =>
      split_ifs at h
      cases h
      exact ⟨page, _, hpage, rfl, rfl⟩

theorem answer_of_page {engine : QueryEngine} {table : List R4JCriminal} {q : QueryDict}
    {page : PageNumber} (hpage : q.pageNumber = some page) {pages : ℕ}
    (hpages : numPages (engine.rows q.filters table).length q.pageSize = pages)
    (hle : page.resolve pages ≤ pages) :
    ∃ count results, uncachedList engine table q =
      .page count (nextLink pages (page.resolve pages) q.otherParams)
        (previousLink (page.resolve pages) q.otherParams) results := by
  simp only [uncachedList, hpage, hpages, if_pos hle]
  exact ⟨_, _, rfl⟩

theorem previousLink_inj {n m : ℕ} {params params' : List (String × List String)} (hn : 2 < n)
    (h : previousLink n params = previousLink m params') : n = m ∧ params = params' := by
  have hleft : previousLink n params = some ⟨some (n - 1), params⟩ := by
    rw [previousLink, if_neg (by omega), if_neg (by omega)]
  rw [hleft] at h
  unfold previousLink at h
  split_ifs at h with hsmall htwo
  · cases h
  · obtain ⟨hpage, hparams⟩ := PageLink.mk.inj (Option.some.inj h)
    have hnumber := Option.some.inj hpage
    exact ⟨by omega, hparams⟩

/-- A query that shows a row somewhere has links to tell it by. -/
theorem readAlike_of_same {engine : QueryEngine} {q q' : QueryDict}
    (hsame : ∀ table, uncachedList engine table q = uncachedList engine table q')
    (hshows : ¬ ShowsNone engine q) : ReadAlike q q' := by
  obtain ⟨hsome, hmatch⟩ := not_or.mp hshows
  obtain ⟨page, hpage⟩ := Option.ne_none_iff_exists'.mp hsome
  obtain ⟨c, hc⟩ := not_forall.mp hmatch
  rw [Bool.not_eq_false] at hc
  have hlinks : ∀ k, 0 < k → page.resolve k ≤ k → ∃ page' pages', q'.pageNumber = some page' ∧
      nextLink k (page.resolve k) q.otherParams =
        nextLink pages' (page'.resolve pages') q'.otherParams ∧
      previousLink (page.resolve k) q.otherParams =
        previousLink (page'.resolve pages') q'.otherParams := by
    intro k hk hle
    obtain ⟨table, htable⟩ := exists_pages hc hk
    obtain ⟨count, results, hanswer⟩ := answer_of_page hpage htable hle
    rw [hsame table] at hanswer
    exact links_of_answer hanswer
  cases page with
  | number n =>
      -- a page further on: the next link gives the number and the parameters
      obtain ⟨page', pages', hpage', hnext, -⟩ :=
        hlinks (n + 1) (Nat.succ_pos n) (Nat.le_succ n)
      rw [PageNumber.resolve, nextLink, if_pos (Nat.lt_succ_self n)] at hnext
      unfold nextLink at hnext
      split_ifs at hnext with hlt
      obtain ⟨hnumber, hothers⟩ := PageLink.mk.inj (Option.some.inj hnext)
      cases page' with
      | last => exact absurd hlt (Nat.lt_irrefl pages')
      | number n' =>
          have heq : n = n' := Nat.succ.inj (Option.some.inj hnumber)
          exact ⟨by rw [hpage, hpage', heq], hothers⟩
  | last =>
      cases hpage' : q'.pageNumber with
      | none =>
          obtain ⟨page', -, hsome', -⟩ := hlinks 1 Nat.one_pos (Nat.le_refl 1)
          rw [hpage'] at hsome'
          cases hsome'
      | some page' =>
          cases page' with
          | last =>
              obtain ⟨_, _, -, -, hprevious⟩ := hlinks 3 (by decide) (Nat.le_refl 3)
              exact ⟨by rw [hpage, hpage'], (previousLink_inj (by decide) hprevious).2⟩
          | number n' =>
              -- more pages than the number: the last page is another one
              obtain ⟨page', pages', hsome', -, hprevious⟩ :=
                hlinks (n' + 3) (Nat.succ_pos _) (Nat.le_refl _)
              obtain rfl := Option.some.inj (hpage'.symm.trans hsome')
              have hlarge : 2 < PageNumber.last.resolve (n' + 3) := by
                simp only [PageNumber.resolve]
                omega
              have hsame' := (previousLink_inj hlarge hprevious).1
              simp only [PageNumber.resolve] at hsame'
              omega

/-! ## Exactly these pairs -/

/-- **Cache keys.** The answers of two queries under one key agree in every state of the table
exactly if they are read alike, or neither ever shows a row and both or neither ask for the
first page. -/
theorem list_keys_separate_iff (short long : Hexdigest) (engine : QueryEngine) (version : ℕ)
    (q q' : QueryDict) :
    (∀ table, publicPageKey short long version q = publicPageKey short long version q' →
        uncachedList engine table q = uncachedList engine table q') ↔
      (SameTexts q q' → ReadAlike q q' ∨
        (ShowsNone engine q ∧ ShowsNone engine q' ∧ (AsksFirst q ↔ AsksFirst q'))) := by
  rw [publicPageKey_eq_iff]
  constructor
  · intro hseparate htexts
    have hsame : ∀ table, uncachedList engine table q = uncachedList engine table q' :=
      fun table => hseparate table htexts
    by_cases hq : ShowsNone engine q
    · by_cases hq' : ShowsNone engine q'
      · refine Or.inr ⟨hq, hq', ?_⟩
        rw [asksFirst_iff hq, asksFirst_iff hq', hsame []]
      · have halike := readAlike_of_same (fun table => (hsame table).symm) hq'
        exact Or.inl ⟨halike.1.symm, halike.2.symm⟩
    · exact Or.inl (readAlike_of_same hsame hq)
  · intro hread table htexts
    rcases hread htexts with halike | ⟨hq, hq', hfirst⟩
    · exact uncachedList_of_readAlike engine halike table
    · obtain ⟨hpage, hother⟩ := uncachedList_of_showsNone hq table
      obtain ⟨hpage', hother'⟩ := uncachedList_of_showsNone hq' table
      by_cases hasks : AsksFirst q
      · rw [hpage hasks, hpage' (hfirst.mp hasks)]
      · rw [hother hasks, hother' (fun h => hasks (hfirst.mpr h))]

/-! ## A filter written into another -/

/-- Plain text comparison, and the rows as they are. -/
def plainEngine : QueryEngine where
  iexact := fun value filter => value == filter
  smartSearch := fun _ _ => true
  arrange := fun _ rows => rows
  arrange_perm := fun _ rows => List.Perm.refl rows

/-- The number of a character, closed with a letter. -/
def spelledChar (c : Char) : List Char := Nat.toDigits 10 c.toNat ++ ['a']

theorem spelledChar_digit {c d : Char} (h : d ∈ Nat.toDigits 10 c.toNat) : d.isDigit = true :=
  Nat.isDigit_of_mem_toDigits (by decide) (Nat.le_refl 10) h

theorem spelled_inj {cs ds : List Char} (h : cs.flatMap spelledChar = ds.flatMap spelledChar) :
    cs = ds := by
  have hcons : ∀ c rest, (c :: rest : List Char).flatMap spelledChar =
      Nat.toDigits 10 c.toNat ++ 'a' :: rest.flatMap spelledChar := by
    intro c rest
    simp [spelledChar]
  have hletter : ∀ c : Char, 'a' ∉ Nat.toDigits 10 c.toNat :=
    fun c ha => absurd (spelledChar_digit ha) (by decide)
  induction cs generalizing ds with
  | nil =>
      cases ds with
      | nil => rfl
      | cons d ds => simp [hcons] at h
  | cons c cs ih =>
      cases ds with
      | nil => simp [hcons] at h
      | cons d ds =>
          rw [hcons, hcons] at h
          obtain ⟨hhead, htail⟩ := append_cons_inj (hletter c) (hletter d) h
          have hnumber : c.toNat = d.toNat := by
            rw [← Nat.ofDigitChars_ten_toDigits (n := c.toNat), hhead,
              Nat.ofDigitChars_ten_toDigits]
          rw [Char.toNat_inj.mp hnumber, ih htail]

/-- A digest that spells out the numbers of the characters. -/
def spelledHex : Hexdigest where
  digest := fun s => String.ofList (s.toList.flatMap spelledChar)
  injective := by
    intro s t h
    exact String.toList_injective (spelled_inj (String.ofList_injective h))
  hex := by
    intro s c hc
    rw [String.toList_ofList] at hc
    obtain ⟨d, -, hd⟩ := List.mem_flatMap.mp hc
    rcases List.mem_append.mp hd with hdigit | hletter
    · simp [isHexDigit, spelledChar_digit hdigit]
    · rw [List.mem_singleton.mp hletter]
      decide

/-- `?city=tehran|gender=male`. -/
def genderInCity : QueryDict := ⟨[("city", "tehran|gender=male")]⟩

/-- `?city=tehran&gender=male`. -/
def cityAndGender : QueryDict := ⟨[("city", "tehran"), ("gender", "male")]⟩

def tehranCriminal : R4JCriminal :=
  ⟨1, "a-b", "a", "b", .male, "iran", "tehran", "tehran", true, true, 0, 0, [], []⟩

theorem filter_written_into_another :
    ¬ ∀ table, publicPageKey spelledHex spelledHex 1 genderInCity =
        publicPageKey spelledHex spelledHex 1 cityAndGender →
      uncachedList plainEngine table genderInCity = uncachedList plainEngine table cityAndGender := by
  intro h
  have htexts : SameTexts genderInCity cityAndGender := by
    unfold SameTexts
    decide
  have hanswers : uncachedList plainEngine [tehranCriminal] genderInCity ≠
      uncachedList plainEngine [tehranCriminal] cityAndGender := by decide
  exact hanswers (h [tehranCriminal] ((publicPageKey_eq_iff _ _ _ _ _).mpr htexts))

end SetadJang.R4J
