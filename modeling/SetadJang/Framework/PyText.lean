import Mathlib.Data.List.Infix

/-!
# Python text operations

The few `str` methods the modelled code calls, as the language documents them.
-/

namespace SetadJang.Framework

/-- `str.isspace` of one character: the code points Python strips by default. -/
def pyIsSpace (c : Char) : Bool :=
  let n := c.toNat
  (9 ≤ n && n ≤ 13) || (28 ≤ n && n ≤ 32) || n == 0x85 || n == 0xA0 || n == 0x1680 ||
    (0x2000 ≤ n && n ≤ 0x200A) || n == 0x2028 || n == 0x2029 || n == 0x202F ||
    n == 0x205F || n == 0x3000

/-- `s.lstrip(chars)`, the characters given by a predicate. -/
def pyLStrip (strip : Char → Bool) (s : String) : String :=
  String.ofList (s.toList.dropWhile strip)

/-- `s.rstrip(chars)`, the characters given by a predicate. -/
def pyRStrip (strip : Char → Bool) (s : String) : String :=
  String.ofList (s.toList.reverse.dropWhile strip).reverse

/-- `s.strip()`. -/
def pyStrip (s : String) : String :=
  String.ofList ((s.toList.dropWhile pyIsSpace).reverse.dropWhile pyIsSpace).reverse

def pyStartsWith (s start : String) : Bool := start.toList.isPrefixOf s.toList

def pyEndsWith (s ending : String) : Bool := ending.toList.isSuffixOf s.toList

/-- `not s.strip()`: nothing is left once white space is stripped. -/
def pyIsBlank (s : String) : Bool := s.toList.all pyIsSpace

/-! ## Splitting texts -/

/-- `s.split(sep)` for one character. -/
def pySplit (sep : Char) : List Char → List (List Char)
  | [] => [[]]
  | c :: cs =>
      match pySplit sep cs with
      | [] => [[c]]
      | part :: parts => if c = sep then [] :: part :: parts else (c :: part) :: parts

/-- `s.partition(sep)` for one character; the flag says whether it was found. -/
def pyPartition (sep : Char) (s : List Char) : List Char × Bool × List Char :=
  (s.takeWhile (· != sep), s.contains sep, (s.dropWhile (· != sep)).tail)

/-- `s.rpartition(sep)` for one character. -/
def pyRPartition (sep : Char) (s : List Char) : List Char × Bool × List Char :=
  match pyPartition sep s.reverse with
  | (after, found, before) => (before.reverse, found, after.reverse)

/-! ## Parts of a text -/

theorem pySplit_ne_nil (sep : Char) (cs : List Char) : pySplit sep cs ≠ [] := by
  cases cs with
  | nil => exact List.cons_ne_nil _ _
  | cons c cs =>
      rw [pySplit]
      split
      · exact List.cons_ne_nil _ _
      · split <;> exact List.cons_ne_nil _ _

theorem pySplit_sep (sep : Char) (cs : List Char) : pySplit sep (sep :: cs) = [] :: pySplit sep cs := by
  rw [pySplit]
  split
  · next h => exact absurd h (pySplit_ne_nil sep cs)
  · next part parts h => rw [if_pos rfl, h]

theorem pySplit_other {sep c : Char} (hc : c ≠ sep) (cs : List Char) :
    ∃ part parts, pySplit sep cs = part :: parts ∧ pySplit sep (c :: cs) = (c :: part) :: parts := by
  rw [pySplit]
  split
  · next h => exact absurd h (pySplit_ne_nil sep cs)
  · next part parts h => exact ⟨part, parts, h, if_neg hc⟩

theorem pySplit_append_sep (sep : Char) (as bs : List Char) :
    pySplit sep (as ++ sep :: bs) = pySplit sep as ++ pySplit sep bs := by
  induction as with
  | nil => exact pySplit_sep sep bs
  | cons c as ih =>
      by_cases hc : c = sep
      · subst hc
        rw [List.cons_append, pySplit_sep, pySplit_sep, ih, List.cons_append]
      · obtain ⟨part, parts, hrest, hall⟩ := pySplit_other hc (as ++ sep :: bs)
        obtain ⟨part', parts', hrest', hall'⟩ := pySplit_other hc as
        rw [ih, hrest', List.cons_append] at hrest
        obtain ⟨rfl, rfl⟩ := List.cons.inj hrest
        rw [List.cons_append, hall, hall', List.cons_append]

theorem pySplit_of_not_mem {sep : Char} {cs : List Char} (h : sep ∉ cs) : pySplit sep cs = [cs] := by
  induction cs with
  | nil => rfl
  | cons c cs ih =>
      rw [List.mem_cons, not_or] at h
      obtain ⟨part, parts, hrest, hall⟩ := pySplit_other (Ne.symm h.1) cs
      rw [ih h.2] at hrest
      obtain ⟨rfl, rfl⟩ := List.cons.inj hrest
      exact hall

/-- A character other than the separator is in the text just when it is in a part. -/
theorem mem_pySplit {sep c : Char} (hc : c ≠ sep) {cs : List Char} :
    c ∈ cs ↔ ∃ part ∈ pySplit sep cs, c ∈ part := by
  induction cs with
  | nil => simp [pySplit]
  | cons d cs ih =>
      by_cases hd : d = sep
      · subst hd
        simp [pySplit_sep, hc, ih]
      · obtain ⟨part, parts, hrest, hall⟩ := pySplit_other hd cs
        rw [hall, List.mem_cons, ih, hrest]
        simp [or_assoc]

/-- It occurs in the text as often as in the parts together. -/
theorem count_pySplit {sep c : Char} (hc : c ≠ sep) (cs : List Char) :
    cs.count c = (pySplit sep cs).flatten.count c := by
  induction cs with
  | nil => rfl
  | cons d cs ih =>
      by_cases hd : d = sep
      · subst hd
        rw [pySplit_sep, List.flatten_cons, List.nil_append, List.count_cons_of_ne hc.symm, ih]
      · obtain ⟨part, parts, hrest, hall⟩ := pySplit_other hd cs
        rw [hall, List.count_cons, ih, hrest]
        simp only [List.flatten_cons, List.count_append, List.count_cons]
        omega

/-- The separator occurs between the parts. -/
theorem count_sep_pySplit (sep : Char) (cs : List Char) :
    cs.count sep + 1 = (pySplit sep cs).length := by
  induction cs with
  | nil => rfl
  | cons d cs ih =>
      by_cases hd : d = sep
      · subst hd
        rw [pySplit_sep, List.count_cons_self, List.length_cons, ih]
      · obtain ⟨part, parts, hrest, hall⟩ := pySplit_other hd cs
        rw [hrest] at ih
        rw [hall, List.count_cons_of_ne hd, List.length_cons, ih, List.length_cons]

/-- The parts of a joined text are the parts of what was joined. -/
theorem pySplit_join (sep : Char) {texts : List String} (hne : texts ≠ []) :
    pySplit sep ((String.singleton sep).intercalate texts).toList =
      texts.flatMap fun text => pySplit sep text.toList := by
  induction texts with
  | nil => exact absurd rfl hne
  | cons text texts ih =>
      by_cases hnil : texts = []
      · rw [hnil, String.intercalate_singleton, List.flatMap_cons, List.flatMap_nil, List.append_nil]
      · rw [String.intercalate_cons_of_ne_nil hnil, List.flatMap_cons, ← ih hnil,
          String.toList_append, String.toList_append, String.toList_singleton, List.append_assoc,
          List.singleton_append, pySplit_append_sep]

/-- Blanks around a text without any are stripped. -/
theorem pyStrip_padded {before after : List Char} {cs : List Char}
    (hbefore : ∀ c ∈ before, pyIsSpace c = true) (hafter : ∀ c ∈ after, pyIsSpace c = true)
    (hne : cs ≠ []) (hcs : ∀ c ∈ cs, pyIsSpace c = false) :
    pyStrip (String.ofList (before ++ (cs ++ after))) = String.ofList cs := by
  have hkeep : ∀ (ds rest : List Char), ds ≠ [] → (∀ c ∈ ds, pyIsSpace c = false) →
      (ds ++ rest).dropWhile pyIsSpace = ds ++ rest := by
    intro ds rest hds hspace
    cases ds with
    | nil => exact absurd rfl hds
    | cons d ds =>
        rw [List.cons_append, List.dropWhile_cons_of_neg]
        simp [hspace d List.mem_cons_self]
  rw [pyStrip, String.toList_ofList, List.dropWhile_append_of_pos hbefore, hkeep cs after hne hcs,
    List.reverse_append, List.dropWhile_append_of_pos (by simpa using hafter)]
  have hback := hkeep cs.reverse [] (by simpa using hne) (by simpa using hcs)
  rw [List.append_nil] at hback
  rw [hback, List.reverse_reverse]

/-! ## Numbers in texts -/

/-- The decimal numeral of a number holds digits only. -/
theorem not_mem_str {c : Char} (hc : c.isDigit = false) (n : ℕ) : c ∉ (toString n).toList := by
  intro hmem
  rw [Nat.toString_eq_repr, Nat.toList_repr] at hmem
  have hdigit := Nat.isDigit_of_mem_toDigits (by decide) (Nat.le_refl 10) hmem
  rw [hc] at hdigit
  cases hdigit

theorem colon_not_mem_str (n : ℕ) : ':' ∉ (toString n).toList := not_mem_str rfl n

theorem str_inj {m n : ℕ} (h : (toString m).toList = (toString n).toList) : m = n := by
  rw [Nat.toString_eq_repr, Nat.toString_eq_repr, Nat.toList_repr, Nat.toList_repr] at h
  rw [← Nat.ofDigitChars_ten_toDigits (n := m), h, Nat.ofDigitChars_ten_toDigits]

/-- A separator that occurs in neither first part splits a text in one way. -/
theorem append_cons_inj {α : Type} {c : α} {as bs as' bs' : List α} (ha : c ∉ as)
    (ha' : c ∉ as') (h : as ++ c :: bs = as' ++ c :: bs') : as = as' ∧ bs = bs' := by
  rcases List.append_eq_append_iff.mp h with ⟨mid, rfl, hmid⟩ | ⟨mid, rfl, hmid⟩
  · cases mid with
    | nil => exact ⟨by simp, by simpa using hmid⟩
    | cons d mid =>
        obtain ⟨rfl, -⟩ := List.cons.inj hmid
        simp at ha'
  · cases mid with
    | nil => exact ⟨by simp, by simpa using hmid.symm⟩
    | cons d mid =>
        obtain ⟨rfl, -⟩ := List.cons.inj hmid
        simp at ha

/-- What a text holds stands before its first separator, is the separator, or stands after. -/
theorem mem_split {α : Type} [DecidableEq α] (sep : α) {c : α} {cs : List α} (h : c ∈ cs) :
    c ∈ cs.takeWhile (· != sep) ∨ c = sep ∨ c ∈ (cs.dropWhile (· != sep)).tail := by
  induction cs with
  | nil => exact absurd h List.not_mem_nil
  | cons d cs ih =>
      by_cases hd : d = sep
      · subst hd
        rcases List.mem_cons.mp h with rfl | hc
        · exact Or.inr (Or.inl rfl)
        · right
          right
          simpa using hc
      · have htake : (d :: cs).takeWhile (· != sep) = d :: cs.takeWhile (· != sep) := by simp [hd]
        have hdrop : (d :: cs).dropWhile (· != sep) = cs.dropWhile (· != sep) := by simp [hd]
        rw [htake, hdrop]
        rcases List.mem_cons.mp h with rfl | hc
        · exact Or.inl List.mem_cons_self
        · exact (ih hc).imp_left (List.mem_cons_of_mem _)

/-! ## Joined texts -/

/-- A joined text starts with its first part. -/
theorem join_head (sep x : String) (xs : List String) :
    ∃ rest, (sep.intercalate (x :: xs)).toList = x.toList ++ rest := by
  by_cases hxs : xs = []
  · rw [hxs, String.intercalate_singleton]
    exact ⟨[], (List.append_nil _).symm⟩
  · rw [String.intercalate_cons_of_ne_nil hxs, String.toList_append, String.toList_append,
      List.append_assoc]
    exact ⟨_, rfl⟩

/-- A character of neither the separator nor a part is not in the joined text. -/
theorem not_mem_join {c : Char} {sep : String} (hsep : c ∉ sep.toList) {xs : List String}
    (hxs : ∀ x ∈ xs, c ∉ x.toList) : c ∉ (sep.intercalate xs).toList := by
  induction xs with
  | nil => simp
  | cons x xs ih =>
      have hx := hxs x List.mem_cons_self
      have hrest := ih fun y hy => hxs y (List.mem_cons_of_mem _ hy)
      by_cases hnil : xs = []
      · rw [hnil, String.intercalate_singleton]
        exact hx
      · rw [String.intercalate_cons_of_ne_nil hnil, String.toList_append, String.toList_append,
          List.mem_append, List.mem_append]
        rintro ((hmem | hmem) | hmem)
        · exact hx hmem
        · exact hsep hmem
        · exact hrest hmem

/-- `sep.join`: a first part without the separator is read back in one way. -/
theorem join_cons_inj {c : Char} {x y : String} {xs ys : List String} (hx : c ∉ x.toList)
    (hy : c ∉ y.toList)
    (h : (String.singleton c).intercalate (x :: xs) = (String.singleton c).intercalate (y :: ys)) :
    x = y ∧ (xs = [] ↔ ys = []) ∧
      (String.singleton c).intercalate xs = (String.singleton c).intercalate ys := by
  have hmem : ∀ {z : String} {zs : List String}, zs ≠ [] →
      ((String.singleton c).intercalate (z :: zs)).toList =
        z.toList ++ c :: ((String.singleton c).intercalate zs).toList := by
    intro z zs hzs
    rw [String.intercalate_cons_of_ne_nil hzs]
    simp
  by_cases hxs : xs = []
  · by_cases hys : ys = []
    · subst hxs hys
      rw [String.intercalate_singleton, String.intercalate_singleton] at h
      exact ⟨h, Iff.rfl, rfl⟩
    · exfalso
      apply hx
      subst hxs
      rw [String.intercalate_singleton] at h
      rw [h, hmem hys]
      simp
  · by_cases hys : ys = []
    · exfalso
      apply hy
      subst hys
      rw [String.intercalate_singleton] at h
      rw [← h, hmem hxs]
      simp
    · have htexts := congrArg String.toList h
      rw [hmem hxs, hmem hys] at htexts
      obtain ⟨hhead, htail⟩ := append_cons_inj hx hy htexts
      exact ⟨String.toList_injective hhead, iff_of_false hxs hys, String.toList_injective htail⟩

/-- Parts without the separator are read back from the joined text. -/
theorem join_inj {c : Char} {xs ys : List String} (hx : ∀ x ∈ xs, c ∉ x.toList)
    (hy : ∀ y ∈ ys, c ∉ y.toList) (hempty : xs = [] ↔ ys = [])
    (h : (String.singleton c).intercalate xs = (String.singleton c).intercalate ys) : xs = ys := by
  induction xs generalizing ys with
  | nil => exact (hempty.mp rfl).symm
  | cons x xs ih =>
      cases ys with
      | nil => exact hempty.mpr rfl
      | cons y ys =>
          obtain ⟨rfl, hrest, htail⟩ :=
            join_cons_inj (hx x List.mem_cons_self) (hy y List.mem_cons_self) h
          rw [ih (fun z hz => hx z (List.mem_cons_of_mem _ hz))
            (fun z hz => hy z (List.mem_cons_of_mem _ hz)) hrest htail]

/-- A last part without the separator is read back in one way. -/
theorem join_concat_inj {c : Char} {xs ys : List String} {x y : String} (hxs : xs ≠ [])
    (hys : ys ≠ []) (hx : c ∉ x.toList) (hy : c ∉ y.toList)
    (h : (String.singleton c).intercalate (xs ++ [x]) =
      (String.singleton c).intercalate (ys ++ [y])) :
    (String.singleton c).intercalate xs = (String.singleton c).intercalate ys ∧ x = y := by
  rw [String.intercalate_append_of_ne_nil hxs (by simp),
    String.intercalate_append_of_ne_nil hys (by simp), String.intercalate_singleton,
    String.intercalate_singleton] at h
  have htexts := congrArg (fun text : String => text.toList.reverse) h
  simp only [String.toList_append, String.toList_singleton, List.reverse_append,
    List.singleton_append, List.reverse_cons, List.append_assoc] at htexts
  obtain ⟨hlast, hfront⟩ := append_cons_inj (by simpa using hx) (by simpa using hy) htexts
  exact ⟨String.toList_injective (List.reverse_injective hfront),
    String.toList_injective (List.reverse_injective hlast)⟩

/-! ## Texts that end their parts -/

/-- One separator at the end is what `rstrip` takes from a last part without it. -/
theorem pyRStrip_append_singleton {c : Char} {s : String} {cs part : List Char}
    (hs : s.toList = cs ++ part ++ [c]) (hpart : part ≠ []) (hc : c ∉ part) :
    (pyRStrip (· == c) s).toList = cs ++ part := by
  obtain ⟨front, last, rfl⟩ := List.eq_nil_or_concat part |>.resolve_left hpart
  have hlast : last ≠ c := by
    rintro rfl
    simp at hc
  simp [pyRStrip, hs, hlast]

/-- Parts that each end with a separator they do not hold: a text begins with the text of
others just when its parts begin with theirs. -/
theorem terminated_prefix_iff {α : Type} {c : α} {xs ys : List (List α)} (hx : ∀ x ∈ xs, c ∉ x)
    (hy : ∀ y ∈ ys, c ∉ y) :
    xs.flatMap (· ++ [c]) <+: ys.flatMap (· ++ [c]) ↔ xs <+: ys := by
  refine ⟨fun h => ?_, fun h => h.flatMap _⟩
  induction xs generalizing ys with
  | nil => exact List.nil_prefix
  | cons x xs ih =>
      cases ys with
      | nil => simp at h
      | cons y ys =>
          obtain ⟨rest, hrest⟩ := h
          simp only [List.flatMap_cons, List.append_assoc, List.singleton_append] at hrest
          obtain ⟨rfl, htail⟩ := append_cons_inj (hx x List.mem_cons_self)
            (hy y List.mem_cons_self) hrest
          refine List.cons_prefix_cons.mpr ⟨rfl, ih (fun z hz => hx z (List.mem_cons_of_mem _ hz))
            (fun z hz => hy z (List.mem_cons_of_mem _ hz)) ⟨rest, htail⟩⟩

/-- A text that neither starts nor ends with white space is stripped already. -/
theorem pyStrip_eq_self {s : String} (hhead : ∀ c ∈ s.toList.head?, pyIsSpace c = false)
    (hlast : ∀ c ∈ s.toList.getLast?, pyIsSpace c = false) : pyStrip s = s := by
  have hkeep : ∀ cs : List Char, (∀ c ∈ cs.head?, pyIsSpace c = false) →
      cs.dropWhile pyIsSpace = cs := by
    intro cs hcs
    cases cs with
    | nil => rfl
    | cons c cs => rw [List.dropWhile_cons_of_neg (by simp [hcs c rfl])]
  unfold pyStrip
  rw [hkeep _ hhead, hkeep _ (by rwa [List.head?_reverse]), List.reverse_reverse, String.ofList_toList]

/-- What is left after leading characters are dropped starts with none of them. -/
theorem head?_dropWhile_neg (p : Char → Bool) (cs : List Char) :
    ∀ c ∈ (cs.dropWhile p).head?, p c = false := by
  induction cs with
  | nil => simp
  | cons d cs ih =>
      cases hd : p d with
      | true =>
          rw [List.dropWhile_cons_of_pos hd]
          exact ih
      | false =>
          rw [List.dropWhile_cons_of_neg (by simp [hd])]
          intro c hc
          obtain rfl := Option.some.inj hc
          exact hd

/-- A stripped text is stripped. -/
@[simp] theorem pyStrip_pyStrip (s : String) : pyStrip (pyStrip s) = pyStrip s := by
  refine pyStrip_eq_self ?_ ?_ <;> rw [pyStrip, String.toList_ofList]
  · -- the start is that of the text stripped on the left, or nothing is left of it
    have hsuffix := List.dropWhile_suffix pyIsSpace (l := (s.toList.dropWhile pyIsSpace).reverse)
    have hprefix := List.reverse_prefix.mpr hsuffix
    rw [List.reverse_reverse] at hprefix
    intro c hc
    obtain ⟨rest, hrest⟩ := hprefix
    refine head?_dropWhile_neg pyIsSpace s.toList c ?_
    rw [← hrest, List.head?_append]
    exact Option.or_eq_some_iff.mpr (Or.inl hc)
  · intro c hc
    rw [List.getLast?_reverse] at hc
    exact head?_dropWhile_neg pyIsSpace _ c hc

theorem length_pyStrip_le (s : String) :
    (pyStrip s).toList.length ≤ s.toList.length := by
  have hdrop : ∀ cs : List Char, (cs.dropWhile pyIsSpace).length ≤ cs.length := fun cs =>
    (List.dropWhile_suffix _).length_le
  have hfirst := hdrop s.toList
  have hlast := hdrop (s.toList.dropWhile pyIsSpace).reverse
  rw [List.length_reverse] at hlast
  rw [pyStrip, String.toList_ofList, List.length_reverse]
  omega

end SetadJang.Framework
