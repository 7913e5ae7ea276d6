import Mathlib.Data.String.Basic
import Mathlib.Data.List.Sort
import SetadJang.Framework.PyFormat

/-!
# Filter signatures of cached list endpoints

The cache key of a public list holds a signature of its filters: the cleaned
values as `name=value`, sorted by name, joined with bars and hashed.  A bar in a
value is not escaped.  A free text can therefore spell out the parts of the
fields that are sorted after it, and exactly the classes whose only free text is
sorted last have signatures that tell all their queries apart.
-/

namespace SetadJang.Core

open SetadJang.Framework

/-! ## Cleaned values -/

inductive Scalar where
  | text (s : String)
  | boolean (b : Bool)
  | number (d : PyDecimal)
  | date (d : PyDate)
  | datetime (t : PyDateTime)
  | range (start stop : Option PyDecimal)
deriving DecidableEq, Repr

/-- A value of `cleaned_data`. -/
inductive CleanValue where
  | none
  | scalar (v : Scalar)
  | list (vs : List Scalar)
deriving DecidableEq, Repr

/-- `value in EMPTY_VALUES`. -/
def CleanValue.isEmpty : CleanValue → Bool
  | .none => true
  | .scalar (.text s) => s == ""
  | .scalar _ => false
  | .list vs => vs.isEmpty

/-- `_encode_filter_value` of a value that is not a list. -/
def Scalar.encode : Scalar → String
  | .text s => s
  | .boolean b => if b then "1" else "0"
  | .number d => String.ofList d.str
  | .date d => String.ofList (d.iso [])
  | .datetime t => String.ofList t.str
  | .range start stop => String.ofList (sliceText start stop)

/-- `_encode_filter_value`. -/
def encodeFilterValue : CleanValue → String
  | .none => "None"
  | .scalar v => v.encode
  | .list vs => ",".intercalate (vs.map Scalar.encode)

/-! ## Filterset classes -/

/-- The form fields behind the filters; `choice` and `multiple` list the values
the class allows. -/
inductive FieldKind where
  | char
  | boolean
  | number
  | date
  | datetime
  | range
  | choice (options : List String)
  | multiple (options : List String)
deriving DecidableEq, Repr

/-- What a field can clean to.  `CharField` strips its text and refuses NUL. -/
def FieldKind.Accepts : FieldKind → CleanValue → Prop
  | .char, v => ∃ s, v = .scalar (.text s) ∧ pyStrip s = s ∧ '\x00' ∉ s.toList
  | .boolean, v => v = .none ∨ ∃ b, v = .scalar (.boolean b)
  | .number, v => v = .none ∨ ∃ d, v = .scalar (.number d)
  | .date, v => v = .none ∨ ∃ d, v = .scalar (.date d)
  | .datetime, v => v = .none ∨ ∃ t, v = .scalar (.datetime t)
  | .range, v => v = .none ∨ ∃ start stop, v = .scalar (.range start stop)
  | .choice options, v => ∃ s, v = .scalar (.text s) ∧ (s = "" ∨ s ∈ options)
  | .multiple options, v =>
      v = .none ∨ ∃ texts : List String, v = .list (texts.map .text) ∧ ∀ s ∈ texts, s ∈ options

/-- Letters, digits, `_` and `-`: what names and choices are written with. -/
def plainChar (c : Char) : Bool := c.isAlphanum || c == '_' || c == '-'

def Plain (s : String) : Prop := s ≠ "" ∧ ∀ c ∈ s.toList, plainChar c = true

instance (s : String) : Decidable (Plain s) :=
  have := List.decidableBAll (fun c => plainChar c = true) s.toList
  inferInstanceAs (Decidable (s ≠ "" ∧ ∀ c ∈ s.toList, plainChar c = true))

def FieldKind.options : FieldKind → List String
  | .choice options => options
  | .multiple options => options
  | _ => []

/-- A kind that lists its choices lists at least one. -/
def FieldKind.HasChoice : FieldKind → Prop
  | .choice options => options ≠ []
  | .multiple options => options ≠ []
  | _ => True

instance : ∀ k : FieldKind, Decidable k.HasChoice
  | .choice options => inferInstanceAs (Decidable (options ≠ []))
  | .multiple options => inferInstanceAs (Decidable (options ≠ []))
  | .char | .boolean | .number | .date | .datetime | .range => isTrue trivial

structure Field where
  name : String
  kind : FieldKind
deriving DecidableEq, Repr

/-- A filterset class: fields with distinct names. -/
structure FilterClass where
  fields : List Field
  names_nodup : (fields.map Field.name).Nodup
  names_plain : ∀ f ∈ fields, Plain f.name
  options_plain : ∀ f ∈ fields, ∀ s ∈ f.kind.options, Plain s
  has_choice : ∀ f ∈ fields, f.kind.HasChoice

/-- The `cleaned_data` of a valid filterset of the class. -/
structure CleanedData (C : FilterClass) where
  get : String → CleanValue
  accepted : ∀ f ∈ C.fields, f.kind.Accepts (get f.name)

/-! ## The signature -/

def noFilters : String := "no_filters"

/-- `sorted(cleaned)`. -/
def FilterClass.sortedNames (C : FilterClass) : List String :=
  (C.fields.map Field.name).mergeSort fun a b => decide (a ≤ b)

/-- The names whose value is not empty. -/
def effectiveNames (names : List String) (get : String → CleanValue) : List String :=
  names.filter fun name => !(get name).isEmpty

def signaturePart (get : String → CleanValue) (name : String) : String :=
  name ++ "=" ++ encodeFilterValue (get name)

/-- `build_filter_signature`; an invalid filterset is `none`. -/
def buildFilterSignature (shortDigest : String → String) {C : FilterClass} :
    Option (CleanedData C) → String
  | none => noFilters
  | some d =>
      let parts := (effectiveNames C.sortedNames d.get).map (signaturePart d.get)
      if parts = [] then noFilters else shortDigest ("|".intercalate parts)

/-- The filters that a query really applies, by name. -/
def effectiveData {C : FilterClass} : Option (CleanedData C) → List (String × CleanValue)
  | none => []
  | some d => (effectiveNames C.sortedNames d.get).map fun name => (name, d.get name)

/-- No two queries of the class that differ share a signature. -/
def SignatureSafe (shortDigest : String → String) (C : FilterClass) : Prop :=
  ∀ fs gs : Option (CleanedData C),
    buildFilterSignature shortDigest fs = buildFilterSignature shortDigest gs →
      effectiveData fs = effectiveData gs

/-- No field is sorted after a free text. -/
def FilterClass.TextLast (C : FilterClass) : Prop :=
  ∀ f ∈ C.fields, f.kind = .char → ∀ g ∈ C.fields, g.name ≤ f.name

instance (C : FilterClass) : Decidable C.TextLast :=
  inferInstanceAs (Decidable (∀ f ∈ C.fields, f.kind = .char → ∀ g ∈ C.fields, g.name ≤ f.name))

/-! ## Encoded values -/

theorem Plain.not_mem {s : String} (h : Plain s) {c : Char} (hc : plainChar c = false) :
    c ∉ s.toList := by
  intro hmem
  rw [h.2 c hmem] at hc
  cases hc

theorem ofList_inj {as bs : List Char} (h : String.ofList as = String.ofList bs) : as = bs := by
  rw [← String.toList_ofList (l := as), h, String.toList_ofList]

theorem encode_texts (texts : List String) :
    encodeFilterValue (.list (texts.map .text)) = ",".intercalate texts := by
  simp [encodeFilterValue, Function.comp_def, Scalar.encode]

/-- Two values of one field with one encoding are one value. -/
theorem encode_inj {k : FieldKind} (hoptions : ∀ s ∈ k.options, Plain s) {v w : CleanValue}
    (hv : k.Accepts v) (hw : k.Accepts w) (hv' : v.isEmpty = false) (hw' : w.isEmpty = false)
    (h : encodeFilterValue v = encodeFilterValue w) : v = w := by
  cases k with
  | char =>
      obtain ⟨s, rfl, -, -⟩ := hv
      obtain ⟨t, rfl, -, -⟩ := hw
      rw [show s = t from h]
  | choice options =>
      obtain ⟨s, rfl, -⟩ := hv
      obtain ⟨t, rfl, -⟩ := hw
      rw [show s = t from h]
  | boolean =>
      obtain rfl | ⟨b, rfl⟩ := hv
      · cases hv'
      obtain rfl | ⟨b', rfl⟩ := hw
      · cases hw'
      cases b <;> cases b' <;> first | rfl | simp [encodeFilterValue, Scalar.encode] at h
  | number =>
      obtain rfl | ⟨d, rfl⟩ := hv
      · cases hv'
      obtain rfl | ⟨e, rfl⟩ := hw
      · cases hw'
      rw [PyDecimal.str_inj (ofList_inj h)]
  | date =>
      obtain rfl | ⟨d, rfl⟩ := hv
      · cases hv'
      obtain rfl | ⟨e, rfl⟩ := hw
      · cases hw'
      rw [(PyDate.iso_inj stops_nil stops_nil (ofList_inj h)).1]
  | datetime =>
      obtain rfl | ⟨t, rfl⟩ := hv
      · cases hv'
      obtain rfl | ⟨u, rfl⟩ := hw
      · cases hw'
      rw [PyDateTime.str_inj (ofList_inj h)]
  | range =>
      obtain rfl | ⟨a, b, rfl⟩ := hv
      · cases hv'
      obtain rfl | ⟨a', b', rfl⟩ := hw
      · cases hw'
      obtain ⟨rfl, rfl⟩ := sliceText_inj (ofList_inj h)
      rfl
  | multiple options =>
      obtain rfl | ⟨ss, rfl, hss⟩ := hv
      · cases hv'
      obtain rfl | ⟨ts, rfl, hts⟩ := hw
      · cases hw'
      have hcomma : ∀ texts : List String, (∀ s ∈ texts, s ∈ options) →
          ∀ s ∈ texts, ',' ∉ s.toList := by
        intro texts htexts s hs
        exact (hoptions s (htexts s hs)).not_mem (by decide)
      have hne : ∀ texts : List String, CleanValue.isEmpty (.list (texts.map .text)) = false →
          texts ≠ [] := by
        rintro texts hempty rfl
        cases hempty
      rw [encode_texts, encode_texts] at h
      rw [join_inj (hcomma ss hss) (hcomma ts hts)
        (iff_of_false (hne ss hv') (hne ts hw')) h]

/-- Only a free text can hold a bar. -/
theorem bar_not_mem {k : FieldKind} (hk : k ≠ .char) (hoptions : ∀ s ∈ k.options, Plain s)
    {v : CleanValue} (hv : k.Accepts v) : '|' ∉ (encodeFilterValue v).toList := by
  have hformatted : ∀ cs : List Char, Formatted cs → '|' ∉ (String.ofList cs).toList := by
    intro cs hcs
    rw [String.toList_ofList]
    exact hcs.not_mem (by decide)
  have hnone : '|' ∉ (encodeFilterValue .none).toList := by decide
  cases k with
  | char => exact absurd rfl hk
  | choice options =>
      obtain ⟨s, rfl, rfl | hs⟩ := hv
      · simp [encodeFilterValue, Scalar.encode]
      · exact (hoptions s hs).not_mem (by decide)
  | boolean =>
      obtain rfl | ⟨b, rfl⟩ := hv
      · exact hnone
      · cases b <;> decide
  | number =>
      obtain rfl | ⟨d, rfl⟩ := hv
      · exact hnone
      · exact hformatted _ d.formatted_str
  | date =>
      obtain rfl | ⟨d, rfl⟩ := hv
      · exact hnone
      · exact hformatted _ (d.formatted_iso formatted_nil)
  | datetime =>
      obtain rfl | ⟨t, rfl⟩ := hv
      · exact hnone
      · exact hformatted _ t.formatted_str
  | range =>
      obtain rfl | ⟨a, b, rfl⟩ := hv
      · exact hnone
      · have hbound : ∀ o, '|' ∉ boundRepr o := by
          intro o
          exact boundRepr_plain o (by decide) (by decide) (by decide) (by decide)
        simp [encodeFilterValue, Scalar.encode, sliceText, hbound]
  | multiple options =>
      obtain rfl | ⟨texts, rfl, htexts⟩ := hv
      · exact hnone
      · rw [encode_texts]
        apply not_mem_join (by decide)
        intro s hs
        exact (hoptions s (htexts s hs)).not_mem (by decide)

/-! ## Reading a signature back -/

theorem sortedNames_mem {C : FilterClass} {name : String} :
    name ∈ C.sortedNames ↔ ∃ f ∈ C.fields, f.name = name := by
  rw [FilterClass.sortedNames, List.mem_mergeSort, List.mem_map]

/-- The sorted names increase. -/
theorem sortedNames_pairwise (C : FilterClass) : C.sortedNames.Pairwise (· < ·) := by
  have hsorted : C.sortedNames.Pairwise fun a b => decide (a ≤ b) = true := by
    apply List.pairwise_mergeSort
    · intro a b c hab hbc
      simp only [decide_eq_true_eq] at hab hbc ⊢
      exact le_trans hab hbc
    · intro a b
      simp only [Bool.or_eq_true, decide_eq_true_eq]
      exact le_total a b
  have hnodup : C.sortedNames.Nodup :=
    (List.mergeSort_perm _ _).nodup_iff.mpr C.names_nodup
  refine (hsorted.and hnodup).imp ?_
  rintro a b ⟨hle, hne⟩
  simp only [decide_eq_true_eq] at hle
  exact lt_of_le_of_ne hle hne

theorem effectiveNames_cons (name : String) (names : List String) (get : String → CleanValue) :
    effectiveNames (name :: names) get =
      if (get name).isEmpty then effectiveNames names get
      else name :: effectiveNames names get := by
  unfold effectiveNames
  cases h : (get name).isEmpty <;> simp [h]

theorem part_toList (get : String → CleanValue) (name : String) :
    (signaturePart get name).toList = name.toList ++ '=' :: (encodeFilterValue (get name)).toList := by
  simp [signaturePart]

/-- A joined text starts with the first name. -/
theorem join_starts (get : String → CleanValue) (name : String) (names : List String) :
    ∃ rest, ("|".intercalate ((name :: names).map (signaturePart get))).toList =
      name.toList ++ '=' :: rest := by
  obtain ⟨rest, hrest⟩ :=
    join_head "|" (signaturePart get name) (names.map (signaturePart get))
  rw [List.map_cons, hrest, part_toList, List.append_assoc, List.cons_append]
  exact ⟨_, rfl⟩

/-- Two parts of one name. -/
theorem part_inj {d e : String → CleanValue} {name : String} (hname : '=' ∉ name.toList)
    (h : signaturePart d name = signaturePart e name) :
    encodeFilterValue (d name) = encodeFilterValue (e name) := by
  have htexts := congrArg String.toList h
  rw [part_toList, part_toList] at htexts
  exact String.toList_injective (append_cons_inj hname hname htexts).2

theorem bar_not_mem_part {d : String → CleanValue} {name : String} (hname : '|' ∉ name.toList)
    (hvalue : '|' ∉ (encodeFilterValue (d name)).toList) :
    '|' ∉ (signaturePart d name).toList := by
  rw [part_toList]
  simp [hname, hvalue]

/-- One side starts with `n`, the other with a later name. -/
theorem join_ne_later (d e : String → CleanValue) {n : String} {names : List String}
    (hafter : ∀ m ∈ names, n < m) (heq : ∀ m ∈ n :: names, '=' ∉ m.toList)
    (hne : effectiveNames names e ≠ []) :
    "|".intercalate ((n :: effectiveNames names d).map (signaturePart d)) ≠
      "|".intercalate ((effectiveNames names e).map (signaturePart e)) := by
  intro hjoin
  obtain ⟨m, ms, hm⟩ := List.exists_cons_of_ne_nil hne
  have hmem : m ∈ names := List.mem_of_mem_filter (hm ▸ List.mem_cons_self)
  rw [hm] at hjoin
  obtain ⟨rest, hrest⟩ := join_starts d n (effectiveNames names d)
  obtain ⟨rest', hrest'⟩ := join_starts e m ms
  rw [hjoin, hrest'] at hrest
  have hnames := (append_cons_inj (heq m (List.mem_cons_of_mem _ hmem))
    (heq n List.mem_cons_self) hrest).1
  exact absurd (String.toList_injective hnames) (ne_of_gt (hafter m hmem))

/-- **Reading back.** The names increase, and only values of the last one may
hold a bar. -/
theorem parts_inj {d e : String → CleanValue} {names : List String}
    (hsorted : names.Pairwise (· < ·)) (heq : ∀ n ∈ names, '=' ∉ n.toList)
    (hbar : ∀ n ∈ names, '|' ∉ n.toList)
    (hinj : ∀ n ∈ names, (d n).isEmpty = false → (e n).isEmpty = false →
      encodeFilterValue (d n) = encodeFilterValue (e n) → d n = e n)
    (hlast : ∀ n ∈ names, ('|' ∉ (encodeFilterValue (d n)).toList ∧
      '|' ∉ (encodeFilterValue (e n)).toList) ∨ ∀ m ∈ names, m ≤ n)
    (hempty : effectiveNames names d = [] ↔ effectiveNames names e = [])
    (h : "|".intercalate ((effectiveNames names d).map (signaturePart d)) =
      "|".intercalate ((effectiveNames names e).map (signaturePart e))) :
    (effectiveNames names d).map (fun n => (n, d n)) =
      (effectiveNames names e).map (fun n => (n, e n)) := by
  induction names with
  | nil => rfl
  | cons n names ih =>
      have hafter := List.pairwise_cons.mp hsorted
      have hrest := ih hafter.2 (fun m hm => heq m (List.mem_cons_of_mem _ hm))
        (fun m hm => hbar m (List.mem_cons_of_mem _ hm))
        (fun m hm => hinj m (List.mem_cons_of_mem _ hm))
        (fun m hm => (hlast m (List.mem_cons_of_mem _ hm)).imp_right
          fun hall k hk => hall k (List.mem_cons_of_mem _ hk))
      rw [effectiveNames_cons, effectiveNames_cons] at hempty h ⊢
      cases hd : (d n).isEmpty with
      | true =>
          cases he : (e n).isEmpty with
          | true =>
              simp only [hd, he, if_true] at hempty h ⊢
              exact hrest hempty h
          | false =>
              simp only [hd, he, if_true, Bool.false_eq_true, if_false] at hempty h
              have hne : effectiveNames names d ≠ [] := by
                intro hnil
                cases hempty.mp hnil
              exact absurd h.symm (join_ne_later e d hafter.1 heq hne)
      | false =>
          cases he : (e n).isEmpty with
          | true =>
              simp only [hd, he, if_true, Bool.false_eq_true, if_false] at hempty h
              have hne : effectiveNames names e ≠ [] := by
                intro hnil
                cases hempty.mpr hnil
              exact absurd h (join_ne_later d e hafter.1 heq hne)
          | false =>
              simp only [hd, he, Bool.false_eq_true, if_false, List.map_cons] at h ⊢
              have hn := heq n List.mem_cons_self
              rcases hlast n List.mem_cons_self with ⟨hbd, hbe⟩ | hall
              · obtain ⟨hpart, hnone, htail⟩ := join_cons_inj
                  (bar_not_mem_part (hbar n List.mem_cons_self) hbd)
                  (bar_not_mem_part (hbar n List.mem_cons_self) hbe) h
                rw [List.map_eq_nil_iff, List.map_eq_nil_iff] at hnone
                rw [hinj n List.mem_cons_self hd he (part_inj hn hpart)]
                rw [hrest hnone htail]
              · -- bars may stand in the value only because nothing follows it
                have hnil : names = [] := by
                  apply List.eq_nil_iff_forall_not_mem.mpr
                  intro m hm
                  exact absurd (hall m (List.mem_cons_of_mem _ hm)) (not_le_of_gt (hafter.1 m hm))
                subst hnil
                simp only [effectiveNames, List.filter_nil, List.map_nil,
                  String.intercalate_singleton] at h ⊢
                rw [hinj n List.mem_cons_self hd he (part_inj hn h)]

section

variable {shortDigest : String → String} (hinj : Function.Injective shortDigest)
  (hhex : ∀ s, shortDigest s ≠ noFilters)

include hinj hhex in
/-- Equal signatures come from equal parts. -/
theorem signature_parts {C : FilterClass} {d e : CleanedData C}
    (h : buildFilterSignature shortDigest (some d) = buildFilterSignature shortDigest (some e)) :
    (effectiveNames C.sortedNames d.get = [] ↔ effectiveNames C.sortedNames e.get = []) ∧
      "|".intercalate ((effectiveNames C.sortedNames d.get).map (signaturePart d.get)) =
        "|".intercalate ((effectiveNames C.sortedNames e.get).map (signaturePart e.get)) := by
  simp only [buildFilterSignature, List.map_eq_nil_iff] at h
  split at h
  · next hd =>
      split at h
      · next he => exact ⟨by simp [hd, he], by rw [hd, he]; rfl⟩
      · exact absurd h.symm (hhex _)
  · next hd =>
      split at h
      · exact absurd h (hhex _)
      · next he => exact ⟨by simp [hd, he], hinj h⟩

include hhex in
/-- Without filters. -/
theorem signature_none {C : FilterClass} {d : CleanedData C}
    (h : buildFilterSignature shortDigest (some d) = noFilters) :
    effectiveNames C.sortedNames d.get = [] := by
  simp only [buildFilterSignature, List.map_eq_nil_iff] at h
  split at h
  · next hd => exact hd
  · exact absurd h (hhex _)

include hinj hhex in
theorem safe_of_textLast {C : FilterClass} (hlast : C.TextLast) : SignatureSafe shortDigest C := by
  intro fs gs h
  cases fs with
  | none =>
      cases gs with
      | none => rfl
      | some e =>
          have hnone := signature_none hhex h.symm
          simp only [effectiveData, hnone, List.map_nil]
  | some d =>
      cases gs with
      | none =>
          have hnone := signature_none hhex h
          simp only [effectiveData, hnone, List.map_nil]
      | some e =>
          obtain ⟨hempty, hjoin⟩ := signature_parts hinj hhex h
          have hplain : ∀ n ∈ C.sortedNames, Plain n := by
            intro n hn
            obtain ⟨f, hf, rfl⟩ := sortedNames_mem.mp hn
            exact C.names_plain f hf
          apply parts_inj (sortedNames_pairwise C)
          · intro n hn
            exact (hplain n hn).not_mem (by decide)
          · intro n hn
            exact (hplain n hn).not_mem (by decide)
          · intro n hn hd he henc
            obtain ⟨f, hf, rfl⟩ := sortedNames_mem.mp hn
            exact encode_inj (C.options_plain f hf) (d.accepted f hf) (e.accepted f hf) hd he henc
          · intro n hn
            obtain ⟨f, hf, rfl⟩ := sortedNames_mem.mp hn
            by_cases hchar : f.kind = .char
            · right
              intro m hm
              obtain ⟨g, hg, rfl⟩ := sortedNames_mem.mp hm
              exact hlast f hf hchar g hg
            · left
              exact ⟨bar_not_mem hchar (C.options_plain f hf) (d.accepted f hf),
                bar_not_mem hchar (C.options_plain f hf) (e.accepted f hf)⟩
          · exact hempty
          · exact hjoin

end

/-! ## A text that spells out another field -/

/-- What an unused field cleans to. -/
def FieldKind.blank : FieldKind → CleanValue
  | .char => .scalar (.text "")
  | .choice _ => .scalar (.text "")
  | _ => .none

/-- A value that a client can send. -/
def FieldKind.sample : FieldKind → CleanValue
  | .char => .scalar (.text "x")
  | .boolean => .scalar (.boolean true)
  | .number => .scalar (.number ⟨false, 0, 0⟩)
  | .date => .scalar (.date ⟨2024, 1, 1⟩)
  | .datetime => .scalar (.datetime ⟨⟨2024, 1, 1⟩, 0, 0, 0, 0, none⟩)
  | .range => .scalar (.range (some ⟨false, 0, 0⟩) none)
  | .choice options => .scalar (.text (options.headD ""))
  | .multiple options => .list [.text (options.headD "")]

theorem blank_accepted (k : FieldKind) : k.Accepts k.blank ∧ k.blank.isEmpty = true := by
  cases k with
  | char => exact ⟨⟨"", rfl, by decide, by decide⟩, rfl⟩
  | choice options => exact ⟨⟨"", rfl, Or.inl rfl⟩, rfl⟩
  | _ => exact ⟨Or.inl rfl, rfl⟩

theorem sample_accepted {k : FieldKind} (hchoice : k.HasChoice)
    (hoptions : ∀ s ∈ k.options, Plain s) : k.Accepts k.sample ∧ k.sample.isEmpty = false := by
  cases k with
  | char => exact ⟨⟨"x", rfl, by decide, by decide⟩, rfl⟩
  | boolean => exact ⟨Or.inr ⟨_, rfl⟩, rfl⟩
  | number => exact ⟨Or.inr ⟨_, rfl⟩, rfl⟩
  | date => exact ⟨Or.inr ⟨_, rfl⟩, rfl⟩
  | datetime => exact ⟨Or.inr ⟨_, rfl⟩, rfl⟩
  | range => exact ⟨Or.inr ⟨_, _, rfl⟩, rfl⟩
  | choice options =>
      cases options with
      | nil => exact absurd rfl hchoice
      | cons s options =>
          have hne := (hoptions s List.mem_cons_self).1
          exact ⟨⟨s, rfl, Or.inr List.mem_cons_self⟩, by simpa [FieldKind.sample, CleanValue.isEmpty]⟩
  | multiple options =>
      cases options with
      | nil => exact absurd rfl hchoice
      | cons s options =>
          refine ⟨Or.inr ⟨[s], rfl, ?_⟩, rfl⟩
          intro t ht
          rw [List.mem_singleton.mp ht]
          exact List.mem_cons_self

theorem plainChar_not_space {c : Char} (h : plainChar c = true) : pyIsSpace c = false := by
  have hbounds : (48 ≤ c.toNat ∧ c.toNat ≤ 57) ∨ (65 ≤ c.toNat ∧ c.toNat ≤ 90) ∨
      (97 ≤ c.toNat ∧ c.toNat ≤ 122) ∨ c.toNat = 95 ∨ c.toNat = 45 := by
    delta plainChar Char.isAlphanum Char.isAlpha Char.isUpper Char.isLower Char.isDigit at h
    simp only [Bool.or_eq_true, Bool.and_eq_true, decide_eq_true_eq, beq_iff_eq,
      UInt32.le_iff_toNat_le, ge_iff_le] at h
    rcases h with (((h | h) | h) | rfl) | rfl
    · exact Or.inr (Or.inl h)
    · exact Or.inr (Or.inr (Or.inl h))
    · exact Or.inl h
    · decide
    · decide
  simp only [pyIsSpace, Bool.or_eq_false_iff, Bool.and_eq_false_imp, decide_eq_true_eq,
    decide_eq_false_iff_not, beq_eq_false_iff_ne]
  omega

/-- The encoded sample can end a free text. -/
theorem sample_text {k : FieldKind} (hchoice : k.HasChoice) (hoptions : ∀ s ∈ k.options, Plain s) :
    (encodeFilterValue k.sample).toList ≠ [] ∧
      (∀ c ∈ (encodeFilterValue k.sample).toList.getLast?, pyIsSpace c = false) ∧
      '\x00' ∉ (encodeFilterValue k.sample).toList := by
  have hplain : ∀ s : String, Plain s → s.toList ≠ [] ∧
      (∀ c ∈ s.toList.getLast?, pyIsSpace c = false) ∧ '\x00' ∉ s.toList := by
    intro s hs
    refine ⟨?_, ?_, hs.not_mem (by decide)⟩
    · intro hnil
      exact hs.1 (String.toList_eq_nil_iff.mp hnil)
    · intro c hc
      exact plainChar_not_space (hs.2 c (List.mem_of_getLast? hc))
  have hlast : ∀ {o : Option Char}, o.all (fun c => !pyIsSpace c) = true →
      ∀ c ∈ o, pyIsSpace c = false := by
    rintro o h c rfl
    simpa using h
  cases k with
  | choice options =>
      cases options with
      | nil => exact absurd rfl hchoice
      | cons s options => exact hplain s (hoptions s List.mem_cons_self)
  | multiple options =>
      cases options with
      | nil => exact absurd rfl hchoice
      | cons s options => exact hplain s (hoptions s List.mem_cons_self)
  | _ => exact ⟨by decide, hlast (by decide), by decide⟩

theorem field_of_name {C : FilterClass} {f g : Field} (hf : f ∈ C.fields) (hg : g ∈ C.fields)
    (h : f.name = g.name) : f = g :=
  List.inj_on_of_nodup_map C.names_nodup hf hg h

def FilterClass.blank (C : FilterClass) (name : String) : CleanValue :=
  ((C.fields.find? fun f => f.name == name).map fun f => f.kind.blank).getD .none

/-- Every field is left out. -/
def FilterClass.blankData (C : FilterClass) : CleanedData C where
  get := C.blank
  accepted f hf := by
    unfold FilterClass.blank
    have hsome : (C.fields.find? fun g => g.name == f.name).isSome = true :=
      List.find?_isSome.mpr ⟨f, hf, by simp⟩
    obtain ⟨g, hg⟩ := Option.isSome_iff_exists.mp hsome
    have hname : g.name = f.name := by simpa using List.find?_some hg
    rw [hg, field_of_name (List.mem_of_find?_eq_some hg) hf hname]
    exact (blank_accepted f.kind).1

theorem blankData_empty (C : FilterClass) (name : String) :
    (C.blankData.get name).isEmpty = true := by
  show (C.blank name).isEmpty = true
  unfold FilterClass.blank
  cases C.fields.find? fun f => f.name == name with
  | none => rfl
  | some f => exact (blank_accepted f.kind).2

/-- One field is sent. -/
def CleanedData.send {C : FilterClass} (d : CleanedData C) (f : Field) (hf : f ∈ C.fields)
    (v : CleanValue) (hv : f.kind.Accepts v) : CleanedData C where
  get := Function.update d.get f.name v
  accepted g hg := by
    by_cases hname : g.name = f.name
    · obtain rfl := field_of_name hg hf hname
      rw [Function.update_self]
      exact hv
    · rw [Function.update_of_ne hname]
      exact d.accepted g hg

theorem effectiveNames_eq {names ns : List String} {get : String → CleanValue}
    (hnames : names.Pairwise (· < ·)) (hns : ns.Pairwise (· < ·))
    (h : ∀ n, n ∈ names ∧ (get n).isEmpty = false ↔ n ∈ ns) : effectiveNames names get = ns := by
  refine (hnames.filter _).eq_of_mem_iff hns ?_
  intro n
  rw [← h n, List.mem_filter, Bool.not_eq_true']

/-- The text `x` followed by the part of another field. -/
def spelledOut (g : Field) : String := "x|" ++ signaturePart (fun _ => g.kind.sample) g.name

theorem spelledOut_accepted {C : FilterClass} {g : Field} (hg : g ∈ C.fields) :
    FieldKind.Accepts .char (.scalar (.text (spelledOut g))) := by
  obtain ⟨hne, hlast, hnul⟩ := sample_text (C.has_choice g hg) (C.options_plain g hg)
  have htext : (spelledOut g).toList =
      'x' :: '|' :: (g.name.toList ++ '=' :: (encodeFilterValue g.kind.sample).toList) := by
    simp [spelledOut, part_toList]
  refine ⟨_, rfl, ?_, ?_⟩
  · apply pyStrip_eq_self
    · intro c hc
      rw [htext] at hc
      cases hc
      decide
    · intro c hc
      apply hlast
      rw [htext, List.getLast?_cons_of_ne_nil (by simp), List.getLast?_cons_of_ne_nil (by simp),
        List.getLast?_append_of_ne_nil _ (by simp), List.getLast?_cons_of_ne_nil hne] at hc
      exact hc
  · rw [htext]
    have hname := (C.names_plain g hg).not_mem (c := '\x00') (by decide)
    simp [hname, hnul]

/-- **A field sorted after a free text can be spelled out in it.** -/
theorem textLast_of_safe {shortDigest : String → String} {C : FilterClass}
    (hsafe : SignatureSafe shortDigest C) : C.TextLast := by
  intro f hf hchar g hg
  by_contra hnot
  have hlt : f.name < g.name := lt_of_not_ge hnot
  obtain ⟨hsample, hnonempty⟩ := sample_accepted (C.has_choice g hg) (C.options_plain g hg)
  -- `d` spells out the part of `g` in the text `f`; `e` sends `x` in `f` and the value in `g`
  let d := C.blankData.send f hf (.scalar (.text (spelledOut g))) (hchar ▸ spelledOut_accepted hg)
  let e := (C.blankData.send f hf (.scalar (.text "x"))
    (hchar ▸ ⟨"x", rfl, by decide, by decide⟩)).send g hg g.kind.sample hsample
  have hd : d.get = Function.update C.blankData.get f.name (.scalar (.text (spelledOut g))) := rfl
  have he : e.get = Function.update (Function.update C.blankData.get f.name (.scalar (.text "x")))
    g.name g.kind.sample := rfl
  have hblank := blankData_empty C
  have hnames : effectiveNames C.sortedNames d.get = [f.name] := by
    apply effectiveNames_eq (sortedNames_pairwise C) (by simp)
    intro n
    rw [hd, List.mem_singleton]
    by_cases hn : n = f.name
    · subst hn
      have hne : spelledOut g ≠ "" := by simp [spelledOut]
      simp [CleanValue.isEmpty, hne, sortedNames_mem.mpr ⟨f, hf, rfl⟩]
    · simp [hblank, hn]
  have hnames' : effectiveNames C.sortedNames e.get = [f.name, g.name] := by
    apply effectiveNames_eq (sortedNames_pairwise C) (by simpa using hlt)
    intro n
    rw [he, List.mem_pair]
    by_cases hng : n = g.name
    · subst hng
      simp [hnonempty, sortedNames_mem.mpr ⟨g, hg, rfl⟩]
    · rw [Function.update_of_ne hng]
      by_cases hn : n = f.name
      · subst hn
        simp [CleanValue.isEmpty, sortedNames_mem.mpr ⟨f, hf, rfl⟩]
      · simp [hblank, hn, hng]
  have hsig : buildFilterSignature shortDigest (some d) =
      buildFilterSignature shortDigest (some e) := by
    have hjoin : "|".intercalate ([f.name].map (signaturePart d.get)) =
        "|".intercalate ([f.name, g.name].map (signaturePart e.get)) := by
      have hfe : e.get f.name = .scalar (.text "x") := by
        rw [he, Function.update_of_ne (ne_of_lt hlt), Function.update_self]
      have hge : e.get g.name = g.kind.sample := by rw [he, Function.update_self]
      have hfd : d.get f.name = .scalar (.text (spelledOut g)) := by rw [hd, Function.update_self]
      apply String.toList_injective
      simp [signaturePart, hfe, hge, hfd, encodeFilterValue, Scalar.encode, spelledOut]
    simp only [buildFilterSignature, hnames, hnames', hjoin]
    simp
  have heq := hsafe (some d) (some e) hsig
  simp [effectiveData, hnames, hnames'] at heq

/-- **Exactly the classes whose only free text is sorted last are safe.** -/
theorem signature_safe_iff (shortDigest : String → String)
    (hinj : Function.Injective shortDigest) (hhex : ∀ s, shortDigest s ≠ noFilters)
    (C : FilterClass) : SignatureSafe shortDigest C ↔ C.TextLast :=
  ⟨textLast_of_safe, safe_of_textLast hinj hhex⟩

/-! ## The classes of the cached endpoints -/

def kindnessListingPublicFilter : FilterClass where
  fields := [⟨"category", .char⟩, ⟨"province", .char⟩, ⟨"city", .char⟩, ⟨"urgent", .boolean⟩,
    ⟨"ordering", .char⟩, ⟨"search", .char⟩]
  names_nodup := by decide
  names_plain := by decide
  options_plain := by decide
  has_choice := by decide

def campaignPublicFilter : FilterClass where
  fields := [⟨"sponsor", .number⟩, ⟨"sponsor_slug", .char⟩,
    ⟨"status", .choice ["published", "completed", "closed"]⟩, ⟨"has_deadline", .boolean⟩,
    ⟨"is_fully_funded", .boolean⟩, ⟨"search", .char⟩]
  names_nodup := by decide
  names_plain := by decide
  options_plain := by decide
  has_choice := by decide

def coursePublicFilter : FilterClass where
  fields := [⟨"category", .char⟩,
    ⟨"level", .choice ["beginner", "intermediate", "advanced", "professional"]⟩,
    ⟨"is_featured", .boolean⟩, ⟨"search", .char⟩]
  names_nodup := by decide
  names_plain := by decide
  options_plain := by decide
  has_choice := by decide

example : ¬ campaignPublicFilter.TextLast ∧ ¬ coursePublicFilter.TextLast := by decide

def lmsCategoryAdminFilter : FilterClass where
  fields := [⟨"is_active", .boolean⟩, ⟨"search", .char⟩]
  names_nodup := by decide
  names_plain := by decide
  options_plain := by decide
  has_choice := by decide

/-- A digest that forgets nothing. -/
def spelledDigest (s : String) : String := "h" ++ s

theorem signature_safe_lmsCategory :
    Function.Injective spelledDigest ∧ SignatureSafe spelledDigest lmsCategoryAdminFilter := by
  have hinj : Function.Injective spelledDigest := by
    intro a b h
    have htexts := congrArg String.toList h
    simp only [spelledDigest, String.toList_append, List.append_right_inj] at htexts
    exact String.toList_injective htexts
  have hhex : ∀ s, spelledDigest s ≠ noFilters := by
    intro s h
    have htexts := congrArg String.toList h
    simp [spelledDigest, noFilters] at htexts
  refine ⟨hinj, (signature_safe_iff spelledDigest hinj hhex lmsCategoryAdminFilter).mpr ?_⟩
  decide

/-- `?category=food|city=Tehran`. -/
def barInCategory : CleanedData kindnessListingPublicFilter :=
  kindnessListingPublicFilter.blankData.send ⟨"category", .char⟩ (by decide)
    (.scalar (.text "food|city=Tehran")) ⟨_, rfl, by decide, by decide⟩

/-- `?category=food&city=Tehran`. -/
def foodInTehran : CleanedData kindnessListingPublicFilter :=
  (kindnessListingPublicFilter.blankData.send ⟨"category", .char⟩ (by decide)
    (.scalar (.text "food")) ⟨_, rfl, by decide, by decide⟩).send ⟨"city", .char⟩ (by decide)
      (.scalar (.text "Tehran")) ⟨_, rfl, by decide, by decide⟩

theorem kindness_sortedNames : kindnessListingPublicFilter.sortedNames =
    ["category", "city", "ordering", "province", "search", "urgent"] := by
  refine (sortedNames_pairwise _).eq_of_mem_iff (by decide) ?_
  intro name
  rw [FilterClass.sortedNames, List.mem_mergeSort]
  simp [kindnessListingPublicFilter]
  tauto

/-- Two different queries with one signature, whatever the digest. -/
theorem kindness_signature_collides :
    (fun shortDigest => buildFilterSignature shortDigest (some barInCategory)) =
        (fun shortDigest => buildFilterSignature shortDigest (some foodInTehran)) ∧
      effectiveData (some barInCategory) ≠ effectiveData (some foodInTehran) := by
  have hbar : effectiveNames kindnessListingPublicFilter.sortedNames barInCategory.get =
      ["category"] := by
    rw [kindness_sortedNames]
    decide
  have hfood : effectiveNames kindnessListingPublicFilter.sortedNames foodInTehran.get =
      ["category", "city"] := by
    rw [kindness_sortedNames]
    decide
  constructor
  · funext shortDigest
    have hjoin : "|".intercalate (["category"].map (signaturePart barInCategory.get)) =
        "|".intercalate (["category", "city"].map (signaturePart foodInTehran.get)) := by
      decide
    simp only [buildFilterSignature, hbar, hfood, hjoin]
    rfl
  · simp [effectiveData, hbar, hfood]

end SetadJang.Core
