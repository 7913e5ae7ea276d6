import SetadJang.Framework.PyCase
import SetadJang.Framework.PyIsoDate
import SetadJang.Framework.PyUnicode
import SetadJang.R4J.Reports

/-!
# Suggested values and the fields of a profile

`field_applicators.py`, and the columns and validators of `R4JCriminal` that its values end in.
A suggestion is a text; an applicator trims it and reads from it the value of the field.  The
applicators do not look at the length of a text, and their digits are more than the digits of
the validator.
-/

namespace SetadJang.R4J

open SetadJang.Framework

/-- A value of a field of the profile. -/
inductive FieldValue where
  | null
  | text (s : String)
  | date (d : PyDate)
deriving DecidableEq, Repr

/-- `Gender.choices`. -/
def genderChoices : List String := ["male", "female", "unknown"]

/-! ## The applicators -/

/-- `_apply_text_field`. -/
def applyTextField (raw : String) : Except String FieldValue := .ok (.text (pyStrip raw))

/-- `_apply_date_field`. -/
def applyDateField (raw : String) : Except String FieldValue :=
  if pyStrip raw = "" then .ok .null
  else
    match fromIsoformat (pyStrip raw).toList with
    | none => .error "فرمت تاریخ باید YYYY-MM-DD باشد."
    | some d => .ok (.date d)

/-- `_apply_gender_field`. -/
def applyGenderField (raw : String) : Except String FieldValue :=
  if pyLower (pyStrip raw) ∈ genderChoices then .ok (.text (pyLower (pyStrip raw)))
  else .error "مقدار جنسیت نامعتبر است. مقادیر مجاز: female, male, unknown"

/-- `_apply_national_code_field`. -/
def applyNationalCodeField (raw : String) : Except String FieldValue :=
  if pyStrip raw = "" then .ok .null
  else if pyIsDigit (pyStrip raw) = false ∨ (pyStrip raw).length ≠ 10 then
    .error "کد ملی باید دقیقاً ۱۰ رقم عددی باشد."
  else .ok (.text (pyStrip raw))

/-- `_FIELD_APPLICATORS`. -/
def fieldApplicators : List (String × (String → Except String FieldValue)) :=
  [("first_name", applyTextField), ("last_name", applyTextField),
    ("national_code", applyNationalCodeField), ("birth_date", applyDateField),
    ("gender", applyGenderField), ("country", applyTextField), ("province", applyTextField),
    ("city", applyTextField), ("description", applyTextField),
    ("crimes_summary", applyTextField), ("other_info", applyTextField)]

/-- `apply_field_to_criminal`: the value it sets, or the reason of its error. -/
def applyFieldToCriminal (fieldName raw : String) : Except String FieldValue :=
  ((fieldApplicators.lookup fieldName).getD applyTextField) raw

/-! ## The columns -/

inductive CriminalColumn where
  | char (maxLength : ℕ) (null : Bool)
  | text
  | date
deriving DecidableEq, Repr

/-- The columns of `R4JCriminal` that a report may change. -/
def criminalColumns : List (String × CriminalColumn) :=
  [("first_name", .char 150 false), ("last_name", .char 150 false),
    ("national_code", .char 10 true), ("birth_date", .date), ("gender", .char 10 false),
    ("country", .char 100 false), ("province", .char 100 false), ("city", .char 100 false),
    ("description", .text), ("crimes_summary", .text), ("other_info", .text)]

/-- What the database stores in a column. -/
def CriminalColumn.accepts : CriminalColumn → FieldValue → Bool
  | .char _ null, .null => null
  | .char maxLength _, .text s => decide (s.length ≤ maxLength)
  | .text, .text _ => true
  | .date, .null => true
  | .date, .date d => decide (IsDate d)
  | _, _ => false

/-- The column of a field takes the value. -/
def columnAccepts (fieldName : String) (value : FieldValue) : Bool :=
  (criminalColumns.lookup fieldName).any fun column => column.accepts value

/-- `validate_iranian_national_code`. -/
def validateIranianNationalCode (value : String) : Bool :=
  value = "" || ((pyStrip value).length == 10 && (pyStrip value).toList.all pyIsDecimal)

/-! ## Values that satisfy their field -/

/-- The trimmed text is a value of the field: it passes the validator or is a choice, and it is
not longer than its column. -/
def Satisfies (fieldName raw : String) : Prop :=
  match criminalColumns.lookup fieldName with
  | some .date => pyStrip raw = "" ∨ (fromIsoformat (pyStrip raw).toList).isSome = true
  | some .text => True
  | some (.char maxLength _) =>
      if fieldName = "gender" then pyLower (pyStrip raw) ∈ genderChoices
      else if fieldName = "national_code" then validateIranianNationalCode (pyStrip raw) = true
      else (pyStrip raw).length ≤ maxLength
  | none => False

/-- The texts that get past their applicator and do not satisfy their field: too long for the
column, or ten digits of which one is no decimal digit. -/
def Slips (fieldName raw : String) : Prop :=
  match criminalColumns.lookup fieldName with
  | some (.char maxLength _) =>
      if fieldName = "gender" then False
      else if fieldName = "national_code" then
        (pyStrip raw).length = 10 ∧ pyIsDigit (pyStrip raw) = true ∧
          ∃ c ∈ (pyStrip raw).toList, pyIsDecimal c = false
      else maxLength < (pyStrip raw).length
  | _ => False

/-! ## What the applicators let through -/

/-- The field is one of the plain texts. -/
structure IsTextField (fieldName : String) : Prop where
  applicator : fieldApplicators.lookup fieldName = some applyTextField
  column : criminalColumns.lookup fieldName = some .text ∨
    ∃ maxLength, criminalColumns.lookup fieldName = some (.char maxLength false)
  notGender : fieldName ≠ "gender"
  notCode : fieldName ≠ "national_code"

theorem city_isTextField : IsTextField "city" := ⟨rfl, .inr ⟨100, rfl⟩, by decide, by decide⟩

theorem field_cases {fieldName : String} (h : fieldName ∈ reportableCriminalFields) :
    fieldName = "birth_date" ∨ fieldName = "gender" ∨ fieldName = "national_code" ∨
      IsTextField fieldName := by
  simp only [reportableCriminalFields, List.mem_cons, List.not_mem_nil, or_false] at h
  rcases h with rfl | rfl | rfl | rfl | rfl | rfl | rfl | rfl | rfl | rfl | rfl
  · exact .inr (.inr (.inr ⟨rfl, .inr ⟨150, rfl⟩, by decide, by decide⟩))
  · exact .inr (.inr (.inr ⟨rfl, .inr ⟨150, rfl⟩, by decide, by decide⟩))
  · exact .inr (.inr (.inl rfl))
  · exact .inl rfl
  · exact .inr (.inl rfl)
  · exact .inr (.inr (.inr ⟨rfl, .inr ⟨100, rfl⟩, by decide, by decide⟩))
  · exact .inr (.inr (.inr ⟨rfl, .inr ⟨100, rfl⟩, by decide, by decide⟩))
  · exact .inr (.inr (.inr ⟨rfl, .inr ⟨100, rfl⟩, by decide, by decide⟩))
  · exact .inr (.inr (.inr ⟨rfl, .inl rfl, by decide, by decide⟩))
  · exact .inr (.inr (.inr ⟨rfl, .inl rfl, by decide, by decide⟩))
  · exact .inr (.inr (.inr ⟨rfl, .inl rfl, by decide, by decide⟩))

theorem IsTextField.apply {fieldName : String} (h : IsTextField fieldName) (raw : String) :
    applyFieldToCriminal fieldName raw = .ok (.text (pyStrip raw)) := by
  unfold applyFieldToCriminal
  rw [h.applicator]
  rfl

theorem IsTextField.slips_iff {fieldName : String} {maxLength : ℕ} (h : IsTextField fieldName)
    (hcolumn : criminalColumns.lookup fieldName = some (.char maxLength false)) (raw : String) :
    Slips fieldName raw ↔ maxLength < (pyStrip raw).length := by
  unfold Slips
  rw [hcolumn]
  dsimp only
  rw [if_neg h.notGender, if_neg h.notCode]

/-- What the applicator of national codes takes. -/
theorem applyNationalCodeField_ok_iff {raw : String} {value : FieldValue} :
    applyNationalCodeField raw = .ok value ↔
      pyStrip raw = "" ∧ value = .null ∨
        pyStrip raw ≠ "" ∧ pyIsDigit (pyStrip raw) = true ∧ (pyStrip raw).length = 10 ∧
          value = .text (pyStrip raw) := by
  unfold applyNationalCodeField
  by_cases hempty : pyStrip raw = ""
  · rw [if_pos hempty]
    constructor
    · intro h
      exact .inl ⟨hempty, (Except.ok.inj h).symm⟩
    · rintro (⟨-, rfl⟩ | ⟨hne, -⟩)
      · rfl
      · exact absurd hempty hne
  · rw [if_neg hempty]
    by_cases hbad : pyIsDigit (pyStrip raw) = false ∨ (pyStrip raw).length ≠ 10
    · rw [if_pos hbad]
      refine iff_of_false (fun h => by cases h) ?_
      rintro (⟨h, -⟩ | ⟨-, hdigits, hlength, -⟩)
      · exact hempty h
      · rcases hbad with h | h
        · rw [hdigits] at h
          cases h
        · exact h hlength
    · rw [if_neg hbad]
      rw [not_or, Bool.not_eq_false, not_not] at hbad
      constructor
      · intro h
        exact .inr ⟨hempty, hbad.1, hbad.2, (Except.ok.inj h).symm⟩
      · rintro (⟨h, -⟩ | ⟨-, -, -, rfl⟩)
        · exact absurd h hempty
        · rfl

theorem pyIsDigit_of_decimals {s : String} (hne : s ≠ "") (h : s.toList.all pyIsDecimal = true) :
    pyIsDigit s = true := by
  have hnil : s.toList ≠ [] := by simpa using hne
  simp only [pyIsDigit, Bool.and_eq_true, Bool.not_eq_true', List.isEmpty_eq_false_iff,
    List.all_eq_true] at h ⊢
  exact ⟨hnil, fun c hc => by simp [pyIsDigitChar, h c hc]⟩

/-- The validator on a text that is trimmed. -/
theorem validate_pyStrip_iff {raw : String} :
    validateIranianNationalCode (pyStrip raw) = true ↔
      pyStrip raw = "" ∨ (pyStrip raw).length = 10 ∧ (pyStrip raw).toList.all pyIsDecimal = true := by
  simp [validateIranianNationalCode]

section fields

variable (raw : String)

theorem apply_birthDate : applyFieldToCriminal "birth_date" raw = applyDateField raw := by
  unfold applyFieldToCriminal
  rw [show fieldApplicators.lookup "birth_date" = some applyDateField from rfl,
    Option.getD_some]

theorem apply_gender : applyFieldToCriminal "gender" raw = applyGenderField raw := by
  unfold applyFieldToCriminal
  rw [show fieldApplicators.lookup "gender" = some applyGenderField from rfl,
    Option.getD_some]

theorem apply_nationalCode :
    applyFieldToCriminal "national_code" raw = applyNationalCodeField raw := by
  unfold applyFieldToCriminal
  rw [show fieldApplicators.lookup "national_code" = some applyNationalCodeField from rfl,
    Option.getD_some]

theorem column_birthDate : criminalColumns.lookup "birth_date" = some .date := rfl

theorem column_gender : criminalColumns.lookup "gender" = some (.char 10 false) := rfl

theorem column_nationalCode : criminalColumns.lookup "national_code" = some (.char 10 true) := rfl

theorem satisfies_birthDate :
    Satisfies "birth_date" raw ↔
      pyStrip raw = "" ∨ (fromIsoformat (pyStrip raw).toList).isSome = true := by
  unfold Satisfies
  rw [column_birthDate]

theorem satisfies_gender :
    Satisfies "gender" raw ↔ pyLower (pyStrip raw) ∈ genderChoices := by
  unfold Satisfies
  rw [column_gender]
  dsimp only
  rw [if_pos rfl]

theorem satisfies_nationalCode :
    Satisfies "national_code" raw ↔ validateIranianNationalCode (pyStrip raw) = true := by
  unfold Satisfies
  rw [column_nationalCode]
  dsimp only
  rw [if_neg (by decide), if_pos rfl]

theorem not_slips_birthDate : ¬ Slips "birth_date" raw := by
  unfold Slips
  rw [column_birthDate]
  exact id

theorem not_slips_gender : ¬ Slips "gender" raw := by
  unfold Slips
  rw [column_gender]
  dsimp only
  rw [if_pos rfl]
  exact id

theorem slips_nationalCode :
    Slips "national_code" raw ↔
      (pyStrip raw).length = 10 ∧ pyIsDigit (pyStrip raw) = true ∧
        ∃ c ∈ (pyStrip raw).toList, pyIsDecimal c = false := by
  unfold Slips
  rw [column_nationalCode]
  dsimp only
  rw [if_neg (by decide), if_pos rfl]

end fields

/-- A national code gets past its applicator with ten digits that are not all decimal. -/
theorem nationalCode_slips_iff (raw : String) :
    Slips "national_code" raw ↔
      (∃ value, applyFieldToCriminal "national_code" raw = .ok value) ∧
        ¬ Satisfies "national_code" raw := by
  rw [slips_nationalCode, apply_nationalCode, satisfies_nationalCode, validate_pyStrip_iff]
  simp only [applyNationalCodeField_ok_iff]
  constructor
  · rintro ⟨hlength, hdigits, c, hc, hother⟩
    have hne : pyStrip raw ≠ "" := by
      intro hempty
      rw [hempty] at hlength
      cases hlength
    refine ⟨⟨_, .inr ⟨hne, hdigits, hlength, rfl⟩⟩, ?_⟩
    rintro (hempty | ⟨-, hall⟩)
    · exact hne hempty
    · rw [List.all_eq_true.mp hall c hc] at hother
      cases hother
  · rintro ⟨⟨value, ⟨hempty, -⟩ | ⟨hne, hdigits, hlength, -⟩⟩, hnot⟩
    · exact absurd (.inl hempty) hnot
    · refine ⟨hlength, hdigits, ?_⟩
      have hall : ¬ (pyStrip raw).toList.all pyIsDecimal = true := fun hall =>
        hnot (.inr ⟨hlength, hall⟩)
      rw [List.all_eq_true] at hall
      push Not at hall
      obtain ⟨c, hc, hother⟩ := hall
      exact ⟨c, hc, Bool.eq_false_iff.mpr hother⟩

/-- **What gets past an applicator.** -/
theorem slips_iff {fieldName : String} (h : fieldName ∈ reportableCriminalFields) (raw : String) :
    Slips fieldName raw ↔
      (∃ value, applyFieldToCriminal fieldName raw = .ok value) ∧ ¬ Satisfies fieldName raw := by
  rcases field_cases h with rfl | rfl | rfl | htext
  · -- a date is read in full
    refine iff_of_false (not_slips_birthDate raw) ?_
    rw [apply_birthDate, satisfies_birthDate]
    rintro ⟨⟨value, hvalue⟩, hnot⟩
    rw [not_or, Bool.not_eq_true, Option.isSome_eq_false_iff, Option.isNone_iff_eq_none] at hnot
    unfold applyDateField at hvalue
    rw [if_neg hnot.1, hnot.2] at hvalue
    cases hvalue
  · refine iff_of_false (not_slips_gender raw) ?_
    rw [apply_gender, satisfies_gender]
    rintro ⟨⟨value, hvalue⟩, hnot⟩
    unfold applyGenderField at hvalue
    rw [if_neg hnot] at hvalue
    cases hvalue
  · exact nationalCode_slips_iff raw
  · have hsome : ∃ value, applyFieldToCriminal fieldName raw = .ok value := ⟨_, htext.apply raw⟩
    rcases htext.column with hcolumn | ⟨maxLength, hcolumn⟩
    · unfold Slips Satisfies
      rw [hcolumn]
      simp
    · rw [htext.slips_iff hcolumn]
      unfold Satisfies
      rw [hcolumn]
      dsimp only
      rw [if_neg htext.notGender, if_neg htext.notCode, not_le]
      exact ⟨fun hlong => ⟨hsome, hlong⟩, And.right⟩

/-- A text fits a column of texts when it is not too long. -/
theorem columnAccepts_char {fieldName : String} {maxLength : ℕ} {null : Bool}
    (h : criminalColumns.lookup fieldName = some (.char maxLength null)) (s : String) :
    columnAccepts fieldName (.text s) = true ↔ s.length ≤ maxLength := by
  rw [columnAccepts, h, Option.any_some, CriminalColumn.accepts, decide_eq_true_eq]

theorem exists_of_satisfies_birthDate {raw : String} (h : Satisfies "birth_date" raw) :
    ∃ value, applyFieldToCriminal "birth_date" raw = .ok value ∧
      columnAccepts "birth_date" value = true := by
  rw [satisfies_birthDate] at h
  rw [apply_birthDate]
  unfold applyDateField columnAccepts
  rw [column_birthDate]
  by_cases hempty : pyStrip raw = ""
  · exact ⟨.null, if_pos hempty, rfl⟩
  · obtain ⟨d, hd⟩ := Option.isSome_iff_exists.mp (h.resolve_left hempty)
    rw [if_neg hempty, hd]
    exact ⟨.date d, rfl, decide_eq_true (isDate_of_fromIsoformat hd)⟩

theorem exists_of_satisfies_gender {raw : String} (h : Satisfies "gender" raw) :
    ∃ value, applyFieldToCriminal "gender" raw = .ok value ∧
      columnAccepts "gender" value = true := by
  rw [satisfies_gender] at h
  have hshort : ∀ choice ∈ genderChoices, choice.length ≤ 10 := by decide
  have hfits := hshort _ h
  refine ⟨.text (pyLower (pyStrip raw)), ?_, (columnAccepts_char column_gender _).mpr hfits⟩
  rw [apply_gender, applyGenderField, if_pos h]

theorem exists_of_satisfies_nationalCode {raw : String} (h : Satisfies "national_code" raw) :
    ∃ value, applyFieldToCriminal "national_code" raw = .ok value ∧
      columnAccepts "national_code" value = true := by
  rw [satisfies_nationalCode, validate_pyStrip_iff] at h
  simp only [apply_nationalCode, applyNationalCodeField_ok_iff]
  by_cases hempty : pyStrip raw = ""
  · refine ⟨.null, .inl ⟨hempty, rfl⟩, ?_⟩
    rw [columnAccepts, column_nationalCode, Option.any_some, CriminalColumn.accepts]
  · obtain ⟨hlength, hall⟩ := h.resolve_left hempty
    exact ⟨.text (pyStrip raw), .inr ⟨hempty, pyIsDigit_of_decimals hempty hall, hlength, rfl⟩,
      (columnAccepts_char column_nationalCode _).mpr hlength.le⟩

/-- A value that satisfies its field has a normal form, which its column takes. -/
theorem exists_of_satisfies {fieldName raw : String} (h : fieldName ∈ reportableCriminalFields)
    (hsatisfies : Satisfies fieldName raw) :
    ∃ value, applyFieldToCriminal fieldName raw = .ok value ∧
      columnAccepts fieldName value = true := by
  rcases field_cases h with rfl | rfl | rfl | htext
  · exact exists_of_satisfies_birthDate hsatisfies
  · exact exists_of_satisfies_gender hsatisfies
  · exact exists_of_satisfies_nationalCode hsatisfies
  · refine ⟨_, htext.apply raw, ?_⟩
    unfold Satisfies at hsatisfies
    rcases htext.column with hcolumn | ⟨maxLength, hcolumn⟩
    · rw [columnAccepts, hcolumn]
      rfl
    · rw [hcolumn] at hsatisfies
      dsimp only at hsatisfies
      rw [if_neg htext.notGender, if_neg htext.notCode] at hsatisfies
      exact (columnAccepts_char hcolumn _).mpr hsatisfies

end SetadJang.R4J
