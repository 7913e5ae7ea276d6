import SetadJang.Authentication.Normalizers

/-!
# Spellings of a phone number

`normalize_phone` brings the ways to write a number to one form.  Its patterns take the
decimal digits of every script and give them back as they came: a number with Persian
digits is accepted under a form of its own.
-/

namespace SetadJang.Authentication

open SetadJang.Framework

/-! ## The texts that are accepted -/

/-- What is left of a text without blanks, hyphens and parentheses. -/
def phoneChars (value : String) : List Char := value.toList.filter fun c => !isPhoneFormatting c

/-- The accepted forms of a number, each with what is returned for it. -/
inductive PhoneShape : List Char → List Char → Prop
  | national {digits : List Char} (hlength : digits.length = 9)
      (hdigits : ∀ c ∈ digits, pyIsDecimal c = true) :
      PhoneShape ('9' :: digits) ('+' :: '9' :: '8' :: '9' :: digits)
  | trunk {digits : List Char} (hlength : digits.length = 9)
      (hdigits : ∀ c ∈ digits, pyIsDecimal c = true) :
      PhoneShape ('0' :: '9' :: digits) ('+' :: '9' :: '8' :: '9' :: digits)
  | plus {digits : List Char} (hlow : 10 ≤ digits.length) (hhigh : digits.length ≤ 15)
      (hdigits : ∀ c ∈ digits, pyIsDecimal c = true) : PhoneShape ('+' :: digits) ('+' :: digits)
  | zeros {digits : List Char} (hlow : 10 ≤ digits.length) (hhigh : digits.length ≤ 15)
      (hdigits : ∀ c ∈ digits, pyIsDecimal c = true) :
      PhoneShape ('0' :: '0' :: digits) ('+' :: digits)
  | bare {digits : List Char} (hlow : 11 ≤ digits.length) (hhigh : digits.length ≤ 15)
      (hdigits : ∀ c ∈ digits, pyIsDecimal c = true) (hhead : digits.head? ≠ some '0') :
      PhoneShape digits ('+' :: digits)

/-- The text is at most 20 characters long and has one of the accepted forms. -/
def IsPhoneText (value : String) : Prop :=
  (pyStrip value).toList.length ≤ 20 ∧ ∃ phone, PhoneShape (phoneChars value) phone

/-- A decimal digit of the text is not one of ASCII. -/
def HasForeignDigit (value : String) : Prop :=
  ∃ c ∈ value.toList, pyIsDecimal c = true ∧ c.isDigit = false

instance (value : String) : Decidable (HasForeignDigit value) :=
  inferInstanceAs (Decidable (∃ c ∈ value.toList, _))

/-- `+` and 10 to 15 ASCII digits. -/
def IsAsciiE164 (phone : String) : Prop :=
  ∃ digits, phone.toList = '+' :: digits ∧ 10 ≤ digits.length ∧ digits.length ≤ 15 ∧
    ∀ c ∈ digits, c.isDigit = true

/-- Stripping takes formatting characters only. -/
theorem phoneChars_pyStrip (value : String) : phoneChars (pyStrip value) = phoneChars value := by
  have hdrop : ∀ cs : List Char, (cs.dropWhile pyIsSpace).filter (fun c => !isPhoneFormatting c) =
      cs.filter fun c => !isPhoneFormatting c := by
    intro cs
    induction cs with
    | nil => rfl
    | cons c cs ih =>
        cases hc : pyIsSpace c with
        | true =>
            rw [List.dropWhile_cons_of_pos hc, ih, List.filter_cons_of_neg]
            simp [isPhoneFormatting, hc]
        | false => rw [List.dropWhile_cons_of_neg (by simp [hc])]
  rw [phoneChars, phoneChars, pyStrip, String.toList_ofList, List.filter_reverse, hdrop,
    List.filter_reverse, List.reverse_reverse, hdrop]

theorem matchesIranLocalPhone_iff {cs : List Char} :
    matchesIranLocalPhone cs = true ↔
      ∃ digits, cs = '9' :: digits ∧ digits.length = 9 ∧ ∀ c ∈ digits, pyIsDecimal c = true := by
  constructor
  · intro h
    unfold matchesIranLocalPhone at h
    split at h
    · simp only [Bool.and_eq_true, beq_iff_eq, List.all_eq_true] at h
      exact ⟨_, rfl, h.1, h.2⟩
    · cases h
  · rintro ⟨digits, rfl, hlength, hdigits⟩
    simp only [matchesIranLocalPhone, Bool.and_eq_true, beq_iff_eq, List.all_eq_true]
    exact ⟨hlength, hdigits⟩

theorem matchesE164_iff {cs : List Char} :
    matchesE164 cs = true ↔
      ∃ digits, cs = '+' :: digits ∧ 10 ≤ digits.length ∧ digits.length ≤ 15 ∧
        ∀ c ∈ digits, pyIsDecimal c = true := by
  refine ⟨matchesE164_cases, ?_⟩
  rintro ⟨digits, rfl, hlow, hhigh, hdigits⟩
  simp only [matchesE164, Bool.and_eq_true, decide_eq_true_eq, List.all_eq_true]
  exact ⟨⟨hlow, hhigh⟩, hdigits⟩

theorem length_phoneChars_le (value : String) :
    (phoneChars value).length ≤ (pyStrip value).toList.length := by
  rw [← phoneChars_pyStrip]
  exact List.length_filter_le _ _

/-! ## What is returned -/

theorem replaceInternationalZeros_cases (cs : List Char) :
    (∃ rest, cs = '0' :: '0' :: rest ∧ replaceInternationalZeros cs = '+' :: rest) ∨
      (∀ rest, cs ≠ '0' :: '0' :: rest) ∧ replaceInternationalZeros cs = cs := by
  unfold replaceInternationalZeros
  split
  · exact Or.inl ⟨_, rfl, rfl⟩
  · rename_i hother
    exact Or.inr ⟨fun rest h => hother rest h, rfl⟩

theorem not_isDigit_plus (cs : List Char) : pyIsDigit (String.ofList ('+' :: cs)) = false := by
  have hplus : pyIsDigitChar '+' = false := by decide +kernel
  simp [pyIsDigit, hplus]

theorem isDigit_of_decimals {cs : List Char} (hne : cs ≠ [])
    (h : ∀ c ∈ cs, pyIsDecimal c = true) : pyIsDigit (String.ofList cs) = true := by
  simp only [pyIsDigit, String.toList_ofList, Bool.and_eq_true, Bool.not_eq_true',
    List.isEmpty_eq_false_iff, List.all_eq_true]
  refine ⟨hne, fun c hc => ?_⟩
  rw [pyIsDigitChar, h c hc, Bool.true_or]

theorem phoneShape_of_ok {value phone : String} (h : normalizePhone value = .ok phone) :
    (pyStrip value).toList.length ≤ 20 ∧ PhoneShape (phoneChars value) phone.toList := by
  have hcleaned : (pyStrip value).toList.filter (fun c => !isPhoneFormatting c) =
      phoneChars value := phoneChars_pyStrip value
  unfold normalizePhone at h
  simp only [hcleaned] at h
  generalize phoneChars value = cs at h
  split_ifs at h with hempty hmax hshort
  refine ⟨Nat.not_lt.mp hmax, ?_⟩
  split at h
  · rename_i localPart hzeros
    split_ifs at h with hlocal
    obtain rfl := Except.ok.inj h
    obtain ⟨digits, rfl, hlength, hdigits⟩ := matchesIranLocalPhone_iff.mp hlocal
    rw [String.toList_ofList]
    rcases replaceInternationalZeros_cases cs with ⟨rest, -, hplus⟩ | ⟨-, hsame⟩
    · rw [hplus] at hzeros
      exact absurd (List.cons.inj hzeros).1 (by decide)
    · obtain rfl := hsame.symm.trans hzeros
      exact .trunk hlength hdigits
  · rename_i hnot
    rcases replaceInternationalZeros_cases cs with ⟨rest, rfl, hplus⟩ | ⟨-, hsame⟩
    · have hlocal : matchesIranLocalPhone ('+' :: rest) = false := rfl
      rw [hplus, hlocal, not_isDigit_plus] at h
      simp only [Bool.false_eq_true, if_false, false_and] at h
      split_ifs at h with hE164
      obtain rfl := Except.ok.inj h
      obtain ⟨digits, hdigits, hlow, hhigh, hdecimal⟩ := matchesE164_iff.mp hE164
      obtain rfl := (List.cons.inj hdigits).2
      rw [String.toList_ofList]
      exact .zeros hlow hhigh hdecimal
    · rw [hsame] at h hnot
      split_ifs at h with hlocal hbare hE164
      · obtain rfl := Except.ok.inj h
        obtain ⟨digits, rfl, hlength, hdigits⟩ := matchesIranLocalPhone_iff.mp hlocal
        rw [String.toList_ofList]
        exact .national hlength hdigits
      · obtain rfl := Except.ok.inj h
        obtain ⟨-, hlow, hE164, hhigh⟩ := hbare
        obtain ⟨digits, hdigits, -, -, hdecimal⟩ := matchesE164_iff.mp hE164
        obtain rfl := (List.cons.inj hdigits).2
        rw [String.toList_ofList]
        refine .bare hlow hhigh hdecimal ?_
        intro hhead
        obtain ⟨rest, rfl⟩ := List.head?_eq_some_iff.mp hhead
        exact hnot rest rfl
      · obtain rfl := Except.ok.inj h
        rw [String.toList_ofList]
        obtain ⟨digits, rfl, hlow, hhigh, hdecimal⟩ := matchesE164_iff.mp hE164
        exact .plus hlow hhigh hdecimal

theorem PhoneShape.length {cs phone : List Char} (h : PhoneShape cs phone) : 10 ≤ cs.length := by
  cases h <;> simp_all <;> omega

section lengths

variable {value : String} (hmax : (pyStrip value).toList.length ≤ 20)
  (hshort : 10 ≤ (phoneChars value).length)

include hmax hshort

/-- A text of the right length with a trunk zero. -/
theorem normalizePhone_trunk {localPart : List Char}
    (h : replaceInternationalZeros (phoneChars value) = '0' :: localPart) :
    normalizePhone value =
      if matchesIranLocalPhone localPart then .ok (String.ofList ('+' :: '9' :: '8' :: localPart))
      else .error "شماره موبایل ایرانی نامعتبر است." := by
  have hcleaned : (pyStrip value).toList.filter (fun c => !isPhoneFormatting c) =
      phoneChars value := phoneChars_pyStrip value
  have hlong := length_phoneChars_le value
  unfold normalizePhone
  simp only [hcleaned, h]
  rw [if_neg (List.ne_nil_of_length_pos (by omega)), if_neg (by omega), if_neg (by omega)]

/-- A text of the right length without one. -/
theorem normalizePhone_other {cs : List Char}
    (h : replaceInternationalZeros (phoneChars value) = cs) (hnot : cs.head? ≠ some '0') :
    normalizePhone value =
      if matchesIranLocalPhone cs then .ok (String.ofList ('+' :: '9' :: '8' :: cs))
      else if pyIsDigit (String.ofList cs) ∧ 10 < cs.length ∧ matchesE164 ('+' :: cs) ∧
          cs.length ≤ 15 then
        .ok (String.ofList ('+' :: cs))
      else if matchesE164 cs then .ok (String.ofList cs)
      else .error "فرمت شماره موبایل نامعتبر است." := by
  have hcleaned : (pyStrip value).toList.filter (fun c => !isPhoneFormatting c) =
      phoneChars value := phoneChars_pyStrip value
  have hlong := length_phoneChars_le value
  unfold normalizePhone
  simp only [hcleaned, h]
  rw [if_neg (List.ne_nil_of_length_pos (by omega)), if_neg (by omega), if_neg (by omega)]
  split
  · exact absurd rfl hnot
  · rfl

/-- A number that begins with `+` is returned as it stands. -/
theorem ok_of_plus {digits : List Char}
    (hplus : replaceInternationalZeros (phoneChars value) = '+' :: digits)
    (hlow : 10 ≤ digits.length) (hhigh : digits.length ≤ 15)
    (hdigits : ∀ c ∈ digits, pyIsDecimal c = true) :
    normalizePhone value = .ok (String.ofList ('+' :: digits)) := by
  have hlocal : matchesIranLocalPhone ('+' :: digits) = false := rfl
  rw [normalizePhone_other hmax hshort hplus (by simp), hlocal, not_isDigit_plus]
  simp only [Bool.false_eq_true, if_false, false_and]
  rw [if_pos (matchesE164_iff.mpr ⟨_, rfl, hlow, hhigh, hdigits⟩)]

end lengths

theorem ok_of_phoneShape {value : String} {phone : List Char}
    (hmax : (pyStrip value).toList.length ≤ 20) (h : PhoneShape (phoneChars value) phone) :
    normalizePhone value = .ok (String.ofList phone) := by
  have hshort := h.length
  generalize hcs : phoneChars value = cs at h
  -- the two forms that begin with `+` after the replacement of the zeros
  have hplus : ∀ digits, replaceInternationalZeros cs = '+' :: digits → 10 ≤ digits.length →
      digits.length ≤ 15 → (∀ c ∈ digits, pyIsDecimal c = true) →
      normalizePhone value = .ok (String.ofList ('+' :: digits)) := fun digits hreplaced =>
    ok_of_plus hmax hshort (hcs ▸ hreplaced)
  cases h with
  | plus hlow hhigh hdigits => exact hplus _ rfl hlow hhigh hdigits
  | zeros hlow hhigh hdigits => exact hplus _ rfl hlow hhigh hdigits
  | @national digits hlength hdigits =>
      have hsame : replaceInternationalZeros (phoneChars value) = '9' :: digits := by
        rw [hcs]
        rfl
      rw [normalizePhone_other hmax hshort hsame (by simp),
        if_pos (matchesIranLocalPhone_iff.mpr ⟨_, rfl, hlength, hdigits⟩)]
  | @trunk digits hlength hdigits =>
      have hsame : replaceInternationalZeros (phoneChars value) = '0' :: '9' :: digits := by
        rw [hcs]
        rfl
      rw [normalizePhone_trunk hmax hshort hsame,
        if_pos (matchesIranLocalPhone_iff.mpr ⟨_, rfl, hlength, hdigits⟩)]
  | bare hlow hhigh hdigits hhead =>
      rcases replaceInternationalZeros_cases cs with ⟨rest, rfl, -⟩ | ⟨-, hsame⟩
      · exact absurd rfl hhead
      have hlocal : ¬ matchesIranLocalPhone cs = true := by
        intro hmatch
        obtain ⟨digits, rfl, hlength, -⟩ := matchesIranLocalPhone_iff.mp hmatch
        rw [List.length_cons] at hlow
        omega
      rw [normalizePhone_other hmax hshort (by rw [hcs, hsame]) hhead, if_neg hlocal, if_pos]
      exact ⟨isDigit_of_decimals (List.ne_nil_of_length_pos (by omega)) hdigits, hlow,
        matchesE164_iff.mpr ⟨_, rfl, by omega, hhigh, hdigits⟩, hhigh⟩

/-- **Accepted texts.** -/
theorem normalizePhone_ok_iff {value phone : String} :
    normalizePhone value = .ok phone ↔
      (pyStrip value).toList.length ≤ 20 ∧ PhoneShape (phoneChars value) phone.toList := by
  constructor
  · exact phoneShape_of_ok
  · rintro ⟨hmax, hshape⟩
    rw [ok_of_phoneShape hmax hshape, String.ofList_toList]

/-! ## One form for one number -/

/-- The digits of the returned number are those of the text. -/
theorem PhoneShape.foreign_iff {cs phone : List Char} (h : PhoneShape cs phone) :
    (∃ c ∈ phone, pyIsDecimal c = true ∧ c.isDigit = false) ↔
      ∃ c ∈ cs, pyIsDecimal c = true ∧ c.isDigit = false := by
  have hplus : pyIsDecimal '+' = false := by decide +kernel
  have hascii : ('0'.isDigit = true ∧ '8'.isDigit = true) ∧ '9'.isDigit = true := by decide
  cases h <;> simp [hplus, hascii]

theorem PhoneShape.matchesE164 {cs phone : List Char} (h : PhoneShape cs phone) :
    matchesE164 phone = true := by
  cases h with
  | national hlength hdigits =>
      exact matchesE164_iran (matchesIranLocalPhone_iff.mpr ⟨_, rfl, hlength, hdigits⟩)
  | trunk hlength hdigits =>
      exact matchesE164_iran (matchesIranLocalPhone_iff.mpr ⟨_, rfl, hlength, hdigits⟩)
  | plus hlow hhigh hdigits => exact matchesE164_iff.mpr ⟨_, rfl, hlow, hhigh, hdigits⟩
  | zeros hlow hhigh hdigits => exact matchesE164_iff.mpr ⟨_, rfl, hlow, hhigh, hdigits⟩
  | bare hlow hhigh hdigits => exact matchesE164_iff.mpr ⟨_, rfl, by omega, hhigh, hdigits⟩

theorem isAsciiE164_iff {phone : String} (h : matchesE164 phone.toList = true) :
    IsAsciiE164 phone ↔ ¬ ∃ c ∈ phone.toList, pyIsDecimal c = true ∧ c.isDigit = false := by
  have hplus : pyIsDecimal '+' = false := by decide +kernel
  obtain ⟨digits, hphone, hlow, hhigh, hdecimal⟩ := matchesE164_cases h
  rw [hphone]
  constructor
  · rintro ⟨digits', hdigits', -, -, hascii⟩ ⟨c, hc, hdigit, hforeign⟩
    obtain rfl := (List.cons.inj (hphone.symm.trans hdigits')).2
    rcases List.mem_cons.mp hc with rfl | hc
    · rw [hplus] at hdigit
      cases hdigit
    · rw [hascii c hc] at hforeign
      cases hforeign
  · intro hnone
    refine ⟨digits, hphone, hlow, hhigh, fun c hc => ?_⟩
    by_contra hforeign
    exact hnone ⟨c, List.mem_cons_of_mem _ hc, hdecimal c hc, Bool.eq_false_iff.mpr hforeign⟩

/-- The blanks and marks that are taken out are no digits. -/
theorem hasForeignDigit_iff {value : String} :
    HasForeignDigit value ↔
      ∃ c ∈ phoneChars value, pyIsDecimal c = true ∧ c.isDigit = false := by
  constructor
  · rintro ⟨c, hc, hdecimal, hforeign⟩
    have hplain := not_isPhoneFormatting_of_isDecimal hdecimal
    exact ⟨c, List.mem_filter.mpr ⟨hc, by rw [hplain]; rfl⟩, hdecimal, hforeign⟩
  · rintro ⟨c, hc, hforeign⟩
    exact ⟨c, List.mem_of_mem_filter hc, hforeign⟩

/-- What precedes the nine of a mobile number in its spellings. -/
def iranPrefixes : List (List Char) :=
  [[], ['0'], ['9', '8'], ['+', '9', '8'], ['0', '0', '9', '8']]

/-- The value is the mobile number with one of the prefixes and blanks, hyphens and parentheses
anywhere. -/
def IsSpelling (value : String) (digits : List Char) : Prop :=
  ∃ before ∈ iranPrefixes, phoneChars value = before ++ '9' :: digits

theorem phoneShape_of_isSpelling {value : String} {digits : List Char} (hlength : digits.length = 9)
    (hdigits : ∀ c ∈ digits, pyIsDecimal c = true) (h : IsSpelling value digits) :
    PhoneShape (phoneChars value) ('+' :: '9' :: '8' :: '9' :: digits) := by
  have height : pyIsDecimal '9' = true ∧ pyIsDecimal '8' = true := by decide
  have hall : ∀ c ∈ '9' :: '8' :: '9' :: digits, pyIsDecimal c = true := by
    simp only [List.forall_mem_cons]
    exact ⟨height.1, height.2, height.1, hdigits⟩
  have hlow : 11 ≤ ('9' :: '8' :: '9' :: digits).length := by simp [hlength]
  have hhigh : ('9' :: '8' :: '9' :: digits).length ≤ 15 := by simp [hlength]
  obtain ⟨before, hbefore, hchars⟩ := h
  rw [hchars]
  simp only [iranPrefixes, List.mem_cons, List.not_mem_nil, or_false] at hbefore
  rcases hbefore with rfl | rfl | rfl | rfl | rfl
  · exact .national hlength hdigits
  · exact .trunk hlength hdigits
  · exact .bare hlow hhigh hall (by simp)
  · exact .plus (Nat.le_of_succ_le hlow) hhigh hall
  · exact .zeros (Nat.le_of_succ_le hlow) hhigh hall

/-- What is asked of a text: when it is accepted, the result is in E.164 with ASCII digits and
its own canonical form. -/
def IsCanonicalOn (value : String) : Prop :=
  ∀ phone, normalizePhone value = .ok phone → IsAsciiE164 phone ∧ normalizePhone phone = .ok phone

theorem isCanonicalOn_iff (value : String) :
    IsCanonicalOn value ↔ ¬ (IsPhoneText value ∧ HasForeignDigit value) := by
  constructor
  · rintro hcanonical ⟨⟨hmax, phone, hshape⟩, hforeign⟩
    obtain ⟨hascii, -⟩ := hcanonical _ (ok_of_phoneShape hmax hshape)
    rw [isAsciiE164_iff (by rw [String.toList_ofList]; exact hshape.matchesE164),
      String.toList_ofList, hshape.foreign_iff, ← hasForeignDigit_iff] at hascii
    exact hascii hforeign
  · intro hnone phone hphone
    have hE164 := matchesE164_normalizePhone hphone
    obtain ⟨hmax, hshape⟩ := phoneShape_of_ok hphone
    refine ⟨?_, normalizePhone_eq_self hE164⟩
    rw [isAsciiE164_iff hE164, hshape.foreign_iff, ← hasForeignDigit_iff]
    exact fun hforeign => hnone ⟨⟨hmax, _, hshape⟩, hforeign⟩

/-- **One phone number, one value.**  The result is canonical exactly when the text is not that
of a number with a digit of another script.  The spellings of a mobile number all give its
form with the prefix `+98`. -/
theorem normalizePhone_canonical (value : String) :
    (IsCanonicalOn value ↔ ¬ (IsPhoneText value ∧ HasForeignDigit value)) ∧
      ∀ digits : List Char, digits.length = 9 → (∀ c ∈ digits, pyIsDecimal c = true) →
        value.toList.length ≤ 20 → IsSpelling value digits →
          normalizePhone value = .ok (String.ofList ('+' :: '9' :: '8' :: '9' :: digits)) := by
  refine ⟨isCanonicalOn_iff value, ?_⟩
  intro digits hlength hdigits hmax hspelling
  have hstrip := length_pyStrip_le value
  exact ok_of_phoneShape (by omega) (phoneShape_of_isSpelling hlength hdigits hspelling)

/-- A number with Persian digits is accepted under a form of its own, apart from that of the
same number in ASCII. -/
theorem normalizePhone_persian :
    normalizePhone "9۱۲۳۴۵۶۷۸۹" = .ok "+989۱۲۳۴۵۶۷۸۹" ∧
      normalizePhone "9123456789" = .ok "+989123456789" ∧ ¬ IsCanonicalOn "9۱۲۳۴۵۶۷۸۹" := by
  have hpersian : normalizePhone "9۱۲۳۴۵۶۷۸۹" = .ok "+989۱۲۳۴۵۶۷۸۹" := by decide +kernel
  refine ⟨hpersian, by decide +kernel, fun hcanonical => ?_⟩
  obtain ⟨⟨digits, hphone, -, -, hascii⟩, -⟩ := hcanonical _ hpersian
  have hmem : '۱' ∈ digits := by
    have : '۱' ∈ '+' :: digits := by
      rw [← hphone]
      decide
    exact (List.mem_cons.mp this).resolve_left (by decide)
  exact absurd (hascii _ hmem) (by decide)

theorem normalizePhone_canonical_spaced :
    normalizePhone "0098 (912) 345-6789" = .ok "+989123456789" :=
  (normalizePhone_canonical _).2 "123456789".toList rfl (List.all_eq_true.mp rfl) (by decide)
    ⟨['0', '0', '9', '8'], by decide, by decide +kernel⟩

end SetadJang.Authentication
