import SetadJang.Authentication.Otp
import SetadJang.Framework.PyCase
import SetadJang.Framework.PyUnicode

/-!
# Identifier normalizers

`normalize_phone`, `normalize_email` and `normalize_identifier` of
`apps/authentication/normalizers.py`.  They return a canonical form or raise a validation
error with a text.
-/

namespace SetadJang.Authentication

open SetadJang.Framework

/-! ## Phone numbers -/

/-- `^9\d{9}$`. -/
def matchesIranLocalPhone : List Char → Bool
  | '9' :: rest => rest.length == 9 && rest.all pyIsDecimal
  | _ => false

/-- `^\+\d{10,15}$`. -/
def matchesE164 : List Char → Bool
  | '+' :: rest => decide (10 ≤ rest.length) && decide (rest.length ≤ 15) && rest.all pyIsDecimal
  | _ => false

/-- The characters that `[\s\-()]+` removes. -/
def isPhoneFormatting (c : Char) : Bool := pyIsSpace c || c == '-' || c == '(' || c == ')'

/-- A leading `00` stands for `+`. -/
def replaceInternationalZeros : List Char → List Char
  | '0' :: '0' :: rest => '+' :: rest
  | cs => cs

/-- `normalize_phone`. -/
def normalizePhone (value : String) : Except String String :=
  let raw := (pyStrip value).toList
  if raw = [] then .error "شماره موبایل نمی‌تواند خالی باشد."
  else if 20 < raw.length then .error "شماره موبایل بیش از حد طولانی است."
  else
    let cleaned := raw.filter fun c => !isPhoneFormatting c
    if cleaned.length < 10 then .error "شماره موبایل بسیار کوتاه است."
    else
      match replaceInternationalZeros cleaned with
      | '0' :: localPart =>
          if matchesIranLocalPhone localPart then .ok (String.ofList ('+' :: '9' :: '8' :: localPart))
          else .error "شماره موبایل ایرانی نامعتبر است."
      | cleaned =>
          if matchesIranLocalPhone cleaned then .ok (String.ofList ('+' :: '9' :: '8' :: cleaned))
          else if pyIsDigit (String.ofList cleaned) ∧ 10 < cleaned.length ∧
              matchesE164 ('+' :: cleaned) ∧ cleaned.length ≤ 15 then
            .ok (String.ofList ('+' :: cleaned))
          else if matchesE164 cleaned then .ok (String.ofList cleaned)
          else .error "فرمت شماره موبایل نامعتبر است."

theorem matchesE164_cases {cs : List Char} (h : matchesE164 cs = true) :
    ∃ digits, cs = '+' :: digits ∧ 10 ≤ digits.length ∧ digits.length ≤ 15 ∧
      ∀ c ∈ digits, pyIsDecimal c = true := by
  unfold matchesE164 at h
  split at h
  · rename_i digits
    simp only [Bool.and_eq_true, decide_eq_true_eq, List.all_eq_true] at h
    exact ⟨digits, rfl, h.1.1, h.1.2, h.2⟩
  · cases h

theorem matchesE164_iran {cs : List Char} (h : matchesIranLocalPhone cs = true) :
    matchesE164 ('+' :: '9' :: '8' :: cs) = true := by
  unfold matchesIranLocalPhone at h
  split at h
  · rename_i digits
    simp only [Bool.and_eq_true, beq_iff_eq] at h
    have hdecimal : pyIsDecimal '9' = true ∧ pyIsDecimal '8' = true := by decide
    simp only [matchesE164, List.length_cons, h.1, List.all_cons, h.2, hdecimal.1, hdecimal.2]
    decide
  · cases h

theorem not_isPhoneFormatting_of_isDecimal {c : Char} (h : pyIsDecimal c = true) :
    isPhoneFormatting c = false := by
  have hmarks : pyIsDecimal '-' = false ∧ pyIsDecimal '(' = false ∧ pyIsDecimal ')' = false := by
    decide +kernel
  simp only [isPhoneFormatting, not_isSpace_of_isDecimal h, Bool.or_eq_false_iff,
    beq_eq_false_iff_ne, true_and]
  refine ⟨⟨?_, ?_⟩, ?_⟩ <;>
    · rintro rfl
      simp [hmarks] at h

/-- What `normalize_phone` returns is in E.164. -/
theorem matchesE164_normalizePhone {value phone : String} (h : normalizePhone value = .ok phone) :
    matchesE164 phone.toList = true := by
  unfold normalizePhone at h
  dsimp only at h
  split_ifs at h
  split at h
  · rename_i localPart _
    split_ifs at h with hlocal
    rw [← Except.ok.inj h, String.toList_ofList]
    exact matchesE164_iran hlocal
  · split_ifs at h with hlocal hdigits hplus
    · rw [← Except.ok.inj h, String.toList_ofList]
      exact matchesE164_iran hlocal
    · rw [← Except.ok.inj h, String.toList_ofList]
      exact hdigits.2.2.1
    · rw [← Except.ok.inj h, String.toList_ofList]
      exact hplus

/-- A number in E.164 is its own canonical form. -/
theorem normalizePhone_eq_self {phone : String} (h : matchesE164 phone.toList = true) :
    normalizePhone phone = .ok phone := by
  obtain ⟨digits, hphone, hlow, hhigh, hdigits⟩ := matchesE164_cases h
  have hplain : ∀ c ∈ phone.toList, isPhoneFormatting c = false := by
    intro c hc
    rw [hphone] at hc
    rcases List.mem_cons.mp hc with rfl | hc
    · decide
    · exact not_isPhoneFormatting_of_isDecimal (hdigits c hc)
  have hspace : ∀ c ∈ phone.toList, pyIsSpace c = false := by
    intro c hc
    have hc := hplain c hc
    simp only [isPhoneFormatting, Bool.or_eq_false_iff] at hc
    exact hc.1.1.1
  have hstrip : pyStrip phone = phone :=
    pyStrip_eq_self (fun c hc => hspace c (List.mem_of_mem_head? hc))
      fun c hc => hspace c (List.mem_of_mem_getLast? hc)
  have hcleaned : phone.toList.filter (fun c => !isPhoneFormatting c) = phone.toList :=
    List.filter_eq_self.mpr fun c hc => by rw [hplain c hc]; rfl
  unfold normalizePhone
  dsimp only
  rw [hstrip, hcleaned, hphone]
  have hlocal : matchesIranLocalPhone ('+' :: digits) = false := rfl
  have hnodigit : pyIsDigit phone = false := by
    have hplus : pyIsDigitChar '+' = false := by decide +kernel
    simp [pyIsDigit, hphone, hplus]
  have hback : String.ofList ('+' :: digits) = phone := by rw [← hphone, String.ofList_toList]
  rw [hphone] at h
  have hzeros : replaceInternationalZeros ('+' :: digits) = '+' :: digits := rfl
  rw [if_neg (List.cons_ne_nil _ _), if_neg (by rw [List.length_cons]; omega),
    if_neg (by rw [List.length_cons]; omega), hzeros]
  split
  · rename_i heq
    exact absurd (List.cons.inj heq).1 (by decide)
  · simp only [hlocal, hnodigit, Bool.false_eq_true, false_and, if_false, h, if_true, hback]

/-! ## Email addresses -/

/-- `[a-z]` under `IGNORECASE`: besides the ASCII letters, the letters that fold to one. -/
def isEmailLetter (c : Char) : Bool :=
  let n := c.toNat
  (65 ≤ n && n ≤ 90) || (97 ≤ n && n ≤ 122) || n == 0x130 || n == 0x131 || n == 0x17F ||
    n == 0x212A

/-- `[a-z0-9.\-]`. -/
def isEmailDomainChar (c : Char) : Bool :=
  isEmailLetter c || (48 ≤ c.toNat && c.toNat ≤ 57) || c == '.' || c == '-'

/-- `[a-z0-9._%+\-]`. -/
def isEmailLocalChar (c : Char) : Bool := isEmailDomainChar c || c == '_' || c == '%' || c == '+'

/-- `[a-z0-9.\-]+\.[a-z]{2,}$`, read backwards: letters up to the last dot. -/
def matchesEmailDomain (reversed : List Char) : Bool :=
  let ending := reversed.takeWhile (· != '.')
  let host := (reversed.dropWhile (· != '.')).tail
  decide (2 ≤ ending.length) && ending.all isEmailLetter &&
    !host.isEmpty && host.all isEmailDomainChar

/-- `^[a-z0-9._%+\-]+@[a-z0-9.\-]+\.[a-z]{2,}$`, with `$` at the end of the text: a stripped
text has no final newline. -/
def matchesEmail (cs : List Char) : Bool :=
  let localPart := cs.takeWhile (· != '@')
  !localPart.isEmpty && localPart.all isEmailLocalChar &&
    matchesEmailDomain (cs.dropWhile (· != '@')).tail.reverse

/-- `normalize_email`. -/
def normalizeEmail (value : String) : Except String String :=
  let raw := pyStrip value
  if raw.toList = [] then .error "ایمیل نمی‌تواند خالی باشد."
  else if 254 < raw.toList.length then .error "ایمیل بیش از حد طولانی است."
  else
    let lowered := pyLower raw
    if lowered.toList.count '@' ≠ 1 then .error "فرمت ایمیل نامعتبر است."
    else if ¬ matchesEmail lowered.toList then .error "فرمت ایمیل نامعتبر است."
    else .ok lowered

/-- The characters of a canonical address.  Of the letters beyond ASCII, the dotless i and the
long s are left by `str.lower`. -/
def IsEmailChar (c : Char) : Prop :=
  c ∈ "._%+-@".toList ∨ 48 ≤ c.toNat ∧ c.toNat ≤ 57 ∨ 97 ≤ c.toNat ∧ c.toNat ≤ 122 ∨
    c.toNat = 0x131 ∨ c.toNat = 0x17F

theorem isEmailLocalChar_of_matchesEmailDomain {reversed : List Char}
    (h : matchesEmailDomain reversed = true) : ∀ c ∈ reversed, isEmailLocalChar c = true := by
  intro c hc
  simp only [matchesEmailDomain, Bool.and_eq_true, List.all_eq_true] at h
  obtain ⟨⟨⟨-, hending⟩, -⟩, hhost⟩ := h
  rcases mem_split '.' hc with hc | rfl | hc
  · simp [isEmailLocalChar, isEmailDomainChar, hending c hc]
  · decide
  · simp [isEmailLocalChar, hhost c hc]

theorem isEmailLocalChar_of_matchesEmail {cs : List Char} (h : matchesEmail cs = true) :
    ∀ c ∈ cs, c = '@' ∨ isEmailLocalChar c = true := by
  intro c hc
  simp only [matchesEmail, Bool.and_eq_true, List.all_eq_true] at h
  obtain ⟨⟨-, hlocal⟩, hdomain⟩ := h
  rcases mem_split '@' hc with hc | rfl | hc
  · exact Or.inr (hlocal c hc)
  · exact Or.inl rfl
  · exact Or.inr (isEmailLocalChar_of_matchesEmailDomain hdomain c (List.mem_reverse.mpr hc))

theorem normalizeEmail_ok {value email : String} (h : normalizeEmail value = .ok email) :
    email = pyLower (pyStrip value) ∧ matchesEmail email.toList = true := by
  unfold normalizeEmail at h
  dsimp only at h
  split_ifs at h with hempty hlong hcount hmatch
  rw [← Except.ok.inj h]
  exact ⟨rfl, hmatch⟩

/-- What `normalize_email` returns consists of the characters of a canonical address. -/
theorem isEmailChar_normalizeEmail {value email : String} (h : normalizeEmail value = .ok email) :
    ∀ c ∈ email.toList, IsEmailChar c := by
  intro c hc
  obtain ⟨hlowered, hmatch⟩ := normalizeEmail_ok h
  have hlower := hc
  rw [hlowered, pyLower, String.toList_ofList] at hlower
  obtain ⟨hcapital, hdotted, hkelvin⟩ := lowerChars_mem hlower
  rcases isEmailLocalChar_of_matchesEmail hmatch c hc with rfl | hclass
  · exact Or.inl (by decide)
  · simp only [isEmailLocalChar, isEmailDomainChar, isEmailLetter, Bool.or_eq_true,
      Bool.and_eq_true, decide_eq_true_eq, beq_iff_eq] at hclass
    rcases hclass with ((((hcode | rfl) | rfl) | rfl) | rfl) | rfl
    · right
      omega
    all_goals exact Or.inl (by decide)

/-- The code points of a canonical address: in ASCII, and no capital letter, apart from the
dotless i and the long s. -/
theorem code_of_isEmailChar {c : Char} (h : IsEmailChar c) :
    (32 < c.toNat ∧ c.toNat < 128 ∧ (c.toNat < 65 ∨ 90 < c.toNat)) ∨ c.toNat = 0x131 ∨
      c.toNat = 0x17F := by
  rcases h with h | h
  · have hcodes : c.toNat ∈ [46, 95, 37, 43, 45, 64] := List.mem_map_of_mem h
    simp only [List.mem_cons, List.not_mem_nil, or_false] at hcodes
    omega
  · omega

theorem isLowered_of_isEmailChar {c : Char} (h : IsEmailChar c) : IsLowered c := by
  have hcode := code_of_isEmailChar h
  exact ⟨by omega, by omega, mapCode_lower_fixed (by omega)⟩

theorem not_isSpace_of_isEmailChar {c : Char} (h : IsEmailChar c) : pyIsSpace c = false := by
  have hcode := code_of_isEmailChar h
  simp only [pyIsSpace, Bool.or_eq_false_iff, Bool.and_eq_false_iff, decide_eq_false_iff_not,
    beq_eq_false_iff_ne]
  omega

/-- Normalising a canonical address again gives it back, when it gives anything. -/
theorem normalizeEmail_eq_self {value email again : String} (h : normalizeEmail value = .ok email)
    (hagain : normalizeEmail email = .ok again) : again = email := by
  have hchars := isEmailChar_normalizeEmail h
  have hstrip : pyStrip email = email :=
    pyStrip_eq_self
      (fun c hc => not_isSpace_of_isEmailChar (hchars c (List.mem_of_mem_head? hc)))
      fun c hc => not_isSpace_of_isEmailChar (hchars c (List.mem_of_mem_getLast? hc))
  rw [(normalizeEmail_ok hagain).1, hstrip]
  exact pyLower_eq_self fun c hc => isLowered_of_isEmailChar (hchars c hc)

/-! ## Either kind -/

/-- The characters of a text that is taken for a phone number. -/
def phoneAlphabet : List Char := "0123456789+ -()".toList

/-- `detect_identifier_kind`. -/
def detectIdentifierKind (value : String) : Except String PrimaryIdentifierKind :=
  let stripped := pyStrip value
  if stripped.toList = [] then .error "شناسه نمی‌تواند خالی باشد."
  else if '@' ∈ stripped.toList then .ok .email
  else if stripped.toList.all phoneAlphabet.contains then .ok .phone
  else
    .error "نوع شناسه قابل تشخیص نیست. لطفاً ایمیل یا شماره موبایل معتبر وارد کنید."

/-- `normalize_identifier`. -/
def normalizeIdentifier (value : String) : Except String (PrimaryIdentifierKind × String) := do
  match ← detectIdentifierKind value with
  | .email => return (.email, ← normalizeEmail value)
  | .phone => return (.phone, ← normalizePhone value)

/-- A normalised identifier is an address of a text with an at sign, or a number of a text of
phone characters. -/
theorem normalizeIdentifier_ok {value : String} {found : PrimaryIdentifierKind × String}
    (h : normalizeIdentifier value = .ok found) :
    (pyStrip value).toList ≠ [] ∧
      ('@' ∈ (pyStrip value).toList ∧ found.1 = .email ∧ normalizeEmail value = .ok found.2 ∨
        (∀ c ∈ (pyStrip value).toList, c ∈ phoneAlphabet) ∧ found.1 = .phone ∧
          normalizePhone value = .ok found.2) := by
  obtain ⟨kind, hkind, hvalue⟩ := except_bind_ok_iff.mp h
  unfold detectIdentifierKind at hkind
  dsimp only at hkind
  split_ifs at hkind with hempty hat halphabet <;> obtain rfl := Except.ok.inj hkind
  · obtain ⟨address, haddress, hfound⟩ := except_bind_ok_iff.mp hvalue
    obtain rfl := Except.ok.inj hfound
    exact ⟨hempty, Or.inl ⟨hat, rfl, haddress⟩⟩
  · obtain ⟨phone, hphone, hfound⟩ := except_bind_ok_iff.mp hvalue
    obtain rfl := Except.ok.inj hfound
    have hchars : ∀ c ∈ (pyStrip value).toList, c ∈ phoneAlphabet := by
      simpa [List.all_eq_true] using halphabet
    exact ⟨hempty, Or.inr ⟨hchars, rfl, hphone⟩⟩

end SetadJang.Authentication
