import SetadJang.Framework.Normalization
import SetadJang.Framework.PyFold
import SetadJang.Framework.PyUnicode

/-!
# The password policy

`BesatPasswordPolicyValidator`: the length and the classes of characters are read from the
password as typed, the runs, the keyboard rows, the years of birth, the platform tokens and the
list of weak passwords from its normal form.
-/

namespace SetadJang.Authentication

open SetadJang.Framework

/-! ## Normal forms for comparison -/

def minPasswordLength : ℕ := 10

def minCharacterClasses : ℕ := 3

def maxMonotonicRun : ℕ := 4

def asciiDigits : List Char := ['0', '1', '2', '3', '4', '5', '6', '7', '8', '9']

def persianDigits : List Char := ['۰', '۱', '۲', '۳', '۴', '۵', '۶', '۷', '۸', '۹']

def arabicDigits : List Char := ['٠', '١', '٢', '٣', '٤', '٥', '٦', '٧', '٨', '٩']

/-- `_DIGIT_TRANSLATION`: one enumeration runs over the digits of both scripts. -/
def digitTranslation : List (Char × List Char) :=
  (persianDigits ++ arabicDigits).zipIdx.map fun entry => (entry.1, Nat.toDigits 10 entry.2)

/-- `text.translate(_DIGIT_TRANSLATION)`. -/
def translate (text : List Char) : List Char :=
  text.flatMap fun c => (digitTranslation.lookup c).getD [c]

/-- `_NOISE_CHARS`. -/
def noiseChars : List Char :=
  [' ', '.', '_', '-', '!', '@', '#', '$', '%', '^', '&', '*', '+', '=', '~', '\x60', '\x27',
    '\x22', '\\', '/', '|', ':', ';', '<', '>', '(', ')', '[', ']', '\x7b', '\x7d']

/-- Characters that normalisation leaves alone: ASCII and the digits of the two scripts. -/
def Plain (c : Char) : Prop := c.toNat < 128 ∨ c ∈ persianDigits ++ arabicDigits

/-- The decimal digits of ASCII and of the two scripts. -/
def IsPolicyDigit (c : Char) : Prop :=
  c ∈ asciiDigits ++ (persianDigits ++ arabicDigits)

instance (c : Char) : Decidable (Plain c) := inferInstanceAs (Decidable (_ ∨ _))

/-- A text of plain characters. -/
def isPlainText (text : List Char) : Bool := text.all fun c => decide (Plain c)

theorem plain_of_isPlainText {text : List Char} (h : isPlainText text = true) :
    ∀ c ∈ text, Plain c := fun c hc => of_decide_eq_true (List.all_eq_true.mp h c hc)

/-- What the policy reads from the database of `unicodedata`, and what that says of the
characters above. -/
structure UnicodeData extends CharacterData where
  isLower : Char → Bool
  isUpper : Char → Bool
  isAlnum : Char → Bool
  inert : toCharacterData.Inert Plain
  digit_compose : ∀ c d, IsPolicyDigit c ∨ IsPolicyDigit d → compose c d = none
  isLower_plain : ∀ c, Plain c → isLower c = c.isLower
  isUpper_plain : ∀ c, Plain c → isUpper c = c.isUpper
  isAlnum_plain : ∀ c, Plain c → isAlnum c = (c.isAlpha || pyIsDecimal c)
  /-- A letter of either case is not decomposed into noise. -/
  cased_decompose : ∀ c, (isLower c || isUpper c) = true → ∃ d ∈ decompose c, d ∉ noiseChars
  /-- Noise is no primary composite. -/
  noise_compose : ∀ c d e, compose c d = some e → e ∉ noiseChars

/-- The least database: nothing is decomposed, and beyond ASCII there are digits only. -/
def plainData : UnicodeData where
  decompose c := [c]
  combiningClass _ := 0
  compose _ _ := none
  isLower := Char.isLower
  isUpper := Char.isUpper
  isAlnum c := c.isAlpha || pyIsDecimal c
  inert := ⟨fun _ _ => rfl, fun _ _ => rfl, fun _ _ _ _ => rfl⟩
  digit_compose _ _ _ := rfl
  isLower_plain _ _ := rfl
  isUpper_plain _ _ := rfl
  isAlnum_plain _ _ := rfl
  cased_decompose c hcased := by
    have hnoise : (noiseChars.all fun d => !(d.isLower || d.isUpper)) = true := by decide +kernel
    refine ⟨c, List.mem_singleton_self c, fun hmem => ?_⟩
    have hc := List.all_eq_true.mp hnoise c hmem
    rw [hcased] at hc
    cases hc
  noise_compose _ _ _ h := absurd h (Option.some_ne_none _).symm

/-- What `_normalize_for_policy` does after the normal form KC. -/
def plainForm (text : List Char) : List Char :=
  ((translate text).filter fun ch => !noiseChars.contains ch).flatMap foldChar

/-- `_normalize_for_policy`. -/
def normalizeForPolicy (data : UnicodeData) (raw : String) : List Char :=
  plainForm (data.nfkc raw.toList)

/-! ## Detectors -/

/-- `itertools.pairwise`. -/
def pairwise {α : Type} (value : List α) : List (α × α) := value.zip value.tail

/-- The longest run of neighbours that are related; both loops count this way. -/
def longestRun (related : Char → Char → Bool) (longest : ℕ) (value : List Char) : ℕ :=
  ((pairwise value).foldl (fun (runs : ℕ × ℕ) (pair : Char × Char) =>
    let current := if related pair.1 pair.2 then runs.2 + 1 else 1
    (max runs.1 current, current)) (longest, 1)).1

/-- `_run_length`. -/
def runLength (value : List Char) : ℕ := longestRun (fun prev next => next == prev) 1 value

/-- `_monotonic_run_length`. -/
def monotonicRunLength (value : List Char) : ℕ :=
  if value.length < maxMonotonicRun then value.length
  else
    [1, -1].foldl (fun longest (step : ℤ) =>
      longestRun (fun prev next => (next.toNat : ℤ) - prev.toNat == step) longest value) 1

def keyboardRows : List (List Char) :=
  ["qwertyuiop".toList, "asdfghjkl".toList, "zxcvbnm".toList]

/-- `part in text`. -/
def isSubstring (part text : List Char) : Bool := text.tails.any part.isPrefixOf

/-- `_on_keyboard_row`. -/
def onKeyboardRow (value : List Char) : Bool :=
  keyboardRows.any fun row =>
    [row, row.reverse].any fun direction =>
      (List.range (value.length + 1 - maxMonotonicRun)).any fun i =>
        isSubstring ((value.drop i).take maxMonotonicRun) direction

/-- `_SOLAR_BIRTH_YEAR.search`: `13[0-9]\x7b2\x7d` stands somewhere. -/
def solarBirthYear (value : List Char) : Bool :=
  value.tails.any fun
    | '1' :: '3' :: c :: d :: _ => c.isDigit && d.isDigit
    | _ => false

def platformTokens : List (List Char) :=
  ["setadjang".toList, "setad".toList, "jang".toList, "besat".toList]

/-- The lines of `data/weak_passwords.txt`. -/
def weakPasswords : List String :=
  ["# ============================================================",
    "# Blacklist رمزهای عبور — یافتۀ P2-8 فاز 8",
    "# ------------------------------------------------------------",
    "# مقایسه روی شکلِ NORMALIZE-شدهٔ رمز انجام می‌شود (ارقامِ فارسی→ASCII،",
    "# حذفِ فاصله/نمادهای جداکننده، lowercase)؛ پس اینجا هم فقط شکلِ خامِ",
    "# نرمال‌شده ذخیره شود. خطِ # کامنت است.", "#",
    "# منبع: دسته‌بندیِ دستی از رایج‌ترین‌های انگلیسی + فینگلیشِ ایرانی +",
    "# نام‌های سازمانی. با به‌روزرسانیِ سالانه (top-1000 انگلیسی) قابلِ گسترش است.",
    "# ============================================================", "", "# ── انگلیسیِ عمومی ──",
    "password", "password1", "password123", "password1234", "passw0rd", "p@ssw0rd", "p@ssword1",
    "iloveyou", "iloveyou1", "letmein", "letmein1", "welcome", "welcome1", "welcome123", "admin",
    "admin1", "admin123", "administrator", "root", "toor", "monkey", "monkey123", "dragon",
    "dragon1", "sunshine", "princess", "football", "baseball", "superman", "batman", "trustno1",
    "whatever", "qwerty", "qwerty123", "qwertyuiop", "qwer1234", "qwerasdf", "asdfghjkl",
    "zxcvbnm", "abc123", "abcd1234", "111111", "121212", "123123", "12345678", "123456789",
    "1234567890", "0987654321", "654321", "password1!", "changeme", "default", "user", "guest",
    "test", "test123", "temp", "temp123", "secret", "company", "",
    "# ── فینگلیشِ ایرانی (رایج‌ترینِ الگوها) ──", "khodahafez", "khoda", "khoda1360", "bache",
    "bargh", "maman", "maman1360", "pedar", "hamegi", "gosna", "ghahve", "chayi", "birinj",
    "delaram", "azizam", "eshgh", "eshghe", "noor", "setare", "negar", "sara1370", "sara1372",
    "ali1370", "ali1375", "reza1365", "mohammad1370", "hossein1363", "zahra1375", "fateme1378",
    "iman1372", "amir1374", "nazanin", "parisa", "sahar", "tehran", "iran", "iran1370", "irancell",
    "melli", "saman", "samane", "yeki1234", "", "# ── سازمانی ──", "setadjang", "setad", "jang",
    "besat", "setad1403", "setad1404", "besat1390", "omarmoazzam"]

def isComment (line : String) : Bool := pyStartsWith line "#"

/-- `_load_blacklist`: the lines are stripped, not normalised. -/
def blacklist : List (List Char) :=
  (weakPasswords.filter fun line => !pyIsBlank line && !isComment line).map fun line =>
    (pyStrip line).toList

/-! ## The validator -/

/-- `ValidationError`: its message and its code. -/
structure PasswordError where
  message : String
  code : String
  deriving DecidableEq, Repr

/-- `if found: raise error`. -/
def raiseIf (found : Bool) (error : PasswordError) : Except PasswordError Unit :=
  if found then .error error else .ok ()

/-- `sum((has_lower, has_upper, has_digit, has_symbol))`. -/
def charClasses (data : UnicodeData) (password : List Char) : ℕ :=
  let hasLower := password.any data.isLower
  let hasUpper := password.any data.isUpper
  let hasDigit := password.any pyIsDigitChar
  let hasSymbol := password.any fun c => !data.isAlnum c && !pyIsSpace c
  [hasLower, hasUpper, hasDigit, hasSymbol].countP id

/-- `BesatPasswordPolicyValidator.validate`. -/
def validate (data : UnicodeData) (minLength : ℕ) (password : String) :
    Except PasswordError Unit := do
  raiseIf password.toList.isEmpty ⟨"رمز عبور نمی‌تواند خالی باشد.", "password_empty"⟩
  let normalized := normalizeForPolicy data password
  raiseIf (decide (password.toList.length < minLength))
    ⟨"رمز عبور باید حداقل " ++ toString minLength ++ " نویسه باشد.", "password_too_short"⟩
  raiseIf (decide (charClasses data password.toList < minCharacterClasses))
    ⟨"رمز عبور باید حداقل شامل سه دسته از چهار دستهٔ " ++
      "حرف کوچک، حرف بزرگ، رقم و نماد باشد.", "password_missing_char_classes"⟩
  raiseIf (decide (maxMonotonicRun ≤ runLength normalized) ||
      decide (maxMonotonicRun ≤ monotonicRunLength normalized))
    ⟨"رمز عبور نباید شامل توالی یا تکرارِ قابل‌پیش‌بینیِ کاراکتر " ++
      "مانند «۱۲۳۴»، «abcd» یا «aaaa» باشد.", "password_sequential"⟩
  raiseIf (onKeyboardRow normalized)
    ⟨"رمز عبور نباید شامل دنبالهٔ صفحه‌کلید (مثل «qwer» یا «asdf») باشد.",
      "password_keyboard_row"⟩
  raiseIf (solarBirthYear normalized)
    ⟨"رمز عبور نباید شامل سالِ تولد (الگوی ۱۳xx) باشد.", "password_birth_year_pattern"⟩
  raiseIf (platformTokens.any fun token => isSubstring token normalized)
    ⟨"رمز عبور نباید شامل نامِ پلتفرم یا سازمان باشد.", "password_platform_token"⟩
  raiseIf (blacklist.contains normalized)
    ⟨"این رمز عبور در فهرستِ رمزهای رایج/لو‌رفته قرار دارد.", "password_common"⟩

/-- The validator raises. -/
def Rejects (data : UnicodeData) (minLength : ℕ) (password : String) : Prop :=
  ∃ error, validate data minLength password = .error error

/-- The patterns that the validator refuses in a normal form. -/
def patterned (normalized : List Char) : Bool :=
  decide (maxMonotonicRun ≤ runLength normalized) ||
    (decide (maxMonotonicRun ≤ monotonicRunLength normalized) ||
      (onKeyboardRow normalized || (solarBirthYear normalized ||
        (platformTokens.any fun token => isSubstring token normalized))))

theorem raiseIf_error_iff (found : Bool) (error : PasswordError) :
    (∃ raised, raiseIf found error = .error raised) ↔ found = true := by
  cases found <;> simp [raiseIf]

/-- A check raises, or what comes after it does. -/
theorem raiseIf_bind_error_iff (found : Bool) (error : PasswordError)
    (rest : Unit → Except PasswordError Unit) :
    (∃ raised, (raiseIf found error >>= rest) = .error raised) ↔
      found = true ∨ ∃ raised, rest () = .error raised := by
  cases found with
  | true => exact iff_of_true ⟨error, rfl⟩ (Or.inl rfl)
  | false => exact (or_iff_right Bool.false_ne_true).symm

/-- **The rules that read the password as typed, and those that read its normal form.** -/
theorem rejects_iff (data : UnicodeData) (minLength : ℕ) (password : String) :
    Rejects data minLength password ↔
      password.toList.length < minLength ∨
        charClasses data password.toList < minCharacterClasses ∨
          patterned (normalizeForPolicy data password) = true ∨
            normalizeForPolicy data password ∈ blacklist := by
  have hempty : password.toList = [] → charClasses data password.toList < minCharacterClasses := by
    intro h
    rw [h]
    exact Nat.zero_lt_succ 2
  unfold Rejects validate patterned
  simp only [raiseIf_bind_error_iff, raiseIf_error_iff, Bool.or_eq_true, decide_eq_true_eq,
    List.isEmpty_iff, List.contains_iff_mem, or_assoc]
  exact ⟨fun h => h.elim (fun h => Or.inr (Or.inl (hempty h))) id, Or.inr⟩

end SetadJang.Authentication
