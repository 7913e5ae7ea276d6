import SetadJang.Framework.PyUnicode

/-!
# Contact channels

The six ways to reach the owner of a listing, and the validators of
`apps/kindness_wall/validators.py`: a value is brought to a canonical form before it is stored,
and its shape is checked where it is entered.
-/

namespace SetadJang.KindnessWall

open SetadJang.Framework

/-! ## The registry -/

inductive ContactField where
  | phone
  | bale
  | eitaa
  | telegram
  | rubika
  | instagram
deriving DecidableEq, Repr

/-- The name of the column. -/
def ContactField.name : ContactField → String
  | .phone => "contact_phone"
  | .bale => "contact_bale"
  | .eitaa => "contact_eitaa"
  | .telegram => "contact_telegram"
  | .rubika => "contact_rubika"
  | .instagram => "contact_instagram"

/-- The code of the channel. -/
def ContactField.kind : ContactField → String
  | .phone => "phone"
  | .bale => "bale"
  | .eitaa => "eitaa"
  | .telegram => "telegram"
  | .rubika => "rubika"
  | .instagram => "instagram"

def ContactField.label : ContactField → String
  | .phone => "شماره تماس"
  | .bale => "آیدی بله"
  | .eitaa => "آیدی ایتا"
  | .telegram => "آیدی تلگرام"
  | .rubika => "آیدی روبیکا"
  | .instagram => "آیدی اینستاگرام"

/-- `CONTACT_CHANNEL_REGISTRY`, the fields in its order. -/
def contactChannelRegistry : List ContactField :=
  [.phone, .bale, .eitaa, .telegram, .rubika, .instagram]

theorem mem_contactChannelRegistry (field : ContactField) : field ∈ contactChannelRegistry := by
  cases field <;> decide

/-- The contact columns of a listing. -/
structure Contacts where
  phone : String := ""
  bale : String := ""
  eitaa : String := ""
  telegram : String := ""
  rubika : String := ""
  instagram : String := ""
deriving DecidableEq, Repr

namespace Contacts

def get (contacts : Contacts) : ContactField → String
  | .phone => contacts.phone
  | .bale => contacts.bale
  | .eitaa => contacts.eitaa
  | .telegram => contacts.telegram
  | .rubika => contacts.rubika
  | .instagram => contacts.instagram

def ofFn (value : ContactField → String) : Contacts where
  phone := value .phone
  bale := value .bale
  eitaa := value .eitaa
  telegram := value .telegram
  rubika := value .rubika
  instagram := value .instagram

@[simp] theorem get_ofFn (value : ContactField → String) (field : ContactField) :
    (ofFn value).get field = value field := by
  cases field <;> rfl

/-- `channel_values`. -/
def channelValues (contacts : Contacts) : List (String × String) :=
  contactChannelRegistry.map fun field => (field.name, contacts.get field)

end Contacts

/-! ## Canonical forms -/

/-- `_PERSIAN_DIGIT_MAP`. -/
def persianDigit (c : Char) : Char :=
  if 0x6F0 ≤ c.toNat ∧ c.toNat ≤ 0x6F9 then Char.ofNat (c.toNat - 0x6F0 + 48)
  else if 0x660 ≤ c.toNat ∧ c.toNat ≤ 0x669 then Char.ofNat (c.toNat - 0x660 + 48)
  else c

/-- `[\s()\-\u202c\u200f\u200e]`. -/
def isPhoneNoise (c : Char) : Bool :=
  pyIsSpace c || c == '(' || c == ')' || c == '-' || c.toNat == 0x202C || c.toNat == 0x200F ||
    c.toNat == 0x200E

/-- `to_latin_digits`. -/
def toLatinDigits (value : String) : List Char :=
  (value.toList.map persianDigit).filter fun c => !isPhoneNoise c

/-- `normalize_contact_phone`: the first prefix that fits a long enough number becomes a zero. -/
def normalizeContactPhone (value : String) : String :=
  let raw := toLatinDigits value
  let fits := fun start : String =>
    start.toList.isPrefixOf raw && decide (start.length + 9 < raw.length)
  match ["0098", "+98", "98"].find? fits with
  | none => String.ofList raw
  | some start => String.ofList ('0' :: raw.drop start.length)

/-- A pattern character in lower case under `re.IGNORECASE`. -/
def matchesIgnoreCase (pattern c : Char) : Bool :=
  c.toLower == pattern || (pattern == 'i' && (c.toNat == 0x130 || c.toNat == 0x131)) ||
    (pattern == 's' && c.toNat == 0x17F) || (pattern == 'k' && c.toNat == 0x212A)

/-- What follows a pattern at the start of a text. -/
def afterIgnoreCase : List Char → List Char → Option (List Char)
  | [], cs => some cs
  | _ :: _, [] => none
  | p :: ps, c :: cs => if matchesIgnoreCase p c then afterIgnoreCase ps cs else none

/-- The texts of `_HANDLE_URL_PREFIX_RE`, in the order in which it tries them. -/
def handleUrlPrefixes : List String :=
  ["https://", "http://", ""].flatMap fun scheme =>
    ["www.", ""].flatMap fun www =>
      ["t.me", "telegram.me", "instagram.com", "eitaa.com", "bale.ai", "rubika.ir",
        "rubika.me"].map fun domain => scheme ++ www ++ domain ++ "/"

/-- `normalize_contact_handle`. -/
def normalizeContactHandle (value : String) : String :=
  let raw := (pyRStrip (· == '/') (pyStrip value)).toList
  let raw := (handleUrlPrefixes.findSome? fun start => afterIgnoreCase start.toList raw).getD raw
  let raw := raw.dropWhile (· == '@')
  let raw := (raw.takeWhile (· != '?')).takeWhile (· != '#')
  pyRStrip (· == '/') (pyLStrip (· == '/') (String.ofList raw))

/-- `normalize_channel_value`. -/
def normalizeChannelValue (kind value : String) : String :=
  if kind = "phone" then normalizeContactPhone value else normalizeContactHandle value

/-! ## Shapes -/

/-- A regular expression ends before a trailing newline, too. -/
def withoutFinalNewline (cs : List Char) : List Char :=
  if cs.getLast? = some '\n' then cs.dropLast else cs

/-- `^0\d{9,10}$`. -/
def matchesPhone (value : String) : Bool :=
  match withoutFinalNewline value.toList with
  | '0' :: rest => decide (9 ≤ rest.length) && decide (rest.length ≤ 10) && rest.all pyIsDecimal
  | _ => false

/-- `^[A-Za-z][A-Za-z0-9_.]{2,33}$`. -/
def matchesHandle (value : String) : Bool :=
  match withoutFinalNewline value.toList with
  | c :: rest =>
      c.isAlpha && decide (2 ≤ rest.length) && decide (rest.length ≤ 33) &&
        rest.all fun c => c.isAlphanum || c == '_' || c == '.'
  | [] => false

/-- `validate_channel_value`. -/
def validateChannelValue (kind value : String) : Except String Unit :=
  if kind = "phone" then
    if matchesPhone value then .ok ()
    else .error "شماره تماس باید با ۰ شروع شود و ۱۰ تا ۱۱ رقم باشد؛ مثال: ۰۹۱۲۱۲۳۴۵۶۷."
  else if matchesHandle value then .ok ()
  else .error ("آیدی باید ۳ تا ۳۴ نویسه باشد، با حرف شروع شود و فقط شامل " ++
    "حروف لاتین، رقم، نقطه و زیرخط باشد.")

/-- `validate_at_least_one_contact`. -/
def validateAtLeastOneContact (channels : List (String × String)) : Except String Unit :=
  if channels.any fun channel => !pyIsBlank channel.2 then .ok ()
  else .error ("برای انتشار آگهی باید حداقل یکی از راه‌های تماس " ++
    "(شماره تلفن، بله، ایتا، تلگرام، روبیکا یا اینستاگرام) پر شود.")

namespace Contacts

/-- Some channel is filled. -/
def reachable (contacts : Contacts) : Bool :=
  contactChannelRegistry.any fun field => !pyIsBlank (contacts.get field)

theorem reachable_iff {contacts : Contacts} :
    contacts.reachable = true ↔ ∃ field, pyIsBlank (contacts.get field) = false := by
  rw [reachable, List.any_eq_true]
  constructor
  · rintro ⟨field, -, hfield⟩
    exact ⟨field, by simpa using hfield⟩
  · rintro ⟨field, hfield⟩
    exact ⟨field, mem_contactChannelRegistry field, by simpa using hfield⟩

theorem validateAtLeastOneContact_eq (contacts : Contacts) :
    validateAtLeastOneContact contacts.channelValues = .ok () ↔ contacts.reachable = true := by
  rw [validateAtLeastOneContact, channelValues, List.any_map]
  show (if contacts.reachable = true then _ else _) = _ ↔ _
  by_cases h : contacts.reachable = true <;> simp [h]

/-- `_normalize_channels`: a blank channel is left as it is. -/
def normalize (contacts : Contacts) : Contacts :=
  ofFn fun field =>
    if pyIsBlank (contacts.get field) then contacts.get field
    else normalizeChannelValue field.kind (contacts.get field)

end Contacts

/-! ## Checked values stay filled -/

section filled

/-- The text begins with a character that is no white space. -/
def BeginsWith (c : Char) (s : List Char) : Prop := s.head? = some c

theorem BeginsWith.not_blank {c : Char} {s : String} (hc : pyIsSpace c = false)
    (h : BeginsWith c s.toList) : pyIsBlank s = false := by
  obtain ⟨rest, hrest⟩ := List.head?_eq_some_iff.mp h
  rw [pyIsBlank, hrest, List.all_cons, hc, Bool.false_and]

theorem BeginsWith.dropWhile {c : Char} {s : List Char} {p : Char → Bool} (hp : p c = false)
    (h : BeginsWith c s) : s.dropWhile p = s := by
  obtain ⟨rest, rfl⟩ := List.head?_eq_some_iff.mp h
  rw [List.dropWhile_cons_of_neg (by simp [hp])]

theorem BeginsWith.takeWhile {c : Char} {s : List Char} {p : Char → Bool} (hp : p c = true)
    (h : BeginsWith c s) : BeginsWith c (s.takeWhile p) := by
  obtain ⟨rest, rfl⟩ := List.head?_eq_some_iff.mp h
  rw [List.takeWhile_cons_of_pos hp]
  rfl

/-- Characters that the first one is not are dropped from the end only. -/
theorem BeginsWith.dropEnd {c : Char} {s : List Char} {p : Char → Bool} (hp : p c = false)
    (h : BeginsWith c s) : BeginsWith c (s.reverse.dropWhile p).reverse := by
  obtain ⟨rest, rfl⟩ := List.head?_eq_some_iff.mp h
  rw [List.reverse_cons, List.dropWhile_append]
  split
  · rw [List.dropWhile_cons_of_neg (by simp [hp])]
    rfl
  · rw [List.reverse_append]
    rfl

theorem mem_of_mem_pyRStrip {p : Char → Bool} {s : String} {c : Char}
    (h : c ∈ (pyRStrip p s).toList) : c ∈ s.toList := by
  rw [pyRStrip, String.toList_ofList, List.mem_reverse] at h
  exact List.mem_reverse.mp ((List.dropWhile_sublist _).subset h)

theorem mem_of_mem_pyStrip {s : String} {c : Char} (h : c ∈ (pyStrip s).toList) :
    c ∈ s.toList := by
  rw [pyStrip, String.toList_ofList, List.mem_reverse] at h
  have hmem := (List.dropWhile_sublist _).subset h
  exact (List.dropWhile_sublist _).subset (List.mem_reverse.mp hmem)

theorem not_isSpace_of_isAlpha {c : Char} (h : c.isAlpha = true) : pyIsSpace c = false := by
  have hrange : (65 ≤ c.toNat ∧ c.toNat ≤ 90) ∨ (97 ≤ c.toNat ∧ c.toNat ≤ 122) := by
    delta Char.isAlpha Char.isUpper Char.isLower at h
    simp only [Bool.or_eq_true, Bool.and_eq_true, decide_eq_true_eq] at h
    exact h
  simp only [pyIsSpace, Bool.or_eq_false_iff, Bool.and_eq_false_iff, decide_eq_false_iff_not,
    beq_eq_false_iff_ne]
  omega

theorem eq_slash_of_matchesIgnoreCase {c : Char} (h : matchesIgnoreCase '/' c = true) : c = '/' := by
  have hlower : c.toLower = '/' := by simpa [matchesIgnoreCase] using h
  delta Char.toLower at hlower
  split at hlower
  · rename_i hupper
    -- the image of a capital letter lies above the slash
    have hlow : 65 ≤ c.val.toNat := hupper.1
    have hhigh : c.val.toNat ≤ 90 := hupper.2
    have hval : c.val + 32 = 47 := congrArg Char.val hlower
    have hnat := congrArg UInt32.toNat hval
    rw [UInt32.toNat_add] at hnat
    change (c.val.toNat + 32) % 4294967296 = 47 at hnat
    omega
  · exact hlower

/-- A pattern with a slash is found in texts with one only. -/
theorem slash_mem_of_afterIgnoreCase {ps cs rest : List Char}
    (h : afterIgnoreCase ps cs = some rest) (hps : '/' ∈ ps) : '/' ∈ cs := by
  induction ps generalizing cs with
  | nil => cases hps
  | cons p ps ih =>
      cases cs with
      | nil => cases h
      | cons c cs =>
          rw [afterIgnoreCase] at h
          split at h
          · rename_i hmatch
            rcases List.mem_cons.mp hps with rfl | hrest
            · rw [eq_slash_of_matchesIgnoreCase hmatch]
              exact List.mem_cons_self
            · exact List.mem_cons_of_mem _ (ih h hrest)
          · cases h

theorem slash_mem_handleUrlPrefixes : ∀ start ∈ handleUrlPrefixes, '/' ∈ start.toList := by
  decide +kernel

theorem mem_withoutFinalNewline {cs : List Char} {c : Char} (h : c ∈ cs) :
    c ∈ withoutFinalNewline cs ∨ c = '\n' := by
  unfold withoutFinalNewline
  split
  · rename_i hlast
    rw [← List.dropLast_append_getLast? _ hlast] at h
    rcases List.mem_append.mp h with hfront | hnew
    · exact Or.inl hfront
    · exact Or.inr (List.mem_singleton.mp hnew)
  · exact Or.inl h

/-- The text ends with a newline that the pattern does not see, or it is the text seen. -/
theorem head?_withoutFinalNewline {cs rest : List Char} {c : Char}
    (h : withoutFinalNewline cs = c :: rest) : BeginsWith c cs := by
  unfold withoutFinalNewline at h
  split at h
  · cases cs with
    | nil => cases h
    | cons d ds =>
        cases ds with
        | nil => cases h
        | cons e es =>
            rw [List.dropLast_cons_cons] at h
            rw [BeginsWith, List.head?_cons, (List.cons.inj h).1]
  · rw [h]
    rfl

/-- A handle of the right shape is not emptied by its canonical form. -/
theorem normalizeContactHandle_filled {value : String} (h : matchesHandle value = true) :
    pyIsBlank (normalizeContactHandle value) = false := by
  unfold matchesHandle at h
  split at h
  · rename_i c rest hvalue
    simp only [Bool.and_eq_true, List.all_eq_true] at h
    obtain ⟨⟨⟨halpha, -⟩, -⟩, hrest⟩ := h
    obtain ⟨hspace, hslash', hat, hquery, hhash⟩ :
        pyIsSpace c = false ∧ c ≠ '/' ∧ c ≠ '@' ∧ c ≠ '?' ∧ c ≠ '#' := by
      refine ⟨not_isSpace_of_isAlpha halpha, ?_, ?_, ?_, ?_⟩ <;>
        · rintro rfl
          revert halpha
          decide
    have hbegins : BeginsWith c value.toList := head?_withoutFinalNewline hvalue
    have hslash : '/' ∉ value.toList := by
      intro hmem
      rcases mem_withoutFinalNewline hmem with hin | hnew
      · rw [hvalue] at hin
        rcases List.mem_cons.mp hin with heq | hin
        · exact hslash' heq.symm
        · have := hrest _ hin
          revert this
          decide
      · cases hnew
    have hstripped : BeginsWith c (pyRStrip (· == '/') (pyStrip value)).toList := by
      rw [pyRStrip, pyStrip, String.toList_ofList, String.toList_ofList, hbegins.dropWhile hspace]
      exact (hbegins.dropEnd hspace).dropEnd (beq_eq_false_iff_ne.mpr hslash')
    have hkept : (handleUrlPrefixes.findSome? fun start => afterIgnoreCase start.toList
        (pyRStrip (· == '/') (pyStrip value)).toList) = none := by
      rw [List.findSome?_eq_none_iff]
      intro start hstart
      cases hafter : afterIgnoreCase start.toList (pyRStrip (· == '/') (pyStrip value)).toList with
      | none => rfl
      | some rest =>
          have hin := slash_mem_of_afterIgnoreCase hafter (slash_mem_handleUrlPrefixes start hstart)
          exact absurd (mem_of_mem_pyStrip (mem_of_mem_pyRStrip hin)) hslash
    unfold normalizeContactHandle
    dsimp only
    rw [hkept, Option.getD_none, hstripped.dropWhile (p := (· == '@')) (beq_eq_false_iff_ne.mpr hat)]
    refine BeginsWith.not_blank hspace ?_
    have hcut := (hstripped.takeWhile (p := (· != '?')) (by simpa using hquery)).takeWhile
      (p := (· != '#')) (by simpa using hhash)
    rw [pyRStrip, pyLStrip, String.toList_ofList, String.toList_ofList, String.toList_ofList,
      hcut.dropWhile (p := (· == '/')) (beq_eq_false_iff_ne.mpr hslash')]
    exact hcut.dropEnd (beq_eq_false_iff_ne.mpr hslash')
  · cases h

/-- A number of the right shape is not emptied by its canonical form. -/
theorem normalizeContactPhone_filled {value : String} (h : matchesPhone value = true) :
    pyIsBlank (normalizeContactPhone value) = false := by
  unfold matchesPhone at h
  split at h
  · rename_i rest hvalue
    have hbegins : BeginsWith '0' (toLatinDigits value) := by
      obtain ⟨tail, htail⟩ := List.head?_eq_some_iff.mp (head?_withoutFinalNewline hvalue)
      rw [toLatinDigits, htail, List.map_cons, List.filter_cons_of_pos (by decide)]
      rfl
    unfold normalizeContactPhone
    dsimp only
    split
    · refine BeginsWith.not_blank (c := '0') (by decide) ?_
      rw [String.toList_ofList]
      exact hbegins
    · exact BeginsWith.not_blank (c := '0') (by decide) (by rw [String.toList_ofList]; rfl)
  · cases h

/-- **A checked value is stored filled.** -/
theorem normalizeChannelValue_filled {kind value : String}
    (h : validateChannelValue kind value = .ok ()) :
    pyIsBlank (normalizeChannelValue kind value) = false := by
  unfold validateChannelValue at h
  unfold normalizeChannelValue
  split at h
  · rename_i hphone
    rw [if_pos hphone]
    split at h
    · rename_i hmatch
      exact normalizeContactPhone_filled hmatch
    · cases h
  · rename_i hhandle
    rw [if_neg hhandle]
    split at h
    · rename_i hmatch
      exact normalizeContactHandle_filled hmatch
    · cases h

end filled

end SetadJang.KindnessWall
