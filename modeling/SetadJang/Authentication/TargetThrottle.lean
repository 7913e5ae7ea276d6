import SetadJang.Authentication.Normalizers
import SetadJang.Framework.PyFold
import SetadJang.Framework.PyJson

/-!
# One bucket for one recipient

`OTPTargetThrottle` counts the requests for a code by the recipient in the body, so that a
victim has one quota whoever asks.  It reads the body on its own: the first text among a few
fields, stripped and case-folded.  The serializer reads the field `identifier`, a text or a
number, and the code goes to its canonical form.  For addresses the two agree; a phone number
has as many buckets as spellings, and as a JSON number it has none.
-/

namespace SetadJang.Authentication

open SetadJang.Framework

/-! ## The throttle -/

/-- `request.data`. -/
inductive RequestData
  /-- The body cannot be parsed. -/
  | unreadable
  /-- A list or another value without `get`. -/
  | noMapping
  | mapping (entries : List (String × PyJson))

/-- `data.get(field)`. -/
def RequestData.get (data : RequestData) (field : String) : Option PyJson :=
  match data with
  | .mapping entries => (entries.find? (·.1 == field)).map (·.2)
  | .unreadable | .noMapping => none

/-- The value as a target, stripped: a text that is not blank. -/
def targetText : Option PyJson → Option String
  | some (.str value) => if (pyStrip value).toList ≠ [] then some (pyStrip value) else none
  | _ => none

/-- The first text among the fields that is not blank. -/
def firstText (targetFields : List String) (data : RequestData) : Option String :=
  targetFields.findSome? fun field => targetText (data.get field)

/-- `TargetRateThrottle.get_target_value`. -/
def getTargetValue (targetFields : List String) (data : RequestData) : String :=
  match firstText targetFields data with
  | some value => pyCasefold value
  | none => ""

/-- `TargetRateThrottle.get_bucket_ident`, with `digest_throttle_target` as a parameter. -/
def getBucketIdent (digest : String → String) (targetFields : List String)
    (data : RequestData) : String :=
  let target := getTargetValue targetFields data
  if target.toList = [] then "" else digest target

/-- `get_cache_key`; a request without a key is let through. -/
def getCacheKey (digest : String → String) (targetFields : List String) (scope : String)
    (data : RequestData) : Option String :=
  let ident := getBucketIdent digest targetFields data
  if ident.toList = [] then none else some ("throttle_tgt_" ++ scope ++ "_" ++ ident)

/-- The `target_fields` of `OTPTargetThrottle`. -/
def otpTargetFields : List String := ["identifier", "identifier_value", "phone", "mobile", "email"]

/-! ## The serializer -/

/-- `BaseIdentifierSerializer`: the kind and the recipient of an accepted body.  `charField`
is the validation of its one field. -/
def validatedIdentifier (charField : PyJson → Except String String) (data : RequestData) :
    Except String (PrimaryIdentifierKind × String) := do
  let identifier ←
    match data.get "identifier" with
    | some value => charField value
    | none => .error "required"
  normalizeIdentifier identifier

/-- What the code relies on: an accepted text is stripped. -/
structure IsCharField (charField : PyJson → Except String String) : Prop where
  text : ∀ value accepted, charField (.str value) = .ok accepted → accepted = pyStrip value

/-! ## The law and its condition -/

/-- The two bodies count for one bucket, whatever function of its input the digest is. -/
def SameBucket (data data' : RequestData) : Prop :=
  ∀ digest : String → String, (∀ target, (digest target).length = 32) →
    getBucketIdent digest otpTargetFields data ≠ "" ∧
      getBucketIdent digest otpTargetFields data = getBucketIdent digest otpTargetFields data'

/-- The two bodies spell their recipient alike.  Two identifiers given as texts are an address,
or the same number up to the white space around it; otherwise, with a number given as such, the
first texts the throttle finds agree up to case. -/
def SpelledAlike (data data' : RequestData) : Prop :=
  match data.get "identifier", data'.get "identifier" with
  | some (.str value), some (.str value') =>
      '@' ∈ (pyStrip value).toList ∨ pyStrip value = pyStrip value'
  | _, _ => ∃ text text', firstText otpTargetFields data = some text ∧
      firstText otpTargetFields data' = some text' ∧ pyCasefold text = pyCasefold text'

/-! ## What the throttle counts -/

/-- Two bodies share a bucket exactly when they are given one cache key. -/
theorem sameBucket_iff_cacheKey {data data' : RequestData} (scope : String) :
    SameBucket data data' ↔
      ∀ digest : String → String, (∀ target, (digest target).length = 32) →
        ∃ key, getCacheKey digest otpTargetFields scope data = some key ∧
          getCacheKey digest otpTargetFields scope data' = some key := by
  refine forall_congr' fun digest => imp_congr_right fun _ => ?_
  have hempty : ∀ ident : String, ident.toList = [] ↔ ident = "" := fun ident => by
    rw [← String.toList_inj]
    exact Iff.rfl
  unfold getCacheKey
  simp only [hempty]
  constructor
  · rintro ⟨hne, hsame⟩
    rw [← hsame, if_neg hne]
    exact ⟨_, rfl, rfl⟩
  · rintro ⟨key, hkey, hkey'⟩
    split_ifs at hkey hkey' with hne hne'
    have htexts := (Option.some.inj hkey).trans (Option.some.inj hkey').symm
    exact ⟨hne, (String.append_right_inj _).mp htexts⟩

theorem targetText_ne_empty {value : Option PyJson} {text : String}
    (h : targetText value = some text) : text.toList ≠ [] := by
  unfold targetText at h
  split at h
  · split_ifs at h with hblank
    rwa [← Option.some.inj h]
  · cases h

theorem firstText_ne_empty {fields : List String} {data : RequestData} {text : String}
    (h : firstText fields data = some text) : text.toList ≠ [] := by
  obtain ⟨field, -, hfield⟩ := List.exists_of_findSome?_eq_some h
  exact targetText_ne_empty hfield

theorem getTargetValue_of_firstText {fields : List String} {data : RequestData} {text : String}
    (h : firstText fields data = some text) : getTargetValue fields data = pyCasefold text := by
  rw [getTargetValue, h]

theorem getTargetValue_empty_iff {fields : List String} {data : RequestData} :
    (getTargetValue fields data).toList = [] ↔ firstText fields data = none := by
  unfold getTargetValue
  cases hfirst : firstText fields data with
  | none => simp
  | some text =>
      exact iff_of_false (pyCasefold_ne_empty (firstText_ne_empty hfirst)) (by simp)

section ident

variable {digest : String → String} {fields : List String} {data : RequestData}

theorem getBucketIdent_of_firstText {text : String} (h : firstText fields data = some text) :
    getBucketIdent digest fields data = digest (pyCasefold text) := by
  have hfound : (getTargetValue fields data).toList ≠ [] := by
    rw [ne_eq, getTargetValue_empty_iff, h]
    exact Option.some_ne_none text
  rw [getBucketIdent, if_neg hfound, getTargetValue_of_firstText h]

theorem getBucketIdent_of_none (h : firstText fields data = none) :
    getBucketIdent digest fields data = "" :=
  if_pos (getTargetValue_empty_iff.mpr h)

end ident

/-- Two bodies share a bucket when the throttle finds a target in both, and the same one. -/
theorem sameBucket_iff {data data' : RequestData} :
    SameBucket data data' ↔ ∃ text text', firstText otpTargetFields data = some text ∧
      firstText otpTargetFields data' = some text' ∧ pyCasefold text = pyCasefold text' := by
  constructor
  · intro hsame
    obtain ⟨hsome, hequal⟩ := hsame (fun _ => "00000000000000000000000000000000") fun _ => by decide
    cases hfirst : firstText otpTargetFields data with
    | none => exact absurd (getBucketIdent_of_none hfirst) hsome
    | some text =>
        rw [getBucketIdent_of_firstText hfirst] at hequal
        cases hfirst' : firstText otpTargetFields data' with
        | none =>
            rw [getBucketIdent_of_none hfirst'] at hequal
            exact absurd hequal (by decide)
        | some text' =>
            refine ⟨text, text', rfl, rfl, ?_⟩
            -- a digest that tells the target of the first body from every other
            let digest : String → String := fun t =>
              if t = pyCasefold text then "00000000000000000000000000000000"
              else "11111111111111111111111111111111"
            have hlength : ∀ t, (digest t).length = 32 := by
              intro t
              show (if t = pyCasefold text then _ else _ : String).length = 32
              split <;> decide
            have hdigests := (hsame digest hlength).2
            rw [getBucketIdent_of_firstText hfirst, getBucketIdent_of_firstText hfirst'] at hdigests
            have hone : digest (pyCasefold text) = "00000000000000000000000000000000" := if_pos rfl
            by_contra hother
            have htwo : digest (pyCasefold text') = "11111111111111111111111111111111" :=
              if_neg fun heq => hother heq.symm
            rw [hone, htwo] at hdigests
            exact absurd hdigests (by decide)
  · rintro ⟨text, text', hfirst, hfirst', hfold⟩ digest hlength
    rw [getBucketIdent_of_firstText hfirst, getBucketIdent_of_firstText hfirst', hfold]
    refine ⟨fun hempty => ?_, rfl⟩
    have hlong := hlength (pyCasefold text')
    rw [hempty] at hlong
    exact absurd hlong (by decide)

/-! ## Identifiers given as texts -/

section texts

variable {charField : PyJson → Except String String} {data data' : RequestData}
  {value value' : String} {found : PrimaryIdentifierKind × String}

/-- A text that is not blank in the first field is the target. -/
theorem firstText_identifier (hget : data.get "identifier" = some (.str value))
    (hblank : (pyStrip value).toList ≠ []) :
    firstText otpTargetFields data = some (pyStrip value) := by
  have htarget : targetText (data.get "identifier") = some (pyStrip value) := by
    rw [hget]
    exact if_pos hblank
  rw [firstText, otpTargetFields, List.findSome?_cons, htarget]

theorem normalizeIdentifier_of_validated (hfield : IsCharField charField)
    (hget : data.get "identifier" = some (.str value))
    (hvalid : validatedIdentifier charField data = .ok found) :
    normalizeIdentifier (pyStrip value) = .ok found := by
  unfold validatedIdentifier at hvalid
  rw [hget] at hvalid
  obtain ⟨accepted, haccepted, hfound⟩ := except_bind_ok_iff.mp hvalid
  rwa [hfield.text value accepted haccepted] at hfound

/-- Two spellings of one address fold alike. -/
theorem pyCasefold_address (hfound : normalizeEmail (pyStrip value) = .ok found.2)
    (hfound' : normalizeEmail (pyStrip value') = .ok found.2) :
    pyCasefold (pyStrip value) = pyCasefold (pyStrip value') := by
  have hlower := (normalizeEmail_ok hfound).1
  have hlower' := (normalizeEmail_ok hfound').1
  rw [pyStrip_pyStrip] at hlower hlower'
  refine pyCasefold_eq_of_lower hlower.symm hlower'.symm fun c hc => ?_
  have hcode := code_of_isEmailChar (isEmailChar_normalizeEmail hfound c hc)
  omega

/-- The characters of a phone number do not fold. -/
theorem pyCasefold_number (h : ∀ c ∈ (pyStrip value).toList, c ∈ phoneAlphabet) :
    pyCasefold (pyStrip value) = pyStrip value := by
  have hlow : phoneAlphabet.all (fun c => decide (c.toNat < 65)) = true := by decide
  exact pyCasefold_eq_self fun c hc => of_decide_eq_true (List.all_eq_true.mp hlow c (h c hc))

/-- Two texts with one recipient share a bucket when they are an address, or the same text. -/
theorem sameBucket_texts_iff (hget : data.get "identifier" = some (.str value))
    (hget' : data'.get "identifier" = some (.str value'))
    (hfound : normalizeIdentifier (pyStrip value) = .ok found)
    (hfound' : normalizeIdentifier (pyStrip value') = .ok found) :
    SameBucket data data' ↔
      '@' ∈ (pyStrip value).toList ∨ pyStrip value = pyStrip value' := by
  obtain ⟨hblank, hkind⟩ := normalizeIdentifier_ok hfound
  obtain ⟨hblank', hkind'⟩ := normalizeIdentifier_ok hfound'
  rw [pyStrip_pyStrip] at hblank hkind hblank' hkind'
  have hfold : SameBucket data data' ↔
      pyCasefold (pyStrip value) = pyCasefold (pyStrip value') := by
    rw [sameBucket_iff, firstText_identifier hget hblank, firstText_identifier hget' hblank']
    constructor
    · rintro ⟨text, text', ⟨⟩, ⟨⟩, hequal⟩
      exact hequal
    · intro hequal
      exact ⟨_, _, rfl, rfl, hequal⟩
  rw [hfold]
  rcases hkind with ⟨hat, hemail, hvalue⟩ | ⟨halphabet, hphone, -⟩
  · refine iff_of_true ?_ (Or.inl hat)
    rcases hkind' with ⟨-, -, hvalue'⟩ | ⟨-, hphone', -⟩
    · exact pyCasefold_address hvalue hvalue'
    · rw [hemail] at hphone'
      cases hphone'
  · rcases hkind' with ⟨-, hemail', -⟩ | ⟨halphabet', -, -⟩
    · rw [hphone] at hemail'
      cases hemail'
    · rw [pyCasefold_number halphabet, pyCasefold_number halphabet']
      have hnoat : '@' ∉ (pyStrip value).toList := fun hat => by
        exact absurd (halphabet _ hat) (by decide)
      rw [or_iff_right hnoat]

end texts

/-- **One victim, one bucket.** Two accepted bodies with one recipient count for the same
bucket exactly when they spell it alike. -/
theorem one_bucket_iff {charField : PyJson → Except String String}
    (hfield : IsCharField charField) {data data' : RequestData}
    {found : PrimaryIdentifierKind × String}
    (hvalid : validatedIdentifier charField data = .ok found)
    (hvalid' : validatedIdentifier charField data' = .ok found) :
    SameBucket data data' ↔ SpelledAlike data data' := by
  unfold SpelledAlike
  split
  · rename_i value value' hget hget'
    exact sameBucket_texts_iff hget hget'
      (normalizeIdentifier_of_validated hfield hget hvalid)
      (normalizeIdentifier_of_validated hfield hget' hvalid')
  · exact sameBucket_iff

/-- The field as it behaves on texts and numbers: a text is stripped, must not be blank and
has at most 254 characters; a number becomes its text; other values are refused. -/
def sampleCharField : PyJson → Except String String
  | .str value =>
      if (pyStrip value).toList = [] then .error "blank"
      else if 254 < (pyStrip value).toList.length then .error "max_length"
      else .ok (pyStrip value)
  | .int value => .ok (toString value)
  | .float text => .ok text
  | .null | .bool _ | .list _ | .dict _ => .error "invalid"

theorem isCharField_sample : IsCharField sampleCharField where
  text := by
    intro value accepted h
    simp only [sampleCharField] at h
    split_ifs at h
    exact (Except.ok.inj h).symm

/-- Two spellings of one address. -/
theorem one_bucket_address :
    SameBucket (.mapping [("identifier", .str " Ali@Example.com")])
      (.mapping [("identifier", .str "ali@EXAMPLE.com"), ("phone", .str "x")]) := by
  have hvalid : validatedIdentifier sampleCharField
      (.mapping [("identifier", .str " Ali@Example.com")]) =
        .ok (.email, "ali@example.com") := by decide +kernel
  have hvalid' : validatedIdentifier sampleCharField
      (.mapping [("identifier", .str "ali@EXAMPLE.com"), ("phone", .str "x")]) =
        .ok (.email, "ali@example.com") := by decide +kernel
  refine (one_bucket_iff isCharField_sample hvalid hvalid').mpr ?_
  show '@' ∈ _ ∨ _
  exact Or.inl (by decide +kernel)

/-- One number: with a leading zero, in international form, and as a JSON number.  The first
two have a bucket each, the third has none. -/
theorem three_spellings_of_one_number :
    (validatedIdentifier sampleCharField (.mapping [("identifier", .str "09120000000")]) =
        .ok (.phone, "+989120000000") ∧
      validatedIdentifier sampleCharField (.mapping [("identifier", .str "+989120000000")]) =
        .ok (.phone, "+989120000000") ∧
      ¬ SameBucket (.mapping [("identifier", .str "09120000000")])
        (.mapping [("identifier", .str "+989120000000")])) ∧
    (validatedIdentifier sampleCharField (.mapping [("identifier", .int 989120000000)]) =
        .ok (.phone, "+989120000000") ∧
      ¬ SameBucket (.mapping [("identifier", .int 989120000000)])
        (.mapping [("identifier", .int 989120000000)])) := by
  refine ⟨⟨by decide +kernel, by decide +kernel, fun hsame => ?_⟩, by decide +kernel, fun hsame => ?_⟩
  · obtain ⟨text, text', hfirst, hfirst', hfold⟩ := sameBucket_iff.mp hsame
    rw [show firstText otpTargetFields (.mapping [("identifier", .str "09120000000")]) =
      some "09120000000" by decide +kernel] at hfirst
    rw [show firstText otpTargetFields (.mapping [("identifier", .str "+989120000000")]) =
      some "+989120000000" by decide +kernel] at hfirst'
    obtain rfl := Option.some.inj hfirst
    obtain rfl := Option.some.inj hfirst'
    exact absurd hfold (by decide +kernel)
  · obtain ⟨text, -, hfirst, -⟩ := sameBucket_iff.mp hsame
    rw [show firstText otpTargetFields (.mapping [("identifier", .int 989120000000)]) = none by
      decide +kernel] at hfirst
    cases hfirst

end SetadJang.Authentication
