import SetadJang.Authentication.PasswordPolicy
import SetadJang.Framework.Utf8

/-!
# Spellings the password policy sees through

A digit may be typed in three scripts.  The Persian digits are read as the ASCII digits they
stand for.  The enumeration behind the table goes on over the Arabic-Indic ones, so that they
are read as ten to nineteen, and a digit of theirs can hide a weak password or spoil a good one.
The list of weak passwords holds two lines that are no normal forms; no password meets them.
-/

namespace SetadJang.Authentication

open SetadJang.Framework

/-! ## Digits -/

theorem policyDigit_plain : ∀ c, IsPolicyDigit c → Plain c ∧ c.isLower = false ∧
    c.isUpper = false ∧ pyIsDecimal c = true := by
  have hdigits : ((asciiDigits ++ (persianDigits ++ arabicDigits)).all fun c =>
      decide (Plain c ∧ c.isLower = false ∧ c.isUpper = false ∧ pyIsDecimal c = true)) = true := by
    decide +kernel
  exact fun c hc => of_decide_eq_true (List.all_eq_true.mp hdigits c hc)

/-- The ASCII digits beside the digits of the two scripts. -/
def twins : List (Char × Char) :=
  asciiDigits.zip persianDigits ++ asciiDigits.zip arabicDigits

/-- The same character, or an allowed digit of one of the scripts for an ASCII digit. -/
def Twin (allowed : Char → Bool) (c d : Char) : Prop :=
  c = d ∨ (c, d) ∈ twins ∧ allowed d = true

/-- Some ASCII digits of a password are replaced by allowed digits of the same values. -/
def Respelled (allowed : Char → Bool) (password respelled : String) : Prop :=
  List.Forall₂ (Twin allowed) password.toList respelled.toList

theorem twins_digits {twin : Char × Char} (h : twin ∈ twins) :
    IsPolicyDigit twin.1 ∧ IsPolicyDigit twin.2 := by
  unfold IsPolicyDigit
  simp only [List.mem_append]
  rcases List.mem_append.mp h with hpersian | harabic
  · obtain ⟨hascii, hpersian⟩ := List.of_mem_zip hpersian
    exact ⟨Or.inl hascii, Or.inr (Or.inl hpersian)⟩
  · obtain ⟨hascii, harabic⟩ := List.of_mem_zip harabic
    exact ⟨Or.inl hascii, Or.inr (Or.inr harabic)⟩

/-- A Persian digit is translated as its ASCII twin; the others are Arabic-Indic. -/
theorem twins_translate : ∀ twin ∈ twins, twin.2 ∈ arabicDigits ∨
    (digitTranslation.lookup twin.1).getD [twin.1] =
      (digitTranslation.lookup twin.2).getD [twin.2] := by
  decide

section respelled

variable {allowed : Char → Bool}

/-- What does not tell twins apart has one value on both spellings. -/
theorem map_respelled {β : Type} {f : Char → β} (hf : ∀ c d, Twin allowed c d → f c = f d)
    {cs ds : List Char} (h : List.Forall₂ (Twin allowed) cs ds) : cs.map f = ds.map f := by
  have hmap := List.forall₂_map_right_iff.mpr (List.forall₂_map_left_iff.mpr (h.imp hf))
  rwa [List.forall₂_eq_eq_eq] at hmap

theorem any_respelled {f : Char → Bool} (hf : ∀ c d, (c, d) ∈ twins → f c = f d)
    {cs ds : List Char} (h : List.Forall₂ (Twin allowed) cs ds) : cs.any f = ds.any f := by
  have hmap := @map_respelled allowed _ f (fun c d hcd => hcd.elim (congrArg f) fun h => hf c d h.1) _ _ h
  calc cs.any f = (cs.map f).any id := by rw [List.any_map]; rfl
    _ = (ds.map f).any id := by rw [hmap]
    _ = ds.any f := by rw [List.any_map]; rfl

variable (data : UnicodeData)

/-- Normalisation does not tell twins apart: neither is decomposed or composed. -/
theorem respects_twins : data.Respects (Twin allowed) where
  decompose c d hcd := by
    rcases hcd with rfl | ⟨htwin, hallowed⟩
    · exact List.forall₂_same.mpr fun _ _ => Or.inl rfl
    · obtain ⟨hc, hd⟩ := twins_digits htwin
      rw [data.inert.decompose c (policyDigit_plain c hc).1,
        data.inert.decompose d (policyDigit_plain d hd).1]
      exact .cons (Or.inr ⟨htwin, hallowed⟩) .nil
  combiningClass c d hcd := by
    rcases hcd with rfl | ⟨htwin, -⟩
    · rfl
    · obtain ⟨hc, hd⟩ := twins_digits htwin
      rw [data.inert.combiningClass c (policyDigit_plain c hc).1,
        data.inert.combiningClass d (policyDigit_plain d hd).1]
  compose c d c' d' hcd hcd' := by
    -- a digit on either side of either pair composes with nothing
    have hnone : ∀ {a b a' b' : Char}, (a, b) ∈ twins ∧ allowed b = true ∨
        (a', b') ∈ twins ∧ allowed b' = true →
          Option.Rel (Twin allowed) (data.compose a a') (data.compose b b') := by
      intro a b a' b' h
      have hdigits : (IsPolicyDigit a ∨ IsPolicyDigit a') ∧ (IsPolicyDigit b ∨ IsPolicyDigit b') :=
        h.elim (fun h => ⟨Or.inl (twins_digits h.1).1, Or.inl (twins_digits h.1).2⟩)
          fun h => ⟨Or.inr (twins_digits h.1).1, Or.inr (twins_digits h.1).2⟩
      rw [data.digit_compose a a' hdigits.1, data.digit_compose b b' hdigits.2]
      exact .none
    rcases hcd with rfl | htwin
    · rcases hcd' with rfl | htwin'
      · cases data.compose c c' with
        | none => exact .none
        | some new => exact .some (Or.inl rfl)
      · exact hnone (Or.inr htwin')
    · exact hnone (Or.inl htwin)

/-- **The classes of characters are those of the other spelling**, in whatever script. -/
theorem charClasses_respelled {password respelled : String}
    (h : Respelled allowed password respelled) :
    charClasses data respelled.toList = charClasses data password.toList := by
  have hdigits : ∀ c d, (c, d) ∈ twins → IsPolicyDigit c ∧ IsPolicyDigit d :=
    fun c d hcd => twins_digits hcd
  have hlower : ∀ c, IsPolicyDigit c → data.isLower c = false := fun c hc => by
    rw [data.isLower_plain c (policyDigit_plain c hc).1, (policyDigit_plain c hc).2.1]
  have hupper : ∀ c, IsPolicyDigit c → data.isUpper c = false := fun c hc => by
    rw [data.isUpper_plain c (policyDigit_plain c hc).1, (policyDigit_plain c hc).2.2.1]
  have hdigit : ∀ c, IsPolicyDigit c → pyIsDigitChar c = true := fun c hc => by
    rw [pyIsDigitChar, (policyDigit_plain c hc).2.2.2, Bool.true_or]
  have hsymbol : ∀ c, IsPolicyDigit c → (!data.isAlnum c && !pyIsSpace c) = false :=
    fun c hc => by
      rw [data.isAlnum_plain c (policyDigit_plain c hc).1, (policyDigit_plain c hc).2.2.2,
        Bool.or_true, Bool.not_true, Bool.false_and]
  have hsame : ∀ (f : Char → Bool) (value : Bool), (∀ c, IsPolicyDigit c → f c = value) →
      respelled.toList.any f = password.toList.any f := fun f value hf =>
    (any_respelled (fun c d hcd => (hf c (hdigits c d hcd).1).trans
      (hf d (hdigits c d hcd).2).symm) h).symm
  unfold charClasses
  rw [hsame _ _ hlower, hsame _ _ hupper, hsame _ _ hdigit, hsame _ _ hsymbol]

/-- **The normal form is that of the other spelling**, when no Arabic-Indic digit came in. -/
theorem normalizeForPolicy_respelled (hallowed : ∀ x ∈ arabicDigits, allowed x = false)
    {password respelled : String} (h : Respelled allowed password respelled) :
    normalizeForPolicy data respelled = normalizeForPolicy data password := by
  have hforms := CharacterData.nfkc_rel (respects_twins data) h
  have htranslated : translate (data.nfkc respelled.toList) =
      translate (data.nfkc password.toList) := by
    rw [translate, translate, List.flatMap_def, List.flatMap_def, map_respelled _ hforms]
    rintro c d (rfl | ⟨htwin, hd⟩)
    · rfl
    · rcases twins_translate _ htwin with harabic | hsame
      · rw [hallowed d harabic] at hd
        cases hd
      · exact hsame
  rw [normalizeForPolicy, normalizeForPolicy, plainForm, plainForm, htranslated]

theorem rejects_respelled (hallowed : ∀ x ∈ arabicDigits, allowed x = false) {minLength : ℕ}
    {password respelled : String} (h : Respelled allowed password respelled) :
    Rejects data minLength respelled ↔ Rejects data minLength password := by
  rw [rejects_iff, rejects_iff, charClasses_respelled data h,
    normalizeForPolicy_respelled data hallowed h, List.Forall₂.length_eq h]

end respelled

/-! ## Plain texts -/

/-- On plain characters every database gives the same normal form. -/
theorem normalizeForPolicy_plain (data : UnicodeData) {raw : String}
    (h : ∀ c ∈ raw.toList, Plain c) : normalizeForPolicy data raw = plainForm raw.toList := by
  rw [normalizeForPolicy, CharacterData.nfkc_inert data.inert h]

theorem charClasses_plain (data : UnicodeData) {password : List Char}
    (h : ∀ c ∈ password, Plain c) : charClasses data password = charClasses plainData password := by
  have hsame : ∀ {f g : Char → Bool}, (∀ c, Plain c → f c = g c) →
      password.any f = password.any g := by
    intro f g hfg
    rw [List.any_eq, List.any_eq]
    exact decide_eq_decide.mpr (exists_congr fun c => and_congr_right fun hc => by
      rw [hfg c (h c hc)])
  unfold charClasses
  rw [hsame data.isLower_plain, hsame data.isUpper_plain,
    @hsame (fun c => !data.isAlnum c && !pyIsSpace c) (fun c => !plainData.isAlnum c && !pyIsSpace c)
      fun c hc => by rw [data.isAlnum_plain c hc]; rfl]
  rfl

/-- **The verdict on a plain password does not depend on the database.** -/
theorem rejects_plain (data : UnicodeData) (minLength : ℕ) {password : String}
    (h : ∀ c ∈ password.toList, Plain c) :
    Rejects data minLength password ↔
      password.toList.length < minLength ∨
        charClasses plainData password.toList < minCharacterClasses ∨
          patterned (plainForm password.toList) = true ∨ plainForm password.toList ∈ blacklist := by
  rw [rejects_iff, normalizeForPolicy_plain data h, charClasses_plain data h]

/-! ## Normal forms piece by piece -/

theorem plainForm_append (xs ys : List Char) :
    plainForm (xs ++ ys) = plainForm xs ++ plainForm ys := by
  simp only [plainForm, translate, List.flatMap_append, List.filter_append]

theorem plainForm_cons (c : Char) (cs : List Char) :
    plainForm (c :: cs) = plainForm [c] ++ plainForm cs := plainForm_append [c] cs

/-- Noise is dropped. -/
theorem plainForm_noise {c : Char} (hc : c ∈ noiseChars) : plainForm [c] = [] := by
  have hnone : (noiseChars.all fun c => (digitTranslation.lookup c).isNone) = true := by decide
  have hlookup := Option.isNone_iff_eq_none.mp (List.all_eq_true.mp hnone c hc)
  rw [plainForm, translate, List.flatMap_singleton, hlookup, Option.getD_none,
    List.filter_cons_of_neg (by simpa using hc)]
  rfl

/-- Lowercase ASCII letters and ASCII digits. -/
def isSettled (c : Char) : Bool :=
  (decide (48 ≤ c.toNat) && decide (c.toNat ≤ 57)) ||
    (decide (97 ≤ c.toNat) && decide (c.toNat ≤ 122))

theorem isSettled_facts {c : Char} (h : isSettled c = true) :
    (Plain c ∧ pyIsSpace c = false) ∧ digitTranslation.lookup c = none ∧ c ∉ noiseChars ∧
      foldChar c = [c] := by
  simp only [isSettled, Bool.or_eq_true, Bool.and_eq_true, decide_eq_true_eq] at h
  have hothers : (noiseChars.all fun d => decide (d.toNat < 48 ∨ 57 < d.toNat ∧ d.toNat < 97 ∨
      122 < d.toNat)) = true := by decide
  have htable : digitTranslation.all (fun entry => decide (128 ≤ entry.1.toNat)) = true := by decide
  refine ⟨⟨Or.inl (by omega), ?_⟩, ?_, ?_, foldChar_ascii (by omega)⟩
  · simp only [pyIsSpace, Bool.or_eq_false_iff, Bool.and_eq_false_iff, decide_eq_false_iff_not,
      beq_eq_false_iff_ne]
    omega
  · refine List.lookup_eq_none_iff.mpr fun entry hentry => bne_iff_ne.mpr fun heq => ?_
    have hkey := of_decide_eq_true (List.all_eq_true.mp htable entry hentry)
    rw [← heq] at hkey
    omega
  · intro hmem
    have hother := of_decide_eq_true (List.all_eq_true.mp hothers c hmem)
    omega

/-- A character read as settled ones leaves these. -/
theorem plainForm_read {c : Char} {read : List Char}
    (hread : (digitTranslation.lookup c).getD [c] = read) (h : ∀ d ∈ read, isSettled d = true) :
    plainForm [c] = read := by
  rw [plainForm, translate, List.flatMap_singleton, hread]
  clear hread
  induction read with
  | nil => rfl
  | cons d read ih =>
      obtain ⟨-, -, hnoise, hfold⟩ := isSettled_facts (h d List.mem_cons_self)
      rw [List.filter_cons_of_pos (by simpa using hnoise), List.flatMap_cons, hfold,
        ih fun e he => h e (List.mem_cons_of_mem _ he)]
      rfl

/-- A text of settled characters is its own normal form. -/
theorem plainForm_settled {cs : List Char} (h : ∀ c ∈ cs, isSettled c = true) :
    plainForm cs = cs := by
  induction cs with
  | nil => rfl
  | cons c cs ih =>
      have hc := h c List.mem_cons_self
      have hread : (digitTranslation.lookup c).getD [c] = [c] := by
        rw [(isSettled_facts hc).2.1, Option.getD_none]
      rw [plainForm_cons, plainForm_read hread (by simpa using hc),
        ih fun d hd => h d (List.mem_cons_of_mem _ hd)]
      rfl

/-- Noise between two settled texts is dropped. -/
theorem plainForm_broken {xs ys : List Char} {c : Char} (hxs : xs.all isSettled = true)
    (hc : c ∈ noiseChars) (hys : ys.all isSettled = true) : plainForm (xs ++ c :: ys) = xs ++ ys := by
  rw [plainForm_append, plainForm_cons, plainForm_noise hc, List.nil_append,
    plainForm_settled (List.all_eq_true.mp hxs), plainForm_settled (List.all_eq_true.mp hys)]

/-! ## The list -/

/-- A line is a comment, or its bytes are those of settled characters, or it is one of three; it
begins neither with `kz` nor with `ps`. -/
theorem weakPasswords_bytes : ∀ line ∈ weakPasswords,
    (utf8Bytes line).take 2 ∉ [[107, 122], [112, 115]] ∧
      ((utf8Bytes line).head? = some 35 ∨
        ((utf8Bytes line).all fun b =>
          isSettled (Char.ofNat b.toNat) && decide (b.toNat < 128)) = true ∨
        line ∈ ["p@ssw0rd", "p@ssword1", "password1!"]) := by
  decide +kernel

theorem isComment_of_bytes {line : String} (h : (utf8Bytes line).head? = some 35) :
    isComment line = true := by
  obtain ⟨c, rest, hline, hcode⟩ := head_of_utf8Bytes h (by decide)
  obtain rfl : c = '#' := Char.toNat_inj.mp hcode
  have hmark : "#".toList = ['#'] := rfl
  rw [isComment, pyStartsWith, hline, hmark]
  rfl

/-- A line that is no comment is settled or one of three others. -/
theorem weakPasswords_forms {line : String} (hline : line ∈ weakPasswords)
    (hcomment : isComment line = false) : (∀ c ∈ line.toList, isSettled c = true) ∨
      line ∈ ["p@ssw0rd", "p@ssword1", "password1!"] := by
  rcases (weakPasswords_bytes line hline).2 with hmark | hbytes | hother
  · rw [isComment_of_bytes hmark] at hcomment
    cases hcomment
  · left
    intro c hc
    simp only [List.all_eq_true, Bool.and_eq_true, decide_eq_true_eq] at hbytes
    obtain ⟨b, hb, hcode⟩ := exists_utf8Byte (fun b hb => (hbytes b hb).2) hc
    have hsettled := (hbytes b hb).1
    rwa [hcode, Char.ofNat_toNat] at hsettled
  · exact Or.inr hother

/-- The others are settled but for one character. -/
theorem other_lines {line : String} (h : line ∈ ["p@ssw0rd", "p@ssword1", "password1!"]) :
    ∃ xs c ys, line.toList = xs ++ c :: ys ∧ xs.all isSettled = true ∧ c ∈ ['@', '!'] ∧
      ys.all isSettled = true ∧ (xs ++ ys = "pssw0rd".toList ∨ xs ++ ys = "pssword1".toList ∨
        xs ++ ys = "password1".toList) := by
  simp only [List.mem_cons, List.not_mem_nil, or_false] at h
  rcases h with rfl | rfl | rfl
  · exact ⟨['p'], '@', ['s', 's', 'w', '0', 'r', 'd'], String.toList_ofList, rfl,
      List.mem_cons_self, rfl, Or.inl String.toList_ofList.symm⟩
  · exact ⟨['p'], '@', ['s', 's', 'w', 'o', 'r', 'd', '1'], String.toList_ofList, rfl,
      List.mem_cons_self, rfl, Or.inr (Or.inl String.toList_ofList.symm)⟩
  · exact ⟨['p', 'a', 's', 's', 'w', 'o', 'r', 'd', '1'], '!', [], String.toList_ofList, rfl,
      List.mem_cons_of_mem _ List.mem_cons_self, rfl, Or.inr (Or.inr String.toList_ofList.symm)⟩

theorem weakPasswords_plain {line : String} (hline : line ∈ weakPasswords)
    (hcomment : isComment line = false) : ∀ c ∈ line.toList, Plain c ∧ pyIsSpace c = false := by
  have hsettled : ∀ cs : List Char, cs.all isSettled = true → ∀ c ∈ cs,
      Plain c ∧ pyIsSpace c = false := fun cs hcs c hc =>
    (isSettled_facts (List.all_eq_true.mp hcs c hc)).1
  rcases weakPasswords_forms hline hcomment with hall | hother
  · exact hsettled _ (List.all_eq_true.mpr hall)
  · obtain ⟨xs, c, ys, hchars, hxs, hc, hys, -⟩ := other_lines hother
    intro d hd
    rw [hchars, List.mem_append, List.mem_cons] at hd
    rcases hd with hd | rfl | hd
    · exact hsettled xs hxs d hd
    · simp only [List.mem_cons, List.not_mem_nil, or_false] at hc
      rcases hc with rfl | rfl <;> decide
    · exact hsettled ys hys d hd

/-- A line without blanks is kept as it is. -/
theorem pyStrip_weakPasswords {line : String} (hline : line ∈ weakPasswords)
    (hcomment : isComment line = false) : pyStrip line = line := by
  have hspace := weakPasswords_plain hline hcomment
  exact pyStrip_eq_self (fun c hc => (hspace c (List.mem_of_mem_head? hc)).2)
    fun c hc => (hspace c (List.mem_of_getLast? hc)).2

theorem mem_blacklist {line : String} (hline : line ∈ weakPasswords)
    (hcomment : isComment line = false) (hne : line.toList ≠ []) : line.toList ∈ blacklist := by
  refine List.mem_map.mpr ⟨line, List.mem_filter.mpr ⟨hline, ?_⟩, ?_⟩
  · obtain ⟨c, hc⟩ := List.exists_mem_of_ne_nil _ hne
    have hblank : pyIsBlank line = false := by
      refine List.all_eq_false.mpr ⟨c, hc, ?_⟩
      rw [(weakPasswords_plain hline hcomment c hc).2]
      exact Bool.false_ne_true
    rw [hblank, hcomment]
    rfl
  · rw [pyStrip_weakPasswords hline hcomment]

theorem take_two_blacklist {entry : List Char} (h : entry ∈ blacklist) :
    (entry.flatMap String.utf8EncodeChar).take 2 ∉ [[107, 122], [112, 115]] := by
  obtain ⟨line, hkept, rfl⟩ := List.mem_map.mp h
  obtain ⟨hline, hkept⟩ := List.mem_filter.mp hkept
  rw [Bool.and_eq_true, Bool.not_eq_true', Bool.not_eq_true'] at hkept
  rw [pyStrip_weakPasswords hline hkept.2, ← utf8Bytes_eq]
  exact (weakPasswords_bytes line hline).1

/-- Lines that are no comments. -/
theorem kept_lines : ∀ line ∈ ["p@ssw0rd", "p@ssword1", "password1"],
    line ∈ weakPasswords ∧ isComment line = false := by
  decide +kernel

/-- The two lines that are no normal forms. -/
theorem plainForm_unlisted : plainForm "p@ssw0rd".toList = "pssw0rd".toList ∧
    plainForm "p@ssword1".toList = "pssword1".toList := by
  have hat : '@' ∈ noiseChars := by decide
  have hbroken : ∀ ys : List Char, ys.all isSettled = true →
      plainForm (['p'] ++ '@' :: ys) = ['p'] ++ ys := fun ys hys => plainForm_broken rfl hat hys
  have hzero := hbroken ['s', 's', 'w', '0', 'r', 'd'] rfl
  have hone := hbroken ['s', 's', 'w', 'o', 'r', 'd', '1'] rfl
  exact ⟨by rwa [String.toList_ofList, String.toList_ofList],
    by rwa [String.toList_ofList, String.toList_ofList]⟩

/-- **The normal form of a listed line is listed**, two lines apart. -/
theorem plainForm_weakPasswords {line : String} (hline : line ∈ weakPasswords)
    (hcomment : isComment line = false) (hne : line.toList ≠ []) :
    plainForm line.toList ∈ blacklist ∨ plainForm line.toList = "pssw0rd".toList ∨
      plainForm line.toList = "pssword1".toList := by
  have hnoise : ∀ c ∈ ['@', '!'], c ∈ noiseChars := by
    simp only [List.forall_mem_cons, List.not_mem_nil, false_implies, implies_true, and_true]
    decide
  rcases weakPasswords_forms hline hcomment with hsettled | hother
  · rw [plainForm_settled hsettled]
    exact Or.inl (mem_blacklist hline hcomment hne)
  · obtain ⟨xs, c, ys, hchars, hxs, hc, hys, hform⟩ := other_lines hother
    rw [hchars, plainForm_broken hxs (hnoise c hc) hys]
    rcases hform with h | h | h
    · exact Or.inr (Or.inl h)
    · exact Or.inr (Or.inr h)
    · obtain ⟨hlisted, hkept⟩ := kept_lines "password1" (by simp)
      have hsome : "password1".toList ≠ [] := by
        rw [← h]
        intro hnil
        rw [(List.append_eq_nil_iff.mp hnil).1, (List.append_eq_nil_iff.mp hnil).2] at h
        exact absurd h.symm (by simp)
      rw [h]
      exact Or.inl (mem_blacklist hlisted hkept hsome)

/-! ## Passwords of noise -/

/-- A character that is no noise leaves something in the normal form. -/
theorem plainForm_ne_nil {text : List Char} {c : Char} (hc : c ∈ text) (hnoise : c ∉ noiseChars) :
    plainForm text ≠ [] := by
  have hdigits : ∀ entry ∈ digitTranslation,
      (entry.2.any fun d => !noiseChars.contains d) = true := by decide
  have hkept : ∃ d ∈ (digitTranslation.lookup c).getD [c], d ∉ noiseChars := by
    cases hlookup : digitTranslation.lookup c with
    | none => exact ⟨c, List.mem_singleton_self c, hnoise⟩
    | some digits =>
        obtain ⟨before, after, htable, -⟩ := List.lookup_eq_some_iff.mp hlookup
        have hentry := hdigits (c, digits) (htable ▸ List.mem_append_right _ List.mem_cons_self)
        obtain ⟨d, hd, hdnoise⟩ := List.any_eq_true.mp hentry
        exact ⟨d, hd, by simpa using hdnoise⟩
  obtain ⟨d, hd, hdnoise⟩ := hkept
  intro hnil
  have hmem : d ∈ (translate text).filter fun ch => !noiseChars.contains ch :=
    List.mem_filter.mpr ⟨List.mem_flatMap.mpr ⟨c, hc, hd⟩, by simpa using hdnoise⟩
  have hfold : foldChar d = [] := List.flatMap_eq_nil_iff.mp hnil d hmem
  exact foldCode_ne_nil d.toNat (List.map_eq_nil_iff.mp hfold)

/-- **A password whose normal form is empty has no letter of either case**, and so not three
classes of characters. -/
theorem charClasses_of_empty_form (data : UnicodeData) {password : String}
    (h : normalizeForPolicy data password = []) :
    charClasses data password.toList < minCharacterClasses := by
  have hcased : ∀ c ∈ password.toList, (data.isLower c || data.isUpper c) = false := by
    intro c hc
    by_contra hletter
    obtain ⟨d, hd, hnoise⟩ := data.cased_decompose c (Bool.not_eq_false _ ▸ hletter)
    obtain ⟨e, he, henoise⟩ := CharacterData.exists_mem_nfkc (P := fun c => c ∉ noiseChars)
      data.noise_compose ⟨c, hc, d, hd, hnoise⟩
    exact plainForm_ne_nil he henoise h
  have hlower : password.toList.any data.isLower = false := by
    simpa using fun c hc => (Bool.or_eq_false_iff.mp (hcased c hc)).1
  have hupper : password.toList.any data.isUpper = false := by
    simpa using fun c hc => (Bool.or_eq_false_iff.mp (hcased c hc)).2
  unfold charClasses
  rw [hlower, hupper]
  generalize password.toList.any pyIsDigitChar = hasDigit
  generalize (password.toList.any fun c => !data.isAlnum c && !pyIsSpace c) = hasSymbol
  cases hasDigit <;> cases hasSymbol <;> decide

/-! ## A strong password around one digit -/

def sample (digit : Char) : List Char :=
  ['K', 'z', '!', 'm', '1', '3', digit, 'w', 'V', 'q', '#']

theorem platformTokens_chars : platformTokens =
    [['s', 'e', 't', 'a', 'd', 'j', 'a', 'n', 'g'], ['s', 'e', 't', 'a', 'd'],
      ['j', 'a', 'n', 'g'], ['b', 'e', 's', 'a', 't']] := by
  rw [platformTokens, String.toList_ofList, String.toList_ofList, String.toList_ofList,
    String.toList_ofList]

/-- The normal form of the sample is that of its digit between two fixed texts. -/
theorem plainForm_sample (digit : Char) : plainForm (sample digit) =
    ['k', 'z', 'm', '1', '3'] ++ (plainForm [digit] ++ ['w', 'v', 'q']) := by
  have hbefore : plainForm ['K', 'z', '!', 'm', '1', '3'] = ['k', 'z', 'm', '1', '3'] ∧
      plainForm ['w', 'V', 'q', '#'] = ['w', 'v', 'q'] := by decide
  have hsplit : sample digit = ['K', 'z', '!', 'm', '1', '3'] ++ (digit :: ['w', 'V', 'q', '#']) :=
    rfl
  rw [hsplit, plainForm_append, plainForm_cons digit, hbefore.1, hbefore.2]

/-- An Arabic-Indic digit is read as ten and the digit. -/
theorem plainForm_digits : ∀ twin ∈ asciiDigits.zip arabicDigits, twin.1.isDigit = true ∧
    plainForm [twin.1] = [twin.1] ∧ plainForm [twin.2] = ['1', twin.1] := by
  have hread : ∀ twin ∈ asciiDigits.zip arabicDigits, (isSettled twin.1 && twin.1.isDigit) = true ∧
      (digitTranslation.lookup twin.2).getD [twin.2] = ['1', twin.1] := by decide
  intro twin htwin
  obtain ⟨hdigit, hlookup⟩ := hread twin htwin
  rw [Bool.and_eq_true] at hdigit
  have hsettled : ∀ c ∈ [twin.1], isSettled c = true := by simpa using hdigit.1
  refine ⟨hdigit.2, plainForm_settled hsettled, plainForm_read hlookup ?_⟩
  exact List.forall_mem_cons.mpr ⟨rfl, hsettled⟩

/-- With an ASCII digit the sample has no pattern; with the Arabic-Indic one a year of birth
stands in its normal form. -/
theorem sample_forms : ∀ twin ∈ asciiDigits.zip arabicDigits,
    (isPlainText (sample twin.1) && isPlainText (sample twin.2)) = true ∧
      charClasses plainData (sample twin.1) = 4 ∧ patterned (plainForm (sample twin.1)) = false ∧
      ((plainForm (sample twin.1)).flatMap String.utf8EncodeChar).take 2 = [107, 122] ∧
      solarBirthYear (plainForm (sample twin.2)) = true := by
  have hshown : ∀ twin ∈ asciiDigits.zip arabicDigits,
      (isPlainText (sample twin.1) && isPlainText (sample twin.2)) = true ∧
        charClasses plainData (sample twin.1) = 4 ∧
        patterned ['k', 'z', 'm', '1', '3', twin.1, 'w', 'v', 'q'] = false := by
    unfold patterned
    rw [platformTokens_chars]
    decide +kernel
  intro twin htwin
  obtain ⟨hplain, hclasses, hclean⟩ := hshown twin htwin
  obtain ⟨hdigit, hascii, harabic⟩ := plainForm_digits twin htwin
  rw [plainForm_sample, plainForm_sample, hascii, harabic]
  refine ⟨hplain, hclasses, hclean, rfl, ?_⟩
  simp [solarBirthYear, hdigit]

/-- **The Arabic-Indic digit turns the verdict.** -/
theorem sample_verdicts (data : UnicodeData) :
    ∀ twin ∈ asciiDigits.zip arabicDigits,
      ¬ Rejects data minPasswordLength (String.ofList (sample twin.1)) ∧
        Rejects data minPasswordLength (String.ofList (sample twin.2)) := by
  intro twin htwin
  obtain ⟨hplain, hclasses, hclean, htake, hyear⟩ := sample_forms twin htwin
  rw [Bool.and_eq_true] at hplain
  have hplainText : ∀ {cs : List Char}, isPlainText cs = true →
      ∀ c ∈ (String.ofList cs).toList, Plain c := fun h => by
    rw [String.toList_ofList]
    exact plain_of_isPlainText h
  rw [rejects_plain data _ (hplainText hplain.1), rejects_plain data _ (hplainText hplain.2),
    String.toList_ofList, String.toList_ofList]
  have hpattern : patterned (plainForm (sample twin.2)) = true := by
    simp only [patterned, hyear, Bool.true_or, Bool.or_true]
  refine ⟨?_, Or.inr (Or.inr (Or.inl hpattern))⟩
  rintro (hlength | hfew | hpattern | hlisted)
  · exact absurd hlength (show ¬ 11 < 10 by decide)
  · rw [hclasses] at hfew
    exact absurd hfew (by decide)
  · rw [hclean] at hpattern
    cases hpattern
  · have hpair := take_two_blacklist hlisted
    rw [htake] at hpair
    exact hpair List.mem_cons_self

theorem sample_respelled {allowed : Char → Bool} {twin : Char × Char}
    (htwin : twin ∈ asciiDigits.zip arabicDigits) (hallowed : allowed twin.2 = true) :
    Respelled allowed (String.ofList (sample twin.1)) (String.ofList (sample twin.2)) := by
  unfold Respelled sample
  rw [String.toList_ofList, String.toList_ofList]
  have hsame : ∀ c, Twin allowed c c := fun _ => Or.inl rfl
  have hdigit : Twin allowed twin.1 twin.2 := Or.inr ⟨List.mem_append_right _ htwin, hallowed⟩
  exact .cons (hsame _) (.cons (hsame _) (.cons (hsame _) (.cons (hsame _) (.cons (hsame _)
    (.cons (hsame _) (.cons hdigit (List.forall₂_same.mpr fun _ _ => hsame _)))))))

/-! ## What a spelling changes -/

/-- No verdict turns exactly when none of the digits that may come in is Arabic-Indic. -/
theorem verdicts_respelled_iff (data : UnicodeData) (allowed : Char → Bool) :
    (∀ minLength password respelled, Respelled allowed password respelled →
      (Rejects data minLength respelled ↔ Rejects data minLength password)) ↔
        ∀ x ∈ arabicDigits, allowed x = false := by
  refine ⟨fun h x hx => ?_, fun h _ _ _ hrespelled => rejects_respelled data h hrespelled⟩
  by_contra hallowed
  have hlength : asciiDigits.length = arabicDigits.length := rfl
  rw [← List.map_snd_zip hlength.ge] at hx
  obtain ⟨twin, htwin, rfl⟩ := List.mem_map.mp hx
  obtain ⟨haccepted, hrejected⟩ := sample_verdicts data twin htwin
  have hrespelled := sample_respelled htwin ((Bool.not_eq_false _).mp hallowed)
  exact haccepted ((h minPasswordLength _ _ hrespelled).mp hrejected)

/-- Neither form of the two lines that are no normal forms is refused for itself. -/
theorem unlisted_form {normalized : List Char}
    (h : normalized = "pssw0rd".toList ∨ normalized = "pssword1".toList) :
    patterned normalized = false ∧ normalized ∉ blacklist := by
  have hforms : ∀ form ∈ ["pssw0rd".toList, "pssword1".toList],
      patterned form = false ∧ (form.flatMap String.utf8EncodeChar).take 2 = [112, 115] := by
    unfold patterned
    rw [platformTokens_chars, String.toList_ofList, String.toList_ofList]
    decide +kernel
  obtain ⟨hclean, htake⟩ := hforms normalized (by simpa using h)
  refine ⟨hclean, fun hlisted => ?_⟩
  have hpair := take_two_blacklist hlisted
  rw [htake] at hpair
  exact hpair (List.mem_cons_of_mem _ List.mem_cons_self)

/-- A password with the normal form of a line is refused, unless that form is one of two and the
password is long enough and varied enough. -/
theorem rejects_listed_iff (data : UnicodeData) (minLength : ℕ) (password : String) :
    (∀ line ∈ weakPasswords, isComment line = false →
      normalizeForPolicy data password = normalizeForPolicy data line →
        Rejects data minLength password) ↔
      (normalizeForPolicy data password = "pssw0rd".toList ∨
          normalizeForPolicy data password = "pssword1".toList →
        password.toList.length < minLength ∨
          charClasses data password.toList < minCharacterClasses) := by
  have hform : ∀ {line}, line ∈ weakPasswords → isComment line = false →
      normalizeForPolicy data line = plainForm line.toList := fun hline hcomment =>
    normalizeForPolicy_plain data fun c hc => (weakPasswords_plain hline hcomment c hc).1
  constructor
  · intro hall hunlisted
    have hrejected : Rejects data minLength password := by
      obtain ⟨hzero, hzero'⟩ := kept_lines "p@ssw0rd" List.mem_cons_self
      obtain ⟨hone, hone'⟩ := kept_lines "p@ssword1"
        (List.mem_cons_of_mem _ List.mem_cons_self)
      obtain ⟨hzeroForm, honeForm⟩ := plainForm_unlisted
      rcases hunlisted with h | h
      · exact hall _ hzero hzero' (by rw [hform hzero hzero', hzeroForm, h])
      · exact hall _ hone hone' (by rw [hform hone hone', honeForm, h])
    obtain ⟨hclean, hnot⟩ := unlisted_form hunlisted
    rcases (rejects_iff data minLength password).mp hrejected with
      hlength | hfew | hpattern | hlisted
    · exact Or.inl hlength
    · exact Or.inr hfew
    · rw [hclean] at hpattern
      cases hpattern
    · exact absurd hlisted hnot
  · intro hcond line hline hcomment heq
    rw [rejects_iff]
    rw [hform hline hcomment] at heq
    by_cases hempty : line.toList = []
    · rw [hempty] at heq
      exact Or.inr (Or.inl (charClasses_of_empty_form data heq))
    · rcases plainForm_weakPasswords hline hcomment hempty with hlisted | hunlisted
      · exact Or.inr (Or.inr (Or.inr (heq ▸ hlisted)))
      · rcases hcond (by rwa [heq]) with hlength | hfew
        · exact Or.inl hlength
        · exact Or.inr (Or.inl hfew)

/-- **The spellings the policy sees through.**  For every set of digits that may come in, every
verdict stays just when none of them is Arabic-Indic; and a password with the normal form of a
line of the list is refused, two forms apart. -/
theorem policy_spellings_iff (data : UnicodeData) :
    (∀ allowed : Char → Bool,
      (∀ minLength password respelled, Respelled allowed password respelled →
        (Rejects data minLength respelled ↔ Rejects data minLength password)) ↔
          ∀ x ∈ arabicDigits, allowed x = false) ∧
      ∀ minLength password,
        (∀ line ∈ weakPasswords, isComment line = false →
          normalizeForPolicy data password = normalizeForPolicy data line →
            Rejects data minLength password) ↔
          (normalizeForPolicy data password = "pssw0rd".toList ∨
              normalizeForPolicy data password = "pssword1".toList →
            password.toList.length < minLength ∨
              charClasses data password.toList < minCharacterClasses) :=
  ⟨verdicts_respelled_iff data, rejects_listed_iff data⟩

/-- `Kz!m134wVq#` passes and is refused with an Arabic-Indic four; `P@ssw0rd!!!` passes, though
its normal form is that of the line `p@ssw0rd`. -/
theorem spellings_turn_verdicts :
    (∀ data : UnicodeData, Respelled (fun _ => true) "Kz!m134wVq#" "Kz!m13٤wVq#" ∧
      ¬ Rejects data minPasswordLength "Kz!m134wVq#" ∧
        Rejects data minPasswordLength "Kz!m13٤wVq#") ∧
      "p@ssw0rd" ∈ weakPasswords ∧ isComment "p@ssw0rd" = false ∧
      ∀ data : UnicodeData,
        normalizeForPolicy data "P@ssw0rd!!!" = normalizeForPolicy data "p@ssw0rd" ∧
          ¬ Rejects data minPasswordLength "P@ssw0rd!!!" := by
  have hfour : ('4', '٤') ∈ asciiDigits.zip arabicDigits := by decide
  have hchars : "P@ssw0rd!!!".toList = ['P', '@', 's', 's', 'w', '0', 'r', 'd', '!', '!', '!'] :=
    String.toList_ofList
  have hstrong : isPlainText "P@ssw0rd!!!".toList = true ∧ "P@ssw0rd!!!".toList.length = 11 ∧
      charClasses plainData "P@ssw0rd!!!".toList = 4 ∧
      plainForm "P@ssw0rd!!!".toList = ['p', 's', 's', 'w', '0', 'r', 'd'] := by
    rw [hchars]
    decide +kernel
  obtain ⟨hplain, hlength, hclasses, hform⟩ := hstrong
  have hpassword := plain_of_isPlainText hplain
  have hpasswordForm : plainForm "P@ssw0rd!!!".toList = "pssw0rd".toList :=
    hform.trans String.toList_ofList.symm
  have hlisted := kept_lines "p@ssw0rd" List.mem_cons_self
  have hline : ∀ c ∈ "p@ssw0rd".toList, Plain c := fun c hc =>
    (weakPasswords_plain hlisted.1 hlisted.2 c hc).1
  have hsample : "Kz!m134wVq#" = String.ofList (sample '4') ∧
      "Kz!m13٤wVq#" = String.ofList (sample '٤') := ⟨rfl, rfl⟩
  have hrespelled := @sample_respelled (fun _ => true) ('4', '٤') hfour rfl
  rw [hsample.1, hsample.2]
  refine ⟨fun data => ⟨hrespelled, sample_verdicts data ('4', '٤') hfour⟩, hlisted.1, hlisted.2,
    fun data => ⟨?_, ?_⟩⟩
  · rw [normalizeForPolicy_plain data hpassword, normalizeForPolicy_plain data hline,
      hpasswordForm, plainForm_unlisted.1]
  · obtain ⟨hclean, hnot⟩ := unlisted_form (Or.inl hpasswordForm)
    rw [rejects_plain data _ hpassword, hlength, hclasses, hclean]
    rintro (hlength | hfew | hpattern | hlisted)
    · exact absurd hlength (by decide)
    · exact absurd hfew (by decide)
    · cases hpattern
    · exact hnot hlisted

end SetadJang.Authentication
