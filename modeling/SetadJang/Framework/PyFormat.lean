import Mathlib.Data.Int.Basic
import Mathlib.Tactic.Common
import SetadJang.Framework.PyText

/-!
# Python's `str` of numbers and dates

`str(Decimal)`, `str(date)`, `str(datetime)` and `str(slice)`, as the standard
library writes them.  Each text is a sequence of digit blocks with other
characters in between, so it can be read in one way only: two values with one
text are one value.
-/

namespace SetadJang.Framework

/-! ## Digit blocks -/

def Digits (cs : List Char) : Prop := ∀ c ∈ cs, c.isDigit = true

/-- The text is empty or starts with another character. -/
def Stops (cs : List Char) : Prop := ∀ c ∈ cs.head?, c.isDigit = false

/-- A digit block ends where the digits end. -/
theorem digits_append_inj {as as' bs bs' : List Char} (ha : Digits as) (ha' : Digits as')
    (hb : Stops bs) (hb' : Stops bs') (h : as ++ bs = as' ++ bs') : as = as' ∧ bs = bs' := by
  have hnone : ∀ {mid rest tail : List Char}, Digits mid → Stops tail → tail = mid ++ rest →
      mid = [] := by
    intro mid rest tail hmid htail heq
    cases mid with
    | nil => rfl
    | cons c mid =>
        have hdigit := hmid c List.mem_cons_self
        have hstop := htail c (by rw [heq]; rfl)
        rw [hdigit] at hstop
        cases hstop
  rcases List.append_eq_append_iff.mp h with ⟨mid, rfl, hmid⟩ | ⟨mid, rfl, hmid⟩
  · obtain rfl := hnone (fun c hc => ha' c (List.mem_append_right _ hc)) hb hmid
    exact ⟨by simp, by simpa using hmid⟩
  · obtain rfl := hnone (fun c hc => ha c (List.mem_append_right _ hc)) hb' hmid
    exact ⟨by simp, by simpa using hmid.symm⟩

theorem digits_toDigits (n : ℕ) : Digits (Nat.toDigits 10 n) := by
  intro c hc
  exact Nat.isDigit_of_mem_toDigits (by decide) (Nat.le_refl 10) hc

/-- The number a digit block stands for. -/
def digitsValue (cs : List Char) : ℕ := Nat.ofDigitChars 10 cs 0

theorem digitsValue_zeros (k n : ℕ) :
    digitsValue (List.replicate k '0' ++ Nat.toDigits 10 n) = n := by
  simp [digitsValue, Nat.ofDigitChars_append]

/-- `"%0wd" % n`. -/
def padded (w n : ℕ) : List Char :=
  List.replicate (w - (Nat.toDigits 10 n).length) '0' ++ Nat.toDigits 10 n

theorem digits_padded (w n : ℕ) : Digits (padded w n) := by
  intro c hc
  rcases List.mem_append.mp hc with hzero | hdigit
  · rw [List.eq_of_mem_replicate hzero]
    rfl
  · exact digits_toDigits n c hdigit

theorem padded_inj {w m n : ℕ} (h : padded w m = padded w n) : m = n := by
  have hvalue := congrArg digitsValue h
  rwa [padded, padded, digitsValue_zeros, digitsValue_zeros] at hvalue

/-- A padded number and what follows it are read back in one way. -/
theorem padded_append_inj {w m n : ℕ} {bs bs' : List Char} (hb : Stops bs) (hb' : Stops bs')
    (h : padded w m ++ bs = padded w n ++ bs') : m = n ∧ bs = bs' := by
  obtain ⟨hnum, hrest⟩ := digits_append_inj (digits_padded w m) (digits_padded w n) hb hb' h
  exact ⟨padded_inj hnum, hrest⟩

theorem stops_cons {c : Char} (hc : c.isDigit = false) (cs : List Char) : Stops (c :: cs) := by
  intro d hd
  cases hd
  exact hc

theorem stops_nil : Stops [] := by
  intro c hc
  cases hc

/-! ## Dates -/

structure PyDate where
  year : ℕ
  month : ℕ
  day : ℕ
deriving DecidableEq, Repr

/-- `date.isoformat()` with what follows it. -/
def PyDate.iso (d : PyDate) (rest : List Char) : List Char :=
  padded 4 d.year ++ '-' :: (padded 2 d.month ++ '-' :: (padded 2 d.day ++ rest))

theorem PyDate.iso_inj {d e : PyDate} {bs bs' : List Char} (hb : Stops bs) (hb' : Stops bs')
    (h : d.iso bs = e.iso bs') : d = e ∧ bs = bs' := by
  obtain ⟨hyear, h⟩ := padded_append_inj (stops_cons (by decide) _) (stops_cons (by decide) _) h
  obtain ⟨hmonth, h⟩ := padded_append_inj (stops_cons (by decide) _) (stops_cons (by decide) _)
    (List.cons.inj h).2
  obtain ⟨hday, hrest⟩ := padded_append_inj hb hb' (List.cons.inj h).2
  obtain ⟨year, month, day⟩ := d
  cases hyear
  cases hmonth
  cases hday
  exact ⟨rfl, hrest⟩

/-- A datetime with microseconds and, when it is aware, its UTC offset in
seconds. -/
structure PyDateTime where
  date : PyDate
  hour : ℕ
  minute : ℕ
  second : ℕ
  microsecond : ℕ
  utcoffset : Option ℤ
deriving DecidableEq, Repr

/-- `+HH:MM` or `+HH:MM:SS`. -/
def offsetText (o : ℤ) : List Char :=
  (if o < 0 then '-' else '+') :: (padded 2 (o.natAbs / 3600) ++
    ':' :: (padded 2 (o.natAbs % 3600 / 60) ++
      if o.natAbs % 60 = 0 then [] else ':' :: padded 2 (o.natAbs % 60)))

theorem offsetText_inj {o p : ℤ} (h : offsetText o = offsetText p) : o = p := by
  have hstops : ∀ q : ℤ,
      Stops (if q.natAbs % 60 = 0 then [] else ':' :: padded 2 (q.natAbs % 60)) := by
    intro q
    split
    · exact stops_nil
    · exact stops_cons (by decide) _
  obtain ⟨hsign, h⟩ := List.cons.inj h
  obtain ⟨hhour, h⟩ := padded_append_inj (stops_cons (by decide) _) (stops_cons (by decide) _) h
  obtain ⟨hminute, h⟩ := padded_append_inj (hstops o) (hstops p) (List.cons.inj h).2
  have hsecond : o.natAbs % 60 = p.natAbs % 60 := by
    split at h
    · split at h
      · omega
      · cases h
    · split at h
      · cases h
      · exact padded_inj (List.cons.inj h).2
  have hneg : o < 0 ↔ p < 0 := by
    by_cases ho : o < 0 <;> by_cases hp : p < 0 <;> simp [ho, hp] at hsign ⊢
  omega

/-- `.ffffff`, absent at zero, and the offset of an aware value. -/
def PyDateTime.tail (t : PyDateTime) : List Char :=
  (if t.microsecond = 0 then [] else '.' :: padded 6 t.microsecond) ++
    t.utcoffset.elim [] offsetText

/-- `str(datetime)`. -/
def PyDateTime.str (t : PyDateTime) : List Char :=
  t.date.iso (' ' :: (padded 2 t.hour ++ ':' :: (padded 2 t.minute ++
    ':' :: (padded 2 t.second ++ t.tail))))

theorem offset_head (o : Option ℤ) :
    o.elim [] offsetText = [] ∨ ∃ c cs, o.elim [] offsetText = c :: cs ∧ (c = '-' ∨ c = '+') := by
  cases o with
  | none => exact Or.inl rfl
  | some o =>
      right
      refine ⟨_, _, rfl, ?_⟩
      by_cases ho : o < 0
      · exact Or.inl (if_pos ho)
      · exact Or.inr (if_neg ho)

theorem stops_offset (o : Option ℤ) : Stops (o.elim [] offsetText) := by
  rcases offset_head o with h | ⟨c, cs, h, rfl | rfl⟩ <;> rw [h]
  · exact stops_nil
  · exact stops_cons (by decide) _
  · exact stops_cons (by decide) _

theorem PyDateTime.stops_tail (t : PyDateTime) : Stops t.tail := by
  unfold PyDateTime.tail
  split
  · exact stops_offset _
  · exact stops_cons (by decide) _

theorem offset_ne_dot {o : Option ℤ} {cs : List Char} : o.elim [] offsetText ≠ '.' :: cs := by
  intro h
  rcases offset_head o with hnil | ⟨c, ds, hcons, rfl | rfl⟩
  · rw [hnil] at h
    cases h
  · rw [hcons] at h
    cases h
  · rw [hcons] at h
    cases h

theorem offset_inj {o p : Option ℤ} (h : o.elim [] offsetText = p.elim [] offsetText) : o = p := by
  cases o with
  | none =>
      cases p with
      | none => rfl
      | some p => cases h
  | some o =>
      cases p with
      | none => cases h
      | some p => rw [offsetText_inj h]

theorem PyDateTime.tail_inj {t u : PyDateTime} (h : t.tail = u.tail) :
    t.microsecond = u.microsecond ∧ t.utcoffset = u.utcoffset := by
  unfold PyDateTime.tail at h
  split at h
  · next ht =>
      split at h
      · next hu => exact ⟨by rw [ht, hu], offset_inj (by simpa using h)⟩
      · exact absurd h offset_ne_dot
  · split at h
    · exact absurd h.symm offset_ne_dot
    · obtain ⟨hmicro, hoffset⟩ :=
        padded_append_inj (stops_offset _) (stops_offset _) (List.cons.inj h).2
      exact ⟨hmicro, offset_inj hoffset⟩

theorem PyDateTime.str_inj {t u : PyDateTime} (h : t.str = u.str) : t = u := by
  obtain ⟨hdate, h⟩ := PyDate.iso_inj (stops_cons (by decide) _) (stops_cons (by decide) _) h
  obtain ⟨hhour, h⟩ := padded_append_inj (stops_cons (by decide) _) (stops_cons (by decide) _)
    (List.cons.inj h).2
  obtain ⟨hminute, h⟩ := padded_append_inj (stops_cons (by decide) _) (stops_cons (by decide) _)
    (List.cons.inj h).2
  obtain ⟨hsecond, h⟩ := padded_append_inj t.stops_tail u.stops_tail (List.cons.inj h).2
  obtain ⟨hmicro, hoffset⟩ := PyDateTime.tail_inj h
  obtain ⟨date, hour, minute, second, microsecond, utcoffset⟩ := t
  cases hdate
  cases hhour
  cases hminute
  cases hsecond
  cases hmicro
  cases hoffset
  rfl

/-! ## Decimals -/

/-- A finite `Decimal`: sign, coefficient and exponent. -/
structure PyDecimal where
  negative : Bool
  coeff : ℕ
  exponent : ℤ
deriving DecidableEq, Repr

/-- The number of digits left of the point when there is no exponent. -/
def PyDecimal.leftDigits (d : PyDecimal) : ℤ := d.exponent + (Nat.toDigits 10 d.coeff).length

/-- Where the point is written: in place for small exponents, else after the
first digit. -/
def PyDecimal.dotPlace (d : PyDecimal) : ℤ :=
  if d.exponent ≤ 0 ∧ -6 < d.leftDigits then d.leftDigits else 1

def PyDecimal.intPart (d : PyDecimal) : List Char :=
  if d.dotPlace ≤ 0 then ['0'] else (Nat.toDigits 10 d.coeff).take d.dotPlace.toNat

def PyDecimal.fracPart (d : PyDecimal) : List Char :=
  if d.dotPlace ≤ 0 then List.replicate (-d.dotPlace).toNat '0' ++ Nat.toDigits 10 d.coeff
  else (Nat.toDigits 10 d.coeff).drop d.dotPlace.toNat

/-- `"%+d" % n`. -/
def signedText (n : ℤ) : List Char := (if n < 0 then '-' else '+') :: Nat.toDigits 10 n.natAbs

def PyDecimal.expText (d : PyDecimal) : List Char :=
  if d.leftDigits = d.dotPlace then [] else 'E' :: signedText (d.leftDigits - d.dotPlace)

def PyDecimal.fracText (d : PyDecimal) : List Char :=
  if d.fracPart = [] then [] else '.' :: d.fracPart

/-- `str(Decimal)`.  The point is never written right of the last digit, so the
integer part needs no zeros at its end. -/
def PyDecimal.str (d : PyDecimal) : List Char :=
  (if d.negative then ['-'] else []) ++ (d.intPart ++ (d.fracText ++ d.expText))

theorem PyDecimal.dotPlace_le (d : PyDecimal) :
    d.dotPlace ≤ (Nat.toDigits 10 d.coeff).length := by
  have hpos : 0 < (Nat.toDigits 10 d.coeff).length := Nat.length_toDigits_pos
  unfold PyDecimal.dotPlace
  split
  · next h =>
      unfold PyDecimal.leftDigits
      omega
  · omega

theorem PyDecimal.digits_intPart (d : PyDecimal) : Digits d.intPart := by
  unfold PyDecimal.intPart
  split
  · intro c hc
    rw [List.mem_singleton.mp hc]
    rfl
  · intro c hc
    exact digits_toDigits _ c (List.mem_of_mem_take hc)

theorem PyDecimal.digits_fracPart (d : PyDecimal) : Digits d.fracPart := by
  unfold PyDecimal.fracPart
  split
  · intro c hc
    rcases List.mem_append.mp hc with hzero | hdigit
    · rw [List.eq_of_mem_replicate hzero]
      rfl
    · exact digits_toDigits _ c hdigit
  · intro c hc
    exact digits_toDigits _ c (List.mem_of_mem_drop hc)

/-- The written digits are the coefficient. -/
theorem PyDecimal.value_parts (d : PyDecimal) : digitsValue (d.intPart ++ d.fracPart) = d.coeff := by
  unfold PyDecimal.intPart PyDecimal.fracPart
  split
  · rw [← List.append_assoc, show ['0'] = List.replicate 1 '0' from rfl,
      ← List.replicate_add, digitsValue_zeros]
  · rw [List.take_append_drop]
    exact digitsValue_zeros 0 _

/-- The digits after the point. -/
theorem PyDecimal.length_fracPart (d : PyDecimal) :
    (d.fracPart.length : ℤ) = (Nat.toDigits 10 d.coeff).length - d.dotPlace := by
  have hle := d.dotPlace_le
  unfold PyDecimal.fracPart
  split
  · rw [List.length_append, List.length_replicate]
    omega
  · rw [List.length_drop]
    omega

theorem signedText_inj {m n : ℤ} (h : signedText m = signedText n) : m = n := by
  obtain ⟨hsign, hdigits⟩ := List.cons.inj h
  have habs : m.natAbs = n.natAbs := by
    rw [← Nat.ofDigitChars_ten_toDigits (n := m.natAbs), hdigits, Nat.ofDigitChars_ten_toDigits]
  have hneg : m < 0 ↔ n < 0 := by
    by_cases hm : m < 0 <;> by_cases hn : n < 0 <;> simp [hm, hn] at hsign ⊢
  omega

theorem PyDecimal.expText_inj {d e : PyDecimal} (h : d.expText = e.expText) :
    d.leftDigits - d.dotPlace = e.leftDigits - e.dotPlace := by
  unfold PyDecimal.expText at h
  split at h
  · split at h
    · omega
    · cases h
  · split at h
    · cases h
    · exact signedText_inj (List.cons.inj h).2

theorem PyDecimal.expText_head (d : PyDecimal) : d.expText = [] ∨ ∃ cs, d.expText = 'E' :: cs := by
  unfold PyDecimal.expText
  split
  · exact Or.inl rfl
  · exact Or.inr ⟨_, rfl⟩

theorem PyDecimal.stops_expText (d : PyDecimal) : Stops d.expText := by
  rcases d.expText_head with h | ⟨cs, h⟩ <;> rw [h]
  · exact stops_nil
  · exact stops_cons (by decide) _

theorem PyDecimal.expText_ne_dot {d : PyDecimal} {cs : List Char} : d.expText ≠ '.' :: cs := by
  intro h
  rcases d.expText_head with hnil | ⟨ds, hcons⟩
  · rw [hnil] at h
    cases h
  · rw [hcons] at h
    cases h

theorem PyDecimal.fracText_append_inj {d e : PyDecimal}
    (h : d.fracText ++ d.expText = e.fracText ++ e.expText) :
    d.fracPart = e.fracPart ∧ d.expText = e.expText := by
  unfold PyDecimal.fracText at h
  split at h
  · next hd =>
      split at h
      · next he => exact ⟨by rw [hd, he], h⟩
      · exact absurd h PyDecimal.expText_ne_dot
  · split at h
    · exact absurd h.symm PyDecimal.expText_ne_dot
    · exact digits_append_inj d.digits_fracPart e.digits_fracPart d.stops_expText
        e.stops_expText (List.cons.inj h).2

theorem PyDecimal.stops_fracText (d : PyDecimal) : Stops (d.fracText ++ d.expText) := by
  unfold PyDecimal.fracText
  split
  · exact d.stops_expText
  · exact stops_cons (by decide) _

/-- The integer part starts with a digit, not with a sign. -/
theorem PyDecimal.intPart_head (d : PyDecimal) (rest : List Char) :
    ∃ c cs, d.intPart ++ rest = c :: cs ∧ c.isDigit = true := by
  have hdigits := d.digits_intPart
  have hne : d.intPart ≠ [] := by
    unfold PyDecimal.intPart
    split
    · simp
    · next h =>
        have hpos : 0 < (Nat.toDigits 10 d.coeff).length := Nat.length_toDigits_pos
        intro hnil
        have hlen := congrArg List.length hnil
        rw [List.length_take, List.length_nil] at hlen
        omega
  cases hint : d.intPart with
  | nil => exact absurd hint hne
  | cons c cs =>
      rw [hint] at hdigits
      exact ⟨c, cs ++ rest, rfl, hdigits c List.mem_cons_self⟩

theorem PyDecimal.str_inj {d e : PyDecimal} (h : d.str = e.str) : d = e := by
  unfold PyDecimal.str at h
  have hsign : d.negative = e.negative ∧ d.intPart ++ (d.fracText ++ d.expText) =
      e.intPart ++ (e.fracText ++ e.expText) := by
    obtain ⟨c, cs, hd, hc⟩ := d.intPart_head (d.fracText ++ d.expText)
    obtain ⟨c', cs', he, hc'⟩ := e.intPart_head (e.fracText ++ e.expText)
    rw [hd, he] at h ⊢
    cases hdn : d.negative <;> cases hen : e.negative <;> simp [hdn, hen] at h ⊢
    · exact h
    · rw [h.1] at hc
      cases hc
    · rw [← h.1] at hc'
      cases hc'
    · exact h
  obtain ⟨hneg, h⟩ := hsign
  obtain ⟨hint, h⟩ := digits_append_inj d.digits_intPart e.digits_intPart d.stops_fracText
    e.stops_fracText h
  obtain ⟨hfrac, hexp⟩ := PyDecimal.fracText_append_inj h
  have hcoeff : d.coeff = e.coeff := by
    rw [← d.value_parts, hint, hfrac, e.value_parts]
  have hexponent : d.exponent = e.exponent := by
    have hshift := PyDecimal.expText_inj hexp
    have hd := d.length_fracPart
    have he := e.length_fracPart
    rw [hfrac] at hd
    unfold PyDecimal.leftDigits at hshift
    omega
  obtain ⟨negative, coeff, exponent⟩ := d
  cases hneg
  cases hcoeff
  cases hexponent
  rfl

example : String.ofList (PyDecimal.str ⟨true, 150, -2⟩) = "-1.50" := by decide

example : String.ofList (PyDecimal.str ⟨false, 12, 3⟩) = "1.2E+4" := by decide

/-! ## Characters of these texts -/

/-- The characters that numbers and dates are written with. -/
def formatChar (c : Char) : Bool := c.isDigit || ['-', '+', ':', '.', ' ', 'E'].contains c

def Formatted (cs : List Char) : Prop := ∀ c ∈ cs, formatChar c = true

theorem Formatted.not_mem {cs : List Char} (h : Formatted cs) {c : Char}
    (hc : formatChar c = false) : c ∉ cs := by
  intro hmem
  rw [h c hmem] at hc
  cases hc

theorem formatted_nil : Formatted [] := by
  intro c hc
  cases hc

theorem formatted_cons {c : Char} {cs : List Char} (hc : formatChar c = true) (h : Formatted cs) :
    Formatted (c :: cs) := by
  intro d hd
  rcases List.mem_cons.mp hd with rfl | hd
  · exact hc
  · exact h d hd

theorem formatted_append {as bs : List Char} (ha : Formatted as) (hb : Formatted bs) :
    Formatted (as ++ bs) := by
  intro c hc
  rcases List.mem_append.mp hc with hc | hc
  · exact ha c hc
  · exact hb c hc

theorem Digits.formatted {cs : List Char} (h : Digits cs) : Formatted cs := by
  intro c hc
  simp [formatChar, h c hc]

theorem formatted_ite {c : Prop} [Decidable c] {as bs : List Char} (ha : Formatted as)
    (hb : Formatted bs) : Formatted (if c then as else bs) := by
  split
  · exact ha
  · exact hb

theorem formatted_padded (w n : ℕ) : Formatted (padded w n) := (digits_padded w n).formatted

theorem PyDate.formatted_iso (d : PyDate) {rest : List Char} (h : Formatted rest) :
    Formatted (d.iso rest) :=
  formatted_append (formatted_padded _ _) (formatted_cons (by decide)
    (formatted_append (formatted_padded _ _) (formatted_cons (by decide)
      (formatted_append (formatted_padded _ _) h))))

theorem formatted_offsetText (o : ℤ) : Formatted (offsetText o) := by
  refine formatted_cons ?_ (formatted_append (formatted_padded _ _) (formatted_cons (by decide)
    (formatted_append (formatted_padded _ _) (formatted_ite formatted_nil
      (formatted_cons (by decide) (formatted_padded _ _))))))
  split <;> decide

theorem PyDateTime.formatted_str (t : PyDateTime) : Formatted t.str := by
  have hoffset : Formatted (t.utcoffset.elim [] offsetText) := by
    cases t.utcoffset with
    | none => exact formatted_nil
    | some o => exact formatted_offsetText o
  have htail : Formatted t.tail :=
    formatted_append (formatted_ite formatted_nil
      (formatted_cons (by decide) (formatted_padded _ _))) hoffset
  exact t.date.formatted_iso (formatted_cons (by decide) (formatted_append (formatted_padded _ _)
    (formatted_cons (by decide) (formatted_append (formatted_padded _ _)
      (formatted_cons (by decide) (formatted_append (formatted_padded _ _) htail))))))

theorem PyDecimal.formatted_str (d : PyDecimal) : Formatted d.str := by
  have hsigned : ∀ n : ℤ, Formatted (signedText n) := by
    intro n
    refine formatted_cons ?_ (digits_toDigits _).formatted
    split <;> decide
  exact formatted_append (formatted_ite (formatted_cons (by decide) formatted_nil) formatted_nil)
    (formatted_append d.digits_intPart.formatted
      (formatted_append
        (formatted_ite formatted_nil (formatted_cons (by decide) d.digits_fracPart.formatted))
        (formatted_ite formatted_nil (formatted_cons (by decide) (hsigned _)))))

/-! ## Ranges -/

/-- The text `Decimal(` with the opening quote. -/
def decimalOpen : List Char := ['D', 'e', 'c', 'i', 'm', 'a', 'l', '(', '\x27']

def decimalClose : List Char := ['\x27', ')']

/-- `repr` of a bound of a range: `None`, or a decimal in quotes. -/
def boundRepr : Option PyDecimal → List Char
  | none => ['N', 'o', 'n', 'e']
  | some d => decimalOpen ++ (d.str ++ decimalClose)

/-- `str(slice(start, stop))`. -/
def sliceText (start stop : Option PyDecimal) : List Char :=
  ['s', 'l', 'i', 'c', 'e', '('] ++ (boundRepr start ++ ',' :: (' ' :: (boundRepr stop ++
    [',', ' ', 'N', 'o', 'n', 'e', ')'])))

theorem boundRepr_plain (b : Option PyDecimal) {c : Char} (hc : formatChar c = false)
    (hnone : c ∉ ['N', 'o', 'n', 'e']) (hopen : c ∉ decimalOpen) (hclose : c ∉ decimalClose) :
    c ∉ boundRepr b := by
  intro hmem
  cases b with
  | none => exact hnone hmem
  | some d =>
      simp only [boundRepr, List.mem_append] at hmem
      rcases hmem with hmem | hmem | hmem
      · exact hopen hmem
      · exact d.formatted_str.not_mem hc hmem
      · exact hclose hmem

theorem boundRepr_inj {b b' : Option PyDecimal} (h : boundRepr b = boundRepr b') : b = b' := by
  cases b with
  | none =>
      cases b' with
      | none => rfl
      | some e => cases (List.cons.inj h).1
  | some d =>
      cases b' with
      | none => cases (List.cons.inj h).1
      | some e =>
          rw [boundRepr, boundRepr, List.append_right_inj, List.append_left_inj] at h
          rw [PyDecimal.str_inj h]

theorem sliceText_inj {a b a' b' : Option PyDecimal} (h : sliceText a b = sliceText a' b') :
    a = a' ∧ b = b' := by
  have hcomma : ∀ o, ',' ∉ boundRepr o := by
    intro o
    exact boundRepr_plain o (by decide) (by decide) (by decide) (by decide)
  unfold sliceText at h
  rw [List.append_right_inj] at h
  obtain ⟨hstart, hrest⟩ := append_cons_inj (hcomma a) (hcomma a') h
  rw [List.cons.injEq, List.append_left_inj] at hrest
  exact ⟨boundRepr_inj hstart, boundRepr_inj hrest.2⟩

end SetadJang.Framework
