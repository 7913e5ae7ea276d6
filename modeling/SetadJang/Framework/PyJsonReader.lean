import Mathlib.Data.List.TakeWhile
import SetadJang.Framework.PyFormat
import SetadJang.Framework.PyJson

/-!
# Reading JSON texts

`json.loads`, as the scanner of the standard library goes over a text, and what it makes of a
text that `json.dumps` has written: the value with its dictionaries sorted and their keys as
strings.  A number with a fraction or an exponent is a float, which is kept as its text.
-/

namespace SetadJang.Framework

/-! ## Blanks -/

def isJsonBlank (c : Char) : Bool := c == ' ' || c == '\t' || c == '\n' || c == '\r'

def skipBlanks (cs : List Char) : List Char := cs.dropWhile isJsonBlank

/-! ## Strings -/

def hexDigitValue (c : Char) : Option ℕ :=
  if c.isDigit then some (c.toNat - 48)
  else if 'a' ≤ c ∧ c ≤ 'f' then some (c.toNat - 87)
  else if 'A' ≤ c ∧ c ≤ 'F' then some (c.toNat - 55)
  else none

/-- The four digits after `\u`. -/
def scanHex : List Char → Option (ℕ × List Char)
  | a :: b :: c :: d :: rest => do
      some (((← hexDigitValue a) * 4096 + (← hexDigitValue b) * 256 + (← hexDigitValue c) * 16 + (← hexDigitValue d)),
        rest)
  | _ => none

def unescape (c : Char) : Option Char :=
  match c with
  | '"' => some '"'
  | '\\' => some '\\'
  | '/' => some '/'
  | 'b' => some (Char.ofNat 8)
  | 'f' => some (Char.ofNat 12)
  | 'n' => some '\n'
  | 'r' => some '\r'
  | 't' => some '\t'
  | _ => none

/-- What follows a backslash.  A surrogate without its pair, which Python keeps, is no character
here. -/
def scanEscape : List Char → Option (Char × List Char)
  | 'u' :: rest => do
      let (unit, rest) ← scanHex rest
      if 0xD800 ≤ unit ∧ unit < 0xDC00 then
        match rest with
        | '\\' :: 'u' :: rest => do
            let (low, rest) ← scanHex rest
            if 0xDC00 ≤ low ∧ low < 0xE000 then
              some (Char.ofNat (0x10000 + (unit - 0xD800) * 0x400 + (low - 0xDC00)), rest)
            else none
        | _ => none
      else if 0xDC00 ≤ unit ∧ unit < 0xE000 then none
      else some (Char.ofNat unit, rest)
  | c :: rest => (unescape c).map fun decoded => (decoded, rest)
  | [] => none

/-- A string after its opening quote; the control characters must be escaped. -/
def scanString : ℕ → List Char → Option (List Char × List Char)
  | 0, _ => none
  | _ + 1, [] => none
  | n + 1, c :: rest =>
      if c = '"' then some ([], rest)
      else if c = '\\' then
        (scanEscape rest).bind fun escaped =>
          (scanString n escaped.2).map fun read => (escaped.1 :: read.1, read.2)
      else if c.toNat < 32 then none
      else (scanString n rest).map fun read => (c :: read.1, read.2)

/-! ## Numbers and constants -/

def scanWhole : List Char → Option (List Char × List Char)
  | '0' :: rest => some (['0'], rest)
  | cs =>
      if cs.takeWhile Char.isDigit = [] then none
      else some (cs.takeWhile Char.isDigit, cs.dropWhile Char.isDigit)

def scanFraction : List Char → List Char × List Char
  | '.' :: rest =>
      if rest.takeWhile Char.isDigit = [] then ([], '.' :: rest)
      else ('.' :: rest.takeWhile Char.isDigit, rest.dropWhile Char.isDigit)
  | cs => ([], cs)

def scanSign : List Char → List Char × List Char
  | '+' :: rest => (['+'], rest)
  | '-' :: rest => (['-'], rest)
  | cs => ([], cs)

def scanExponent : List Char → List Char × List Char
  | c :: rest =>
      if c = 'e' ∨ c = 'E' then
        let signed := scanSign rest
        if signed.2.takeWhile Char.isDigit = [] then ([], c :: rest)
        else (c :: (signed.1 ++ signed.2.takeWhile Char.isDigit), signed.2.dropWhile Char.isDigit)
      else ([], c :: rest)
  | [] => ([], [])

/-- What follows the sign of a number. -/
def scanUnsigned (minus : Bool) (cs : List Char) : Option (PyJson × List Char) :=
  (scanWhole cs).map fun whole =>
    let fraction := scanFraction whole.2
    let exponent := scanExponent fraction.2
    if fraction.1 = [] ∧ exponent.1 = [] then
      (.int (if minus then -(digitsValue whole.1 : ℤ) else digitsValue whole.1), exponent.2)
    else
      (.float (String.ofList
        ((if minus then ['-'] else []) ++ whole.1 ++ fraction.1 ++ exponent.1)), exponent.2)

def scanNumber : List Char → Option (PyJson × List Char)
  | '-' :: rest => scanUnsigned true rest
  | cs => scanUnsigned false cs

/-- A constant or a number. -/
def scanAtom : List Char → Option (PyJson × List Char)
  | 'n' :: 'u' :: 'l' :: 'l' :: rest => some (.null, rest)
  | 't' :: 'r' :: 'u' :: 'e' :: rest => some (.bool true, rest)
  | 'f' :: 'a' :: 'l' :: 's' :: 'e' :: rest => some (.bool false, rest)
  | 'N' :: 'a' :: 'N' :: rest => some (.float "NaN", rest)
  | 'I' :: 'n' :: 'f' :: 'i' :: 'n' :: 'i' :: 't' :: 'y' :: rest => some (.float "Infinity", rest)
  | '-' :: 'I' :: 'n' :: 'f' :: 'i' :: 'n' :: 'i' :: 't' :: 'y' :: rest =>
      some (.float "-Infinity", rest)
  | cs => scanNumber cs

/-! ## Values -/

/-- `d[key] = value` on a dictionary with string keys. -/
def setKey (d : List (String × PyJson)) (key : String) (value : PyJson) : List (String × PyJson) :=
  if d.any fun entry => entry.1 == key then
    d.map fun entry => if entry.1 == key then (key, value) else entry
  else d ++ [(key, value)]

/-- The dictionary of the members of an object: the last of a name counts. -/
def dictOf (members : List (String × PyJson)) : PyJson :=
  .dict ((members.foldl (fun d entry => setKey d entry.1 entry.2) []).map fun entry =>
    (.str entry.1, entry.2))

mutual

/-- `scan_once`.  The number bounds the depth and the length of what is read. -/
def scanValue : ℕ → List Char → Option (PyJson × List Char)
  | 0, _ => none
  | _ + 1, [] => none
  | n + 1, c :: rest =>
      if c = '"' then (scanString n rest).map fun read => (.str (String.ofList read.1), read.2)
      else if c = '[' then
        match skipBlanks rest with
        | ']' :: after => some (.list [], after)
        | cs => (scanItems n cs).map fun read => (.list read.1, read.2)
      else if c = '\x7b' then
        match skipBlanks rest with
        | '\x7d' :: after => some (.dict [], after)
        | cs => (scanMembers n cs).map fun read => (dictOf read.1, read.2)
      else scanAtom (c :: rest)

def scanItems : ℕ → List Char → Option (List PyJson × List Char)
  | 0, _ => none
  | n + 1, cs =>
      (scanValue n cs).bind fun value =>
        match skipBlanks value.2 with
        | ',' :: rest => (scanItems n (skipBlanks rest)).map fun read => (value.1 :: read.1, read.2)
        | ']' :: rest => some ([value.1], rest)
        | _ => none

def scanMembers : ℕ → List Char → Option (List (String × PyJson) × List Char)
  | n + 1, '"' :: cs =>
      (scanString n cs).bind fun key =>
        match skipBlanks key.2 with
        | ':' :: rest =>
            (scanValue n (skipBlanks rest)).bind fun value =>
              match skipBlanks value.2 with
              | ',' :: rest => (scanMembers n (skipBlanks rest)).map fun read =>
                  ((String.ofList key.1, value.1) :: read.1, read.2)
              | '\x7d' :: rest => some ([(String.ofList key.1, value.1)], rest)
              | _ => none
        | _ => none
  | _, _ => none

end

/-- `json.loads`. -/
def jsonLoads (text : String) : Option PyJson :=
  match scanValue text.toList.length (skipBlanks text.toList) with
  | some (value, rest) => if skipBlanks rest = [] then some value else none
  | none => none

/-! ## What `json.dumps` writes -/

/-- The text is empty or goes on with a separator. -/
def Follows (cs : List Char) : Prop := ∀ c ∈ cs.head?, c = ',' ∨ c = ']' ∨ c = '\x7d'

theorem follows_cons {c : Char} (h : c = ',' ∨ c = ']' ∨ c = '\x7d') (cs : List Char) :
    Follows (c :: cs) := by
  intro d hd
  obtain rfl := Option.some.inj hd
  exact h

theorem Follows.stops {cs : List Char} (h : Follows cs) : Stops cs := by
  intro c hc
  rcases h c hc with rfl | rfl | rfl <;> rfl

theorem skipBlanks_cons {c : Char} (h : isJsonBlank c = false) (cs : List Char) :
    skipBlanks (c :: cs) = c :: cs := by
  simp [skipBlanks, h]

theorem Follows.skipBlanks {cs : List Char} (h : Follows cs) : skipBlanks cs = cs := by
  cases cs with
  | nil => rfl
  | cons c cs =>
      refine skipBlanks_cons ?_ cs
      rcases h c rfl with rfl | rfl | rfl <;> rfl

/-! ### Strings -/

theorem hexDigitValue_hexDigit : ∀ d < 16, hexDigitValue (hexDigit d) = some d := by decide

theorem scanString_escapeChar (n : ℕ) (c : Char) (cs : List Char) :
    scanString (n + 1) (escapeChar c ++ cs) =
      (scanString n cs).map fun read => (c :: read.1, read.2) := by
  unfold escapeChar
  split
  · simp [scanString, scanEscape, unescape]
  · simp [scanString, scanEscape, unescape]
  · simp [scanString, scanEscape, unescape]
  · simp [scanString, scanEscape, unescape]
  · simp [scanString, scanEscape, unescape]
  · next hquote hback _ _ _ =>
      split_ifs with hfeed hbackspace hcontrol
      · obtain rfl : Char.ofNat 12 = c := hfeed ▸ Char.ofNat_toNat c
        simp [scanString, scanEscape, unescape]
      · obtain rfl : Char.ofNat 8 = c := hbackspace ▸ Char.ofNat_toNat c
        simp [scanString, scanEscape, unescape]
      · have hhigh := hexDigitValue_hexDigit (c.toNat / 16) (by omega)
        have hlow := hexDigitValue_hexDigit (c.toNat % 16) (by omega)
        have hzero : hexDigitValue '0' = some 0 := rfl
        have hc : Char.ofNat (c.toNat / 16 * 16 + c.toNat % 16) = c := by
          rw [Nat.div_add_mod']
          exact Char.ofNat_toNat c
        have hsmall : ¬ 0xD800 ≤ c.toNat / 16 * 16 + c.toNat % 16 := by omega
        have hsmall' : ¬ 0xDC00 ≤ c.toNat / 16 * 16 + c.toNat % 16 := by omega
        simp [scanString, scanEscape, scanHex, hhigh, hlow, hzero, hc, hsmall, hsmall']
      · rw [List.singleton_append, scanString, if_neg hquote, if_neg hback, if_neg hcontrol]

/-- A string is read up to its closing quote. -/
theorem scanString_escape {s : List Char} {n : ℕ} (hn : s.length < n) (rest : List Char) :
    scanString n (s.flatMap escapeChar ++ '"' :: rest) = some (s, rest) := by
  induction s generalizing n with
  | nil =>
      obtain ⟨m, rfl⟩ := Nat.exists_eq_add_of_lt hn
      simp [scanString]
  | cons c s ih =>
      obtain ⟨m, rfl⟩ := Nat.exists_eq_add_of_lt hn
      rw [List.flatMap_cons, List.append_assoc, scanString_escapeChar, ih (by simp; omega)]
      rfl

theorem length_flatMap_escape (s : List Char) : s.length ≤ (s.flatMap escapeChar).length := by
  induction s with
  | nil => simp
  | cons c s ih =>
      have hpos : 0 < (escapeChar c).length := by
        unfold escapeChar
        split <;> [skip; skip; skip; skip; skip; split_ifs] <;> simp
      simp only [List.flatMap_cons, List.length_cons, List.length_append]
      omega

/-! ### Numbers -/

theorem takeWhile_stops (cs : List Char) {rest : List Char} (h : Stops rest) :
    (cs ++ rest).takeWhile Char.isDigit = cs.takeWhile Char.isDigit ∧
      (cs ++ rest).dropWhile Char.isDigit = cs.dropWhile Char.isDigit ++ rest := by
  induction cs with
  | nil =>
      cases rest with
      | nil => exact ⟨rfl, rfl⟩
      | cons c rest =>
          have hc : c.isDigit = false := h c rfl
          simp [hc]
  | cons c cs ih =>
      by_cases hc : c.isDigit = true
      · simp [hc, ih]
      · simp [hc]

theorem scanWhole_append {cs rest : List Char} {read : List Char × List Char}
    (h : scanWhole cs = some read) (hrest : Stops rest) :
    scanWhole (cs ++ rest) = some (read.1, read.2 ++ rest) := by
  have hdigits := takeWhile_stops cs hrest
  unfold scanWhole at h
  split at h
  · obtain rfl := Option.some.inj h
    rfl
  · next hzero =>
      split_ifs at h with hnil
      obtain rfl := Option.some.inj h
      unfold scanWhole
      split
      · next after heq =>
          cases cs with
          | nil => exact absurd rfl hnil
          | cons c cs => exact absurd (by rw [← (List.cons.inj heq).1]) (hzero cs)
      · rw [hdigits.1, hdigits.2, if_neg hnil]

theorem scanFraction_append {rest : List Char} (cs : List Char) (hrest : Follows rest) :
    scanFraction (cs ++ rest) = ((scanFraction cs).1, (scanFraction cs).2 ++ rest) := by
  cases cs with
  | nil =>
      cases rest with
      | nil => rfl
      | cons c rest => rcases hrest c rfl with rfl | rfl | rfl <;> rfl
  | cons c cs =>
      by_cases hc : c = '.'
      · subst hc
        obtain ⟨htake, hdrop⟩ := takeWhile_stops cs hrest.stops
        simp only [List.cons_append, scanFraction, htake, hdrop]
        split_ifs <;> rfl
      · simp [scanFraction, hc]

theorem scanSign_append {rest : List Char} (cs : List Char) (hrest : Follows rest) :
    scanSign (cs ++ rest) = ((scanSign cs).1, (scanSign cs).2 ++ rest) := by
  cases cs with
  | nil =>
      cases rest with
      | nil => rfl
      | cons c rest => rcases hrest c rfl with rfl | rfl | rfl <;> rfl
  | cons c cs =>
      simp only [List.cons_append, scanSign]
      split <;> simp_all

theorem scanExponent_append {rest : List Char} (cs : List Char) (hrest : Follows rest) :
    scanExponent (cs ++ rest) = ((scanExponent cs).1, (scanExponent cs).2 ++ rest) := by
  cases cs with
  | nil =>
      cases rest with
      | nil => rfl
      | cons c rest => rcases hrest c rfl with rfl | rfl | rfl <;> rfl
  | cons c cs =>
      obtain ⟨htake, hdrop⟩ := takeWhile_stops (scanSign cs).2 hrest.stops
      simp only [List.cons_append, scanExponent, scanSign_append cs hrest, htake, hdrop]
      split_ifs <;> rfl

/-- A number ends where a separator follows. -/
theorem scanUnsigned_append {minus : Bool} {cs rest : List Char} {read : PyJson × List Char}
    (h : scanUnsigned minus cs = some read) (hrest : Follows rest) :
    scanUnsigned minus (cs ++ rest) = some (read.1, read.2 ++ rest) := by
  obtain ⟨whole, hwhole, rfl⟩ := Option.map_eq_some_iff.mp h
  rw [scanUnsigned, scanWhole_append hwhole hrest.stops, Option.map_some]
  simp only [scanFraction_append _ hrest, scanExponent_append _ hrest]
  split_ifs <;> rfl

theorem scanWhole_head {c : Char} (hc : c.isDigit = false) (cs : List Char) :
    scanWhole (c :: cs) = none := by
  unfold scanWhole
  split
  · next heq =>
      rw [(List.cons.inj heq).1] at hc
      cases hc
  · simp [hc]

/-- What starts like a number is no constant. -/
theorem scanAtom_append {cs rest : List Char} {read : PyJson × List Char}
    (h : scanNumber cs = some read) (hrest : Follows rest) :
    scanAtom (cs ++ rest) = some (read.1, read.2 ++ rest) := by
  have hnumber : scanNumber (cs ++ rest) = some (read.1, read.2 ++ rest) := by
    cases cs with
    | nil => cases h
    | cons c cs =>
        by_cases hc : c = '-'
        · subst hc
          have hsigned : scanUnsigned true cs = some read := h
          exact scanUnsigned_append hsigned hrest
        · have hplain : ∀ ds, scanNumber (c :: ds) = scanUnsigned false (c :: ds) := by
            intro ds
            simp [scanNumber, hc]
          rw [hplain] at h
          rw [List.cons_append, hplain]
          exact scanUnsigned_append h hrest
  unfold scanAtom
  split
  all_goals first
    | exact hnumber
    | (rename_i heq
       rw [heq] at hnumber
       simp [scanNumber, scanUnsigned, scanWhole_head] at hnumber)

/-- The numeral of a positive number does not start with a zero. -/
theorem head_toDigits {n : ℕ} (hn : 0 < n) : (Nat.toDigits 10 n).head? ≠ some '0' := by
  induction n using Nat.strong_induction_on with
  | _ n ih =>
      by_cases hsmall : n < 10
      · rw [Nat.toDigits_of_lt_base hsmall]
        have hall : ∀ d < 10, 0 < d → [Nat.digitChar d].head? ≠ some '0' := by decide
        exact hall n hsmall hn
      · rw [Nat.toDigits_of_base_le (by decide) (Nat.le_of_not_lt hsmall),
          List.head?_append_of_ne_nil _ Nat.toDigits_ne_nil]
        exact ih (n / 10) (by omega) (by omega)

theorem scanWhole_toDigits (n : ℕ) : scanWhole (Nat.toDigits 10 n) = some (Nat.toDigits 10 n, []) := by
  have htake : (Nat.toDigits 10 n).takeWhile Char.isDigit = Nat.toDigits 10 n :=
    List.takeWhile_eq_self_iff.mpr (digits_toDigits n)
  have hdrop : (Nat.toDigits 10 n).dropWhile Char.isDigit = [] :=
    List.dropWhile_eq_nil_iff.mpr (digits_toDigits n)
  rcases Nat.eq_zero_or_pos n with rfl | hn
  · rfl
  · have hhead := head_toDigits hn
    unfold scanWhole
    split
    · next heq =>
        rw [heq] at hhead
        exact absurd rfl hhead
    · rw [htake, hdrop, if_neg Nat.toDigits_ne_nil]

theorem scanUnsigned_toDigits (minus : Bool) (n : ℕ) :
    scanUnsigned minus (Nat.toDigits 10 n) = some (.int (if minus then -(n : ℤ) else n), []) := by
  have hvalue : digitsValue (Nat.toDigits 10 n) = n := digitsValue_zeros 0 n
  rw [scanUnsigned, scanWhole_toDigits, Option.map_some, hvalue]
  rfl

theorem scanNumber_int (value : ℤ) : scanNumber (toString value).toList = some (.int value, []) := by
  rw [Int.toString_eq_repr, Int.repr_eq_if]
  split_ifs with hsign
  · have hcast : ((value.toNat : ℕ) : ℤ) = value := Int.toNat_of_nonneg (by omega)
    rw [Nat.toList_repr]
    cases hdigits : Nat.toDigits 10 value.toNat with
    | nil => exact absurd hdigits Nat.toDigits_ne_nil
    | cons c cs =>
        have hc : c ≠ '-' := by
          rintro rfl
          have hdigit := digits_toDigits value.toNat '-' (by rw [hdigits]; exact List.mem_cons_self)
          cases hdigit
        have hplain : scanNumber (c :: cs) = scanUnsigned false (c :: cs) := by
          simp [scanNumber, hc]
        rw [hplain, ← hdigits, scanUnsigned_toDigits]
        simp [hcast]
  · rw [String.toList_append, Nat.toList_repr]
    show scanUnsigned true (Nat.toDigits 10 (-value).toNat) = _
    rw [scanUnsigned_toDigits, Int.toNat_of_nonneg (by omega)]
    simp

/-! ## The value that is read -/

/-- A text that is read as the float it is the text of. -/
def isFloatText (text : String) : Bool :=
  (match scanNumber text.toList with
    | some (.float read, []) => read == text
    | _ => false) || ["NaN", "Infinity", "-Infinity"].contains text

mutual

/-- The floats of the value are numbers. -/
def PyJson.readable : PyJson → Bool
  | .float text => isFloatText text
  | .list items => readableItems items
  | .dict entries => readableEntries entries
  | _ => true

def readableItems : List PyJson → Bool
  | [] => true
  | item :: items => item.readable && readableItems items

def readableEntries : List (PyKey × PyJson) → Bool
  | [] => true
  | (_, value) :: entries => value.readable && readableEntries entries

end

mutual

/-- Every dictionary in the order of its text, with strings as keys. -/
def PyJson.canonical : PyJson → PyJson
  | .list items => .list (canonicalItems items)
  | .dict entries => .dict ((sortEntries (canonicalEntries entries)).map withText)
  | value => value

def canonicalItems : List PyJson → List PyJson
  | [] => []
  | item :: items => item.canonical :: canonicalItems items

def canonicalEntries : List (PyKey × PyJson) → List (PyKey × PyJson)
  | [] => []
  | (key, value) :: entries => (key, value.canonical) :: canonicalEntries entries

end

theorem dumpsItems_eq (items : List PyJson) : dumpsItems items = items.map PyJson.dumps := by
  induction items with
  | nil => rfl
  | cons item items ih => rw [dumpsItems, ih, List.map_cons]

theorem dumpsEntries_eq (entries : List (PyKey × PyJson)) :
    dumpsEntries entries = entries.map fun entry => (entry.1, entry.2.dumps) := by
  induction entries with
  | nil => rfl
  | cons entry entries ih => rw [dumpsEntries, ih, List.map_cons]

theorem canonicalItems_eq (items : List PyJson) :
    canonicalItems items = items.map PyJson.canonical := by
  induction items with
  | nil => rfl
  | cons item items ih => rw [canonicalItems, ih, List.map_cons]

theorem canonicalEntries_eq (entries : List (PyKey × PyJson)) :
    canonicalEntries entries = entries.map fun entry => (entry.1, entry.2.canonical) := by
  induction entries with
  | nil => rfl
  | cons entry entries ih => rw [canonicalEntries, ih, List.map_cons]

/-- Entries are sorted by their keys, whatever the values become. -/
theorem sortEntries_map {α β : Type} (f : α → β) (entries : List (PyKey × α)) :
    sortEntries (entries.map fun entry => (entry.1, f entry.2)) =
      (sortEntries entries).map fun entry => (entry.1, f entry.2) := by
  refine (List.map_insertionSort _ _ (fun entry : PyKey × α => (entry.1, f entry.2)) entries ?_).symm
  exact fun _ _ _ _ => Iff.rfl

/-- Entries in the order of their texts stay where they are. -/
theorem sortEntries_ascending {α : Type} {entries : List (PyKey × α)}
    (h : ascending (entries.map fun entry => entry.1.text) = true) :
    sortEntries (entries.map withText) = entries.map withText := by
  let texts := fun entry : PyKey × α => (entry.1.text, entry.2)
  let strings := fun entry : String × α => (PyKey.str entry.1, entry.2)
  have hwith : (withText : PyKey × α → PyKey × α) = strings ∘ texts := rfl
  have hsorted : (entries.map texts).Pairwise fun a b => textLe a.1 b.1 = true :=
    List.pairwise_map.mpr ((List.pairwise_map.mp (pairwise_of_ascending h)).imp And.left)
  rw [hwith, ← List.map_map, sortEntries_str, hsorted.insertionSort_eq]

/-! ### The dictionary of an object -/

theorem foldl_setKey (d members : List (String × PyJson))
    (hnodup : ((d ++ members).map Prod.fst).Nodup) :
    members.foldl (fun d entry => setKey d entry.1 entry.2) d = d ++ members := by
  induction members generalizing d with
  | nil => simp
  | cons entry members ih =>
      have hnew : (d.any fun old => old.1 == entry.1) = false := by
        rw [List.any_eq_false]
        intro old hold hsame
        rw [List.map_append, List.map_cons, List.nodup_append] at hnodup
        exact hnodup.2.2 old.1 (List.mem_map_of_mem hold) entry.1 List.mem_cons_self
          (beq_iff_eq.mp hsame)
      rw [List.foldl_cons, setKey, hnew, if_neg (by decide), ih]
      · simp
      · simpa using hnodup

/-- Members with different names are the dictionary. -/
theorem dictOf_nodup {members : List (String × PyJson)} (h : (members.map Prod.fst).Nodup) :
    dictOf members = .dict (members.map fun entry => (.str entry.1, entry.2)) := by
  rw [dictOf, foldl_setKey [] members h, List.nil_append]

/-! ## Round trip -/

theorem scanValue_list (n : ℕ) {cs : List Char} (h : ∀ c ∈ (skipBlanks cs).head?, c ≠ ']') :
    scanValue (n + 1) ('[' :: cs) =
      (scanItems n (skipBlanks cs)).map fun read => (.list read.1, read.2) := by
  unfold scanValue
  rw [if_neg (by decide), if_pos rfl]
  split
  · next after heq => exact absurd rfl (h ']' (by rw [heq]; rfl))
  · rfl

theorem scanValue_dict (n : ℕ) {cs : List Char} (h : ∀ c ∈ (skipBlanks cs).head?, c ≠ '\x7d') :
    scanValue (n + 1) ('\x7b' :: cs) =
      (scanMembers n (skipBlanks cs)).map fun read => (dictOf read.1, read.2) := by
  unfold scanValue
  rw [if_neg (by decide), if_neg (by decide), if_pos rfl]
  split
  · next after heq => exact absurd rfl (h '\x7d' (by rw [heq]; rfl))
  · rfl

/-- The text of the value is read back, whatever separator follows. -/
def RoundTrips (value : PyJson) : Prop :=
  ∀ n rest, value.dumps.toList.length ≤ n → Follows rest →
    scanValue n (value.dumps.toList ++ rest) = some (value.canonical, rest)

/-- The text starts with a character that no blank and no closing bracket is. -/
def Starts (text : String) : Prop :=
  ∃ c cs, text.toList = c :: cs ∧ isJsonBlank c = false ∧ c ≠ ']' ∧ c ≠ '\x7d'

theorem Starts.skipBlanks {text : String} (h : Starts text) (rest : List Char) :
    skipBlanks (text.toList ++ rest) = text.toList ++ rest := by
  obtain ⟨c, cs, htext, hblank, -⟩ := h
  rw [htext]
  exact skipBlanks_cons hblank _

theorem starts_join {text : String} {texts : List String} (h : Starts text) (sep : String) :
    Starts (sep.intercalate (text :: texts)) := by
  obtain ⟨c, cs, htext, hc⟩ := h
  obtain ⟨rest, hrest⟩ := join_head sep text texts
  exact ⟨c, cs ++ rest, by rw [hrest, htext, List.cons_append], hc⟩

theorem Starts.append {text : String} (h : Starts text) (more : String) : Starts (text ++ more) := by
  obtain ⟨c, cs, htext, hc⟩ := h
  exact ⟨c, cs ++ more.toList, by rw [String.toList_append, htext, List.cons_append], hc⟩

theorem starts_jsonString (text : String) : Starts (jsonString text) := by
  have hquote : Starts "\"" := ⟨'"', [], rfl, by decide⟩
  exact (hquote.append _).append _

theorem starts_jsonEntry (entry : PyKey × String) : Starts (jsonEntry entry) :=
  ((starts_jsonString entry.1.text).append ":").append entry.2

theorem scanNumber_head {cs : List Char} {read : PyJson × List Char}
    (h : scanNumber cs = some read) : ∃ c ds, cs = c :: ds ∧ (c = '-' ∨ c.isDigit = true) := by
  cases cs with
  | nil => cases h
  | cons c ds =>
      refine ⟨c, ds, rfl, ?_⟩
      by_cases hc : c = '-'
      · exact .inl hc
      · right
        by_contra hdigit
        simp [scanNumber, hc, scanUnsigned, scanWhole_head (Bool.eq_false_of_not_eq_true hdigit)] at h

theorem starts_number {text : String} {read : PyJson × List Char}
    (h : scanNumber text.toList = some read) : Starts text := by
  obtain ⟨c, ds, htext, hc⟩ := scanNumber_head h
  refine ⟨c, ds, htext, ?_⟩
  rcases hc with rfl | hdigit
  · decide
  · refine ⟨?_, ?_, ?_⟩
    · rw [isJsonBlank]
      by_contra hblank
      simp only [Bool.not_eq_false, Bool.or_eq_true, beq_iff_eq] at hblank
      rcases hblank with ((rfl | rfl) | rfl) | rfl <;> cases hdigit
    · rintro rfl
      cases hdigit
    · rintro rfl
      cases hdigit

/-- A number or a constant is no string and no bracket. -/
theorem scanValue_number {text : String} {value : PyJson} (n : ℕ) {rest : List Char}
    (h : scanNumber text.toList = some (value, [])) (hrest : Follows rest) :
    scanValue (n + 1) (text.toList ++ rest) = some (value, rest) := by
  have hatom := scanAtom_append h hrest
  obtain ⟨c, ds, htext, hc⟩ := scanNumber_head h
  rw [htext, List.cons_append] at hatom ⊢
  have hopen : c ≠ '"' ∧ c ≠ '[' ∧ c ≠ '\x7b' := by
    rcases hc with rfl | hdigit
    · decide
    · refine ⟨?_, ?_, ?_⟩ <;> (rintro rfl; cases hdigit)
  rw [scanValue, if_neg hopen.1, if_neg hopen.2.1, if_neg hopen.2.2, hatom]
  rfl

theorem isFloatText_cases {text : String} (h : isFloatText text = true) :
    scanNumber text.toList = some (.float text, []) ∨
      text = "NaN" ∨ text = "Infinity" ∨ text = "-Infinity" := by
  rw [isFloatText, Bool.or_eq_true] at h
  rcases h with hnumber | hconstant
  · left
    split at hnumber
    · next read heq => rw [heq, beq_iff_eq.mp hnumber]
    · cases hnumber
  · right
    simpa using hconstant

theorem starts_dumps {value : PyJson} (h : value.readable = true) : Starts value.dumps := by
  cases value with
  | null => exact ⟨'n', _, rfl, by decide⟩
  | bool value => cases value <;> exact ⟨_, _, rfl, by decide⟩
  | int value => exact starts_number (scanNumber_int value)
  | float text =>
      rcases isFloatText_cases h with hnumber | rfl | rfl | rfl
      · exact starts_number hnumber
      · exact ⟨'N', _, rfl, by decide⟩
      · exact ⟨'I', _, rfl, by decide⟩
      · exact ⟨'-', _, rfl, by decide⟩
  | str text => exact starts_jsonString text
  | list items =>
      have hopen : Starts "[" := ⟨'[', [], rfl, by decide⟩
      exact (hopen.append _).append _
  | dict entries =>
      have hopen : Starts "\x7b" := ⟨'\x7b', [], rfl, by decide⟩
      exact (hopen.append _).append _

/-- The items of a list, up to its bracket. -/
theorem scanItems_dumps {items : List PyJson} (hne : items ≠ [])
    (hitems : ∀ value ∈ items, RoundTrips value ∧ Starts value.dumps) {n : ℕ} (rest : List Char)
    (hn : (",".intercalate (items.map PyJson.dumps)).toList.length < n) :
    scanItems n ((",".intercalate (items.map PyJson.dumps)).toList ++ ']' :: rest) =
      some (items.map PyJson.canonical, rest) := by
  induction items generalizing n with
  | nil => exact absurd rfl hne
  | cons value items ih =>
      obtain ⟨m, rfl⟩ := Nat.exists_eq_succ_of_ne_zero (Nat.ne_of_gt (Nat.zero_lt_of_lt hn))
      obtain ⟨hvalue, -⟩ := hitems value List.mem_cons_self
      by_cases hlast : items = []
      · subst hlast
        rw [List.map_singleton, String.intercalate_singleton] at hn ⊢
        rw [scanItems, hvalue m _ (by omega) (follows_cons (by simp) rest), Option.bind_some,
          Follows.skipBlanks (follows_cons (by simp) rest)]
        rfl
      · have hmap : items.map PyJson.dumps ≠ [] := by simpa using hlast
        have hstart : Starts (",".intercalate (items.map PyJson.dumps)) := by
          obtain ⟨next, others, rfl⟩ := List.exists_cons_of_ne_nil hlast
          exact starts_join (hitems next (by simp)).2 ","
        rw [List.map_cons, String.intercalate_cons_of_ne_nil hmap, String.toList_append,
          String.toList_append] at hn ⊢
        have hcomma : ",".toList = [','] := rfl
        rw [hcomma] at hn ⊢
        simp only [List.length_append, List.length_singleton] at hn
        rw [List.append_assoc, List.append_assoc, List.singleton_append, scanItems,
          hvalue m _ (by omega) (follows_cons (by simp) _), Option.bind_some,
          Follows.skipBlanks (follows_cons (by simp) _)]
        show ((scanItems m (skipBlanks (_ ++ ']' :: rest))).map _) = _
        rw [hstart.skipBlanks, ih hlast (fun v hv => hitems v (List.mem_cons_of_mem _ hv)) (by omega)]
        rfl

/-- A member up to its value. -/
theorem scanMembers_entry {key : String} {n : ℕ} (hn : (jsonString key).toList.length ≤ n + 1)
    (cs : List Char) : scanMembers (n + 1) ((jsonString key).toList ++ ':' :: cs) =
      (scanValue n (skipBlanks cs)).bind fun value =>
        match skipBlanks value.2 with
        | ',' :: rest => (scanMembers n (skipBlanks rest)).map fun read =>
            ((key, value.1) :: read.1, read.2)
        | '\x7d' :: rest => some ([(key, value.1)], rest)
        | _ => none := by
  have htext : (jsonString key).toList = '"' :: (key.toList.flatMap escapeChar ++ ['"']) := by
    simp [jsonString]
  rw [htext] at hn ⊢
  have hlength := length_flatMap_escape key.toList
  simp only [List.length_cons, List.length_append, List.length_nil] at hn
  rw [List.cons_append, List.append_assoc, List.singleton_append, scanMembers,
    scanString_escape (by omega), Option.bind_some, skipBlanks_cons (by rfl)]
  simp only [String.ofList_toList]

/-- The members of an object, up to its bracket. -/
theorem scanMembers_dumps {entries : List (PyKey × PyJson)} (hne : entries ≠ [])
    (hentries : ∀ entry ∈ entries, RoundTrips entry.2 ∧ Starts entry.2.dumps) {n : ℕ}
    (rest : List Char)
    (hn : (",".intercalate (entries.map fun e => jsonEntry (e.1, e.2.dumps))).toList.length < n) :
    scanMembers n ((",".intercalate (entries.map fun e => jsonEntry (e.1, e.2.dumps))).toList ++
        '\x7d' :: rest) =
      some (entries.map fun e => (e.1.text, e.2.canonical), rest) := by
  have hentry : ∀ entry : PyKey × PyJson, (jsonEntry (entry.1, entry.2.dumps)).toList =
      (jsonString entry.1.text).toList ++ ':' :: entry.2.dumps.toList := by
    intro entry
    simp [jsonEntry]
  induction entries generalizing n with
  | nil => exact absurd rfl hne
  | cons entry entries ih =>
      obtain ⟨m, rfl⟩ := Nat.exists_eq_succ_of_ne_zero (Nat.ne_of_gt (Nat.zero_lt_of_lt hn))
      obtain ⟨hvalue, hstart⟩ := hentries entry List.mem_cons_self
      by_cases hlast : entries = []
      · subst hlast
        rw [List.map_singleton, String.intercalate_singleton, hentry] at hn ⊢
        simp only [List.length_append, List.length_cons] at hn
        rw [List.append_assoc, List.cons_append, scanMembers_entry (by omega), hstart.skipBlanks,
          hvalue m _ (by omega) (follows_cons (by simp) rest), Option.bind_some,
          Follows.skipBlanks (follows_cons (by simp) rest)]
        rfl
      · have hmap : (entries.map fun e => jsonEntry (e.1, e.2.dumps)) ≠ [] := by simpa using hlast
        have hnext : Starts (",".intercalate (entries.map fun e => jsonEntry (e.1, e.2.dumps))) := by
          obtain ⟨next, others, rfl⟩ := List.exists_cons_of_ne_nil hlast
          exact starts_join (starts_jsonEntry _) ","
        rw [List.map_cons, String.intercalate_cons_of_ne_nil hmap, String.toList_append,
          String.toList_append, hentry] at hn ⊢
        have hcomma : ",".toList = [','] := rfl
        rw [hcomma] at hn ⊢
        simp only [List.length_append, List.length_cons, List.length_nil] at hn
        rw [List.append_assoc, List.append_assoc, List.append_assoc, List.cons_append,
          List.singleton_append, scanMembers_entry (by omega), hstart.skipBlanks,
          hvalue m _ (by omega) (follows_cons (by simp) _), Option.bind_some,
          Follows.skipBlanks (follows_cons (by simp) _)]
        show ((scanMembers m (skipBlanks (_ ++ '\x7d' :: rest))).map _) = _
        rw [hnext.skipBlanks,
          ih hlast (fun e he => hentries e (List.mem_cons_of_mem _ he)) (by omega)]
        rfl

theorem roundTrips_dict {entries : List (PyKey × PyJson)}
    (horder : ascending ((sortKeys (entries.map Prod.fst)).map PyKey.text) = true)
    (hentries : ∀ entry ∈ entries, RoundTrips entry.2 ∧ Starts entry.2.dumps) :
    RoundTrips (.dict entries) := by
  intro n rest hn hrest
  have htext : (PyJson.dict entries).dumps =
      "\x7b" ++ ",".intercalate ((sortEntries entries).map fun e => jsonEntry (e.1, e.2.dumps)) ++
        "\x7d" := by
    rw [PyJson.dumps, dumpsEntries_eq, sortEntries_map, List.map_map]
    rfl
  have hvalue : (PyJson.dict entries).canonical =
      .dict ((sortEntries entries).map fun e => (.str e.1.text, e.2.canonical)) := by
    rw [PyJson.canonical, canonicalEntries_eq, sortEntries_map, List.map_map]
    rfl
  have hopen : "\x7b".toList = ['\x7b'] := rfl
  have hclose : "\x7d".toList = ['\x7d'] := rfl
  rw [htext] at hn ⊢
  rw [hvalue]
  simp only [String.toList_append, hopen, hclose, List.length_append, List.append_assoc,
    List.nil_append, List.cons_append, List.length_cons, List.length_nil] at hn ⊢
  obtain ⟨m, rfl⟩ : ∃ m, n = m + 1 := ⟨n - 1, by omega⟩
  by_cases hnil : sortEntries entries = []
  · rw [hnil]
    rfl
  · have hmem : ∀ entry ∈ sortEntries entries, RoundTrips entry.2 ∧ Starts entry.2.dumps :=
      fun entry h => hentries entry ((List.perm_insertionSort _ _).mem_iff.mp h)
    have hscan := scanMembers_dumps hnil hmem (n := m) rest (by omega)
    -- the members are read in the order of their names, which are different
    have hnames : (((sortEntries entries).map fun e => (e.1.text, e.2.canonical)).map
        Prod.fst).Nodup := by
      rw [← sortEntries_keys, List.map_map] at horder
      rw [List.map_map]
      exact (pairwise_of_ascending horder).imp And.right
    obtain ⟨first, others, hfirst⟩ := List.exists_cons_of_ne_nil hnil
    have hstart : Starts (",".intercalate
        ((sortEntries entries).map fun e => jsonEntry (e.1, e.2.dumps))) := by
      rw [hfirst, List.map_cons]
      exact starts_join (starts_jsonEntry _) ","
    have hskip := hstart.skipBlanks ('\x7d' :: rest)
    obtain ⟨c, cs, hc, -, -, hbracket⟩ := hstart
    rw [scanValue_dict, hskip, hscan, Option.map_some, dictOf_nodup hnames, List.map_map]
    · rfl
    · intro d hd
      rw [hskip, hc] at hd
      obtain rfl := Option.some.inj hd
      exact hbracket

theorem roundTrips_list {items : List PyJson}
    (hitems : ∀ value ∈ items, RoundTrips value ∧ Starts value.dumps) :
    RoundTrips (.list items) := by
  intro n rest hn hrest
  have htext : (PyJson.list items).dumps = "[" ++ ",".intercalate (items.map PyJson.dumps) ++ "]" := by
    rw [PyJson.dumps, dumpsItems_eq]
  have hopen : "[".toList = ['['] := rfl
  have hclose : "]".toList = [']'] := rfl
  rw [htext] at hn ⊢
  rw [PyJson.canonical, canonicalItems_eq]
  simp only [String.toList_append, hopen, hclose, List.length_append, List.append_assoc,
    List.nil_append, List.cons_append, List.length_cons, List.length_nil] at hn ⊢
  obtain ⟨m, rfl⟩ : ∃ m, n = m + 1 := ⟨n - 1, by omega⟩
  by_cases hnil : items = []
  · rw [hnil]
    rfl
  · have hscan := scanItems_dumps hnil hitems (n := m) rest (by omega)
    obtain ⟨first, others, hfirst⟩ := List.exists_cons_of_ne_nil hnil
    have hstart : Starts (",".intercalate (items.map PyJson.dumps)) := by
      rw [hfirst, List.map_cons]
      exact starts_join (hitems first (by rw [hfirst]; exact List.mem_cons_self)).2 ","
    have hskip := hstart.skipBlanks (']' :: rest)
    obtain ⟨c, cs, hc, -, hbracket, -⟩ := hstart
    rw [scanValue_list, hskip, hscan, Option.map_some]
    intro d hd
    rw [hskip, hc] at hd
    obtain rfl := Option.some.inj hd
    exact hbracket

theorem roundTrips_float {text : String} (h : isFloatText text = true) : RoundTrips (.float text) := by
  intro n rest hn hrest
  have hlength : (PyJson.float text).dumps = text := rfl
  rw [hlength] at hn ⊢
  rcases isFloatText_cases h with hnumber | rfl | rfl | rfl
  · obtain ⟨c, cs, htext, -⟩ := starts_number hnumber
    rw [htext, List.length_cons] at hn
    obtain ⟨m, rfl⟩ : ∃ m, n = m + 1 := ⟨n - 1, by omega⟩
    exact scanValue_number m hnumber hrest
  all_goals
    obtain ⟨m, rfl⟩ : ∃ m, n = m + 1 := ⟨n - 1, by simp at hn; omega⟩
    rfl

mutual

/-- **Round trip.** -/
theorem roundTrips : ∀ {value : PyJson}, value.orderStable = true → value.readable = true →
    RoundTrips value
  | .null, _, _ | .bool true, _, _ | .bool false, _, _ => by
      intro n rest hn _
      obtain ⟨m, rfl⟩ : ∃ m, n = m + 1 := ⟨n - 1, by simp [PyJson.dumps] at hn; omega⟩
      rfl
  | .int value, _, _ => by
      intro n rest hn hrest
      have hnumber := scanNumber_int value
      obtain ⟨c, cs, htext, -⟩ := starts_number hnumber
      have hlength : (PyJson.int value).dumps = toString value := rfl
      rw [hlength, htext, List.length_cons] at hn
      obtain ⟨m, rfl⟩ : ∃ m, n = m + 1 := ⟨n - 1, by omega⟩
      exact scanValue_number m hnumber hrest
  | .float text, _, h => roundTrips_float h
  | .str text, _, _ => by
      intro n rest hn _
      have htext : (PyJson.str text).dumps.toList =
          '"' :: (text.toList.flatMap escapeChar ++ ['"']) := by
        simp [PyJson.dumps, jsonString]
      have hlength := length_flatMap_escape text.toList
      rw [htext] at hn ⊢
      simp only [List.length_cons, List.length_append, List.length_nil] at hn
      obtain ⟨m, rfl⟩ : ∃ m, n = m + 1 := ⟨n - 1, by omega⟩
      rw [List.cons_append, List.append_assoc, List.singleton_append, scanValue, if_pos rfl,
        scanString_escape (by omega), Option.map_some, String.ofList_toList]
      rfl
  | .list items, horder, hread =>
      roundTrips_list (roundTripsItems items horder hread)
  | .dict entries, horder, hread => by
      simp only [PyJson.orderStable, Bool.and_eq_true] at horder
      exact roundTrips_dict horder.1 (roundTripsEntries horder.2 hread)

theorem roundTripsItems : ∀ items : List PyJson, orderStableItems items = true →
    readableItems items = true → ∀ value ∈ items, RoundTrips value ∧ Starts value.dumps
  | [], _, _ => fun _ h => absurd h List.not_mem_nil
  | item :: items, horder, hread => by
      simp only [orderStableItems, readableItems, Bool.and_eq_true] at horder hread
      have hitem : RoundTrips item := roundTrips horder.1 hread.1
      have hitems := roundTripsItems items horder.2 hread.2
      intro value hvalue
      rcases List.mem_cons.mp hvalue with rfl | hrest
      · exact ⟨hitem, starts_dumps hread.1⟩
      · exact hitems value hrest

theorem roundTripsEntries : ∀ {entries : List (PyKey × PyJson)}, orderStableEntries entries = true →
    readableEntries entries = true → ∀ entry ∈ entries, RoundTrips entry.2 ∧ Starts entry.2.dumps
  | [], _, _ => fun _ h => absurd h List.not_mem_nil
  | (key, value) :: entries, horder, hread => by
      simp only [orderStableEntries, readableEntries, Bool.and_eq_true] at horder hread
      have hvalue : RoundTrips value := roundTrips horder.1 hread.1
      have hentries := roundTripsEntries horder.2 hread.2
      intro entry hentry
      rcases List.mem_cons.mp hentry with rfl | hrest
      · exact ⟨hvalue, starts_dumps hread.1⟩
      · exact hentries entry hrest

end

/-- `json.loads(json.dumps(value))`. -/
theorem jsonLoads_dumps {value : PyJson} (horder : value.orderStable = true)
    (hread : value.readable = true) : jsonLoads value.dumps = some value.canonical := by
  have hscan := roundTrips horder hread _ [] (Nat.le_refl _) (by intro c hc; cases hc)
  have hstart := (starts_dumps hread).skipBlanks []
  rw [List.append_nil] at hscan hstart
  rw [jsonLoads, hstart, hscan]
  rfl

mutual

/-- What was read has the text that it was read from. -/
theorem dumps_canonical : ∀ {value : PyJson}, value.orderStable = true →
    value.canonical.dumps = value.dumps
  | .null, _ | .bool _, _ | .int _, _ | .float _, _ | .str _, _ => rfl
  | .list items, h => by
      have hitems : orderStableItems items = true := h
      rw [PyJson.canonical, PyJson.dumps, PyJson.dumps, dumpsItems_canonical hitems]
  | .dict entries, h => by
      simp only [PyJson.orderStable, Bool.and_eq_true] at h
      have hsorted : dumpsEntries ((sortEntries (canonicalEntries entries)).map withText) =
          (sortEntries (dumpsEntries entries)).map withText := by
        rw [← dumpsEntries_canonical h.2, dumpsEntries_eq, dumpsEntries_eq, sortEntries_map,
          List.map_map, List.map_map]
        rfl
      have horder : ascending ((sortEntries (dumpsEntries entries)).map fun e => e.1.text) = true := by
        have hkeys := h.1
        rwa [← dumpsEntries_keys, ← sortEntries_keys, List.map_map] at hkeys
      rw [PyJson.canonical, PyJson.dumps, PyJson.dumps, hsorted, sortEntries_ascending horder,
        List.map_map]
      rfl

theorem dumpsItems_canonical : ∀ {items : List PyJson}, orderStableItems items = true →
    dumpsItems (canonicalItems items) = dumpsItems items
  | [], _ => rfl
  | item :: items, h => by
      simp only [orderStableItems, Bool.and_eq_true] at h
      simp only [canonicalItems, dumpsItems, dumps_canonical h.1, dumpsItems_canonical h.2]

theorem dumpsEntries_canonical : ∀ {entries : List (PyKey × PyJson)},
    orderStableEntries entries = true →
    dumpsEntries (canonicalEntries entries) = dumpsEntries entries
  | [], _ => rfl
  | (key, value) :: entries, h => by
      simp only [orderStableEntries, Bool.and_eq_true] at h
      simp only [canonicalEntries, dumpsEntries, dumps_canonical h.1, dumpsEntries_canonical h.2]

end

/-! ## Lines of JSON -/

theorem newline_not_mem_escape (c : Char) : '\n' ∉ escapeChar c := by
  unfold escapeChar
  split
  · decide
  · decide
  · decide
  · decide
  · decide
  · next hnewline _ _ =>
      have hdigits : ∀ d < 16, '\n' ≠ hexDigit d := by decide
      split_ifs with hfeed hbackspace hcontrol
      · decide
      · decide
      · simp [hdigits _ (by omega : c.toNat / 16 < 16), hdigits _ (by omega : c.toNat % 16 < 16)]
      · simpa using Ne.symm hnewline

theorem newline_not_mem_jsonString (text : String) : '\n' ∉ (jsonString text).toList := by
  have hescaped : '\n' ∉ text.toList.flatMap escapeChar := by
    intro hmem
    obtain ⟨c, -, hc⟩ := List.mem_flatMap.mp hmem
    exact newline_not_mem_escape c hc
  have hquote : '\n' ∉ "\"".toList := by decide
  simp [jsonString, hescaped]

/-- The characters of a number. -/
def isNumberChar (c : Char) : Bool := c.isDigit || "+-.eE".toList.contains c

theorem numberChars_takeWhile (cs : List Char) : (cs.takeWhile Char.isDigit).all isNumberChar = true := by
  rw [List.all_eq_true]
  intro c hc
  rw [isNumberChar, List.mem_takeWhile_imp hc, Bool.true_or]

theorem numberChars_whole {cs : List Char} {read : List Char × List Char}
    (h : scanWhole cs = some read) : read.1.all isNumberChar = true := by
  unfold scanWhole at h
  split at h
  · obtain rfl := Option.some.inj h
    rfl
  · split_ifs at h
    obtain rfl := Option.some.inj h
    exact numberChars_takeWhile _

theorem numberChars_fraction (cs : List Char) : (scanFraction cs).1.all isNumberChar = true := by
  unfold scanFraction
  split
  · split_ifs
    · rfl
    · rw [List.all_cons, numberChars_takeWhile]
      rfl
  · rfl

theorem numberChars_sign (cs : List Char) : (scanSign cs).1.all isNumberChar = true := by
  unfold scanSign
  split <;> rfl

theorem numberChars_exponent (cs : List Char) : (scanExponent cs).1.all isNumberChar = true := by
  cases cs with
  | nil => rfl
  | cons c cs =>
      simp only [scanExponent]
      split_ifs with he
      · rfl
      · have hc : isNumberChar c = true := by rcases he with rfl | rfl <;> rfl
        rw [List.all_cons, List.all_append, hc, numberChars_sign, numberChars_takeWhile]
        rfl
      · rfl

theorem numberChars_float {text : String} {cs rest : List Char}
    (h : scanNumber cs = some (.float text, rest)) : text.toList.all isNumberChar = true := by
  have hunsigned : ∀ {minus : Bool} {cs : List Char},
      scanUnsigned minus cs = some (.float text, rest) → text.toList.all isNumberChar = true := by
    intro minus cs h
    obtain ⟨whole, hwhole, heq⟩ := Option.map_eq_some_iff.mp h
    dsimp only at heq
    split_ifs at heq with hint hminus hminus
    · cases heq
    · cases heq
    all_goals
      obtain rfl := PyJson.float.inj (Prod.mk.inj heq).1
      simp only [String.toList_ofList, List.all_append, numberChars_whole hwhole,
        numberChars_fraction, numberChars_exponent]
      rfl
  unfold scanNumber at h
  split at h
  · exact hunsigned h
  · exact hunsigned h

theorem newline_not_mem_float {text : String} (h : isFloatText text = true) :
    '\n' ∉ text.toList := by
  rcases isFloatText_cases h with hnumber | rfl | rfl | rfl
  · intro hmem
    have hchar := List.all_eq_true.mp (numberChars_float hnumber) _ hmem
    cases hchar
  · decide
  · decide
  · decide

theorem newline_not_mem_int (value : ℤ) : '\n' ∉ (toString value).toList := by
  rw [Int.toString_eq_repr, Int.repr_eq_if]
  split_ifs
  · exact not_mem_str rfl _
  · rw [String.toList_append, List.mem_append, not_or]
    exact ⟨by decide, not_mem_str rfl _⟩

theorem newline_not_mem_bracketed {opening closing : String} (hopen : '\n' ∉ opening.toList)
    (hclose : '\n' ∉ closing.toList) {texts : List String}
    (htexts : ∀ text ∈ texts, '\n' ∉ text.toList) :
    '\n' ∉ (opening ++ ",".intercalate texts ++ closing).toList := by
  have hjoin : '\n' ∉ (",".intercalate texts).toList := not_mem_join (by decide) htexts
  rw [String.toList_append, String.toList_append, List.mem_append, List.mem_append]
  rintro ((h | h) | h)
  · exact hopen h
  · exact hjoin h
  · exact hclose h

mutual

/-- A value is written on one line. -/
theorem newline_not_mem_dumps : ∀ {value : PyJson}, value.readable = true →
    '\n' ∉ value.dumps.toList
  | .null, _ | .bool true, _ | .bool false, _ => by decide
  | .int value, _ => newline_not_mem_int value
  | .float _, h => newline_not_mem_float h
  | .str text, _ => newline_not_mem_jsonString text
  | .list items, h => by
      rw [PyJson.dumps]
      exact newline_not_mem_bracketed (by decide) (by decide) (newline_not_mem_items h)
  | .dict entries, h => by
      rw [PyJson.dumps]
      refine newline_not_mem_bracketed (by decide) (by decide) fun text htext => ?_
      obtain ⟨entry, hentry, rfl⟩ := List.mem_map.mp htext
      have hvalue := newline_not_mem_entries h entry
        ((List.perm_insertionSort _ _).mem_iff.mp hentry)
      have hkey := newline_not_mem_jsonString entry.1.text
      simp [jsonEntry, hkey, hvalue]

theorem newline_not_mem_items : ∀ {items : List PyJson}, readableItems items = true →
    ∀ text ∈ dumpsItems items, '\n' ∉ text.toList
  | [], _ => fun _ h => absurd h List.not_mem_nil
  | item :: items, h => by
      simp only [readableItems, Bool.and_eq_true] at h
      have hitem := newline_not_mem_dumps h.1
      have hitems := newline_not_mem_items h.2
      simpa [dumpsItems] using ⟨hitem, hitems⟩

theorem newline_not_mem_entries : ∀ {entries : List (PyKey × PyJson)},
    readableEntries entries = true → ∀ entry ∈ dumpsEntries entries, '\n' ∉ entry.2.toList
  | [], _ => fun _ h => absurd h List.not_mem_nil
  | (key, value) :: entries, h => by
      simp only [readableEntries, Bool.and_eq_true] at h
      have hvalue := newline_not_mem_dumps h.1
      have hentries := newline_not_mem_entries h.2
      intro entry hentry
      rcases List.mem_cons.mp hentry with rfl | hentry
      · exact hvalue
      · exact hentries entry hentry

end

/-- The values of a text with one value on a line and a line end after each. -/
def jsonLines (text : String) : Option (List PyJson) :=
  (pySplit '\n' text.toList).dropLast.mapM fun line => jsonLoads (String.ofList line)

/-- **Lines.**  The values are read back in their order. -/
theorem jsonLines_dumps {values : List PyJson}
    (hvalues : ∀ value ∈ values, value.orderStable = true ∧ value.readable = true) :
    jsonLines ("\n".intercalate (values.map PyJson.dumps) ++ if values.isEmpty then "" else "\n") =
      some (values.map PyJson.canonical) := by
  have hlines : (pySplit '\n' ("\n".intercalate (values.map PyJson.dumps) ++
      if values.isEmpty then "" else "\n").toList).dropLast =
        values.map fun value => value.dumps.toList := by
    cases values with
    | nil => rfl
    | cons value values =>
        have hsplit : ∀ value' ∈ value :: values,
            pySplit '\n' value'.dumps.toList = [value'.dumps.toList] :=
          fun value' h => pySplit_of_not_mem (newline_not_mem_dumps (hvalues value' h).2)
        have hne : (value :: values).map PyJson.dumps ≠ [] := by simp
        have hjoin := pySplit_join '\n' hne
        have hsingle : String.singleton '\n' = "\n" := rfl
        have hend : "\n".toList = ['\n'] := rfl
        rw [hsingle, List.flatMap_map, List.flatMap_congr hsplit,
          ← List.map_eq_flatMap] at hjoin
        rw [List.isEmpty_cons, if_neg (by decide), String.toList_append, hend, pySplit_append_sep,
          hjoin]
        exact List.dropLast_concat
  rw [jsonLines, hlines]
  clear hlines
  induction values with
  | nil => rfl
  | cons value values ih =>
      obtain ⟨hvalue, hrest⟩ := List.forall_mem_cons.mp hvalues
      rw [List.map_cons, List.mapM_cons, String.ofList_toList, jsonLoads_dumps hvalue.1 hvalue.2,
        ih hrest]
      rfl

/-! ## Members of a dictionary -/

/-- `d[key]`; `none` where there is no such key. -/
def PyJson.item : PyJson → String → Option PyJson
  | .dict entries, key => (entries.find? fun entry => entry.1 == .str key).map Prod.snd
  | _, _ => none

def PyJson.asText : PyJson → Option String
  | .str text => some text
  | _ => none

theorem item_eq_some_iff {entries : List (PyKey × PyJson)} (hnodup : (entries.map Prod.fst).Nodup)
    {key : String} {value : PyJson} :
    (PyJson.dict entries).item key = some value ↔ (.str key, value) ∈ entries := by
  rw [PyJson.item, Option.map_eq_some_iff]
  constructor
  · rintro ⟨entry, hfind, rfl⟩
    have hkey := List.find?_some hfind
    rw [← beq_iff_eq.mp hkey]
    exact List.mem_of_find?_eq_some hfind
  · intro hmem
    cases hfind : entries.find? fun entry => entry.1 == .str key with
    | none => exact absurd (beq_self_eq_true (PyKey.str key)) (List.find?_eq_none.mp hfind _ hmem)
    | some entry =>
        have hfound := List.find?_some hfind
        have hkey := beq_iff_eq.mp hfound
        have heq := List.inj_on_of_nodup_map hnodup (List.mem_of_find?_eq_some hfind) hmem hkey
        exact ⟨entry, rfl, by rw [heq]⟩

/-- A dictionary with strings as keys. -/
def jsonObject (entries : List (String × PyJson)) : PyJson :=
  .dict (entries.map fun entry => (.str entry.1, entry.2))

/-- A dictionary whose strings ascend when they are sorted is read back. -/
theorem stable_object {entries : List (String × PyJson)}
    (hkeys : ascending ((sortKeys ((entries.map Prod.fst).map PyKey.str)).map PyKey.text) = true)
    (hvalues : ∀ entry ∈ entries, entry.2.orderStable = true ∧ entry.2.readable = true) :
    (jsonObject entries).orderStable = true ∧ (jsonObject entries).readable = true := by
  have hall : orderStableEntries (entries.map fun entry => (PyKey.str entry.1, entry.2)) = true ∧
      readableEntries (entries.map fun entry => (PyKey.str entry.1, entry.2)) = true := by
    clear hkeys
    induction entries with
    | nil => exact ⟨rfl, rfl⟩
    | cons entry entries ih =>
        obtain ⟨hvalue, hrest⟩ := List.forall_mem_cons.mp hvalues
        simp only [List.map_cons, orderStableEntries, readableEntries, hvalue.1, hvalue.2, ih hrest,
          Bool.and_self, and_self]
  rw [List.map_map] at hkeys
  refine ⟨?_, hall.2⟩
  rw [jsonObject, PyJson.orderStable, hall.1, List.map_map, Bool.and_true]
  exact hkeys

theorem dumps_object_congr {entries entries' : List (String × PyJson)}
    (h : entries.map (fun entry => (entry.1, entry.2.dumps)) =
      entries'.map fun entry => (entry.1, entry.2.dumps)) :
    (jsonObject entries).dumps = (jsonObject entries').dumps := by
  have hkeyed : ∀ entries : List (String × PyJson),
      dumpsEntries (entries.map fun entry => (PyKey.str entry.1, entry.2)) =
        (entries.map fun entry => (entry.1, entry.2.dumps)).map fun entry =>
          (PyKey.str entry.1, entry.2) := by
    intro entries
    rw [dumpsEntries_eq, List.map_map, List.map_map]
    rfl
  rw [jsonObject, jsonObject, PyJson.dumps, PyJson.dumps, hkeyed, hkeyed, h]

/-- The members are the members read back. -/
theorem item_canonical {entries : List (String × PyJson)} (hnodup : (entries.map Prod.fst).Nodup)
    (key : String) :
    (jsonObject entries).canonical.item key = ((jsonObject entries).item key).map PyJson.canonical := by
  let keyed := fun entry : String × PyJson => (PyKey.str entry.1, entry.2.canonical)
  have hperm : List.Perm ((sortEntries (entries.map keyed)).map withText) (entries.map keyed) := by
    have htext : (entries.map keyed).map withText = entries.map keyed := by
      rw [List.map_map]
      rfl
    conv_rhs => rw [← htext]
    exact (List.perm_insertionSort _ _).map withText
  have hkeys : ∀ f : PyJson → PyJson,
      ((entries.map fun entry => (PyKey.str entry.1, f entry.2)).map Prod.fst).Nodup := by
    intro f
    have hstr : Function.Injective PyKey.str := fun _ _ h => PyKey.str.inj h
    have hnames := hnodup.map hstr
    rw [List.map_map] at hnames ⊢
    exact hnames
  have hcanonical : (jsonObject entries).canonical =
      .dict ((sortEntries (entries.map keyed)).map withText) := by
    rw [jsonObject, PyJson.canonical, canonicalEntries_eq, List.map_map]
    rfl
  rw [hcanonical]
  ext value
  rw [item_eq_some_iff ((hperm.map Prod.fst).nodup_iff.mpr (hkeys PyJson.canonical)), hperm.mem_iff,
    Option.map_eq_some_iff]
  constructor
  · intro hmem
    obtain ⟨entry, hentry, heq⟩ := List.mem_map.mp hmem
    obtain ⟨hkey, hvalue⟩ := Prod.mk.inj heq
    refine ⟨entry.2, (item_eq_some_iff (hkeys id)).mpr ?_, hvalue⟩
    exact List.mem_map.mpr ⟨entry, hentry, by rw [← hkey]; rfl⟩
  · rintro ⟨old, hold, rfl⟩
    obtain ⟨entry, hentry, heq⟩ := List.mem_map.mp ((item_eq_some_iff (hkeys id)).mp hold)
    obtain ⟨hkey, hvalue⟩ := Prod.mk.inj heq
    exact List.mem_map.mpr ⟨entry, hentry, by rw [← hkey, ← hvalue]; rfl⟩

end SetadJang.Framework
