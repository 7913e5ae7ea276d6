import Mathlib.Tactic.Common

/-!
# CSV texts

`csv.writer` and `csv.reader` in the `excel` dialect: fields are separated by commas, records end
with `\r\n`, and a field that holds a comma, a quote or a line end is put in quotes, with its
quotes doubled.  The reader gives back what the writer was given.
-/

namespace SetadJang.Framework

/-! ## Writing -/

def isCsvSpecial (c : Char) : Bool := c == ',' || c == '"' || c == '\r' || c == '\n'

def doubleQuotes (cs : List Char) : List Char :=
  cs.flatMap fun c => if c = '"' then ['"', '"'] else [c]

/-- A field with `QUOTE_MINIMAL`. -/
def csvField (text : String) : List Char :=
  if text.toList.any isCsvSpecial then '"' :: (doubleQuotes text.toList ++ ['"']) else text.toList

def csvFields : List String → List Char
  | [] => []
  | [text] => csvField text
  | text :: texts => csvField text ++ ',' :: csvFields texts

/-- `writer.writerow`.  A record of one empty field is quoted, so that it is no blank line. -/
def csvLine (row : List String) : List Char :=
  (if row = [""] then ['"', '"'] else csvFields row) ++ ['\r', '\n']

def csvText (rows : List (List String)) : String := String.ofList (rows.flatMap csvLine)

/-! ## Reading -/

inductive CsvState where
  | startRecord
  | startField
  | inField
  | inQuotedField
  | quoteInQuotedField
  /-- After a `\r` that ended a record. -/
  | eatCrnl
deriving DecidableEq, Repr

structure CsvReader where
  state : CsvState := .startRecord
  field : List Char := []
  fields : List String := []
  rows : List (List String) := []

namespace CsvReader

def saveField (r : CsvReader) : CsvReader :=
  { r with field := [], fields := r.fields ++ [String.ofList r.field] }

def endRecord (r : CsvReader) (c : Char) : CsvReader :=
  { r with
    state := if c = '\r' then .eatCrnl else .startRecord
    fields := []
    rows := r.rows ++ [r.fields] }

def isLineEnd (c : Char) : Bool := c == '\n' || c == '\r'

def addChar (r : CsvReader) (c : Char) (state : CsvState) : CsvReader :=
  { r with field := r.field ++ [c], state := state }

def openField (r : CsvReader) (c : Char) : CsvReader :=
  if isLineEnd c then r.saveField.endRecord c
  else if c = '"' then { r with state := .inQuotedField }
  else if c = ',' then { r.saveField with state := .startField }
  else r.addChar c .inField

def openRecord (r : CsvReader) (c : Char) : CsvReader :=
  if isLineEnd c then r.endRecord c else r.openField c

def step (r : CsvReader) (c : Char) : CsvReader :=
  match r.state with
  | .startRecord => r.openRecord c
  | .startField => r.openField c
  | .inField =>
      if isLineEnd c then r.saveField.endRecord c
      else if c = ',' then { r.saveField with state := .startField }
      else r.addChar c .inField
  | .inQuotedField =>
      if c = '"' then { r with state := .quoteInQuotedField } else r.addChar c .inQuotedField
  | .quoteInQuotedField =>
      if c = '"' then r.addChar c .inQuotedField
      else if c = ',' then { r.saveField with state := .startField }
      else if isLineEnd c then r.saveField.endRecord c
      else r.addChar c .inField
  | .eatCrnl => if c = '\n' then { r with state := .startRecord } else r.openRecord c

/-- The records at the end of the text, where an open record ends too. -/
def finish (r : CsvReader) : List (List String) :=
  match r.state with
  | .startRecord | .eatCrnl => r.rows
  | _ => (r.saveField.endRecord '\n').rows

end CsvReader

def csvRows (text : String) : List (List String) := (text.toList.foldl CsvReader.step {}).finish

/-! ## Round trip -/

namespace CsvReader

theorem read_plain {r : CsvReader} (hstate : r.state = .inField) {cs : List Char}
    (hplain : cs.any isCsvSpecial = false) :
    cs.foldl step r = { r with field := r.field ++ cs } := by
  induction cs generalizing r with
  | nil => simp
  | cons c cs ih =>
      simp only [List.any_cons, Bool.or_eq_false_iff] at hplain
      obtain ⟨hc, hcs⟩ := hplain
      have hstep : r.step c = r.addChar c .inField := by
        simp only [isCsvSpecial, Bool.or_eq_false_iff, beq_eq_false_iff_ne] at hc
        obtain ⟨⟨⟨hcomma, -⟩, hreturn⟩, hnewline⟩ := hc
        simp [step, hstate, isLineEnd, hcomma, hreturn, hnewline]
      rw [List.foldl_cons, hstep, ih rfl hcs]
      simp [addChar, hstate]

theorem read_quoted {r : CsvReader} (hstate : r.state = .inQuotedField) (cs : List Char) :
    (doubleQuotes cs).foldl step r = { r with field := r.field ++ cs } := by
  induction cs generalizing r with
  | nil => simp [doubleQuotes]
  | cons c cs ih =>
      have hstep : (if c = '"' then ['"', '"'] else [c]).foldl step r = r.addChar c .inQuotedField := by
        split_ifs with hquote
        · subst hquote
          simp [step, hstate, addChar]
        · simp [step, hstate, hquote]
      have hcons : doubleQuotes (c :: cs) = (if c = '"' then ['"', '"'] else [c]) ++ doubleQuotes cs :=
        rfl
      rw [hcons, List.foldl_append, hstep, ih rfl]
      simp [addChar, hstate]

/-- The reader is before a field. -/
structure BeforeField (r : CsvReader) : Prop where
  state : r.state = .startRecord ∨ r.state = .startField
  field : r.field = []

theorem openRecord_special {r : CsvReader} {c : Char} (hc : isLineEnd c = false)
    (h : r.BeforeField) : r.step c = r.openField c := by
  rcases h.state with hstate | hstate
  · simp [step, hstate, openRecord, hc]
  · simp [step, hstate]

/-- The reader is after the characters of a field. -/
def InField (state : CsvState) : Prop := state = .inField ∨ state = .quoteInQuotedField

theorem read_field {r : CsvReader} (h : r.BeforeField) {text : String} (hne : text ≠ "") :
    ∃ state, InField state ∧
      (csvField text).foldl step r = { r with state := state, field := text.toList } := by
  have hfield : r.field = [] := h.field
  cases hspecial : text.toList.any isCsvSpecial with
  | true =>
      refine ⟨.quoteInQuotedField, .inr rfl, ?_⟩
      have hopen : r.step '"' = { r with state := .inQuotedField } := by
        rw [openRecord_special rfl h]
        rfl
      rw [csvField, if_pos hspecial, List.foldl_cons, hopen, List.foldl_append, read_quoted rfl]
      simp [step, hfield]
  | false =>
      refine ⟨.inField, .inl rfl, ?_⟩
      rw [csvField, hspecial, if_neg (by decide)]
      cases hcs : text.toList with
      | nil => exact absurd (String.toList_eq_nil_iff.mp hcs) hne
      | cons c cs =>
          rw [hcs, List.any_cons, Bool.or_eq_false_iff] at hspecial
          obtain ⟨hc, hplain⟩ := hspecial
          simp only [isCsvSpecial, Bool.or_eq_false_iff, beq_eq_false_iff_ne] at hc
          obtain ⟨⟨⟨hcomma, hquote⟩, hreturn⟩, hnewline⟩ := hc
          have hend : isLineEnd c = false := by simp [isLineEnd, hreturn, hnewline]
          have hopen : r.step c = r.addChar c .inField := by
            rw [openRecord_special hend h]
            simp [openField, hend, hquote, hcomma]
          rw [List.foldl_cons, hopen, read_plain rfl hplain]
          simp [addChar, hfield]

theorem InField.comma {r : CsvReader} (h : InField r.state) :
    r.step ',' = { r.saveField with state := .startField } := by
  rcases h with hstate | hstate <;> simp [step, hstate, isLineEnd]

theorem InField.lineEnd {r : CsvReader} (h : InField r.state) :
    r.step '\r' = r.saveField.endRecord '\r' := by
  rcases h with hstate | hstate <;> simp [step, hstate, isLineEnd]

/-- A field and the comma after it. -/
theorem read_comma {r : CsvReader} (h : r.BeforeField) (text : String) :
    (csvField text ++ [',']).foldl step r =
      { r with state := .startField, fields := r.fields ++ [text] } := by
  have hfield : r.field = [] := h.field
  rw [List.foldl_append]
  by_cases hempty : text = ""
  · subst hempty
    have hcomma : r.step ',' = r.openField ',' := openRecord_special rfl h
    show r.step ',' = _
    rw [hcomma]
    simp [openField, isLineEnd, saveField, hfield]
  · obtain ⟨state, hstate, hread⟩ := read_field h hempty
    rw [hread]
    show CsvReader.step _ ',' = _
    rw [InField.comma hstate]
    simp [saveField, hfield]

/-- The last field of a record and the line end after it. -/
theorem read_lineEnd {r : CsvReader} (h : r.BeforeField) {text : String}
    (hopen : text ≠ "" ∨ r.state = .startField) :
    (csvField text ++ ['\r', '\n']).foldl step r =
      { r with state := .startRecord, fields := [], rows := r.rows ++ [r.fields ++ [text]] } := by
  have hfield : r.field = [] := h.field
  have hnewline : ∀ r : CsvReader, (r.endRecord '\r').step '\n' =
      { r with state := .startRecord, fields := [], rows := r.rows ++ [r.fields] } := by
    intro r
    rfl
  rw [List.foldl_append]
  show CsvReader.step (CsvReader.step _ '\r') '\n' = _
  by_cases hempty : text = ""
  · subst hempty
    have hstate : r.state = .startField := hopen.resolve_left (by simp)
    have hend : r.step '\r' = r.saveField.endRecord '\r' := by
      simp [step, hstate, openField, isLineEnd]
    show CsvReader.step (r.step '\r') '\n' = _
    rw [hend, hnewline]
    simp [saveField, hfield]
  · obtain ⟨state, hstate, hread⟩ := read_field h hempty
    rw [hread, InField.lineEnd hstate, hnewline]
    simp [saveField, hfield]

/-- The fields of a record and its line end. -/
theorem read_fields {r : CsvReader} (h : r.BeforeField) {texts : List String} (hne : texts ≠ [])
    (hopen : texts ≠ [""] ∨ r.state = .startField) :
    (csvFields texts ++ ['\r', '\n']).foldl step r =
      { r with state := .startRecord, fields := [], rows := r.rows ++ [r.fields ++ texts] } := by
  induction texts generalizing r with
  | nil => exact absurd rfl hne
  | cons text texts ih =>
      cases texts with
      | nil =>
          refine read_lineEnd h (hopen.imp_left fun hone => ?_)
          rintro rfl
          exact hone rfl
      | cons next texts =>
          have hsplit : csvFields (text :: next :: texts) ++ ['\r', '\n'] =
              (csvField text ++ [',']) ++ (csvFields (next :: texts) ++ ['\r', '\n']) := by
            simp [csvFields]
          let after : CsvReader := { r with state := .startField, fields := r.fields ++ [text] }
          have hafter : after.BeforeField := ⟨.inr rfl, h.field⟩
          rw [hsplit, List.foldl_append, read_comma h]
          show (csvFields (next :: texts) ++ ['\r', '\n']).foldl step after = _
          rw [ih hafter (by simp) (.inr rfl)]
          simp [after]

/-- A record is read as it was written. -/
theorem read_line {r : CsvReader} (hstate : r.state = .startRecord) (hfield : r.field = [])
    (hfields : r.fields = []) (row : List String) :
    (csvLine row).foldl step r = { r with rows := r.rows ++ [row] } := by
  have h : r.BeforeField := ⟨.inl hstate, hfield⟩
  unfold csvLine
  split_ifs with hone
  · subst hone
    simp [step, hstate, hfield, hfields, openRecord, openField, isLineEnd, saveField, endRecord]
  · cases row with
    | nil => simp [csvFields, step, hstate, hfield, hfields, openRecord, isLineEnd, endRecord]
    | cons text texts =>
        rw [read_fields h (by simp) (.inl hone)]
        simp [hstate, hfields]

end CsvReader

/-- **Round trip.** -/
theorem csvRows_csvText (rows : List (List String)) : csvRows (csvText rows) = rows := by
  have hread : ∀ (r : CsvReader), r.state = .startRecord → r.field = [] → r.fields = [] →
      (rows.flatMap csvLine).foldl CsvReader.step r = { r with rows := r.rows ++ rows } := by
    induction rows with
    | nil => simp
    | cons row rows ih =>
        intro r hstate hfield hfields
        let after : CsvReader := { r with rows := r.rows ++ [row] }
        rw [List.flatMap_cons, List.foldl_append, CsvReader.read_line hstate hfield hfields]
        show (rows.flatMap csvLine).foldl CsvReader.step after = _
        rw [ih after hstate hfield hfields]
        simp [after]
  rw [csvRows, csvText, String.toList_ofList, hread {} rfl rfl rfl]
  rfl

end SetadJang.Framework
