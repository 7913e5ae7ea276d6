import SetadJang.Framework.PyCase
import SetadJang.Framework.PyJson
import SetadJang.Framework.PyText
import SetadJang.Framework.PyUnicode
import SetadJang.Framework.Txn

/-!
# Settlement reports

The parser of `apps/madadkar/reconciliation.py`: the header row of a CSV or XLSX report is mapped
to the columns `authority`, `ref_id`, `amount` and `status`, every row is brought to these columns
and kept beside them as it came, and rows that say nothing are dropped.

The bytes are read by the `csv` module and by `openpyxl`; the model starts from the cells they
yield.
-/

namespace SetadJang.Madadkar

open SetadJang.Framework

/-- A float with what `str` makes of it: a point, an exponent or a name. -/
structure PyFloat where
  value : PyNumber
  text : String
  written : '.' ∈ text.toList ∨ 'e' ∈ text.toList ∨ 'n' ∈ text.toList
deriving DecidableEq

/-- What a cell holds.  A date is known by its `str`. -/
inductive Cell where
  | text (value : String)
  | int (value : ℤ)
  | float (value : PyFloat)
  | date (text : String)
  | empty
deriving DecidableEq

namespace Cell

/-- `str(value)`. -/
def str : Cell → String
  | .text value => value
  | .int value => toString value
  | .float value => value.text
  | .date shown => shown
  | .empty => "None"

/-- `bool(value)`. -/
def truthy : Cell → Bool
  | .text value => value != ""
  | .int value => value != 0
  | .float value =>
      match value.value with
      | .finite numerator _ => numerator != 0
      | _ => true
  | .date _ => true
  | .empty => false

/-- `str(value or default)`. -/
def strOr (value : Cell) (default : String) : String := if value.truthy then value.str else default

def number : Cell → Option PyNumber
  | .int value => some (.finite value 1)
  | .float value => some value.value
  | _ => none

/-- `==` on the keys of a dictionary: numbers are compared by their value. -/
def sameKey (a b : Cell) : Bool :=
  match a.number, b.number with
  | some x, some y => !x.lt y && !y.lt x
  | none, none => a == b
  | _, _ => false

end Cell

/-- `d[key] = value`: a key keeps its place. -/
def setItem {κ ν : Type} (same : κ → κ → Bool) (d : List (κ × ν)) (key : κ) (value : ν) :
    List (κ × ν) :=
  if d.any fun entry => same entry.1 key then
    d.map fun entry => if same entry.1 key then (entry.1, value) else entry
  else d ++ [(key, value)]

/-- A row as a dictionary.  `rest` holds the cells beyond the header, which `csv` keeps under the
key `None`. -/
structure RawRow where
  items : List (Cell × Cell)
  rest : Option (List String)
deriving DecidableEq

inductive RawValue where
  | cell (value : Cell)
  | rest (values : List String)
deriving DecidableEq

/-- A row of the parsed report. -/
structure SettlementRow where
  authority : String
  refId : String
  amount : ℤ
  status : String
  rawPayload : List (String × RawValue)
deriving DecidableEq

inductive ReportError where
  | importError (message : String)
  /-- The `csv` module or `openpyxl` raises. -/
  | reader
deriving DecidableEq, Repr

/-! ## Headers -/

/-- `_HEADER_ALIASES`. -/
def headerAliases : List (String × String) :=
  [("authority", "authority"), ("Authority", "authority"), ("authority_code", "authority"),
    ("ref_id", "ref_id"), ("refid", "ref_id"), ("reference", "ref_id"),
    ("reference_id", "ref_id"), ("amount", "amount"), ("Amount", "amount"), ("مبلغ", "amount"),
    ("status", "status"), ("Status", "status"), ("وضعیت", "status")]

/-- `_HEADER_ALIASES.get(stripped, stripped.lower())`. -/
def canonicalHeader (stripped : String) : String :=
  (headerAliases.lookup stripped).getD (pyLower stripped)

/-- `_normalize_headers`. -/
def normalizeHeaders (fieldnames : List String) : Except ReportError (List (String × String)) := do
  let mapping := fieldnames.map fun header => (pyStrip header, canonicalHeader (pyStrip header))
  let canonicalValues := mapping.map Prod.snd
  checkThat (("amount" ∈ canonicalValues ∧ "status" ∈ canonicalValues) ∧
      ("authority" ∈ canonicalValues ∨ "ref_id" ∈ canonicalValues))
    (.importError "ستون‌های ضروری فایل تطبیق کامل نیستند.")
  return mapping

/-! ## Rows -/

/-- `_normalize_cell` for the column `amount`. -/
def normalizeAmount (value : Cell) : Except ReportError ℤ :=
  match pyInt (pyStrip (String.ofList ((value.strOr "0").toList.filter (· != ',')))) with
  | some amount => .ok amount
  | none => .error (.importError "ستون amount باید عددی باشد.")

/-- `_normalize_cell` for the other columns. -/
def normalizeText (value : Cell) : String := pyStrip (value.strOr "")

/-- `canonical[key] = _normalize_cell(value=value, key=key)`, if there is such a column. -/
def SettlementRow.setColumn (row : SettlementRow) (key : Option String) (value : Cell) :
    Except ReportError SettlementRow :=
  match key with
  | some "authority" => .ok { row with authority := normalizeText value }
  | some "ref_id" => .ok { row with refId := normalizeText value }
  | some "status" => .ok { row with status := normalizeText value }
  | some "amount" => do
      let amount ← normalizeAmount value
      return { row with amount := amount }
  | _ => .ok row

/-- `{str(key): value for key, value in raw_row.items()}`. -/
def RawRow.payload (raw : RawRow) : List (String × RawValue) :=
  let cells := raw.items.foldl (fun d item => setItem (· == ·) d item.1.str (RawValue.cell item.2)) []
  match raw.rest with
  | none => cells
  | some values => setItem (· == ·) cells "None" (.rest values)

/-- `_canonicalize_row`.  The cells under the key `None` stand below the header `""`, which is
none of the columns. -/
def canonicalizeRow (raw : RawRow) (headers : List (String × String)) :
    Except ReportError SettlementRow := do
  let canonical ← raw.items.foldlM
    (fun row item => row.setColumn (headers.lookup (pyStrip (item.1.strOr ""))) item.2)
    (⟨"", "", 0, "", []⟩ : SettlementRow)
  return { canonical with rawPayload := raw.payload }

/-- A row with an empty cell in every column is dropped. -/
def SettlementRow.saysSomething (row : SettlementRow) : Bool :=
  row.authority != "" || row.refId != "" || row.amount != 0 || row.status != ""

/-- The checks of one row. -/
def SettlementRow.validate (row : SettlementRow) : Except ReportError Unit := do
  checkThat (row.authority ≠ "" ∨ row.refId ≠ "")
    (.importError "هر ردیف باید authority یا ref_id داشته باشد.")
  checkThat (0 < row.amount) (.importError "مبلغ هر ردیف باید بزرگ‌تر از صفر باشد.")
  checkThat (row.status ≠ "") (.importError "status هر ردیف الزامی است.")

/-- `_validate_rows`. -/
def validateRows (rows : List SettlementRow) : Except ReportError (List SettlementRow) := do
  let cleaned := rows.filter SettlementRow.saysSomething
  cleaned.forM SettlementRow.validate
  return cleaned

/-! ## Reports -/

/-- A row of `csv.DictReader`. -/
def csvRow (fieldnames row : List String) : RawRow where
  items :=
    (fieldnames.drop row.length).foldl (fun d name => setItem Cell.sameKey d (.text name) .empty)
      ((fieldnames.zip row).foldl
        (fun d item => setItem Cell.sameKey d (.text item.1) (.text item.2)) [])
  rest := if fieldnames.length < row.length then some (row.drop fieldnames.length) else none

/-- `_parse_csv`.  Blank lines are skipped by the reader. -/
def parseCsv (fieldnames : Option (List String)) (lines : List (List String)) :
    Except ReportError (List SettlementRow) :=
  match fieldnames with
  | none => .error (.importError "فایل CSV header ندارد.")
  | some fieldnames => do
      let headers ← normalizeHeaders fieldnames
      let rows ← (lines.filter (· ≠ [])).mapM fun line =>
        canonicalizeRow (csvRow fieldnames line) headers
      validateRows rows

/-- `_parse_xlsx`. -/
def parseXlsx (rawHeaders : List Cell) (lines : List (List Cell)) :
    Except ReportError (List SettlementRow) := do
  let headers ← normalizeHeaders (rawHeaders.map fun value => value.strOr "")
  let rows ← lines.mapM fun line =>
    canonicalizeRow
      { items := (rawHeaders.zip line).foldl (fun d item => setItem Cell.sameKey d item.1 item.2) []
        rest := none } headers
  validateRows rows

/-- An uploaded file, with the cells the two readers find in it; `none` where the reader raises. -/
structure SettlementUpload where
  filename : String
  csvCells : Option (Option (List String) × List (List String))
  xlsxCells : Option (List Cell × List (List Cell))

/-- The parser the name of the file asks for. -/
def parseByName (file : SettlementUpload) (normalizedName : String) :
    Except ReportError (List SettlementRow) :=
  if pyEndsWith normalizedName ".csv" then
    match file.csvCells with
    | none => .error .reader
    | some (fieldnames, lines) => parseCsv fieldnames lines
  else if pyEndsWith normalizedName ".xlsx" then
    match file.xlsxCells with
    | none => .error .reader
    | some (headers, lines) => parseXlsx headers lines
  else .error (.importError "فرمت فایل تطبیق باید CSV یا XLSX باشد.")

/-- `parse_settlement_report`. -/
def parseSettlementReport (file : SettlementUpload) : Except ReportError (List SettlementRow) := do
  let rows ← parseByName file (pyStrip (pyLower file.filename))
  checkThat (rows ≠ []) (.importError "فایل تطبیق هیچ ردیف معتبری ندارد.")
  return rows

/-! ## What the rows of an accepted report look like -/

/-- The texts of the row are stripped. -/
structure SettlementRow.Stripped (row : SettlementRow) : Prop where
  authority : pyStrip row.authority = row.authority
  refId : pyStrip row.refId = row.refId
  status : pyStrip row.status = row.status

/-- A row the parser returns. -/
structure SettlementRow.Accepted (row : SettlementRow) : Prop extends row.Stripped where
  named : row.authority ≠ "" ∨ row.refId ≠ ""
  amount_pos : 0 < row.amount
  status_ne : row.status ≠ ""

theorem stripped_setColumn {row row' : SettlementRow} {key : Option String} {value : Cell}
    (hrow : row.Stripped) (h : row.setColumn key value = .ok row') : row'.Stripped := by
  unfold SettlementRow.setColumn at h
  split at h
  · obtain rfl := Except.ok.inj h
    exact ⟨pyStrip_pyStrip _, hrow.refId, hrow.status⟩
  · obtain rfl := Except.ok.inj h
    exact ⟨hrow.authority, pyStrip_pyStrip _, hrow.status⟩
  · obtain rfl := Except.ok.inj h
    exact ⟨hrow.authority, hrow.refId, pyStrip_pyStrip _⟩
  · obtain ⟨amount, -, hamount⟩ := except_bind_ok_iff.mp h
    obtain rfl := Except.ok.inj hamount
    exact ⟨hrow.authority, hrow.refId, hrow.status⟩
  · obtain rfl := Except.ok.inj h
    exact hrow

theorem stripped_canonicalizeRow {raw : RawRow} {headers : List (String × String)}
    {row : SettlementRow} (h : canonicalizeRow raw headers = .ok row) : row.Stripped := by
  obtain ⟨canonical, hloop, hrow⟩ := except_bind_ok_iff.mp h
  obtain rfl := Except.ok.inj hrow
  have hstripped : canonical.Stripped := by
    -- every column is written stripped, whatever the order of the headers
    apply loop_invariant (I := fun _ row => SettlementRow.Stripped row) _ _ hloop
    · intro item rest row row' _ hrow hset
      exact stripped_setColumn hrow hset
    · exact ⟨by decide, by decide, by decide⟩
  exact ⟨hstripped.authority, hstripped.refId, hstripped.status⟩

theorem accepted_validateRows {rows cleaned : List SettlementRow}
    (hrows : ∀ row ∈ rows, row.Stripped) (h : validateRows rows = .ok cleaned) :
    ∀ row ∈ cleaned, row.Accepted := by
  obtain ⟨_, hchecks, hcleaned⟩ := except_bind_ok_iff.mp h
  obtain rfl := Except.ok.inj hcleaned
  intro row hrow
  have hcheck := forM_ok_iff.mp hchecks row hrow
  simp only [SettlementRow.validate, checkThat_bind_ok_iff, checkThat_ok_iff] at hcheck
  obtain ⟨hnamed, hamount, hstatus⟩ := hcheck
  exact ⟨hrows row (List.mem_filter.mp hrow).1, hnamed, hamount, hstatus⟩

/-- The rows both readers bring to the checks. -/
theorem stripped_mapM {α : Type} {lines : List α} {raw : α → RawRow}
    {headers : List (String × String)} {rows : List SettlementRow}
    (h : lines.mapM (fun line => canonicalizeRow (raw line) headers) = .ok rows) :
    ∀ row ∈ rows, row.Stripped := by
  intro row hrow
  obtain ⟨line, -, hline⟩ := mem_of_mapM_ok h row hrow
  exact stripped_canonicalizeRow hline

theorem accepted_parseCsv {fieldnames : Option (List String)} {lines : List (List String)}
    {rows : List SettlementRow} (h : parseCsv fieldnames lines = .ok rows) :
    ∀ row ∈ rows, row.Accepted := by
  unfold parseCsv at h
  split at h
  · cases h
  · obtain ⟨headers, -, h⟩ := except_bind_ok_iff.mp h
    obtain ⟨canonical, hcanonical, h⟩ := except_bind_ok_iff.mp h
    exact accepted_validateRows (stripped_mapM hcanonical) h

theorem accepted_parseXlsx {rawHeaders : List Cell} {lines : List (List Cell)}
    {rows : List SettlementRow} (h : parseXlsx rawHeaders lines = .ok rows) :
    ∀ row ∈ rows, row.Accepted := by
  obtain ⟨headers, -, h⟩ := except_bind_ok_iff.mp h
  obtain ⟨canonical, hcanonical, h⟩ := except_bind_ok_iff.mp h
  exact accepted_validateRows (stripped_mapM hcanonical) h

theorem accepted_parseByName {file : SettlementUpload} {normalizedName : String}
    {rows : List SettlementRow} (h : parseByName file normalizedName = .ok rows) :
    ∀ row ∈ rows, row.Accepted := by
  unfold parseByName at h
  split_ifs at h
  · split at h
    · cases h
    · exact accepted_parseCsv h
  · split at h
    · cases h
    · exact accepted_parseXlsx h

/-- **Accepted reports.** -/
theorem accepted_parse {file : SettlementUpload} {rows : List SettlementRow}
    (h : parseSettlementReport file = .ok rows) : rows ≠ [] ∧ ∀ row ∈ rows, row.Accepted := by
  unfold parseSettlementReport at h
  obtain ⟨parsed, hparsed, h⟩ := except_bind_ok_iff.mp h
  obtain ⟨hne, h⟩ := checkThat_bind_ok_iff.mp h
  obtain rfl := Except.ok.inj h
  exact ⟨hne, accepted_parseByName hparsed⟩

end SetadJang.Madadkar
