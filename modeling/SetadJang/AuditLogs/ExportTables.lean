import SetadJang.Framework.PyCsv
import SetadJang.AuditLogs.Export

/-!
# The tables of an export

`_render_csv` and `_render_xlsx` write the records of an export as a table for spreadsheets.  A text
that a spreadsheet would take for a formula gets an apostrophe in front.  The CSV text is read back
as the table, and no cell of it is a formula, whatever the records hold.
-/

namespace SetadJang.AuditLogs

open SetadJang.Framework

/-! ## JSON texts in cells -/

mutual

/-- `json.dumps(value, ensure_ascii=False, sort_keys=True)`, with its own separators. -/
def dumpsSpaced : PyJson → String
  | .list items => "[" ++ ", ".intercalate (dumpsSpacedItems items) ++ "]"
  | .dict entries =>
      "\x7b" ++ ", ".intercalate ((sortEntries (dumpsSpacedEntries entries)).map fun entry =>
        jsonString entry.1.text ++ ": " ++ entry.2) ++ "\x7d"
  | value => value.dumps

def dumpsSpacedItems : List PyJson → List String
  | [] => []
  | item :: items => dumpsSpaced item :: dumpsSpacedItems items

def dumpsSpacedEntries : List (PyKey × PyJson) → List (PyKey × String)
  | [] => []
  | (key, value) :: entries => (key, dumpsSpaced value) :: dumpsSpacedEntries entries

end

/-! ## Cells -/

/-- What a column of the table holds. -/
inductive Cell where
  | none
  | int (value : ℕ)
  | str (text : String)
deriving DecidableEq, Repr

def Cell.ofText (text : Option String) : Cell := text.elim .none .str

/-- What `csv` writes. -/
def Cell.csv : Cell → String
  | .none => ""
  | .int value => toString value
  | .str text => text

def dangerousSpreadsheetPrefixes : List String := ["=", "+", "-", "@"]

/-- A spreadsheet takes the text for a formula. -/
def isFormula (text : String) : Bool := dangerousSpreadsheetPrefixes.any (pyStartsWith text)

def safeSpreadsheetValue : Cell → Cell
  | .str text => .str (if isFormula text then "'" ++ text else text)
  | value => value

/-! ## The table -/

def exportFieldnames : List String :=
  ["id", "created_at", "user_id", "user_email", "user_full_name", "action", "resource_type",
    "resource_id", "ip_address", "request_id", "user_agent", "path", "method", "changes",
    "extra_data", "previous_hash", "event_hash", "hash_version"]

/-- The record without its `user`, and the columns of the user after it. -/
def flattenRecordForTable (users : ℕ → ExportUser) (audit : AuditLog PyJson) :
    List (String × Cell) :=
  [("id", .int audit.pk),
    ("created_at", .str (String.ofList (utcDateTime audit.createdAt).isoformat)),
    ("action", .str audit.event.action),
    ("resource_type", .str audit.event.resourceType),
    ("resource_id", .ofText audit.event.resourceId),
    ("ip_address", .ofText audit.event.ipAddress),
    ("request_id", .ofText audit.event.requestId),
    ("user_agent", .str audit.event.userAgent),
    ("path", .str audit.event.path),
    ("method", .str audit.event.method),
    ("changes", .str (dumpsSpaced (audit.event.changes.getD .null))),
    ("extra_data", .str (dumpsSpaced (audit.event.extraData.getD .null))),
    ("previous_hash", .str audit.stamp.previousHash),
    ("event_hash", .str audit.stamp.eventHash),
    ("hash_version", .int audit.event.hashVersion),
    ("user_id", audit.event.userId.elim .none .int),
    ("user_email", .ofText (audit.event.userId.bind fun user => (users user).email)),
    ("user_full_name", .ofText (audit.event.userId.map fun user => (users user).fullName))].map
      fun column => (column.1, safeSpreadsheetValue column.2)

/-- A row of the table; a column that the record lacks is left empty. -/
def tableRow (users : ℕ → ExportUser) (audit : AuditLog PyJson) : List Cell :=
  exportFieldnames.map fun field => ((flattenRecordForTable users audit).lookup field).getD .none

/-- The text of `audit_logs.csv`. -/
def renderCsv (users : ℕ → ExportUser) (audits : List (AuditLog PyJson)) : String :=
  csvText (exportFieldnames :: audits.map fun audit => (tableRow users audit).map Cell.csv)

/-! ## No formulas -/

theorem isFormula_iff {text : String} :
    isFormula text = true ↔ ∃ c ∈ ['=', '+', '-', '@'], text.toList.head? = some c := by
  have hone : ∀ d : Char, pyStartsWith text (String.singleton d) = (text.toList.head? == some d) := by
    intro d
    have hsingle : (String.singleton d).toList = [d] := String.toList_singleton d
    rw [pyStartsWith, hsingle]
    cases text.toList with
    | nil => rfl
    | cons c cs =>
        rw [List.isPrefixOf, List.isPrefixOf, Bool.and_true, List.head?_cons, Bool.eq_iff_iff,
          beq_iff_eq, beq_iff_eq, Option.some.injEq]
        exact eq_comm
  have hany : isFormula text = ['=', '+', '-', '@'].any fun d => text.toList.head? == some d := by
    simp only [List.any_cons, List.any_nil, ← hone]
    rfl
  rw [hany, List.any_eq_true]
  simp only [beq_iff_eq]

/-- A numeral starts with a digit. -/
theorem isFormula_numeral (n : ℕ) : isFormula (toString n) = false := by
  rw [Bool.eq_false_iff]
  intro hformula
  obtain ⟨c, hc, hhead⟩ := isFormula_iff.mp hformula
  have hmem : c ∈ (toString n).toList := List.mem_of_mem_head? hhead
  have hall : (['=', '+', '-', '@'].all fun d => !d.isDigit) = true := rfl
  have hdigit : c.isDigit = false := by simpa using List.all_eq_true.mp hall c hc
  exact not_mem_str hdigit n hmem

theorem isFormula_safe (cell : Cell) : isFormula (safeSpreadsheetValue cell).csv = false := by
  cases cell with
  | none => rfl
  | int value => exact isFormula_numeral value
  | str text =>
      by_cases hformula : isFormula text = true
      · simp only [safeSpreadsheetValue, if_pos hformula, Cell.csv]
        rw [Bool.eq_false_iff]
        intro hguarded
        obtain ⟨c, hc, hhead⟩ := isFormula_iff.mp hguarded
        have hquote : ("'" ++ text).toList.head? = some '\'' := by
          rw [String.toList_append]
          rfl
        rw [hquote] at hhead
        obtain rfl := Option.some.inj hhead
        revert hc
        decide
      · simp only [safeSpreadsheetValue, if_neg hformula, Cell.csv]
        exact Bool.eq_false_of_not_eq_true hformula

/-- Every cell of the table has been made safe. -/
theorem safe_of_mem_tableRow {users : ℕ → ExportUser} {audit : AuditLog PyJson} {cell : Cell}
    (h : cell ∈ tableRow users audit) : ∃ value, cell = safeSpreadsheetValue value := by
  obtain ⟨field, -, rfl⟩ := List.mem_map.mp h
  cases hlookup : (flattenRecordForTable users audit).lookup field with
  | none => exact ⟨.none, rfl⟩
  | some cell =>
      obtain ⟨before, after, hsplit, -⟩ := List.lookup_eq_some_iff.mp hlookup
      have hmem : (field, cell) ∈ flattenRecordForTable users audit := by
        rw [hsplit]
        exact List.mem_append_right _ List.mem_cons_self
      obtain ⟨column, -, hcolumn⟩ := List.mem_map.mp hmem
      exact ⟨column.2, (Prod.mk.inj hcolumn).2.symm⟩

/-- **Spreadsheets.**  The CSV text is read back as the table with its header, and no cell of a
record is a formula. -/
theorem csv_reads_back_safe (users : ℕ → ExportUser) (audits : List (AuditLog PyJson)) :
    csvRows (renderCsv users audits) =
        exportFieldnames :: audits.map (fun audit => (tableRow users audit).map Cell.csv) ∧
      ∀ row ∈ (csvRows (renderCsv users audits)).tail, row.length = exportFieldnames.length ∧
        ∀ cell ∈ row, isFormula cell = false := by
  have hread : csvRows (renderCsv users audits) =
      exportFieldnames :: audits.map fun audit => (tableRow users audit).map Cell.csv :=
    csvRows_csvText _
  refine ⟨hread, ?_⟩
  rw [hread, List.tail_cons]
  intro row hrow
  obtain ⟨audit, -, rfl⟩ := List.mem_map.mp hrow
  refine ⟨by rw [List.length_map, tableRow, List.length_map], fun cell hcell => ?_⟩
  obtain ⟨value, hvalue, rfl⟩ := List.mem_map.mp hcell
  obtain ⟨original, rfl⟩ := safe_of_mem_tableRow hvalue
  exact isFormula_safe original

end SetadJang.AuditLogs
