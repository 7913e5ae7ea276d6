import SetadJang.Framework.References
import SetadJang.SupportDesk.DeskRuns

/-!
# Deactivation guards

`deactivate_category` and `deactivate_department` refuse while an active child or an open
ticket depends on the row.  The guard stands in these two services only: an update may clear
the same flag, a row may be created or moved under an inactive one, and a ticket may return to
the open queue after its category or department was deactivated.
-/

namespace SetadJang.SupportDesk

open SetadJang.Framework

/-! ## Departments -/

/-- `SupportDepartment`, the row. -/
structure DepartmentRow where
  title : String
  description : String
  defaultAssignee : Option ℕ
  order : ℤ
  isActive : Bool
deriving DecidableEq, Repr

abbrev Departments := List DepartmentRow

inductive DepartmentError where
  | service (message : String)
  | doesNotExist
  | dataError
  | integrityError
deriving DecidableEq, Repr

/-- A save beside the other rows: the limits of the columns and the unique title. -/
def saveDepartment (others : Departments) (row : DepartmentRow) :
    Except DepartmentError DepartmentRow := do
  checkThat (row.title.length ≤ 180 ∧ 0 ≤ row.order ∧ row.order ≤ 2147483647) .dataError
  checkThat (∀ other ∈ others, other.title ≠ row.title) .integrityError
  pure row

/-- `create_department`. -/
def createDepartment (rows : Departments) (title description : String)
    (defaultAssignee : Option ℕ) (order : ℤ) : Except DepartmentError Departments := do
  let row ← saveDepartment rows ⟨pyStrip title, pyStrip description, defaultAssignee, order, true⟩
  pure (rows ++ [row])

/-- The fields of `update_department`, those that are given. -/
structure DepartmentFields where
  title : Option String := none
  description : Option String := none
  defaultAssignee : Option (Option ℕ) := none
  order : Option ℤ := none
  isActive : Option Bool := none

def DepartmentFields.set (fields : DepartmentFields) (row : DepartmentRow) : DepartmentRow where
  title := (fields.title.map pyStrip).getD row.title
  description := (fields.description.map pyStrip).getD row.description
  defaultAssignee := fields.defaultAssignee.getD row.defaultAssignee
  order := fields.order.getD row.order
  isActive := fields.isActive.getD row.isActive

/-- `update_department`.  Where no value changes nothing is saved. -/
def updateDepartment (rows : Departments) (k : ℕ) (fields : DepartmentFields) :
    Except DepartmentError Departments :=
  match rows[k]? with
  | none => .error .doesNotExist
  | some row =>
      if fields.set row = row then .ok rows
      else do
        let row ← saveDepartment (rows.eraseIdx k) (fields.set row)
        pure (rows.set k row)

/-- `SupportTicket.objects.open_queue().filter(department=department).exists()`. -/
def departmentHasOpenTickets (tickets : List SupportTicket) (department : ℕ) : Bool :=
  tickets.any fun t => t.department == department && t.workflow.inOpenQueue

/-- `deactivate_department`. -/
def deactivateDepartment (rows : Departments) (k : ℕ) (openTickets : Bool) :
    Except DepartmentError Departments :=
  match rows[k]? with
  | none => .error .doesNotExist
  | some row =>
      if openTickets then
        .error (.service "دپارتمانی که تیکت باز دارد قابل غیرفعال‌سازی نیست.")
      else .ok (rows.set k { row with isActive := false })

/-! ## Runs -/

structure Bureau where
  departments : Departments
  desk : Desk

inductive BureauCall where
  | createDepartment (title description : String) (defaultAssignee : Option ℕ) (order : ℤ)
  | updateDepartment (department : ℕ) (fields : DepartmentFields)
  | deactivateDepartment (department : ℕ)
  | desk (call : DeskCall)

/-- A call on the departments; a raise rolls it back. -/
def Bureau.onDepartments (s : Bureau) : Except DepartmentError Departments → Bureau
  | .ok departments => { s with departments := departments }
  | .error _ => s

def bureauStep (rules : TextRules) (s : Bureau) : BureauCall → Bureau
  | .createDepartment title description defaultAssignee order =>
      s.onDepartments (SupportDesk.createDepartment s.departments title description defaultAssignee
        order)
  | .updateDepartment k fields =>
      s.onDepartments (SupportDesk.updateDepartment s.departments k fields)
  | .deactivateDepartment k =>
      s.onDepartments (SupportDesk.deactivateDepartment s.departments k
        (departmentHasOpenTickets s.desk.tickets k))
  | .desk (.store act) => { s with desk := storeStep rules s.desk act }
  | .desk (.markSlaBreaches now) => { s with desk := s.desk.markSlaBreaches now }

/-- The store with no row. -/
def Bureau.empty : Bureau := ⟨[], Desk.empty⟩

def InactiveCategory (s : Bureau) (k : ℕ) : Prop :=
  ∃ row, s.desk.categories[k]? = some row ∧ row.isActive = false

def InactiveDepartment (s : Bureau) (k : ℕ) : Prop :=
  ∃ row, s.departments[k]? = some row ∧ row.isActive = false

/-- **Deactivation guards.** No inactive category has an open ticket or an active child, and no
inactive department has an open ticket. -/
structure GuardsHold (s : Bureau) : Prop where
  categoryTickets : ∀ k, InactiveCategory s k →
    ∀ t ∈ s.desk.tickets, t.workflow.inOpenQueue = true → t.category ≠ k
  categoryChildren : ∀ k, InactiveCategory s k →
    ∀ child ∈ s.desk.categories, child.isActive = true → child.parent ≠ some k
  departmentTickets : ∀ k, InactiveDepartment s k →
    ∀ t ∈ s.desk.tickets, t.workflow.inOpenQueue = true → t.department ≠ k

/-! ## Calls that go around the guards -/

/-- The category passes the guard of `deactivate_category`. -/
def CategoryIdle (s : Bureau) (k : ℕ) : Prop :=
  (∀ t ∈ s.desk.tickets, t.workflow.inOpenQueue = true → t.category ≠ k) ∧
    ∀ j child, j ≠ k → s.desk.categories[j]? = some child → child.isActive = true →
      child.parent ≠ some k

/-- An accepted call of the store retires only what passes the guard, and puts nothing active
or open under an inactive row. -/
def StoreRespects (s : Bureau) : StoreAct → Prop
  | .createCategory input _ => ∀ p, input.parent = some p → ¬ InactiveCategory s p
  | .updateCategory k fields => ∀ category, s.desk.categories[k]? = some category →
      ((fields.set category).isActive = true →
        ∀ p, (fields.set category).parent = some p → ¬ InactiveCategory s p) ∧
      ((fields.set category).isActive = false → CategoryIdle s k)
  | .deactivateCategory _ => True
  | .createTicket _ ticketType _ _ department category _ _ _ =>
      (∀ c, category.or ticketType.defaultCategory = some c → ¬ InactiveCategory s c) ∧
      ∀ d, department.or ticketType.defaultDepartment = some d → ¬ InactiveDepartment s d.pk
  | .updateDraftTicket k _ fields _ => ∀ t, s.desk.tickets[k]? = some t →
      ¬ InactiveCategory s (fields.route t).category ∧
        ¬ InactiveDepartment s (fields.route t).department
  | .assignTicket k _ _ department _ => ∀ t, s.desk.tickets[k]? = some t →
      t.workflow.inOpenQueue = true → ∀ d, department = some d → ¬ InactiveDepartment s d
  | act => ∀ k actor toStatus, act.statusCall = some (k, actor, toStatus) →
      ∀ t, s.desk.tickets[k]? = some t →
        t.workflow.status ∈ terminalStatuses → toStatus ∉ terminalStatuses →
        ¬ InactiveCategory s t.category ∧ ¬ InactiveDepartment s t.department

/-- The call goes around no guard, or it is refused. -/
def RespectsGuards (rules : TextRules) (s : Bureau) : BureauCall → Prop
  | .updateDepartment k fields => ∀ rows,
      updateDepartment s.departments k fields = .ok rows → fields.isActive = some false →
        ∀ t ∈ s.desk.tickets, t.workflow.inOpenQueue = true → t.department ≠ k
  | .desk (.store act) => ∀ desk', storeCall rules s.desk act = .ok desk' → StoreRespects s act
  | _ => True

/-! ## The tables as columns -/

def openTickets (tickets : List SupportTicket) : ℕ → Option Bool :=
  columnOf (fun t => t.workflow.inOpenQueue) tickets

def activeCategories (rows : Categories) : ℕ → Option Bool := columnOf SupportCategory.isActive rows

def activeDepartments (rows : Departments) : ℕ → Option Bool := columnOf DepartmentRow.isActive rows

/-- The three references of the desk are sheltered. -/
structure Sheltering (tickets : List SupportTicket) (categories : Categories)
    (departments : Departments) : Prop where
  categoryTickets : Sheltered (openTickets tickets) (columnOf SupportTicket.category tickets)
    (activeCategories categories)
  categoryChildren : Sheltered (activeCategories categories) (parentOf categories)
    (activeCategories categories)
  departmentTickets : Sheltered (openTickets tickets) (columnOf SupportTicket.department tickets)
    (activeDepartments departments)

section columns

variable {s : Bureau} {tickets : List SupportTicket} {categories rows' : Categories}
  {departments : Departments} {t' : SupportTicket} {k : ℕ}

theorem inactiveCategory_iff :
    InactiveCategory s k ↔ activeCategories s.desk.categories k = some false :=
  columnOf_eq_some_iff.symm

theorem inactiveDepartment_iff :
    InactiveDepartment s k ↔ activeDepartments s.departments k = some false :=
  columnOf_eq_some_iff.symm

/-- The open tickets that refer to a row, by a column of theirs. -/
theorem not_open_referred_iff (f : SupportTicket → ℕ) :
    (∀ i, openTickets tickets i = some true → columnOf f tickets i ≠ some k) ↔
      ∀ t ∈ tickets, t.workflow.inOpenQueue = true → f t ≠ k := by
  refine (not_referred_iff (r := fun t => some (f t)) fun i t ht => columnOf_eq ht).trans ?_
  simp only [ne_eq, Option.some.injEq]

theorem sheltered_open_iff (f : SupportTicket → ℕ) {active : ℕ → Option Bool} :
    Sheltered (openTickets tickets) (columnOf f tickets) active ↔
      ∀ k, active k = some false → ∀ t ∈ tickets, t.workflow.inOpenQueue = true → f t ≠ k := by
  refine (sheltered_rows_iff (r := fun t => some (f t)) fun i t ht => columnOf_eq ht).trans ?_
  simp only [ne_eq, Option.some.injEq]

theorem guardsHold_iff :
    GuardsHold s ↔ Sheltering s.desk.tickets s.desk.categories s.departments := by
  have hchildren : Sheltered (activeCategories s.desk.categories) (parentOf s.desk.categories)
      (activeCategories s.desk.categories) ↔ _ := sheltered_rows_iff fun i row => parentOf_eq
  constructor
  · intro h
    refine ⟨(sheltered_open_iff _).mpr ?_, hchildren.mpr ?_, (sheltered_open_iff _).mpr ?_⟩
    · intro k hk
      exact h.categoryTickets k (inactiveCategory_iff.mpr hk)
    · intro k hk
      exact h.categoryChildren k (inactiveCategory_iff.mpr hk)
    · intro k hk
      exact h.departmentTickets k (inactiveDepartment_iff.mpr hk)
  · intro h
    refine ⟨?_, ?_, ?_⟩
    · intro k hk
      exact (sheltered_open_iff _).mp h.categoryTickets k (inactiveCategory_iff.mp hk)
    · intro k hk
      exact hchildren.mp h.categoryChildren k (inactiveCategory_iff.mp hk)
    · intro k hk
      exact (sheltered_open_iff _).mp h.departmentTickets k (inactiveDepartment_iff.mp hk)

/-! ## Writes -/

/-- A ticket is written: its references must be active if it is open. -/
theorem sheltering_tickets_iff {after : List SupportTicket}
    (h : Sheltering tickets categories departments)
    (hcolumns : ∀ {β : Type} (f : SupportTicket → β),
      columnOf f after = Function.update (columnOf f tickets) k (some (f t'))) :
    Sheltering after categories departments ↔
      (t'.workflow.inOpenQueue = true → activeCategories categories t'.category ≠ some false ∧
        activeDepartments departments t'.department ≠ some false) := by
  have hopened : openTickets after =
      Function.update (openTickets tickets) k (some t'.workflow.inOpenQueue) := hcolumns _
  have hcategory := sheltered_update_source h.categoryTickets k t'.workflow.inOpenQueue
    (some t'.category)
  rw [← hopened, ← hcolumns] at hcategory
  have hdepartment := sheltered_update_source h.departmentTickets k t'.workflow.inOpenQueue
    (some t'.department)
  rw [← hopened, ← hcolumns] at hdepartment
  constructor
  · intro hafter hopen
    exact ⟨hcategory.mp hafter.categoryTickets hopen _ rfl,
      hdepartment.mp hafter.departmentTickets hopen _ rfl⟩
  · intro hrefs
    refine ⟨hcategory.mpr ?_, h.categoryChildren, hdepartment.mpr ?_⟩
    · rintro hopen _ ⟨⟩
      exact (hrefs hopen).1
    · rintro hopen _ ⟨⟩
      exact (hrefs hopen).2

/-- A department is written: no open ticket may have it if it is inactive. -/
theorem sheltering_departments_iff {after : Departments} {a : Bool}
    (h : Sheltering tickets categories departments)
    (hcolumn : activeDepartments after = Function.update (activeDepartments departments) k (some a)) :
    Sheltering tickets categories after ↔
      (a = false → ∀ t ∈ tickets, t.workflow.inOpenQueue = true → t.department ≠ k) := by
  have hdepartment := sheltered_update_target h.departmentTickets k a
  rw [← hcolumn] at hdepartment
  constructor
  · intro hafter ha
    exact (not_open_referred_iff _).mp (hdepartment.mp hafter.departmentTickets ha)
  · intro hidle
    exact ⟨h.categoryTickets, h.categoryChildren,
      hdepartment.mpr fun ha => (not_open_referred_iff _).mpr (hidle ha)⟩

/-- A category is written: its parent must be active if it is active, and it must be idle if it
is not. -/
theorem sheltering_categories_iff {after : Categories} {a : Bool} {q : Option ℕ}
    (h : Sheltering tickets categories departments)
    (hactive : activeCategories after = Function.update (activeCategories categories) k (some a))
    (hparent : parentOf after = Function.update (parentOf categories) k q)
    (hq : a = true → q ≠ some k) :
    Sheltering tickets after departments ↔
      (a = true → ∀ p, q = some p → activeCategories categories p ≠ some false) ∧
        (a = false → (∀ t ∈ tickets, t.workflow.inOpenQueue = true → t.category ≠ k) ∧
          ∀ (j : ℕ) child, j ≠ k → categories[j]? = some child → child.isActive = true →
            child.parent ≠ some k) := by
  have hcategory := sheltered_update_target h.categoryTickets k a
  rw [← hactive] at hcategory
  have hchildren := sheltered_update_self h.categoryChildren k a hq
  rw [← hactive, ← hparent] at hchildren
  constructor
  · intro hafter
    obtain ⟨hup, hdown⟩ := hchildren.mp hafter.categoryChildren
    refine ⟨hup, fun ha => ⟨?_, ?_⟩⟩
    · exact (not_open_referred_iff _).mp (hcategory.mp hafter.categoryTickets ha)
    · intro j child hj hchild hlive
      rw [← parentOf_eq hchild]
      refine hdown ha j hj ?_
      rw [activeCategories, columnOf_eq hchild, hlive]
  · rintro ⟨hup, hidle⟩
    refine ⟨hcategory.mpr fun ha => (not_open_referred_iff _).mpr (hidle ha).1,
      hchildren.mpr ⟨hup, ?_⟩, h.departmentTickets⟩
    intro ha j hj hlive
    obtain ⟨child, hchild, hlive⟩ := columnOf_eq_some_iff.mp hlive
    rw [parentOf_eq hchild]
    exact (hidle ha).2 j child hj hchild hlive

end columns

/-! ## The categories as columns -/

section categories

variable {rules : TextRules} {rows rows' : Categories} {k : ℕ}

theorem parentOf_concat (rows : Categories) (row : SupportCategory) :
    parentOf (rows ++ [row]) = Function.update (parentOf rows) rows.length row.parent := by
  have hjoin : ∀ table : Categories, parentOf table = fun j =>
      (columnOf SupportCategory.parent table j).join := by
    intro table
    funext j
    rw [parentOf, columnOf]
    cases table[j]? <;> rfl
  rw [hjoin, columnOf_concat, hjoin]
  funext j
  by_cases hj : j = rows.length
  · subst hj
    rw [Function.update_self, Function.update_self]
    rfl
  · rw [Function.update_of_ne hj, Function.update_of_ne hj]

/-- A new category is active, under the parent that was asked for. -/
theorem createCategory_columns {input : CategoryInput} {uuid : UuidHex}
    (h : createCategory rules rows input uuid = .ok rows') :
    activeCategories rows' = Function.update (activeCategories rows) rows.length (some true) ∧
      parentOf rows' = Function.update (parentOf rows) rows.length input.parent ∧
      input.parent ≠ some rows.length := by
  obtain ⟨slug, row, -, hplace, -, hparent, rfl⟩ := createCategory_ok h
  have hunplaced := unplaced_of_place hplace
  refine ⟨?_, ?_, ?_⟩
  · rw [activeCategories, columnOf_concat]
    exact congrArg _ (congrArg some (congrArg SupportCategory.isActive hunplaced))
  · rw [parentOf_concat]
    exact congrArg _ (congrArg SupportCategory.parent hunplaced)
  · intro hp
    obtain ⟨parent, hrow, -⟩ := hparent _ hp
    exact (List.getElem?_eq_some_iff.mp hrow).1.ne rfl

theorem updateCategory_active {fields : CategoryFields}
    (h : updateCategory rules rows k fields = .ok rows') :
    ∃ category, rows[k]? = some category ∧ activeCategories rows' =
      Function.update (activeCategories rows) k (some (fields.set category).isActive) := by
  obtain ⟨category, hcategory, -, hcase⟩ := updateCategory_ok h
  refine ⟨category, hcategory, ?_⟩
  rcases hcase with ⟨hsame, hrows⟩ | ⟨row, hplace, -, hrefresh⟩
  · have hkept : activeCategories rows k = some category.isActive := columnOf_eq hcategory
    rw [hrows, hsame, ← hkept, Function.update_eq_self]
  · have hlt := (List.getElem?_eq_some_iff.mp hcategory).1
    rw [activeCategories, columnOf_congr (g := unplaced) (fun _ => rfl) (unplaced_refresh hrefresh),
      columnOf_set hlt]
    have hunplaced := congrArg SupportCategory.isActive (unplaced_of_place hplace)
    exact congrArg _ (congrArg some hunplaced)

/-- What `deactivate_category` has checked. -/
theorem deactivateCategory_idle {openTickets : Bool}
    (h : deactivateCategory rows k openTickets = .ok rows') :
    openTickets = false ∧ ∀ child ∈ rows, child.isActive = true → child.parent ≠ some k := by
  unfold deactivateCategory at h
  split at h
  · cases h
  · split at h
    · cases h
    · rename_i hchildren
      split at h
      · cases h
      · rename_i hopen
        refine ⟨Bool.eq_false_iff.mpr hopen, fun child hchild hlive hparent => hchildren ?_⟩
        exact List.any_eq_true.mpr ⟨child, hchild, by simp [hparent, hlive]⟩

theorem parentOf_deactivate {openTickets : Bool}
    (h : deactivateCategory rows k openTickets = .ok rows') : parentOf rows' = parentOf rows := by
  rw [deactivateCategory_ok h]
  funext j
  rw [parentOf, parentOf, List.getElem?_modify]
  cases rows[j]? with
  | none => rfl
  | some row => by_cases hj : k = j <;> simp [hj]

theorem deactivateCategory_active {openTickets : Bool}
    (h : deactivateCategory rows k openTickets = .ok rows') :
    activeCategories rows' = Function.update (activeCategories rows) k (some false) := by
  have hrow : rows[k]?.isNone = false := by
    unfold deactivateCategory at h
    split at h
    · cases h
    · rename_i hsome
      exact Bool.eq_false_iff.mpr hsome
  obtain ⟨row, hrow⟩ := Option.isSome_iff_exists.mp (Option.isNone_eq_false_iff.mp hrow)
  rw [deactivateCategory_ok h]
  exact columnOf_modify hrow

end categories

/-! ## One call -/

section step

variable {rules : TextRules} {s : Bureau}

/-- A call on the departments. -/
theorem guardsHold_departments_iff {departments : Departments} {k : ℕ} {a : Bool} (h : GuardsHold s)
    (hcolumn : activeDepartments departments =
      Function.update (activeDepartments s.departments) k (some a)) :
    GuardsHold { s with departments := departments } ↔
      (a = false → ∀ t ∈ s.desk.tickets, t.workflow.inOpenQueue = true → t.department ≠ k) := by
  have hbefore : Sheltering s.desk.tickets s.desk.categories s.departments := guardsHold_iff.mp h
  exact guardsHold_iff.trans (sheltering_departments_iff hbefore hcolumn)

theorem createDepartment_ok {rows rows' : Departments} {title description : String}
    {defaultAssignee : Option ℕ} {order : ℤ}
    (h : createDepartment rows title description defaultAssignee order = .ok rows') :
    activeDepartments rows' = Function.update (activeDepartments rows) rows.length (some true) := by
  obtain ⟨row, hrow, h⟩ := except_bind_ok_iff.mp h
  obtain ⟨-, hrow⟩ := checkThat_bind_ok_iff.mp hrow
  obtain ⟨-, hrow⟩ := checkThat_bind_ok_iff.mp hrow
  obtain rfl := Except.ok.inj hrow
  obtain rfl := Except.ok.inj h
  exact columnOf_concat rows _

theorem updateDepartment_ok {rows rows' : Departments} {k : ℕ} {fields : DepartmentFields}
    (h : updateDepartment rows k fields = .ok rows') :
    ∃ row, rows[k]? = some row ∧ activeDepartments rows' =
      Function.update (activeDepartments rows) k (some (fields.isActive.getD row.isActive)) := by
  unfold updateDepartment at h
  split at h
  · cases h
  · rename_i row hrow
    refine ⟨row, hrow, ?_⟩
    split at h
    · rename_i hsame
      obtain rfl := Except.ok.inj h
      have hkept : activeDepartments rows k = some row.isActive := columnOf_eq hrow
      have hactive : fields.isActive.getD row.isActive = row.isActive :=
        congrArg DepartmentRow.isActive hsame
      rw [hactive, ← hkept, Function.update_eq_self]
    · obtain ⟨saved, hsaved, h⟩ := except_bind_ok_iff.mp h
      obtain ⟨-, hsaved⟩ := checkThat_bind_ok_iff.mp hsaved
      obtain ⟨-, hsaved⟩ := checkThat_bind_ok_iff.mp hsaved
      obtain rfl := Except.ok.inj hsaved
      obtain rfl := Except.ok.inj h
      exact columnOf_set (List.getElem?_eq_some_iff.mp hrow).1 _

theorem deactivateDepartment_ok {rows rows' : Departments} {k : ℕ} {openTickets : Bool}
    (h : deactivateDepartment rows k openTickets = .ok rows') :
    openTickets = false ∧
      activeDepartments rows' = Function.update (activeDepartments rows) k (some false) := by
  unfold deactivateDepartment at h
  split at h
  · cases h
  · rename_i row hrow
    split at h
    · cases h
    · rename_i hopen
      obtain rfl := Except.ok.inj h
      exact ⟨Bool.eq_false_iff.mpr hopen, columnOf_set (List.getElem?_eq_some_iff.mp hrow).1 _⟩

/-- An update keeps the guard unless it clears the flag of a department with open tickets. -/
theorem guardsHold_updateDepartment_iff {k : ℕ} {fields : DepartmentFields} (h : GuardsHold s) :
    GuardsHold (s.onDepartments (updateDepartment s.departments k fields)) ↔
      RespectsGuards rules s (.updateDepartment k fields) := by
  cases hupdate : updateDepartment s.departments k fields with
  | error e => exact iff_of_true h fun rows hok => by cases hupdate.symm.trans hok
  | ok rows' =>
      obtain ⟨row, hrow, hcolumn⟩ := updateDepartment_ok hupdate
      refine (guardsHold_departments_iff h hcolumn).trans ?_
      constructor
      · intro hidle _ _ hfalse
        exact hidle (by rw [hfalse]; rfl)
      · intro hrespects hfalse
        cases hgiven : fields.isActive with
        | some a =>
            rw [hgiven] at hfalse
            exact hrespects rows' hupdate (hgiven.trans (congrArg some hfalse))
        | none =>
            -- the flag is not among the fields: the department was inactive before
            rw [hgiven] at hfalse
            exact h.departmentTickets k ⟨row, hrow, hfalse⟩

theorem guardsHold_deactivateDepartment {k : ℕ} (h : GuardsHold s) :
    GuardsHold (s.onDepartments (deactivateDepartment s.departments k
      (departmentHasOpenTickets s.desk.tickets k))) := by
  cases hdeactivate : deactivateDepartment s.departments k
      (departmentHasOpenTickets s.desk.tickets k) with
  | error e => exact h
  | ok rows' =>
      obtain ⟨hidle, hcolumn⟩ := deactivateDepartment_ok hdeactivate
      refine (guardsHold_departments_iff h hcolumn).mpr fun _ t ht hopen hdepartment => ?_
      refine List.any_eq_false.mp hidle t ht ?_
      rw [hdepartment, beq_self_eq_true, hopen]
      rfl

end step

/-! ## One call on the desk -/

section desk

variable {rules : TextRules} {s : Bureau} {desk' : Desk} {act : StoreAct}

theorem notInactive_iff {c d : ℕ} :
    (activeCategories s.desk.categories c ≠ some false ∧
        activeDepartments s.departments d ≠ some false) ↔
      ¬ InactiveCategory s c ∧ ¬ InactiveDepartment s d := by
  rw [inactiveCategory_iff, inactiveDepartment_iff]

/-- A ticket is rewritten. -/
theorem guardsHold_ticket_iff {k : ℕ} {t t' : SupportTicket} (h : GuardsHold s)
    (ht : s.desk.tickets[k]? = some t) :
    GuardsHold { s with desk := { s.desk with tickets := s.desk.tickets.set k t' } } ↔
      (t'.workflow.inOpenQueue = true →
        ¬ InactiveCategory s t'.category ∧ ¬ InactiveDepartment s t'.department) := by
  have hbefore : Sheltering s.desk.tickets s.desk.categories s.departments := guardsHold_iff.mp h
  rw [guardsHold_iff, ← notInactive_iff]
  exact sheltering_tickets_iff hbefore fun f =>
    columnOf_set (List.getElem?_eq_some_iff.mp ht).1 t'

/-- A ticket is added. -/
theorem guardsHold_newTicket_iff {t : SupportTicket} (h : GuardsHold s) :
    GuardsHold { s with desk := { s.desk with tickets := s.desk.tickets ++ [t] } } ↔
      (t.workflow.inOpenQueue = true →
        ¬ InactiveCategory s t.category ∧ ¬ InactiveDepartment s t.department) := by
  have hbefore : Sheltering s.desk.tickets s.desk.categories s.departments := guardsHold_iff.mp h
  rw [guardsHold_iff, ← notInactive_iff]
  exact sheltering_tickets_iff hbefore fun f => columnOf_concat s.desk.tickets t

/-- A category is written. -/
theorem guardsHold_category_iff {rows : Categories} {k : ℕ} {a : Bool} {q : Option ℕ}
    (h : GuardsHold s)
    (hactive : activeCategories rows =
      Function.update (activeCategories s.desk.categories) k (some a))
    (hparent : parentOf rows = Function.update (parentOf s.desk.categories) k q)
    (hq : a = true → q ≠ some k) :
    GuardsHold { s with desk := { s.desk with categories := rows } } ↔
      (a = true → ∀ p, q = some p → ¬ InactiveCategory s p) ∧ (a = false → CategoryIdle s k) := by
  have hbefore : Sheltering s.desk.tickets s.desk.categories s.departments := guardsHold_iff.mp h
  rw [guardsHold_iff]
  simp only [inactiveCategory_iff]
  exact sheltering_categories_iff hbefore hactive hparent hq

/-- The open tickets of a live ticket's own references are sheltered already. -/
theorem GuardsHold.of_open {t : SupportTicket} (h : GuardsHold s) (ht : t ∈ s.desk.tickets)
    (hopen : t.workflow.inOpenQueue = true) :
    ¬ InactiveCategory s t.category ∧ ¬ InactiveDepartment s t.department :=
  ⟨fun hc => h.categoryTickets _ hc t ht hopen rfl,
    fun hd => h.departmentTickets _ hd t ht hopen rfl⟩

theorem hasOpenTickets_eq_false_iff {tickets : List SupportTicket} {k : ℕ} :
    hasOpenTickets tickets k = false ↔
      ∀ t ∈ tickets, t.workflow.inOpenQueue = true → t.category ≠ k := by
  have hopen : ∀ t : SupportTicket, (t.category == k && t.workflow.isActive &&
      !terminalStatuses.contains t.workflow.status) = true ↔
        t.category = k ∧ t.workflow.inOpenQueue = true := by
    intro t
    rw [Ticket.inOpenQueue]
    simp [and_assoc]
  rw [hasOpenTickets, List.any_eq_false]
  constructor
  · intro hnone t ht hlive hcategory
    exact hnone t ht ((hopen t).mpr ⟨hcategory, hlive⟩)
  · intro hidle t ht hboth
    obtain ⟨hcategory, hlive⟩ := (hopen t).mp hboth
    exact hidle t ht hlive hcategory

theorem guardsHold_taxonomy_iff (h : GuardsHold s) (hact : act.onTaxonomy = true)
    (hcall : storeCall rules s.desk act = .ok desk') :
    GuardsHold { s with desk := desk' } ↔ StoreRespects s act := by
  cases act with
  | createCategory input uuid =>
      obtain ⟨rows, hcreate, rfl⟩ := onCategories_ok hcall
      obtain ⟨hactive, hparent, hself⟩ := createCategory_columns hcreate
      refine (guardsHold_category_iff h hactive hparent fun _ => hself).trans ?_
      constructor
      · rintro ⟨hup, -⟩
        exact hup rfl
      · intro hup
        exact ⟨fun _ => hup, fun hfalse => by cases hfalse⟩
  | updateCategory k fields =>
      obtain ⟨rows, hupdate, rfl⟩ := onCategories_ok hcall
      obtain ⟨category, hcategory, hactive⟩ := updateCategory_active hupdate
      obtain ⟨category', hcategory', -, hparent, hself⟩ := updateCategory_departments hupdate
      obtain rfl := Option.some.inj (hcategory.symm.trans hcategory')
      refine (guardsHold_category_iff h hactive hparent fun _ hk => (hself k hk).1 rfl).trans ?_
      constructor
      · intro hwrite _ hrow
        obtain rfl := Option.some.inj (hcategory.symm.trans hrow)
        exact hwrite
      · intro hrespects
        exact hrespects category hcategory
  | deactivateCategory k =>
      obtain ⟨rows, hdeactivate, rfl⟩ := onCategories_ok hcall
      refine iff_of_true ?_ trivial
      have hparent : parentOf rows =
          Function.update (parentOf s.desk.categories) k (parentOf s.desk.categories k) := by
        rw [Function.update_eq_self]
        exact parentOf_deactivate hdeactivate
      obtain ⟨hopen, hchildren⟩ := deactivateCategory_idle hdeactivate
      have hwrite := guardsHold_category_iff h (deactivateCategory_active hdeactivate) hparent
        (fun hlive => by cases hlive)
      refine hwrite.mpr ⟨(fun hlive => by cases hlive), fun _ => ⟨?_, ?_⟩⟩
      · exact hasOpenTickets_eq_false_iff.mp hopen
      · intro j child _ hchild hlive
        exact hchildren child (List.mem_of_getElem? hchild) hlive
  | _ => cases hact

theorem storeRespects_moved_iff {k : ℕ} {actor : Actor} {toStatus : TicketStatus}
    {t : SupportTicket} (hact : act.statusCall = some (k, actor, toStatus))
    (ht : s.desk.tickets[k]? = some t) :
    StoreRespects s act ↔ (t.workflow.status ∈ terminalStatuses → toStatus ∉ terminalStatuses →
      ¬ InactiveCategory s t.category ∧ ¬ InactiveDepartment s t.department) := by
  have hunfold : StoreRespects s act ↔ ∀ k actor toStatus,
      act.statusCall = some (k, actor, toStatus) → ∀ t, s.desk.tickets[k]? = some t →
        t.workflow.status ∈ terminalStatuses → toStatus ∉ terminalStatuses →
        ¬ InactiveCategory s t.category ∧ ¬ InactiveDepartment s t.department := by
    cases act with
    | submitTicket | workflow => exact Iff.rfl
    | _ => cases hact
  rw [hunfold, hact]
  constructor
  · intro hrespects
    exact hrespects k actor toStatus rfl t ht
  · rintro hrespects _ _ _ ⟨⟩ u hu
    obtain rfl := Option.some.inj (ht.symm.trans hu)
    exact hrespects

theorem inOpenQueue_iff {w : Ticket} (hactive : w.isActive = true) :
    w.inOpenQueue = true ↔ w.status ∉ terminalStatuses := by
  rw [Ticket.inOpenQueue, hactive, Bool.true_and, decide_eq_true_eq]

/-- **Step lemma.** An accepted call keeps the guards exactly when it respects them. -/
theorem guardsHold_store_iff (h : GuardsHold s)
    (hlive : ∀ t ∈ s.desk.tickets, t.workflow.isActive = true)
    (hcall : storeCall rules s.desk act = .ok desk') :
    GuardsHold { s with desk := desk' } ↔ StoreRespects s act := by
  cases storeCall_effect hcall with
  | taxonomy rows hact => exact guardsHold_taxonomy_iff h hact hcall
  | @created _ ticketType _ _ department _ _ _ _ t hworkflow hdepartment hcategory =>
      refine (guardsHold_newTicket_iff h).trans ?_
      have hopen : t.workflow.inOpenQueue = true := by
        rw [hworkflow]
        rfl
      obtain ⟨d, hd, hpk⟩ := Option.map_eq_some_iff.mp hdepartment
      constructor
      · intro hrefs
        obtain ⟨hc, hdep⟩ := hrefs hopen
        refine ⟨fun c hgiven => ?_, fun d' hgiven => ?_⟩
        · obtain rfl := Option.some.inj (hcategory.symm.trans hgiven)
          exact hc
        · obtain rfl := Option.some.inj (hd.symm.trans hgiven)
          rw [hpk]
          exact hdep
      · rintro ⟨hc, hdep⟩ -
        exact ⟨hc _ hcategory, hpk ▸ hdep d hd⟩
  | drafted t t' ht hworkflow hdraft hdepartment hcategory =>
      refine (guardsHold_ticket_iff h ht).trans ?_
      -- a draft is in the open queue
      have hopen : t'.workflow.inOpenQueue = true := by
        have hactive := hlive t (List.mem_of_getElem? ht)
        rw [inOpenQueue_iff (by rw [hworkflow]; exact hactive), hworkflow, hdraft]
        decide
      rw [hcategory, hdepartment]
      constructor
      · intro hrefs u hu
        obtain rfl := Option.some.inj (ht.symm.trans hu)
        exact hrefs hopen
      · intro hrespects _
        exact hrespects t ht
  | @assigned k admin assignee department now t t' ht hworkflow hdepartment hcategory =>
      refine (guardsHold_ticket_iff h ht).trans ?_
      have hsame : t'.workflow.inOpenQueue = t.workflow.inOpenQueue := by
        rw [hworkflow]
        rfl
      rw [hcategory, hdepartment, hsame]
      constructor
      · rintro hrefs u hu hopen d rfl
        obtain rfl := Option.some.inj (ht.symm.trans hu)
        exact (hrefs hopen).2
      · intro hrespects hopen
        obtain ⟨hc, hdep⟩ := h.of_open (List.mem_of_getElem? ht) hopen
        refine ⟨hc, ?_⟩
        cases department with
        | none => exact hdep
        | some d => exact hrespects t ht hopen d rfl
  | moved t t' hact ht hstatus hactive hdepartment hcategory =>
      have hmem := List.mem_of_getElem? ht
      refine (guardsHold_ticket_iff h ht).trans ?_
      rw [storeRespects_moved_iff hact ht, hcategory, hdepartment,
        inOpenQueue_iff (hactive.trans (hlive t hmem)), hstatus]
      constructor
      · intro hrefs _ hto
        exact hrefs hto
      · intro hrespects hto
        by_cases hterminal : t.workflow.status ∈ terminalStatuses
        · exact hrespects hterminal hto
        · exact h.of_open hmem ((inOpenQueue_iff (hlive t hmem)).mpr hterminal)

end desk

/-! ## Every run -/

/-- No service retires a ticket. -/
def TicketsLive (s : Bureau) : Prop := ∀ t ∈ s.desk.tickets, t.workflow.isActive = true

section runs

variable {rules : TextRules} {s : Bureau}

theorem ticketsLive_step (h : TicketsLive s) (call : BureauCall) :
    TicketsLive (bureauStep rules s call) := by
  cases call with
  | createDepartment | updateDepartment | deactivateDepartment =>
      unfold bureauStep Bureau.onDepartments
      dsimp only
      split <;> exact h
  | desk call =>
      cases call with
      | markSlaBreaches now =>
          intro t ht
          obtain ⟨u, hu, rfl⟩ := List.mem_map.mp ht
          rw [isActive_sweep]
          exact h u hu
      | store act =>
          show ∀ t ∈ (storeStep rules s.desk act).tickets, _
          unfold storeStep
          split
          · rename_i desk' hcall
            exact tickets_of_effect (storeCall_effect hcall) h (fun t hactive _ => hactive) h
          · exact h

/-- The sweep moves no ticket into or out of the open queue. -/
theorem guardsHold_sweep (h : GuardsHold s) (now : Instant) :
    GuardsHold { s with desk := s.desk.markSlaBreaches now } := by
  refine ⟨?_, h.categoryChildren, ?_⟩
  · intro k hk t ht hopen
    obtain ⟨u, hu, rfl⟩ := List.mem_map.mp ht
    rw [inOpenQueue_sweep] at hopen
    rw [category_sweep]
    exact h.categoryTickets k hk u hu hopen
  · intro k hk t ht hopen
    obtain ⟨u, hu, rfl⟩ := List.mem_map.mp ht
    rw [inOpenQueue_sweep] at hopen
    rw [department_sweep]
    exact h.departmentTickets k hk u hu hopen

theorem guardsHold_step_iff (h : GuardsHold s) (hlive : TicketsLive s) (call : BureauCall) :
    GuardsHold (bureauStep rules s call) ↔ RespectsGuards rules s call := by
  cases call with
  | createDepartment title description defaultAssignee order =>
      refine iff_of_true ?_ trivial
      unfold bureauStep Bureau.onDepartments
      dsimp only
      split
      · rename_i departments hcreate
        exact (guardsHold_departments_iff h (createDepartment_ok hcreate)).mpr
          (fun hfalse => by cases hfalse)
      · exact h
  | updateDepartment k fields => exact guardsHold_updateDepartment_iff h
  | deactivateDepartment k => exact iff_of_true (guardsHold_deactivateDepartment h) trivial
  | desk call =>
      cases call with
      | markSlaBreaches now => exact iff_of_true (guardsHold_sweep h now) trivial
      | store act =>
          unfold bureauStep storeStep RespectsGuards
          dsimp only
          cases hcall : storeCall rules s.desk act with
          | error e => exact iff_of_true h fun _ hok => by cases hok
          | ok desk' =>
              refine (guardsHold_store_iff h hlive hcall).trans ?_
              constructor
              · intro hrespects _ _
                exact hrespects
              · intro hrespects
                exact hrespects desk' rfl

end runs

theorem guardsHold_empty : GuardsHold Bureau.empty := by
  refine ⟨?_, ?_, ?_⟩ <;> · rintro k ⟨row, hrow, -⟩ _ ht
                            cases ht

/-- The guards hold in every state of a run exactly as long as no call goes around them. -/
theorem deactivation_guards_iff (rules : TextRules) (calls : List BureauCall) :
    (∀ pre, pre <+: calls → GuardsHold (run (bureauStep rules) Bureau.empty pre)) ↔
      Along (bureauStep rules) (RespectsGuards rules) Bureau.empty calls := by
  rw [← along_states guardsHold_empty]
  refine along_congr (I := fun s => GuardsHold s ∧ TicketsLive s) ?_ ?_ ?_ calls
  · intro s call hs
    exact guardsHold_step_iff hs.1 hs.2 call
  · intro s call hs hguards
    exact ⟨hguards, ticketsLive_step hs.2 call⟩
  · exact ⟨guardsHold_empty, fun t ht => by cases ht⟩

/-- A category with a submitted ticket, whose flag an update clears. -/
def clearedCalls : List BureauCall :=
  [.createDepartment "Network" "" none 0,
    .desk (.store (.createCategory { department := 0, title := "Outage" } sampleUuid)),
    .desk (.store (.createTicket sampleOwner ⟨1, some ⟨0, none⟩, some 0, "normal", "minor"⟩ "Slow"
      "Very slow" none none none none 0)),
    .desk (.store (.submitTicket 0 sampleOwner none none 0)),
    .desk (.store (.updateCategory 0 { isActive := some false }))]

theorem update_clears_guarded_flag :
    ¬ GuardsHold (run (bureauStep wordRules) Bureau.empty clearedCalls) := by
  intro h
  have hinactive : activeCategories (run (bureauStep wordRules) Bureau.empty clearedCalls).desk.categories
      0 = some false := by decide +kernel
  have hopen : openTickets (run (bureauStep wordRules) Bureau.empty clearedCalls).desk.tickets 0 =
      some true := by decide +kernel
  have hcategory : columnOf SupportTicket.category
      (run (bureauStep wordRules) Bureau.empty clearedCalls).desk.tickets 0 = some 0 := by
    decide +kernel
  exact (guardsHold_iff.mp h).categoryTickets 0 0 hopen hcategory hinactive

end SetadJang.SupportDesk
