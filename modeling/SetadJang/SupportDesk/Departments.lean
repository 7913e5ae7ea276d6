import SetadJang.SupportDesk.CategoryServices
import SetadJang.SupportDesk.Desk

/-!
# Departments along references

A category is checked against the department of its parent, and a ticket against that of its
category, when the reference is written.  Two calls change a department under references that
stand: `assign_ticket` refers a ticket to a department and leaves its category, and
`update_category` may move a category away from its children and tickets.
-/

namespace SetadJang.SupportDesk

open SetadJang.Framework

/-- The department of a stored category. -/
def departmentOf (rows : Categories) (k : ℕ) : Option ℕ := rows[k]?.map (·.department)

/-- Every category with a parent has its department. -/
def CategoriesAgree (rows : Categories) : Prop :=
  ∀ k p, parentOf rows k = some p → departmentOf rows p = departmentOf rows k

/-- Every category has the department of its parent, every ticket that of its category. -/
structure DepartmentsAgree (desk : Desk) : Prop where
  categories : CategoriesAgree desk.categories
  tickets : ∀ t ∈ desk.tickets, departmentOf desk.categories t.category = some t.department

/-! ## Referrals -/

/-- For each ticket the department that `assign_ticket` gave it last, if it gave one since the
ticket was created and its draft was last updated. -/
abbrev Referrals := ℕ → Option ℕ

/-- The referrals once a call has gone through. -/
def referralsAfter (desk : Desk) (referrals : Referrals) : StoreAct → Referrals
  | .createTicket .. => Function.update referrals desk.tickets.length none
  | .updateDraftTicket k _ _ _ => Function.update referrals k none
  | .assignTicket k _ _ (some department) _ => Function.update referrals k (some department)
  | _ => referrals

def refer (rules : TextRules) (desk : Desk) (act : StoreAct) (referrals : Referrals) : Referrals :=
  match storeCall rules desk act with
  | .ok _ => referralsAfter desk referrals act
  | .error _ => referrals

/-- The referrals after a run. -/
def referralsAlong (rules : TextRules) : Desk → Referrals → List StoreAct → Referrals
  | _, referrals, [] => referrals
  | desk, referrals, act :: acts =>
      referralsAlong rules (storeStep rules desk act) (refer rules desk act referrals) acts

/-- A category with children or tickets. -/
def Occupied (desk : Desk) (k : ℕ) : Prop :=
  (∃ row ∈ desk.categories, row.parent = some k) ∨ ∃ t ∈ desk.tickets, t.category = k

/-- The call does not move an occupied category to another department, or it is refused. -/
def KeepsOccupied (rules : TextRules) (desk : Desk) : StoreAct → Prop
  | .updateCategory k fields =>
      ∀ category rows', desk.categories[k]? = some category →
        updateCategory rules desk.categories k fields = .ok rows' → Occupied desk k →
        (fields.set category).department = category.department
  | _ => True

/-- What holds of the departments by design: a ticket that was referred has the department it
was referred to, and every other reference agrees. -/
structure DepartmentsFollow (desk : Desk) (referrals : Referrals) : Prop where
  categories : CategoriesAgree desk.categories
  tickets : ∀ (k : ℕ) t, desk.tickets[k]? = some t → referrals k = none →
    departmentOf desk.categories t.category = some t.department
  referred : ∀ (k : ℕ) t d, desk.tickets[k]? = some t → referrals k = some d → t.department = d

/-! ## Categories -/

theorem departmentOf_eq {rows : Categories} {k : ℕ} {row : SupportCategory}
    (h : rows[k]? = some row) : departmentOf rows k = some row.department := by
  rw [departmentOf, h]
  rfl

theorem departmentOf_congr {rows rows' : Categories} (h : rows'.map unplaced = rows.map unplaced) :
    departmentOf rows' = departmentOf rows := by
  have hrows : ∀ table : Categories, departmentOf table = fun k =>
      (table.map unplaced)[k]?.map (·.department) := by
    intro table
    funext k
    rw [List.getElem?_map, Option.map_map]
    rfl
  rw [hrows, hrows, h]

/-- A call that stores a new row leaves the departments of the others. -/
theorem departmentOf_concat {rows : Categories} {row : SupportCategory} {k d : ℕ}
    (h : departmentOf rows k = some d) : departmentOf (rows ++ [row]) k = some d := by
  obtain ⟨old, hold, rfl⟩ := Option.map_eq_some_iff.mp h
  rw [departmentOf, List.getElem?_append_left (List.getElem?_eq_some_iff.mp hold).1, hold]
  rfl

theorem categoriesAgree_create {rules : TextRules} {rows rows' : Categories}
    {input : CategoryInput} {uuid : UuidHex} (h : CategoriesAgree rows)
    (hcreate : createCategory rules rows input uuid = .ok rows') :
    CategoriesAgree rows' ∧ ∀ k d, departmentOf rows k = some d → departmentOf rows' k = some d := by
  obtain ⟨slug, row, -, hplace, -, hparent, rfl⟩ := createCategory_ok hcreate
  refine ⟨fun k p hp => ?_, fun k d => departmentOf_concat⟩
  obtain ⟨child, hchild, hchildp⟩ := exists_row_of_parentOf hp
  rw [departmentOf_eq hchild]
  refine departmentOf_concat ?_
  rcases getElem?_concat_cases hchild with hold | ⟨rfl, rfl⟩
  · rw [h k p ((parentOf_eq hold).trans hchildp), departmentOf_eq hold]
  · have hunplaced := unplaced_of_place hplace
    have hdepartment := congrArg SupportCategory.department hunplaced
    obtain ⟨parent, hrow, hsame⟩ := hparent p ((parent_of_unplaced hunplaced).symm.trans hchildp)
    rw [departmentOf_eq hrow, hsame]
    exact congrArg some hdepartment.symm

/-- What an accepted update does to departments and parents. -/
theorem updateCategory_departments {rules : TextRules} {rows rows' : Categories} {k : ℕ}
    {fields : CategoryFields} (h : updateCategory rules rows k fields = .ok rows') :
    ∃ category, rows[k]? = some category ∧
      departmentOf rows' = Function.update (departmentOf rows) k (some (fields.set category).department) ∧
      parentOf rows' = Function.update (parentOf rows) k (fields.set category).parent ∧
      ∀ p, (fields.set category).parent = some p →
        p ≠ k ∧ departmentOf rows p = some (fields.set category).department := by
  obtain ⟨category, hcategory, hgood, hcase⟩ := updateCategory_ok h
  have hparent : ∀ p, (fields.set category).parent = some p →
      p ≠ k ∧ departmentOf rows p = some (fields.set category).department := by
    intro p hp
    obtain ⟨parent, hparent, hdepartment, hcheck⟩ := hgood p hp
    exact ⟨(hcheck k category rfl).1, by rw [departmentOf_eq hparent, hdepartment]⟩
  refine ⟨category, hcategory, ?_, ?_, hparent⟩ <;>
    rcases hcase with ⟨hsame, rfl⟩ | ⟨row, hplace, -, hrefresh⟩
  · rw [hsame, ← departmentOf_eq hcategory, Function.update_eq_self]
  · have hlt := (List.getElem?_eq_some_iff.mp hcategory).1
    rw [departmentOf_congr (unplaced_refresh hrefresh)]
    funext j
    by_cases hjk : j = k
    · subst hjk
      rw [Function.update_self, departmentOf_eq (List.getElem?_set_self hlt)]
      have hdepartment := congrArg SupportCategory.department (unplaced_of_place hplace)
      exact congrArg some hdepartment
    · rw [Function.update_of_ne hjk, departmentOf, List.getElem?_set_ne (Ne.symm hjk)]
      rfl
  · rw [hsame, ← parentOf_eq hcategory, Function.update_eq_self]
  · rw [parentOf_congr (unplaced_refresh hrefresh)]
    funext j
    by_cases hjk : j = k
    · subst hjk
      rw [Function.update_self, parentOf_set_self hcategory hplace]
    · rw [Function.update_of_ne hjk, parentOf_set_ne hjk]

/-- Moving an unoccupied category, or one that keeps its department, splits no reference. -/
theorem categoriesAgree_update {rules : TextRules} {desk : Desk} {rows' : Categories} {k : ℕ}
    {fields : CategoryFields} (h : CategoriesAgree desk.categories)
    (hkeeps : KeepsOccupied rules desk (.updateCategory k fields))
    (hupdate : updateCategory rules desk.categories k fields = .ok rows') :
    CategoriesAgree rows' ∧ ∀ t ∈ desk.tickets, ∀ d,
      departmentOf desk.categories t.category = some d → departmentOf rows' t.category = some d := by
  obtain ⟨category, hcategory, hdep, hparents, hmoved⟩ := updateCategory_departments hupdate
  rw [hdep]
  constructor
  · intro j p hp
    rw [hparents] at hp
    rw [hdep]
    by_cases hjk : j = k
    · subst hjk
      rw [Function.update_self] at hp ⊢
      obtain ⟨hne, hdepartment⟩ := hmoved p hp
      rw [Function.update_of_ne hne, hdepartment]
    · rw [Function.update_of_ne hjk] at hp ⊢
      by_cases hpk : p = k
      · -- a child of the category: it is occupied, so its department stays
        subst hpk
        obtain ⟨child, hchild, hchildp⟩ := exists_row_of_parentOf hp
        have hsame := hkeeps category rows' hcategory hupdate
          (Or.inl ⟨child, List.mem_of_getElem? hchild, hchildp⟩)
        rw [Function.update_self, hsame, ← h j p hp, departmentOf_eq hcategory]
      · rw [Function.update_of_ne hpk, h j p hp]
  · intro t ht d hd
    by_cases htk : t.category = k
    · have hsame := hkeeps category rows' hcategory hupdate (Or.inr ⟨t, ht, htk⟩)
      rw [htk, departmentOf_eq hcategory] at hd
      rw [htk, Function.update_self, hsame, hd]
    · rw [Function.update_of_ne htk, hd]

theorem categoriesAgree_deactivate {rows rows' : Categories} {k : ℕ} {openTickets : Bool}
    (hdeactivate : deactivateCategory rows k openTickets = .ok rows') :
    parentOf rows' = parentOf rows ∧ departmentOf rows' = departmentOf rows := by
  rw [deactivateCategory_ok hdeactivate]
  constructor
  · funext j
    rw [parentOf, parentOf, List.getElem?_modify]
    cases rows[j]? with
    | none => rfl
    | some row => by_cases hkj : k = j <;> simp [hkj]
  · funext j
    rw [departmentOf, departmentOf, List.getElem?_modify]
    cases rows[j]? with
    | none => rfl
    | some row => by_cases hkj : k = j <;> simp [hkj]

/-- The moves that split references are exactly those of occupied categories. -/
theorem departmentsAgree_update_iff {rules : TextRules} {desk : Desk} {rows' : Categories} {k : ℕ}
    {fields : CategoryFields} (hplaced : WellPlaced desk.categories) (h : DepartmentsAgree desk)
    (hupdate : updateCategory rules desk.categories k fields = .ok rows') :
    DepartmentsAgree { desk with categories := rows' } ↔
      KeepsOccupied rules desk (.updateCategory k fields) := by
  constructor
  · intro hagree category rows'' hcategory hupdate' hoccupied
    obtain ⟨other, hother, hdep, hparents, -⟩ := updateCategory_departments hupdate
    obtain rfl := Option.some.inj (hcategory.symm.trans hother)
    -- what refers to the category has its department before the move and after it
    have hbefore := departmentOf_eq hcategory
    have hafter : departmentOf rows' k = some (fields.set category).department := by
      rw [hdep, Function.update_self]
    suffices departmentOf rows' k = departmentOf desk.categories k by
      rw [hafter, hbefore] at this
      exact Option.some.inj this
    rcases hoccupied with ⟨child, hchild, hp⟩ | ⟨t, ht, rfl⟩
    · obtain ⟨j, hj⟩ := List.mem_iff_getElem?.mp hchild
      have hjp := (parentOf_eq hj).trans hp
      have hjk : j ≠ k := by
        rintro rfl
        exact hplaced.acyclic j (.single hjp)
      have hnew : parentOf rows' j = some k := by rw [hparents, Function.update_of_ne hjk, hjp]
      rw [hagree.categories j k hnew, hdep, Function.update_of_ne hjk, h.categories j k hjp]
    · rw [hagree.tickets t ht, h.tickets t ht]
  · intro hkeeps
    obtain ⟨hcategories, htickets⟩ := categoriesAgree_update h.categories hkeeps hupdate
    exact ⟨hcategories, fun t ht => htickets t ht _ (h.tickets t ht)⟩

/-! ## Tickets -/

theorem assertCategoryOfDepartment_ok {categories : Categories} {category department : ℕ}
    (h : assertCategoryOfDepartment categories category department = .ok ()) :
    departmentOf categories category = some department := by
  unfold assertCategoryOfDepartment at h
  split at h
  · cases h
  · rename_i row hrow
    rw [departmentOf_eq hrow, checkThat_ok_iff.mp h]

/-- A new ticket agrees with its category. -/
theorem createTicket_ok {categories : Categories} {owner : Actor} {ticketType : SupportTicketType}
    {subject description : String} {department : Option SupportDepartment} {category : Option ℕ}
    {priority severity : Option String} {now : Instant} {t : SupportTicket}
    (h : createTicket categories owner ticketType subject description department category priority
      severity now = .ok t) : departmentOf categories t.category = some t.department := by
  obtain ⟨-, h⟩ := checkThat_bind_ok_iff.mp h
  split at h
  · obtain ⟨_, hassert, h⟩ := except_bind_ok_iff.mp h
    obtain ⟨-, h⟩ := checkThat_bind_ok_iff.mp h
    obtain rfl := Except.ok.inj h
    exact assertCategoryOfDepartment_ok hassert
  · cases h

/-- An updated draft agrees with its category, whatever it did before. -/
theorem updateDraftTicket_ok {categories : Categories} {user : Actor} {fields : DraftFields}
    {now : Instant} {t t' : SupportTicket}
    (h : updateDraftTicket categories user fields now t = .ok t') :
    departmentOf categories t'.category = some t'.department := by
  obtain ⟨-, h⟩ := checkThat_bind_ok_iff.mp h
  obtain ⟨-, h⟩ := checkThat_bind_ok_iff.mp h
  obtain ⟨_, hassert, h⟩ := except_bind_ok_iff.mp h
  obtain ⟨-, h⟩ := checkThat_bind_ok_iff.mp h
  obtain rfl := Except.ok.inj h
  exact assertCategoryOfDepartment_ok hassert

/-- A referral leaves the category alone. -/
theorem assignTicket_ok {admin : Actor} {assignee department : Option ℕ} {now : Instant}
    {t t' : SupportTicket} (h : assignTicket admin assignee department now t = .ok t') :
    t'.category = t.category ∧ t'.department = department.getD t.department := by
  obtain ⟨-, h⟩ := checkThat_bind_ok_iff.mp h
  obtain rfl := Except.ok.inj h
  exact ⟨rfl, rfl⟩

/-- The workflow services touch neither reference. -/
theorem onWorkflow_ok {call : Ticket → Except SupportDeskError Ticket} {t t' : SupportTicket}
    (h : onWorkflow call t = .ok t') : t'.category = t.category ∧ t'.department = t.department := by
  unfold onWorkflow at h
  split at h
  · obtain rfl := Except.ok.inj h
    exact ⟨rfl, rfl⟩
  · cases h

theorem onTicket_ok {desk desk' : Desk} {k : ℕ}
    {call : SupportTicket → Except DeskError SupportTicket}
    (h : desk.onTicket k call = .ok desk') :
    ∃ t t', desk.tickets[k]? = some t ∧ call t = .ok t' ∧
      desk' = { desk with tickets := desk.tickets.set k t' } := by
  unfold Desk.onTicket at h
  split at h
  · cases h
  · rename_i t ht
    split at h
    · rename_i t' ht'
      exact ⟨t, t', ht, ht', (Except.ok.inj h).symm⟩
    · cases h

theorem onCategories_ok {desk desk' : Desk} {result : Except CategoryError Categories}
    (h : desk.onCategories result = .ok desk') :
    ∃ categories, result = .ok categories ∧ desk' = { desk with categories := categories } := by
  unfold Desk.onCategories at h
  split at h
  · exact ⟨_, rfl, (Except.ok.inj h).symm⟩
  · cases h

/-! ## Every run -/

/-- Rewriting one ticket, and its referral at most. -/
theorem departmentsFollow_set {desk : Desk} {referrals referrals' : Referrals} {k : ℕ}
    {t t' : SupportTicket} (h : DepartmentsFollow desk referrals)
    (ht : desk.tickets[k]? = some t) (hsame : ∀ j, j ≠ k → referrals' j = referrals j)
    (hnone : referrals' k = none → departmentOf desk.categories t'.category = some t'.department)
    (hsome : ∀ d, referrals' k = some d → t'.department = d) :
    DepartmentsFollow { desk with tickets := desk.tickets.set k t' } referrals' := by
  have hlt := (List.getElem?_eq_some_iff.mp ht).1
  refine ⟨h.categories, ?_, ?_⟩
  · intro j u hu hj
    by_cases hjk : j = k
    · subst hjk
      rw [List.getElem?_set_self hlt] at hu
      obtain rfl := Option.some.inj hu
      exact hnone hj
    · rw [List.getElem?_set_ne (Ne.symm hjk)] at hu
      rw [hsame j hjk] at hj
      exact h.tickets j u hu hj
  · intro j u d hu hj
    by_cases hjk : j = k
    · subst hjk
      rw [List.getElem?_set_self hlt] at hu
      obtain rfl := Option.some.inj hu
      exact hsome d hj
    · rw [List.getElem?_set_ne (Ne.symm hjk)] at hu
      rw [hsame j hjk] at hj
      exact h.referred j u d hu hj

/-- A call that leaves both references of a ticket alone. -/
theorem departmentsFollow_workflow {desk desk' : Desk} {referrals : Referrals} {k : ℕ}
    {call : Ticket → Except SupportDeskError Ticket} (h : DepartmentsFollow desk referrals)
    (hcall : desk.onTicket k (onWorkflow call) = .ok desk') :
    DepartmentsFollow desk' referrals := by
  obtain ⟨t, t', ht, hwork, rfl⟩ := onTicket_ok hcall
  obtain ⟨hcategory, hdepartment⟩ := onWorkflow_ok hwork
  refine departmentsFollow_set h ht (fun _ _ => rfl) ?_ ?_
  · rw [hcategory, hdepartment]
    exact h.tickets k t ht
  · rw [hdepartment]
    exact fun d => h.referred k t d ht

/-- A call on the categories under which no reference is split. -/
theorem departmentsFollow_categories {desk : Desk} {referrals : Referrals} {rows' : Categories}
    (h : DepartmentsFollow desk referrals) (hcategories : CategoriesAgree rows')
    (htickets : ∀ t ∈ desk.tickets, ∀ d,
      departmentOf desk.categories t.category = some d → departmentOf rows' t.category = some d) :
    DepartmentsFollow { desk with categories := rows' } referrals := by
  refine ⟨hcategories, ?_, h.referred⟩
  intro k t ht hk
  exact htickets t (List.mem_of_getElem? ht) _ (h.tickets k t ht hk)

theorem departmentsFollow_step {rules : TextRules} {desk : Desk} {referrals : Referrals}
    {act : StoreAct} (h : DepartmentsFollow desk referrals) (hkeeps : KeepsOccupied rules desk act) :
    DepartmentsFollow (storeStep rules desk act) (refer rules desk act referrals) := by
  unfold storeStep refer
  cases hcall : storeCall rules desk act with
  | error e => exact h
  | ok desk' =>
      dsimp only
      cases act with
      | createCategory input uuid =>
          obtain ⟨rows', hcreate, rfl⟩ := onCategories_ok hcall
          obtain ⟨hcategories, hkept⟩ := categoriesAgree_create h.categories hcreate
          exact departmentsFollow_categories h hcategories fun t _ => hkept t.category
      | updateCategory k fields =>
          obtain ⟨rows', hupdate, rfl⟩ := onCategories_ok hcall
          obtain ⟨hcategories, hkept⟩ := categoriesAgree_update h.categories hkeeps hupdate
          exact departmentsFollow_categories h hcategories hkept
      | deactivateCategory k =>
          obtain ⟨rows', hdeactivate, rfl⟩ := onCategories_ok hcall
          obtain ⟨hparents, hdep⟩ := categoriesAgree_deactivate hdeactivate
          refine departmentsFollow_categories h ?_ ?_
          · rw [CategoriesAgree, hparents, hdep]
            exact h.categories
          · rw [hdep]
            exact fun _ _ _ hd => hd
      | createTicket owner ticketType subject description department category priority severity now =>
          unfold storeCall at hcall
          dsimp only at hcall
          split at hcall
          · rename_i t hcreate
            obtain rfl := Except.ok.inj hcall
            have hagree := createTicket_ok hcreate
            refine ⟨h.categories, ?_, ?_⟩
            · intro k u hu hk
              rcases getElem?_concat_cases hu with hold | ⟨rfl, rfl⟩
              · have hne := (List.getElem?_eq_some_iff.mp hold).1.ne
                rw [referralsAfter, Function.update_of_ne hne] at hk
                exact h.tickets k u hold hk
              · exact hagree
            · intro k u d hu hk
              rcases getElem?_concat_cases hu with hold | ⟨rfl, rfl⟩
              · have hne := (List.getElem?_eq_some_iff.mp hold).1.ne
                rw [referralsAfter, Function.update_of_ne hne] at hk
                exact h.referred k u d hold hk
              · rw [referralsAfter, Function.update_self] at hk
                cases hk
          · cases hcall
      | updateDraftTicket k user fields now =>
          obtain ⟨t, t', ht, hdraft, rfl⟩ := onTicket_ok hcall
          refine departmentsFollow_set h ht (fun j hj => Function.update_of_ne hj _ _)
            (fun _ => updateDraftTicket_ok hdraft) fun d hd => ?_
          rw [referralsAfter, Function.update_self] at hd
          cases hd
      | assignTicket k admin assignee department now =>
          obtain ⟨t, t', ht, hassign, rfl⟩ := onTicket_ok hcall
          obtain ⟨hcategory, hdepartment⟩ := assignTicket_ok hassign
          cases department with
          | none =>
              refine departmentsFollow_set h ht (fun _ _ => rfl) ?_ ?_
              · rw [hcategory, hdepartment]
                exact h.tickets k t ht
              · rw [hdepartment]
                exact fun d => h.referred k t d ht
          | some department =>
              refine departmentsFollow_set h ht (fun j hj => Function.update_of_ne hj _ _) ?_ ?_
              · intro hnone
                rw [referralsAfter, Function.update_self] at hnone
                cases hnone
              · intro d hd
                rw [referralsAfter, Function.update_self] at hd
                rw [hdepartment]
                exact Option.some.inj hd
      | submitTicket k user calendar policy now => exact departmentsFollow_workflow h hcall
      | workflow k op now => exact departmentsFollow_workflow h hcall

theorem departmentsFollow_empty : DepartmentsFollow Desk.empty fun _ => none := by
  refine ⟨?_, ?_, ?_⟩
  · intro k p hp
    cases hp
  · intro k t ht
    cases ht
  · intro k t d ht
    cases ht

theorem departmentsFollow_run {rules : TextRules} {desk : Desk} {referrals : Referrals}
    {acts : List StoreAct} (h : DepartmentsFollow desk referrals)
    (hkeeps : Along (storeStep rules) (KeepsOccupied rules) desk acts) :
    DepartmentsFollow (run (storeStep rules) desk acts)
      (referralsAlong rules desk referrals acts) := by
  induction acts generalizing desk referrals with
  | nil => exact h
  | cons act acts ih => exact ih (departmentsFollow_step h hkeeps.1) hkeeps.2

/-- As long as no occupied category is moved to another department, categories have the
departments of their parents, a referred ticket has the department it was referred to, and any
other ticket has the department of its category. -/
theorem departments_follow (rules : TextRules) (acts : List StoreAct)
    (hkeeps : Along (storeStep rules) (KeepsOccupied rules) Desk.empty acts) :
    DepartmentsFollow (run (storeStep rules) Desk.empty acts)
      (referralsAlong rules Desk.empty (fun _ => none) acts) :=
  departmentsFollow_run departmentsFollow_empty hkeeps

/-- Titles of one English word. -/
def wordRules : TextRules where
  slugify value := String.ofList ((value.toList.map Char.toLower).filter Char.isAlphanum)
  slugify_no_slash value := by
    rw [String.toList_ofList, List.mem_filter]
    rintro ⟨-, hslash⟩
    revert hslash
    decide
  collate a b := decide (a ≤ b)

def sampleUuid : UuidHex := ⟨"0123456789abcdef0123456789abcdef", by decide, by decide⟩

/-- A category without tickets moves to another department, and a ticket of the other category
is referred there. -/
def referralActs : List StoreAct :=
  [.createCategory { department := 1, title := "Network" } sampleUuid,
    .createCategory { department := 1, title := "Payment" } sampleUuid,
    .createTicket sampleOwner ⟨1, some ⟨1, none⟩, some 0, "normal", "minor"⟩ "Slow" "Very slow"
      none none none none 0,
    .updateCategory 1 { department := some 2 },
    .assignTicket 0 sampleAdmin none (some 2) 1]

theorem departments_follow_referral :
    DepartmentsFollow (run (storeStep wordRules) Desk.empty referralActs)
      (referralsAlong wordRules Desk.empty (fun _ => none) referralActs) := by
  refine departments_follow wordRules referralActs ⟨trivial, trivial, trivial, ?_, trivial, trivial⟩
  intro category rows' _ _ hoccupied
  refine absurd hoccupied ?_
  unfold Occupied
  decide +kernel

theorem referral_splits_ticket :
    ¬ DepartmentsAgree (run (storeStep wordRules) Desk.empty referralActs) := by
  intro h
  have htickets := h.tickets
  revert htickets
  decide +kernel

end SetadJang.SupportDesk
