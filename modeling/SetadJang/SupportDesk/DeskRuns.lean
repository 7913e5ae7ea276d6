import SetadJang.SupportDesk.Breaches
import SetadJang.SupportDesk.Departments

/-!
# The desk under its services and its sweep

The calls of the store together with the breach sweep.  A status is written by the helper
`_change_status`, which six services hand a status to, and by the sweep, which escalates a
ticket itself.  `TicketEffect` says once what an accepted call does to the tickets.
-/

namespace SetadJang.SupportDesk

open SetadJang.Framework

/-! ## Calls -/

/-- The sweep on one row. -/
def SupportTicket.sweep (now : Instant) (t : SupportTicket) : SupportTicket :=
  if t.workflow.breachable now then { t with workflow := t.workflow.markBreached now } else t

/-- `mark_sla_breaches` on the tickets of the desk. -/
def Desk.markSlaBreaches (now : Instant) (desk : Desk) : Desk :=
  { desk with tickets := desk.tickets.map (SupportTicket.sweep now) }

theorem workflows_markSlaBreaches (now : Instant) (desk : Desk) :
    (desk.markSlaBreaches now).tickets.map SupportTicket.workflow =
      (markSlaBreaches now (desk.tickets.map SupportTicket.workflow)).1 := by
  rw [Desk.markSlaBreaches, SupportDesk.markSlaBreaches, List.map_map, List.map_map]
  refine List.map_congr_left fun t _ => ?_
  by_cases h : t.workflow.breachable now = true
  · simp only [Function.comp_apply, SupportTicket.sweep, if_pos h]
  · simp only [Function.comp_apply, SupportTicket.sweep, if_neg h]

inductive DeskCall where
  | store (act : StoreAct)
  | markSlaBreaches (now : Instant)

/-! ## The status a service hands to `_change_status` -/

def TicketOp.actor : TicketOp → Actor
  | .addUserReply user => user
  | .addAdminReply admin => admin
  | .changeTicketStatus admin _ => admin
  | .resolveTicket admin => admin
  | .closeTicket actor => actor
  | .reopenTicket user => user
  | .escalateTicket admin _ => admin

def TicketOp.toStatus : TicketOp → Option TicketStatus
  | .addUserReply _ => some .waitingForAdmin
  | .addAdminReply _ => some .waitingForUser
  | .changeTicketStatus _ status => TicketStatus.ofValue? status
  | .resolveTicket _ => some .resolved
  | .closeTicket _ => some .closed
  | .reopenTicket _ => some .reopened
  | .escalateTicket _ _ => some .escalated

/-- The ticket, the actor and the status of the call's `_change_status`. -/
def StoreAct.statusCall : StoreAct → Option (ℕ × Actor × TicketStatus)
  | .submitTicket k user _ _ _ => some (k, user, .submitted)
  | .workflow k op _ => op.toStatus.map fun toStatus => (k, op.actor, toStatus)
  | _ => none

section effects

variable {t t' : Ticket} {now : Instant}

@[simp] theorem isActive_changeStatus (toStatus : TicketStatus) :
    (t.changeStatus toStatus now).isActive = t.isActive := by
  unfold Ticket.changeStatus
  split <;> rfl

@[simp] theorem isActive_resumeSlaIfNeeded : (t.resumeSlaIfNeeded now).isActive = t.isActive := by
  unfold Ticket.resumeSlaIfNeeded
  split <;> rfl

@[simp] theorem isActive_pauseSlaIfNeeded : (t.pauseSlaIfNeeded now).isActive = t.isActive := by
  unfold Ticket.pauseSlaIfNeeded
  split
  · rfl
  · split <;> rfl

/-- An accepted operation leaves the ticket in the status it hands over. -/
theorem status_of_call {op : TicketOp} (h : op.call now t = .ok t') :
    op.toStatus = some t'.status ∧ t'.isActive = t.isActive := by
  cases op with
  | addUserReply user =>
      obtain ⟨-, -, rfl⟩ := addUserReply_ok_iff.mp h
      rw [status_changeStatus, isActive_changeStatus]
      exact ⟨rfl, isActive_resumeSlaIfNeeded⟩
  | addAdminReply admin =>
      obtain ⟨-, -, rfl⟩ := addAdminReply_ok_iff.mp h
      rw [status_pauseSlaIfNeeded, status_changeStatus, isActive_pauseSlaIfNeeded,
        isActive_changeStatus]
      exact ⟨rfl, rfl⟩
  | changeTicketStatus admin status =>
      obtain ⟨-, toStatus, hto, rfl⟩ := changeTicketStatus_ok_iff.mp h
      rw [status_changeStatus, isActive_changeStatus]
      exact ⟨hto, rfl⟩
  | resolveTicket admin =>
      obtain ⟨-, -, rfl⟩ := resolveTicket_ok_iff.mp h
      rw [status_changeStatus, isActive_changeStatus]
      exact ⟨rfl, rfl⟩
  | closeTicket actor =>
      obtain ⟨-, -, rfl⟩ := closeTicket_ok_iff.mp h
      rw [status_changeStatus, isActive_changeStatus]
      exact ⟨rfl, rfl⟩
  | reopenTicket user =>
      obtain ⟨-, -, rfl⟩ := reopenTicket_ok_iff.mp h
      rw [status_changeStatus, isActive_changeStatus]
      exact ⟨rfl, isActive_resumeSlaIfNeeded⟩
  | escalateTicket admin reason =>
      obtain ⟨-, rfl⟩ := escalateTicket_ok_iff.mp h
      rw [status_changeStatus, isActive_changeStatus]
      exact ⟨rfl, rfl⟩

theorem status_of_submit {user : Actor} {calendar : Option (Instant → ℕ → Instant)}
    {policy : Option SLAPolicy} (h : submitTicket user calendar policy now t = .ok t') :
    t'.status = .submitted ∧ t'.isActive = t.isActive := by
  obtain ⟨-, -, rfl⟩ := submitTicket_ok_iff.mp h
  unfold applySla
  split
  · exact ⟨status_changeStatus t now .submitted, isActive_changeStatus .submitted⟩
  · exact ⟨status_changeStatus t now .submitted, isActive_changeStatus .submitted⟩

end effects

/-! ## What an accepted call does to the tickets -/

def StoreAct.onTaxonomy : StoreAct → Bool
  | .createCategory _ _ | .updateCategory _ _ | .deactivateCategory _ => true
  | _ => false

/-- The categories a call appends. -/
def StoreAct.newCategories : StoreAct → ℕ
  | .createCategory _ _ => 1
  | _ => 0

/-- The tickets after an accepted call: a call on the categories leaves them alone, a creation
appends one, and any other call rewrites one. -/
inductive TicketEffect (desk : Desk) : StoreAct → Desk → Prop
  | taxonomy {act : StoreAct} (rows : Categories) (hact : act.onTaxonomy = true) :
      TicketEffect desk act { desk with categories := rows }
  | created {owner : Actor} {ticketType : SupportTicketType} {subject description : String}
      {department : Option SupportDepartment} {category : Option ℕ}
      {priority severity : Option String} {now : Instant} (t : SupportTicket)
      (hworkflow : t.workflow = createDraftTicket owner now)
      (hdepartment : (department.or ticketType.defaultDepartment).map SupportDepartment.pk =
        some t.department)
      (hcategory : category.or ticketType.defaultCategory = some t.category)
      (hagree : departmentOf desk.categories t.category = some t.department) :
      TicketEffect desk (.createTicket owner ticketType subject description department category
        priority severity now) { desk with tickets := desk.tickets ++ [t] }
  | drafted {k : ℕ} {user : Actor} {fields : DraftFields} {now : Instant} (t t' : SupportTicket)
      (ht : desk.tickets[k]? = some t)
      (hworkflow : t'.workflow = { t.workflow with lastActivityAt := now })
      (hdraft : t.workflow.status = .draft)
      (hdepartment : t'.department = (fields.route t).department)
      (hcategory : t'.category = (fields.route t).category)
      (hagree : departmentOf desk.categories t'.category = some t'.department) :
      TicketEffect desk (.updateDraftTicket k user fields now)
        { desk with tickets := desk.tickets.set k t' }
  | assigned {k : ℕ} {admin : Actor} {assignee department : Option ℕ} {now : Instant}
      (t t' : SupportTicket) (ht : desk.tickets[k]? = some t)
      (hworkflow : t'.workflow = { t.workflow with lastActivityAt := now })
      (hdepartment : t'.department = department.getD t.department)
      (hcategory : t'.category = t.category) :
      TicketEffect desk (.assignTicket k admin assignee department now)
        { desk with tickets := desk.tickets.set k t' }
  | moved {act : StoreAct} {k : ℕ} {actor : Actor} {toStatus : TicketStatus} (t t' : SupportTicket)
      (hact : act.statusCall = some (k, actor, toStatus)) (ht : desk.tickets[k]? = some t)
      (hstatus : t'.workflow.status = toStatus)
      (hactive : t'.workflow.isActive = t.workflow.isActive)
      (hdepartment : t'.department = t.department) (hcategory : t'.category = t.category) :
      TicketEffect desk act { desk with tickets := desk.tickets.set k t' }

section inversion

variable {desk desk' : Desk} {t t' : SupportTicket} {now : Instant}

theorem createTicket_draft {categories : Categories} {owner : Actor}
    {ticketType : SupportTicketType} {subject description : String}
    {department : Option SupportDepartment} {category : Option ℕ}
    {priority severity : Option String}
    (h : createTicket categories owner ticketType subject description department category priority
      severity now = .ok t) :
    t.workflow = createDraftTicket owner now ∧
      (department.or ticketType.defaultDepartment).map SupportDepartment.pk = some t.department ∧
      category.or ticketType.defaultCategory = some t.category := by
  obtain ⟨-, h⟩ := checkThat_bind_ok_iff.mp h
  split at h
  · rename_i d c hd hc
    obtain ⟨_, -, h⟩ := except_bind_ok_iff.mp h
    obtain ⟨-, h⟩ := checkThat_bind_ok_iff.mp h
    obtain rfl := Except.ok.inj h
    exact ⟨rfl, by rw [hd]; rfl, hc⟩
  · cases h

theorem workflow_route (fields : DraftFields) (t : SupportTicket) :
    (fields.route t).workflow = t.workflow := by
  unfold DraftFields.route
  cases fields.ticketType <;> rfl

theorem updateDraftTicket_draft {categories : Categories} {user : Actor} {fields : DraftFields}
    (h : updateDraftTicket categories user fields now t = .ok t') :
    t.workflow.status = .draft ∧ t'.workflow = { t.workflow with lastActivityAt := now } ∧
      t'.department = (fields.route t).department ∧ t'.category = (fields.route t).category := by
  obtain ⟨-, h⟩ := checkThat_bind_ok_iff.mp h
  obtain ⟨hdraft, h⟩ := checkThat_bind_ok_iff.mp h
  obtain ⟨_, -, h⟩ := except_bind_ok_iff.mp h
  obtain ⟨-, h⟩ := checkThat_bind_ok_iff.mp h
  obtain rfl := Except.ok.inj h
  exact ⟨hdraft, by rw [workflow_route], rfl, rfl⟩

theorem assignTicket_workflow {admin : Actor} {assignee department : Option ℕ}
    (h : assignTicket admin assignee department now t = .ok t') :
    t'.workflow = { t.workflow with lastActivityAt := now } := by
  obtain ⟨-, h⟩ := checkThat_bind_ok_iff.mp h
  obtain rfl := Except.ok.inj h
  rfl

theorem onWorkflow_call {call : Ticket → Except SupportDeskError Ticket}
    (h : onWorkflow call t = .ok t') : call t.workflow = .ok t'.workflow := by
  unfold onWorkflow at h
  split at h
  · rename_i w hw
    obtain rfl := Except.ok.inj h
    exact hw
  · cases h

/-- **Inversion.** An accepted call has one of the effects. -/
theorem storeCall_effect {rules : TextRules} {act : StoreAct}
    (h : storeCall rules desk act = .ok desk') : TicketEffect desk act desk' := by
  cases act with
  | createCategory input uuid =>
      obtain ⟨rows, -, rfl⟩ := onCategories_ok h
      exact .taxonomy rows rfl
  | updateCategory k fields =>
      obtain ⟨rows, -, rfl⟩ := onCategories_ok h
      exact .taxonomy rows rfl
  | deactivateCategory k =>
      obtain ⟨rows, -, rfl⟩ := onCategories_ok h
      exact .taxonomy rows rfl
  | createTicket owner ticketType subject description department category priority severity now =>
      unfold storeCall at h
      dsimp only at h
      split at h
      · rename_i t hcreate
        obtain rfl := Except.ok.inj h
        obtain ⟨hworkflow, hdepartment, hcategory⟩ := createTicket_draft hcreate
        exact .created t hworkflow hdepartment hcategory (createTicket_ok hcreate)
      · cases h
  | updateDraftTicket k user fields now =>
      obtain ⟨t, t', ht, hupdate, rfl⟩ := onTicket_ok h
      obtain ⟨hdraft, hworkflow, hdepartment, hcategory⟩ := updateDraftTicket_draft hupdate
      exact .drafted t t' ht hworkflow hdraft hdepartment hcategory (updateDraftTicket_ok hupdate)
  | assignTicket k admin assignee department now =>
      obtain ⟨t, t', ht, hassign, rfl⟩ := onTicket_ok h
      obtain ⟨hcategory, hdepartment⟩ := assignTicket_ok hassign
      exact .assigned t t' ht (assignTicket_workflow hassign) hdepartment hcategory
  | submitTicket k user calendar policy now =>
      obtain ⟨t, t', ht, hsubmit, rfl⟩ := onTicket_ok h
      obtain ⟨hcategory, hdepartment⟩ := onWorkflow_ok hsubmit
      obtain ⟨hstatus, hactive⟩ := status_of_submit (onWorkflow_call hsubmit)
      exact .moved t t' rfl ht hstatus hactive hdepartment hcategory
  | workflow k op now =>
      obtain ⟨t, t', ht, hcall, rfl⟩ := onTicket_ok h
      obtain ⟨hcategory, hdepartment⟩ := onWorkflow_ok hcall
      obtain ⟨hstatus, hactive⟩ := status_of_call (onWorkflow_call hcall)
      have hact : (StoreAct.workflow k op now).statusCall =
          some (k, op.actor, t'.workflow.status) := by
        rw [StoreAct.statusCall, hstatus]
        rfl
      exact .moved t t' hact ht rfl hactive hdepartment hcategory

/-- A creation appends a category, and no call removes one. -/
theorem length_categories {rules : TextRules} {act : StoreAct}
    (h : storeCall rules desk act = .ok desk') :
    desk'.categories.length = desk.categories.length + act.newCategories := by
  cases act with
  | createCategory input uuid =>
      obtain ⟨rows, hcreate, rfl⟩ := onCategories_ok h
      obtain ⟨slug, row, -, -, -, -, rfl⟩ := createCategory_ok hcreate
      exact List.length_append
  | updateCategory k fields =>
      obtain ⟨rows, hupdate, rfl⟩ := onCategories_ok h
      obtain ⟨category, -, -, ⟨-, rfl⟩ | ⟨row, -, -, hrefresh⟩⟩ := updateCategory_ok hupdate
      · rfl
      · have hlength := congrArg List.length (unplaced_refresh hrefresh)
        rw [List.length_map, List.length_map, List.length_set] at hlength
        exact hlength
  | deactivateCategory k =>
      obtain ⟨rows, hdeactivate, rfl⟩ := onCategories_ok h
      rw [deactivateCategory_ok hdeactivate]
      exact List.length_modify _ _ _
  | createTicket _ _ _ _ _ _ _ _ _ | updateDraftTicket _ _ _ _ | assignTicket _ _ _ _ _
  | submitTicket _ _ _ _ _ | workflow _ _ _ =>
      cases storeCall_effect h with
      | taxonomy rows hact => cases hact
      | _ => rfl

/-- What an accepted call leaves in the table of tickets. -/
theorem tickets_of_effect {act : StoreAct} (heffect : TicketEffect desk act desk')
    {P : SupportTicket → Prop} (hold : ∀ t ∈ desk.tickets, P t)
    (hnew : ∀ t, t.workflow.isActive = true →
      (∃ d, departmentOf desk.categories t.category = some d) ∨
        (∃ u ∈ desk.tickets, t.category = u.category) → P t)
    (hactive : ∀ t ∈ desk.tickets, t.workflow.isActive = true) : ∀ t ∈ desk'.tickets, P t := by
  cases heffect with
  | taxonomy rows hact => exact hold
  | created t hworkflow hdepartment hcategory hagree =>
      intro u hu
      rcases List.mem_append.mp hu with hu | hu
      · exact hold u hu
      · obtain rfl := List.mem_singleton.mp hu
        exact hnew u (by rw [hworkflow]; rfl) (.inl ⟨_, hagree⟩)
  | drafted t t' ht hworkflow hdraft hdepartment hcategory hagree =>
      intro u hu
      rcases List.mem_or_eq_of_mem_set hu with hu | rfl
      · exact hold u hu
      · exact hnew u (by rw [hworkflow]; exact hactive t (List.mem_of_getElem? ht))
          (.inl ⟨_, hagree⟩)
  | assigned t t' ht hworkflow hdepartment hcategory =>
      intro u hu
      rcases List.mem_or_eq_of_mem_set hu with hu | rfl
      · exact hold u hu
      · exact hnew u (by rw [hworkflow]; exact hactive t (List.mem_of_getElem? ht))
          (.inr ⟨t, List.mem_of_getElem? ht, hcategory⟩)
  | moved t t' hact ht hstatus hactive' hdepartment hcategory =>
      intro u hu
      rcases List.mem_or_eq_of_mem_set hu with hu | rfl
      · exact hold u hu
      · exact hnew u (hactive'.trans (hactive t (List.mem_of_getElem? ht)))
          (.inr ⟨t, List.mem_of_getElem? ht, hcategory⟩)

end inversion

/-! ## What the sweep does to one ticket -/

section sweep

variable {now : Instant} {t : SupportTicket}

@[simp] theorem category_sweep : (t.sweep now).category = t.category := by
  unfold SupportTicket.sweep
  split <;> rfl

@[simp] theorem department_sweep : (t.sweep now).department = t.department := by
  unfold SupportTicket.sweep
  split <;> rfl

theorem isActive_markBreached (w : Ticket) : (w.markBreached now).isActive = w.isActive := by
  unfold Ticket.markBreached
  dsimp only
  split
  · rfl
  · split <;> rfl

@[simp] theorem isActive_sweep : (t.sweep now).workflow.isActive = t.workflow.isActive := by
  unfold SupportTicket.sweep
  split
  · exact isActive_markBreached t.workflow
  · rfl

/-- The sweep escalates this ticket, which was not escalated. -/
def Escalates (now : Instant) (w : Ticket) : Prop :=
  w.breachable now = true ∧ w.status ≠ .escalated ∧
    ∃ policy, w.appliedSlaPolicy = some policy ∧ policy.escalateOnBreach = true

theorem status_markBreached_cases (now : Instant) (w : Ticket) :
    (w.markBreached now).status = w.status ∨
      (w.markBreached now).status = .escalated ∧ w.status ≠ .escalated ∧
        ∃ policy, w.appliedSlaPolicy = some policy ∧ policy.escalateOnBreach = true := by
  unfold Ticket.markBreached
  dsimp only
  split
  · exact .inl rfl
  · rename_i policy hpolicy
    split
    · rename_i h
      exact .inr ⟨rfl, h.2, policy, hpolicy, h.1⟩
    · exact .inl rfl

theorem status_markBreached_escalated {w : Ticket} {policy : SLAPolicy}
    (hpolicy : w.appliedSlaPolicy = some policy) (hescalate : policy.escalateOnBreach = true)
    (hne : w.status ≠ .escalated) : (w.markBreached now).status = .escalated := by
  unfold Ticket.markBreached
  dsimp only
  split
  · rename_i hnone
    cases hpolicy.symm.trans hnone
  · rename_i other hother
    obtain rfl : policy = other := Option.some.inj (hpolicy.symm.trans hother)
    rw [if_pos ⟨hescalate, hne⟩]
    rfl

/-- The sweep changes the status of the tickets it escalates and of no other. -/
theorem status_sweep (now : Instant) (t : SupportTicket) :
    (¬ Escalates now t.workflow ∧ (t.sweep now).workflow.status = t.workflow.status) ∨
      Escalates now t.workflow ∧ (t.sweep now).workflow.status = .escalated := by
  by_cases hbreach : t.workflow.breachable now = true
  · have hsweep : (t.sweep now).workflow = t.workflow.markBreached now := by
      rw [SupportTicket.sweep, if_pos hbreach]
    rw [hsweep]
    by_cases hescalates : Escalates now t.workflow
    · refine .inr ⟨hescalates, ?_⟩
      obtain ⟨-, hne, policy, hpolicy, hescalate⟩ := hescalates
      exact status_markBreached_escalated hpolicy hescalate hne
    · refine .inl ⟨hescalates, ?_⟩
      rcases status_markBreached_cases now t.workflow with h | ⟨-, hne, hpolicy⟩
      · exact h
      · exact absurd ⟨hbreach, hne, hpolicy⟩ hescalates
  · refine .inl ⟨fun h => hbreach h.1, ?_⟩
    rw [SupportTicket.sweep, if_neg hbreach]

/-- A ticket that the sweep escalates was in the open queue, and stays there. -/
theorem inOpenQueue_sweep (now : Instant) (t : SupportTicket) :
    (t.sweep now).workflow.inOpenQueue = t.workflow.inOpenQueue := by
  unfold Ticket.inOpenQueue
  rw [isActive_sweep]
  rcases status_sweep now t with ⟨-, h⟩ | ⟨hescalates, h⟩
  · rw [h]
  · have hopen := (breachable_iff.mp hescalates.1).1
    rw [Ticket.inOpenQueue, Bool.and_eq_true, decide_eq_true_eq] at hopen
    rw [h, decide_eq_true hopen.2]
    rfl

end sweep

end SetadJang.SupportDesk
