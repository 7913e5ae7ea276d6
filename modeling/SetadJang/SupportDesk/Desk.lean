import SetadJang.Framework.Runs
import SetadJang.SupportDesk.Categories
import SetadJang.SupportDesk.Tickets

/-!
# Categories and tickets together

The store of the support desk: the categories and the tickets that point to them.  A ticket
keeps a department of its own beside its category.  The owner drafts it, an admin may refer it
to a department, and the workflow services change its status and clock.

Departments and ticket types are rows the caller has loaded; the messages, the histories, the
counters, the tags and the duplicate candidates are not modelled.
-/

namespace SetadJang.SupportDesk

open SetadJang.Framework

/-! ## Rows -/

structure SupportDepartment where
  pk : ℕ
  defaultAssignee : Option ℕ
deriving DecidableEq, Repr

/-- `SupportTicketType`, its routing defaults. -/
structure SupportTicketType where
  pk : ℕ
  defaultDepartment : Option SupportDepartment
  defaultCategory : Option ℕ
  defaultPriority : String
  defaultSeverity : String
deriving DecidableEq, Repr

structure SupportTicket where
  workflow : Ticket
  department : ℕ
  category : ℕ
  ticketType : ℕ
  subject : String
  descriptionSnapshot : String
  priority : String
  severity : String
  assignedTo : Option ℕ
deriving DecidableEq, Repr

structure Desk where
  categories : Categories
  tickets : List SupportTicket

inductive DeskError where
  | support (error : SupportDeskError)
  | service (message : String)
  | category (error : CategoryError)
  | doesNotExist
  | dataError
deriving DecidableEq, Repr

/-! ## Services -/

/-- `a or b` of two texts. -/
def textOr (a b : String) : String := if a.isEmpty then b else a

/-- The limits of the columns that callers fill. -/
def SupportTicket.FitsColumns (t : SupportTicket) : Prop :=
  t.subject.length ≤ 260 ∧ t.priority.length ≤ 20 ∧ t.severity.length ≤ 20

instance (t : SupportTicket) : Decidable t.FitsColumns := inferInstanceAs (Decidable (_ ∧ _))

/-- The test of a ticket against its category, which is read from the table. -/
def assertCategoryOfDepartment (categories : Categories) (category department : ℕ) :
    Except DeskError Unit :=
  match categories[category]? with
  | none => .error .doesNotExist
  | some row =>
      checkThat (row.department = department)
        (.service "دسته‌بندی انتخاب‌شده متعلق به دپارتمان تیکت نیست.")

/-- `create_ticket`. -/
def createTicket (categories : Categories) (owner : Actor) (ticketType : SupportTicketType)
    (subject description : String) (department : Option SupportDepartment) (category : Option ℕ)
    (priority severity : Option String) (now : Instant) : Except DeskError SupportTicket := do
  checkThat (owner.isAuthenticated)
    (.support (.permission "برای ثبت تیکت باید وارد حساب کاربری شوید."))
  match department.or ticketType.defaultDepartment, category.or ticketType.defaultCategory with
  | some department, some category => do
      assertCategoryOfDepartment categories category department.pk
      let ticket : SupportTicket :=
        { workflow := createDraftTicket owner now
          department := department.pk
          category := category
          ticketType := ticketType.pk
          subject := pyStrip subject
          descriptionSnapshot := pyStrip description
          priority := textOr (priority.getD "") (textOr ticketType.defaultPriority "normal")
          severity := textOr (severity.getD "") (textOr ticketType.defaultSeverity "minor")
          assignedTo := department.defaultAssignee }
      checkThat ticket.FitsColumns .dataError
      pure ticket
  | _, _ =>
      .error (.service "نوع تیکت باید دپارتمان و دسته‌بندی پیش‌فرض یا ورودی معتبر داشته باشد.")

/-- The fields of `update_draft_ticket`; `None` leaves them alone. -/
structure DraftFields where
  ticketType : Option SupportTicketType := none
  department : Option SupportDepartment := none
  category : Option ℕ := none
  subject : Option String := none
  description : Option String := none

/-- The ticket once a type is chosen, whose defaults count where no field is given. -/
def DraftFields.setType (fields : DraftFields) (ticketType : SupportTicketType)
    (t : SupportTicket) : SupportTicket :=
  { t with
    ticketType := ticketType.pk
    department :=
      ((fields.department.or ticketType.defaultDepartment).map SupportDepartment.pk).getD t.department
    category := (fields.category.or ticketType.defaultCategory).getD t.category
    priority := textOr ticketType.defaultPriority t.priority
    severity := textOr ticketType.defaultSeverity t.severity }

/-- The ticket with its type, department and category as the fields ask. -/
def DraftFields.route (fields : DraftFields) (t : SupportTicket) : SupportTicket :=
  let typed := match fields.ticketType with
    | none => t
    | some ticketType => fields.setType ticketType t
  { typed with
    department := (fields.department.map SupportDepartment.pk).getD typed.department
    category := fields.category.getD typed.category }

/-- `update_draft_ticket`. -/
def updateDraftTicket (categories : Categories) (user : Actor) (fields : DraftFields)
    (now : Instant) (t : SupportTicket) : Except DeskError SupportTicket := do
  checkThat (t.workflow.ownerId = user.pk)
    (.support (.permission "فقط مالک تیکت می‌تواند آن را ویرایش کند."))
  checkThat (t.workflow.status = .draft)
    (.support (.ticketState "فقط تیکت پیش‌نویس قبل از ارسال قابل ویرایش است."))
  let routed := fields.route t
  assertCategoryOfDepartment categories routed.category routed.department
  let ticket := { routed with
    subject := (fields.subject.map pyStrip).getD routed.subject
    descriptionSnapshot := (fields.description.map pyStrip).getD routed.descriptionSnapshot
    workflow := { routed.workflow with lastActivityAt := now } }
  checkThat ticket.FitsColumns .dataError
  pure ticket

/-- `assign_ticket`. -/
def assignTicket (admin : Actor) (assignee department : Option ℕ) (now : Instant)
    (t : SupportTicket) : Except DeskError SupportTicket := do
  checkThat (isAdmin admin) (.support (.permission "فقط ادمین می‌تواند تیکت را ارجاع دهد."))
  pure { t with
    department := department.getD t.department
    assignedTo := assignee
    workflow := { t.workflow with lastActivityAt := now } }

/-- A workflow service on its part of the row. -/
def onWorkflow (call : Ticket → Except SupportDeskError Ticket) (t : SupportTicket) :
    Except DeskError SupportTicket :=
  match call t.workflow with
  | .ok workflow => .ok { t with workflow := workflow }
  | .error e => .error (.support e)

/-- `SupportTicket.objects.open_queue().filter(category=category).exists()`. -/
def hasOpenTickets (tickets : List SupportTicket) (category : ℕ) : Bool :=
  tickets.any fun t =>
    t.category == category && t.workflow.isActive && !terminalStatuses.contains t.workflow.status

/-! ## Runs -/

inductive StoreAct where
  | createCategory (input : CategoryInput) (uuid : UuidHex)
  | updateCategory (category : ℕ) (fields : CategoryFields)
  | deactivateCategory (category : ℕ)
  | createTicket (owner : Actor) (ticketType : SupportTicketType) (subject description : String)
      (department : Option SupportDepartment) (category : Option ℕ)
      (priority severity : Option String) (now : Instant)
  | updateDraftTicket (ticket : ℕ) (user : Actor) (fields : DraftFields) (now : Instant)
  | assignTicket (ticket : ℕ) (admin : Actor) (assignee department : Option ℕ) (now : Instant)
  | submitTicket (ticket : ℕ) (user : Actor) (calendar : Option (Instant → ℕ → Instant))
      (policy : Option SLAPolicy) (now : Instant)
  | workflow (ticket : ℕ) (op : TicketOp) (now : Instant)

namespace Desk

/-- A call about the categories. -/
def onCategories (desk : Desk) : Except CategoryError Categories → Except DeskError Desk
  | .ok categories => .ok { desk with categories := categories }
  | .error e => .error (.category e)

/-- A call about one ticket, which the caller has loaded. -/
def onTicket (desk : Desk) (k : ℕ) (call : SupportTicket → Except DeskError SupportTicket) :
    Except DeskError Desk :=
  match desk.tickets[k]? with
  | none => .error .doesNotExist
  | some t =>
      match call t with
      | .ok t' => .ok { desk with tickets := desk.tickets.set k t' }
      | .error e => .error e

end Desk

def storeCall (rules : TextRules) (desk : Desk) : StoreAct → Except DeskError Desk
  | .createCategory input uuid =>
      desk.onCategories (SupportDesk.createCategory rules desk.categories input uuid)
  | .updateCategory category fields =>
      desk.onCategories (SupportDesk.updateCategory rules desk.categories category fields)
  | .deactivateCategory category =>
      desk.onCategories (SupportDesk.deactivateCategory desk.categories category
        (hasOpenTickets desk.tickets category))
  | .createTicket owner ticketType subject description department category priority severity now =>
      match SupportDesk.createTicket desk.categories owner ticketType subject description
          department category priority severity now with
      | .ok t => .ok { desk with tickets := desk.tickets ++ [t] }
      | .error e => .error e
  | .updateDraftTicket ticket user fields now =>
      desk.onTicket ticket (SupportDesk.updateDraftTicket desk.categories user fields now)
  | .assignTicket ticket admin assignee department now =>
      desk.onTicket ticket (SupportDesk.assignTicket admin assignee department now)
  | .submitTicket ticket user calendar policy now =>
      desk.onTicket ticket (onWorkflow (SupportDesk.submitTicket user calendar policy now))
  | .workflow ticket op now => desk.onTicket ticket (onWorkflow (op.call now))

/-- One call; a raise rolls it back. -/
def storeStep (rules : TextRules) (desk : Desk) (act : StoreAct) : Desk :=
  match storeCall rules desk act with
  | .ok desk' => desk'
  | .error _ => desk

/-- The store with no row. -/
def Desk.empty : Desk := ⟨[], []⟩

end SetadJang.SupportDesk
