import SetadJang.Framework.Txn
import Mathlib.Data.Int.Order.Basic

/-!
# Support tickets and their SLA clock

The workflow services of one ticket, as functions from the ticket before to the ticket
after or the error raised: every service runs in one transaction, so a raise leaves the
ticket alone.  Instants are microseconds.  A ticket keeps the SLA events written for it;
the messages, the status history and the counters are not modelled.
-/

namespace SetadJang.SupportDesk

open SetadJang.Framework

/-- An aware datetime, in microseconds. -/
abbrev Instant := ℤ

/-- `timedelta(seconds=1)`. -/
def second : ℤ := 1000000

/-- `TicketStatus`. -/
inductive TicketStatus
  | draft | submitted | opened | inProgress | waitingForUser | waitingForAdmin
  | resolved | closed | reopened | escalated | spam | archived
  deriving DecidableEq, Repr

namespace TicketStatus

/-- The value stored in the column. -/
def value : TicketStatus → String
  | draft => "draft"
  | submitted => "submitted"
  | opened => "open"
  | inProgress => "in_progress"
  | waitingForUser => "waiting_for_user"
  | waitingForAdmin => "waiting_for_admin"
  | resolved => "resolved"
  | closed => "closed"
  | reopened => "reopened"
  | escalated => "escalated"
  | spam => "spam"
  | archived => "archived"

/-- `TicketStatus.values`, in the order of the enumeration. -/
def all : List TicketStatus :=
  [draft, submitted, opened, inProgress, waitingForUser, waitingForAdmin,
    resolved, closed, reopened, escalated, spam, archived]

/-- The member with this value, `none` when `status not in TicketStatus.values`. -/
def ofValue? (status : String) : Option TicketStatus := all.find? (·.value == status)

/-- The values tell the members apart. -/
@[simp] theorem ofValue?_value (status : TicketStatus) : ofValue? status.value = some status := by
  cases status <;> decide +kernel

end TicketStatus

/-- `_USER_REPLY_ALLOWED_STATUSES`. -/
def userReplyAllowedStatuses : List TicketStatus :=
  [.submitted, .opened, .inProgress, .waitingForUser, .reopened, .escalated]

/-- `_ADMIN_REPLY_ALLOWED_STATUSES`. -/
def adminReplyAllowedStatuses : List TicketStatus :=
  [.submitted, .opened, .inProgress, .waitingForAdmin, .reopened, .escalated]

/-- `_TERMINAL_STATUSES`. -/
def terminalStatuses : List TicketStatus := [.closed, .archived, .spam]

/-- The statuses `close_ticket` accepts. -/
def closableStatuses : List TicketStatus :=
  [.resolved, .waitingForUser, .opened, .inProgress, .reopened, .escalated]

/-- The account making the call. -/
structure Actor where
  pk : ℕ
  isAuthenticated : Bool
  isStaff : Bool
  isSuperuser : Bool
  role : String
  deriving DecidableEq, Repr

/-- `_is_admin`. -/
def isAdmin (user : Actor) : Bool :=
  user.isAuthenticated && (user.isStaff || user.isSuperuser || user.role == "admin")

/-- `SupportSLAPolicy`, as far as the clock reads it. -/
structure SLAPolicy where
  pk : ℕ
  firstResponseMinutes : ℕ
  resolutionMinutes : ℕ
  businessHoursOnly : Bool
  pauseWhenWaitingForUser : Bool
  escalateOnBreach : Bool
  deriving DecidableEq, Repr

/-- `SLAEventType`. -/
inductive SLAEventType
  | policyApplied | paused | resumed | firstResponseBreached | resolutionBreached | escalated
  deriving DecidableEq, Repr

/-- The `metadata` of an SLA event. -/
inductive SLAMetadata
  | none
  | policy (policyId firstResponseMinutes resolutionMinutes : ℕ)
  | pausedSeconds (seconds : ℤ)
  | reason (text : String)
  deriving DecidableEq, Repr

/-- `SupportSLAEvent`. -/
structure SLAEvent where
  eventType : SLAEventType
  occurredAt : Instant
  metadata : SLAMetadata
  deriving DecidableEq, Repr

/-- `SupportTicket`: who owns it, its workflow and its clock. -/
structure Ticket where
  ownerId : ℕ
  isActive : Bool
  status : TicketStatus
  submittedAt : Option Instant
  firstAdminResponseAt : Option Instant
  lastUserMessageAt : Option Instant
  lastAdminMessageAt : Option Instant
  lastActivityAt : Instant
  resolvedAt : Option Instant
  closedAt : Option Instant
  reopenedAt : Option Instant
  escalatedAt : Option Instant
  escalatedBy : Option ℕ
  escalationReason : String
  reopenCount : ℕ
  appliedSlaPolicy : Option SLAPolicy
  firstResponseDueAt : Option Instant
  resolutionDueAt : Option Instant
  slaBreachedAt : Option Instant
  slaPausedAt : Option Instant
  slaTotalPausedSeconds : ℤ
  slaEvents : List SLAEvent
  deriving DecidableEq, Repr

/-- `SupportPermissionError` and `SupportTicketStateError`. -/
inductive SupportDeskError
  | permission (message : String)
  | ticketState (message : String)
  deriving DecidableEq, Repr

/-- The ticket row that `create_draft_ticket` inserts. -/
def createDraftTicket (owner : Actor) (now : Instant) : Ticket where
  ownerId := owner.pk
  isActive := true
  status := .draft
  submittedAt := none
  firstAdminResponseAt := none
  lastUserMessageAt := none
  lastAdminMessageAt := none
  lastActivityAt := now
  resolvedAt := none
  closedAt := none
  reopenedAt := none
  escalatedAt := none
  escalatedBy := none
  escalationReason := ""
  reopenCount := 0
  appliedSlaPolicy := none
  firstResponseDueAt := none
  resolutionDueAt := none
  slaBreachedAt := none
  slaPausedAt := none
  slaTotalPausedSeconds := 0
  slaEvents := []

namespace Ticket

/-- `SupportSLAEvent.objects.create`. -/
def logSla (eventType : SLAEventType) (now : Instant) (metadata : SLAMetadata) (t : Ticket) :
    Ticket :=
  { t with slaEvents := t.slaEvents ++ [⟨eventType, now, metadata⟩] }

/-- `_change_status`. -/
def changeStatus (toStatus : TicketStatus) (now : Instant) (t : Ticket) : Ticket :=
  if t.status = toStatus then t
  else
    { t with
      status := toStatus
      resolvedAt := if toStatus = .resolved then some now else t.resolvedAt
      closedAt := if toStatus = .closed then some now else t.closedAt
      reopenedAt := if toStatus = .reopened then some now else t.reopenedAt
      reopenCount := if toStatus = .reopened then t.reopenCount + 1 else t.reopenCount
      lastActivityAt := now }

/-- `_pause_sla_if_needed`. -/
def pauseSlaIfNeeded (now : Instant) (t : Ticket) : Ticket :=
  match t.appliedSlaPolicy with
  | none => t
  | some policy =>
      if policy.pauseWhenWaitingForUser = true ∧ t.slaPausedAt = none then
        { t with slaPausedAt := some now }.logSla .paused now .none
      else t

end Ticket

/-- `int((now - since).total_seconds())`, which truncates towards zero. -/
def elapsedSeconds (since now : Instant) : ℤ := (now - since).tdiv second

/-- `max(paused_seconds, 0)`. -/
def wholeSeconds (since now : Instant) : ℤ := max (elapsedSeconds since now) 0

namespace Ticket

/-- `_resume_sla_if_needed`. -/
def resumeSlaIfNeeded (now : Instant) (t : Ticket) : Ticket :=
  match t.slaPausedAt with
  | none => t
  | some pausedAt =>
      { t with
        slaTotalPausedSeconds := t.slaTotalPausedSeconds + wholeSeconds pausedAt now
        firstResponseDueAt :=
          t.firstResponseDueAt.map (· + wholeSeconds pausedAt now * second)
        resolutionDueAt := t.resolutionDueAt.map (· + wholeSeconds pausedAt now * second)
        slaPausedAt := none }.logSla .resumed now (.pausedSeconds (elapsedSeconds pausedAt now))

/-- `is_reopenable`. -/
def isReopenable (now : Instant) (t : Ticket) : Bool :=
  (t.status == .resolved || t.status == .closed) &&
    (t.closedAt.or t.resolvedAt).any fun reference =>
      decide (now < reference + 7 * 24 * 60 * 60 * second)

end Ticket

/-! ## Submission -/

/-- `_calculate_sla_due_at`.  The calendar of the department, when it has one, stands for
`add_business_minutes` on it. -/
def calculateSlaDueAt (calendar : Option (Instant → ℕ → Instant)) (policy : SLAPolicy)
    (minutes : ℕ) (now : Instant) : Instant :=
  if policy.businessHoursOnly then
    match calendar with
    | none => now + minutes * 60 * second
    | some addBusinessMinutes => addBusinessMinutes now minutes
  else now + minutes * 60 * second

/-- `_apply_sla`. -/
def applySla (calendar : Option (Instant → ℕ → Instant)) (policy : Option SLAPolicy)
    (now : Instant) (t : Ticket) : Ticket :=
  match policy with
  | none => t
  | some policy =>
      { t with
        appliedSlaPolicy := some policy
        firstResponseDueAt :=
          some (calculateSlaDueAt calendar policy policy.firstResponseMinutes now)
        resolutionDueAt :=
          some (calculateSlaDueAt calendar policy policy.resolutionMinutes now) }.logSla
        .policyApplied now
        (.policy policy.pk policy.firstResponseMinutes policy.resolutionMinutes)

/-- `submit_ticket`, where `resolve_sla_policy` finds `policy`. -/
def submitTicket (user : Actor) (calendar : Option (Instant → ℕ → Instant))
    (policy : Option SLAPolicy) (now : Instant) (t : Ticket) :
    Except SupportDeskError Ticket := do
  checkThat (t.ownerId = user.pk) (.permission "فقط مالک تیکت می‌تواند آن را ارسال کند.")
  checkThat (t.status = .draft) (.ticketState "فقط تیکت پیش‌نویس قابل ارسال است.")
  let t := t.changeStatus .submitted now
  let t := { t with
    submittedAt := some now
    lastUserMessageAt := t.lastUserMessageAt.or (some now)
    lastActivityAt := now }
  pure (applySla calendar policy now t)

/-! ## Conversation and workflow -/

/-- `add_user_reply`. -/
def addUserReply (user : Actor) (now : Instant) (t : Ticket) : Except SupportDeskError Ticket := do
  checkThat (t.ownerId = user.pk)
    (.permission "فقط مالک تیکت می‌تواند روی آن پاسخ ارسال کند.")
  checkThat (t.status ∈ userReplyAllowedStatuses)
    (.ticketState "در وضعیت فعلی امکان ارسال پاسخ کاربر وجود ندارد.")
  let t := t.resumeSlaIfNeeded now
  let t := { t with lastUserMessageAt := some now, lastActivityAt := now }
  pure (t.changeStatus .waitingForAdmin now)

/-- `add_admin_reply`. -/
def addAdminReply (admin : Actor) (now : Instant) (t : Ticket) :
    Except SupportDeskError Ticket := do
  checkThat (isAdmin admin) (.permission "برای پاسخ ادمین باید دسترسی پشتیبانی داشته باشید.")
  checkThat (t.status ∈ adminReplyAllowedStatuses)
    (.ticketState "در وضعیت فعلی امکان پاسخ ادمین وجود ندارد.")
  let t := { t with
    firstAdminResponseAt := t.firstAdminResponseAt.or (some now)
    lastAdminMessageAt := some now
    lastActivityAt := now }
  pure ((t.changeStatus .waitingForUser now).pauseSlaIfNeeded now)

/-- `change_ticket_status`. -/
def changeTicketStatus (admin : Actor) (status : String) (now : Instant) (t : Ticket) :
    Except SupportDeskError Ticket := do
  checkThat (isAdmin admin) (.permission "فقط ادمین می‌تواند وضعیت تیکت را تغییر دهد.")
  match TicketStatus.ofValue? status with
  | none => throw (.ticketState "وضعیت تیکت نامعتبر است.")
  | some toStatus => pure (t.changeStatus toStatus now)

/-- `resolve_ticket`. -/
def resolveTicket (admin : Actor) (now : Instant) (t : Ticket) :
    Except SupportDeskError Ticket := do
  checkThat (t.status ∉ terminalStatuses)
    (.ticketState "تیکت بسته/آرشیو/اسپم قابل حل مجدد نیست.")
  changeTicketStatus admin TicketStatus.resolved.value now t

/-- `close_ticket`. -/
def closeTicket (actor : Actor) (now : Instant) (t : Ticket) : Except SupportDeskError Ticket := do
  checkThat (t.ownerId = actor.pk ∨ isAdmin actor)
    (.permission "فقط مالک یا ادمین می‌تواند تیکت را ببندد.")
  checkThat (t.status ∈ closableStatuses) (.ticketState "این تیکت در وضعیت فعلی قابل بستن نیست.")
  pure (t.changeStatus .closed now)

/-- `reopen_ticket`. -/
def reopenTicket (user : Actor) (now : Instant) (t : Ticket) : Except SupportDeskError Ticket := do
  checkThat (t.ownerId = user.pk)
    (.permission "فقط مالک تیکت می‌تواند آن را بازگشایی کند.")
  checkThat (t.isReopenable now)
    (.ticketState "مهلت بازگشایی این تیکت به پایان رسیده یا وضعیت آن قابل بازگشایی نیست.")
  pure ((t.resumeSlaIfNeeded now).changeStatus .reopened now)

/-- `escalate_ticket`. -/
def escalateTicket (admin : Actor) (reason : String) (now : Instant) (t : Ticket) :
    Except SupportDeskError Ticket := do
  checkThat (isAdmin admin) (.permission "فقط ادمین می‌تواند تیکت را ارجاع فوری کند.")
  let t := { t with
    escalatedAt := some now
    escalatedBy := some admin.pk
    escalationReason := reason }.logSla .escalated now (.reason reason)
  pure (t.changeStatus .escalated now)

/-- The workflow operations on a submitted ticket. -/
inductive TicketOp
  | addUserReply (user : Actor)
  | addAdminReply (admin : Actor)
  | changeTicketStatus (admin : Actor) (status : String)
  | resolveTicket (admin : Actor)
  | closeTicket (actor : Actor)
  | reopenTicket (user : Actor)
  | escalateTicket (admin : Actor) (reason : String)
  deriving DecidableEq, Repr

/-- What a call of the operation at `now` returns. -/
def TicketOp.call : TicketOp → Instant → Ticket → Except SupportDeskError Ticket
  | .addUserReply user => SupportDesk.addUserReply user
  | .addAdminReply admin => SupportDesk.addAdminReply admin
  | .changeTicketStatus admin status => SupportDesk.changeTicketStatus admin status
  | .resolveTicket admin => SupportDesk.resolveTicket admin
  | .closeTicket actor => SupportDesk.closeTicket actor
  | .reopenTicket user => SupportDesk.reopenTicket user
  | .escalateTicket admin reason => SupportDesk.escalateTicket admin reason

/-- The row after the transaction: a raise rolls it back. -/
def commit (t : Ticket) : Except SupportDeskError Ticket → Ticket
  | .ok t' => t'
  | .error _ => t

/-- The ticket after the operation is called at `now`. -/
def TicketOp.perform (op : TicketOp) (now : Instant) (t : Ticket) : Ticket :=
  commit t (op.call now t)

/-! ## What the helpers touch -/

section helpers

variable (t : Ticket) (now : Instant) (toStatus : TicketStatus)

@[simp] theorem status_changeStatus : (t.changeStatus toStatus now).status = toStatus := by
  unfold Ticket.changeStatus
  split
  · assumption
  · rfl

@[simp] theorem appliedSlaPolicy_changeStatus :
    (t.changeStatus toStatus now).appliedSlaPolicy = t.appliedSlaPolicy := by
  unfold Ticket.changeStatus
  split <;> rfl

@[simp] theorem firstAdminResponseAt_changeStatus :
    (t.changeStatus toStatus now).firstAdminResponseAt = t.firstAdminResponseAt := by
  unfold Ticket.changeStatus
  split <;> rfl

@[simp] theorem resolutionDueAt_changeStatus :
    (t.changeStatus toStatus now).resolutionDueAt = t.resolutionDueAt := by
  unfold Ticket.changeStatus
  split <;> rfl

@[simp] theorem slaPausedAt_changeStatus :
    (t.changeStatus toStatus now).slaPausedAt = t.slaPausedAt := by
  unfold Ticket.changeStatus
  split <;> rfl

@[simp] theorem status_pauseSlaIfNeeded : (t.pauseSlaIfNeeded now).status = t.status := by
  unfold Ticket.pauseSlaIfNeeded
  split
  · rfl
  · split <;> rfl

@[simp] theorem appliedSlaPolicy_pauseSlaIfNeeded :
    (t.pauseSlaIfNeeded now).appliedSlaPolicy = t.appliedSlaPolicy := by
  unfold Ticket.pauseSlaIfNeeded
  split
  · rfl
  · split <;> rfl

@[simp] theorem firstAdminResponseAt_pauseSlaIfNeeded :
    (t.pauseSlaIfNeeded now).firstAdminResponseAt = t.firstAdminResponseAt := by
  unfold Ticket.pauseSlaIfNeeded
  split
  · rfl
  · split <;> rfl

@[simp] theorem resolutionDueAt_pauseSlaIfNeeded :
    (t.pauseSlaIfNeeded now).resolutionDueAt = t.resolutionDueAt := by
  unfold Ticket.pauseSlaIfNeeded
  split
  · rfl
  · split <;> rfl

/-- A running clock is stopped under a pausing policy. -/
theorem slaPausedAt_pauseSlaIfNeeded {t : Ticket} {policy : SLAPolicy}
    (hpolicy : t.appliedSlaPolicy = some policy)
    (hpausing : policy.pauseWhenWaitingForUser = true) (hrunning : t.slaPausedAt = none) :
    (t.pauseSlaIfNeeded now).slaPausedAt = some now := by
  unfold Ticket.pauseSlaIfNeeded
  rw [hpolicy]
  dsimp only
  rw [if_pos ⟨hpausing, hrunning⟩]
  rfl

@[simp] theorem status_resumeSlaIfNeeded : (t.resumeSlaIfNeeded now).status = t.status := by
  unfold Ticket.resumeSlaIfNeeded
  split <;> rfl

@[simp] theorem appliedSlaPolicy_resumeSlaIfNeeded :
    (t.resumeSlaIfNeeded now).appliedSlaPolicy = t.appliedSlaPolicy := by
  unfold Ticket.resumeSlaIfNeeded
  split <;> rfl

@[simp] theorem slaPausedAt_resumeSlaIfNeeded : (t.resumeSlaIfNeeded now).slaPausedAt = none := by
  unfold Ticket.resumeSlaIfNeeded
  split
  · assumption
  · rfl

theorem resolutionDueAt_resumeSlaIfNeeded {t : Ticket} {pausedAt : Instant}
    (hpaused : t.slaPausedAt = some pausedAt) :
    (t.resumeSlaIfNeeded now).resolutionDueAt =
      t.resolutionDueAt.map (· + wholeSeconds pausedAt now * second) := by
  unfold Ticket.resumeSlaIfNeeded
  rw [hpaused]
  rfl

/-- A running clock has nothing to give back. -/
theorem resumeSlaIfNeeded_of_running {t : Ticket} (hrunning : t.slaPausedAt = none) :
    t.resumeSlaIfNeeded now = t := by
  unfold Ticket.resumeSlaIfNeeded
  rw [hrunning]

end helpers

/-! ## When the services accept a call -/

section accepted

variable {t t' : Ticket} {now : Instant} {user admin actor : Actor}

theorem submitTicket_ok_iff {calendar : Option (Instant → ℕ → Instant)}
    {policy : Option SLAPolicy} :
    submitTicket user calendar policy now t = .ok t' ↔
      t.ownerId = user.pk ∧ t.status = .draft ∧
        applySla calendar policy now { t.changeStatus .submitted now with
          submittedAt := some now
          lastUserMessageAt := (t.changeStatus .submitted now).lastUserMessageAt.or (some now)
          lastActivityAt := now } = t' := by
  simp only [submitTicket, checkThat_bind_ok_iff, pure, Except.pure, Except.ok.injEq]

theorem addUserReply_ok_iff :
    addUserReply user now t = .ok t' ↔
      t.ownerId = user.pk ∧ t.status ∈ userReplyAllowedStatuses ∧
        Ticket.changeStatus .waitingForAdmin now { t.resumeSlaIfNeeded now with
          lastUserMessageAt := some now
          lastActivityAt := now } = t' := by
  simp only [addUserReply, checkThat_bind_ok_iff, pure, Except.pure, Except.ok.injEq]

theorem addAdminReply_ok_iff :
    addAdminReply admin now t = .ok t' ↔
      isAdmin admin = true ∧ t.status ∈ adminReplyAllowedStatuses ∧
        (Ticket.changeStatus .waitingForUser now { t with
          firstAdminResponseAt := t.firstAdminResponseAt.or (some now)
          lastAdminMessageAt := some now
          lastActivityAt := now }).pauseSlaIfNeeded now = t' := by
  simp only [addAdminReply, checkThat_bind_ok_iff, pure, Except.pure, Except.ok.injEq]

theorem changeTicketStatus_ok_iff {status : String} :
    changeTicketStatus admin status now t = .ok t' ↔
      isAdmin admin = true ∧ ∃ toStatus, TicketStatus.ofValue? status = some toStatus ∧
        t.changeStatus toStatus now = t' := by
  simp only [changeTicketStatus, checkThat_bind_ok_iff]
  cases TicketStatus.ofValue? status with
  | none => simp [throw, throwThe, MonadExceptOf.throw]
  | some toStatus => simp [pure, Except.pure]

theorem resolveTicket_ok_iff :
    resolveTicket admin now t = .ok t' ↔
      isAdmin admin = true ∧ t.status ∉ terminalStatuses ∧
        t.changeStatus .resolved now = t' := by
  simp only [resolveTicket, checkThat_bind_ok_iff, changeTicketStatus_ok_iff,
    TicketStatus.ofValue?_value, Option.some.injEq, exists_eq_left']
  tauto

theorem closeTicket_ok_iff :
    closeTicket actor now t = .ok t' ↔
      (t.ownerId = actor.pk ∨ isAdmin actor = true) ∧ t.status ∈ closableStatuses ∧
        t.changeStatus .closed now = t' := by
  simp only [closeTicket, checkThat_bind_ok_iff, pure, Except.pure, Except.ok.injEq]

theorem reopenTicket_ok_iff :
    reopenTicket user now t = .ok t' ↔
      t.ownerId = user.pk ∧ t.isReopenable now = true ∧
        (t.resumeSlaIfNeeded now).changeStatus .reopened now = t' := by
  simp only [reopenTicket, checkThat_bind_ok_iff, pure, Except.pure, Except.ok.injEq]

theorem escalateTicket_ok_iff {reason : String} :
    escalateTicket admin reason now t = .ok t' ↔
      isAdmin admin = true ∧
        Ticket.changeStatus .escalated now ({ t with
          escalatedAt := some now
          escalatedBy := some admin.pk
          escalationReason := reason }.logSla .escalated now (.reason reason)) = t' := by
  simp only [escalateTicket, checkThat_bind_ok_iff, pure, Except.pure, Except.ok.injEq]

end accepted

/-- **Call rule.** What holds of the ticket before, and of what every accepted call returns,
holds after the operation. -/
theorem perform_induct {I : Ticket → Prop} {op : TicketOp} {now : Instant} {t : Ticket}
    (herror : I t) (hok : ∀ t', op.call now t = .ok t' → I t') : I (op.perform now t) := by
  unfold TicketOp.perform
  cases hcall : op.call now t with
  | error e => exact herror
  | ok t' => exact hok t' hcall

theorem perform_eq_of_ok (op : TicketOp) {now : Instant} {t t' : Ticket}
    (hcall : op.call now t = .ok t') : op.perform now t = t' := by
  unfold TicketOp.perform
  rw [hcall]
  rfl

/-! ## A ticket to run on -/

/-- The owner of the sample ticket. -/
def sampleOwner : Actor := ⟨1, true, false, false, "user"⟩

/-- A support admin. -/
def sampleAdmin : Actor := ⟨2, true, true, false, "admin"⟩

/-- One hour to answer, two hours to resolve, paused while waiting for the user. -/
def samplePolicy : SLAPolicy := ⟨1, 60, 120, false, true, true⟩

/-- A ticket drafted and submitted at instant 0. -/
def sampleTicket : Ticket :=
  commit (createDraftTicket sampleOwner 0)
    (submitTicket sampleOwner none (some samplePolicy) 0 (createDraftTicket sampleOwner 0))

end SetadJang.SupportDesk
