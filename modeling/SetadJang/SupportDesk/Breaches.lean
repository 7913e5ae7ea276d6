import SetadJang.Framework.Rows
import SetadJang.Framework.Runs
import SetadJang.SupportDesk.Tickets
import Mathlib.Tactic.Common

/-!
# Breach marking and the stopped clock

`mark_sla_breaches` sweeps the open queue for tickets past a due time.  Its filter reads the
due times, the first answer and the breach marker, and neither the pause nor the resolution:
a ticket that waits for the user, or that was resolved in time and not yet closed, is marked
once the due time it had when its clock stopped has passed.
-/

namespace SetadJang.SupportDesk

open SetadJang.Framework

/-! ## The sweep -/

namespace Ticket

/-- `open_queue` of the default manager, which hides inactive rows. -/
def inOpenQueue (t : Ticket) : Bool := t.isActive && decide (t.status ∉ terminalStatuses)

/-- `models_Q_first_response_due`. -/
def firstResponseDue (now : Instant) (t : Ticket) : Bool :=
  t.firstAdminResponseAt.isNone && t.firstResponseDueAt.any fun due => decide (due ≤ now)

/-- `models_Q_resolution_due`. -/
def resolutionDue (now : Instant) (t : Ticket) : Bool :=
  t.resolutionDueAt.any fun due => decide (due ≤ now)

/-- The sweep's queryset. -/
def breachable (now : Instant) (t : Ticket) : Bool :=
  t.inOpenQueue && t.slaBreachedAt.isNone && (t.firstResponseDue now || t.resolutionDue now)

/-- The event the sweep writes for a breach. -/
def breachEvent (now : Instant) (t : Ticket) : SLAEventType :=
  if t.firstResponseDue now then .firstResponseBreached else .resolutionBreached

/-- The body of the sweep's loop. -/
def markBreached (now : Instant) (t : Ticket) : Ticket :=
  let t' := { t with slaBreachedAt := some now }.logSla (t.breachEvent now) now .none
  match t'.appliedSlaPolicy with
  | none => t'
  | some policy =>
      if policy.escalateOnBreach = true ∧ t'.status ≠ .escalated then
        { t' with
          status := .escalated
          escalatedAt := some now
          escalationReason := "نقض SLA" }.logSla .escalated now (.reason "sla_breach")
      else t'

end Ticket

/-- `mark_sla_breaches`: the tickets after the sweep and the number it reports. -/
def markSlaBreaches (now : Instant) (tickets : List Ticket) : List Ticket × ℕ :=
  (tickets.map fun t => if t.breachable now then t.markBreached now else t,
    tickets.countP (Ticket.breachable now))

/-! ## The desk -/

/-- What happens at the desk: a ticket is submitted, an operation is called on one, or the
sweep runs. -/
inductive DeskAct
  | submitTicket (k : ℕ) (user : Actor) (calendar : Option (Instant → ℕ → Instant))
      (policy : Option SLAPolicy)
  | call (k : ℕ) (op : TicketOp)
  | markSlaBreaches

/-- One act at the instant it carries. -/
def deskStep (tickets : List Ticket) (act : Instant × DeskAct) : List Ticket :=
  match act.2 with
  | .submitTicket k user calendar policy =>
      tickets.modify k fun t => commit t (submitTicket user calendar policy act.1 t)
  | .call k op => tickets.modify k (op.perform act.1)
  | .markSlaBreaches => (markSlaBreaches act.1 tickets).1

/-- The due time that a breach event reports as missed. -/
def missedDue (t : Ticket) : SLAEventType → Option Instant
  | .firstResponseBreached => t.firstResponseDueAt
  | .resolutionBreached => t.resolutionDueAt
  | .policyApplied | .paused | .resumed | .escalated => none

/-- The ticket is resolved, since before the due time. -/
def ResolvedBefore (t : Ticket) (due : Instant) : Prop :=
  t.status = .resolved ∧ ∃ resolvedAt, t.resolvedAt = some resolvedAt ∧ resolvedAt < due

/-- The clock of `t` was running when the sweep made `t'` of it: it was not paused, and it
had not been resolved before the due time that the sweep reports. -/
structure ClockRan (t t' : Ticket) : Prop where
  notPaused : t.slaPausedAt = none
  notResolved : ∀ written, t'.slaEvents = t.slaEvents ++ written → ∀ event ∈ written,
    ∀ due, missedDue t event.eventType = some due → ¬ ResolvedBefore t due

/-- **A stopped clock never breaches**: a sweep changes no ticket whose clock has stopped. -/
def MarksRunning (tickets : List Ticket) (act : Instant × DeskAct) : Prop :=
  match act.2 with
  | .markSlaBreaches => ∀ (k : ℕ) (t t' : Ticket), tickets[k]? = some t →
      (deskStep tickets act)[k]? = some t' → t' ≠ t → ClockRan t t'
  | .submitTicket _ _ _ _ | .call _ _ => True

/-- A stopped ticket has no due time behind it that was ahead when it stopped: if it is
paused, its resolution is due later than now; if it is resolved, what was due since was due
when it was resolved. -/
structure StoppedInTime (now : Instant) (t : Ticket) : Prop where
  paused : t.slaPausedAt.isSome = true → t.resolutionDue now = false
  resolvedFirst : t.status = .resolved → ∀ resolvedAt, t.resolvedAt = some resolvedAt →
    t.firstResponseDue now = true → t.firstResponseDue resolvedAt = true
  resolvedLast : t.status = .resolved → ∀ resolvedAt, t.resolvedAt = some resolvedAt →
    t.firstResponseDue now = false → t.resolutionDue now = true →
      t.resolutionDue resolvedAt = true

/-- When the sweep runs, every ticket it may still mark stopped in time, if at all. -/
def SweptInTime (tickets : List Ticket) (act : Instant × DeskAct) : Prop :=
  match act.2 with
  | .markSlaBreaches => ∀ t ∈ tickets, t.inOpenQueue = true → t.slaBreachedAt = none →
      StoppedInTime act.1 t
  | .submitTicket _ _ _ _ | .call _ _ => True

/-! ## What the sweep does to one ticket -/

section sweep

variable {now : Instant} {t : Ticket}

theorem firstResponseDue_iff :
    t.firstResponseDue now = true ↔ t.firstAdminResponseAt = none ∧
      ∃ due, t.firstResponseDueAt = some due ∧ due ≤ now := by
  simp [Ticket.firstResponseDue, Option.any_eq_true]

theorem resolutionDue_iff :
    t.resolutionDue now = true ↔ ∃ due, t.resolutionDueAt = some due ∧ due ≤ now := by
  simp [Ticket.resolutionDue, Option.any_eq_true]

theorem breachable_iff :
    t.breachable now = true ↔ t.inOpenQueue = true ∧ t.slaBreachedAt = none ∧
      (t.firstResponseDue now = true ∨ t.resolutionDue now = true) := by
  simp [Ticket.breachable, and_assoc]

theorem slaBreachedAt_markBreached : (t.markBreached now).slaBreachedAt = some now := by
  unfold Ticket.markBreached
  dsimp only
  split
  · rfl
  · split <;> rfl

/-- The events of a breach: the breach itself, then perhaps the escalation. -/
theorem slaEvents_markBreached :
    ∃ more, (t.markBreached now).slaEvents =
        t.slaEvents ++ ⟨t.breachEvent now, now, .none⟩ :: more ∧
      ∀ event ∈ more, event.eventType = .escalated := by
  unfold Ticket.markBreached
  dsimp only
  split
  · exact ⟨[], rfl, by simp⟩
  · split
    · refine ⟨[⟨.escalated, now, .reason "sla_breach"⟩], ?_, by simp⟩
      simp [Ticket.logSla]
    · exact ⟨[], rfl, by simp⟩

/-- A breachable ticket is changed by the sweep. -/
theorem markBreached_ne (hbreach : t.breachable now = true) : t.markBreached now ≠ t := by
  intro heq
  have hmarked : (t.markBreached now).slaBreachedAt = some now := slaBreachedAt_markBreached
  rw [heq, (breachable_iff.mp hbreach).2.1] at hmarked
  cases hmarked

/-- The clock ran, in terms of the ticket before the sweep alone. -/
theorem clockRan_markBreached_iff :
    ClockRan t (t.markBreached now) ↔ t.slaPausedAt = none ∧
      ∀ due, missedDue t (t.breachEvent now) = some due → ¬ ResolvedBefore t due := by
  obtain ⟨more, hevents, hmore⟩ : ∃ more, (t.markBreached now).slaEvents =
      t.slaEvents ++ ⟨t.breachEvent now, now, .none⟩ :: more ∧
        ∀ event ∈ more, event.eventType = .escalated := slaEvents_markBreached
  constructor
  · intro hran
    exact ⟨hran.notPaused, hran.notResolved _ hevents _ List.mem_cons_self⟩
  · rintro ⟨hpaused, hresolved⟩
    refine ⟨hpaused, fun written hwritten event hevent due hdue => ?_⟩
    obtain rfl := List.append_cancel_left (hevents.symm.trans hwritten)
    rcases List.mem_cons.mp hevent with rfl | hlater
    · exact hresolved due hdue
    · rw [hmore event hlater] at hdue
      cases hdue

/-- The sweep leaves running every ticket it changes exactly when each breachable ticket's
clock runs. -/
theorem marksRunning_iff {tickets : List Ticket} :
    MarksRunning tickets (now, .markSlaBreaches) ↔
      ∀ t ∈ tickets, t.breachable now = true → ClockRan t (t.markBreached now) := by
  constructor
  · intro hmarks t ht hbreach
    obtain ⟨k, hk⟩ := List.getElem?_of_mem ht
    refine hmarks k t (t.markBreached now) hk ?_ (markBreached_ne hbreach)
    simp [deskStep, markSlaBreaches, hk, hbreach]
  · intro hran k t t' hk hk' hne
    have hmap : (if t.breachable now then t.markBreached now else t) = t' := by
      simpa [deskStep, markSlaBreaches, hk] using hk'
    by_cases hbreach : t.breachable now = true
    · rw [if_pos hbreach] at hmap
      rw [← hmap]
      exact hran t (List.mem_of_getElem? hk) hbreach
    · rw [if_neg hbreach] at hmap
      exact absurd hmap.symm hne

end sweep

/-! ## Paused tickets have been answered -/

/-- Only an answer pauses the clock. -/
def PausedAnswered (t : Ticket) : Prop :=
  t.slaPausedAt.isSome = true → t.firstAdminResponseAt.isSome = true

theorem pausedAnswered_of_running {t : Ticket} (hrunning : t.slaPausedAt = none) :
    PausedAnswered t := by
  intro hpaused
  rw [hrunning] at hpaused
  cases hpaused

theorem pausedAnswered_perform {op : TicketOp} {now : Instant} {t : Ticket}
    (h : PausedAnswered t) : PausedAnswered (op.perform now t) := by
  refine perform_induct h fun t' hcall => ?_
  cases op with
  | addUserReply user =>
      obtain ⟨-, -, rfl⟩ := addUserReply_ok_iff.mp hcall
      exact pausedAnswered_of_running (by simp)
  | addAdminReply admin =>
      obtain ⟨-, -, rfl⟩ := addAdminReply_ok_iff.mp hcall
      intro _
      cases t.firstAdminResponseAt <;> simp
  | changeTicketStatus admin status =>
      obtain ⟨-, toStatus, -, rfl⟩ := changeTicketStatus_ok_iff.mp hcall
      simpa [PausedAnswered] using h
  | resolveTicket admin =>
      obtain ⟨-, -, rfl⟩ := resolveTicket_ok_iff.mp hcall
      simpa [PausedAnswered] using h
  | closeTicket actor =>
      obtain ⟨-, -, rfl⟩ := closeTicket_ok_iff.mp hcall
      simpa [PausedAnswered] using h
  | reopenTicket user =>
      obtain ⟨-, -, rfl⟩ := reopenTicket_ok_iff.mp hcall
      exact pausedAnswered_of_running (by simp)
  | escalateTicket admin reason =>
      obtain ⟨-, rfl⟩ := escalateTicket_ok_iff.mp hcall
      simpa [PausedAnswered, Ticket.logSla] using h

theorem pausedAnswered_submit {user : Actor} {calendar : Option (Instant → ℕ → Instant)}
    {policy : Option SLAPolicy} {now : Instant} {t : Ticket} (h : PausedAnswered t) :
    PausedAnswered (commit t (submitTicket user calendar policy now t)) := by
  cases hcall : submitTicket user calendar policy now t with
  | error e => exact h
  | ok t' =>
      obtain ⟨-, -, rfl⟩ := submitTicket_ok_iff.mp hcall
      cases policy <;> simpa [PausedAnswered, commit, applySla, Ticket.logSla] using h

theorem pausedAnswered_markBreached {now : Instant} {t : Ticket} (h : PausedAnswered t) :
    PausedAnswered (t.markBreached now) := by
  unfold Ticket.markBreached
  dsimp only
  split
  · exact h
  · split <;> exact h

/-- **Step lemma.** No act pauses an unanswered ticket. -/
theorem pausedAnswered_step {tickets : List Ticket} (h : ∀ t ∈ tickets, PausedAnswered t)
    (act : Instant × DeskAct) : ∀ t ∈ deskStep tickets act, PausedAnswered t := by
  have hmodify : ∀ (k : ℕ) (f : Ticket → Ticket), (∀ t, PausedAnswered t → PausedAnswered (f t)) →
      ∀ t ∈ tickets.modify k f, PausedAnswered t := by
    intro k f hf t' ht'
    obtain ⟨j, hj⟩ := List.getElem?_of_mem ht'
    obtain ⟨-, t, ht, rfl⟩ | ⟨-, hold⟩ := getElem?_modify_cases hj
    · exact hf t (h t (List.mem_of_getElem? ht))
    · exact h t' (List.mem_of_getElem? hold)
  obtain ⟨now, act⟩ := act
  cases act with
  | submitTicket k user calendar policy => exact hmodify k _ fun t => pausedAnswered_submit
  | call k op => exact hmodify k _ fun t => pausedAnswered_perform
  | markSlaBreaches =>
      intro t' ht'
      obtain ⟨t, ht, rfl⟩ := List.mem_map.mp ht'
      split
      · exact pausedAnswered_markBreached (h t ht)
      · exact h t ht

/-! ## When the sweep is right -/

section exact

variable {now : Instant} {t : Ticket}

theorem not_resolvedBefore_iff {due : Instant} :
    ¬ ResolvedBefore t due ↔
      (t.status = .resolved → ∀ resolvedAt, t.resolvedAt = some resolvedAt → due ≤ resolvedAt) := by
  simp only [ResolvedBefore, not_and, not_exists, not_lt]

/-- On an answered-if-paused ticket that may still be marked, marking it is right exactly
when it stopped in time. -/
theorem stoppedInTime_iff (h : PausedAnswered t) (hopen : t.inOpenQueue = true)
    (hunmarked : t.slaBreachedAt = none) :
    (t.breachable now = true → ClockRan t (t.markBreached now)) ↔ StoppedInTime now t := by
  rw [breachable_iff, clockRan_markBreached_iff]
  constructor
  · intro hran
    constructor
    · intro hpaused
      refine Bool.eq_false_of_not_eq_true fun hdue => ?_
      rw [(hran ⟨hopen, hunmarked, Or.inr hdue⟩).1] at hpaused
      cases hpaused
    · intro hstatus resolvedAt hresolvedAt hfirst
      obtain ⟨hunanswered, due, hdue, -⟩ := firstResponseDue_iff.mp hfirst
      have hbefore := (hran ⟨hopen, hunmarked, Or.inl hfirst⟩).2 due
        (by rw [Ticket.breachEvent, if_pos hfirst]; exact hdue)
      exact firstResponseDue_iff.mpr
        ⟨hunanswered, due, hdue, not_resolvedBefore_iff.mp hbefore hstatus resolvedAt hresolvedAt⟩
    · intro hstatus resolvedAt hresolvedAt hfirst hlast
      obtain ⟨due, hdue, -⟩ := resolutionDue_iff.mp hlast
      have hbefore := (hran ⟨hopen, hunmarked, Or.inr hlast⟩).2 due
        (by rw [Ticket.breachEvent, if_neg (by simp [hfirst])]; exact hdue)
      exact resolutionDue_iff.mpr
        ⟨due, hdue, not_resolvedBefore_iff.mp hbefore hstatus resolvedAt hresolvedAt⟩
  · rintro hstopped ⟨-, -, hpast⟩
    constructor
    · by_contra hpaused
      have hpaused : t.slaPausedAt.isSome = true := Option.isSome_iff_ne_none.mpr hpaused
      rcases hpast with hfirst | hlast
      · have hanswered := h hpaused
        rw [(firstResponseDue_iff.mp hfirst).1] at hanswered
        cases hanswered
      · rw [hstopped.paused hpaused] at hlast
        cases hlast
    · intro due hdue
      rw [not_resolvedBefore_iff]
      intro hstatus resolvedAt hresolvedAt
      cases hfirst : t.firstResponseDue now with
      | true =>
          rw [Ticket.breachEvent, if_pos hfirst] at hdue
          obtain ⟨-, due', hdue', hle⟩ := firstResponseDue_iff.mp
            (hstopped.resolvedFirst hstatus resolvedAt hresolvedAt hfirst)
          obtain rfl := Option.some.inj (hdue.symm.trans hdue')
          exact hle
      | false =>
          rw [Ticket.breachEvent, if_neg (by simp [hfirst])] at hdue
          have hlast : t.resolutionDue now = true := by
            rcases hpast with hpast | hlast
            · rw [hfirst] at hpast
              cases hpast
            · exact hlast
          obtain ⟨due', hdue', hle⟩ := resolutionDue_iff.mp
            (hstopped.resolvedLast hstatus resolvedAt hresolvedAt hfirst hlast)
          obtain rfl := Option.some.inj (hdue.symm.trans hdue')
          exact hle

end exact

/-- One act at a desk where paused tickets have been answered. -/
theorem marksRunning_iff_sweptInTime {tickets : List Ticket}
    (h : ∀ t ∈ tickets, PausedAnswered t) (act : Instant × DeskAct) :
    MarksRunning tickets act ↔ SweptInTime tickets act := by
  obtain ⟨now, act⟩ := act
  cases act with
  | submitTicket k user calendar policy => exact Iff.rfl
  | call k op => exact Iff.rfl
  | markSlaBreaches =>
      rw [marksRunning_iff]
      constructor
      · intro hran t ht hopen hunmarked
        exact (stoppedInTime_iff (h t ht) hopen hunmarked).mp (hran t ht)
      · intro hswept t ht hbreach
        obtain ⟨hopen, hunmarked, -⟩ := breachable_iff.mp hbreach
        exact (stoppedInTime_iff (h t ht) hopen hunmarked).mpr (hswept t ht hopen hunmarked) hbreach

/-- The desk that drafts of these owners, at these instants, make. -/
def drafts (owners : List (Actor × Instant)) : List Ticket :=
  owners.map fun owner => createDraftTicket owner.1 owner.2

/-- **Breaches.** From drafts on, every sweep of a run marks only tickets whose clock runs
exactly when at every sweep the tickets it may still mark stopped in time, if at all. -/
theorem breaches_only_running_iff (owners : List (Actor × Instant))
    (acts : List (Instant × DeskAct)) :
    Along deskStep MarksRunning (drafts owners) acts ↔
      Along deskStep SweptInTime (drafts owners) acts := by
  refine along_congr (I := fun tickets => ∀ t ∈ tickets, PausedAnswered t)
    (fun tickets act h => marksRunning_iff_sweptInTime h act)
    (fun tickets act h _ => pausedAnswered_step h act) ?_ acts
  intro t ht
  obtain ⟨owner, -, rfl⟩ := List.mem_map.mp ht
  exact pausedAnswered_of_running rfl

/-- A ticket answered within a minute and still waiting for its user is marked and escalated
when the two hours are over. -/
theorem paused_ticket_breached :
    ¬ Along deskStep MarksRunning (drafts [(sampleOwner, 0)])
      [(0, .submitTicket 0 sampleOwner none (some samplePolicy)),
        (60 * second, .call 0 (.addAdminReply sampleAdmin)),
        (3 * 3600 * second, .markSlaBreaches)] := by
  intro halong
  obtain ⟨-, -, hmarks, -⟩ := halong
  have hran := marksRunning_iff.mp hmarks _ List.mem_cons_self (by decide +kernel)
  exact absurd hran.notPaused (by decide +kernel)

end SetadJang.SupportDesk
