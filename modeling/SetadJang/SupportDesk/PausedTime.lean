import SetadJang.Framework.Runs
import SetadJang.SupportDesk.Tickets
import Mathlib.Tactic.Common

/-!
# The time spent waiting for the user

Under a pausing policy the replies stop the SLA clock when the ticket starts to wait for the
user and add the stay to the due times when it stops waiting.  An observer of the status
column keeps the same account with a stopwatch.  The two agree on every run in which only the
replies move a ticket into and out of WAITING_FOR_USER; the four other services that can
move it leave the clock as it is.
-/

namespace SetadJang.SupportDesk

open SetadJang.Framework

/-! ## The stopwatch -/

theorem wholeSeconds_add_second (now : Instant) : wholeSeconds now (now + second) = 1 := by
  unfold wholeSeconds elapsedSeconds
  rw [Int.add_comm, Int.add_sub_cancel]
  decide

/-- What an observer of the status notes: since when the ticket has been waiting for the
user, and the whole seconds of the stays that are over. -/
structure Stopwatch where
  since : Option Instant
  total : ℤ
  deriving DecidableEq, Repr

namespace Stopwatch

/-- A stay that runs is over at `now`. -/
def leave (now : Instant) (w : Stopwatch) : Stopwatch :=
  match w.since with
  | none => w
  | some since => ⟨none, w.total + wholeSeconds since now⟩

/-- The status was `before` and is `after` from `now` on. -/
def observe (before after : TicketStatus) (now : Instant) (w : Stopwatch) : Stopwatch :=
  if before = after then w
  else if after = .waitingForUser then { w.leave now with since := some now }
  else w.leave now

/-- The time spent waiting by the moment `m`, the stay that runs included. -/
def reading (m : Instant) (w : Stopwatch) : ℤ :=
  match w.since with
  | none => w.total
  | some since => w.total + wholeSeconds since m

theorem leave_of_idle {w : Stopwatch} (hidle : w.since = none) (now : Instant) :
    w.leave now = w := by
  unfold leave
  rw [hidle]

theorem reading_of_idle {w : Stopwatch} (hidle : w.since = none) (m : Instant) :
    w.reading m = w.total := by
  unfold reading
  rw [hidle]

end Stopwatch

/-- A ticket, the observer's stopwatch and the time of the last operation. -/
structure Observed where
  ticket : Ticket
  watch : Stopwatch
  clock : Instant

namespace Observed

/-- The observer starts at the submission, with a stopwatch at zero. -/
def start (ticket : Ticket) (submittedAt : Instant) : Observed := ⟨ticket, ⟨none, 0⟩, submittedAt⟩

/-- An operation is called, at the instant it carries. -/
def step (o : Observed) (s : Instant × TicketOp) : Observed where
  ticket := s.2.perform s.1 o.ticket
  watch := o.watch.observe o.ticket.status (s.2.perform s.1 o.ticket).status s.1
  clock := s.1

end Observed

/-- **Paused time is given back.** The clock is stopped only while the ticket waits for the
user; and while it runs, from the last operation on until the next, the resolution due time
is the one at creation plus the time spent waiting. -/
structure GivesBack (due : Instant) (o : Observed) : Prop where
  waiting : o.ticket.slaPausedAt.isSome = true → o.ticket.status = .waitingForUser
  extended : o.ticket.slaPausedAt = none → ∀ m, o.clock ≤ m →
    o.ticket.resolutionDueAt = some (due + o.watch.reading m * second)

/-- The call is accepted and moves the ticket into or out of WAITING_FOR_USER without
stopping or resuming its clock. -/
def Bypasses (t : Ticket) : TicketOp → Prop
  | .changeTicketStatus admin status =>
      isAdmin admin = true ∧ ∃ toStatus, TicketStatus.ofValue? status = some toStatus ∧
        t.status ≠ toStatus ∧ (t.status = .waitingForUser ∨ toStatus = .waitingForUser)
  | .resolveTicket admin => isAdmin admin = true ∧ t.status = .waitingForUser
  | .closeTicket actor =>
      (t.ownerId = actor.pk ∨ isAdmin actor = true) ∧ t.status = .waitingForUser
  | .escalateTicket admin _ => isAdmin admin = true ∧ t.status = .waitingForUser
  | .addUserReply _ | .addAdminReply _ | .reopenTicket _ => False

/-! ## The invariant -/

/-- The ticket's clock and the stopwatch tell the same. -/
structure Metered (due : Instant) (o : Observed) : Prop where
  pausing : ∃ policy, o.ticket.appliedSlaPolicy = some policy ∧
    policy.pauseWhenWaitingForUser = true
  extended : o.ticket.resolutionDueAt = some (due + o.watch.total * second)
  paused : o.ticket.slaPausedAt = o.watch.since
  waiting : o.watch.since.isSome = true ↔ o.ticket.status = .waitingForUser

theorem Metered.givesBack {due : Instant} {o : Observed} (h : Metered due o) :
    GivesBack due o where
  waiting := by
    intro hpaused
    rw [h.paused] at hpaused
    exact h.waiting.mp hpaused
  extended := by
    intro hrunning m _
    rw [h.paused] at hrunning
    rw [Stopwatch.reading_of_idle hrunning]
    exact h.extended

/-- A ticket that does not wait has a running clock. -/
theorem Metered.running {due : Instant} {o : Observed} (h : Metered due o)
    (hstatus : o.ticket.status ≠ .waitingForUser) : o.watch.since = none := by
  cases hsince : o.watch.since with
  | none => rfl
  | some since => exact absurd (h.waiting.mp (by rw [hsince]; rfl)) hstatus

/-- A ticket that waits has been stopped at some instant. -/
theorem Metered.stopped {due : Instant} {o : Observed} (h : Metered due o)
    (hstatus : o.ticket.status = .waitingForUser) : ∃ since, o.watch.since = some since :=
  Option.isSome_iff_exists.mp (h.waiting.mpr hstatus)

section moves

variable {due now : Instant} {o : Observed} {t' : Ticket}

/-- The ticket waits after the call exactly when it did before, with the same clock. -/
theorem Metered.stay (h : Metered due o) (hpolicy : t'.appliedSlaPolicy = o.ticket.appliedSlaPolicy)
    (hdue : t'.resolutionDueAt = o.ticket.resolutionDueAt)
    (hpaused : t'.slaPausedAt = o.ticket.slaPausedAt)
    (hstatus : t'.status = .waitingForUser ↔ o.ticket.status = .waitingForUser) :
    Metered due ⟨t', o.watch.observe o.ticket.status t'.status now, now⟩ := by
  have hwatch : o.watch.observe o.ticket.status t'.status now = o.watch := by
    unfold Stopwatch.observe
    split
    · rfl
    · rename_i hmoved
      have hbefore : o.ticket.status ≠ .waitingForUser := fun hwait =>
        hmoved (hwait.trans (hstatus.mpr hwait).symm)
      rw [if_neg fun hwait => hbefore (hstatus.mp hwait),
        Stopwatch.leave_of_idle (h.running hbefore)]
  constructor
  · rw [hpolicy]
    exact h.pausing
  · rw [hdue, hwatch]
    exact h.extended
  · rw [hpaused, hwatch]
    exact h.paused
  · rw [hwatch, hstatus]
    exact h.waiting

/-- The ticket starts to wait and its clock is stopped. -/
theorem Metered.enter (h : Metered due o) (hpolicy : t'.appliedSlaPolicy = o.ticket.appliedSlaPolicy)
    (hdue : t'.resolutionDueAt = o.ticket.resolutionDueAt)
    (hbefore : o.ticket.status ≠ .waitingForUser) (hafter : t'.status = .waitingForUser)
    (hpaused : t'.slaPausedAt = some now) :
    Metered due ⟨t', o.watch.observe o.ticket.status t'.status now, now⟩ := by
  have hwatch : o.watch.observe o.ticket.status t'.status now =
      { o.watch with since := some now } := by
    unfold Stopwatch.observe
    rw [hafter, if_neg hbefore, if_pos rfl, Stopwatch.leave_of_idle (h.running hbefore)]
  constructor
  · rw [hpolicy]
    exact h.pausing
  · rw [hdue, hwatch]
    exact h.extended
  · rw [hpaused, hwatch]
  · rw [hwatch]
    exact iff_of_true rfl hafter

/-- The ticket stops waiting, and its clock is resumed with the stay added. -/
theorem Metered.exit (h : Metered due o) (hpolicy : t'.appliedSlaPolicy = o.ticket.appliedSlaPolicy)
    {since : Instant} (hsince : o.watch.since = some since)
    (hdue : t'.resolutionDueAt =
      o.ticket.resolutionDueAt.map (· + wholeSeconds since now * second))
    (hafter : t'.status ≠ .waitingForUser) (hpaused : t'.slaPausedAt = none) :
    Metered due ⟨t', o.watch.observe o.ticket.status t'.status now, now⟩ := by
  have hbefore : o.ticket.status = .waitingForUser := h.waiting.mp (by rw [hsince]; rfl)
  have hwatch : o.watch.observe o.ticket.status t'.status now =
      ⟨none, o.watch.total + wholeSeconds since now⟩ := by
    unfold Stopwatch.observe Stopwatch.leave
    rw [if_neg fun heq => hafter (heq.symm.trans hbefore), if_neg hafter, hsince]
  constructor
  · rw [hpolicy]
    exact h.pausing
  · rw [hdue, hwatch, h.extended, Option.map_some, Int.add_mul, Int.add_assoc]
  · rw [hpaused, hwatch]
  · rw [hwatch]
    exact iff_of_false (by simp) hafter

end moves

/-! ## One step -/

section steps

variable {due now : Instant} {o : Observed} {t' : Ticket}

theorem metered_addUserReply {user : Actor} (h : Metered due o)
    (hcall : addUserReply user now o.ticket = .ok t') :
    Metered due ⟨t', o.watch.observe o.ticket.status t'.status now, now⟩ := by
  obtain ⟨-, -, rfl⟩ := addUserReply_ok_iff.mp hcall
  by_cases hwait : o.ticket.status = .waitingForUser
  · obtain ⟨since, hsince⟩ := h.stopped hwait
    refine h.exit (by simp) hsince ?_ (by simp) (by simp)
    simp [resolutionDueAt_resumeSlaIfNeeded now (h.paused.trans hsince)]
  · have hrunning := h.paused.trans (h.running hwait)
    refine h.stay (by simp) ?_ ?_ (by simp [hwait]) <;>
      simp [resumeSlaIfNeeded_of_running now hrunning]

theorem metered_addAdminReply {admin : Actor} (h : Metered due o)
    (hcall : addAdminReply admin now o.ticket = .ok t') :
    Metered due ⟨t', o.watch.observe o.ticket.status t'.status now, now⟩ := by
  obtain ⟨-, hallowed, rfl⟩ := addAdminReply_ok_iff.mp hcall
  have hwait : o.ticket.status ≠ .waitingForUser := by
    intro hwait
    rw [hwait] at hallowed
    exact absurd hallowed (by decide)
  obtain ⟨policy, hpolicy, hpausing⟩ := h.pausing
  refine h.enter (by simp) (by simp) hwait (by simp) ?_
  refine slaPausedAt_pauseSlaIfNeeded now (by simpa using hpolicy) hpausing ?_
  simpa using h.paused.trans (h.running hwait)

/-- A call that only changes the status, without crossing WAITING_FOR_USER. -/
theorem metered_changeStatus {t : Ticket} {toStatus : TicketStatus} (h : Metered due o)
    (hpolicy : t.appliedSlaPolicy = o.ticket.appliedSlaPolicy)
    (hdue : t.resolutionDueAt = o.ticket.resolutionDueAt)
    (hpaused : t.slaPausedAt = o.ticket.slaPausedAt)
    (hkeep : toStatus = .waitingForUser ↔ o.ticket.status = .waitingForUser) :
    Metered due ⟨t.changeStatus toStatus now,
      o.watch.observe o.ticket.status (t.changeStatus toStatus now).status now, now⟩ :=
  h.stay (by simpa using hpolicy) (by simpa using hdue) (by simpa using hpaused) (by simpa using hkeep)

/-- **Step lemma.** A step that does not bypass the clock keeps it metered. -/
theorem metered_step (h : Metered due o) {op : TicketOp} (hop : ¬ Bypasses o.ticket op) :
    Metered due (o.step (now, op)) := by
  refine perform_induct (I := fun t' =>
    Metered due ⟨t', o.watch.observe o.ticket.status t'.status now, now⟩)
    (h.stay rfl rfl rfl Iff.rfl) fun t' hcall => ?_
  cases op with
  | addUserReply user => exact metered_addUserReply h hcall
  | addAdminReply admin => exact metered_addAdminReply h hcall
  | changeTicketStatus admin status =>
      obtain ⟨hadmin, toStatus, hvalue, rfl⟩ := changeTicketStatus_ok_iff.mp hcall
      refine metered_changeStatus h rfl rfl rfl ?_
      by_cases hsame : o.ticket.status = toStatus
      · rw [hsame]
      · have hcross := fun hwait => hop ⟨hadmin, toStatus, hvalue, hsame, hwait⟩
        exact iff_of_false (fun hto => hcross (Or.inr hto)) fun hfrom => hcross (Or.inl hfrom)
  | resolveTicket admin =>
      obtain ⟨hadmin, -, rfl⟩ := resolveTicket_ok_iff.mp hcall
      exact metered_changeStatus h rfl rfl rfl
        (iff_of_false (by decide) fun hwait => hop ⟨hadmin, hwait⟩)
  | closeTicket actor =>
      obtain ⟨hactor, -, rfl⟩ := closeTicket_ok_iff.mp hcall
      exact metered_changeStatus h rfl rfl rfl
        (iff_of_false (by decide) fun hwait => hop ⟨hactor, hwait⟩)
  | reopenTicket user =>
      obtain ⟨-, hreopenable, rfl⟩ := reopenTicket_ok_iff.mp hcall
      have hwait : o.ticket.status ≠ .waitingForUser := by
        intro hwait
        simp [Ticket.isReopenable, hwait] at hreopenable
      rw [resumeSlaIfNeeded_of_running now (h.paused.trans (h.running hwait))]
      exact metered_changeStatus h rfl rfl rfl (iff_of_false (by decide) hwait)
  | escalateTicket admin reason =>
      obtain ⟨hadmin, rfl⟩ := escalateTicket_ok_iff.mp hcall
      exact metered_changeStatus h rfl rfl rfl
        (iff_of_false (by decide) fun hwait => hop ⟨hadmin, hwait⟩)

/-- A ticket taken out of WAITING_FOR_USER by its status alone stays paused. -/
theorem not_givesBack_of_left (h : Metered due o) (hwait : o.ticket.status = .waitingForUser)
    {w : Stopwatch} (hpaused : t'.slaPausedAt = o.ticket.slaPausedAt)
    (hafter : t'.status ≠ .waitingForUser) : ¬ GivesBack due ⟨t', w, now⟩ := by
  intro hback
  obtain ⟨since, hsince⟩ := h.stopped hwait
  exact hafter (hback.waiting (by rw [hpaused, h.paused, hsince]; rfl))

/-- A ticket put into WAITING_FOR_USER by its status alone keeps its due time: one second
later the stay is longer than what was added. -/
theorem not_givesBack_of_entered (h : Metered due o) (hwait : o.ticket.status ≠ .waitingForUser)
    (hpaused : t'.slaPausedAt = o.ticket.slaPausedAt)
    (hdue : t'.resolutionDueAt = o.ticket.resolutionDueAt)
    (hafter : t'.status = .waitingForUser) :
    ¬ GivesBack due ⟨t', o.watch.observe o.ticket.status t'.status now, now⟩ := by
  intro hback
  have hlater := hback.extended (hpaused.trans (h.paused.trans (h.running hwait)))
    (now + second) (Int.le_add_of_nonneg_right (by decide))
  have hreading : (o.watch.observe o.ticket.status t'.status now).reading (now + second) =
      o.watch.total + 1 := by
    unfold Stopwatch.observe Stopwatch.reading
    rw [hafter, if_neg hwait, if_pos rfl, Stopwatch.leave_of_idle (h.running hwait)]
    exact congrArg (o.watch.total + ·) (wholeSeconds_add_second now)
  have hequal : o.watch.total * second = (o.watch.total + 1) * second := by
    rw [← hreading]
    exact Int.add_left_cancel (Option.some.inj ((hdue.trans h.extended).symm.trans hlater))
  unfold second at hequal
  omega

end steps

/-- A step that bypasses the clock ends the account. -/
theorem not_givesBack_of_bypasses {due now : Instant} {o : Observed} (h : Metered due o)
    {op : TicketOp} (hop : Bypasses o.ticket op) : ¬ GivesBack due (o.step (now, op)) := by
  -- each bypassing call is accepted and only changes the status
  cases op with
  | addUserReply user => exact hop.elim
  | addAdminReply admin => exact hop.elim
  | reopenTicket user => exact hop.elim
  | changeTicketStatus admin status =>
      obtain ⟨hadmin, toStatus, hvalue, hmoved, hcross⟩ := hop
      have hcall : changeTicketStatus admin status now o.ticket =
          .ok (o.ticket.changeStatus toStatus now) :=
        changeTicketStatus_ok_iff.mpr ⟨hadmin, toStatus, hvalue, rfl⟩
      have hafter := perform_eq_of_ok (.changeTicketStatus admin status) hcall
      unfold Observed.step
      rw [hafter]
      rcases hcross with hwait | rfl
      · refine not_givesBack_of_left h hwait (by simp) ?_
        rw [status_changeStatus]
        exact fun hto => hmoved (hwait.trans hto.symm)
      · exact not_givesBack_of_entered h hmoved (by simp) (by simp) (by simp)
  | resolveTicket admin =>
      obtain ⟨hadmin, hwait⟩ := hop
      have hcall : resolveTicket admin now o.ticket = .ok (o.ticket.changeStatus .resolved now) :=
        resolveTicket_ok_iff.mpr ⟨hadmin, by rw [hwait]; decide, rfl⟩
      have hafter := perform_eq_of_ok (.resolveTicket admin) hcall
      unfold Observed.step
      rw [hafter]
      exact not_givesBack_of_left h hwait (by simp) (by simp)
  | closeTicket actor =>
      obtain ⟨hactor, hwait⟩ := hop
      have hcall : closeTicket actor now o.ticket = .ok (o.ticket.changeStatus .closed now) :=
        closeTicket_ok_iff.mpr ⟨hactor, by rw [hwait]; decide, rfl⟩
      have hafter := perform_eq_of_ok (.closeTicket actor) hcall
      unfold Observed.step
      rw [hafter]
      exact not_givesBack_of_left h hwait (by simp) (by simp)
  | escalateTicket admin reason =>
      obtain ⟨hadmin, hwait⟩ := hop
      have hcall : escalateTicket admin reason now o.ticket = .ok _ :=
        escalateTicket_ok_iff.mpr ⟨hadmin, rfl⟩
      have hafter := perform_eq_of_ok (.escalateTicket admin reason) hcall
      unfold Observed.step
      rw [hafter]
      exact not_givesBack_of_left h hwait (by simp [Ticket.logSla]) (by simp)

/-! ## Whole runs -/

/-- A ticket submitted under a pausing policy starts metered. -/
theorem metered_start {owner : Actor} {calendar : Option (Instant → ℕ → Instant)}
    {policy : SLAPolicy} {created submitted : Instant} {ticket : Ticket}
    (hpausing : policy.pauseWhenWaitingForUser = true)
    (hsubmit : submitTicket owner calendar (some policy) submitted
      (createDraftTicket owner created) = .ok ticket) :
    Metered (calculateSlaDueAt calendar policy policy.resolutionMinutes submitted)
      (Observed.start ticket submitted) := by
  obtain ⟨-, -, rfl⟩ := submitTicket_ok_iff.mp hsubmit
  constructor
  · exact ⟨policy, rfl, hpausing⟩
  · show some _ = some _
    simp [Observed.start]
  · rfl
  · exact iff_of_false (by simp [Observed.start])
      (by simp [Observed.start, applySla, Ticket.logSla])

/-- **Paused time.** On a ticket submitted under a pausing policy, the clock is stopped only
while the ticket waits for the user, and gives all of that time back, in every state of a run
exactly when no step of it bypasses the clock. -/
theorem paused_time_given_back_iff {owner : Actor} {calendar : Option (Instant → ℕ → Instant)}
    {policy : SLAPolicy} {created submitted : Instant} {ticket : Ticket}
    (hpausing : policy.pauseWhenWaitingForUser = true)
    (hsubmit : submitTicket owner calendar (some policy) submitted
      (createDraftTicket owner created) = .ok ticket) (steps : List (Instant × TicketOp)) :
    (∀ pre, pre <+: steps →
        GivesBack (calculateSlaDueAt calendar policy policy.resolutionMinutes submitted)
          (run Observed.step (Observed.start ticket submitted) pre)) ↔
      Along Observed.step (fun o s => ¬ Bypasses o.ticket s.2)
        (Observed.start ticket submitted) steps := by
  have hstart := metered_start hpausing hsubmit
  rw [← along_states hstart.givesBack]
  refine along_congr (I := Metered _) ?_ ?_ hstart steps
  · rintro o ⟨now, op⟩ hmetered
    constructor
    · intro hback hop
      exact not_givesBack_of_bypasses hmetered hop hback
    · intro hop
      exact (metered_step hmetered hop).givesBack
  · rintro o ⟨now, op⟩ hmetered hback
    exact metered_step hmetered fun hop => not_givesBack_of_bypasses hmetered hop hback

/-- Answered after a minute, answered back ninety seconds later, resolved and reopened: the
two hours have become two hours and ninety seconds. -/
theorem paused_time_given_back_reopened :
    GivesBack (120 * 60 * second)
      (run Observed.step (Observed.start sampleTicket 0)
        [(60 * second, .addAdminReply sampleAdmin), (150 * second, .addUserReply sampleOwner),
          (200 * second, .resolveTicket sampleAdmin),
          (300 * second, .reopenTicket sampleOwner)]) ∧
    (run Observed.step (Observed.start sampleTicket 0)
        [(60 * second, .addAdminReply sampleAdmin), (150 * second, .addUserReply sampleOwner),
          (200 * second, .resolveTicket sampleAdmin),
          (300 * second, .reopenTicket sampleOwner)]).ticket.resolutionDueAt =
      some ((120 * 60 + 90) * second) := by
  refine ⟨?_, by decide +kernel⟩
  have hsubmit : submitTicket sampleOwner none (some samplePolicy) 0
      (createDraftTicket sampleOwner 0) = .ok sampleTicket := by decide +kernel
  refine (paused_time_given_back_iff rfl hsubmit _).mpr ?_ _ (List.prefix_refl _)
  refine ⟨id, id, fun hop => ?_, id, trivial⟩
  exact absurd hop.2 (by decide +kernel)

/-- Resolved while it waits for the user, the ticket is RESOLVED with its clock paused. -/
theorem paused_when_resolved :
    ¬ GivesBack (120 * 60 * second)
      (run Observed.step (Observed.start sampleTicket 0)
        [(60 * second, .addAdminReply sampleAdmin),
          (150 * second, .resolveTicket sampleAdmin)]) := by
  intro hback
  exact absurd (hback.waiting (by decide +kernel)) (by decide +kernel)

end SetadJang.SupportDesk
