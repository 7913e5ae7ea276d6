import SetadJang.Framework.Runs
import SetadJang.SupportDesk.Tickets
import Mathlib.Tactic.Common

/-!
# The window for reopening

A ticket may be reopened for seven days.  `is_reopenable` counts them from `closed_at` where
there is one, and a cycle of closing and reopening leaves that stamp behind: a ticket that is
resolved later has its window counted from the earlier closing.
-/

namespace SetadJang.SupportDesk

open SetadJang.Framework

/-- `timedelta(days=7)`. -/
def reopenWindow : ℤ := 7 * 24 * 60 * 60 * second

/-! ## What the services leave in the stamps -/

/-- The columns that decide whether a ticket may be reopened. -/
structure Settlement where
  ownerId : ℕ
  status : TicketStatus
  resolvedAt : Option Instant
  closedAt : Option Instant

namespace Settlement

/-- A status is entered at `now`; entering the current one is no change. -/
def enter (toStatus : TicketStatus) (now : Instant) (s : Settlement) : Settlement :=
  if s.status = toStatus then s
  else
    { s with
      status := toStatus
      resolvedAt := if toStatus = .resolved then some now else s.resolvedAt
      closedAt := if toStatus = .closed then some now else s.closedAt }

@[simp] theorem status_enter (toStatus : TicketStatus) (now : Instant) (s : Settlement) :
    (s.enter toStatus now).status = toStatus := by
  unfold enter
  split
  · assumption
  · rfl

@[simp] theorem ownerId_enter (toStatus : TicketStatus) (now : Instant) (s : Settlement) :
    (s.enter toStatus now).ownerId = s.ownerId := by
  unfold enter
  split <;> rfl

end Settlement

/-- The columns of a ticket. -/
def Ticket.settlement (t : Ticket) : Settlement := ⟨t.ownerId, t.status, t.resolvedAt, t.closedAt⟩

section columns

variable (t : Ticket) (now : Instant)

theorem settlement_changeStatus (toStatus : TicketStatus) :
    (t.changeStatus toStatus now).settlement = t.settlement.enter toStatus now := by
  have hstatus : t.settlement.status = t.status := rfl
  unfold Ticket.changeStatus Settlement.enter
  rw [hstatus]
  split <;> rfl

@[simp] theorem settlement_pauseSlaIfNeeded :
    (t.pauseSlaIfNeeded now).settlement = t.settlement := by
  unfold Ticket.pauseSlaIfNeeded
  split
  · rfl
  · split <;> rfl

@[simp] theorem settlement_resumeSlaIfNeeded :
    (t.resumeSlaIfNeeded now).settlement = t.settlement := by
  unfold Ticket.resumeSlaIfNeeded
  split <;> rfl

@[simp] theorem settlement_applySla (calendar : Option (Instant → ℕ → Instant))
    (policy : Option SLAPolicy) : (applySla calendar policy now t).settlement = t.settlement := by
  unfold applySla
  split <;> rfl

end columns

/-- A call on a ticket: its submission or a workflow operation. -/
inductive TicketCall
  | submitTicket (user : Actor) (calendar : Option (Instant → ℕ → Instant))
      (policy : Option SLAPolicy)
  | workflow (op : TicketOp)

/-- The ticket after the call at `now`; a raise leaves it alone. -/
def TicketCall.perform : TicketCall → Instant → Ticket → Ticket
  | .submitTicket user calendar policy, now, t =>
      commit t (SupportDesk.submitTicket user calendar policy now t)
  | .workflow op, now, t => op.perform now t

/-- Every accepted operation enters one status. -/
theorem TicketOp.call_enters {op : TicketOp} {now : Instant} {t t' : Ticket}
    (h : op.call now t = .ok t') :
    ∃ toStatus, t'.settlement = t.settlement.enter toStatus now := by
  cases op with
  | addUserReply user =>
      obtain ⟨-, -, rfl⟩ := addUserReply_ok_iff.mp h
      refine ⟨.waitingForAdmin, ?_⟩
      rw [settlement_changeStatus, ← settlement_resumeSlaIfNeeded t now]
      rfl
  | addAdminReply admin =>
      obtain ⟨-, -, rfl⟩ := addAdminReply_ok_iff.mp h
      refine ⟨.waitingForUser, ?_⟩
      rw [settlement_pauseSlaIfNeeded, settlement_changeStatus]
      rfl
  | changeTicketStatus admin status =>
      obtain ⟨-, toStatus, -, rfl⟩ := changeTicketStatus_ok_iff.mp h
      exact ⟨toStatus, settlement_changeStatus t now toStatus⟩
  | resolveTicket admin =>
      obtain ⟨-, -, rfl⟩ := resolveTicket_ok_iff.mp h
      exact ⟨.resolved, settlement_changeStatus t now .resolved⟩
  | closeTicket actor =>
      obtain ⟨-, -, rfl⟩ := closeTicket_ok_iff.mp h
      exact ⟨.closed, settlement_changeStatus t now .closed⟩
  | reopenTicket user =>
      obtain ⟨-, -, rfl⟩ := reopenTicket_ok_iff.mp h
      refine ⟨.reopened, ?_⟩
      rw [settlement_changeStatus, settlement_resumeSlaIfNeeded]
  | escalateTicket admin reason =>
      obtain ⟨-, rfl⟩ := escalateTicket_ok_iff.mp h
      refine ⟨.escalated, ?_⟩
      rw [settlement_changeStatus]
      rfl

theorem TicketCall.perform_enters (call : TicketCall) (now : Instant) (t : Ticket) :
    ∃ toStatus, (call.perform now t).settlement = t.settlement.enter toStatus now := by
  -- a refused call enters the status the ticket has
  have hrefused : ∃ toStatus, t.settlement = t.settlement.enter toStatus now := by
    refine ⟨t.status, ?_⟩
    unfold Settlement.enter
    exact (if_pos rfl).symm
  cases call with
  | workflow op =>
      exact perform_induct (I := fun t' => ∃ toStatus, t'.settlement = t.settlement.enter toStatus now)
        hrefused fun t' hcall => TicketOp.call_enters hcall
  | submitTicket user calendar policy =>
      show ∃ toStatus, (commit t (SupportDesk.submitTicket user calendar policy now t)).settlement =
        t.settlement.enter toStatus now
      cases hcall : SupportDesk.submitTicket user calendar policy now t with
      | error e => exact hrefused
      | ok t' =>
          obtain ⟨-, -, rfl⟩ := submitTicket_ok_iff.mp hcall
          refine ⟨.submitted, ?_⟩
          rw [commit, settlement_applySla, ← settlement_changeStatus]
          rfl

/-! ## A ticket and its changes of status -/

/-- A ticket with the changes of its status, the last one first, and the time of the last call. -/
structure Followed where
  ticket : Ticket
  changes : List (TicketStatus × Instant)
  clock : Instant

namespace Followed

/-- The ticket is created as a draft. -/
def start (owner : Actor) (created : Instant) : Followed :=
  ⟨createDraftTicket owner created, [], created⟩

/-- A call, at the instant it carries. -/
def step (f : Followed) (s : Instant × TicketCall) : Followed where
  ticket := s.2.perform s.1 f.ticket
  changes :=
    if (s.2.perform s.1 f.ticket).status = f.ticket.status then f.changes
    else ((s.2.perform s.1 f.ticket).status, s.1) :: f.changes
  clock := s.1

end Followed

/-- When the status was last entered. -/
def lastEntered (status : TicketStatus) (changes : List (TicketStatus × Instant)) :
    Option Instant :=
  (changes.find? (·.1 = status)).map Prod.snd

theorem lastEntered_cons (status toStatus : TicketStatus) (now : Instant)
    (changes : List (TicketStatus × Instant)) :
    lastEntered status ((toStatus, now) :: changes) =
      if toStatus = status then some now else lastEntered status changes := by
  unfold lastEntered
  by_cases heq : toStatus = status
  · rw [List.find?_cons_of_pos (by simpa using heq), if_pos heq]
    rfl
  · rw [List.find?_cons_of_neg (by simpa using heq), if_neg heq]

/-- The stamps of the ticket are those of its changes. -/
structure Stamped (owner : Actor) (f : Followed) : Prop where
  ownerId : f.ticket.ownerId = owner.pk
  status : ∀ change, f.changes.head? = some change → f.ticket.status = change.1
  resolvedAt : f.ticket.resolvedAt = lastEntered .resolved f.changes
  closedAt : f.ticket.closedAt = lastEntered .closed f.changes
  descending : f.changes.Pairwise fun later earlier => earlier.2 ≤ later.2
  past : ∀ change ∈ f.changes, change.2 ≤ f.clock

theorem stamped_start (owner : Actor) (created : Instant) :
    Stamped owner (Followed.start owner created) where
  ownerId := rfl
  status := by
    intro change h
    cases h
  resolvedAt := rfl
  closedAt := rfl
  descending := List.Pairwise.nil
  past := by
    intro change h
    cases h

/-- **Step lemma.** A call that is not before the last one keeps the stamps. -/
theorem stamped_step {owner : Actor} {f : Followed} (h : Stamped owner f)
    (s : Instant × TicketCall) (hclock : f.clock ≤ s.1) : Stamped owner (f.step s) := by
  obtain ⟨now, call⟩ := s
  obtain ⟨toStatus, henter⟩ := call.perform_enters now f.ticket
  have hstatus : (call.perform now f.ticket).status = toStatus :=
    (congrArg Settlement.status henter).trans (Settlement.status_enter _ _ _)
  have howner : (call.perform now f.ticket).ownerId = f.ticket.ownerId :=
    (congrArg Settlement.ownerId henter).trans (Settlement.ownerId_enter _ _ _)
  have hpast : ∀ change ∈ f.changes, change.2 ≤ now := fun change hchange =>
    (h.past change hchange).trans hclock
  by_cases hsame : f.ticket.status = toStatus
  · have hchanges : (f.step (now, call)).changes = f.changes := if_pos (hstatus.trans hsame.symm)
    rw [show f.ticket.settlement.enter toStatus now = f.ticket.settlement from if_pos hsame]
      at henter
    refine ⟨howner.trans h.ownerId, ?_, ?_, ?_, ?_, ?_⟩ <;> rw [hchanges]
    · intro change hchange
      exact (congrArg Settlement.status henter).trans (h.status change hchange)
    · exact (congrArg Settlement.resolvedAt henter).trans h.resolvedAt
    · exact (congrArg Settlement.closedAt henter).trans h.closedAt
    · exact h.descending
    · exact hpast
  · have hchanges : (f.step (now, call)).changes = (toStatus, now) :: f.changes := by
      show (if _ then _ else _) = _
      rw [hstatus, if_neg (Ne.symm hsame)]
    rw [show f.ticket.settlement.enter toStatus now = _ from if_neg hsame] at henter
    refine ⟨howner.trans h.ownerId, ?_, ?_, ?_, ?_, ?_⟩ <;> rw [hchanges]
    · intro change hchange
      obtain rfl := Option.some.inj hchange
      exact hstatus
    · rw [lastEntered_cons, ← h.resolvedAt]
      exact congrArg Settlement.resolvedAt henter
    · rw [lastEntered_cons, ← h.closedAt]
      exact congrArg Settlement.closedAt henter
    · exact List.pairwise_cons.mpr ⟨hpast, h.descending⟩
    · exact List.forall_mem_cons.mpr ⟨le_refl now, hpast⟩

/-- Times that do not go back. -/
theorem along_of_isChain {f : Followed} {calls : List (Instant × TicketCall)}
    (h : (f.clock :: calls.map Prod.fst).IsChain (· ≤ ·)) :
    Along Followed.step (fun f s => f.clock ≤ s.1) f calls := by
  induction calls generalizing f with
  | nil => trivial
  | cons s calls ih =>
      rw [List.map_cons, List.isChain_cons_cons] at h
      exact ⟨h.1, ih h.2⟩

theorem stamped_run (owner : Actor) {created : Instant} {calls : List (Instant × TicketCall)}
    (h : (created :: calls.map Prod.fst).IsChain (· ≤ ·)) :
    Stamped owner (run Followed.step (Followed.start owner created) calls) :=
  invariant_along (I := Stamped owner) (fun _ s hf hs => stamped_step hf s hs) (stamped_start owner created)
    (along_of_isChain (f := Followed.start owner created) h)

/-! ## The window -/

theorem reopens_iff {user : Actor} {u : Instant} {t : Ticket} (howner : t.ownerId = user.pk) :
    (∃ t', reopenTicket user u t = .ok t') ↔ t.isReopenable u = true := by
  simp only [reopenTicket_ok_iff, howner, true_and]
  constructor
  · rintro ⟨t', h, -⟩
    exact h
  · exact fun h => ⟨_, h, rfl⟩

/-- The last change of a list with descending times is the latest. -/
theorem Stamped.closed_le {owner : Actor} {f : Followed} (h : Stamped owner f)
    {change : TicketStatus × Instant} (hlast : f.changes.head? = some change) {c : Instant}
    (hclosed : lastEntered .closed f.changes = some c) : c ≤ change.2 := by
  obtain ⟨rest, hchanges⟩ := List.head?_eq_some_iff.mp hlast
  obtain ⟨entry, hentry, rfl⟩ := Option.map_eq_some_iff.mp hclosed
  have hmem := List.mem_of_find?_eq_some hentry
  have hdescending := h.descending
  rw [hchanges] at hmem hdescending
  rcases List.mem_cons.mp hmem with rfl | hmem
  · exact le_refl _
  · exact (List.pairwise_cons.mp hdescending).1 entry hmem

/-- The stamp the window is counted from. -/
theorem Stamped.isReopenable_iff {owner : Actor} {f : Followed} (h : Stamped owner f)
    {status : TicketStatus} {t : Instant} (hlast : f.changes.head? = some (status, t))
    (hsettled : status = .resolved ∨ status = .closed) (u : Instant) :
    f.ticket.isReopenable u = true ↔
      u < (lastEntered .closed f.changes).getD t + reopenWindow := by
  obtain ⟨rest, hchanges⟩ := List.head?_eq_some_iff.mp hlast
  have hstatus := h.status _ hlast
  have hreference : f.ticket.closedAt.or f.ticket.resolvedAt =
      some ((lastEntered .closed f.changes).getD t) := by
    rw [h.closedAt, h.resolvedAt]
    rcases hsettled with rfl | rfl
    · cases lastEntered .closed f.changes with
      | none =>
          rw [hchanges, lastEntered_cons, if_pos rfl]
          rfl
      | some c => rfl
    · rw [hchanges, lastEntered_cons, if_pos rfl]
      rfl
  unfold Ticket.isReopenable
  rw [hreference, hstatus]
  rcases hsettled with rfl | rfl <;>
    simp [reopenWindow]

/-- **Reopen window.** After a settlement at `t` the owner can reopen the ticket until seven
days after `t`, except from seven days after an earlier closing on. -/
theorem reopen_window_iff (owner : Actor) {created : Instant}
    {calls : List (Instant × TicketCall)}
    (hclock : (created :: calls.map Prod.fst).IsChain (· ≤ ·)) {status : TicketStatus} {t : Instant}
    (hlast : (run Followed.step (Followed.start owner created) calls).changes.head? =
      some (status, t))
    (hsettled : status = .resolved ∨ status = .closed) {user : Actor} (huser : user.pk = owner.pk)
    (u : Instant) :
    ((∃ t', reopenTicket user u
          (run Followed.step (Followed.start owner created) calls).ticket = .ok t') ↔
        u < t + reopenWindow) ↔
      ∀ c, lastEntered .closed (run Followed.step (Followed.start owner created) calls).changes =
        some c → u < c + reopenWindow ∨ t + reopenWindow ≤ u := by
  have hstamped := stamped_run owner hclock
  rw [reopens_iff (hstamped.ownerId.trans huser.symm), hstamped.isReopenable_iff hlast hsettled]
  cases hclosed : lastEntered .closed
      (run Followed.step (Followed.start owner created) calls).changes with
  | none => simp
  | some c =>
      have hle : c ≤ t := hstamped.closed_le hlast hclosed
      have hearlier : u < c + reopenWindow → u < t + reopenWindow := fun h =>
        h.trans_le (Int.add_le_add_right hle _)
      simp only [Option.getD_some, Option.some.injEq, forall_eq', ← not_lt]
      tauto

/-- Closed by its owner and reopened on the first day, resolved eight days later. -/
def resolvedAgain : List (Instant × TicketCall) :=
  [(1 * second, .submitTicket sampleOwner none none),
    (2 * second, .workflow (.addAdminReply sampleAdmin)),
    (3 * second, .workflow (.closeTicket sampleOwner)),
    (4 * second, .workflow (.reopenTicket sampleOwner)),
    (8 * 24 * 60 * 60 * second, .workflow (.resolveTicket sampleAdmin))]

/-- One second after the resolution the window is over. -/
theorem resolved_again_not_reopened :
    (run Followed.step (Followed.start sampleOwner 0) resolvedAgain).changes.head? =
        some (.resolved, 8 * 24 * 60 * 60 * second) ∧
      ¬ ((∃ t', reopenTicket sampleOwner ((8 * 24 * 60 * 60 + 1) * second)
            (run Followed.step (Followed.start sampleOwner 0) resolvedAgain).ticket = .ok t') ↔
          (8 * 24 * 60 * 60 + 1) * second < 8 * 24 * 60 * 60 * second + reopenWindow) := by
  refine ⟨by decide +kernel, fun hwindow => ?_⟩
  have hreopens := hwindow.mpr (by decide)
  rw [reopens_iff (by decide +kernel)] at hreopens
  revert hreopens
  decide +kernel

/-- The window of the first closing, on its sixth day. -/
theorem reopen_window_first_closing :
    ∃ t', reopenTicket sampleOwner (6 * 24 * 60 * 60 * second)
      (run Followed.step (Followed.start sampleOwner 0) (resolvedAgain.take 3)).ticket = .ok t' := by
  have hwindow := @reopen_window_iff sampleOwner 0 (resolvedAgain.take 3) (by decide) .closed
    (3 * second) (by decide +kernel) (Or.inr rfl) sampleOwner rfl (6 * 24 * 60 * 60 * second)
  refine (hwindow.mpr fun c hc => ?_).mpr (by decide)
  have hclosed : lastEntered .closed
      (run Followed.step (Followed.start sampleOwner 0) (resolvedAgain.take 3)).changes =
        some (3 * second) := by decide +kernel
  obtain rfl := Option.some.inj (hclosed.symm.trans hc)
  exact Or.inl (by decide)

end SetadJang.SupportDesk
