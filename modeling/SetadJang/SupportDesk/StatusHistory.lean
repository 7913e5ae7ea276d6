import SetadJang.Framework.EventLog
import SetadJang.SupportDesk.DeskRuns

/-!
# The status history

Creation and `_change_status` write a row of the history for every status they set.  The sweep
escalates a ticket by saving its status, and writes an SLA event but no row: from then on the
rows of the ticket end in a status it has left.
-/

namespace SetadJang.SupportDesk

open SetadJang.Framework

/-! ## Rows -/

/-- `SupportTicketStatusHistory`. -/
structure StatusHistory where
  ticket : ℕ
  changedBy : Option ℕ
  fromStatus : String
  toStatus : String
deriving DecidableEq, Repr

structure AuditedDesk where
  desk : Desk
  history : List StatusHistory

/-- What `_change_status` writes: nothing where the status stays. -/
def changeRows (desk : Desk) (k : ℕ) (actor : Actor) (toStatus : TicketStatus) :
    List StatusHistory :=
  match desk.tickets[k]? with
  | none => []
  | some t =>
      if t.workflow.status = toStatus then []
      else [⟨k, some actor.pk, t.workflow.status.value, toStatus.value⟩]

/-- The rows an accepted call writes. -/
def historyOf (desk : Desk) : StoreAct → List StatusHistory
  | .createTicket owner _ _ _ _ _ _ _ _ =>
      [⟨desk.tickets.length, some owner.pk, "", TicketStatus.draft.value⟩]
  | .submitTicket k user _ _ _ => changeRows desk k user .submitted
  | .workflow k op _ =>
      match op.toStatus with
      | none => []
      | some toStatus => changeRows desk k op.actor toStatus
  | _ => []

/-- One call; a raise rolls it back.  The sweep writes no row. -/
def auditedStep (rules : TextRules) (s : AuditedDesk) : DeskCall → AuditedDesk
  | .store act =>
      match storeCall rules s.desk act with
      | .ok desk => ⟨desk, s.history ++ historyOf s.desk act⟩
      | .error _ => s
  | .markSlaBreaches now => ⟨s.desk.markSlaBreaches now, s.history⟩

namespace AuditedDesk

def empty : AuditedDesk := ⟨Desk.empty, []⟩

/-- The rows of one ticket in the order of their creation. -/
def rowsOf (s : AuditedDesk) (k : ℕ) : List StatusHistory :=
  s.history.filter fun row => row.ticket == k

end AuditedDesk

/-- The rows form a chain that begins with a creation and ends in the status. -/
abbrev Story (rows : List StatusHistory) (status : TicketStatus) : Prop :=
  Replays (fun row => row.fromStatus = "") StatusHistory.fromStatus StatusHistory.toStatus rows
    status.value

/-- The rows of every ticket tell how it came to its status. -/
def HistoryReplays (s : AuditedDesk) : Prop :=
  ∀ (k : ℕ) t, s.desk.tickets[k]? = some t → Story (s.rowsOf k) t.workflow.status

/-- The call is not a sweep that escalates a ticket. -/
def NoneEscalated (s : AuditedDesk) : DeskCall → Prop
  | .store _ => True
  | .markSlaBreaches now => ∀ t ∈ s.desk.tickets, ¬ Escalates now t.workflow

/-! ## One call -/

/-- No row is about a ticket to come. -/
def RowsPlaced (s : AuditedDesk) : Prop := ∀ row ∈ s.history, row.ticket < s.desk.tickets.length

section step

variable {s : AuditedDesk} {desk' : Desk}

theorem historyOf_taxonomy {act : StoreAct} (h : act.onTaxonomy = true) (desk : Desk) :
    historyOf desk act = [] := by
  cases act with
  | createCategory _ _ | updateCategory _ _ | deactivateCategory _ => rfl
  | _ => cases h

theorem historyOf_moved {act : StoreAct} {k : ℕ} {actor : Actor} {toStatus : TicketStatus}
    (h : act.statusCall = some (k, actor, toStatus)) (desk : Desk) :
    historyOf desk act = changeRows desk k actor toStatus := by
  cases act with
  | submitTicket j user calendar policy now =>
      obtain ⟨rfl, rfl, rfl⟩ := h
      rfl
  | workflow j op now =>
      obtain ⟨target, htarget, heq⟩ := Option.map_eq_some_iff.mp h
      obtain ⟨rfl, rfl, rfl⟩ := heq
      rw [historyOf, htarget]
  | _ => cases h

/-- Rewriting one ticket and writing rows of it alone concerns no other ticket. -/
theorem historyReplays_set {k : ℕ} {t t' : SupportTicket} {rows : List StatusHistory}
    (h : HistoryReplays s) (ht : s.desk.tickets[k]? = some t) (hrows : ∀ row ∈ rows, row.ticket = k)
    (hk : Story (s.rowsOf k ++ rows) t'.workflow.status) :
    HistoryReplays ⟨{ s.desk with tickets := s.desk.tickets.set k t' }, s.history ++ rows⟩ := by
  intro j u hu
  unfold AuditedDesk.rowsOf
  rw [List.filter_append]
  by_cases hjk : j = k
  · subst hjk
    rw [List.getElem?_set_self (List.getElem?_eq_some_iff.mp ht).1] at hu
    obtain rfl := Option.some.inj hu
    rw [List.filter_eq_self.mpr fun row hrow => beq_iff_eq.mpr (hrows row hrow)]
    exact hk
  · rw [List.getElem?_set_ne (Ne.symm hjk)] at hu
    rw [List.filter_eq_nil_iff.mpr fun row hrow heq =>
      hjk ((beq_iff_eq.mp heq).symm.trans (hrows row hrow)), List.append_nil]
    exact h j u hu

/-- A transition of `_change_status` continues the story of its ticket. -/
theorem replays_changeRows {k : ℕ} {actor : Actor} {t t' : SupportTicket} (h : HistoryReplays s)
    (ht : s.desk.tickets[k]? = some t) :
    Story (s.rowsOf k ++ changeRows s.desk k actor t'.workflow.status) t'.workflow.status := by
  unfold changeRows
  rw [ht]
  dsimp only
  split
  · rename_i hsame
    rw [List.append_nil, ← hsame]
    exact h k t ht
  · exact (h k t ht).append (e := ⟨k, some actor.pk, t.workflow.status.value, _⟩) rfl

theorem ticket_changeRows {k : ℕ} {actor : Actor} {toStatus : TicketStatus} {desk : Desk} :
    ∀ row ∈ changeRows desk k actor toStatus, row.ticket = k := by
  intro row hrow
  unfold changeRows at hrow
  split at hrow
  · cases hrow
  · split at hrow
    · cases hrow
    · rw [List.mem_singleton.mp hrow]

/-- Every service keeps the chains. -/
theorem historyReplays_store {act : StoreAct} (h : HistoryReplays s) (hplaced : RowsPlaced s)
    (heffect : TicketEffect s.desk act desk') :
    HistoryReplays ⟨desk', s.history ++ historyOf s.desk act⟩ := by
  cases heffect with
  | taxonomy rows hact =>
      rw [historyOf_taxonomy hact, List.append_nil]
      exact h
  | created t hworkflow =>
      intro k u hu
      unfold AuditedDesk.rowsOf
      rw [List.filter_append, historyOf]
      rcases getElem?_concat_cases hu with hold | ⟨rfl, rfl⟩
      · have hne := (List.getElem?_eq_some_iff.mp hold).1.ne'
        rw [List.filter_cons_of_neg (by simpa using hne), List.filter_nil, List.append_nil]
        exact h k u hold
      · rw [List.filter_eq_nil_iff.mpr fun row hrow heq =>
          (hplaced row hrow).ne (beq_iff_eq.mp heq), List.nil_append,
          List.filter_cons_of_pos (by simp), List.filter_nil, hworkflow]
        exact replays_singleton rfl
  | drafted t t' ht hworkflow =>
      show HistoryReplays ⟨_, s.history ++ []⟩
      refine historyReplays_set h ht (fun row hrow => by cases hrow) ?_
      rw [List.append_nil, hworkflow]
      exact h _ t ht
  | assigned t t' ht hworkflow =>
      show HistoryReplays ⟨_, s.history ++ []⟩
      refine historyReplays_set h ht (fun row hrow => by cases hrow) ?_
      rw [List.append_nil, hworkflow]
      exact h _ t ht
  | moved t t' hact ht hstatus =>
      rw [historyOf_moved hact]
      refine historyReplays_set h ht ticket_changeRows ?_
      rw [← hstatus]
      exact replays_changeRows h ht

theorem rowsPlaced_step (rules : TextRules) (h : RowsPlaced s) (call : DeskCall) :
    RowsPlaced (auditedStep rules s call) := by
  cases call with
  | markSlaBreaches now =>
      intro row hrow
      rw [auditedStep, Desk.markSlaBreaches, List.length_map]
      exact h row hrow
  | store act =>
      unfold auditedStep
      dsimp only
      split
      · rename_i desk' hcall
        intro row hrow
        rcases List.mem_append.mp hrow with hold | hnew
        · refine (h row hold).trans_le ?_
          cases storeCall_effect hcall <;> simp
        · cases storeCall_effect hcall with
          | taxonomy rows hact =>
              rw [historyOf_taxonomy hact] at hnew
              cases hnew
          | created t =>
              rw [List.mem_singleton.mp hnew]
              simp
          | drafted t t' ht => cases hnew
          | assigned t t' ht => cases hnew
          | moved t t' hact ht =>
              rw [historyOf_moved hact] at hnew
              rw [ticket_changeRows row hnew, List.length_set]
              exact (List.getElem?_eq_some_iff.mp ht).1
      · exact h

/-- A sweep keeps the chains exactly when it escalates no ticket. -/
theorem historyReplays_sweep_iff {now : Instant} (h : HistoryReplays s) :
    HistoryReplays ⟨s.desk.markSlaBreaches now, s.history⟩ ↔
      ∀ t ∈ s.desk.tickets, ¬ Escalates now t.workflow := by
  constructor
  · intro hafter t ht hescalates
    obtain ⟨k, hk⟩ := List.mem_iff_getElem?.mp ht
    have hswept : (s.desk.markSlaBreaches now).tickets[k]? = some (t.sweep now) := by
      rw [Desk.markSlaBreaches, List.getElem?_map, hk]
      rfl
    rcases status_sweep now t with ⟨hnot, -⟩ | ⟨-, hstatus⟩
    · exact hnot hescalates
    · have hlast := hafter k _ hswept
      rw [hstatus] at hlast
      have hvalue := (h k t hk).now_unique hlast
      have hsame := congrArg TicketStatus.ofValue? hvalue
      rw [TicketStatus.ofValue?_value, TicketStatus.ofValue?_value] at hsame
      exact hescalates.2.1 (Option.some.inj hsame)
  · intro hnone k u hu
    obtain ⟨t, ht, rfl⟩ : ∃ t, s.desk.tickets[k]? = some t ∧ t.sweep now = u := by
      rw [Desk.markSlaBreaches, List.getElem?_map] at hu
      exact Option.map_eq_some_iff.mp hu
    rcases status_sweep now t with ⟨-, hstatus⟩ | ⟨hescalates, -⟩
    · rw [hstatus]
      exact h k t ht
    · exact absurd hescalates (hnone t (List.mem_of_getElem? ht))

theorem historyReplays_step_iff {rules : TextRules} (h : HistoryReplays s) (hplaced : RowsPlaced s)
    (call : DeskCall) :
    HistoryReplays (auditedStep rules s call) ↔ NoneEscalated s call := by
  cases call with
  | markSlaBreaches now => exact historyReplays_sweep_iff h
  | store act =>
      refine iff_of_true ?_ trivial
      unfold auditedStep
      dsimp only
      split
      · rename_i desk' hcall
        exact historyReplays_store h hplaced (storeCall_effect hcall)
      · exact h

end step

/-! ## Every run -/

theorem historyReplays_empty : HistoryReplays AuditedDesk.empty := by
  intro k t ht
  cases ht

/-- The history of every ticket replays to its status exactly as long as no sweep escalates a
ticket. -/
theorem history_replays_iff (rules : TextRules) (calls : List DeskCall) :
    (∀ pre, pre <+: calls → HistoryReplays (run (auditedStep rules) AuditedDesk.empty pre)) ↔
      Along (auditedStep rules) NoneEscalated AuditedDesk.empty calls := by
  rw [← along_states historyReplays_empty]
  refine along_congr (I := fun s => HistoryReplays s ∧ RowsPlaced s) ?_ ?_ ?_ calls
  · intro s call hs
    exact historyReplays_step_iff hs.1 hs.2 call
  · intro s call hs hreplays
    exact ⟨hreplays, rowsPlaced_step rules hs.2 call⟩
  · exact ⟨historyReplays_empty, fun row hrow => by cases hrow⟩

/-- A ticket whose first answer is overdue, under a policy that escalates. -/
def overdueCalls : List DeskCall :=
  [.store (.createCategory { department := 1, title := "Network" } sampleUuid),
    .store (.createTicket sampleOwner ⟨1, some ⟨1, none⟩, some 0, "normal", "minor"⟩ "Slow"
      "Very slow" none none none none 0),
    .store (.submitTicket 0 sampleOwner none (some samplePolicy) 0),
    .markSlaBreaches (60 * 60 * second)]

/-- The sweep escalates the ticket, whose last row still says SUBMITTED. -/
theorem escalation_without_row :
    ¬ HistoryReplays (run (auditedStep wordRules) AuditedDesk.empty overdueCalls) := by
  intro h
  have hticket : ((run (auditedStep wordRules) AuditedDesk.empty overdueCalls).desk.tickets[0]?).map
      (·.workflow.status) = some .escalated := by decide +kernel
  obtain ⟨t, ht, hstatus⟩ := Option.map_eq_some_iff.mp hticket
  obtain ⟨last, hlast, hto⟩ := (h 0 t ht).ends
  have hrow : ((run (auditedStep wordRules) AuditedDesk.empty overdueCalls).rowsOf 0).getLast? =
      some ⟨0, some 1, "draft", "submitted"⟩ := by decide +kernel
  obtain rfl := Option.some.inj (hlast.symm.trans hrow)
  rw [hstatus] at hto
  revert hto
  decide

end SetadJang.SupportDesk
