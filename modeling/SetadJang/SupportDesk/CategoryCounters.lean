import SetadJang.SupportDesk.DeskRuns

/-!
# The ticket counters of the categories

`sync_category_counters` counts the tickets of one category afresh.  It is called for the
category of a new ticket and for the category an updated draft ends up in: not for the one the
draft has left, and not where a status enters or leaves the open queue.
-/

namespace SetadJang.SupportDesk

open SetadJang.Framework

/-! ## Counters -/

/-- `tickets_count` and `open_tickets_count`. -/
structure CategoryCounters where
  ticketsCount : ℕ
  openTicketsCount : ℕ
deriving DecidableEq, Repr

/-- The desk with the counters its categories store. -/
structure CountedDesk where
  desk : Desk
  counters : List CategoryCounters

def SupportTicket.countsIn (category : ℕ) (t : SupportTicket) : Bool := t.category == category

def SupportTicket.countsOpenIn (category : ℕ) (t : SupportTicket) : Bool :=
  t.category == category && t.workflow.inOpenQueue

/-- What `sync_category_counters` counts. -/
def countersOf (tickets : List SupportTicket) (category : ℕ) : CategoryCounters :=
  ⟨tickets.countP (SupportTicket.countsIn category),
    tickets.countP (SupportTicket.countsOpenIn category)⟩

/-- `sync_category_counters`. -/
def syncCategoryCounters (tickets : List SupportTicket) (category : ℕ)
    (counters : List CategoryCounters) : List CategoryCounters :=
  counters.set category (countersOf tickets category)

/-- The counters after an accepted call, which left the desk as given. -/
def countersAfter (desk : Desk) (counters : List CategoryCounters) :
    StoreAct → List CategoryCounters
  | .createCategory _ _ => counters ++ [⟨0, 0⟩]
  | .createTicket .. =>
      match desk.tickets.getLast? with
      | none => counters
      | some t => syncCategoryCounters desk.tickets t.category counters
  | .updateDraftTicket k _ _ _ =>
      match desk.tickets[k]? with
      | none => counters
      | some t => syncCategoryCounters desk.tickets t.category counters
  | _ => counters

/-- One call; a raise rolls it back. -/
def countedStep (rules : TextRules) (s : CountedDesk) : DeskCall → CountedDesk
  | .store act =>
      match storeCall rules s.desk act with
      | .ok desk => ⟨desk, countersAfter desk s.counters act⟩
      | .error _ => s
  | .markSlaBreaches now => ⟨s.desk.markSlaBreaches now, s.counters⟩

def CountedDesk.empty : CountedDesk := ⟨Desk.empty, []⟩

/-- The counters of every category are the numbers of its tickets and of its open tickets. -/
def CountersTrue (s : CountedDesk) : Prop :=
  ∀ (c : ℕ) row, s.counters[c]? = some row → row = countersOf s.desk.tickets c

/-- The call keeps every draft in its category, and every ticket on its side of the open
queue. -/
def KeepsQueues (desk : Desk) : StoreAct → Prop
  | .updateDraftTicket k _ fields _ =>
      ∀ t, desk.tickets[k]? = some t → (fields.route t).category = t.category
  | act => ∀ k actor toStatus, act.statusCall = some (k, actor, toStatus) →
      ∀ t, desk.tickets[k]? = some t →
        (toStatus ∈ terminalStatuses ↔ t.workflow.status ∈ terminalStatuses)

/-- An accepted call keeps the queues. -/
def StaysCounted (rules : TextRules) (s : CountedDesk) : DeskCall → Prop
  | .store act => ∀ desk', storeCall rules s.desk act = .ok desk' → KeepsQueues s.desk act
  | .markSlaBreaches _ => True

/-! ## Counting -/

section counting

variable {tickets : List SupportTicket} {t t' : SupportTicket} {k c : ℕ}

theorem countersOf_set_eq_iff (ht : tickets[k]? = some t) :
    countersOf (tickets.set k t') c = countersOf tickets c ↔
      t'.countsIn c = t.countsIn c ∧ t'.countsOpenIn c = t.countsOpenIn c := by
  rw [countersOf, countersOf, CategoryCounters.mk.injEq, countP_set_eq_iff ht,
    countP_set_eq_iff ht]

/-- A ticket of another category. -/
theorem countsIn_of_ne (h : t.category ≠ c) :
    t.countsIn c = false ∧ t.countsOpenIn c = false := by
  have hne : (t.category == c) = false := beq_eq_false_iff_ne.mpr h
  rw [SupportTicket.countsIn, SupportTicket.countsOpenIn, hne]
  exact ⟨rfl, rfl⟩

theorem countersOf_concat_ne (h : t.category ≠ c) :
    countersOf (tickets ++ [t]) c = countersOf tickets c := by
  obtain ⟨hin, hopen⟩ := countsIn_of_ne h
  simp [countersOf, List.countP_append, hin, hopen]

theorem countersOf_sweep (now : Instant) :
    countersOf (tickets.map (SupportTicket.sweep now)) c = countersOf tickets c := by
  rw [countersOf, countersOf, List.countP_map, List.countP_map]
  have hin : SupportTicket.countsIn c ∘ SupportTicket.sweep now = SupportTicket.countsIn c := by
    funext t
    show ((t.sweep now).category == c) = _
    rw [category_sweep]
    rfl
  have hopen : SupportTicket.countsOpenIn c ∘ SupportTicket.sweep now =
      SupportTicket.countsOpenIn c := by
    funext t
    show ((t.sweep now).category == c && (t.sweep now).workflow.inOpenQueue) = _
    rw [category_sweep, inOpenQueue_sweep]
    rfl
  rw [hin, hopen]

end counting

/-! ## One call -/

/-- The rows the counters are about. -/
structure Registered (s : CountedDesk) : Prop where
  length : s.counters.length = s.desk.categories.length
  placed : ∀ t ∈ s.desk.tickets, t.category < s.desk.categories.length
  active : ∀ t ∈ s.desk.tickets, t.workflow.isActive = true

section step

variable {s : CountedDesk} {desk desk' : Desk} {t t' : SupportTicket} {k : ℕ}

theorem inOpenQueue_eq_iff {w w' : Ticket} (hactive : w'.isActive = w.isActive)
    (htrue : w.isActive = true) :
    w'.inOpenQueue = w.inOpenQueue ↔ (w'.status ∈ terminalStatuses ↔ w.status ∈ terminalStatuses) := by
  rw [Ticket.inOpenQueue, Ticket.inOpenQueue, hactive, htrue, Bool.true_and, Bool.true_and,
    decide_eq_decide, not_iff_not]

/-- A ticket that stays in its category counts as before if it stays on its side of the
queue. -/
theorem counts_of_same (hcategory : t'.category = t.category)
    (hopen : t'.workflow.inOpenQueue = t.workflow.inOpenQueue) (c : ℕ) :
    t'.countsIn c = t.countsIn c ∧ t'.countsOpenIn c = t.countsOpenIn c := by
  rw [SupportTicket.countsIn, SupportTicket.countsIn, SupportTicket.countsOpenIn,
    SupportTicket.countsOpenIn, hcategory, hopen]
  exact ⟨rfl, rfl⟩

/-- The stored counters stay true exactly when the ticket counts as before in every category. -/
theorem countersTrue_set_iff (h : CountersTrue s) (ht : s.desk.tickets[k]? = some t) :
    CountersTrue ⟨{ s.desk with tickets := s.desk.tickets.set k t' }, s.counters⟩ ↔
      ∀ c < s.counters.length, t'.countsIn c = t.countsIn c ∧ t'.countsOpenIn c = t.countsOpenIn c := by
  constructor
  · intro hafter c hc
    have hrow := List.getElem?_eq_getElem hc
    rw [← countersOf_set_eq_iff ht, ← hafter c _ hrow, h c _ hrow]
  · intro hsame c row hrow
    have hc := (List.getElem?_eq_some_iff.mp hrow).1
    rw [h c row hrow]
    exact ((countersOf_set_eq_iff ht).mpr (hsame c hc)).symm

/-- A synchronised category has true counters. -/
theorem countersTrue_sync {c : ℕ}
    (h : ∀ (j : ℕ) row, j ≠ c → s.counters[j]? = some row → row = countersOf desk.tickets j) :
    CountersTrue ⟨desk, syncCategoryCounters desk.tickets c s.counters⟩ := by
  intro j row hrow
  have hlt := (List.getElem?_eq_some_iff.mp hrow).1
  rw [syncCategoryCounters, List.length_set] at hlt
  dsimp only [syncCategoryCounters] at hrow
  by_cases hj : j = c
  · subst hj
    rw [List.getElem?_set_self hlt] at hrow
    exact (Option.some.inj hrow).symm
  · rw [List.getElem?_set_ne (Ne.symm hj)] at hrow
    exact h j row hj hrow

theorem keepsQueues_moved_iff {act : StoreAct} {actor : Actor} {toStatus : TicketStatus}
    (hact : act.statusCall = some (k, actor, toStatus)) (ht : desk.tickets[k]? = some t) :
    KeepsQueues desk act ↔
      (toStatus ∈ terminalStatuses ↔ t.workflow.status ∈ terminalStatuses) := by
  have hunfold : KeepsQueues desk act ↔ ∀ k actor toStatus,
      act.statusCall = some (k, actor, toStatus) → ∀ t, desk.tickets[k]? = some t →
        (toStatus ∈ terminalStatuses ↔ t.workflow.status ∈ terminalStatuses) := by
    cases act with
    | updateDraftTicket => cases hact
    | _ => exact Iff.rfl
  rw [hunfold, hact]
  constructor
  · intro h
    exact h k actor toStatus rfl t ht
  · rintro h _ _ _ ⟨⟩ u hu
    obtain rfl := Option.some.inj (ht.symm.trans hu)
    exact h

theorem countersAfter_moved {act : StoreAct} {actor : Actor} {toStatus : TicketStatus}
    (hact : act.statusCall = some (k, actor, toStatus)) (counters : List CategoryCounters) :
    countersAfter desk counters act = counters := by
  cases act with
  | submitTicket | workflow => rfl
  | _ => cases hact

/-- A new ticket has its category counted again, and no other category counts it. -/
theorem countersTrue_created (h : CountersTrue s) :
    CountersTrue ⟨{ s.desk with tickets := s.desk.tickets ++ [t] },
      syncCategoryCounters (s.desk.tickets ++ [t]) t.category s.counters⟩ := by
  refine countersTrue_sync fun j row hj hrow => ?_
  rw [h j row hrow]
  exact (countersOf_concat_ne (Ne.symm hj)).symm

/-- A draft that moves leaves the counters of its old category behind. -/
theorem countersTrue_drafted_iff (h : CountersTrue s) (hreg : Registered s)
    (ht : s.desk.tickets[k]? = some t)
    (hopen : t'.workflow.inOpenQueue = t.workflow.inOpenQueue) :
    CountersTrue ⟨{ s.desk with tickets := s.desk.tickets.set k t' },
        syncCategoryCounters (s.desk.tickets.set k t') t'.category s.counters⟩ ↔
      t'.category = t.category := by
  constructor
  · intro hafter
    by_contra hne
    have hlt : t.category < s.counters.length :=
      hreg.length ▸ hreg.placed t (List.mem_of_getElem? ht)
    have hrow := List.getElem?_eq_getElem hlt
    have hkept : (syncCategoryCounters (s.desk.tickets.set k t') t'.category s.counters)[t.category]? =
        some s.counters[t.category] := by
      rw [syncCategoryCounters, List.getElem?_set_ne hne, hrow]
    have hsame := (hafter _ _ hkept).symm.trans (h _ _ hrow)
    have hcounts := ((countersOf_set_eq_iff ht).mp hsame).1
    rw [(countsIn_of_ne hne).1, SupportTicket.countsIn, beq_self_eq_true] at hcounts
    cases hcounts
  · intro hcategory
    refine countersTrue_sync fun j row _ hrow => ?_
    rw [h j row hrow]
    exact ((countersOf_set_eq_iff ht).mpr (counts_of_same hcategory hopen j)).symm

/-- A transition keeps the counters true exactly when the ticket stays on its side of the
queue. -/
theorem countersTrue_moved_iff (h : CountersTrue s) (hreg : Registered s)
    (ht : s.desk.tickets[k]? = some t) (hcategory : t'.category = t.category)
    (hactive : t'.workflow.isActive = t.workflow.isActive) :
    CountersTrue ⟨{ s.desk with tickets := s.desk.tickets.set k t' }, s.counters⟩ ↔
      (t'.workflow.status ∈ terminalStatuses ↔ t.workflow.status ∈ terminalStatuses) := by
  have hmem := List.mem_of_getElem? ht
  rw [countersTrue_set_iff h ht, ← inOpenQueue_eq_iff hactive (hreg.active t hmem)]
  constructor
  · intro hsame
    have hopen := (hsame t.category (hreg.length ▸ hreg.placed t hmem)).2
    rw [SupportTicket.countsOpenIn, SupportTicket.countsOpenIn, hcategory, beq_self_eq_true,
      Bool.true_and, Bool.true_and] at hopen
    exact hopen
  · intro hopen c _
    exact counts_of_same hcategory hopen c

theorem countersTrue_store_iff {act : StoreAct} (h : CountersTrue s) (hreg : Registered s)
    (heffect : TicketEffect s.desk act desk') :
    CountersTrue ⟨desk', countersAfter desk' s.counters act⟩ ↔ KeepsQueues s.desk act := by
  cases heffect with
  | taxonomy rows hact =>
      cases act with
      | createCategory input uuid =>
          refine iff_of_true ?_ (fun _ _ _ hcall => by cases hcall)
          intro j row hrow
          rcases getElem?_concat_cases hrow with hold | ⟨rfl, rfl⟩
          · exact h j row hold
          · have hnone : ∀ t ∈ s.desk.tickets, t.category ≠ s.counters.length := fun t ht =>
              (hreg.length ▸ hreg.placed t ht).ne
            rw [countersOf, List.countP_eq_zero.mpr fun t ht => by simp [(countsIn_of_ne (hnone t ht)).1],
              List.countP_eq_zero.mpr fun t ht => by simp [(countsIn_of_ne (hnone t ht)).2]]
      | updateCategory | deactivateCategory => exact iff_of_true h (fun _ _ _ hcall => by cases hcall)
      | _ => cases hact
  | created t =>
      refine iff_of_true ?_ (fun _ _ _ hcall => by cases hcall)
      rw [countersAfter, List.getLast?_concat]
      exact countersTrue_created h
  | @drafted k user fields now t t' ht hworkflow hdraft hdepartment hcategory =>
      rw [countersAfter, List.getElem?_set_self (List.getElem?_eq_some_iff.mp ht).1]
      refine (countersTrue_drafted_iff h hreg ht (by rw [hworkflow]; rfl)).trans ?_
      rw [hcategory]
      constructor
      · intro hsame u hu
        obtain rfl := Option.some.inj (ht.symm.trans hu)
        exact hsame
      · intro hkeeps
        exact hkeeps t ht
  | assigned t t' ht hworkflow hdepartment hcategory =>
      refine iff_of_true ?_ (fun _ _ _ hcall => by cases hcall)
      show CountersTrue ⟨_, s.counters⟩
      refine (countersTrue_moved_iff h hreg ht hcategory (by rw [hworkflow])).mpr ?_
      rw [hworkflow]
  | moved t t' hact ht hstatus hactive hdepartment hcategory =>
      rw [countersAfter_moved hact, countersTrue_moved_iff h hreg ht hcategory hactive,
        keepsQueues_moved_iff hact ht, hstatus]

theorem length_countersAfter (counters : List CategoryCounters) (act : StoreAct) :
    (countersAfter desk counters act).length = counters.length + act.newCategories := by
  cases act with
  | createCategory => exact List.length_append
  | createTicket | updateDraftTicket =>
      unfold countersAfter
      dsimp only
      split
      · rfl
      · exact List.length_set
  | _ => rfl

theorem registered_step (rules : TextRules) (h : Registered s) (call : DeskCall) :
    Registered (countedStep rules s call) := by
  cases call with
  | markSlaBreaches now =>
      refine ⟨h.length, ?_, ?_⟩
      · intro t ht
        obtain ⟨u, hu, rfl⟩ := List.mem_map.mp ht
        rw [category_sweep]
        exact h.placed u hu
      · intro t ht
        obtain ⟨u, hu, rfl⟩ := List.mem_map.mp ht
        rw [isActive_sweep]
        exact h.active u hu
  | store act =>
      unfold countedStep
      dsimp only
      split
      · rename_i desk' hcall
        have hlength := length_categories hcall
        have heffect := storeCall_effect hcall
        refine ⟨by rw [length_countersAfter, h.length, hlength], ?_, ?_⟩
        · refine tickets_of_effect heffect ?_ ?_ h.active
          · intro t ht
            exact (h.placed t ht).trans_le (hlength ▸ Nat.le_add_right _ _)
          · rintro t - (⟨d, hd⟩ | ⟨u, hu, hcategory⟩)
            · obtain ⟨row, hrow, -⟩ := Option.map_eq_some_iff.mp hd
              exact (List.getElem?_eq_some_iff.mp hrow).1.trans_le (hlength ▸ Nat.le_add_right _ _)
            · rw [hcategory]
              exact (h.placed u hu).trans_le (hlength ▸ Nat.le_add_right _ _)
        · exact tickets_of_effect heffect h.active (fun t hactive _ => hactive) h.active
      · exact h

theorem countersTrue_step_iff {rules : TextRules} (h : CountersTrue s) (hreg : Registered s)
    (call : DeskCall) : CountersTrue (countedStep rules s call) ↔ StaysCounted rules s call := by
  cases call with
  | markSlaBreaches now =>
      refine iff_of_true ?_ trivial
      intro j row hrow
      rw [countedStep, Desk.markSlaBreaches, countersOf_sweep]
      exact h j row hrow
  | store act =>
      unfold countedStep StaysCounted
      dsimp only
      cases hcall : storeCall rules s.desk act with
      | error e => exact iff_of_true h fun _ hok => by cases hok
      | ok desk' =>
          refine (countersTrue_store_iff h hreg (storeCall_effect hcall)).trans ?_
          constructor
          · intro hkeeps _ _
            exact hkeeps
          · intro hkeeps
            exact hkeeps desk' rfl

end step

/-! ## Every run -/

theorem countersTrue_empty : CountersTrue CountedDesk.empty := by
  intro c row hrow
  cases hrow

/-- The counters of every category are true exactly as long as no draft changes its category
and no ticket enters or leaves the open queue. -/
theorem category_counters_iff (rules : TextRules) (calls : List DeskCall) :
    (∀ pre, pre <+: calls → CountersTrue (run (countedStep rules) CountedDesk.empty pre)) ↔
      Along (countedStep rules) (StaysCounted rules) CountedDesk.empty calls := by
  rw [← along_states countersTrue_empty]
  refine along_congr (I := fun s => CountersTrue s ∧ Registered s) ?_ ?_ ?_ calls
  · intro s call hs
    exact countersTrue_step_iff hs.1 hs.2 call
  · intro s call hs htrue
    exact ⟨htrue, registered_step rules hs.2 call⟩
  · exact ⟨countersTrue_empty, ⟨rfl, fun t ht => (by cases ht), fun t ht => (by cases ht)⟩⟩

/-- A ticket that is answered and closed by its owner. -/
def closedCalls : List DeskCall :=
  [.store (.createCategory { department := 1, title := "Network" } sampleUuid),
    .store (.createTicket sampleOwner ⟨1, some ⟨1, none⟩, some 0, "normal", "minor"⟩ "Slow"
      "Very slow" none none none none 0),
    .store (.submitTicket 0 sampleOwner none none 0),
    .store (.workflow 0 (.addAdminReply sampleAdmin) 1),
    .store (.workflow 0 (.closeTicket sampleOwner) 2)]

/-- The closed ticket is still counted as open. -/
theorem closed_ticket_counted :
    ¬ CountersTrue (run (countedStep wordRules) CountedDesk.empty closedCalls) := by
  intro h
  have hstored : (run (countedStep wordRules) CountedDesk.empty closedCalls).counters[0]? =
      some ⟨1, 1⟩ := by decide +kernel
  have hcounted : countersOf (run (countedStep wordRules) CountedDesk.empty closedCalls).desk.tickets 0 =
      ⟨1, 0⟩ := by decide +kernel
  have hsame := (h 0 _ hstored).trans hcounted
  revert hsame
  decide

end SetadJang.SupportDesk
