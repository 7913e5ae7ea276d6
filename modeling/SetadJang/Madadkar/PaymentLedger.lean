import SetadJang.Framework.EventLog
import SetadJang.Madadkar.Counters

/-!
# The payment event ledger

`PaymentEvent` rows are written by hand beside every status change and beside
the refund and adjustment workflow.  For every payment they replay to the status
the payment has.
-/

namespace SetadJang.Madadkar

open SetadJang.Framework SetadJang.Framework.Txn

/-- The events of a payment in creation order. -/
def eventsOf (s : Store) (k : ℕ) : List PaymentEvent := s.events.filter fun e => e.payment == k

/-- The event `_persist_initiated_payment` writes: CREATED, from no status to
PENDING. -/
def PaymentEvent.Opening (e : PaymentEvent) : Prop :=
  e.eventKind = .created ∧ e.previousStatus = none ∧ e.newStatus = some .pending

/-- The events tell the story of a payment up to a status. -/
def Recounts (log : List PaymentEvent) (status : PaymentStatus) : Prop :=
  Replays PaymentEvent.Opening PaymentEvent.previousStatus PaymentEvent.newStatus log (some status)

/-- Every payment is recounted by its events. -/
def LedgerReplays (s : Store) : Prop :=
  ∀ k pay, s.payments[k]? = some pay → Recounts (eventsOf s k) pay.status

theorem eventsOf_append {s t : Store} {e : PaymentEvent} (hev : t.events = s.events ++ [e])
    (k : ℕ) : eventsOf t k = if e.payment = k then eventsOf s k ++ [e] else eventsOf s k := by
  unfold eventsOf
  rw [hev]
  by_cases h : e.payment = k <;> simp [List.filter_append, h]

theorem LedgerReplays.of_same {s t : Store} (hs : LedgerReplays s)
    (hpays : t.payments = s.payments) (hev : t.events = s.events) : LedgerReplays t := by
  intro k pay hpay
  rw [hpays] at hpay
  unfold eventsOf
  rw [hev]
  exact hs k pay hpay

/-- A line that records no change. -/
theorem LedgerReplays.noted {s t : Store} (hs : LedgerReplays s) {k : ℕ} {pay : Payment}
    {kind : PaymentEventKind} (hpay : s.payments[k]? = some pay)
    (hpays : t.payments = s.payments)
    (hev : t.events =
      s.events ++ [Store.eventFor pay k kind (some pay.status) (some pay.status)]) :
    LedgerReplays t := by
  intro j pay' hpay'
  rw [hpays] at hpay'
  rw [eventsOf_append hev]
  split_ifs with hj
  · obtain rfl : k = j := hj
    rw [hpay] at hpay'
    cases hpay'
    exact (hs k pay hpay).append rfl
  · exact hs j pay' hpay'

/-- A settlement with its line. -/
theorem LedgerReplays.settled {s t : Store} (hs : LedgerReplays s) {k : ℕ} {pay : Payment}
    {st : Settlement} {kind : PaymentEventKind} (hpay : s.payments[k]? = some pay)
    (hpays : t.payments = s.payments.modify k (·.settle st))
    (hev : t.events = s.events ++
      [Store.eventFor (pay.settle st) k kind (some pay.status) (some st.status)]) :
    LedgerReplays t := by
  intro j pay' hpay'
  rw [hpays] at hpay'
  rw [eventsOf_append hev]
  split_ifs with hj
  · obtain rfl : k = j := hj
    obtain rfl : pay.settle st = pay' := by simpa [hpay] using hpay'
    exact (hs k pay hpay).append rfl
  · have hkj : k ≠ j := hj
    rw [List.getElem?_modify_ne _ _ hkj] at hpay'
    exact hs j pay' hpay'

/-- A new payment with its opening line. -/
theorem LedgerReplays.created {s : Store} (hw : Wired s) (hs : LedgerReplays s) {pay : Payment}
    (hpend : pay.status = .pending) :
    LedgerReplays ((s.addPayment pay).addEvent
      (Store.eventFor pay s.payments.length .created none (some .pending))) := by
  intro j pay' hpay'
  rw [eventsOf_append rfl]
  split_ifs with hj
  · obtain rfl : s.payments.length = j := hj
    obtain rfl : pay = pay' := by simpa using hpay'
    -- no event is older than its payment
    have hnone : eventsOf (s.addPayment pay) s.payments.length = [] := by
      refine List.filter_eq_nil_iff.mpr fun e he => ?_
      have hlt := hw.event_payment e.payment (List.mem_map_of_mem he)
      simp only [beq_iff_eq]
      omega
    rw [hnone, hpend]
    exact replays_singleton ⟨rfl, rfl, rfl⟩
  · have hlt : j < s.payments.length := by
      have hlen := lt_length_of_getElem? hpay'
      simp only [Store.addEvent_payments, Store.addPayment_payments, List.length_append,
        List.length_singleton] at hlen
      simp only [Store.eventFor] at hj
      omega
    simp only [Store.addEvent_payments, Store.addPayment_payments,
      List.getElem?_append_left hlt] at hpay'
    exact hs j pay' hpay'

/-- **Step lemma.** Every commit writes the lines its status changes need. -/
theorem ledgerReplays_commit {s t : Store} {e : Effect} (hw : Wired s) (hs : LedgerReplays s)
    (h : Commit s e t) : LedgerReplays t := by
  cases h with
  | reserve hrow hroom hpos => exact hs.of_same rfl rfl
  | release hp hpend => exact hs.of_same rfl rfl
  | persist hpid hnew hpend => exact LedgerReplays.created hw hs hpend
  | mismatch hpay hp => exact hs.settled hpay rfl rfl
  | reject hpay hp hpend => exact hs.settled hpay rfl rfl
  | succeed hpay hp hpend => exact hs.settled hpay rfl rfl
  | expire hnone => exact hs.of_same rfl rfl
  | expireWith hpay hpid hpend => exact hs.settled hpay rfl (by rw [hpend]; rfl)
  | fund hrow hroom => exact hs.of_same rfl rfl
  | voidFund hf => exact hs.of_same rfl rfl
  | requestRefund hpay hr hpend => exact hs.noted hpay rfl rfl
  | reviewRefund hr hpend hpay hstatus => exact hs.noted hpay rfl rfl
  | completeRefund hr happ hpay hp hpart => exact hs.noted hpay rfl rfl
  | completeFullRefund hr happ hpay hp hfull => exact hs.noted hpay rfl rfl
  | createAdjustment hpend => exact hs.of_same rfl rfl
  | reviewAdjustment ha hpend hstatus => exact hs.of_same rfl rfl
  | applyAdjustment ha happ hnone => exact hs.of_same rfl rfl
  | applyPaymentAdjustment ha happ hk hpay => exact hs.noted hpay rfl rfl

theorem ledgerReplays_step {s : Sys} (hw : Wired s.db) (hs : LedgerReplays s.db) (a : Act) :
    LedgerReplays (step s a).db := by
  rcases step_db s a with hsame | ⟨e, -, hcommit⟩
  · rw [hsame]
    exact hs
  · exact ledgerReplays_commit hw hs hcommit

/-- **The ledger replays.** In every reachable state the events of every payment
start with its creation, each starts in the status the one before it ended in,
and the last one ends in the status of the payment. -/
theorem payment_events_replay (campaigns : List Campaign) (acts : List Act) :
    LedgerReplays (run step (start campaigns) acts).db := by
  have hboth : Wired (run step (start campaigns) acts).db ∧
      LedgerReplays (run step (start campaigns) acts).db := by
    refine invariant_run (I := fun s : Sys => Wired s.db ∧ LedgerReplays s.db) ?_ ?_ acts
    · rintro s a ⟨hw, hs⟩
      exact ⟨wired_step hw a, ledgerReplays_step hw hs a⟩
    · refine ⟨wired_start campaigns, ?_⟩
      intro k pay hpay
      simp [start] at hpay
  exact hboth.2

end SetadJang.Madadkar
