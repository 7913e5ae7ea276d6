import SetadJang.Madadkar.Counters

/-!
# Terminal payment states

SUCCESS and FAILED are meant to be final.  All transactions but one look at the
stored status under the lock before they write a new one.  The amount-mismatch
block of `verify_payment` does not, so a second callback whose provider answer
names another amount takes a payment that is already SUCCESS to FAILED.
-/

namespace SetadJang.Madadkar

open SetadJang.Framework SetadJang.Framework.Txn

/-- A payment that left PENDING keeps its status. -/
def KeepsVerdict (pay pay' : Payment) : Prop :=
  pay.status ≠ .pending → pay'.status = pay.status

theorem keepsVerdict_refl (pay : Payment) : KeepsVerdict pay pay := fun _ => rfl

theorem keepsVerdict_trans (a b c : Payment) (hab : KeepsVerdict a b) (hbc : KeepsVerdict b c) :
    KeepsVerdict a c := by
  intro ha
  have hb := hab ha
  rw [hbc (hb ▸ ha), hb]

/-- The settlement of a payment that is still pending. -/
theorem evolves_settle_pending {s : Store} {k : ℕ} {pay : Payment} {st : Settlement}
    (hpay : s.payments[k]? = some pay) (hpend : pay.status = .pending) :
    Evolves KeepsVerdict s.payments (s.payments.modify k (·.settle st)) := by
  refine evolves_modify keepsVerdict_refl fun a ha hne => ?_
  rw [hpay] at ha
  cases ha
  exact absurd hpend hne

/-- **Step lemma.** Every commit keeps the verdicts, unless it rejects a foreign
amount for a payment that is already SUCCESS. -/
theorem keepsVerdict_commit {s t : Store} {e : Effect} (h : Commit s e t)
    (hok : ∀ k pay, e = .mismatch k → s.payments[k]? = some pay → pay.status ≠ .success) :
    Evolves KeepsVerdict s.payments t.payments := by
  have hsame := evolves_refl keepsVerdict_refl s.payments
  cases h with
  | mismatch hpay hp =>
      refine evolves_modify keepsVerdict_refl fun a ha hne => ?_
      have hns := hok _ a rfl ha
      cases hst : a.status with
      | pending => exact absurd hst hne
      | success => exact absurd hst hns
      | failed => rfl
  | persist hpid hnew hpend => exact evolves_append keepsVerdict_refl _ _
  | reject hpay hp hpend => exact evolves_settle_pending hpay hpend
  | succeed hpay hp hpend => exact evolves_settle_pending hpay hpend
  | expireWith hpay hpid hpend => exact evolves_settle_pending hpay hpend
  | reserve hrow hroom hpos => exact hsame
  | release hp hpend => exact hsame
  | expire hnone => exact hsame
  | fund hrow hroom => exact hsame
  | voidFund hf => exact hsame
  | requestRefund hpay hr hpend => exact hsame
  | reviewRefund hr hpend hpay hstatus => exact hsame
  | completeRefund hr happ hpay hp hpart => exact hsame
  | completeFullRefund hr happ hpay hp hfull => exact hsame
  | createAdjustment hpend => exact hsame
  | reviewAdjustment ha hpend hstatus => exact hsame
  | applyAdjustment ha happ hnone => exact hsame
  | applyPaymentAdjustment ha happ hk hpay => exact hsame

/-- The stored status an amount-mismatch rejection is about to overwrite. -/
def mismatchFinds (s : Sys) (a : Act) : Option PaymentStatus :=
  match attempts s a with
  | some (.mismatch k) => s.db.payments[k]?.map Payment.status
  | _ => none

/-- The step is not an amount-mismatch rejection of a SUCCESS payment. -/
def NoLateMismatch (s : Sys) (a : Act) : Prop := mismatchFinds s a ≠ some .success

instance (s : Sys) (a : Act) : Decidable (NoLateMismatch s a) :=
  inferInstanceAs (Decidable (_ ≠ _))

theorem keepsVerdict_step {s : Sys} {a : Act} (hok : NoLateMismatch s a) :
    Evolves KeepsVerdict s.db.payments (step s a).db.payments := by
  rcases step_db s a with hsame | ⟨e, he, hcommit⟩
  · rw [hsame]
    exact evolves_refl keepsVerdict_refl _
  · refine keepsVerdict_commit hcommit ?_
    rintro k pay rfl hpay hsuccess
    exact hok (by simp [mismatchFinds, he, hpay, hsuccess])

theorem keepsVerdict_run {s : Sys} {acts : List Act} (hok : Along step NoLateMismatch s acts) :
    Evolves KeepsVerdict s.db.payments (run step s acts).db.payments := by
  induction acts generalizing s with
  | nil => exact evolves_refl keepsVerdict_refl _
  | cons a acts ih => exact (keepsVerdict_step hok.1).trans keepsVerdict_trans (ih hok.2)

/-- Between any two moments of the run, a payment that is SUCCESS or FAILED at
the first has the same status at the second. -/
def VerdictsAbsorbing (s : Sys) (acts : List Act) : Prop :=
  ∀ pre mid, pre ++ mid <+: acts →
    ∀ (k : ℕ) (pay : Payment), (run step s pre).db.payments[k]? = some pay →
      pay.status ≠ .pending →
      ∃ pay', (run step s (pre ++ mid)).db.payments[k]? = some pay' ∧ pay'.status = pay.status

/-- **Terminal states are absorbing** in every run in which no amount-mismatch
rejection meets a payment that is already SUCCESS. -/
theorem verdicts_absorbing (campaigns : List Campaign) (acts : List Act)
    (hok : Along step NoLateMismatch (start campaigns) acts) :
    VerdictsAbsorbing (start campaigns) acts := by
  intro pre mid hpre k pay hpay hne
  have hmid := ((along_append _ pre mid).mp (along_earlier hok hpre)).2
  obtain ⟨pay', hpay', hkeeps⟩ := keepsVerdict_run hmid k pay hpay
  rw [run_append]
  exact ⟨pay', hpay', hkeeps hne⟩

/-- Two callbacks for one payment read it while it is PENDING; `answer` is what
the provider tells the second one. -/
def twoCallbacks (answer : PaymentVerifyResult) : List Act :=
  [.pay (.initiate 0 1 2 5), .pay (.gateway 0 (some (gatewayYes "A1"))), .pay (.persist 0),
    .pay (.callback "A1"), .pay (.callback "A1"),
    .pay (.provider 1 (some (confirms 2000))), .pay (.provider 2 (some answer)),
    .pay (.finalize 1 9 true), .pay (.finalize 2 10 true)]

/-- Two callbacks that agree on the amount. -/
theorem verdicts_absorbing_agreeing :
    VerdictsAbsorbing (start [tenShares]) (twoCallbacks (confirms 2000)) :=
  verdicts_absorbing [tenShares] (twoCallbacks (confirms 2000)) (by decide)

/-- The second callback is told 1000 instead of 2000: the paid payment becomes
FAILED. -/
theorem late_mismatch_overwrites_success :
    ¬ VerdictsAbsorbing (start [tenShares]) (twoCallbacks (confirms 1000)) := by
  intro h
  have hfinal := h ((twoCallbacks (confirms 1000)).take 8)
    ((twoCallbacks (confirms 1000)).drop 8) (by simp) 0
  have hbefore : ((run step (start [tenShares])
      ((twoCallbacks (confirms 1000)).take 8)).db.payments[0]?).map Payment.status =
        some .success := by decide
  have hafter : ((run step (start [tenShares]) (twoCallbacks (confirms 1000))).db.payments[0]?).map
      Payment.status = some .failed := by decide
  obtain ⟨pay, hpay, hsuccess⟩ := Option.map_eq_some_iff.mp hbefore
  obtain ⟨pay', hpay', hsame⟩ := hfinal pay hpay (by simp [hsuccess])
  rw [List.take_append_drop] at hpay'
  rw [hpay', Option.map_some, hsame, hsuccess] at hafter
  exact absurd hafter (by decide)

end SetadJang.Madadkar
