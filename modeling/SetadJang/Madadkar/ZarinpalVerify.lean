import SetadJang.Madadkar.Overselling
import SetadJang.Madadkar.Sequential

/-!
# Verification through Zarinpal

`ZarinpalProvider.verify_payment` of `payment_providers/zarinpal.py`, and what
`services.verify_payment` makes of its answer.  The adapter turns every failure of
the transport it knows of into an answer that is not a success; only an exception
it does not catch reaches the service, which then raises `PaymentGatewayError` and
writes nothing.  To the service an answer that is not a success is a refusal.

Of a JSON value the adapter takes its `str` and its truth value.
-/

namespace SetadJang.Madadkar

open SetadJang.Framework SetadJang.Framework.Txn

/-! ## The response -/

/-- A JSON value other than null. -/
structure JsonValue where
  text : String
  truthy : Bool
deriving DecidableEq, Repr

/-- The object under `data`.  A missing key and a null are `none`. -/
structure ResponseData where
  code : Option JsonValue
  refId : Option JsonValue
  message : Option JsonValue
deriving DecidableEq, Repr

/-- An entry of a list of errors.  `own` is the `str` of a whole object. -/
inductive ErrorEntry where
  | object (message code : Option JsonValue) (own : String)
  | value (text : String)
deriving DecidableEq, Repr

/-- What stands under `errors`.  `validations` is empty when it is not a list. -/
inductive ResponseErrors where
  | object (message code : Option JsonValue) (validations : List String)
  | list (entries : List ErrorEntry)
  | other
deriving DecidableEq, Repr

/-- A JSON object.  `data` is `none` when it is not an object. -/
structure ResponsePayload where
  data : Option ResponseData
  errors : ResponseErrors
deriving DecidableEq, Repr

/-- What `response.json()` does: it raises `ValueError`, raises something else
(the recursion limit, for one), or returns. -/
inductive ResponseBody where
  | valueError
  | otherError
  | nonObject
  | object (payload : ResponsePayload)
deriving DecidableEq, Repr

/-- What `session.post` does: it raises an exception of `requests` or another one,
or returns a response. -/
inductive HttpOutcome where
  | timeout
  | requestException
  | otherException
  | response (statusCode : ℕ) (body : ResponseBody)
deriving DecidableEq, Repr

/-- The gateway has not decided: its answer did not arrive, is not a 200, or is not
a JSON object. -/
def HttpOutcome.noVerdict : HttpOutcome → Bool
  | .response statusCode (.object _) => statusCode != 200
  | _ => true

/-- An exception that `_post_json` does not catch. -/
def HttpOutcome.escapes : HttpOutcome → Bool
  | .otherException => true
  | .response statusCode .otherError => statusCode == 200
  | _ => false

/-! ## The adapter -/

/-- `str(value)` of a value that is true. -/
def truthyText (value : Option JsonValue) : Option String :=
  (value.filter JsonValue.truthy).map JsonValue.text

/-- `PaymentVerifyResult` with the two fields that only end up in an event's metadata. -/
structure VerifyAnswer extends PaymentVerifyResult where
  alreadyVerified : Bool
  errorMessage : String
deriving DecidableEq, Repr

namespace ZarinpalProvider

def successCode : String := "100"

def alreadyVerifiedCode : String := "101"

/-- `_post_json`: the payload and the error message, which is empty when the payload
is valid. -/
def postJson : HttpOutcome → Option (ResponsePayload × String)
  | .timeout => some (⟨none, .other⟩, "درگاه پرداخت در زمان مقرر پاسخ نداد.")
  | .requestException => some (⟨none, .other⟩, "ارتباط با درگاه پرداخت برقرار نشد.")
  | .otherException => none
  | .response statusCode body =>
      if statusCode ≠ 200 then
        some (⟨none, .other⟩, s!"درگاه پرداخت پاسخ نامعتبر HTTP {statusCode} برگرداند.")
      else
        match body with
        | .valueError => some (⟨none, .other⟩, "درگاه پرداخت پاسخ JSON نامعتبر برگرداند.")
        | .otherError => none
        | .nonObject => some (⟨none, .other⟩, "درگاه پرداخت پاسخ غیرمنتظره برگرداند.")
        | .object payload => some (payload, "")

/-- `_extract_data`. -/
def extractData (payload : ResponsePayload) : ResponseData := payload.data.getD ⟨none, none, none⟩

/-- `_extract_code`. -/
def extractCode (data : ResponseData) : String := (data.code.map JsonValue.text).getD ""

/-- The part of `_extract_error_message` that reads `errors`. -/
def errorsText : ResponseErrors → Option String
  | .object message code validations => truthyText message <|> truthyText code <|> validations.head?
  | .list [] => none
  | .list (.object message code own :: _) =>
      some ((truthyText message <|> truthyText code).getD own)
  | .list (.value text :: _) => some text
  | .other => none

/-- `_extract_error_message`. -/
def extractErrorMessage (payload : ResponsePayload) : String :=
  (errorsText payload.errors <|> payload.data.bind fun data => truthyText data.message).getD
    "درگاه پرداخت درخواست را رد کرد."

/-- `ZarinpalProvider.verify_payment`; `none` when an exception leaves it. -/
def verifyPayment (amount : ℕ) (outcome : HttpOutcome) : Option VerifyAnswer := do
  let (responsePayload, transportError) ← postJson outcome
  if transportError ≠ "" then
    return ⟨⟨false, "", 0, "transport_error"⟩, false, transportError⟩
  let data := extractData responsePayload
  let code := extractCode data
  if code = successCode ∨ code = alreadyVerifiedCode then
    let refId := (truthyText data.refId).getD ""
    return ⟨⟨true, refId, amount, code⟩, code == alreadyVerifiedCode, ""⟩
  return ⟨⟨false, "", 0, code⟩, false, extractErrorMessage responsePayload⟩

/-- The answer the service sees. -/
def verdict (amount : ℕ) (outcome : HttpOutcome) : Option PaymentVerifyResult :=
  (verifyPayment amount outcome).map VerifyAnswer.toPaymentVerifyResult

/-- **Spec of the transport.** An exception leaves it, or it gives a non-empty error,
or the gateway answered with a JSON object. -/
theorem postJson_cases (outcome : HttpOutcome) :
    (outcome.escapes = true ∧ postJson outcome = none) ∨
    (outcome.escapes = false ∧ ∃ payload text, text ≠ "" ∧ postJson outcome = some (payload, text)) ∨
    ∃ payload, outcome = .response 200 (.object payload) ∧ postJson outcome = some (payload, "") := by
  cases outcome with
  | timeout => exact Or.inr (Or.inl ⟨rfl, _, _, by decide, rfl⟩)
  | requestException => exact Or.inr (Or.inl ⟨rfl, _, _, by decide, rfl⟩)
  | otherException => exact Or.inl ⟨rfl, rfl⟩
  | response statusCode body =>
      by_cases hok : statusCode = 200
      · subst hok
        cases body with
        | valueError => exact Or.inr (Or.inl ⟨rfl, _, _, by decide, rfl⟩)
        | otherError => exact Or.inl ⟨rfl, rfl⟩
        | nonObject => exact Or.inr (Or.inl ⟨rfl, _, _, by decide, rfl⟩)
        | object payload => exact Or.inr (Or.inr ⟨payload, rfl, rfl⟩)
      · refine Or.inr (Or.inl ⟨?_, _, _, ?_, if_pos hok⟩)
        · cases body <;> simp [HttpOutcome.escapes, hok]
        · intro hempty
          have hlength := congrArg String.length hempty
          simp [String.length_append] at hlength

/-- With a message of the transport the body is not looked at. -/
theorem verifyPayment_of_transportError {amount : ℕ} {outcome : HttpOutcome}
    {payload : ResponsePayload} {text : String} (hpost : postJson outcome = some (payload, text))
    (htext : text ≠ "") :
    verifyPayment amount outcome =
      some ⟨⟨false, "", 0, "transport_error"⟩, false, text⟩ := by
  simp [verifyPayment, hpost, htext]

theorem verdict_eq_none_iff {amount : ℕ} {outcome : HttpOutcome} :
    verdict amount outcome = none ↔ outcome.escapes = true := by
  rw [verdict, Option.map_eq_none_iff]
  rcases postJson_cases outcome with ⟨hesc, hpost⟩ | ⟨hesc, payload, text, htext, hpost⟩ |
    ⟨payload, rfl, hpost⟩
  · simp [verifyPayment, hpost, hesc]
  · simp [verifyPayment_of_transportError hpost htext, hesc]
  · simp only [verifyPayment, hpost, HttpOutcome.escapes]
    simp [ite_eq_iff]

/-- Without a decision of the gateway the adapter reports an error of the transport,
and never a success. -/
theorem verdict_of_noVerdict {amount : ℕ} {outcome : HttpOutcome} {result : PaymentVerifyResult}
    (hnone : outcome.noVerdict = true) (h : verdict amount outcome = some result) :
    result = ⟨false, "", 0, "transport_error"⟩ := by
  obtain ⟨answer, hanswer, rfl⟩ := Option.map_eq_some_iff.mp h
  rcases postJson_cases outcome with ⟨-, hpost⟩ | ⟨-, payload, text, htext, hpost⟩ |
    ⟨payload, rfl, -⟩
  · simp [verifyPayment, hpost] at hanswer
  · rw [verifyPayment_of_transportError hpost htext, Option.some.injEq] at hanswer
    rw [← hanswer]
  · simp [HttpOutcome.noVerdict] at hnone

/-- The adapter gives back the amount it was asked for, so the service never finds a
foreign one. -/
theorem verdict_mismatches {amount : ℕ} {outcome : HttpOutcome} {result : PaymentVerifyResult}
    (h : verdict amount outcome = some result) : result.mismatches amount = false := by
  obtain ⟨answer, hanswer, rfl⟩ := Option.map_eq_some_iff.mp h
  rcases postJson_cases outcome with ⟨-, hpost⟩ | ⟨-, payload, text, htext, hpost⟩ |
    ⟨payload, rfl, hpost⟩
  · simp [verifyPayment, hpost] at hanswer
  · rw [verifyPayment_of_transportError hpost htext, Option.some.injEq] at hanswer
    rw [← hanswer]
    rfl
  · simp only [verifyPayment, hpost] at hanswer
    simp only [ne_eq, not_true_eq_false, if_false, Option.bind_eq_bind, Option.bind_some] at hanswer
    split_ifs at hanswer
    · obtain rfl := Option.some.inj hanswer
      simp [PaymentVerifyResult.mismatches]
    · obtain rfl := Option.some.inj hanswer
      rfl

end ZarinpalProvider

/-! ## The refusal -/

/-- The refusal of a payment can be stored: its campaign is active, and the shares
that stay reserved without its participation fit into the campaign. -/
def Refusable (db : Store) (pay : Payment) : Prop :=
  ∃ p row, db.participations[pay.participation]? = some p ∧ db.campaigns[p.campaign]? = some row ∧
    row.isActive = true ∧
    reservedShares (db.participations.modify pay.participation (·.withStatus .failed none))
      p.campaign ≤ row.totalShares

/-- Where the reserved shares fit already, only an inactive campaign stands in the way. -/
theorem refusable_iff_active {db : Store} {pay : Payment} {p : Participation} {row : Campaign}
    (hp : db.participations[pay.participation]? = some p)
    (hrow : db.campaigns[p.campaign]? = some row)
    (hfit : reservedShares db.participations p.campaign ≤ row.totalShares) :
    Refusable db pay ↔ row.isActive = true := by
  constructor
  · rintro ⟨p', row', hp', hrow', hactive, -⟩
    obtain rfl : p = p' := Option.some.inj (hp.symm.trans hp')
    obtain rfl : row = row' := Option.some.inj (hrow.symm.trans hrow')
    exact hactive
  · intro hactive
    refine ⟨p, row, hp, hrow, hactive, ?_⟩
    exact (reservedShares_release_le _ _ none rfl _).trans hfit

section Refusal

variable {db : Store} {k now : ℕ} {pay : Payment} {result : PaymentVerifyResult} {hooksOk : Bool}

/-- The final block of a verification that is not a success stores the refusal. -/
theorem commits_of_refusable (hpay : db.payments[k]? = some pay) (hpend : pay.status = .pending)
    (hfail : result.success = false) (hstatus : result.gatewayStatus.length ≤ 50)
    (h : Refusable db pay) :
    ∃ c, Commits (finalizeVerifiedPayment k result now hooksOk) db ()
      (db.failed k pay c .verifyFailed result.gatewayStatus now) := by
  obtain ⟨p, row, hp, hrow, hactive, hfit⟩ := h
  simp only [finalizeVerifiedPayment, failPayment, commits_atomic, commits_bind, commits_getPayment,
    commits_ite, commits_getParticipation, commits_getCampaign, commits_modify,
    commits_savePaymentRow_iff, commits_recordPaymentEvent_iff, commits_syncCampaignCounters_iff]
  refine ⟨p.campaign, pay, db, ⟨hpay, rfl⟩, Or.inr ⟨not_not.mpr hpend, p, db, ⟨hp, rfl⟩, row, db,
    ⟨⟨hrow, hactive⟩, rfl⟩, Or.inl ⟨hfail, ?_⟩⟩⟩
  exact ⟨(), _, ⟨⟨hstatus, by simp⟩, rfl⟩, (), _, ⟨_, by simp [hpay], rfl⟩, (), _, rfl,
    ⟨row, hrow, hfit⟩, rfl⟩

/-- A refusal that is stored could be stored. -/
theorem refusable_of_commits {u : Unit} {t : Store} (hpay : db.payments[k]? = some pay)
    (hpend : pay.status = .pending) (hfail : result.success = false)
    (h : Commits (finalizeVerifiedPayment k result now hooksOk) db u t) : Refusable db pay := by
  simp only [finalizeVerifiedPayment, failPayment, commits_atomic, commits_bind, commits_getPayment,
    commits_ite, commits_getParticipation, commits_getCampaign, commits_modify,
    commits_savePaymentRow_iff, commits_syncCampaignCounters_iff] at h
  obtain ⟨pay', _, ⟨hpay', rfl⟩, ⟨hsettled, -⟩ | ⟨-, p, _, ⟨hp, rfl⟩, row, _, ⟨⟨hrow, hactive⟩, rfl⟩,
    ⟨-, _, s₁, ⟨-, rfl⟩, _, s₂, hrec, _, s₃, rfl, ⟨row', hrow', hfit⟩, -⟩ | ⟨hsuccess, -⟩⟩⟩ := h
  · obtain rfl : pay = pay' := Option.some.inj (hpay.symm.trans hpay')
    exact absurd hpend hsettled
  · obtain rfl : pay = pay' := Option.some.inj (hpay.symm.trans hpay')
    obtain ⟨saved, -, rfl⟩ := commits_recordPaymentEvent hrec
    obtain rfl : row = row' := Option.some.inj (hrow.symm.trans hrow')
    exact ⟨p, row, hp, hrow, hactive, hfit⟩
  · exact absurd hfail hsuccess

end Refusal

/-! ## The whole call -/

section Call

variable {s : Sys} {authority : String} {k now : ℕ} {pay : Payment} {hooksOk : Bool}

/-- `verify_payment` of a pending payment up to the call of the provider. -/
theorem perform_verify_pending (hk : paymentByAuthority s.db authority = some k)
    (hpay : s.db.payments[k]? = some pay) (hpend : pay.status = .pending)
    (answer : Option PaymentVerifyResult) :
    perform s (.verify authority answer now hooksOk) =
      run step ⟨s.db, s.threads ++ [.verifying k pay.amount]⟩
        [.pay (.provider s.threads.length answer), .pay (.finalize s.threads.length now hooksOk)] := by
  have hread : step s (.pay (.callback authority)) =
      ⟨s.db, s.threads ++ [.verifying k pay.amount]⟩ := by
    simp [step, transaction, payTransaction, threadsAfter, after, hk, hpay, hpend]
  show run step s [_, _, _] = _
  rw [run_cons, hread]

/-- The provider raised: the call ends without a write. -/
theorem perform_verify_raised (hk : paymentByAuthority s.db authority = some k)
    (hpay : s.db.payments[k]? = some pay) (hpend : pay.status = .pending) :
    (perform s (.verify authority none now hooksOk)).db = s.db := by
  rw [perform_verify_pending hk hpay hpend]
  simp [run_cons, run_nil, step, transaction, payTransaction, threadsAfter, after]

/-- The provider answered for the amount it was asked for: the final block runs. -/
theorem perform_verify_answered (hk : paymentByAuthority s.db authority = some k)
    (hpay : s.db.payments[k]? = some pay) (hpend : pay.status = .pending)
    {result : PaymentVerifyResult} (hamount : result.mismatches pay.amount = false) :
    (perform s (.verify authority (some result) now hooksOk)).db =
      after (finalizeVerifiedPayment k result now hooksOk) s.db := by
  rw [perform_verify_pending hk hpay hpend]
  simp [run_cons, run_nil, step, transaction, payTransaction, threadsAfter, after, hamount]

end Call

/-- The verification has left the payment as one that can be verified later: it is
still PENDING and found by its authority, its participation has the status it had,
and no campaign's reserved shares have moved. -/
structure LeftPending (before after : Store) (authority : String) (k : ℕ) (pay : Payment) :
    Prop where
  payment : (after.payments[k]?).map Payment.status = some .pending
  found : paymentByAuthority after authority = some k
  participation : (after.participations[pay.participation]?).map Participation.status =
    (before.participations[pay.participation]?).map Participation.status
  reserved : ∀ c, reservedShares after.participations c = reservedShares before.participations c
  counters : after.campaigns.map Campaign.purchasedShares =
    before.campaigns.map Campaign.purchasedShares

theorem leftPending_refl {db : Store} {authority : String} {k : ℕ} {pay : Payment}
    (hk : paymentByAuthority db authority = some k) (hpay : db.payments[k]? = some pay)
    (hpend : pay.status = .pending) : LeftPending db db authority k pay :=
  ⟨by simp [hpay, hpend], hk, rfl, fun _ => rfl, rfl⟩

section Verdict

variable {s : Sys} {authority : String} {k : ℕ} {pay : Payment} {outcome : HttpOutcome}

/-- What a verification without a verdict does: nothing, or it stores the refusal. -/
theorem verify_without_verdict_cases (hk : paymentByAuthority s.db authority = some k)
    (hpay : s.db.payments[k]? = some pay) (hpend : pay.status = .pending)
    (hnone : outcome.noVerdict = true) (now : ℕ) (hooksOk : Bool) :
    let s' := perform s (.verify authority (ZarinpalProvider.verdict pay.amount outcome) now hooksOk)
    (outcome.escapes = true ∨ ¬ Refusable s.db pay) ∧ s'.db = s.db ∨
      (outcome.escapes = false ∧ Refusable s.db pay) ∧
        ∃ c, s'.db = s.db.failed k pay c .verifyFailed "transport_error" now := by
  intro s'
  cases hverdict : ZarinpalProvider.verdict pay.amount outcome with
  | none =>
      have hescapes := ZarinpalProvider.verdict_eq_none_iff.mp hverdict
      refine Or.inl ⟨Or.inl hescapes, ?_⟩
      simp only [s', hverdict]
      exact perform_verify_raised hk hpay hpend
  | some result =>
      have hcaught : outcome.escapes = false := by
        rw [Bool.eq_false_iff, ne_eq, ← ZarinpalProvider.verdict_eq_none_iff, hverdict]
        exact Option.some_ne_none _
      have hamount := ZarinpalProvider.verdict_mismatches hverdict
      have hafter : s'.db = after (finalizeVerifiedPayment k result now hooksOk) s.db := by
        simp only [s', hverdict]
        exact perform_verify_answered hk hpay hpend hamount
      have hresult := ZarinpalProvider.verdict_of_noVerdict hnone hverdict
      have hfail : result.success = false := by rw [hresult]
      have hstatus : result.gatewayStatus = "transport_error" := by rw [hresult]
      by_cases hrefusable : Refusable s.db pay
      · -- the block commits
        refine Or.inr ⟨⟨hcaught, hrefusable⟩, ?_⟩
        have hwidth : result.gatewayStatus.length ≤ 50 := by
          rw [hstatus]
          decide
        obtain ⟨c, hcommits⟩ := commits_of_refusable hpay hpend hfail hwidth hrefusable
        exact ⟨c, by rw [hafter, hcommits.after_eq, hstatus]⟩
      · -- the block raises and is undone
        refine Or.inl ⟨Or.inr hrefusable, ?_⟩
        have hatomic : AllOrNothing (finalizeVerifiedPayment k result now hooksOk) :=
          allOrNothing_atomic _
        rw [hafter]
        apply hatomic.after_eq_self
        intro u t hcommits
        exact hrefusable (refusable_of_commits hpay hpend hfail hcommits)

/-- **A verification without a verdict.** It leaves the payment pending exactly when
an exception leaves the adapter or the refusal of the payment cannot be stored. -/
theorem left_pending_without_verdict_iff (hk : paymentByAuthority s.db authority = some k)
    (hpay : s.db.payments[k]? = some pay) (hpend : pay.status = .pending)
    (hnone : outcome.noVerdict = true) (now : ℕ) (hooksOk : Bool) :
    LeftPending s.db
        (perform s (.verify authority (ZarinpalProvider.verdict pay.amount outcome) now hooksOk)).db
        authority k pay ↔
      outcome.escapes = true ∨ ¬ Refusable s.db pay := by
  rcases verify_without_verdict_cases hk hpay hpend hnone now hooksOk with
    ⟨hspared, hsame⟩ | ⟨⟨hcaught, hrefusable⟩, c, hfailed⟩
  · rw [hsame]
    exact iff_of_true (leftPending_refl hk hpay hpend) hspared
  · rw [hfailed]
    refine iff_of_false ?_ (by simp [hcaught, hrefusable])
    intro hleft
    have hstatus := hleft.payment
    simp [Store.failed, hpay, Payment.settle] at hstatus

end Verdict

/-- Two shares are reserved, and the user is at the gateway. -/
def awaitingPayment : Sys :=
  perform (start [tenShares]) (.initiate 0 1 2 5 (some (gatewayYes "A1")))

/-- The payment of `awaitingPayment`. -/
def awaitedPayment : Payment := ⟨0, 1, 2000, "zarinpal", "A1", "", "100", .pending, none, none⟩

/-- An exception that `requests` does not name: the payment waits. -/
theorem left_pending_by_exception :
    LeftPending awaitingPayment.db
      (perform awaitingPayment (.verify "A1"
        (ZarinpalProvider.verdict awaitedPayment.amount .otherException) 9 true)).db
      "A1" 0 awaitedPayment :=
  (left_pending_without_verdict_iff (by decide +kernel) (by decide +kernel) rfl rfl 9 true).mpr
    (Or.inl rfl)

/-- The provider does not answer in time: the payment is FAILED and the two shares
are free. -/
theorem timeout_fails_payment :
    HttpOutcome.timeout.noVerdict = true ∧
    paymentByAuthority awaitingPayment.db "A1" = some 0 ∧
    awaitingPayment.db.payments[0]? = some awaitedPayment ∧
    reservedShares awaitingPayment.db.participations 0 = 2 ∧
    let s' := perform awaitingPayment (.verify "A1"
      (ZarinpalProvider.verdict awaitedPayment.amount .timeout) 9 true)
    s'.db.payments.map Payment.status = [.failed] ∧
    s'.db.participations.map Participation.status = [.failed] ∧
    reservedShares s'.db.participations 0 = 0 ∧
    ¬ LeftPending awaitingPayment.db s'.db "A1" 0 awaitedPayment := by
  refine ⟨rfl, by decide +kernel, by decide +kernel, by decide +kernel, by decide +kernel,
    by decide +kernel, by decide +kernel, ?_⟩
  intro hleft
  exact absurd hleft.payment (by decide +kernel)

end SetadJang.Madadkar
