import Mathlib.Logic.Relation
import SetadJang.Madadkar.Agreement

/-!
# Sequential runs

A sequential run performs one call after the other, each from its first read to
its last write.  It is a run of the interleaved system in which no other thread
moves in between, so every transaction still finds the rows its call has read:
an expiry finds the participation pending, a payment is stored for a pending
participation of the same amount, a foreign amount is reported for a pending
payment.  `CalmCommit` are the commits that remain.
-/

namespace SetadJang.Madadkar

open SetadJang.Framework SetadJang.Framework.Txn

/-- A call of a service with what the gateway, the provider and the clock tell
it.  The expiry task is its work on one participation. -/
inductive Operation where
  | initiate (c user : ℕ) (shareCount : ℤ) (now : ℕ) (answer : Option PaymentRequestResult)
  | verify (authority : String) (answer : Option PaymentVerifyResult) (now : ℕ) (hooksOk : Bool)
  | cancel (authority : String) (now : ℕ)
  | expire (pid cutoff now : ℕ)
  | fin (a : FinAct)
deriving DecidableEq, Repr

/-- The steps of a call that runs as thread `n`.  A call that returned early
leaves no thread, and its remaining steps do nothing. -/
def Operation.steps (n : ℕ) : Operation → List Act
  | .initiate c user shareCount now answer =>
      [.pay (.initiate c user shareCount now), .pay (.gateway n answer), .pay (.persist n),
        .pay (.release n)]
  | .verify authority answer now hooksOk =>
      [.pay (.callback authority), .pay (.provider n answer), .pay (.finalize n now hooksOk)]
  | .cancel authority now => [.pay (.cancel authority), .pay (.cancelLocked n now)]
  | .expire pid cutoff now => [.pay (.loadStale pid cutoff), .pay (.expire n now)]
  | .fin a => [.fin a]

/-- One call, from its first read to its last write. -/
def perform (s : Sys) (op : Operation) : Sys := run step s (op.steps s.threads.length)

/-! ## Calm commits -/

/-- The commit finds what its call has read. -/
def Effect.Calm (s : Store) : Effect → Prop
  | .release pid => ∀ pay ∈ s.payments, pay.participation ≠ pid
  | .persist _ => False
  | .mismatch k => ∀ pay ∈ s.payments[k]?, pay.status = .pending
  | .expire pid _ => ∀ p ∈ s.participations[pid]?, p.status = .pendingPayment
  | _ => True

/-- The commits of sequential runs.  A new payment is that of its participation. -/
inductive CalmCommit (s : Store) : Store → Prop
  | persist {pay : Payment} {p : Participation}
      (hp : s.participations[pay.participation]? = some p) (hopen : p.status = .pendingPayment)
      (hamount : pay.amount = p.totalAmount) (hpend : pay.status = .pending)
      (hnew : ∀ q ∈ s.payments, q.participation ≠ pay.participation) :
      CalmCommit s ((s.addPayment pay).addEvent
        (Store.eventFor pay s.payments.length .created none (some .pending)))
  | other {e : Effect} {t : Store} (h : Commit s e t) (hcalm : e.Calm s) : CalmCommit s t

/-! ## Idle steps -/

/-- The thread a step of a payment call moves. -/
def PayAct.thread : PayAct → Option ℕ
  | .gateway i _ => some i
  | .persist i => some i
  | .release i => some i
  | .provider i _ => some i
  | .finalize i _ _ => some i
  | .cancelLocked i _ => some i
  | .expire i _ => some i
  | _ => none

theorem step_idle {s : Sys} {a : PayAct} {n : ℕ} (ha : a.thread = some n)
    (hn : s.threads[n]? = none ∨ s.threads[n]? = some .done) : step s (.pay a) = s := by
  have hboth : after (transaction s (.pay a)) s.db = s.db ∧ threadsAfter s (.pay a) = s.threads := by
    cases a with
    | initiate c user shareCount now => simp [PayAct.thread] at ha
    | callback authority => simp [PayAct.thread] at ha
    | cancel authority => simp [PayAct.thread] at ha
    | loadStale pid cutoff => simp [PayAct.thread] at ha
    | _ =>
        cases ha
        rcases hn with h | h <;> simp [transaction, payTransaction, threadsAfter, after, h]
  rw [step, hboth.1, hboth.2]

theorem run_idle {s : Sys} {acts : List PayAct} {n : ℕ} (ha : ∀ a ∈ acts, a.thread = some n)
    (hn : s.threads[n]? = none ∨ s.threads[n]? = some .done) :
    run step s (acts.map Act.pay) = s := by
  induction acts with
  | nil => rfl
  | cons a acts ih =>
      rw [List.map_cons, run_cons, step_idle (ha a List.mem_cons_self) hn]
      exact ih fun b hb => ha b (List.mem_cons_of_mem _ hb)

/-! ## Calls -/

/-- Every call that was started has ended. -/
def AllDone (s : Sys) : Prop := ∀ th ∈ s.threads, th = .done

/-- From a state in which every call has ended, the call ends too, and has left
the database alone or changed it by calm commits. -/
def Completes (s s' : Sys) : Prop :=
  AllDone s' ∧ Relation.ReflTransGen CalmCommit s.db s'.db

theorem Completes.refl {s : Sys} (hs : AllDone s) : Completes s s := ⟨hs, .refl⟩

theorem allDone_concat {ths : List Thread} (h : ∀ th ∈ ths, th = .done) :
    ∀ th ∈ ths ++ [Thread.done], th = .done := by
  intro th hth
  rcases List.mem_append.mp hth with hold | hnew
  · exact h th hold
  · exact List.mem_singleton.mp hnew

/-- The last step of a call whose thread is the last one. -/
theorem Completes.last {s : Sys} {ths : List Thread} {a : PayAct}
    (hths : ∀ th ∈ ths, th = .done) (hthreads : threadsAfter s (.pay a) = ths ++ [.done])
    (hcalm : ∀ e, attempts s (.pay a) = some e → e.Calm s.db) : Completes s (step s (.pay a)) := by
  refine ⟨?_, ?_⟩
  · intro th hth
    have hmem : th ∈ ths ++ [Thread.done] := hthreads ▸ hth
    exact allDone_concat hths th hmem
  · rcases step_db s (.pay a) with hsame | ⟨e, he, hcommit⟩
    · rw [hsame]
    · exact .single (.other hcommit (hcalm e he))

theorem Completes.trans {s s'' : Sys} (s' : Sys) (h : Relation.ReflTransGen CalmCommit s.db s'.db)
    (h' : Completes s' s'') : Completes s s'' :=
  ⟨h'.1, h.trans h'.2⟩

section

variable {s : Sys} (hs : AllDone s)

include hs

/-- A call that reads first: without a thread nothing follows, and the thread it
starts ends with its transaction. -/
theorem completes_read (first : PayAct) (rest : List PayAct)
    (hdb : after (transaction s (.pay first)) s.db = s.db)
    (hrest : ∀ a ∈ rest, a.thread = some s.threads.length)
    (hthreads : threadsAfter s (.pay first) = s.threads ∨
      ∃ th, threadsAfter s (.pay first) = s.threads ++ [th] ∧
        Completes s (run step ⟨s.db, s.threads ++ [th]⟩ (rest.map Act.pay))) :
    Completes s (run step s ((first :: rest).map Act.pay)) := by
  have hstep : step s (.pay first) = ⟨s.db, threadsAfter s (.pay first)⟩ := by rw [step, hdb]
  rw [List.map_cons, run_cons, hstep]
  rcases hthreads with hsame | ⟨th, hnew, hcompletes⟩
  · rw [hsame]
    have hidle : run step s (rest.map Act.pay) = s := by
      apply run_idle hrest
      exact Or.inl (List.getElem?_eq_none (Nat.le_refl _))
    rw [show (⟨s.db, s.threads⟩ : Sys) = s from rfl, hidle]
    exact Completes.refl hs
  · rw [hnew]
    exact hcompletes

theorem perform_expire (pid cutoff now : ℕ) :
    Completes s (perform s (.expire pid cutoff now)) := by
  apply completes_read hs (.loadStale pid cutoff) [.expire s.threads.length now] rfl (by simp [PayAct.thread])
  simp only [threadsAfter]
  cases hp : s.db.participations[pid]? with
  | none => exact Or.inl rfl
  | some p =>
      simp only
      split_ifs with hstale
      · refine Or.inr ⟨.expiring pid p, rfl, ?_⟩
        apply Completes.last hs (by simp [threadsAfter])
        intro e he
        obtain rfl : Effect.expire pid p.campaign = e := by simpa [attempts] using he
        intro q hq
        rw [hp, Option.mem_some_iff] at hq
        rw [← hq]
        exact hstale.1
      · exact Or.inl rfl

theorem perform_cancel (authority : String) (now : ℕ) :
    Completes s (perform s (.cancel authority now)) := by
  apply completes_read hs (.cancel authority) [.cancelLocked s.threads.length now] rfl (by simp [PayAct.thread])
  simp only [threadsAfter]
  split
  · next k hk =>
      split
      · next pay hpay =>
          split_ifs
          · refine Or.inr ⟨.cancelling k, rfl, ?_⟩
            apply Completes.last hs (by simp [threadsAfter])
            intro e he
            obtain rfl : Effect.reject k = e := by simpa [attempts] using he
            trivial
          · exact Or.inl rfl
      · exact Or.inl rfl
  · exact Or.inl rfl

/-- The provider has answered for a payment that is still pending. -/
theorem completes_finalize {k amount : ℕ} {pay : Payment} (hpay : s.db.payments[k]? = some pay)
    (hpend : pay.status = .pending) (result : PaymentVerifyResult) (now : ℕ) (hooksOk : Bool) :
    Completes s (step ⟨s.db, s.threads ++ [.verified k amount result]⟩
      (.pay (.finalize s.threads.length now hooksOk))) := by
  apply Completes.last hs (by simp [threadsAfter])
  intro e he
  simp only [attempts, List.getElem?_concat_length, Option.some.injEq] at he
  subst he
  by_cases hm : result.mismatches amount = true
  · rw [if_pos hm]
    intro q hq
    rw [hpay, Option.mem_some_iff] at hq
    rw [← hq]
    exact hpend
  · rw [if_neg hm, verdictEffect]
    split_ifs <;> trivial

theorem perform_verify (authority : String) (answer : Option PaymentVerifyResult) (now : ℕ)
    (hooksOk : Bool) : Completes s (perform s (.verify authority answer now hooksOk)) := by
  apply completes_read hs (.callback authority)
    [.provider s.threads.length answer, .finalize s.threads.length now hooksOk] rfl
    (by simp [PayAct.thread])
  simp only [threadsAfter]
  split
  · next k hk =>
      split
      · next pay hpay =>
          split_ifs with hpend
          · refine Or.inr ⟨.verifying k pay.amount, rfl, ?_⟩
            rw [List.map_cons, run_cons]
            cases answer with
            | none =>
                have hended : step ⟨s.db, s.threads ++ [.verifying k pay.amount]⟩
                    (.pay (.provider s.threads.length none)) = ⟨s.db, s.threads ++ [.done]⟩ := by
                  simp [step, transaction, payTransaction, threadsAfter, after]
                rw [hended, run_idle (n := s.threads.length) (by simp [PayAct.thread])
                  (Or.inr (by simp))]
                exact ⟨allDone_concat hs, .refl⟩
            | some result =>
                have hanswered : step ⟨s.db, s.threads ++ [.verifying k pay.amount]⟩
                    (.pay (.provider s.threads.length (some result))) =
                      ⟨s.db, s.threads ++ [.verified k pay.amount result]⟩ := by
                  simp [step, transaction, payTransaction, threadsAfter, after]
                rw [hanswered]
                exact completes_finalize hs hpay hpend result now hooksOk
          · exact Or.inl rfl
      · exact Or.inl rfl
  · exact Or.inl rfl

theorem perform_fin (a : FinAct) : Completes s (perform s (.fin a)) := by
  refine ⟨hs, ?_⟩
  rcases step_db s (.fin a) with hsame | ⟨e, he, hcommit⟩
  · have hdb : (perform s (.fin a)).db = s.db := hsame
    rw [hdb]
  · refine .single (.other hcommit ?_)
    cases a <;> cases he <;> trivial

/-- The gateway refused: the shares are given back, and no payment refers to them. -/
theorem completes_release {t : Store} {pid : ℕ}
    (hunpaid : ∀ pay ∈ t.payments, pay.participation ≠ pid) :
    Completes ⟨t, []⟩ (run step ⟨t, s.threads ++ [.refused pid]⟩
      [.pay (.persist s.threads.length), .pay (.release s.threads.length)]) := by
  have hskip : step ⟨t, s.threads ++ [.refused pid]⟩ (.pay (.persist s.threads.length)) =
      ⟨t, s.threads ++ [.refused pid]⟩ := by
    simp [step, transaction, payTransaction, threadsAfter, after]
  rw [run_cons, hskip]
  apply Completes.last hs (by simp [threadsAfter])
  intro e he
  obtain rfl : Effect.release pid = e := by simpa [attempts] using he
  exact hunpaid

/-- The gateway accepted: the payment is stored for the participation that was
just reserved. -/
theorem completes_persist {t : Store} {pid user : ℕ} {p : Participation}
    (result : PaymentRequestResult) (hp : t.participations[pid]? = some p)
    (hopen : p.status = .pendingPayment) :
    Completes ⟨t, []⟩ (run step ⟨t, s.threads ++ [.accepted pid user p.totalAmount result]⟩
      [.pay (.persist s.threads.length), .pay (.release s.threads.length)]) := by
  have hthreads : threadsAfter ⟨t, s.threads ++ [.accepted pid user p.totalAmount result]⟩
      (.pay (.persist s.threads.length)) = s.threads ++ [.done] := by
    simp [threadsAfter]
  rw [run_cons, run_cons, run_nil, step_idle (n := s.threads.length) rfl
    (Or.inr (by simp [step, hthreads]))]
  refine ⟨?_, ?_⟩
  · intro th hth
    have hmem : th ∈ s.threads ++ [Thread.done] := hthreads ▸ hth
    exact allDone_concat hs th hmem
  · rcases allOrNothing_transaction ⟨t, s.threads ++ [.accepted pid user p.totalAmount result]⟩
      (.pay (.persist s.threads.length)) t with hsame | ⟨u, hcommit⟩
    · simp only [step]
      rw [hsame]
    · simp only [transaction, payTransaction, List.getElem?_concat_length] at hcommit
      obtain ⟨k, hk⟩ := commits_of_drop hcommit
      obtain ⟨pay, rfl, hamount, hpend, hnew, -, hdb⟩ := commits_persist hk
      have hstored : (step ⟨t, s.threads ++ [.accepted pay.participation user p.totalAmount result]⟩
          (.pay (.persist s.threads.length))).db = (t.addPayment pay).addEvent
            (Store.eventFor pay t.payments.length .created none (some .pending)) := by
        simp only [step, transaction, payTransaction, List.getElem?_concat_length]
        exact hdb
      rw [hstored]
      exact .single (.persist hp hopen hamount hpend hnew)

omit hs in
/-- `initiate_participation` up to the gateway's answer. -/
theorem step_initiate_cases (c user : ℕ) (shareCount : ℤ) (now : ℕ) :
    step s (.pay (.initiate c user shareCount now)) = s ∨
      ∃ (p : Participation) (t : Store), p.status = .pendingPayment ∧
        t = (s.db.addParticipation p).sync c ∧ Commit s.db .reserve t ∧
        step s (.pay (.initiate c user shareCount now)) =
          ⟨t, s.threads ++ [.reserved s.db.participations.length user p.totalAmount]⟩ := by
  by_cases hcount : shareCount < 1
  · left
    simp [step, transaction, payTransaction, threadsAfter, after, hcount]
  · rcases hexec : exec (reserveParticipationShares c user shareCount.toNat now) s.db with ⟨r, t⟩
    cases r with
    | error e =>
        left
        have hundone : t = s.db := by
          rcases allOrNothing_atomic _ s.db with hsame | ⟨a, hcommit⟩
          · exact (congrArg Prod.snd hexec).symm.trans hsame
          · exact absurd (hexec.symm.trans hcommit) (by simp)
        simp only [step, after, transaction, payTransaction, threadsAfter, if_neg hcount]
        rw [exec_bind_error hexec, hexec, hundone]
    | ok r =>
        obtain ⟨pid, p⟩ := r
        obtain ⟨rfl, hopen, htable, hcommit⟩ := commits_reserve (show Commits _ _ _ _ from hexec)
        refine Or.inr ⟨p, t, hopen, htable, hcommit, ?_⟩
        simp only [step, after, transaction, payTransaction, threadsAfter, if_neg hcount]
        rw [exec_bind_ok hexec, hexec]
        rfl

theorem perform_initiate (hw : Wired s.db) (c user : ℕ) (shareCount : ℤ) (now : ℕ)
    (answer : Option PaymentRequestResult) :
    Completes s (perform s (.initiate c user shareCount now answer)) := by
  show Completes s (run step s [_, _, _, _])
  rw [run_cons]
  rcases step_initiate_cases c user shareCount now with hsame | ⟨p, t, hopen, htable, hcommit, hstep⟩
  · rw [hsame]
    have hidle : run step s (List.map Act.pay [.gateway s.threads.length answer,
        .persist s.threads.length, .release s.threads.length]) = s := by
      refine run_idle (n := s.threads.length) ?_ (Or.inl (List.getElem?_eq_none (Nat.le_refl _)))
      simp [PayAct.thread]
    rw [List.map_cons, List.map_cons, List.map_cons, List.map_nil] at hidle
    rw [hidle]
    exact Completes.refl hs
  · rw [hstep, run_cons]
    have hreserve : Relation.ReflTransGen CalmCommit s.db t := .single (.other hcommit trivial)
    have hrow : t.participations[s.db.participations.length]? = some p := by simp [htable]
    have hunpaid : ∀ pay ∈ t.payments, pay.participation ≠ s.db.participations.length := by
      intro pay hpay heq
      rw [htable] at hpay
      have hlt := hw.payment_participation _ (List.mem_map_of_mem hpay)
      omega
    have hgateway : ∃ th, step ⟨t, s.threads ++ [.reserved s.db.participations.length user
          p.totalAmount]⟩ (.pay (.gateway s.threads.length answer)) = ⟨t, s.threads ++ [th]⟩ ∧
        (th = .refused s.db.participations.length ∨
          ∃ result, th = .accepted s.db.participations.length user p.totalAmount result) := by
      cases answer with
      | none =>
          refine ⟨.refused s.db.participations.length, ?_, Or.inl rfl⟩
          simp [step, transaction, payTransaction, threadsAfter, after]
      | some result =>
          by_cases hyes : result.success = true ∧ result.authority ≠ ""
          · refine ⟨.accepted s.db.participations.length user p.totalAmount result, ?_,
              Or.inr ⟨result, rfl⟩⟩
            simp [step, transaction, payTransaction, threadsAfter, after, hyes]
          · refine ⟨.refused s.db.participations.length, ?_, Or.inl rfl⟩
            simp [step, transaction, payTransaction, threadsAfter, after, hyes]
    obtain ⟨th, hth, rfl | ⟨result, rfl⟩⟩ := hgateway
    · rw [hth]
      exact Completes.trans ⟨t, []⟩ hreserve (completes_release hs hunpaid)
    · rw [hth]
      exact Completes.trans ⟨t, []⟩ hreserve (completes_persist hs result hrow hopen)

theorem perform_completes (hw : Wired s.db) (op : Operation) : Completes s (perform s op) := by
  cases op with
  | initiate c user shareCount now answer =>
      exact perform_initiate hs hw c user shareCount now answer
  | verify authority answer now hooksOk => exact perform_verify hs authority answer now hooksOk
  | cancel authority now => exact perform_cancel hs authority now
  | expire pid cutoff now => exact perform_expire hs pid cutoff now
  | fin a => exact perform_fin hs a

end

/-! ## Runs -/

theorem CalmCommit.wired {s t : Store} (hw : Wired s) (h : CalmCommit s t) : Wired t := by
  cases h with
  | persist hp hopen hamount hpend hnew => exact hw.persisted (lt_length_of_getElem? hp) hnew
  | other h hcalm => exact wired_commit hw h

/-- **Sequential run rule.** What a calm commit keeps, a sequential run keeps. -/
theorem sequential_run {I : Store → Prop}
    (hcommit : ∀ s t, Wired s → I s → CalmCommit s t → I t)
    {campaigns : List Campaign} (hstart : I (start campaigns).db) (ops : List Operation) :
    I (run perform (start campaigns) ops).db := by
  have hall : AllDone (run perform (start campaigns) ops) ∧
      Wired (run perform (start campaigns) ops).db ∧ I (run perform (start campaigns) ops).db := by
    apply invariant_run (I := fun s : Sys => AllDone s ∧ Wired s.db ∧ I s.db)
    · rintro s op ⟨hdone, hw, hs⟩
      obtain ⟨hdone', hcommits⟩ := perform_completes hdone hw op
      refine ⟨hdone', ?_⟩
      generalize (perform s op).db = t at hcommits
      induction hcommits with
      | refl => exact ⟨hw, hs⟩
      | tail _ hlast ih => exact ⟨hlast.wired ih.1, hcommit _ _ ih.1 ih.2 hlast⟩
    · refine ⟨?_, wired_start campaigns, hstart⟩
      intro th hth
      simp [start] at hth
  exact hall.2.2

/-- A sequential run is a run of the interleaved system: what every step keeps, it keeps. -/
theorem invariant_sequential {I : Sys → Prop} (hstep : ∀ s a, I s → I (step s a))
    {campaigns : List Campaign} (hstart : I (start campaigns)) (ops : List Operation) :
    I (run perform (start campaigns) ops) := by
  apply invariant_run (I := I) _ hstart
  intro s op hs
  exact invariant_run (I := I) hstep hs _

theorem sound_sequential (campaigns : List Campaign) (ops : List Operation) :
    Sound (run perform (start campaigns) ops) :=
  invariant_sequential (I := Sound) (fun _ a hs => sound_step hs a) (sound_start campaigns) ops

end SetadJang.Madadkar
