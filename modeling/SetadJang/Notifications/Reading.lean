import SetadJang.Notifications.Dispatch

/-!
# Reading while a dispatch runs

A recipient may read a notification before the dispatcher has written its result.  The
`bulk_update` at the end of a run writes the status of every object that the run loaded,
whatever the row says by then, so READ is lost exactly where a result comes after the reader.
-/

namespace SetadJang.Notifications

open SetadJang.Framework

/-- READ stays READ. -/
def KeepsRead (s s' : DispatchSys) : Prop :=
  Evolves (fun row row' : NotificationDelivery => row.status = .read → row'.status = .read)
    s.deliveries s'.deliveries

theorem keepsRead_refl (s : DispatchSys) : KeepsRead s s := evolves_refl (fun _ h => h) _

theorem keepsRead_trans (s t u : DispatchSys) (hst : KeepsRead s t) (htu : KeepsRead t u) :
    KeepsRead s u :=
  hst.trans (fun _ _ _ hab hbc ha => hbc (hab ha)) htu

/-- A run that writes its results finds none of its deliveries READ. -/
def FindsNoneRead (s : DispatchSys) : DispatchAct → Prop
  | .write i _ =>
      match s.runs[i]? with
      | some (.sending _ answered []) =>
          writeFits answered = true → ∀ object ∈ answered, ∀ row ∈ s.deliveries[object.1]?,
            row.status ≠ .read
      | _ => True
  | _ => True

/-- The results of a run overwrite what the reader wrote. -/
theorem keepsRead_bulkUpdate_iff {deliveries : List NotificationDelivery}
    {objects : List LoadedDelivery}
    (hobjects : ∀ object ∈ objects, object.2.status = .sent ∨ object.2.status = .failed) :
    Evolves (fun row row' : NotificationDelivery => row.status = .read → row'.status = .read)
        deliveries (bulkUpdate deliveries objects) ↔
      ∀ object ∈ objects, ∀ row ∈ deliveries[object.1]?, row.status ≠ .read := by
  constructor
  · intro hkeeps object hobject row hrow hread
    obtain ⟨row', hrow', hkept⟩ := hkeeps object.1 row hrow
    obtain ⟨written, hwritten, hcases⟩ := bulkUpdate_row objects hrow
    obtain rfl : row' = written := Option.some.inj (hrow'.symm.trans hwritten)
    rcases hcases with ⟨hnone, -⟩ | ⟨other, hother, -, hstatus⟩
    · exact hnone object hobject rfl
    · have hstill := hkept hread
      rw [hstatus] at hstill
      rcases hobjects other hother with hsent | hfailed
      · rw [hsent] at hstill
        cases hstill
      · rw [hfailed] at hstill
        cases hstill
  · intro hfree k row hrow
    obtain ⟨row', hrow', ⟨-, rfl⟩ | ⟨object, hobject, rfl, -⟩⟩ :=
      bulkUpdate_row objects hrow
    · exact ⟨_, hrow', fun h => h⟩
    · exact ⟨row', hrow', fun hread => absurd hread (hfree object hobject row hrow)⟩

/-- **Step lemma.** A step keeps what is READ exactly where its results find nothing READ. -/
theorem keepsRead_step_iff {s : DispatchSys} (hs : SettledObjects s) (a : DispatchAct) :
    KeepsRead s (dispatchStep s a) ↔ FindsNoneRead s a := by
  have hsame : ∀ {s' : DispatchSys}, s'.deliveries = s.deliveries → KeepsRead s s' := by
    intro s' heq
    rw [KeepsRead, heq]
    exact keepsRead_refl s
  cases a with
  | write i now =>
      by_cases hdone : ∃ event answered, s.runs[i]? = some (.sending event answered [])
      · obtain ⟨event, answered, hrun⟩ := hdone
        simp only [dispatchStep, FindsNoneRead, hrun]
        rw [DispatchSys.writeResults]
        split
        · next hfits =>
            simp only [hfits, true_implies]
            exact keepsRead_bulkUpdate_iff fun object hobject =>
              (hs i event answered [] hrun object hobject).status
        · next hfits => exact iff_of_true (hsame rfl) fun h => absurd h hfits
      · have hstep : dispatchStep s (.write i now) = s := by
          simp only [dispatchStep]
          split
          · next event answered hrun => exact absurd ⟨event, answered, hrun⟩ hdone
          · rfl
        have hnone : FindsNoneRead s (.write i now) := by
          simp only [FindsNoneRead]
          split
          · next event answered hrun => exact absurd ⟨event, answered, hrun⟩ hdone
          · trivial
        rw [hstep]
        exact iff_of_true (hsame rfl) hnone
  | openEvent => exact iff_of_true (hsame rfl) trivial
  | start i =>
      refine iff_of_true ?_ trivial
      simp only [dispatchStep]
      split <;> exact hsame rfl
  | load i =>
      refine iff_of_true ?_ trivial
      simp only [dispatchStep]
      split <;> exact hsame rfl
  | send i answer now =>
      refine iff_of_true ?_ trivial
      simp only [dispatchStep]
      split <;> exact hsame rfl
  | markDeliveryRead k user now =>
      refine iff_of_true ?_ trivial
      simp only [dispatchStep]
      split
      · split
        · exact evolves_modify (fun _ h => h) fun _ _ _ => rfl
        · exact hsame rfl
      · exact hsame rfl
  | markAllRead user now =>
      refine iff_of_true ?_ trivial
      intro k row hrow
      refine ⟨_, (List.getElem?_map ..).trans (congrArg _ hrow), fun hread => ?_⟩
      simp [hread]

/-- Between any two moments of a run, what was READ at the first is READ at the second. -/
def ReadStaysRead (s : DispatchSys) (acts : List DispatchAct) : Prop :=
  ∀ pre post, pre <+: post → post <+: acts →
    KeepsRead (run dispatchStep s pre) (run dispatchStep s post)

/-- **Reading.** A read notification stays read exactly in the runs in which every run of the
dispatcher writes its results before any of them is read. -/
theorem read_stays_read_iff (targets : List (ℕ × NotificationChannel)) (acts : List DispatchAct) :
    ReadStaysRead (dispatchStart targets) acts ↔
      Along dispatchStep FindsNoneRead (dispatchStart targets) acts := by
  have hstart : SettledObjects (dispatchStart targets) := by
    intro i event answered waiting hrun
    simp [dispatchStart] at hrun
  unfold ReadStaysRead
  rw [← along_related keepsRead_refl keepsRead_trans]
  exact along_congr (I := SettledObjects) (fun s a hs => keepsRead_step_iff hs a)
    (fun s a hs _ => settledObjects_step hs a) hstart acts

/-- The in-app notification is read while the e-mail beside it is still being sent. -/
def readWhileSending : List DispatchAct :=
  [.openEvent, .start 0, .load 0, .send 0 (.ok ⟨true, "django_email", "", ""⟩) 5,
    .markDeliveryRead 0 7 6, .send 0 (.ok ⟨true, "in_app", "", ""⟩) 7, .write 0 8]

theorem read_notification_unread_again :
    ¬ ReadStaysRead (dispatchStart [(7, .inApp), (7, .email)]) readWhileSending := by
  intro h
  have hkeeps := h (readWhileSending.take 5) readWhileSending (List.take_prefix _ _) List.prefix_rfl
  obtain ⟨row, hrow, hread⟩ := hkeeps 0 _ rfl
  have hsent : row.status = .sent := by
    have hfinal : (run dispatchStep (dispatchStart [(7, .inApp), (7, .email)])
        readWhileSending).deliveries[0]?.map NotificationDelivery.status = some .sent := by decide
    rw [hrow] at hfinal
    exact Option.some.inj hfinal
  rw [hread rfl] at hsent
  cases hsent

end SetadJang.Notifications
