import Mathlib.Data.List.Induction
import SetadJang.Framework.PyText
import SetadJang.Framework.Rows

/-!
# Offers to help

`submit_offer`, `withdraw_offer` and `review_offer` work on an offer that was loaded before, take no
lock, and write the columns they name.  Calls overlap, so a volunteer may still edit or withdraw an
offer that was reviewed after the call had read it.  A call that reads the offer after its review
does neither, and the outcome that a volunteer sees is the one of the last review that was saved.
`reviews` is there for what is said about runs.
-/

namespace SetadJang.KindnessWall

open SetadJang.Framework

/-! ## Offers -/

inductive OfferStatus where
  | new
  | contacted
  | declined
deriving DecidableEq, Repr

structure KindnessOffer where
  pk : ℕ
  listing : ℕ
  user : ℕ
  message : String
  status : OfferStatus
  adminNote : String
  handledBy : Option ℕ
  handledAt : Option ℤ
deriving DecidableEq, Repr

/-- What a review leaves. -/
structure OfferOutcome where
  status : OfferStatus
  handledBy : Option ℕ
  handledAt : Option ℤ
deriving DecidableEq, Repr

def KindnessOffer.outcome (offer : KindnessOffer) : OfferOutcome :=
  ⟨offer.status, offer.handledBy, offer.handledAt⟩

/-- A service's refusal, the unique constraint, or a row that is gone before it is saved. -/
inductive OfferError where
  | kindnessOffer (message : String)
  | integrity
  | notSaved
deriving DecidableEq, Repr

/-- What the views and the admin review an offer to. -/
inductive Verdict where
  | contacted
  | declined
deriving DecidableEq, Repr

def Verdict.status : Verdict → OfferStatus
  | contacted => .contacted
  | declined => .declined

theorem Verdict.status_ne_new (verdict : Verdict) : verdict.status ≠ .new := by
  cases verdict <;> decide

/-! ## Services -/

structure OfferTable where
  rows : List KindnessOffer := []
  nextPk : ℕ := 0

def OfferTable.find (table : OfferTable) (pk : ℕ) : Option KindnessOffer :=
  table.rows.find? fun offer => offer.pk == pk

/-- `save(update_fields=…)` of columns that `columns` writes. -/
def OfferTable.save (table : OfferTable) (pk : ℕ) (columns : KindnessOffer → KindnessOffer) :
    Except OfferError OfferTable :=
  if (table.find pk).isSome then
    .ok { table with
      rows := table.rows.map fun offer => if offer.pk = pk then columns offer else offer }
  else .error .notSaved

def submitOffer (table : OfferTable) (isPublic : Bool) (listing user : ℕ) (message : String)
    (seen : Option KindnessOffer) : Except OfferError OfferTable :=
  if !isPublic then
    .error (.kindnessOffer "این آگهی روی دیوار نیست؛ اعلام آمادگی معنایی ندارد.")
  else
    match seen with
    | none =>
        if table.rows.any fun offer => offer.listing == listing && offer.user == user then
          .error .integrity
        else
          .ok { rows := table.rows ++
                  [⟨table.nextPk, listing, user, pyStrip message, .new, "", none, none⟩]
                nextPk := table.nextPk + 1 }
    | some offer =>
        if offer.status ≠ .new then
          .error (.kindnessOffer
            "اعلام آمادگی شما بررسی شده است؛ برای پیگیری مستقیم از راه‌های تماس آگهی استفاده کنید.")
        else table.save offer.pk fun row => { row with message := pyStrip message }

def withdrawOffer (table : OfferTable) (user : ℕ) (offer : KindnessOffer) :
    Except OfferError OfferTable :=
  if offer.user ≠ user then
    .error (.kindnessOffer "فقط صاحب اعلام آمادگی می‌تواند آن را پس بگیرد.")
  else if offer.status ≠ .new then
    .error (.kindnessOffer "این اعلام آمادگی بررسی شده و قابل پس‌گرفتن نیست.")
  else .ok { table with rows := table.rows.filter fun row => row.pk != offer.pk }

/-- The note of the loaded offer is written again where none is given. -/
def reviewOffer (table : OfferTable) (admin : ℕ) (status : OfferStatus) (note : String) (now : ℤ)
    (offer : KindnessOffer) : Except OfferError OfferTable :=
  table.save offer.pk fun row =>
    { row with
      status := status
      handledBy := some admin
      handledAt := some now
      adminNote := if pyStrip note = "" then offer.adminNote else pyStrip note }

/-! ## Overlapping calls -/

/-- A call with the offer it has read. -/
inductive OfferCall where
  | submit (isPublic : Bool) (listing user : ℕ) (message : String) (seen : Option KindnessOffer)
  | withdraw (user : ℕ) (seen : KindnessOffer)
  | review (admin : ℕ) (verdict : Verdict) (note : String) (seen : KindnessOffer)
deriving DecidableEq, Repr

structure Reviewed where
  pk : ℕ
  outcome : OfferOutcome
deriving DecidableEq, Repr

structure OfferSys where
  table : OfferTable := {}
  calls : List OfferCall := []
  /-- The reviews that were saved. -/
  reviews : List Reviewed := []

/-- What a call writes at its end. -/
def OfferCall.write (table : OfferTable) (now : ℤ) : OfferCall → Except OfferError OfferTable
  | .submit isPublic listing user message seen =>
      submitOffer table isPublic listing user message seen
  | .withdraw user seen => withdrawOffer table user seen
  | .review admin verdict note seen => reviewOffer table admin verdict.status note now seen

def OfferCall.reviewed (now : ℤ) : OfferCall → List Reviewed
  | .review admin verdict _ seen => [⟨seen.pk, verdict.status, some admin, some now⟩]
  | _ => []

inductive OfferAct where
  | openSubmit (isPublic : Bool) (listing user : ℕ) (message : String)
  | openWithdraw (user pk : ℕ)
  | openReview (admin : ℕ) (verdict : Verdict) (note : String) (pk : ℕ)
  | finish (call : ℕ) (now : ℤ)
deriving DecidableEq, Repr

namespace OfferSys

/-- A call is open from its read on; a view that finds no offer answers at once. -/
def openCall (s : OfferSys) (call : Option OfferCall) : OfferSys :=
  { s with calls := s.calls ++ call.toList }

def finishCall (s : OfferSys) (call : OfferCall) (now : ℤ) : OfferSys :=
  match call.write s.table now with
  | .error _ => s
  | .ok table => { s with table := table, reviews := s.reviews ++ call.reviewed now }

def step (s : OfferSys) : OfferAct → OfferSys
  | .openSubmit isPublic listing user message =>
      s.openCall (some (.submit isPublic listing user message
        (s.table.rows.find? fun offer => offer.listing == listing && offer.user == user)))
  | .openWithdraw user pk => s.openCall ((s.table.find pk).map (.withdraw user))
  | .openReview admin verdict note pk =>
      s.openCall ((s.table.find pk).map (.review admin verdict note))
  | .finish i now =>
      match s.calls[i]? with
      | none => s
      | some call => { s.finishCall call now with calls := s.calls.eraseIdx i }

def run (acts : List OfferAct) : OfferSys := acts.foldl step {}

theorem run_append (before after : List OfferAct) :
    run (before ++ after) = after.foldl step (run before) := List.foldl_append

end OfferSys

/-! ## The last review -/

/-- The plain program: what the last of the reviews says about the offer. -/
def lastOutcome (reviews : List Reviewed) (pk : ℕ) : OfferOutcome :=
  reviews.foldl (fun outcome r => if r.pk = pk then r.outcome else outcome) ⟨.new, none, none⟩

theorem lastOutcome_snoc (reviews : List Reviewed) (r : Reviewed) (pk : ℕ) :
    lastOutcome (reviews ++ [r]) pk = if r.pk = pk then r.outcome else lastOutcome reviews pk := by
  rw [lastOutcome, List.foldl_append]
  rfl

theorem lastOutcome_fresh {reviews : List Reviewed} {pk : ℕ} (h : ∀ r ∈ reviews, r.pk < pk) :
    lastOutcome reviews pk = ⟨.new, none, none⟩ := by
  induction reviews using List.reverseRecOn with
  | nil => rfl
  | append_singleton reviews r ih =>
      have hne : r.pk ≠ pk := (h r (by simp)).ne
      rw [lastOutcome_snoc, if_neg hne]
      exact ih fun r' hr' => h r' (List.mem_append_left _ hr')

structure Consistent (table : OfferTable) (reviews : List Reviewed) : Prop where
  fresh : ∀ offer ∈ table.rows, offer.pk < table.nextPk
  logged : ∀ r ∈ reviews, r.pk < table.nextPk
  unique : UniqueBy KindnessOffer.pk table.rows
  outcome : ∀ offer ∈ table.rows, offer.outcome = lastOutcome reviews offer.pk

section

variable {table table' : OfferTable} {reviews : List Reviewed} {pk : ℕ}
  {columns : KindnessOffer → KindnessOffer}

/-- What a save that went through has done. -/
theorem save_ok (h : table.save pk columns = .ok table') :
    (∃ offer ∈ table.rows, offer.pk = pk) ∧
      table' = { table with
        rows := table.rows.map fun offer => if offer.pk = pk then columns offer else offer } := by
  unfold OfferTable.save at h
  split_ifs at h with hsome
  obtain ⟨offer, hfind⟩ := Option.isSome_iff_exists.mp hsome
  exact ⟨⟨offer, List.mem_of_find?_eq_some hfind, by simpa using List.find?_some hfind⟩,
    (Except.ok.inj h).symm⟩

theorem pk_saved (hkeep : ∀ offer, (columns offer).pk = offer.pk) (offer : KindnessOffer) :
    (if offer.pk = pk then columns offer else offer).pk = offer.pk := by
  split_ifs
  · exact hkeep offer
  · rfl

/-- A save keeps the table consistent with reviews that say what it has written. -/
theorem consistent_save {reviews' : List Reviewed} (h : Consistent table reviews)
    (hsave : table.save pk columns = .ok table') (hkeep : ∀ offer, (columns offer).pk = offer.pk)
    (hlogged : ∀ r ∈ reviews', r ∈ reviews ∨ r.pk = pk)
    (hother : ∀ pk', pk' ≠ pk → lastOutcome reviews' pk' = lastOutcome reviews pk')
    (hwritten : ∀ offer, offer.outcome = lastOutcome reviews pk →
      (columns offer).outcome = lastOutcome reviews' pk) : Consistent table' reviews' := by
  obtain ⟨⟨stored, hstored, hpk⟩, rfl⟩ := save_ok hsave
  refine ⟨fun offer hoffer => ?_, fun r hr => ?_, uniqueBy_map (pk_saved hkeep) h.unique,
    fun offer hoffer => ?_⟩
  · obtain ⟨row, hrow, rfl⟩ := List.mem_map.mp hoffer
    rw [pk_saved hkeep]
    exact h.fresh row hrow
  · rcases hlogged r hr with hold | hnew
    · exact h.logged r hold
    · rw [hnew, ← hpk]
      exact h.fresh stored hstored
  · obtain ⟨row, hrow, rfl⟩ := List.mem_map.mp hoffer
    by_cases hrowPk : row.pk = pk
    · rw [if_pos hrowPk, hkeep, hrowPk]
      exact hwritten row (hrowPk ▸ h.outcome row hrow)
    · rw [if_neg hrowPk, hother _ hrowPk]
      exact h.outcome row hrow

theorem consistent_submit {isPublic : Bool} {listing user : ℕ} {message : String}
    {seen : Option KindnessOffer} (h : Consistent table reviews)
    (hwrite : submitOffer table isPublic listing user message seen = .ok table') :
    Consistent table' reviews := by
  cases seen with
  | none =>
      simp only [submitOffer] at hwrite
      split_ifs at hwrite
      obtain rfl := (Except.ok.inj hwrite).symm
      refine ⟨fun offer hoffer => ?_, fun r hr => Nat.lt_succ_of_lt (h.logged r hr),
        uniqueBy_append (fun offer hoffer => (h.fresh offer hoffer).ne) h.unique,
        fun offer hoffer => ?_⟩
      · rcases List.mem_append.mp hoffer with hold | hlast
        · exact Nat.lt_succ_of_lt (h.fresh offer hold)
        · rw [List.mem_singleton.mp hlast]
          exact Nat.lt_succ_self _
      · rcases List.mem_append.mp hoffer with hold | hlast
        · exact h.outcome offer hold
        · rw [List.mem_singleton.mp hlast, lastOutcome_fresh h.logged]
          rfl
  | some offer =>
      simp only [submitOffer] at hwrite
      split_ifs at hwrite
      exact consistent_save h hwrite (fun _ => rfl) (fun _ hr => .inl hr) (fun _ _ => rfl)
        fun _ hout => hout

theorem consistent_withdraw {user : ℕ} {offer : KindnessOffer} (h : Consistent table reviews)
    (hwrite : withdrawOffer table user offer = .ok table') : Consistent table' reviews := by
  unfold withdrawOffer at hwrite
  split_ifs at hwrite
  obtain rfl := (Except.ok.inj hwrite).symm
  have hsub : ∀ row ∈ table.rows.filter fun row => row.pk != offer.pk, row ∈ table.rows :=
    fun row hrow => (List.mem_filter.mp hrow).1
  exact ⟨fun row hrow => h.fresh row (hsub row hrow), h.logged,
    fun x hx y hy => h.unique x (hsub x hx) y (hsub y hy),
    fun row hrow => h.outcome row (hsub row hrow)⟩

theorem consistent_review {admin : ℕ} {status : OfferStatus} {note : String} {now : ℤ}
    {offer : KindnessOffer} (h : Consistent table reviews)
    (hwrite : reviewOffer table admin status note now offer = .ok table') :
    Consistent table' (reviews ++ [⟨offer.pk, status, some admin, some now⟩]) := by
  refine consistent_save h hwrite (fun _ => rfl) (fun r hr => ?_) (fun pk' hne => ?_)
    fun _ _ => ?_
  · rcases List.mem_append.mp hr with hold | hlast
    · exact .inl hold
    · rw [List.mem_singleton.mp hlast]
      exact .inr rfl
  · rw [lastOutcome_snoc, if_neg hne.symm]
  · rw [lastOutcome_snoc, if_pos rfl]
    rfl

end

/-- The table of a run says what the last review of each offer says. -/
theorem consistent_finish {s : OfferSys} (h : Consistent s.table s.reviews) (call : OfferCall)
    (now : ℤ) : Consistent (s.finishCall call now).table (s.finishCall call now).reviews := by
  unfold OfferSys.finishCall
  cases hwrite : call.write s.table now with
  | error _ => exact h
  | ok table =>
      cases call with
      | submit isPublic listing user message seen =>
          rw [show (OfferCall.submit isPublic listing user message seen).reviewed now = [] from rfl,
            List.append_nil]
          exact consistent_submit h hwrite
      | withdraw user seen =>
          rw [show (OfferCall.withdraw user seen).reviewed now = [] from rfl, List.append_nil]
          exact consistent_withdraw h hwrite
      | review admin verdict note seen => exact consistent_review h hwrite

theorem consistent_step {s : OfferSys} (h : Consistent s.table s.reviews) (act : OfferAct) :
    Consistent (s.step act).table (s.step act).reviews := by
  cases act with
  | openSubmit isPublic listing user message => exact h
  | openWithdraw user pk => exact h
  | openReview admin verdict note pk => exact h
  | finish i now =>
      rw [OfferSys.step]
      cases s.calls[i]? with
      | none => exact h
      | some call => exact consistent_finish h call now

theorem consistent_run (acts : List OfferAct) :
    Consistent (OfferSys.run acts).table (OfferSys.run acts).reviews := by
  induction acts using List.reverseRecOn with
  | nil =>
      have hnone : ∀ offer, offer ∉ (OfferSys.run []).table.rows := fun _ => List.not_mem_nil
      exact ⟨fun offer h => absurd h (hnone offer), fun _ h => absurd h List.not_mem_nil,
        fun offer h => absurd h (hnone offer), fun offer h => absurd h (hnone offer)⟩
  | append_singleton acts act ih =>
      rw [OfferSys.run_append]
      exact consistent_step ih act

/-! ## After a review -/

/-- The call may edit or withdraw the offer: it read the offer before a review. -/
def OfferCall.MayTouch (pk : ℕ) : OfferCall → Prop
  | .submit _ _ _ _ seen => ∃ offer ∈ seen, offer.pk = pk ∧ offer.status = .new
  | .withdraw _ seen => seen.pk = pk ∧ seen.status = .new
  | .review _ _ _ _ => False

/-- The rows under the key are the reviewed offer, whatever its reviews say. -/
structure Stands (offer : KindnessOffer) (table : OfferTable) : Prop where
  stored : ∃ row ∈ table.rows, row.pk = offer.pk
  same : ∀ row ∈ table.rows, row.pk = offer.pk → row.status ≠ .new ∧
    row.listing = offer.listing ∧ row.user = offer.user ∧ row.message = offer.message

section

variable {offer : KindnessOffer} {table table' : OfferTable} {reviews : List Reviewed} {pk : ℕ}
  {columns : KindnessOffer → KindnessOffer}

/-- A save of another offer, or of columns of this one that a review writes. -/
theorem stands_save (h : Stands offer table) (hsave : table.save pk columns = .ok table')
    (hkeep : ∀ row, (columns row).pk = row.pk)
    (hwritten : pk = offer.pk → ∀ row, (columns row).status ≠ .new ∧
      (columns row).listing = row.listing ∧ (columns row).user = row.user ∧
      (columns row).message = row.message) : Stands offer table' := by
  obtain ⟨-, rfl⟩ := save_ok hsave
  refine ⟨?_, fun row' hrow' hrowPk => ?_⟩
  · obtain ⟨row, hrow, hrowPk⟩ := h.stored
    exact ⟨_, List.mem_map_of_mem hrow, (pk_saved hkeep row).trans hrowPk⟩
  · obtain ⟨row, hrow, rfl⟩ := List.mem_map.mp hrow'
    rw [pk_saved hkeep] at hrowPk
    obtain ⟨hstatus, hlisting, huser, hmessage⟩ := h.same row hrow hrowPk
    by_cases hsaved : row.pk = pk
    · rw [if_pos hsaved]
      obtain ⟨hnew, hlisting', huser', hmessage'⟩ := hwritten (hsaved.symm.trans hrowPk) row
      exact ⟨hnew, hlisting'.trans hlisting, huser'.trans huser, hmessage'.trans hmessage⟩
    · rw [if_neg hsaved]
      exact ⟨hstatus, hlisting, huser, hmessage⟩

/-- A call that may not touch the offer leaves it standing. -/
theorem stands_write (hcon : Consistent table reviews) (h : Stands offer table) {call : OfferCall}
    (htouch : ¬ call.MayTouch offer.pk) {now : ℤ} (hwrite : call.write table now = .ok table') :
    Stands offer table' := by
  cases call with
  | submit isPublic listing user message seen =>
      cases seen with
      | none =>
          simp only [OfferCall.write, submitOffer] at hwrite
          split_ifs at hwrite
          obtain rfl := (Except.ok.inj hwrite).symm
          obtain ⟨row, hrow, hpk⟩ := h.stored
          refine ⟨⟨row, List.mem_append_left _ hrow, hpk⟩, fun row' hrow' hpk' => ?_⟩
          rcases List.mem_append.mp hrow' with hold | hlast
          · exact h.same row' hold hpk'
          · rw [List.mem_singleton.mp hlast] at hpk'
            have hlt := hcon.fresh row hrow
            rw [hpk, ← hpk'] at hlt
            exact absurd hlt (Nat.lt_irrefl _)
      | some seen =>
          simp only [OfferCall.write, submitOffer] at hwrite
          split_ifs at hwrite with _ hstatus
          refine stands_save h hwrite (fun _ => rfl) fun hpk => ?_
          exact absurd ⟨seen, rfl, hpk, not_not.mp hstatus⟩ htouch
  | withdraw user seen =>
      simp only [OfferCall.write, withdrawOffer] at hwrite
      split_ifs at hwrite with _ hstatus
      obtain rfl := (Except.ok.inj hwrite).symm
      have hne : seen.pk ≠ offer.pk := fun hpk => htouch ⟨hpk, not_not.mp hstatus⟩
      refine ⟨?_, fun row hrow => h.same row (List.mem_filter.mp hrow).1⟩
      obtain ⟨row, hrow, hpk⟩ := h.stored
      refine ⟨row, List.mem_filter.mpr ⟨hrow, ?_⟩, hpk⟩
      rw [bne_iff_ne, hpk]
      exact hne.symm
  | review admin verdict note seen =>
      exact stands_save h hwrite (fun _ => rfl) fun _ row =>
        ⟨verdict.status_ne_new, rfl, rfl, rfl⟩

end

/-- The offer stands, and no open call may touch it. -/
def Settled (offer : KindnessOffer) (s : OfferSys) : Prop :=
  Stands offer s.table ∧ ∀ call ∈ s.calls, ¬ call.MayTouch offer.pk

theorem settled_open {offer : KindnessOffer} {s : OfferSys} (h : Settled offer s)
    {call : Option OfferCall} (hcall : ∀ c ∈ call, ¬ c.MayTouch offer.pk) :
    Settled offer (s.openCall call) := by
  refine ⟨h.1, fun c hc => ?_⟩
  rcases List.mem_append.mp hc with hold | hnew
  · exact h.2 c hold
  · exact hcall c (Option.mem_toList.mp hnew)

theorem settled_step {offer : KindnessOffer} {s : OfferSys} (hcon : Consistent s.table s.reviews)
    (h : Settled offer s) (act : OfferAct) : Settled offer (s.step act) := by
  -- A row that is read now has been reviewed.
  have hread : ∀ row ∈ s.table.rows, ¬ (row.pk = offer.pk ∧ row.status = .new) :=
    fun row hrow hboth => (h.1.same row hrow hboth.1).1 hboth.2
  cases act with
  | openSubmit isPublic listing user message =>
      refine settled_open h fun c hc => ?_
      obtain rfl := Option.some.inj hc
      rintro ⟨row, hseen, hboth⟩
      exact hread row (List.mem_of_find?_eq_some hseen) hboth
  | openWithdraw user pk =>
      refine settled_open h fun c hc => ?_
      obtain ⟨row, hseen, rfl⟩ := Option.map_eq_some_iff.mp hc
      exact hread row (List.mem_of_find?_eq_some hseen)
  | openReview admin verdict note pk =>
      refine settled_open h fun c hc => ?_
      obtain ⟨row, -, rfl⟩ := Option.map_eq_some_iff.mp hc
      exact fun htouch => htouch
  | finish i now =>
      rw [OfferSys.step]
      cases hcall : s.calls[i]? with
      | none => exact h
      | some call =>
          have hmem : call ∈ s.calls := List.mem_of_getElem? hcall
          refine ⟨?_, fun c hc => h.2 c (List.mem_of_mem_eraseIdx hc)⟩
          show Stands offer (s.finishCall call now).table
          unfold OfferSys.finishCall
          cases hwrite : call.write s.table now with
          | error _ => exact h.1
          | ok table => exact stands_write hcon h.1 (h.2 call hmem) hwrite

theorem settled_run {offer : KindnessOffer} {before : List OfferAct}
    (h : Settled offer (OfferSys.run before)) (after : List OfferAct) :
    Settled offer (OfferSys.run (before ++ after)) := by
  induction after using List.reverseRecOn with
  | nil =>
      rw [List.append_nil]
      exact h
  | append_singleton after act ih =>
      rw [← List.append_assoc, OfferSys.run_append]
      exact settled_step (consistent_run _) ih act

/-- An offer is made and reviewed. -/
def reviewedOnce : List OfferAct :=
  [.openSubmit true 7 3 "blanket", .finish 0 10, .openReview 1 .contacted "" 0, .finish 0 20]

/-- Its volunteer tries to edit and to withdraw it, and the admin changes the verdict. -/
def secondThoughts : List OfferAct :=
  [.openSubmit true 7 3 "two blankets", .openWithdraw 3 0, .finish 0 30, .finish 0 40,
    .openReview 2 .declined "" 0, .finish 0 50]

end SetadJang.KindnessWall
