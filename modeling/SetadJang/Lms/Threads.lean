import SetadJang.Lms.Discussion

/-!
# Threads keep their shape

An answer hangs below a top-level answer of its own question and responds to an answer of its
own question: a reply to a reply is anchored to the thread when it is created, and a delete that
removes rows takes their children along.  Only edits of the rows' references matter, so every
other write is one congruence.
-/

namespace SetadJang.Lms

open SetadJang.Framework

/-! ## Shape -/

/-- **Thread shape.** -/
structure ThreadsShaped (answers : List LessonAnswer) : Prop where
  parent : ∀ a ∈ answers, ∀ p, a.parent = some p →
    ∃ b ∈ answers, b.pk = p ∧ b.question = a.question ∧ b.parent = none
  replyTo : ∀ a ∈ answers, ∀ r, a.replyTo = some r →
    ∃ b ∈ answers, b.pk = r ∧ b.question = a.question

/-- The shape, with keys from the sequence. -/
structure Threads (s : DiscussionStore) : Prop where
  shaped : ThreadsShaped s.answers
  unique : (s.answers.map LessonAnswer.pk).Nodup
  below : ∀ a ∈ s.answers, a.pk < s.nextAnswer

/-- The columns the shape is about. -/
structure AnswerLinks where
  pk : ℕ
  question : ℕ
  parent : Option ℕ
  replyTo : Option ℕ

def LessonAnswer.links (a : LessonAnswer) : AnswerLinks := ⟨a.pk, a.question, a.parent, a.replyTo⟩

section links

variable {xs ys : List LessonAnswer} {s s' : DiscussionStore}

theorem links_updateWhere {p : LessonAnswer → Bool} {f : LessonAnswer → LessonAnswer}
    (hf : ∀ a, (f a).links = a.links) :
    (updateWhere p f xs).map LessonAnswer.links = xs.map LessonAnswer.links := by
  rw [updateWhere, List.map_map]
  apply List.map_congr_left
  intro a _
  exact updateWhere_column hf a

theorem exists_same_links (h : xs.map LessonAnswer.links = ys.map LessonAnswer.links)
    {a : LessonAnswer} (ha : a ∈ xs) : ∃ b ∈ ys, b.links = a.links := by
  have hmem : a.links ∈ ys.map LessonAnswer.links := h ▸ List.mem_map_of_mem ha
  obtain ⟨b, hb, hlinks⟩ := List.mem_map.mp hmem
  exact ⟨b, hb, hlinks⟩

theorem threadsShaped_congr (h : ys.map LessonAnswer.links = xs.map LessonAnswer.links)
    (hs : ThreadsShaped xs) : ThreadsShaped ys := by
  constructor
  · intro a ha p hp
    obtain ⟨old, hold, hlinks⟩ := exists_same_links h ha
    obtain ⟨b, hb, hpk, hquestion, hparent⟩ :=
      hs.parent old hold p ((congrArg AnswerLinks.parent hlinks).trans hp)
    obtain ⟨b', hb', hlinks'⟩ := exists_same_links h.symm hb
    refine ⟨b', hb', ?_, ?_, ?_⟩
    · exact (congrArg AnswerLinks.pk hlinks').trans hpk
    · exact (congrArg AnswerLinks.question hlinks').trans
        (hquestion.trans (congrArg AnswerLinks.question hlinks))
    · exact (congrArg AnswerLinks.parent hlinks').trans hparent
  · intro a ha r hr
    obtain ⟨old, hold, hlinks⟩ := exists_same_links h ha
    obtain ⟨b, hb, hpk, hquestion⟩ :=
      hs.replyTo old hold r ((congrArg AnswerLinks.replyTo hlinks).trans hr)
    obtain ⟨b', hb', hlinks'⟩ := exists_same_links h.symm hb
    refine ⟨b', hb', ?_, ?_⟩
    · exact (congrArg AnswerLinks.pk hlinks').trans hpk
    · exact (congrArg AnswerLinks.question hlinks').trans
        (hquestion.trans (congrArg AnswerLinks.question hlinks))

/-- A write that leaves the references and the sequence alone. -/
theorem threads_congr (h : s'.answers.map LessonAnswer.links = s.answers.map LessonAnswer.links)
    (hnext : s'.nextAnswer = s.nextAnswer) (hs : Threads s) : Threads s' := by
  have hkeys : s'.answers.map LessonAnswer.pk = s.answers.map LessonAnswer.pk := by
    have hcolumn := congrArg (List.map AnswerLinks.pk) h
    rw [List.map_map, List.map_map] at hcolumn
    exact hcolumn
  refine ⟨threadsShaped_congr h hs.shaped, ?_, ?_⟩
  · rw [hkeys]
    exact hs.unique
  · intro a ha
    obtain ⟨b, hb, hlinks⟩ := exists_same_links h ha
    have hpk : b.pk = a.pk := congrArg AnswerLinks.pk hlinks
    rw [hnext, ← hpk]
    exact hs.below b hb

end links

/-! ## A new answer -/

section created

variable {s : DiscussionStore} {q : ℕ}

/-- The target of a reply is a visible answer of the question. -/
theorem replyTarget_ok {parentId parent replyTo : Option ℕ}
    (h : s.replyTarget q parentId = .ok (parent, replyTo)) :
    (parent = none ∧ replyTo = none) ∨ ∃ b ∈ s.answers, b.question = q ∧
      parent = some (b.parent.getD b.pk) ∧ replyTo = some b.pk := by
  cases parentId with
  | none =>
      obtain ⟨rfl, rfl⟩ := Prod.mk.inj (Except.ok.inj h)
      exact .inl ⟨rfl, rfl⟩
  | some target =>
      unfold DiscussionStore.replyTarget at h
      dsimp only at h
      split at h
      · cases h
      · rename_i b hb
        obtain ⟨rfl, rfl⟩ := Prod.mk.inj (Except.ok.inj h)
        refine .inr ⟨b, List.mem_of_find?_eq_some hb, ?_, rfl, rfl⟩
        have hfound := List.find?_some hb
        simp only [DiscussionStore.visibleIn, Bool.and_eq_true, beq_iff_eq] at hfound
        exact hfound.2.1

/-- The thread an answer is anchored to: its parent, or itself if it is at the top. -/
theorem Threads.exists_anchor (h : Threads s) {b : LessonAnswer} (hb : b ∈ s.answers) :
    ∃ c ∈ s.answers, c.pk = b.parent.getD b.pk ∧ c.question = b.question ∧ c.parent = none := by
  cases hparent : b.parent with
  | none => exact ⟨b, hb, rfl, rfl, hparent⟩
  | some p => exact h.shaped.parent b hb p hparent

theorem threads_append (h : Threads s) {a : LessonAnswer} {parentId : Option ℕ}
    (htarget : s.replyTarget q parentId = .ok (a.parent, a.replyTo)) (hpk : a.pk = s.nextAnswer)
    (hq : a.question = q) :
    Threads { s with answers := s.answers ++ [a], nextAnswer := s.nextAnswer + 1 } := by
  have hrefs := replyTarget_ok htarget
  refine ⟨⟨?_, ?_⟩, ?_, ?_⟩
  · intro b hb p hp
    rcases List.mem_append.mp hb with hb | hb
    · obtain ⟨c, hc, hfound⟩ := h.shaped.parent b hb p hp
      exact ⟨c, List.mem_append_left _ hc, hfound⟩
    · obtain rfl := List.mem_singleton.mp hb
      rcases hrefs with ⟨hnone, -⟩ | ⟨target, htarget, hquestion, hparent, -⟩
      · rw [hnone] at hp
        cases hp
      · obtain ⟨c, hc, hcpk, hcq, hcparent⟩ := h.exists_anchor htarget
        obtain rfl := Option.some.inj (hparent.symm.trans hp)
        exact ⟨c, List.mem_append_left _ hc, hcpk, hcq.trans (hquestion.trans hq.symm), hcparent⟩
  · intro b hb r hr
    rcases List.mem_append.mp hb with hb | hb
    · obtain ⟨c, hc, hfound⟩ := h.shaped.replyTo b hb r hr
      exact ⟨c, List.mem_append_left _ hc, hfound⟩
    · obtain rfl := List.mem_singleton.mp hb
      rcases hrefs with ⟨-, hnone⟩ | ⟨target, htarget, hquestion, -, hreply⟩
      · rw [hnone] at hr
        cases hr
      · obtain rfl := Option.some.inj (hreply.symm.trans hr)
        exact ⟨target, List.mem_append_left _ htarget, rfl, hquestion.trans hq.symm⟩
  · rw [List.map_append, List.nodup_append]
    refine ⟨h.unique, List.nodup_singleton _, ?_⟩
    intro k hk j hj
    obtain ⟨b, hb, rfl⟩ := List.mem_map.mp hk
    obtain rfl := List.mem_singleton.mp hj
    rw [hpk]
    exact (h.below b hb).ne
  · intro b hb
    rcases List.mem_append.mp hb with hb | hb
    · exact Nat.lt_succ_of_lt (h.below b hb)
    · obtain rfl := List.mem_singleton.mp hb
      rw [hpk]
      exact Nat.lt_succ_self _

end created

/-! ## Removed answers -/

section removed

variable {s : DiscussionStore} {front gone : List ℕ}

theorem mem_removeAnswers {a : LessonAnswer} :
    a ∈ (s.removeAnswers gone).answers ↔
      ∃ old ∈ s.answers, old.pk ∉ gone ∧ DiscussionStore.clearReplyTo gone old = a := by
  simp [DiscussionStore.removeAnswers, and_assoc]

@[simp] theorem pk_clearReplyTo (a : LessonAnswer) :
    (DiscussionStore.clearReplyTo gone a).pk = a.pk := by
  unfold DiscussionStore.clearReplyTo
  split <;> rfl

@[simp] theorem question_clearReplyTo (a : LessonAnswer) :
    (DiscussionStore.clearReplyTo gone a).question = a.question := by
  unfold DiscussionStore.clearReplyTo
  split <;> rfl

@[simp] theorem parent_clearReplyTo (a : LessonAnswer) :
    (DiscussionStore.clearReplyTo gone a).parent = a.parent := by
  unfold DiscussionStore.clearReplyTo
  split <;> rfl

theorem replyTo_clearReplyTo {a : LessonAnswer} {r : ℕ}
    (h : (DiscussionStore.clearReplyTo gone a).replyTo = some r) :
    a.replyTo = some r ∧ r ∉ gone := by
  unfold DiscussionStore.clearReplyTo at h
  split at h
  · cases h
  · rename_i hkept
    refine ⟨h, fun hr => hkept ?_⟩
    rw [h]
    exact List.contains_iff_mem.mpr hr

/-- A reply is one level below its thread. -/
def heightOf (s : DiscussionStore) (k : ℕ) : ℕ :=
  if s.answers.any (fun a => a.pk == k && a.parent.isSome) then 0 else 1

theorem Threads.eq_of_pk (h : Threads s) {a b : LessonAnswer} (ha : a ∈ s.answers)
    (hb : b ∈ s.answers) (hpk : a.pk = b.pk) : a = b :=
  uniqueBy_of_nodup h.unique a ha b hb hpk

theorem Threads.height_lt (h : Threads s) : ∀ a ∈ s.answers, ∀ p, a.parent = some p →
    heightOf s a.pk < heightOf s p := by
  intro a ha p hp
  have hlow : heightOf s a.pk = 0 := by
    rw [heightOf, if_pos]
    exact List.any_eq_true.mpr ⟨a, ha, by simp [hp]⟩
  have hhigh : heightOf s p = 1 := by
    rw [heightOf, if_neg]
    intro hany
    obtain ⟨b, hb, hboth⟩ := List.any_eq_true.mp hany
    obtain ⟨c, hc, hcpk, -, hcparent⟩ := h.shaped.parent a ha p hp
    rw [Bool.and_eq_true, beq_iff_eq] at hboth
    obtain rfl := h.eq_of_pk hb hc (hboth.1.trans hcpk.symm)
    rw [hcparent] at hboth
    cases hboth.2
  omega

/-- What a delete collects leaves no child behind. -/
theorem Threads.collected_closed (h : Threads s) (front : List ℕ) :
    ∀ a ∈ s.answers, ∀ p ∈ s.collected front, a.parent = some p → a.pk ∈ s.collected front := by
  intro a ha
  refine cascade_closed (heightOf s) h.height_lt ?_ a ha
  intro k _
  have hrow : 0 < s.answers.length := List.length_pos_of_mem ha
  have hheight : heightOf s k ≤ 1 := by
    unfold heightOf
    split <;> omega
  omega

theorem threads_remove (h : Threads s) (front : List ℕ) :
    Threads (s.removeAnswers (s.collected front)) := by
  refine ⟨⟨?_, ?_⟩, ?_, ?_⟩
  · intro a ha p hp
    obtain ⟨old, hold, hkept, rfl⟩ := mem_removeAnswers.mp ha
    rw [parent_clearReplyTo] at hp
    obtain ⟨b, hb, rfl, hquestion, hparent⟩ := h.shaped.parent old hold p hp
    refine ⟨_, mem_removeAnswers.mpr ⟨b, hb, ?_, rfl⟩, ?_, ?_, ?_⟩
    · exact fun hgone => hkept (h.collected_closed front old hold _ hgone hp)
    · exact pk_clearReplyTo b
    · rw [question_clearReplyTo, question_clearReplyTo, hquestion]
    · rw [parent_clearReplyTo, hparent]
  · intro a ha r hr
    obtain ⟨old, hold, -, rfl⟩ := mem_removeAnswers.mp ha
    obtain ⟨hreply, hstays⟩ := replyTo_clearReplyTo hr
    obtain ⟨b, hb, rfl, hquestion⟩ := h.shaped.replyTo old hold r hreply
    refine ⟨_, mem_removeAnswers.mpr ⟨b, hb, hstays, rfl⟩, pk_clearReplyTo b, ?_⟩
    rw [question_clearReplyTo, question_clearReplyTo, hquestion]
  · have hkeys : (s.removeAnswers (s.collected front)).answers.map LessonAnswer.pk =
        (s.answers.filter fun a => !(s.collected front).contains a.pk).map LessonAnswer.pk := by
      rw [DiscussionStore.removeAnswers, List.map_map]
      apply List.map_congr_left
      intro a _
      exact pk_clearReplyTo a
    rw [hkeys]
    exact h.unique.sublist (List.filter_sublist.map _)
  · intro a ha
    obtain ⟨old, hold, -, rfl⟩ := mem_removeAnswers.mp ha
    rw [pk_clearReplyTo]
    exact h.below old hold

/-- The delete of one answer collects it and its children. -/
theorem Threads.collected_answer (h : Threads s) {k : ℕ} :
    ∀ j ∈ s.collected [k], j = k ∨ ∃ a ∈ s.answers, a.pk = j ∧ a.parent = some k := by
  refine cascade_induction ?_ ?_
  · rintro a ha p hp (rfl | ⟨b, hb, rfl, hbparent⟩)
    · exact .inr ⟨a, ha, rfl, hp⟩
    · -- the parent of an answer has no parent itself
      obtain ⟨c, hc, hcpk, -, hcparent⟩ := h.shaped.parent a ha b.pk hp
      obtain rfl := h.eq_of_pk hc hb hcpk
      rw [hbparent] at hcparent
      cases hcparent
  · intro j hj
    exact .inl (List.mem_singleton.mp hj)

end removed

/-! ## Every run -/

section runs

variable {s s' : DiscussionStore} {call : DiscussionCall}

theorem threads_effect (h : Threads s) (heffect : DiscussionEffect s call s') : Threads s' := by
  cases heffect with
  | asked question => exact ⟨h.shaped, h.unique, h.below⟩
  | questionEdited q f => exact ⟨h.shaped, h.unique, h.below⟩
  | answered answer hquestion htarget hpk hq haccepted created hcreated =>
      have happend := threads_append h htarget hpk hq
      rw [← hcreated] at happend
      exact ⟨happend.shaped, happend.unique, happend.below⟩
  | @accepted q k user answer =>
      have hlinks : (s.clearAccepted q).answers.map LessonAnswer.links =
          s.answers.map LessonAnswer.links := by
        apply links_updateWhere
        intro a
        rfl
      refine threads_congr (s := s) ?_ rfl h
      refine (links_updateWhere ?_).trans hlinks
      intro a
      rfl
  | answerEdited =>
      refine threads_congr (s := s) (links_updateWhere ?_) rfl h
      intro a
      rfl
  | tombstoned =>
      refine threads_congr (s := s) (links_updateWhere ?_) rfl h
      intro a
      rfl
  | @moderated k text isAccepted answer ha hpk status hstatus cleared hcleared =>
      have hlinks : cleared.answers.map LessonAnswer.links = s.answers.map LessonAnswer.links ∧
          cleared.nextAnswer = s.nextAnswer := by
        rw [hcleared]
        split
        · refine ⟨links_updateWhere ?_, rfl⟩
          intro a
          rfl
        · exact ⟨rfl, rfl⟩
      refine threads_congr (s := s) ?_ hlinks.2 h
      refine (links_updateWhere ?_).trans hlinks.1
      intro a
      rfl
  | @questionRemoved q =>
      have hremoved := threads_remove h
        ((s.answers.filter fun answer => answer.question == q).map LessonAnswer.pk)
      exact ⟨hremoved.shaped, hremoved.unique, hremoved.below⟩
  | @answerRemoved k user answer ha hpk hchildren removed hremoved =>
      have hthreads := threads_remove h [k]
      rw [← hremoved] at hthreads
      exact ⟨hthreads.shaped, hthreads.unique, hthreads.below⟩

theorem threads_step (s : DiscussionStore) (call : DiscussionCall) (h : Threads s) :
    Threads (discussionStep s call) := by
  unfold discussionStep
  split
  · rename_i s' hcall
    exact threads_effect h (discussionCall_effect hcall)
  · exact h

/-- A delete of an answer leaves every other visible answer where it is. -/
def LeavesVisible (s : DiscussionStore) : DiscussionCall → Prop
  | .deleteLessonAnswer k user => ∀ a ∈ s.answers, a.pk ≠ k → a.status = .visible →
      ∃ a' ∈ (discussionStep s (.deleteLessonAnswer k user)).answers,
        a'.pk = a.pk ∧ a'.parent = a.parent
  | _ => True

theorem leavesVisible_step (h : Threads s) (call : DiscussionCall) : LeavesVisible s call := by
  cases call with
  | deleteLessonAnswer k user =>
      intro a ha hne hvisible
      unfold discussionStep
      split
      · rename_i s' hcall
        cases discussionCall_effect hcall with
        | questionEdited q f => exact ⟨a, ha, rfl, rfl⟩
        | tombstoned =>
            refine ⟨a, mem_updateWhere.mpr ⟨a, ha, if_neg ?_⟩, rfl, rfl⟩
            simpa using hne
        | answerRemoved answer hanswer hpk hchildren removed hremoved =>
            have hkept : a.pk ∉ s.collected [k] := by
              intro hgone
              rcases h.collected_answer _ hgone with rfl | ⟨b, hb, hbpk, hparent⟩
              · exact hne rfl
              · -- a visible child would have made the delete a tombstone
                obtain rfl := h.eq_of_pk hb ha hbpk
                rw [DiscussionStore.hasVisibleChildren, Bool.or_eq_false_iff] at hchildren
                refine List.any_eq_false.mp hchildren.1 b hb ?_
                rw [hparent, hvisible]
                simp
            have hmem : DiscussionStore.clearReplyTo (s.collected [k]) a ∈ removed.answers := by
              rw [hremoved]
              exact mem_removeAnswers.mpr ⟨a, ha, hkept, rfl⟩
            exact ⟨_, hmem, pk_clearReplyTo a, parent_clearReplyTo a⟩
      · exact ⟨a, ha, rfl, rfl⟩
  | _ => trivial

end runs

theorem threads_empty : Threads .empty := by
  refine ⟨⟨?_, ?_⟩, List.nodup_nil, ?_⟩
  · intro a ha
    cases ha
  · intro a ha
    cases ha
  · intro a ha
    cases ha

theorem threads_run (calls : List DiscussionCall) : Threads (run discussionStep .empty calls) :=
  invariant_run threads_step threads_empty calls

/-- In every state of a run the parents and the answers responded to are where they belong, and
no delete of an answer takes away or moves another visible answer. -/
theorem threads_keep_shape (calls : List DiscussionCall) :
    (∀ pre, pre <+: calls → ThreadsShaped (run discussionStep .empty pre).answers) ∧
      Along discussionStep LeavesVisible .empty calls := by
  constructor
  · intro pre _
    exact (threads_run pre).shaped
  · refine (along_steps calls).mpr fun pre call _ => ?_
    exact leavesVisible_step (threads_run pre) call

end SetadJang.Lms
