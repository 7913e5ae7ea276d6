import Mathlib.Logic.Basic
import Mathlib.Data.List.Infix

/-!
# Runs of a transition system

A system is a total step function; an action that is not enabled leaves the
state alone.  A run is a list of actions, so "every interleaving" is "every
list".  `Along` says that each step of a run meets a condition on the state
before it.  The run rules turn what one step preserves into what a run preserves.
-/

namespace SetadJang.Framework

variable {S A : Type} {step : S → A → S}

/-- The state after a list of actions. -/
def run (step : S → A → S) (s : S) (acts : List A) : S := acts.foldl step s

@[simp] theorem run_nil (s : S) : run step s [] = s := rfl

@[simp] theorem run_cons (s : S) (a : A) (acts : List A) :
    run step s (a :: acts) = run step (step s a) acts := rfl

theorem run_append (s : S) (xs ys : List A) :
    run step s (xs ++ ys) = run step (run step s xs) ys := by
  simp [run, List.foldl_append]

/-- Every step of the run meets `ok` in the state it starts from. -/
def Along (step : S → A → S) (ok : S → A → Prop) : S → List A → Prop
  | _, [] => True
  | s, a :: acts => ok s a ∧ Along step ok (step s a) acts

instance decidableAlong (ok : S → A → Prop) [∀ s a, Decidable (ok s a)] :
    ∀ (s : S) (acts : List A), Decidable (Along step ok s acts)
  | _, [] => isTrue trivial
  | s, a :: acts =>
      have := decidableAlong ok (step s a) acts
      inferInstanceAs (Decidable (ok s a ∧ Along step ok (step s a) acts))

theorem along_append {ok : S → A → Prop} (s : S) (xs ys : List A) :
    Along step ok s (xs ++ ys) ↔
      Along step ok s xs ∧ Along step ok (run step s xs) ys := by
  induction xs generalizing s with
  | nil => simp [Along]
  | cons a xs ih => simp [Along, ih, and_assoc]

/-- **Run rule.** A property kept by every step is kept by every run. -/
theorem invariant_run {I : S → Prop} (hstep : ∀ s a, I s → I (step s a))
    {s : S} (hs : I s) (acts : List A) : I (run step s acts) := by
  induction acts generalizing s with
  | nil => exact hs
  | cons a acts ih => exact ih (hstep s a hs)

/-- **Conditional run rule.** A property kept by every step that meets `ok` is
kept by every run whose steps all meet it. -/
theorem invariant_along {I : S → Prop} {ok : S → A → Prop}
    (hstep : ∀ s a, I s → ok s a → I (step s a))
    {s : S} (hs : I s) {acts : List A} (hok : Along step ok s acts) :
    I (run step s acts) := by
  induction acts generalizing s with
  | nil => exact hs
  | cons a acts ih => exact ih (hstep s a hs hok.1) hok.2

theorem along_earlier {ok : S → A → Prop} {s : S} {pre acts : List A}
    (hok : Along step ok s acts) (hpre : pre <+: acts) : Along step ok s pre := by
  obtain ⟨post, rfl⟩ := hpre
  exact ((along_append s pre post).mp hok).1

/-! ## Runs all of whose steps are good -/

/-- **Exact run rule.** Under an invariant a step meets `ok` exactly when it is
`good`, and then keeps the invariant; so the same holds of whole runs. -/
theorem along_congr {I : S → Prop} {ok good : S → A → Prop}
    (hstep : ∀ s a, I s → (ok s a ↔ good s a)) (hkeep : ∀ s a, I s → ok s a → I (step s a))
    {s : S} (hs : I s) (acts : List A) : Along step ok s acts ↔ Along step good s acts := by
  induction acts generalizing s with
  | nil => exact Iff.rfl
  | cons a acts ih =>
      constructor
      · rintro ⟨hok, hrest⟩
        exact ⟨(hstep s a hs).mp hok, (ih (hkeep s a hs hok)).mp hrest⟩
      · rintro ⟨hgood, hrest⟩
        have hok := (hstep s a hs).mpr hgood
        exact ⟨hok, (ih (hkeep s a hs hok)).mpr hrest⟩

theorem along_and {ok ok' : S → A → Prop} {s : S} {acts : List A} :
    Along step (fun s a => ok s a ∧ ok' s a) s acts ↔
      Along step ok s acts ∧ Along step ok' s acts := by
  induction acts generalizing s with
  | nil => simp [Along]
  | cons a acts ih =>
      simp only [Along, ih]
      tauto

/-- A condition on the actions alone. -/
theorem along_of_forall {P : A → Prop} {s : S} {acts : List A} (h : ∀ a ∈ acts, P a) :
    Along step (fun _ a => P a) s acts := by
  induction acts generalizing s with
  | nil => trivial
  | cons a acts ih =>
      exact ⟨h a List.mem_cons_self, ih fun b hb => h b (List.mem_cons_of_mem a hb)⟩

/-- A property of the states, after each step. -/
theorem along_states {P : S → Prop} {s : S} (hs : P s) (acts : List A) :
    Along step (fun s a => P (step s a)) s acts ↔ ∀ pre, pre <+: acts → P (run step s pre) := by
  induction acts generalizing s with
  | nil =>
      simp only [List.prefix_nil, forall_eq, run_nil, hs]
      exact iff_of_true trivial trivial
  | cons a acts ih =>
      constructor
      · rintro ⟨hP, hrest⟩ pre hpre
        rcases List.prefix_cons_iff.mp hpre with rfl | ⟨front, rfl, hfront⟩
        · exact hs
        · exact (ih hP).mp hrest front hfront
      · intro h
        have hP : P (step s a) := h [a] (by simp)
        refine ⟨hP, (ih hP).mpr fun pre hpre => ?_⟩
        exact h (a :: pre) (List.cons_prefix_cons.mpr ⟨rfl, hpre⟩)

/-- `Along` step by step. -/
theorem along_steps {ok : S → A → Prop} {s : S} (acts : List A) :
    Along step ok s acts ↔ ∀ pre a, pre ++ [a] <+: acts → ok (run step s pre) a := by
  constructor
  · intro hok pre a hpre
    have hlast := ((along_append s pre [a]).mp (along_earlier hok hpre)).2
    exact hlast.1
  · intro h
    induction acts generalizing s with
    | nil => trivial
    | cons a acts ih =>
        refine ⟨h [] a (by simp), ih fun pre b hpre => ?_⟩
        exact h (a :: pre) b (List.cons_prefix_cons.mpr ⟨rfl, hpre⟩)

/-- A preorder between the states before and after each step relates any two
states of the run. -/
theorem along_related {R : S → S → Prop} (hrefl : ∀ s, R s s)
    (htrans : ∀ s t u, R s t → R t u → R s u) {s : S} (acts : List A) :
    Along step (fun s a => R s (step s a)) s acts ↔
      ∀ pre post, pre <+: post → post <+: acts → R (run step s pre) (run step s post) := by
  induction acts generalizing s with
  | nil =>
      refine iff_of_true trivial fun pre post hpre hpost => ?_
      obtain rfl := List.prefix_nil.mp hpost
      obtain rfl := List.prefix_nil.mp hpre
      exact hrefl s
  | cons a acts ih =>
      constructor
      · rintro ⟨hR, hrest⟩ pre post hpre hpost
        have hrun := ih.mp hrest
        rcases List.prefix_cons_iff.mp hpost with rfl | ⟨later, rfl, hlater⟩
        · obtain rfl := List.prefix_nil.mp hpre
          exact hrefl s
        · rcases List.prefix_cons_iff.mp hpre with rfl | ⟨front, rfl, -⟩
          · exact htrans _ _ _ hR (hrun [] later List.nil_prefix hlater)
          · exact hrun front later (List.cons_prefix_cons.mp hpre).2 hlater
      · intro h
        refine ⟨h [] [a] List.nil_prefix (by simp), ih.mpr fun pre post hpre hpost => ?_⟩
        exact h (a :: pre) (a :: post) (List.cons_prefix_cons.mpr ⟨rfl, hpre⟩)
          (List.cons_prefix_cons.mpr ⟨rfl, hpost⟩)

end SetadJang.Framework
