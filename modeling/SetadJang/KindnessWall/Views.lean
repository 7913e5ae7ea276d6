import SetadJang.Core.NamespaceVersions
import SetadJang.Framework.Rows
import SetadJang.Framework.Runs

/-!
# One view per viewer and window

`register_listing_view` and `purge_stale_listing_views`, statement by statement, over a shared
table of marks with its unique constraint and one cache for each process.  A mark outlives every
call that may ask for it: the purge keeps the current window and the one before, and a call that
ends within one window length asks for no older one.  The clock counts microseconds.
-/

namespace SetadJang.KindnessWall

open SetadJang.Framework SetadJang.Core

/-! ## Marks and windows -/

/-- `KindnessListingView`: the columns of its unique constraint. -/
structure ViewMark where
  listing : ℕ
  viewerKey : String
  windowStart : ℕ
deriving DecidableEq, Repr

/-- `_view_dedupe_window`; `none` stands for a setting that `int` refuses. -/
def viewDedupeWindow : Option ℤ → ℕ
  | none => 6 * 60 * 60
  | some value => if 0 < value then value.toNat else 6 * 60 * 60

theorem viewDedupeWindow_pos (setting : Option ℤ) : 0 < viewDedupeWindow setting := by
  unfold viewDedupeWindow
  split
  · decide
  · split_ifs <;> omega

/-- `view_window_index`. -/
def viewWindowIndex (window now : ℕ) : ℕ := now / 1000000 / window

/-- The length of a window on the clock. -/
def windowLength (window : ℕ) : ℕ := 1000000 * window

theorem viewWindowIndex_eq (window now : ℕ) :
    viewWindowIndex window now = now / windowLength window :=
  Nat.div_div_eq_div_mul now 1000000 window

/-! ## Calls -/

/-- The statement that a call runs next; `get_or_create` is a lookup and an insert. -/
inductive ViewPhase where
  | cacheGet
  | lookup
  | insert
  | bump
  | cacheSet (counted : Bool)
  | read (counted : Bool)
  | done (counted : Bool) (viewCount : ℕ)
deriving DecidableEq, Repr

structure ViewCall where
  process : ℕ
  startedAt : ℕ
  mark : ViewMark
  phase : ViewPhase
deriving DecidableEq, Repr

/-- The database, the caches of the processes, and the calls and purges that run. -/
structure ViewSys where
  now : ℕ
  marks : List ViewMark
  counts : List ℕ
  caches : List (ℕ × String)
  calls : List ViewCall
  purges : List (Option ℤ)
deriving DecidableEq, Repr

inductive ViewAct where
  | tick (now : ℕ)
  | register (process listing : ℕ) (viewer : String)
  | advance (i : ℕ)
  | evict (process : ℕ) (key : String)
  | purge (keepWindows : ℤ)
  | delete (i : ℕ)
deriving DecidableEq, Repr

/-- The key of the fast path. -/
def seenKey (digest : String → String) (mark : ViewMark) : String :=
  makeCacheKey digest "kindness:view_seen"
    [toString mark.listing, toString mark.windowStart, mark.viewerKey]

namespace ViewSys

/-- `_current_view_count`. -/
def viewCount (s : ViewSys) (listing : ℕ) : ℕ := s.counts[listing]?.getD 0

/-- The call goes on with another statement. -/
def goOn (s : ViewSys) (i : ℕ) (call : ViewCall) (phase : ViewPhase) : ViewSys :=
  { s with calls := s.calls.set i { call with phase := phase } }

/-- One statement of `register_listing_view`.  A view counter has an upper end, where the
increment fails and is logged. -/
def advance (digest : String → String) (s : ViewSys) (i : ℕ) (call : ViewCall) : ViewSys :=
  match call.phase with
  | .cacheGet =>
      if (call.process, seenKey digest call.mark) ∈ s.caches then s.goOn i call (.read false)
      else s.goOn i call .lookup
  | .lookup => s.goOn i call (if call.mark ∈ s.marks then .cacheSet false else .insert)
  | .insert =>
      if call.mark ∈ s.marks then s.goOn i call (.cacheSet false)
      else { s.goOn i call .bump with marks := s.marks ++ [call.mark] }
  | .bump =>
      { s.goOn i call (.cacheSet true) with
        counts := s.counts.modify call.mark.listing fun n => if n < 2147483647 then n + 1 else n }
  | .cacheSet counted =>
      { s.goOn i call (.read counted) with
        caches := (call.process, seenKey digest call.mark) :: s.caches }
  | .read counted => s.goOn i call (.done counted (s.viewCount call.mark.listing))
  | .done _ _ => s

end ViewSys

section

variable (digest : String → String) (window : ℕ)

/-- One statement of the system.  The clock does not go back, and a view registers a listing that
it has loaded. -/
def viewStep (s : ViewSys) : ViewAct → ViewSys
  | .tick now => { s with now := max s.now now }
  | .register process listing viewer =>
      if listing < s.counts.length then
        { s with
          calls := s.calls ++ [⟨process, s.now, ⟨listing, viewer, viewWindowIndex window s.now⟩,
            .cacheGet⟩] }
      else s
  | .advance i =>
      match s.calls[i]? with
      | some call => s.advance digest i call
      | none => s
  | .evict process key => { s with caches := s.caches.filter fun entry => entry ≠ (process, key) }
  | .purge keepWindows =>
      { s with
        purges := s.purges ++ [some (viewWindowIndex window s.now - max 1 keepWindows : ℤ)] }
  | .delete i =>
      match s.purges[i]? with
      | some (some threshold) =>
          { s with
            marks := s.marks.filter fun mark => !decide ((mark.windowStart : ℤ) < threshold)
            purges := s.purges.set i none }
      | _ => s

/-- No call runs later than one window length after it began. -/
def Timely (s : ViewSys) : ViewAct → Prop
  | .advance i => ∀ call ∈ s.calls[i]?, s.now ≤ call.startedAt + windowLength window
  | _ => True

instance decidableTimely (s : ViewSys) : (act : ViewAct) → Decidable (Timely window s act)
  | .advance _ => inferInstanceAs (Decidable (∀ call ∈ _, _ ≤ _))
  | .tick _ => isTrue trivial
  | .register _ _ _ => isTrue trivial
  | .evict _ _ => isTrue trivial
  | .purge _ => isTrue trivial
  | .delete _ => isTrue trivial

/-- The mark for which the step increments the counter. -/
def bumpOf (s : ViewSys) : ViewAct → List ViewMark
  | .advance i => s.calls[i]?.toList.flatMap fun call =>
      if call.phase = .bump then [call.mark] else []
  | _ => []

/-- The increments of a run, in order. -/
def bumps : ViewSys → List ViewAct → List ViewMark
  | _, [] => []
  | s, act :: acts => bumpOf s act ++ bumps (viewStep digest window s act) acts

end

/-! ## Windows -/

theorem windowLength_pos {window : ℕ} (h : 0 < window) : 0 < windowLength window :=
  Nat.mul_pos (by decide) h

/-- A call that is on time runs before the second window after its own begins to end. -/
theorem now_lt_of_timely {window startedAt now : ℕ} (hwindow : 0 < window)
    (htimely : now ≤ startedAt + windowLength window) :
    now < (viewWindowIndex window startedAt + 2) * windowLength window := by
  have hlt := Nat.lt_mul_div_succ startedAt (windowLength_pos hwindow)
  rw [← viewWindowIndex_eq] at hlt
  calc now ≤ startedAt + windowLength window := htimely
    _ < windowLength window * (viewWindowIndex window startedAt + 1) + windowLength window :=
      Nat.add_lt_add_right hlt _
    _ = (viewWindowIndex window startedAt + 2) * windowLength window := by
      rw [Nat.mul_comm (windowLength window), ← Nat.succ_mul]

/-- What a purge deletes is two windows old. -/
theorem old_of_purged {window now start : ℕ} {threshold : ℤ}
    (hthreshold : threshold + 1 ≤ (viewWindowIndex window now : ℤ))
    (hpurged : (start : ℤ) < threshold) : (start + 2) * windowLength window ≤ now := by
  have hindex : start + 2 ≤ now / windowLength window := by
    rw [← viewWindowIndex_eq]
    omega
  exact Nat.mul_le_of_le_div _ _ _ hindex

theorem viewWindowIndex_mono (window : ℕ) {now now' : ℕ} (h : now ≤ now') :
    viewWindowIndex window now ≤ viewWindowIndex window now' :=
  Nat.div_le_div_right (Nat.div_le_div_right h)

/-! ## The invariant -/

/-- The increment that a call owes: its mark is inserted and the counter is not yet written. -/
def ViewCall.owed (call : ViewCall) : List ViewMark :=
  if call.phase = .bump then [call.mark] else []

def ViewSys.owed (s : ViewSys) : List ViewMark := s.calls.flatMap ViewCall.owed

/-- After the increments `counted`: none is made or owed twice, each has its mark or lies two
windows back, and no running purge reaches the last two windows. -/
structure Counted (window : ℕ) (counted : List ViewMark) (s : ViewSys) : Prop where
  once : (counted ++ s.owed).Nodup
  kept : ∀ mark ∈ counted ++ s.owed,
    mark ∈ s.marks ∨ (mark.windowStart + 2) * windowLength window ≤ s.now
  stamped : ∀ call ∈ s.calls, call.mark.windowStart = viewWindowIndex window call.startedAt
  purged : ∀ threshold, some threshold ∈ s.purges →
    threshold + 1 ≤ (viewWindowIndex window s.now : ℤ)

section

variable {digest : String → String} {window : ℕ} {counted : List ViewMark} {s : ViewSys}

/-- The same increments, made or owed, over no fewer marks. -/
theorem Counted.of_perm {counted' : List ViewMark} {s' : ViewSys} (h : Counted window counted s)
    (hperm : (counted' ++ s'.owed).Perm (counted ++ s.owed))
    (hmarks : ∀ mark ∈ s.marks, mark ∈ s'.marks) (hnow : s.now ≤ s'.now)
    (hcalls : ∀ call ∈ s'.calls, call.mark.windowStart = viewWindowIndex window call.startedAt)
    (hpurges : ∀ threshold, some threshold ∈ s'.purges → some threshold ∈ s.purges) :
    Counted window counted' s' where
  once := hperm.nodup_iff.mpr h.once
  kept mark hmark :=
    (h.kept mark (hperm.subset hmark)).imp (hmarks mark) fun hold => Nat.le_trans hold hnow
  stamped := hcalls
  purged threshold hthreshold := by
    have hmono := viewWindowIndex_mono window hnow
    have hbefore := h.purged threshold (hpurges threshold hthreshold)
    omega

/-- A call that goes on keeps its mark and its start. -/
theorem stamped_goOn (h : Counted window counted s) {i : ℕ} {call : ViewCall}
    (hcall : s.calls[i]? = some call) (phase : ViewPhase) :
    ∀ c ∈ (s.goOn i call phase).calls,
      c.mark.windowStart = viewWindowIndex window c.startedAt := by
  intro c hc
  rcases List.mem_or_eq_of_mem_set hc with hold | rfl
  · exact h.stamped c hold
  · exact h.stamped call (List.mem_of_getElem? hcall)

/-- What a call owes is exchanged for what it owes in its next phase. -/
theorem owed_goOn {i : ℕ} {call : ViewCall} (hcall : s.calls[i]? = some call) :
    ∃ others, s.owed.Perm (call.owed ++ others) ∧ ∀ phase,
      (s.goOn i call phase).owed.Perm (({ call with phase := phase } : ViewCall).owed ++ others) := by
  obtain ⟨others, hbefore, hafter⟩ := flatMap_set_perm ViewCall.owed hcall
  exact ⟨others, hbefore, fun phase => hafter _⟩

/-- A statement that neither inserts a mark nor increments. -/
theorem counted_goOn (h : Counted window counted s) {i : ℕ} {call : ViewCall}
    (hcall : s.calls[i]? = some call) {phase : ViewPhase} (hbefore : call.phase ≠ .bump)
    (hafter : phase ≠ .bump) : Counted window counted (s.goOn i call phase) := by
  obtain ⟨others, hold, hnew⟩ := owed_goOn hcall
  refine h.of_perm ?_ (fun _ hmark => hmark) (Nat.le_refl _) (stamped_goOn h hcall phase)
    fun _ ht => ht
  have hsame : ({ call with phase := phase } : ViewCall).owed = call.owed := by
    rw [ViewCall.owed, ViewCall.owed, if_neg hbefore, if_neg hafter]
  exact ((hsame ▸ hnew phase).trans hold.symm).append_left counted

/-- A mark that is inserted on time has not been counted. -/
theorem counted_insert (hwindow : 0 < window) (h : Counted window counted s) {i : ℕ}
    {call : ViewCall} (hcall : s.calls[i]? = some call) (hphase : call.phase = .insert)
    (htimely : s.now ≤ call.startedAt + windowLength window) (hnew : call.mark ∉ s.marks) :
    Counted window counted { s.goOn i call .bump with marks := s.marks ++ [call.mark] } := by
  obtain ⟨others, hold, hafter⟩ := owed_goOn hcall
  have hfresh : call.mark ∉ counted ++ s.owed := by
    intro hmem
    have hyoung := now_lt_of_timely hwindow htimely
    rw [← h.stamped call (List.mem_of_getElem? hcall)] at hyoung
    rcases h.kept call.mark hmem with hmark | hexpired
    · exact hnew hmark
    · exact absurd hexpired (Nat.not_le.mpr hyoung)
  have hnone : call.owed = [] := by
    rw [ViewCall.owed, hphase]
    rfl
  have hperm : (counted ++ (s.goOn i call .bump).owed).Perm
      (call.mark :: (counted ++ s.owed)) := by
    have howed : (s.goOn i call .bump).owed.Perm (call.mark :: s.owed) := by
      refine (hafter .bump).trans ?_
      rw [hnone] at hold
      exact (hold.symm).cons call.mark
    exact (howed.append_left counted).trans List.perm_middle
  refine ⟨hperm.nodup_iff.mpr (List.nodup_cons.mpr ⟨hfresh, h.once⟩), ?_,
    stamped_goOn h hcall .bump, h.purged⟩
  intro mark hmark
  rcases List.mem_cons.mp (hperm.subset hmark) with rfl | hmark
  · exact Or.inl (List.mem_append_right _ (List.mem_singleton.mpr rfl))
  · exact (h.kept mark hmark).imp_left (List.mem_append_left _)

/-- The increment pays what the call owes. -/
theorem counted_bump (h : Counted window counted s) {i : ℕ} {call : ViewCall}
    (hcall : s.calls[i]? = some call) (hphase : call.phase = .bump) (counts : List ℕ) :
    Counted window (counted ++ [call.mark])
      { s.goOn i call (.cacheSet true) with counts := counts } := by
  obtain ⟨others, hold, hafter⟩ := owed_goOn hcall
  refine h.of_perm ?_ (fun _ hmark => hmark) (Nat.le_refl _) (stamped_goOn h hcall _)
    fun _ ht => ht
  have howed : call.owed = [call.mark] := by
    rw [ViewCall.owed, if_pos hphase]
  rw [howed] at hold
  rw [List.append_assoc]
  exact (((hafter (.cacheSet true)).cons call.mark).trans hold.symm).append_left counted

theorem counted_advance (hwindow : 0 < window) (h : Counted window counted s) {i : ℕ}
    {call : ViewCall} (hcall : s.calls[i]? = some call)
    (htimely : s.now ≤ call.startedAt + windowLength window) :
    Counted window (counted ++ call.owed) (s.advance digest i call) := by
  unfold ViewSys.advance
  have hidle : call.phase ≠ .bump → counted ++ call.owed = counted := by
    intro hphase
    rw [ViewCall.owed, if_neg hphase, List.append_nil]
  cases hphase : call.phase with
  | cacheGet =>
      rw [hidle (by simp [hphase])]
      dsimp only
      split
      · exact counted_goOn h hcall (by simp [hphase]) (by simp)
      · exact counted_goOn h hcall (by simp [hphase]) (by simp)
  | lookup =>
      rw [hidle (by simp [hphase])]
      apply counted_goOn h hcall (by simp [hphase])
      split <;> simp
  | insert =>
      rw [hidle (by simp [hphase])]
      dsimp only
      split
      · exact counted_goOn h hcall (by simp [hphase]) (by simp)
      · rename_i hnew
        exact counted_insert hwindow h hcall hphase htimely hnew
  | bump =>
      rw [ViewCall.owed, if_pos hphase]
      exact counted_bump h hcall hphase _
  | cacheSet seen =>
      rw [hidle (by simp [hphase])]
      have hgoes : Counted window counted (s.goOn i call (.read seen)) :=
        counted_goOn h hcall (by simp [hphase]) (by simp)
      exact ⟨hgoes.once, hgoes.kept, hgoes.stamped, hgoes.purged⟩
  | read seen =>
      rw [hidle (by simp [hphase])]
      exact counted_goOn h hcall (by simp [hphase]) (by simp)
  | done seen n =>
      rw [hidle (by simp [hphase])]
      exact h

/-- A purge takes only marks of increments that lie two windows back. -/
theorem counted_delete (h : Counted window counted s) {i : ℕ} {threshold : ℤ}
    (hi : s.purges[i]? = some (some threshold)) :
    Counted window counted
      { s with
        marks := s.marks.filter fun mark => !decide ((mark.windowStart : ℤ) < threshold)
        purges := s.purges.set i none } where
  once := h.once
  kept mark hmark := by
    rcases h.kept mark hmark with hin | hold
    · by_cases hpurged : (mark.windowStart : ℤ) < threshold
      · exact Or.inr (old_of_purged (h.purged threshold (List.mem_of_getElem? hi)) hpurged)
      · exact Or.inl (List.mem_filter.mpr ⟨hin, by simpa using hpurged⟩)
    · exact Or.inr hold
  stamped := h.stamped
  purged later hlater := by
    rcases List.mem_or_eq_of_mem_set hlater with hold | hnone
    · exact h.purged later hold
    · cases hnone

theorem counted_step (hwindow : 0 < window) (h : Counted window counted s) (act : ViewAct)
    (htimely : Timely window s act) :
    Counted window (counted ++ bumpOf s act) (viewStep digest window s act) := by
  cases act with
  | tick now =>
      show Counted window (counted ++ []) _
      rw [List.append_nil]
      exact h.of_perm (List.Perm.refl _) (fun _ hmark => hmark) (Nat.le_max_left _ _) h.stamped
        fun _ ht => ht
  | register process listing viewer =>
      show Counted window (counted ++ []) _
      rw [List.append_nil, viewStep]
      split
      · refine h.of_perm ?_ (fun _ hmark => hmark) (Nat.le_refl _) ?_ fun _ ht => ht
        · -- a call that begins owes nothing
          show (counted ++ (s.calls ++ [_]).flatMap ViewCall.owed).Perm _
          rw [List.flatMap_append]
          exact (List.append_nil _ ▸ List.Perm.refl _)
        · intro call hcall
          rcases List.mem_append.mp hcall with hold | hnew
          · exact h.stamped call hold
          · rw [List.mem_singleton.mp hnew]
      · exact h
  | advance i =>
      rw [bumpOf, viewStep]
      cases hcall : s.calls[i]? with
      | none => exact (List.append_nil counted).symm ▸ h
      | some call =>
          rw [Option.toList_some, List.flatMap_singleton]
          exact counted_advance hwindow h hcall (htimely call hcall)
  | evict process key =>
      show Counted window (counted ++ []) _
      rw [List.append_nil]
      exact ⟨h.once, h.kept, h.stamped, h.purged⟩
  | purge keepWindows =>
      show Counted window (counted ++ []) _
      rw [List.append_nil]
      refine ⟨h.once, h.kept, h.stamped, ?_⟩
      intro threshold hmem
      rcases List.mem_append.mp hmem with hold | hnew
      · exact h.purged threshold hold
      · obtain rfl := Option.some.inj (List.mem_singleton.mp hnew)
        show _ ≤ (viewWindowIndex window s.now : ℤ)
        omega
  | delete i =>
      show Counted window (counted ++ []) _
      rw [List.append_nil, viewStep]
      split
      · rename_i threshold hi
        exact counted_delete h hi
      · exact h

theorem counted_run (hwindow : 0 < window) {acts : List ViewAct} (h : Counted window counted s)
    (htimely : Along (viewStep digest window) (Timely window) s acts) :
    Counted window (counted ++ bumps digest window s acts) (run (viewStep digest window) s acts) := by
  induction acts generalizing s counted with
  | nil =>
      rw [bumps, List.append_nil]
      exact h
  | cons act acts ih =>
      rw [bumps, ← List.append_assoc]
      exact ih (counted_step hwindow h act htimely.1) htimely.2

end

/-! ## The counter -/

section

variable (digest : String → String) (window : ℕ)

theorem viewCount_advance (s : ViewSys) (i : ℕ) (call : ViewCall) (listing : ℕ) :
    (s.advance digest i call).viewCount listing ≤
      s.viewCount listing + call.owed.countP (·.listing = listing) := by
  unfold ViewSys.advance
  cases hphase : call.phase with
  | bump =>
      rw [ViewCall.owed, if_pos hphase]
      show (s.counts.modify call.mark.listing _)[listing]?.getD 0 ≤ _
      by_cases hsame : call.mark.listing = listing
      · subst hsame
        rw [List.getElem?_modify_eq, ViewSys.viewCount, List.countP_singleton,
          if_pos (decide_eq_true rfl)]
        cases s.counts[call.mark.listing]? with
        | none => exact Nat.zero_le _
        | some n =>
            show (if n < 2147483647 then n + 1 else n) ≤ n + 1
            split <;> omega
      · rw [List.getElem?_modify_ne _ _ hsame]
        exact Nat.le_add_right _ _
  | cacheGet =>
      dsimp only
      split <;> exact Nat.le_add_right _ _
  | insert =>
      dsimp only
      split <;> exact Nat.le_add_right _ _
  | lookup => exact Nat.le_add_right _ _
  | cacheSet seen => exact Nat.le_add_right _ _
  | read seen => exact Nat.le_add_right _ _
  | done seen n => exact Nat.le_add_right _ _

/-- A statement raises the counter of a listing by its increments at most. -/
theorem viewCount_step (s : ViewSys) (act : ViewAct) (listing : ℕ) :
    (viewStep digest window s act).viewCount listing ≤
      s.viewCount listing + (bumpOf s act).countP (·.listing = listing) := by
  cases act with
  | advance i =>
      rw [viewStep, bumpOf]
      cases hcall : s.calls[i]? with
      | none => exact Nat.le_add_right _ _
      | some call =>
          rw [Option.toList_some, List.flatMap_singleton]
          exact viewCount_advance digest s i call listing
  | tick now => exact Nat.le_add_right _ _
  | register process k viewer =>
      rw [viewStep]
      split <;> exact Nat.le_add_right _ _
  | evict process key => exact Nat.le_add_right _ _
  | purge keepWindows => exact Nat.le_add_right _ _
  | delete i =>
      rw [viewStep]
      split <;> exact Nat.le_add_right _ _

theorem viewCount_run (s : ViewSys) (acts : List ViewAct) (listing : ℕ) :
    (run (viewStep digest window) s acts).viewCount listing ≤
      s.viewCount listing + (bumps digest window s acts).countP (·.listing = listing) := by
  induction acts generalizing s with
  | nil => exact Nat.le_add_right _ _
  | cons act acts ih =>
      rw [run_cons, bumps, List.countP_append, ← Nat.add_assoc]
      exact Nat.le_trans (ih (viewStep digest window s act))
        (Nat.add_le_add_right (viewCount_step digest window s act listing) _)

end

/-- The system before the first call: any marks, counters and caches. -/
def ViewSys.start (now : ℕ) (marks : List ViewMark) (counts : List ℕ)
    (caches : List (ℕ × String)) : ViewSys :=
  ⟨now, marks, counts, caches, [], []⟩

/-- **One view per viewer and window.**  In a run whose calls end within one window length no
viewer is counted twice in a window, and a counter grows by the views counted for its listing. -/
theorem one_view_per_window (digest : String → String) (setting : Option ℤ) (now : ℕ)
    (marks : List ViewMark) (counts : List ℕ) (caches : List (ℕ × String)) (acts : List ViewAct)
    (htimely : Along (viewStep digest (viewDedupeWindow setting)) (Timely (viewDedupeWindow setting))
      (.start now marks counts caches) acts) :
    (bumps digest (viewDedupeWindow setting) (.start now marks counts caches) acts).Nodup ∧
      ∀ listing,
        (run (viewStep digest (viewDedupeWindow setting)) (.start now marks counts caches)
          acts).viewCount listing ≤
        counts[listing]?.getD 0 +
          (bumps digest (viewDedupeWindow setting) (.start now marks counts caches) acts).countP
            (·.listing = listing) := by
  constructor
  · have hstart : Counted (viewDedupeWindow setting) [] (.start now marks counts caches) := by
      refine ⟨List.nodup_nil, ?_, ?_, ?_⟩ <;>
        · intro x hx
          cases hx
    have hend := (counted_run (viewDedupeWindow_pos setting) hstart htimely).once
    exact hend.of_append_left
  · exact viewCount_run digest (viewDedupeWindow setting) _ acts

/-- Two calls of one viewer race through two processes, and a purge runs beside them. -/
def racingViews : List ViewAct :=
  [.register 0 0 "u7", .register 1 0 "u7", .advance 0, .advance 1, .advance 0, .advance 1,
    .purge 2, .advance 0, .advance 1, .delete 0, .advance 0, .advance 0, .evict 0 "", .advance 1,
    .advance 0, .advance 1]

theorem one_view_per_window_racing :
    (bumps id 21600 (.start 0 [] [5] []) racingViews).Nodup ∧ ∀ listing,
      (run (viewStep id 21600) (.start 0 [] [5] []) racingViews).viewCount listing ≤
        [5][listing]?.getD 0 + (bumps id 21600 (.start 0 [] [5] []) racingViews).countP
          (·.listing = listing) :=
  one_view_per_window id none 0 [] [5] [] racingViews (by decide +kernel)

end SetadJang.KindnessWall
