import Mathlib.Logic.Basic
import Mathlib.Tactic.Common

/-!
# Service code over a transactional store

A service call reads and writes a store and may raise.  Outside a transaction a
raise keeps what was written before it; inside an `atomic` block it undoes
everything the block wrote.  Nesting therefore matters: an inner block that
commits is still undone by an outer block that raises.

`Commits` is the view the proofs use.  It says that a call returns a value and
leaves a given store, and it composes through `bind`, so one `simp only` with
the lemmas below turns a service body into its guards and its final store.
-/

namespace SetadJang.Framework

/-- A service call over stores `σ` with exceptions `ε`.  The store is threaded
outside the exception, so writes survive a raise unless `atomic` undoes them. -/
abbrev Txn (σ ε : Type) := ExceptT ε (StateM σ)

/-- A check made of checks succeeds when each of them does. -/
theorem except_bind_ok_iff {ε α β : Type} {x : Except ε α} {f : α → Except ε β} {b : β} :
    (x >>= f) = .ok b ↔ ∃ a, x = .ok a ∧ f a = .ok b := by
  cases x with
  | error e => simp [bind, Except.bind]
  | ok a => simp [bind, Except.bind]

/-- A sequence raises what its first part raises, or its second part after it. -/
theorem except_bind_error_iff {ε α β : Type} {x : Except ε α} {f : α → Except ε β} {e : ε} :
    (x >>= f) = .error e ↔ x = .error e ∨ ∃ a, x = .ok a ∧ f a = .error e := by
  cases x with
  | error e' => simp [bind, Except.bind]
  | ok a => simp [bind, Except.bind]

theorem toOption_eq_some {ε α : Type} {r : Except ε α} {a : α} :
    r.toOption = some a ↔ r = .ok a := by
  cases r <;> simp [Except.toOption]

/-- Raise `e` unless the condition holds, in code that reads no store. -/
def checkThat {ε : Type} (c : Prop) [Decidable c] (e : ε) : Except ε Unit :=
  if c then .ok () else .error e

theorem checkThat_ok_iff {ε : Type} {c : Prop} [Decidable c] {e : ε} :
    checkThat c e = .ok () ↔ c := by
  by_cases hc : c <;> simp [checkThat, hc]

theorem checkThat_error_iff {ε : Type} {c : Prop} [Decidable c] {e e' : ε} :
    checkThat c e = .error e' ↔ ¬ c ∧ e = e' := by
  by_cases hc : c <;> simp [checkThat, hc]

theorem checkThat_bind_ok_iff {ε β : Type} {c : Prop} [Decidable c] {e : ε}
    {f : Unit → Except ε β} {b : β} :
    (checkThat c e >>= f) = .ok b ↔ c ∧ f () = .ok b := by
  by_cases hc : c <;> simp [checkThat, hc, bind, Except.bind]

/-! ## What a computation can raise -/

/-- Every error the computation raises is of the kind `p`. -/
def RaisesOnly {ε α : Type} (p : ε → Prop) (m : Except ε α) : Prop := ∀ e, m = .error e → p e

theorem raisesOnly_ok {ε α : Type} (p : ε → Prop) (a : α) : RaisesOnly p (.ok a : Except ε α) :=
  nofun

theorem raisesOnly_checkThat {ε : Type} {p : ε → Prop} {e : ε} (h : p e) (c : Prop)
    [Decidable c] : RaisesOnly p (checkThat c e) := by
  intro e' he'
  rw [← (checkThat_error_iff.mp he').2]
  exact h

theorem raisesOnly_bind {ε α β : Type} {p : ε → Prop} {m : Except ε α} {f : α → Except ε β}
    (hm : RaisesOnly p m) (hf : ∀ a, RaisesOnly p (f a)) : RaisesOnly p (m >>= f) := by
  intro e he
  rcases except_bind_error_iff.mp he with hfirst | ⟨a, -, hsecond⟩
  · exact hm e hfirst
  · exact hf a e hsecond

/-! ## Loops that may raise -/

section Loops

variable {σ α ε : Type} {f : σ → α → Except ε σ} {todo : List α} {s s' : σ}

/-- What each turn hands on with one item fewer to do holds at the end with none. -/
theorem loop_invariant {I : List α → σ → Prop}
    (hturn : ∀ a rest s s', a ∈ todo → I (a :: rest) s → f s a = .ok s' → I rest s')
    (hs : I todo s) (h : todo.foldlM f s = .ok s') : I [] s' := by
  induction todo generalizing s with
  | nil =>
      obtain rfl := Except.ok.inj h
      exact hs
  | cons a rest ih =>
      rw [List.foldlM_cons, except_bind_ok_iff] at h
      obtain ⟨mid, hmid, hrest⟩ := h
      exact ih (fun b later s s' hb => hturn b later s s' (List.mem_cons_of_mem _ hb))
        (hturn a rest s mid List.mem_cons_self hs hmid) hrest

/-- A loop whose turns keep `I` and under `I` never raise `e` does not raise `e`. -/
theorem loop_ne_error {I : σ → Prop} {e : ε}
    (hturn : ∀ a s s', a ∈ todo → I s → f s a = .ok s' → I s')
    (hne : ∀ a s, a ∈ todo → I s → f s a ≠ .error e) (hs : I s) :
    todo.foldlM f s ≠ .error e := by
  induction todo generalizing s with
  | nil => exact nofun
  | cons a rest ih =>
      rw [List.foldlM_cons]
      cases hmid : f s a with
      | error e' =>
          intro heq
          obtain rfl := Except.error.inj heq
          exact hne a s List.mem_cons_self hs hmid
      | ok mid =>
          exact ih (fun b s s' hb => hturn b s s' (List.mem_cons_of_mem _ hb))
            (fun b s hb => hne b s (List.mem_cons_of_mem _ hb))
            (hturn a s mid List.mem_cons_self hs hmid)

/-- Every result of a comprehension that raises nothing comes from an item. -/
theorem mem_of_mapM_ok {β : Type} {g : α → Except ε β} {rows : List α} {results : List β}
    (h : rows.mapM g = .ok results) : ∀ b ∈ results, ∃ a ∈ rows, g a = .ok b := by
  induction rows generalizing results with
  | nil =>
      obtain rfl : [] = results := Except.ok.inj h
      exact nofun
  | cons a rows ih =>
      rw [List.mapM_cons, except_bind_ok_iff] at h
      obtain ⟨b, hb, h⟩ := h
      rw [except_bind_ok_iff] at h
      obtain ⟨rest, hrest, h⟩ := h
      obtain rfl : b :: rest = results := Except.ok.inj h
      intro c hc
      rcases List.mem_cons.mp hc with rfl | hc
      · exact ⟨a, List.mem_cons_self, hb⟩
      · obtain ⟨a', ha', hg⟩ := ih hrest c hc
        exact ⟨a', List.mem_cons_of_mem a ha', hg⟩

/-- A comprehension that raises nothing has items that raise nothing. -/
theorem forall_ok_of_mapM_ok {β : Type} {g : α → Except ε β} {rows : List α} {results : List β}
    (h : rows.mapM g = .ok results) : ∀ a ∈ rows, ∃ b, g a = .ok b := by
  induction rows generalizing results with
  | nil => exact fun a ha => absurd ha List.not_mem_nil
  | cons a rows ih =>
      rw [List.mapM_cons, except_bind_ok_iff] at h
      obtain ⟨b, hb, h⟩ := h
      obtain ⟨rest, hrest, -⟩ := except_bind_ok_iff.mp h
      exact List.forall_mem_cons.mpr ⟨⟨b, hb⟩, ih hrest⟩

/-- A comprehension whose items raise nothing. -/
theorem mapM_ok_of_forall {β : Type} {g : α → Except ε β} {h : α → β} {rows : List α}
    (hall : ∀ a ∈ rows, g a = .ok (h a)) : rows.mapM g = .ok (rows.map h) := by
  induction rows with
  | nil => rfl
  | cons a rows ih =>
      obtain ⟨ha, hrest⟩ := List.forall_mem_cons.mp hall
      rw [List.mapM_cons, ha, ih hrest]
      rfl

/-- A comprehension raises what its first failing item raises. -/
theorem mapM_error_iff {β : Type} {g : α → Except ε β} {rows : List α} {e : ε} :
    rows.mapM g = .error e ↔
      ∃ pre a post, rows = pre ++ a :: post ∧ (∀ b ∈ pre, ∃ c, g b = .ok c) ∧ g a = .error e := by
  induction rows with
  | nil =>
      refine iff_of_false nofun ?_
      rintro ⟨pre, a, post, hrows, -, -⟩
      exact List.cons_ne_nil _ _ (List.append_eq_nil_iff.mp hrows.symm).2
  | cons a rows ih =>
      rw [List.mapM_cons, except_bind_error_iff]
      constructor
      · rintro (hfirst | ⟨c, hc, hrest⟩)
        · exact ⟨[], a, rows, rfl, fun b hb => absurd hb List.not_mem_nil, hfirst⟩
        · rcases except_bind_error_iff.mp hrest with hlater | ⟨_, -, hpure⟩
          · obtain ⟨pre, b, post, rfl, hpre, hb⟩ := ih.mp hlater
            exact ⟨a :: pre, b, post, rfl, List.forall_mem_cons.mpr ⟨⟨c, hc⟩, hpre⟩, hb⟩
          · cases hpure
      · rintro ⟨pre, b, post, hrows, hpre, hb⟩
        cases pre with
        | nil =>
            obtain ⟨rfl, rfl⟩ := List.cons.inj hrows
            exact Or.inl hb
        | cons first pre =>
            obtain ⟨rfl, rfl⟩ := List.cons.inj hrows
            obtain ⟨⟨c, hc⟩, hpre⟩ := List.forall_mem_cons.mp hpre
            refine Or.inr ⟨c, hc, except_bind_error_iff.mpr (Or.inl ?_)⟩
            exact ih.mpr ⟨pre, b, post, rfl, hpre, hb⟩
theorem forM_ok_iff {g : α → Except ε Unit} {rows : List α} :
    rows.forM g = .ok () ↔ ∀ a ∈ rows, g a = .ok () := by
  induction rows with
  | nil => exact iff_of_true rfl nofun
  | cons a rows ih =>
      show (g a >>= fun _ => rows.forM g) = .ok () ↔ _
      rw [except_bind_ok_iff, List.forall_mem_cons, ← ih]
      constructor
      · rintro ⟨_, ha, hrest⟩
        exact ⟨ha, hrest⟩
      · rintro ⟨ha, hrest⟩
        exact ⟨(), ha, hrest⟩

end Loops

namespace Txn

variable {σ ε α β : Type}

/-- Run a call: its outcome and the store it leaves. -/
def exec (m : Txn σ ε α) (s : σ) : Except ε α × σ :=
  StateT.run (ExceptT.run m) s

/-- The store left by a call, whatever its outcome. -/
def after (m : Txn σ ε α) (s : σ) : σ := (exec m s).2

/-- The call returns `a` and leaves the store `t`. -/
def Commits (m : Txn σ ε α) (s : σ) (a : α) (t : σ) : Prop :=
  exec m s = (.ok a, t)

/-- A database transaction or savepoint: a raise undoes the block's writes. -/
def atomic (m : Txn σ ε α) : Txn σ ε α := fun s =>
  match exec m s with
  | (.ok a, t) => (.ok a, t)
  | (.error e, _) => (.error e, s)

/-- Unwrap a row or raise. -/
def orRaise (o : Option α) (e : ε) : Txn σ ε α :=
  match o with
  | some a => pure a
  | none => throw e

/-- A pure check that returns or raises. -/
def fromExcept (r : Except ε α) : Txn σ ε α :=
  match r with
  | .ok a => pure a
  | .error e => throw e

/-- Raise `e` unless the condition holds. -/
def require (c : Prop) [Decidable c] (e : ε) : Txn σ ε Unit :=
  if c then pure () else throw e

/-- `try … except e: raise f e`: translate the exception, keep the store. -/
def mapError {ε' : Type} (f : ε → ε') (m : Txn σ ε α) : Txn σ ε' α := fun s =>
  match exec m s with
  | (.ok a, t) => (.ok a, t)
  | (.error e, t) => (.error (f e), t)

/-- Run a call on a part of a larger store. -/
def onPart {τ : Type} (part : τ → σ) (put : σ → τ → τ) (m : Txn σ ε α) : Txn τ ε α := fun t =>
  match exec m (part t) with
  | (r, s) => (r, put s t)

/-! ## Execution equations -/

theorem exec_apply (m : Txn σ ε α) (s : σ) : exec m s = m s := rfl

@[simp] theorem exec_pure (a : α) (s : σ) :
    exec (pure a : Txn σ ε α) s = (.ok a, s) := rfl

@[simp] theorem exec_throw (e : ε) (s : σ) :
    exec (throw e : Txn σ ε α) s = (.error e, s) := rfl

@[simp] theorem exec_get (s : σ) :
    exec (get : Txn σ ε σ) s = (.ok s, s) := rfl

@[simp] theorem exec_modify (f : σ → σ) (s : σ) :
    exec (modify f : Txn σ ε PUnit) s = (.ok ⟨⟩, f s) := rfl

theorem exec_bind (m : Txn σ ε α) (f : α → Txn σ ε β) (s : σ) :
    exec (m >>= f) s =
      match exec m s with
      | (.ok a, t) => exec (f a) t
      | (.error e, t) => (.error e, t) := by
  unfold exec
  simp only [ExceptT.run_bind, StateT.run_bind]
  rcases StateT.run (ExceptT.run m) s with ⟨r, t⟩
  cases r <;> rfl

theorem exec_bind_ok {m : Txn σ ε α} {f : α → Txn σ ε β} {s t : σ} {a : α}
    (h : exec m s = (.ok a, t)) : exec (m >>= f) s = exec (f a) t := by
  rw [exec_bind, h]

theorem exec_bind_error {m : Txn σ ε α} {f : α → Txn σ ε β} {s t : σ} {e : ε}
    (h : exec m s = (.error e, t)) : exec (m >>= f) s = (.error e, t) := by
  rw [exec_bind, h]

theorem exec_atomic_ok {m : Txn σ ε α} {s t : σ} {a : α}
    (h : exec m s = (.ok a, t)) : exec (atomic m) s = (.ok a, t) := by
  have hrun : exec (atomic m) s = atomic m s := rfl
  rw [hrun, atomic, h]

theorem exec_atomic_error {m : Txn σ ε α} {s t : σ} {e : ε}
    (h : exec m s = (.error e, t)) : exec (atomic m) s = (.error e, s) := by
  have hrun : exec (atomic m) s = atomic m s := rfl
  rw [hrun, atomic, h]

theorem exec_mapError_ok {ε' : Type} {f : ε → ε'} {m : Txn σ ε α} {s t : σ} {a : α}
    (h : exec m s = (.ok a, t)) : exec (mapError f m) s = (.ok a, t) := by
  have hrun : exec (mapError f m) s = mapError f m s := rfl
  rw [hrun, mapError, h]

theorem exec_mapError_error {ε' : Type} {f : ε → ε'} {m : Txn σ ε α} {s t : σ} {e : ε}
    (h : exec m s = (.error e, t)) : exec (mapError f m) s = (.error (f e), t) := by
  have hrun : exec (mapError f m) s = mapError f m s := rfl
  rw [hrun, mapError, h]

/-! ## Commits -/

theorem commits_pure {a b : α} {s t : σ} :
    Commits (pure a : Txn σ ε α) s b t ↔ b = a ∧ t = s := by
  simp only [Commits, exec_pure, Prod.mk.injEq, Except.ok.injEq]
  constructor <;> rintro ⟨rfl, rfl⟩ <;> exact ⟨rfl, rfl⟩

theorem commits_throw {e : ε} {b : α} {s t : σ} :
    Commits (throw e : Txn σ ε α) s b t ↔ False := by
  simp [Commits]

theorem commits_get {a s t : σ} :
    Commits (get : Txn σ ε σ) s a t ↔ a = s ∧ t = s := by
  simp only [Commits, exec_get, Prod.mk.injEq, Except.ok.injEq]
  constructor <;> rintro ⟨rfl, rfl⟩ <;> exact ⟨rfl, rfl⟩

theorem commits_modify {f : σ → σ} {u : PUnit} {s t : σ} :
    Commits (modify f : Txn σ ε PUnit) s u t ↔ t = f s := by
  simp only [Commits, exec_modify, Prod.mk.injEq, true_and]
  exact eq_comm

theorem commits_bind {m : Txn σ ε α} {f : α → Txn σ ε β} {s t : σ} {b : β} :
    Commits (m >>= f) s b t ↔ ∃ a u, Commits m s a u ∧ Commits (f a) u b t := by
  unfold Commits
  rcases h : exec m s with ⟨r, u⟩
  cases r with
  | error e => simp [exec_bind_error h]
  | ok a =>
      rw [exec_bind_ok h]
      constructor
      · intro hf
        exact ⟨a, u, rfl, hf⟩
      · rintro ⟨a', u', heq, hf⟩
        simp only [Prod.mk.injEq, Except.ok.injEq] at heq
        obtain ⟨rfl, rfl⟩ := heq
        exact hf

theorem commits_ite {c : Prop} [Decidable c] {m n : Txn σ ε α} {s t : σ} {a : α} :
    Commits (if c then m else n) s a t ↔
      (c ∧ Commits m s a t) ∨ (¬ c ∧ Commits n s a t) := by
  by_cases h : c <;> simp [h]

theorem commits_orRaise {o : Option α} {e : ε} {s t : σ} {a : α} :
    Commits (orRaise o e : Txn σ ε α) s a t ↔ o = some a ∧ t = s := by
  cases o with
  | none => simp [orRaise, commits_throw]
  | some b =>
      simp only [orRaise, commits_pure, Option.some.injEq]
      constructor <;> rintro ⟨rfl, rfl⟩ <;> exact ⟨rfl, rfl⟩

theorem commits_fromExcept {r : Except ε α} {s t : σ} {a : α} :
    Commits (fromExcept r : Txn σ ε α) s a t ↔ r = .ok a ∧ t = s := by
  cases r with
  | error e => simp [fromExcept, commits_throw]
  | ok b =>
      simp only [fromExcept, commits_pure, Except.ok.injEq]
      constructor <;> rintro ⟨rfl, rfl⟩ <;> exact ⟨rfl, rfl⟩

theorem commits_require {c : Prop} [Decidable c] {e : ε} {s t : σ} {u : Unit} :
    Commits (require c e : Txn σ ε Unit) s u t ↔ c ∧ t = s := by
  unfold require
  by_cases h : c <;> simp [h, commits_pure, commits_throw]

theorem commits_atomic {m : Txn σ ε α} {s t : σ} {a : α} :
    Commits (atomic m) s a t ↔ Commits m s a t := by
  unfold Commits
  rcases h : exec m s with ⟨r, u⟩
  cases r with
  | error e => simp [exec_atomic_error h]
  | ok b => rw [exec_atomic_ok h]

theorem commits_mapError {ε' : Type} {f : ε → ε'} {m : Txn σ ε α} {s t : σ} {a : α} :
    Commits (mapError f m) s a t ↔ Commits m s a t := by
  unfold Commits
  rcases h : exec m s with ⟨r, u⟩
  cases r with
  | error e => simp [exec_mapError_error h]
  | ok b => simp [exec_mapError_ok h]

theorem commits_onPart {τ : Type} {part : τ → σ} {put : σ → τ → τ} {m : Txn σ ε α} {t u : τ}
    {a : α} : Commits (onPart part put m) t a u ↔ ∃ s, Commits m (part t) a s ∧ u = put s t := by
  have hrun : exec (onPart part put m) t = onPart part put m t := rfl
  unfold Commits
  rw [hrun, onPart]
  rcases exec m (part t) with ⟨r, s⟩
  simp only [Prod.mk.injEq]
  constructor
  · rintro ⟨rfl, rfl⟩
    exact ⟨s, ⟨rfl, rfl⟩, rfl⟩
  · rintro ⟨_, ⟨rfl, rfl⟩, rfl⟩
    exact ⟨rfl, rfl⟩

theorem Commits.after_eq {m : Txn σ ε α} {s t : σ} {a : α} (h : Commits m s a t) :
    after m s = t := congrArg Prod.snd h

theorem commits_after {m : Txn σ ε α} {s : σ} {a : α} (h : (exec m s).1 = .ok a) :
    Commits m s a (after m s) := Prod.ext h rfl

theorem Commits.unique {m : Txn σ ε α} {s t t' : σ} {a a' : α} (h : Commits m s a t)
    (h' : Commits m s a' t') : a' = a ∧ t' = t := by
  have heq := h'.symm.trans h
  simpa using heq

/-! ## Calls that return -/

/-- The call returns. -/
def Returns (m : Txn σ ε α) (s : σ) : Prop := ∃ a t, Commits m s a t

theorem returns_bind {m : Txn σ ε α} {f : α → Txn σ ε β} {s : σ} :
    Returns (m >>= f) s ↔ ∃ a t, Commits m s a t ∧ Returns (f a) t := by
  simp only [Returns, commits_bind]
  constructor
  · rintro ⟨b, u, a, t, hm, hf⟩
    exact ⟨a, t, hm, b, u, hf⟩
  · rintro ⟨a, t, hm, b, u, hf⟩
    exact ⟨b, u, a, t, hm, hf⟩

theorem returns_bind_of_forall {m : Txn σ ε α} {f : α → Txn σ ε β} {s : σ} (hm : Returns m s)
    (hf : ∀ a t, Returns (f a) t) : Returns (m >>= f) s := by
  obtain ⟨a, t, h⟩ := hm
  exact returns_bind.mpr ⟨a, t, h, hf a t⟩

theorem returns_pure (a : α) (s : σ) : Returns (pure a : Txn σ ε α) s := ⟨a, s, rfl⟩

theorem returns_modify (f : σ → σ) (s : σ) : Returns (modify f : Txn σ ε PUnit) s :=
  ⟨⟨⟩, f s, rfl⟩

theorem returns_atomic {m : Txn σ ε α} {s : σ} : Returns (atomic m) s ↔ Returns m s := by
  simp only [Returns, commits_atomic]

/-! ## All or nothing -/

/-- The call either leaves the store alone or leaves a store it committed. -/
def AllOrNothing (m : Txn σ ε α) : Prop :=
  ∀ s, after m s = s ∨ ∃ a, Commits m s a (after m s)

theorem allOrNothing_atomic (m : Txn σ ε α) : AllOrNothing (atomic m) := by
  intro s
  unfold after Commits
  rcases h : exec m s with ⟨r, u⟩
  cases r with
  | error e => exact Or.inl (by rw [exec_atomic_error h])
  | ok a => exact Or.inr ⟨a, by rw [exec_atomic_ok h]⟩

/-- A call that cannot commit leaves no trace. -/
theorem AllOrNothing.after_eq_self {m : Txn σ ε α} (hm : AllOrNothing m) {s : σ}
    (h : ∀ a t, ¬ Commits m s a t) : after m s = s := by
  rcases hm s with hsame | ⟨a, hcommit⟩
  · exact hsame
  · exact absurd hcommit (h a _)

/-- What a call keeps when it commits, it keeps. -/
theorem AllOrNothing.preserves {P : σ → Prop} {m : Txn σ ε α} (hm : AllOrNothing m) {s : σ}
    (hs : P s) (h : ∀ a t, Commits m s a t → P t) : P (after m s) := by
  rcases hm s with hsame | ⟨a, hcommit⟩
  · rw [hsame]
    exact hs
  · exact h a _ hcommit

theorem allOrNothing_pure (a : α) : AllOrNothing (pure a : Txn σ ε α) :=
  fun _ => Or.inl rfl

theorem allOrNothing_throw (e : ε) : AllOrNothing (throw e : Txn σ ε α) :=
  fun _ => Or.inl rfl

theorem allOrNothing_ite {c : Prop} [Decidable c] {m n : Txn σ ε α} (hm : AllOrNothing m)
    (hn : AllOrNothing n) : AllOrNothing (if c then m else n) := by
  by_cases h : c <;> simp [h, hm, hn]

/-- Dropping or mapping the result of a transaction. -/
theorem allOrNothing_bind_pure {m : Txn σ ε α} (hm : AllOrNothing m) (f : α → β) :
    AllOrNothing (m >>= fun a => pure (f a)) := by
  intro s
  have hms := hm s
  unfold after Commits at hms ⊢
  rcases h : exec m s with ⟨r, u⟩
  rw [h] at hms
  cases r with
  | error e =>
      rw [exec_bind_error h]
      exact Or.inl (hms.resolve_right (by simp))
  | ok a =>
      rw [exec_bind_ok h]
      exact Or.inr ⟨f a, rfl⟩

theorem allOrNothing_modify (f : σ → σ) : AllOrNothing (modify f : Txn σ ε PUnit) :=
  fun _ => Or.inr ⟨⟨⟩, rfl⟩

/-! ## Frame rules

`Keeps R m` says that `m` relates the store before to the store after by `R`,
whether it returns or raises.  For a reflexive and transitive `R` it is enough
to look at the single writes. -/

/-- Every execution of the call moves the store along `R`. -/
def Keeps (R : σ → σ → Prop) (m : Txn σ ε α) : Prop := ∀ s, R s (after m s)

section Keeps

variable {R : σ → σ → Prop}

theorem keeps_pure (hrefl : ∀ s, R s s) (a : α) : Keeps R (pure a : Txn σ ε α) :=
  fun s => hrefl s

theorem keeps_throw (hrefl : ∀ s, R s s) (e : ε) : Keeps R (throw e : Txn σ ε α) :=
  fun s => hrefl s

theorem keeps_get (hrefl : ∀ s, R s s) : Keeps R (get : Txn σ ε σ) :=
  fun s => hrefl s

theorem keeps_modify {f : σ → σ} (h : ∀ s, R s (f s)) :
    Keeps R (modify f : Txn σ ε PUnit) := fun s => h s

theorem keeps_bind (htrans : ∀ s t u, R s t → R t u → R s u) {m : Txn σ ε α}
    {f : α → Txn σ ε β} (hm : Keeps R m) (hf : ∀ a, Keeps R (f a)) :
    Keeps R (m >>= f) := by
  intro s
  have hms := hm s
  unfold after at hms ⊢
  rcases h : exec m s with ⟨r, t⟩
  rw [h] at hms
  cases r with
  | error e =>
      rw [exec_bind_error h]
      exact hms
  | ok a =>
      rw [exec_bind_ok h]
      exact htrans _ _ _ hms (hf a t)

/-- What follows a read may use that the store has not changed since. -/
theorem keeps_get_bind {f : σ → Txn σ ε β} (h : ∀ s, R s (after (f s) s)) :
    Keeps R (get >>= f) := by
  intro s
  unfold after
  rw [exec_bind_ok (exec_get s)]
  exact h s

/-- The same after a check that does not touch the store. -/
theorem after_fromExcept_bind (hrefl : ∀ s, R s s) {r : Except ε α} {f : α → Txn σ ε β} {s : σ}
    (h : ∀ a, r = .ok a → R s (after (f a) s)) : R s (after (fromExcept r >>= f) s) := by
  unfold after at h ⊢
  cases r with
  | error e =>
      have hraise : exec (fromExcept (.error e) : Txn σ ε α) s = (.error e, s) := rfl
      rw [exec_bind_error hraise]
      exact hrefl s
  | ok a =>
      have hreturn : exec (fromExcept (.ok a) : Txn σ ε α) s = (.ok a, s) := rfl
      rw [exec_bind_ok hreturn]
      exact h a rfl

theorem keeps_ite {c : Prop} [Decidable c] {m n : Txn σ ε α} (hm : Keeps R m)
    (hn : Keeps R n) : Keeps R (if c then m else n) := by
  by_cases h : c <;> simp [h, hm, hn]

theorem keeps_orRaise (hrefl : ∀ s, R s s) (o : Option α) (e : ε) :
    Keeps R (orRaise o e : Txn σ ε α) := by
  cases o with
  | none => exact keeps_throw hrefl e
  | some a => exact keeps_pure hrefl a

theorem keeps_fromExcept (hrefl : ∀ s, R s s) (r : Except ε α) :
    Keeps R (fromExcept r : Txn σ ε α) := by
  cases r with
  | error e => exact keeps_throw hrefl e
  | ok a => exact keeps_pure hrefl a

theorem keeps_require (hrefl : ∀ s, R s s) (c : Prop) [Decidable c] (e : ε) :
    Keeps R (require c e : Txn σ ε Unit) :=
  keeps_ite (keeps_pure hrefl ()) (keeps_throw hrefl e)

theorem keeps_atomic (hrefl : ∀ s, R s s) {m : Txn σ ε α} (hm : Keeps R m) :
    Keeps R (atomic m) := by
  intro s
  have hms := hm s
  unfold after at hms ⊢
  rcases h : exec m s with ⟨r, t⟩
  rw [h] at hms
  cases r with
  | error e =>
      rw [exec_atomic_error h]
      exact hrefl s
  | ok a =>
      rw [exec_atomic_ok h]
      exact hms

theorem keeps_mapError {ε' : Type} {f : ε → ε'} {m : Txn σ ε α} (hm : Keeps R m) :
    Keeps R (mapError f m) := by
  intro s
  have hms := hm s
  unfold after at hms ⊢
  rcases h : exec m s with ⟨r, t⟩
  rw [h] at hms
  cases r with
  | error e =>
      rw [exec_mapError_error h]
      exact hms
  | ok a =>
      rw [exec_mapError_ok h]
      exact hms

/-- What only reads, before a call. -/
theorem allOrNothing_bind {m : Txn σ ε α} {f : α → Txn σ ε β} (hm : Keeps Eq m)
    (hf : ∀ a, AllOrNothing (f a)) : AllOrNothing (m >>= f) := by
  intro s
  have hms := hm s
  unfold after Commits at *
  rcases h : exec m s with ⟨r, t⟩
  rw [h] at hms
  obtain rfl : s = t := hms
  cases r with
  | error e =>
      rw [exec_bind_error h]
      exact Or.inl rfl
  | ok a =>
      rw [exec_bind_ok h]
      exact hf a s

end Keeps

end Txn

end SetadJang.Framework
