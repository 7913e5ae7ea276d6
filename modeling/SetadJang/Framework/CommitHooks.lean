import Mathlib.Data.List.Basic
import Mathlib.Tactic.Common

/-!
# Commit hooks of a database connection

Nested `atomic` blocks on one connection.  The outermost block is a transaction,
an inner one a savepoint.  A hook registered in a block runs once, when the
outermost block commits; rolling a savepoint back drops the hooks registered
while it was active, and outside every block a hook runs at once.  `epoch` is the
identity of the list of hooks: the connection replaces the list at every commit
and every rollback, also of a savepoint.

`Covers` says that what was done under some savepoints is in the care of a hook:
every rollback that drops the hook undoes the work too.
-/

namespace SetadJang.Framework

variable {K : Type}

structure Connection (K : Type) where
  inAtomicBlock : Bool
  /-- The active savepoints, innermost first. -/
  savepointIds : List ℕ
  savepointState : ℕ
  epoch : ℕ
  runOnCommit : List (List ℕ × K)
deriving DecidableEq, Repr

namespace Connection

def idle : Connection K := ⟨false, [], 0, 0, []⟩

/-- A block is entered. -/
def enter (c : Connection K) : Connection K :=
  if c.inAtomicBlock then
    { c with
      savepointIds := c.savepointState :: c.savepointIds
      savepointState := c.savepointState + 1 }
  else { c with inAtomicBlock := true }

/-- The innermost savepoint is released: its hooks stay. -/
def release (c : Connection K) : Connection K := { c with savepointIds := c.savepointIds.tail }

/-- The innermost savepoint is rolled back: its hooks are dropped. -/
def rollbackTo (c : Connection K) (sid : ℕ) : Connection K :=
  { c with
    savepointIds := c.savepointIds.tail
    epoch := c.epoch + 1
    runOnCommit := c.runOnCommit.filter fun hook => !hook.1.contains sid }

/-- The transaction ends. -/
def close (c : Connection K) : Connection K :=
  { c with inAtomicBlock := false, epoch := c.epoch + 1, runOnCommit := [] }

/-- `transaction.on_commit`, with the hooks to run at once. -/
def onCommit (c : Connection K) (k : K) : Connection K × List K :=
  if c.inAtomicBlock then
    ({ c with runOnCommit := c.runOnCommit ++ [(c.savepointIds, k)] }, [])
  else (c, [k])

/-- Outside a transaction nothing waits, and savepoints have been used once. -/
structure Valid (c : Connection K) : Prop where
  idle : c.inAtomicBlock = false → c.savepointIds = [] ∧ c.runOnCommit = []
  active : ∀ sid ∈ c.savepointIds, sid < c.savepointState
  hooks : ∀ hook ∈ c.runOnCommit, ∀ sid ∈ hook.1, sid < c.savepointState

theorem valid_idle : (idle : Connection K).Valid :=
  ⟨fun _ => ⟨rfl, rfl⟩, by simp [idle], by simp [idle]⟩

section

variable {c : Connection K} (hc : c.Valid)

include hc

theorem Valid.enter : c.enter.Valid := by
  unfold Connection.enter
  split
  · next hin =>
      refine ⟨?_, ?_, ?_⟩
      · intro hout
        rw [show c.inAtomicBlock = false from hout] at hin
        cases hin
      · intro sid hsid
        show sid < c.savepointState + 1
        rcases List.mem_cons.mp hsid with rfl | hsid
        · omega
        · have := hc.active sid hsid
          omega
      · intro hook hhook sid hsid
        have := hc.hooks hook hhook sid hsid
        show sid < c.savepointState + 1
        omega
  · refine ⟨?_, hc.active, hc.hooks⟩
    intro hout
    cases hout

theorem Valid.release : c.release.Valid := by
  refine ⟨?_, ?_, hc.hooks⟩
  · intro hout
    obtain ⟨hsids, hnone⟩ := hc.idle hout
    exact ⟨by rw [Connection.release, hsids, List.tail_nil], hnone⟩
  · intro sid hsid
    exact hc.active sid (List.mem_of_mem_tail hsid)

theorem Valid.rollbackTo (sid : ℕ) : (c.rollbackTo sid).Valid := by
  refine ⟨?_, ?_, ?_⟩
  · intro hout
    obtain ⟨hsids, hnone⟩ := hc.idle hout
    simp [Connection.rollbackTo, hsids, hnone]
  · intro s hs
    exact hc.active s (List.mem_of_mem_tail hs)
  · intro hook hhook
    exact hc.hooks hook (List.mem_of_mem_filter hhook)

theorem Valid.close (hsids : c.savepointIds = []) : c.close.Valid :=
  ⟨fun _ => ⟨hsids, rfl⟩, hc.active, by simp [Connection.close]⟩

theorem Valid.onCommit (k : K) : (c.onCommit k).1.Valid := by
  unfold Connection.onCommit
  split
  · next hin =>
      refine ⟨?_, hc.active, ?_⟩
      · intro hout
        rw [show c.inAtomicBlock = false from hout] at hin
        cases hin
      · intro hook hhook sid hsid
        rcases List.mem_append.mp hhook with hold | hnew
        · exact hc.hooks hook hold sid hsid
        · rw [List.mem_singleton.mp hnew] at hsid
          exact hc.active sid hsid
  · exact hc

end

/-- Work done under the savepoints `sids` is in the care of a hook `k`. -/
def Covers (c : Connection K) (sids : List ℕ) (k : K) : Prop :=
  ∃ hook ∈ c.runOnCommit, hook.2 = k ∧ ∀ sid ∈ c.savepointIds, sid ∈ hook.1 → sid ∈ sids

section

variable {c : Connection K} {sids : List ℕ} {k : K}

/-- A hook that waits takes care of what is done now. -/
theorem covers_now {hook : List ℕ × K} (hhook : hook ∈ c.runOnCommit) (hk : hook.2 = k) :
    c.Covers c.savepointIds k :=
  ⟨hook, hhook, hk, fun _ hsid _ => hsid⟩

/-- So does a new hook. -/
theorem covers_onCommit (hin : c.inAtomicBlock = true) (k : K) :
    (c.onCommit k).1.Covers c.savepointIds k := by
  rw [Connection.onCommit, if_pos hin]
  exact ⟨(c.savepointIds, k), List.mem_append_right _ List.mem_cons_self, rfl, fun _ h _ => h⟩

theorem Covers.onCommit (h : c.Covers sids k) (k' : K) : (c.onCommit k').1.Covers sids k := by
  unfold Connection.onCommit
  split
  · obtain ⟨hook, hhook, hk, hsids⟩ := h
    exact ⟨hook, List.mem_append_left _ hhook, hk, hsids⟩
  · exact h

/-- A new savepoint is in no hook yet. -/
theorem Covers.enter (hc : c.Valid) (h : c.Covers sids k) : c.enter.Covers sids k := by
  obtain ⟨hook, hhook, hk, hsids⟩ := h
  unfold Connection.enter
  split
  · refine ⟨hook, hhook, hk, ?_⟩
    intro sid hsid hmem
    rcases List.mem_cons.mp hsid with rfl | hsid
    · exact absurd (hc.hooks hook hhook _ hmem) (Nat.lt_irrefl _)
    · exact hsids sid hsid hmem
  · exact ⟨hook, hhook, hk, hsids⟩

theorem Covers.release (h : c.Covers sids k) : c.release.Covers sids k := by
  obtain ⟨hook, hhook, hk, hsids⟩ := h
  refine ⟨hook, hhook, hk, ?_⟩
  intro sid hsid
  exact hsids sid (List.mem_of_mem_tail hsid)

/-- A rollback that leaves the work alone leaves its hook alone. -/
theorem Covers.rollbackTo (h : c.Covers sids k) {sid : ℕ} (hactive : sid ∈ c.savepointIds)
    (hout : sid ∉ sids) : (c.rollbackTo sid).Covers sids k := by
  obtain ⟨hook, hhook, hk, hsids⟩ := h
  refine ⟨hook, ?_, hk, ?_⟩
  · apply List.mem_filter.mpr
    refine ⟨hhook, ?_⟩
    have hkept : sid ∉ hook.1 := fun hmem => hout (hsids sid hactive hmem)
    simpa using hkept
  · intro s hs
    exact hsids s (List.mem_of_mem_tail hs)

theorem Covers.mem (h : c.Covers sids k) : k ∈ c.runOnCommit.map Prod.snd := by
  obtain ⟨hook, hhook, rfl, -⟩ := h
  exact List.mem_map_of_mem hhook

end

end Connection

end SetadJang.Framework
