import Mathlib.Data.List.Chain

/-!
# Logs of status changes

A log entry carries the status before and the status after.  `Replays` says that
a log tells one story: it starts with an opening entry, each entry starts where
the one before it ended, and the last one ends in the current status.
-/

namespace SetadJang.Framework

variable {E S : Type}

structure Replays (opening : E → Prop) (before after : E → S) (log : List E) (now : S) :
    Prop where
  starts : ∃ e, log.head? = some e ∧ opening e
  linked : log.IsChain fun e e' => before e' = after e
  ends : ∃ e, log.getLast? = some e ∧ after e = now

variable {opening : E → Prop} {before after : E → S}

theorem replays_singleton {e : E} (h : opening e) :
    Replays opening before after [e] (after e) :=
  ⟨⟨e, rfl, h⟩, by simp, ⟨e, rfl, rfl⟩⟩

/-- An entry that starts in the current status continues the story. -/
theorem Replays.append {log : List E} {now : S} (h : Replays opening before after log now)
    {e : E} (he : before e = now) : Replays opening before after (log ++ [e]) (after e) := by
  obtain ⟨first, hfirst, hopen⟩ := h.starts
  obtain ⟨last, hlast, hnow⟩ := h.ends
  refine ⟨⟨first, ?_, hopen⟩, ?_, ⟨e, by simp, rfl⟩⟩
  · simp [List.head?_append, hfirst]
  · refine List.isChain_append.mpr ⟨h.linked, by simp, ?_⟩
    intro x hx y hy
    rw [hlast, Option.mem_some_iff] at hx
    rw [List.head?_singleton, Option.mem_some_iff] at hy
    rw [← hx, ← hy, hnow, he]

/-- A log tells of one current status only. -/
theorem Replays.now_unique {log : List E} {now now' : S}
    (h : Replays opening before after log now) (h' : Replays opening before after log now') :
    now = now' := by
  obtain ⟨last, hlast, rfl⟩ := h.ends
  obtain ⟨last', hlast', rfl⟩ := h'.ends
  rw [Option.some.inj (hlast.symm.trans hlast')]

end SetadJang.Framework
