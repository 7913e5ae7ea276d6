import SetadJang.Core.PayloadAnswers
import SetadJang.Framework.Rows

/-!
# One builder for each payload

The lock of a payload has no owner: it ends by its timeout while its holder still builds, and a
holder that is late deletes the lock of the next one.  As long as no holder is late, and the cache
does not evict a lock that is held, one call at a time builds a payload under its lock.
-/

namespace SetadJang.Core

open SetadJang.Framework

variable {D V : Type}

/-- The end of the lock that a call has taken and not yet deleted. -/
def SwrPhase.lockStop : SwrPhase V → Option ℕ
  | .building hold => hold.map Hold.stop
  | .givingUp hold => some hold.stop
  | .built hold _ => hold.map Hold.stop
  | .storing hold _ => hold.map Hold.stop
  | .unlocking hold _ => some hold.stop
  | _ => none

/-- The three things a step does to the lock of its key: nothing, take it, delete it. -/
theorem SwrPhase.next_locks (ttl : SwrLifetimes) (factory : D → Option V) (key : String)
    (dbError : Bool) (s : PayloadCache D V) (phase : SwrPhase V) :
    ((phase.next ttl factory key dbError s).1.locks = s.locks ∧
        (phase.next ttl factory key dbError s).2.lockStop = phase.lockStop) ∨
      (¬ Live (s.locks key) s.clock ∧
        (phase.next ttl factory key dbError s).1.locks =
          Function.update s.locks key (some (s.lockEnd ttl)) ∧
        (phase.next ttl factory key dbError s).2.lockStop = some (s.lockEnd ttl)) ∨
      (∃ stop, phase.lockStop = some stop ∧
        (phase.next ttl factory key dbError s).1.locks = Function.update s.locks key none ∧
        (phase.next ttl factory key dbError s).2.lockStop = none) := by
  cases phase with
  | looking now =>
      left
      simp only [next]
      split <;> [split_ifs; skip] <;> exact ⟨rfl, rfl⟩
  | stale envelope =>
      simp only [next]
      split
      · exact .inl ⟨rfl, rfl⟩
      · next hdead => exact .inr (.inl ⟨hdead, rfl, rfl⟩)
  | cold =>
      simp only [next]
      split
      · exact .inl ⟨rfl, rfl⟩
      · next hdead => exact .inr (.inl ⟨hdead, rfl, rfl⟩)
  | building hold =>
      left
      simp only [next]
      split <;> exact ⟨rfl, rfl⟩
  | givingUp hold =>
      cases hold with
      | refresh old stop => exact .inr (.inr ⟨stop, rfl, rfl, rfl⟩)
      | cold stop => exact .inr (.inr ⟨stop, rfl, rfl, rfl⟩)
  | storing hold envelope =>
      cases hold with
      | none => exact .inl ⟨rfl, rfl⟩
      | some hold => exact .inl ⟨rfl, rfl⟩
  | unlocking hold envelope => exact .inr (.inr ⟨hold.stop, rfl, rfl, rfl⟩)
  | waiting deadline =>
      left
      simp only [next]
      split_ifs <;> exact ⟨rfl, rfl⟩
  | polling deadline =>
      left
      simp only [next]
      split <;> exact ⟨rfl, rfl⟩
  | polled deadline envelope =>
      left
      simp only [next]
      split_ifs <;> exact ⟨rfl, rfl⟩
  | entering | built _ _ | answered _ | raised => exact .inl ⟨rfl, rfl⟩

/-! ## Holders -/

section

variable (views : PublicViews D V)

/-- The lock that a worker holds: its key and its end. -/
def PublicWorker.lock (worker : PublicWorker V) : Option (String × ℕ) :=
  match worker.phase with
  | .opened => none
  | .inside version phase =>
      phase.lockStop.map fun stop => (views.key version worker.call.parts, stop)

/-- Call `i` holds the lock of a key up to `stop`. -/
def HoldsLock (s : PayloadSys D V) (key : String) (i stop : ℕ) : Prop :=
  ∃ worker, s.workers[i]? = some worker ∧ worker.lock views = some (key, stop)

/-- One call at most builds under the lock of a key. -/
def OneBuilder (s : PayloadSys D V) : Prop :=
  ∀ key i j stop stop', HoldsLock views s key i stop → HoldsLock views s key j stop' → i = j

/-- Nobody holds a lock past its end, and no lock is evicted that is held. -/
def HoldersInTime (s : PayloadSys D V) : PayloadAct D → Prop
  | .tick ms => ∀ worker ∈ s.workers, ∀ lock ∈ worker.lock views, s.cache.clock + ms < lock.2
  | .dropLock key => ∀ worker ∈ s.workers, ∀ lock ∈ worker.lock views, lock.1 ≠ key
  | _ => True

instance (s : PayloadSys D V) : ∀ act, Decidable (HoldersInTime views s act)
  | .tick ms => inferInstanceAs (Decidable (∀ worker ∈ s.workers, ∀ lock ∈ worker.lock views,
      s.cache.clock + ms < lock.2))
  | .dropLock key => inferInstanceAs (Decidable (∀ worker ∈ s.workers, ∀ lock ∈ worker.lock views,
      lock.1 ≠ key))
  | .commit _ | .announce _ | .openCall _ | .advance _ _ | .dropVersion | .dropPayload _ =>
      isTrue trivial

/-- Every lock has its holder, if anybody. -/
def LocksExclusive (s : PayloadSys D V) : Prop :=
  ∀ key, Exclusive (HoldsLock views s key) (s.cache.locks key) s.cache.clock

variable {views} {s : PayloadSys D V}

/-- What a call that has moved holds. -/
theorem holdsLock_set {cache : PayloadCache D V} {i j stop : ℕ} {worker : PublicWorker V}
    {key : String} (h : HoldsLock views ⟨cache, s.workers.set i worker⟩ key j stop) :
    j ≠ i ∧ HoldsLock views s key j stop ∨ j = i ∧ worker.lock views = some (key, stop) := by
  obtain ⟨other, hother, hholds⟩ := h
  rcases getElem?_set_cases hother with ⟨rfl, rfl⟩ | ⟨hne, hold⟩
  · exact .inr ⟨rfl, hholds⟩
  · exact .inl ⟨Ne.symm hne, other, hold, hholds⟩

theorem LocksExclusive.openCall (hs : LocksExclusive views s) (parts : CacheParts) :
    LocksExclusive views (views.step s (.openCall parts)) := by
  intro key
  refine (hs key).mono fun i stop hi => ?_
  obtain ⟨worker, hworker, hlock⟩ := hi
  have hold : s.workers[i]? = some worker := by
    change (s.workers ++ _)[i]? = some worker at hworker
    rcases Nat.lt_or_ge i s.workers.length with hlt | hge
    · rwa [List.getElem?_append_left hlt] at hworker
    · -- a call that has just been opened holds nothing
      rw [List.getElem?_append_right hge] at hworker
      have hnew := List.mem_singleton.mp (List.mem_of_getElem? hworker)
      rw [hnew] at hlock
      cases hlock
  exact ⟨worker, hold, hlock⟩

/-- A worker under a version moves on. -/
theorem LocksExclusive.move (hs : LocksExclusive views s) {i version : ℕ}
    {worker : PublicWorker V} {phase : SwrPhase V} (hworker : s.workers[i]? = some worker)
    (hphase : worker.phase = .inside version phase) (dbError : Bool) :
    let after := phase.next views.ttl (views.build worker.call.parts)
      (views.key version worker.call.parts) dbError s.cache
    LocksExclusive views ⟨after.1, s.workers.set i { worker with phase := .inside version after.2 }⟩ := by
  intro after key
  obtain ⟨⟨hclock, -, -, -⟩, -⟩ := SwrPhase.next_cache views.ttl (views.build worker.call.parts)
    (views.key version worker.call.parts) dbError s.cache phase
  have hlocks := SwrPhase.next_locks views.ttl (views.build worker.call.parts)
    (views.key version worker.call.parts) dbError s.cache phase
  have holds : ∀ {stop : ℕ}, phase.lockStop = some stop →
      HoldsLock views s (views.key version worker.call.parts) i stop :=
    fun hstop => ⟨worker, hworker, by simp only [PublicWorker.lock, hphase, hstop, Option.map_some]⟩
  -- what the worker holds after the step
  have hmoved : ∀ {k : String} {stop : ℕ},
      ({ worker with phase := .inside version after.2 } : PublicWorker V).lock views =
          some (k, stop) →
        views.key version worker.call.parts = k ∧ after.2.lockStop = some stop := by
    intro k stop hlock
    obtain ⟨stop', hstop, hpair⟩ := Option.map_eq_some_iff.mp hlock
    obtain ⟨hkey, rfl⟩ := Prod.mk.inj hpair
    exact ⟨hkey, hstop⟩
  show Exclusive _ (after.1.locks key) after.1.clock
  rw [show after.1.clock = s.cache.clock from hclock]
  by_cases hkey : views.key version worker.call.parts = key
  · subst hkey
    rcases hlocks with ⟨hsame, hstop⟩ | ⟨hdead, htaken, hstop⟩ | ⟨stop, hheld, hfreed, hstop⟩
    · rw [show after.1.locks = s.cache.locks from hsame]
      refine (hs _).mono fun j stop hj => ?_
      rcases holdsLock_set hj with ⟨-, hold⟩ | ⟨rfl, hnew⟩
      · exact hold
      · exact holds (hstop ▸ (hmoved hnew).2)
    · rw [show after.1.locks = _ from htaken, Function.update_self]
      refine (hs _).take (i := i) hdead ?_ fun j stop hj => ?_
      · exact Nat.lt_add_of_pos_right (Nat.mul_pos (by decide) views.ttl.lock_pos)
      · rcases holdsLock_set hj with ⟨-, hold⟩ | ⟨rfl, hnew⟩
        · exact .inl hold
        · exact .inr ⟨rfl, (Option.some.inj (hstop.symm.trans (hmoved hnew).2)).symm⟩
    · rw [show after.1.locks = _ from hfreed, Function.update_self]
      refine (hs _).free (holds hheld) fun j stop' hj => ?_
      rcases holdsLock_set hj with ⟨hne, hold⟩ | ⟨rfl, hnew⟩
      · exact ⟨hold, hne⟩
      · cases hstop.symm.trans (hmoved hnew).2
  · -- another key
    have hother : after.1.locks key = s.cache.locks key := by
      rcases hlocks with ⟨hsame, -⟩ | ⟨-, htaken, -⟩ | ⟨_, -, hfreed, -⟩
      · exact congrFun hsame key
      · rw [show after.1.locks = _ from htaken, Function.update_of_ne (Ne.symm hkey)]
      · rw [show after.1.locks = _ from hfreed, Function.update_of_ne (Ne.symm hkey)]
    rw [hother]
    refine (hs key).mono fun j stop hj => ?_
    rcases holdsLock_set hj with ⟨-, hold⟩ | ⟨-, hnew⟩
    · exact hold
    · exact absurd (hmoved hnew).1 hkey

/-- **Step lemma.** -/
theorem LocksExclusive.step (hs : LocksExclusive views s) {act : PayloadAct D}
    (hact : HoldersInTime views s act) : LocksExclusive views (views.step s act) := by
  cases act with
  | tick ms =>
      refine fun key => (hs key).wait fun i stop hi => ?_
      obtain ⟨worker, hworker, hlock⟩ := hi
      exact hact worker (List.mem_of_getElem? hworker) _ hlock
  | openCall parts => exact hs.openCall parts
  | advance i dbError =>
      simp only [PublicViews.step]
      split
      · next worker hworker =>
          unfold PublicViews.next
          split
          · next hphase =>
              intro key
              refine (hs key).mono fun j stop hj => ?_
              rcases holdsLock_set hj with ⟨-, hold⟩ | ⟨-, hnew⟩
              · exact hold
              · cases hnew
          · next version phase hphase => exact hs.move hworker hphase dbError
      · exact hs
  | dropLock key =>
      intro key'
      by_cases hkey : key' = key
      · subst hkey
        refine exclusive_of_nobody _ _ fun i stop hi => ?_
        obtain ⟨worker, hworker, hlock⟩ := hi
        exact hact worker (List.mem_of_getElem? hworker) _ hlock rfl
      · show Exclusive _ (Function.update s.cache.locks key none key') _
        rw [Function.update_of_ne hkey]
        exact hs key'
  | announce n =>
      simp only [PublicViews.step]
      split <;> exact hs
  | commit _ | dropVersion | dropPayload _ => exact hs

theorem locksExclusive_start (d : D) (version clock : ℕ) :
    LocksExclusive views (payloadStart d version clock) :=
  fun key => exclusive_of_nobody _ _ (by rintro i stop ⟨worker, ⟨⟩, -⟩)

end

/-- **One builder.** In every run in which no holder is late one call at most builds each payload
under its lock. -/
theorem one_builder (views : PublicViews D V) (d : D) (version clock : ℕ)
    (acts : List (PayloadAct D))
    (h : Along views.step (HoldersInTime views) (payloadStart d version clock) acts) :
    OneBuilder views (run views.step (payloadStart d version clock) acts) := by
  have hlocks := invariant_along (I := LocksExclusive views) (fun s act hs hact => hs.step hact)
    (locksExclusive_start d version clock) h
  exact fun key i j stop stop' hi hj => (hlocks key).unique i j stop stop' hi hj

/-- Two calls find nothing, and one of them builds. -/
def coldCalls : List (PayloadAct ℕ) :=
  [.openCall categoriesParts, .openCall categoriesParts, .advance 0 false, .advance 1 false,
    .advance 0 false, .advance 1 false, .advance 0 false, .advance 1 false, .advance 0 false,
    .tick 500, .advance 1 false, .advance 0 false]

theorem one_builder_cold :
    OneBuilder categoriesViews (run categoriesViews.step (payloadStart 5 1 0) coldCalls) :=
  one_builder categoriesViews 5 1 0 coldCalls (by decide +kernel)

/-- One of them holds the lock, and the other waits. -/
example : ((run categoriesViews.step (payloadStart 5 1 0) coldCalls).workers.map fun worker =>
    (worker.lock categoriesViews).map Prod.snd) = [some 15000, none] := by decide +kernel

end SetadJang.Core
