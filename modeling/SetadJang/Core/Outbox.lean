import Mathlib.Data.List.Sort
import SetadJang.Framework.Rows
import SetadJang.Framework.Runs

/-!
# The invalidation outbox

An announcement of `invalidate_public_domain` is stored as an event and handed to
a worker.  The worker loads the event, marks it PROCESSING, calls the frontend and
saves the outcome, each in a save of its own and from its own copy; it may die
between any two of them.  The sweeper hands due PENDING and FAILED events to
workers again.  An event that a dead worker left PROCESSING is in neither group.
-/

namespace SetadJang.Core

open SetadJang.Framework

/-! ## Events -/

inductive EventStatus where
  | pending
  | processing
  | succeeded
  | failed
  | dead
deriving DecidableEq, Repr

/-- `CacheInvalidationEvent`; times are in milliseconds. -/
structure CacheInvalidationEvent where
  domain : String
  tags : List String
  paths : List String
  status : EventStatus
  attempts : ℕ
  lastError : String
  nextAttemptAt : Option ℕ
  processedAt : Option ℕ
  createdAt : ℕ
deriving DecidableEq, Repr

/-- The settings `CACHE_INVALIDATION_*`. -/
structure OutboxSettings where
  maxAttempts : ℕ
  batchSize : ℕ
  retryBaseSeconds : ℕ
  retryMaxSeconds : ℕ
deriving DecidableEq, Repr

def EventStatus.terminal (status : EventStatus) : Bool :=
  status == .succeeded || status == .dead

/-- `outbox_retry_delay_seconds`, in milliseconds, with a jitter of up to 100 per
mille. -/
def outboxRetryDelay (settings : OutboxSettings) (attempts : ℕ) (jitter : Fin 101) : ℕ :=
  min (settings.retryBaseSeconds * 2 ^ min (attempts - 1) 20) settings.retryMaxSeconds *
    (1000 + jitter)

/-! ## Workers -/

/-- `process_cache_invalidation_event_task` between two of its steps, with its copy
of the event. -/
inductive Worker where
  | deadLettering (e : ℕ)
  | loaded (e : ℕ) (copy : CacheInvalidationEvent)
  | delivering (e : ℕ) (copy : CacheInvalidationEvent)
  | succeeding (e : ℕ)
  | failing (e : ℕ) (copy : CacheInvalidationEvent) (error : String)
  | done
deriving DecidableEq, Repr

def Worker.event : Worker → Option ℕ
  | .deadLettering e => some e
  | .loaded e _ => some e
  | .delivering e _ => some e
  | .succeeding e => some e
  | .failing e _ _ => some e
  | .done => none

/-- The events, the workers and the clock; `dispatched` is what the sweeper has
handed out. -/
structure OutboxSys where
  events : List CacheInvalidationEvent
  workers : List Worker
  clock : ℕ
  dispatched : List ℕ
deriving DecidableEq, Repr

inductive OutboxAct where
  | tick (ms : ℕ)
  | enqueue (domain : String) (tags paths : List String)
  | load (e : ℕ)
  /-- The next step of worker `i`; `error` is what the frontend call raises. -/
  | advance (i : ℕ) (error : Option String) (jitter : Fin 101)
  | crash (i : ℕ)
  | sweep (limit : Option ℕ)
deriving DecidableEq, Repr

/-- The `due_query` of the sweeper with its bound on the attempts. -/
def CacheInvalidationEvent.due (settings : OutboxSettings) (now : ℕ)
    (event : CacheInvalidationEvent) : Bool :=
  (event.status == .pending ||
    (event.status == .failed && event.nextAttemptAt.all fun at_ => at_ ≤ now)) &&
    decide (event.attempts < settings.maxAttempts)

/-- `limit or batch_size`, between 1 and 500. -/
def batchLimit (settings : OutboxSettings) (limit : Option ℕ) : ℕ :=
  let wanted := if limit.getD 0 = 0 then settings.batchSize else limit.getD 0
  max 1 (min wanted 500)

namespace OutboxSys

def start (clock : ℕ) : OutboxSys := ⟨[], [], clock, []⟩

/-- The query of the sweeper: the due events, oldest first, up to the limit. -/
def select (settings : OutboxSettings) (limit : Option ℕ) (s : OutboxSys) : List ℕ :=
  let due := (List.range s.events.length).filter fun e =>
    (s.events[e]?).any (CacheInvalidationEvent.due settings s.clock)
  let createdAt := fun e => (s.events[e]?).elim 0 CacheInvalidationEvent.createdAt
  (due.insertionSort fun e f => createdAt e ≤ createdAt f).take (batchLimit settings limit)

def save (s : OutboxSys) (e : ℕ) (f : CacheInvalidationEvent → CacheInvalidationEvent) :
    OutboxSys :=
  { s with events := s.events.modify e f }

def setWorker (s : OutboxSys) (i : ℕ) (worker : Worker) : OutboxSys :=
  { s with workers := s.workers.set i worker }

/-- A worker starts: it loads the event and looks at its status and attempts. -/
def load (settings : OutboxSettings) (s : OutboxSys) (e : ℕ) : OutboxSys :=
  match s.events[e]? with
  | none => s
  | some event =>
      if event.status.terminal then s
      else if settings.maxAttempts ≤ event.attempts then
        { s with workers := s.workers ++ [.deadLettering e] }
      else { s with workers := s.workers ++ [.loaded e event] }

/-- The next step of worker `i`: a save or the call of the frontend. -/
def advance (settings : OutboxSettings) (s : OutboxSys) (i : ℕ) (error : Option String)
    (jitter : Fin 101) : OutboxSys :=
  match s.workers[i]? with
  | some (.deadLettering e) =>
      (s.save e fun event =>
        { event with
          status := .dead
          lastError := "Maximum attempts exceeded (" ++ toString settings.maxAttempts ++ ")"
          }).setWorker i .done
  | some (.loaded e copy) =>
      (s.save e fun event =>
        { event with status := .processing, attempts := copy.attempts + 1 }).setWorker i
          (.delivering e { copy with status := .processing, attempts := copy.attempts + 1 })
  | some (.delivering e copy) =>
      match error with
      | none => s.setWorker i (.succeeding e)
      | some message => s.setWorker i (.failing e copy message)
  | some (.succeeding e) =>
      (s.save e fun event =>
        { event with
          status := .succeeded, lastError := "", processedAt := some s.clock }).setWorker i .done
  | some (.failing e copy message) =>
      (s.save e fun event =>
        { event with
          status := if settings.maxAttempts ≤ copy.attempts then .dead else .failed
          lastError := String.ofList (message.toList.take 4000)
          nextAttemptAt := some (s.clock + outboxRetryDelay settings copy.attempts jitter)
          }).setWorker i .done
  | some .done => s
  | none => s

def step (settings : OutboxSettings) (s : OutboxSys) : OutboxAct → OutboxSys
  | .tick ms => { s with clock := s.clock + ms }
  | .enqueue domain tags paths =>
      { s with
        events := s.events ++ [⟨domain, tags, paths, .pending, 0, "", none, none, s.clock⟩] }
  | .load e => s.load settings e
  | .advance i error jitter => s.advance settings i error jitter
  | .crash i => s.setWorker i .done
  | .sweep limit => { s with dispatched := s.dispatched ++ s.select settings limit }

end OutboxSys

/-- The step is not one of a worker on event `e`. -/
def Untouched (e : ℕ) (s : OutboxSys) : OutboxAct → Prop
  | .load k => k ≠ e
  | .advance i _ _ => (s.workers[i]?).bind Worker.event ≠ some e
  | _ => True

/-- The sweeper can come to select the event before any worker touches it. -/
def Selectable (settings : OutboxSettings) (limit : Option ℕ) (s : OutboxSys) (e : ℕ) : Prop :=
  ∃ acts, Along (OutboxSys.step settings) (Untouched e) s acts ∧
    e ∈ (run (OutboxSys.step settings) s acts).select settings limit

/-! ## An untouched event stays as it is -/

section

variable {settings : OutboxSettings} {s : OutboxSys} {e : ℕ} {row : CacheInvalidationEvent}

theorem save_other {k : ℕ} (hne : k ≠ e) (f : CacheInvalidationEvent → CacheInvalidationEvent) :
    (s.save k f).events[e]? = s.events[e]? := by
  show (s.events.modify k f)[e]? = s.events[e]?
  rw [List.getElem?_modify_ne _ _ hne]

/-- **Step lemma.** -/
theorem untouched_step {a : OutboxAct} (hrow : s.events[e]? = some row) (ha : Untouched e s a) :
    (s.step settings a).events[e]? = some row := by
  cases a with
  | tick ms => exact hrow
  | enqueue domain tags paths =>
      show (s.events ++ [_])[e]? = some row
      rw [List.getElem?_append_left (List.getElem?_eq_some_iff.mp hrow).1, hrow]
  | load k =>
      show (s.load settings k).events[e]? = some row
      unfold OutboxSys.load
      split
      · exact hrow
      · split
        · exact hrow
        · split <;> exact hrow
  | advance i error jitter =>
      have hother : ∀ {worker : Worker} {k : ℕ}, s.workers[i]? = some worker →
          worker.event = some k → k ≠ e := by
        rintro worker k hworker hk rfl
        apply ha
        rw [hworker]
        exact hk
      show (s.advance settings i error jitter).events[e]? = some row
      unfold OutboxSys.advance
      cases hworker : s.workers[i]? with
      | none => exact hrow
      | some worker =>
          cases worker with
          | done => exact hrow
          | deadLettering k => exact (save_other (hother hworker rfl) _).trans hrow
          | loaded k copy => exact (save_other (hother hworker rfl) _).trans hrow
          | delivering k copy =>
              cases error with
              | none => exact hrow
              | some message => exact hrow
          | succeeding k => exact (save_other (hother hworker rfl) _).trans hrow
          | failing k copy message => exact (save_other (hother hworker rfl) _).trans hrow
  | crash i => exact hrow
  | sweep limit => exact hrow

theorem untouched_run (hrow : s.events[e]? = some row) {acts : List OutboxAct}
    (hacts : Along (OutboxSys.step settings) (Untouched e) s acts) :
    (run (OutboxSys.step settings) s acts).events[e]? = some row :=
  invariant_along (I := fun t : OutboxSys => t.events[e]? = some row)
    (fun _ _ ht ha => untouched_step ht ha) hrow hacts

/-- The sweeper selects due events only. -/
theorem due_of_select {limit : Option ℕ} (h : e ∈ s.select settings limit)
    (hrow : s.events[e]? = some row) : row.due settings s.clock = true := by
  have hmem := (List.mem_filter.mp ((List.mem_insertionSort _).mp (List.mem_of_mem_take h))).2
  rw [hrow] at hmem
  exact hmem

/-- What the sweeper will never select. -/
theorem waits_of_selectable {limit : Option ℕ} (hrow : s.events[e]? = some row)
    (h : Selectable settings limit s e) :
    row.status ≠ .processing ∧ row.attempts < settings.maxAttempts := by
  obtain ⟨acts, hacts, hselected⟩ := h
  have hdue := due_of_select hselected (untouched_run hrow hacts)
  simp only [CacheInvalidationEvent.due, Bool.and_eq_true, Bool.or_eq_true, beq_iff_eq,
    decide_eq_true_eq] at hdue
  obtain ⟨hstatus, hattempts⟩ := hdue
  refine ⟨?_, hattempts⟩
  intro hprocessing
  rcases hstatus with hpending | ⟨hfailed, -⟩
  · rw [hprocessing] at hpending
    cases hpending
  · rw [hprocessing] at hfailed
    cases hfailed

end

/-! ## Working off the other events -/

/-- The event waits for the sweeper, now or later. -/
def Waiting (settings : OutboxSettings) (s : OutboxSys) (k : ℕ) : Prop :=
  ∃ row, s.events[k]? = some row ∧ (row.status = .pending ∨ row.status = .failed) ∧
    row.attempts < settings.maxAttempts

/-- A worker takes event `k` from its load to its success. -/
def finishActs (s : OutboxSys) (k : ℕ) : List OutboxAct :=
  [.load k, .advance s.workers.length none 0, .advance s.workers.length none 0,
    .advance s.workers.length none 0]

section

variable {settings : OutboxSettings} {s : OutboxSys} {k : ℕ} {row : CacheInvalidationEvent}

theorem finish_run (hrow : s.events[k]? = some row)
    (hstatus : row.status = .pending ∨ row.status = .failed)
    (hattempts : row.attempts < settings.maxAttempts) :
    run (OutboxSys.step settings) s (finishActs s k) =
      { s with
        events := (s.events.modify k fun event =>
          { event with status := .processing, attempts := row.attempts + 1 }).modify k fun event =>
            { event with status := .succeeded, lastError := "", processedAt := some s.clock }
        workers := s.workers ++ [.done] } := by
  have hopen : row.status.terminal = false := by
    rcases hstatus with h | h <;> rw [h] <;> rfl
  simp [finishActs, OutboxSys.step, OutboxSys.load, OutboxSys.advance, OutboxSys.save,
    OutboxSys.setWorker, hrow, hopen, Nat.not_le.mpr hattempts]

/-- Only the new worker moves, and it is on event `k`. -/
theorem finish_untouched {e : ℕ} (hne : k ≠ e) (hrow : s.events[k]? = some row)
    (hstatus : row.status = .pending ∨ row.status = .failed)
    (hattempts : row.attempts < settings.maxAttempts) :
    Along (OutboxSys.step settings) (Untouched e) s (finishActs s k) := by
  have hopen : row.status.terminal = false := by
    rcases hstatus with h | h <;> rw [h] <;> rfl
  simp [finishActs, Along, Untouched, OutboxSys.step, OutboxSys.load, OutboxSys.advance,
    OutboxSys.save, OutboxSys.setWorker, hrow, hopen, Nat.not_le.mpr hattempts, Worker.event, hne]

/-- **One event is worked off**, the others and the clock stay. -/
theorem finish_waiting {e : ℕ} (hne : k ≠ e) (h : Waiting settings s k) :
    ∃ acts, Along (OutboxSys.step settings) (Untouched e) s acts ∧
      (run (OutboxSys.step settings) s acts).clock = s.clock ∧
      (∀ j, Waiting settings (run (OutboxSys.step settings) s acts) j → Waiting settings s j) ∧
      ¬ Waiting settings (run (OutboxSys.step settings) s acts) k := by
  obtain ⟨row, hrow, hstatus, hattempts⟩ := h
  refine ⟨finishActs s k, finish_untouched hne hrow hstatus hattempts, ?_, ?_, ?_⟩
  · rw [finish_run hrow hstatus hattempts]
  · rw [finish_run hrow hstatus hattempts]
    rintro j ⟨row', hrow', hstatus', hattempts'⟩
    rcases getElem?_modify_cases hrow' with ⟨-, old, -, rfl⟩ | ⟨hj, hold⟩
    · rcases hstatus' with h | h <;> cases h
    · rw [List.getElem?_modify_ne _ _ hj] at hold
      exact ⟨row', hold, hstatus', hattempts'⟩
  · rw [finish_run hrow hstatus hattempts]
    rintro ⟨row', hrow', hstatus', -⟩
    rcases getElem?_modify_cases hrow' with ⟨-, old, -, rfl⟩ | ⟨hk, -⟩
    · rcases hstatus' with h | h <;> cases h
    · exact hk rfl

/-- **Any list of events can be worked off** without touching `e`. -/
theorem work_off (settings : OutboxSettings) (e : ℕ) (ks : List ℕ) (s : OutboxSys) :
    ∃ acts, Along (OutboxSys.step settings) (Untouched e) s acts ∧
      (run (OutboxSys.step settings) s acts).clock = s.clock ∧
      (∀ j, Waiting settings (run (OutboxSys.step settings) s acts) j → Waiting settings s j) ∧
      ∀ k ∈ ks, k ≠ e → ¬ Waiting settings (run (OutboxSys.step settings) s acts) k := by
  induction ks generalizing s with
  | nil => exact ⟨[], trivial, rfl, fun _ h => h, by simp⟩
  | cons k ks ih =>
      by_cases hk : k ≠ e ∧ Waiting settings s k
      · obtain ⟨first, halong, hclock, hkeep, hdone⟩ := finish_waiting hk.1 hk.2
        obtain ⟨rest, halong', hclock', hkeep', hdone'⟩ := ih (run (OutboxSys.step settings) s first)
        refine ⟨first ++ rest, (along_append _ _ _).mpr ⟨halong, halong'⟩, ?_, ?_, ?_⟩
        · rw [run_append, hclock', hclock]
        · intro j hj
          rw [run_append] at hj
          exact hkeep j (hkeep' j hj)
        · intro j hj hne
          rw [run_append]
          rcases List.mem_cons.mp hj with rfl | hj
          · exact fun hwait => hdone (hkeep' _ hwait)
          · exact hdone' j hj hne
      · obtain ⟨acts, halong, hclock, hkeep, hdone⟩ := ih s
        refine ⟨acts, halong, hclock, hkeep, ?_⟩
        intro j hj hne
        rcases List.mem_cons.mp hj with rfl | hj
        · exact fun hwait => hk ⟨hne, hkeep _ hwait⟩
        · exact hdone j hj hne

end

/-- A due event that has the table to itself is selected. -/
theorem select_alone {settings : OutboxSettings} {limit : Option ℕ} {s : OutboxSys} {e : ℕ}
    {row : CacheInvalidationEvent} (hrow : s.events[e]? = some row)
    (hdue : row.due settings s.clock = true)
    (halone : ∀ k, k ≠ e → (s.events[k]?).any (CacheInvalidationEvent.due settings s.clock) = false) :
    e ∈ s.select settings limit := by
  have hfilter : ((List.range s.events.length).filter fun k =>
      (s.events[k]?).any (CacheInvalidationEvent.due settings s.clock)) = [e] := by
    refine (List.pairwise_lt_range.filter _).eq_of_mem_iff (List.pairwise_singleton _ _) ?_
    intro k
    rw [List.mem_filter, List.mem_singleton, List.mem_range]
    constructor
    · rintro ⟨-, hk⟩
      by_contra hne
      rw [halone k hne] at hk
      cases hk
    · rintro rfl
      rw [hrow]
      exact ⟨(List.getElem?_eq_some_iff.mp hrow).1, hdue⟩
  have hlimit : 1 ≤ batchLimit settings limit := Nat.le_max_left _ _
  unfold OutboxSys.select
  simp only [hfilter, List.insertionSort_cons, List.insertionSort_nil, List.orderedInsert]
  rw [List.take_of_length_le (by simpa using hlimit)]
  exact List.mem_cons_self

/-- A due event is waiting. -/
theorem waiting_of_due {settings : OutboxSettings} {s : OutboxSys} {k now : ℕ}
    (h : (s.events[k]?).any (CacheInvalidationEvent.due settings now) = true) :
    Waiting settings s k := by
  obtain ⟨row, hrow, hdue⟩ := (Option.any_eq_true _ _).mp h
  simp only [CacheInvalidationEvent.due, Bool.and_eq_true, Bool.or_eq_true, beq_iff_eq,
    decide_eq_true_eq] at hdue
  obtain ⟨hstatus, hattempts⟩ := hdue
  refine ⟨row, hrow, ?_, hattempts⟩
  rcases hstatus with hpending | ⟨hfailed, -⟩
  · exact Or.inl hpending
  · exact Or.inr hfailed

/-- The clock brings every waiting event to its next attempt. -/
theorem due_after {settings : OutboxSettings} {row : CacheInvalidationEvent} (clock : ℕ)
    (hstatus : row.status = .pending ∨ row.status = .failed)
    (hattempts : row.attempts < settings.maxAttempts) :
    row.due settings (clock + row.nextAttemptAt.getD 0) = true := by
  have hdate : row.nextAttemptAt.all
      (fun at_ => at_ ≤ clock + row.nextAttemptAt.getD 0) = true := by
    cases row.nextAttemptAt with
    | none => rfl
    | some at_ => simp
  unfold CacheInvalidationEvent.due
  rw [hdate]
  rcases hstatus with h | h <;> simp [h, hattempts]

/-- **A waiting event can be selected**: the others are worked off, and the clock
passes its next attempt. -/
theorem selectable_of_waits {settings : OutboxSettings} (limit : Option ℕ) {s : OutboxSys} {e : ℕ}
    {row : CacheInvalidationEvent} (hrow : s.events[e]? = some row)
    (hstatus : row.status = .pending ∨ row.status = .failed)
    (hattempts : row.attempts < settings.maxAttempts) : Selectable settings limit s e := by
  obtain ⟨acts, halong, hclock, hkeep, hdone⟩ :=
    work_off settings e (List.range s.events.length) s
  have hsame := untouched_run hrow halong
  have htick : Along (OutboxSys.step settings) (Untouched e)
      (run (OutboxSys.step settings) s acts) [.tick (row.nextAttemptAt.getD 0)] :=
    ⟨trivial, trivial⟩
  refine ⟨acts ++ [.tick (row.nextAttemptAt.getD 0)],
    (along_append _ _ _).mpr ⟨halong, htick⟩, ?_⟩
  -- with no other event due, no limit can keep this one out of the batch
  rw [run_append]
  refine select_alone hsame (due_after _ hstatus hattempts) ?_
  intro k hne
  by_contra hdue
  have hwaits : Waiting settings (run (OutboxSys.step settings) s acts) k :=
    waiting_of_due (Bool.eq_true_of_not_eq_false hdue)
  obtain ⟨old, hold, -⟩ := hkeep k hwaits
  exact hdone k (List.mem_range.mpr (List.getElem?_eq_some_iff.mp hold).1) hne hwaits

/-! ## Which open events make progress -/

/-- **Progress.** After every run an event that is neither SUCCEEDED nor DEAD can
still be selected exactly when it is not PROCESSING and has attempts left. -/
theorem outbox_progress_iff (settings : OutboxSettings) (clock : ℕ) (acts : List OutboxAct)
    (limit : Option ℕ) (e : ℕ) (row : CacheInvalidationEvent)
    (hrow : (run (OutboxSys.step settings) (OutboxSys.start clock) acts).events[e]? = some row)
    (hopen : row.status.terminal = false) :
    Selectable settings limit (run (OutboxSys.step settings) (OutboxSys.start clock) acts) e ↔
      row.status ≠ .processing ∧ row.attempts < settings.maxAttempts := by
  constructor
  · exact waits_of_selectable hrow
  · rintro ⟨hprocessing, hattempts⟩
    refine selectable_of_waits limit hrow ?_ hattempts
    cases hstatus : row.status with
    | pending => exact Or.inl rfl
    | failed => exact Or.inr rfl
    | processing => exact absurd hstatus hprocessing
    | succeeded => rw [hstatus] at hopen; cases hopen
    | dead => rw [hstatus] at hopen; cases hopen

/-- The defaults of the settings. -/
def outboxDefaults : OutboxSettings := ⟨10, 100, 10, 3600⟩

/-- The frontend refuses the call once: the event is FAILED, and comes back. -/
theorem outbox_progress_failed :
    Selectable outboxDefaults none
      (run (OutboxSys.step outboxDefaults) (OutboxSys.start 0)
        [.enqueue "news" ["news"] ["/news"], .load 0, .advance 0 none 0,
          .advance 0 (some "503") 0, .advance 0 none 0]) 0 :=
  (outbox_progress_iff outboxDefaults 0
    [.enqueue "news" ["news"] ["/news"], .load 0, .advance 0 none 0,
      .advance 0 (some "503") 0, .advance 0 none 0] none 0
    ⟨"news", ["news"], ["/news"], .failed, 1, "503", some 10000, none, 0⟩
    (by decide) (by decide)).mpr ⟨by decide, by decide⟩

/-- The worker dies after it has marked the event PROCESSING: no sweep selects the
event again. -/
theorem crashed_event_stuck :
    ∃ acts row,
      (run (OutboxSys.step outboxDefaults) (OutboxSys.start 0) acts).events[0]? = some row ∧
      row.status.terminal = false ∧
      ¬ Selectable outboxDefaults none
        (run (OutboxSys.step outboxDefaults) (OutboxSys.start 0) acts) 0 := by
  have hrow : (run (OutboxSys.step outboxDefaults) (OutboxSys.start 0)
      [.enqueue "news" ["news"] ["/news"], .load 0, .advance 0 none 0, .crash 0]).events[0]? =
      some ⟨"news", ["news"], ["/news"], .processing, 1, "", none, none, 0⟩ := by decide
  refine ⟨_, _, hrow, rfl, ?_⟩
  intro hselectable
  exact (waits_of_selectable hrow hselectable).1 rfl

-- Two workers overlap on the last attempt: the later save puts FAILED over DEAD.
example :
    ((run (OutboxSys.step ⟨2, 100, 10, 3600⟩) (OutboxSys.start 0)
      [.enqueue "news" [] [], .load 0, .advance 0 none 0, .load 0, .advance 1 none 0,
        .advance 1 (some "503") 0, .advance 1 none 0, .advance 0 (some "503") 0,
        .advance 0 none 0]).events[0]?).map (fun row => (row.status, row.attempts)) =
      some (.failed, 2) := by decide

end SetadJang.Core
