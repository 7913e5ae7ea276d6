import Mathlib.Data.List.Dedup
import Mathlib.Data.List.Sort
import Mathlib.Data.String.Basic
import SetadJang.Framework.CommitHooks
import SetadJang.Framework.Runs

/-!
# Invalidation of the public caches

`invalidate_public_domain` collects the calls of a transaction in a queue and
registers one commit hook for each domain.  The queue belongs to the list of
hooks it was made under; once the connection replaces that list, later calls start
a new queue.  Entries are objects: the call adds its own tags and paths to the
entry after it has registered the hook.  In autocommit mode the hook has run by
then.
-/

namespace SetadJang.Core

open SetadJang.Framework

/-! ## Policies -/

structure CachePolicy where
  domain : String
  backendNamespaces : List String
  frontendTags : List String
  frontendPaths : List String
deriving DecidableEq, Repr

/-- `PUBLIC_CACHE_POLICIES`, without the lifetimes. -/
def publicCachePolicies : List CachePolicy :=
  [⟨"r4j", ["r4j:public_list", "r4j:public_detail"],
      ["homepage", "r4j", "r4j:list", "criminals"], ["/"]⟩,
    ⟨"tabyin", ["tabyin:public_list", "tabyin:public_detail"],
      ["homepage", "tabyin", "tabyin:list"], ["/", "/tabyin"]⟩,
    ⟨"madadkar", ["madadkar:public_list", "madadkar:public_detail", "madadkar:stats"],
      ["homepage", "madadkar", "madadkar:list", "campaigns"], ["/"]⟩,
    ⟨"lms", ["lms:public_list", "lms:public_detail", "lms:categories"],
      ["homepage", "lms", "lms:categories", "courses", "lms-categories"], ["/"]⟩,
    ⟨"kindness", ["kindness:public_list", "kindness:public_detail", "kindness:categories"],
      ["homepage", "kindness", "kindness:list"], ["/"]⟩,
    ⟨"public_reports", ["public_reports:list", "public_reports:subjects"],
      ["homepage", "public-reports", "report-subjects"], ["/"]⟩]

/-- `get_cache_policy`; an unknown domain raises. -/
def getCachePolicy (domain : String) : Option CachePolicy :=
  publicCachePolicies.find? fun policy => policy.domain == domain

/-! ## The queue -/

/-- `_PendingInvalidation`; the two sets are lists without repetitions. -/
structure PendingInvalidation where
  domain : String
  tags : List String
  paths : List String
deriving DecidableEq, Repr

/-- A new entry starts with the tags and paths of the policy. -/
def CachePolicy.pending (policy : CachePolicy) (domain : String) : PendingInvalidation :=
  ⟨domain, policy.frontendTags.dedup, policy.frontendPaths.dedup⟩

/-- `entry.tags.update(…)` and `entry.paths.update(…)`. -/
def PendingInvalidation.update (entry : PendingInvalidation) (extraTags extraPaths : List String) :
    PendingInvalidation :=
  { entry with
    tags := (entry.tags ++ extraTags).dedup
    paths := (entry.paths ++ extraPaths).dedup }

/-- What the outside sees: a namespace gets a new version, and tags and paths are
announced, through the outbox or directly. -/
inductive CacheEffect where
  | bump (ns : String)
  | announce (outbox : Bool) (domain : String) (tags paths : List String)
deriving DecidableEq, Repr

/-- A connection with the state the module keeps on it.  Queues and entries are
objects, referred to by position; a queue maps domains to entries. -/
structure Invalidator where
  connection : Connection ℕ
  pending : Option (ℕ × ℕ)
  queues : List (List (String × ℕ))
  entries : List PendingInvalidation
  log : List CacheEffect
deriving DecidableEq, Repr

namespace Invalidator

def queue (s : Invalidator) (q : ℕ) : List (String × ℕ) := (s.queues[q]?).getD []

/-- `_pending_queue`: the queue of the current list of hooks, or a new one. -/
def pendingQueue (s : Invalidator) : Invalidator × ℕ :=
  match s.pending with
  | some (epoch, q) =>
      if epoch = s.connection.epoch then (s, q)
      else
        ({ s with
            pending := some (s.connection.epoch, s.queues.length)
            queues := s.queues ++ [[]] }, s.queues.length)
  | none =>
      ({ s with
          pending := some (s.connection.epoch, s.queues.length)
          queues := s.queues ++ [[]] }, s.queues.length)

/-- `_apply_invalidation`. -/
def applyInvalidation (outbox : Bool) (entry : PendingInvalidation) : List CacheEffect :=
  match getCachePolicy entry.domain with
  | some policy =>
      policy.backendNamespaces.map .bump ++
        [.announce outbox entry.domain (entry.tags.insertionSort (· ≤ ·))
          (entry.paths.insertionSort (· ≤ ·))]
  | none => []

/-- `_flush_pending_invalidations`. -/
def flush (outbox : Bool) (s : Invalidator) (q : ℕ) : Invalidator :=
  let drained := (s.queue q).filterMap fun item => s.entries[item.2]?
  { s with
    queues := s.queues.set q []
    log := s.log ++ drained.flatMap (applyInvalidation outbox) }

/-- Hooks run in the order of their registration. -/
def runHooks (outbox : Bool) (s : Invalidator) (hooks : List ℕ) : Invalidator :=
  hooks.foldl (flush outbox) s

/-- `queue[domain] = entry`, for a domain the queue does not have. -/
def insert (s : Invalidator) (q : ℕ) (entry : PendingInvalidation) : Invalidator :=
  { s with
    entries := s.entries ++ [entry]
    queues := s.queues.modify q (· ++ [(entry.domain, s.entries.length)]) }

/-- `invalidate_public_domain`. -/
def invalidatePublicDomain (outbox : Bool) (s : Invalidator) (domain : String)
    (extraTags extraPaths : List String) : Invalidator :=
  match getCachePolicy domain with
  | none => s
  | some policy =>
      let s₁ := s.pendingQueue.1
      let q := s.pendingQueue.2
      match (s₁.queue q).lookup domain with
      | some k =>
          { s₁ with entries := s₁.entries.modify k (·.update extraTags extraPaths) }
      | none =>
          let k := s₁.entries.length
          let registered := s₁.connection.onCommit q
          let s₂ := { s₁.insert q (policy.pending domain) with connection := registered.1 }
          let s₃ := runHooks outbox s₂ registered.2
          { s₃ with entries := s₃.entries.modify k (·.update extraTags extraPaths) }

end Invalidator

/-! ## Runs on one connection -/

structure Call where
  domain : String
  extraTags : List String
  extraPaths : List String
deriving DecidableEq, Repr

/-- The calls are recorded for the statements: those of the open transaction with
the savepoints that were active, and those that are committed with the length of
the log at their commit. -/
structure InvalidationSys where
  inv : Invalidator
  underway : List (Call × List ℕ)
  committed : List (Call × ℕ)
deriving DecidableEq, Repr

inductive InvalidationAct where
  | enter
  /-- The innermost block ends, normally or by a raise. -/
  | exit (ok : Bool)
  | call (c : Call)
deriving DecidableEq, Repr

namespace InvalidationSys

def start : InvalidationSys := ⟨⟨.idle, none, [], [], []⟩, [], []⟩

/-- The outermost block ends normally: the transaction commits, then its hooks
run. -/
def commit (outbox : Bool) (s : InvalidationSys) : InvalidationSys where
  inv := Invalidator.runHooks outbox { s.inv with connection := s.inv.connection.close }
    (s.inv.connection.runOnCommit.map Prod.snd)
  underway := []
  committed := s.committed ++ s.underway.map fun x => (x.1, s.inv.log.length)

def rollback (s : InvalidationSys) : InvalidationSys :=
  { s with inv := { s.inv with connection := s.inv.connection.close }, underway := [] }

def release (s : InvalidationSys) : InvalidationSys :=
  { s with inv := { s.inv with connection := s.inv.connection.release } }

def rollbackTo (s : InvalidationSys) (sid : ℕ) : InvalidationSys :=
  { s with
    inv := { s.inv with connection := s.inv.connection.rollbackTo sid }
    underway := s.underway.filter fun x => !x.2.contains sid }

/-- A call; one that raises is not recorded. -/
def invalidate (outbox : Bool) (s : InvalidationSys) (c : Call) : InvalidationSys :=
  match getCachePolicy c.domain with
  | none => s
  | some _ =>
      let inv := s.inv.invalidatePublicDomain outbox c.domain c.extraTags c.extraPaths
      if s.inv.connection.inAtomicBlock then
        { s with inv := inv, underway := s.underway ++ [(c, s.inv.connection.savepointIds)] }
      else { s with inv := inv, committed := s.committed ++ [(c, s.inv.log.length)] }

def step (outbox : Bool) (s : InvalidationSys) : InvalidationAct → InvalidationSys
  | .enter => { s with inv := { s.inv with connection := s.inv.connection.enter } }
  | .exit ok =>
      match s.inv.connection.savepointIds with
      | sid :: _ => if ok then s.release else s.rollbackTo sid
      | [] =>
          if s.inv.connection.inAtomicBlock then if ok then s.commit outbox else s.rollback
          else s
  | .call c => s.invalidate outbox c

end InvalidationSys

/-- The namespaces of the call's domain get a new version, and its tags and paths
are announced. -/
def Delivered (outbox : Bool) (log : List CacheEffect) (c : Call) : Prop :=
  (∀ policy ∈ getCachePolicy c.domain, ∀ ns ∈ policy.backendNamespaces, .bump ns ∈ log) ∧
    ∃ tags paths, .announce outbox c.domain tags paths ∈ log ∧
      (∀ t ∈ c.extraTags, t ∈ tags) ∧ ∀ p ∈ c.extraPaths, p ∈ paths

/-- **No lost invalidation**: every committed call is delivered after its commit. -/
def NoLostInvalidation (outbox : Bool) (s : InvalidationSys) : Prop :=
  ∀ x ∈ s.committed, Delivered outbox (s.inv.log.drop x.2) x.1

/-- A call in autocommit mode has no tags and paths of its own. -/
def ExtrasInTransaction (s : InvalidationSys) : InvalidationAct → Prop
  | .call c => s.inv.connection.inAtomicBlock = true ∨
      ∀ policy ∈ getCachePolicy c.domain, (∀ t ∈ c.extraTags, t ∈ policy.frontendTags) ∧
        ∀ p ∈ c.extraPaths, p ∈ policy.frontendPaths
  | _ => True

/-! ## Flushing -/

theorem Delivered.mono {outbox : Bool} {log log' : List CacheEffect} {c : Call}
    (h : Delivered outbox log c) (hsub : ∀ e ∈ log, e ∈ log') : Delivered outbox log' c := by
  obtain ⟨hbumps, tags, paths, hannounce, htags, hpaths⟩ := h
  refine ⟨?_, tags, paths, hsub _ hannounce, htags, hpaths⟩
  intro policy hpolicy ns hns
  exact hsub _ (hbumps policy hpolicy ns hns)

/-- The entry carries what the call asks for. -/
def PendingInvalidation.Carries (entry : PendingInvalidation) (c : Call) : Prop :=
  entry.domain = c.domain ∧ (∀ t ∈ c.extraTags, t ∈ entry.tags) ∧ ∀ p ∈ c.extraPaths, p ∈ entry.paths

/-- The queue holds an entry for the call. -/
def Invalidator.Holds (s : Invalidator) (q : ℕ) (c : Call) : Prop :=
  ∃ item ∈ s.queue q, ∃ entry, s.entries[item.2]? = some entry ∧ entry.Carries c

theorem delivered_apply {outbox : Bool} {entry : PendingInvalidation} {c : Call}
    (hpolicy : (getCachePolicy c.domain).isSome = true) (h : entry.Carries c) :
    Delivered outbox (Invalidator.applyInvalidation outbox entry) c := by
  obtain ⟨policy, hsome⟩ := Option.isSome_iff_exists.mp hpolicy
  obtain ⟨hdomain, htags, hpaths⟩ := h
  unfold Invalidator.applyInvalidation Delivered
  rw [hdomain, hsome]
  refine ⟨?_, _, _, List.mem_append_right _ List.mem_cons_self, ?_, ?_⟩
  · intro policy' hpolicy' ns hns
    cases hpolicy'
    exact List.mem_append_left _ (List.mem_map_of_mem hns)
  · intro t ht
    exact (List.mem_insertionSort _).mpr (htags t ht)
  · intro p hp
    exact (List.mem_insertionSort _).mpr (hpaths p hp)

section

variable (outbox : Bool) {s : Invalidator}

theorem queue_flush (s : Invalidator) (q q' : ℕ) :
    (s.flush outbox q).queue q' = if q' = q then [] else s.queue q' := by
  unfold Invalidator.flush Invalidator.queue
  by_cases h : q' = q
  · subst h
    rw [if_pos rfl, List.getElem?_set_self']
    cases s.queues[q']? <;> rfl
  · rw [if_neg h, List.getElem?_set_ne (Ne.symm h)]

/-- The log only grows. -/
theorem log_flush (s : Invalidator) (q : ℕ) : ∃ more, (s.flush outbox q).log = s.log ++ more :=
  ⟨_, rfl⟩

theorem delivered_flush {q : ℕ} {c : Call} (hpolicy : (getCachePolicy c.domain).isSome = true)
    (h : s.Holds q c) : Delivered outbox ((s.flush outbox q).log.drop s.log.length) c := by
  obtain ⟨item, hitem, entry, hentry, hcarries⟩ := h
  apply (delivered_apply hpolicy hcarries).mono
  intro e he
  rw [Invalidator.flush, List.drop_left]
  apply List.mem_flatMap.mpr
  exact ⟨entry, List.mem_filterMap.mpr ⟨item, hitem, hentry⟩, he⟩

theorem Invalidator.Holds.flush {q q' : ℕ} {c : Call} (h : s.Holds q' c) (hne : q' ≠ q) :
    (s.flush outbox q).Holds q' c := by
  obtain ⟨item, hitem, entry, hentry, hcarries⟩ := h
  refine ⟨item, ?_, entry, hentry, hcarries⟩
  rw [queue_flush, if_neg hne]
  exact hitem

/-- Hooks touch neither the connection nor the entries, and empty their queues. -/
theorem runHooks_frame (hooks : List ℕ) (s : Invalidator) :
    (s.runHooks outbox hooks).connection = s.connection ∧
      (s.runHooks outbox hooks).pending = s.pending ∧
      (s.runHooks outbox hooks).entries = s.entries ∧
      (s.runHooks outbox hooks).queues.length = s.queues.length ∧
      (∀ q, (s.runHooks outbox hooks).queue q = if q ∈ hooks then [] else s.queue q) ∧
      ∃ more, (s.runHooks outbox hooks).log = s.log ++ more := by
  induction hooks generalizing s with
  | nil => exact ⟨rfl, rfl, rfl, rfl, by simp [Invalidator.runHooks], [], by simp [Invalidator.runHooks]⟩
  | cons q hooks ih =>
      obtain ⟨hconn, hpending, hentries, hlength, hqueue, more, hlog⟩ := ih (s.flush outbox q)
      obtain ⟨more', hlog'⟩ := log_flush outbox s q
      refine ⟨hconn, hpending, hentries, hlength.trans (by simp [Invalidator.flush]), ?_, ?_⟩
      · intro q'
        have htail := hqueue q'
        rw [queue_flush] at htail
        show (Invalidator.runHooks outbox (s.flush outbox q) hooks).queue q' = _
        rw [htail]
        by_cases hmem : q' ∈ hooks <;> by_cases heq : q' = q <;> simp [hmem, heq]
      · rw [hlog'] at hlog
        exact ⟨more' ++ more, by rw [← List.append_assoc, ← hlog]; rfl⟩

/-- **Running the hooks delivers what their queues hold.** -/
theorem delivered_runHooks {c : Call} (hpolicy : (getCachePolicy c.domain).isSome = true)
    {q : ℕ} {hooks : List ℕ} (hq : q ∈ hooks) (h : s.Holds q c) :
    Delivered outbox ((s.runHooks outbox hooks).log.drop s.log.length) c := by
  induction hooks generalizing s with
  | nil => cases hq
  | cons q' hooks ih =>
      obtain ⟨more, hlog⟩ := log_flush outbox s q'
      obtain ⟨-, -, -, -, -, more', hlog'⟩ := runHooks_frame outbox hooks (s.flush outbox q')
      have hrun : s.runHooks outbox (q' :: hooks) = (s.flush outbox q').runHooks outbox hooks := rfl
      by_cases heq : q = q'
      · subst heq
        apply (delivered_flush outbox hpolicy h).mono
        intro e he
        rw [hrun, hlog', hlog, List.append_assoc, List.drop_left]
        rw [hlog, List.drop_left] at he
        exact List.mem_append_left _ he
      · have hrest := ih ((List.mem_cons.mp hq).resolve_left heq) (h.flush outbox heq)
        apply hrest.mono
        intro e he
        rw [hlog', List.drop_left] at he
        rw [hrun, hlog', hlog, List.append_assoc, List.drop_left]
        exact List.mem_append_right _ he

end

/-! ## What every step keeps -/

/-- The part that is about the queues alone.  While the list of hooks is the one
its queue was made under, a queue that is not empty has a hook in it. -/
structure Queued (s : Invalidator) : Prop where
  valid : s.connection.Valid
  current : ∀ epoch q, s.pending = some (epoch, q) → epoch ≤ s.connection.epoch ∧
    (epoch = s.connection.epoch → q < s.queues.length ∧
      (s.queue q ≠ [] → ∃ hook ∈ s.connection.runOnCommit, hook.2 = q))
  items : ∀ q, ∀ item ∈ s.queue q, ∃ entry, s.entries[item.2]? = some entry ∧ entry.domain = item.1

/-- Every open call is in the queue of a hook that covers it, every committed call
is delivered. -/
structure Kept (outbox : Bool) (s : InvalidationSys) : Prop where
  queued : Queued s.inv
  underway : ∀ x ∈ s.underway, (getCachePolicy x.1.domain).isSome = true ∧
    ∃ q, s.inv.connection.Covers x.2 q ∧ s.inv.Holds q x.1
  idle : s.inv.connection.inAtomicBlock = false → s.underway = []
  committed : ∀ x ∈ s.committed, x.2 ≤ s.inv.log.length ∧
    Delivered outbox (s.inv.log.drop x.2) x.1

/-- Committed calls stay delivered while the log grows. -/
theorem delivered_later {outbox : Bool} {log more : List CacheEffect} {n : ℕ} {c : Call}
    (hn : n ≤ log.length) (h : Delivered outbox (log.drop n) c) :
    n ≤ (log ++ more).length ∧ Delivered outbox ((log ++ more).drop n) c := by
  refine ⟨by rw [List.length_append]; omega, h.mono ?_⟩
  intro e he
  rw [List.drop_append_of_le_length hn]
  exact List.mem_append_left _ he

section

variable {outbox : Bool} {s : InvalidationSys}

/-- The list of hooks is replaced: no queue is the current one any more. -/
theorem Queued.replaced {t : Invalidator} (hs : Queued t) {c : Connection ℕ} (hc : c.Valid)
    (hepoch : t.connection.epoch < c.epoch) : Queued { t with connection := c } := by
  refine ⟨hc, ?_, hs.items⟩
  intro epoch q hpending
  have hle := (hs.current epoch q hpending).1
  refine ⟨by show epoch ≤ c.epoch; omega, ?_⟩
  intro heq
  have : epoch = c.epoch := heq
  omega

/-- The list of hooks stays. -/
theorem Queued.same_hooks {t : Invalidator} (hs : Queued t) {c : Connection ℕ} (hc : c.Valid)
    (hepoch : c.epoch = t.connection.epoch) (hhooks : c.runOnCommit = t.connection.runOnCommit) :
    Queued { t with connection := c } := by
  refine ⟨hc, ?_, hs.items⟩
  intro epoch q hpending
  show epoch ≤ c.epoch ∧ (epoch = c.epoch → _ ∧ (_ → ∃ hook ∈ c.runOnCommit, hook.2 = q))
  rw [hepoch, hhooks]
  exact hs.current epoch q hpending

theorem kept_enter (hs : Kept outbox s) : Kept outbox (s.step outbox .enter) := by
  have hvalid := hs.queued.valid
  refine ⟨?_, ?_, ?_, hs.committed⟩
  · apply hs.queued.same_hooks hvalid.enter
    · unfold Connection.enter
      split <;> rfl
    · unfold Connection.enter
      split <;> rfl
  · intro x hx
    obtain ⟨hpolicy, q, hcovers, hholds⟩ := hs.underway x hx
    exact ⟨hpolicy, q, hcovers.enter hvalid, hholds⟩
  · intro hout
    apply hs.idle
    have hin : s.inv.connection.enter.inAtomicBlock = true := by
      unfold Connection.enter
      split
      · next h => exact h
      · rfl
    rw [show s.inv.connection.enter.inAtomicBlock = false from hout] at hin
    cases hin

theorem kept_release (hs : Kept outbox s) : Kept outbox s.release := by
  refine ⟨hs.queued.same_hooks hs.queued.valid.release rfl rfl, ?_, hs.idle, hs.committed⟩
  intro x hx
  obtain ⟨hpolicy, q, hcovers, hholds⟩ := hs.underway x hx
  exact ⟨hpolicy, q, hcovers.release, hholds⟩

theorem kept_rollbackTo (hs : Kept outbox s) {sid : ℕ} {rest : List ℕ}
    (hsids : s.inv.connection.savepointIds = sid :: rest) : Kept outbox (s.rollbackTo sid) := by
  have hactive : sid ∈ s.inv.connection.savepointIds := by
    rw [hsids]
    exact List.mem_cons_self
  refine ⟨hs.queued.replaced (hs.queued.valid.rollbackTo sid) (Nat.lt_succ_self _), ?_, ?_,
    hs.committed⟩
  · intro x hx
    obtain ⟨hmem, hkept⟩ := List.mem_filter.mp hx
    have hout : sid ∉ x.2 := by simpa using hkept
    obtain ⟨hpolicy, q, hcovers, hholds⟩ := hs.underway x hmem
    exact ⟨hpolicy, q, hcovers.rollbackTo hactive hout, hholds⟩
  · intro hout
    show s.underway.filter _ = []
    rw [hs.idle hout, List.filter_nil]

theorem kept_rollback (hs : Kept outbox s) (hsids : s.inv.connection.savepointIds = []) :
    Kept outbox s.rollback :=
  ⟨hs.queued.replaced (hs.queued.valid.close hsids) (Nat.lt_succ_self _), by
    simp [InvalidationSys.rollback], fun _ => rfl, hs.committed⟩

theorem kept_commit (hs : Kept outbox s) (hsids : s.inv.connection.savepointIds = []) :
    Kept outbox (s.commit outbox) := by
  have hclosed : Queued { s.inv with connection := s.inv.connection.close } :=
    hs.queued.replaced (hs.queued.valid.close hsids) (Nat.lt_succ_self _)
  obtain ⟨hconn, hpending, hentries, hlength, hqueue, more, hlog⟩ := runHooks_frame outbox
    (s.inv.connection.runOnCommit.map Prod.snd) { s.inv with connection := s.inv.connection.close }
  refine ⟨⟨?_, ?_, ?_⟩, ?_, fun _ => rfl, ?_⟩
  · show Connection.Valid (Invalidator.runHooks outbox _ _).connection
    rw [hconn]
    exact hclosed.valid
  · -- the commit has replaced the hook list, so the pending queue is an old one
    intro epoch q hcurrent
    have hold : s.inv.pending = some (epoch, q) := hpending.symm.trans hcurrent
    have hle := (hs.queued.current epoch q hold).1
    have hepoch : ((s.commit outbox).inv.connection).epoch = s.inv.connection.epoch + 1 := by
      show (Invalidator.runHooks outbox _ _).connection.epoch = _
      rw [hconn]
      rfl
    rw [hepoch]
    exact ⟨by omega, fun heq => by omega⟩
  · intro q item hitem
    have hmem : item ∈ s.inv.queue q := by
      have := hqueue q
      rw [show (s.commit outbox).inv.queue q = _ from this] at hitem
      split at hitem
      · cases hitem
      · exact hitem
    obtain ⟨entry, hentry, hdomain⟩ := hs.queued.items q item hmem
    refine ⟨entry, ?_, hdomain⟩
    show (Invalidator.runHooks outbox _ _).entries[item.2]? = some entry
    rw [hentries]
    exact hentry
  · intro x hx
    cases hx
  · intro x hx
    rcases List.mem_append.mp hx with hold | hnew
    · obtain ⟨hle, hdelivered⟩ := hs.committed x hold
      show x.2 ≤ (Invalidator.runHooks outbox _ _).log.length ∧
        Delivered outbox ((Invalidator.runHooks outbox _ _).log.drop x.2) x.1
      rw [hlog]
      exact delivered_later hle hdelivered
    · -- a call of this transaction: its hook is among those that run now
      obtain ⟨y, hy, rfl⟩ := List.mem_map.mp hnew
      obtain ⟨hpolicy, q, hcovers, hholds⟩ := hs.underway y hy
      refine ⟨?_, ?_⟩
      · show s.inv.log.length ≤ (Invalidator.runHooks outbox _ _).log.length
        rw [hlog, List.length_append]
        exact Nat.le_add_right _ _
      · exact delivered_runHooks outbox (s := { s.inv with connection := s.inv.connection.close })
          hpolicy hcovers.mem hholds

end

/-! ## A call -/

section

variable {t : Invalidator}

/-- A new queue is empty, so no queue looks different. -/
theorem queue_append_nil (t : Invalidator) (pending : Option (ℕ × ℕ)) (q : ℕ) :
    Invalidator.queue { t with pending := pending, queues := t.queues ++ [[]] } q = t.queue q := by
  show ((t.queues ++ [[]])[q]?).getD [] = (t.queues[q]?).getD []
  rcases Nat.lt_trichotomy q t.queues.length with hlt | rfl | hgt
  · rw [List.getElem?_append_left hlt]
  · simp
  · rw [List.getElem?_eq_none (by simp; omega), List.getElem?_eq_none (by omega)]

/-- After `_pending_queue` the queue is the current one; nothing else moves. -/
theorem pendingQueue_spec (ht : Queued t) :
    t.pendingQueue.1.connection = t.connection ∧ t.pendingQueue.1.entries = t.entries ∧
      t.pendingQueue.1.log = t.log ∧
      t.pendingQueue.1.pending = some (t.connection.epoch, t.pendingQueue.2) ∧
      (∀ q, t.pendingQueue.1.queue q = t.queue q) ∧ Queued t.pendingQueue.1 := by
  have hfresh : Queued { t with
      pending := some (t.connection.epoch, t.queues.length), queues := t.queues ++ [[]] } := by
    refine ⟨ht.valid, ?_, ?_⟩
    · intro epoch q hpending
      obtain ⟨rfl, rfl⟩ : t.connection.epoch = epoch ∧ t.queues.length = q := by
        simpa using hpending
      refine ⟨Nat.le_refl _, fun _ => ⟨by simp, ?_⟩⟩
      intro hne
      rw [queue_append_nil] at hne
      exact absurd (by simp [Invalidator.queue]) hne
    · intro q item hitem
      rw [queue_append_nil] at hitem
      exact ht.items q item hitem
  have hnew : t.pendingQueue = ({ t with
      pending := some (t.connection.epoch, t.queues.length), queues := t.queues ++ [[]] },
      t.queues.length) ∨
      ∃ q, t.pendingQueue = (t, q) ∧ t.pending = some (t.connection.epoch, q) := by
    unfold Invalidator.pendingQueue
    cases hpending : t.pending with
    | none => exact Or.inl rfl
    | some current =>
        obtain ⟨epoch, q⟩ := current
        by_cases hepoch : epoch = t.connection.epoch
        · right
          subst hepoch
          exact ⟨q, if_pos rfl, rfl⟩
        · left
          exact if_neg hepoch
  rcases hnew with hnew | ⟨q, hsame, hpending⟩
  · rw [hnew]
    exact ⟨rfl, rfl, rfl, rfl, queue_append_nil t _, hfresh⟩
  · rw [hsame]
    exact ⟨rfl, rfl, rfl, hpending, fun _ => rfl, ht⟩

/-- Entries only gain tags and paths. -/
theorem Invalidator.Holds.update {q : ℕ} {c : Call} (h : t.Holds q c) (k : ℕ)
    (tags paths : List String) :
    Invalidator.Holds { t with entries := t.entries.modify k (·.update tags paths) } q c := by
  obtain ⟨item, hitem, entry, hentry, hdomain, htags, hpaths⟩ := h
  by_cases hk : k = item.2
  · subst hk
    refine ⟨item, hitem, entry.update tags paths, ?_, hdomain, ?_, ?_⟩
    · simp [hentry]
    · intro x hx
      simp [PendingInvalidation.update, htags x hx]
    · intro x hx
      simp [PendingInvalidation.update, hpaths x hx]
  · refine ⟨item, hitem, entry, ?_, hdomain, htags, hpaths⟩
    show (t.entries.modify k _)[item.2]? = some entry
    rw [List.getElem?_modify_ne _ _ hk, hentry]

theorem Queued.update (ht : Queued t) (k : ℕ) (tags paths : List String) :
    Queued { t with entries := t.entries.modify k (·.update tags paths) } := by
  refine ⟨ht.valid, ht.current, ?_⟩
  intro q item hitem
  obtain ⟨entry, hentry, hdomain⟩ := ht.items q item hitem
  by_cases hk : k = item.2
  · subst hk
    exact ⟨entry.update tags paths, by simp [hentry], hdomain⟩
  · refine ⟨entry, ?_, hdomain⟩
    show (t.entries.modify k _)[item.2]? = some entry
    rw [List.getElem?_modify_ne _ _ hk, hentry]

/-- The entry of a call holds what the call adds to it. -/
theorem holds_updated {q k : ℕ} {c : Call} {entry : PendingInvalidation}
    (hitem : (c.domain, k) ∈ t.queue q) (hentry : t.entries[k]? = some entry)
    (hdomain : entry.domain = c.domain) :
    Invalidator.Holds { t with entries := t.entries.modify k (·.update c.extraTags c.extraPaths) }
      q c := by
  refine ⟨_, hitem, entry.update c.extraTags c.extraPaths, by simp [hentry], hdomain, ?_, ?_⟩
  · intro x hx
    simp [PendingInvalidation.update, hx]
  · intro x hx
    simp [PendingInvalidation.update, hx]

theorem queue_insert {q : ℕ} (hq : q < t.queues.length) (entry : PendingInvalidation) (q' : ℕ) :
    (t.insert q entry).queue q' =
      if q' = q then t.queue q ++ [(entry.domain, t.entries.length)] else t.queue q' := by
  unfold Invalidator.insert Invalidator.queue
  by_cases h : q' = q
  · subst h
    simp [List.getElem?_eq_getElem hq]
  · rw [if_neg h, List.getElem?_modify_ne _ _ (Ne.symm h)]

theorem Invalidator.Holds.insert {q q' : ℕ} {c : Call} (h : t.Holds q' c)
    (hq : q < t.queues.length) (entry : PendingInvalidation) : (t.insert q entry).Holds q' c := by
  obtain ⟨item, hitem, old, hold, hcarries⟩ := h
  refine ⟨item, ?_, old, ?_, hcarries⟩
  · rw [queue_insert hq]
    split
    · next heq =>
        subst heq
        exact List.mem_append_left _ hitem
    · exact hitem
  · show (t.entries ++ [entry])[item.2]? = some old
    rw [List.getElem?_append_left (List.getElem?_eq_some_iff.mp hold).1, hold]

theorem items_insert (ht : Queued t) {q : ℕ} (hq : q < t.queues.length)
    (entry : PendingInvalidation) :
    ∀ q', ∀ item ∈ (t.insert q entry).queue q',
      ∃ e, (t.insert q entry).entries[item.2]? = some e ∧ e.domain = item.1 := by
  have hkeep : ∀ q', ∀ item ∈ t.queue q',
      ∃ e, (t.insert q entry).entries[item.2]? = some e ∧ e.domain = item.1 := by
    intro q' item hitem
    obtain ⟨old, hold, hdomain⟩ := ht.items q' item hitem
    refine ⟨old, ?_, hdomain⟩
    show (t.entries ++ [entry])[item.2]? = some old
    rw [List.getElem?_append_left (List.getElem?_eq_some_iff.mp hold).1, hold]
  intro q' item hitem
  rw [queue_insert hq] at hitem
  split at hitem
  · rcases List.mem_append.mp hitem with hold | hnew
    · exact hkeep _ _ hold
    · rw [List.mem_singleton.mp hnew]
      exact ⟨entry, by simp [Invalidator.insert], rfl⟩
  · exact hkeep _ _ hitem

end

/-- What a call leaves behind, in a transaction and in autocommit mode. -/
structure CallSpec (outbox : Bool) (t u : Invalidator) (c : Call) : Prop where
  queued : Queued u
  block : u.connection.inAtomicBlock = t.connection.inAtomicBlock
  covers : ∀ sids q, t.connection.Covers sids q → u.connection.Covers sids q
  holds : ∀ q c', t.connection.inAtomicBlock = true → t.Holds q c' → u.Holds q c'
  log : ∃ more, u.log = t.log ++ more
  open_call : t.connection.inAtomicBlock = true →
    ∃ q, u.connection.Covers t.connection.savepointIds q ∧ u.Holds q c
  auto_call : t.connection.inAtomicBlock = false →
    (∀ policy ∈ getCachePolicy c.domain, (∀ x ∈ c.extraTags, x ∈ policy.frontendTags) ∧
      ∀ p ∈ c.extraPaths, p ∈ policy.frontendPaths) →
    Delivered outbox (u.log.drop t.log.length) c

/-- The domain is in the queue already. -/
theorem callSpec_existing {outbox : Bool} {t : Invalidator} {q k : ℕ} {c : Call} (ht : Queued t)
    (hpending : t.pending = some (t.connection.epoch, q))
    (hlookup : (t.queue q).lookup c.domain = some k) :
    CallSpec outbox t { t with entries := t.entries.modify k (·.update c.extraTags c.extraPaths) }
      c := by
  obtain ⟨before, after, hqueue, -⟩ := List.lookup_eq_some_iff.mp hlookup
  have hitem : (c.domain, k) ∈ t.queue q := by
    rw [hqueue]
    simp
  obtain ⟨hook, hhook, hq⟩ := ((ht.current _ _ hpending).2 rfl).2 (by rw [hqueue]; simp)
  obtain ⟨entry, hentry, hdomain⟩ := ht.items q _ hitem
  refine ⟨ht.update k _ _, rfl, fun _ _ h => h, fun q' c' _ h => h.update k _ _, ⟨[], by simp⟩,
    ?_, ?_⟩
  · intro _
    exact ⟨q, Connection.covers_now hhook hq, holds_updated hitem hentry hdomain⟩
  · -- outside a transaction no hook waits
    intro hout
    rw [(ht.valid.idle hout).2] at hhook
    cases hhook

/-- The first call for its domain in a transaction: a hook is registered. -/
theorem callSpec_registered {outbox : Bool} {t : Invalidator} {q : ℕ} {c : Call}
    {policy : CachePolicy} (ht : Queued t)
    (hpending : t.pending = some (t.connection.epoch, q)) (hin : t.connection.inAtomicBlock = true) :
    CallSpec outbox t
      { t.insert q (policy.pending c.domain) with
        connection := (t.connection.onCommit q).1
        entries := (t.insert q (policy.pending c.domain)).entries.modify t.entries.length
          (·.update c.extraTags c.extraPaths) } c := by
  obtain ⟨hq, -⟩ := (ht.current _ _ hpending).2 rfl
  have hreg : (t.connection.onCommit q).1 =
      { t.connection with
        runOnCommit := t.connection.runOnCommit ++ [(t.connection.savepointIds, q)] } := by
    rw [Connection.onCommit, if_pos hin]
  have hqueued : Queued { t.insert q (policy.pending c.domain) with
      connection := (t.connection.onCommit q).1 } := by
    refine ⟨ht.valid.onCommit q, ?_, items_insert ht hq _⟩
    intro epoch q' hpending'
    obtain ⟨rfl, rfl⟩ : t.connection.epoch = epoch ∧ q = q' := by
      simpa using hpending.symm.trans hpending'
    rw [hreg]
    refine ⟨Nat.le_refl _, fun _ => ⟨?_, fun _ => ?_⟩⟩
    · show q < (t.queues.modify q _).length
      rw [List.length_modify]
      exact hq
    · exact ⟨_, List.mem_append_right _ List.mem_cons_self, rfl⟩
  have hitem : (c.domain, t.entries.length) ∈ (t.insert q (policy.pending c.domain)).queue q := by
    rw [queue_insert hq, if_pos rfl]
    exact List.mem_append_right _ List.mem_cons_self
  have hentry : (t.insert q (policy.pending c.domain)).entries[t.entries.length]? =
      some (policy.pending c.domain) := by
    simp [Invalidator.insert]
  refine ⟨hqueued.update _ _ _, ?_, fun _ _ h => h.onCommit q, ?_, ⟨[], ?_⟩, ?_, ?_⟩
  · show (t.connection.onCommit q).1.inAtomicBlock = t.connection.inAtomicBlock
    rw [hreg]
  · intro q' c' _ h
    exact (h.insert hq _).update _ _ _
  · simp [Invalidator.insert]
  · intro _
    exact ⟨q, Connection.covers_onCommit hin q, holds_updated hitem hentry rfl⟩
  · intro hout
    rw [hin] at hout
    cases hout

/-- In autocommit mode the hook runs before the entry gets the tags and paths of
the call. -/
theorem callSpec_flushed {outbox : Bool} {t : Invalidator} {q : ℕ} {c : Call}
    {policy : CachePolicy} (ht : Queued t)
    (hpending : t.pending = some (t.connection.epoch, q))
    (hpolicy : getCachePolicy c.domain = some policy)
    (hout : t.connection.inAtomicBlock = false) :
    CallSpec outbox t
      { (t.insert q (policy.pending c.domain)).flush outbox q with
        entries := (t.insert q (policy.pending c.domain)).entries.modify t.entries.length
          (·.update c.extraTags c.extraPaths) } c := by
  obtain ⟨hq, -⟩ := (ht.current _ _ hpending).2 rfl
  have hqueued : Queued ((t.insert q (policy.pending c.domain)).flush outbox q) := by
    refine ⟨ht.valid, ?_, ?_⟩
    · intro epoch q' hpending'
      obtain ⟨rfl, rfl⟩ : t.connection.epoch = epoch ∧ q = q' := by
        simpa using hpending.symm.trans hpending'
      refine ⟨Nat.le_refl _, fun _ => ⟨?_, ?_⟩⟩
      · show q < ((t.queues.modify q _).set q _).length
        rw [List.length_set, List.length_modify]
        exact hq
      · intro hne
        rw [queue_flush, if_pos rfl] at hne
        exact absurd rfl hne
    · intro q' item hitem
      rw [queue_flush] at hitem
      split at hitem
      · cases hitem
      · exact items_insert ht hq _ q' item hitem
  refine ⟨hqueued.update _ _ _, rfl, fun _ _ h => h, ?_, log_flush outbox _ q, ?_, ?_⟩
  · intro q' c' hin
    rw [hout] at hin
    cases hin
  · intro hin
    rw [hout] at hin
    cases hin
  · -- what the call asks for is in the policy, so the flushed entry held it already
    intro _ hextras
    obtain ⟨htags, hpaths⟩ := hextras policy hpolicy
    have hholds : (t.insert q (policy.pending c.domain)).Holds q c := by
      refine ⟨(c.domain, t.entries.length), ?_, policy.pending c.domain,
        by simp [Invalidator.insert], rfl, ?_, ?_⟩
      · rw [queue_insert hq, if_pos rfl]
        exact List.mem_append_right _ List.mem_cons_self
      · intro x hx
        exact List.mem_dedup.mpr (htags x hx)
      · intro x hx
        exact List.mem_dedup.mpr (hpaths x hx)
    exact delivered_flush outbox (by rw [hpolicy]; rfl) hholds

/-- **Spec of a call.** -/
theorem callSpec_invalidate (outbox : Bool) {t : Invalidator} (ht : Queued t) {c : Call}
    {policy : CachePolicy} (hpolicy : getCachePolicy c.domain = some policy) :
    CallSpec outbox t.pendingQueue.1
      (t.invalidatePublicDomain outbox c.domain c.extraTags c.extraPaths) c := by
  obtain ⟨hconn, -, -, hpending, -, hqueued⟩ := pendingQueue_spec ht
  rw [← hconn] at hpending
  unfold Invalidator.invalidatePublicDomain
  rw [hpolicy]
  cases hlookup : (t.pendingQueue.1.queue t.pendingQueue.2).lookup c.domain with
  | some k =>
      simp only [hlookup]
      exact callSpec_existing hqueued hpending hlookup
  | none =>
      simp only [hlookup]
      cases hblock : t.pendingQueue.1.connection.inAtomicBlock with
      | true =>
          have hnone : (t.pendingQueue.1.connection.onCommit t.pendingQueue.2).2 = [] := by
            rw [Connection.onCommit, if_pos hblock]
          rw [hnone]
          exact callSpec_registered hqueued hpending hblock
      | false =>
          have hnow : t.pendingQueue.1.connection.onCommit t.pendingQueue.2 =
              (t.pendingQueue.1.connection, [t.pendingQueue.2]) := by
            rw [Connection.onCommit, hblock]
            rfl
          rw [hnow]
          exact callSpec_flushed hqueued hpending hpolicy hblock

theorem kept_invalidate {outbox : Bool} {s : InvalidationSys} (hs : Kept outbox s) {c : Call}
    (hok : ExtrasInTransaction s (.call c)) : Kept outbox (s.invalidate outbox c) := by
  unfold InvalidationSys.invalidate
  cases hpolicy : getCachePolicy c.domain with
  | none => exact hs
  | some policy =>
      obtain ⟨hconn, hentries, hlog, -, hqueue, -⟩ := pendingQueue_spec hs.queued
      have hspec := callSpec_invalidate outbox hs.queued hpolicy
      have hholds : ∀ q c', s.inv.Holds q c' → s.inv.pendingQueue.1.Holds q c' := by
        rintro q c' ⟨item, hitem, entry, hentry, hcarries⟩
        exact ⟨item, by rw [hqueue]; exact hitem, entry, by rw [hentries]; exact hentry, hcarries⟩
      obtain ⟨more, hmore⟩ := hspec.log
      have hcommitted : ∀ x ∈ s.committed,
          x.2 ≤ (s.inv.invalidatePublicDomain outbox c.domain c.extraTags c.extraPaths).log.length ∧
          Delivered outbox ((s.inv.invalidatePublicDomain outbox c.domain c.extraTags
            c.extraPaths).log.drop x.2) x.1 := by
        intro x hx
        obtain ⟨hle, hdelivered⟩ := hs.committed x hx
        rw [hmore, hlog]
        exact delivered_later hle hdelivered
      simp only
      by_cases hin : s.inv.connection.inAtomicBlock = true
      · rw [if_pos hin]
        have hin' : s.inv.pendingQueue.1.connection.inAtomicBlock = true := by rw [hconn, hin]
        refine ⟨hspec.queued, ?_, ?_, hcommitted⟩
        · intro x hx
          rcases List.mem_append.mp hx with hold | hnew
          · obtain ⟨hsome, q, hcovers, hhold⟩ := hs.underway x hold
            rw [← hconn] at hcovers
            exact ⟨hsome, q, hspec.covers _ _ hcovers, hspec.holds q x.1 hin' (hholds q x.1 hhold)⟩
          · rw [List.mem_singleton.mp hnew]
            obtain ⟨q, hcovers, hhold⟩ := hspec.open_call hin'
            rw [hconn] at hcovers
            exact ⟨by rw [hpolicy]; rfl, q, hcovers, hhold⟩
        · intro hout
          have hblock := hspec.block.trans hin'
          exact absurd (hblock.symm.trans hout) (by decide)
      · rw [if_neg hin]
        have hout : s.inv.connection.inAtomicBlock = false := by simpa using hin
        refine ⟨hspec.queued, ?_, fun _ => hs.idle hout, ?_⟩
        · intro x hx
          rw [hs.idle hout] at hx
          cases hx
        · intro x hx
          rcases List.mem_append.mp hx with hold | hnew
          · exact hcommitted x hold
          · rw [List.mem_singleton.mp hnew]
            refine ⟨by rw [hmore, hlog, List.length_append]; exact Nat.le_add_right _ _, ?_⟩
            have hdelivered := hspec.auto_call (by rw [hconn, hout]) (hok.resolve_left hin)
            rw [hlog] at hdelivered
            exact hdelivered

/-! ## Every run -/

/-- **Step lemma.** -/
theorem kept_step {outbox : Bool} {s : InvalidationSys} (hs : Kept outbox s) {a : InvalidationAct}
    (hok : ExtrasInTransaction s a) : Kept outbox (s.step outbox a) := by
  cases a with
  | enter => exact kept_enter hs
  | exit ok =>
      unfold InvalidationSys.step
      cases hsids : s.inv.connection.savepointIds with
      | cons sid rest =>
          cases ok with
          | true => exact kept_release hs
          | false => exact kept_rollbackTo hs hsids
      | nil =>
          cases s.inv.connection.inAtomicBlock with
          | false => exact hs
          | true =>
              cases ok with
              | true => exact kept_commit hs hsids
              | false => exact kept_rollback hs hsids
  | call c => exact kept_invalidate hs hok

theorem kept_start (outbox : Bool) : Kept outbox InvalidationSys.start := by
  refine ⟨⟨Connection.valid_idle, ?_, ?_⟩, ?_, fun _ => rfl, ?_⟩
  · intro epoch q hpending
    cases hpending
  · intro q item hitem
    simp [InvalidationSys.start, Invalidator.queue] at hitem
  · intro x hx
    cases hx
  · intro x hx
    cases hx

/-- **No invalidation is lost** in a run in which the calls in autocommit mode ask
for nothing beyond their policy. -/
theorem no_lost_invalidation (outbox : Bool) (acts : List InvalidationAct)
    (hok : Along (InvalidationSys.step outbox) ExtrasInTransaction InvalidationSys.start acts) :
    ∀ pre, pre <+: acts →
      NoLostInvalidation outbox (run (InvalidationSys.step outbox) InvalidationSys.start pre) := by
  intro pre hpre x hx
  have hkept : Kept outbox (run (InvalidationSys.step outbox) InvalidationSys.start pre) :=
    invariant_along (I := Kept outbox) (fun s a hs hstep => kept_step hs hstep)
      (kept_start outbox) (along_earlier hok hpre)
  exact (hkept.committed x hx).2

/-- Two calls for one domain, one of them in a savepoint that is rolled back, and
a third one after it. -/
def nestedCalls : List InvalidationAct :=
  [.enter, .call ⟨"lms", ["course:1"], []⟩, .enter, .call ⟨"lms", ["course:2"], []⟩,
    .exit false, .call ⟨"lms", ["course:3"], ["/courses/3"]⟩, .exit true]

theorem no_lost_invalidation_nested :
    NoLostInvalidation true
      (run (InvalidationSys.step true) InvalidationSys.start nestedCalls) :=
  no_lost_invalidation true nestedCalls
    ⟨trivial, Or.inl rfl, trivial, Or.inl rfl, trivial, Or.inl rfl, trivial, trivial⟩
    nestedCalls (List.prefix_refl _)

/-- In autocommit mode the tag of the call is announced nowhere. -/
theorem autocommit_extra_lost :
    ¬ NoLostInvalidation true (run (InvalidationSys.step true) InvalidationSys.start
      [.call ⟨"lms", ["course:1"], []⟩]) := by
  intro h
  obtain ⟨-, tags, paths, hannounce, htags, -⟩ :=
    h (⟨"lms", ["course:1"], []⟩, 0) List.mem_cons_self
  have hlog : (run (InvalidationSys.step true) InvalidationSys.start
      [.call ⟨"lms", ["course:1"], []⟩]).inv.log =
      [.bump "lms:public_list", .bump "lms:public_detail", .bump "lms:categories",
        .announce true "lms" ["courses", "homepage", "lms", "lms-categories", "lms:categories"]
          ["/"]] := by
    decide
  rw [hlog] at hannounce
  have htag := htags "course:1" List.mem_cons_self
  simp at hannounce
  simp [hannounce] at htag

end SetadJang.Core
