import Mathlib.Logic.Function.Basic
import SetadJang.Framework.PyText
import SetadJang.Framework.Runs

/-!
# Versions of a cache namespace

A namespace is invalidated by counting its version up; cached values are keyed by
the version.  A reader or a deletion that finds no version seeds one from the
clock, in milliseconds.  Looking up, reading the clock and writing are separate
steps of separate clients, and the write replaces whatever is stored by then.
-/

namespace SetadJang.Core

open SetadJang.Framework

/-! ## Keys -/

def cacheKeyPrefix : String := "setadjang"

/-- `make_cache_key`; a key of more than 200 characters is hashed. -/
def makeCacheKey (digest : String → String) (ns : String) (parts : List String) : String :=
  let rawKey := ":".intercalate (cacheKeyPrefix :: ns :: parts)
  if 200 < rawKey.length then cacheKeyPrefix ++ ":" ++ ns ++ ":hashed:" ++ digest rawKey
  else rawKey

/-- The key of a payload: its first part is the version. -/
def payloadKey (digest : String → String) (ns : String) (version : ℕ) (parts : List String) :
    String :=
  makeCacheKey digest ns (toString version :: parts)

/-! ## Clients -/

/-- A call of `get_namespace_version` or `cache_delete_namespace`.  For the
statements, a read remembers the versions that were observed before the last
deletion that was completed when the read started. -/
inductive Client where
  | reading (old : List ℕ)
  | readSeeding (old : List ℕ)
  | readStoring (old : List ℕ) (seed : ℕ)
  | deleting
  | deleteSeeding
  | deleteStoring (seed : ℕ)
  | done
deriving DecidableEq, Repr

/-- The version key, the clock and the clients; then, for the statements, all
versions returned to readers, those of them that were returned before the last
completed deletion, and every read with its result. -/
structure VersionSys where
  stored : Option ℕ
  clock : ℕ
  clients : List Client
  observed : List ℕ
  outdated : List ℕ
  reads : List (ℕ × List ℕ)
deriving DecidableEq, Repr

inductive VersionAct where
  | tick (ms : ℕ)
  | evict
  | startRead
  | startDelete
  | advance (i : ℕ)
deriving DecidableEq, Repr

namespace VersionSys

def start (clock : ℕ) : VersionSys := ⟨none, clock, [], [], [], []⟩

def write (s : VersionSys) (version : ℕ) : VersionSys := { s with stored := some version }

def setClient (s : VersionSys) (i : ℕ) (client : Client) : VersionSys :=
  { s with clients := s.clients.set i client }

/-- A read returns. -/
def observe (s : VersionSys) (version : ℕ) (old : List ℕ) : VersionSys :=
  { s with observed := s.observed ++ [version], reads := s.reads ++ [(version, old)] }

/-- A deletion returns. -/
def complete (s : VersionSys) : VersionSys := { s with outdated := s.observed }

/-- The next step of client `i`. -/
def advance (s : VersionSys) (i : ℕ) : VersionSys :=
  match s.clients[i]? with
  | some (.reading old) =>
      match s.stored with
      | some version => (s.observe version old).setClient i .done
      | none => s.setClient i (.readSeeding old)
  | some (.readSeeding old) => s.setClient i (.readStoring old s.clock)
  | some (.readStoring old seed) => ((s.write seed).observe seed old).setClient i .done
  | some .deleting =>
      match s.stored with
      | some version => (s.write (version + 1)).complete.setClient i .done
      | none => s.setClient i .deleteSeeding
  | some .deleteSeeding => s.setClient i (.deleteStoring s.clock)
  | some (.deleteStoring seed) => (s.write seed).complete.setClient i .done
  | some .done => s
  | none => s

def step (s : VersionSys) : VersionAct → VersionSys
  | .tick ms => { s with clock := s.clock + ms }
  | .evict => { s with stored := none }
  | .startRead => { s with clients := s.clients ++ [.reading s.outdated] }
  | .startDelete => { s with clients := s.clients ++ [.deleting] }
  | .advance i => s.advance i

end VersionSys

/-- **Versions never go back**: a read that starts after a completed deletion gets
a version that was not observed before it, and so a key that was not built before. -/
def NeverBack (digest : String → String) (ns : String) (s : VersionSys) : Prop :=
  ∀ read ∈ s.reads, ∀ old ∈ read.2, read.1 ≠ old ∧
    (Function.Injective digest → ∀ parts parts',
      payloadKey digest ns read.1 parts ≠ payloadKey digest ns old parts')

/-- The client is not about to write a seed that falls behind.  A deletion must
pass every version observed so far; a read must not be below any of them and must
pass those that a deletion has outdated. -/
def Client.SeedAhead (s : VersionSys) : Client → Prop
  | .readStoring _ seed => (∀ v ∈ s.observed, v ≤ seed) ∧ ∀ v ∈ s.outdated, v < seed
  | .deleteStoring seed => ∀ v ∈ s.observed, v < seed
  | _ => True

instance (s : VersionSys) : ∀ client, Decidable (Client.SeedAhead s client)
  | .readStoring _ seed => inferInstanceAs
      (Decidable ((∀ v ∈ s.observed, v ≤ seed) ∧ ∀ v ∈ s.outdated, v < seed))
  | .deleteStoring seed => inferInstanceAs (Decidable (∀ v ∈ s.observed, v < seed))
  | .reading _ | .readSeeding _ | .deleting | .deleteSeeding | .done => isTrue trivial

/-- No seed that is written falls behind. -/
def SeedsAhead (s : VersionSys) : VersionAct → Prop
  | .advance i => ∀ client ∈ s.clients[i]?, client.SeedAhead s
  | _ => True

instance (s : VersionSys) : ∀ a, Decidable (SeedsAhead s a)
  | .advance i => inferInstanceAs (Decidable (∀ client ∈ s.clients[i]?, client.SeedAhead s))
  | .tick _ | .evict | .startRead | .startDelete => isTrue trivial

/-! ## Keys of different versions differ -/

/-- What follows the namespace in a raw key. -/
theorem rawKey_toList (ns : String) (v : ℕ) (parts : List String) :
    (":".intercalate (cacheKeyPrefix :: ns :: toString v :: parts)).toList =
      (cacheKeyPrefix ++ ":" ++ ns ++ ":").toList ++
        (":".intercalate (toString v :: parts)).toList := by
  rw [String.intercalate_cons_cons, String.intercalate_cons_cons]
  simp only [String.toList_append, List.append_assoc]

/-- The raw key spells out the version. -/
theorem rawKey_inj {ns : String} {v w : ℕ} {parts parts' : List String}
    (h : ":".intercalate (cacheKeyPrefix :: ns :: toString v :: parts) =
      ":".intercalate (cacheKeyPrefix :: ns :: toString w :: parts')) : v = w := by
  have htexts := congrArg String.toList h
  rw [rawKey_toList, rawKey_toList, List.append_right_inj] at htexts
  have hversion := (join_cons_inj (colon_not_mem_str v) (colon_not_mem_str w)
    (String.toList_injective htexts)).1
  exact str_inj (congrArg String.toList hversion)

/-- A hashed key is no raw key: a version starts with a digit. -/
theorem hashed_ne_raw (ns digest : String) (v : ℕ) (parts : List String) :
    cacheKeyPrefix ++ ":" ++ ns ++ ":hashed:" ++ digest ≠
      ":".intercalate (cacheKeyPrefix :: ns :: toString v :: parts) := by
  intro h
  have htexts := congrArg String.toList h
  rw [rawKey_toList] at htexts
  simp only [String.toList_append, List.append_assoc, List.append_right_inj] at htexts
  have hdigits : (toString v).toList = Nat.toDigits 10 v := by
    rw [Nat.toString_eq_repr, Nat.toList_repr]
  obtain ⟨c, cs, hcons⟩ := List.exists_cons_of_ne_nil
    (List.ne_nil_of_length_pos (Nat.length_toDigits_pos (b := 10) (n := v)))
  have hdigit : c.isDigit = true :=
    Nat.isDigit_of_mem_toDigits (by decide) (Nat.le_refl 10) (hcons ▸ List.mem_cons_self)
  obtain ⟨rest, hrest⟩ := join_head ":" (toString v) parts
  rw [hrest, hdigits, hcons] at htexts
  have hc : 'h' = c := by
    have := congrArg (fun l => l[1]?) htexts
    simpa using this
  rw [← hc] at hdigit
  cases hdigit

/-- Hashed or not, a key tells its raw text. -/
theorem payloadKey_raw {digest : String → String} (hinj : Function.Injective digest) {ns : String}
    {v w : ℕ} {parts parts' : List String}
    (h : payloadKey digest ns v parts = payloadKey digest ns w parts') :
    ":".intercalate (cacheKeyPrefix :: ns :: toString v :: parts) =
      ":".intercalate (cacheKeyPrefix :: ns :: toString w :: parts') := by
  simp only [payloadKey, makeCacheKey] at h
  split at h
  · split at h
    · have htexts := congrArg String.toList h
      simp only [String.toList_append, List.append_right_inj] at htexts
      exact hinj (String.toList_injective htexts)
    · exact absurd h (hashed_ne_raw _ _ _ _)
  · split at h
    · exact absurd h.symm (hashed_ne_raw _ _ _ _)
    · exact h

theorem payloadKey_ne {digest : String → String} (hinj : Function.Injective digest) {ns : String}
    {v w : ℕ} (hne : v ≠ w) (parts parts' : List String) :
    payloadKey digest ns v parts ≠ payloadKey digest ns w parts' :=
  fun h => hne (rawKey_inj (payloadKey_raw hinj h))

/-- Under one version two keys are equal exactly if the texts of their parts are. -/
theorem payloadKey_eq_iff {digest : String → String} (hinj : Function.Injective digest)
    {ns : String} {v : ℕ} {parts parts' : List String} (hparts : parts ≠ [])
    (hparts' : parts' ≠ []) :
    payloadKey digest ns v parts = payloadKey digest ns v parts' ↔
      ":".intercalate parts = ":".intercalate parts' := by
  have hfront : [cacheKeyPrefix, ns, toString v] ≠ [] := List.cons_ne_nil _ _
  have hraw : ∀ {rest : List String}, rest ≠ [] →
      ":".intercalate (cacheKeyPrefix :: ns :: toString v :: rest) =
        ":".intercalate [cacheKeyPrefix, ns, toString v] ++ ":" ++ ":".intercalate rest :=
    fun hrest => String.intercalate_append_of_ne_nil hfront hrest
  constructor
  · intro h
    have htexts := congrArg String.toList (payloadKey_raw hinj h)
    rw [hraw hparts, hraw hparts'] at htexts
    simp only [String.toList_append, List.append_right_inj] at htexts
    exact String.toList_injective htexts
  · intro h
    rw [payloadKey, payloadKey, makeCacheKey, makeCacheKey, hraw hparts, hraw hparts', h]

/-! ## What every step keeps -/

def Client.old : Client → List ℕ
  | .reading old => old
  | .readSeeding old => old
  | .readStoring old _ => old
  | _ => []

/-- The stored version is not below any that was observed and above the outdated
ones, and so is what every read returned. -/
structure Ahead (s : VersionSys) : Prop where
  stored : ∀ v ∈ s.stored, (∀ x ∈ s.observed, x ≤ v) ∧ ∀ x ∈ s.outdated, x < v
  outdated : s.outdated ⊆ s.observed
  clients : ∀ client ∈ s.clients, client.old ⊆ s.outdated
  reads : ∀ read ∈ s.reads, ∀ x ∈ read.2, x < read.1

theorem ahead_start (clock : ℕ) : Ahead (VersionSys.start clock) := by
  constructor <;> simp [VersionSys.start]

section

variable {s : VersionSys} (hs : Ahead s)

include hs

theorem Ahead.setClient (i : ℕ) {client : Client} (hold : client.old ⊆ s.outdated) :
    Ahead (s.setClient i client) := by
  refine ⟨hs.stored, hs.outdated, ?_, hs.reads⟩
  intro c hc
  rcases List.mem_or_eq_of_mem_set hc with hmem | rfl
  · exact hs.clients c hmem
  · exact hold

theorem Ahead.addClient {client : Client} (hold : client.old ⊆ s.outdated) :
    Ahead { s with clients := s.clients ++ [client] } := by
  refine ⟨hs.stored, hs.outdated, ?_, hs.reads⟩
  intro c hc
  rcases List.mem_append.mp hc with hc | hc
  · exact hs.clients c hc
  · rw [List.mem_singleton.mp hc]
    exact hold

theorem Ahead.observe {v : ℕ} {old : List ℕ} (hv : ∀ w ∈ s.stored, v ≤ w)
    (hold : ∀ x ∈ old, x < v) : Ahead (s.observe v old) := by
  refine ⟨?_, ?_, hs.clients, ?_⟩
  · intro w hw
    refine ⟨?_, (hs.stored w hw).2⟩
    intro x hx
    rcases List.mem_append.mp hx with hx | hx
    · exact (hs.stored w hw).1 x hx
    · rw [List.mem_singleton.mp hx]
      exact hv w hw
  · exact fun x hx => List.mem_append_left _ (hs.outdated hx)
  · intro read hread
    rcases List.mem_append.mp hread with hread | hread
    · exact hs.reads read hread
    · rw [List.mem_singleton.mp hread]
      exact hold

theorem Ahead.write {v : ℕ} (hobserved : ∀ x ∈ s.observed, x ≤ v)
    (houtdated : ∀ x ∈ s.outdated, x < v) : Ahead (s.write v) := by
  refine ⟨?_, hs.outdated, hs.clients, hs.reads⟩
  rintro w ⟨⟩
  exact ⟨hobserved, houtdated⟩

/-- A deletion passes every version observed so far. -/
theorem Ahead.delete {v : ℕ} (hnew : ∀ x ∈ s.observed, x < v) (i : ℕ) :
    Ahead ((s.write v).complete.setClient i .done) := by
  have hcomplete : Ahead (s.write v).complete := by
    refine ⟨?_, List.Subset.refl _, ?_, hs.reads⟩
    · rintro w ⟨⟩
      exact ⟨fun x hx => Nat.le_of_lt (hnew x hx), hnew⟩
    · exact fun client hc x hx => hs.outdated (hs.clients client hc hx)
  exact hcomplete.setClient i (by simp [Client.old])

/-- **Step lemma.** -/
theorem ahead_step {a : VersionAct} (hok : SeedsAhead s a) : Ahead (s.step a) := by
  cases a with
  | tick ms => exact ⟨hs.stored, hs.outdated, hs.clients, hs.reads⟩
  | evict => exact ⟨by simp [VersionSys.step], hs.outdated, hs.clients, hs.reads⟩
  | startRead => exact hs.addClient (List.Subset.refl _)
  | startDelete => exact hs.addClient (by simp [Client.old])
  | advance i =>
      show Ahead (s.advance i)
      unfold VersionSys.advance
      cases hclient : s.clients[i]? with
      | none => exact hs
      | some client =>
          have hold := hs.clients client (List.mem_of_getElem? hclient)
          have hseed : client.SeedAhead s := hok client hclient
          cases client with
          | done => exact hs
          | reading old =>
              cases hstored : s.stored with
              | none => exact hs.setClient i hold
              | some v =>
                  refine (hs.observe ?_ ?_).setClient i (by simp [Client.old])
                  · rintro w hw
                    rw [hstored] at hw
                    cases hw
                    exact Nat.le_refl _
                  · exact fun x hx => (hs.stored v hstored).2 x (hold hx)
          | readSeeding old => exact hs.setClient i hold
          | readStoring old seed =>
              -- whatever is stored by now is overwritten; the seed must not be behind it
              refine ((hs.write hseed.1 hseed.2).observe ?_ ?_).setClient i (by simp [Client.old])
              · rintro w ⟨⟩
                exact Nat.le_refl _
              · exact fun x hx => hseed.2 x (hold hx)
          | deleting =>
              cases hstored : s.stored with
              | none => exact hs.setClient i (by simp [Client.old])
              | some v =>
                  -- counting up passes whatever the stored version had not passed
                  apply hs.delete
                  exact fun x hx => Nat.lt_succ_of_le ((hs.stored v hstored).1 x hx)
          | deleteSeeding => exact hs.setClient i (by simp [Client.old])
          | deleteStoring seed => exact hs.delete hseed i

end

/-- **Versions never go back** in a run in which no seed falls behind. -/
theorem versions_never_back (digest : String → String) (ns : String) (clock : ℕ)
    (acts : List VersionAct)
    (hok : Along VersionSys.step SeedsAhead (VersionSys.start clock) acts) :
    ∀ pre, pre <+: acts →
      NeverBack digest ns (run VersionSys.step (VersionSys.start clock) pre) := by
  intro pre hpre read hread old hold
  have hahead : Ahead (run VersionSys.step (VersionSys.start clock) pre) :=
    invariant_along (I := Ahead) (fun s a hs hstep => ahead_step hs hstep)
      (ahead_start clock) (along_earlier hok hpre)
  have hlt := hahead.reads read hread old hold
  exact ⟨Nat.ne_of_gt hlt, fun hinj parts parts' => payloadKey_ne hinj (Nat.ne_of_gt hlt) parts parts'⟩

/-- A read seeds the namespace, a deletion counts it up, the key is evicted and a
later read seeds it again. -/
def evictedRun : List VersionAct :=
  [.startRead, .advance 0, .advance 0, .advance 0, .startDelete, .advance 1, .evict, .tick 5,
    .startRead, .advance 2, .advance 2, .advance 2]

theorem versions_never_back_evicted :
    NeverBack id "lms:public_list" (run VersionSys.step (VersionSys.start 1000) evictedRun) :=
  versions_never_back id "lms:public_list" 1000 evictedRun (by decide) evictedRun
    (List.prefix_refl _)

/-- Two readers read the clock in one millisecond.  The second one writes its seed
after the version was counted up, and the version is back. -/
theorem late_seed_back :
    ¬ NeverBack id "lms:public_list" (run VersionSys.step (VersionSys.start 1000)
      [.startRead, .startRead, .advance 0, .advance 1, .advance 0, .advance 1, .advance 0,
        .startDelete, .advance 2, .advance 1, .startRead, .advance 3]) := by
  intro h
  have hne := (h (1000, [1000]) (by decide) 1000 (by decide)).1
  exact hne rfl

/-! ## A seed that falls behind -/

/-- Nothing is outdated that was not observed, whatever the seeds. -/
theorem outdated_observed (clock : ℕ) (acts : List VersionAct) :
    (run VersionSys.step (VersionSys.start clock) acts).outdated ⊆
      (run VersionSys.step (VersionSys.start clock) acts).observed := by
  refine invariant_run (I := fun s : VersionSys => s.outdated ⊆ s.observed) ?_
    (List.Subset.refl _) acts
  intro s a hs
  cases a with
  | tick _ | evict | startRead | startDelete => exact hs
  | advance i =>
      show (s.advance i).outdated ⊆ (s.advance i).observed
      unfold VersionSys.advance
      split
      · split
        · exact List.subset_append_of_subset_left _ hs
        · exact hs
      · exact hs
      · exact List.subset_append_of_subset_left _ hs
      · split
        · exact List.Subset.refl _
        · exact hs
      · exact hs
      · exact List.Subset.refl _
      · exact hs
      · exact hs

/-- Deletions count the stored version up and outdate what was observed. -/
theorem count_up (k : ℕ) {s : VersionSys} {v x : ℕ} (hstored : s.stored = some v)
    (hx : x ∈ s.observed) (hold : x ∈ s.outdated ∨ 0 < k) :
    ∃ acts, (run VersionSys.step s acts).stored = some (v + k) ∧
      x ∈ (run VersionSys.step s acts).outdated := by
  induction k generalizing s v with
  | zero => exact ⟨[], hstored, hold.resolve_right (Nat.lt_irrefl 0)⟩
  | succ k ih =>
      let t := run VersionSys.step s [.startDelete, .advance s.clients.length]
      have ht : t = ((({ s with clients := s.clients ++ [.deleting] } : VersionSys).write
          (v + 1)).complete.setClient s.clients.length .done) := by
        simp [t, run_cons, VersionSys.step, VersionSys.advance, hstored]
      obtain ⟨acts, hend, hout⟩ := ih (s := t) (v := v + 1) (by rw [ht]; rfl) (by rw [ht]; exact hx)
        (Or.inl (by rw [ht]; exact hx))
      refine ⟨[.startDelete, .advance s.clients.length] ++ acts, ?_, ?_⟩
      · rw [run_append, hend]
        congr 1
        omega
      · rw [run_append]
        exact hout

/-- The next read gets an outdated version. -/
theorem read_back (digest : String → String) (ns : String) {s : VersionSys} {x : ℕ}
    (hstored : s.stored = some x) (hx : x ∈ s.outdated) :
    ¬ NeverBack digest ns
      (run VersionSys.step s [.startRead, .advance s.clients.length]) := by
  intro h
  have hreads : (run VersionSys.step s [.startRead, .advance s.clients.length]).reads =
      s.reads ++ [(x, s.outdated)] := by
    simp [run_cons, VersionSys.step, VersionSys.advance, hstored, VersionSys.observe,
      VersionSys.setClient]
  have hne := (h (x, s.outdated) (by rw [hreads]; simp) x hx).1
  exact hne rfl

/-- A seed that falls behind is stored, and some observed version is not below it:
one that is outdated, or one that further deletions will come to. -/
theorem stored_behind {s : VersionSys} (hsub : s.outdated ⊆ s.observed) {a : VersionAct}
    (hbehind : ¬ SeedsAhead s a) :
    ∃ seed x, (s.step a).stored = some seed ∧ x ∈ (s.step a).observed ∧ seed ≤ x ∧
      (x ∈ (s.step a).outdated ∨ 0 < x - seed) := by
  cases a with
  | tick _ | evict | startRead | startDelete => exact absurd trivial hbehind
  | advance i =>
      simp only [SeedsAhead, not_forall, Option.mem_def] at hbehind
      obtain ⟨client, hclient, hseed⟩ := hbehind
      cases client with
      | reading _ | readSeeding _ | deleting | deleteSeeding | done => exact absurd trivial hseed
      | readStoring old seed =>
          have hstep : s.step (.advance i) =
              ((s.write seed).observe seed old).setClient i .done := by
            simp only [VersionSys.step, VersionSys.advance, hclient]
          rw [hstep]
          simp only [Client.SeedAhead, not_and_or, not_forall, Nat.not_le, Nat.not_lt] at hseed
          rcases hseed with ⟨x, hx, hlt⟩ | ⟨x, hx, hle⟩
          · exact ⟨seed, x, rfl, List.mem_append_left _ hx, Nat.le_of_lt hlt, Or.inr (by omega)⟩
          · exact ⟨seed, x, rfl, List.mem_append_left _ (hsub hx), hle, Or.inl hx⟩
      | deleteStoring seed =>
          have hstep : s.step (.advance i) = (s.write seed).complete.setClient i .done := by
            simp only [VersionSys.step, VersionSys.advance, hclient]
          rw [hstep]
          simp only [Client.SeedAhead, not_forall, Nat.not_lt] at hseed
          obtain ⟨x, hx, hle⟩ := hseed
          exact ⟨seed, x, rfl, hx, hle, Or.inl hx⟩

/-- **A seed that falls behind goes back.**  After it, deletions and one more read
are enough to observe an outdated version. -/
theorem seed_behind_goes_back (digest : String → String) (ns : String) (clock : ℕ)
    (acts : List VersionAct) (a : VersionAct)
    (hbehind : ¬ SeedsAhead (run VersionSys.step (VersionSys.start clock) acts) a) :
    ∃ more, ¬ NeverBack digest ns
      (run VersionSys.step (VersionSys.start clock) (acts ++ a :: more)) := by
  obtain ⟨seed, x, hstored, hx, hle, hold⟩ :=
    stored_behind (outdated_observed clock acts) hbehind
  obtain ⟨deletions, hend, hout⟩ := count_up (x - seed) hstored hx hold
  rw [Nat.add_sub_cancel' hle] at hend
  refine ⟨deletions ++ [.startRead, .advance (run VersionSys.step
    ((run VersionSys.step (VersionSys.start clock) acts).step a) deletions).clients.length], ?_⟩
  rw [run_append, run_cons, run_append]
  exact read_back digest ns hend hout

end SetadJang.Core
