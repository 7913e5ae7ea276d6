import SetadJang.Framework.Runs
import SetadJang.R4J.ListKeys

/-!
# The cache of the public list under changes

A request reads the version of the namespace once to look its page up and once more to store
it; between the two it queries the table.  A change of the criminals is committed first, and
the version counts up afterwards.  For what is said about runs the changes are counted: a page
carries the number of changes that its query saw, and a request the newest change that was
announced when it started.
-/

namespace SetadJang.R4J

open SetadJang.Framework SetadJang.Core

/-- A page with the number of changes that its query saw. -/
structure SeenPage where
  payload : ListAnswer
  seen : ℕ
deriving DecidableEq, Repr

/-- Where a request stands; `floor` is the newest change announced before it started. -/
inductive ListRequest where
  | opened (q : QueryDict) (floor : ℕ)
  | missed (q : QueryDict) (floor : ℕ)
  | computed (q : QueryDict) (floor : ℕ) (page : SeenPage)
  | answered (q : QueryDict) (floor : ℕ) (page : SeenPage)
  | failed
deriving DecidableEq, Repr

structure ListSys where
  table : List R4JCriminal
  changes : ℕ
  version : Option ℕ
  cache : List (String × SeenPage)
  requests : List ListRequest
  announced : ℕ
deriving DecidableEq, Repr

inductive ListAct where
  /-- A transaction on the criminals commits. -/
  | commit (change : List R4JCriminal → List R4JCriminal)
  /-- `cache_delete_namespace` after change `k`. -/
  | announce (k now : ℕ)
  | openRequest (q : QueryDict)
  | lookup (i now : ℕ)
  | query (i : ℕ)
  | store (i now : ℕ)
  /-- The timeout of an entry, or its eviction. -/
  | expire (key : String)

namespace ListSys

/-- `get_namespace_version`: a missing version is seeded from the clock. -/
def namespaceVersion (s : ListSys) (now : ℕ) : ℕ := s.version.getD now

def setRequest (s : ListSys) (i : ℕ) (r : ListRequest) : ListSys :=
  { s with requests := s.requests.set i r }

/-- `get_public_criminals_page_cached`. -/
def lookupPage (short long : Hexdigest) (s : ListSys) (i now : ℕ) (q : QueryDict) (floor : ℕ) :
    ListSys :=
  let version := s.namespaceVersion now
  let s := { s with version := some version }
  match s.cache.lookup (publicPageKey short long version q) with
  | some page => s.setRequest i (.answered q floor page)
  | none => s.setRequest i (.missed q floor)

/-- The view computes its answer; an invalid page ends the request. -/
def queryPage (engine : QueryEngine) (s : ListSys) (i : ℕ) (q : QueryDict) (floor : ℕ) : ListSys :=
  match uncachedList engine s.table q with
  | .notFound => s.setRequest i .failed
  | .page count next previous results =>
      s.setRequest i (.computed q floor ⟨.page count next previous results, s.changes⟩)

/-- `set_public_criminals_page_cache`, and the answer. -/
def storePage (short long : Hexdigest) (s : ListSys) (i now : ℕ) (q : QueryDict) (floor : ℕ)
    (page : SeenPage) : ListSys :=
  let version := s.namespaceVersion now
  { s.setRequest i (.answered q floor page) with
    version := some version
    cache := (publicPageKey short long version q, page) :: s.cache }

/-- `cache_delete_namespace`: count up, or seed. -/
def announceChange (s : ListSys) (k now : ℕ) : ListSys :=
  { s with
    version := some (s.version.elim now (· + 1))
    announced := max s.announced k }

end ListSys

open ListSys in
def listStep (short long : Hexdigest) (engine : QueryEngine) (s : ListSys) : ListAct → ListSys
  | .commit change => { s with table := change s.table, changes := s.changes + 1 }
  | .announce k now => if k ≤ s.changes then s.announceChange k now else s
  | .openRequest q => { s with requests := s.requests ++ [.opened q s.announced] }
  | .lookup i now =>
      match s.requests[i]? with
      | some (.opened q floor) => s.lookupPage short long i now q floor
      | _ => s
  | .query i =>
      match s.requests[i]? with
      | some (.missed q floor) => s.queryPage engine i q floor
      | _ => s
  | .store i now =>
      match s.requests[i]? with
      | some (.computed q floor page) => s.storePage short long i now q floor page
      | _ => s
  | .expire key => { s with cache := s.cache.filter fun entry => entry.1 != key }

/-- An empty cache. -/
def listStart (table : List R4JCriminal) : ListSys := ⟨table, 0, none, [], [], 0⟩

/-! ## Serving the present -/

/-- No request is answered from before a change that was announced when it started. -/
def ServesPresent (s : ListSys) : Prop :=
  ∀ q floor page, .answered q floor page ∈ s.requests → floor ≤ page.seen

/-- No page is stored after the announcement of a change that its query did not see. -/
def StoresInTime (s : ListSys) : ListAct → Prop
  | .store i _ =>
      match s.requests[i]? with
      | some (.computed _ _ page) => s.announced ≤ page.seen
      | _ => True
  | _ => True

instance (s : ListSys) : ∀ act, Decidable (StoresInTime s act)
  | .store i _ =>
      match h : s.requests[i]? with
      | some (.computed _ _ page) =>
          decidable_of_iff (s.announced ≤ page.seen) (by rw [StoresInTime, h])
      | some (.opened _ _) | some (.missed _ _) | some (.answered _ _ _) | some .failed | none =>
          isTrue (by rw [StoresInTime, h]; trivial)
  | .commit _ | .announce _ _ | .openRequest _ | .lookup _ _ | .query _ | .expire _ => isTrue trivial

/-- A request knows no announcement that is not out, and a page of its own has seen them. -/
def ListRequest.Sound (announced : ℕ) : ListRequest → Prop
  | .opened _ floor => floor ≤ announced
  | .missed _ floor => floor ≤ announced
  | .computed _ floor page => floor ≤ page.seen
  | .answered _ floor page => floor ≤ page.seen
  | .failed => True

/-- An entry is filed under a version up to the present one, and under the present one it has
seen every announced change. -/
def EntrySound (short long : Hexdigest) (s : ListSys) (key : String) (page : SeenPage) : Prop :=
  ∃ version filed q, s.version = some version ∧ filed ≤ version ∧
    key = publicPageKey short long filed q ∧ (filed = version → s.announced ≤ page.seen)

structure Present (short long : Hexdigest) (s : ListSys) : Prop where
  announced : s.announced ≤ s.changes
  requests : ∀ r ∈ s.requests, r.Sound s.announced
  entries : ∀ key page, (key, page) ∈ s.cache → EntrySound short long s key page

theorem ListRequest.Sound.mono {a b : ℕ} (h : a ≤ b) : ∀ {r : ListRequest}, r.Sound a → r.Sound b
  | .opened _ _, hr => Nat.le_trans hr h
  | .missed _ _, hr => Nat.le_trans hr h
  | .computed _ _ _, hr => hr
  | .answered _ _ _, hr => hr
  | .failed, _ => trivial

/-- Keys of different versions differ. -/
theorem publicPageKey_version {short long : Hexdigest} {v w : ℕ} {q q' : QueryDict}
    (h : publicPageKey short long v q = publicPageKey short long w q') : v = w := by
  by_contra hne
  exact payloadKey_ne long.injective hne _ _ h

section

variable {short long : Hexdigest} {engine : QueryEngine} {s : ListSys}
  (hs : Present short long s)

include hs

theorem Present.setRequest (i : ℕ) {r : ListRequest} (hr : r.Sound s.announced) :
    Present short long (s.setRequest i r) := by
  refine ⟨hs.announced, ?_, hs.entries⟩
  intro r' hmem
  rcases List.mem_or_eq_of_mem_set hmem with hold | rfl
  · exact hs.requests r' hold
  · exact hr

/-- Reading the version changes it only where there was none, and then nothing is cached. -/
theorem Present.readVersion (now : ℕ) :
    Present short long { s with version := some (s.namespaceVersion now) } := by
  refine ⟨hs.announced, hs.requests, ?_⟩
  intro key page hentry
  obtain ⟨version, filed, q, hversion, hrest⟩ := hs.entries key page hentry
  exact ⟨version, filed, q, by rw [ListSys.namespaceVersion, hversion]; rfl, hrest⟩

theorem Present.lookupPage {i now : ℕ} {q : QueryDict} {floor : ℕ} (hfloor : floor ≤ s.announced) :
    Present short long (s.lookupPage short long i now q floor) := by
  have hread := hs.readVersion now
  unfold ListSys.lookupPage
  simp only
  split
  · next page hpage =>
      obtain ⟨_, _, hcache, -⟩ := List.lookup_eq_some_iff.mp hpage
      have hmem : (publicPageKey short long (s.namespaceVersion now) q, page) ∈ s.cache := by
        rw [hcache]
        simp
      obtain ⟨version, filed, q', hversion, -, hkey, hseen⟩ := hread.entries _ _ hmem
      have hnow : s.namespaceVersion now = version := Option.some.inj hversion
      have hfiled : filed = version := (publicPageKey_version hkey).symm.trans hnow
      have hanswer : (ListRequest.answered q floor page).Sound s.announced :=
        Nat.le_trans hfloor (hseen hfiled)
      exact hread.setRequest i hanswer
  · exact hread.setRequest i hfloor

theorem Present.queryPage {i : ℕ} {q : QueryDict} {floor : ℕ} (hfloor : floor ≤ s.announced) :
    Present short long (s.queryPage engine i q floor) := by
  unfold ListSys.queryPage
  split
  · exact hs.setRequest i trivial
  · exact hs.setRequest i (Nat.le_trans hfloor hs.announced)

theorem Present.storePage {i now : ℕ} {q : QueryDict} {floor : ℕ} {page : SeenPage}
    (hfloor : floor ≤ page.seen) (hseen : s.announced ≤ page.seen) :
    Present short long (s.storePage short long i now q floor page) := by
  have hset := (hs.readVersion now).setRequest i (r := .answered q floor page) hfloor
  refine ⟨hset.announced, hset.requests, ?_⟩
  intro key page' hentry
  rcases List.mem_cons.mp hentry with hnew | hold
  · obtain ⟨hkey, rfl⟩ := Prod.mk.inj hnew
    exact ⟨_, s.namespaceVersion now, q, rfl, Nat.le_refl _, hkey, fun _ => hseen⟩
  · exact hset.entries key page' hold

theorem Present.announceChange {k now : ℕ} (hk : k ≤ s.changes) :
    Present short long (s.announceChange k now) := by
  refine ⟨Nat.max_le.mpr ⟨hs.announced, hk⟩, ?_, ?_⟩
  · exact fun r hr => (hs.requests r hr).mono (Nat.le_max_left _ _)
  · intro key page hentry
    obtain ⟨version, filed, q, hversion, hfiled, hkey, -⟩ := hs.entries key page hentry
    refine ⟨version + 1, filed, q, by rw [ListSys.announceChange, hversion]; rfl, by omega, hkey, ?_⟩
    intro heq
    omega

/-- **Step lemma.** -/
theorem present_step {act : ListAct} (hok : StoresInTime s act) :
    Present short long (listStep short long engine s act) := by
  have hrequest : ∀ {i : ℕ} {r : ListRequest}, s.requests[i]? = some r → r.Sound s.announced :=
    fun hr => hs.requests _ (List.mem_of_getElem? hr)
  cases act with
  | commit change => exact ⟨Nat.le_succ_of_le hs.announced, hs.requests, hs.entries⟩
  | announce k now =>
      simp only [listStep]
      split
      · next hk => exact hs.announceChange hk
      · exact hs
  | openRequest q =>
      refine ⟨hs.announced, ?_, hs.entries⟩
      intro r hr
      rcases List.mem_append.mp hr with hold | hnew
      · exact hs.requests r hold
      · rw [List.mem_singleton.mp hnew]
        exact Nat.le_refl _
  | lookup i now =>
      simp only [listStep]
      split
      · next q floor hr => exact hs.lookupPage (hrequest hr)
      · exact hs
  | query i =>
      simp only [listStep]
      split
      · next q floor hr => exact hs.queryPage (hrequest hr)
      · exact hs
  | store i now =>
      simp only [listStep]
      split
      · next q floor page hr =>
          simp only [StoresInTime, hr] at hok
          exact hs.storePage (hrequest hr) hok
      · exact hs
  | expire key =>
      exact ⟨hs.announced, hs.requests,
        fun key page hentry => hs.entries key page (List.mem_filter.mp hentry).1⟩

end

theorem present_start (short long : Hexdigest) (table : List R4JCriminal) :
    Present short long (listStart table) :=
  ⟨Nat.le_refl 0, nofun, nofun⟩

/-- **The cached list.** In every run that stores in time no request is answered from before a
change that was announced when it started. -/
theorem list_cache_present (short long : Hexdigest) (engine : QueryEngine)
    (table : List R4JCriminal) (acts : List ListAct)
    (h : Along (listStep short long engine) StoresInTime (listStart table) acts)
    (pre : List ListAct) (hpre : pre <+: acts) :
    ServesPresent (run (listStep short long engine) (listStart table) pre) := by
  have hpresent : Present short long (run (listStep short long engine) (listStart table) pre) :=
    invariant_along (I := Present short long) (fun s a hs hok => present_step hs hok)
      (present_start short long table) (along_earlier h hpre)
  exact fun q floor page hmem => hpresent.requests _ hmem

/-- A lookup that finds a page answers with it. -/
theorem lookupPage_of_cached {short long : Hexdigest} {s : ListSys} {i now version : ℕ}
    {q : QueryDict} {floor : ℕ} {page : SeenPage} (hi : i < s.requests.length)
    (hversion : s.version = some version)
    (hcached : s.cache.lookup (publicPageKey short long version q) = some page) :
    .answered q floor page ∈ (s.lookupPage short long i now q floor).requests := by
  have hnow : s.namespaceVersion now = version := by rw [ListSys.namespaceVersion, hversion]; rfl
  rw [ListSys.lookupPage]
  simp only [hnow, hcached]
  exact List.mem_iff_getElem?.mpr ⟨i, List.getElem?_set_self hi⟩

/-- A page that is stored too late is served to the next request for it. -/
theorem late_page_served {short long : Hexdigest} {engine : QueryEngine} {s : ListSys} {i : ℕ}
    {q : QueryDict} {floor : ℕ} {page : SeenPage}
    (hrequest : s.requests[i]? = some (.computed q floor page)) (hlate : page.seen < s.announced)
    (now now' : ℕ) :
    ¬ ServesPresent (run (listStep short long engine) s
      [.store i now, .openRequest q, .lookup s.requests.length now']) := by
  have hstore : listStep short long engine s (.store i now) =
      s.storePage short long i now q floor page := by simp only [listStep, hrequest]
  have hlength : (s.storePage short long i now q floor page).requests.length =
      s.requests.length := List.length_set
  have hopened : ((s.storePage short long i now q floor page).requests ++
      [.opened q s.announced])[s.requests.length]? = some (.opened q s.announced) := by
    rw [← hlength]
    exact List.getElem?_concat_length
  have hanswer : run (listStep short long engine) s
      [.store i now, .openRequest q, .lookup s.requests.length now'] =
      ListSys.lookupPage short long { s.storePage short long i now q floor page with
        requests := (s.storePage short long i now q floor page).requests ++
          [.opened q s.announced] } s.requests.length now' q s.announced := by
    rw [run_cons, hstore, run_cons, run_cons, run_nil]
    simp only [listStep]
    rw [show (s.storePage short long i now q floor page).announced = s.announced from rfl,
      hopened]
  rw [hanswer]
  intro h
  refine absurd (h q s.announced page (lookupPage_of_cached ?_ rfl ?_)) (Nat.not_le.mpr hlate)
  · rw [List.length_append, hlength]
    exact Nat.lt_succ_self _
  · exact List.lookup_cons_self

/-- A page is stored before a change and one after it. -/
def storedInTime : List ListAct :=
  [.openRequest ⟨[]⟩, .lookup 0 5, .query 0, .store 0 6, .commit fun _ => [], .announce 1 7,
    .openRequest ⟨[]⟩, .lookup 1 8, .query 1, .store 1 9]

theorem list_cache_present_stored :
    ServesPresent (run (listStep spelledHex spelledHex plainEngine) (listStart []) storedInTime) :=
  list_cache_present spelledHex spelledHex plainEngine [] storedInTime (by decide) storedInTime
    List.prefix_rfl

/-- The table is queried before a change, and the page stored after its announcement. -/
def storedLate : List ListAct :=
  [.openRequest ⟨[]⟩, .lookup 0 5, .query 0, .commit fun _ => [], .announce 1 6, .store 0 7,
    .openRequest ⟨[]⟩, .lookup 1 8]

theorem past_page_served :
    ¬ ServesPresent (run (listStep spelledHex spelledHex plainEngine) (listStart [tehranCriminal])
      storedLate) := by
  intro h
  have hanswer : .answered ⟨[]⟩ 1 ⟨.page 1 none none [tehranCriminal.serialize], 0⟩ ∈
      (run (listStep spelledHex spelledHex plainEngine) (listStart [tehranCriminal])
        storedLate).requests := by decide
  exact absurd (h _ _ _ hanswer) (by decide)

end SetadJang.R4J
