import SetadJang.Framework.PyText
import SetadJang.Framework.Rows
import SetadJang.Framework.Runs
import SetadJang.Authentication.Otp

/-!
# Session revocation and the cached verdict

`validate_and_touch_session` answers from a cached verdict where it can;
`revoke_auth_session` marks the row, deletes the cached verdict and commits.
The calls share a table and a cache and are interleaved step by step.  A reader
sees committed rows only, and an update of the row that the revocation has
locked waits for its commit.

The cached verdict is deleted before the commit, and a validator that read the
row earlier can still write its verdict afterwards.  Revocation is immediate in
the runs where that does not happen.
-/

namespace SetadJang.Authentication.SessionCache

open SetadJang.Framework

/-- `LAST_SEEN_TOUCH_SECONDS`, on a clock of microseconds. -/
def lastSeenTouch : ℕ := 60 * 1000000

/-- A cached verdict: `_SESSION_STATE_REVOKED`, or when the session was last
seen alive. -/
inductive CacheValue where
  | revoked
  | alive (lastSeen : ℕ)
deriving DecidableEq, Repr

structure CacheEntry where
  value : CacheValue
  expiresAt : ℕ
deriving DecidableEq, Repr

/-- `session_validity_cache_key`. -/
def sessionValidityCacheKey (sid userId : ℕ) : String :=
  "auth:session_state:" ++ toString userId ++ ":" ++ toString sid

/-- Where a call of `validate_and_touch_session` stands. -/
inductive Validator where
  /-- The clock is read, the cache is not. -/
  | started (userId sid now : ℕ)
  /-- The cache had no verdict to use. -/
  | missed (userId sid now : ℕ)
  /-- The row was read and is not revoked. -/
  | found (userId sid now lastSeenAt : ℕ)
  /-- A positive verdict is about to be cached. -/
  | touched (userId sid lastSeen : ℕ)
  /-- A negative verdict is about to be cached. -/
  | condemned (userId sid : ℕ)
  | returned (verdict : Bool)
deriving DecidableEq, Repr

/-- Where the run of `revoke_auth_session` stands. -/
inductive Revoker where
  | idle
  | rowUpdated
  | cacheDeleted
  | committed
deriving DecidableEq, Repr

/-- `sessions` are the committed rows; the update of a revocation under way is
visible to nobody. -/
structure State where
  clock : ℕ
  sessions : List AuthSession
  cache : String → Option CacheEntry
  revoker : Revoker
  validators : List Validator

inductive Act where
  | tick (d : ℕ)
  | evict (key : String)
  | call (userId : ℕ) (sid : Option ℕ)
  | go (i : ℕ)
  | revoke
deriving DecidableEq, Repr

/-- `cache.get`: an entry past its timeout is gone. -/
def State.cached (s : State) (key : String) : Option CacheValue :=
  match s.cache key with
  | some e => if s.clock < e.expiresAt then some e.value else none
  | none => none

/-- `cache.set` with the touch window as timeout. -/
def State.setCache (s : State) (key : String) (value : CacheValue) : State :=
  { s with
    cache := fun k => if k = key then some ⟨value, s.clock + lastSeenTouch⟩ else s.cache k }

def State.dropCache (s : State) (key : String) : State :=
  { s with cache := fun k => if k = key then none else s.cache k }

def State.setValidator (s : State) (i : ℕ) (v : Validator) : State :=
  { s with validators := s.validators.set i v }

/-- The row of the target session is locked by the revocation under way. -/
def State.locked (s : State) (target sid : ℕ) : Bool :=
  sid == target && (s.revoker == .rowUpdated || s.revoker == .cacheDeleted)

/-- `filter(pk=sid, is_revoked=False).update(last_seen_at=now)`. -/
def touch (sid now : ℕ) (x : AuthSession) : AuthSession :=
  if x.pk = sid ∧ x.isRevoked = false then { x with lastSeenAt := now } else x

/-- The committed effect of the revocation. -/
def markRevoked (sid : ℕ) (x : AuthSession) : AuthSession :=
  if x.pk = sid then { x with isRevoked := true } else x

/-- The next step of a validator. -/
def validatorStep (target : ℕ) (s : State) (i : ℕ) : Validator → State
  | .started userId sid now =>
      match s.cached (sessionValidityCacheKey sid userId) with
      | some .revoked => s.setValidator i (.returned false)
      | some (.alive lastSeen) =>
          if now < lastSeen + lastSeenTouch then s.setValidator i (.returned true)
          else s.setValidator i (.missed userId sid now)
      | none => s.setValidator i (.missed userId sid now)
  | .missed userId sid now =>
      match s.sessions.find? fun x => x.pk == sid && x.user == userId with
      | some x =>
          if x.isRevoked then s.setValidator i (.condemned userId sid)
          else s.setValidator i (.found userId sid now x.lastSeenAt)
      | none => s.setValidator i (.condemned userId sid)
  | .found userId sid now lastSeenAt =>
      if lastSeenAt + lastSeenTouch ≤ now then
        -- the update waits for the row lock
        if s.locked target sid then s
        else
          { s with sessions := s.sessions.map (touch sid now) }.setValidator i
            (.touched userId sid now)
      else s.setValidator i (.touched userId sid lastSeenAt)
  | .touched userId sid lastSeen =>
      (s.setCache (sessionValidityCacheKey sid userId) (.alive lastSeen)).setValidator i
        (.returned true)
  | .condemned userId sid =>
      (s.setCache (sessionValidityCacheKey sid userId) .revoked).setValidator i (.returned false)
  | .returned _ => s

/-- The next step of `revoke_auth_session` on the session `target`. -/
def revokerStep (target : ℕ) (s : State) : State :=
  match s.revoker, s.sessions.find? fun x => x.pk == target with
  | .idle, some row =>
      -- an already revoked session is returned as it is
      if row.isRevoked then { s with revoker := .committed } else { s with revoker := .rowUpdated }
  | .rowUpdated, some row =>
      { s.dropCache (sessionValidityCacheKey target row.user) with revoker := .cacheDeleted }
  | .cacheDeleted, some _ =>
      { s with sessions := s.sessions.map (markRevoked target), revoker := .committed }
  | _, _ => s

def step (target : ℕ) (s : State) : Act → State
  | .tick d => { s with clock := s.clock + d }
  | .evict key => s.dropCache key
  | .call userId sid =>
      match sid with
      | none => { s with validators := s.validators ++ [.returned true] }
      | some sid => { s with validators := s.validators ++ [.started userId sid s.clock] }
  | .go i =>
      match s.validators[i]? with
      | some v => validatorStep target s i v
      | none => s
  | .revoke => revokerStep target s

/-! ## The condition -/

/-- The cached verdict of the session is deleted for good: the revocation is
past its `cache.delete`, or the row was revoked before. -/
def State.closed (target : ℕ) (s : State) : Bool :=
  s.revoker == .cacheDeleted || s.revoker == .committed ||
    s.sessions.any fun x => x.pk == target && x.isRevoked

/-- A validator writes its positive verdict on a session that is closed. -/
def lateVerdict (target : ℕ) (s : State) : Act → Bool
  | .go i =>
      match s.validators[i]? with
      | some (.touched _ sid _) => sid == target && s.closed target
      | _ => false
  | _ => false

/-- No call is under way and nothing is cached; the primary keys are unique. -/
structure Fresh (s : State) : Prop where
  idle : s.revoker = .idle
  nobody : s.validators = []
  uncached : ∀ key, s.cache key = none
  unique : UniqueBy AuthSession.pk s.sessions

/-- Every call that starts with the session id after the commit returns `False`:
whatever else happens until then, its own next three steps end it so. -/
def RevocationImmediate (target : ℕ) (s : State) (acts : List Act) : Prop :=
  ∀ (pre : List Act) (userId : ℕ) (post : List Act),
    acts = pre ++ .call userId (some target) :: post →
    (run (step target) s pre).revoker = .committed →
    let i := (run (step target) s pre).validators.length
    (run (step target) s (acts ++ [.go i, .go i, .go i])).validators[i]? = some (.returned false)

/-! ## Keys and cached verdicts -/

/-- Different sessions or users have different keys. -/
theorem sessionValidityCacheKey_inj {sid userId sid' userId' : ℕ}
    (h : sessionValidityCacheKey sid userId = sessionValidityCacheKey sid' userId') :
    sid = sid' ∧ userId = userId' := by
  unfold sessionValidityCacheKey at h
  have hlist :
      "auth:session_state:".toList ++ ((toString userId).toList ++ ':' :: (toString sid).toList) =
      "auth:session_state:".toList ++
        ((toString userId').toList ++ ':' :: (toString sid').toList) := by
    simpa [String.toList_append] using congrArg String.toList h
  obtain ⟨huser, hsid⟩ := append_cons_inj (colon_not_mem_str _) (colon_not_mem_str _)
    (List.append_cancel_left hlist)
  exact ⟨str_inj hsid, str_inj huser⟩

/-- A positive verdict is stored under the key, expired or not. -/
def State.Alive (s : State) (key : String) : Prop :=
  ∃ e, s.cache key = some e ∧ e.value ≠ .revoked

theorem alive_of_cached {s : State} {key : String} {lastSeen : ℕ}
    (h : s.cached key = some (.alive lastSeen)) : s.Alive key := by
  unfold State.cached at h
  split at h
  case h_1 e he =>
    split at h
    · refine ⟨e, he, ?_⟩
      rw [Option.some.inj h]
      simp
    · cases h
  case h_2 => cases h

theorem alive_dropCache {s : State} {key k : String} (h : (s.dropCache key).Alive k) :
    k ≠ key ∧ s.Alive k := by
  obtain ⟨e, he, hpos⟩ := h
  by_cases hk : k = key
  · simp [State.dropCache, hk] at he
  · exact ⟨hk, e, by simpa [State.dropCache, hk] using he, hpos⟩

theorem alive_setCache {s : State} {key k : String} {value : CacheValue}
    (h : (s.setCache key value).Alive k) : (k = key ∧ value ≠ .revoked) ∨ s.Alive k := by
  obtain ⟨e, he, hpos⟩ := h
  by_cases hk : k = key
  · left
    simp only [State.setCache, hk, if_true, Option.some.injEq] at he
    exact ⟨hk, by simpa [← he] using hpos⟩
  · exact .inr ⟨e, by simpa [State.setCache, hk] using he, hpos⟩

/-! ## The invariant -/

/-- A validator that is about to vouch for the session does so for its owner. -/
def Validator.Vouches (target owner : ℕ) : Validator → Prop
  | .found userId sid _ _ => sid = target → userId = owner
  | .touched userId sid _ => sid = target → userId = owner
  | _ => True

/-- Positive verdicts on the session are its owner's, and there is none once it
is closed. -/
structure Consistent (target owner : ℕ) (s : State) : Prop where
  unique : UniqueBy AuthSession.pk s.sessions
  owned : ∀ x ∈ s.sessions, x.pk = target → x.user = owner
  vouches : ∀ v ∈ s.validators, v.Vouches target owner
  cached : ∀ userId, s.Alive (sessionValidityCacheKey target userId) → userId = owner
  silent : s.closed target = true → ∀ userId, ¬ s.Alive (sessionValidityCacheKey target userId)
  committed : s.revoker = .committed → ∀ x ∈ s.sessions, x.pk = target → x.isRevoked = true

theorem Fresh.consistent {s : State} (h : Fresh s) (target : ℕ) :
    ∃ owner, Consistent target owner s := by
  have hdead : ∀ key, ¬ s.Alive key := by
    rintro key ⟨e, he, -⟩
    simp [h.uncached] at he
  have howner : ∃ owner, ∀ x ∈ s.sessions, x.pk = target → x.user = owner := by
    by_cases hrow : ∃ x ∈ s.sessions, x.pk = target
    · obtain ⟨row, hmem, hpk⟩ := hrow
      refine ⟨row.user, fun x hx hxpk => ?_⟩
      rw [h.unique x hx row hmem (hxpk.trans hpk.symm)]
    · exact ⟨0, fun x hx hpk => absurd ⟨x, hx, hpk⟩ hrow⟩
  obtain ⟨owner, howned⟩ := howner
  exact ⟨owner, {
    unique := h.unique
    owned := howned
    vouches := by simp [h.nobody]
    cached := fun userId halive => absurd halive (hdead _)
    silent := fun _ userId => hdead _
    committed := by simp [h.idle] }⟩

variable {target owner : ℕ} {s : State}

theorem Consistent.setValidator (h : Consistent target owner s) (i : ℕ) {v : Validator}
    (hv : v.Vouches target owner) : Consistent target owner (s.setValidator i v) where
  unique := h.unique
  owned := h.owned
  vouches := by
    intro w hw
    rcases List.mem_or_eq_of_mem_set hw with hold | rfl
    · exact h.vouches w hold
    · exact hv
  cached := h.cached
  silent := h.silent
  committed := h.committed

theorem Consistent.dropCache (h : Consistent target owner s) (key : String) :
    Consistent target owner (s.dropCache key) where
  unique := h.unique
  owned := h.owned
  vouches := h.vouches
  cached := fun userId halive => h.cached userId (alive_dropCache halive).2
  silent := fun hclosed userId halive => h.silent hclosed userId (alive_dropCache halive).2
  committed := h.committed

theorem Consistent.setCache_revoked (h : Consistent target owner s) (key : String) :
    Consistent target owner (s.setCache key .revoked) := by
  have hold : ∀ k, (s.setCache key .revoked).Alive k → s.Alive k := by
    intro k halive
    rcases alive_setCache halive with ⟨-, hne⟩ | halive
    · exact absurd rfl hne
    · exact halive
  exact {
    unique := h.unique
    owned := h.owned
    vouches := h.vouches
    cached := fun userId halive => h.cached userId (hold _ halive)
    silent := fun hclosed userId halive => h.silent hclosed userId (hold _ halive)
    committed := h.committed }

/-- A positive verdict may be cached for another session, or for the owner of
this one while it is open. -/
theorem Consistent.setCache_alive (h : Consistent target owner s) {userId sid lastSeen : ℕ}
    (hv : sid = target → userId = owner) (hopen : sid = target → s.closed target = false) :
    Consistent target owner
      (s.setCache (sessionValidityCacheKey sid userId) (.alive lastSeen)) where
  unique := h.unique
  owned := h.owned
  vouches := h.vouches
  cached := by
    intro user halive
    rcases alive_setCache halive with ⟨hkey, -⟩ | halive
    · obtain ⟨rfl, rfl⟩ := sessionValidityCacheKey_inj hkey
      exact hv rfl
    · exact h.cached user halive
  silent := by
    intro hclosed user halive
    rcases alive_setCache halive with ⟨hkey, -⟩ | halive
    · obtain ⟨rfl, -⟩ := sessionValidityCacheKey_inj hkey
      have hstill : s.closed target = true := hclosed
      simp [hopen rfl] at hstill
    · exact h.silent hclosed user halive
  committed := h.committed

@[simp] theorem touch_pk (sid now : ℕ) (x : AuthSession) : (touch sid now x).pk = x.pk := by
  unfold touch
  split <;> rfl

@[simp] theorem touch_user (sid now : ℕ) (x : AuthSession) : (touch sid now x).user = x.user := by
  unfold touch
  split <;> rfl

@[simp] theorem touch_isRevoked (sid now : ℕ) (x : AuthSession) :
    (touch sid now x).isRevoked = x.isRevoked := by
  unfold touch
  split <;> rfl

@[simp] theorem markRevoked_pk (sid : ℕ) (x : AuthSession) : (markRevoked sid x).pk = x.pk := by
  unfold markRevoked
  split <;> rfl

@[simp] theorem markRevoked_user (sid : ℕ) (x : AuthSession) :
    (markRevoked sid x).user = x.user := by
  unfold markRevoked
  split <;> rfl

theorem Consistent.touch (h : Consistent target owner s) (sid now : ℕ) :
    Consistent target owner { s with sessions := s.sessions.map (touch sid now) } where
  unique := uniqueBy_map (touch_pk sid now) h.unique
  owned := by simpa using h.owned
  vouches := h.vouches
  cached := h.cached
  silent := by
    intro hclosed
    have hsame : s.closed target = true := by
      simpa [State.closed, List.any_map, Function.comp_def] using hclosed
    exact h.silent hsame
  committed := by simpa using h.committed

theorem closed_of_row {x : AuthSession} (hmem : x ∈ s.sessions) (hpk : x.pk = target)
    (hrev : x.isRevoked = true) : s.closed target = true := by
  simp only [State.closed, Bool.or_eq_true, List.any_eq_true]
  exact .inr ⟨x, hmem, by simp [hpk, hrev]⟩

/-- A session that was revoked before is closed already. -/
theorem Consistent.revoked_before (h : Consistent target owner s) {row : AuthSession}
    (hmem : row ∈ s.sessions) (hpk : row.pk = target) (hrev : row.isRevoked = true) :
    Consistent target owner { s with revoker := .committed } where
  unique := h.unique
  owned := h.owned
  vouches := h.vouches
  cached := h.cached
  silent := fun _ => h.silent (closed_of_row hmem hpk hrev)
  committed := by
    intro _ x hx hxpk
    rwa [h.unique x hx row hmem (hxpk.trans hpk.symm)]

/-- The row update alone changes nothing that others see. -/
theorem Consistent.rowUpdated (h : Consistent target owner s) (hidle : s.revoker = .idle) :
    Consistent target owner { s with revoker := .rowUpdated } where
  unique := h.unique
  owned := h.owned
  vouches := h.vouches
  cached := h.cached
  silent := by
    intro hclosed
    refine h.silent ?_
    simpa [State.closed, hidle] using hclosed
  committed := by simp

/-- The deleted key is the one under which the owner's positive verdict stands. -/
theorem Consistent.cacheDeleted (h : Consistent target owner s) {row : AuthSession}
    (hmem : row ∈ s.sessions) (hpk : row.pk = target) :
    Consistent target owner
      { s.dropCache (sessionValidityCacheKey target row.user) with revoker := .cacheDeleted } := by
  have hdead : ∀ userId, ¬ (s.dropCache (sessionValidityCacheKey target row.user)).Alive
      (sessionValidityCacheKey target userId) := by
    intro userId halive
    obtain ⟨hne, halive⟩ := alive_dropCache halive
    rw [h.cached userId halive, h.owned row hmem hpk] at hne
    exact hne rfl
  exact {
    unique := h.unique
    owned := h.owned
    vouches := h.vouches
    cached := fun userId halive => absurd halive (hdead userId)
    silent := fun _ => hdead
    committed := by simp }

/-- The commit marks the rows of the session, whose verdict is deleted by then. -/
theorem Consistent.rowCommitted (h : Consistent target owner s)
    (hdeleted : s.revoker = .cacheDeleted) :
    Consistent target owner
      { s with sessions := s.sessions.map (markRevoked target), revoker := .committed } := by
  have hclosed : s.closed target = true := by simp [State.closed, hdeleted]
  exact {
    unique := uniqueBy_map (markRevoked_pk target) h.unique
    owned := by simpa using h.owned
    vouches := h.vouches
    cached := h.cached
    silent := fun _ => h.silent hclosed
    committed := by
      intro _ x hx hpk
      obtain ⟨y, -, rfl⟩ := List.mem_map.mp hx
      rw [markRevoked_pk] at hpk
      simp [markRevoked, hpk] }

theorem Consistent.revokerStep (h : Consistent target owner s) :
    Consistent target owner (revokerStep target s) := by
  have hfound : ∀ {row}, (s.sessions.find? fun x => x.pk == target) = some row →
      row ∈ s.sessions ∧ row.pk = target := by
    intro row hrow
    exact ⟨List.mem_of_find?_eq_some hrow, by simpa using List.find?_some hrow⟩
  unfold SessionCache.revokerStep
  split
  case h_1 row hidle hrow =>
    obtain ⟨hmem, hpk⟩ := hfound hrow
    split
    case isTrue hrev => exact h.revoked_before hmem hpk hrev
    case isFalse => exact h.rowUpdated hidle
  case h_2 row _ hrow =>
    obtain ⟨hmem, hpk⟩ := hfound hrow
    exact h.cacheDeleted hmem hpk
  case h_3 row hdeleted _ => exact h.rowCommitted hdeleted
  case h_4 => exact h

/-- The row a validator found for the session is its owner's. -/
theorem Consistent.vouches_found (h : Consistent target owner s) {userId sid now lastSeenAt : ℕ}
    {row : AuthSession}
    (hrow : (s.sessions.find? fun x => x.pk == sid && x.user == userId) = some row) :
    (Validator.found userId sid now lastSeenAt).Vouches target owner := by
  rintro rfl
  obtain ⟨hpk, huser⟩ : row.pk = sid ∧ row.user = userId := by simpa using List.find?_some hrow
  rw [← huser]
  exact h.owned row (List.mem_of_find?_eq_some hrow) hpk

theorem Consistent.validatorStep (h : Consistent target owner s) {i : ℕ} {v : Validator}
    (hv : s.validators[i]? = some v) (hok : lateVerdict target s (.go i) = false) :
    Consistent target owner (validatorStep target s i v) := by
  have hvouch := h.vouches v (List.mem_of_getElem? hv)
  cases v with
  | started userId sid now =>
      simp only [SessionCache.validatorStep]
      split
      · exact h.setValidator i trivial
      · split <;> exact h.setValidator i trivial
      · exact h.setValidator i trivial
  | missed userId sid now =>
      simp only [SessionCache.validatorStep]
      split
      case h_1 row hrow =>
        split
        · exact h.setValidator i trivial
        · exact h.setValidator i (h.vouches_found hrow)
      case h_2 => exact h.setValidator i trivial
  | found userId sid now lastSeenAt =>
      simp only [SessionCache.validatorStep]
      split
      · split
        · exact h
        · exact (h.touch sid now).setValidator i hvouch
      · exact h.setValidator i hvouch
  | touched userId sid lastSeen =>
      refine (h.setCache_alive hvouch ?_).setValidator i trivial
      rintro rfl
      simpa [lateVerdict, hv] using hok
  | condemned userId sid => exact (h.setCache_revoked _).setValidator i trivial
  | returned verdict => exact h

theorem step_consistent {a : Act} (h : Consistent target owner s)
    (hok : lateVerdict target s a = false) : Consistent target owner (step target s a) := by
  cases a with
  | tick d => exact ⟨h.unique, h.owned, h.vouches, h.cached, h.silent, h.committed⟩
  | evict key => exact h.dropCache key
  | call userId sid =>
      have happend : ∀ v : Validator, v.Vouches target owner →
          Consistent target owner { s with validators := s.validators ++ [v] } := by
        intro v hv
        refine ⟨h.unique, h.owned, ?_, h.cached, h.silent, h.committed⟩
        intro w hw
        rcases List.mem_append.mp hw with hold | hnew
        · exact h.vouches w hold
        · exact List.mem_singleton.mp hnew ▸ hv
      cases sid with
      | none => exact happend _ trivial
      | some sid => exact happend _ trivial
  | go i =>
      simp only [step]
      split
      case h_1 v hv => exact h.validatorStep hv hok
      case h_2 => exact h
  | revoke => exact h.revokerStep

/-! ## A call after the commit -/

/-- The validator works on the session and needs at most `n` more steps to return
`False`, the session being revoked and no positive verdict cached. -/
inductive Doomed (target : ℕ) : ℕ → Validator → Prop where
  | started (userId now n : ℕ) : Doomed target (n + 3) (.started userId target now)
  | missed (userId now n : ℕ) : Doomed target (n + 2) (.missed userId target now)
  | condemned (userId n : ℕ) : Doomed target (n + 1) (.condemned userId target)
  | returned (n : ℕ) : Doomed target n (.returned false)

/-- One step of its own brings such a validator nearer to its answer. -/
theorem doomed_go (h : Consistent target owner s) (hcommit : s.revoker = .committed)
    {i n : ℕ} {v : Validator} (hv : s.validators[i]? = some v) (hd : Doomed target (n + 1) v) :
    ∃ v', (step target s (.go i)).validators[i]? = some v' ∧ Doomed target n v' := by
  have hlt : i < s.validators.length := (List.getElem?_eq_some_iff.mp hv).1
  have hset : ∀ (t : State) (w : Validator), t.validators = s.validators →
      (t.setValidator i w).validators[i]? = some w := by
    intro t w ht
    simp [State.setValidator, ht, hlt]
  have hclosed : s.closed target = true := by simp [State.closed, hcommit]
  simp only [step, hv]
  cases hd with
  | started userId now n =>
      simp only [validatorStep]
      split
      · exact ⟨_, hset s _ rfl, .returned _⟩
      case h_2 lastSeen hcached =>
        exact absurd (alive_of_cached hcached) (h.silent hclosed userId)
      · exact ⟨_, hset s _ rfl, .missed ..⟩
  | missed userId now n =>
      simp only [validatorStep]
      split
      case h_1 row hrow =>
        obtain ⟨hpk, -⟩ : row.pk = target ∧ row.user = userId := by
          simpa using List.find?_some hrow
        rw [if_pos (h.committed hcommit row (List.mem_of_find?_eq_some hrow) hpk)]
        exact ⟨_, hset s _ rfl, .condemned ..⟩
      case h_2 => exact ⟨_, hset s _ rfl, .condemned ..⟩
  | condemned userId n => exact ⟨_, hset _ _ rfl, .returned _⟩
  | returned => exact ⟨_, hv, .returned _⟩

theorem Doomed.weaken {n : ℕ} {v : Validator} (h : Doomed target n v) :
    Doomed target (n + 1) v := by
  cases h with
  | started userId now n => exact .started userId now (n + 1)
  | missed userId now n => exact .missed userId now (n + 1)
  | condemned userId n => exact .condemned userId (n + 1)
  | returned n => exact .returned (n + 1)

/-- A validator step moves that validator only, and never the revocation. -/
theorem validatorStep_frame (target : ℕ) (s : State) (j : ℕ) (v : Validator) :
    (validatorStep target s j v).revoker = s.revoker ∧
      ∀ i, i ≠ j → (validatorStep target s j v).validators[i]? = s.validators[i]? := by
  have hset : ∀ (t : State) (w : Validator), t.revoker = s.revoker →
      t.validators = s.validators → (t.setValidator j w).revoker = s.revoker ∧
        ∀ i, i ≠ j → (t.setValidator j w).validators[i]? = s.validators[i]? := by
    intro t w hrevoker hvalidators
    refine ⟨hrevoker, fun i hi => ?_⟩
    simp [State.setValidator, hvalidators, List.getElem?_set_ne hi.symm]
  cases v with
  | started userId sid now =>
      simp only [validatorStep]
      split
      · exact hset s _ rfl rfl
      · split <;> exact hset s _ rfl rfl
      · exact hset s _ rfl rfl
  | missed userId sid now =>
      simp only [validatorStep]
      split
      · split <;> exact hset s _ rfl rfl
      · exact hset s _ rfl rfl
  | found userId sid now lastSeenAt =>
      simp only [validatorStep]
      split
      · split
        · exact ⟨rfl, fun _ _ => rfl⟩
        · exact hset _ _ rfl rfl
      · exact hset s _ rfl rfl
  | touched userId sid lastSeen => exact hset _ _ rfl rfl
  | condemned userId sid => exact hset _ _ rfl rfl
  | returned verdict => exact ⟨rfl, fun _ _ => rfl⟩

theorem step_committed {a : Act} (h : s.revoker = .committed) :
    (step target s a).revoker = .committed := by
  cases a with
  | tick d => exact h
  | evict key => exact h
  | call userId sid => cases sid <;> exact h
  | go i =>
      simp only [step]
      split
      · rw [(validatorStep_frame ..).1, h]
      · exact h
  | revoke => simp [step, revokerStep, h]

theorem step_validator_other {a : Act} {i : ℕ} {v : Validator} (ha : a ≠ .go i)
    (hcommit : s.revoker = .committed) (hv : s.validators[i]? = some v) :
    (step target s a).validators[i]? = some v := by
  have hlt : i < s.validators.length := (List.getElem?_eq_some_iff.mp hv).1
  cases a with
  | tick d => exact hv
  | evict key => exact hv
  | call userId sid =>
      cases sid with
      | none => simpa [step, List.getElem?_append_left hlt] using hv
      | some sid => simpa [step, List.getElem?_append_left hlt] using hv
  | go j =>
      have hij : i ≠ j := fun heq => ha (heq ▸ rfl)
      simp only [step]
      split
      · rw [(validatorStep_frame ..).2 i hij, hv]
      · exact hv
  | revoke => simpa [step, revokerStep, hcommit] using hv

/-- The session is revoked and validator `i` can only answer `False`. -/
def Answered (target owner i : ℕ) (s : State) : Prop :=
  Consistent target owner s ∧ s.revoker = .committed ∧
    ∃ v, s.validators[i]? = some v ∧ Doomed target 3 v

theorem step_answered {i : ℕ} {a : Act} (h : Answered target owner i s)
    (hok : lateVerdict target s a = false) : Answered target owner i (step target s a) := by
  obtain ⟨hc, hcommit, v, hv, hd⟩ := h
  refine ⟨step_consistent hc hok, step_committed hcommit, ?_⟩
  by_cases ha : a = .go i
  · obtain ⟨v', hv', hd'⟩ := doomed_go hc hcommit hv hd
    exact ⟨v', ha ▸ hv', hd'.weaken⟩
  · exact ⟨v, step_validator_other ha hcommit hv, hd⟩

/-- Its own steps are never the late write. -/
theorem lateVerdict_doomed {i n : ℕ} {v : Validator} (hv : s.validators[i]? = some v)
    (hd : Doomed target n v) : lateVerdict target s (.go i) = false := by
  cases hd <;> simp [lateVerdict, hv]

theorem answered_returns {i : ℕ} (h : Answered target owner i s) :
    (run (step target) s [.go i, .go i, .go i]).validators[i]? = some (.returned false) := by
  obtain ⟨hc, hcommit, v, hv, hd⟩ := h
  obtain ⟨v₁, hv₁, hd₁⟩ := doomed_go hc hcommit hv hd
  have hc₁ := step_consistent hc (lateVerdict_doomed hv hd)
  have hcommit₁ : (step target s (.go i)).revoker = .committed := step_committed hcommit
  obtain ⟨v₂, hv₂, hd₂⟩ := doomed_go hc₁ hcommit₁ hv₁ hd₁
  have hc₂ := step_consistent hc₁ (lateVerdict_doomed hv₁ hd₁)
  obtain ⟨v₃, hv₃, hd₃⟩ := doomed_go hc₂ (step_committed hcommit₁) hv₂ hd₂
  cases hd₃
  exact hv₃

/-- **Immediate revocation.** In every interleaving in which no validator caches
a positive verdict on the session after the revocation has deleted it, the calls
that start after the commit return `False`. -/
theorem revocation_immediate (target : ℕ) (s : State) (hfresh : Fresh s) (acts : List Act)
    (hok : Along (step target) (fun s a => lateVerdict target s a = false) s acts) :
    RevocationImmediate target s acts := by
  obtain ⟨owner, hc⟩ := hfresh.consistent target
  rintro pre userId post rfl hcommit i
  obtain ⟨hpre, -, hpost⟩ := (along_append s pre _).mp hok
  have hcpre : Consistent target owner (run (step target) s pre) :=
    invariant_along (fun _ _ => step_consistent) hc hpre
  -- the call is in the list of validators and has read nothing yet
  have hcall : Answered target owner i
      (step target (run (step target) s pre) (.call userId (some target))) := by
    refine ⟨step_consistent hcpre rfl, step_committed hcommit,
      .started userId target (run (step target) s pre).clock, ?_, .started ..⟩
    simp [step, i]
  have hend : Answered target owner i
      (run (step target) (step target (run (step target) s pre) (.call userId (some target))) post) :=
    invariant_along (fun _ _ => step_answered) hcall hpost
  rw [run_append, run_append, run_cons]
  exact answered_returns hend

/-- One session of user `1`, last seen long ago; nothing is cached. -/
def sampleState : State where
  clock := 100 * 1000000
  sessions := [⟨3, 1, "jti", false, 0⟩]
  cache := fun _ => none
  revoker := .idle
  validators := []

theorem sampleState_fresh : Fresh sampleState where
  idle := rfl
  nobody := rfl
  uncached := fun _ => rfl
  unique := by simp [UniqueBy, sampleState]

/-- A validator finishes, the session is revoked, and the next call is refused. -/
def orderlyRun : List Act :=
  [.call 1 (some 3), .go 0, .go 0, .go 0, .go 0, .revoke, .revoke, .revoke, .call 1 (some 3)]

theorem revocation_immediate_orderly :
    (run (step 3) sampleState (orderlyRun.take 8)).revoker = .committed ∧
      RevocationImmediate 3 sampleState orderlyRun :=
  ⟨by decide, revocation_immediate 3 sampleState sampleState_fresh orderlyRun (by decide)⟩

/-- A validator has read and touched the row when the revocation runs from start
to commit; it then caches its positive verdict, which the next call is given. -/
theorem late_verdict_outlives_revocation :
    Fresh sampleState ∧
      ¬ RevocationImmediate 3 sampleState
        [.call 1 (some 3), .go 0, .go 0, .go 0, .revoke, .revoke, .revoke, .go 0,
          .call 1 (some 3)] := by
  refine ⟨sampleState_fresh, fun h => ?_⟩
  have hfalse := h [.call 1 (some 3), .go 0, .go 0, .go 0, .revoke, .revoke, .revoke, .go 0] 1 []
    rfl (by decide)
  revert hfalse
  decide

end SetadJang.Authentication.SessionCache
