import SetadJang.Authentication.Otp
import SetadJang.Framework.PyCase
import SetadJang.Framework.Runs
import SetadJang.Framework.Slots
import Mathlib.Logic.Function.Basic

/-!
# The lock of the admin login

`AdminLoginGuardMiddleware` counts the failed logins of one client address, once for each
user name as it was typed and once for all of them, and refuses further attempts while a lock
stands.  `MultiIdentifierBackend` takes a name for an address or a phone number of an account,
so one account has several names, each with a counter of its own.  Under one name the lock
holds as long as it says.
-/

namespace SetadJang.Core

open SetadJang.Framework SetadJang.Authentication

/-! ## The backend -/

/-- `User.objects.get(Q(email__iexact=identifier) | Q(phone_number=identifier))`; several
accounts raise, as none does. -/
def getByIdentifier (users : List User) (identifier : String) : Option User :=
  match users.filter fun user => user.isActive &&
    (user.email.any (fun email => simpleUpper email == simpleUpper identifier) ||
      user.phoneNumber == some identifier) with
  | [user] => some user
  | _ => none

/-- `MultiIdentifierBackend.authenticate`, called with a user name. -/
def authenticate (checkPassword : User → String → Bool) (users : List User)
    (username password : String) : Option User :=
  if username = "" then none
  else
    match getByIdentifier users username with
    | some user => if checkPassword user password && user.isActive then some user else none
    | none => none

/-! ## The guard -/

/-- A counter key: its digest, under `admguard:pair:` or `admguard:ip:`. -/
inductive GuardKey
  | pair (digest : String)
  | ip (digest : String)
deriving DecidableEq, Repr

/-- The settings the guard reads. -/
structure GuardSettings where
  maxFailures : ℤ
  maxFailuresPerIp : ℤ
  lockoutSeconds : ℤ
deriving DecidableEq, Repr

namespace GuardSettings

/-- The three limits of `_limits`. -/
def pairThreshold (cfg : GuardSettings) : ℤ := max cfg.maxFailures 1

def ipThreshold (cfg : GuardSettings) : ℤ := max cfg.maxFailuresPerIp 1

def lockout (cfg : GuardSettings) : ℤ := min cfg.lockoutSeconds (24 * 60 * 60)

/-- `window_ttl`. -/
def windowTtl (cfg : GuardSettings) : ℤ := max cfg.lockout 60

end GuardSettings

/-- The guard's part of the cache: the counters, and under `:block` the instants at which the
locks end. -/
structure GuardCache where
  counters : GuardKey → Slot ℕ
  blocks : GuardKey → Slot ℤ

section guard

variable (digest : String → String) (ip : String) (cfg : GuardSettings)

/-- `_pair_key`. -/
def pairKey (username : String) : GuardKey :=
  .pair (digest ("pair|" ++ ip ++ "|" ++ pyLower (pyStrip username)))

/-- `_ip_key`. -/
def ipKey : GuardKey := .ip (digest ("ip|" ++ ip))

/-- What one lock leaves of the time, in whole seconds. -/
def remainingSeconds (now : ℤ) (block : Slot ℤ) : ℤ :=
  match block.get now with
  | some untilAt => if now < untilAt then (untilAt - now).tdiv (ticks 1) else 0
  | none => 0

/-- `lockout_seconds_left`. -/
def lockoutSecondsLeft (now : ℤ) (username : String) (c : GuardCache) : ℤ :=
  let keys := (if username = "" then [] else [pairKey digest ip username]) ++ [ipKey digest ip]
  keys.foldl (fun remaining key => max remaining (remainingSeconds now (c.blocks key))) 0

/-- The body of the loop of `record_admin_login_failure`. -/
def recordFailure (now : ℤ) (key : GuardKey) (threshold : ℤ) (c : GuardCache) : GuardCache :=
  let counted := (c.counters key).hit now cfg.windowTtl
  let c := { c with counters := Function.update c.counters key counted.2 }
  if threshold ≤ counted.1 then
    { c with
      blocks := Function.update c.blocks key
        (Slot.put now (cfg.windowTtl + 60) (now + ticks cfg.lockout)) }
  else c

/-- `record_admin_login_failure`. -/
def recordAdminLoginFailure (now : ℤ) (username : String) (c : GuardCache) : GuardCache :=
  recordFailure cfg now (ipKey digest ip) cfg.ipThreshold
    (recordFailure cfg now (pairKey digest ip username) cfg.pairThreshold c)

/-- Both deletions of a key in `reset_admin_login_counters`. -/
def deleteKey (key : GuardKey) (c : GuardCache) : GuardCache where
  counters := Function.update c.counters key none
  blocks := Function.update c.blocks key none

/-- `reset_admin_login_counters`. -/
def resetAdminLoginCounters (username : String) (c : GuardCache) : GuardCache :=
  let c := if username = "" then c else deleteKey (pairKey digest ip username) c
  deleteKey (ipKey digest ip) c

/-- A POST to the login page: when the guard looks at it, and, should it reach the view, what
the view answers and when. -/
structure LoginPost where
  username : String
  arrivedAt : ℤ
  answeredAt : ℤ
  status : ℕ
deriving DecidableEq, Repr

/-- The guard lets the request through to the view. -/
def Reaches (c : GuardCache) (post : LoginPost) : Prop :=
  ¬ 0 < lockoutSecondsLeft digest ip post.arrivedAt post.username c

instance (c : GuardCache) (post : LoginPost) : Decidable (Reaches digest ip c post) :=
  inferInstanceAs (Decidable (¬ _))

/-- `AdminLoginGuardMiddleware.__call__`, on such a POST. -/
def guardStep (c : GuardCache) (post : LoginPost) : GuardCache :=
  if Reaches digest ip c post then
    if post.status = 302 then resetAdminLoginCounters digest ip post.username c
    else if post.status = 200 then
      recordAdminLoginFailure digest ip cfg post.answeredAt post.username c
    else c
  else c

/-- A cache without entries of the guard. -/
def GuardCache.empty : GuardCache := ⟨fun _ => none, fun _ => none⟩

/-! ## Watching one name -/

/-- What an observer of the answers notes about one key: when the window of its failed attempts
began and how many there were, and when the last lock began that no login has ended since. -/
structure NameWatch where
  window : Option (ℤ × ℕ)
  lockedAt : Option ℤ
deriving DecidableEq, Repr

/-- The window of the failed attempts after one more. -/
def NameWatch.count (w : NameWatch) (now : ℤ) : ℤ × ℕ :=
  match w.window with
  | some (start, failures) =>
      if now < start + ticks cfg.windowTtl then (start, failures + 1) else (now, 1)
  | none => (now, 1)

/-- A failed attempt is answered; enough of them in one window begin a lock. -/
def NameWatch.fail (w : NameWatch) (now : ℤ) : NameWatch where
  window := some (w.count cfg now)
  lockedAt := if cfg.pairThreshold ≤ (w.count cfg now).2 then some now else w.lockedAt

/-- The guard and the observer of the key. -/
structure Guarded where
  cache : GuardCache
  watch : NameWatch

/-- One POST, seen by the observer of `key`. -/
def Guarded.step (key : GuardKey) (s : Guarded) (post : LoginPost) : Guarded where
  cache := guardStep digest ip cfg s.cache post
  watch :=
    if Reaches digest ip s.cache post ∧ pairKey digest ip post.username = key then
      if post.status = 302 ∧ post.username ≠ "" then ⟨none, none⟩
      else if post.status = 200 then s.watch.fail cfg post.answeredAt
      else s.watch
    else s.watch

def Guarded.start : Guarded := ⟨.empty, none, none⟩

/-- **The lock holds.** An attempt under the key does not reach the view until the lock has run
for all but its last second. -/
def LockHolds (key : GuardKey) (s : Guarded) (post : LoginPost) : Prop :=
  ∀ began, s.watch.lockedAt = some began → post.username ≠ "" →
    pairKey digest ip post.username = key →
    post.arrivedAt ≤ began + ticks (cfg.lockout - 1) → ¬ Reaches digest ip s.cache post

end guard

/-! ## What a request does to one key -/

section keys

variable {digest : String → String} {ip : String} {cfg : GuardSettings} {now threshold : ℤ}
  {key other : GuardKey} {c : GuardCache}

theorem counters_recordFailure_of_ne (hne : other ≠ key) :
    (recordFailure cfg now key threshold c).counters other = c.counters other := by
  unfold recordFailure
  dsimp only
  split <;> exact Function.update_of_ne hne _ _

theorem blocks_recordFailure_of_ne (hne : other ≠ key) :
    (recordFailure cfg now key threshold c).blocks other = c.blocks other := by
  unfold recordFailure
  dsimp only
  split
  · exact Function.update_of_ne hne _ _
  · rfl

theorem counters_recordFailure :
    (recordFailure cfg now key threshold c).counters key =
      ((c.counters key).hit now cfg.windowTtl).2 := by
  unfold recordFailure
  dsimp only
  split <;> exact Function.update_self _ _ _

theorem blocks_recordFailure :
    (recordFailure cfg now key threshold c).blocks key =
      if threshold ≤ ((c.counters key).hit now cfg.windowTtl).1 then
        Slot.put now (cfg.windowTtl + 60) (now + ticks cfg.lockout)
      else c.blocks key := by
  unfold recordFailure
  dsimp only
  split
  · exact Function.update_self _ _ _
  · rfl

/-- The counter of the address is no counter of a name. -/
theorem pairKey_ne_ipKey (username : String) : pairKey digest ip username ≠ ipKey digest ip := by
  simp [pairKey, ipKey]

theorem deleteKey_of_ne (hne : other ≠ key) :
    (deleteKey key c).counters other = c.counters other ∧
      (deleteKey key c).blocks other = c.blocks other :=
  ⟨Function.update_of_ne hne _ _, Function.update_of_ne hne _ _⟩

theorem deleteKey_self :
    (deleteKey key c).counters key = none ∧ (deleteKey key c).blocks key = none :=
  ⟨Function.update_self _ _ _, Function.update_self _ _ _⟩

end keys

/-! ## The observer is right -/

section watched

variable (digest : String → String) (ip : String) (cfg : GuardSettings)

/-- What the cache holds under the key, as the observer expects it: the window's count until
the window ends, and the lock that began last. -/
structure Watched (key : GuardKey) (s : Guarded) : Prop where
  counter : s.cache.counters key =
    s.watch.window.map fun window => ⟨window.2, window.1 + ticks cfg.windowTtl⟩
  locked : ∀ began, s.watch.lockedAt = some began →
    s.cache.blocks key = some ⟨began + ticks cfg.lockout, began + ticks (cfg.windowTtl + 60)⟩

variable {digest ip cfg} {username : String} {s : Guarded}

theorem Watched.hit_eq {key : GuardKey} (h : Watched cfg key s) (now : ℤ) :
    (s.cache.counters key).hit now cfg.windowTtl =
      ((s.watch.count cfg now).2,
        some ⟨(s.watch.count cfg now).2, (s.watch.count cfg now).1 + ticks cfg.windowTtl⟩) := by
  rw [h.counter]
  unfold NameWatch.count
  cases s.watch.window with
  | none => rfl
  | some window =>
      obtain ⟨start, failures⟩ := window
      by_cases hlive : now < start + ticks cfg.windowTtl
      · simp [Slot.hit, Slot.incr, hlive]
      · simp [Slot.hit, Slot.incr, Slot.put, hlive]

/-- A failed attempt under the name, as the guard and the observer record it. -/
theorem Watched.fail (h : Watched cfg (pairKey digest ip username) s) (now : ℤ)
    {name : String} (hname : pairKey digest ip name = pairKey digest ip username) :
    Watched cfg (pairKey digest ip username)
      ⟨recordAdminLoginFailure digest ip cfg now name s.cache, s.watch.fail cfg now⟩ := by
  have hne : pairKey digest ip username ≠ ipKey digest ip := pairKey_ne_ipKey username
  have hhit := h.hit_eq now
  unfold recordAdminLoginFailure
  rw [hname]
  constructor
  · rw [counters_recordFailure_of_ne hne, counters_recordFailure, hhit]
    rfl
  · intro began hbegan
    rw [blocks_recordFailure_of_ne hne, blocks_recordFailure, hhit]
    unfold NameWatch.fail at hbegan
    dsimp only at hbegan ⊢
    split_ifs at hbegan ⊢ with hmany
    · obtain rfl := Option.some.inj hbegan
      rfl
    · exact h.locked began hbegan

/-- A success under the name, or an answer without a name, as the guard and the observer take
it. -/
theorem Watched.success (h : Watched cfg (pairKey digest ip username) s) {name : String}
    (hname : pairKey digest ip name = pairKey digest ip username) :
    Watched cfg (pairKey digest ip username)
      ⟨resetAdminLoginCounters digest ip name s.cache,
        if name = "" then s.watch else ⟨none, none⟩⟩ := by
  have hne : pairKey digest ip username ≠ ipKey digest ip := pairKey_ne_ipKey username
  unfold resetAdminLoginCounters
  rw [hname]
  split_ifs with hblank
  · constructor
    · rw [(deleteKey_of_ne hne).1]
      exact h.counter
    · intro began hbegan
      rw [(deleteKey_of_ne hne).2]
      exact h.locked began hbegan
  · constructor
    · rw [(deleteKey_of_ne hne).1, deleteKey_self.1]
      rfl
    · intro began hbegan
      cases hbegan

/-- A cache with the same counter and lock of the name. -/
theorem Watched.same (h : Watched cfg (pairKey digest ip username) s) {c : GuardCache}
    (hcounter : c.counters (pairKey digest ip username) =
      s.cache.counters (pairKey digest ip username))
    (hblock : c.blocks (pairKey digest ip username) =
      s.cache.blocks (pairKey digest ip username)) :
    Watched cfg (pairKey digest ip username) ⟨c, s.watch⟩ where
  counter := hcounter.trans h.counter
  locked := fun began hbegan => hblock.trans (h.locked began hbegan)

/-- A request under another name leaves the keys of this one alone. -/
theorem guardStep_other {c : GuardCache} {post : LoginPost}
    (hother : pairKey digest ip username ≠ pairKey digest ip post.username) :
    (guardStep digest ip cfg c post).counters (pairKey digest ip username) =
        c.counters (pairKey digest ip username) ∧
      (guardStep digest ip cfg c post).blocks (pairKey digest ip username) =
        c.blocks (pairKey digest ip username) := by
  have hne : pairKey digest ip username ≠ ipKey digest ip := pairKey_ne_ipKey username
  unfold guardStep resetAdminLoginCounters recordAdminLoginFailure
  split_ifs
  · exact deleteKey_of_ne hne
  · rw [(deleteKey_of_ne hne).1, (deleteKey_of_ne hne).2]
    exact deleteKey_of_ne hother
  · rw [counters_recordFailure_of_ne hne, counters_recordFailure_of_ne hother,
      blocks_recordFailure_of_ne hne, blocks_recordFailure_of_ne hother]
    exact ⟨rfl, rfl⟩
  · exact ⟨rfl, rfl⟩
  · exact ⟨rfl, rfl⟩

/-- **Step lemma.** Every request keeps the observer right. -/
theorem watched_step (h : Watched cfg (pairKey digest ip username) s) (post : LoginPost) :
    Watched cfg (pairKey digest ip username)
      (s.step digest ip cfg (pairKey digest ip username) post) := by
  by_cases hkey : pairKey digest ip post.username = pairKey digest ip username
  · unfold Guarded.step guardStep
    by_cases hreach : Reaches digest ip s.cache post
    · simp only [hreach, hkey, and_self, if_true]
      by_cases hsuccess : post.status = 302
      · have hanswer := h.success hkey
        by_cases hblank : post.username = ""
        · rw [if_pos hblank] at hanswer
          simpa [hsuccess, hblank] using hanswer
        · rw [if_neg hblank] at hanswer
          simpa [hsuccess, hblank] using hanswer
      · simp only [hsuccess, false_and, if_false]
        split_ifs
        · exact h.fail post.answeredAt hkey
        · exact h
    · simp only [hreach, false_and, if_false]
      exact h
  · unfold Guarded.step
    simp only [hkey, and_false, if_false]
    exact h.same (guardStep_other (Ne.symm hkey)).1 (guardStep_other (Ne.symm hkey)).2

/-- The lock of the name is among those the guard looks at. -/
theorem remainingSeconds_le_left {now : ℤ} {name : String} {c : GuardCache} (hname : name ≠ "") :
    remainingSeconds now (c.blocks (pairKey digest ip name)) ≤
      lockoutSecondsLeft digest ip now name c := by
  simp [lockoutSecondsLeft, hname]

/-- A lock that has more than its last second left is seen. -/
theorem lockHolds_of_watched (h : Watched cfg (pairKey digest ip username) s) (post : LoginPost) :
    LockHolds digest ip cfg (pairKey digest ip username) s post := by
  intro began hbegan hname hkey hearly hreach
  have hblock := h.locked began hbegan
  apply hreach
  refine lt_of_lt_of_le ?_ (remainingSeconds_le_left hname)
  rw [hkey, hblock]
  have httl : cfg.lockout ≤ cfg.windowTtl := le_max_left _ _
  unfold ticks at hearly
  have hstands : post.arrivedAt < began + ticks (cfg.windowTtl + 60) := by
    unfold ticks
    omega
  have hleft : ticks 1 ≤ began + ticks cfg.lockout - post.arrivedAt := by
    unfold ticks
    omega
  unfold remainingSeconds
  rw [Slot.get_of_lt hstands]
  dsimp only
  have hahead : post.arrivedAt < began + ticks cfg.lockout := by
    unfold ticks at hleft ⊢
    omega
  rw [if_pos hahead, Int.tdiv_eq_ediv_of_nonneg (by omega)]
  exact (Int.le_ediv_iff_mul_le (by decide)).mpr (by omega)

end watched

theorem watched_start {cfg : GuardSettings} {key : GuardKey} : Watched cfg key .start where
  counter := rfl
  locked := by
    intro began hbegan
    cases hbegan

/-- **The lock of a name.** In every run of attempts from one address, once enough attempts
under one name have failed within one window of its counter, and as long as no login under the
name succeeds, no attempt under it reaches the view until the lock has run for all but its last
second. -/
theorem admin_lockout_per_name (digest : String → String) (ip : String) (cfg : GuardSettings)
    (username : String) (posts : List LoginPost) :
    Along (Guarded.step digest ip cfg (pairKey digest ip username))
      (LockHolds digest ip cfg (pairKey digest ip username)) .start posts := by
  refine (along_steps posts).mpr fun earlier post _ => ?_
  have hwatched : Watched cfg (pairKey digest ip username)
      (run (Guarded.step digest ip cfg (pairKey digest ip username)) .start earlier) :=
    invariant_run (I := Watched cfg (pairKey digest ip username))
      (fun s post h => watched_step h post) watched_start earlier
  exact lockHolds_of_watched hwatched post

/-! ## One account, two names -/

/-- An admin with an address and a phone number. -/
def sampleAccount : User :=
  ⟨1, some "admin@example.com", some "+989120000000", .email, true, true, "", "", "hash", true⟩

/-- The limits of the settings file. -/
def sampleSettings : GuardSettings := ⟨5, 20, 900⟩

/-- Five wrong passwords, one a second, with the address and the phone number in turn. -/
def alternatingPosts : List LoginPost :=
  [⟨"admin@example.com", ticks 0, ticks 0, 200⟩, ⟨"+989120000000", ticks 1, ticks 1, 200⟩,
    ⟨"admin@example.com", ticks 2, ticks 2, 200⟩, ⟨"+989120000000", ticks 3, ticks 3, 200⟩,
    ⟨"admin@example.com", ticks 4, ticks 4, 200⟩]

/-- All five name the one account, are refused by the backend and reach the view; so does a
sixth, a second later. -/
theorem sixth_attempt_reaches_view :
    (∀ post ∈ alternatingPosts ++ [⟨"+989120000000", ticks 5, ticks 5, 200⟩],
      getByIdentifier [sampleAccount] post.username = some sampleAccount ∧
      authenticate (fun _ password => password == "secret") [sampleAccount] post.username "guess" =
        none ∧
      post.status = 200) ∧
    alternatingPosts.length = 5 ∧
    Along (guardStep id "203.0.113.7" sampleSettings) (Reaches id "203.0.113.7") .empty
      (alternatingPosts ++ [⟨"+989120000000", ticks 5, ticks 5, 200⟩]) := by
  decide +kernel

end SetadJang.Core
