import SetadJang.Core.Invalidation
import SetadJang.Core.NamespaceVersions
import SetadJang.Framework.Leases

/-!
# Cached public payloads

A public view reads the version of its namespace once and asks for the payload under the key of
that version.  A payload past its soft lifetime is built anew by whoever takes the lock, and is
served as it is to everybody else; where there is none, one call builds it and the others wait for
it, for two seconds.  Every access to the cache, every reading of the clock and the query of the
database is a step of its own, and between two of them other calls go on.
-/

namespace SetadJang.Core

open SetadJang.Framework

/-! ## Lifetimes and envelopes -/

/-- The lifetimes of a policy, in seconds. -/
structure SwrLifetimes where
  softTtl : ℕ
  hardTtl : ℕ
  lockTtl : ℕ
  soft_le : softTtl ≤ hardTtl
  hard_pos : 0 < hardTtl
  lock_pos : 0 < lockTtl

def defaultLifetimes : SwrLifetimes := ⟨60, 300, 15, by decide, by decide, by decide⟩

/-- `soft_ttl_seconds`, `hard_ttl_seconds` and `lock_ttl_seconds`. -/
def CachePolicy.lifetimes (policy : CachePolicy) : SwrLifetimes :=
  if policy.domain = "lms" then ⟨120, 600, 15, by decide, by decide, by decide⟩
  else if policy.domain = "public_reports" then ⟨300, 900, 15, by decide, by decide, by decide⟩
  else defaultLifetimes

/-- The clock counts milliseconds. -/
def milliseconds (seconds : ℕ) : ℕ := 1000 * seconds

/-- `_SWR_COLD_WAIT_SECONDS`. -/
def swrColdWait : ℕ := milliseconds 2

structure SwrCacheEnvelope (V : Type) where
  value : V
  createdAt : ℕ
  softExpiresAt : ℕ
  hardExpiresAt : ℕ
deriving DecidableEq, Repr

namespace SwrCacheEnvelope

variable {V : Type}

def isFresh (envelope : SwrCacheEnvelope V) (now : ℕ) : Bool := now < envelope.softExpiresAt

def isUsable (envelope : SwrCacheEnvelope V) (now : ℕ) : Bool := now < envelope.hardExpiresAt

/-- `_make_swr_envelope`. -/
def make (ttl : SwrLifetimes) (value : V) (now : ℕ) : SwrCacheEnvelope V :=
  ⟨value, now, now + milliseconds ttl.softTtl, now + milliseconds ttl.hardTtl⟩

end SwrCacheEnvelope

/-! ## What calls share -/

/-- The clock, the states of the tables since the start (the present one is the last), the number
of the newest state that was announced, and the cache: the version of the namespace, the payloads
with the ends of their timeouts, and the locks with theirs. -/
structure PayloadCache (D V : Type) where
  clock : ℕ
  history : List D
  announced : ℕ
  version : Option ℕ
  payloads : String → Option (SwrCacheEnvelope V × ℕ)
  locks : String → Option ℕ

namespace PayloadCache

variable {D V : Type}

/-- `cache.get` of a payload. -/
def get (s : PayloadCache D V) (key : String) : Option (SwrCacheEnvelope V) :=
  match s.payloads key with
  | some (envelope, stop) => if s.clock < stop then some envelope else none
  | none => none

/-- `cache.set` of a payload. -/
def set (s : PayloadCache D V) (key : String) (envelope : SwrCacheEnvelope V) (timeout : ℕ) :
    PayloadCache D V :=
  { s with payloads := Function.update s.payloads key (some (envelope, s.clock + timeout)) }

/-- The end of a lock that is taken now. -/
def lockEnd (s : PayloadCache D V) (ttl : SwrLifetimes) : ℕ := s.clock + milliseconds ttl.lockTtl

/-- `cache.add` of a lock that is not there. -/
def addLock (s : PayloadCache D V) (key : String) (stop : ℕ) : PayloadCache D V :=
  { s with locks := Function.update s.locks key (some stop) }

/-- `cache.delete` of a lock, whoever has taken it. -/
def deleteLock (s : PayloadCache D V) (key : String) : PayloadCache D V :=
  { s with locks := Function.update s.locks key none }

/-- The factory queries the tables; it raises where the view does, and when the database fails. -/
def runFactory (s : PayloadCache D V) (factory : D → Option V) (dbError : Bool) : Option V :=
  if dbError then none else s.history.getLast?.bind factory

/-- `get_namespace_version`, the value: a missing version is seeded from the clock. -/
def namespaceVersion (s : PayloadCache D V) : ℕ := s.version.getD s.clock

/-- `cache_delete_namespace`, after the change that state `n` is the result of. -/
def announce (s : PayloadCache D V) (n : ℕ) : PayloadCache D V :=
  { s with
    version := some (s.version.elim s.clock (· + 1))
    announced := max s.announced n }

end PayloadCache

/-! ## A call of cache_get_or_set_swr -/

/-- The lock that a call has taken, with its end, and the payload it may still serve. -/
inductive Hold (V : Type) where
  | refresh (old : SwrCacheEnvelope V) (stop : ℕ)
  | cold (stop : ℕ)
deriving DecidableEq, Repr

def Hold.stop {V : Type} : Hold V → ℕ
  | .refresh _ stop => stop
  | .cold stop => stop

/-- Where a call stands. -/
inductive SwrPhase (V : Type) where
  | entering
  | looking (now : ℕ)
  | stale (envelope : SwrCacheEnvelope V)
  | cold
  | building (hold : Option (Hold V))
  | givingUp (hold : Hold V)
  | built (hold : Option (Hold V)) (value : V)
  | storing (hold : Option (Hold V)) (envelope : SwrCacheEnvelope V)
  | unlocking (hold : Hold V) (envelope : SwrCacheEnvelope V)
  | waiting (deadline : ℕ)
  | polling (deadline : ℕ)
  | polled (deadline : ℕ) (envelope : SwrCacheEnvelope V)
  | answered (envelope : SwrCacheEnvelope V)
  | raised
deriving DecidableEq, Repr

section

variable {D V : Type}

/-- `cache_get_or_set_swr`, one step. -/
def SwrPhase.next (ttl : SwrLifetimes) (factory : D → Option V) (key : String) (dbError : Bool)
    (s : PayloadCache D V) : SwrPhase V → PayloadCache D V × SwrPhase V
  | .entering => (s, .looking s.clock)
  | .looking now =>
      match s.get key with
      | some envelope =>
          if envelope.isFresh now then (s, .answered envelope)
          else if envelope.isUsable now then (s, .stale envelope)
          else (s, .cold)
      | none => (s, .cold)
  | .stale envelope =>
      if Live (s.locks key) s.clock then (s, .answered envelope)
      else (s.addLock key (s.lockEnd ttl), .building (some (.refresh envelope (s.lockEnd ttl))))
  | .cold =>
      if Live (s.locks key) s.clock then (s, .waiting (s.clock + swrColdWait))
      else (s.addLock key (s.lockEnd ttl), .building (some (.cold (s.lockEnd ttl))))
  | .building hold =>
      match s.runFactory factory dbError, hold with
      | some value, hold => (s, .built hold value)
      | none, some hold => (s, .givingUp hold)
      | none, none => (s, .raised)
  -- the lock is deleted, then the stale payload served or the error raised
  | .givingUp (.refresh old _) => (s.deleteLock key, .answered old)
  | .givingUp (.cold _) => (s.deleteLock key, .raised)
  | .built hold value => (s, .storing hold (.make ttl value s.clock))
  | .storing hold envelope =>
      (s.set key envelope (milliseconds ttl.hardTtl),
        hold.elim (.answered envelope) fun hold => .unlocking hold envelope)
  | .unlocking _ envelope => (s.deleteLock key, .answered envelope)
  -- `_await_swr_value`
  | .waiting deadline =>
      if s.clock < deadline then (s, .polling deadline) else (s, .building none)
  | .polling deadline =>
      match s.get key with
      | some envelope => (s, .polled deadline envelope)
      | none => (s, .waiting deadline)
  | .polled deadline envelope =>
      if envelope.isUsable s.clock then (s, .answered envelope) else (s, .waiting deadline)
  | .answered envelope => (s, .answered envelope)
  | .raised => (s, .raised)

/-! ## Calls of cached_public_payload -/

/-- The parts of a key; none holds the separator. -/
structure CacheParts where
  parts : List String
  nonempty : parts ≠ []
  plain : ∀ part ∈ parts, ':' ∉ part.toList

/-- A call; `floor` is the newest state that was announced before it. -/
structure PublicCall where
  parts : CacheParts
  startedAt : ℕ
  floor : ℕ

inductive CallPhase (V : Type) where
  | opened
  | inside (version : ℕ) (phase : SwrPhase V)

structure PublicWorker (V : Type) where
  call : PublicCall
  phase : CallPhase V

structure PayloadSys (D V : Type) where
  cache : PayloadCache D V
  workers : List (PublicWorker V)

inductive PayloadAct (D : Type) where
  | tick (ms : ℕ)
  /-- A transaction commits; `d` is the new state of the tables. -/
  | commit (d : D)
  | announce (n : ℕ)
  | openCall (parts : CacheParts)
  | advance (i : ℕ) (dbError : Bool)
  /-- The cache evicts a key. -/
  | dropVersion
  | dropPayload (key : String)
  | dropLock (key : String)

/-- A namespace with the lifetimes of its domain and what its views compute. -/
structure PublicViews (D V : Type) where
  digest : String → String
  ns : String
  ttl : SwrLifetimes
  build : CacheParts → D → Option V

namespace PublicViews

variable (views : PublicViews D V)

/-- The key of a payload under a version. -/
def key (version : ℕ) (parts : CacheParts) : String :=
  payloadKey views.digest views.ns version parts.parts

/-- `cached_public_payload`, one step. -/
def next (dbError : Bool) (s : PayloadCache D V) (worker : PublicWorker V) :
    PayloadCache D V × PublicWorker V :=
  match worker.phase with
  | .opened =>
      ({ s with version := some s.namespaceVersion },
        { worker with phase := .inside s.namespaceVersion .entering })
  | .inside version phase =>
      let after := phase.next views.ttl (views.build worker.call.parts)
        (views.key version worker.call.parts) dbError s
      (after.1, { worker with phase := .inside version after.2 })

def step (s : PayloadSys D V) : PayloadAct D → PayloadSys D V
  | .tick ms => { s with cache := { s.cache with clock := s.cache.clock + ms } }
  | .commit d => { s with cache := { s.cache with history := s.cache.history ++ [d] } }
  | .announce n => if n < s.cache.history.length then { s with cache := s.cache.announce n } else s
  | .openCall parts =>
      { s with workers := s.workers ++ [⟨⟨parts, s.cache.clock, s.cache.announced⟩, .opened⟩] }
  | .advance i dbError =>
      match s.workers[i]? with
      | some worker =>
          let after := views.next dbError s.cache worker
          { cache := after.1, workers := s.workers.set i after.2 }
      | none => s
  | .dropVersion => { s with cache := { s.cache with version := none } }
  | .dropPayload key =>
      { s with cache := { s.cache with payloads := Function.update s.cache.payloads key none } }
  | .dropLock key => { s with cache := s.cache.deleteLock key }

end PublicViews

/-- Nothing is cached but the version. -/
def payloadStart (d : D) (version clock : ℕ) : PayloadSys D V :=
  ⟨⟨clock, [d], 0, some version, fun _ => none, fun _ => none⟩, []⟩

/-- What a call is answered with. -/
def PublicWorker.answer (worker : PublicWorker V) : Option (SwrCacheEnvelope V) :=
  match worker.phase with
  | .inside _ (.answered envelope) => some envelope
  | _ => none

end

end SetadJang.Core
