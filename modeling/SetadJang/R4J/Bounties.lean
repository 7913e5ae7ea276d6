import Mathlib.Data.List.MinMax
import SetadJang.Framework.Rows
import SetadJang.Framework.Runs

/-!
# R4J: bounties

The bounty part of `apps/r4j/services.py`.  A user sets a bounty on a criminal or asks for
its cancellation, an admin approves or rejects the request.  Every service is a transaction:
it locks the criminal, writes one bounty, recomputes the two counters of the criminal from a
query and commits.  The cancel services check the status of an instance that their caller
loaded earlier; the row itself they lock and write without looking at its status again.

A call takes one step at a time and can be rolled back between any two.  Its writes are
its own until it commits; a lock that another call holds is waited for.
-/

namespace SetadJang.R4J

open SetadJang.Framework

inductive BountyStatus where
  | active
  | cancelRequested
  | canceled
deriving DecidableEq, Repr

/-- `BOUNTY_ACTIVE_STATUSES`. -/
def BountyStatus.isOpen : BountyStatus → Bool
  | .active | .cancelRequested => true
  | .canceled => false

structure Bounty where
  criminal : ℕ
  user : ℕ
  amountToman : ℕ
  status : BountyStatus
  cancelRequestedAt : Option ℕ
  canceledAt : Option ℕ
  adminNote : String
  createdAt : ℕ
deriving DecidableEq, Repr

/-- A criminal, on the fields that bounties write. -/
structure Criminal where
  totalBountyToman : ℕ
  bountiesCount : ℕ
deriving DecidableEq, Repr

structure BountyStore where
  criminals : List Criminal
  bounties : List Bounty
deriving DecidableEq, Repr

/-- What the services raise, with its text, and the errors of the database. -/
inductive BountyError where
  | invalidBountyAmount (message : String)
  | bountyUpdateNotAllowed (message : String)
  | bountyNotCancelable (message : String)
  | bountyNotInCancelRequested (message : String)
  | doesNotExist
  | integrityError
  | dataError
  | rolledBack
deriving DecidableEq, Repr

/-! ## Amounts -/

def bountyMinToman : ℤ := 50000

/-- The decimal digits in groups of three, `{n:,}`. -/
def groupDigits (n : ℤ) : String :=
  let digits := (toString n.natAbs).toList
  let grouped := digits.zipIdx.flatMap fun (c, i) =>
    if i ≠ 0 ∧ (digits.length - i) % 3 = 0 then [',', c] else [c]
  (if n < 0 then "-" else "") ++ String.ofList grouped

/-- `_validate_bounty_amount_or_raise`. -/
def validateBountyAmountOrRaise (amountToman : ℤ) : Except BountyError Unit :=
  if amountToman < bountyMinToman then
    .error (.invalidBountyAmount ("حداقل مبلغ جایزه " ++ groupDigits bountyMinToman ++
      " تومان است. مبلغ وارد شده: " ++ groupDigits amountToman ++ " تومان."))
  else .ok ()

/-- The largest value of a `BigIntegerField`. -/
def bigIntegerMax : ℕ := 2 ^ 63 - 1

/-- The largest value of a `PositiveIntegerField`. -/
def positiveIntegerMax : ℕ := 2 ^ 31 - 1

/-! ## Writes -/

/-- The `update_fields` of a service on one bounty. -/
inductive BountyChange where
  | amount (amountToman : ℕ)
  | requestCancel (now : ℕ)
  | approveCancel (now : ℕ) (adminNote : String)
  | rejectCancel (adminNote : String)
deriving DecidableEq, Repr

def BountyChange.apply (row : Bounty) : BountyChange → Bounty
  | .amount amountToman => { row with amountToman := amountToman, adminNote := "" }
  | .requestCancel now => { row with status := .cancelRequested, cancelRequestedAt := some now }
  | .approveCancel now adminNote =>
      { row with status := .canceled, canceledAt := some now, adminNote := adminNote }
  | .rejectCancel adminNote =>
      { row with status := .active, cancelRequestedAt := none, adminNote := adminNote }

inductive BountyWrite where
  | create (row : Bounty)
  | update (k : ℕ) (change : BountyChange)
deriving DecidableEq, Repr

def BountyWrite.apply (rows : List Bounty) : BountyWrite → List Bounty
  | .create row => rows ++ [row]
  | .update k change => rows.modify k change.apply

/-- The bounties of a criminal that count. -/
def countsFor (c : ℕ) (row : Bounty) : Bool := row.criminal == c && row.status.isOpen

/-- The aggregates of `_sync_criminal_bounty_counters`. -/
def bountyCounters (rows : List Bounty) (c : ℕ) : Criminal where
  totalBountyToman := sumWhere (countsFor c) Bounty.amountToman rows
  bountiesCount := sumWhere (countsFor c) (fun _ => 1) rows

/-! ## The services -/

/-- What a call is to write once it holds its locks. -/
inductive BountyTask where
  | set (user amountToman : ℕ)
  | requestCancel (k : ℕ)
  | approveCancel (k : ℕ) (adminNote : String)
  | rejectCancel (k : ℕ) (adminNote : String)
deriving DecidableEq, Repr

/-- The newest bounty of the user for the criminal that is not canceled. -/
def existingBounty (rows : List Bounty) (c user : ℕ) : Option (Bounty × ℕ) :=
  (rows.zipIdx.filter fun row =>
    row.1.criminal == c && row.1.user == user && row.1.status.isOpen).argmax fun row =>
      row.1.createdAt

/-- The constraint `uniq_r4j_active_bounty_per_user_criminal`. -/
def activeTaken (rows : List Bounty) (row : Bounty) (k : ℕ) : Bool :=
  rows.zipIdx.any fun other =>
    other.2 != k && other.1.criminal == row.criminal && other.1.user == row.user &&
      other.1.status == .active

/-- The lookup and the write of `set_or_update_bounty`. -/
def setOrUpdateBounty (rows : List Bounty) (c user amountToman now : ℕ) :
    Except BountyError BountyWrite :=
  match existingBounty rows c user with
  | some (existing, k) =>
      if existing.status = .cancelRequested then
        .error (.bountyUpdateNotAllowed ("درخواست لغو این جایزه در حال بررسی است و تا تعیین تکلیف ادمین " ++
          "امکان ویرایش یا ثبت مجدد آن وجود ندارد."))
      else if bigIntegerMax < amountToman then .error .dataError
      else .ok (.update k (.amount amountToman))
  | none =>
      let row : Bounty := ⟨c, user, amountToman, .active, none, none, "", now⟩
      if bigIntegerMax < amountToman then .error .dataError
      else if activeTaken rows row rows.length then .error .integrityError
      else .ok (.create row)

/-- The write of a call, over the rows it sees. -/
def BountyTask.write (rows : List Bounty) (c now : ℕ) : BountyTask → Except BountyError BountyWrite
  | .set user amountToman => setOrUpdateBounty rows c user amountToman now
  | .requestCancel k =>
      match rows[k]? with
      | none => .error .doesNotExist
      | some _ => .ok (.update k (.requestCancel now))
  | .approveCancel k adminNote =>
      match rows[k]? with
      | none => .error .doesNotExist
      | some _ => .ok (.update k (.approveCancel now adminNote))
  | .rejectCancel k adminNote =>
      match rows[k]? with
      | none => .error .doesNotExist
      | some row =>
          if activeTaken rows row k then .error .integrityError
          else .ok (.update k (.rejectCancel adminNote))

/-! ## Calls in flight -/

inductive BountyPhase where
  | begun
  | locked
  | written (write : BountyWrite)
  | synced (write : BountyWrite) (counters : Criminal)
  | ended (result : Except BountyError Unit)

structure BountyCall where
  criminal : ℕ
  task : BountyTask
  phase : BountyPhase

/-- The call holds the lock of its criminal. -/
def BountyCall.holds (call : BountyCall) : Bool :=
  match call.phase with
  | .begun | .ended _ => false
  | .locked | .written _ | .synced _ _ => true

/-- The database, the instances that callers have loaded, and the calls. -/
structure BountySys where
  db : BountyStore
  instances : List (ℕ × Bounty)
  calls : List BountyCall

/-- A request; a cancel service gets an instance that was loaded before. -/
inductive BountyRequest where
  | setOrUpdateBounty (criminal user : ℕ) (amountToman : ℤ)
  | requestBountyCancel (j : ℕ)
  | approveBountyCancel (j : ℕ) (adminNote : String)
  | rejectBountyCancel (j : ℕ) (adminNote : String)
deriving DecidableEq, Repr

inductive BountyAct where
  | load (k : ℕ)
  | call (request : BountyRequest)
  | advance (i now : ℕ)
  | rollback (i : ℕ)
deriving DecidableEq, Repr

namespace BountySys

def loaded (s : BountySys) (j : ℕ) : Except BountyError (ℕ × Bounty) :=
  match s.instances[j]? with
  | none => .error .doesNotExist
  | some row => .ok row

/-- The guard of a cancel service: it looks at the instance, not at the row. -/
def guardInstance (s : BountySys) (j : ℕ) (status : BountyStatus) (error : BountyError)
    (task : ℕ → BountyTask) : Except BountyError BountyCall := do
  let (k, bounty) ← s.loaded j
  if bounty.status ≠ status then .error error
  else return ⟨bounty.criminal, task k, .begun⟩

/-- What a service checks before it locks anything. -/
def accept (s : BountySys) : BountyRequest → Except BountyError BountyCall
  | .setOrUpdateBounty criminal user amountToman => do
      validateBountyAmountOrRaise amountToman
      return ⟨criminal, .set user amountToman.toNat, .begun⟩
  | .requestBountyCancel j =>
      s.guardInstance j .active
        (.bountyNotCancelable "فقط جایزه‌های فعال قابل درخواست لغو هستند.") .requestCancel
  | .approveBountyCancel j adminNote =>
      s.guardInstance j .cancelRequested
        (.bountyNotInCancelRequested "این جایزه در وضعیت درخواست لغو نیست.")
        fun k => .approveCancel k adminNote
  | .rejectBountyCancel j adminNote =>
      s.guardInstance j .cancelRequested
        (.bountyNotInCancelRequested "این جایزه در وضعیت درخواست لغو نیست.")
        fun k => .rejectCancel k adminNote

/-- Some call holds the lock of the criminal. -/
def locked (s : BountySys) (c : ℕ) : Bool :=
  s.calls.any fun call => call.holds && call.criminal == c

def setPhase (s : BountySys) (i : ℕ) (call : BountyCall) (phase : BountyPhase) : BountySys :=
  { s with calls := s.calls.set i { call with phase := phase } }

/-- The commit: the write and the counters become visible together. -/
def commit (s : BountySys) (c : ℕ) (write : BountyWrite) (counters : Criminal) : BountySys :=
  { s with
    db :=
      { criminals := s.db.criminals.modify c fun _ => counters
        bounties := write.apply s.db.bounties } }

/-- The next step of a call.  It sees what is committed and its own write. -/
def advance (s : BountySys) (i : ℕ) (call : BountyCall) (now : ℕ) : BountySys :=
  match call.phase with
  | .begun =>
      if s.locked call.criminal then s
      else if s.db.criminals.length ≤ call.criminal then
        s.setPhase i call (.ended (.error .doesNotExist))
      else s.setPhase i call .locked
  | .locked =>
      match call.task.write s.db.bounties call.criminal now with
      | .error error => s.setPhase i call (.ended (.error error))
      | .ok write => s.setPhase i call (.written write)
  | .written write =>
      let counters := bountyCounters (write.apply s.db.bounties) call.criminal
      if bigIntegerMax < counters.totalBountyToman ∨ positiveIntegerMax < counters.bountiesCount then
        s.setPhase i call (.ended (.error .dataError))
      else s.setPhase i call (.synced write counters)
  | .synced write counters =>
      (s.commit call.criminal write counters).setPhase i call (.ended (.ok ()))
  | .ended _ => s

def step (s : BountySys) : BountyAct → BountySys
  | .load k =>
      match s.db.bounties[k]? with
      | none => s
      | some row => { s with instances := s.instances ++ [(k, row)] }
  | .call request =>
      match s.accept request with
      | .error _ => s
      | .ok call => { s with calls := s.calls ++ [call] }
  | .advance i now =>
      match s.calls[i]? with
      | none => s
      | some call => s.advance i call now
  | .rollback i =>
      match s.calls[i]? with
      | none => s
      | some call =>
          match call.phase with
          | .ended _ => s
          | _ => s.setPhase i call (.ended (.error .rolledBack))

/-- `n` criminals without bounties. -/
def start (n : ℕ) : BountySys := ⟨⟨List.replicate n ⟨0, 0⟩, []⟩, [], []⟩

end BountySys

end SetadJang.R4J
