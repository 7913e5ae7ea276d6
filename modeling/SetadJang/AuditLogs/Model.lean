import Mathlib.Data.List.MinMax
import SetadJang.Framework.HashChain

/-!
# Audit logs

Every audit record is stamped with its position in a hash chain.  The stamp is
computed from the head of the chain as the writer sees it; the verifier walks
over the whole table in the order of the positions and recomputes every hash.

`J` is the type of the JSON values in `changes` and `extra_data`, and `digest`
stands for SHA-256 in hexadecimal over the canonical JSON text of the payload.
-/

namespace SetadJang.AuditLogs

open SetadJang.Framework

def genesisHash : String := String.ofList (List.replicate 64 '0')

def genesisChainIndex : ℕ := 1

def chainInsertMaxAttempts : ℕ := 8

/-- The fields of a record that enter its hash. -/
structure AuditEvent (J : Type) where
  hashVersion : ℕ
  userId : Option ℕ
  action : String
  ipAddress : Option String
  requestId : Option String
  userAgent : String
  path : String
  method : String
  resourceType : String
  resourceId : Option String
  changes : Option J
  extraData : Option J
deriving DecidableEq, Repr

/-- The payload of `compute_event_hash`. -/
structure HashPayload (J : Type) where
  previousHash : String
  event : AuditEvent J
deriving DecidableEq, Repr

/-- What `_link_to_chain_head` computes. -/
structure Stamp where
  chainIndex : ℕ
  previousHash : String
  eventHash : String
deriving DecidableEq, Repr

structure AuditLog (J : Type) where
  pk : ℕ
  event : AuditEvent J
  stamp : Stamp
  createdAt : ℕ
deriving DecidableEq, Repr

variable {J : Type} (digest : HashPayload J → String)

def computeEventHash (event : AuditEvent J) (previousHash : String) : String :=
  digest ⟨previousHash, event⟩

/-- `_read_chain_head` over the rows that the reader sees. -/
def readChainHead (visible : List (AuditLog J)) : Option (AuditLog J) :=
  visible.argmax fun row => row.stamp.chainIndex

def linkToChainHead (visible : List (AuditLog J)) (event : AuditEvent J) : Stamp :=
  match readChainHead visible with
  | none =>
      { chainIndex := genesisChainIndex
        previousHash := genesisHash
        eventHash := computeEventHash digest event genesisHash }
  | some head =>
      { chainIndex := head.stamp.chainIndex + 1
        previousHash := head.stamp.eventHash
        eventHash := computeEventHash digest event head.stamp.eventHash }

/-! ## Verification -/

structure AuditChainVerificationError where
  auditLogId : ℕ
  reason : String
  checked : ℕ
deriving DecidableEq, Repr

structure AuditChainVerificationResult where
  verified : Bool
  checked : ℕ
  headHash : String
  verifiedAt : ℕ
  hashVersion : ℕ
deriving DecidableEq, Repr

/-- The loop of `verify_audit_chain_integrity`. -/
def verifyRows (now : ℕ) : String → ℕ → ℕ → List (AuditLog J) →
    Except AuditChainVerificationError AuditChainVerificationResult
  | previousHash, checked, hashVersion, [] =>
      .ok ⟨true, checked, previousHash, now, hashVersion⟩
  | previousHash, checked, _, audit :: rest =>
      if audit.stamp.previousHash ≠ previousHash then
        .error ⟨audit.pk, "previous_hash mismatch", checked⟩
      else if audit.stamp.eventHash ≠ computeEventHash digest audit.event previousHash then
        .error ⟨audit.pk, "event_hash mismatch", checked⟩
      else verifyRows now audit.stamp.eventHash (checked + 1) audit.event.hashVersion rest

/-- `order_by("chain_index", "id")`. -/
def chainOrder (a b : AuditLog J) : Bool :=
  a.stamp.chainIndex < b.stamp.chainIndex ||
    (a.stamp.chainIndex == b.stamp.chainIndex && a.pk ≤ b.pk)

def verifyAuditChainIntegrity (now : ℕ) (table : List (AuditLog J)) :
    Except AuditChainVerificationError AuditChainVerificationResult :=
  verifyRows digest now genesisHash 0 1 (table.mergeSort chainOrder)

/-! ## The table as a chain -/

/-- How audit records are chained. -/
def chaining : Chaining (AuditLog J) String where
  index := fun row => row.stamp.chainIndex
  previous := fun row => row.stamp.previousHash
  digest := fun row => row.stamp.eventHash
  recompute := fun row previousHash => computeEventHash digest row.event previousHash

/-- The rows, in this order, are the whole chain from the genesis on. -/
def ChainIntact (rows : List (AuditLog J)) : Prop :=
  (chaining digest).Linked genesisChainIndex genesisHash rows

variable {digest} {rows : List (AuditLog J)}

/-- The head of an intact chain is its last row. -/
theorem readChainHead_intact {row : AuditLog J} (h : ChainIntact digest (rows ++ [row])) :
    readChainHead (rows ++ [row]) = some row := by
  induction rows using List.reverseRecOn generalizing row with
  | nil => rfl
  | append_singleton rows last ih =>
      obtain ⟨hrows, hindex, -, -⟩ := ((chaining digest).linked_snoc _ _ _ _).mp h
      have hlast := (((chaining digest).linked_snoc _ _ _ _).mp hrows).2.1
      unfold readChainHead at ih ⊢
      rw [List.argmax_concat, ih hrows]
      have hlt : last.stamp.chainIndex < row.stamp.chainIndex := by
        simp only [chaining, List.length_append, List.length_singleton] at hindex hlast
        omega
      simp [hlt]

/-- The stamp computed from an intact chain extends it. -/
theorem linkToChainHead_intact (h : ChainIntact digest rows) (event : AuditEvent J)
    (pk createdAt : ℕ) :
    ChainIntact digest (rows ++ [⟨pk, event, linkToChainHead digest rows event, createdAt⟩]) := by
  refine ((chaining digest).linked_snoc _ _ _ _).mpr ⟨h, ?_⟩
  rcases List.eq_nil_or_concat rows with rfl | ⟨front, last, rfl⟩
  · exact ⟨rfl, rfl, rfl⟩
  · rw [List.concat_eq_append] at h ⊢
    have hindex := (((chaining digest).linked_snoc _ _ _ _).mp h).2.1
    simp only [linkToChainHead, readChainHead_intact h, Chaining.head_snoc]
    refine ⟨?_, rfl, rfl⟩
    simp only [chaining, List.length_append, List.length_singleton] at hindex ⊢
    omega

theorem verifyRows_linked (now : ℕ) {i : ℕ} {previousHash : String}
    (h : (chaining digest).Linked i previousHash rows) (checked hashVersion : ℕ) :
    ∃ result, verifyRows digest now previousHash checked hashVersion rows = .ok result ∧
      result.checked = checked + rows.length ∧
      result.headHash = (chaining digest).head previousHash rows := by
  induction rows generalizing i previousHash checked hashVersion with
  | nil => exact ⟨_, rfl, rfl, rfl⟩
  | cons row rows ih =>
      obtain ⟨-, hprevious, hevent, hrest⟩ := h
      have hprevious' : row.stamp.previousHash = previousHash := hprevious
      have hevent' : row.stamp.eventHash = computeEventHash digest row.event previousHash := hevent
      obtain ⟨result, hok, hchecked, hhead⟩ :=
        ih hrest (checked + 1) row.event.hashVersion
      refine ⟨result, ?_, ?_, hhead⟩
      · rw [verifyRows, if_neg (by simpa using hprevious'), if_neg (by simpa using hevent')]
        exact hok
      · rw [hchecked, List.length_cons]
        omega

/-- What the verifier looks at: the payload of a row and its hash. -/
def AuditLog.entry (row : AuditLog J) : HashPayload J × String :=
  (⟨row.stamp.previousHash, row.event⟩, row.stamp.eventHash)

/-- How entries are chained; their positions play no part. -/
def entryChaining (digest : HashPayload J → String) : Chaining (HashPayload J × String) String where
  index := fun _ => 0
  previous := fun entry => entry.1.previousHash
  digest := Prod.snd
  recompute := fun entry previousHash => computeEventHash digest entry.1.event previousHash

/-- The loop accepts exactly the rows that continue the chain. -/
theorem verifyRows_ok_iff (now : ℕ) {previousHash : String} {checked hashVersion : ℕ} :
    (∃ result, verifyRows digest now previousHash checked hashVersion rows = .ok result) ↔
      (entryChaining digest).Continues previousHash (rows.map AuditLog.entry) := by
  induction rows generalizing previousHash checked hashVersion with
  | nil => exact iff_of_true ⟨_, rfl⟩ trivial
  | cons row rows ih =>
      have hcontinues : (entryChaining digest).Continues previousHash
            ((row :: rows).map AuditLog.entry) ↔
          row.stamp.previousHash = previousHash ∧
            row.stamp.eventHash = computeEventHash digest row.event previousHash ∧
            (entryChaining digest).Continues row.stamp.eventHash (rows.map AuditLog.entry) := Iff.rfl
      rw [hcontinues]
      by_cases hprevious : row.stamp.previousHash = previousHash
      · by_cases hevent : row.stamp.eventHash = computeEventHash digest row.event previousHash
        · rw [verifyRows, if_neg (by simpa using hprevious), if_neg (by simpa using hevent), ih,
            and_iff_right hprevious, and_iff_right hevent]
        · rw [verifyRows, if_neg (by simpa using hprevious), if_pos hevent]
          simp [hevent]
      · rw [verifyRows, if_pos hprevious]
        simp [hprevious]

theorem verifyRows_headHash {now : ℕ} {previousHash : String} {checked hashVersion : ℕ}
    {result : AuditChainVerificationResult}
    (h : verifyRows digest now previousHash checked hashVersion rows = .ok result) :
    result.headHash = (entryChaining digest).head previousHash (rows.map AuditLog.entry) := by
  induction rows generalizing previousHash checked hashVersion with
  | nil =>
      cases h
      rfl
  | cons row rows ih =>
      rw [verifyRows] at h
      split_ifs at h
      exact ih h

/-- An intact chain is in the verifier's order already. -/
theorem chainOrder_intact (h : ChainIntact digest rows) :
    rows.Pairwise fun a b => chainOrder a b = true := by
  have hindices := h.indices
  have hsorted : (rows.map fun row => row.stamp.chainIndex).Pairwise (· < ·) := by
    have hmap : rows.map (chaining digest).index = rows.map fun row => row.stamp.chainIndex := rfl
    rw [← hmap, hindices]
    exact List.pairwise_lt_range'
  rw [List.pairwise_map] at hsorted
  refine hsorted.imp fun {a b} hlt => ?_
  simp [chainOrder, hlt]

/-- The verifier accepts an intact chain. -/
theorem verify_intact (h : ChainIntact digest rows) (now : ℕ) :
    ∃ result, verifyAuditChainIntegrity digest now rows = .ok result ∧
      result.checked = rows.length ∧
      result.headHash = (chaining digest).head genesisHash rows := by
  unfold verifyAuditChainIntegrity
  rw [List.mergeSort_of_pairwise (chainOrder_intact h)]
  obtain ⟨result, hok, hchecked, hhead⟩ := verifyRows_linked now h 0 1
  exact ⟨result, hok, by omega, hhead⟩

end SetadJang.AuditLogs
