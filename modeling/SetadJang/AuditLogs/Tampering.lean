import SetadJang.Framework.Rows
import SetadJang.AuditLogs.Writers

/-!
# Changes made in the table

Whoever can write to the database can change a row of the audit log or remove it behind the
application.  The verifier walks over the rows in the order of `chain_index` and looks at
the hashed columns and the two hash columns of each.  What it does not look at can be
changed: the time of a record, a position that leaves the order as it is, and the end of the
chain.

The hash at the head pins everything that is hashed before it.
-/

namespace SetadJang.AuditLogs

open SetadJang.Framework SetadJang.Framework.Chaining

/-- A row as it can stand in the table; `chain_index` is nullable. -/
structure TableRow (J : Type) where
  pk : ℕ
  event : AuditEvent J
  chainIndex : Option ℤ
  previousHash : String
  eventHash : String
  createdAt : ℕ
deriving DecidableEq, Repr

variable {J : Type}

def AuditLog.toRow (log : AuditLog J) : TableRow J :=
  ⟨log.pk, log.event, some log.stamp.chainIndex, log.stamp.previousHash, log.stamp.eventHash,
    log.createdAt⟩

/-- The record that a row is read as, with a position in place of a missing one. -/
def TableRow.toLog (row : TableRow J) : AuditLog J :=
  ⟨row.pk, row.event, ⟨(row.chainIndex.getD 0).toNat, row.previousHash, row.eventHash⟩,
    row.createdAt⟩

def TableRow.entry (row : TableRow J) : HashPayload J × String :=
  (⟨row.previousHash, row.event⟩, row.eventHash)

/-! ## The verifier -/

/-- The database decides where a missing position is sorted. -/
def positionLt (nullsFirst : Bool) : Option ℤ → Option ℤ → Bool
  | none, none => false
  | none, some _ => nullsFirst
  | some _, none => !nullsFirst
  | some i, some j => decide (i < j)

/-- `order_by("chain_index", "id")`. -/
def tableOrder (nullsFirst : Bool) (a b : TableRow J) : Bool :=
  positionLt nullsFirst a.chainIndex b.chainIndex ||
    (a.chainIndex == b.chainIndex && decide (a.pk ≤ b.pk))

/-- The rows in the order of the verifier. -/
def chainRows (nullsFirst : Bool) (table : List (TableRow J)) : List (TableRow J) :=
  table.mergeSort (tableOrder nullsFirst)

/-- `verify_audit_chain_integrity` over a table. -/
def verifyTable (nullsFirst : Bool) (digest : HashPayload J → String) (now : ℕ)
    (table : List (TableRow J)) :
    Except AuditChainVerificationError AuditChainVerificationResult :=
  verifyRows digest now genesisHash 0 1 ((chainRows nullsFirst table).map TableRow.toLog)

theorem tableOrder_trans (nullsFirst : Bool) (a b c : TableRow J)
    (hab : tableOrder nullsFirst a b = true) (hbc : tableOrder nullsFirst b c = true) :
    tableOrder nullsFirst a c = true := by
  obtain ⟨pk, _, i, _, _, _⟩ := a
  obtain ⟨pk', _, j, _, _, _⟩ := b
  obtain ⟨pk'', _, k, _, _, _⟩ := c
  cases nullsFirst <;> cases i <;> cases j <;> cases k <;>
    simp_all [tableOrder, positionLt] <;> omega

theorem tableOrder_total (nullsFirst : Bool) (a b : TableRow J) :
    (tableOrder nullsFirst a b || tableOrder nullsFirst b a) = true := by
  obtain ⟨pk, _, i, _, _, _⟩ := a
  obtain ⟨pk', _, j, _, _, _⟩ := b
  cases nullsFirst <;> cases i <;> cases j <;> simp [tableOrder, positionLt] <;> omega

theorem tableOrder_toRow (nullsFirst : Bool) (a b : AuditLog J) :
    tableOrder nullsFirst a.toRow b.toRow = chainOrder a b := by
  have hrow : tableOrder nullsFirst a.toRow b.toRow =
      (decide ((a.stamp.chainIndex : ℤ) < b.stamp.chainIndex) ||
        (some (a.stamp.chainIndex : ℤ) == some (b.stamp.chainIndex : ℤ) &&
          decide (a.pk ≤ b.pk))) := rfl
  rw [hrow, chainOrder, Bool.eq_iff_iff]
  simp only [Bool.or_eq_true, Bool.and_eq_true, decide_eq_true_eq, beq_iff_eq,
    Option.some.injEq]
  omega

/-- On the tables that the application writes, this is the verifier of the model. -/
theorem verifyTable_toRow (nullsFirst : Bool) (digest : HashPayload J → String) (now : ℕ)
    (logs : List (AuditLog J)) :
    verifyTable nullsFirst digest now (logs.map AuditLog.toRow) =
      verifyAuditChainIntegrity digest now logs := by
  have hsort : chainRows nullsFirst (logs.map AuditLog.toRow) =
      (logs.mergeSort chainOrder).map AuditLog.toRow :=
    (List.map_mergeSort fun a _ b _ => (tableOrder_toRow nullsFirst a b).symm).symm
  have hback : TableRow.toLog ∘ AuditLog.toRow = (id : AuditLog J → AuditLog J) := rfl
  rw [verifyTable, verifyAuditChainIntegrity, hsort, List.map_map, hback, List.map_id]

theorem entryChaining_injective {digest : HashPayload J → String}
    (hdigest : Function.Injective digest) (r s : HashPayload J × String) (a b : String)
    (h : (entryChaining digest).recompute r a = (entryChaining digest).recompute s b) :
    a = b ∧ r.1.event = s.1.event := by
  have hpayload := hdigest h
  exact ⟨(HashPayload.mk.inj hpayload).1, (HashPayload.mk.inj hpayload).2⟩

section

variable {nullsFirst : Bool} {digest : HashPayload J → String} {now : ℕ}
  {table : List (TableRow J)}

theorem verifyTable_ok_iff :
    (∃ result, verifyTable nullsFirst digest now table = .ok result) ↔
      (entryChaining digest).Continues genesisHash
        ((chainRows nullsFirst table).map TableRow.entry) := by
  rw [verifyTable, verifyRows_ok_iff, List.map_map]
  rfl

theorem verifyTable_headHash {result : AuditChainVerificationResult}
    (h : verifyTable nullsFirst digest now table = .ok result) :
    result.headHash = (entryChaining digest).head genesisHash
      ((chainRows nullsFirst table).map TableRow.entry) := by
  rw [verifyRows_headHash h, List.map_map]
  rfl

end

/-! ## The head hash as a checkpoint -/

/-- **The head hash pins the history.**  Two accepted tables with the same head hash have
the same hashed contents in the same order. -/
theorem head_hash_pins_history {digest : HashPayload J → String}
    (hdigest : Function.Injective digest) {nullsFirst nullsFirst' : Bool} {now now' : ℕ}
    {table table' : List (TableRow J)} {result result' : AuditChainVerificationResult}
    (hverified : verifyTable nullsFirst digest now table = .ok result)
    (hverified' : verifyTable nullsFirst' digest now' table' = .ok result')
    (hhead : result.headHash = result'.headHash)
    (hgenesis : ∀ row ∈ table ++ table', row.eventHash ≠ genesisHash) :
    (chainRows nullsFirst table).map TableRow.event =
      (chainRows nullsFirst' table').map TableRow.event := by
  have hcontinues := verifyTable_ok_iff.mp ⟨result, hverified⟩
  have hcontinues' := verifyTable_ok_iff.mp ⟨result', hverified'⟩
  rw [verifyTable_headHash hverified, verifyTable_headHash hverified'] at hhead
  have hpinned := hcontinues.pinned (entryChaining_injective hdigest) hcontinues' hhead (Or.inr ?_)
  · have hevents := hpinned.2
    rw [List.map_map, List.map_map] at hevents
    exact hevents
  · intro entry hentry
    rw [← List.map_append] at hentry
    obtain ⟨row, hrow, rfl⟩ := List.mem_map.mp hentry
    refine hgenesis row ?_
    simpa [chainRows] using hrow

/-! ## A single change -/

/-- A write to one column of a record. -/
inductive ColumnChange (J : Type) where
  | user (value : Option ℕ)
  | action (value : String)
  | resourceType (value : String)
  | resourceId (value : Option String)
  | ipAddress (value : Option String)
  | userAgent (value : String)
  | path (value : String)
  | method (value : String)
  | requestId (value : Option String)
  | changes (value : Option J)
  | extraData (value : Option J)
  | hashVersion (value : ℕ)
  | previousHash (value : String)
  | eventHash (value : String)
  | chainIndex (value : Option ℤ)
  | createdAt (value : ℕ)

def TableRow.withEvent (row : TableRow J) (f : AuditEvent J → AuditEvent J) : TableRow J :=
  { row with event := f row.event }

def ColumnChange.apply (row : TableRow J) : ColumnChange J → TableRow J
  | .user value => row.withEvent fun event => { event with userId := value }
  | .action value => row.withEvent fun event => { event with action := value }
  | .resourceType value => row.withEvent fun event => { event with resourceType := value }
  | .resourceId value => row.withEvent fun event => { event with resourceId := value }
  | .ipAddress value => row.withEvent fun event => { event with ipAddress := value }
  | .userAgent value => row.withEvent fun event => { event with userAgent := value }
  | .path value => row.withEvent fun event => { event with path := value }
  | .method value => row.withEvent fun event => { event with method := value }
  | .requestId value => row.withEvent fun event => { event with requestId := value }
  | .changes value => row.withEvent fun event => { event with changes := value }
  | .extraData value => row.withEvent fun event => { event with extraData := value }
  | .hashVersion value => row.withEvent fun event => { event with hashVersion := value }
  | .previousHash value => { row with previousHash := value }
  | .eventHash value => { row with eventHash := value }
  | .chainIndex value => { row with chainIndex := value }
  | .createdAt value => { row with createdAt := value }

/-- A change of the table: one column of the row at `k` is altered, or that row is removed. -/
inductive Tampering (J : Type) where
  | alter (k : ℕ) (change : ColumnChange J)
  | remove (k : ℕ)

def Tampering.apply (table : List (TableRow J)) : Tampering J → List (TableRow J)
  | .alter k change => table.modify k change.apply
  | .remove k => table.eraseIdx k

/-- There is such a row, and its column has another value before. -/
def Tampering.Changes (table : List (TableRow J)) : Tampering J → Prop
  | .alter k change => ∃ row ∈ table[k]?, change.apply row ≠ row
  | .remove k => k < table.length

/-- The new position leaves the row at `k` where it is in the order of the verifier. -/
def KeepsPlace (nullsFirst : Bool) (table : List (TableRow J)) (k : ℕ) (chainIndex : Option ℤ) :
    Prop :=
  ∀ row ∈ table[k]?,
    (∀ other ∈ table.take k,
      tableOrder nullsFirst other { row with chainIndex := chainIndex } = true) ∧
    ∀ other ∈ table.drop (k + 1),
      tableOrder nullsFirst { row with chainIndex := chainIndex } other = true

/-- The changes that the verifier does not see: of `created_at`, of a position that keeps its
place, the removal of the last record, and that of a first record whose hash is the genesis
value. -/
def Tampering.Unseen (nullsFirst : Bool) (table : List (TableRow J)) : Tampering J → Prop
  | .alter k (.chainIndex chainIndex) => KeepsPlace nullsFirst table k chainIndex
  | .alter _ (.createdAt _) => True
  | .alter _ _ => False
  | .remove k =>
      k + 1 = table.length ∨ (k = 0 ∧ ∃ row ∈ table[0]?, row.eventHash = genesisHash)

/-- A table as the application leaves it: in the order of the verifier, one chain, no hash
twice. -/
structure WellChained (nullsFirst : Bool) (digest : HashPayload J → String)
    (table : List (TableRow J)) : Prop where
  sorted : table.Pairwise fun a b => tableOrder nullsFirst a b = true
  continues : (entryChaining digest).Continues genesisHash (table.map TableRow.entry)
  unique : (table.map TableRow.eventHash).Nodup

section

variable {nullsFirst : Bool} {digest : HashPayload J → String} {now : ℕ}
  {table : List (TableRow J)}

theorem chainRows_sorted (h : table.Pairwise fun a b => tableOrder nullsFirst a b = true) :
    chainRows nullsFirst table = table :=
  List.mergeSort_of_pairwise h

theorem wellChained_intact {logs : List (AuditLog J)} (h : ChainIntact digest logs)
    (hunique : HashesDistinct logs) : WellChained nullsFirst digest (logs.map AuditLog.toRow) := by
  have hsorted : (logs.map AuditLog.toRow).Pairwise fun a b => tableOrder nullsFirst a b = true := by
    rw [List.pairwise_map]
    refine (chainOrder_intact h).imp fun {a b} hab => ?_
    rw [tableOrder_toRow]
    exact hab
  have hhashes : ((logs.map AuditLog.toRow).map TableRow.eventHash).Nodup := by
    rw [List.map_map]
    exact hunique
  refine ⟨hsorted, ?_, hhashes⟩
  obtain ⟨result, hok, -⟩ := verify_intact h 0
  rw [← verifyTable_toRow nullsFirst] at hok
  have hcontinues := verifyTable_ok_iff.mp ⟨result, hok⟩
  rwa [chainRows_sorted hsorted] at hcontinues

/-- The order of the verifier depends on two columns only. -/
theorem sorted_modify (h : table.Pairwise fun a b => tableOrder nullsFirst a b = true) (k : ℕ)
    {f : TableRow J → TableRow J} (hpk : ∀ row, (f row).pk = row.pk)
    (hindex : ∀ row, (f row).chainIndex = row.chainIndex) :
    (table.modify k f).Pairwise fun a b => tableOrder nullsFirst a b = true := by
  have hkeys : (table.modify k f).map (fun row => (row.chainIndex, row.pk)) =
      table.map fun row => (row.chainIndex, row.pk) :=
    map_modify_same (fun row => by rw [hindex, hpk]) table k
  have hpairs : ∀ rows : List (TableRow J),
      rows.Pairwise (fun a b => tableOrder nullsFirst a b = true) ↔
        (rows.map fun row => (row.chainIndex, row.pk)).Pairwise fun a b =>
          (positionLt nullsFirst a.1 b.1 || (a.1 == b.1 && decide (a.2 ≤ b.2))) = true := by
    intro rows
    rw [List.pairwise_map]
    rfl
  rw [hpairs, hkeys, ← hpairs]
  exact h

/-- A record in the middle of a chain. -/
theorem continues_middle {xs ys : List (TableRow J)} {row : TableRow J}
    (h : (entryChaining digest).Continues genesisHash ((xs ++ row :: ys).map TableRow.entry)) :
    row.previousHash = (entryChaining digest).head genesisHash (xs.map TableRow.entry) ∧
      row.eventHash = digest
        ⟨(entryChaining digest).head genesisHash (xs.map TableRow.entry), row.event⟩ := by
  rw [List.map_append, continues_append] at h
  exact ⟨h.2.1, h.2.2.1⟩

theorem modify_split {xs ys : List (TableRow J)} {row : TableRow J} (f : TableRow J → TableRow J) :
    (xs ++ row :: ys).modify xs.length f = xs ++ f row :: ys := by
  rw [List.modify_eq_take_cons_drop (by simp)]
  simp

/-- A change that keeps the order and the entries is not seen. -/
theorem accepted_of_same_entries (h : WellChained nullsFirst digest table)
    {changed : List (TableRow J)} (hentries : changed.map TableRow.entry = table.map TableRow.entry)
    (hsorted : changed.Pairwise fun a b => tableOrder nullsFirst a b = true) :
    ∃ result, verifyTable nullsFirst digest now changed = .ok result := by
  rw [verifyTable_ok_iff, chainRows_sorted hsorted, hentries]
  exact h.continues

/-- A record of which one hashed value, or one of the two hashes, was altered. -/
theorem rejected_altered (hdigest : Function.Injective digest)
    (h : WellChained nullsFirst digest table) {k : ℕ} {row : TableRow J}
    (hrow : table[k]? = some row) {f : TableRow J → TableRow J} (hpk : ∀ row, (f row).pk = row.pk)
    (hindex : ∀ row, (f row).chainIndex = row.chainIndex)
    (haltered : (f row).previousHash ≠ row.previousHash ∨
      ((f row).event = row.event ↔ (f row).eventHash ≠ row.eventHash)) :
    ¬ ∃ result, verifyTable nullsFirst digest now (table.modify k f) = .ok result := by
  rw [verifyTable_ok_iff, chainRows_sorted (sorted_modify h.sorted k hpk hindex)]
  intro hcontinues
  obtain ⟨xs, ys, rfl, rfl⟩ := split_of_getElem? hrow
  rw [modify_split] at hcontinues
  obtain ⟨hprevious, hhash⟩ := continues_middle h.continues
  obtain ⟨hprevious', hhash'⟩ := continues_middle hcontinues
  rcases haltered with hne | hone
  · exact hne (hprevious'.trans hprevious.symm)
  · by_cases hevent : (f row).event = row.event
    · refine hone.mp hevent ?_
      rw [hhash', hhash, hevent]
    · refine hevent (hone.mpr fun hsame => hevent ?_)
      rw [hhash', hhash] at hsame
      exact (HashPayload.mk.inj (hdigest hsame)).2

/-- A position is not seen to be altered exactly when the record keeps its place.  An order
that is accepted has the same hashes, so it is the order of the chain. -/
theorem accepted_chainIndex_iff (hdigest : Function.Injective digest)
    (h : WellChained nullsFirst digest table) {k : ℕ} {row : TableRow J}
    (hrow : table[k]? = some row) (value : Option ℤ) :
    (∃ result, verifyTable nullsFirst digest now
        (table.modify k fun row => { row with chainIndex := value }) = .ok result) ↔
      KeepsPlace nullsFirst table k value := by
  set changed := table.modify k fun row => { row with chainIndex := value } with hchanged
  have hentries : changed.map TableRow.entry = table.map TableRow.entry :=
    map_modify_same (f := fun row => { row with chainIndex := value }) (fun _ => rfl) table k
  have hplace : (changed.Pairwise fun a b => tableOrder nullsFirst a b = true) ↔
      KeepsPlace nullsFirst table k value := by
    obtain ⟨xs, ys, rfl, rfl⟩ := split_of_getElem? hrow
    have hkeeps : KeepsPlace nullsFirst (xs ++ row :: ys) xs.length value ↔
        (∀ other ∈ xs, tableOrder nullsFirst other { row with chainIndex := value } = true) ∧
          ∀ other ∈ ys, tableOrder nullsFirst { row with chainIndex := value } other = true := by
      simp [KeepsPlace]
    obtain ⟨hxs, hys, hacross⟩ := List.pairwise_append.mp h.sorted
    rw [hchanged, modify_split, hkeeps, List.pairwise_append, List.pairwise_cons]
    constructor
    · rintro ⟨-, ⟨hafter, -⟩, hbefore⟩
      exact ⟨fun other hother => hbefore other hother _ List.mem_cons_self, hafter⟩
    · rintro ⟨hbefore, hafter⟩
      refine ⟨hxs, ⟨hafter, (List.pairwise_cons.mp hys).2⟩, fun other hother next hnext => ?_⟩
      rcases List.mem_cons.mp hnext with rfl | hnext
      · exact hbefore other hother
      · exact hacross other hother next (List.mem_cons_of_mem _ hnext)
  rw [← hplace]
  constructor
  · intro haccepted
    have hcontinues := verifyTable_ok_iff.mp haccepted
    have hperm : (chainRows nullsFirst changed).Perm changed := List.mergeSort_perm _ _
    have hold : (entryChaining digest).Continues genesisHash (changed.map TableRow.entry) := by
      rw [hentries]
      exact h.continues
    have hpinned := (hcontinues.pinned (entryChaining_injective hdigest) hold
      (hcontinues.head_perm hold (hperm.map _)) (Or.inl (by simpa using hperm.length_eq))).1
    rw [List.map_map, List.map_map] at hpinned
    have hunique : (changed.map TableRow.eventHash).Nodup := by
      have hhashes := congrArg (List.map Prod.snd) hentries
      rw [List.map_map, List.map_map] at hhashes
      have hsame : changed.map TableRow.eventHash = table.map TableRow.eventHash := hhashes
      rw [hsame]
      exact h.unique
    have hsame : chainRows nullsFirst changed = changed :=
      eq_of_map_eq hunique (fun _ hmem => hperm.mem_iff.mp hmem) hpinned
    rw [← hsame]
    exact List.pairwise_mergeSort (tableOrder_trans nullsFirst) (tableOrder_total nullsFirst) _
  · exact accepted_of_same_entries h hentries

/-- A removal is seen unless nothing pointed to the removed record: it was the last one, or the
first one with the hash that stands before the chain. -/
theorem accepted_remove_iff (h : WellChained nullsFirst digest table) {k : ℕ} {row : TableRow J}
    (hrow : table[k]? = some row) :
    (∃ result, verifyTable nullsFirst digest now (table.eraseIdx k) = .ok result) ↔
      k + 1 = table.length ∨ (k = 0 ∧ row.eventHash = genesisHash) := by
  obtain ⟨xs, ys, rfl, rfl⟩ := split_of_getElem? hrow
  have herase : (xs ++ row :: ys).eraseIdx xs.length = xs ++ ys := by
    rw [List.eraseIdx_append_of_length_le (le_refl _), Nat.sub_self, List.eraseIdx_zero,
      List.tail_cons]
  have hsorted : (xs ++ ys).Pairwise fun a b => tableOrder nullsFirst a b = true :=
    h.sorted.sublist ((List.sublist_cons_self row ys).append_left xs)
  rw [verifyTable_ok_iff, herase, chainRows_sorted hsorted]
  have hcontinues := h.continues
  rw [List.map_append, continues_append, List.map_cons] at hcontinues
  obtain ⟨hxs, -, -, hys⟩ := hcontinues
  rw [List.map_append, continues_append, and_iff_right hxs]
  cases ys with
  | nil => exact iff_of_true trivial (Or.inl (by simp))
  | cons next ys =>
      have hlast : ¬ xs.length + 1 = (xs ++ row :: next :: ys).length := by
        rw [List.length_append, List.length_cons, List.length_cons]
        omega
      rw [or_iff_right hlast]
      have hnext : next.previousHash = row.eventHash := hys.1
      constructor
      · intro hcontinues
        have hhead : row.eventHash =
            (entryChaining digest).head genesisHash (xs.map TableRow.entry) :=
          hnext.symm.trans hcontinues.1
        rcases List.eq_nil_or_concat xs with rfl | ⟨front, last, rfl⟩
        · exact ⟨rfl, hhead⟩
        · -- the record before has another hash
          rw [List.concat_eq_append, List.map_append, List.map_singleton, head_snoc] at hhead
          have hunique := h.unique
          rw [List.concat_eq_append, List.append_assoc, List.map_append, List.nodup_append] at hunique
          have hpair := (List.nodup_cons.mp hunique.2.1).1
          refine absurd ?_ hpair
          rw [show last.eventHash = row.eventHash from hhead.symm]
          exact List.mem_cons_self
      · rintro ⟨hnil, hgenesis⟩
        obtain rfl := List.length_eq_zero_iff.mp hnil
        have hstart : (entryChaining digest).digest row.entry = genesisHash := hgenesis
        rw [hstart] at hys
        exact hys

end

theorem withEvent_altered {row : TableRow J} {f : AuditEvent J → AuditEvent J}
    (h : row.withEvent f ≠ row) :
    (row.withEvent f).previousHash ≠ row.previousHash ∨
      ((row.withEvent f).event = row.event ↔ (row.withEvent f).eventHash ≠ row.eventHash) := by
  refine Or.inr (iff_of_false (fun hevent => h ?_) fun hne => hne rfl)
  have hsame : f row.event = row.event := hevent
  simp only [TableRow.withEvent, hsame]

/-- A change of one column that changes its row: the position and the time alone may be
taken for the ones of before. -/
theorem accepted_alter_iff {digest : HashPayload J → String}
    (hdigest : Function.Injective digest) {nullsFirst : Bool} {table : List (TableRow J)}
    (h : WellChained nullsFirst digest table) {now k : ℕ} {row : TableRow J}
    (hrow : table[k]? = some row) {change : ColumnChange J} (hne : change.apply row ≠ row) :
    (∃ result, verifyTable nullsFirst digest now ((Tampering.alter k change).apply table) =
        .ok result) ↔ (Tampering.alter k change).Unseen nullsFirst table := by
  have hseen : ∀ f : TableRow J → TableRow J, (∀ row, (f row).pk = row.pk) →
      (∀ row, (f row).chainIndex = row.chainIndex) →
      ((f row).previousHash ≠ row.previousHash ∨
        ((f row).event = row.event ↔ (f row).eventHash ≠ row.eventHash)) →
      ((∃ result, verifyTable nullsFirst digest now (table.modify k f) = .ok result) ↔ False) :=
    fun f hpk hindex haltered =>
      iff_of_false (rejected_altered hdigest h hrow hpk hindex haltered) id
  have hevent : ∀ f : AuditEvent J → AuditEvent J, row.withEvent f ≠ row →
      ((∃ result, verifyTable nullsFirst digest now
        (table.modify k fun row => row.withEvent f) = .ok result) ↔ False) :=
    fun f hne => hseen (fun row => row.withEvent f) (fun _ => rfl) (fun _ => rfl)
      (withEvent_altered hne)
  cases change with
  | chainIndex value => exact accepted_chainIndex_iff hdigest h hrow value
  | createdAt value =>
      refine iff_of_true (accepted_of_same_entries h ?_ ?_) trivial
      · exact map_modify_same (g := TableRow.entry)
          (f := fun row => { row with createdAt := value }) (fun _ => rfl) table k
      · exact sorted_modify h.sorted k (fun _ => rfl) fun _ => rfl
  | previousHash value =>
      refine hseen (fun row => { row with previousHash := value }) (fun _ => rfl) (fun _ => rfl)
        (Or.inl fun hsame => hne ?_)
      have hvalue : value = row.previousHash := hsame
      simp only [ColumnChange.apply, hvalue]
  | eventHash value =>
      refine hseen (fun row => { row with eventHash := value }) (fun _ => rfl) (fun _ => rfl)
        (Or.inr (iff_of_true rfl fun hsame => hne ?_))
      have hvalue : value = row.eventHash := hsame
      simp only [ColumnChange.apply, hvalue]
  | _ =>
      simp only [ColumnChange.apply] at hne
      exact hevent _ hne

/-- **Tamper evidence, exactly.**  On a table that concurrent calls of `AuditLog.save` have
left, the verifier rejects a single change unless it is a change of `created_at`, of a
position that keeps the order, the removal of the last record, or that of a first record
whose hash is the genesis value. -/
theorem tampering_rejected_iff {digest : HashPayload J → String}
    (hdigest : Function.Injective digest) (nullsFirst : Bool) (n : ℕ) (acts : List (Act J n))
    (now : ℕ) (tampering : Tampering J)
    (hchanges : tampering.Changes
      ((run (step digest) (start J n) acts).committed.map AuditLog.toRow)) :
    (∃ error, verifyTable nullsFirst digest now (tampering.apply
        ((run (step digest) (start J n) acts).committed.map AuditLog.toRow)) = .error error) ↔
      ¬ tampering.Unseen nullsFirst
        ((run (step digest) (start J n) acts).committed.map AuditLog.toRow) := by
  have h : WellChained nullsFirst digest
      ((run (step digest) (start J n) acts).committed.map AuditLog.toRow) :=
    wellChained_intact (run_coherent digest acts).table (run_unrepeated digest acts)
  generalize (run (step digest) (start J n) acts).committed.map AuditLog.toRow = table
    at h hchanges ⊢
  have hverdict : (∃ error, verifyTable nullsFirst digest now (tampering.apply table) =
      .error error) ↔ ¬ ∃ result, verifyTable nullsFirst digest now (tampering.apply table) =
        .ok result := by
    cases verifyTable nullsFirst digest now (tampering.apply table) <;> simp
  rw [hverdict, not_iff_not]
  cases tampering with
  | remove k =>
      obtain ⟨row, hrow⟩ : ∃ row, table[k]? = some row := ⟨_, List.getElem?_eq_getElem hchanges⟩
      rw [Tampering.apply, accepted_remove_iff h hrow, Tampering.Unseen]
      refine or_congr_right (and_congr_right fun hk => ?_)
      subst hk
      simp [hrow]
  | alter k change =>
      obtain ⟨row, hrow, hne⟩ := hchanges
      exact accepted_alter_iff hdigest h hrow hne

/-! ## A digest for the examples -/

/-- A text with an end of its own. -/
def framed : List Char → List Char
  | [] => ['.']
  | c :: cs => '+' :: c :: framed cs

def framedOption : Option (List Char) → List Char
  | none => ['-']
  | some cs => '*' :: framed cs

theorem framed_append_inj {as bs xs ys : List Char} (h : framed as ++ xs = framed bs ++ ys) :
    as = bs ∧ xs = ys := by
  induction as generalizing bs with
  | nil =>
      cases bs with
      | nil => exact ⟨rfl, by simpa [framed] using h⟩
      | cons b bs => simp [framed] at h
  | cons a as ih =>
      cases bs with
      | nil => simp [framed] at h
      | cons b bs =>
          simp only [framed, List.cons_append, List.cons.injEq, true_and] at h
          obtain ⟨rfl, hrest⟩ := ih h.2
          exact ⟨by rw [h.1], hrest⟩

theorem framedOption_append_inj {a b : Option (List Char)} {xs ys : List Char}
    (h : framedOption a ++ xs = framedOption b ++ ys) : a = b ∧ xs = ys := by
  cases a with
  | none =>
      cases b with
      | none => exact ⟨rfl, by simpa [framedOption] using h⟩
      | some bs => simp [framedOption] at h
  | some as =>
      cases b with
      | none => simp [framedOption] at h
      | some bs =>
          simp only [framedOption, List.cons_append, List.cons.injEq, true_and] at h
          obtain ⟨rfl, hrest⟩ := framed_append_inj h
          exact ⟨rfl, hrest⟩

/-- Every field of a payload, framed; the two JSON columns hold nothing but a mark. -/
def framedPayload (payload : HashPayload Unit) : List Char :=
  let event := payload.event
  framed payload.previousHash.toList ++
    (framed (List.replicate event.hashVersion '1') ++
      (framedOption (event.userId.map fun user => List.replicate user '1') ++
        (framed event.action.toList ++
          (framedOption (event.ipAddress.map String.toList) ++
            (framedOption (event.requestId.map String.toList) ++
              (framed event.userAgent.toList ++
                (framed event.path.toList ++
                  (framed event.method.toList ++
                    (framed event.resourceType.toList ++
                      (framedOption (event.resourceId.map String.toList) ++
                        (framedOption (event.changes.map fun _ => []) ++
                          (framedOption (event.extraData.map fun _ => []) ++ []))))))))))))

def framedDigest (payload : HashPayload Unit) : String := String.ofList (framedPayload payload)

theorem framedDigest_injective : Function.Injective framedDigest := by
  rintro ⟨_, ⟨_, _, _, _, _, _, _, _, _, _, _, _⟩⟩ ⟨_, ⟨_, _, _, _, _, _, _, _, _, _, _, _⟩⟩ h
  have h : framedPayload _ = framedPayload _ := String.ofList_injective h
  have htexts : Function.Injective (Option.map String.toList) :=
    Option.map_injective fun _ _ => String.toList_injective
  have hnumbers : Function.Injective (Option.map fun n => List.replicate n '1') :=
    Option.map_injective (List.replicate_left_injective '1')
  have hmarks : Function.Injective (Option.map fun _ : Unit => ([] : List Char)) :=
    Option.map_injective fun _ _ _ => rfl
  simp only [framedPayload] at h
  obtain ⟨hprevious, h⟩ := framed_append_inj h
  obtain ⟨hversion, h⟩ := framed_append_inj h
  obtain ⟨huser, h⟩ := framedOption_append_inj h
  obtain ⟨haction, h⟩ := framed_append_inj h
  obtain ⟨hip, h⟩ := framedOption_append_inj h
  obtain ⟨hrequest, h⟩ := framedOption_append_inj h
  obtain ⟨hagent, h⟩ := framed_append_inj h
  obtain ⟨hpath, h⟩ := framed_append_inj h
  obtain ⟨hmethod, h⟩ := framed_append_inj h
  obtain ⟨htype, h⟩ := framed_append_inj h
  obtain ⟨hid, h⟩ := framedOption_append_inj h
  obtain ⟨hchanges, h⟩ := framedOption_append_inj h
  obtain ⟨hextra, -⟩ := framedOption_append_inj h
  rw [String.toList_inj.mp hprevious, List.replicate_left_injective '1' hversion, hnumbers huser,
    String.toList_inj.mp haction, htexts hip, htexts hrequest, String.toList_inj.mp hagent,
    String.toList_inj.mp hpath, String.toList_inj.mp hmethod, String.toList_inj.mp htype,
    htexts hid, hmarks hchanges, hmarks hextra]

/-- One writer saves a record and commits it. -/
def oneRecord : List (TableRow Unit) :=
  (run (step framedDigest) (start Unit 1)
    [.save 0 (sampleEvent "login"), .link 0, .insert 0 5, .exit 0]).committed.map AuditLog.toRow

def Tampering.Accepted (tampering : Tampering Unit) : Prop :=
  tampering.Changes oneRecord ∧
    ∃ result, verifyTable false framedDigest 9 (tampering.apply oneRecord) = .ok result

theorem accepted_single {nullsFirst : Bool} {now : ℕ} {row : TableRow Unit}
    (hprevious : row.previousHash = genesisHash)
    (hhash : row.eventHash = framedDigest ⟨genesisHash, row.event⟩) :
    ∃ result, verifyTable nullsFirst framedDigest now [row] = .ok result := by
  rw [verifyTable_ok_iff, chainRows_sorted (List.pairwise_singleton _ _)]
  exact ⟨hprevious, hhash, trivial⟩

/-- Another time, another position, no record any more: the verifier accepts each of them. -/
theorem unseen_changes :
    Tampering.Accepted (.alter 0 (.createdAt 6)) ∧
      Tampering.Accepted (.alter 0 (.chainIndex (some 7))) ∧ Tampering.Accepted (.remove 0) := by
  refine ⟨⟨⟨_, rfl, fun h => ?_⟩, accepted_single rfl rfl⟩,
    ⟨⟨_, rfl, fun h => ?_⟩, accepted_single rfl rfl⟩, ⟨Nat.zero_lt_one, ?_⟩⟩
  · exact absurd (congrArg TableRow.createdAt h) (by decide)
  · exact absurd (congrArg TableRow.chainIndex h) (by decide)
  · have hnone : (Tampering.remove 0).apply oneRecord = [] := rfl
    rw [hnone, verifyTable_ok_iff, chainRows_sorted List.Pairwise.nil]
    exact trivial

theorem tampering_rejected_action :
    ∃ error, verifyTable false framedDigest 9
      ((Tampering.alter 0 (.action "logout")).apply oneRecord) = .error error :=
  (tampering_rejected_iff framedDigest_injective false 1 _ 9 (.alter 0 (.action "logout"))
    ⟨_, rfl, fun h => absurd (congrArg (fun row => row.event.action) h) (by decide)⟩).mpr id

/-- The table and a copy with another time. -/
theorem head_hash_pins_history_one :
    (chainRows false oneRecord).map TableRow.event =
      (chainRows true ((Tampering.alter 0 (.createdAt 6)).apply oneRecord)).map
        TableRow.event := by
  obtain ⟨result, hverified⟩ : ∃ result, verifyTable false framedDigest 9 oneRecord =
    .ok result := accepted_single rfl rfl
  obtain ⟨result', hverified'⟩ : ∃ result, verifyTable true framedDigest 9
    ((Tampering.alter 0 (.createdAt 6)).apply oneRecord) = .ok result := accepted_single rfl rfl
  refine head_hash_pins_history framedDigest_injective hverified hverified' ?_ ?_
  · have hsorted : chainRows false oneRecord = oneRecord :=
      chainRows_sorted (List.pairwise_singleton _ _)
    have hsorted' : chainRows true ((Tampering.alter 0 (.createdAt 6)).apply oneRecord) =
        (Tampering.alter 0 (.createdAt 6)).apply oneRecord :=
      chainRows_sorted (List.pairwise_singleton _ _)
    rw [verifyTable_headHash hverified, verifyTable_headHash hverified', hsorted, hsorted']
    rfl
  · decide +kernel

end SetadJang.AuditLogs
