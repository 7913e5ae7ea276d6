import Mathlib.Data.Fintype.Basic
import Mathlib.Logic.Function.Basic
import SetadJang.Framework.Runs
import SetadJang.AuditLogs.Model

/-!
# Concurrent writers of the audit chain

Any number of connections run `AuditLog.save`, each inside any nesting of
`transaction.atomic` blocks of its caller.  A writer reads the head of the chain
among the committed rows and its own, stamps its record and inserts it inside a
block of its own.  The unique columns decide: against a committed or an own row
the insert raises and is retried, against the uncommitted row of another writer
it waits.  Blocks may roll back and connections may be lost at any point.

The chain stays intact without a lock: a writer that holds uncommitted rows holds
the next position, so nobody else can insert until it commits or gives it up.
-/

namespace SetadJang.AuditLogs

open SetadJang.Framework

/-- Where a call of `save` stands. -/
inductive Pc (J : Type) where
  /-- No call is under way. -/
  | idle
  /-- About to read the head of the chain. -/
  | reading (event : AuditEvent J) (attempt : ℕ)
  /-- Stamped, not inserted. -/
  | linked (event : AuditEvent J) (stamp : Stamp) (attempt : ℕ)
  /-- Inserted, in the block of `save`. -/
  | inserted (event : AuditEvent J) (attempt : ℕ)
deriving DecidableEq, Repr

/-- A connection: its open blocks, innermost first, each with the rows inserted in
it, and its call of `save`. -/
structure Writer (J : Type) where
  frames : List (List (AuditLog J))
  pc : Pc J
deriving DecidableEq, Repr

/-- The uncommitted rows of a writer, in the order of their inserts. -/
def Writer.held {J : Type} (writer : Writer J) : List (AuditLog J) :=
  writer.frames.reverse.flatten

/-- The committed rows, the sequence of primary keys and `n` writers. -/
structure State (J : Type) (n : ℕ) where
  committed : List (AuditLog J)
  nextPk : ℕ
  writers : Fin n → Writer J

inductive Act (J : Type) (n : ℕ) where
  /-- The caller enters a block. -/
  | enter (w : Fin n)
  /-- The innermost block ends: a savepoint is released, or the transaction commits. -/
  | exit (w : Fin n)
  /-- An exception leaves the caller's innermost block. -/
  | rollback (w : Fin n)
  | save (w : Fin n) (event : AuditEvent J)
  | link (w : Fin n)
  | insert (w : Fin n) (now : ℕ)
  /-- An `IntegrityError` of another constraint, also at the commit. -/
  | refuse (w : Fin n)
  /-- Any other exception in `save`. -/
  | fail (w : Fin n)
  /-- The connection is lost. -/
  | crash (w : Fin n)
deriving DecidableEq, Repr

variable {J : Type} {n : ℕ}

def State.setWriter (s : State J n) (w : Fin n) (writer : Writer J) : State J n :=
  { s with writers := Function.update s.writers w writer }

/-- What a writer sees: the committed rows and its own. -/
def State.visible (s : State J n) (w : Fin n) : List (AuditLog J) :=
  s.committed ++ (s.writers w).held

/-- The unique columns `chain_index` and `event_hash`. -/
def clashes (rows : List (AuditLog J)) (stamp : Stamp) : Bool :=
  rows.any fun row =>
    row.stamp.chainIndex == stamp.chainIndex || row.stamp.eventHash == stamp.eventHash

/-- The `except IntegrityError` branch: read again, or raise after the last attempt. -/
def retry (event : AuditEvent J) (attempt : ℕ) : Pc J :=
  if attempt + 1 < chainInsertMaxAttempts then .reading event (attempt + 1) else .idle

/-- Leave the innermost block of a writer, which then stands at `pc`. -/
def State.closeFrame (s : State J n) (w : Fin n) (pc : Pc J) : State J n :=
  match (s.writers w).frames with
  | [] => s.setWriter w ⟨[], pc⟩
  | [rows] => { s with committed := s.committed ++ rows }.setWriter w ⟨[], pc⟩
  | inner :: outer :: rest => s.setWriter w ⟨(outer ++ inner) :: rest, pc⟩

/-- Undo the innermost block of a writer. -/
def State.dropFrame (s : State J n) (w : Fin n) (pc : Pc J) : State J n :=
  s.setWriter w ⟨(s.writers w).frames.tail, pc⟩

def State.setPc (s : State J n) (w : Fin n) (pc : Pc J) : State J n :=
  s.setWriter w { s.writers w with pc := pc }

/-- The insert of a stamped record. -/
def State.insertRow (s : State J n) (w : Fin n) (event : AuditEvent J) (stamp : Stamp)
    (attempt now : ℕ) : State J n :=
  if ∃ v, v ≠ w ∧ clashes (s.writers v).held stamp = true then s
  else if clashes (s.visible w) stamp then s.setPc w (retry event attempt)
  else
    { s with nextPk := s.nextPk + 1 }.setWriter w
      ⟨[⟨s.nextPk, event, stamp, now⟩] :: (s.writers w).frames, .inserted event attempt⟩

def step (digest : HashPayload J → String) (s : State J n) : Act J n → State J n
  | .enter w =>
      match (s.writers w).pc with
      | .idle => s.setWriter w ⟨[] :: (s.writers w).frames, .idle⟩
      | _ => s
  | .exit w =>
      match (s.writers w).pc with
      | .idle | .inserted .. => s.closeFrame w .idle
      | _ => s
  | .rollback w =>
      match (s.writers w).pc with
      | .idle => s.dropFrame w .idle
      | _ => s
  | .save w event =>
      match (s.writers w).pc with
      | .idle => s.setPc w (.reading event 0)
      | _ => s
  | .link w =>
      match (s.writers w).pc with
      | .reading event attempt =>
          s.setPc w (.linked event (linkToChainHead digest (s.visible w) event) attempt)
      | _ => s
  | .insert w now =>
      match (s.writers w).pc with
      | .linked event stamp attempt => s.insertRow w event stamp attempt now
      | _ => s
  | .refuse w =>
      match (s.writers w).pc with
      | .linked event _ attempt => s.setPc w (retry event attempt)
      | .inserted event attempt => s.dropFrame w (retry event attempt)
      | _ => s
  | .fail w =>
      match (s.writers w).pc with
      | .reading .. | .linked .. => s.setPc w .idle
      | .inserted .. => s.dropFrame w .idle
      | .idle => s
  | .crash w => s.setWriter w ⟨[], .idle⟩

/-- An empty table and `n` connections without a transaction. -/
def start (J : Type) (n : ℕ) : State J n where
  committed := []
  nextPk := 1
  writers := fun _ => ⟨[], .idle⟩

/-! ## The invariant -/

/-- A stamp still extends what its writer sees, unless its position is taken. -/
def Current (digest : HashPayload J → String) (visible : List (AuditLog J))
    (event : AuditEvent J) (stamp : Stamp) : Prop :=
  (∃ row ∈ visible, row.stamp.chainIndex = stamp.chainIndex) ∨
    stamp = linkToChainHead digest visible event

/-- A chain that grows takes the position of a stamp that was current. -/
theorem Current.extend {digest : HashPayload J → String} {visible rows : List (AuditLog J)}
    {event : AuditEvent J} {stamp : Stamp} (h : Current digest visible event stamp)
    (hvisible : ChainIntact digest visible) (hrows : ChainIntact digest (visible ++ rows)) :
    Current digest (visible ++ rows) event stamp := by
  rcases h with ⟨row, hrow, hindex⟩ | hlink
  · exact .inl ⟨row, List.mem_append_left _ hrow, hindex⟩
  · by_cases hnil : rows = []
    · exact .inr (by rw [hnil, List.append_nil, hlink])
    · have hnext := linkToChainHead_intact hvisible event 0 0
      obtain ⟨row, hrow, hindex⟩ := hnext.clash hrows hnil
      exact .inl ⟨row, List.mem_append_right _ hrow, hindex.trans (by rw [hlink]; rfl)⟩

/-- Every writer sees an intact chain, at most one of them has added to it, and the
stamps under way are current. -/
structure Coherent (digest : HashPayload J → String) (s : State J n) : Prop where
  intact : ∀ w, ChainIntact digest (s.visible w)
  table : ChainIntact digest s.committed
  alone : ∀ v w, (s.writers v).held ≠ [] → (s.writers w).held ≠ [] → v = w
  current : ∀ w event stamp attempt, (s.writers w).pc = .linked event stamp attempt →
    Current digest (s.visible w) event stamp

theorem start_coherent (digest : HashPayload J → String) (n : ℕ) :
    Coherent digest (start J n) where
  intact := fun _ => trivial
  table := trivial
  alone := fun v _ hv => absurd rfl hv
  current := by simp [start]

variable {digest : HashPayload J → String} {s : State J n}

/-- Frame rule: a writer keeps its rows or gives up the last of them, and its stamp,
if any, is current. -/
theorem Coherent.setWriter (h : Coherent digest s) (w : Fin n) {writer : Writer J}
    (hheld : writer.held <+: (s.writers w).held)
    (hpc : ∀ event stamp attempt, writer.pc = .linked event stamp attempt →
      Current digest (s.committed ++ writer.held) event stamp) :
    Coherent digest (s.setWriter w writer) := by
  have hkeep : ∀ v, ((s.setWriter w writer).writers v).held ≠ [] → (s.writers v).held ≠ [] := by
    intro v hv
    by_cases hvw : v = w
    · subst hvw
      simp only [State.setWriter, Function.update_self] at hv
      intro hnil
      rw [hnil, List.prefix_nil] at hheld
      exact hv hheld
    · simpa [State.setWriter, Function.update_of_ne hvw] using hv
  refine ⟨?_, h.table, ?_, ?_⟩
  · intro v
    by_cases hvw : v = w
    · subst hvw
      refine (h.intact v).earlier ?_
      simpa [State.visible, State.setWriter, List.prefix_append_right_inj] using hheld
    · simpa [State.visible, State.setWriter, Function.update_of_ne hvw] using h.intact v
  · intro u v hu hv
    exact h.alone u v (hkeep u hu) (hkeep v hv)
  · intro v event stamp attempt hv
    by_cases hvw : v = w
    · subst hvw
      simp only [State.setWriter, Function.update_self] at hv
      simpa [State.visible, State.setWriter] using hpc event stamp attempt hv
    · simp only [State.setWriter, Function.update_of_ne hvw] at hv
      simpa [State.visible, State.setWriter, Function.update_of_ne hvw] using
        h.current v event stamp attempt hv

theorem Coherent.setPc (h : Coherent digest s) (w : Fin n) {pc : Pc J}
    (hpc : ∀ event stamp attempt, pc = .linked event stamp attempt →
      Current digest (s.visible w) event stamp) :
    Coherent digest (s.setPc w pc) :=
  h.setWriter w (List.prefix_refl _) hpc

theorem retry_ne_linked {event event' : AuditEvent J} {stamp : Stamp} {attempt attempt' : ℕ} :
    retry event attempt ≠ .linked event' stamp attempt' := by
  unfold retry
  split <;> simp

theorem held_tail (frames : List (List (AuditLog J))) (pc pc' : Pc J) :
    (Writer.mk frames.tail pc).held <+: (Writer.mk frames pc').held := by
  cases frames with
  | nil => exact List.prefix_refl _
  | cons inner rest => simp [Writer.held]

theorem Coherent.dropFrame (h : Coherent digest s) (w : Fin n) {pc : Pc J}
    (hpc : ∀ event stamp attempt, pc ≠ .linked event stamp attempt) :
    Coherent digest (s.dropFrame w pc) :=
  h.setWriter w (held_tail _ _ _) fun event stamp attempt heq =>
    absurd heq (hpc event stamp attempt)

/-- A commit: the rows of the only writer that holds any move to the table, and the
stamps of the others lose their position to them. -/
theorem Coherent.commit (h : Coherent digest s) (w : Fin n) {rows : List (AuditLog J)}
    (hframes : (s.writers w).frames = [rows]) :
    Coherent digest
      ({ s with committed := s.committed ++ rows }.setWriter w ⟨[], .idle⟩) := by
  have hheld : (s.writers w).held = rows := by simp [Writer.held, hframes]
  have htable : ChainIntact digest (s.committed ++ rows) := by
    simpa [State.visible, hheld] using h.intact w
  -- another writer holds nothing, unless there was nothing to commit
  have hother : ∀ v, v ≠ w → rows = [] ∨ (s.writers v).held = [] := by
    intro v hvw
    by_contra hboth
    obtain ⟨hrows, hv⟩ := not_or.mp hboth
    exact hvw (h.alone v w hv (hheld ▸ hrows))
  refine ⟨?_, htable, ?_, ?_⟩
  · intro v
    by_cases hvw : v = w
    · subst hvw
      simpa [State.visible, State.setWriter, Writer.held] using htable
    · have hv := h.intact v
      rcases hother v hvw with rfl | hnil
      · simpa [State.visible, State.setWriter, Function.update_of_ne hvw] using hv
      · simpa [State.visible, State.setWriter, Function.update_of_ne hvw, hnil] using htable
  · intro u v hu hv
    by_cases huw : u = w
    · simp [State.setWriter, huw, Writer.held] at hu
    · by_cases hvw : v = w
      · simp [State.setWriter, hvw, Writer.held] at hv
      · simp only [State.setWriter, Function.update_of_ne huw] at hu
        simp only [State.setWriter, Function.update_of_ne hvw] at hv
        exact h.alone u v hu hv
  · intro v event stamp attempt hv
    by_cases hvw : v = w
    · simp [State.setWriter, hvw] at hv
    · simp only [State.setWriter, Function.update_of_ne hvw] at hv
      have hcurrent := h.current v event stamp attempt hv
      rcases hother v hvw with rfl | hnil
      · simpa [State.visible, State.setWriter, Function.update_of_ne hvw] using hcurrent
      · have hsame : s.visible v = s.committed := by simp [State.visible, hnil]
        rw [hsame] at hcurrent
        simpa [State.visible, State.setWriter, Function.update_of_ne hvw, hnil] using
          hcurrent.extend h.table htable

theorem Coherent.closeFrame (h : Coherent digest s) (w : Fin n) :
    Coherent digest (s.closeFrame w .idle) := by
  unfold State.closeFrame
  split
  case h_1 hframes => exact h.setWriter w (by simp [Writer.held]) (by simp)
  case h_2 rows hframes => exact h.commit w hframes
  case h_3 inner outer rest hframes =>
    refine h.setWriter w ?_ (by simp)
    simp [Writer.held, hframes]

theorem clashes_of_index {rows : List (AuditLog J)} {stamp : Stamp}
    (h : ∃ row ∈ rows, row.stamp.chainIndex = stamp.chainIndex) : clashes rows stamp = true := by
  obtain ⟨row, hrow, hindex⟩ := h
  simp only [clashes, List.any_eq_true, Bool.or_eq_true, beq_iff_eq]
  exact ⟨row, hrow, .inl hindex⟩

/-- An insert that neither waits nor clashes: nobody else holds a row, and the stamp
is the next one. -/
theorem Coherent.insert (h : Coherent digest s) {w : Fin n} {event : AuditEvent J}
    {stamp : Stamp} {attempt : ℕ} (hpc : (s.writers w).pc = .linked event stamp attempt)
    (hfree : ¬ ∃ v, v ≠ w ∧ clashes (s.writers v).held stamp = true)
    (hclash : ¬ clashes (s.visible w) stamp = true) (pk now : ℕ) :
    ChainIntact digest (s.visible w ++ [⟨pk, event, stamp, now⟩]) ∧
      ∀ v, v ≠ w → (s.writers v).held = [] := by
  have hlink : stamp = linkToChainHead digest (s.visible w) event := by
    rcases h.current w event stamp attempt hpc with htaken | hlink
    · exact absurd (clashes_of_index htaken) hclash
    · exact hlink
  have hintact : ChainIntact digest (s.visible w ++ [⟨pk, event, stamp, now⟩]) := by
    rw [hlink]
    exact linkToChainHead_intact (h.intact w) event pk now
  refine ⟨hintact, ?_⟩
  intro v hvw
  by_contra hv
  -- then `w` holds nothing, and the rows of `v` begin at the position of the stamp
  have hw : (s.writers w).held = [] := by
    by_contra hw
    exact hvw (h.alone v w hv hw)
  have htable : s.visible w = s.committed := by simp [State.visible, hw]
  rw [htable] at hintact
  exact hfree ⟨v, hvw, clashes_of_index (hintact.clash (h.intact v) hv)⟩

theorem Coherent.insertRow (h : Coherent digest s) {w : Fin n} {event : AuditEvent J}
    {stamp : Stamp} {attempt : ℕ} (hpc : (s.writers w).pc = .linked event stamp attempt)
    (now : ℕ) : Coherent digest (s.insertRow w event stamp attempt now) := by
  unfold State.insertRow
  split
  case isTrue => exact h
  case isFalse hfree =>
    split
    case isTrue => exact h.setPc w fun _ _ _ heq => absurd heq retry_ne_linked
    case isFalse hclash =>
      obtain ⟨hintact, hothers⟩ := h.insert hpc hfree hclash s.nextPk now
      refine ⟨?_, h.table, ?_, ?_⟩
      · intro v
        by_cases hvw : v = w
        · subst hvw
          simpa [State.visible, State.setWriter, Writer.held] using hintact
        · simpa [State.visible, State.setWriter, Function.update_of_ne hvw] using h.intact v
      · intro u v hu hv
        have honly : ∀ v, ((State.setWriter { s with nextPk := s.nextPk + 1 } w
            ⟨[⟨s.nextPk, event, stamp, now⟩] :: (s.writers w).frames,
              .inserted event attempt⟩).writers v).held ≠ [] → v = w := by
          intro v hv
          by_contra hvw
          simp only [State.setWriter, Function.update_of_ne hvw] at hv
          exact hv (hothers v hvw)
        rw [honly u hu, honly v hv]
      · intro v event' stamp' attempt' hv
        by_cases hvw : v = w
        · simp [State.setWriter, hvw] at hv
        · simp only [State.setWriter, Function.update_of_ne hvw] at hv
          simpa [State.visible, State.setWriter, Function.update_of_ne hvw] using
            h.current v event' stamp' attempt' hv

/-- **Step.** Every action of every writer keeps the invariant. -/
theorem step_coherent (s : State J n) (a : Act J n) (h : Coherent digest s) :
    Coherent digest (step digest s a) := by
  cases a with
  | enter w =>
      simp only [step]
      split
      · exact h.setWriter w (by simp [Writer.held]) (by simp)
      · exact h
  | exit w =>
      simp only [step]
      split
      · exact h.closeFrame w
      · exact h.closeFrame w
      · exact h
  | rollback w =>
      simp only [step]
      split
      · exact h.dropFrame w (by simp)
      · exact h
  | save w event =>
      simp only [step]
      split
      · exact h.setPc w (by simp)
      · exact h
  | link w =>
      simp only [step]
      split
      · refine h.setPc w ?_
        intro event stamp attempt heq
        cases heq
        exact .inr rfl
      · exact h
  | insert w now =>
      simp only [step]
      split
      case h_1 event stamp attempt hpc => exact h.insertRow hpc now
      case h_2 => exact h
  | refuse w =>
      simp only [step]
      split
      · exact h.setPc w fun _ _ _ heq => absurd heq retry_ne_linked
      · exact h.dropFrame w fun _ _ _ => retry_ne_linked
      · exact h
  | fail w =>
      simp only [step]
      split
      · exact h.setPc w (by simp)
      · exact h.setPc w (by simp)
      · exact h.dropFrame w (by simp)
      · exact h
  | crash w => exact h.setWriter w (by simp [Writer.held]) (by simp)

/-- **Run.** -/
theorem run_coherent (digest : HashPayload J → String) (acts : List (Act J n)) :
    Coherent digest (run (step digest) (start J n) acts) :=
  invariant_run step_coherent (start_coherent digest n) acts

/-! ## Event hashes

The column is unique, so no two records of a table have the same hash. -/

def HashesDistinct (rows : List (AuditLog J)) : Prop :=
  (rows.map fun row => row.stamp.eventHash).Nodup

/-- Every writer sees records with different hashes. -/
structure Unrepeated (s : State J n) : Prop where
  visible : ∀ w, HashesDistinct (s.visible w)
  table : HashesDistinct s.committed

theorem HashesDistinct.earlier {xs ys : List (AuditLog J)} (h : HashesDistinct ys)
    (hpre : xs <+: ys) : HashesDistinct xs :=
  List.Nodup.sublist (hpre.sublist.map _) h

theorem Unrepeated.setWriter (h : Unrepeated s) (w : Fin n) {writer : Writer J}
    (hheld : writer.held <+: (s.writers w).held) : Unrepeated (s.setWriter w writer) := by
  refine ⟨fun v => ?_, h.table⟩
  by_cases hvw : v = w
  · subst hvw
    refine (h.visible v).earlier ?_
    simpa [State.visible, State.setWriter, List.prefix_append_right_inj] using hheld
  · simpa [State.visible, State.setWriter, Function.update_of_ne hvw] using h.visible v

theorem Unrepeated.dropFrame (h : Unrepeated s) (w : Fin n) (pc : Pc J) :
    Unrepeated (s.dropFrame w pc) :=
  h.setWriter w (held_tail _ _ _)

theorem Unrepeated.closeFrame (hs : Coherent digest s) (h : Unrepeated s) (w : Fin n) :
    Unrepeated (s.closeFrame w .idle) := by
  unfold State.closeFrame
  split
  case h_1 hframes => exact h.setWriter w (by simp [Writer.held])
  case h_2 rows hframes =>
    have hheld : (s.writers w).held = rows := by simp [Writer.held, hframes]
    have htable : HashesDistinct (s.committed ++ rows) := by
      simpa [State.visible, hheld] using h.visible w
    refine ⟨fun v => ?_, htable⟩
    by_cases hvw : v = w
    · subst hvw
      simpa [State.visible, State.setWriter, Writer.held] using htable
    · -- another writer holds nothing, unless there was nothing to commit
      by_cases hrows : rows = []
      · simpa [State.visible, State.setWriter, Function.update_of_ne hvw, hrows] using h.visible v
      · have hnil : (s.writers v).held = [] := by
          by_contra hv
          exact hvw (hs.alone v w hv (hheld ▸ hrows))
        simpa [State.visible, State.setWriter, Function.update_of_ne hvw, hnil] using htable
  case h_3 inner outer rest hframes => exact h.setWriter w (by simp [Writer.held, hframes])

theorem Unrepeated.insertRow (h : Unrepeated s) {w : Fin n} {event : AuditEvent J}
    {stamp : Stamp} {attempt : ℕ} (now : ℕ) :
    Unrepeated (s.insertRow w event stamp attempt now) := by
  unfold State.insertRow
  split
  case isTrue => exact h
  case isFalse hfree =>
    split
    case isTrue => exact h.setWriter w (List.prefix_refl _)
    case isFalse hclash =>
      refine ⟨fun v => ?_, h.table⟩
      by_cases hvw : v = w
      · subst hvw
        have hnew : ∀ row ∈ s.visible v, row.stamp.eventHash ≠ stamp.eventHash := by
          intro row hrow heq
          refine hclash (List.any_eq_true.mpr ⟨row, hrow, ?_⟩)
          simp [heq]
        have happend : HashesDistinct (s.visible v ++ [⟨s.nextPk, event, stamp, now⟩]) := by
          rw [HashesDistinct, List.map_append, List.nodup_append]
          refine ⟨h.visible v, by simp, fun hash hmem other hother => ?_⟩
          obtain ⟨row, hrow, rfl⟩ := List.mem_map.mp hmem
          rw [List.mem_singleton.mp hother]
          exact hnew row hrow
        simpa [State.visible, State.setWriter, Writer.held] using happend
      · simpa [State.visible, State.setWriter, Function.update_of_ne hvw] using h.visible v

theorem step_unrepeated (s : State J n) (a : Act J n) (h : Coherent digest s ∧ Unrepeated s) :
    Coherent digest (step digest s a) ∧ Unrepeated (step digest s a) := by
  obtain ⟨hs, h⟩ := h
  refine ⟨step_coherent s a hs, ?_⟩
  have hpc : ∀ (w : Fin n) (pc : Pc J), Unrepeated (s.setPc w pc) :=
    fun w pc => h.setWriter w (List.prefix_refl _)
  cases a with
  | enter w =>
      simp only [step]
      split
      · exact h.setWriter w (by simp [Writer.held])
      · exact h
  | exit w =>
      simp only [step]
      split
      · exact Unrepeated.closeFrame hs h w
      · exact Unrepeated.closeFrame hs h w
      · exact h
  | rollback w =>
      simp only [step]
      split
      · exact h.dropFrame w _
      · exact h
  | save w event =>
      simp only [step]
      split
      · exact hpc w _
      · exact h
  | link w =>
      simp only [step]
      split
      · exact hpc w _
      · exact h
  | insert w now =>
      simp only [step]
      split
      · exact h.insertRow now
      · exact h
  | refuse w =>
      simp only [step]
      split
      · exact hpc w _
      · exact h.dropFrame w _
      · exact h
  | fail w =>
      simp only [step]
      split
      · exact hpc w _
      · exact hpc w _
      · exact h.dropFrame w _
      · exact h
  | crash w => exact h.setWriter w (by simp [Writer.held])

theorem run_unrepeated (digest : HashPayload J → String) (acts : List (Act J n)) :
    HashesDistinct (run (step digest) (start J n) acts).committed := by
  have hstart : Unrepeated (start J n) := ⟨fun _ => List.nodup_nil, List.nodup_nil⟩
  exact (invariant_run step_unrepeated ⟨start_coherent digest n, hstart⟩ acts).2.table

/-- **Chain integrity.** Whatever the writers do and in whatever order, the committed
table is one chain: the positions are `1, …, m`, each record points to the one
before it, the first to the genesis, and the verifier accepts the table. -/
theorem audit_chain_intact (digest : HashPayload J → String) (n : ℕ) (acts : List (Act J n))
    (now : ℕ) :
    let table := (run (step digest) (start J n) acts).committed
    (table.map fun row => row.stamp.chainIndex) = List.range' 1 table.length ∧
      (∀ row, table[0]? = some row → row.stamp.previousHash = genesisHash) ∧
      (∀ (k : ℕ) (row row' : AuditLog J), table[k]? = some row → table[k + 1]? = some row' →
        row'.stamp.previousHash = row.stamp.eventHash) ∧
      ∃ result, verifyAuditChainIntegrity digest now table = .ok result ∧
        result.checked = table.length := by
  intro table
  have hintact : ChainIntact digest table := (run_coherent digest acts).table
  obtain ⟨result, hok, hchecked, -⟩ := verify_intact hintact now
  refine ⟨hintact.indices, ?_, ?_, result, hok, hchecked⟩
  · intro row hrow
    exact hintact.previous_first hrow
  · intro k row row' hrow hrow'
    exact hintact.previous_eq hrow hrow'

/-- A record of `action`. -/
def sampleEvent (action : String) : AuditEvent Unit :=
  ⟨1, none, action, none, none, "", "", "", "user", none, none, none⟩

-- Both writers stamp position 1; the second waits for the first, loses the position
-- to its commit, reads the head again and takes position 2.
example :
    ((run (step fun payload => payload.event.action) (start Unit 2)
      [.save 0 (sampleEvent "login"), .save 1 (sampleEvent "logout"), .link 0, .link 1,
        .insert 0 5, .insert 1 6, .exit 0, .insert 1 7, .link 1, .insert 1 8,
        .exit 1]).committed.map fun row => (row.pk, row.stamp)) =
      [(1, ⟨1, genesisHash, "login"⟩), (2, ⟨2, "login", "logout"⟩)] := by
  decide

end SetadJang.AuditLogs
