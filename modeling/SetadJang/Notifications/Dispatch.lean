import SetadJang.Framework.Rows
import SetadJang.Framework.Runs

/-!
# Dispatching a notification event

`dispatch_event` marks the event, loads its pending deliveries, sends them one by one outside
every transaction and writes all results in one `bulk_update`.  Runs on one event overlap:
the task, a redelivered task, the inline fallback.  The recipients read their notifications
meanwhile.  `handed` and `firstPending` are there for what is said about runs: the deliveries
whose provider was called, and what was pending when the first dispatch started.
-/

namespace SetadJang.Notifications

open SetadJang.Framework

inductive NotificationChannel where
  | inApp
  | email
  | sms
  | webhook
deriving DecidableEq, Repr

def NotificationChannel.value : NotificationChannel → String
  | inApp => "in_app"
  | email => "email"
  | sms => "sms"
  | webhook => "webhook"

inductive NotificationEventStatus where
  | pending
  | processing
  | sent
  | partially
  | failed
  | cancelled
deriving DecidableEq, Repr

inductive NotificationDeliveryStatus where
  | pending
  | sent
  | failed
  | skipped
  | read
deriving DecidableEq, Repr

structure NotificationEvent where
  status : NotificationEventStatus
  attemptCount : ℕ
  processedAt : Option ℕ
deriving DecidableEq, Repr

/-- A row of the event, or the object that a run loaded from it. -/
structure NotificationDelivery where
  recipient : ℕ
  channel : NotificationChannel
  status : NotificationDeliveryStatus
  provider : String
  externalId : String
  errorMessage : String
  sentAt : Option ℕ
  readAt : Option ℕ
deriving DecidableEq, Repr

structure NotificationDeliveryResult where
  success : Bool
  provider : String
  externalId : String
  errorMessage : String
deriving DecidableEq, Repr

/-- A delivery as `create_notification_event` inserts it. -/
def NotificationDelivery.fresh (recipient : ℕ) (channel : NotificationChannel) :
    NotificationDelivery :=
  ⟨recipient, channel, .pending, "", "", "", none, none⟩

/-! ## The steps of a run -/

/-- `_send_delivery`; an exception of the provider is given by its name. -/
def sendDelivery (delivery : NotificationDelivery)
    (answer : Except String NotificationDeliveryResult) : NotificationDeliveryResult :=
  match answer with
  | .ok result => result
  | .error name => ⟨false, delivery.channel.value, "", name⟩

/-- The object after its turn in the loop. -/
def NotificationDelivery.answered (delivery : NotificationDelivery)
    (result : NotificationDeliveryResult) (now : ℕ) : NotificationDelivery :=
  let delivery :=
    { delivery with provider := result.provider, externalId := result.externalId }
  if result.success = true then { delivery with status := .sent, sentAt := some now }
  else { delivery with status := .failed, errorMessage := result.errorMessage }

/-- The columns that `bulk_update` writes. -/
def NotificationDelivery.overwrite (row object : NotificationDelivery) : NotificationDelivery :=
  { row with
    provider := object.provider
    externalId := object.externalId
    status := object.status
    sentAt := object.sentAt
    errorMessage := object.errorMessage }

/-- An object in the memory of a run, with its key. -/
abbrev LoadedDelivery := ℕ × NotificationDelivery

def pendingAt (deliveries : List NotificationDelivery) (k : ℕ) : Option LoadedDelivery :=
  match deliveries[k]? with
  | some delivery => if delivery.status = .pending then some (k, delivery) else none
  | none => none

/-- `event.deliveries.filter(status=PENDING)`, the newest first. -/
def pendingDeliveries (deliveries : List NotificationDelivery) : List LoadedDelivery :=
  (List.range deliveries.length).reverse.filterMap (pendingAt deliveries)

def bulkUpdate (deliveries : List NotificationDelivery) (objects : List LoadedDelivery) :
    List NotificationDelivery :=
  objects.foldl (fun rows object => rows.modify object.1 (·.overwrite object.2)) deliveries

/-- The results fit the columns of the table. -/
def writeFits (objects : List LoadedDelivery) : Bool :=
  objects.all fun object =>
    decide (object.2.provider.length ≤ 80) && decide (object.2.externalId.length ≤ 160)

/-- The status of the event from the counters of the run. -/
def outcome (objects : List LoadedDelivery) : NotificationEventStatus :=
  let sent := objects.countP fun object => object.2.status == .sent
  let failed := objects.countP fun object => object.2.status == .failed
  if failed = 0 then .sent else if sent ≠ 0 then .partially else .failed

/-- Where a run stands; `event` is its own object. -/
inductive DispatchRun where
  | opened (event : NotificationEvent)
  | started (event : NotificationEvent)
  | sending (event : NotificationEvent) (answered waiting : List LoadedDelivery)
  | finished
deriving DecidableEq, Repr

structure DispatchSys where
  event : NotificationEvent
  deliveries : List NotificationDelivery
  runs : List DispatchRun
  handed : List ℕ
  firstPending : Option (ℕ × List ℕ)
deriving DecidableEq, Repr

inductive DispatchAct where
  /-- The task reads the event, or the fallback has it in memory. -/
  | openEvent
  | start (i : ℕ)
  | load (i : ℕ)
  | send (i : ℕ) (answer : Except String NotificationDeliveryResult) (now : ℕ)
  | write (i now : ℕ)
  | markDeliveryRead (k user now : ℕ)
  | markAllRead (user now : ℕ)

namespace DispatchSys

def setRun (s : DispatchSys) (i : ℕ) (r : DispatchRun) : DispatchSys :=
  { s with runs := s.runs.set i r }

/-- The first transaction of `dispatch_event`. -/
def startRun (s : DispatchSys) (i : ℕ) (event : NotificationEvent) : DispatchSys :=
  let event := { event with status := .processing, attemptCount := event.attemptCount + 1 }
  { s.setRun i (.started event) with
    event := { s.event with status := event.status, attemptCount := event.attemptCount }
    firstPending := s.firstPending <|> some (i, (pendingDeliveries s.deliveries).map Prod.fst) }

/-- One turn of the loop. -/
def sendNext (s : DispatchSys) (i : ℕ) (event : NotificationEvent)
    (answered : List LoadedDelivery) (next : LoadedDelivery) (waiting : List LoadedDelivery)
    (answer : Except String NotificationDeliveryResult) (now : ℕ) : DispatchSys :=
  let delivery := next.2.answered (sendDelivery next.2 answer) now
  { s.setRun i (.sending event (answered ++ [(next.1, delivery)]) waiting) with
    handed := s.handed ++ [next.1] }

/-- The last transaction of `dispatch_event`; a text that does not fit raises. -/
def writeResults (s : DispatchSys) (i : ℕ) (answered : List LoadedDelivery) (now : ℕ) :
    DispatchSys :=
  if writeFits answered = true then
    { s.setRun i .finished with
      deliveries := bulkUpdate s.deliveries answered
      event := { s.event with status := outcome answered, processedAt := some now } }
  else s.setRun i .finished

/-- `mark_delivery_read` and `mark_all_read` save these columns. -/
def markRead (now : ℕ) (delivery : NotificationDelivery) : NotificationDelivery :=
  { delivery with status := .read, readAt := some now }

end DispatchSys

open DispatchSys in
/-- One step of a run or of a reader. -/
def dispatchStep (s : DispatchSys) : DispatchAct → DispatchSys
  | .openEvent => { s with runs := s.runs ++ [.opened s.event] }
  | .start i =>
      match s.runs[i]? with
      | some (.opened event) => s.startRun i event
      | _ => s
  | .load i =>
      match s.runs[i]? with
      | some (.started event) => s.setRun i (.sending event [] (pendingDeliveries s.deliveries))
      | _ => s
  | .send i answer now =>
      match s.runs[i]? with
      | some (.sending event answered (next :: waiting)) =>
          s.sendNext i event answered next waiting answer now
      | _ => s
  | .write i now =>
      match s.runs[i]? with
      | some (.sending _ answered []) => s.writeResults i answered now
      | _ => s
  | .markDeliveryRead k user now =>
      match s.deliveries[k]? with
      | some delivery =>
          if delivery.recipient = user then
            { s with deliveries := s.deliveries.modify k (markRead now) }
          else s
      | none => s
  | .markAllRead user now =>
      { s with
        deliveries := s.deliveries.map fun delivery =>
          if delivery.recipient = user ∧ delivery.status ≠ .read then markRead now delivery
          else delivery }

/-- An event as it is created, with its deliveries. -/
def dispatchStart (targets : List (ℕ × NotificationChannel)) : DispatchSys where
  event := ⟨.pending, 0, none⟩
  deliveries := targets.map fun target => .fresh target.1 target.2
  runs := []
  handed := []
  firstPending := none

/-! ## What the writes do -/

theorem pendingAt_eq_some_iff {deliveries : List NotificationDelivery} {k : ℕ}
    {object : LoadedDelivery} :
    pendingAt deliveries k = some object ↔
      object.1 = k ∧ deliveries[k]? = some object.2 ∧ object.2.status = .pending := by
  obtain ⟨key, delivery⟩ := object
  unfold pendingAt
  constructor
  · intro h
    split at h
    · next row hrow =>
        split_ifs at h with hpending
        obtain ⟨rfl, rfl⟩ := Prod.mk.inj (Option.some.inj h)
        exact ⟨rfl, hrow, hpending⟩
    · cases h
  · rintro ⟨rfl, hrow, hpending⟩
    simp only at hrow hpending
    simp only [hrow, if_pos hpending]

theorem mem_pendingDeliveries {deliveries : List NotificationDelivery} {object : LoadedDelivery} :
    object ∈ pendingDeliveries deliveries ↔
      deliveries[object.1]? = some object.2 ∧ object.2.status = .pending := by
  simp only [pendingDeliveries, List.mem_filterMap, List.mem_reverse, List.mem_range,
    pendingAt_eq_some_iff]
  constructor
  · rintro ⟨_, -, rfl, hrow⟩
    exact hrow
  · intro hrow
    exact ⟨object.1, (List.getElem?_eq_some_iff.mp hrow.1).1, rfl, hrow⟩

/-- The keys that are loaded are different. -/
theorem nodup_pendingDeliveries (deliveries : List NotificationDelivery) :
    ((pendingDeliveries deliveries).map Prod.fst).Nodup := by
  rw [pendingDeliveries, List.map_filterMap]
  refine List.Nodup.filterMap ?_ (List.nodup_reverse.mpr List.nodup_range)
  intro k j key hk hj
  obtain ⟨object, hobject, rfl⟩ := Option.map_eq_some_iff.mp hk
  obtain ⟨other, hother, hkey⟩ := Option.map_eq_some_iff.mp hj
  rw [← (pendingAt_eq_some_iff.mp hobject).1, ← (pendingAt_eq_some_iff.mp hother).1, hkey]

/-- **A row after `bulk_update`**: no object writes it, or it has the status of one. -/
theorem bulkUpdate_row (objects : List LoadedDelivery) {deliveries : List NotificationDelivery}
    {k : ℕ} {row : NotificationDelivery} (h : deliveries[k]? = some row) :
    ∃ row', (bulkUpdate deliveries objects)[k]? = some row' ∧
      (((∀ object ∈ objects, object.1 ≠ k) ∧ row' = row) ∨
        ∃ object ∈ objects, object.1 = k ∧ row'.status = object.2.status) := by
  induction objects generalizing deliveries row with
  | nil => exact ⟨row, h, Or.inl ⟨by simp, rfl⟩⟩
  | cons object objects ih =>
      by_cases hkey : object.1 = k
      · have hmodified : (deliveries.modify object.1 (·.overwrite object.2))[k]? =
            some (row.overwrite object.2) := by
          rw [hkey]
          simp [h]
        obtain ⟨row', hrow', ⟨-, rfl⟩ | ⟨other, hother, hotherKey, hstatus⟩⟩ := ih hmodified
        · exact ⟨_, hrow', Or.inr ⟨object, List.mem_cons_self, hkey, rfl⟩⟩
        · exact ⟨row', hrow', Or.inr ⟨other, List.mem_cons_of_mem _ hother, hotherKey, hstatus⟩⟩
      · have hsame : (deliveries.modify object.1 (·.overwrite object.2))[k]? = some row := by
          rw [List.getElem?_modify_ne _ _ hkey, h]
        obtain ⟨row', hrow', ⟨hnone, rfl⟩ | ⟨other, hother, hotherKey, hstatus⟩⟩ := ih hsame
        · exact ⟨_, hrow', Or.inl ⟨List.forall_mem_cons.mpr ⟨hkey, hnone⟩, rfl⟩⟩
        · exact ⟨row', hrow', Or.inr ⟨other, List.mem_cons_of_mem _ hother, hotherKey, hstatus⟩⟩

/-! ## The objects of a run -/

/-- An object that was handed over, and has its result. -/
structure Settled (handed : List ℕ) (object : LoadedDelivery) : Prop where
  status : object.2.status = .sent ∨ object.2.status = .failed
  handed : object.1 ∈ handed

/-- The objects of every run, up to where the run is. -/
def SettledObjects (s : DispatchSys) : Prop :=
  ∀ (i : ℕ) (event : NotificationEvent) (answered waiting : List LoadedDelivery),
    s.runs[i]? = some (.sending event answered waiting) →
    ∀ object ∈ answered, Settled s.handed object

theorem status_answered (delivery : NotificationDelivery) (result : NotificationDeliveryResult)
    (now : ℕ) :
    (delivery.answered result now).status = .sent ∨
      (delivery.answered result now).status = .failed := by
  unfold NotificationDelivery.answered
  split_ifs
  · exact Or.inl rfl
  · exact Or.inr rfl

/-- What a run is after a step: what it was, or what the step made of it. -/
theorem getElem?_setRun_cases {s : DispatchSys} {i j : ℕ} {r r' : DispatchRun}
    (h : (s.runs.set i r)[j]? = some r') : r' = r ∨ s.runs[j]? = some r' := by
  rw [List.getElem?_set] at h
  split_ifs at h
  · exact Or.inl (Option.some.inj h).symm
  · exact Or.inr h

theorem settledObjects_step {s : DispatchSys} (hs : SettledObjects s) (a : DispatchAct) :
    SettledObjects (dispatchStep s a) := by
  have hset : ∀ (i : ℕ) (r : DispatchRun) (handed : List ℕ), (∀ k ∈ s.handed, k ∈ handed) →
      (∀ event answered waiting, r = .sending event answered waiting →
        ∀ object ∈ answered, Settled handed object) →
      ∀ (j : ℕ) event answered waiting,
        (s.runs.set i r)[j]? = some (.sending event answered waiting) →
        ∀ object ∈ answered, Settled handed object := by
    intro i r handed hmono hr j event answered waiting hj object hobject
    rcases getElem?_setRun_cases hj with hnew | hold
    · exact hr event answered waiting hnew.symm object hobject
    · obtain ⟨hstatus, hhanded⟩ := hs j event answered waiting hold object hobject
      exact ⟨hstatus, hmono _ hhanded⟩
  have hquiet : ∀ (i : ℕ) (r : DispatchRun), (∀ event answered waiting,
      r = .sending event answered waiting → answered = []) → ∀ (j : ℕ) event answered waiting,
      (s.runs.set i r)[j]? = some (.sending event answered waiting) →
      ∀ object ∈ answered, Settled s.handed object := by
    intro i r hr
    refine hset i r s.handed (fun _ h => h) fun event answered waiting heq object hobject => ?_
    rw [hr event answered waiting heq] at hobject
    cases hobject
  cases a with
  | openEvent =>
      intro j event answered waiting hj
      rcases getElem?_concat_cases hj with hold | ⟨-, hnew⟩
      · exact hs j event answered waiting hold
      · cases hnew
  | start i =>
      simp only [dispatchStep]
      split
      · exact hquiet i _ nofun
      · exact hs
  | load i =>
      simp only [dispatchStep]
      split
      · refine hquiet i _ fun event answered waiting heq => ?_
        cases heq
        rfl
      · exact hs
  | send i answer now =>
      simp only [dispatchStep]
      split
      · next event answered next waiting hrun =>
          refine hset i _ (s.handed ++ [next.1]) (fun k hk => List.mem_append_left _ hk) ?_
          intro event' answered' waiting' heq object hobject
          cases heq
          rcases List.mem_append.mp hobject with hold | hnew
          · obtain ⟨hstatus, hhanded⟩ := hs i _ _ _ hrun object hold
            exact ⟨hstatus, List.mem_append_left _ hhanded⟩
          · rw [List.mem_singleton.mp hnew]
            exact ⟨status_answered _ _ _, List.mem_append_right _ List.mem_cons_self⟩
      · exact hs
  | write i now =>
      simp only [dispatchStep]
      split
      · unfold DispatchSys.writeResults
        split
        · exact hquiet i _ nofun
        · exact hquiet i _ nofun
      · exact hs
  | markDeliveryRead k user now =>
      simp only [dispatchStep]
      split
      · split
        · exact hs
        · exact hs
      · exact hs
  | markAllRead user now => exact hs

end SetadJang.Notifications
