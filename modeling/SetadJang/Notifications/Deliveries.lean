import SetadJang.Notifications.Dispatch

/-!
# Each delivery once

What `dispatch_event` promises of the deliveries of an event: each is handed to its provider
once, the first dispatch drops none, and an event that is SENT has no FAILED delivery.  Nothing
claims a row before it is sent and the status of the event is computed from one run's results,
so the promises are kept where the runs and the readers stay out of each other's way.
-/

namespace SetadJang.Notifications

open SetadJang.Framework

/-! ## What goes wrong -/

/-- The deliveries that a run still has to send. -/
def DispatchRun.waitingKeys : DispatchRun → List ℕ
  | sending _ _ waiting => waiting.map Prod.fst
  | _ => []

def waitingKeys (s : DispatchSys) : List ℕ := s.runs.flatMap DispatchRun.waitingKeys

/-- The deliveries that a step loads. -/
def loadedKeys (s : DispatchSys) : DispatchAct → List ℕ
  | .load i =>
      match s.runs[i]? with
      | some (.started _) => (pendingDeliveries s.deliveries).map Prod.fst
      | _ => []
  | _ => []

/-- A run loads no delivery that was handed over already or waits in another run. -/
def LoadsUnclaimed (s : DispatchSys) (a : DispatchAct) : Prop :=
  ∀ k ∈ loadedKeys s a, k ∉ s.handed ∧ k ∉ waitingKeys s

/-- The first dispatch has started and not loaded its deliveries yet. -/
def firstIsLoading (s : DispatchSys) : Bool :=
  s.firstPending.any fun first =>
    match s.runs[first.1]? with
    | some (.started _) => true
    | _ => false

/-- The deliveries that a step marks READ. -/
def markedKeys (s : DispatchSys) : DispatchAct → List ℕ
  | .markDeliveryRead k user _ =>
      if s.deliveries[k]?.any (fun delivery => delivery.recipient == user) = true then [k] else []
  | .markAllRead user _ =>
      (List.range s.deliveries.length).filter fun k =>
        s.deliveries[k]?.any fun delivery => delivery.recipient == user && delivery.status != .read
  | _ => []

/-- While the first dispatch is loading, no reader marks a pending delivery that nobody has
handed over. -/
def SparesFirst (s : DispatchSys) (a : DispatchAct) : Prop :=
  firstIsLoading s = true → ∀ k ∈ markedKeys s a, k ∈ s.handed ∨
    ∀ row ∈ s.deliveries[k]?, row.status ≠ .pending

/-- The results that a step writes, if the event becomes SENT by them. -/
def cleanResults (s : DispatchSys) : DispatchAct → Option (List LoadedDelivery)
  | .write i _ =>
      match s.runs[i]? with
      | some (.sending _ answered []) =>
          if writeFits answered = true ∧ outcome answered = .sent then some answered else none
      | _ => none
  | _ => none

/-- A run that ends without a failure finds none but its own deliveries FAILED. -/
def EndsClean (s : DispatchSys) (a : DispatchAct) : Prop :=
  ∀ objects ∈ cleanResults s a, ∀ k < s.deliveries.length, ∀ row ∈ s.deliveries[k]?,
    row.status = .failed → k ∈ objects.map Prod.fst

def InOrder (s : DispatchSys) (a : DispatchAct) : Prop :=
  LoadsUnclaimed s a ∧ SparesFirst s a ∧ EndsClean s a

instance (s : DispatchSys) (a : DispatchAct) : Decidable (InOrder s a) :=
  inferInstanceAs (Decidable ((∀ k ∈ loadedKeys s a, k ∉ s.handed ∧ k ∉ waitingKeys s) ∧
    (firstIsLoading s = true → ∀ k ∈ markedKeys s a, k ∈ s.handed ∨
      ∀ row ∈ s.deliveries[k]?, row.status ≠ .pending) ∧
    ∀ objects ∈ cleanResults s a, ∀ k < s.deliveries.length, ∀ row ∈ s.deliveries[k]?,
      row.status = .failed → k ∈ objects.map Prod.fst))

/-! ## Sent once -/

/-- Nothing is handed over twice, and nothing handed over is still waiting. -/
def SentOnce (s : DispatchSys) : Prop := (s.handed ++ waitingKeys s).Nodup

/-- A run that neither gains nor loses a delivery. -/
theorem sentOnce_setRun {s s' : DispatchSys} {i : ℕ} {r r' : DispatchRun}
    (hrun : s.runs[i]? = some r) (hruns : s'.runs = s.runs.set i r')
    (hkeys : r'.waitingKeys = r.waitingKeys) (hhanded : s'.handed = s.handed) (hs : SentOnce s) :
    SentOnce s' := by
  obtain ⟨others, hold, hnew⟩ := flatMap_set_perm DispatchRun.waitingKeys hrun
  have hperm : (waitingKeys s').Perm (waitingKeys s) := by
    rw [waitingKeys, hruns]
    exact (hnew r').trans (hkeys ▸ hold.symm)
  rw [SentOnce, hhanded]
  exact ((hperm.append_left s.handed).nodup_iff).mpr hs

theorem sentOnce_step {s : DispatchSys} {a : DispatchAct} (hs : SentOnce s)
    (hok : LoadsUnclaimed s a) : SentOnce (dispatchStep s a) := by
  cases a with
  | openEvent =>
      have hkeys : waitingKeys (dispatchStep s .openEvent) = waitingKeys s := by
        simp [waitingKeys, dispatchStep, DispatchRun.waitingKeys]
      rw [SentOnce, hkeys]
      exact hs
  | start i =>
      simp only [dispatchStep]
      split
      · next event hrun => exact sentOnce_setRun hrun rfl rfl rfl hs
      · exact hs
  | load i =>
      simp only [dispatchStep]
      split
      · next event hrun =>
          obtain ⟨others, hold, hnew⟩ := flatMap_set_perm DispatchRun.waitingKeys hrun
          have hfree : ∀ k ∈ (pendingDeliveries s.deliveries).map Prod.fst,
              k ∉ s.handed ∧ k ∉ waitingKeys s := by
            intro k hk
            exact hok k (by simpa [loadedKeys, hrun] using hk)
          have hothers : (s.handed ++ others).Nodup :=
            ((hold.append_left s.handed).nodup_iff).mp hs
          have hnodup : ((pendingDeliveries s.deliveries).map Prod.fst ++
              (s.handed ++ others)).Nodup := by
            refine List.nodup_append.mpr ⟨nodup_pendingDeliveries s.deliveries, hothers, ?_⟩
            rintro k hk _ hother rfl
            obtain ⟨hhanded, hwaiting⟩ := hfree k hk
            rcases List.mem_append.mp hother with hmem | hmem
            · exact hhanded hmem
            · exact hwaiting (hold.mem_iff.mpr hmem)
          have hperm := ((hnew (.sending event [] (pendingDeliveries s.deliveries))).append_left
            s.handed).trans (List.perm_append_comm_assoc _ _ _)
          exact hperm.nodup_iff.mpr hnodup
      · exact hs
  | send i answer now =>
      simp only [dispatchStep]
      split
      · next event answered next waiting hrun =>
          obtain ⟨others, hold, hnew⟩ := flatMap_set_perm DispatchRun.waitingKeys hrun
          have hbefore : (s.handed ++ (next.1 :: waiting.map Prod.fst ++ others)).Nodup :=
            ((hold.append_left s.handed).nodup_iff).mp hs
          have hperm := (hnew (.sending event (answered ++ [(next.1, next.2.answered
            (sendDelivery next.2 answer) now)]) waiting)).append_left (s.handed ++ [next.1])
          refine hperm.nodup_iff.mpr ?_
          rw [List.append_assoc]
          exact hbefore
      · exact hs
  | write i now =>
      simp only [dispatchStep]
      split
      · next event answered hrun =>
          unfold DispatchSys.writeResults
          split
          · exact sentOnce_setRun hrun rfl rfl rfl hs
          · exact sentOnce_setRun hrun rfl rfl rfl hs
      · exact hs
  | markDeliveryRead k user now =>
      simp only [dispatchStep]
      split
      · split
        · exact hs
        · exact hs
      · exact hs
  | markAllRead user now => exact hs

/-! ## None dropped -/

/-- Where the deliveries are that were pending when the first dispatch started: handed over,
or still in front of the run. -/
def FirstKeeps (s : DispatchSys) (keys : List ℕ) : DispatchRun → Prop
  | .opened _ => False
  | .started _ => ∀ k ∈ keys, k ∈ s.handed ∨ k ∈ (pendingDeliveries s.deliveries).map Prod.fst
  | .sending _ _ waiting => ∀ k ∈ keys, k ∈ s.handed ∨ k ∈ waiting.map Prod.fst
  | .finished => ∀ k ∈ keys, k ∈ s.handed

def FirstOnTrack (s : DispatchSys) : Prop :=
  ∀ first ∈ s.firstPending, ∃ r, s.runs[first.1]? = some r ∧ FirstKeeps s first.2 r

/-- What is pending stays pending or has been handed over. -/
def PendingKept (s s' : DispatchSys) : Prop :=
  ∀ k ∈ (pendingDeliveries s.deliveries).map Prod.fst,
    k ∈ s'.handed ∨ k ∈ (pendingDeliveries s'.deliveries).map Prod.fst

theorem mem_pendingKeys {deliveries : List NotificationDelivery} {k : ℕ} :
    k ∈ (pendingDeliveries deliveries).map Prod.fst ↔
      ∃ row, deliveries[k]? = some row ∧ row.status = .pending := by
  constructor
  · intro h
    obtain ⟨object, hobject, rfl⟩ := List.mem_map.mp h
    exact ⟨object.2, mem_pendingDeliveries.mp hobject⟩
  · rintro ⟨row, hrow⟩
    exact List.mem_map.mpr ⟨(k, row), mem_pendingDeliveries.mpr hrow, rfl⟩

theorem FirstKeeps.mono {s s' : DispatchSys} {keys : List ℕ} {r : DispatchRun}
    (h : FirstKeeps s keys r) (hhanded : ∀ k ∈ s.handed, k ∈ s'.handed)
    (hrows : ∀ event, r = .started event → PendingKept s s') : FirstKeeps s' keys r := by
  cases r with
  | opened event => exact h
  | started event =>
      intro k hk
      rcases h k hk with hdone | hpending
      · exact Or.inl (hhanded k hdone)
      · exact hrows event rfl k hpending
  | sending event answered waiting => exact fun k hk => (h k hk).imp_left (hhanded k)
  | finished => exact fun k hk => hhanded k (h k hk)

/-- A step of one run: it keeps its own promise, and the pending rows of the others. -/
theorem firstOnTrack_setRun {s s' : DispatchSys} {i : ℕ} {r r' : DispatchRun}
    (hs : FirstOnTrack s) (hrun : s.runs[i]? = some r) (hruns : s'.runs = s.runs.set i r')
    (hfirst : s'.firstPending = s.firstPending) (hhanded : ∀ k ∈ s.handed, k ∈ s'.handed)
    (hrows : PendingKept s s') (hown : ∀ keys, FirstKeeps s keys r → FirstKeeps s' keys r') :
    FirstOnTrack s' := by
  intro first hmem
  rw [hfirst] at hmem
  obtain ⟨r₀, hr₀, hkeeps⟩ := hs first hmem
  rw [hruns]
  by_cases hsame : i = first.1
  · subst hsame
    obtain rfl : r₀ = r := Option.some.inj (hr₀.symm.trans hrun)
    have hlt := (List.getElem?_eq_some_iff.mp hrun).1
    exact ⟨r', by simp [hlt], hown _ hkeeps⟩
  · exact ⟨r₀, by rw [List.getElem?_set_ne hsame, hr₀],
      hkeeps.mono hhanded fun _ _ => hrows⟩

/-- The results of a run are those of deliveries that were handed over. -/
theorem pendingKept_bulkUpdate {deliveries : List NotificationDelivery}
    {objects : List LoadedDelivery} {handed : List ℕ}
    (hobjects : ∀ object ∈ objects, Settled handed object) {k : ℕ}
    (hk : k ∈ (pendingDeliveries deliveries).map Prod.fst) :
    k ∈ handed ∨ k ∈ (pendingDeliveries (bulkUpdate deliveries objects)).map Prod.fst := by
  obtain ⟨row, hrow, hpending⟩ := mem_pendingKeys.mp hk
  obtain ⟨row', hrow', ⟨-, rfl⟩ | ⟨object, hobject, rfl, -⟩⟩ := bulkUpdate_row objects hrow
  · exact Or.inr (mem_pendingKeys.mpr ⟨_, hrow', hpending⟩)
  · exact Or.inl (hobjects object hobject).handed

/-- Frame: a row changes only where results are written or a reader marks it. -/
theorem getElem?_of_unmarked {s : DispatchSys} {a : DispatchAct} {k : ℕ}
    {row : NotificationDelivery} (ha : ∀ i now, a ≠ .write i now) (hk : k ∉ markedKeys s a)
    (hrow : s.deliveries[k]? = some row) : (dispatchStep s a).deliveries[k]? = some row := by
  cases a with
  | openEvent => exact hrow
  | start i =>
      simp only [dispatchStep]
      split <;> exact hrow
  | load i =>
      simp only [dispatchStep]
      split <;> exact hrow
  | send i answer now =>
      simp only [dispatchStep]
      split <;> exact hrow
  | write i now => exact absurd rfl (ha i now)
  | markDeliveryRead k' user now =>
      simp only [dispatchStep]
      split
      · next delivery hdelivery =>
          split
          · next howner =>
              have hne : k' ≠ k := by
                rintro rfl
                exact hk (by simp [markedKeys, hdelivery, howner])
              simp only [List.getElem?_modify_ne _ _ hne, hrow]
          · exact hrow
      · exact hrow
  | markAllRead user now =>
      have hother : ¬ (row.recipient = user ∧ row.status ≠ .read) := by
        rintro ⟨howner, hunread⟩
        refine hk (List.mem_filter.mpr ⟨?_, ?_⟩)
        · exact List.mem_range.mpr (List.getElem?_eq_some_iff.mp hrow).1
        · simp [hrow, howner, hunread]
      simp only [dispatchStep, List.getElem?_map, hrow, Option.map_some, if_neg hother]

/-- A reader that spares the first dispatch, while that one is loading. -/
theorem pendingKept_mark {s : DispatchSys} {a : DispatchAct} (ha : ∀ i now, a ≠ .write i now)
    (hhanded : (dispatchStep s a).handed = s.handed)
    (hspared : ∀ k ∈ markedKeys s a, k ∈ s.handed ∨
      ∀ row ∈ s.deliveries[k]?, row.status ≠ .pending) :
    PendingKept s (dispatchStep s a) := by
  intro k hk
  obtain ⟨row, hrow, hpending⟩ := mem_pendingKeys.mp hk
  rw [hhanded]
  by_cases hmarked : k ∈ markedKeys s a
  · exact (hspared k hmarked).imp_right fun hnot => absurd hpending (hnot row hrow)
  · exact Or.inr (mem_pendingKeys.mpr ⟨row, getElem?_of_unmarked ha hmarked hrow, hpending⟩)

/-- A reader's step. -/
theorem firstOnTrack_mark {s : DispatchSys} {a : DispatchAct} (hs : FirstOnTrack s)
    (ha : ∀ i now, a ≠ .write i now) (hruns : (dispatchStep s a).runs = s.runs)
    (hfirst : (dispatchStep s a).firstPending = s.firstPending)
    (hhanded : (dispatchStep s a).handed = s.handed) (hok : SparesFirst s a) :
    FirstOnTrack (dispatchStep s a) := by
  intro first hmem
  rw [hfirst] at hmem
  obtain ⟨r, hr, hkeeps⟩ := hs first hmem
  refine ⟨r, by rw [hruns, hr], hkeeps.mono (fun k hk => hhanded ▸ hk) ?_⟩
  rintro event rfl
  have hloading : firstIsLoading s = true := by
    rw [firstIsLoading, Option.mem_def.mp hmem]
    simp [hr]
  exact pendingKept_mark ha hhanded (hok hloading)

/-- The first start notes what is pending; a later one is the start of another run. -/
theorem firstOnTrack_start {s : DispatchSys} {i : ℕ} {event : NotificationEvent}
    (hs : FirstOnTrack s) (hrun : s.runs[i]? = some (.opened event)) :
    FirstOnTrack (s.startRun i event) := by
  have hlt := (List.getElem?_eq_some_iff.mp hrun).1
  intro first hmem
  cases hfirst : s.firstPending with
  | none =>
      have heq : some (i, (pendingDeliveries s.deliveries).map Prod.fst) = some first := by
        simpa [DispatchSys.startRun, hfirst] using hmem
      obtain rfl := Option.some.inj heq
      exact ⟨_, List.getElem?_set_self hlt, fun k hk => Or.inr hk⟩
  | some first₀ =>
      have heq : some first₀ = some first := by
        simpa [DispatchSys.startRun, hfirst] using hmem
      obtain rfl := Option.some.inj heq
      obtain ⟨r, hr, hkeeps⟩ := hs first₀ hfirst
      have hne : i ≠ first₀.1 := by
        rintro rfl
        obtain rfl : r = .opened event := Option.some.inj (hr.symm.trans hrun)
        exact hkeeps
      exact ⟨r, (List.getElem?_set_ne hne).trans hr,
        hkeeps.mono (fun k hk => hk) fun _ _ k hk => Or.inr hk⟩

/-- **Step lemma.** The deliveries that were pending at the first start are not lost. -/
theorem firstOnTrack_step {s : DispatchSys} {a : DispatchAct} (hsettled : SettledObjects s)
    (hs : FirstOnTrack s) (hok : SparesFirst s a) : FirstOnTrack (dispatchStep s a) := by
  cases a with
  | openEvent =>
      intro first hmem
      obtain ⟨r, hr, hkeeps⟩ := hs first hmem
      refine ⟨r, ?_, hkeeps.mono (fun k hk => hk) fun _ _ k hk => Or.inr hk⟩
      have hlt := (List.getElem?_eq_some_iff.mp hr).1
      exact (List.getElem?_append_left hlt).trans hr
  | start i =>
      simp only [dispatchStep]
      split
      · next event hrun => exact firstOnTrack_start hs hrun
      · exact hs
  | load i =>
      simp only [dispatchStep]
      split
      · next event hrun =>
          exact firstOnTrack_setRun hs hrun rfl rfl (fun k hk => hk) (fun k hk => Or.inr hk)
            fun keys hkeeps => hkeeps
      · exact hs
  | send i answer now =>
      simp only [dispatchStep]
      split
      · next event answered next waiting hrun =>
          have hmono : ∀ k ∈ s.handed, k ∈ s.handed ++ [next.1] :=
            fun k hk => List.mem_append_left _ hk
          refine firstOnTrack_setRun hs hrun rfl rfl hmono (fun k hk => Or.inr hk) ?_
          intro keys hkeeps k hk
          rcases hkeeps k hk with hdone | hwaiting
          · exact Or.inl (hmono k hdone)
          · rcases List.mem_cons.mp hwaiting with rfl | hlater
            · exact Or.inl (List.mem_append_right _ List.mem_cons_self)
            · exact Or.inr hlater
      · exact hs
  | write i now =>
      simp only [dispatchStep]
      split
      · next event answered hrun =>
          have hown : ∀ (s' : DispatchSys) keys, s'.handed = s.handed →
              FirstKeeps s keys (.sending event answered []) → FirstKeeps s' keys .finished := by
            intro s' keys hhanded hkeeps k hk
            rw [hhanded]
            exact (hkeeps k hk).resolve_right List.not_mem_nil
          unfold DispatchSys.writeResults
          split
          · refine firstOnTrack_setRun hs hrun rfl rfl (fun k hk => hk) ?_ fun keys => hown _ keys rfl
            exact fun k hk => pendingKept_bulkUpdate (hsettled i event answered [] hrun) hk
          · exact firstOnTrack_setRun hs hrun rfl rfl (fun k hk => hk) (fun k hk => Or.inr hk)
              fun keys => hown _ keys rfl
      · exact hs
  | markDeliveryRead k user now =>
      refine firstOnTrack_mark hs (fun i now heq => by cases heq) ?_ ?_ ?_ hok
      all_goals
        simp only [dispatchStep]
        repeat' split
        all_goals rfl
  | markAllRead user now => exact firstOnTrack_mark hs (fun i now heq => by cases heq) rfl rfl rfl hok

/-! ## The status of the event -/

/-- A SENT event has no FAILED delivery. -/
def SentMeansNoneFailed (s : DispatchSys) : Prop :=
  s.event.status = .sent → ∀ row ∈ s.deliveries, row.status ≠ .failed

theorem status_of_outcome_sent {objects : List LoadedDelivery}
    (hobjects : ∀ object ∈ objects, object.2.status = .sent ∨ object.2.status = .failed)
    (hsent : outcome objects = .sent) : ∀ object ∈ objects, object.2.status = .sent := by
  have hnone : objects.countP (fun object => object.2.status == .failed) = 0 := by
    by_contra hsome
    simp only [outcome, if_neg hsome] at hsent
    split_ifs at hsent
  intro object hobject
  refine (hobjects object hobject).resolve_right fun hfailed => ?_
  exact List.countP_eq_zero.mp hnone object hobject (by simp [hfailed])

theorem length_bulkUpdate (deliveries : List NotificationDelivery)
    (objects : List LoadedDelivery) :
    (bulkUpdate deliveries objects).length = deliveries.length := by
  induction objects generalizing deliveries with
  | nil => rfl
  | cons object objects ih => exact (ih _).trans (List.length_modify ..)

/-- What a run writes when it ends without a failure. -/
theorem noneFailed_bulkUpdate {deliveries : List NotificationDelivery}
    {objects : List LoadedDelivery} (hobjects : ∀ object ∈ objects, object.2.status = .sent)
    (hclean : ∀ k < deliveries.length, ∀ row ∈ deliveries[k]?, row.status = .failed →
      k ∈ objects.map Prod.fst) :
    ∀ row ∈ bulkUpdate deliveries objects, row.status ≠ .failed := by
  intro row hmem hfailed
  obtain ⟨k, hk⟩ := List.mem_iff_getElem?.mp hmem
  have hlt : k < deliveries.length := by
    rw [← length_bulkUpdate deliveries objects]
    exact (List.getElem?_eq_some_iff.mp hk).1
  have hbefore := List.getElem?_eq_getElem hlt
  obtain ⟨row', hrow', hcases⟩ := bulkUpdate_row objects hbefore
  obtain rfl : row = row' := Option.some.inj (hk.symm.trans hrow')
  rcases hcases with ⟨hnone, rfl⟩ | ⟨object, hobject, -, hstatus⟩
  · obtain ⟨object, hobject, hkey⟩ := List.mem_map.mp (hclean k hlt _ hbefore hfailed)
    exact hnone object hobject hkey
  · rw [hstatus, hobjects object hobject] at hfailed
    cases hfailed

theorem sentMeansNoneFailed_step {s : DispatchSys} {a : DispatchAct}
    (hsettled : SettledObjects s) (hs : SentMeansNoneFailed s) (hok : EndsClean s a) :
    SentMeansNoneFailed (dispatchStep s a) := by
  cases a with
  | openEvent => exact hs
  | start i =>
      simp only [dispatchStep]
      split
      · intro hsent
        cases hsent
      · exact hs
  | load i =>
      simp only [dispatchStep]
      split <;> exact hs
  | send i answer now =>
      simp only [dispatchStep]
      split <;> exact hs
  | write i now =>
      simp only [dispatchStep]
      split
      · next event answered hrun =>
          unfold DispatchSys.writeResults
          split
          · next hfits =>
              intro hsent
              have hall := status_of_outcome_sent
                (fun object hobject => (hsettled i event answered [] hrun object hobject).status)
                hsent
              refine noneFailed_bulkUpdate hall (hok answered ?_)
              have hboth : writeFits answered = true ∧ outcome answered = .sent := ⟨hfits, hsent⟩
              simp [cleanResults, hrun, hboth]
          · exact hs
      · exact hs
  | markDeliveryRead k user now =>
      simp only [dispatchStep]
      split
      · split
        · intro hsent row hrow
          obtain ⟨j, hj⟩ := List.mem_iff_getElem?.mp hrow
          rcases getElem?_modify_cases hj with ⟨-, old, -, rfl⟩ | ⟨-, hold⟩
          · intro hfailed
            cases hfailed
          · exact hs hsent row (List.mem_of_getElem? hold)
        · exact hs
      · exact hs
  | markAllRead user now =>
      intro hsent row hrow
      obtain ⟨old, hold, rfl⟩ := List.mem_map.mp hrow
      split
      · intro hfailed
        cases hfailed
      · exact hs hsent old hold

/-! ## Over runs -/

/-- When the first dispatch has sent all that it loaded, everything that was pending at its
start has been handed to its provider. -/
def FirstDropsNone (s : DispatchSys) : Prop :=
  ∀ first ∈ s.firstPending, ∀ r ∈ s.runs[first.1]?,
    (r = .finished ∨ ∃ event answered, r = .sending event answered []) →
    ∀ k ∈ first.2, k ∈ s.handed

/-- Each delivery is sent once, none is dropped and SENT is honest. -/
def DeliveriesKept (s : DispatchSys) : Prop :=
  s.handed.Nodup ∧ FirstDropsNone s ∧ SentMeansNoneFailed s

theorem firstDropsNone_of_onTrack {s : DispatchSys} (h : FirstOnTrack s) : FirstDropsNone s := by
  intro first hmem r hr hdone k hk
  obtain ⟨r', hr', hkeeps⟩ := h first hmem
  obtain rfl : r = r' := Option.some.inj (hr.symm.trans hr')
  rcases hdone with rfl | ⟨event, answered, rfl⟩
  · exact hkeeps k hk
  · exact (hkeeps k hk).resolve_right List.not_mem_nil

structure DispatchInv (s : DispatchSys) : Prop where
  settled : SettledObjects s
  once : SentOnce s
  onTrack : FirstOnTrack s
  noneFailed : SentMeansNoneFailed s

theorem dispatchInv_start (targets : List (ℕ × NotificationChannel)) :
    DispatchInv (dispatchStart targets) where
  settled := fun i event answered waiting hrun => by simp [dispatchStart] at hrun
  once := List.nodup_nil
  onTrack := nofun
  noneFailed := nofun

theorem dispatchInv_step {s : DispatchSys} {a : DispatchAct} (hs : DispatchInv s)
    (hok : InOrder s a) : DispatchInv (dispatchStep s a) where
  settled := settledObjects_step hs.settled a
  once := sentOnce_step hs.once hok.1
  onTrack := firstOnTrack_step hs.settled hs.onTrack hok.2.1
  noneFailed := sentMeansNoneFailed_step hs.settled hs.noneFailed hok.2.2

/-- **Deliveries.** In every run whose steps stay out of each other's way, each delivery is
handed over at most once, the first dispatch drops none, and SENT means that none failed. -/
theorem deliveries_kept (targets : List (ℕ × NotificationChannel)) (acts : List DispatchAct)
    (h : Along dispatchStep InOrder (dispatchStart targets) acts) (pre : List DispatchAct)
    (hpre : pre <+: acts) : DeliveriesKept (run dispatchStep (dispatchStart targets) pre) := by
  have hinv : DispatchInv (run dispatchStep (dispatchStart targets) pre) :=
    invariant_along (fun s a hs hok => dispatchInv_step hs hok) (dispatchInv_start targets)
      (along_earlier h hpre)
  refine ⟨?_, firstDropsNone_of_onTrack hinv.onTrack, hinv.noneFailed⟩
  exact (List.nodup_append.mp hinv.once).1

/-- One delivery fails, the other is read after the run. -/
def oneRun : List DispatchAct :=
  [.openEvent, .start 0, .load 0, .send 0 (.error "SMTPException") 5,
    .send 0 (.ok ⟨true, "in_app", "", ""⟩) 6, .write 0 7, .markAllRead 7 8]

theorem deliveries_kept_one_run :
    DeliveriesKept (run dispatchStep (dispatchStart [(7, .inApp), (7, .email)]) oneRun) :=
  deliveries_kept [(7, .inApp), (7, .email)] oneRun (by decide) oneRun List.prefix_rfl

/-- The task is delivered a second time while the first one is sending. -/
def redelivered : List DispatchAct :=
  [.openEvent, .start 0, .load 0, .openEvent, .start 1, .load 1,
    .send 0 (.ok ⟨true, "django_email", "", ""⟩) 5, .send 1 (.ok ⟨true, "django_email", "", ""⟩) 6]

theorem redelivered_sends_twice :
    ¬ DeliveriesKept (run dispatchStep (dispatchStart [(7, .email)]) redelivered) := by
  rintro ⟨hnodup, -⟩
  have htwice : (run dispatchStep (dispatchStart [(7, .email)]) redelivered).handed = [0, 0] := by
    decide
  rw [htwice] at hnodup
  exact absurd hnodup (by decide)

end SetadJang.Notifications
