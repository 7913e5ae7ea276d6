import SetadJang.Core.PublicPayloads

/-!
# What a cached payload shows

Every payload that is stored, held or served is what the view computes from one state of the
tables.  A state is numbered, and a version of the namespace has a mark: no payload under its key
is computed from a state before the mark.  A version that is counted up for an announcement gets
the announced state for its mark, so a call that reads the version afterwards is not answered from
an older one.  Apart from that no payload is served past its hard lifetime.
-/

namespace SetadJang.Core

open SetadJang.Framework

variable {D V : Type}

/-! ## What a step of a call keeps -/

/-- What is said about the times, envelopes and values that a call holds. -/
structure PhaseSpec (V : Type) where
  now : ℕ → Prop
  polled : SwrCacheEnvelope V → Prop
  served : SwrCacheEnvelope V → Prop
  value : V → Prop

def Hold.Meets (spec : PhaseSpec V) : Hold V → Prop
  | .refresh old _ => spec.served old
  | .cold _ => True

def SwrPhase.Meets (spec : PhaseSpec V) : SwrPhase V → Prop
  | .looking now => spec.now now
  | .stale envelope => spec.served envelope
  | .building hold => ∀ h ∈ hold, h.Meets spec
  | .givingUp hold => hold.Meets spec
  | .built hold value => (∀ h ∈ hold, h.Meets spec) ∧ spec.value value
  | .storing _ envelope => spec.served envelope
  | .unlocking _ envelope => spec.served envelope
  | .polled _ envelope => spec.polled envelope
  | .answered envelope => spec.served envelope
  | .entering | .cold | .waiting _ | .polling _ | .raised => True

/-- What the cache, the clock and the tables give meets the specification. -/
structure PhaseSpec.Closed (spec : PhaseSpec V) (ttl : SwrLifetimes) (s : PayloadCache D V)
    (key : String) (made : Option V) : Prop where
  now : spec.now s.clock
  found : ∀ now envelope, spec.now now → s.get key = some envelope →
    envelope.isFresh now = true ∨ envelope.isUsable now = true → spec.served envelope
  polled : ∀ envelope, s.get key = some envelope → spec.polled envelope
  judged : ∀ envelope, spec.polled envelope → envelope.isUsable s.clock = true →
    spec.served envelope
  value : ∀ v, made = some v → spec.value v
  made : ∀ v, spec.value v → spec.served (.make ttl v s.clock)

theorem Hold.Meets.mono {spec spec' : PhaseSpec V}
    (h : ∀ envelope, spec.served envelope → spec'.served envelope) :
    ∀ {hold : Hold V}, hold.Meets spec → hold.Meets spec'
  | .refresh _ _, hm => h _ hm
  | .cold _, _ => trivial

theorem SwrPhase.Meets.mono {spec spec' : PhaseSpec V} {phase : SwrPhase V} (h : phase.Meets spec)
    (hnow : ∀ now, spec.now now → spec'.now now)
    (hpolled : ∀ envelope, spec.polled envelope → spec'.polled envelope)
    (hserved : ∀ envelope, spec.served envelope → spec'.served envelope)
    (hvalue : ∀ v, spec.value v → spec'.value v) : phase.Meets spec' := by
  cases phase with
  | looking now => exact hnow now h
  | stale envelope => exact hserved envelope h
  | building hold => exact fun x hx => (h x hx).mono hserved
  | givingUp hold => exact Hold.Meets.mono hserved h
  | built hold value => exact ⟨fun x hx => (h.1 x hx).mono hserved, hvalue value h.2⟩
  | storing hold envelope => exact hserved envelope h
  | unlocking hold envelope => exact hserved envelope h
  | polled deadline envelope => exact hpolled envelope h
  | answered envelope => exact hserved envelope h
  | entering | cold | waiting _ | polling _ | raised => trivial

section

variable {ttl : SwrLifetimes} {factory : D → Option V} {key : String} {dbError : Bool}
  {s : PayloadCache D V} {phase : SwrPhase V}

/-- **Step lemma.** -/
theorem SwrPhase.meets_next {spec : PhaseSpec V}
    (hc : spec.Closed ttl s key (s.runFactory factory dbError)) (h : phase.Meets spec) :
    (phase.next ttl factory key dbError s).2.Meets spec := by
  cases phase with
  | entering => exact hc.now
  | looking now =>
      simp only [next]
      split
      · next envelope hget =>
          split
          · next hfresh => exact hc.found now envelope h hget (.inl hfresh)
          · split
            · next husable => exact hc.found now envelope h hget (.inr husable)
            · trivial
      · trivial
  | stale envelope =>
      simp only [next]
      split
      · exact h
      · rintro x ⟨⟩
        exact h
  | cold =>
      simp only [next]
      split
      · trivial
      · rintro x ⟨⟩
        trivial
  | building hold =>
      simp only [next]
      split
      · next hold' value hrun => exact ⟨h, hc.value value hrun⟩
      · next hold' hrun => exact h hold' rfl
      · trivial
  | givingUp hold =>
      cases hold with
      | refresh old stop => exact h
      | cold stop => trivial
  | built hold value => exact hc.made value h.2
  | storing hold envelope =>
      cases hold with
      | none => exact h
      | some hold => exact h
  | unlocking hold envelope => exact h
  | waiting deadline =>
      simp only [next]
      split
      · trivial
      · nofun
  | polling deadline =>
      simp only [next]
      split
      · next envelope hget => exact hc.polled envelope hget
      · trivial
  | polled deadline envelope =>
      simp only [next]
      split
      · next husable => exact hc.judged envelope h husable
      · trivial
  | answered envelope => exact h
  | raised => trivial

variable (ttl factory key dbError s phase) in
/-- A call writes payloads and locks, and a payload only when it stores one. -/
theorem SwrPhase.next_cache :
    ((phase.next ttl factory key dbError s).1.clock = s.clock ∧
      (phase.next ttl factory key dbError s).1.history = s.history ∧
      (phase.next ttl factory key dbError s).1.announced = s.announced ∧
      (phase.next ttl factory key dbError s).1.version = s.version) ∧
    ((phase.next ttl factory key dbError s).1.payloads = s.payloads ∨
      ∃ hold envelope, phase = .storing hold envelope ∧
        (phase.next ttl factory key dbError s).1.payloads =
          Function.update s.payloads key (some (envelope, s.clock + milliseconds ttl.hardTtl))) := by
  cases phase with
  | storing hold envelope => exact ⟨⟨rfl, rfl, rfl, rfl⟩, .inr ⟨hold, envelope, rfl, rfl⟩⟩
  | looking now =>
      simp only [next]
      split <;> [split_ifs; skip] <;> exact ⟨⟨rfl, rfl, rfl, rfl⟩, .inl rfl⟩
  | stale envelope =>
      simp only [next]
      split_ifs <;> exact ⟨⟨rfl, rfl, rfl, rfl⟩, .inl rfl⟩
  | cold =>
      simp only [next]
      split_ifs <;> exact ⟨⟨rfl, rfl, rfl, rfl⟩, .inl rfl⟩
  | building hold =>
      simp only [next]
      split <;> exact ⟨⟨rfl, rfl, rfl, rfl⟩, .inl rfl⟩
  | givingUp hold => cases hold <;> exact ⟨⟨rfl, rfl, rfl, rfl⟩, .inl rfl⟩
  | waiting deadline =>
      simp only [next]
      split_ifs <;> exact ⟨⟨rfl, rfl, rfl, rfl⟩, .inl rfl⟩
  | polling deadline =>
      simp only [next]
      split <;> exact ⟨⟨rfl, rfl, rfl, rfl⟩, .inl rfl⟩
  | polled deadline envelope =>
      simp only [next]
      split_ifs <;> exact ⟨⟨rfl, rfl, rfl, rfl⟩, .inl rfl⟩
  | entering | built _ _ | unlocking _ _ | answered _ | raised =>
      exact ⟨⟨rfl, rfl, rfl, rfl⟩, .inl rfl⟩

end

/-! ## Keys -/

namespace PublicViews

variable {views : PublicViews D V} (hdigest : Function.Injective views.digest)

include hdigest

/-- A key tells the version and the parts. -/
theorem key_inj {f g : ℕ} {parts parts' : CacheParts} (h : views.key f parts = views.key g parts') :
    f = g ∧ parts = parts' := by
  have hversion : f = g := by
    by_contra hne
    exact payloadKey_ne hdigest hne _ _ h
  subst hversion
  refine ⟨rfl, ?_⟩
  have htexts := (payloadKey_eq_iff hdigest parts.nonempty parts'.nonempty).mp h
  have hparts : parts.parts = parts'.parts :=
    join_inj (c := ':') parts.plain parts'.plain
      (iff_of_false parts.nonempty parts'.nonempty) htexts
  cases parts
  cases parts'
  simpa using hparts

end PublicViews

/-! ## Every payload shows a state of the tables -/

section

variable (views : PublicViews D V)

/-- The value is what the view computes from a state that is not before the mark of the version. -/
def Shows (mark : ℕ → ℕ) (history : List D) (version : ℕ) (parts : CacheParts) (value : V) : Prop :=
  ∃ n d, mark version ≤ n ∧ history[n]? = some d ∧ views.build parts d = some value

/-- An envelope with the lifetimes of the policy around such a value. -/
structure Filed (mark : ℕ → ℕ) (history : List D) (version : ℕ) (parts : CacheParts)
    (envelope : SwrCacheEnvelope V) : Prop where
  shows : Shows views mark history version parts envelope.value
  soft : envelope.softExpiresAt = envelope.createdAt + milliseconds views.ttl.softTtl
  hard : envelope.hardExpiresAt = envelope.createdAt + milliseconds views.ttl.hardTtl

/-- What is said about a call under a version: it serves nothing past its hard lifetime. -/
def callSpec (mark : ℕ → ℕ) (history : List D) (call : PublicCall) (version : ℕ) : PhaseSpec V where
  now now := call.startedAt ≤ now
  polled envelope := Filed views mark history version call.parts envelope
  served envelope := Filed views mark history version call.parts envelope ∧
    call.startedAt < envelope.hardExpiresAt
  value v := Shows views mark history version call.parts v

/-- Everything in the cache and in the calls shows a state of the tables.  The versions in use are
`known`; either all are, or the stored one is. -/
structure Truthful (known : ℕ → Prop) (mark : ℕ → ℕ) (s : PayloadSys D V) : Prop where
  marked : ∀ f, mark f < s.cache.history.length
  version : (∀ f, known f) ∨ ∃ v, s.cache.version = some v ∧ known v
  payloads : ∀ key envelope stop, s.cache.payloads key = some (envelope, stop) →
    ∃ f parts, key = views.key f parts ∧ known f ∧
      Filed views mark s.cache.history f parts envelope
  started : ∀ worker ∈ s.workers, worker.call.startedAt ≤ s.cache.clock
  workers : ∀ worker ∈ s.workers, ∀ f phase, worker.phase = .inside f phase →
    known f ∧ phase.Meets (callSpec views mark s.cache.history worker.call f)

variable {views} {known known' : ℕ → Prop} {mark mark' : ℕ → ℕ} {s : PayloadSys D V}

theorem Shows.mono {history history' : List D} {f : ℕ} {parts : CacheParts} {v : V}
    (hmark : mark' f ≤ mark f) (hhistory : history <+: history')
    (h : Shows views mark history f parts v) : Shows views mark' history' f parts v := by
  obtain ⟨n, d, hn, hd, hv⟩ := h
  obtain ⟨later, rfl⟩ := hhistory
  refine ⟨n, d, hmark.trans hn, ?_, hv⟩
  rw [List.getElem?_append_left (List.getElem?_eq_some_iff.mp hd).1]
  exact hd

theorem Filed.mono {history history' : List D} {f : ℕ} {parts : CacheParts}
    {envelope : SwrCacheEnvelope V} (hmark : mark' f ≤ mark f) (hhistory : history <+: history')
    (h : Filed views mark history f parts envelope) :
    Filed views mark' history' f parts envelope :=
  ⟨h.shows.mono hmark hhistory, h.soft, h.hard⟩

theorem SwrPhase.Meets.later {history history' : List D} {call : PublicCall} {f : ℕ}
    {phase : SwrPhase V} (hmark : mark' f ≤ mark f) (hhistory : history <+: history')
    (h : phase.Meets (callSpec views mark history call f)) :
    phase.Meets (callSpec views mark' history' call f) :=
  h.mono (fun _ hnow => hnow) (fun _ hfiled => hfiled.mono hmark hhistory)
    (fun _ hserved => ⟨hserved.1.mono hmark hhistory, hserved.2⟩)
    fun _ hshows => hshows.mono hmark hhistory

/-- Calls and payloads stay, or payloads go; the tables and the clock go on. -/
theorem Truthful.change {s' : PayloadSys D V} (hs : Truthful views known mark s)
    (hmarked : ∀ f, mark' f < s'.cache.history.length)
    (hversion : (∀ f, known' f) ∨ ∃ v, s'.cache.version = some v ∧ known' v)
    (hknown : ∀ f, known f → known' f ∧ mark' f ≤ mark f)
    (hhistory : s.cache.history <+: s'.cache.history) (hclock : s.cache.clock ≤ s'.cache.clock)
    (hpayloads : ∀ key x, s'.cache.payloads key = some x → s.cache.payloads key = some x)
    (hworkers : s'.workers = s.workers) : Truthful views known' mark' s' := by
  refine ⟨hmarked, hversion, ?_, ?_, ?_⟩
  · intro key envelope stop hkey
    obtain ⟨f, parts, rfl, hf, hfiled⟩ := hs.payloads key envelope stop (hpayloads key _ hkey)
    exact ⟨f, parts, rfl, (hknown f hf).1, hfiled.mono (hknown f hf).2 hhistory⟩
  · intro worker hworker
    exact (hs.started worker (hworkers ▸ hworker)).trans hclock
  · intro worker hworker f phase hphase
    obtain ⟨hf, hmeets⟩ := hs.workers worker (hworkers ▸ hworker) f phase hphase
    exact ⟨(hknown f hf).1, hmeets.later (hknown f hf).2 hhistory⟩

theorem Truthful.openCall (hs : Truthful views known mark s) (parts : CacheParts) :
    Truthful views known mark (views.step s (.openCall parts)) := by
  refine ⟨hs.marked, hs.version, hs.payloads, ?_, ?_⟩
  · intro worker hworker
    rcases List.mem_append.mp hworker with hold | hnew
    · exact hs.started worker hold
    · rw [List.mem_singleton.mp hnew]
      exact Nat.le_refl _
  · intro worker hworker f phase hphase
    rcases List.mem_append.mp hworker with hold | hnew
    · exact hs.workers worker hold f phase hphase
    · rw [List.mem_singleton.mp hnew] at hphase
      cases hphase

section

variable (hdigest : Function.Injective views.digest)

include hdigest

/-- What a call finds under its key is filed under its version and its parts. -/
theorem Truthful.get (hs : Truthful views known mark s) {f : ℕ} {parts : CacheParts}
    {envelope : SwrCacheEnvelope V} (h : s.cache.get (views.key f parts) = some envelope) :
    Filed views mark s.cache.history f parts envelope := by
  unfold PayloadCache.get at h
  split at h
  · next envelope' stop hpayload =>
      obtain ⟨-, h⟩ := Option.ite_none_right_eq_some.mp h
      obtain rfl := Option.some.inj h
      obtain ⟨f', parts', hkey, -, hfiled⟩ := hs.payloads _ _ _ hpayload
      obtain ⟨rfl, rfl⟩ := PublicViews.key_inj hdigest hkey
      exact hfiled
  · cases h

/-- What the cache, the clock and the tables give a call. -/
theorem Truthful.closed (hs : Truthful views known mark s) {call : PublicCall} (f : ℕ)
    (dbError : Bool) (hstarted : call.startedAt ≤ s.cache.clock) :
    (callSpec views mark s.cache.history call f).Closed views.ttl s.cache (views.key f call.parts)
      (s.cache.runFactory (views.build call.parts) dbError) := by
  have hhard : 0 < milliseconds views.ttl.hardTtl := Nat.mul_pos (by decide) views.ttl.hard_pos
  have hsoft : milliseconds views.ttl.softTtl ≤ milliseconds views.ttl.hardTtl :=
    Nat.mul_le_mul_left _ views.ttl.soft_le
  constructor
  · exact hstarted
  · intro now envelope hnow hget hlife
    have hfiled := hs.get hdigest hget
    refine ⟨hfiled, Nat.lt_of_le_of_lt hnow ?_⟩
    rcases hlife with hfresh | husable
    · have h := of_decide_eq_true hfresh
      rw [hfiled.soft] at h
      rw [hfiled.hard]
      omega
    · exact of_decide_eq_true husable
  · exact fun envelope hget => hs.get hdigest hget
  · exact fun envelope hfiled husable =>
      ⟨hfiled, Nat.lt_of_le_of_lt hstarted (of_decide_eq_true husable)⟩
  · intro v hrun
    unfold PayloadCache.runFactory at hrun
    obtain ⟨-, hrun⟩ := Option.ite_none_left_eq_some.mp hrun
    obtain ⟨d, hd, hv⟩ := Option.bind_eq_some_iff.mp hrun
    rw [List.getLast?_eq_getElem?] at hd
    have hlast : s.cache.history.length - 1 < s.cache.history.length :=
      (List.getElem?_eq_some_iff.mp hd).1
    exact ⟨_, d, Nat.le_sub_one_of_lt (hs.marked f), hd, hv⟩
  · exact fun v hshows => ⟨⟨hshows, rfl, rfl⟩, Nat.lt_of_le_of_lt hstarted (by
      show s.cache.clock < s.cache.clock + milliseconds views.ttl.hardTtl
      omega)⟩

/-- **Step lemma.** -/
theorem Truthful.advance (hs : Truthful views known mark s) (i : ℕ) (dbError : Bool) :
    Truthful views known mark (views.step s (.advance i dbError)) := by
  simp only [PublicViews.step]
  split
  · next worker hworker =>
      have hmem := List.mem_of_getElem? hworker
      have hstarted := hs.started worker hmem
      unfold PublicViews.next
      split
      · next hphase =>
          -- the version is read, or seeded
          have hknown : known s.cache.namespaceVersion := by
            rcases hs.version with hall | ⟨v, hv, hknown⟩
            · exact hall _
            · rw [PayloadCache.namespaceVersion, hv]
              exact hknown
          refine ⟨hs.marked, .inr ⟨_, rfl, hknown⟩, hs.payloads, ?_, ?_⟩
          · intro other hother
            rcases List.mem_or_eq_of_mem_set hother with hold | rfl
            · exact hs.started other hold
            · exact hstarted
          · intro other hother f phase hotherPhase
            rcases List.mem_or_eq_of_mem_set hother with hold | rfl
            · exact hs.workers other hold f phase hotherPhase
            · cases hotherPhase
              exact ⟨hknown, trivial⟩
      · next f phase hphase =>
          obtain ⟨hf, hmeets⟩ := hs.workers worker hmem f phase hphase
          have hnext := SwrPhase.meets_next (hs.closed hdigest f dbError hstarted) hmeets
          obtain ⟨⟨hclock, hhistory, -, hversion⟩, hpayloads⟩ :=
            SwrPhase.next_cache views.ttl (views.build worker.call.parts)
              (views.key f worker.call.parts) dbError s.cache phase
          refine ⟨?_, ?_, ?_, ?_, ?_⟩
          · rw [hhistory]
            exact hs.marked
          · rw [hversion]
            exact hs.version
          · intro key envelope stop hkey
            rw [hhistory]
            rcases hpayloads with hsame | ⟨hold, stored, rfl, hset⟩
            · rw [hsame] at hkey
              exact hs.payloads key envelope stop hkey
            · rw [hset, Function.update_apply] at hkey
              split at hkey
              · next heq =>
                  cases hkey
                  exact ⟨f, _, heq, hf, hmeets.1⟩
              · exact hs.payloads key envelope stop hkey
          · intro other hother
            rw [hclock]
            rcases List.mem_or_eq_of_mem_set hother with hold | rfl
            · exact hs.started other hold
            · exact hstarted
          · intro other hother g phase' hotherPhase
            rw [hhistory]
            rcases List.mem_or_eq_of_mem_set hother with hold | rfl
            · exact hs.workers other hold g phase' hotherPhase
            · cases hotherPhase
              exact ⟨hf, hnext⟩
  · exact hs

/-- **Step lemma.** Only an announcement and an eviction of the version take another version. -/
theorem Truthful.step (hs : Truthful views known mark s) {act : PayloadAct D}
    (h : (∀ f, known f) ∨ act ≠ .dropVersion ∧ ∀ n, act ≠ .announce n) :
    Truthful views known mark (views.step s act) := by
  have hknown : ∀ f, known f → known f ∧ mark f ≤ mark f := fun f hf => ⟨hf, Nat.le_refl _⟩
  cases act with
  | tick ms =>
      exact hs.change hs.marked hs.version hknown List.prefix_rfl (Nat.le_add_right _ _)
        (fun _ _ hx => hx) rfl
  | commit d =>
      refine hs.change (fun f => ?_) hs.version hknown (List.prefix_append _ _) (Nat.le_refl _)
        (fun _ _ hx => hx) rfl
      show mark f < (s.cache.history ++ [d]).length
      rw [List.length_append]
      exact Nat.lt_add_right _ (hs.marked f)
  | announce n =>
      have hall := h.resolve_right fun hkept => hkept.2 n rfl
      simp only [PublicViews.step]
      split
      · exact hs.change hs.marked (.inl hall) hknown List.prefix_rfl (Nat.le_refl _)
          (fun _ _ hx => hx) rfl
      · exact hs
  | openCall parts => exact hs.openCall parts
  | advance i dbError => exact hs.advance hdigest i dbError
  | dropVersion =>
      have hall := h.resolve_right fun hkept => hkept.1 rfl
      exact hs.change hs.marked (.inl hall) hknown List.prefix_rfl (Nat.le_refl _)
        (fun _ _ hx => hx) rfl
  | dropPayload key =>
      refine hs.change hs.marked hs.version hknown List.prefix_rfl (Nat.le_refl _) ?_ rfl
      intro key' x hx
      change Function.update s.cache.payloads key none key' = some x at hx
      rw [Function.update_apply] at hx
      split at hx
      · cases hx
      · exact hx
  | dropLock key =>
      exact hs.change hs.marked hs.version hknown List.prefix_rfl (Nat.le_refl _)
        (fun _ _ hx => hx) rfl

end

theorem truthful_start (d : D) {version : ℕ} (clock : ℕ) (hknown : known version) :
    Truthful views known (fun _ => 0) (payloadStart d version clock) :=
  ⟨fun _ => Nat.one_pos, .inr ⟨version, rfl, hknown⟩, nofun, nofun, nofun⟩

/-- What a call is answered with. -/
theorem Truthful.answered (hs : Truthful views known mark s) {worker : PublicWorker V}
    (hworker : worker ∈ s.workers) {envelope : SwrCacheEnvelope V}
    (h : worker.answer = some envelope) : ∃ f, worker.phase = .inside f (.answered envelope) ∧
      Filed views mark s.cache.history f worker.call.parts envelope ∧
        worker.call.startedAt < envelope.hardExpiresAt := by
  unfold PublicWorker.answer at h
  split at h
  · next f envelope' hphase =>
      obtain rfl := Option.some.inj h
      exact ⟨f, hphase, (hs.workers worker hworker f _ hphase).2⟩
  · cases h

end

/-- The categories of a board; here a state of the tables is a number, and the view shows it. -/
def categoriesViews : PublicViews ℕ ℕ where
  digest := id
  ns := "kindness:categories"
  ttl := defaultLifetimes
  build := fun _ d => some d

def categoriesParts : CacheParts := ⟨["categories"], by decide, by decide⟩

/-- A payload is built, announced to be old, and built anew. -/
def announcedCalls : List (PayloadAct ℕ) :=
  .openCall categoriesParts :: List.replicate 8 (.advance 0 false) ++
    [.commit 7, .announce 1, .tick 10, .openCall categoriesParts] ++
      List.replicate 8 (.advance 1 false)

/-- Both calls are answered, the second with the new state. -/
example : ((run categoriesViews.step (payloadStart 5 1 0) announcedCalls).workers.map fun worker =>
    worker.answer.map SwrCacheEnvelope.value) = [some 5, some 7] := by decide +kernel

/-! ## Announced states -/

section

variable (views : PublicViews D V)

/-- Every answer is what the view computes from a state that is not older than the newest one that
was announced before the call. -/
def ServesAnnounced (s : PayloadSys D V) : Prop :=
  ∀ worker ∈ s.workers, ∀ envelope, worker.answer = some envelope →
    ∃ n d, worker.call.floor ≤ n ∧ s.cache.history[n]? = some d ∧
      views.build worker.call.parts d = some envelope.value

/-- The stored version is `v`.  Its mark is the newest announced state, the marks before it are not
newer, and a call under a version was opened before nothing newer than its mark was announced. -/
structure Announced (v : ℕ) (mark : ℕ → ℕ) (s : PayloadSys D V) : Prop where
  version : s.cache.version = some v
  current : ∀ f, v ≤ f → mark f = s.cache.announced
  le : ∀ f, mark f ≤ s.cache.announced
  opened : ∀ worker ∈ s.workers, worker.call.floor ≤ s.cache.announced
  inside : ∀ worker ∈ s.workers, ∀ f phase, worker.phase = .inside f phase →
    worker.call.floor ≤ mark f

/-- The versions in use are not past the stored one. -/
def Present (s : PayloadSys D V) : Prop :=
  ∃ v mark, Truthful views (· ≤ v) mark s ∧ Announced v mark s

variable {views} {s : PayloadSys D V} {v : ℕ} {mark : ℕ → ℕ}

theorem Announced.same {s' : PayloadSys D V} (hs : Announced v mark s)
    (hversion : s'.cache.version = s.cache.version)
    (hannounced : s'.cache.announced = s.cache.announced) (hworkers : s'.workers = s.workers) :
    Announced v mark s' := by
  refine ⟨hversion.trans hs.version, ?_, ?_, ?_, ?_⟩
  · rw [hannounced]
    exact hs.current
  · rw [hannounced]
    exact hs.le
  · rw [hannounced, hworkers]
    exact hs.opened
  · rw [hworkers]
    exact hs.inside

theorem Announced.openCall (hs : Announced v mark s) (parts : CacheParts) :
    Announced v mark (views.step s (.openCall parts)) := by
  refine ⟨hs.version, hs.current, hs.le, ?_, ?_⟩
  · intro worker hworker
    rcases List.mem_append.mp hworker with hold | hnew
    · exact hs.opened worker hold
    · rw [List.mem_singleton.mp hnew]
      exact Nat.le_refl _
  · intro worker hworker f phase hphase
    rcases List.mem_append.mp hworker with hold | hnew
    · exact hs.inside worker hold f phase hphase
    · rw [List.mem_singleton.mp hnew] at hphase
      cases hphase

theorem Announced.advance (hs : Announced v mark s) (i : ℕ) (dbError : Bool) :
    Announced v mark (views.step s (.advance i dbError)) := by
  simp only [PublicViews.step]
  split
  · next worker hworker =>
      have hmem := List.mem_of_getElem? hworker
      unfold PublicViews.next
      split
      · next hphase =>
          have hnow : s.cache.namespaceVersion = v := by
            rw [PayloadCache.namespaceVersion, hs.version]
            rfl
          refine ⟨congrArg some hnow, hs.current, hs.le, ?_, ?_⟩
          · intro other hother
            rcases List.mem_or_eq_of_mem_set hother with hold | rfl
            · exact hs.opened other hold
            · exact hs.opened worker hmem
          · intro other hother f phase hotherPhase
            rcases List.mem_or_eq_of_mem_set hother with hold | rfl
            · exact hs.inside other hold f phase hotherPhase
            · cases hotherPhase
              rw [hnow, hs.current v (Nat.le_refl v)]
              exact hs.opened worker hmem
      · next f phase hphase =>
          obtain ⟨⟨-, -, hannounced, hversion⟩, -⟩ :=
            SwrPhase.next_cache views.ttl (views.build worker.call.parts)
              (views.key f worker.call.parts) dbError s.cache phase
          refine ⟨hversion.trans hs.version, ?_, ?_, ?_, ?_⟩
          · rw [hannounced]
            exact hs.current
          · rw [hannounced]
            exact hs.le
          · intro other hother
            rw [hannounced]
            rcases List.mem_or_eq_of_mem_set hother with hold | rfl
            · exact hs.opened other hold
            · exact hs.opened worker hmem
          · intro other hother g phase' hotherPhase
            rcases List.mem_or_eq_of_mem_set hother with hold | rfl
            · exact hs.inside other hold g phase' hotherPhase
            · cases hotherPhase
              exact hs.inside worker hmem f phase hphase
  · exact hs

/-- The next version is marked with what is announced by then. -/
theorem Present.announce (hs : Present views s) (n : ℕ) :
    Present views (views.step s (.announce n)) := by
  obtain ⟨v, mark, htruth, hann⟩ := hs
  simp only [PublicViews.step]
  split
  · next hn =>
      let announced := max s.cache.announced n
      have hle : s.cache.announced ≤ announced := Nat.le_max_left _ _
      have hlt : announced < s.cache.history.length :=
        Nat.max_lt.mpr ⟨hann.current v (Nat.le_refl v) ▸ htruth.marked v, hn⟩
      have hversion : (s.cache.announce n).version = some (v + 1) := by
        rw [PayloadCache.announce, hann.version]
        rfl
      refine ⟨v + 1, fun f => if f ≤ v then mark f else announced, ?_, ?_⟩
      · refine htruth.change (fun f => ?_) (.inr ⟨v + 1, hversion, Nat.le_refl _⟩) ?_
          List.prefix_rfl (Nat.le_refl _) (fun _ _ hx => hx) rfl
        · show (if f ≤ v then mark f else announced) < s.cache.history.length
          split
          · exact htruth.marked f
          · exact hlt
        · intro f hf
          exact ⟨Nat.le_succ_of_le hf, by rw [if_pos hf]⟩
      · refine ⟨hversion, ?_, ?_, ?_, ?_⟩
        · intro f hf
          exact if_neg (by omega)
        · intro f
          show (if f ≤ v then mark f else announced) ≤ announced
          split
          · exact (hann.le f).trans hle
          · exact Nat.le_refl _
        · exact fun worker hworker => (hann.opened worker hworker).trans hle
        · intro worker hworker f phase hphase
          have hf : f ≤ v := (htruth.workers worker hworker f phase hphase).1
          show worker.call.floor ≤ if f ≤ v then mark f else announced
          rw [if_pos hf]
          exact hann.inside worker hworker f phase hphase
  · exact ⟨v, mark, htruth, hann⟩

/-- **Step lemma.** -/
theorem Present.step (hdigest : Function.Injective views.digest) (hs : Present views s)
    {act : PayloadAct D} (hact : act ≠ .dropVersion) : Present views (views.step s act) := by
  by_cases hannounce : ∃ n, act = .announce n
  · obtain ⟨n, rfl⟩ := hannounce
    exact hs.announce n
  · obtain ⟨v, mark, htruth, hann⟩ := hs
    refine ⟨v, mark, htruth.step hdigest (.inr ⟨hact, not_exists.mp hannounce⟩), ?_⟩
    cases act with
    | announce n => exact absurd ⟨n, rfl⟩ hannounce
    | dropVersion => exact absurd rfl hact
    | openCall parts => exact hann.openCall parts
    | advance i dbError => exact hann.advance i dbError
    | tick _ | commit _ | dropPayload _ | dropLock _ => exact hann.same rfl rfl rfl

theorem present_start (d : D) (version clock : ℕ) :
    Present views (payloadStart d version clock) :=
  ⟨version, fun _ => 0, truthful_start d clock (Nat.le_refl _), rfl, fun _ _ => rfl,
    fun _ => Nat.le_refl _, nofun, nofun⟩

theorem Present.serves (hs : Present views s) : ServesAnnounced views s := by
  intro worker hworker envelope hanswer
  obtain ⟨v, mark, htruth, hann⟩ := hs
  obtain ⟨f, hphase, hfiled, -⟩ := htruth.answered hworker hanswer
  obtain ⟨n, d, hn, hd, hvalue⟩ := hfiled.shows
  exact ⟨n, d, (hann.inside worker hworker f _ hphase).trans hn, hd, hvalue⟩

end

end SetadJang.Core
