import SetadJang.Framework.FirstOccurrences
import SetadJang.Notifications.Dispatch

/-!
# Creating a notification event

`create_notification_event` reads the preferences and the templates of an event in one query each
and inserts its deliveries in one `bulk_create`.  A plain call goes over the recipients and their
channels one by one, asks for the preference and the template of each, and inserts a delivery unless
there is one.  The two leave the same deliveries in the same order, and the bulk insert meets no
repeated key.
-/

namespace SetadJang.Notifications

open SetadJang.Framework

/-! ## Tables -/

structure NotificationPreference where
  user : ℕ
  eventType : String
  channel : NotificationChannel
  enabled : Bool
  isActive : Bool
deriving DecidableEq, Repr

def NotificationPreference.key (p : NotificationPreference) : ℕ × String × NotificationChannel :=
  (p.user, p.eventType, p.channel)

structure NotificationTemplate where
  code : String
  channel : NotificationChannel
  subjectTemplate : String
  bodyTemplate : String
  isActive : Bool
deriving DecidableEq, Repr

def NotificationTemplate.key (t : NotificationTemplate) : String × NotificationChannel :=
  (t.code, t.channel)

/-- The two tables with their unique constraints. -/
structure NotificationTables where
  preferences : List NotificationPreference
  templates : List NotificationTemplate
  uniquePreference : (preferences.map NotificationPreference.key).Nodup
  uniqueTemplate : (templates.map NotificationTemplate.key).Nodup

/-- What a text is rendered from: `format_map` over the payload, which may raise, and the texts of
its `title` and `message` where they are not empty. -/
structure NotificationPayload where
  format : String → Option String
  title : Option String
  message : Option String

/-- A delivery to insert; a recipient that was not saved has no key. -/
structure NewDelivery where
  recipient : Option ℕ
  channel : NotificationChannel
  subject : String
  body : String
deriving DecidableEq, Repr

def NewDelivery.key (d : NewDelivery) : Option ℕ × NotificationChannel := (d.recipient, d.channel)

variable (tables : NotificationTables) (payload : NotificationPayload) (eventType : String)

/-! ## The texts -/

/-- The rows of `NotificationTemplate.objects` under the code. -/
def activeTemplates : List NotificationTemplate :=
  tables.templates.filter fun t => t.code == eventType && t.isActive

/-- `_templates_by_channel`: in a dictionary the last row of a channel counts. -/
def templatesByChannel (channels : List NotificationChannel) (channel : NotificationChannel) :
    Option NotificationTemplate :=
  ((activeTemplates tables eventType).filter fun t => decide (t.channel ∈ channels)).reverse.find?
    fun t => t.channel == channel

/-- The query of `render_notification`. -/
def firstTemplate (channel : NotificationChannel) : Option NotificationTemplate :=
  (activeTemplates tables eventType).find? fun t => t.channel == channel

/-- `render_notification`; `none` is an exception of `format_map`. -/
def renderNotification (channel : NotificationChannel) (template : Option NotificationTemplate) :
    Option (String × String) :=
  match template.or (firstTemplate tables eventType channel) with
  | some template => do
      some (← payload.format template.subjectTemplate, ← payload.format template.bodyTemplate)
  | none =>
      let title := payload.title.getD eventType
      some (title, payload.message.getD title)

/-! ## In bulk -/

def dedupeRecipients (recipients : List (Option ℕ)) : List (Option ℕ) :=
  recipients.foldl (fun unique recipient =>
    match recipient with
    | none => unique ++ [none]
    | some pk => insertNew unique (some pk)) []

/-- The rows that switch the event off for recipients on channels. -/
def muted (recipients : List (Option ℕ)) (channels : List NotificationChannel) :
    List (ℕ × NotificationChannel) :=
  (tables.preferences.filter fun p => p.isActive && decide (some p.user ∈ recipients) &&
    p.eventType == eventType && decide (p.channel ∈ channels) && !p.enabled).map fun p =>
      (p.user, p.channel)

/-- `bulk_create` of the deliveries of a new event. -/
def bulkCreate (deliveries : List NewDelivery) : Option (List NewDelivery) :=
  if (deliveries.all fun d => d.recipient.isSome) ∧ (deliveries.map NewDelivery.key).Nodup then
    some deliveries
  else none

/-- The delivery of one recipient on one channel, unless it is muted. -/
def deliveryFor (channels : List NotificationChannel) (mutedPairs : List (ℕ × NotificationChannel))
    (pair : Option ℕ × NotificationChannel) : Option NewDelivery :=
  if pair.1.any fun user => decide ((user, pair.2) ∈ mutedPairs) then none
  else
    (renderNotification tables payload eventType pair.2
      (templatesByChannel tables eventType channels pair.2)).map fun text =>
        ⟨pair.1, pair.2, text.1, text.2⟩

/-- The deliveries of `create_notification_event`; `none` is an exception, which leaves nothing. -/
def createDeliveries (recipients : List (Option ℕ)) (channels : List NotificationChannel) :
    Option (List NewDelivery) :=
  let channelList := distinct channels
  let recipientList := dedupeRecipients recipients
  if recipientList = [] ∨ channelList = [] then some []
  else if channelList.all fun channel => (renderNotification tables payload eventType channel
      (templatesByChannel tables eventType channelList channel)).isSome then
    bulkCreate ((pairs recipientList channelList).filterMap
      (deliveryFor tables payload eventType channelList
        (muted tables eventType recipientList channelList)))
  else none

/-! ## One by one -/

/-- `_preference_enabled`. -/
def preferenceEnabled (user : ℕ) (channel : NotificationChannel) : Bool :=
  (tables.preferences.find? fun p => p.isActive && p.key == (user, eventType, channel)).elim true
    NotificationPreference.enabled

/-- `get_or_create` under the unique constraint. -/
def getOrCreate (deliveries : List NewDelivery) (d : NewDelivery) : List NewDelivery :=
  if d.key ∈ deliveries.map NewDelivery.key then deliveries else deliveries ++ [d]

/-- A plain call for one recipient on one channel; a recipient that was not saved is refused. -/
def createOne (deliveries : List NewDelivery) :
    Option ℕ × NotificationChannel → Option (List NewDelivery)
  | (none, _) => none
  | (some user, channel) =>
      if preferenceEnabled tables eventType user channel then
        (renderNotification tables payload eventType channel none).map fun text =>
          getOrCreate deliveries ⟨some user, channel, text.1, text.2⟩
      else some deliveries

def createOneByOne (recipients : List (Option ℕ)) (channels : List NotificationChannel) :
    Option (List NewDelivery) :=
  (pairs recipients channels).foldlM (createOne tables payload eventType) []

/-! ## One query for all -/

section

variable {tables : NotificationTables} {payload : NotificationPayload} {eventType : String}

/-- The dictionary of the templates has what the query of a channel finds. -/
theorem templatesByChannel_eq {channels : List NotificationChannel} {channel : NotificationChannel}
    (h : channel ∈ channels) :
    templatesByChannel tables eventType channels channel =
      firstTemplate tables eventType channel := by
  refine find_eq_of_unique (fun t ht => ?_) fun t ht t' ht' hchannel hchannel' => ?_
  · have hin : t.channel ∈ channels := by
      rw [beq_iff_eq.mp ht]
      exact h
    simp [hin]
  · obtain ⟨hmem, hcode⟩ := List.mem_filter.mp ht
    obtain ⟨hmem', hcode'⟩ := List.mem_filter.mp ht'
    simp only [Bool.and_eq_true, beq_iff_eq] at hcode hcode' hchannel hchannel'
    refine List.inj_on_of_nodup_map tables.uniqueTemplate hmem hmem' ?_
    simp only [NotificationTemplate.key, hcode.1, hcode'.1, hchannel, hchannel']

theorem renderNotification_eq {channels : List NotificationChannel} {channel : NotificationChannel}
    (h : channel ∈ channels) :
    renderNotification tables payload eventType channel
        (templatesByChannel tables eventType channels channel) =
      renderNotification tables payload eventType channel none := by
  rw [templatesByChannel_eq h, renderNotification, renderNotification, Option.or_self,
    Option.none_or]

/-- The muted pairs are the ones whose preference is off. -/
theorem mem_muted_iff {recipients : List (Option ℕ)} {channels : List NotificationChannel} {user : ℕ}
    {channel : NotificationChannel} (huser : some user ∈ recipients) (hchannel : channel ∈ channels) :
    (user, channel) ∈ muted tables eventType recipients channels ↔
      preferenceEnabled tables eventType user channel = false := by
  constructor
  · intro hmem
    obtain ⟨p, hp, hpair⟩ := List.mem_map.mp hmem
    obtain ⟨hpUser, hpChannel⟩ := Prod.mk.inj hpair
    obtain ⟨hrow, hoff⟩ := List.mem_filter.mp hp
    simp only [Bool.and_eq_true, beq_iff_eq, Bool.not_eq_true'] at hoff
    obtain ⟨⟨⟨⟨hactive, -⟩, htype⟩, -⟩, henabled⟩ := hoff
    have hkey : p.key = (user, eventType, channel) := by
      rw [NotificationPreference.key, hpUser, hpChannel, htype]
    rw [preferenceEnabled]
    cases hfind : tables.preferences.find? fun p =>
        p.isActive && p.key == (user, eventType, channel) with
    | none => exact absurd (by simp [hactive, hkey]) (List.find?_eq_none.mp hfind p hrow)
    | some q =>
        have hq := List.find?_some hfind
        simp only [Bool.and_eq_true, beq_iff_eq] at hq
        have hsame : q = p := List.inj_on_of_nodup_map tables.uniquePreference
          (List.mem_of_find?_eq_some hfind) hrow (hq.2.trans hkey.symm)
        rw [hsame]
        exact henabled
  · intro hoff
    rw [preferenceEnabled] at hoff
    cases hfind : tables.preferences.find? fun p =>
        p.isActive && p.key == (user, eventType, channel) with
    | none =>
        rw [hfind] at hoff
        cases hoff
    | some p =>
        rw [hfind] at hoff
        have hp := List.find?_some hfind
        simp only [Bool.and_eq_true, beq_iff_eq, NotificationPreference.key, Prod.mk.injEq] at hp
        obtain ⟨hactive, hpUser, htype, hpChannel⟩ := hp
        refine List.mem_map.mpr ⟨p, List.mem_filter.mpr ⟨List.mem_of_find?_eq_some hfind, ?_⟩, ?_⟩
        · have henabled : p.enabled = false := hoff
          simp [hactive, hpUser, htype, hpChannel, huser, hchannel, henabled]
        · rw [hpUser, hpChannel]

/-! ## Recipients -/

theorem mem_dedupeRecipients {recipients : List (Option ℕ)} {recipient : Option ℕ} :
    recipient ∈ dedupeRecipients recipients ↔ recipient ∈ recipients := by
  induction recipients using List.reverseRecOn with
  | nil => rfl
  | append_singleton recipients last ih =>
      have hsnoc : dedupeRecipients (recipients ++ [last]) =
          match last with
          | none => dedupeRecipients recipients ++ [none]
          | some pk => insertNew (dedupeRecipients recipients) (some pk) := by
        rw [dedupeRecipients, List.foldl_append]
        rfl
      rw [hsnoc, List.mem_append, List.mem_singleton, ← ih]
      cases last with
      | none => simp
      | some pk => exact mem_insertNew

/-- Saved recipients are kept once each. -/
theorem dedupeRecipients_saved (users : List ℕ) :
    dedupeRecipients (users.map some) = (distinct users).map some := by
  have hfold : ∀ acc : List (Option ℕ), (users.map some).foldl (fun unique recipient =>
      match recipient with
      | none => unique ++ [none]
      | some pk => insertNew unique (some pk)) acc =
        (users.map some).foldl insertNew acc := by
    induction users with
    | nil => exact fun acc => rfl
    | cons user users ih => exact fun acc => ih _
  rw [dedupeRecipients, hfold []]
  exact distinct_map (fun _ _ h => Option.some.inj h) users

/-! ## The two calls agree -/

/-- The text that a channel is rendered to. -/
def channelText (tables : NotificationTables) (payload : NotificationPayload) (eventType : String)
    (channel : NotificationChannel) : String × String :=
  (renderNotification tables payload eventType channel none).getD ("", "")

/-- The delivery of a user on a channel. -/
def pairDelivery (tables : NotificationTables) (payload : NotificationPayload) (eventType : String)
    (pair : ℕ × NotificationChannel) : NewDelivery :=
  let text := channelText tables payload eventType pair.2
  ⟨some pair.1, pair.2, text.1, text.2⟩

/-- The channel can be rendered. -/
def Renders (tables : NotificationTables) (payload : NotificationPayload) (eventType : String)
    (channel : NotificationChannel) : Prop :=
  (renderNotification tables payload eventType channel none).isSome = true

theorem Renders.text {channel : NotificationChannel} (h : Renders tables payload eventType channel) :
    renderNotification tables payload eventType channel none =
      some (channelText tables payload eventType channel) := by
  obtain ⟨text, htext⟩ := Option.isSome_iff_exists.mp h
  rw [channelText, htext, Option.getD_some]

def savedPair (pair : ℕ × NotificationChannel) : Option ℕ × NotificationChannel :=
  (some pair.1, pair.2)

theorem savedPair_injective : Function.Injective savedPair := by
  rintro ⟨user, channel⟩ ⟨user', channel'⟩ h
  obtain ⟨huser, hchannel⟩ := Prod.mk.inj h
  exact Prod.ext (Option.some.inj huser) hchannel

theorem pairs_saved (users : List ℕ) (channels : List NotificationChannel) :
    pairs (users.map some) channels = (pairs users channels).map savedPair := by
  simp only [pairs, List.flatMap_map, List.map_flatMap, List.map_map]
  rfl

theorem keys_pairDelivery (ps : List (ℕ × NotificationChannel)) :
    (ps.map (pairDelivery tables payload eventType)).map NewDelivery.key = ps.map savedPair := by
  rw [List.map_map]
  rfl

theorem getOrCreate_pair (created : List (ℕ × NotificationChannel))
    (pair : ℕ × NotificationChannel) :
    getOrCreate (created.map (pairDelivery tables payload eventType))
        (pairDelivery tables payload eventType pair) =
      (insertNew created pair).map (pairDelivery tables payload eventType) := by
  have hmem : (pairDelivery tables payload eventType pair).key ∈
      (created.map (pairDelivery tables payload eventType)).map NewDelivery.key ↔ pair ∈ created := by
    rw [keys_pairDelivery]
    exact List.mem_map_of_injective savedPair_injective
  rw [getOrCreate, insertNew]
  by_cases h : pair ∈ created
  · rw [if_pos h, if_pos (hmem.mpr h)]
  · rw [if_neg h, if_neg fun hkey => h (hmem.mp hkey), List.map_append]
    rfl

/-- The user wants the event on the channel. -/
def wanted (tables : NotificationTables) (eventType : String)
    (pair : ℕ × NotificationChannel) : Bool :=
  preferenceEnabled tables eventType pair.1 pair.2

/-- The plain call goes over the wanted pairs. -/
theorem createOne_run {ps created : List (ℕ × NotificationChannel)}
    (hrender : ∀ pair ∈ ps, Renders tables payload eventType pair.2) :
    (ps.map savedPair).foldlM (createOne tables payload eventType)
        (created.map (pairDelivery tables payload eventType)) =
      some (((ps.filter (wanted tables eventType)).foldl insertNew created).map
        (pairDelivery tables payload eventType)) := by
  induction ps generalizing created with
  | nil => rfl
  | cons pair ps ih =>
      obtain ⟨hpair, hrest⟩ := List.forall_mem_cons.mp hrender
      rw [List.map_cons, List.foldlM_cons]
      cases hwanted : wanted tables eventType pair with
      | false =>
          have hskip : createOne tables payload eventType
              (created.map (pairDelivery tables payload eventType)) (savedPair pair) =
                some (created.map (pairDelivery tables payload eventType)) :=
            if_neg (by rw [show preferenceEnabled tables eventType pair.1 pair.2 = false from hwanted]
                       decide)
          rw [hskip, List.filter_cons, hwanted, if_neg (by decide)]
          exact ih hrest
      | true =>
          have hcreate : createOne tables payload eventType
              (created.map (pairDelivery tables payload eventType)) (savedPair pair) =
                some ((insertNew created pair).map (pairDelivery tables payload eventType)) := by
            rw [← getOrCreate_pair]
            refine (if_pos hwanted).trans ?_
            rw [hpair.text]
            rfl
          rw [hcreate, List.filter_cons, hwanted, if_pos rfl]
          exact ih hrest

/-- The bulk call has the wanted pairs too. -/
theorem deliveries_saved {users : List ℕ} {channels : List NotificationChannel}
    (hrender : ∀ channel ∈ channels, Renders tables payload eventType channel) :
    (pairs (users.map some) channels).filterMap (deliveryFor tables payload eventType channels
        (muted tables eventType (users.map some) channels)) =
      ((pairs users channels).filter (wanted tables eventType)).map
        (pairDelivery tables payload eventType) := by
  have hone : ∀ pair ∈ pairs users channels, deliveryFor tables payload eventType channels
      (muted tables eventType (users.map some) channels) (savedPair pair) =
        if wanted tables eventType pair = true then some (pairDelivery tables payload eventType pair)
        else none := by
    intro pair hpair
    obtain ⟨huser, hchannel⟩ := mem_pairs.mp hpair
    have hmuted : pair ∈ muted tables eventType (users.map some) channels ↔
        wanted tables eventType pair = false :=
      mem_muted_iff (List.mem_map_of_mem huser) hchannel
    have hany : ((savedPair pair).1.any fun user =>
        decide ((user, (savedPair pair).2) ∈ muted tables eventType (users.map some) channels)) =
          !wanted tables eventType pair := by
      show decide (pair ∈ muted tables eventType (users.map some) channels) = _
      rw [Bool.eq_iff_iff, decide_eq_true_iff, hmuted, Bool.not_eq_true']
    rw [deliveryFor, hany, show (savedPair pair).2 = pair.2 from rfl, renderNotification_eq hchannel,
      (hrender pair.2 hchannel).text]
    cases wanted tables eventType pair <;> rfl
  rw [pairs_saved, List.filterMap_map]
  generalize pairs users channels = ps at hone ⊢
  induction ps with
  | nil => rfl
  | cons pair ps ih =>
      obtain ⟨hpair, hps⟩ := List.forall_mem_cons.mp hone
      rw [List.filterMap_cons, List.filter_cons, Function.comp_apply, hpair, ih hps]
      cases wanted tables eventType pair <;> rfl

theorem bulkCreate_saved {ps : List (ℕ × NotificationChannel)} (hnodup : ps.Nodup) :
    bulkCreate (ps.map (pairDelivery tables payload eventType)) =
      some (ps.map (pairDelivery tables payload eventType)) := by
  refine if_pos ⟨?_, ?_⟩
  · rw [List.all_map, List.all_eq_true]
    exact fun _ _ => rfl
  · rw [keys_pairDelivery]
    exact hnodup.map savedPair_injective

/-- The deliveries of saved recipients: one for each of them and each channel that is wanted. -/
theorem createDeliveries_saved {users : List ℕ} {channels : List NotificationChannel}
    (hrender : ∀ channel ∈ channels, Renders tables payload eventType channel) :
    createDeliveries tables payload eventType (users.map some) channels =
      some (((distinct (pairs users channels)).filter (wanted tables eventType)).map
        (pairDelivery tables payload eventType)) := by
  have hrender' : ∀ channel ∈ distinct channels, Renders tables payload eventType channel :=
    fun channel hchannel => hrender channel (mem_distinct.mp hchannel)
  have hall : ((distinct channels).all fun channel => (renderNotification tables payload eventType
      channel (templatesByChannel tables eventType (distinct channels) channel)).isSome) = true := by
    rw [List.all_eq_true]
    intro channel hchannel
    rw [renderNotification_eq hchannel]
    exact hrender' channel hchannel
  simp only [createDeliveries, dedupeRecipients_saved, hall, if_true, deliveries_saved hrender']
  rw [distinct_pairs]
  have hnodup : ((pairs (distinct users) (distinct channels)).filter
      (wanted tables eventType)).Nodup := by
    rw [← distinct_pairs]
    exact (nodup_distinct _).filter _
  split_ifs with hempty
  · rcases hempty with husers | hchannels
    · rw [List.map_eq_nil_iff.mp husers]
      rfl
    · rw [hchannels]
      simp [pairs]
  · exact bulkCreate_saved hnodup

/-- A recipient that was not saved stops both calls. -/
theorem createOneByOne_unsaved {recipients : List (Option ℕ)} {channels : List NotificationChannel}
    (hnone : none ∈ recipients) (hne : channels ≠ []) :
    createOneByOne tables payload eventType recipients channels = none := by
  obtain ⟨channel, rest, rfl⟩ := List.exists_cons_of_ne_nil hne
  have hmem : (none, channel) ∈ pairs recipients (channel :: rest) :=
    mem_pairs.mpr ⟨hnone, List.mem_cons_self⟩
  rw [createOneByOne]
  generalize pairs recipients (channel :: rest) = ps at hmem
  generalize ([] : List NewDelivery) = created
  induction ps generalizing created with
  | nil => cases hmem
  | cons pair ps ih =>
      rw [List.foldlM_cons]
      rcases List.mem_cons.mp hmem with rfl | hmem
      · rfl
      · cases createOne tables payload eventType created pair with
        | none => rfl
        | some created => exact ih hmem created

theorem createDeliveries_unsaved {recipients : List (Option ℕ)} {channels : List NotificationChannel}
    (hrender : ∀ channel ∈ channels, Renders tables payload eventType channel)
    (hnone : none ∈ recipients) (hne : channels ≠ []) :
    createDeliveries tables payload eventType recipients channels = none := by
  obtain ⟨channel, rest, rfl⟩ := List.exists_cons_of_ne_nil hne
  have hrecipient : none ∈ dedupeRecipients recipients := mem_dedupeRecipients.mpr hnone
  have hchannel : channel ∈ distinct (channel :: rest) := mem_distinct.mpr List.mem_cons_self
  have hsome : ¬ (dedupeRecipients recipients = [] ∨ distinct (channel :: rest) = []) := by
    rintro (h | h)
    · rw [h] at hrecipient
      cases hrecipient
    · rw [h] at hchannel
      cases hchannel
  rw [createDeliveries, if_neg hsome]
  split_ifs with hall
  · refine if_neg fun hfit => ?_
    have htext := (hrender channel List.mem_cons_self).text
    have hdelivery : ⟨none, channel, (channelText tables payload eventType channel).1,
        (channelText tables payload eventType channel).2⟩ ∈
          (pairs (dedupeRecipients recipients) (distinct (channel :: rest))).filterMap
            (deliveryFor tables payload eventType (distinct (channel :: rest))
              (muted tables eventType (dedupeRecipients recipients)
                (distinct (channel :: rest)))) := by
      refine List.mem_filterMap.mpr ⟨(none, channel), mem_pairs.mpr ⟨hrecipient, hchannel⟩, ?_⟩
      rw [deliveryFor, renderNotification_eq hchannel, htext]
      rfl
    have hsaved := List.all_eq_true.mp hfit.1 _ hdelivery
    cases hsaved
  · rfl

end

/-- **In bulk as one by one.**  Whatever is repeated among the recipients and the channels, the bulk
call leaves the deliveries of the plain one in the same order, and stops where it stops, if the
texts of its channels can be rendered. -/
theorem bulk_agrees_one_by_one (tables : NotificationTables) (payload : NotificationPayload)
    (eventType : String) (recipients : List (Option ℕ)) (channels : List NotificationChannel)
    (hrender : ∀ channel ∈ channels, Renders tables payload eventType channel) :
    createDeliveries tables payload eventType recipients channels =
      createOneByOne tables payload eventType recipients channels := by
  by_cases hne : channels = []
  · subst hne
    have hnone : pairs recipients ([] : List NotificationChannel) = [] := by simp [pairs]
    rw [createDeliveries, if_pos (.inr rfl), createOneByOne, hnone]
    rfl
  by_cases hunsaved : none ∈ recipients
  · rw [createDeliveries_unsaved hrender hunsaved hne, createOneByOne_unsaved hunsaved hne]
  · obtain ⟨users, rfl⟩ : ∃ users : List ℕ, recipients = users.map some := by
      refine ⟨recipients.filterMap id, ?_⟩
      clear hrender
      induction recipients with
      | nil => rfl
      | cons recipient recipients ih =>
          rw [List.mem_cons, not_or] at hunsaved
          cases recipient with
          | none => exact absurd rfl hunsaved.1
          | some user =>
              exact congrArg (some user :: ·) (ih hunsaved.2)
    have hpairs : ∀ pair ∈ pairs users channels, Renders tables payload eventType pair.2 :=
      fun pair hpair => hrender pair.2 (mem_pairs.mp hpair).2
    rw [createDeliveries_saved hrender, createOneByOne, pairs_saved, ← distinct_filter]
    exact (createOne_run hpairs).symm

/-- The first user has switched the event off in the app. -/
def mutedInApp : NotificationTables where
  preferences := [⟨1, "content.published", .inApp, false, true⟩]
  templates := []
  uniquePreference := by decide
  uniqueTemplate := by decide

def untitled : NotificationPayload := ⟨some, none, none⟩

/-- Two users, the first of them named twice as the app is, get three deliveries. -/
theorem bulk_agrees_one_by_one_muted :
    createDeliveries mutedInApp untitled "content.published" [some 1, some 2, some 1]
        [.inApp, .email, .inApp] =
      some [⟨some 1, .email, "content.published", "content.published"⟩,
        ⟨some 2, .inApp, "content.published", "content.published"⟩,
        ⟨some 2, .email, "content.published", "content.published"⟩] ∧
    createDeliveries mutedInApp untitled "content.published" [some 1, some 2, some 1]
        [.inApp, .email, .inApp] =
      createOneByOne mutedInApp untitled "content.published" [some 1, some 2, some 1]
        [.inApp, .email, .inApp] := by
  refine ⟨by decide, bulk_agrees_one_by_one _ _ _ _ _ fun channel _ => ?_⟩
  cases channel <;> rfl

end SetadJang.Notifications
