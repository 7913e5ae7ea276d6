import SetadJang.Notifications.Creation

/-!
# Preferences over time

`set_preference` is an `update_or_create` through the default manager, which does not see rows that
were deactivated.  As long as the row of a user for an event and a channel is not switched, the last
call decides whether the events created next reach the user there.  Against a deactivated row the
insert is refused, and the user cannot be heard.
-/

namespace SetadJang.Notifications

open SetadJang.Framework

abbrev PreferenceKey := ℕ × String × NotificationChannel

/-! ## Rows -/

/-- The row under the key that the default manager sees. -/
def activeRow (rows : List NotificationPreference) (key : PreferenceKey) :
    Option NotificationPreference :=
  rows.find? fun p => p.isActive && p.key == key

def setEnabled (key : PreferenceKey) (enabled : Bool) (p : NotificationPreference) :
    NotificationPreference :=
  if p.isActive && p.key == key then { p with enabled := enabled } else p

def setActive (key : PreferenceKey) (isActive : Bool) (p : NotificationPreference) :
    NotificationPreference :=
  if p.key = key then { p with isActive := isActive } else p

/-- `update_or_create`; the unique constraint refuses a second row under a key. -/
def updateOrCreate (rows : List NotificationPreference) (key : PreferenceKey) (enabled : Bool) :
    Option (List NotificationPreference) :=
  if (activeRow rows key).isSome then some (rows.map (setEnabled key enabled))
  else if key ∈ rows.map NotificationPreference.key then none
  else some (rows ++ [⟨key.1, key.2.1, key.2.2, enabled, true⟩])

@[simp] theorem setEnabled_key (key : PreferenceKey) (enabled : Bool) (p : NotificationPreference) :
    (setEnabled key enabled p).key = p.key := by
  unfold setEnabled
  split_ifs <;> rfl

@[simp] theorem setActive_key (key : PreferenceKey) (isActive : Bool) (p : NotificationPreference) :
    (setActive key isActive p).key = p.key := by
  unfold setActive
  split_ifs <;> rfl

theorem keys_map {f : NotificationPreference → NotificationPreference} (hf : ∀ p, (f p).key = p.key)
    (rows : List NotificationPreference) :
    (rows.map f).map NotificationPreference.key = rows.map NotificationPreference.key := by
  rw [List.map_map]
  exact List.map_congr_left fun p _ => hf p

theorem nodup_updateOrCreate {rows rows' : List NotificationPreference} {key : PreferenceKey}
    {enabled : Bool} (hrows : (rows.map NotificationPreference.key).Nodup)
    (h : updateOrCreate rows key enabled = some rows') :
    (rows'.map NotificationPreference.key).Nodup := by
  unfold updateOrCreate at h
  split_ifs at h with hactive hkey
  · obtain rfl := Option.some.inj h
    rw [keys_map (setEnabled_key key enabled)]
    exact hrows
  · obtain rfl := Option.some.inj h
    rw [List.map_append, List.nodup_append]
    refine ⟨hrows, List.nodup_singleton _, fun k hk k' hk' hsame => hkey ?_⟩
    have hnew : k' = key := List.mem_singleton.mp hk'
    rw [← hnew, ← hsame]
    exact hk

/-! ## Steps -/

inductive PreferenceAct where
  | setPreference (key : PreferenceKey) (enabled : Bool)
  /-- The admin switches a row. -/
  | setActive (key : PreferenceKey) (isActive : Bool)
deriving DecidableEq, Repr

/-- `set_preference`; an exception leaves the table as it was. -/
def setPreference (tables : NotificationTables) (key : PreferenceKey) (enabled : Bool) :
    NotificationTables :=
  match h : updateOrCreate tables.preferences key enabled with
  | none => tables
  | some rows =>
      { tables with
        preferences := rows
        uniquePreference := nodup_updateOrCreate tables.uniquePreference h }

def preferenceStep (tables : NotificationTables) : PreferenceAct → NotificationTables
  | .setPreference key enabled => setPreference tables key enabled
  | .setActive key isActive =>
      { tables with
        preferences := tables.preferences.map (setActive key isActive)
        uniquePreference := by
          rw [keys_map (setActive_key key isActive)]
          exact tables.uniquePreference }

def preferenceRun (tables : NotificationTables) (acts : List PreferenceAct) : NotificationTables :=
  acts.foldl preferenceStep tables

theorem preferenceRun_snoc (tables : NotificationTables) (acts : List PreferenceAct)
    (act : PreferenceAct) :
    preferenceRun tables (acts ++ [act]) = preferenceStep (preferenceRun tables acts) act := by
  rw [preferenceRun, List.foldl_append]
  rfl

theorem setPreference_preferences (tables : NotificationTables) (key : PreferenceKey)
    (enabled : Bool) :
    (setPreference tables key enabled).preferences =
      (updateOrCreate tables.preferences key enabled).getD tables.preferences := by
  unfold setPreference
  split
  next h =>
    rw [h]
    rfl
  next rows h =>
    show rows = _
    rw [h]
    rfl

theorem setPreference_templates (tables : NotificationTables) (key : PreferenceKey)
    (enabled : Bool) : (setPreference tables key enabled).templates = tables.templates := by
  unfold setPreference
  split <;> rfl

theorem templates_run (tables : NotificationTables) (acts : List PreferenceAct) :
    (preferenceRun tables acts).templates = tables.templates := by
  induction acts using List.reverseRecOn with
  | nil => rfl
  | append_singleton acts act ih =>
      rw [preferenceRun_snoc, ← ih]
      cases act with
      | setPreference key enabled => exact setPreference_templates _ key enabled
      | setActive key isActive => rfl

/-! ## One key -/

/-- What a query of an active row sees of rows that keep their keys. -/
theorem activeRow_map {f : NotificationPreference → NotificationPreference} {key : PreferenceKey}
    (hf : ∀ p, ((f p).isActive && (f p).key == key) = (p.isActive && p.key == key))
    (rows : List NotificationPreference) :
    activeRow (rows.map f) key = (activeRow rows key).map f := by
  rw [activeRow, List.find?_map]
  simp only [Function.comp_def, hf]
  rfl

theorem key_of_activeRow {rows : List NotificationPreference} {key : PreferenceKey}
    {p : NotificationPreference} (h : activeRow rows key = some p) :
    p.isActive = true ∧ p.key = key := by
  have hp := List.find?_some h
  simpa only [Bool.and_eq_true, beq_iff_eq] using hp

theorem activeRow_setEnabled (key key' : PreferenceKey) (enabled : Bool)
    (rows : List NotificationPreference) :
    activeRow (rows.map (setEnabled key enabled)) key' =
      (activeRow rows key').map (setEnabled key enabled) := by
  refine activeRow_map (fun p => ?_) rows
  have hactive : (setEnabled key enabled p).isActive = p.isActive := by
    unfold setEnabled
    split_ifs <;> rfl
  rw [hactive, setEnabled_key]

theorem activeRow_snoc_ne {key key' : PreferenceKey} (hne : key ≠ key')
    (rows : List NotificationPreference) (enabled : Bool) :
    activeRow (rows ++ [⟨key.1, key.2.1, key.2.2, enabled, true⟩]) key' = activeRow rows key' := by
  have hnone : activeRow [⟨key.1, key.2.1, key.2.2, enabled, true⟩] key' = none := by
    simp [activeRow, NotificationPreference.key, hne]
  rw [activeRow, List.find?_append]
  show (activeRow rows key').or (activeRow _ key') = _
  rw [hnone, Option.or_none]

/-- Every row under the key is active. -/
def Unswitched (tables : NotificationTables) (key : PreferenceKey) : Prop :=
  ∀ p ∈ tables.preferences, p.key = key → p.isActive = true

/-- The act switches no row under the key. -/
def PreferenceAct.Leaves (key : PreferenceKey) (act : PreferenceAct) : Prop :=
  ∀ isActive, act ≠ .setActive key isActive

/-- What the act says about the key. -/
def PreferenceAct.said (key : PreferenceKey) : PreferenceAct → Option Bool
  | .setPreference key' enabled => if key' = key then some enabled else none
  | .setActive _ _ => none

/-- The plain program: the last word about the key, or what held before. -/
def lastWord (key : PreferenceKey) (before : Bool) (acts : List PreferenceAct) : Bool :=
  acts.foldl (fun word act => (act.said key).getD word) before

theorem lastWord_snoc (key : PreferenceKey) (before : Bool) (acts : List PreferenceAct)
    (act : PreferenceAct) :
    lastWord key before (acts ++ [act]) = (act.said key).getD (lastWord key before acts) := by
  rw [lastWord, List.foldl_append]
  rfl

/-- Whether the events of the key reach its user. -/
def enabledFor (tables : NotificationTables) (key : PreferenceKey) : Bool :=
  preferenceEnabled tables key.2.1 key.1 key.2.2

theorem enabledFor_eq (tables : NotificationTables) (key : PreferenceKey) :
    enabledFor tables key =
      (activeRow tables.preferences key).elim true NotificationPreference.enabled := rfl

theorem enabledFor_set {tables : NotificationTables} {key : PreferenceKey}
    (h : Unswitched tables key) (enabled : Bool) :
    enabledFor (setPreference tables key enabled) key = enabled := by
  rw [enabledFor_eq, setPreference_preferences, updateOrCreate]
  cases hrow : activeRow tables.preferences key with
  | some p =>
      rw [Option.isSome_some, if_pos rfl, Option.getD_some, activeRow_setEnabled, hrow]
      obtain ⟨hactive, hkey⟩ := key_of_activeRow hrow
      simp [setEnabled, hactive, hkey]
  | none =>
      -- A row under the key would be active, and then be seen.
      have hnew : key ∉ tables.preferences.map NotificationPreference.key := by
        intro hmem
        obtain ⟨p, hp, hkey⟩ := List.mem_map.mp hmem
        exact List.find?_eq_none.mp hrow p hp (by simp [h p hp hkey, hkey])
      have hself : activeRow [⟨key.1, key.2.1, key.2.2, enabled, true⟩] key =
          some ⟨key.1, key.2.1, key.2.2, enabled, true⟩ := by
        simp [activeRow, NotificationPreference.key]
      rw [if_neg (by decide), if_neg hnew, Option.getD_some, activeRow, List.find?_append]
      show ((activeRow tables.preferences key).or (activeRow _ key)).elim _ _ = _
      rw [hrow, hself]
      rfl

theorem enabledFor_set_ne {tables : NotificationTables} {key key' : PreferenceKey}
    (hne : key ≠ key') (enabled : Bool) :
    enabledFor (setPreference tables key enabled) key' = enabledFor tables key' := by
  rw [enabledFor_eq, enabledFor_eq, setPreference_preferences, updateOrCreate]
  split_ifs
  · rw [Option.getD_some, activeRow_setEnabled]
    cases hrow : activeRow tables.preferences key' with
    | none => rfl
    | some p =>
        have hkey : p.key ≠ key := fun h => hne (h.symm.trans (key_of_activeRow hrow).2)
        simp [setEnabled, hkey]
  · rfl
  · rw [Option.getD_some, activeRow_snoc_ne hne]

theorem enabledFor_setActive {tables : NotificationTables} {key key' : PreferenceKey}
    (hne : key ≠ key') (isActive : Bool) :
    enabledFor (preferenceStep tables (.setActive key isActive)) key' = enabledFor tables key' := by
  rw [enabledFor_eq, enabledFor_eq]
  show (activeRow (tables.preferences.map (setActive key isActive)) key').elim _ _ = _
  rw [activeRow_map]
  · cases activeRow tables.preferences key' with
    | none => rfl
    | some p =>
        show (setActive key isActive p).enabled = p.enabled
        unfold setActive
        split_ifs <;> rfl
  · intro p
    rw [setActive_key, setActive]
    split_ifs with hkey
    · have hother : (p.key == key') = false := by simp [hkey, hne]
      rw [hother, Bool.and_false, Bool.and_false]
    · rfl

/-- One act on the tables is one word of the plain program. -/
theorem enabledFor_step {tables : NotificationTables} {key : PreferenceKey} {act : PreferenceAct}
    (h : Unswitched tables key) (hleaves : act.Leaves key) :
    enabledFor (preferenceStep tables act) key = (act.said key).getD (enabledFor tables key) := by
  cases act with
  | setPreference key' enabled =>
      by_cases hkey : key' = key
      · subst hkey
        rw [PreferenceAct.said, if_pos rfl]
        exact enabledFor_set h enabled
      · rw [PreferenceAct.said, if_neg hkey]
        exact enabledFor_set_ne hkey enabled
  | setActive key' isActive =>
      have hkey : key' ≠ key := by
        rintro rfl
        exact hleaves isActive rfl
      exact enabledFor_setActive hkey isActive

theorem unswitched_step {tables : NotificationTables} {key : PreferenceKey} {act : PreferenceAct}
    (h : Unswitched tables key) (hleaves : act.Leaves key) :
    Unswitched (preferenceStep tables act) key := by
  cases act with
  | setPreference key' enabled =>
      intro p hp hkey
      rw [show preferenceStep tables (.setPreference key' enabled) =
        setPreference tables key' enabled from rfl, setPreference_preferences, updateOrCreate] at hp
      split_ifs at hp
      · obtain ⟨q, hq, rfl⟩ := List.mem_map.mp hp
        rw [setEnabled_key] at hkey
        have hactive := h q hq hkey
        unfold setEnabled
        split_ifs
        · exact hactive
        · exact hactive
      · exact h p hp hkey
      · rcases List.mem_append.mp hp with hp | hp
        · exact h p hp hkey
        · rw [List.mem_singleton.mp hp]
  | setActive key' isActive =>
      intro p hp hkey
      obtain ⟨q, hq, rfl⟩ := List.mem_map.mp hp
      rw [setActive_key] at hkey
      have hne : q.key ≠ key' := by
        rintro rfl
        exact hleaves isActive (by rw [hkey])
      rw [setActive, if_neg hne]
      exact h q hq hkey

/-- A run of the tables is the plain program. -/
theorem enabledFor_run {tables : NotificationTables} {key : PreferenceKey}
    (h : Unswitched tables key) {acts : List PreferenceAct}
    (hleaves : ∀ act ∈ acts, act.Leaves key) :
    Unswitched (preferenceRun tables acts) key ∧
      enabledFor (preferenceRun tables acts) key = lastWord key (enabledFor tables key) acts := by
  induction acts using List.reverseRecOn with
  | nil => exact ⟨h, rfl⟩
  | append_singleton acts act ih =>
      obtain ⟨hun, hword⟩ := ih fun act hact => hleaves act (List.mem_append_left _ hact)
      have hlast : act.Leaves key := hleaves act (by simp)
      rw [preferenceRun_snoc, lastWord_snoc, ← hword]
      exact ⟨unswitched_step hun hlast, enabledFor_step hun hlast⟩

/-! ## A deactivated row -/

def Switched (tables : NotificationTables) (key : PreferenceKey) : Prop :=
  ∃ p ∈ tables.preferences, p.key = key ∧ p.isActive = false

theorem Switched.activeRow {tables : NotificationTables} {key : PreferenceKey}
    (h : Switched tables key) : activeRow tables.preferences key = none := by
  obtain ⟨p, hp, hkey, hoff⟩ := h
  refine List.find?_eq_none.mpr fun q hq hseen => ?_
  simp only [Bool.and_eq_true, beq_iff_eq] at hseen
  have hsame : q = p :=
    List.inj_on_of_nodup_map tables.uniquePreference hq hp (hseen.2.trans hkey.symm)
  rw [hsame, hoff] at hseen
  exact absurd hseen.1 (by decide)

/-- The insert is refused. -/
theorem Switched.unheard {tables : NotificationTables} {key : PreferenceKey}
    (h : Switched tables key) (enabled : Bool) : setPreference tables key enabled = tables := by
  have hkey : key ∈ tables.preferences.map NotificationPreference.key := by
    obtain ⟨p, hp, hkey, -⟩ := h
    exact List.mem_map.mpr ⟨p, hp, hkey⟩
  have hrefused : updateOrCreate tables.preferences key enabled = none := by
    rw [updateOrCreate, h.activeRow, if_neg (by decide), if_pos hkey]
  unfold setPreference
  split
  · rfl
  next rows hrows =>
    rw [hrefused] at hrows
    cases hrows

theorem Switched.reached {tables : NotificationTables} {key : PreferenceKey}
    (h : Switched tables key) : enabledFor tables key = true := by
  rw [enabledFor_eq, h.activeRow]
  rfl

/-! ## Events -/

/-- The texts do not depend on preferences. -/
theorem renders_run {tables : NotificationTables} {payload : NotificationPayload}
    {eventType : String} {channel : NotificationChannel} (acts : List PreferenceAct)
    (h : Renders tables payload eventType channel) :
    Renders (preferenceRun tables acts) payload eventType channel := by
  rw [Renders, renderNotification, firstTemplate, activeTemplates, templates_run]
  exact h

theorem mem_keys_saved {tables : NotificationTables} {payload : NotificationPayload}
    {eventType : String} {users : List ℕ} {channels : List NotificationChannel} {user : ℕ}
    {channel : NotificationChannel} :
    (some user, channel) ∈ (((distinct (pairs users channels)).filter
        (wanted tables eventType)).map (pairDelivery tables payload eventType)).map
          NewDelivery.key ↔
      user ∈ users ∧ channel ∈ channels ∧ enabledFor tables (user, eventType, channel) = true := by
  rw [keys_pairDelivery]
  show savedPair (user, channel) ∈ _ ↔ _
  rw [List.mem_map_of_injective savedPair_injective, List.mem_filter, mem_distinct, mem_pairs,
    and_assoc]
  rfl

/-- **The last word.**  After any calls of `set_preference` and any switching of rows, an event
reaches each user on each channel at most once, and where the row was not switched it does exactly
if the last call of the user for the event and the channel left it enabled.  Where the row is
deactivated the event reaches the user, and no call changes that. -/
theorem last_word_decides (start : NotificationTables) (acts : List PreferenceAct)
    (payload : NotificationPayload) (eventType : String) (users : List ℕ)
    (channels : List NotificationChannel)
    (hrender : ∀ channel ∈ channels, Renders start payload eventType channel) :
    ∃ deliveries, createDeliveries (preferenceRun start acts) payload eventType (users.map some)
        channels = some deliveries ∧
      (deliveries.map NewDelivery.key).Nodup ∧
      (∀ user channel, Unswitched start (user, eventType, channel) →
        (∀ act ∈ acts, act.Leaves (user, eventType, channel)) →
        ((some user, channel) ∈ deliveries.map NewDelivery.key ↔
          user ∈ users ∧ channel ∈ channels ∧ lastWord (user, eventType, channel)
            (enabledFor start (user, eventType, channel)) acts = true)) ∧
      ∀ user ∈ users, ∀ channel ∈ channels,
        Switched (preferenceRun start acts) (user, eventType, channel) →
          (some user, channel) ∈ deliveries.map NewDelivery.key ∧
          ∀ enabled, setPreference (preferenceRun start acts) (user, eventType, channel) enabled =
            preferenceRun start acts := by
  have hrender' : ∀ channel ∈ channels,
      Renders (preferenceRun start acts) payload eventType channel :=
    fun channel hchannel => renders_run acts (hrender channel hchannel)
  refine ⟨_, createDeliveries_saved hrender', ?_, fun user channel hun hleaves => ?_,
    fun user huser channel hchannel hoff => ?_⟩
  · rw [keys_pairDelivery]
    exact ((nodup_distinct _).filter _).map savedPair_injective
  · rw [mem_keys_saved, (enabledFor_run hun hleaves).2]
  · exact ⟨mem_keys_saved.mpr ⟨huser, hchannel, hoff.reached⟩, hoff.unheard⟩

/-- The first user leaves the app and comes back to it; the second leaves it. -/
def changedMinds : List PreferenceAct :=
  [.setPreference (1, "content.published", .inApp) false,
    .setPreference (2, "content.published", .inApp) false,
    .setPreference (1, "content.published", .inApp) true]

def noPreferences : NotificationTables where
  preferences := []
  templates := []
  uniquePreference := List.nodup_nil
  uniqueTemplate := List.nodup_nil

theorem last_word_decides_changed :
    ∃ deliveries, createDeliveries (preferenceRun noPreferences changedMinds) untitled
        "content.published" [some 1, some 2] [.inApp] = some deliveries ∧
      (some 1, .inApp) ∈ deliveries.map NewDelivery.key ∧
      (some 2, .inApp) ∉ deliveries.map NewDelivery.key := by
  obtain ⟨deliveries, hcreate, -, hword, -⟩ := last_word_decides noPreferences changedMinds untitled
    "content.published" [1, 2] [.inApp] fun channel _ => by cases channel <;> rfl
  have hnone : ∀ key, Unswitched noPreferences key := fun key p hp => absurd hp List.not_mem_nil
  have hleaves : ∀ key, ∀ act ∈ changedMinds, act.Leaves key := by
    intro key act hact isActive heq
    rw [heq] at hact
    simp [changedMinds] at hact
  refine ⟨deliveries, hcreate, ?_, fun hmem => ?_⟩
  · exact (hword 1 .inApp (hnone _) (hleaves _)).mpr ⟨by decide, by decide, by decide⟩
  · have hlast := ((hword 2 .inApp (hnone _) (hleaves _)).mp hmem).2.2
    revert hlast
    decide

end SetadJang.Notifications
