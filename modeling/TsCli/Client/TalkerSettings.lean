import TsCli.Client.NetworkRuntime
import TsCli.Lib.Runs

/-!
# Whose settings the mixer applies

`m_TalkerIdentities` says for which unique id each entry of the mixer was made. The entries are
`Faithful` when each has the mute flag saved for that unique id, and `SyncTalkerSettings` then makes
the identities those of the clients (`Settled`). An action saves under the unique id and sets one
client id: the entries stay faithful unless another client has the same unique id.
-/

namespace TsCli

open Exec

variable {F : Type} (d : Decibels F)

/-! ## The mute flags -/

namespace TalkerMixer

/-- The mute flag of a client id. -/
def mutedAt (mixer : TalkerMixer F) (clientId : ℕ) : Bool :=
  match mixer.find? clientId with
  | some settings => settings.muted
  | none => false

variable {d} {mixer mixer' : TalkerMixer F}

theorem mem_mutedTalkers_iff {c : ℕ} : c ∈ mixer.mutedTalkers ↔ mixer.mutedAt c = true := by
  unfold mutedTalkers mutedAt
  rw [OrderedMap.mem_keys_iff, OrderedMap.find?_filter]
  cases mixer.find? c with
  | none => simp
  | some settings => simp [Option.filter]

theorem mutedAt_removeTalker (mixer : TalkerMixer F) (c j : ℕ) :
    (mixer.removeTalker c).mutedAt j = if j = c then false else mixer.mutedAt j := by
  unfold mutedAt removeTalker
  rw [OrderedMap.find?_erase]
  by_cases h : j = c
  · simp [h]
  · simp [h]

theorem mutedAt_setTalkerSettings {c : ℕ} {settings : TalkerSettings F}
    (h : mixer.setTalkerSettings d c settings = .ok mixer') (j : ℕ) :
    mixer'.mutedAt j = if j = c then settings.muted else mixer.mutedAt j := by
  obtain ⟨_, -, h⟩ := bind_eq_ok h
  obtain ⟨_, -, h⟩ := bind_eq_ok h
  cases h
  unfold mutedAt
  rw [OrderedMap.find?_insert]
  by_cases h : j = c
  · simp [h]
  · simp [h]

theorem ne_zero_of_setTalkerSettings {c : ℕ} {settings : TalkerSettings F}
    (h : mixer.setTalkerSettings d c settings = .ok mixer') : c ≠ 0 := by
  obtain ⟨_, hzero, -⟩ := bind_eq_ok h
  exact not_of_throwIf hzero

/-- A volume between the limits is refused for the client id 0 only. -/
theorem exists_setTalkerSettings {c : ℕ} (mixer : TalkerMixer F) (hc : c ≠ 0)
    (settings : TalkerSettings F) (h : d.outside settings.volumeDb = false) :
    ∃ mixer', mixer.setTalkerSettings d c settings = .ok mixer' := by
  unfold setTalkerSettings
  rw [throwIf_bind_of_not hc, throwIf_bind_of_not (by simp [h])]
  exact ⟨_, rfl⟩

end TalkerMixer

namespace UserConfigStore

/-- The mute flag that the mixer should have for a unique id: the saved one, if it can be loaded. -/
def savedMuted (store : UserConfigStore F) (uniqueId : Bytes) : Bool :=
  match store.load d uniqueId with
  | .ok config => config.muted
  | .error _ => false

variable {d} {store store' : UserConfigStore F} {uniqueId : Bytes} {config : UserConfig F}

theorem savedMuted_save (h : store.save d uniqueId config = .ok store') (uid : Bytes) :
    store'.savedMuted d uid = if uid = uniqueId then config.muted else store.savedMuted d uid := by
  by_cases huid : uid = uniqueId
  · subst huid
    unfold savedMuted
    rw [load_save h, if_pos rfl]
    by_cases hd : isDefault d config = true
    · have hmuted : config.muted = false := by
        unfold isDefault at hd
        simpa using (Bool.and_eq_true_iff.1 hd).2
      rw [if_pos hd, hmuted]
      rfl
    · rw [if_neg hd]
  · rw [if_neg huid]
    obtain ⟨_, -, h⟩ := bind_eq_ok h
    cases h
    unfold savedMuted load
    rw [Function.update_of_ne huid]

end UserConfigStore

namespace NetworkRuntime

/-- The same connection and the same files. -/
structure SameSources (s s' : NetworkRuntime F) : Prop where
  clients : s'.clients = s.clients
  clientId : s'.clientId = s.clientId
  userConfigStore : s'.userConfigStore = s.userConfigStore

theorem SameSources.trans {s s' s'' : NetworkRuntime F} (h : SameSources s s')
    (h' : SameSources s' s'') : SameSources s s'' :=
  ⟨h'.clients.trans h.clients, h'.clientId.trans h.clientId,
    h'.userConfigStore.trans h.userConfigStore⟩

/-- The entries of the mixer have the mute flags saved for the identities they were made for. -/
def Faithful (s : NetworkRuntime F) : Prop :=
  ∀ c uid, s.talkerIdentities.find? c = some uid →
    s.mixer.mutedAt c = s.userConfigStore.savedMuted d uid

/-- `client` is another visible client, stored under `c`, whose details and unique id are known. -/
def Visible (s : NetworkRuntime F) (c : ℕ) (client : Client) : Prop :=
  s.clients.find? c = some client ∧ c ≠ s.clientId ∧ client.detailsKnown = true ∧
    client.uniqueId ≠ []

/-- The entries are those of the visible clients. -/
structure Settled (s : NetworkRuntime F) : Prop where
  faithful : Faithful d s
  identities : ∀ c uid, s.talkerIdentities.find? c = some uid ↔
    ∃ client, Visible s c client ∧ client.uniqueId = uid
  muted : ∀ c, s.mixer.mutedAt c = true → ∃ client, Visible s c client

variable {d} {s : NetworkRuntime F} {client : Client}

theorem isActive_iff {clientId : ℕ} : isActive clientId client = true ↔
    client.id ≠ clientId ∧ client.detailsKnown = true ∧ client.uniqueId ≠ [] := by
  simp [isActive, and_assoc]

theorem mem_activeClients_iff : client ∈ s.activeClients ↔ Visible s client.id client := by
  unfold activeClients Visible
  rw [List.mem_filter, isActive_iff]
  exact and_congr_left' Registry.mem_values_iff

theorem Visible.id_eq {c : ℕ} (h : Visible s c client) : client.id = c :=
  Registry.key_of_find? h.1

theorem exists_visible_iff {c : ℕ} :
    (∃ client, Visible s c client) ↔ c ∈ s.activeClients.map Client.id := by
  rw [List.mem_map]
  constructor
  · rintro ⟨client, h⟩
    exact ⟨client, mem_activeClients_iff.2 (h.id_eq.symm ▸ h), h.id_eq⟩
  · rintro ⟨client, h, rfl⟩
    exact ⟨client, mem_activeClients_iff.1 h⟩

theorem nodup_activeClients (s : NetworkRuntime F) : (s.activeClients.map Client.id).Nodup :=
  s.clients.nodup_map_key_values.sublist (List.filter_sublist.map _)

/-! ## One client -/

/-- The effect of `syncClient` on faithful entries. -/
structure Synced (d : Decibels F) (client : Client) (s s' : NetworkRuntime F) : Prop
    extends SameSources s s' where
  identities : ∀ j, s'.talkerIdentities.find? j =
    if j = client.id then some client.uniqueId else s.talkerIdentities.find? j
  mutedAt : ∀ j, s'.mixer.mutedAt j =
    if j = client.id then s.userConfigStore.savedMuted d client.uniqueId else s.mixer.mutedAt j

theorem wp_setTalkerSettings {c : ℕ} {settings : TalkerSettings F}
    {Q : PUnit → NetworkRuntime F → Prop}
    (h : ∀ mixer, s.mixer.setTalkerSettings d c settings = .ok mixer → Q ⟨⟩ { s with mixer }) :
    wp (setTalkerSettings d c settings) Q (fun _ _ => True) s := by
  unfold setTalkerSettings
  simp only [wp_bind, wp_get, wp_lift, wp_set]
  exact ⟨h, fun _ _ => trivial⟩

/-- What the entry of a client is set to, by the load that returned. -/
theorem mutedAt_loadTalker {mixer : TalkerMixer F} (h : loadTalker d s client = .ok mixer) (j : ℕ) :
    mixer.mutedAt j =
      if j = client.id then s.userConfigStore.savedMuted d client.uniqueId
      else s.mixer.mutedAt j := by
  obtain ⟨settings, hload, h⟩ := bind_eq_ok h
  rw [TalkerMixer.mutedAt_setTalkerSettings h, UserConfigStore.savedMuted, hload]

/-- The settings of a client other than 0 fail to be applied when they fail to load. -/
theorem savedMuted_of_loadTalker_error {e : Failure} (h : loadTalker d s client = .error e)
    (hid : client.id ≠ 0) : s.userConfigStore.savedMuted d client.uniqueId = false := by
  unfold UserConfigStore.savedMuted
  cases hload : s.userConfigStore.load d client.uniqueId with
  | error _ => rfl
  | ok settings =>
    obtain ⟨mixer, hmixer⟩ := s.mixer.exists_setTalkerSettings hid
      { volumeDb := settings.volumeDb, muted := settings.muted }
      (UserConfigStore.inside_of_load hload)
    unfold loadTalker at h
    rw [hload] at h
    exact absurd (hmixer.symm.trans h) nofun

theorem wp_applySaved (s : NetworkRuntime F) (client : Client) :
    wp (applySaved d client) (fun _ s' => SameSources s s' ∧
      s'.talkerIdentities = s.talkerIdentities ∧
      ∀ j, s'.mixer.mutedAt j =
        if j = client.id then s.userConfigStore.savedMuted d client.uniqueId
        else s.mixer.mutedAt j) (fun _ _ => True) s := by
  unfold applySaved
  rw [wp_bind, wp_get]
  cases hload : loadTalker d s client with
  | ok mixer => exact ⟨⟨rfl, rfl, rfl⟩, rfl, mutedAt_loadTalker hload⟩
  | error e =>
    show wp (setTalkerSettings d client.id { volumeDb := d.zero } >>= _) _ _ s
    rw [wp_bind]
    refine wp_setTalkerSettings fun mixer hmixer => ⟨⟨rfl, rfl, rfl⟩, rfl, fun j => ?_⟩
    have hid : client.id ≠ 0 := TalkerMixer.ne_zero_of_setTalkerSettings hmixer
    rw [savedMuted_of_loadTalker_error hload hid]
    exact TalkerMixer.mutedAt_setTalkerSettings hmixer j

/-- Whatever the id stood for before, its entry is now that of the client. -/
theorem wp_syncClient (hs : Faithful d s) (client : Client) :
    wp (syncClient d client) (fun _ s' => Synced d client s s') (fun _ _ => True) s := by
  unfold syncClient
  simp only [wp_bind, wp_get, wp_ite, wp_pure, wp_modify]
  refine ⟨fun hknown => ⟨⟨rfl, rfl, rfl⟩, fun j => ?_, fun j => ?_⟩, fun _ => ⟨fun _ => ?_, fun _ => ?_⟩⟩
  · by_cases hj : j = client.id
    · rw [if_pos hj, hj, hknown]
    · rw [if_neg hj]
  · by_cases hj : j = client.id
    · rw [if_pos hj, hj, hs _ _ hknown]
    · rw [if_neg hj]
  · refine wp_mono (wp_applySaved _ client) (fun _ s' h => ?_) fun _ _ _ => trivial
    obtain ⟨⟨hclients, hid, hstore⟩, hidentities, hmuted⟩ := h
    refine ⟨⟨hclients, hid, hstore⟩, fun j => ?_, fun j => ?_⟩
    · show (s'.talkerIdentities.insert client.id client.uniqueId).find? j = _
      rw [OrderedMap.find?_insert, hidentities]
    · refine (hmuted j).trans ?_
      by_cases hj : j = client.id
      · rw [if_pos hj, if_pos hj]
      · rw [if_neg hj, if_neg hj]
        exact (TalkerMixer.mutedAt_removeTalker ..).trans (if_neg hj)
  · refine wp_mono (wp_applySaved _ client) (fun _ s' h => ?_) fun _ _ _ => trivial
    obtain ⟨hsame, hidentities, hmuted⟩ := h
    refine ⟨⟨hsame.clients, hsame.clientId, hsame.userConfigStore⟩, fun j => ?_, hmuted⟩
    show (s'.talkerIdentities.insert client.id client.uniqueId).find? j = _
    rw [OrderedMap.find?_insert, hidentities]

/-- A synced client keeps the other entries faithful. -/
theorem Synced.faithful {s' : NetworkRuntime F} (h : Synced d client s s') (hs : Faithful d s) :
    Faithful d s' := by
  intro c uid hc
  rw [h.identities] at hc
  rw [h.mutedAt, h.userConfigStore]
  by_cases hid : c = client.id
  · rw [if_pos hid] at hc ⊢
    cases hc
    rfl
  · rw [if_neg hid] at hc ⊢
    exact hs c uid hc

/-! ## `SyncTalkerSettings` -/

/-- The loop over clients with different ids: their identities are set, the other entries stay. -/
theorem wp_forM_syncClient (clients : List Client) (hnodup : (clients.map Client.id).Nodup)
    {s : NetworkRuntime F} (hs : Faithful d s) :
    wp (clients.forM (syncClient d)) (fun _ s' => SameSources s s' ∧ Faithful d s' ∧
      (∀ client ∈ clients, s'.talkerIdentities.find? client.id = some client.uniqueId) ∧
      ∀ c ∉ clients.map Client.id, s'.talkerIdentities.find? c = s.talkerIdentities.find? c ∧
        s'.mixer.mutedAt c = s.mixer.mutedAt c) (fun _ _ => True) s := by
  induction clients generalizing s with
  | nil => exact ⟨⟨rfl, rfl, rfl⟩, hs, nofun, fun _ _ => ⟨rfl, rfl⟩⟩
  | cons client clients ih =>
    obtain ⟨hclient, hnodup⟩ := List.nodup_cons.1 hnodup
    show wp (syncClient d client >>= fun _ => clients.forM (syncClient d)) _ _ s
    rw [wp_bind]
    refine wp_mono (wp_syncClient hs client) (fun _ s₁ h₁ => ?_) fun _ _ _ => trivial
    refine wp_mono (ih hnodup (h₁.faithful hs)) (fun _ s₂ h₂ => ?_) fun _ _ _ => trivial
    obtain ⟨hsame, hfaithful, hset, hkept⟩ := h₂
    refine ⟨h₁.toSameSources.trans hsame, hfaithful, fun other hother => ?_, fun c hc => ?_⟩
    · rcases List.mem_cons.1 hother with rfl | hother
      · rw [(hkept _ hclient).1, h₁.identities, if_pos rfl]
      · exact hset other hother
    · rw [List.map_cons, List.mem_cons, not_or] at hc
      obtain ⟨hidentities, hmuted⟩ := hkept c hc.2
      rw [hidentities, hmuted, h₁.identities, h₁.mutedAt, if_neg hc.1, if_neg hc.1]
      exact ⟨rfl, rfl⟩

theorem foldl_forgetTalker (ids : List ℕ) (s : NetworkRuntime F) :
    SameSources s (ids.foldl forgetTalker s) ∧
      ∀ j, (ids.foldl forgetTalker s).talkerIdentities.find? j =
          (if j ∈ ids then none else s.talkerIdentities.find? j) ∧
        (ids.foldl forgetTalker s).mixer.mutedAt j =
          (if j ∈ ids then false else s.mixer.mutedAt j) := by
  induction ids generalizing s with
  | nil => exact ⟨⟨rfl, rfl, rfl⟩, fun j => by simp⟩
  | cons c ids ih =>
    obtain ⟨hsame, hrest⟩ := ih (forgetTalker s c)
    refine ⟨⟨hsame.clients, hsame.clientId, hsame.userConfigStore⟩, fun j => ?_⟩
    have hidentities : (forgetTalker s c).talkerIdentities.find? j =
        if j = c then none else s.talkerIdentities.find? j := OrderedMap.find?_erase ..
    have hmuted : (forgetTalker s c).mixer.mutedAt j =
        if j = c then false else s.mixer.mutedAt j := TalkerMixer.mutedAt_removeTalker ..
    rw [List.foldl_cons, (hrest j).1, (hrest j).2, hidentities, hmuted]
    by_cases hj : j = c
    · simp [hj]
    · simp [hj]

theorem Visible.of_sameSources {s' : NetworkRuntime F} (h : SameSources s s') {c : ℕ} :
    Visible s' c client ↔ Visible s c client := by
  unfold Visible
  rw [h.clients, h.clientId]

/-- **`SyncTalkerSettings`** makes the entries those of the visible clients, with the saved mute
flags. Muted entries it does not know of have to belong to visible clients. -/
theorem wp_syncTalkerSettings (hs : Faithful d s)
    (hmuted : ∀ c, s.mixer.mutedAt c = true →
      (∃ uid, s.talkerIdentities.find? c = some uid) ∨ ∃ client, Visible s c client) :
    wp (syncTalkerSettings d) (fun _ s' => SameSources s s' ∧ Settled d s') (fun _ _ => True) s := by
  unfold syncTalkerSettings
  simp only [wp_bind, wp_get, wp_modify]
  refine wp_mono (wp_forM_syncClient _ (nodup_activeClients s) hs) (fun _ s₁ h₁ => ?_)
    fun _ _ _ => trivial
  obtain ⟨hsame₁, hfaithful, hset, hkept⟩ := h₁
  let gone := s₁.talkerIdentities.keys.filter fun c => c ∉ s.activeClients.map Client.id
  obtain ⟨hsame₂, hfinal⟩ := foldl_forgetTalker gone s₁
  have hmem : ∀ c, c ∈ gone ↔ (∃ uid, s₁.talkerIdentities.find? c = some uid) ∧
      ¬ ∃ client, Visible s c client := fun c => by
    rw [List.mem_filter, OrderedMap.mem_keys_iff, decide_eq_true_iff, exists_visible_iff]
  have hsame : SameSources s (forgetTalkers (s.activeClients.map Client.id) s₁) :=
    hsame₁.trans hsame₂
  -- an entry is that of a visible client, or it is gone
  have hidentities : ∀ c uid, s₁.talkerIdentities.find? c = some uid → c ∉ gone →
      ∃ client, Visible s c client ∧ client.uniqueId = uid := fun c uid hc hgone => by
    rw [hmem, not_and, not_not] at hgone
    obtain ⟨client, hvisible⟩ := hgone ⟨uid, hc⟩
    refine ⟨client, hvisible, ?_⟩
    have hclient := hset client (mem_activeClients_iff.2 (hvisible.id_eq.symm ▸ hvisible))
    rw [hvisible.id_eq, hc] at hclient
    exact (Option.some.inj hclient).symm
  refine ⟨hsame, fun c uid hc => ?_, fun c uid => ?_, fun c hc => ?_⟩
  · replace hc := (hfinal c).1.symm.trans hc
    by_cases hgone : c ∈ gone
    · rw [if_pos hgone] at hc
      cases hc
    · rw [if_neg hgone] at hc
      refine ((hfinal c).2.trans (if_neg hgone)).trans ?_
      rw [hfaithful c uid hc]
      exact congrArg (UserConfigStore.savedMuted d · uid) hsame₂.userConfigStore.symm
  · refine Iff.trans (Eq.congr_left (hfinal c).1) ?_
    simp only [Visible.of_sameSources hsame]
    by_cases hgone : c ∈ gone
    · rw [if_pos hgone]
      refine iff_of_false (Option.some_ne_none uid).symm ?_
      rintro ⟨client, hvisible, -⟩
      exact ((hmem c).1 hgone).2 ⟨client, hvisible⟩
    · rw [if_neg hgone]
      refine ⟨fun h => hidentities c uid h hgone, ?_⟩
      rintro ⟨client, hvisible, rfl⟩
      have hclient := hset client (mem_activeClients_iff.2 (hvisible.id_eq.symm ▸ hvisible))
      rwa [hvisible.id_eq] at hclient
  · replace hc := (hfinal c).2.symm.trans hc
    simp only [Visible.of_sameSources hsame]
    by_cases hgone : c ∈ gone
    · rw [if_pos hgone] at hc
      cases hc
    · rw [if_neg hgone] at hc
      by_contra hnone
      have hkeep := hkept c (fun h => hnone (exists_visible_iff.2 h))
      rw [hkeep.2] at hc
      obtain ⟨uid, huid⟩ | hvisible := hmuted c hc
      · exact hgone ((hmem c).2 ⟨⟨uid, hkeep.1.trans huid⟩, hnone⟩)
      · exact hnone hvisible

/-! ## Actions -/

theorem visible_of_audioTarget {c : ℕ} (h : s.audioTarget c = .ok client) :
    Visible s client.id client := by
  unfold audioTarget at h
  by_cases hc : c = s.clientId
  · rw [if_pos hc] at h
    cases h
  rw [if_neg hc] at h
  cases hfind : s.clients.find? c with
  | none =>
    rw [hfind] at h
    cases h
  | some found =>
    rw [hfind] at h
    by_cases hknown : (!found.detailsKnown || found.uniqueId = []) = true
    · simp only [hknown, if_true] at h
      cases h
    · simp only [hknown] at h
      cases h
      have hid : client.id = c := Registry.key_of_find? hfind
      rw [hid]
      exact ⟨hfind, hc, by simpa using hknown⟩

theorem visible_of_namedTarget {target : Bytes} (h : s.namedTarget target = .ok client) :
    Visible s client.id client := by
  unfold namedTarget at h
  dsimp only at h
  split at h
  · cases h
  · split at h
    · cases h
    · exact visible_of_audioTarget h

/-- The client whose settings an action saves, and the settings. -/
def saved? (d : Decibels F) (s : NetworkRuntime F) : ClientAction F → Option (Client × UserConfig F)
  | .userSettings target kind numberValue =>
    match s.namedTarget target with
    | .error _ => none
    | .ok client =>
      match s.userConfigStore.load d client.uniqueId with
      | .error _ => none
      | .ok loaded =>
        if kind = .inspect then none else some (client, changedSettings d kind numberValue loaded)
  | .setUserAudio clientId settings =>
    match s.audioTarget clientId with
    | .error _ => none
    | .ok client => some (client, settings)
  | .other _ => none

/-- The mute flag to be saved for a client is the one that is saved, or no other visible client has
its unique id. -/
def KeepsOthers (d : Decibels F) (s : NetworkRuntime F) (client : Client) (settings : UserConfig F) :
    Prop :=
  settings.muted = s.userConfigStore.savedMuted d client.uniqueId ∨
    ∀ other ∈ s.activeClients, other.uniqueId = client.uniqueId → other.id = client.id

instance (settings : UserConfig F) : Decidable (KeepsOthers d s client settings) :=
  inferInstanceAs (Decidable (_ ∨ _))

theorem wp_replaceSettings {settings : UserConfig F} (hs : Settled d s)
    (hclient : Visible s client.id client) (hkeeps : KeepsOthers d s client settings) :
    wp (replaceSettings d client settings) (fun _ s' => Settled d s') (fun _ _ => True) s := by
  unfold replaceSettings saveUserConfig
  simp only [wp_bind, wp_get, wp_lift, wp_set]
  refine ⟨fun store hstore => wp_setTalkerSettings fun mixer hmixer => ?_, fun _ _ => trivial⟩
  have hsaved := UserConfigStore.savedMuted_save hstore
  have hmuted := TalkerMixer.mutedAt_setTalkerSettings hmixer
  refine ⟨fun c uid hc => ?_, hs.identities, fun c hc => ?_⟩
  · obtain ⟨other, hother, rfl⟩ := (hs.identities c uid).1 hc
    refine (hmuted c).trans (Eq.trans ?_ (hsaved other.uniqueId).symm)
    by_cases hid : c = client.id
    · -- the entry that was set
      have hsame : other = client := by
        have hfind := hother.1
        rw [hid, hclient.1] at hfind
        exact (Option.some.inj hfind).symm
      rw [if_pos hid, hsame, if_pos rfl]
    · rw [if_neg hid]
      have hold : s.mixer.mutedAt c = s.userConfigStore.savedMuted d other.uniqueId :=
        hs.faithful c other.uniqueId hc
      by_cases huid : other.uniqueId = client.uniqueId
      · -- another client of the same person
        rw [if_pos huid]
        obtain hsame | halone := hkeeps
        · exact hold.trans ((congrArg _ huid).trans hsame.symm)
        · have hactive : other ∈ s.activeClients :=
            mem_activeClients_iff.2 (hother.id_eq.symm ▸ hother)
          exact absurd (hother.id_eq.symm.trans (halone other hactive huid)) hid
      · rw [if_neg huid]
        exact hold
  · replace hc := (hmuted c).symm.trans hc
    by_cases hid : c = client.id
    · exact ⟨client, hid ▸ hclient⟩
    · rw [if_neg hid] at hc
      exact hs.muted c hc

/-- The mute flags saved by an action are not set for some clients of a person only. -/
def Meets (d : Decibels F) (s : NetworkRuntime F) (action : ClientAction F) : Prop :=
  ∀ saved ∈ saved? d s action, KeepsOthers d s saved.1 saved.2

instance (action : ClientAction F) : Decidable (Meets d s action) :=
  inferInstanceAs (Decidable (∀ saved ∈ saved? d s action, KeepsOthers d s saved.1 saved.2))

theorem wp_push {event : ActionEvent} (hs : Settled d s) :
    wp (push event) (fun _ s' => Settled d s') (fun _ _ => True) s :=
  ⟨hs.faithful, hs.identities, hs.muted⟩

/-- **One action** keeps the entries those of the visible clients. -/
theorem wp_process {action : ClientAction F} (hs : Settled d s) (hmeets : Meets d s action) :
    wp (process d action) (fun _ s' => Settled d s') (fun _ _ => True) s := by
  cases action with
  | userSettings target kind numberValue =>
    unfold Meets saved? at hmeets
    show wp (processUserSettings d target kind numberValue) _ _ s
    unfold processUserSettings
    rw [wp_bind, wp_get]
    cases htarget : s.namedTarget target with
    | error message => exact wp_push hs
    | ok client =>
      have hclient := visible_of_namedTarget htarget
      simp only [htarget] at hmeets
      simp only [wp_bind, wp_lift]
      refine ⟨fun loaded hload => ?_, fun _ _ => trivial⟩
      simp only [hload] at hmeets
      by_cases hkind : kind = .inspect
      · simp only [hkind, ne_eq, not_true_eq_false, if_false]
        exact wp_push hs
      · simp only [hkind, ne_eq, not_false_eq_true, if_true, wp_bind]
        rw [if_neg hkind] at hmeets
        refine wp_mono (wp_replaceSettings hs hclient (hmeets _ rfl)) (fun _ s' hs' => ?_)
          fun _ _ _ => trivial
        exact wp_push hs'
  | setUserAudio clientId settings =>
    unfold Meets saved? at hmeets
    show wp (processSetUserAudio d clientId settings) _ _ s
    unfold processSetUserAudio
    rw [wp_bind, wp_get]
    cases htarget : s.audioTarget clientId with
    | error message => exact wp_push hs
    | ok client =>
      simp only [htarget] at hmeets
      exact wp_replaceSettings hs (visible_of_audioTarget htarget) (hmeets _ rfl)
  | other outcome =>
    show wp (lift outcome >>= _) _ _ s
    simp only [wp_bind, wp_lift, wp_modify]
    exact ⟨fun _ _ => ⟨hs.faithful, hs.identities, hs.muted⟩, fun _ _ => trivial⟩

/-! ## Runs -/

/-- Between the synchronisations the connection may change, and the entries stay those of the
identities. -/
structure Tracked (d : Decibels F) (s : NetworkRuntime F) : Prop where
  faithful : Faithful d s
  muted : ∀ c, s.mixer.mutedAt c = true → ∃ uid, s.talkerIdentities.find? c = some uid

theorem Settled.tracked (hs : Settled d s) : Tracked d s := by
  refine ⟨hs.faithful, fun c hc => ?_⟩
  obtain ⟨client, hclient⟩ := hs.muted c hc
  exact ⟨client.uniqueId, (hs.identities c _).2 ⟨client, hclient, rfl⟩⟩

/-- Every action of a cycle meets the condition in the state that it is processed in. -/
def InputMeets (d : Decibels F) (s : NetworkRuntime F) : Input F → Prop
  | .cycle actions =>
    Runs.Along (fun s action => final (process d action) s) (Meets d)
      (final (syncTalkerSettings d) s) actions
  | _ => True

theorem Tracked.wp_sync (hs : Tracked d s) :
    wp (syncTalkerSettings d) (fun _ s' => Settled d s') (fun _ _ => True) s :=
  wp_mono (wp_syncTalkerSettings hs.faithful fun c hc => .inl (hs.muted c hc)) (fun _ _ h => h.2)
    fun _ _ _ => trivial

theorem Tracked.wp_cycle (hs : Tracked d s) {actions : List (ClientAction F)}
    (hmeets : InputMeets d s (.cycle actions)) :
    wp (step d (.cycle actions)) (fun _ s' => Settled d s') (fun _ _ => True) s := by
  show wp (syncTalkerSettings d >>= fun _ => actions.forM (process d)) _ _ s
  rw [wp_bind]
  have hsync := hs.wp_sync
  unfold InputMeets at hmeets
  cases hrun : syncTalkerSettings d s with
  | error e s₁ => exact (wp_of_eq_error hrun).2 trivial
  | ok u s₁ =>
    have hsettled := ok_of_wp hsync hrun
    rw [final_of_eq_ok hrun] at hmeets
    exact (wp_of_eq_ok hrun).2 (hmeets.wp_forM (fun _ _ h hm => wp_process h hm) hsettled)

theorem Tracked.wp_step {input : Input F} (hs : Tracked d s) (hmeets : InputMeets d s input) :
    wp (step d input) (fun _ s' => Tracked d s') (fun _ _ => True) s := by
  cases input with
  | received clients clientId => exact ⟨hs.faithful, hs.muted⟩
  | sessionEvent => exact wp_mono hs.wp_sync (fun _ _ h => h.tracked) fun _ _ _ => trivial
  | cycle actions => exact wp_mono (hs.wp_cycle hmeets) (fun _ _ h => h.tracked) fun _ _ _ => trivial

/-- The mixer has the mute flag saved for each visible client, and no others are muted. -/
def MixerAgrees (d : Decibels F) (s : NetworkRuntime F) : Prop :=
  (∀ c client config, Visible s c client →
    s.userConfigStore.load d client.uniqueId = .ok config →
      (c ∈ s.mixer.mutedTalkers ↔ config.muted = true)) ∧
    ∀ c ∈ s.mixer.mutedTalkers, ∃ client, Visible s c client

theorem Settled.mixerAgrees (hs : Settled d s) : MixerAgrees d s := by
  refine ⟨fun c client config hclient hload => ?_, fun c hc => ?_⟩
  · have hsaved : s.userConfigStore.savedMuted d client.uniqueId = config.muted := by
      unfold UserConfigStore.savedMuted
      rw [hload]
    rw [TalkerMixer.mem_mutedTalkers_iff,
      hs.faithful c _ ((hs.identities c _).2 ⟨client, hclient, rfl⟩), hsaved]
  · exact hs.muted c (TalkerMixer.mem_mutedTalkers_iff.1 hc)

/-- **The mixer applies the saved settings of the right person.** In a run that starts without
muted entries of others, and whose actions keep the clients of one person alike, the mixer agrees
with the saved settings after each cycle. -/
theorem run_mixerAgrees {s' : NetworkRuntime F} (hnew : s.talkerIdentities = ∅)
    (hstale : ∀ c ∈ s.mixer.mutedTalkers, ∃ client, Visible s c client) {inputs : List (Input F)}
    {actions : List (ClientAction F)}
    (hmeets : Runs.Along (fun s input => final (step d input) s) (InputMeets d)
      (final (syncTalkerSettings d) s) (inputs ++ [.cycle actions]))
    (hrun : run d (inputs ++ [.cycle actions]) s = .ok ⟨⟩ s') : MixerAgrees d s' := by
  obtain ⟨_, s₁, hsync, hrun⟩ := (run_bind_eq_ok_iff s).1 hrun
  rw [final_of_eq_ok hsync, Runs.along_append] at hmeets
  have hfaithful : Faithful d s := fun c uid hc => by
    rw [hnew] at hc
    cases hc
  have hfirst : Settled d s₁ := (ok_of_wp (wp_syncTalkerSettings hfaithful fun c hc =>
    .inr (hstale c (TalkerMixer.mem_mutedTalkers_iff.2 hc))) hsync).2
  rw [List.forM_eq_forM, List.forM_append] at hrun
  obtain ⟨_, s₂, hinputs, hcycle⟩ := (run_bind_eq_ok_iff s₁).1 hrun
  have htracked := ok_of_wp
    (hmeets.1.wp_forM (fun _ _ h hm => Tracked.wp_step h hm) hfirst.tracked) hinputs
  have hlast : InputMeets d s₂ (.cycle actions) := by
    have hmeets' := hmeets.2.1
    rwa [Runs.foldl_final_of_forM hinputs] at hmeets'
  obtain ⟨_, s₃, hcycle, hend⟩ := (run_bind_eq_ok_iff s₂).1 hcycle
  cases hend
  have hsettled := ok_of_wp (htracked.wp_cycle hlast) hcycle
  exact hsettled.mixerAgrees

/-- Volumes in whole decibels. -/
def wholeVolumes : Decibels ℤ where
  zero := 0
  minVolumeDb := -60
  maxVolumeDb := 12
  isFinite _ := true
  lt volumeDb limit := volumeDb < limit
  le volumeDb limit := volumeDb ≤ limit
  eq volumeDb value := volumeDb = value
  ofPercent percent := percent / 5 - 20
  gain volumeDb := volumeDb
  write volumeDb := (if volumeDb < 0 then [Ascii.minus] else []) ++ numberText 10 volumeDb.natAbs
  zero_inside := by decide

/-- A visible client. -/
def visibleClient (id : ℕ) (nickname uniqueId : Bytes) : Client where
  id
  channelId := 1
  nickname
  uniqueId
  detailsKnown := true

/-- The own client has id 1, and nothing is saved. -/
def besides (clients : List Client) : NetworkRuntime ℤ where
  clients := (visibleClient 1 (ascii "me") (ascii "me=") :: clients).foldl Registry.upsert ∅
  clientId := 1
  userConfigStore _ := none
  mixer := ∅
  talkerIdentities := ∅
  events := []

/-- Two persons, and the same person twice. -/
def twoPersons : NetworkRuntime ℤ :=
  besides [visibleClient 2 (ascii "anna") (ascii "A="), visibleClient 3 (ascii "bert") (ascii "B=")]

def onePersonTwice : NetworkRuntime ℤ :=
  besides [visibleClient 2 (ascii "anna") (ascii "A="), visibleClient 3 (ascii "anna1") (ascii "A=")]

/-- `/user #2 mute`. -/
def muteAnna : ClientAction ℤ := .userSettings (ascii "#2") .mute 0

theorem run_mixerAgrees_twoPersons :
    (final (run wholeVolumes [.cycle [muteAnna]]) twoPersons).mixer.mutedTalkers = [2] ∧
      MixerAgrees wholeVolumes (final (run wholeVolumes [.cycle [muteAnna]]) twoPersons) := by
  have hrun : run wholeVolumes ([] ++ [.cycle [muteAnna]]) twoPersons =
      .ok ⟨⟩ (final (run wholeVolumes [.cycle [muteAnna]]) twoPersons) :=
    eq_ok_of_returned? (by decide +kernel)
  refine ⟨by decide +kernel, run_mixerAgrees rfl (fun c hc => ?_) ?_ hrun⟩
  · cases hc
  · exact ⟨⟨by decide +kernel, trivial⟩, trivial⟩

/-- The other client of the muted person plays on. -/
theorem mixer_disagrees_onePersonTwice :
    returned? (run wholeVolumes [.cycle [muteAnna]]) onePersonTwice = some ⟨⟩ ∧
      ¬ MixerAgrees wholeVolumes (final (run wholeVolumes [.cycle [muteAnna]]) onePersonTwice) := by
  refine ⟨by decide +kernel, fun h => ?_⟩
  have hload : (final (run wholeVolumes [.cycle [muteAnna]]) onePersonTwice).userConfigStore.load
      wholeVolumes (ascii "A=") = .ok { volumeDb := 0, muted := true } := by decide +kernel
  have hmuted := (h.1 3 (visibleClient 3 (ascii "anna1") (ascii "A=")) _
    ⟨by decide +kernel, by decide +kernel, rfl, by decide +kernel⟩ hload).2 rfl
  exact absurd hmuted (by decide +kernel)

end NetworkRuntime

end TsCli
