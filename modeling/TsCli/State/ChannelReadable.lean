import TsCli.State.ChannelMoves

/-!
# When the channel tree stays readable

A store is readable when its tree can be read. The notifications do not keep that: a channel may be
deleted while it has sub-channels, moved below itself, or created a second time at another place
without its old neighbours being relinked. `Keeps` says for each notification when the store stays
readable, and `tree_stays_readable` follows it along a run.
-/

namespace TsCli.ChannelStore

open OrderedForest OrderedForest.Forest Exec

variable {s : ChannelStore} {F : Forest ℕ}

/-- The channels with their parents and predecessors are an ordered forest. -/
def Readable (s : ChannelStore) : Prop := ∃ F, Represents 0 s.places F

theorem readable_iff : s.Readable ↔ ∃ entries, s.tree = .ok entries := by
  constructor
  · exact fun ⟨F, hF⟩ => ⟨_, tree_of_represents hF⟩
  · rintro ⟨entries, h⟩
    obtain ⟨F, hF, -⟩ := tree_eq_ok_iff.1 h
    exact ⟨F, hF⟩

theorem validate_eq_ok_iff : s.validate = .ok () ↔ s.Readable := by
  rw [readable_iff]
  unfold validate
  cases s.tree with
  | ok entries => exact ⟨fun _ => ⟨entries, rfl⟩, fun _ => rfl⟩
  | error failure => exact ⟨nofun, nofun⟩

theorem Readable.of_places {s' : ChannelStore} (h : s.Readable) (hplaces : s'.places = s.places) :
    s'.Readable := by
  obtain ⟨F, hF⟩ := h
  exact ⟨F, hplaces.symm ▸ hF⟩

/-! ## What each notification needs -/

/-- `c` may come to stand at `(p, o)` without a sibling being relinked. -/
def Vacant (s : ChannelStore) (c p o : ℕ) : Prop :=
  (∀ p₀ o₀ j, s.places c = some (p₀, o₀) → s.places j ≠ some (p₀, c)) ∧
    s.Movable c p o ∧ ¬ s.Within c p ∧ ∀ j, s.places j ≠ some (p, o)

/-- A new channel has a parent, and a predecessor under it. A channel that exists keeps its place,
or leaves the end of its siblings for a vacant place. -/
def KeepsCreated (s : ChannelStore) (entry : ChannelCreatedEntry) : Prop :=
  if s.channels.contains entry.id then
    s.places entry.id = some (entry.parentId, entry.orderAfterId) ∨
      s.Vacant entry.id entry.parentId entry.orderAfterId
  else
    (entry.parentId = 0 ∨ s.channels.contains entry.parentId = true) ∧
      (entry.orderAfterId = 0 ∨ ∃ q, s.places entry.orderAfterId = some (entry.parentId, q))

/-- A deleted channel has no sub-channels. -/
def KeepsDeleted (s : ChannelStore) (c : ℕ) : Prop :=
  s.channels.contains c = true → ∀ j q, s.places j ≠ some (c, q)

/-- A channel is not moved into its own subtree. -/
def KeepsMoved (s : ChannelStore) (c p : ℕ) : Prop :=
  s.channels.contains c = true → ¬ s.Within c p

/-- An edit that carries a place is a move. -/
def KeepsEdited (s : ChannelStore) (entry : ChannelEditedEntry) : Prop :=
  entry.parentId.isSome ∨ entry.orderAfterId.isSome →
    s.KeepsMoved entry.id (entry.parentId.getD (s.channelAt entry.id).parentId)

/-- The notification leaves a readable store readable. -/
structure Keeps (s : ChannelStore) (command : Command) : Prop where
  created : ∀ entry, ChannelCreatedEntry.parse command = .ok entry → s.KeepsCreated entry
  deleted : ∀ deleted, ChannelDeleted.parse command = .ok deleted → s.KeepsDeleted deleted.channelId
  moved : ∀ entry, ChannelMovedEntry.parse command = .ok entry →
    s.KeepsMoved entry.id entry.parentId
  edited : ∀ entry, ChannelEditedEntry.parse command = .ok entry → s.KeepsEdited entry

/-! ## The operations -/

theorem openGap_eq_self {L : Places ℕ} {c p o : ℕ} (h : ∀ j, L j ≠ some (p, o)) :
    openGap c p o L = L := by
  funext j
  unfold openGap
  cases hj : L j with
  | none => rfl
  | some t => rw [Option.map_some, if_neg fun ht => h j (by rw [hj, ht.2])]

theorem closeGap_eq_self {L : Places ℕ} {c p o : ℕ} (h : ∀ j, L j ≠ some (p, c)) :
    closeGap c p o L = L := by
  funext j
  unfold closeGap
  cases hj : L j with
  | none => rfl
  | some t => rw [Option.map_some, if_neg fun ht => h j (by rw [hj, ht.2])]

theorem exists_place_of_contains {c : ℕ} (h : s.channels.contains c = true) :
    ∃ p o, s.places c = some (p, o) := by
  obtain ⟨channel, hfind⟩ := Registry.contains_iff.1 h
  exact ⟨channel.parentId, channel.orderAfterId, by unfold places; rw [hfind]; rfl⟩

theorem contains_of_places {c : ℕ} {t : ℕ × ℕ} (h : s.places c = some t) :
    s.channels.contains c = true := by
  unfold places at h
  obtain ⟨channel, hfind, -⟩ := Option.map_eq_some_iff.1 h
  exact Registry.contains_iff.2 ⟨channel, hfind⟩

/-- A channel that is created again takes its new place, and nothing is relinked. -/
theorem places_applyCreated_known {entry : ChannelCreatedEntry}
    (h : s.channels.contains entry.id = true) : (s.applyCreated entry).places =
      Function.update s.places entry.id (some (entry.parentId, entry.orderAfterId)) := by
  unfold applyCreated
  rw [if_pos h, places_upsert]
  rfl

theorem readable_applyCreated (h : s.Readable) {entry : ChannelCreatedEntry}
    (hkeeps : s.KeepsCreated entry) : (s.applyCreated entry).Readable := by
  obtain ⟨F, hF⟩ := h
  unfold KeepsCreated at hkeeps
  split_ifs at hkeeps with hknown
  · have hplaces := places_applyCreated_known hknown
    rcases hkeeps with hsame | ⟨hlast, hmovable, hout, hvacant⟩
    · refine Readable.of_places ⟨F, hF⟩ (hplaces.trans ?_)
      rw [← hsame, Function.update_eq_self]
    · obtain ⟨p, o, hplace⟩ := exists_place_of_contains hknown
      obtain ⟨F', hF', -⟩ := tree_moved hF hplace hmovable hout
      rw [places_moved hF hplace, closeGap_eq_self fun j => hlast p o j hplace,
        openGap_eq_self hvacant, ← hplaces] at hF'
      exact ⟨F', hF'⟩
  · obtain ⟨F', hF', -⟩ := tree_applyCreated hF (Bool.eq_false_iff.2 hknown) hkeeps.1 hkeeps.2
    exact ⟨F', hF'⟩

theorem readable_remove (h : s.Readable) {c : ℕ} (hkeeps : s.KeepsDeleted c) :
    (s.remove c).Readable := by
  obtain ⟨F, hF⟩ := h
  by_cases hknown : s.channels.contains c = true
  · obtain ⟨F', hF', -⟩ := tree_remove hF (hkeeps hknown)
    exact ⟨F', hF'⟩
  · refine Readable.of_places ⟨F, hF⟩ ?_
    have hfind : s.channels.find? c = none := by
      cases hfind : s.channels.find? c with
      | none => rfl
      | some channel => exact absurd (Registry.contains_iff.2 ⟨channel, hfind⟩) hknown
    unfold places
    rw [channels_remove_of_unknown hfind]

theorem readable_move (h : s.Readable) {c p o : ℕ} (hkeeps : s.KeepsMoved c p) :
    wp (move c p o) (fun _ => Readable) (fun _ s' => s' = s) s := by
  obtain ⟨F, hF⟩ := h
  rcases s.move_cases c p o with ⟨-, hrun⟩ | ⟨p₀, o₀, hplace, hmovable, hrun⟩ | ⟨failure, -, hrun⟩
  · exact (wp_of_eq_ok hrun).2 ⟨F, hF⟩
  · obtain ⟨F', hF', -⟩ := tree_moved hF hplace hmovable (hkeeps (contains_of_places hplace))
    exact (wp_of_eq_ok hrun).2 ⟨F', hF'⟩
  · exact (wp_of_eq_error hrun).2 rfl

theorem places_editFields (s : ChannelStore) (entry : ChannelEditedEntry) :
    ({ s with channels := s.channels.modify entry.id (editFields entry) fun _ => rfl } :
      ChannelStore).places = s.places := by
  funext j
  rw [places_map (s := s) (g := fun _ t => t)
    (Registry.find?_modify _ entry.id (editFields entry) fun _ => rfl)
    (fun j channel => by split_ifs <;> rfl) j, Option.map_id']

theorem readable_applyEdited (h : s.Readable) {entry : ChannelEditedEntry}
    (hkeeps : s.KeepsEdited entry) :
    wp (applyEdited entry) (fun _ => Readable) (fun _ s' => s' = s) s := by
  unfold applyEdited
  rw [wp_bind, wp_get]
  cases hfind : s.channels.find? entry.id with
  | none => exact h
  | some channel =>
    dsimp only
    rw [KeepsEdited, channelAt_of_find? hfind] at hkeeps
    have hedit : ∀ s' : ChannelStore, s'.Readable →
        ({ s' with channels := s'.channels.modify entry.id (editFields entry) fun _ => rfl } :
          ChannelStore).Readable := fun s' h' => h'.of_places (places_editFields s' entry)
    rw [wp_ite]
    refine ⟨fun hplace => ?_, fun _ => hedit s h⟩
    rw [wp_bind]
    exact wp_mono (readable_move h (hkeeps (by simpa using hplace)))
      (fun _ s' h' => hedit s' h') fun _ _ h' => h'

/-- A notification leaves the store readable, and the one that is not applied leaves it alone. -/
theorem readable_processCommand (h : s.Readable) {command : Command} (hkeeps : s.Keeps command) :
    wp (processCommand command) (fun _ => Readable) (fun _ s' => s' = s) s := by
  unfold processCommand
  simp only [wp_ite, wp_bind, wp_lift, wp_modify]
  refine ⟨fun _ => ⟨fun entry he => ?_, fun _ _ => trivial⟩, fun _ =>
    ⟨fun _ => ⟨fun deleted hd => ?_, fun _ _ => trivial⟩, fun _ =>
      ⟨fun _ => ⟨fun entry he => ?_, fun _ _ => trivial⟩, fun _ =>
        ⟨fun _ => ⟨fun entry he => ?_, fun _ _ => trivial⟩, fun _ => h⟩⟩⟩⟩
  · exact readable_applyCreated h (hkeeps.created entry he)
  · exact readable_remove h (hkeeps.deleted deleted hd)
  · exact readable_move h (hkeeps.moved entry he)
  · exact readable_applyEdited h (hkeeps.edited entry he)

/-! ## Runs -/

/-- The store after a run of notifications; one that throws leaves what it did. -/
def run (s : ChannelStore) (commands : List Command) : ChannelStore :=
  commands.foldl (fun s command => final (processCommand command) s) s

/-- Every notification of the run keeps the store readable that it is applied to. -/
def Keeping : ChannelStore → List Command → Prop
  | _, [] => True
  | s, command :: commands => s.Keeps command ∧ Keeping (final (processCommand command) s) commands

theorem Keeping.readable {commands : List Command} : ∀ {s : ChannelStore}, s.Readable →
    s.Keeping commands → (s.run commands).Readable := by
  induction commands with
  | nil => exact fun h _ => h
  | cons command commands ih =>
    intro s h hkeeping
    refine ih ?_ hkeeping.2
    exact wp_final.1 (wp_mono (readable_processCommand h hkeeping.1) (fun _ _ h' => h')
      fun _ _ h' => h' ▸ h)

theorem Keeping.of_append {commands rest : List Command} : ∀ {s : ChannelStore},
    s.Keeping (commands ++ rest) → s.Keeping commands := by
  induction commands with
  | nil => exact fun _ => trivial
  | cons command commands ih => exact fun h => ⟨h.1, ih h.2⟩

/-- **The tree stays readable.** From a validated store, a run of notifications that each keep the
store readable can be read after every one of them. -/
theorem tree_stays_readable {commands : List Command} (hvalid : s.validate = .ok ())
    (hkeeping : s.Keeping commands) (n : ℕ) :
    ∃ entries, (s.run (commands.take n)).tree = .ok entries := by
  refine readable_iff.1 (Keeping.readable (validate_eq_ok_iff.1 hvalid) ?_)
  rw [← List.take_append_drop n commands] at hkeeping
  exact hkeeping.of_append

/-- `notifychanneldeleted cid=…`. -/
def deletion (cid : String) : Command :=
  ⟨ascii "notifychanneldeleted", [[⟨ascii "cid", ascii cid⟩]]⟩

theorem tree_stays_readable_deletion :
    ∃ entries, (threeChannels.run ([deletion "3"].take 1)).tree = .ok entries := by
  suffices hkeeps : threeChannels.Keeps (deletion "3") from
    tree_stays_readable (by decide +kernel) (show Keeping _ [_] from ⟨hkeeps, trivial⟩) 1
  refine ⟨fun entry h => ?_, fun deleted h => ?_, fun entry h => ?_, fun entry h => ?_⟩
  · rw [show ChannelCreatedEntry.parse (deletion "3") =
      .error (.runtimeError "Expected notifychannelcreated command") by decide +kernel] at h
    cases h
  · rw [show ChannelDeleted.parse (deletion "3") = .ok ⟨3, by decide⟩ by decide +kernel] at h
    cases h
    intro _ j q hj
    obtain ⟨hfind, hp, -⟩ := places_eq_some_iff.1 hj
    have hleaf : ∀ channel ∈ threeChannels.channels.values, channel.parentId ≠ 3 := by
      decide +kernel
    exact hleaf _ (mem_values_iff.2 (by rw [id_channelAt]; exact hfind)) hp
  · rw [show ChannelMovedEntry.parse (deletion "3") =
      .error (.runtimeError "Expected single notifychannelmoved command") by decide +kernel] at h
    cases h
  · rw [show ChannelEditedEntry.parse (deletion "3") =
      .error (.runtimeError "Expected single notifychanneledited command") by decide +kernel] at h
    cases h

/-- Deleting a channel with a sub-channel is applied, and the tree cannot be read afterwards. -/
theorem tree_unreadable_after_deletion : ¬ ∀ (s s' : ChannelStore) (command : Command),
    s.validate = .ok () → processCommand command s = .ok () s' →
      ∃ entries, s'.tree = .ok entries := by
  intro h
  obtain ⟨entries, htree⟩ := h threeChannels (threeChannels.remove 1) (deletion "1")
    (by decide +kernel) (by decide +kernel)
  rw [show (threeChannels.remove 1).tree =
    .error (.runtimeError "Channel references an unknown parent") by decide +kernel] at htree
  cases htree

end TsCli.ChannelStore
