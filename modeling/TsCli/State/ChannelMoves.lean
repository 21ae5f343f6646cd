import TsCli.State.ChannelTree

/-!
# Edits of the channel tree

Inserting, moving and removing a channel rewrites the predecessor links of at most two siblings.
Each operation of the store makes the rewrite of the links that `OrderedForest` knows
(`places_applyCreated`, `places_move`, `places_remove`), so the tree read afterwards is the old one
with a subtree pasted, moved or left out.
-/

namespace TsCli

/-- The channel but for its place, which the tree shows by position. -/
def Channel.withoutPlace (channel : Channel) : Channel :=
  { channel with parentId := 0, orderAfterId := 0 }

/-- A tree as channels and depths. -/
def outline (entries : List ChannelTreeEntry) : List (Channel × ℕ) :=
  entries.map fun entry => (entry.channel.withoutPlace, entry.depth)

namespace ChannelStore

open OrderedForest OrderedForest.Forest Exec

variable {s s' : ChannelStore} {F : Forest ℕ}

/-- What the store knows about a channel but for its place. -/
def contentAt (s : ChannelStore) (id : ℕ) : Channel := (s.channelAt id).withoutPlace

@[simp] theorem id_contentAt (id : ℕ) : (s.contentAt id).id = id := id_channelAt id

theorem contentAt_eq_iff {id : ℕ} {channel : Channel} (h : s.channels.find? id = some channel) :
    s.contentAt id = channel.withoutPlace := by
  unfold contentAt; rw [channelAt_of_find? h]

theorem outline_map_entryAt : outline ((F.outline 0).map s.entryAt) =
    relabel s.contentAt (F.outline 0) := by
  unfold outline relabel
  rw [List.map_map]
  rfl

/-- Outlines that agree on the channels of a forest. -/
theorem relabel_congr {f g : ℕ → Channel} {l : List (ℕ × ℕ)} (h : ∀ e ∈ l, f e.1 = g e.1) :
    relabel f l = relabel g l :=
  List.map_congr_left fun e he => by rw [h e he]

/-- A channel is shown by its id. -/
theorem pasteTree_contentAt (p o : ℕ) (block l : List (ℕ × ℕ)) :
    pasteTree 0 p o Channel.id (relabel s.contentAt block) (relabel s.contentAt l) =
      relabel s.contentAt (pasteTree 0 p o id block l) := by
  rw [pasteTree_relabel]
  exact congrArg (fun label => relabel s.contentAt (pasteTree 0 p o label block l))
    (funext fun id => id_contentAt id)

theorem is_comp_contentAt (c : ℕ) :
    (fun channel : Channel => decide (channel.id = c)) ∘ s.contentAt = fun id => decide (id = c) :=
  funext fun id => by rw [Function.comp_apply, id_contentAt]

theorem cutTree_contentAt (c : ℕ) (l : List (ℕ × ℕ)) :
    cutTree (fun channel : Channel => channel.id = c) (relabel s.contentAt l) =
      relabel s.contentAt (cutTree (· = c) l) := by
  rw [cutTree_relabel, is_comp_contentAt]

theorem subtree_contentAt (c : ℕ) (l : List (ℕ × ℕ)) :
    subtree (fun channel : Channel => channel.id = c) (relabel s.contentAt l) =
      relabel s.contentAt (subtree (· = c) l) := by
  rw [subtree_relabel, is_comp_contentAt]

/-! ## Rewriting the links -/

section Relink

variable {channels : Registry Channel.id} {except p o next : ℕ}

theorem places_map {f : ℕ → Channel → Channel} {g : ℕ → ℕ × ℕ → ℕ × ℕ}
    (h : ∀ j, s'.channels.find? j = (s.channels.find? j).map (f j))
    (hfg : ∀ j channel, ((f j channel).parentId, (f j channel).orderAfterId) =
      g j (channel.parentId, channel.orderAfterId)) (j : ℕ) :
    s'.places j = (s.places j).map (g j) := by
  unfold places
  rw [h, Option.map_map, Option.map_map]
  exact congrArg (Option.map · _) (funext fun channel => hfg j channel)

theorem contentAt_map {f : ℕ → Channel → Channel}
    (h : ∀ j, s'.channels.find? j = (s.channels.find? j).map (f j))
    (hf : ∀ j channel, (f j channel).withoutPlace = channel.withoutPlace) :
    s'.contentAt = s.contentAt := by
  funext j
  unfold contentAt channelAt
  rw [h]
  cases s.channels.find? j with
  | none => rfl
  | some channel => exact hf j channel

/-- `relink` as a map over the channels. -/
def relinkChannel (except p o next id : ℕ) (channel : Channel) : Channel :=
  if id ≠ except ∧ channel.parentId = p ∧ channel.orderAfterId = o then setOrderAfter next channel
  else channel

/-- Where one other channel at most has the place, `relink` rewrites that one. -/
theorem find?_relink (hu : ∀ a b, a ≠ except → b ≠ except → s.places a = some (p, o) →
      s.places b = some (p, o) → a = b) (j : ℕ) : (relink except p o next s.channels).find? j =
    (s.channels.find? j).map (relinkChannel except p o next j) := by
  have hplace : ∀ k channel, s.channels.find? k = some channel →
      decide (k ≠ except ∧ channel.parentId = p ∧ channel.orderAfterId = o) = true →
      k ≠ except ∧ s.places k = some (p, o) := by
    intro k channel hk hd
    obtain ⟨hne, hp, ho⟩ := of_decide_eq_true hd
    refine ⟨hne, ?_⟩
    unfold places
    rw [hk, Option.map_some, hp, ho]
  refine (Registry.find?_modifyFirst s.channels (setOrderAfter next) (id_setOrderAfter next) ?_
    j).trans ?_
  · intro k channel k' channel' hk hd hk' hd'
    obtain ⟨hne, hs⟩ := hplace k channel hk hd
    obtain ⟨hne', hs'⟩ := hplace k' channel' hk' hd'
    exact hu k k' hne hne' hs hs'
  · simp only [decide_eq_true_eq]
    rfl

theorem place_relinkChannel (id : ℕ) (channel : Channel) :
    ((relinkChannel except p o next id channel).parentId,
      (relinkChannel except p o next id channel).orderAfterId) =
    if id ≠ except ∧ (channel.parentId, channel.orderAfterId) = (p, o) then (p, next)
    else (channel.parentId, channel.orderAfterId) := by
  unfold relinkChannel
  by_cases h : id ≠ except ∧ channel.parentId = p ∧ channel.orderAfterId = o
  · rw [if_pos h, if_pos ⟨h.1, Prod.ext h.2.1 h.2.2⟩, ← h.2.1]
    rfl
  · rw [if_neg h, if_neg fun he => h ⟨he.1, congrArg Prod.fst he.2, congrArg Prod.snd he.2⟩]

theorem withoutPlace_relinkChannel (id : ℕ) (channel : Channel) :
    (relinkChannel except p o next id channel).withoutPlace = channel.withoutPlace := by
  unfold relinkChannel
  split_ifs <;> rfl

end Relink

/-! ## Descendants -/

/-- `a` is the channel `c` or below it. -/
inductive Within (s : ChannelStore) (c : ℕ) : ℕ → Prop
  | self : Within s c c
  | child {a : ℕ} {channel : Channel} : s.channels.find? a = some channel →
      Within s c channel.parentId → Within s c a

theorem within_of_mem_labels {c : ℕ} : ∀ {G : Forest ℕ} {p o : ℕ}, s.Within c p →
    Agrees s.places (G.links 0 p o) → ∀ a ∈ G.labels, s.Within c a
  | .nil, _, _, _, _, _, ha => by cases ha
  | .cons b kids rest, p, o, hp, hagrees, a, ha => by
    obtain ⟨hfind, hparent, -⟩ := places_eq_some_iff.1 (hagrees ⟨b, p, o⟩ List.mem_cons_self)
    have hb : s.Within c b := .child hfind (by rw [hparent]; exact hp)
    rw [labels, List.mem_cons, List.mem_append] at ha
    rcases ha with rfl | ha | ha
    · exact hb
    · exact within_of_mem_labels hb
        (fun l hl => hagrees l (List.mem_cons_of_mem _ (List.mem_append_left _ hl))) a ha
    · exact within_of_mem_labels hp
        (fun l hl => hagrees l (List.mem_cons_of_mem _ (List.mem_append_right _ hl))) a ha

/-- The subtree of a channel shows its descendants. -/
theorem within_of_mem_subtree (h : Represents 0 s.places F) {c : ℕ} {e : ℕ × ℕ}
    (he : e ∈ subtree (· = c) (F.outline 0)) : s.Within c e.1 := by
  by_cases hc : c ∈ F.labels
  · obtain ⟨C, kids, rest, rfl⟩ := Context.exists_plug hc
    rw [subtree_plug h.nodup] at he
    rcases List.mem_cons.1 he with rfl | he
    · exact .self
    · refine within_of_mem_labels (G := kids) (o := 0) .self (fun l hl => h.agrees l ?_) e.1 ?_
      · refine Context.mem_links_plug.2 (.inr ?_)
        rw [mem_links_cons, List.mem_append]
        exact .inr (.inl hl)
      · rw [← map_fst_outline 1 kids]
        exact List.mem_map_of_mem he
  · rw [subtree_of_forall_not] at he
    · cases he
    · intro x hx hxc
      refine hc ?_
      rw [← of_decide_eq_true hxc, ← map_fst_outline 0 F]
      exact List.mem_map_of_mem hx

/-! ## Moving -/

/-- What `move` checks. -/
def Movable (s : ChannelStore) (c p o : ℕ) : Prop :=
  o ≠ c ∧ (p = 0 ∨ s.channels.contains p = true) ∧ (o = 0 ∨ ∃ q, s.places o = some (p, q))

/-- The store after the gap behind `c` at `(p, o)` is closed. -/
def closed (s : ChannelStore) (c p o : ℕ) : ChannelStore :=
  { s with channels := relink c p c o s.channels }

/-- The store after a gap for `c` is opened at `(p, o)`. -/
def opened (s : ChannelStore) (c p o : ℕ) : ChannelStore :=
  { s with channels := relink c p o c s.channels }

/-- The store after `c` is put at `(p, o)`. -/
def placed (s : ChannelStore) (c p o : ℕ) : ChannelStore :=
  { s with channels := s.channels.modify c (setPlace p o) (id_setPlace p o) }

/-- The store after a move of `c` from `(p, o)` to `(p', o')`. -/
def moved (s : ChannelStore) (c p o p' o' : ℕ) : ChannelStore :=
  ((s.closed c p o).opened c p' o').placed c p' o'

/-- All that `move` does: it ignores an unknown channel, throws, or moves. -/
theorem move_cases (s : ChannelStore) (c p o : ℕ) :
    (s.channels.find? c = none ∧ move c p o s = .ok () s) ∨
      (∃ p₀ o₀, s.places c = some (p₀, o₀) ∧ s.Movable c p o ∧
        move c p o s = .ok () (s.moved c p₀ o₀ p o)) ∨
      ∃ failure, ¬ s.Movable c p o ∧ move c p o s = .error failure s := by
  unfold move
  rw [run_get_bind]
  cases hc : s.channels.find? c with
  | none => exact .inl ⟨rfl, rfl⟩
  | some channel =>
    right
    dsimp only
    rw [run_ite, run_ite, run_ite]
    by_cases hself : o = c
    · rw [if_pos hself]
      exact .inr ⟨_, fun hm => hm.1 hself, rfl⟩
    rw [if_neg hself]
    by_cases hparent : p ≠ 0 ∧ (!s.channels.contains p) = true
    · rw [if_pos hparent]
      refine .inr ⟨_, fun hm => hm.2.1.elim hparent.1 fun hp => ?_, rfl⟩
      simp [hp] at hparent
    rw [if_neg hparent]
    by_cases hpredecessor : o ≠ 0 ∧
        (s.channels.find? o).all (fun predecessor => predecessor.parentId ≠ p) = true
    · rw [if_pos hpredecessor]
      refine .inr ⟨_, fun hm => hm.2.2.elim hpredecessor.1 fun ⟨q, hq⟩ => ?_, rfl⟩
      obtain ⟨hfind, hp, -⟩ := places_eq_some_iff.1 hq
      simp [hfind, hp] at hpredecessor
    rw [if_neg hpredecessor]
    refine .inl ⟨channel.parentId, channel.orderAfterId, ?_, ⟨hself, ?_, ?_⟩, rfl⟩
    · unfold places; rw [hc]; rfl
    · simpa [or_iff_not_imp_left] using hparent
    · refine or_iff_not_imp_left.2 fun ho => ?_
      have hnot : ¬ (s.channels.find? o).all (fun predecessor => predecessor.parentId ≠ p) = true :=
        fun h => hpredecessor ⟨ho, h⟩
      cases hfind : s.channels.find? o with
      | none => simp [hfind] at hnot
      | some predecessor =>
        refine ⟨predecessor.orderAfterId, ?_⟩
        unfold places
        rw [hfind] at hnot ⊢
        simpa using hnot

theorem places_closed (h : Represents 0 s.places F) (c p o : ℕ) :
    (s.closed c p o).places = closeGap c p o s.places := funext fun j =>
  places_map (g := fun id t => if id ≠ c ∧ t = (p, c) then (p, o) else t)
    (find?_relink fun _ _ _ _ ha hb => h.slot_unique ha hb) place_relinkChannel j

theorem places_opened {c p o : ℕ} (hu : ∀ a b, a ≠ c → b ≠ c → s.places a = some (p, o) →
    s.places b = some (p, o) → a = b) : (s.opened c p o).places = openGap c p o s.places :=
  funext fun j => places_map (g := fun id t => if id ≠ c ∧ t = (p, o) then (p, c) else t)
    (find?_relink hu) place_relinkChannel j

theorem places_placed {c : ℕ} {t : ℕ × ℕ} (hc : s.places c = some t) (p o : ℕ) :
    (s.placed c p o).places = Function.update s.places c (some (p, o)) := by
  funext j
  rw [places_map (s := s) (g := fun j t => if j = c then (p, o) else t)
    (Registry.find?_modify _ c _ (id_setPlace p o)) (fun j channel => by split_ifs <;> rfl) j]
  by_cases hj : j = c
  · rw [hj, Function.update_self, hc, Option.map_some, if_pos rfl]
  · rw [Function.update_of_ne hj]
    simp [hj]

section Moved

variable {c p o p' o' : ℕ}

/-- Once the gap behind `c` is closed, one other channel at most stands at a place. -/
theorem unique_closed (h : Represents 0 s.places F) (hc : s.places c = some (p, o)) (a b : ℕ)
    (hac : a ≠ c) (hbc : b ≠ c) (ha : (s.closed c p o).places a = some (p', o'))
    (hb : (s.closed c p o).places b = some (p', o')) : a = b := by
  rw [places_closed h] at ha hb
  exact h.slot_unique_closeGap hc hac hbc ha hb

/-- A move closes the gap at the old place and opens one at the new place. -/
theorem places_moved (h : Represents 0 s.places F) (hc : s.places c = some (p, o)) :
    (s.moved c p o p' o').places =
      Function.update (openGap c p' o' (closeGap c p o s.places)) c (some (p', o')) := by
  have hunique := fun a b hac hbc ha hb =>
    unique_closed h hc a b hac hbc (show (s.closed c p o).places a = some (p', o') from ha) hb
  have hopened := places_opened hunique
  have hc' : ∃ t, ((s.closed c p o).opened c p' o').places c = some t := by
    rw [hopened, places_closed h]
    exact ⟨_, by rw [openGap, closeGap, hc]; rfl⟩
  obtain ⟨t, ht⟩ := hc'
  unfold moved
  rw [places_placed ht, hopened, places_closed h]

theorem contentAt_moved (h : Represents 0 s.places F) (hc : s.places c = some (p, o)) :
    (s.moved c p o p' o').contentAt = s.contentAt :=
  calc (s.moved c p o p' o').contentAt
      = ((s.closed c p o).opened c p' o').contentAt :=
        contentAt_map (Registry.find?_modify _ c _ (id_setPlace p' o')) fun j channel => by
          split_ifs <;> rfl
    _ = (s.closed c p o).contentAt :=
        contentAt_map (find?_relink (unique_closed h hc)) withoutPlace_relinkChannel
    _ = s.contentAt := contentAt_map
        (find?_relink fun _ _ _ _ ha hb => h.slot_unique ha hb) withoutPlace_relinkChannel

end Moved

/-! ## Inserting and removing -/

theorem find?_upsert (s : ChannelStore) (channel : Channel) (j : ℕ) :
    (s.upsert channel).channels.find? j = if j = channel.id then
      some { channel with subscribed := channel.id ∈ s.subscribedChannels }
    else s.channels.find? j := Registry.find?_upsert ..

theorem places_upsert (s : ChannelStore) (channel : Channel) : (s.upsert channel).places =
    Function.update s.places channel.id (some (channel.parentId, channel.orderAfterId)) := by
  funext j
  unfold places
  rw [find?_upsert]
  by_cases hj : j = channel.id
  · subst hj
    rw [if_pos rfl, Function.update_self]
    rfl
  · rw [if_neg hj, Function.update_of_ne hj]

theorem contentAt_upsert_of_ne {channel : Channel} {j : ℕ} (hj : j ≠ channel.id) :
    (s.upsert channel).contentAt j = s.contentAt j := by
  unfold contentAt channelAt
  rw [find?_upsert, if_neg hj]

/-- The subscription flag of a channel is looked up when it is stored. -/
def stored (s : ChannelStore) (channel : Channel) : Channel :=
  { channel with subscribed := channel.id ∈ s.subscribedChannels }

theorem contentAt_upsert (s : ChannelStore) (channel : Channel) :
    (s.upsert channel).contentAt channel.id = (s.stored channel).withoutPlace :=
  contentAt_eq_iff ((s.find?_upsert channel channel.id).trans (if_pos rfl))

theorem applyCreated_of_new {entry : ChannelCreatedEntry}
    (h : s.channels.contains entry.id = false) : s.applyCreated entry =
      (s.opened entry.id entry.parentId entry.orderAfterId).upsert entry.channel := by
  unfold applyCreated
  rw [if_neg (by rw [h]; exact Bool.false_ne_true)]
  rfl

theorem places_applyCreated (h : Represents 0 s.places F) {entry : ChannelCreatedEntry}
    (hnew : s.channels.contains entry.id = false) : (s.applyCreated entry).places =
      Function.update (openGap entry.id entry.parentId entry.orderAfterId s.places) entry.id
        (some (entry.parentId, entry.orderAfterId)) := by
  rw [applyCreated_of_new hnew, places_upsert,
    places_opened fun _ _ _ _ ha hb => h.slot_unique ha hb]
  rfl

theorem contentAt_applyCreated_of_ne (h : Represents 0 s.places F) {entry : ChannelCreatedEntry}
    (hnew : s.channels.contains entry.id = false) {j : ℕ} (hj : j ≠ entry.id) :
    (s.applyCreated entry).contentAt j = s.contentAt j := by
  rw [applyCreated_of_new hnew, contentAt_upsert_of_ne hj]
  exact congrFun (contentAt_map (find?_relink fun _ _ _ _ ha hb => h.slot_unique ha hb)
    withoutPlace_relinkChannel) j

/-- `remove` as a map over the other channels. -/
theorem find?_remove {c : ℕ} {removed : Channel} (hc : s.channels.find? c = some removed) (j : ℕ) :
    (s.remove c).channels.find? j = if j = c then none else
      (s.channels.find? j).map (relinkChannel c removed.parentId c removed.orderAfterId j) := by
  unfold remove
  rw [hc]
  dsimp only
  rw [Registry.find?_erase, Registry.find?_mapValues]
  split_ifs with hj
  · rfl
  · unfold relinkChannel
    simp only [hj, ne_eq, not_false_iff, true_and]

theorem places_remove {c p o : ℕ} (hc : s.places c = some (p, o)) :
    (s.remove c).places = Function.update (closeGap c p o s.places) c none := by
  obtain ⟨hfind, rfl, rfl⟩ := places_eq_some_iff.1 hc
  funext j
  by_cases hj : j = c
  · rw [hj, Function.update_self, places, find?_remove hfind, if_pos rfl, Option.map_none]
  · rw [Function.update_of_ne hj, places, find?_remove hfind, if_neg hj, Option.map_map, closeGap,
      places, Option.map_map]
    exact congrArg (Option.map · _) (funext fun channel => place_relinkChannel j channel)

theorem contentAt_remove_of_ne {c p o j : ℕ} (hc : s.places c = some (p, o)) (hj : j ≠ c) :
    (s.remove c).contentAt j = s.contentAt j := by
  obtain ⟨hfind, rfl, rfl⟩ := places_eq_some_iff.1 hc
  unfold contentAt channelAt
  rw [find?_remove hfind, if_neg hj]
  cases s.channels.find? j with
  | none => rfl
  | some channel => exact withoutPlace_relinkChannel j channel

theorem channels_remove_of_unknown {c : ℕ} (hc : s.channels.find? c = none) :
    (s.remove c).channels = s.channels := by
  unfold remove; rw [hc]

/-! ## The tree after an edit -/

theorem tree_of_represents (h : Represents 0 s.places F) :
    s.tree = .ok ((F.outline 0).map s.entryAt) := tree_eq_ok_iff.2 ⟨F, h, rfl⟩

/-- An id without a channel is not in the tree. -/
theorem not_mem_outline (h : Represents 0 s.places F) {c : ℕ} (hc : s.places c = none) :
    ∀ e ∈ F.outline 0, e.1 ≠ c := by
  rintro e he rfl
  have hmem : e.1 ∈ F.labels := by
    rw [← map_fst_outline 0 F]
    exact List.mem_map_of_mem he
  obtain ⟨l, hl, heq⟩ := exists_link (r := 0) (p := 0) (o := 0) hmem
  rw [← heq, h.agrees l hl] at hc
  cases hc

theorem mem_labels_of_contains (h : Represents 0 s.places F) {p : ℕ}
    (hp : s.channels.contains p = true) : p ∈ F.labels := by
  obtain ⟨channel, hfind⟩ := Registry.contains_iff.1 hp
  exact (mem_labels_iff h).2 (by rw [channelAt_of_find? hfind, hfind])

theorem tree_applyCreated (h : Represents 0 s.places F) {entry : ChannelCreatedEntry}
    (hnew : s.channels.contains entry.id = false)
    (hp : entry.parentId = 0 ∨ s.channels.contains entry.parentId = true)
    (ho : entry.orderAfterId = 0 ∨ ∃ q, s.places entry.orderAfterId = some (entry.parentId, q)) :
    ∃ F', Represents 0 (s.applyCreated entry).places F' ∧
      relabel (s.applyCreated entry).contentAt (F'.outline 0) =
        pasteTree 0 entry.parentId entry.orderAfterId Channel.id
          [((s.stored entry.channel).withoutPlace, 0)] (relabel s.contentAt (F.outline 0)) := by
  have hplaces : s.places entry.id = none := by
    unfold places
    cases hfind : s.channels.find? entry.id with
    | none => rfl
    | some channel =>
      rw [Registry.contains_iff.2 ⟨channel, hfind⟩] at hnew
      cases hnew
  have hnotMem := not_mem_outline h hplaces
  obtain ⟨F', hF', houtline⟩ := h.insert (c := entry.id) (fun hm => by
    rw [← map_fst_outline 0 F] at hm
    obtain ⟨e, he, heq⟩ := List.mem_map.1 hm
    exact hnotMem e he heq) entry.id_ne_zero (hp.imp id (mem_labels_of_contains h)) ho
  rw [← places_applyCreated h hnew] at hF'
  refine ⟨F', hF', ?_⟩
  have hold : relabel s.contentAt (F.outline 0) =
      relabel (s.applyCreated entry).contentAt (F.outline 0) :=
    relabel_congr fun e he => (contentAt_applyCreated_of_ne h hnew (hnotMem e he)).symm
  have hcreated : [((s.stored entry.channel).withoutPlace, 0)] =
      relabel (s.applyCreated entry).contentAt [(entry.id, 0)] := by
    show _ = [((s.applyCreated entry).contentAt entry.id, 0)]
    rw [applyCreated_of_new hnew]
    exact congrArg (fun channel => [(channel, 0)]) (contentAt_upsert
      (s.opened entry.id entry.parentId entry.orderAfterId) entry.channel).symm
  rw [houtline, hold, hcreated, pasteTree_contentAt]

theorem tree_moved (h : Represents 0 s.places F) {c p o p' o' : ℕ} (hc : s.places c = some (p, o))
    (hmovable : s.Movable c p' o') (hout : ¬ s.Within c p') :
    ∃ F', Represents 0 (s.moved c p o p' o').places F' ∧
      relabel (s.moved c p o p' o').contentAt (F'.outline 0) =
        pasteTree 0 p' o' Channel.id
          (subtree (fun channel => channel.id = c) (relabel s.contentAt (F.outline 0)))
          (cutTree (fun channel => channel.id = c) (relabel s.contentAt (F.outline 0))) := by
  obtain ⟨F', hF', houtline⟩ := h.move hc (hmovable.2.1.imp id (mem_labels_of_contains h))
    (fun e he heq => hout (heq ▸ within_of_mem_subtree h he)) hmovable.1 hmovable.2.2
  rw [← places_moved h hc] at hF'
  refine ⟨F', hF', ?_⟩
  rw [subtree_contentAt, cutTree_contentAt, pasteTree_contentAt, contentAt_moved h hc, houtline]

theorem tree_remove (h : Represents 0 s.places F) {c : ℕ}
    (hleaf : ∀ j q, s.places j ≠ some (c, q)) :
    ∃ F', Represents 0 (s.remove c).places F' ∧
      relabel (s.remove c).contentAt (F'.outline 0) =
        (relabel s.contentAt (F.outline 0)).filter (·.1.id ≠ c) := by
  have hfilter : ∀ l : List (ℕ × ℕ), (relabel s.contentAt l).filter (·.1.id ≠ c) =
      relabel s.contentAt (l.filter (·.1 ≠ c)) := fun l => by
    unfold relabel
    rw [List.filter_map]
    simp [Function.comp_def]
  rw [hfilter]
  cases hc : s.channels.find? c with
  | none =>
    have hsame := channels_remove_of_unknown hc
    have hplaces : (s.remove c).places = s.places := by unfold places; rw [hsame]
    have hcontent : (s.remove c).contentAt = s.contentAt := by
      unfold contentAt channelAt; rw [hsame]
    refine ⟨F, hplaces.symm ▸ h, ?_⟩
    rw [hcontent, List.filter_eq_self.2 fun e he => decide_eq_true (not_mem_outline h ?_ e he)]
    unfold places; rw [hc]; rfl
  | some removed =>
    have hplace : s.places c = some (removed.parentId, removed.orderAfterId) := by
      unfold places; rw [hc]; rfl
    obtain ⟨F', hF', houtline⟩ := h.remove hplace hleaf
    rw [← places_remove hplace] at hF'
    refine ⟨F', hF', ?_⟩
    rw [houtline]
    exact relabel_congr fun e he => contentAt_remove_of_ne hplace
      (of_decide_eq_true (List.mem_filter.1 he).2)

/-- The tree shows the places of the channels by position: two trees with one outline are equal. -/
theorem entries_eq_of_outline_eq {entries entries' : List ChannelTreeEntry} (h : s.tree = .ok entries)
    (h' : s'.tree = .ok entries') (houtline : outline entries = outline entries') :
    entries = entries' := by
  obtain ⟨F, hF, rfl⟩ := tree_eq_ok_iff.1 h
  obtain ⟨F', hF', rfl⟩ := tree_eq_ok_iff.1 h'
  rw [outline_map_entryAt, outline_map_entryAt] at houtline
  have hids : ∀ (s : ChannelStore) (l : List (ℕ × ℕ)),
      (relabel s.contentAt l).map (fun e => (e.1.id, e.2)) = l := fun s l => by
    unfold relabel
    rw [List.map_map]
    refine Eq.trans (List.map_congr_left fun e _ => ?_) (List.map_id l)
    exact Prod.ext (id_contentAt e.1) rfl
  obtain rfl : F = F' := outline_injective (d := 0) (by
    rw [← hids s (F.outline 0), houtline, hids])
  refine List.map_congr_left fun e he => ?_
  have hcontent : s.contentAt e.1 = s'.contentAt e.1 :=
    congrArg Prod.fst (List.map_inj_left.1 houtline e he)
  obtain ⟨l, hl, heq⟩ := exists_link (r := 0) (p := 0) (o := 0) (a := e.1) (F := F) (by
    rw [← map_fst_outline 0 F]; exact List.mem_map_of_mem he)
  obtain ⟨-, hp, ho⟩ := places_eq_some_iff.1 (hF.agrees l hl)
  obtain ⟨-, hp', ho'⟩ := places_eq_some_iff.1 (hF'.agrees l hl)
  rw [heq] at hp ho hp' ho'
  have hchannel : s.channelAt e.1 = s'.channelAt e.1 := by
    have hplace : ∀ channel : Channel, channel =
      setPlace channel.parentId channel.orderAfterId channel.withoutPlace := fun _ => rfl
    rw [hplace (s.channelAt e.1), hplace (s'.channelAt e.1), hp, ho, hp', ho']
    exact congrArg _ hcontent
  unfold entryAt
  rw [hchannel]

/-- The edits of a store whose tree shows `entries`. -/
structure EditsTree (s : ChannelStore) (entries : List ChannelTreeEntry) : Prop where
  /-- A new channel comes directly behind the subtree of its predecessor, or first under its
  parent. -/
  created : ∀ entry : ChannelCreatedEntry, s.channels.contains entry.id = false →
    (entry.parentId = 0 ∨ s.channels.contains entry.parentId = true) →
    (entry.orderAfterId = 0 ∨ ∃ predecessor,
      s.channels.find? entry.orderAfterId = some predecessor ∧
        predecessor.parentId = entry.parentId) →
    ∃ entries', (s.applyCreated entry).tree = .ok entries' ∧ outline entries' =
      pasteTree 0 entry.parentId entry.orderAfterId Channel.id
        [((s.stored entry.channel).withoutPlace, 0)] (outline entries)
  /-- A move to a parent outside the subtree cuts the subtree out and pastes it. -/
  moved : ∀ c p o s', move c p o s = .ok () s' → ¬ s.Within c p →
    ∃ entries', s'.tree = .ok entries' ∧ outline entries' =
      pasteTree 0 p o Channel.id (subtree (fun channel => channel.id = c) (outline entries))
        (cutTree (fun channel => channel.id = c) (outline entries))
  /-- A channel without sub-channels is left out. -/
  removed : ∀ c, (∀ channel ∈ s.channels.values, channel.parentId ≠ c) →
    ∃ entries', (s.remove c).tree = .ok entries' ∧
      outline entries' = (outline entries).filter (·.1.id ≠ c)
  /-- A move that throws leaves the store as it was. -/
  unchanged : ∀ c p o failure s', move c p o s = .error failure s' → s' = s

/-- **Edits of the channel tree.** In a store whose tree can be read, creating, moving and removing
a channel edit the tree as lists are cut and pasted. -/
theorem tree_edits {entries : List ChannelTreeEntry} (h : s.tree = .ok entries) :
    s.EditsTree entries := by
  obtain ⟨F, hF, rfl⟩ := tree_eq_ok_iff.1 h
  constructor
  · intro entry hnew hp ho
    obtain ⟨F', hF', houtline⟩ := tree_applyCreated hF hnew hp (ho.imp id fun ⟨predecessor, hq, he⟩ =>
      ⟨predecessor.orderAfterId, by unfold places; rw [hq, Option.map_some, he]⟩)
    exact ⟨_, tree_of_represents hF', by rw [outline_map_entryAt, outline_map_entryAt, houtline]⟩
  · intro c p o s' hmove hout
    rcases s.move_cases c p o with ⟨hc, hrun⟩ | ⟨p₀, o₀, hc, hmovable, hrun⟩ | ⟨failure, -, hrun⟩
    · obtain rfl : s = s' := by rw [hrun] at hmove; cases hmove; rfl
      have hnotMem := not_mem_outline hF (c := c) (by unfold places; rw [hc]; rfl)
      have hnone : ∀ x ∈ F.outline 0, ¬ decide (x.1 = c) = true := fun x hx he =>
        hnotMem x hx (of_decide_eq_true he)
      refine ⟨_, h, ?_⟩
      rw [outline_map_entryAt, subtree_contentAt, cutTree_contentAt, subtree_of_forall_not hnone,
        cutTree_of_forall_not hnone]
      exact (pasteTree_nil ..).symm
    · obtain rfl : s.moved c p₀ o₀ p o = s' := by rw [hrun] at hmove; cases hmove; rfl
      obtain ⟨F', hF', houtline⟩ := tree_moved hF hc hmovable hout
      exact ⟨_, tree_of_represents hF', by rw [outline_map_entryAt, outline_map_entryAt, houtline]⟩
    · rw [hrun] at hmove; cases hmove
  · intro c hleaf
    obtain ⟨F', hF', houtline⟩ := tree_remove hF (c := c) fun j q hj => by
      obtain ⟨hfind, hp, -⟩ := places_eq_some_iff.1 hj
      exact hleaf _ (mem_values_iff.2 (by rw [id_channelAt]; exact hfind)) hp
    exact ⟨_, tree_of_represents hF', by rw [outline_map_entryAt, outline_map_entryAt, houtline]⟩
  · intro c p o failure s' hmove
    rcases s.move_cases c p o with ⟨-, hrun⟩ | ⟨_, _, -, -, hrun⟩ | ⟨_, -, hrun⟩ <;>
      rw [hrun] at hmove <;> cases hmove
    rfl

/-- Two channels on the top level, and one below the first of them. -/
def threeChannels : ChannelStore :=
  applyList [{ id := 1, id_ne_zero := by decide },
    { id := 2, orderAfterId := 1, id_ne_zero := by decide },
    { id := 3, parentId := 1, id_ne_zero := by decide }] {}

theorem tree_edits_created : ∃ entries',
    (threeChannels.applyCreated { id := 4, orderAfterId := 1, id_ne_zero := by decide }).tree =
      .ok entries' ∧
    outline entries' = [({ id := 1 }, 0), ({ id := 3 }, 1), ({ id := 4 }, 0), ({ id := 2 }, 0)] :=
  (@tree_edits threeChannels [⟨{ id := 1 }, 0⟩, ⟨{ id := 3, parentId := 1 }, 1⟩,
    ⟨{ id := 2, orderAfterId := 1 }, 0⟩] (by decide +kernel)).created
    { id := 4, orderAfterId := 1, id_ne_zero := by decide } (by decide +kernel) (.inl rfl)
    (.inr ⟨{ id := 1 }, by decide +kernel, rfl⟩)

end ChannelStore

end TsCli
