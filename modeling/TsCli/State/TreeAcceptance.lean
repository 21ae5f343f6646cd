import TsCli.Lib.ParentLinks
import TsCli.State.ChannelTree

/-!
# What the channel tree accepts

`Tree` gets its channels from the server, so parents may form cycles and orders may fork. Here it is
described without the walk: it returns exactly when the parents lead to the root and the siblings
under each parent are one chain (`WellOrdered`), and what it returns is a `Listing` in preorder.
`AppendTree` fails only where `OrderedChildren` fails: below a node that climbs to the root the walk
meets no channel twice, so it ends and its own check never fires.
-/

namespace TsCli.ChannelStore

open OrderedForest OrderedForest.Forest ParentLinks Exec

variable {s : ChannelStore}

/-! ## The description -/

/-- The parent of a channel. -/
def parentOf (s : ChannelStore) (id : ℕ) : Option ℕ := (s.channels.find? id).map Channel.parentId

/-- All the channels with a parent, each once, as one chain that starts at 0. -/
structure Siblings (s : ChannelStore) (parentId : ℕ) (ordered : List Channel) : Prop where
  chain : Chain 0 ordered
  nodup : (ordered.map Channel.id).Nodup
  mem_iff : ∀ channel, channel ∈ ordered ↔
    s.channels.find? channel.id = some channel ∧ channel.parentId = parentId

/-- The parents lead to the root, and the siblings of every group are one chain. -/
structure WellOrdered (s : ChannelStore) : Prop where
  parents : ∀ id channel, s.channels.find? id = some channel →
    channel.parentId = 0 ∨ s.channels.contains channel.parentId = true
  roots : ∀ id, s.channels.contains id = true → Climbs s.parentOf id 0
  siblings : ∀ parentId, ∃ ordered, Siblings s parentId ordered

/-- The entries of channels at a depth: each channel, then the entries of its children one level
deeper, then those of the channels behind it. -/
inductive Listing (s : ChannelStore) : ℕ → List Channel → List ChannelTreeEntry → Prop
  | nil (depth : ℕ) : Listing s depth [] []
  | cons {depth : ℕ} {channel : Channel} {kids rest : List Channel}
      {below behind : List ChannelTreeEntry} (hkids : Siblings s channel.id kids)
      (hbelow : Listing s (depth + 1) kids below) (hbehind : Listing s depth rest behind) :
      Listing s depth (channel :: rest) (⟨channel, depth⟩ :: (below ++ behind))

theorem parentOf_eq_some_iff {id p : ℕ} : s.parentOf id = some p ↔
    ∃ channel, s.channels.find? id = some channel ∧ channel.parentId = p := Option.map_eq_some_iff

/-! ## The children of one channel -/

/-- How `OrderedChildren` can fail. -/
def OrderFailure (failure : Failure) : Prop :=
  failure = .runtimeError "Invalid TeamSpeak channel order chain" ∨
    failure = .runtimeError "Multiple channels occupy the same order position"

theorem orderFailure_of_orderChain {children : List Channel} :
    ∀ {remaining : ℕ} {emitted : List ℕ} {previousId : ℕ} {failure : Failure},
      orderChain children remaining emitted previousId = .error failure → OrderFailure failure := by
  intro remaining
  induction remaining with
  | zero => nofun
  | succ remaining ih =>
    intro emitted previousId failure h
    rw [orderChain] at h
    split at h
    · cases h
      exact .inl rfl
    · rename_i next hnext
      cases hrest : orderChain children remaining (next.id :: emitted) next.id with
      | error e =>
        rw [hrest] at h
        cases h
        exact ih hrest
      | ok rest =>
        rw [hrest] at h
        cases h
    · cases h
      exact .inr rfl

/-- `OrderedChildren` accepts exactly the groups that are one chain. -/
theorem orderedChildren_eq_ok_iff (hzero : s.channels.find? 0 = none) {p : ℕ}
    {ordered : List Channel} : s.orderedChildren p = .ok ordered ↔ Siblings s p ordered := by
  constructor
  · intro h
    obtain ⟨hchain, hnodup, hmem⟩ := orderedChildren_eq_ok h
    obtain ⟨hlength, -, hsub, -⟩ := chain_of_orderChain h
    -- as many different children as there are
    have hsubperm : ordered.Subperm (s.channels.values.filter fun channel => channel.parentId = p) :=
      List.subperm_of_subset (.of_map Channel.id hnodup) fun channel hc => (hsub channel hc).1
    have hperm := hsubperm.perm_of_length_le hlength.ge
    refine ⟨hchain, hnodup, fun channel => ⟨hmem channel, fun hc => hperm.mem_iff.2 ?_⟩⟩
    exact List.mem_filter.2 ⟨mem_values_iff.2 hc.1, decide_eq_true hc.2⟩
  · rintro ⟨hchain, hnodup, hmem⟩
    refine orderedChildren_of_chain hchain hnodup (fun h0 => ?_) hmem
    obtain ⟨channel, hc, hid⟩ := List.mem_map.1 h0
    have hfind := ((hmem channel).1 hc).1
    rw [hid, hzero] at hfind
    cases hfind

/-! ## The walk below a node -/

theorem contains_of_parentOf {c q : ℕ} (h : s.parentOf c = some q) :
    s.channels.contains c = true := by
  obtain ⟨channel, hfind, -⟩ := parentOf_eq_some_iff.1 h
  exact Registry.contains_iff.2 ⟨channel, hfind⟩

theorem card_le_size {visited : Finset ℕ} (h : ∀ a ∈ visited, s.channels.contains a = true) :
    visited.card ≤ s.channels.size := by
  refine (Finset.card_le_card fun a ha => ?_).trans_eq s.channels.map.size_eq_card_keys.symm
  rw [List.mem_toFinset, OrderedMap.mem_keys_iff]
  exact Registry.contains_iff.1 (h a ha)

/-- Channels were visited, and nothing that climbs to one of `nodes`. -/
structure Fresh (s : ChannelStore) (nodes : List ℕ) (visited : Finset ℕ) : Prop where
  contains : ∀ a ∈ visited, s.channels.contains a = true
  notMem : ∀ a ∈ nodes, ∀ c, Climbs s.parentOf c a → c ∉ visited

/-- Since `visited`, only what climbs to one of `nodes` was visited. -/
structure Grown (s : ChannelStore) (nodes : List ℕ) (visited visited' : Finset ℕ) : Prop where
  subset : visited ⊆ visited'
  climbs : ∀ c ∈ visited', c ∈ visited ∨ ∃ a ∈ nodes, Climbs s.parentOf c a

/-- The node itself is visited before what is below it. -/
theorem Fresh.visit (hzero : s.parentOf 0 = none) {a p : ℕ} {nodes : List ℕ} {visited : Finset ℕ}
    (h : Fresh s (a :: nodes) visited) (ha : s.parentOf a = some p) (hp : Climbs s.parentOf p 0) :
    (∀ c ∈ insert a visited, s.channels.contains c = true) ∧
      ∀ c q, s.parentOf c = some q → Climbs s.parentOf q a → c ∉ insert a visited := by
  refine ⟨fun c hc => ?_, fun c q hq hqa hc => ?_⟩
  · rcases Finset.mem_insert.1 hc with rfl | hc
    · exact contains_of_parentOf ha
    · exact h.contains c hc
  · rcases Finset.mem_insert.1 hc with rfl | hc
    · exact (Climbs.head ha hp).not_below_self hzero hq hqa
    · exact h.notMem a List.mem_cons_self c (Climbs.head hq hqa) hc

/-- What is below a node does not touch its siblings. -/
theorem Fresh.behind (hzero : s.parentOf 0 = none) {a p : ℕ} {nodes : List ℕ}
    {visited visited' : Finset ℕ} (h : Fresh s (a :: nodes) visited) (ha : a ∉ nodes)
    (hparent : ∀ b ∈ a :: nodes, s.parentOf b = some p) (hp : Climbs s.parentOf p 0)
    (hgrown : ∀ c ∈ visited', c ∈ insert a visited ∨
      ∃ q, s.parentOf c = some q ∧ Climbs s.parentOf q a) : Fresh s nodes visited' := by
  have hsplit : ∀ c ∈ visited', c ∈ visited ∨ Climbs s.parentOf c a := fun c hc => by
    obtain hc | ⟨q, hq, hqa⟩ := hgrown c hc
    · rcases Finset.mem_insert.1 hc with rfl | hc
      · exact .inr (Climbs.refl c)
      · exact .inl hc
    · exact .inr (Climbs.head hq hqa)
  have hpa := hparent a List.mem_cons_self
  refine ⟨fun c hc => ?_, fun b hb c hcb hc => ?_⟩
  · obtain hc | hca := hsplit c hc
    · exact h.contains c hc
    · obtain rfl | ⟨q, hq, -⟩ := hca.cases
      · exact contains_of_parentOf hpa
      · exact contains_of_parentOf hq
  · obtain hc | hca := hsplit c hc
    · exact h.notMem b (List.mem_cons_of_mem _ hb) c hcb hc
    · exact Climbs.disjoint_siblings hzero hp hpa (hparent b (List.mem_cons_of_mem _ hb))
        (fun he => ha (he ▸ hb)) hca hcb

/-- With this fuel, `AppendTree` visits what is below a node that climbs to the root, and fails only
where `OrderedChildren` fails. -/
def Descends (s : ChannelStore) (fuel : ℕ) : Prop :=
  ∀ {p depth : ℕ} {walk : Walk}, Climbs s.parentOf p 0 →
    (∀ a ∈ walk.visited, s.channels.contains a = true) →
    (∀ c q, s.parentOf c = some q → Climbs s.parentOf q p → c ∉ walk.visited) →
    s.channels.size < fuel + walk.visited.card →
    wp (s.appendTree fuel p depth)
      (fun _ walk' => walk.visited ⊆ walk'.visited ∧ ∀ c ∈ walk'.visited, c ∈ walk.visited ∨
        ∃ q, s.parentOf c = some q ∧ Climbs s.parentOf q p)
      (fun failure _ => ∃ q, s.orderedChildren q = .error failure) walk

/-- The nodes that were visited with a child and below it, then with its siblings. -/
theorem Grown.cons {a p : ℕ} {nodes : List ℕ} {visited visited' visited'' : Finset ℕ}
    (hparent : s.parentOf a = some p) (hsub : insert a visited ⊆ visited')
    (hbelow : ∀ c ∈ visited', c ∈ insert a visited ∨
      ∃ q, s.parentOf c = some q ∧ Climbs s.parentOf q a)
    (h : Grown s nodes visited' visited'') : Grown s (a :: nodes) visited visited'' := by
  refine ⟨((Finset.subset_insert _ _).trans hsub).trans h.subset, fun c hc => ?_⟩
  obtain hc | ⟨b, hb, hcb⟩ := h.climbs c hc
  · obtain hc | ⟨q, hq, hqa⟩ := hbelow c hc
    · rcases Finset.mem_insert.1 hc with rfl | hc
      · exact .inr ⟨_, List.mem_cons_self, Climbs.refl _⟩
      · exact .inl hc
    · exact .inr ⟨_, List.mem_cons_self, Climbs.head hq hqa⟩
  · exact .inr ⟨b, List.mem_cons_of_mem _ hb, hcb⟩

/-- The loop over siblings visits them and what is below them, by induction on the list. -/
theorem Descends.wp_forM_visit {fuel p depth : ℕ} (h : Descends s fuel)
    (hzero : s.parentOf 0 = none) (hp : Climbs s.parentOf p 0) :
    ∀ (children : List Channel) {walk : Walk},
      (∀ channel ∈ children, s.parentOf channel.id = some p) →
      (children.map Channel.id).Nodup → Fresh s (children.map Channel.id) walk.visited →
      s.channels.size < fuel + 1 + walk.visited.card →
      wp (forM children (s.visit fuel depth))
        (fun _ walk' => Grown s (children.map Channel.id) walk.visited walk'.visited)
        (fun failure _ => ∃ q, s.orderedChildren q = .error failure) walk := by
  intro children
  induction children with
  | nil => exact fun {walk} _ _ _ _ => ⟨Finset.Subset.refl _, fun c hc => .inl hc⟩
  | cons channel children ih =>
    intro walk hparent hnodup hfresh hfuel
    obtain ⟨hid, hnodup⟩ := List.nodup_cons.1 hnodup
    have hnode : channel.id ∉ walk.visited :=
      hfresh.notMem _ List.mem_cons_self _ (Climbs.refl _)
    have hpa := hparent channel List.mem_cons_self
    obtain ⟨hcontains₁, hnew₁⟩ := hfresh.visit hzero hpa hp
    rw [List.forM_cons, wp_bind, wp_congr (visit_of_notMem hnode)]
    refine wp_mono (h (Climbs.head hpa hp) hcontains₁ hnew₁ ?_) (fun _ walk₂ h₂ => ?_)
      fun _ _ h => h
    · show s.channels.size < fuel + (insert channel.id walk.visited).card
      rw [Finset.card_insert_of_notMem hnode]
      omega
    · obtain ⟨hsub, hbelow⟩ := h₂
      have hfresh₂ := hfresh.behind hzero hid
        (List.forall_mem_map.2 hparent : ∀ b ∈ (channel :: children).map Channel.id, _) hp hbelow
      refine wp_mono (ih (fun c hc => hparent c (List.mem_cons_of_mem _ hc)) hnodup hfresh₂ ?_)
        (fun _ walk₃ h₃ => Grown.cons hpa hsub hbelow h₃) fun _ _ h => h
      have := Finset.card_le_card ((Finset.subset_insert _ _).trans hsub)
      omega

/-- One level more: the children of the node, one after the other. -/
theorem Descends.succ {fuel : ℕ} (h : Descends s fuel) (hzero : s.parentOf 0 = none) :
    Descends s (fuel + 1) := by
  intro p depth walk hp hcontains hnew hfuel
  rw [appendTree_succ, wp_bind, wp_lift]
  refine ⟨fun children hchildren => ?_, fun failure h => ⟨p, h⟩⟩
  obtain ⟨-, hnodup, hmem⟩ := orderedChildren_eq_ok hchildren
  have hparent : ∀ channel ∈ children, s.parentOf channel.id = some p := fun channel hc =>
    parentOf_eq_some_iff.2 ⟨channel, hmem channel hc⟩
  refine wp_mono (h.wp_forM_visit hzero hp children hparent hnodup
      ⟨hcontains, fun a ha c hca => ?_⟩ hfuel)
    (fun _ walk' h => ⟨h.subset, fun c hvisited => (h.climbs c hvisited).imp_right ?_⟩)
    fun _ _ h => h
  · obtain ⟨channel, hc, rfl⟩ := List.mem_map.1 ha
    obtain rfl | ⟨q, hq, hqa⟩ := hca.cases
    · exact hnew _ p (hparent channel hc) (Climbs.refl p)
    · exact hnew c q hq (hqa.trans (Climbs.head (hparent channel hc) (Climbs.refl p)))
  · rintro ⟨a, ha, hca⟩
    obtain ⟨channel, hc, rfl⟩ := List.mem_map.1 ha
    obtain rfl | ⟨q, hq, hqa⟩ := hca.cases
    · exact ⟨p, hparent channel hc, Climbs.refl p⟩
    · exact ⟨q, hq, hqa.trans (Climbs.head (hparent channel hc) (Climbs.refl p))⟩

theorem descends (hzero : s.parentOf 0 = none) (fuel : ℕ) : Descends s fuel := by
  induction fuel with
  | zero =>
    intro p depth walk _ hcontains _ hfuel
    exact absurd (card_le_size hcontains) (by omega)
  | succ fuel ih => exact ih.succ hzero

/-! ## The listing -/

/-- A node of a forest that the store lists has its children in the forest. -/
theorem Lists.exists_kids {F : Forest ℕ} (h : s.Lists F) {a : ℕ} (ha : a ∈ F.labels) :
    ∃ kids : Forest ℕ, s.orderedChildren a = .ok (kids.tops.map s.channelAt) ∧
      ∀ b ∈ kids.tops, b ∈ F.labels := by
  obtain ⟨C, kids, rest, rfl⟩ := Context.exists_plug ha
  refine ⟨kids, h.of_plug, fun b hb => (Context.labels_plug _ C).mem_iff.2 ?_⟩
  refine List.mem_append_right _ (List.mem_cons_of_mem _ (List.mem_append_left _ ?_))
  exact (tops_sublist kids).subset hb

theorem listing_of_lists (hzero : s.channels.find? 0 = none) : ∀ {F : Forest ℕ} (depth : ℕ),
    s.Lists F → Listing s depth (F.tops.map s.channelAt) ((F.outline depth).map s.entryAt)
  | .nil, depth, _ => .nil depth
  | .cons a kids rest, depth, h => by
    obtain ⟨hkids, hbelow, hbehind⟩ := h
    have hsiblings := (orderedChildren_eq_ok_iff hzero).1 hkids
    rw [tops, Forest.outline, List.map_cons, List.map_cons, List.map_append]
    refine .cons ?_ (listing_of_lists hzero (depth + 1) hbelow) (listing_of_lists hzero depth hbehind)
    rw [id_channelAt]
    exact hsiblings

/-- The topmost channels of a forest have the parent `p`. -/
def Under (s : ChannelStore) (p : ℕ) (F : Forest ℕ) : Prop :=
  ∀ a ∈ F.tops, s.parentOf a = some p

theorem under_of_orderedChildren {F : Forest ℕ} {p : ℕ}
    (h : s.orderedChildren p = .ok (F.tops.map s.channelAt)) : Under s p F := by
  obtain ⟨-, -, hmem⟩ := orderedChildren_eq_ok h
  intro a ha
  obtain ⟨hfind, hparent⟩ := hmem _ (List.mem_map_of_mem ha)
  rw [id_channelAt] at hfind
  exact parentOf_eq_some_iff.2 ⟨_, hfind, hparent⟩

theorem climbs_of_lists : ∀ {F : Forest ℕ} {p : ℕ}, s.Lists F → Under s p F →
    ∀ a ∈ F.labels, Climbs s.parentOf a p
  | .nil, _, _, _ => nofun
  | .cons b kids rest, p, h, hunder => by
    obtain ⟨hkids, hbelow, hbehind⟩ := h
    intro a ha
    rw [labels, List.mem_cons, List.mem_append] at ha
    rcases ha with rfl | ha | ha
    · exact Climbs.head (hunder a List.mem_cons_self) (Climbs.refl p)
    · have hb := climbs_of_lists hbelow (under_of_orderedChildren hkids) a ha
      exact hb.trans (Climbs.head (hunder b List.mem_cons_self) (Climbs.refl p))
    · exact climbs_of_lists hbehind (fun c hc => hunder c (List.mem_cons_of_mem _ hc)) a ha

/-- In an outline each node is at the starting depth, or one below its parent. -/
theorem depth_of_lists : ∀ {F : Forest ℕ} {p depth : ℕ}, s.Lists F → Under s p F →
    ∀ e ∈ F.outline depth, s.parentOf e.1 = some p ∧ e.2 = depth ∨
      ∃ e' ∈ F.outline depth, s.parentOf e.1 = some e'.1 ∧ e.2 = e'.2 + 1
  | .nil, _, _, _, _ => nofun
  | .cons b kids rest, p, depth, h, hunder => by
    obtain ⟨hkids, hbelow, hbehind⟩ := h
    intro e he
    rw [Forest.outline, List.mem_cons, List.mem_append] at he
    simp only [Forest.outline, List.mem_cons, List.mem_append]
    rcases he with rfl | he | he
    · exact .inl ⟨hunder b List.mem_cons_self, rfl⟩
    · obtain ⟨hparent, hdepth⟩ | ⟨e', he', h⟩ :=
        depth_of_lists hbelow (under_of_orderedChildren hkids) e he
      · exact .inr ⟨(b, depth), .inl rfl, hparent, hdepth⟩
      · exact .inr ⟨e', .inr (.inl he'), h⟩
    · obtain h | ⟨e', he', h⟩ :=
        depth_of_lists hbehind (fun c hc => hunder c (List.mem_cons_of_mem _ hc)) e he
      · exact .inl h
      · exact .inr ⟨e', .inr (.inr he'), h⟩

/-! ## The tree -/

/-- A forest of all the channels that the store lists from the root down. -/
structure Listed (s : ChannelStore) (F : Forest ℕ) : Prop where
  nodup : F.labels.Nodup
  mem_iff : ∀ a, a ∈ F.labels ↔ s.channels.find? a = some (s.channelAt a)
  root : s.orderedChildren 0 = .ok (F.tops.map s.channelAt)
  lists : s.Lists F

theorem listed_of_represents {F : Forest ℕ} (h : Represents 0 s.places F) : Listed s F where
  nodup := h.nodup
  mem_iff _ := mem_labels_iff h
  root := orderedChildren_of_links h (fun _ h => h) h.nodup
    fun _ hl he => mem_tops_of_link h.root_notMem hl he
  lists := lists_of_links h (p := 0) (o := 0) (fun _ h => h) (fun _ h _ => h) h.nodup h.root_notMem

theorem Listed.represents {F : Forest ℕ} (h : Listed s F) : Represents 0 s.places F := by
  obtain ⟨hchain, -, hparent⟩ := orderedChildren_eq_ok h.root
  refine ⟨h.nodup, zero_notMem_labels h.nodup h.lists h.root,
    agrees_of_lists h.lists (fun a ha => (h.mem_iff a).1 ha) hchain
      fun a ha => (hparent _ (List.mem_map_of_mem ha)).2, fun a place ha => ?_⟩
  exact (h.mem_iff a).2 (places_eq_some_iff.1 (show s.places a = some (place.1, place.2) from ha)).1

theorem wellOrdered_of_listed (hzero : s.channels.find? 0 = none) {F : Forest ℕ}
    (h : Listed s F) : WellOrdered s := by
  have hmem : ∀ id channel, s.channels.find? id = some channel → id ∈ F.labels :=
    fun id channel hfind => (h.mem_iff id).2 (by rw [channelAt_of_find? hfind, hfind])
  have hclimbs := climbs_of_lists h.lists (under_of_orderedChildren h.root)
  have hparents : ∀ id channel, s.channels.find? id = some channel →
      channel.parentId = 0 ∨ s.channels.contains channel.parentId = true := by
    intro id channel hfind
    have hparent : s.parentOf id = some channel.parentId :=
      parentOf_eq_some_iff.2 ⟨channel, hfind, rfl⟩
    obtain rfl | ⟨q, hq, hclimb⟩ := (hclimbs id (hmem id channel hfind)).cases
    · rw [hzero] at hfind
      cases hfind
    · obtain rfl := Option.some.inj (hparent.symm.trans hq)
      obtain h0 | ⟨r, hr, -⟩ := hclimb.cases
      · exact .inl h0
      · exact .inr (contains_of_parentOf hr)
  refine ⟨hparents, fun id hid => ?_, fun p => ?_⟩
  · obtain ⟨channel, hfind⟩ := Registry.contains_iff.1 hid
    exact hclimbs id (hmem id channel hfind)
  · by_cases hp : p = 0
    · exact ⟨_, (orderedChildren_eq_ok_iff hzero).1 (hp ▸ h.root)⟩
    · by_cases hknown : s.channels.contains p = true
      · obtain ⟨channel, hfind⟩ := Registry.contains_iff.1 hknown
        obtain ⟨kids, hkids, -⟩ := h.lists.exists_kids (hmem p channel hfind)
        exact ⟨_, (orderedChildren_eq_ok_iff hzero).1 hkids⟩
      · -- nobody has a parent that does not exist
        refine ⟨[], trivial, List.nodup_nil, fun channel => iff_of_false nofun ?_⟩
        rintro ⟨hfind, rfl⟩
        exact (hparents _ channel hfind).elim hp hknown

/-- From the root the walk fails only where `OrderedChildren` fails, whatever bounds its depth. -/
theorem exists_of_appendTree_error (hzero : s.channels.find? 0 = none) {fuel : ℕ}
    (hfuel : s.channels.size < fuel) {failure : Failure} {walk : Walk}
    (h : s.appendTree fuel 0 0 {} = .error failure walk) :
    ∃ q, s.orderedChildren q = .error failure := by
  have hroot : s.parentOf 0 = none := by
    unfold parentOf
    rw [hzero]
    rfl
  have hwp : wp (s.appendTree fuel 0 0) _ _ ({} : Walk) := descends hroot fuel (Climbs.refl 0)
    (fun a ha => absurd ha (Finset.notMem_empty a)) (fun a _ _ _ => Finset.notMem_empty a) hfuel
  exact error_of_wp hwp h

theorem listed_of_wellOrdered (hzero : s.channels.find? 0 = none) (h : WellOrdered s) :
    ∃ F, Listed s F := by
  cases hrun : s.appendTree (s.channels.size + 1) 0 0 {} with
  | error failure walk =>
    obtain ⟨q, hq⟩ := exists_of_appendTree_error hzero (Nat.lt_succ_self _) hrun
    obtain ⟨ordered, hordered⟩ := h.siblings q
    rw [(orderedChildren_eq_ok_iff hzero).2 hordered] at hq
    cases hq
  | ok u walk =>
    obtain ⟨F, hroot, hwalked⟩ := exists_walked _ hrun
    have hfind := fun a ha => (hwalked.fresh a ha).1
    refine ⟨F, hwalked.nodup, fun a => ⟨hfind a, fun ha => ?_⟩, hroot, hwalked.lists⟩
    -- what climbs to the root is listed, as its parent is
    have hall : ∀ c, Climbs s.parentOf c 0 → c = 0 ∨ c ∈ F.labels := by
      intro c hc
      induction hc using Relation.ReflTransGen.head_induction_on with
      | refl => exact .inl rfl
      | @head c q hparent _ ih =>
        right
        obtain ⟨channel, hchannel, hq⟩ := parentOf_eq_some_iff.1 hparent
        have hid : channel.id = c := Registry.key_of_find? hchannel
        have hin : ∀ {G : Forest ℕ}, s.orderedChildren q = .ok (G.tops.map s.channelAt) →
            c ∈ G.tops := fun {G} hG => by
          have hmem := (((orderedChildren_eq_ok_iff hzero).1 hG).mem_iff channel).2
            ⟨hid.symm ▸ hchannel, hq⟩
          obtain ⟨b, hb, hbc⟩ := List.mem_map.1 hmem
          rw [← hid, ← hbc, id_channelAt]
          exact hb
        rcases ih with rfl | hlabel
        · exact (tops_sublist F).subset (hin hroot)
        · obtain ⟨kids, hkids, hsub⟩ := hwalked.lists.exists_kids hlabel
          exact hsub c (hin hkids)
    refine (hall a (h.roots a (Registry.contains_iff.2 ⟨_, ha⟩))).resolve_left ?_
    rintro rfl
    rw [hzero] at ha
    cases ha

/-- `Tree` returns exactly for well-ordered channels. -/
theorem tree_returns_iff (hzero : s.channels.find? 0 = none) :
    (∃ entries, s.tree = .ok entries) ↔ WellOrdered s := by
  constructor
  · rintro ⟨entries, h⟩
    obtain ⟨F, hF, -⟩ := tree_eq_ok_iff.1 h
    exact wellOrdered_of_listed hzero (listed_of_represents hF)
  · intro h
    obtain ⟨F, hF⟩ := listed_of_wellOrdered hzero h
    exact ⟨_, tree_eq_ok_iff.2 ⟨F, hF.represents, rfl⟩⟩

/-- The depth of an entry, from that of the entry of its parent. -/
def DepthFits (entries : List ChannelTreeEntry) (e : ChannelTreeEntry) : Prop :=
  (e.channel.parentId = 0 → e.depth = 0) ∧ (e.channel.parentId ≠ 0 →
    ∃ parent ∈ entries, parent.channel.id = e.channel.parentId ∧ e.depth = parent.depth + 1)

theorem Listed.depthFits (hzero : s.channels.find? 0 = none) {F : Forest ℕ} (h : Listed s F) :
    ∀ e ∈ (F.outline 0).map s.entryAt, DepthFits ((F.outline 0).map s.entryAt) e := by
  intro e he
  obtain ⟨node, hnode, rfl⟩ := List.mem_map.1 he
  have hmem : ∀ node' ∈ F.outline 0, s.channels.find? node'.1 = some (s.channelAt node'.1) :=
    fun node' h' => (h.mem_iff _).1 (map_fst_outline 0 F ▸ List.mem_map_of_mem h')
  have hparent : s.parentOf node.1 = some (s.channelAt node.1).parentId :=
    parentOf_eq_some_iff.2 ⟨_, hmem node hnode, rfl⟩
  show ((s.channelAt node.1).parentId = 0 → node.2 = 0) ∧ ((s.channelAt node.1).parentId ≠ 0 →
    ∃ parent ∈ (F.outline 0).map s.entryAt,
      parent.channel.id = (s.channelAt node.1).parentId ∧ node.2 = parent.depth + 1)
  obtain ⟨hp, hdepth⟩ | ⟨node', hnode', hp, hdepth⟩ :=
    depth_of_lists h.lists (under_of_orderedChildren h.root) node hnode
  · have hp0 := Option.some.inj (hparent.symm.trans hp)
    exact ⟨fun _ => hdepth, fun hne => absurd hp0 hne⟩
  · have hp' := Option.some.inj (hparent.symm.trans hp)
    refine ⟨fun h0 => ?_, fun _ => ⟨s.entryAt node', List.mem_map_of_mem hnode', ?_, hdepth⟩⟩
    · have hfind := hmem node' hnode'
      rw [← hp', h0, hzero] at hfind
      cases hfind
    · exact (id_channelAt _).trans hp'.symm

theorem Listed.perm_channels {F : Forest ℕ} (h : Listed s F) :
    (((F.outline 0).map s.entryAt).map ChannelTreeEntry.channel).Perm s.channels.values := by
  have hlabels : ((F.outline 0).map s.entryAt).map ChannelTreeEntry.channel =
      F.labels.map s.channelAt := by
    rw [← map_fst_outline 0 F, List.map_map, List.map_map]
    rfl
  have hvalues : (s.channels.values.map Channel.id).map s.channelAt = s.channels.values := by
    rw [List.map_map]
    refine (List.map_congr_left fun channel hc => ?_).trans (List.map_id _)
    exact channelAt_of_find? (mem_values_iff.1 hc)
  have hperm := (perm_labels h.nodup h.mem_iff).map s.channelAt
  rw [hvalues] at hperm
  rw [hlabels]
  exact hperm

/-- **What the channel tree accepts.** For channels with ids other than 0, `Tree` returns exactly
when they are well ordered, and it lists each channel once, in preorder, with its depth. The walk
ends and fails only by the two failures of `OrderedChildren`. -/
theorem tree_accepts (hids : ∀ channel ∈ s.channels.values, channel.id ≠ 0) :
    ((∃ entries, s.tree = .ok entries) ↔ WellOrdered s) ∧
    (∀ entries, s.tree = .ok entries →
      (entries.map ChannelTreeEntry.channel).Perm s.channels.values ∧
      (∃ roots, Siblings s 0 roots ∧ Listing s 0 roots entries) ∧
      ∀ e ∈ entries, DepthFits entries e) ∧
    (∀ fuel, s.channels.size < fuel → ∀ failure walk,
      s.appendTree fuel 0 0 {} = .error failure walk → OrderFailure failure) ∧
    ∀ p failure, s.orderedChildren p = .error failure → OrderFailure failure := by
  have hzero : s.channels.find? 0 = none := by
    cases hfind : s.channels.find? 0 with
    | none => rfl
    | some channel =>
      have hid : channel.id = 0 := Registry.key_of_find? hfind
      exact absurd hid (hids channel (mem_values_iff.2 (hid.symm ▸ hfind)))
  refine ⟨tree_returns_iff hzero, fun entries h => ?_, fun fuel hfuel failure walk h => ?_,
    fun p failure h => orderFailure_of_orderChain h⟩
  · obtain ⟨F, hF, rfl⟩ := tree_eq_ok_iff.1 h
    have hlisted := listed_of_represents hF
    exact ⟨hlisted.perm_channels, ⟨_, (orderedChildren_eq_ok_iff hzero).1 hlisted.root,
      listing_of_lists hzero 0 hlisted.lists⟩, hlisted.depthFits hzero⟩
  · obtain ⟨q, hq⟩ := exists_of_appendTree_error hzero hfuel h
    exact orderFailure_of_orderChain hq

/-- Channel 3 below channel 1, and channel 2 behind it. -/
def nestedChannels : ChannelStore where
  channels := [{ id := 1 }, { id := 2, orderAfterId := 1 }, { id := 3, parentId := 1 }].foldl
    Registry.upsert ∅

theorem tree_accepts_nestedChannels : WellOrdered nestedChannels := by
  have hids : ∀ channel ∈ nestedChannels.channels.values, channel.id ≠ 0 := by decide +kernel
  have htree : nestedChannels.tree = .ok [⟨{ id := 1 }, 0⟩, ⟨{ id := 3, parentId := 1 }, 1⟩,
      ⟨{ id := 2, orderAfterId := 1 }, 0⟩] := by decide +kernel
  exact (tree_accepts hids).1.1 ⟨_, htree⟩

end TsCli.ChannelStore
