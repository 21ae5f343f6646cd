import TsCli.Lib.ForestEdit
import TsCli.State.ChannelStore

/-!
# The channel tree

`tree` returns exactly when the channels with their parents and predecessors are the links of an
ordered forest, and then it returns the outline of that forest (`tree_eq_ok_iff`).

One direction reads a forest off a walk that returned, the other one follows the walk along a given
forest; both go over the forest node by node and use what `orderedChildren` says about the children
of one node (`orderedChildren_eq_ok`, `orderedChildren_of_chain`).
-/

namespace TsCli.ChannelStore

open OrderedForest OrderedForest.Forest Exec

variable {s : ChannelStore}

/-! ## Channels and places -/

/-- The channel of an id. -/
def channelAt (s : ChannelStore) (id : ℕ) : Channel := (s.channels.find? id).getD { id }

/-- Parent and predecessor of each channel. -/
def places (s : ChannelStore) : Places ℕ := fun id =>
  (s.channels.find? id).map fun channel => (channel.parentId, channel.orderAfterId)

/-- The entry of the tree for a node of an outline. -/
def entryAt (s : ChannelStore) (e : ℕ × ℕ) : ChannelTreeEntry := ⟨s.channelAt e.1, e.2⟩

theorem channelAt_of_find? {id : ℕ} {channel : Channel} (h : s.channels.find? id = some channel) :
    s.channelAt id = channel := by
  unfold channelAt; rw [h, Option.getD_some]

theorem places_eq_some_iff {id p o : ℕ} : s.places id = some (p, o) ↔
    s.channels.find? id = some (s.channelAt id) ∧ (s.channelAt id).parentId = p ∧
      (s.channelAt id).orderAfterId = o := by
  unfold places channelAt
  cases h : s.channels.find? id with
  | none => simp
  | some channel => simp

@[simp] theorem id_channelAt (id : ℕ) : (s.channelAt id).id = id := by
  unfold channelAt
  cases h : s.channels.find? id with
  | none => rfl
  | some channel => exact s.channels.key_of_find? h

theorem mem_values_iff {channel : Channel} :
    channel ∈ s.channels.values ↔ s.channels.find? channel.id = some channel :=
  Registry.mem_values_iff

/-! ## The children of one channel -/

/-- Each channel names the one before it, and the first one names `previousId`. -/
def Chain : ℕ → List Channel → Prop
  | _, [] => True
  | previousId, channel :: channels =>
    channel.orderAfterId = previousId ∧ Chain channel.id channels

/-- The channels behind the first one of a chain name channels of the chain. -/
theorem Chain.mem {previousId : ℕ} {channels : List Channel} (h : Chain previousId channels) :
    ∀ channel ∈ channels, channel.orderAfterId = previousId ∧ channels.head? = some channel ∨
      channel.orderAfterId ∈ channels.map Channel.id := by
  induction channels generalizing previousId with
  | nil => nofun
  | cons first channels ih =>
    intro channel hc
    rcases List.mem_cons.1 hc with rfl | hc
    · exact .inl ⟨h.1, rfl⟩
    · refine .inr ?_
      rcases ih h.2 channel hc with ⟨he, -⟩ | hmem
      · rw [he]; exact List.mem_cons_self
      · exact List.mem_cons_of_mem _ hmem

theorem filter_eq_singleton {α : Type*} {l : List α} {p : α → Bool} {a : α} (hl : l.Nodup)
    (ha : a ∈ l) (h : ∀ x ∈ l, p x = true ↔ x = a) : l.filter p = [a] := by
  refine List.perm_singleton.1 ((List.perm_ext_iff_of_nodup (hl.filter p)
    (List.nodup_singleton a)).2 fun x => ?_)
  rw [List.mem_filter, List.mem_singleton]
  exact ⟨fun hx => (h x hx.1).1 hx.2, fun hx => hx ▸ ⟨ha, (h a ha).2 rfl⟩⟩

/-- What the loop returns is a chain of children that were not emitted before. -/
theorem chain_of_orderChain {children : List Channel} :
    ∀ {remaining : ℕ} {emitted : List ℕ} {previousId : ℕ} {ordered : List Channel},
      orderChain children remaining emitted previousId = .ok ordered →
      ordered.length = remaining ∧ Chain previousId ordered ∧
        (∀ channel ∈ ordered, channel ∈ children ∧ channel.id ∉ emitted) ∧
        (ordered.map Channel.id).Nodup := by
  intro remaining
  induction remaining with
  | zero =>
    intro emitted previousId ordered h
    cases h
    exact ⟨rfl, trivial, nofun, List.nodup_nil⟩
  | succ remaining ih =>
    intro emitted previousId ordered h
    rw [orderChain] at h
    split at h
    · cases h
    · rename_i next hnext
      have hmem : next ∈ children ∧ next.id ∉ emitted ∧ next.orderAfterId = previousId := by
        have : next ∈ children.filter fun candidate =>
          candidate.id ∉ emitted ∧ candidate.orderAfterId = previousId := by rw [hnext]; simp
        simpa using List.mem_filter.1 this
      cases hrest : orderChain children remaining (next.id :: emitted) next.id with
      | error e => rw [hrest] at h; cases h
      | ok rest =>
        rw [hrest] at h
        cases h
        obtain ⟨h1, h2, h3, h4⟩ := ih hrest
        refine ⟨congrArg (· + 1) h1, ⟨hmem.2.2, h2⟩, fun channel hc => ?_,
          List.nodup_cons.2 ⟨fun hm => ?_, h4⟩⟩
        · rcases List.mem_cons.1 hc with rfl | hc
          · exact ⟨hmem.1, hmem.2.1⟩
          · exact ⟨(h3 channel hc).1, fun hm => (h3 channel hc).2 (List.mem_cons_of_mem _ hm)⟩
        · obtain ⟨channel, hc, he⟩ := List.mem_map.1 hm
          exact (h3 channel hc).2 (he ▸ List.mem_cons_self)
    · cases h

/-- The loop finds the chain when all the children that are not emitted form one. -/
theorem orderChain_of_chain {children : List Channel} (hnodup : children.Nodup) :
    ∀ {ordered : List Channel} {emitted : List ℕ} {previousId : ℕ}, Chain previousId ordered →
      (ordered.map Channel.id).Nodup → previousId ∉ ordered.map Channel.id →
      (∀ channel ∈ ordered, channel ∈ children ∧ channel.id ∉ emitted) →
      (∀ channel ∈ children, channel.id ∉ emitted → channel ∈ ordered) →
      orderChain children ordered.length emitted previousId = .ok ordered := by
  intro ordered
  induction ordered with
  | nil => intros; rfl
  | cons next rest ih =>
    intro emitted previousId hchain hids hprev hin hout
    have hnext := hin next List.mem_cons_self
    have hfilter : (children.filter fun candidate =>
        candidate.id ∉ emitted ∧ candidate.orderAfterId = previousId) = [next] := by
      refine filter_eq_singleton hnodup hnext.1 fun channel hc => ?_
      rw [decide_eq_true_iff]
      constructor
      · rintro ⟨hne, ho⟩
        rcases hchain.mem channel (hout channel hc hne) with ⟨-, h⟩ | h
        · exact (Option.some.inj h).symm
        · exact absurd (ho ▸ h) hprev
      · rintro rfl
        exact ⟨hnext.2, hchain.1⟩
    rw [List.length_cons, orderChain, hfilter]
    dsimp only
    obtain ⟨hid, hids'⟩ := List.nodup_cons.1 hids
    rw [ih hchain.2 hids' hid (fun channel hc => ⟨(hin channel (List.mem_cons_of_mem _ hc)).1,
      fun hm => ?_⟩) fun channel hc hm => ?_]
    · rfl
    · rcases List.mem_cons.1 hm with he | hm
      · exact hid (he ▸ List.mem_map_of_mem hc)
      · exact (hin channel (List.mem_cons_of_mem _ hc)).2 hm
    · refine (List.mem_cons.1 (hout channel hc fun h => hm (List.mem_cons_of_mem _ h))).resolve_left
        fun he => hm (he ▸ List.mem_cons_self)

/-- `orderedChildren` returns the children as a chain, and returns it when they form one. -/
theorem orderedChildren_eq_ok {parentId : ℕ} {ordered : List Channel}
    (h : s.orderedChildren parentId = .ok ordered) :
    Chain 0 ordered ∧ (ordered.map Channel.id).Nodup ∧
      ∀ channel ∈ ordered, s.channels.find? channel.id = some channel ∧ channel.parentId = parentId := by
  obtain ⟨-, h2, h3, h4⟩ := chain_of_orderChain h
  refine ⟨h2, h4, fun channel hc => ?_⟩
  have := List.mem_filter.1 (h3 channel hc).1
  exact ⟨mem_values_iff.1 this.1, of_decide_eq_true this.2⟩

theorem orderedChildren_of_chain {parentId : ℕ} {ordered : List Channel} (hchain : Chain 0 ordered)
    (hids : (ordered.map Channel.id).Nodup) (hzero : 0 ∉ ordered.map Channel.id)
    (hmem : ∀ channel, channel ∈ ordered ↔
      s.channels.find? channel.id = some channel ∧ channel.parentId = parentId) :
    s.orderedChildren parentId = .ok ordered := by
  have hchildren : ∀ channel, channel ∈ (s.channels.values.filter fun channel =>
      channel.parentId = parentId) ↔ channel ∈ ordered := fun channel => by
    rw [List.mem_filter, mem_values_iff, hmem, decide_eq_true_iff]
  have hnodup := s.channels.nodup_values.filter fun channel => decide (channel.parentId = parentId)
  have hlength : (s.channels.values.filter fun channel =>
      channel.parentId = parentId).length = ordered.length :=
    ((List.perm_ext_iff_of_nodup hnodup (.of_map Channel.id hids)).2 hchildren).length_eq
  unfold orderedChildren
  dsimp only
  rw [hlength]
  exact orderChain_of_chain hnodup hchain hids hzero
    (fun channel hc => ⟨(hchildren channel).2 hc, List.not_mem_nil⟩)
    fun channel hc _ => (hchildren channel).1 hc

/-! ## The children of every channel of a forest -/

/-- The store lists below each node of the forest what the forest has there. -/
def Lists (s : ChannelStore) : Forest ℕ → Prop
  | .nil => True
  | .cons a kids rest =>
    s.orderedChildren a = .ok (kids.tops.map s.channelAt) ∧ Lists s kids ∧ Lists s rest

theorem Lists.of_plug {a : ℕ} {kids rest : Forest ℕ} : ∀ {C : Context ℕ},
    s.Lists (C.plug (.cons a kids rest)) → s.orderedChildren a = .ok (kids.tops.map s.channelAt)
  | .hole, h => h.1
  | .inKids _ C _, h => of_plug (C := C) h.2.1
  | .inRest _ _ C, h => of_plug (C := C) h.2.2

/-- Links that agree with the store make the topmost nodes a chain. -/
theorem chain_tops : ∀ {F : Forest ℕ} {p o : ℕ}, Agrees s.places (F.links 0 p o) →
    Chain o (F.tops.map s.channelAt)
  | .nil, _, _, _ => trivial
  | .cons a kids rest, p, o, h => by
    obtain ⟨hfind, -, ho⟩ := places_eq_some_iff.1 (h ⟨a, p, o⟩ List.mem_cons_self)
    refine ⟨ho, ?_⟩
    rw [id_channelAt]
    exact chain_tops fun l hl => h l (List.mem_cons_of_mem _ (List.mem_append_right _ hl))

theorem map_id_channelAt (l : List ℕ) : (l.map s.channelAt).map Channel.id = l := by
  rw [List.map_map]
  exact (List.map_congr_left fun a _ => id_channelAt a).trans (List.map_id l)

section OfForest

variable {F : Forest ℕ}

theorem find?_of_represents (h : Represents 0 s.places F) {a : ℕ} (ha : a ∈ F.labels) :
    s.channels.find? a = some (s.channelAt a) := by
  obtain ⟨l, hl, rfl⟩ := exists_link (r := 0) (p := 0) (o := 0) ha
  exact (places_eq_some_iff.1 (h.agrees l hl)).1

theorem mem_labels_iff (h : Represents 0 s.places F) {a : ℕ} :
    a ∈ F.labels ↔ s.channels.find? a = some (s.channelAt a) := by
  refine ⟨find?_of_represents h, fun hfind => ?_⟩
  exact h.mem_of_some a _ (places_eq_some_iff.2 ⟨hfind, rfl, rfl⟩)

/-- A part of the forest that has all nodes with parent `p` lists the children of `p`. -/
theorem orderedChildren_of_links (h : Represents 0 s.places F) {G : Forest ℕ} {p : ℕ}
    (hG : ∀ l ∈ G.links 0 p 0, l ∈ F.links 0 0 0) (hnodup : G.labels.Nodup)
    (hp : ∀ l ∈ F.links 0 0 0, l.parent = p → l.label ∈ G.tops) :
    s.orderedChildren p = .ok (G.tops.map s.channelAt) := by
  have hlabels : ∀ a ∈ G.tops, a ∈ F.labels := fun a ha => by
    obtain ⟨q, hq⟩ := exists_link_of_mem_tops (r := 0) (p := p) (o := 0) ha
    exact label_mem (hG _ hq)
  have hids := map_id_channelAt (s := s) G.tops
  refine orderedChildren_of_chain (chain_tops fun l hl => h.agrees l (hG l hl)) ?_ ?_
    fun channel => ⟨fun hc => ?_, fun ⟨hfind, hparent⟩ => ?_⟩
  · rw [hids]
    exact hnodup.sublist (tops_sublist G)
  · rw [hids]
    exact fun h0 => h.root_notMem (hlabels 0 h0)
  · obtain ⟨a, ha, rfl⟩ := List.mem_map.1 hc
    obtain ⟨q, hq⟩ := exists_link_of_mem_tops (r := 0) (p := p) (o := 0) ha
    obtain ⟨hfind, hparent, -⟩ := places_eq_some_iff.1 (h.agrees _ (hG _ hq))
    rw [id_channelAt]
    exact ⟨hfind, hparent⟩
  · have hat := channelAt_of_find? hfind
    have hplace : s.places channel.id = some (p, channel.orderAfterId) :=
      places_eq_some_iff.2 ⟨by rw [hat, hfind], by rw [hat, hparent], by rw [hat]⟩
    obtain ⟨l, hl, he⟩ := exists_link (r := 0) (p := 0) (o := 0) (h.mem_of_some _ _ hplace)
    have hl' := h.agrees l hl
    rw [he, hplace] at hl'
    have := hp l hl (congrArg Prod.fst (Option.some.inj hl')).symm
    rw [he] at this
    rw [← hat]
    exact List.mem_map_of_mem this

/-- Going down the forest: the parts that have all nodes with a parent inside. -/
theorem lists_of_links (h : Represents 0 s.places F) : ∀ {G : Forest ℕ} {p o : ℕ},
    (∀ l ∈ G.links 0 p o, l ∈ F.links 0 0 0) →
    (∀ l ∈ F.links 0 0 0, l.parent ∈ G.labels → l ∈ G.links 0 p o) → G.labels.Nodup →
    p ∉ G.labels → s.Lists G
  | .nil, _, _, _, _, _, _ => trivial
  | .cons a kids rest, p, o, hG, hF, hnodup, hp => by
    simp only [labels, List.nodup_cons, List.nodup_append, List.mem_append, List.mem_cons,
      not_or] at hnodup hp
    obtain ⟨⟨hak, har⟩, hk, hr, hkr⟩ := hnodup
    have hsub : ∀ l, l ∈ kids.links 0 a 0 ∨ l ∈ rest.links 0 p a → l ∈ F.links 0 0 0 :=
      fun l hl => hG l (List.mem_cons_of_mem _ (List.mem_append.2 hl))
    have hrest : ∀ l ∈ rest.links 0 p a, l.parent = p ∨ l.parent ∈ rest.labels := fun l hl =>
      (Forest.mem_links_cases hl).imp And.left And.left
    have hkids : ∀ l ∈ kids.links 0 a 0, l.parent = a ∨ l.parent ∈ kids.labels := fun l hl =>
      (Forest.mem_links_cases hl).imp And.left And.left
    have hcases : ∀ l ∈ F.links 0 0 0, l.parent = a ∨ l.parent ∈ kids.labels →
        l ∈ kids.links 0 a 0 := by
      intro l hl hparent
      have hmem := hF l hl (hparent.elim (fun he => he ▸ List.mem_cons_self)
        fun hm => List.mem_cons_of_mem _ (List.mem_append_left _ hm))
      rw [links, List.mem_cons, List.mem_append] at hmem
      rcases hmem with rfl | hmem | hmem
      · exact absurd hparent (not_or.2 ⟨hp.1, hp.2.1⟩)
      · exact hmem
      · rcases hrest l hmem with he | hm <;> rcases hparent with hpa | hpk
        · exact absurd (he.symm.trans hpa) hp.1
        · exact absurd (he ▸ hpk) hp.2.1
        · exact absurd (hpa ▸ hm) har
        · exact absurd rfl (hkr _ hpk _ hm)
    refine ⟨orderedChildren_of_links h (fun l hl => hsub l (.inl hl)) hk fun l hl he => ?_,
      lists_of_links h (fun l hl => hsub l (.inl hl)) (fun l hl hm => hcases l hl (.inr hm)) hk hak,
      lists_of_links h (fun l hl => hsub l (.inr hl)) (fun l hl hm => ?_) hr hp.2.2⟩
    · exact mem_tops_of_link hak (hcases l hl (.inl he)) he
    · have hmem := hF l hl (List.mem_cons_of_mem _ (List.mem_append_right _ hm))
      rw [links, List.mem_cons, List.mem_append] at hmem
      rcases hmem with rfl | hmem | hmem
      · exact absurd hm hp.2.2
      · rcases hkids l hmem with he | hk'
        · exact absurd (he ▸ hm) har
        · exact absurd rfl (hkr _ hk' _ hm)
      · exact hmem

end OfForest

/-! ## The walk -/

/-- What `appendTree` does with a channel. -/
def visit (s : ChannelStore) (fuel depth : ℕ) (channel : Channel) : EStateM Failure Walk Unit := do
  let walk ← get
  if channel.id ∈ walk.visited then
    throw (.runtimeError "Channel hierarchy contains a cycle")
  else
    set { visited := insert channel.id walk.visited
          result := walk.result ++ [{ channel, depth }] : Walk }
    appendTree s fuel channel.id (depth + 1)

theorem appendTree_succ (fuel parentId depth : ℕ) : s.appendTree (fuel + 1) parentId depth =
    lift (s.orderedChildren parentId) >>= fun children => forM children (s.visit fuel depth) := rfl

theorem visit_of_notMem {fuel depth : ℕ} {channel : Channel} {walk : Walk}
    (h : channel.id ∉ walk.visited) : s.visit fuel depth channel walk =
      s.appendTree fuel channel.id (depth + 1)
        ⟨insert channel.id walk.visited, walk.result ++ [⟨channel, depth⟩]⟩ := by
  unfold visit
  rw [run_get_bind, if_neg h]
  rfl

theorem notMem_of_visit {fuel depth : ℕ} {channel : Channel} {walk walk' : Walk}
    (h : s.visit fuel depth channel walk = .ok () walk') : channel.id ∉ walk.visited := by
  intro hm
  unfold visit at h
  rw [run_get_bind, if_pos hm] at h
  cases h

/-- The walk has gone over a forest at some depth. -/
def Walk.Covers (s : ChannelStore) (depth : ℕ) (F : Forest ℕ) (walk walk' : Walk) : Prop :=
  (∀ a, a ∈ walk'.visited ↔ a ∈ walk.visited ∨ a ∈ F.labels) ∧
    walk'.result = walk.result ++ (F.outline depth).map s.entryAt

/-- A node, then what is below it, then what is behind it. -/
theorem Walk.Covers.cons {depth a : ℕ} {kids rest : Forest ℕ} {walk walk₁ walk₂ : Walk}
    (h₁ : Walk.Covers s (depth + 1) kids
      ⟨insert a walk.visited, walk.result ++ [⟨s.channelAt a, depth⟩]⟩ walk₁)
    (h₂ : Walk.Covers s depth rest walk₁ walk₂) :
    Walk.Covers s depth (.cons a kids rest) walk walk₂ := by
  refine ⟨fun b => ?_, ?_⟩
  · rw [h₂.1, h₁.1, Finset.mem_insert, labels, List.mem_cons, List.mem_append]
    tauto
  · rw [h₂.2, h₁.2, outline]
    simp [entryAt]

/-- The walk goes over a forest that the store lists. -/
theorem forM_visit : ∀ (F : Forest ℕ) (fuel depth : ℕ) (walk : Walk), s.Lists F →
    F.labels.length ≤ fuel → F.labels.Nodup →
    (∀ a ∈ F.labels, s.channels.find? a = some (s.channelAt a) ∧ a ∉ walk.visited) →
    ∃ walk', forM (F.tops.map s.channelAt) (s.visit fuel depth) walk = .ok () walk' ∧
      Walk.Covers s depth F walk walk'
  | .nil, _, _, walk, _, _, _, _ => ⟨walk, rfl, by simp [Walk.Covers, labels, outline]⟩
  | .cons a kids rest, fuel, depth, walk, hlists, hfuel, hnodup, hmem => by
    simp only [labels, List.length_cons, List.length_append, List.nodup_cons, List.nodup_append,
      List.mem_append, not_or] at hfuel hnodup
    obtain ⟨⟨hak, har⟩, hk, hr, hkr⟩ := hnodup
    obtain ⟨fuel, rfl⟩ : ∃ n, fuel = n + 1 := Nat.exists_eq_succ_of_ne_zero (by omega)
    obtain ⟨hfind, hnew⟩ := hmem a List.mem_cons_self
    have hid := id_channelAt (s := s) a
    obtain ⟨walk₁, hrun₁, hover₁⟩ := forM_visit kids fuel (depth + 1)
      ⟨insert a walk.visited, walk.result ++ [⟨s.channelAt a, depth⟩]⟩ hlists.2.1
      (by omega) hk fun b hb => by
        have := hmem b (List.mem_cons_of_mem _ (List.mem_append_left _ hb))
        refine ⟨this.1, fun hi => ?_⟩
        exact (Finset.mem_insert.1 hi).elim (fun he => hak (he ▸ hb)) this.2
    obtain ⟨walk₂, hrun₂, hover₂⟩ := forM_visit rest (fuel + 1) depth walk₁
      hlists.2.2 (by omega) hr fun b hb => by
        have := hmem b (List.mem_cons_of_mem _ (List.mem_append_right _ hb))
        refine ⟨this.1, fun hv => ?_⟩
        rcases (hover₁.1 b).1 hv with hv | hv
        · exact (Finset.mem_insert.1 hv).elim (fun he => har (he ▸ hb)) this.2
        · exact hkr b hv b hb rfl
    refine ⟨walk₂, ?_, hover₁.cons hover₂⟩
    have hvisit : s.visit (fuel + 1) depth (s.channelAt a) walk = .ok () walk₁ := by
      rw [visit_of_notMem (by rw [hid]; exact hnew), hid, appendTree_succ,
        run_lift_bind_ok hlists.1]
      exact hrun₁
    rw [tops, List.map_cons, List.forM_cons, run_bind_of_ok _ hvisit]
    exact hrun₂

/-- A walk over a forest of channels that it had not visited. -/
structure Walked (s : ChannelStore) (depth : ℕ) (F : Forest ℕ) (walk walk' : Walk) : Prop where
  covers : Walk.Covers s depth F walk walk'
  lists : s.Lists F
  nodup : F.labels.Nodup
  fresh : ∀ a ∈ F.labels, s.channels.find? a = some (s.channelAt a) ∧ a ∉ walk.visited

/-- A walk that returned went over a forest. -/
theorem exists_walked : ∀ (fuel : ℕ) {p depth : ℕ} {walk walk' : Walk},
    s.appendTree fuel p depth walk = .ok () walk' →
    ∃ F, s.orderedChildren p = .ok (F.tops.map s.channelAt) ∧ Walked s depth F walk walk' := by
  intro fuel
  induction fuel with
  | zero => intro p depth walk walk' h; cases h
  | succ fuel ih =>
    have hlist : ∀ {depth : ℕ} (channels : List Channel) {walk walk' : Walk},
        (∀ channel ∈ channels, s.channels.find? channel.id = some channel) →
        forM channels (s.visit fuel depth) walk = .ok () walk' →
        ∃ F, channels = F.tops.map s.channelAt ∧ Walked s depth F walk walk' := by
      intro depth channels
      induction channels with
      | nil =>
        intro walk walk' _ h
        cases h
        exact ⟨.nil, rfl, by simp [Walk.Covers, labels, outline], trivial, List.nodup_nil, nofun⟩
      | cons channel channels ihl =>
        intro walk walk' hmem h
        rw [List.forM_cons] at h
        obtain ⟨⟨⟩, walk₁, hvisit, hrest⟩ := (run_bind_eq_ok_iff _).1 h
        have hnew := notMem_of_visit hvisit
        rw [visit_of_notMem hnew] at hvisit
        obtain ⟨kids, hkids, hwalked₁⟩ := ih hvisit
        obtain ⟨rest, rfl, hwalked₂⟩ := ihl (fun c hc => hmem c (List.mem_cons_of_mem _ hc)) hrest
        have hfind := hmem channel List.mem_cons_self
        have hat := channelAt_of_find? hfind
        have hfresh₁ : ∀ b ∈ kids.labels, b ≠ channel.id ∧ b ∉ walk.visited := fun b hb => by
          have := (hwalked₁.fresh b hb).2
          rw [Finset.mem_insert, not_or] at this
          exact this
        have hfresh₂ : ∀ b ∈ rest.labels,
            b ≠ channel.id ∧ b ∉ walk.visited ∧ b ∉ kids.labels := fun b hb => by
          have := (hwalked₂.fresh b hb).2
          rw [hwalked₁.covers.1, Finset.mem_insert, not_or, not_or] at this
          exact ⟨this.1.1, this.1.2, this.2⟩
        refine ⟨.cons channel.id kids rest, by rw [tops, List.map_cons, hat],
          (by rw [hat]; exact hwalked₁.covers : Walk.Covers ..).cons hwalked₂.covers,
          ⟨hkids, hwalked₁.lists, hwalked₂.lists⟩, ?_, fun b hb => ?_⟩
        · refine List.nodup_cons.2 ⟨fun hm => ?_, List.nodup_append.2 ⟨hwalked₁.nodup,
            hwalked₂.nodup, fun b hb b' hb' he => (hfresh₂ b' hb').2.2 (he ▸ hb)⟩⟩
          exact (List.mem_append.1 hm).elim (fun hm => (hfresh₁ _ hm).1 rfl)
            fun hm => (hfresh₂ _ hm).1 rfl
        · rcases List.mem_cons.1 hb with rfl | hb
          · exact ⟨by rw [hat, hfind], hnew⟩
          · rcases List.mem_append.1 hb with hb | hb
            · exact ⟨(hwalked₁.fresh b hb).1, (hfresh₁ b hb).2⟩
            · exact ⟨(hwalked₂.fresh b hb).1, (hfresh₂ b hb).2.1⟩
    intro p depth walk walk' h
    rw [appendTree_succ] at h
    cases hchildren : s.orderedChildren p with
    | error e => rw [run_lift_bind_error hchildren] at h; cases h
    | ok children =>
      rw [run_lift_bind_ok hchildren] at h
      obtain ⟨F, rfl, hwalked⟩ := hlist children
        (fun channel hc => ((orderedChildren_eq_ok hchildren).2.2 channel hc).1) h
      exact ⟨F, rfl, hwalked⟩

/-! ## The tree -/

/-- The channels that a forest lists have the links of that forest. -/
theorem agrees_of_lists : ∀ {F : Forest ℕ} {p o : ℕ}, s.Lists F →
    (∀ a ∈ F.labels, s.channels.find? a = some (s.channelAt a)) →
    Chain o (F.tops.map s.channelAt) → (∀ a ∈ F.tops, (s.channelAt a).parentId = p) →
    Agrees s.places (F.links 0 p o)
  | .nil, _, _, _, _, _, _ => nofun
  | .cons a kids rest, p, o, hlists, hfind, hchain, hparent => by
    have ha := hfind a List.mem_cons_self
    obtain ⟨hkids, -, hkidsParent⟩ := orderedChildren_eq_ok hlists.1
    intro l hl
    rw [links, List.mem_cons, List.mem_append] at hl
    rcases hl with rfl | hl | hl
    · exact places_eq_some_iff.2 ⟨ha, hparent a List.mem_cons_self, hchain.1⟩
    · exact agrees_of_lists hlists.2.1
        (fun b hb => hfind b (List.mem_cons_of_mem _ (List.mem_append_left _ hb))) hkids
        (fun b hb => (hkidsParent _ (List.mem_map_of_mem hb)).2) l hl
    · refine agrees_of_lists hlists.2.2
        (fun b hb => hfind b (List.mem_cons_of_mem _ (List.mem_append_right _ hb))) ?_
        (fun b hb => hparent b (List.mem_cons_of_mem _ hb)) l hl
      rw [← id_channelAt (s := s) a]
      exact hchain.2

/-- The labels of a forest with all the channels are their ids. -/
theorem perm_labels {F : Forest ℕ} (hnodup : F.labels.Nodup)
    (hmem : ∀ a, a ∈ F.labels ↔ s.channels.find? a = some (s.channelAt a)) :
    F.labels.Perm (s.channels.values.map Channel.id) := by
  refine (List.perm_ext_iff_of_nodup hnodup s.channels.nodup_map_key_values).2 fun a => ?_
  rw [hmem, List.mem_map]
  constructor
  · exact fun h => ⟨s.channelAt a, mem_values_iff.2 (by rw [id_channelAt]; exact h),
      id_channelAt a⟩
  · rintro ⟨channel, hc, rfl⟩
    rw [mem_values_iff.1 hc, channelAt_of_find? (mem_values_iff.1 hc)]

/-- The walk does not find the root among its nodes. -/
theorem zero_notMem_labels {F : Forest ℕ} (hnodup : F.labels.Nodup) (hlists : s.Lists F)
    (hroot : s.orderedChildren 0 = .ok (F.tops.map s.channelAt)) : 0 ∉ F.labels := by
  intro h0
  obtain ⟨C, kids, rest, rfl⟩ := Context.exists_plug h0
  have htops := hlists.of_plug.symm.trans hroot
  cases hplug : C.plug (.cons 0 kids rest) with
  | nil => rw [hplug] at h0; cases h0
  | cons b k r =>
    have hb := Context.head_not_below hplug hnodup
    rw [hplug] at htops
    have hmap := congrArg (List.map Channel.id) (Except.ok.inj htops)
    rw [map_id_channelAt, map_id_channelAt] at hmap
    exact hb ((tops_sublist kids).subset (hmap ▸ List.mem_cons_self))

/-- A listing with as many entries as there are channels has walked the forest they link. -/
theorem represents_of_walk {F : Forest ℕ} (hroot : s.orderedChildren 0 = .ok (F.tops.map s.channelAt))
    (hlists : s.Lists F) (hnodup : F.labels.Nodup)
    (hfind : ∀ a ∈ F.labels, s.channels.find? a = some (s.channelAt a))
    (hsize : (F.outline 0).length = s.channels.size) : Represents 0 s.places F := by
  have hall : ∀ a, a ∈ F.labels ↔ s.channels.find? a = some (s.channelAt a) := by
    have hsub : F.labels.Subperm (s.channels.values.map Channel.id) :=
      List.subperm_of_subset hnodup fun a ha => List.mem_map.2 ⟨s.channelAt a,
        mem_values_iff.2 (by rw [id_channelAt]; exact hfind a ha), id_channelAt a⟩
    have hperm := hsub.perm_of_length_le (by
      rw [List.length_map, Registry.length_values, ← hsize, ← map_fst_outline 0 F,
        List.length_map])
    refine fun a => ⟨hfind a, fun ha => hperm.mem_iff.2 (List.mem_map.2 ⟨s.channelAt a,
      mem_values_iff.2 (by rw [id_channelAt]; exact ha), id_channelAt a⟩)⟩
  obtain ⟨hchain, -, hparent⟩ := orderedChildren_eq_ok hroot
  refine ⟨hnodup, zero_notMem_labels hnodup hlists hroot,
    agrees_of_lists hlists hfind hchain fun a ha => (hparent _ (List.mem_map_of_mem ha)).2,
    fun a place ha => ?_⟩
  exact (hall a).2 (places_eq_some_iff.1 (show s.places a = some (place.1, place.2) from ha)).1

/-- In a forest of links every channel has a parent that is the root or known. -/
theorem not_any_unknown_parent {F : Forest ℕ} (hF : Represents 0 s.places F) :
    ¬ (s.channels.values.any fun channel =>
      channel.parentId ≠ 0 ∧ !s.channels.contains channel.parentId) = true := by
  rw [List.any_eq_true]
  rintro ⟨channel, hc, hbad⟩
  have hfind := mem_values_iff.1 hc
  have hat := channelAt_of_find? hfind
  obtain ⟨l, hl, he⟩ := exists_link (r := 0) (p := 0) (o := 0)
    ((mem_labels_iff hF).2 (by rw [hat, hfind]) : channel.id ∈ F.labels)
  obtain ⟨-, hparent, -⟩ := places_eq_some_iff.1 (hF.agrees l hl)
  rw [he, hat] at hparent
  obtain ⟨hne, hunknown⟩ : channel.parentId ≠ 0 ∧
    s.channels.contains channel.parentId = false := by simpa using hbad
  rcases Forest.mem_links_cases hl with ⟨h0, -⟩ | ⟨hm, -⟩
  · exact hne (hparent.trans h0)
  · rw [← hparent] at hm
    exact Bool.false_ne_true (hunknown.symm.trans
      (Registry.contains_iff.2 ⟨_, (mem_labels_iff hF).1 hm⟩))

/-- Over the links of a forest the walk writes its outline. -/
theorem exists_walk_of_represents {F : Forest ℕ} (hF : Represents 0 s.places F) :
    ∃ walk, s.appendTree (s.channels.size + 1) 0 0 {} = .ok () walk ∧
      walk.result = (F.outline 0).map s.entryAt ∧ walk.result.length = s.channels.size := by
  have hperm := perm_labels hF.nodup fun a => mem_labels_iff hF
  have hlength : F.labels.length = s.channels.size := by
    rw [hperm.length_eq, List.length_map, Registry.length_values]
  obtain ⟨walk, hwalk, hover⟩ := forM_visit F s.channels.size 0 {}
    (lists_of_links hF (p := 0) (o := 0) (fun _ h => h) (fun _ h _ => h) hF.nodup
      hF.root_notMem) hlength.le hF.nodup
    fun a ha => ⟨find?_of_represents hF ha, Finset.notMem_empty a⟩
  have hresult : walk.result = (F.outline 0).map s.entryAt := by
    rw [hover.2]; exact List.nil_append _
  refine ⟨walk, ?_, hresult, ?_⟩
  · rw [appendTree_succ, run_lift_bind_ok (orderedChildren_of_links hF (fun _ h => h) hF.nodup
      fun l hl he => mem_tops_of_link hF.root_notMem hl he)]
    exact hwalk
  · rw [hresult, List.length_map, ← hlength, ← map_fst_outline 0 F, List.length_map]

/-- `tree` returns exactly the outline of the forest that the channels are the links of. -/
theorem tree_eq_ok_iff {entries : List ChannelTreeEntry} : s.tree = .ok entries ↔
    ∃ F, Represents 0 s.places F ∧ entries = (F.outline 0).map s.entryAt := by
  unfold tree
  constructor
  · intro h
    split_ifs at h with hparents
    split at h
    · rename_i walk hwalk
      split_ifs at h with hsize
      obtain rfl := Except.ok.inj h
      obtain ⟨F, hroot, hover, hlists, hnodup, hfresh⟩ := exists_walked _ hwalk
      have hresult : walk.result = (F.outline 0).map s.entryAt := by
        rw [hover.2]; exact List.nil_append _
      refine ⟨F, represents_of_walk hroot hlists hnodup (fun a ha => (hfresh a ha).1) ?_, hresult⟩
      rw [← not_ne_iff.1 hsize, hresult, List.length_map]
    · cases h
  · rintro ⟨F, hF, rfl⟩
    obtain ⟨walk, hwalk, hresult, hsize⟩ := exists_walk_of_represents hF
    rw [if_neg (not_any_unknown_parent hF), hwalk]
    dsimp only
    rw [if_neg (not_ne_iff.2 hsize), hresult]

end TsCli.ChannelStore
