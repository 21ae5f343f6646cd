import TsCli.Client.NetworkRuntime
import TsCli.Lib.TreeDrawing
import TsCli.State.ChannelTree

/-!
# The listing of the channel tree

`FormatChannelTree` goes once over the entries of the tree, and keeps for each level above the
current entry whether the channel there is the last of its siblings. What it prints is the drawing
of the forest of channels, in which the clients of a channel are leaves in front of its
subchannels (`formatChannelTree_whole`, `formatChannelTree_subtree`).
-/

namespace TsCli

open OrderedForest OrderedForest.Forest Exec

namespace ClientStore

/-- The comparison with which `InChannel` sorts. -/
def comesBefore (left right : Client) : Bool :=
  if left.detailsKnown ≠ right.detailsKnown then left.detailsKnown && !right.detailsKnown
  else if left.nickname ≠ right.nickname then left.nickname < right.nickname
  else left.id < right.id

/-- `ClientStore::InChannel`. -/
def inChannel (clients : ClientStore) (channelId : ℕ) : List Client :=
  (clients.values.filter fun client => client.channelId = channelId).mergeSort
    fun left right => !comesBefore right left

theorem comesBefore_iff {left right : Client} : comesBefore left right = true ↔
    (left.detailsKnown = true ∧ right.detailsKnown = false) ∨
      (left.detailsKnown = right.detailsKnown ∧ (left.nickname < right.nickname ∨
        (left.nickname = right.nickname ∧ left.id < right.id))) := by
  have hirrefl : ¬ left.nickname < left.nickname := List.lt_irrefl _
  unfold comesBefore
  grind

theorem nickname_trichotomy (x y : Bytes) : x < y ∨ x = y ∨ y < x := by
  by_cases hxy : x < y
  · exact .inl hxy
  by_cases hyx : y < x
  · exact .inr (.inr hyx)
  exact .inr (.inl (List.le_antisymm (List.not_lt.1 hyx) (List.not_lt.1 hxy)))

theorem not_comesBefore_trans (a b c : Client) (hab : (!comesBefore b a) = true)
    (hbc : (!comesBefore c b) = true) : (!comesBefore c a) = true := by
  simp only [Bool.not_eq_true', ← Bool.not_eq_true, comesBefore_iff] at *
  have hlt : c.nickname < a.nickname → c.nickname < b.nickname ∨ b.nickname < a.nickname := by
    intro h
    rcases nickname_trichotomy c.nickname b.nickname with hb | hb | hb
    · exact .inl hb
    · exact .inr (hb ▸ h)
    · exact .inr (List.lt_trans hb h)
  have heq := nickname_trichotomy b.nickname a.nickname
  grind

theorem not_comesBefore_total (a b : Client) :
    (!comesBefore b a || !comesBefore a b) = true := by
  have hasymm : a.nickname < b.nickname → ¬ b.nickname < a.nickname :=
    fun h1 h2 => List.lt_irrefl _ (List.lt_trans h1 h2)
  unfold comesBefore
  grind

/-- The clients of a channel, each before those that do not come before it. -/
theorem pairwise_inChannel (clients : ClientStore) (channelId : ℕ) :
    (clients.inChannel channelId).Pairwise fun left right => (!comesBefore right left) = true :=
  List.pairwise_mergeSort not_comesBefore_trans not_comesBefore_total _

theorem perm_inChannel (clients : ClientStore) (channelId : ℕ) :
    (clients.inChannel channelId).Perm
      (clients.values.filter fun client => client.channelId = channelId) :=
  List.mergeSort_perm ..

end ClientStore

namespace ChannelTreeView

/-! ## `channel_tree_view.cpp` -/

/-- `ChannelTreeRange`; `stop` is its `end`. -/
structure ChannelTreeRange where
  first : ℕ := 0
  stop : ℕ := 0
  baseDepth : ℕ := 0
  rootIsUnadorned : Bool := false
  deriving DecidableEq, Repr

/-- The branches. -/
def pen : Pen UInt8 where
  bar := ascii "│   "
  blank := ascii "    "
  tee := ascii "├── "
  elbow := ascii "└── "

/-- `IsLastSibling`; `following` are the entries behind the one at `depth`. -/
def isLastSibling (depth : ℕ) (following : List ChannelTreeEntry) : Bool :=
  match following.find? fun next => next.depth ≤ depth with
  | some next => next.depth ≠ depth
  | none => true

/-- `hasSubchannel` of an entry at `depth`. -/
def hasSubchannel (depth : ℕ) (following : List ChannelTreeEntry) : Bool :=
  match following with
  | next :: _ => depth < next.depth
  | [] => false

/-- `AppendPrefix`. -/
def appendPrefix (ancestorLast : List Bool) (columns : ℕ) : Bytes :=
  pen.columns (ancestorLast.take columns)

/-- `std::vector<bool>::resize`. -/
def resize (ancestorLast : List Bool) (depth : ℕ) : List Bool :=
  ancestorLast.take depth ++ List.replicate (depth - ancestorLast.length) false

/-- `FormatClientStatus`. -/
def formatClientStatus (client : Client) (selfId : ℕ) : Bytes :=
  let add (condition : Bool) (status : String) : Bytes :=
    if condition then ascii " [" ++ ascii status ++ ascii "]" else []
  add (client.id = selfId) "you" ++
    if !client.detailsKnown then add true "loading"
    else
      add client.away "afk" ++ add client.inputMuted "mic muted" ++
        add client.outputMuted "sound muted" ++ add (!client.inputHardware) "mic disabled" ++
        add (!client.outputHardware) "sound disabled" ++ add client.recording "recording" ++
        add client.prioritySpeaker "priority speaker" ++
        add client.channelCommander "channel commander" ++ add client.serverQuery "query"

/-- The text of a channel, behind its branches. -/
def channelText (channel : Channel) : Bytes :=
  ascii "[" ++ numberText 10 channel.id ++ ascii "] " ++ channel.name ++
    (if channel.defaultChannel then ascii " [default]" else []) ++
    (if channel.passwordProtected then ascii " [password]" else []) ++
    (if channel.permanent then ascii " [permanent]"
    else if channel.semiPermanent then ascii " [semi-permanent]" else [])

/-- The text of a client, behind its branches. -/
def clientText (selfClientId : ℕ) (client : Client) : Bytes :=
  (if client.detailsKnown && client.nickname ≠ [] then client.nickname
    else ascii "client " ++ numberText 10 client.id) ++
    ascii " [" ++ numberText 10 client.id ++ ascii "]" ++ formatClientStatus client selfClientId

/-- The loop of `FormatChannelTree` over the clients of a channel. -/
def clientLines (selfClientId : ℕ) (ancestorLast : List Bool) (columns : ℕ) (subchannel : Bool)
    (channelClients : List Client) : List Bytes :=
  channelClients.mapIdx fun clientIndex client =>
    let isLastClient := decide (clientIndex + 1 = channelClients.length) && !subchannel
    appendPrefix ancestorLast columns ++ (pen.connector isLastClient ++
      clientText selfClientId client)

/-- The loop of `FormatChannelTree` over the entries of the range. -/
def formatEntries (baseDepth : ℕ) (rootIsUnadorned : Bool) (clients : ClientStore)
    (selfClientId : ℕ) : List Bool → List ChannelTreeEntry → List Bytes
  | _, [] => []
  | ancestorLast, entry :: following =>
    let depth := entry.depth - baseDepth
    let isRoot := rootIsUnadorned && depth = 0
    let isLast := isLastSibling entry.depth following
    let ancestors := resize ancestorLast depth
    let branches := if isRoot then [] else appendPrefix ancestors depth ++ pen.connector isLast
    (branches ++ channelText entry.channel) ::
      (clientLines selfClientId (ancestors ++ [isLast]) (depth + 1)
          (hasSubchannel entry.depth following) (clients.inChannel entry.channel.id) ++
        formatEntries baseDepth rootIsUnadorned clients selfClientId (ancestors ++ [isLast])
          following)

/-- `FormatChannelTree`. -/
def formatChannelTree (tree : List ChannelTreeEntry) (range : ChannelTreeRange)
    (clients : ClientStore) (selfClientId : ℕ) : List Bytes :=
  formatEntries range.baseDepth range.rootIsUnadorned clients selfClientId []
    ((tree.take range.stop).drop range.first)

/-! ## What is drawn -/

section Drawn

variable (s : ChannelStore) (clients : ClientStore) (selfClientId : ℕ)

/-- The texts of the clients of a channel. -/
def clientTexts (c : ℕ) : List Bytes := (clients.inChannel c).map (clientText selfClientId)

/-- The forest of the texts: each channel with its clients in front of its subchannels. -/
def texts (F : Forest ℕ) : Forest Bytes :=
  F.withLeaves (fun c => channelText (s.channelAt c)) (clientTexts clients selfClientId)

variable {s clients selfClientId}

theorem resize_of_le {ancestorLast : List Bool} {depth : ℕ} (h : depth ≤ ancestorLast.length) :
    resize ancestorLast depth = ancestorLast.take depth := by
  rw [resize, Nat.sub_eq_zero_of_le h, List.replicate_zero, List.append_nil]

/-- What comes behind a forest does not belong to its topmost level. -/
def Behind (n : ℕ) (after : List ChannelTreeEntry) : Prop :=
  ∀ e, after.head? = some e → e.depth < n

theorem Behind.of_outline {n : ℕ} {after : List ChannelTreeEntry} (h : Behind n after)
    (rest : Forest ℕ) : Behind (n + 1) ((rest.outline n).map s.entryAt ++ after) := by
  intro e he
  cases rest with
  | nil => exact (h e he).trans (Nat.lt_succ_self n)
  | cons b kids rest => cases he; exact Nat.lt_succ_self n

/-- A channel is the last of its siblings if no channel stands behind it in the forest. -/
theorem isLastSibling_outline {n : ℕ} {after : List ChannelTreeEntry} (h : Behind n after)
    (kids rest : Forest ℕ) :
    isLastSibling n ((kids.outline (n + 1)).map s.entryAt ++
      ((rest.outline n).map s.entryAt ++ after)) = rest.isNil := by
  have hkids : ((kids.outline (n + 1)).map s.entryAt).find? (fun next => next.depth ≤ n) = none := by
    rw [List.find?_eq_none]
    intro e he
    obtain ⟨x, hx, rfl⟩ := List.mem_map.1 he
    have hdeep : ¬ x.2 ≤ n := Nat.not_le.2 (le_of_mem_outline hx)
    exact fun hle => hdeep (of_decide_eq_true hle)
  rw [isLastSibling, List.find?_append, hkids, Option.none_or]
  cases rest with
  | cons b kids' rest => simp [Forest.outline, ChannelStore.entryAt, isNil]
  | nil =>
    cases after with
    | nil => rfl
    | cons e after =>
      have he := h e rfl
      simp [Forest.outline, isNil, he.le, he.ne]

/-- A channel has a subchannel if the entry behind it is deeper. -/
theorem hasSubchannel_outline {n : ℕ} {after : List ChannelTreeEntry} (h : Behind n after)
    (kids rest : Forest ℕ) :
    hasSubchannel n ((kids.outline (n + 1)).map s.entryAt ++
      ((rest.outline n).map s.entryAt ++ after)) = !kids.isNil := by
  cases kids with
  | cons b kids kids' => simp [hasSubchannel, Forest.outline, ChannelStore.entryAt, isNil]
  | nil =>
    cases rest with
    | cons b kids rest => simp [hasSubchannel, Forest.outline, ChannelStore.entryAt, isNil]
    | nil =>
      cases after with
      | nil => rfl
      | cons e after => simpa [hasSubchannel, Forest.outline, isNil] using (h e rfl).le

/-- The clients of a channel are drawn as leaves in front of its subchannels. -/
theorem clientLines_append (s : ChannelStore) (clients : ClientStore) (selfClientId : ℕ)
    (ancestors : List Bool) (c : ℕ) (kids : Forest ℕ) :
    clientLines selfClientId ancestors ancestors.length (!kids.isNil) (clients.inChannel c) ++
        (texts s clients selfClientId kids).draw pen (pen.columns ancestors) =
      (sprout (clientTexts clients selfClientId c) (texts s clients selfClientId kids)).draw pen
        (pen.columns ancestors) := by
  rw [clientTexts, draw_sprout, clientLines]
  simp [texts, appendPrefix]

/-- The loop draws a forest and goes on behind it. The channels at the levels above the forest stay
in `ancestorLast`, which is all that the entries behind the forest use. -/
theorem formatEntries_outline (s : ChannelStore) (clients : ClientStore) (selfClientId : ℕ)
    (baseDepth : ℕ) (rootIsUnadorned : Bool) :
    ∀ (F : Forest ℕ) {d : ℕ} (ancestorLast : List Bool) {after : List ChannelTreeEntry},
      (rootIsUnadorned = true → 0 < d) → d ≤ ancestorLast.length → Behind (baseDepth + d) after →
      ∃ ancestorLast', ancestorLast'.take d = ancestorLast.take d ∧ d ≤ ancestorLast'.length ∧
        formatEntries baseDepth rootIsUnadorned clients selfClientId ancestorLast
            ((F.outline (baseDepth + d)).map s.entryAt ++ after) =
          (texts s clients selfClientId F).draw pen (pen.columns (ancestorLast.take d)) ++
            formatEntries baseDepth rootIsUnadorned clients selfClientId ancestorLast' after
  | .nil, d, ancestorLast, after, _, hlength, _ => ⟨ancestorLast, rfl, hlength, rfl⟩
  | .cons c kids rest, d, ancestorLast, after, hroot, hlength, hafter => by
    have hkept : (ancestorLast.take d ++ [rest.isNil]).length = d + 1 := by
      rw [List.length_append, List.length_take, min_eq_left hlength]
      rfl
    obtain ⟨last₁, htake₁, hlength₁, hkids⟩ := formatEntries_outline s clients selfClientId
      baseDepth rootIsUnadorned kids (ancestorLast.take d ++ [rest.isNil])
      (fun _ => Nat.succ_pos d) hkept.ge (hafter.of_outline (s := s) rest)
    rw [List.take_of_length_le hkept.le] at htake₁ hkids
    have htake : last₁.take d = ancestorLast.take d := by
      have hd : d ≤ (ancestorLast.take d).length := by rw [List.length_take, min_eq_left hlength]
      have := congrArg (List.take d) htake₁
      rwa [List.take_take, min_eq_left (Nat.le_succ d), List.take_append_of_le_length hd,
        List.take_take, min_self] at this
    obtain ⟨last₂, htake₂, hlength₂, hrest⟩ := formatEntries_outline s clients selfClientId
      baseDepth rootIsUnadorned rest last₁ hroot ((Nat.le_succ d).trans hlength₁) hafter
    refine ⟨last₂, htake₂.trans htake, hlength₂, ?_⟩
    have hadorned : ¬ (rootIsUnadorned && decide (d = 0)) = true := by
      intro h
      rw [Bool.and_eq_true, decide_eq_true_eq] at h
      exact (hroot h.1).ne' h.2
    have hclients := clientLines_append s clients selfClientId (ancestorLast.take d ++ [rest.isNil]) c kids
    rw [hkept] at hclients
    rw [Forest.outline, List.map_cons, List.map_append, List.cons_append, List.append_assoc,
      formatEntries]
    simp only [ChannelStore.entryAt, ChannelStore.id_channelAt, Nat.add_sub_cancel_left]
    rw [isLastSibling_outline hafter, hasSubchannel_outline hafter, resize_of_le hlength,
      if_neg hadorned, Nat.add_assoc, hkids, hrest, htake, ← List.append_assoc, hclients]
    show _ = draw pen _ (cons (channelText (s.channelAt c)) (sprout _ (texts ..)) (texts ..)) ++ _
    rw [draw, texts, texts, isNil_withLeaves, ← Pen.columns_append]
    simp [appendPrefix, List.take_take]

variable (s clients selfClientId)

/-- The whole listing is the drawing of the forest. -/
theorem formatChannelTree_whole (F : Forest ℕ) :
    formatChannelTree ((F.outline 0).map s.entryAt)
        { stop := ((F.outline 0).map s.entryAt).length } clients selfClientId =
      (texts s clients selfClientId F).draw pen [] := by
  have hbehind : Behind (0 + 0) ([] : List ChannelTreeEntry) := nofun
  obtain ⟨last, -, -, hlines⟩ := formatEntries_outline s clients selfClientId 0 false F []
    nofun (Nat.zero_le 0) hbehind
  rw [formatChannelTree, List.take_length, List.drop_zero]
  rw [Nat.add_zero, List.append_nil] at hlines
  rw [hlines]
  exact List.append_nil _

/-- The listing of one channel has the channel without branches, and below it, one level in, the
drawing of its clients and subchannels. -/
theorem formatChannelTree_subtree {C : Context ℕ} {c : ℕ} {kids rest : Forest ℕ} :
    formatChannelTree (((C.plug (.cons c kids rest)).outline 0).map s.entryAt)
        { first := (C.before 0).length
          stop := (C.before 0).length + 1 + (kids.outline (C.depth 0 + 1)).length
          baseDepth := C.depth 0
          rootIsUnadorned := true } clients selfClientId =
      channelText (s.channelAt c) ::
        (sprout (clientTexts clients selfClientId c) (texts s clients selfClientId kids)).draw pen
          pen.blank := by
  have hslice : ((((C.plug (.cons c kids rest)).outline 0).map s.entryAt).take
      ((C.before 0).length + 1 + (kids.outline (C.depth 0 + 1)).length)).drop
        (C.before 0).length =
      s.entryAt (c, C.depth 0) :: (kids.outline (C.depth 0 + 1)).map s.entryAt := by
    rw [outline_plug_cons, ← List.map_take, ← List.map_drop]
    rw [← List.map_cons]
    congr 1
    rw [List.take_append, List.drop_append]
    simp [Nat.add_assoc, Nat.add_comm 1]
  have hinside : Behind (C.depth 0 + 1) ([] : List ChannelTreeEntry) := nofun
  obtain ⟨last, -, -, hlines⟩ := formatEntries_outline s clients selfClientId (C.depth 0) true kids
    [true] (fun _ => Nat.one_pos) le_rfl hinside
  have hbehind : Behind (C.depth 0) ([] : List ChannelTreeEntry) := nofun
  have hlast := isLastSibling_outline (s := s) hbehind kids .nil
  have hsub := hasSubchannel_outline (s := s) hbehind kids .nil
  have hclients := clientLines_append s clients selfClientId [true] c kids
  simp only [Forest.outline, List.map_nil, List.append_nil] at hlast hsub hlines
  rw [formatChannelTree, hslice, formatEntries]
  simp only [ChannelStore.entryAt, ChannelStore.id_channelAt, Nat.sub_self, decide_true,
    Bool.and_true, if_true] at hlast hsub hlines ⊢
  rw [hlast, hsub]
  show channelText (s.channelAt c) :: (clientLines selfClientId [true] _ (!kids.isNil) _ ++
    formatEntries _ true clients selfClientId [true] _) = _
  rw [hlines, ← List.append_assoc]
  have hblank : pen.columns [true] = pen.blank := List.append_nil _
  rw [← hblank, ← hclients]
  simp [formatEntries]

end Drawn

end ChannelTreeView

end TsCli
