import TsCli.Client.ChannelTreeView

/-!
# Listing the channels

`/list` prints the forest of channels, and `/list` with a channel the part of it below that channel.
The channel is named by its id, by its name, or by its name in another case, and of several
channels the first one in the listing is meant.

A listing has one line for each channel and for each client in a channel, and it can be read back:
two listings with the same lines are drawings of the same forest of texts.
-/

namespace TsCli

open OrderedForest OrderedForest.Forest Exec

namespace TargetResolver

/-- `TargetResolver::Resolve`, for candidates of one kind. -/
def resolve (candidates : List TargetCandidate) (name : Bytes) (kind : TargetKind) :
    Option TargetCandidate :=
  match candidates.find? fun candidate => candidate.kind = kind && candidate.name = name with
  | some candidate => some candidate
  | none => candidates.find? fun candidate =>
      candidate.kind = kind && equalAsciiInsensitive candidate.name name

/-- `TargetResolver::ResolveChannel`. -/
def resolveChannel (candidates : List TargetCandidate) (name : Bytes) : Option TargetCandidate :=
  resolve candidates name .channel

end TargetResolver

namespace ActionProcessor

open ChannelTreeView

/-- `ActionProcessor::ChannelCandidates`. -/
def channelCandidates (channels : ChannelStore) : Except Failure (List TargetCandidate) := do
  let tree ← channels.tree
  return tree.map fun entry => { kind := .channel, id := entry.channel.id, name := entry.channel.name }

/-- The channel that `/list` starts from: an id, or else a name. -/
def startTarget (candidates : List TargetCandidate) (start : Bytes) : Option TargetCandidate :=
  match candidates.find? fun candidate => numberText 10 candidate.id = start with
  | some candidate => some candidate
  | none => TargetResolver.resolveChannel candidates start

/-- The range of the subtree of an entry, which stands at `first`. -/
def subtreeRange (tree : List ChannelTreeEntry) (first : ℕ) (entry : ChannelTreeEntry) :
    ChannelTreeRange where
  first := first
  stop := first + 1 + ((tree.drop (first + 1)).takeWhile fun next => entry.depth < next.depth).length
  baseDepth := entry.depth
  rootIsUnadorned := true

/-- A heading and the lines of the range. -/
def pushTree (heading : Bytes) (tree : List ChannelTreeEntry) (range : ChannelTreeRange)
    (clients : ClientStore) (clientId : ℕ) : List ActionEvent :=
  .actionInfo heading :: (formatChannelTree tree range clients clientId).map .actionInfo

/-- `ActionProcessor::ProcessListTree`: what it pushes to the event queue. -/
def processListTree (channels : ChannelStore) (clients : ClientStore) (clientId : ℕ)
    (start : Option Bytes) : Except Failure (List ActionEvent) := do
  let tree ← channels.tree
  match start with
  | none => return pushTree (ascii "channel/client tree:") tree { stop := tree.length } clients clientId
  | some start =>
    let candidates ← channelCandidates channels
    match startTarget candidates start with
    | none => return [.actionError (ascii "No channel matches '" ++ start ++ ascii "'")]
    | some target =>
      match tree.find? fun item => item.channel.id = target.id with
      | none => return [.actionError (ascii "Channel tree is inconsistent")]
      | some entry =>
        let first := tree.findIdx fun item => item.channel.id = target.id
        return pushTree (ascii "channel/client tree from " ++ start ++ ascii ":") tree
          (subtreeRange tree first entry) clients clientId

/-! ## Naming a channel -/

/-- The channel of a forest that a text names: by its id, else by its name, else by its name in
another case. -/
def namedChannel (s : ChannelStore) (F : Forest ℕ) (start : Bytes) : Option ℕ :=
  (F.labels.find? fun c => numberText 10 c = start).or
    ((F.labels.find? fun c => (s.channelAt c).name = start).or
      (F.labels.find? fun c => TargetResolver.equalAsciiInsensitive (s.channelAt c).name start))

section Names

variable {s : ChannelStore} {F : Forest ℕ}

/-- The candidate of a channel. -/
def candidateOf (s : ChannelStore) (c : ℕ) : TargetCandidate where
  kind := .channel
  id := c
  name := (s.channelAt c).name

theorem channelCandidates_of_represents (hF : Represents 0 s.places F) :
    channelCandidates s = .ok (F.labels.map (candidateOf s)) := by
  have htree := ChannelStore.tree_eq_ok_iff.2 ⟨F, hF, rfl⟩
  rw [channelCandidates, htree, ← map_fst_outline 0 F, List.map_map]
  show Except.ok (((F.outline 0).map s.entryAt).map _) = _
  rw [List.map_map]
  congr 1
  refine List.map_congr_left fun e _ => ?_
  simp [candidateOf, ChannelStore.entryAt]

theorem startTarget_candidates (start : Bytes) :
    startTarget (F.labels.map (candidateOf s)) start =
      (namedChannel s F start).map (candidateOf s) := by
  have hfind : ∀ p : TargetCandidate → Bool, (F.labels.map (candidateOf s)).find? p =
      (F.labels.find? fun c => p (candidateOf s c)).map (candidateOf s) :=
    fun p => List.find?_map ..
  rw [startTarget, TargetResolver.resolveChannel, TargetResolver.resolve, hfind, hfind, hfind]
  show _ = Option.map _ (Option.or (F.labels.find? fun c => numberText 10 (candidateOf s c).id = start)
    (Option.or (F.labels.find? fun c => decide ((candidateOf s c).kind = .channel) &&
      decide ((candidateOf s c).name = start)) (F.labels.find? fun c =>
        decide ((candidateOf s c).kind = .channel) &&
          TargetResolver.equalAsciiInsensitive (candidateOf s c).name start)))
  cases F.labels.find? fun c => decide (numberText 10 (candidateOf s c).id = start) with
  | some c => rfl
  | none =>
    cases F.labels.find? fun c => decide ((candidateOf s c).kind = .channel) &&
        decide ((candidateOf s c).name = start) with
    | some c => rfl
    | none => rfl

/-- A text names channels of the forest. -/
theorem mem_labels_of_namedChannel {start : Bytes} {c : ℕ}
    (h : namedChannel s F start = some c) : c ∈ F.labels := by
  rw [namedChannel, Option.or_eq_some_iff, Option.or_eq_some_iff] at h
  rcases h with h | ⟨-, h | ⟨-, h⟩⟩
  · exact List.mem_of_find?_eq_some h
  · exact List.mem_of_find?_eq_some h
  · exact List.mem_of_find?_eq_some h

end Names

/-! ## The listings -/

section Listings

variable {s : ChannelStore} {clients : ClientStore} {clientId : ℕ}

/-- The entry of a channel, and where the tree has it. -/
theorem find?_entry {C : Context ℕ} {c : ℕ} {kids rest : Forest ℕ}
    (hnodup : (C.plug (.cons c kids rest)).labels.Nodup) :
    ((C.plug (.cons c kids rest)).outline 0 |>.map s.entryAt).find?
        (fun item => item.channel.id = c) = some (s.entryAt (c, C.depth 0)) ∧
      ((C.plug (.cons c kids rest)).outline 0 |>.map s.entryAt).findIdx
        (fun item => item.channel.id = c) = (C.before 0).length := by
  have hbefore : ∀ e ∈ (C.before 0).map s.entryAt, decide (e.channel.id = c) = false := by
    intro e he
    obtain ⟨x, hx, rfl⟩ := List.mem_map.1 he
    have hne := not_mem_before (d := 0) hnodup x hx
    simpa [ChannelStore.entryAt] using hne
  have hself : decide ((s.entryAt (c, C.depth 0)).channel.id = c) = true := by
    simp [ChannelStore.entryAt]
  rw [outline_plug_cons, List.map_append, List.map_cons]
  constructor
  · rw [List.find?_append, List.find?_eq_none.2 (by simpa using hbefore), Option.none_or]
    exact List.find?_cons_of_pos hself
  · rw [List.findIdx_append, List.findIdx_eq_length.2 hbefore, if_neg (lt_irrefl _),
      List.findIdx_cons, hself]
    simp

theorem subtreeRange_entry {C : Context ℕ} {c : ℕ} {kids rest : Forest ℕ} :
    subtreeRange (((C.plug (.cons c kids rest)).outline 0).map s.entryAt) (C.before 0).length
        (s.entryAt (c, C.depth 0)) =
      { first := (C.before 0).length
        stop := (C.before 0).length + 1 + (kids.outline (C.depth 0 + 1)).length
        baseDepth := C.depth 0
        rootIsUnadorned := true } := by
  have hdrop : (((C.plug (.cons c kids rest)).outline 0).map s.entryAt).drop
      ((C.before 0).length + 1) =
        (kids.outline (C.depth 0 + 1) ++ (rest.outline (C.depth 0) ++ C.after 0)).map s.entryAt := by
    rw [outline_plug_cons, ← List.map_drop, List.drop_append]
    simp
  have hin : ∀ x ∈ kids.outline (C.depth 0 + 1), (c, C.depth 0).2 < x.2 := outline_inside
  have hbehind : ∀ x, (rest.outline (C.depth 0) ++ C.after 0).head? = some x →
      x.2 ≤ (c, C.depth 0).2 := outline_behind
  have hinside := takeWhile_deeper hin hbehind
  rw [subtreeRange, hdrop, List.takeWhile_map, List.length_map]
  exact congrArg (fun l : List (ℕ × ℕ) => (⟨_, _ + l.length, _, _⟩ : ChannelTreeRange)) hinside

theorem processListTree_whole {F : Forest ℕ} (hF : Represents 0 s.places F) :
    processListTree s clients clientId none =
      .ok (.actionInfo (ascii "channel/client tree:") ::
        ((texts s clients clientId F).draw pen []).map .actionInfo) := by
  have htree := ChannelStore.tree_eq_ok_iff.2 ⟨F, hF, rfl⟩
  rw [processListTree, htree]
  show Except.ok (pushTree _ _ _ _ _) = _
  rw [pushTree, formatChannelTree_whole]

theorem processListTree_unknown {F : Forest ℕ} (hF : Represents 0 s.places F) {start : Bytes}
    (h : namedChannel s F start = none) :
    processListTree s clients clientId (some start) =
      .ok [.actionError (ascii "No channel matches '" ++ start ++ ascii "'")] := by
  have htree := ChannelStore.tree_eq_ok_iff.2 ⟨F, hF, rfl⟩
  have htarget := startTarget_candidates (s := s) (F := F) start
  rw [h] at htarget
  rw [processListTree, htree, channelCandidates_of_represents hF]
  simp only [bind, Except.bind, htarget, Option.map_none]
  rfl

theorem processListTree_subtree {C : Context ℕ} {c : ℕ} {kids rest : Forest ℕ}
    (hF : Represents 0 s.places (C.plug (.cons c kids rest))) {start : Bytes}
    (h : namedChannel s (C.plug (.cons c kids rest)) start = some c) :
    processListTree s clients clientId (some start) =
      .ok (.actionInfo (ascii "channel/client tree from " ++ start ++ ascii ":") ::
        .actionInfo (channelText (s.channelAt c)) ::
          ((sprout (clientTexts clients clientId c) (texts s clients clientId kids)).draw pen
            pen.blank).map .actionInfo) := by
  have htree := ChannelStore.tree_eq_ok_iff.2 ⟨_, hF, rfl⟩
  have htarget := startTarget_candidates (s := s) (F := C.plug (.cons c kids rest)) start
  rw [h] at htarget
  obtain ⟨hentry, hfirst⟩ := find?_entry (s := s) hF.nodup
  rw [processListTree, htree, channelCandidates_of_represents hF]
  simp only [bind, Except.bind, htarget, Option.map_some, candidateOf, hentry, hfirst]
  rw [subtreeRange_entry, pushTree, formatChannelTree_subtree]
  rfl

/-- `/list` draws the forest of channels, and from a channel that is named the part of the forest
below it. -/
theorem processListTree_draws {tree : List ChannelTreeEntry} (h : s.tree = .ok tree)
    (clients : ClientStore) (clientId : ℕ) :
    ∃ F, Represents 0 s.places F ∧ tree = (F.outline 0).map s.entryAt ∧
      processListTree s clients clientId none =
        .ok (.actionInfo (ascii "channel/client tree:") ::
          ((texts s clients clientId F).draw pen []).map .actionInfo) ∧
      (∀ start, namedChannel s F start = none →
        processListTree s clients clientId (some start) =
          .ok [.actionError (ascii "No channel matches '" ++ start ++ ascii "'")]) ∧
      ∀ start c, namedChannel s F start = some c →
        ∃ C kids rest, F = Context.plug C (.cons c kids rest) ∧
          processListTree s clients clientId (some start) =
            .ok (.actionInfo (ascii "channel/client tree from " ++ start ++ ascii ":") ::
              .actionInfo (channelText (s.channelAt c)) ::
                ((sprout (clientTexts clients clientId c) (texts s clients clientId kids)).draw pen
                  pen.blank).map .actionInfo) := by
  obtain ⟨F, hF, rfl⟩ := ChannelStore.tree_eq_ok_iff.1 h
  refine ⟨F, hF, rfl, processListTree_whole hF, fun start => processListTree_unknown hF, ?_⟩
  intro start c hc
  obtain ⟨C, kids, rest, rfl⟩ := Context.exists_plug (mem_labels_of_namedChannel hc)
  exact ⟨C, kids, rest, rfl, processListTree_subtree hF hc⟩

/-- Two channels on the top level, the second one with a channel below it. -/
def lobbyAndGaming : ChannelStore :=
  ChannelStore.applyList
    [{ id := 1, name := ascii "Lobby", defaultChannel := true, id_ne_zero := Nat.succ_ne_zero _ },
      { id := 2, orderAfterId := 1, name := ascii "Gaming", passwordProtected := true,
        id_ne_zero := Nat.succ_ne_zero _ },
      { id := 3, parentId := 2, name := ascii "Raids", id_ne_zero := Nat.succ_ne_zero _ }] {}

/-- A client in each channel, the last one without details. -/
def aliceAndBob : ClientStore :=
  ((∅ : ClientStore).upsert { id := 101, channelId := 1, nickname := ascii "Alice", detailsKnown := true }
    |>.upsert { id := 102, channelId := 2, nickname := ascii "Bob", away := true, detailsKnown := true }
    |>.upsert { id := 103, channelId := 3 })

theorem processListTree_draws_gaming :
    ∃ F, Represents 0 lobbyAndGaming.places F ∧
      processListTree lobbyAndGaming aliceAndBob 999 none =
        .ok (.actionInfo (ascii "channel/client tree:") ::
          ((texts lobbyAndGaming aliceAndBob 999 F).draw pen []).map .actionInfo) := by
  have htree : lobbyAndGaming.tree = .ok [⟨lobbyAndGaming.channelAt 1, 0⟩,
      ⟨lobbyAndGaming.channelAt 2, 0⟩, ⟨lobbyAndGaming.channelAt 3, 1⟩] := by decide +kernel
  obtain ⟨F, hF, -, hwhole, -⟩ := processListTree_draws htree aliceAndBob 999
  exact ⟨F, hF, hwhole⟩

example : processListTree lobbyAndGaming aliceAndBob 999 (some (ascii "gaming")) =
    .ok ([ascii "channel/client tree from gaming:", ascii "[2] Gaming [password]",
      ascii "    ├── Bob [102] [afk]", ascii "    └── [3] Raids",
      ascii "        └── client 103 [103] [loading]"].map .actionInfo) := by decide +kernel

/-! ## Reading a listing -/

theorem pen_prefixFree : pen.PrefixFree := by decide +kernel

/-- The clients of different channels are different clients. -/
theorem sum_length_inChannel (clients : ClientStore) {ids : List ℕ} (hnodup : ids.Nodup) :
    (ids.map fun c => (clients.inChannel c).length).sum =
      (clients.values.filter fun client => client.channelId ∈ ids).length := by
  have hone : ∀ (c : ℕ) (l : List ℕ), c ∉ l → ∀ members : List Client,
      (members.filter fun client => client.channelId ∈ c :: l).length =
        (members.filter fun client => client.channelId = c).length +
          (members.filter fun client => client.channelId ∈ l).length := by
    intro c l hc members
    induction members with
    | nil => rfl
    | cons client members ih =>
      simp only [List.filter_cons]
      by_cases hclient : client.channelId = c
      · have hnot : client.channelId ∉ l := hclient ▸ hc
        simp only [hclient, List.mem_cons, true_or, decide_true, if_true, hc, decide_false,
          Bool.false_eq_true, if_false, List.length_cons] at ih ⊢
        omega
      · by_cases hl : client.channelId ∈ l <;>
          simp only [List.mem_cons, hclient, hl, false_or, or_self, decide_true, decide_false,
            if_true, Bool.false_eq_true, if_false, List.length_cons] at ih ⊢ <;> omega
  induction ids with
  | nil => simp
  | cons c ids ih =>
    obtain ⟨hc, hids⟩ := List.nodup_cons.1 hnodup
    rw [hone c ids hc, List.map_cons, List.sum_cons, ih hids,
      (ClientStore.perm_inChannel clients c).length_eq]

/-- A listing has one line for each channel and for each client in a channel. -/
theorem length_texts {F : Forest ℕ} (hF : Represents 0 s.places F) :
    ((texts s clients clientId F).draw pen []).length = s.channels.size +
      (clients.values.filter fun client => s.channels.contains client.channelId).length := by
  have hsize : F.labels.length = s.channels.size := by
    rw [(ChannelStore.perm_labels hF.nodup fun a => ChannelStore.mem_labels_iff hF).length_eq,
      List.length_map, Registry.length_values]
  have hfilter : (clients.values.filter fun client => client.channelId ∈ F.labels) =
      clients.values.filter fun client => s.channels.contains client.channelId := by
    refine List.filter_congr fun client _ => ?_
    rw [Bool.eq_iff_iff, decide_eq_true_iff, ChannelStore.mem_labels_iff hF, Registry.contains_iff]
    constructor
    · exact fun h => ⟨_, h⟩
    · rintro ⟨channel, h⟩
      rw [h, ChannelStore.channelAt_of_find? h]
  rw [length_draw, texts, length_labels_withLeaves, hsize, ← hfilter,
    ← sum_length_inChannel clients hF.nodup]
  simp [clientTexts]

/-- A listing has one line for each channel and for each client in a channel, behind the heading,
and gives the forest of the texts. -/
theorem listing_readable {s' : ChannelStore} {tree tree' : List ChannelTreeEntry}
    (h : s.tree = .ok tree) (h' : s'.tree = .ok tree') (clients clients' : ClientStore)
    (clientId clientId' : ℕ) :
    ∃ F F', tree = (F.outline 0).map s.entryAt ∧ tree' = (F'.outline 0).map s'.entryAt ∧
      (∀ events, processListTree s clients clientId none = .ok events →
        events.length = 1 + s.channels.size +
          (clients.values.filter fun client => s.channels.contains client.channelId).length) ∧
      (processListTree s clients clientId none = processListTree s' clients' clientId' none →
        texts s clients clientId F = texts s' clients' clientId' F') := by
  obtain ⟨F, hF, rfl⟩ := ChannelStore.tree_eq_ok_iff.1 h
  obtain ⟨F', hF', rfl⟩ := ChannelStore.tree_eq_ok_iff.1 h'
  refine ⟨F, F', rfl, rfl, ?_, ?_⟩
  · intro events hevents
    rw [processListTree_whole hF] at hevents
    obtain rfl := Except.ok.inj hevents
    rw [List.length_cons, List.length_map, length_texts hF]
    omega
  · intro hsame
    rw [processListTree_whole hF, processListTree_whole hF', Except.ok.injEq,
      List.cons.injEq] at hsame
    exact draw_injective pen_prefixFree
      (List.map_injective_iff.2 (fun _ _ => ActionEvent.actionInfo.inj) hsame.2)

theorem listing_readable_gaming : ∃ events,
    processListTree lobbyAndGaming aliceAndBob 999 none = .ok events ∧ events.length = 7 := by
  have htree : lobbyAndGaming.tree = .ok [⟨lobbyAndGaming.channelAt 1, 0⟩,
      ⟨lobbyAndGaming.channelAt 2, 0⟩, ⟨lobbyAndGaming.channelAt 3, 1⟩] := by decide +kernel
  obtain ⟨-, -, -, -, hlength, -⟩ :=
    listing_readable htree htree aliceAndBob aliceAndBob 999 999
  obtain ⟨F, hF, -⟩ := ChannelStore.tree_eq_ok_iff.1 htree
  have hevents : processListTree lobbyAndGaming aliceAndBob 999 none = _ :=
    processListTree_whole hF
  refine ⟨_, hevents, ?_⟩
  rw [hlength _ hevents]
  decide +kernel

end Listings

end ActionProcessor

end TsCli
