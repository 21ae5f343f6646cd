import TsCli.Lib.Registry
import TsCli.Message.Channel

/-!
# The channel store

The store keeps the channels by id and, next to it, the set of subscribed ids. The order of the
channels under a parent is kept as a chain: each channel names the sibling before it, or zero. The
operations relink the chain; `tree` reads it back, or throws when it is not one.
-/

namespace TsCli

/-- `Channel`. -/
structure Channel where
  id : ℕ := 0
  parentId : ℕ := 0
  orderAfterId : ℕ := 0
  name : Bytes := []
  permanent : Bool := false
  semiPermanent : Bool := false
  defaultChannel : Bool := false
  passwordProtected : Bool := false
  codec : UInt8 := 4
  codecIsUnencrypted : Bool := true
  subscribed : Bool := false
  deriving DecidableEq, Repr

/-- `ChannelTreeEntry`. -/
structure ChannelTreeEntry where
  channel : Channel
  depth : ℕ := 0
  deriving DecidableEq, Repr

/-- `ChannelStore`: `m_Channels`, whose entries are stored under their own id, and
`m_SubscribedChannels`. -/
structure ChannelStore where
  channels : Registry Channel.id := ∅
  subscribedChannels : Finset ℕ := ∅
  deriving DecidableEq

/-- The channel that an entry of a message describes. -/
def ChannelCreatedEntry.channel (entry : ChannelCreatedEntry) : Channel where
  id := entry.id
  parentId := entry.parentId
  orderAfterId := entry.orderAfterId
  name := entry.name
  permanent := entry.permanent
  semiPermanent := entry.semiPermanent
  defaultChannel := entry.defaultChannel
  passwordProtected := entry.passwordProtected
  codec := entry.codec
  codecIsUnencrypted := entry.codecIsUnencrypted

namespace ChannelStore

/-! ## Operations -/

/-- `channel.orderAfterId = orderAfterId`. -/
def setOrderAfter (orderAfterId : ℕ) (channel : Channel) : Channel := { channel with orderAfterId }

theorem id_setOrderAfter (orderAfterId : ℕ) (channel : Channel) :
    (setOrderAfter orderAfterId channel).id = channel.id := rfl

/-- `channel.parentId = parentId; channel.orderAfterId = orderAfterId`. -/
def setPlace (parentId orderAfterId : ℕ) (channel : Channel) : Channel :=
  { channel with parentId, orderAfterId }

theorem id_setPlace (parentId orderAfterId : ℕ) (channel : Channel) :
    (setPlace parentId orderAfterId channel).id = channel.id := rfl

/-- The first other channel at place `(parentId, orderAfterId)` is ordered after `next` instead. -/
def relink (except parentId orderAfterId next : ℕ) (channels : Registry Channel.id) :
    Registry Channel.id :=
  channels.modifyFirst (fun id channel => id ≠ except ∧ channel.parentId = parentId ∧
    channel.orderAfterId = orderAfterId) (setOrderAfter next) (id_setOrderAfter next)

/-- `ChannelStore::Upsert`. -/
def upsert (channel : Channel) (s : ChannelStore) : ChannelStore :=
  { s with channels :=
      s.channels.upsert { channel with subscribed := channel.id ∈ s.subscribedChannels } }

/-- `ChannelStore::Apply( ChannelList )`. -/
def applyList (entries : List ChannelCreatedEntry) (s : ChannelStore) : ChannelStore :=
  entries.foldl (fun s entry => s.upsert entry.channel) s

/-- `ChannelStore::Apply( ChannelCreated )`. -/
def applyCreated (entry : ChannelCreatedEntry) (s : ChannelStore) : ChannelStore :=
  let s := if s.channels.contains entry.id then s
    else { s with channels := relink entry.id entry.parentId entry.orderAfterId entry.id s.channels }
  s.upsert entry.channel

/-- `ChannelStore::Move`. -/
def move (channelId parentId orderAfterId : ℕ) : EStateM Failure ChannelStore Unit := do
  let s ← get
  match s.channels.find? channelId with
  | none => return ()
  | some moved =>
    if orderAfterId = channelId then
      throw (.runtimeError "Channel cannot be ordered after itself")
    else if parentId ≠ 0 ∧ !s.channels.contains parentId then
      throw (.runtimeError "Channel move references an unknown parent")
    else if orderAfterId ≠ 0 ∧
        (s.channels.find? orderAfterId).all (fun predecessor => predecessor.parentId ≠ parentId) then
      throw (.runtimeError "Channel move references an invalid predecessor")
    else
      let closed := relink channelId moved.parentId channelId moved.orderAfterId s.channels
      let opened := relink channelId parentId orderAfterId channelId closed
      let placed := opened.modify channelId (setPlace parentId orderAfterId)
        (id_setPlace parentId orderAfterId)
      set { s with channels := placed }

/-- `ChannelStore::Apply( ChannelMoved )`. -/
def applyMoved (entry : ChannelMovedEntry) : EStateM Failure ChannelStore Unit :=
  move entry.id entry.parentId entry.orderAfterId

/-- The fields that an edit carries, over those of the channel. -/
def editFields (entry : ChannelEditedEntry) (channel : Channel) : Channel :=
  { channel with
    name := entry.name.getD channel.name
    permanent := entry.permanent.getD channel.permanent
    semiPermanent := entry.semiPermanent.getD channel.semiPermanent
    defaultChannel := entry.defaultChannel.getD channel.defaultChannel
    passwordProtected := entry.passwordProtected.getD channel.passwordProtected
    codec := entry.codec.getD channel.codec
    codecIsUnencrypted := entry.codecIsUnencrypted.getD channel.codecIsUnencrypted }

/-- `ChannelStore::Apply( ChannelEdited )`. -/
def applyEdited (entry : ChannelEditedEntry) : EStateM Failure ChannelStore Unit := do
  let s ← get
  match s.channels.find? entry.id with
  | none => return ()
  | some channel =>
    if entry.parentId.isSome || entry.orderAfterId.isSome then
      move entry.id (entry.parentId.getD channel.parentId)
        (entry.orderAfterId.getD channel.orderAfterId)
    modify fun s =>
      { s with channels := s.channels.modify entry.id (editFields entry) fun _ => rfl }

/-- `ChannelStore::SetSubscribed`. -/
def setSubscribed (channelId : ℕ) (subscribed : Bool) (s : ChannelStore) : ChannelStore :=
  if channelId = 0 then s
  else
    { channels := s.channels.modify channelId (fun channel => { channel with subscribed }) fun _ => rfl
      subscribedChannels := if subscribed then insert channelId s.subscribedChannels
        else s.subscribedChannels.erase channelId }

/-- `ChannelStore::Remove`. -/
def remove (channelId : ℕ) (s : ChannelStore) : ChannelStore :=
  match s.channels.find? channelId with
  | none => { s with subscribedChannels := s.subscribedChannels.erase channelId }
  | some removed =>
    let relinked := s.channels.mapValues (fun _ channel =>
      if channel.parentId = removed.parentId ∧ channel.orderAfterId = channelId then
        setOrderAfter removed.orderAfterId channel
      else channel) fun _ _ => by split_ifs <;> rfl
    { channels := relinked.erase channelId
      subscribedChannels := s.subscribedChannels.erase channelId }

/-! ## Reading the tree -/

/-- The loop of `OrderedChildren`: `remaining` channels are still to be ordered. Each turn looks
for the one child that is not emitted and names the last emitted one. -/
def orderChain (children : List Channel) : ℕ → List ℕ → ℕ → Except Failure (List Channel)
  | 0, _, _ => .ok []
  | remaining + 1, emitted, previousId =>
    match children.filter fun candidate =>
        candidate.id ∉ emitted ∧ candidate.orderAfterId = previousId with
    | [] => .error (.runtimeError "Invalid TeamSpeak channel order chain")
    | [next] => do
      let ordered ← orderChain children remaining (next.id :: emitted) next.id
      return next :: ordered
    | _ => .error (.runtimeError "Multiple channels occupy the same order position")

/-- `ChannelStore::OrderedChildren`. -/
def orderedChildren (s : ChannelStore) (parentId : ℕ) : Except Failure (List Channel) :=
  let children := s.channels.values.filter fun channel => channel.parentId = parentId
  orderChain children children.length [] 0

/-- What `AppendTree` passes by reference. -/
structure Walk where
  visited : Finset ℕ := ∅
  result : List ChannelTreeEntry := []

/-- `ChannelStore::AppendTree`; `fuel` bounds the depth of the recursion. -/
def appendTree (s : ChannelStore) : ℕ → ℕ → ℕ → EStateM Failure Walk Unit
  | 0, _, _ => throw .outOfFuel
  | fuel + 1, parentId, depth => do
    let children ← Exec.lift (s.orderedChildren parentId)
    forM children fun channel => do
      let walk ← get
      if channel.id ∈ walk.visited then
        throw (.runtimeError "Channel hierarchy contains a cycle")
      else
        set { visited := insert channel.id walk.visited
              result := walk.result ++ [{ channel, depth }] : Walk }
        appendTree s fuel channel.id (depth + 1)

/-- `ChannelStore::Tree`. A level of the recursion visits a channel, so their number bounds it. -/
def tree (s : ChannelStore) : Except Failure (List ChannelTreeEntry) :=
  if s.channels.values.any fun channel =>
      channel.parentId ≠ 0 ∧ !s.channels.contains channel.parentId then
    .error (.runtimeError "Channel references an unknown parent")
  else
    match appendTree s (s.channels.size + 1) 0 0 {} with
    | .ok _ walk =>
      if walk.result.length ≠ s.channels.size then
        .error (.runtimeError "Channel hierarchy contains a cycle")
      else
        .ok walk.result
    | .error failure _ => .error failure

/-- `ChannelStore::Validate`. -/
def validate (s : ChannelStore) : Except Failure Unit := do
  let _ ← s.tree
  return ()

/-! ## Notifications -/

/-- What `Session::ProcessCommand` does to the channel store for the notifications about created,
deleted, moved and edited channels; other commands are none of these. -/
def processCommand (command : Command) : EStateM Failure ChannelStore Unit := do
  if command.name = ascii "notifychannelcreated" then
    let created ← Exec.lift (ChannelCreatedEntry.parse command)
    modify (applyCreated created)
  else if command.name = ascii "notifychanneldeleted" then
    let deleted ← Exec.lift (ChannelDeleted.parse command)
    modify (remove deleted.channelId)
  else if command.name = ascii "notifychannelmoved" then
    applyMoved (← Exec.lift (ChannelMovedEntry.parse command))
  else if command.name = ascii "notifychanneledited" then
    applyEdited (← Exec.lift (ChannelEditedEntry.parse command))

end ChannelStore

end TsCli
