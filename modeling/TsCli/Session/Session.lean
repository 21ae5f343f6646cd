import TsCli.Message.Notification
import TsCli.Session.SessionTransport
import TsCli.State.ChannelStore
import TsCli.State.ClientStore

/-!
# The session

The session turns the commands of the server into its picture of it: the channels, the clients, and
where the own client is. Along the way it queues events for the application. The own channel is
kept twice, as `currentChannelId` and in the store's record of the own client; the three
notifications about clients write both.
-/

namespace TsCli

/-! ## Events -/

/-- `TextMessageEvent`. -/
structure TextMessageEvent where
  message : TextMessageEntry
  replyTarget : Option TextMessageTarget
  channelName : Bytes
  privatePeerName : Bytes
  outgoing : Bool
  deriving DecidableEq, Repr

/-- `ClientPresenceKind`. -/
inductive ClientPresenceKind
  | joined
  | left
  deriving DecidableEq, Repr

/-- `ClientPresenceEvent`. -/
structure ClientPresenceEvent where
  kind : ClientPresenceKind
  clientId : ℕ
  channelId : ℕ
  clientName : Bytes
  channelName : Bytes
  deriving DecidableEq, Repr

/-- `CommandErrorEvent`. -/
structure CommandErrorEvent where
  id : ℕ
  message : Bytes
  deriving DecidableEq, Repr

/-- `SessionEvent`; a `PokeEvent` carries the fields of the entry. -/
inductive SessionEvent
  | textMessage (event : TextMessageEvent)
  | clientPresence (event : ClientPresenceEvent)
  | commandError (event : CommandErrorEvent)
  | voice (frame : VoiceFrame)
  | poke (event : ClientPokeEntry)
  deriving DecidableEq, Repr

/-- `ServerDisconnect`. -/
structure ServerDisconnect where
  reasonId : ℕ
  message : Bytes
  deriving DecidableEq, Repr

/-! ## The state -/

/-- `Session`, as far as the network side reads and writes it. -/
structure Session where
  transport : SessionTransport := {}
  clientId : ℕ := 0
  currentChannelId : ℕ := 0
  currentNickname : Bytes := []
  channels : ChannelStore := {}
  clients : ClientStore := ∅
  initialStateComplete : Bool := false
  connectionInfoRequested : Bool := false
  lastConnectionInfoSentAt : Option TimePoint := none
  disconnectPacketId : Option UInt16 := none
  serverRemoval : Option ServerDisconnect := none
  events : List SessionEvent := []

namespace Session

abbrev Program := EStateM Failure Session

variable (env : Environment)

/-- Work on `m_SessionTransport`. -/
def onTransport {α : Type} (m : EStateM Failure SessionTransport α) : Program α :=
  Exec.zoom Session.transport (fun transport s => { s with transport }) m

/-- Work on `m_Channels`. -/
def onChannels {α : Type} (m : EStateM Failure ChannelStore α) : Program α :=
  Exec.zoom Session.channels (fun channels s => { s with channels }) m

/-- `SubscribeChannel`. -/
def subscribeChannel (channelId : ℕ) : Program Unit := do
  let data ← Exec.lift (serializeChannelSubscribe channelId)
  let _ ← onTransport (SessionTransport.sendCommand env data)

/-! ## Presence -/

/-- The name of a client in an event. -/
def presenceName (clientId : ℕ) (clientName : Bytes) : Bytes :=
  if clientName = [] then ascii "client " ++ ascii (toString clientId) else clientName

/-- `EmitPresence`. -/
def emitPresence (kind : ClientPresenceKind) (clientId channelId : ℕ) (clientName : Bytes)
    (s : Session) : Session :=
  if channelId = 0 ∨ channelId ≠ s.currentChannelId then s
  else
    match s.channels.channels.find? channelId with
    | none => s
    | some channel =>
      { s with events := s.events ++ [.clientPresence {
          kind, clientId, channelId
          clientName := presenceName clientId clientName
          channelName := channel.name }] }

/-! ## Entered, moved, left -/

/-- The own client is in a channel now; entering it subscribes to it. -/
def enterChannel (channelId : ℕ) (s : Session) : Session :=
  if channelId = 0 then s
  else { s with currentChannelId := channelId, channels := s.channels.setSubscribed channelId true }

/-- The loop body of `notifycliententerview`. -/
def enterViewRow (s : Session) (entry : ClientEnterViewEntry) : Session :=
  if entry.id = s.clientId then
    let s := s.enterChannel entry.channelId
    if entry.nickname = [] then s else { s with currentNickname := entry.nickname }
  else
    let existing := s.clients.find? entry.id
    let effectiveChannelId :=
      if entry.channelId ≠ 0 then entry.channelId else (existing.map Client.channelId).getD 0
    let alreadyKnownInChannel := existing.any fun client =>
      client.detailsKnown && effectiveChannelId ≠ 0 && client.channelId = effectiveChannelId
    if s.initialStateComplete ∧ !alreadyKnownInChannel ∧ effectiveChannelId = s.currentChannelId then
      s.emitPresence .joined entry.id effectiveChannelId entry.nickname
    else s

/-- The branch of `notifycliententerview`. -/
def enterView (entries : List ClientEnterViewEntry) (s : Session) : Session :=
  let s := entries.foldl enterViewRow s
  { s with clients := s.clients.applyEnterView entries }

/-- The loop body of `notifyclientmoved`. -/
def movedRow (s : Session) (entry : ClientMovedEntry) : Session :=
  let existing := s.clients.find? entry.id
  let previousChannelId := (existing.map Client.channelId).getD 0
  let clientName := (existing.map Client.nickname).getD []
  if entry.id = s.clientId then s.enterChannel entry.channelId
  else if !s.initialStateComplete ∨ entry.channelId = previousChannelId then s
  else if previousChannelId = s.currentChannelId ∧ entry.channelId ≠ s.currentChannelId then
    s.emitPresence .left entry.id previousChannelId clientName
  else if previousChannelId ≠ s.currentChannelId ∧ entry.channelId = s.currentChannelId ∧
      existing.any Client.detailsKnown then
    s.emitPresence .joined entry.id entry.channelId clientName
  else s

/-- The branch of `notifyclientmoved`. -/
def moved (entries : List ClientMovedEntry) (s : Session) : Session :=
  let s := entries.foldl movedRow s
  { s with clients := s.clients.applyMoved entries }

/-- The own client left to another channel, or was removed from the server. -/
def leaveTo (entry : ClientLeftViewEntry) (s : Session) : Session :=
  if entry.toChannelId ≠ 0 then
    { s with
      currentChannelId := entry.toChannelId
      channels := s.channels.setSubscribed entry.toChannelId true }
  else
    { s with
      currentChannelId := 0
      serverRemoval := s.serverRemoval <|>
        some { reasonId := entry.reasonId, message := entry.reasonMessage } }

/-- The body of the first loop of `notifyclientleftview`. -/
def leftViewRow (s : Session) (entry : ClientLeftViewEntry) : Session :=
  if entry.id = s.clientId then s.leaveTo entry
  else if !s.initialStateComplete then s
  else
    let existing := s.clients.find? entry.id
    let previousChannelId :=
      if entry.fromChannelId ≠ 0 then entry.fromChannelId else (existing.map Client.channelId).getD 0
    let clientName := (existing.map Client.nickname).getD []
    if previousChannelId = s.currentChannelId ∧ entry.toChannelId ≠ s.currentChannelId ∧
        existing.all (fun client => client.channelId = previousChannelId) then
      s.emitPresence .left entry.id previousChannelId clientName
    else s

/-- The body of the second loop of `notifyclientleftview`. -/
def leaveRow (s : Session) (entry : ClientLeftViewEntry) : Session :=
  if entry.id = s.clientId then s
  else if entry.toChannelId ≠ 0 ∧ entry.toChannelId ∈ s.channels.subscribedChannels then
    { s with clients := s.clients.move entry.id entry.toChannelId }
  else { s with clients := s.clients.remove entry.id }

/-- The branch of `notifyclientleftview`. -/
def leftView (entries : List ClientLeftViewEntry) (s : Session) : Session :=
  entries.foldl leaveRow (entries.foldl leftViewRow s)

/-! ## The other notifications -/

/-- `ChannelStore::Apply( ChannelSubscriptionState )`. -/
def subscribeChannels (subscription : ChannelSubscriptionState) (channels : ChannelStore) :
    ChannelStore :=
  subscription.entries.foldl
    (fun channels channelId => channels.setSubscribed channelId subscription.subscribed) channels

/-- The clients behind a notification that the channels are not subscribed any more. -/
def unsubscribeClients (channelIds : List ℕ) (s : Session) : ClientStore :=
  channelIds.foldl (fun clients channelId => clients.removeInChannel channelId s.clientId) s.clients

/-- The branch of the subscription notifications. -/
def applySubscription (subscription : ChannelSubscriptionState) (s : Session) : Session :=
  let s := { s with channels := subscribeChannels subscription s.channels }
  if subscription.subscribed then s
  else { s with clients := s.unsubscribeClients subscription.entries }

/-- The branch of `notifychanneldeleted`. -/
def channelDeleted (deleted : ChannelDeleted) (s : Session) : Session :=
  { s with
    clients := s.clients.removeInChannel deleted.channelId s.clientId
    channels := s.channels.remove deleted.channelId }

/-- The loop body of `notifyclientupdated`. -/
def updatedRow (s : Session) (entry : ClientUpdatedEntry) : Session :=
  if entry.id = s.clientId ∧ entry.nickname.any (· ≠ []) then
    { s with currentNickname := entry.nickname.getD [] }
  else s

/-- The branch of `notifyclientupdated`. -/
def updated (entries : List ClientUpdatedEntry) (s : Session) : Session :=
  let s := entries.foldl updatedRow s
  { s with clients := s.clients.applyUpdated entries }

/-- `ReplyTargetFor`. -/
def replyTargetFor (s : Session) (message : TextMessageEntry) : Option TextMessageTarget :=
  match message.targetMode with
  | .privateChat =>
    if message.invokerId = 0 ∨ message.invokerId = s.clientId then none
    else some { mode := .privateChat, id := message.invokerId }
  | .channel =>
    let named := message.targetId.filter fun id => id ≠ 0 && s.channels.channels.contains id
    let sender := (if message.invokerId ≠ 0 then s.clients.find? message.invokerId else none).map
      Client.channelId
    let self := (s.clients.find? s.clientId).map Client.channelId
    ((named <|> sender.filter (· ≠ 0)) <|> self.filter (· ≠ 0)).map
      fun id => { mode := .channel, id }
  | .server => some { mode := .server, id := 0 }

/-- `ChannelNameFor`. -/
def channelNameFor (s : Session) (message : TextMessageEntry) : Bytes :=
  if message.targetMode ≠ .channel then []
  else
    let named := message.targetId.filter fun id => id ≠ 0 && s.channels.channels.contains id
    let sender := (if message.invokerId ≠ 0 then s.clients.find? message.invokerId else none).map
      Client.channelId
    let channelId := (named <|> sender.filter (· ≠ 0)).getD s.currentChannelId
    ((s.channels.channels.find? channelId).map Channel.name).getD []

/-- `PrivatePeerNameFor`. -/
def privatePeerNameFor (s : Session) (message : TextMessageEntry) : Bytes :=
  if message.targetMode ≠ .privateChat then []
  else if message.invokerId ≠ s.clientId then
    if message.invokerName ≠ [] then message.invokerName
    else ((s.clients.find? message.invokerId).map Client.nickname).getD []
  else
    match message.targetId.filter (· ≤ 65535) with
    | some targetId => ((s.clients.find? targetId).map Client.nickname).getD []
    | none => []

/-- The loop body of `notifytextmessage`. -/
def textMessageRow (s : Session) (message : TextMessageEntry) : Session :=
  { s with events := s.events ++ [.textMessage {
      message
      replyTarget := s.replyTargetFor message
      channelName := s.channelNameFor message
      privatePeerName := s.privatePeerNameFor message
      outgoing := message.invokerId = s.clientId }] }

/-- The loop body of `error`. -/
def commandResultRow (s : Session) (entry : CommandResultEntry) : Session :=
  if entry.id = 0 then s
  else { s with events := s.events ++ [.commandError { id := entry.id, message := entry.message }] }

/-- The branch of `notifyclientpoke`. -/
def poked (entry : ClientPokeEntry) (s : Session) : Session :=
  { s with events := s.events ++ [.poke entry] }

/-! ## Commands -/

/-- `ProcessCommand`. -/
def processCommand (command : Command) : Program Unit := do
  if command.name = ascii "notifyconnectioninforequest" then
    modify fun s => { s with connectionInfoRequested := true }
  else if command.name = ascii "channellist" then
    let entries ← Exec.lift (parseChannelList command)
    onChannels (modify (ChannelStore.applyList entries))
  else if command.name = ascii "notifychannelsubscribed" ∨
      command.name = ascii "notifychannelunsubscribed" then
    let subscription ← Exec.lift (ChannelSubscriptionState.parse command)
    modify (applySubscription subscription)
  else if command.name = ascii "notifychannelcreated" then
    let created ← Exec.lift (ChannelCreatedEntry.parse command)
    onChannels (modify (ChannelStore.applyCreated created))
    let s ← get
    if s.initialStateComplete then subscribeChannel env created.id
  else if command.name = ascii "notifychanneldeleted" then
    let deleted ← Exec.lift (ChannelDeleted.parse command)
    modify (channelDeleted deleted)
  else if command.name = ascii "notifychannelmoved" then
    let entry ← Exec.lift (ChannelMovedEntry.parse command)
    onChannels (ChannelStore.applyMoved entry)
  else if command.name = ascii "notifychanneledited" then
    let entry ← Exec.lift (ChannelEditedEntry.parse command)
    onChannels (ChannelStore.applyEdited entry)
  else if command.name = ascii "notifycliententerview" then
    let entries ← Exec.lift (parseClientEnterView command)
    modify (enterView entries)
  else if command.name = ascii "notifyclientmoved" then
    let entries ← Exec.lift (parseClientMoved command)
    modify (moved entries)
  else if command.name = ascii "notifyclientleftview" then
    let entries ← Exec.lift (parseClientLeftView command)
    modify (leftView entries)
  else if command.name = ascii "notifyclientupdated" then
    let entries ← Exec.lift (parseClientUpdated command)
    modify (updated entries)
  else if command.name = ascii "error" then
    let entries ← Exec.lift (parseCommandResult command)
    modify fun s => entries.foldl commandResultRow s
  else if command.name = ascii "notifytextmessage" then
    let entries ← Exec.lift (parseTextMessage command)
    modify fun s => entries.foldl textMessageRow s
  else if command.name = ascii "notifyclientpoke" then
    let entry ← Exec.lift (ClientPokeEntry.parse command)
    modify (poked entry)

/-- Commands one after the other. -/
def processCommands : List Command → Program Unit
  | [] => pure ()
  | command :: commands => do
    processCommand env command
    processCommands commands

/-- A command, and the state behind it, whether it was processed or threw. -/
def step (s : Session) (command : Command) : Session := Exec.final (processCommand env command) s

/-! ## The initial state -/

/-- The loop of `ReceiveInitialState` over the commands that `ReceiveCommand` returns. -/
def receiveSnapshot : List Command → Program Unit
  | [] => throw (.runtimeError "Receive timed out")
  | command :: commands => do
    if command.name = ascii "channellistfinished" then
      Exec.lift (throwIf (command.rows ≠ []) "Unexpected channellistfinished parameters")
    else
      processCommand env command
      receiveSnapshot commands

/-- The channel that the own client is in after login: the one of its record, else the first
default channel of the tree, else the one that is set already. -/
def placeSelf (s : Session) (tree : List ChannelTreeEntry) : ℕ :=
  match (s.clients.find? s.clientId).filter fun self => self.channelId ≠ 0 with
  | some self => self.channelId
  | none =>
    match tree.find? fun entry => entry.channel.defaultChannel with
    | some entry => entry.channel.id
    | none => s.currentChannelId

/-- `ReceiveInitialState`. -/
def receiveInitialState (commands : List Command) : Program Unit := do
  receiveSnapshot env commands
  let s ← get
  let tree ← Exec.lift s.channels.tree
  let currentChannelId := s.placeSelf tree
  modify fun s => { s with currentChannelId }
  Exec.lift (throwIf (currentChannelId = 0 ∨ !s.channels.channels.contains currentChannelId)
    "Unable to determine current client channel")
  modify fun s => { s with channels := s.channels.setSubscribed currentChannelId true }
  let _ ← onTransport (SessionTransport.sendCommand env (ascii "channelsubscribeall"))
  let s ← get
  Exec.lift (s.clients.validate s.channels.channels.contains)
  modify fun s => { s with initialStateComplete := true }

/-- `Login` behind the command `initserver`: the commands that arrived before it, the snapshot of
the server, and the connected transport. -/
def finishLogin (commandsBeforeInitServer commands : List Command) : Program Unit := do
  processCommands env commandsBeforeInitServer
  receiveInitialState env commands
  onTransport (SessionTransport.setConnected env)

/-! ## Packets -/

/-- `ProcessReadyCommands`; no command makes another one ready. -/
def processReadyCommands : ℕ → Program Unit
  | 0 => return ()
  | ready + 1 => do
    let data ← onTransport SessionTransport.takeReadyCommand
    let command ← Exec.lift (CommandParser.parse data)
    processCommand env command
    processReadyCommands ready

/-- The loop of `ProcessPacket` over the voice frames. -/
def takeVoice : ℕ → Program Unit
  | 0 => return ()
  | ready + 1 => do
    let frame ← onTransport SessionTransport.takeReadyVoice
    modify fun s => { s with events := s.events ++ [.voice frame] }
    takeVoice ready

/-- `ProcessPacket`, for the datagram that is received. -/
def processPacket (datagram : Bytes) : Program Unit := do
  onTransport (SessionTransport.processPacket env datagram)
  let s ← get
  processReadyCommands env s.transport.readyCommands.length
  let s ← get
  takeVoice s.transport.readyVoice.length

end Session

end TsCli
