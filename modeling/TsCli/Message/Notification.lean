import TsCli.Message.Client

/-!
# The other notifications

Subscriptions, command results, text messages and pokes.
-/

namespace TsCli

/-! ## Subscriptions -/

/-- `ChannelSubscriptionState`. -/
structure ChannelSubscriptionState where
  subscribed : Bool
  entries : List ℕ
  deriving DecidableEq, Repr

/-- `ParseChannelId`. -/
def parseSubscriptionChannelId (value : Bytes) : Except Failure ℕ :=
  match parseUnsigned value "cid" with
  | .ok channelId =>
    if channelId = 0 then .error (.runtimeError "Invalid channel subscription cid")
    else .ok channelId
  | .error _ => .error (.runtimeError "Invalid channel subscription cid")

/-- `ChannelSubscriptionState::Parse`. -/
def ChannelSubscriptionState.parse (command : Command) :
    Except Failure ChannelSubscriptionState := do
  let subscribed := command.name = ascii "notifychannelsubscribed"
  throwIf (¬ subscribed ∧ command.name ≠ ascii "notifychannelunsubscribed")
    "Expected channel subscription notification"
  throwIf (command.rows = []) "Channel subscription notification contains no channels"
  let entries ← command.rows.mapM fun row => do parseSubscriptionChannelId (← row.require "cid")
  return { subscribed, entries }

/-- `ChannelSubscribe( channelId ).Serialize()`. -/
def serializeChannelSubscribe (channelId : ℕ) : Except Failure Bytes := do
  throwIf (channelId = 0) "Cannot subscribe to channel zero"
  CommandWriter.writeCommand (ascii "channelsubscribe")
    [.write (ascii "cid") (ascii (toString channelId))]

/-! ## Results -/

/-- `CommandResultEntry`. -/
structure CommandResultEntry where
  id : ℕ
  message : Bytes
  returnCode : Option Bytes := none
  deriving DecidableEq, Repr

/-- The part of `CommandResult::Parse` that reads a row. -/
def CommandResultEntry.parseRow (row : CommandRow) : Except Failure CommandResultEntry := do
  let id ← parseNonemptyUnsigned (← row.require "id") "id"
  throwIf (4294967295 < id) "Invalid error command id"
  let message ← row.require "msg"
  return { id, message, returnCode := row.find? "return_code" }

/-- `CommandResult::Parse`. -/
def parseCommandResult (command : Command) : Except Failure (List CommandResultEntry) := do
  throwIf (command.name ≠ ascii "error") "Expected error command"
  throwIf (command.rows = []) "error command contains no results"
  command.rows.mapM CommandResultEntry.parseRow

/-! ## Text messages -/

/-- `TextMessageTargetMode`. -/
inductive TextMessageTargetMode
  | privateChat
  | channel
  | server
  deriving DecidableEq, Repr

/-- `TextMessageTarget`. -/
structure TextMessageTarget where
  mode : TextMessageTargetMode
  id : ℕ
  deriving DecidableEq, Repr

/-- `TextMessageEntry`. -/
structure TextMessageEntry where
  targetMode : TextMessageTargetMode
  targetId : Option ℕ := none
  invokerId : ℕ := 0
  invokerName : Bytes := []
  invokerUniqueId : Bytes := []
  text : Bytes
  deriving DecidableEq, Repr

/-- `TextMessage::ParseTargetMode`. -/
def parseTargetMode (value : Bytes) : Except Failure TextMessageTargetMode := do
  match ← parseNonemptyUnsigned value "targetmode" with
  | 1 => return .privateChat
  | 2 => return .channel
  | 3 => return .server
  | _ => throw (.runtimeError "Invalid notifytextmessage targetmode")

/-- The part of `TextMessage::Parse` that reads a row. -/
def TextMessageEntry.parseRow (row : CommandRow) : Except Failure TextMessageEntry := do
  let targetMode ← parseTargetMode (← row.require "targetmode")
  let text ← row.require "msg"
  let targetId ← parseNonemptyUnsigned? row "target"
  let invokerId ← parseNonemptyUnsigned? row "invokerid"
  throwIf (65535 < invokerId.getD 0) "Invalid notifytextmessage invokerid"
  return {
    targetMode, text, targetId
    invokerId := invokerId.getD 0
    invokerName := (row.find? "invokername").getD []
    invokerUniqueId := (row.find? "invokeruid").getD [] }

/-- `TextMessage::Parse`. -/
def parseTextMessage (command : Command) : Except Failure (List TextMessageEntry) := do
  throwIf (command.name ≠ ascii "notifytextmessage") "Expected notifytextmessage command"
  throwIf (command.rows = []) "notifytextmessage contains no messages"
  command.rows.mapM TextMessageEntry.parseRow

/-! ## Pokes -/

/-- `ClientPokeEntry`. -/
structure ClientPokeEntry where
  invokerId : ℕ
  invokerName : Bytes
  invokerUniqueId : Bytes
  message : Bytes
  deriving DecidableEq, Repr

/-- `ClientPoke::Parse`. -/
def ClientPokeEntry.parse (command : Command) : Except Failure ClientPokeEntry := do
  throwIf (command.name ≠ ascii "notifyclientpoke") "Expected notifyclientpoke command"
  match command.rows with
  | [row] =>
    let invokerId ← parseUnsigned (← row.require "invokerid") "invokerid"
    throwIf (65535 < invokerId) "Invalid notifyclientpoke invokerid"
    let invokerName ← row.require "invokername"
    let invokerUniqueId ← row.require "invokeruid"
    let message ← row.require "msg"
    return { invokerId, invokerName, invokerUniqueId, message }
  | _ => throw (.runtimeError "notifyclientpoke must contain exactly one poke")

end TsCli
