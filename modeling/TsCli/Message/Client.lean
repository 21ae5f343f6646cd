import TsCli.Message.Channel

/-!
# Messages about clients

The notifications that say where the clients of the server are and what is known of them. One
command can carry several rows, each about one client.
-/

namespace TsCli

/-- `ParseUnsigned` of these messages. -/
def parseNonemptyUnsigned (value : Bytes) (name : String) : Except Failure ℕ := do
  throwIf (value = []) ("Empty unsigned command parameter: " ++ name)
  parseUnsigned value name

/-- A parameter that is parsed when it is there. -/
def parseNonemptyUnsigned? (row : CommandRow) (name : String) : Except Failure (Option ℕ) :=
  match CommandRow.find? row name with
  | none => .ok none
  | some value => do
    let parsed ← parseNonemptyUnsigned value name
    return some parsed

/-- `ParseOptionalBoolean`, with `none` for a missing parameter. -/
def parseOptionalBoolean? (row : CommandRow) (name : String) : Except Failure (Option Bool) := do
  match ← parseNonemptyUnsigned? row name with
  | none => return none
  | some parsed =>
    throwIf (1 < parsed) ("Invalid boolean command parameter: " ++ name)
    return some (parsed != 0)

/-- `ParseOptionalBoolean` of `ClientEnterView`. -/
def parseOptionalBoolean (row : CommandRow) (name : String) (defaultValue : Bool) :
    Except Failure Bool := do
  let parsed ← parseOptionalBoolean? row name
  return parsed.getD defaultValue

/-- The parameter `clid` of a message that rejects the id zero. -/
def parseClientId (row : CommandRow) (message : String) : Except Failure ℕ := do
  let clientId ← parseNonemptyUnsigned (← row.require "clid") "clid"
  throwIf (clientId = 0 ∨ 65535 < clientId) message
  return clientId

/-! ## Entered -/

/-- `ClientEnterViewEntry`. -/
structure ClientEnterViewEntry where
  id : ℕ
  channelId : ℕ := 0
  nickname : Bytes
  uniqueId : Bytes := []
  away : Bool := false
  inputMuted : Bool := false
  outputMuted : Bool := false
  inputHardware : Bool := true
  outputHardware : Bool := true
  recording : Bool := false
  prioritySpeaker : Bool := false
  channelCommander : Bool := false
  serverQuery : Bool := false
  deriving DecidableEq, Repr

/-- The part of `ClientEnterView::Parse` that reads a row. -/
def ClientEnterViewEntry.parseRow (row : CommandRow) : Except Failure ClientEnterViewEntry := do
  let id ← parseClientId row "Invalid notifycliententerview clid"
  let channelId ← parseNonemptyUnsigned? row "ctid"
  let nickname ← row.require "client_nickname"
  throwIf (nickname = []) "notifycliententerview contains an empty nickname"
  let away ← parseOptionalBoolean row "client_away" false
  let inputMuted ← parseOptionalBoolean row "client_input_muted" false
  let outputMuted ← parseOptionalBoolean row "client_output_muted" false
  let inputHardware ← parseOptionalBoolean row "client_input_hardware" true
  let outputHardware ← parseOptionalBoolean row "client_output_hardware" true
  let recording ← parseOptionalBoolean row "client_is_recording" false
  let prioritySpeaker ← parseOptionalBoolean row "client_is_priority_speaker" false
  let channelCommander ← parseOptionalBoolean row "client_is_channel_commander" false
  let serverQuery ← parseOptionalBoolean row "client_type" false
  return {
    id, nickname, away, inputMuted, outputMuted, inputHardware, outputHardware, recording,
    prioritySpeaker, channelCommander, serverQuery
    channelId := channelId.getD 0
    uniqueId := (row.find? "client_unique_identifier").getD [] }

/-- `ClientEnterView::Parse`. -/
def parseClientEnterView (command : Command) : Except Failure (List ClientEnterViewEntry) := do
  throwIf (command.name ≠ ascii "notifycliententerview") "Expected notifycliententerview command"
  throwIf (command.rows = []) "notifycliententerview contains no clients"
  command.rows.mapM ClientEnterViewEntry.parseRow

/-! ## Moved -/

/-- `ClientMovedEntry`. -/
structure ClientMovedEntry where
  id : ℕ
  channelId : ℕ
  reasonId : ℕ
  reasonMessage : Bytes := []
  deriving DecidableEq, Repr

/-- The part of `ClientMoved::Parse` that reads a row. -/
def ClientMovedEntry.parseRow (row : CommandRow) : Except Failure ClientMovedEntry := do
  let id ← parseClientId row "Invalid notifyclientmoved clid"
  let channelId ← parseNonemptyUnsigned (← row.require "ctid") "ctid"
  let reasonId ← parseNonemptyUnsigned (← row.require "reasonid") "reasonid"
  return { id, channelId, reasonId, reasonMessage := (row.find? "reasonmsg").getD [] }

/-- `ClientMoved::Parse`. -/
def parseClientMoved (command : Command) : Except Failure (List ClientMovedEntry) := do
  throwIf (command.name ≠ ascii "notifyclientmoved") "Expected notifyclientmoved command"
  throwIf (command.rows = []) "notifyclientmoved contains no clients"
  command.rows.mapM ClientMovedEntry.parseRow

/-! ## Left -/

/-- `ClientLeftViewEntry`. -/
structure ClientLeftViewEntry where
  id : ℕ
  fromChannelId : ℕ := 0
  toChannelId : ℕ := 0
  reasonId : ℕ := 0
  reasonMessage : Bytes := []
  deriving DecidableEq, Repr

/-- The part of `ClientLeftView::Parse` that reads a row. -/
def ClientLeftViewEntry.parseRow (row : CommandRow) : Except Failure ClientLeftViewEntry := do
  let id ← parseClientId row "Invalid notifyclientleftview clid"
  let fromChannelId ← parseNonemptyUnsigned? row "cfid"
  let toChannelId ← parseNonemptyUnsigned? row "ctid"
  let reasonId ← parseNonemptyUnsigned? row "reasonid"
  return {
    id
    fromChannelId := fromChannelId.getD 0
    toChannelId := toChannelId.getD 0
    reasonId := reasonId.getD 0
    reasonMessage := (row.find? "reasonmsg").getD [] }

/-- `ClientLeftView::Parse`. -/
def parseClientLeftView (command : Command) : Except Failure (List ClientLeftViewEntry) := do
  throwIf (command.name ≠ ascii "notifyclientleftview") "Expected notifyclientleftview command"
  throwIf (command.rows = []) "notifyclientleftview contains no clients"
  command.rows.mapM ClientLeftViewEntry.parseRow

/-! ## Updated -/

/-- `ClientUpdatedEntry`. -/
structure ClientUpdatedEntry where
  id : ℕ
  nickname : Option Bytes := none
  away : Option Bool := none
  inputMuted : Option Bool := none
  outputMuted : Option Bool := none
  inputHardware : Option Bool := none
  outputHardware : Option Bool := none
  recording : Option Bool := none
  prioritySpeaker : Option Bool := none
  channelCommander : Option Bool := none
  deriving DecidableEq, Repr

/-- The part of `ClientUpdated::Parse` that reads a row; it lets the id zero pass. -/
def ClientUpdatedEntry.parseRow (row : CommandRow) : Except Failure ClientUpdatedEntry := do
  let id ← parseNonemptyUnsigned (← row.require "clid") "clid"
  throwIf (65535 < id) "Invalid notifyclientupdated clid"
  let away ← parseOptionalBoolean? row "client_away"
  let inputMuted ← parseOptionalBoolean? row "client_input_muted"
  let outputMuted ← parseOptionalBoolean? row "client_output_muted"
  let inputHardware ← parseOptionalBoolean? row "client_input_hardware"
  let outputHardware ← parseOptionalBoolean? row "client_output_hardware"
  let recording ← parseOptionalBoolean? row "client_is_recording"
  let prioritySpeaker ← parseOptionalBoolean? row "client_is_priority_speaker"
  let channelCommander ← parseOptionalBoolean? row "client_is_channel_commander"
  return {
    id, away, inputMuted, outputMuted, inputHardware, outputHardware, recording, prioritySpeaker,
    channelCommander
    nickname := row.find? "client_nickname" }

/-- `ClientUpdated::Parse`. -/
def parseClientUpdated (command : Command) : Except Failure (List ClientUpdatedEntry) := do
  throwIf (command.name ≠ ascii "notifyclientupdated") "Expected notifyclientupdated command"
  throwIf (command.rows = []) "notifyclientupdated contains no clients"
  command.rows.mapM ClientUpdatedEntry.parseRow

/-! ## Names -/

section Names

variable {command : Command}

theorem name_of_throwIf_bind {α : Type} {name : Bytes} {message : String}
    {rest : Unit → Except Failure α} {a : α}
    (h : (throwIf (command.name ≠ name) message >>= rest) = .ok a) : command.name = name := by
  obtain ⟨_, hname, -⟩ := bind_eq_ok h
  exact not_not.1 (not_of_throwIf hname)

theorem name_of_parseClientEnterView {entries : List ClientEnterViewEntry}
    (h : parseClientEnterView command = .ok entries) :
    command.name = ascii "notifycliententerview" := name_of_throwIf_bind h

theorem name_of_parseClientMoved {entries : List ClientMovedEntry}
    (h : parseClientMoved command = .ok entries) :
    command.name = ascii "notifyclientmoved" := name_of_throwIf_bind h

theorem name_of_parseClientLeftView {entries : List ClientLeftViewEntry}
    (h : parseClientLeftView command = .ok entries) :
    command.name = ascii "notifyclientleftview" := name_of_throwIf_bind h

end Names

end TsCli
