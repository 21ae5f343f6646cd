import TsCli.Lib.Registry
import TsCli.Message.Client

/-!
# The client store

The store keeps the clients by id. A client that is moved or updated before it has entered is kept
as a placeholder without details; the channel of a placeholder wins over the one of the
notification that brings the details (`enteredChannelId`).
-/

namespace TsCli

/-- `Client`. -/
structure Client where
  id : ℕ := 0
  channelId : ℕ := 0
  nickname : Bytes := []
  uniqueId : Bytes := []
  away : Bool := false
  inputMuted : Bool := false
  outputMuted : Bool := false
  inputHardware : Bool := true
  outputHardware : Bool := true
  recording : Bool := false
  prioritySpeaker : Bool := false
  channelCommander : Bool := false
  serverQuery : Bool := false
  /-- A placeholder has none. -/
  detailsKnown : Bool := false
  deriving DecidableEq, Repr

/-- `ClientStore`: `m_Clients`, whose entries are stored under their own id. -/
abbrev ClientStore := Registry Client.id

namespace ClientStore

/-! ## Operations -/

/-- The channel that `Apply( ClientEnterView )` stores for an entry. -/
def enteredChannelId (existing : Option Client) (channelId : ℕ) : ℕ :=
  match existing with
  | some client =>
    if client.channelId ≠ 0 ∧ (channelId = 0 ∨ !client.detailsKnown) then client.channelId
    else channelId
  | none => channelId

/-- The client that `Apply( ClientEnterView )` stores for an entry. -/
def enteredClient (existing : Option Client) (entry : ClientEnterViewEntry) : Client where
  id := entry.id
  channelId := enteredChannelId existing entry.channelId
  nickname := entry.nickname
  uniqueId := if entry.uniqueId = [] then (existing.map Client.uniqueId).getD [] else entry.uniqueId
  away := entry.away
  inputMuted := entry.inputMuted
  outputMuted := entry.outputMuted
  inputHardware := entry.inputHardware
  outputHardware := entry.outputHardware
  recording := entry.recording
  prioritySpeaker := entry.prioritySpeaker
  channelCommander := entry.channelCommander
  serverQuery := entry.serverQuery
  detailsKnown := true

/-- One entry of `ClientStore::Apply( ClientEnterView )`. -/
def enter (clients : ClientStore) (entry : ClientEnterViewEntry) : ClientStore :=
  clients.upsert (enteredClient (clients.find? entry.id) entry)

/-- `ClientStore::Apply( ClientEnterView )`. -/
def applyEnterView (entries : List ClientEnterViewEntry) (clients : ClientStore) : ClientStore :=
  entries.foldl enter clients

/-- `ClientStore::Move`. -/
def move (clients : ClientStore) (clientId channelId : ℕ) : ClientStore :=
  clients.upsert { (clients.find? clientId).getD {} with id := clientId, channelId }

/-- `ClientStore::Apply( ClientMoved )`. -/
def applyMoved (entries : List ClientMovedEntry) (clients : ClientStore) : ClientStore :=
  entries.foldl (fun clients entry => clients.move entry.id entry.channelId) clients

/-- `ClientStore::Apply( ClientLeftView )`. -/
def applyLeftView (entries : List ClientLeftViewEntry) (clients : ClientStore) : ClientStore :=
  entries.foldl (fun clients entry => clients.erase entry.id) clients

/-- The fields that an update carries, over those of the client. -/
def updateFields (entry : ClientUpdatedEntry) (client : Client) : Client :=
  { client with
    id := entry.id
    nickname := entry.nickname.getD client.nickname
    away := entry.away.getD client.away
    inputMuted := entry.inputMuted.getD client.inputMuted
    outputMuted := entry.outputMuted.getD client.outputMuted
    inputHardware := entry.inputHardware.getD client.inputHardware
    outputHardware := entry.outputHardware.getD client.outputHardware
    recording := entry.recording.getD client.recording
    prioritySpeaker := entry.prioritySpeaker.getD client.prioritySpeaker
    channelCommander := entry.channelCommander.getD client.channelCommander }

/-- One entry of `ClientStore::Apply( ClientUpdated )`. -/
def update (clients : ClientStore) (entry : ClientUpdatedEntry) : ClientStore :=
  clients.upsert (updateFields entry ((clients.find? entry.id).getD {}))

/-- `ClientStore::Apply( ClientUpdated )`. -/
def applyUpdated (entries : List ClientUpdatedEntry) (clients : ClientStore) : ClientStore :=
  entries.foldl update clients

/-- `ClientStore::Remove`. -/
def remove (clients : ClientStore) (clientId : ℕ) : ClientStore := clients.erase clientId

/-- `ClientStore::RemoveInChannel`. -/
def removeInChannel (clients : ClientStore) (channelId preserveClientId : ℕ) : ClientStore :=
  clients.filter fun client => !(client.channelId = channelId && client.id ≠ preserveClientId)

/-- `ClientStore::Validate`. -/
def validate (clients : ClientStore) (hasChannel : ℕ → Bool) : Except Failure Unit :=
  throwIf (clients.values.any fun client => client.channelId ≠ 0 && !hasChannel client.channelId)
    "Client references an unknown channel"

/-! ## Lookups -/

variable {clients : ClientStore} {c : ℕ}

theorem find?_enter (clients : ClientStore) (entry : ClientEnterViewEntry) (c : ℕ) :
    (clients.enter entry).find? c =
      if c = entry.id then some (enteredClient (clients.find? entry.id) entry)
      else clients.find? c := Registry.find?_upsert ..

theorem find?_move (clients : ClientStore) (clientId channelId c : ℕ) :
    (clients.move clientId channelId).find? c =
      if c = clientId then some { (clients.find? clientId).getD {} with id := clientId, channelId }
      else clients.find? c := Registry.find?_upsert ..

theorem find?_update (clients : ClientStore) (entry : ClientUpdatedEntry) (c : ℕ) :
    (clients.update entry).find? c =
      if c = entry.id then some (updateFields entry ((clients.find? entry.id).getD {}))
      else clients.find? c := Registry.find?_upsert ..

theorem find?_remove (clients : ClientStore) (clientId c : ℕ) :
    (clients.remove clientId).find? c = if c = clientId then none else clients.find? c :=
  Registry.find?_erase ..

/-- The client that is preserved stays, wherever it is. -/
theorem find?_removeInChannel_self (clients : ClientStore) (channelId c : ℕ) :
    (clients.removeInChannel channelId c).find? c = clients.find? c := by
  unfold removeInChannel
  rw [Registry.find?_filter]
  cases h : clients.find? c with
  | none => rfl
  | some client =>
    have hid : client.id = c := Registry.key_of_find? h
    simp [Option.filter, hid]

/-- Another one stays if it is not in the channel. -/
theorem find?_removeInChannel_of_ne (clients : ClientStore) (channelId : ℕ) {preserveClientId c : ℕ}
    (hc : c ≠ preserveClientId) :
    (clients.removeInChannel channelId preserveClientId).find? c =
      (clients.find? c).filter fun client => client.channelId ≠ channelId := by
  unfold removeInChannel
  rw [Registry.find?_filter]
  cases h : clients.find? c with
  | none => rfl
  | some client =>
    have hid : client.id = c := Registry.key_of_find? h
    simp [Option.filter, hid, hc]

end ClientStore

end TsCli
