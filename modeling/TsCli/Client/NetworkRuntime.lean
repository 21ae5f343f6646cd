import TsCli.Config.UserConfig
import TsCli.State.ClientStore

/-!
# The network runtime and the settings of its talkers

The settings of a remote user are saved under its unique id. The mixer holds them under the client
id, which the server re-uses, so each cycle compares the clients with `m_TalkerIdentities`, the
unique ids that the mixer was set for. The user changes settings by actions, after that comparison.
-/

namespace TsCli

open Ascii Exec

/-! ## The mixer -/

/-- `TalkerSettings`. -/
structure TalkerSettings (F : Type) where
  volumeDb : F
  muted : Bool := false
  deriving DecidableEq, Repr

/-- `TalkerMixSettings`. -/
structure TalkerMixSettings (F : Type) where
  gain : F
  muted : Bool
  deriving DecidableEq, Repr

/-- `m_TalkerMixSettings` of the `AudioEngine`. -/
abbrev TalkerMixer (F : Type) := OrderedMap ℕ (TalkerMixSettings F)

namespace TalkerMixer

variable {F : Type} (d : Decibels F)

/-- `AudioEngine::SetTalkerSettings`. -/
def setTalkerSettings (mixer : TalkerMixer F) (clientId : ℕ) (settings : TalkerSettings F) :
    Except Failure (TalkerMixer F) := do
  throwIf (clientId = 0) "Talker client ID cannot be zero"
  throwIf (d.outside settings.volumeDb) "Talker volume must be between -60 and +12 dB"
  .ok (mixer.insert clientId { gain := d.gain settings.volumeDb, muted := settings.muted })

/-- `AudioEngine::RemoveTalker`. -/
def removeTalker (mixer : TalkerMixer F) (clientId : ℕ) : TalkerMixer F := mixer.erase clientId

/-- `AudioEngine::MutedTalkers`. -/
def mutedTalkers (mixer : TalkerMixer F) : List ℕ :=
  (mixer.filter fun _ settings => settings.muted).keys

end TalkerMixer

/-! ## Naming a client -/

/-- `TargetKind`. -/
inductive TargetKind
  | client
  | channel
  deriving DecidableEq, Repr

/-- `TargetCandidate`. -/
structure TargetCandidate where
  kind : TargetKind
  id : ℕ
  name : Bytes
  deriving DecidableEq, Repr

/-- `UniqueTargetStatus`. -/
inductive UniqueTargetStatus
  | noMatch
  | unique
  | ambiguous
  deriving DecidableEq, Repr

/-- `UniqueTargetResolution`, whose target has the fields of the candidate. -/
structure UniqueTargetResolution where
  status : UniqueTargetStatus := .noMatch
  target : Option TargetCandidate := none
  deriving DecidableEq, Repr

namespace TargetResolver

/-- `std::tolower` on a byte. -/
def toLower (c : UInt8) : UInt8 := if 0x41 ≤ c ∧ c ≤ 0x5a then c + 0x20 else c

/-- `TargetResolver::EqualAsciiInsensitive`. -/
def equalAsciiInsensitive (left right : Bytes) : Bool := left.map toLower = right.map toLower

/-- `findMatches` of `ResolveUniqueClient`. -/
def findMatches (candidates : List TargetCandidate) (name : Bytes) (insensitive : Bool) :
    List TargetCandidate :=
  candidates.filter fun candidate => candidate.kind = .client &&
    if insensitive then equalAsciiInsensitive candidate.name name else candidate.name = name

/-- The part of `ResolveUniqueClient` that looks for the name. -/
def resolveName (candidates : List TargetCandidate) (name : Bytes) : UniqueTargetResolution :=
  let exact := findMatches candidates name false
  match (if exact = [] then findMatches candidates name true else exact) with
  | [] => {}
  | [candidate] => { status := .unique, target := some candidate }
  | _ => { status := .ambiguous }

/-- `TargetResolver::ResolveUniqueClient`: `#` and a number is a client id, what else a name. -/
def resolveUniqueClient (candidates : List TargetCandidate) (name : Bytes) :
    UniqueTargetResolution :=
  match name with
  | c :: digits =>
    match (if c = numberSign then fromChars 10 digits else none) with
    | some requestedId =>
      match candidates.find? fun candidate =>
          candidate.kind = .client && candidate.id = requestedId with
      | some candidate => { status := .unique, target := some candidate }
      | none => {}
    | none => resolveName candidates name
  | [] => resolveName candidates name

end TargetResolver

/-! ## The runtime -/

/-- `UserCommandKind`. -/
inductive UserCommandKind
  | inspect
  | volumeDb
  | volumePercent
  | volumeReset
  | mute
  | unmute
  deriving DecidableEq, Repr

/-- `ActionErrorEvent` and `ActionInfoEvent`. -/
inductive ActionEvent
  | actionError (message : Bytes)
  | actionInfo (message : Bytes)
  deriving DecidableEq, Repr

/-- `ClientAction`. -/
inductive ClientAction (F : Type)
  /-- `UserSettingsAction`. -/
  | userSettings (target : Bytes) (kind : UserCommandKind) (numberValue : F)
  /-- `SetUserAudioAction`. -/
  | setUserAudio (clientId : ℕ) (settings : UserConfig F)
  /-- The other actions send to the server and push events, or throw. -/
  | other (outcome : Except Failure (List ActionEvent))

/-- `NetworkRuntime`: what the settings of the talkers depend on. -/
structure NetworkRuntime (F : Type) where
  /-- `m_Connection.Clients()`. -/
  clients : ClientStore
  /-- `m_Connection.ClientId()`. -/
  clientId : ℕ
  userConfigStore : UserConfigStore F
  /-- `m_Audio`. -/
  mixer : TalkerMixer F
  talkerIdentities : OrderedMap ℕ Bytes
  /-- What was pushed to `m_EventQueue` about the actions and the settings. -/
  events : List ActionEvent

/-- `exception.what()`. -/
def Failure.what : Failure → Bytes
  | .runtimeError message => ascii message
  | _ => []

namespace NetworkRuntime

variable {F : Type} (d : Decibels F)

/-- `m_EventQueue.Push`. -/
def push (event : ActionEvent) : EStateM Failure (NetworkRuntime F) Unit :=
  modify fun runtime => { runtime with events := runtime.events ++ [event] }

def pushError (message : Bytes) : EStateM Failure (NetworkRuntime F) Unit :=
  push (.actionError message)

def pushInfo (message : Bytes) : EStateM Failure (NetworkRuntime F) Unit :=
  push (.actionInfo message)

/-- `m_Audio.SetTalkerSettings`. -/
def setTalkerSettings (clientId : ℕ) (settings : TalkerSettings F) :
    EStateM Failure (NetworkRuntime F) Unit := do
  let runtime ← get
  let mixer ← lift (runtime.mixer.setTalkerSettings d clientId settings)
  set { runtime with mixer }

/-- `m_UserConfigStore.Save`. -/
def saveUserConfig (uniqueId : Bytes) (config : UserConfig F) :
    EStateM Failure (NetworkRuntime F) Unit := do
  let runtime ← get
  let userConfigStore ← lift (runtime.userConfigStore.save d uniqueId config)
  set { runtime with userConfigStore }

/-! ### `SyncTalkerSettings` -/

/-- The client is another one whose identity is known. -/
def isActive (clientId : ℕ) (client : Client) : Bool :=
  !(client.id = clientId || !client.detailsKnown || client.uniqueId = [])

/-- The clients that `SyncTalkerSettings` does not pass over. -/
def activeClients (runtime : NetworkRuntime F) : List Client :=
  runtime.clients.values.filter (isActive runtime.clientId)

/-- The mixer with the saved settings of the client. -/
def loadTalker (runtime : NetworkRuntime F) (client : Client) : Except Failure (TalkerMixer F) := do
  let settings ← runtime.userConfigStore.load d client.uniqueId
  runtime.mixer.setTalkerSettings d client.id
    { volumeDb := settings.volumeDb, muted := settings.muted }

/-- The `try` of `SyncTalkerSettings`: the saved settings of the client, or the default ones. -/
def applySaved (client : Client) : EStateM Failure (NetworkRuntime F) Unit := do
  match loadTalker d (← get) client with
  | .ok mixer => modify fun runtime => { runtime with mixer }
  | .error exception =>
    setTalkerSettings d client.id { volumeDb := d.zero }
    pushError (ascii "user settings for " ++ client.nickname ++ ascii ": " ++ exception.what)

/-- One active client of `SyncTalkerSettings`. -/
def syncClient (client : Client) : EStateM Failure (NetworkRuntime F) Unit := do
  let known := (← get).talkerIdentities.find? client.id
  if known = some client.uniqueId then pure ()
  else do
    if known.isSome then
      modify fun runtime => { runtime with mixer := runtime.mixer.removeTalker client.id }
    applySaved d client
    modify fun runtime =>
      { runtime with talkerIdentities := runtime.talkerIdentities.insert client.id client.uniqueId }

/-- One identity that has no client any more. -/
def forgetTalker (runtime : NetworkRuntime F) (clientId : ℕ) : NetworkRuntime F :=
  { runtime with
    mixer := runtime.mixer.removeTalker clientId
    talkerIdentities := runtime.talkerIdentities.erase clientId }

/-- The second loop of `SyncTalkerSettings`. -/
def forgetTalkers (activeClientIds : List ℕ) (runtime : NetworkRuntime F) : NetworkRuntime F :=
  (runtime.talkerIdentities.keys.filter fun clientId => clientId ∉ activeClientIds).foldl
    forgetTalker runtime

/-- `NetworkRuntime::SyncTalkerSettings`. -/
def syncTalkerSettings : EStateM Failure (NetworkRuntime F) Unit := do
  let active := (← get).activeClients
  active.forM (syncClient d)
  modify (forgetTalkers (active.map Client.id))

/-! ### `ActionProcessor` -/

/-- `ActionProcessor::ClientCandidates`. -/
def clientCandidates (runtime : NetworkRuntime F) : List TargetCandidate :=
  (runtime.clients.values.filter fun client =>
    client.detailsKnown && client.nickname ≠ []).map fun client =>
      { kind := .client, id := client.id, name := client.nickname }

/-- The checks on the client of an action: a message, or the client. -/
def audioTarget (runtime : NetworkRuntime F) (clientId : ℕ) : Except Bytes Client :=
  if clientId = runtime.clientId then .error (ascii "Per-user playback settings cannot target yourself")
  else
    match runtime.clients.find? clientId with
    | some client =>
      if !client.detailsKnown || client.uniqueId = [] then
        .error (ascii "Client identity is not known yet")
      else .ok client
    | none => .error (ascii "Client identity is not known yet")

/-- The client that a `UserSettingsAction` names, or a message. -/
def namedTarget (runtime : NetworkRuntime F) (target : Bytes) : Except Bytes Client :=
  let resolution := TargetResolver.resolveUniqueClient runtime.clientCandidates target
  if resolution.status = .ambiguous then
    .error (ascii "Client name '" ++ target ++ ascii "' is ambiguous; use #<client-id>")
  else
    match (if resolution.status = .noMatch then none else resolution.target) with
    | none => .error (ascii "No client matches '" ++ target ++ ascii "'")
    | some candidate => runtime.audioTarget (candidate.id % 2 ^ 16)

/-- The settings after a `UserSettingsAction`. -/
def changedSettings (kind : UserCommandKind) (numberValue : F) (settings : UserConfig F) :
    UserConfig F :=
  match kind with
  | .inspect => settings
  | .volumeDb => { settings with volumeDb := numberValue }
  | .volumePercent =>
    { settings with
      volumeDb := if d.le numberValue d.zero then d.minVolumeDb else d.clamp (d.ofPercent numberValue) }
  | .volumeReset => { settings with volumeDb := d.zero }
  | .mute => { settings with muted := true }
  | .unmute => { settings with muted := false }

/-- The text that a `UserSettingsAction` shows. -/
def settingsLine (client : Client) (settings : UserConfig F) : Bytes :=
  client.nickname ++ ascii " [" ++ numberText 10 client.id ++ ascii "]: volume=" ++
    d.write settings.volumeDb ++ ascii " dB, muted=" ++
    (if settings.muted then ascii "yes" else ascii "no") ++ ascii ", uid=" ++ client.uniqueId

/-- Save the settings of the client, and hand them to the mixer. -/
def replaceSettings (client : Client) (settings : UserConfig F) :
    EStateM Failure (NetworkRuntime F) Unit := do
  saveUserConfig d client.uniqueId settings
  setTalkerSettings d client.id { volumeDb := settings.volumeDb, muted := settings.muted }

/-- `ActionProcessor::ProcessUserSettings`. -/
def processUserSettings (target : Bytes) (kind : UserCommandKind) (numberValue : F) :
    EStateM Failure (NetworkRuntime F) Unit := do
  let runtime ← get
  match runtime.namedTarget target with
  | .error message => pushError message
  | .ok client =>
    let loaded ← lift (runtime.userConfigStore.load d client.uniqueId)
    let settings := changedSettings d kind numberValue loaded
    if kind ≠ .inspect then replaceSettings d client settings
    pushInfo (settingsLine d client settings)

/-- `ActionProcessor::ProcessSetUserAudio`. -/
def processSetUserAudio (clientId : ℕ) (settings : UserConfig F) :
    EStateM Failure (NetworkRuntime F) Unit := do
  match (← get).audioTarget clientId with
  | .error message => pushError message
  | .ok client => replaceSettings d client settings

/-- `ActionProcessor::Process`. -/
def process : ClientAction F → EStateM Failure (NetworkRuntime F) Unit
  | .userSettings target kind numberValue => processUserSettings d target kind numberValue
  | .setUserAudio clientId settings => processSetUserAudio d clientId settings
  | .other outcome => do
    let events ← lift outcome
    modify fun runtime => { runtime with events := runtime.events ++ events }

/-! ### `Run` -/

/-- What happens to the runtime. -/
inductive Input (F : Type)
  /-- The connection processed packets: its clients and its own id may be any others. -/
  | received (clients : ClientStore) (clientId : ℕ)
  /-- The handler of a session event. -/
  | sessionEvent
  /-- The handler of a cycle, which takes all actions from the queue. -/
  | cycle (actions : List (ClientAction F))

/-- The part of `Run` for one input. -/
def step : Input F → EStateM Failure (NetworkRuntime F) Unit
  | .received clients clientId => modify fun runtime => { runtime with clients, clientId }
  | .sessionEvent => syncTalkerSettings d
  | .cycle actions => do
    syncTalkerSettings d
    actions.forM (process d)

/-- The constructor, and a run without an exception. -/
def run (inputs : List (Input F)) : EStateM Failure (NetworkRuntime F) Unit := do
  syncTalkerSettings d
  inputs.forM (step d)

end NetworkRuntime

end TsCli
