import TsCli.Client.CommandLine
import TsCli.Client.LiveState
import TsCli.Client.TreeListing
import TsCli.Message.ClientCommands

/-!
# From the line to the server

The terminal turns a line into an action, and the network thread takes the actions one after the
other and turns each into a command for the server, or tells why it does not. A reply goes to the
sender of the last private message that the terminal was shown.

However the two threads interleave, every action that a line says is taken once and in order, and
what is sent for it is one command that the parser reads as what the action asks for
(`conversation`).
-/

namespace TsCli

open Ascii Exec

/-- `ClientAction`. -/
inductive UserAction
  | sendCurrentChannelMessage (text : Bytes)
  | sendPrivateMessage (target text : Bytes)
  | sendTextMessage (target : TextMessageTarget) (text : Bytes)
  | joinChannel (channel : Bytes)
  | moveToChannel (channelId : ℕ)
  | changeNickname (nickname : Bytes)
  | listTree (start : Option Bytes)
  | userSettings (target : Bytes) (kind : UserCommandKind) (numberValue : Binary32)
  | setUserAudio (clientId : ℕ) (settings : UserConfig Binary32)
  deriving DecidableEq

/-! ## The terminal -/

/-- What the terminal does with a line on its own. -/
inductive TerminalOutput
  /-- `PrintError`. -/
  | error (message : Bytes)
  /-- The branch for an `AudioCommand`, which works on the audio engine. -/
  | audio (kind : AudioCommandKind) (value : Bytes) (numberValue : Binary32)
  /-- `Clear`. -/
  | clear
  /-- `PrintHelp`. -/
  | help
  /-- `PrintInfo( "disconnecting" )`. -/
  | disconnecting
  deriving DecidableEq

/-- What comes of a line: the action that is pushed, what the terminal does, and what `HandleLine`
returns. -/
structure HandledLine where
  action : Option UserAction := none
  output : Option TerminalOutput := none
  running : Bool := true
  deriving DecidableEq

namespace CommandHandler

/-- `CommandHandler::Observe`, on `m_ReplyTarget`. -/
def observe (replyTarget : Option TextMessageTarget) : RuntimeEvent → Option TextMessageTarget
  | .protocol (.textMessage event) =>
    if event.replyTarget.any fun target => target.mode = .privateChat then event.replyTarget
    else replyTarget
  | _ => replyTarget

/-- The visitor of `HandleLine`. -/
def handleCommand (replyTarget : Option TextMessageTarget) : InputCommand → HandledLine
  | .sendChannel text => { action := some (.sendCurrentChannelMessage text) }
  | .privateMessage target text => { action := some (.sendPrivateMessage target text) }
  | .reply text =>
    match replyTarget with
    | none => { output := some (.error (ascii "There is no private message to reply to")) }
    | some target => { action := some (.sendTextMessage target text) }
  | .join channel => { action := some (.joinChannel channel) }
  | .nick nickname => { action := some (.changeNickname nickname) }
  | .list start => { action := some (.listTree start) }
  | .user target kind numberValue => { action := some (.userSettings target kind numberValue) }
  | .audio kind value numberValue => { output := some (.audio kind value numberValue) }
  | .clear => { output := some .clear }
  | .help => { output := some .help }
  | .quit => { output := some .disconnecting, running := false }

/-- `CommandHandler::HandleLine`. -/
def handleLine (replyTarget : Option TextMessageTarget) (line : Bytes) : HandledLine :=
  match Cli.parse line with
  | .error exception => { output := some (.error exception.what) }
  | .ok none => {}
  | .ok (some command) => handleCommand replyTarget command

end CommandHandler

/-! ## The connection -/

namespace Session

variable (env : Environment)

/-- `Session::SendTextMessage`. -/
def sendTextMessage (target : TextMessageTarget) (text : Bytes) : Program Unit := do
  let s ← get
  Exec.lift (throwIf (s.clientId = 0) "Session is not logged in")
  let data ← Exec.lift (SendTextMessage.serialize target text)
  let _ ← onTransport (SessionTransport.sendCommand env data)

/-- `Session::MoveToChannel`. -/
def moveToChannel (channelId : ℕ) : Program Unit := do
  let s ← get
  Exec.lift (throwIf (s.clientId = 0) "Session is not logged in")
  let data ← Exec.lift (ClientMove.serialize s.clientId channelId)
  let _ ← onTransport (SessionTransport.sendCommand env data)

/-- `Session::ChangeNickname`. -/
def changeNickname (nickname : Bytes) : Program Unit := do
  let s ← get
  Exec.lift (throwIf (s.clientId = 0) "Session is not logged in")
  let data ← Exec.lift (ClientUpdate.serialize nickname)
  let _ ← onTransport (SessionTransport.sendCommand env data)

end Session

namespace TargetResolver

/-- `TargetResolver::ResolvePrivate`. -/
def resolvePrivate (candidates : List TargetCandidate) (name : Bytes) : Option TargetCandidate :=
  resolve candidates name .client

end TargetResolver

namespace ActionProcessor

variable (env : Environment)
  (processSettings : UserAction → Session → Except Failure (List ActionEvent))

/-- `ActionProcessor::ClientCandidates`. -/
def clientCandidates (clients : ClientStore) : List TargetCandidate :=
  (clients.values.filter fun client => client.detailsKnown && client.nickname ≠ []).map fun client =>
    { kind := .client, id := client.id, name := client.nickname }

/-- `ActionProcessor::Process`, and what it pushes to the event queue. The settings of the users are
not sent to the server; they are modelled on their own, and a parameter here. -/
def processAction (action : UserAction) : Session.Program (List ActionEvent) := do
  let s ← get
  match action with
  | .sendCurrentChannelMessage text =>
    if s.currentChannelId = 0 ∨ !s.channels.channels.contains s.currentChannelId then
      return [.actionError (ascii "Current channel is unknown")]
    else
      Session.sendTextMessage env { mode := .channel, id := s.currentChannelId } text
      return []
  | .sendPrivateMessage target text =>
    match TargetResolver.resolvePrivate (clientCandidates s.clients) target with
    | none => return [.actionError (ascii "No client matches '" ++ target ++ ascii "'")]
    | some candidate =>
      Session.sendTextMessage env { mode := .privateChat, id := candidate.id } text
      return []
  | .sendTextMessage target text =>
    Session.sendTextMessage env target text
    return []
  | .joinChannel channel =>
    let candidates ← Exec.lift (channelCandidates s.channels)
    match TargetResolver.resolveChannel candidates channel with
    | none => return [.actionError (ascii "No channel matches '" ++ channel ++ ascii "'")]
    | some candidate =>
      Session.moveToChannel env candidate.id
      return []
  | .moveToChannel channelId =>
    if !s.channels.channels.contains channelId then
      return [.actionError (ascii "Channel " ++ numberText 10 channelId ++ ascii " no longer exists")]
    else
      Session.moveToChannel env channelId
      return []
  | .changeNickname nickname =>
    Session.changeNickname env nickname
    return []
  | .listTree start => Exec.lift (processListTree s.channels s.clients s.clientId start)
  | .userSettings .. | .setUserAudio .. => Exec.lift (processSettings action s)

end ActionProcessor

/-! ## What the server is asked for -/

/-- The command for a text message. -/
def messageCommand (target : TextMessageTarget) (text : Bytes) : Command where
  name := ascii "sendtextmessage"
  rows := [SendTextMessage.row target text]

/-- The command for a move. -/
def moveCommand (clientId channelId : ℕ) : Command where
  name := ascii "clientmove"
  rows := [ClientMove.row clientId channelId]

/-- The command for a nickname. -/
def nicknameCommand (nickname : Bytes) : Command where
  name := ascii "clientupdate"
  rows := [ClientUpdate.row nickname]

/-- The candidate that a name means: one of that name or, when there is none, one of that name in
another case. -/
structure Means (candidates : List TargetCandidate) (kind : TargetKind) (name : Bytes)
    (candidate : TargetCandidate) : Prop where
  mem : candidate ∈ candidates
  ofKind : candidate.kind = kind
  named : candidate.name = name ∨
    TargetResolver.equalAsciiInsensitive candidate.name name = true ∧
      ∀ other ∈ candidates, other.kind = kind → other.name ≠ name

/-- What an action asks the server for. -/
inductive Asks (s : Session) : UserAction → Command → Prop
  | currentChannel {text : Bytes} (hne : s.currentChannelId ≠ 0)
    (hknown : s.channels.channels.contains s.currentChannelId = true) :
    Asks s (.sendCurrentChannelMessage text)
      (messageCommand { mode := .channel, id := s.currentChannelId } text)
  | client {target text : Bytes} {candidate : TargetCandidate}
    (h : Means (ActionProcessor.clientCandidates s.clients) .client target candidate) :
    Asks s (.sendPrivateMessage target text)
      (messageCommand { mode := .privateChat, id := candidate.id } text)
  | target {target : TextMessageTarget} {text : Bytes} :
    Asks s (.sendTextMessage target text) (messageCommand target text)
  | channel {channel : Bytes} {candidates : List TargetCandidate} {candidate : TargetCandidate}
    (hcandidates : ActionProcessor.channelCandidates s.channels = .ok candidates)
    (h : Means candidates .channel channel candidate) :
    Asks s (.joinChannel channel) (moveCommand s.clientId candidate.id)
  | channelId {channelId : ℕ} (hknown : s.channels.channels.contains channelId = true) :
    Asks s (.moveToChannel channelId) (moveCommand s.clientId channelId)
  | nickname {nickname : Bytes} :
    Asks s (.changeNickname nickname) (nicknameCommand nickname)

variable {env : Environment} {processSettings : UserAction → Session → Except Failure (List ActionEvent)}

/-- The session sent one command, and the parser of commands reads it so. -/
def Sent (env : Environment) (s : Session) (command : Command) (s' : Session) : Prop :=
  ∃ data packetId t, CommandParser.parse data = .ok command ∧
    SessionTransport.sendCommand env data s.transport = .ok packetId t ∧
      s' = { s with transport := t }

/-! ## Names -/

namespace TargetResolver

variable {candidates : List TargetCandidate} {kind : TargetKind} {name : Bytes}

theorem equalAsciiInsensitive_self (name : Bytes) : equalAsciiInsensitive name name = true :=
  decide_eq_true rfl

theorem means_of_resolve {candidate : TargetCandidate}
    (h : resolve candidates name kind = some candidate) : Means candidates kind name candidate := by
  unfold resolve at h
  split at h
  · next exact hexact =>
    cases h
    have hfound := List.find?_some hexact
    rw [Bool.and_eq_true, decide_eq_true_iff, decide_eq_true_iff] at hfound
    exact ⟨List.mem_of_find?_eq_some hexact, hfound.1, .inl hfound.2⟩
  · next hnone =>
    have hfound := List.find?_some h
    rw [Bool.and_eq_true, decide_eq_true_iff] at hfound
    refine ⟨List.mem_of_find?_eq_some h, hfound.1, .inr ⟨hfound.2, ?_⟩⟩
    intro other hother hkind hname
    have hnot := List.find?_eq_none.1 hnone other hother
    simp [hkind, hname] at hnot

/-- Nobody is meant by a name that nobody has. -/
theorem not_means_of_resolve (h : resolve candidates name kind = none)
    (candidate : TargetCandidate) : ¬ Means candidates kind name candidate := by
  intro hmeans
  unfold resolve at h
  split at h
  · cases h
  · have hnot := List.find?_eq_none.1 h candidate hmeans.mem
    have hequal : equalAsciiInsensitive candidate.name name = true := by
      rcases hmeans.named with hname | ⟨hname, -⟩
      · rw [hname]
        exact equalAsciiInsensitive_self name
      · exact hname
    simp [hmeans.ofKind, hequal] at hnot

end TargetResolver

/-! ## What is sent -/

theorem sent_of_row {name data : Bytes} {row : CommandRow} {s s' : Session} {packetId : UInt16}
    (hne : row ≠ []) (hnames : ∀ parameter ∈ row, ¬ EndsInLineEnd parameter.name)
    (hdata : rowCommand name row = .ok data)
    (hrun : Session.onTransport (SessionTransport.sendCommand env data) s = .ok packetId s') :
    Sent env s { name, rows := [row] } s' := by
  have hread := parse_rowCommand hne hnames hdata
  unfold Session.onTransport zoom at hrun
  split at hrun
  · next t hsend =>
    cases hrun
    exact ⟨data, _, t, hread, hsend, rfl⟩
  · cases hrun

theorem sent_sendTextMessage {target : TextMessageTarget} {text : Bytes} {s s' : Session}
    (hrun : Session.sendTextMessage env target text s = .ok () s') :
    Sent env s (messageCommand target text) s' := by
  unfold Session.sendTextMessage at hrun
  rw [run_get_bind, run_lift_bind_eq_ok_iff] at hrun
  obtain ⟨_, -, hrun⟩ := hrun
  rw [run_lift_bind_eq_ok_iff] at hrun
  obtain ⟨data, hdata, hrun⟩ := hrun
  obtain ⟨packetId, s₁, hsend, hrun⟩ := (run_bind_eq_ok_iff _).1 hrun
  cases hrun
  obtain ⟨_, -, hdata⟩ := bind_eq_ok hdata
  obtain ⟨_, -, hdata⟩ := bind_eq_ok hdata
  exact sent_of_row (List.cons_ne_nil _ _) (names_sendTextMessage target text) hdata hsend

theorem sent_moveToChannel {channelId : ℕ} {s s' : Session}
    (hrun : Session.moveToChannel env channelId s = .ok () s') :
    Sent env s (moveCommand s.clientId channelId) s' := by
  unfold Session.moveToChannel at hrun
  rw [run_get_bind, run_lift_bind_eq_ok_iff] at hrun
  obtain ⟨_, -, hrun⟩ := hrun
  rw [run_lift_bind_eq_ok_iff] at hrun
  obtain ⟨data, hdata, hrun⟩ := hrun
  obtain ⟨packetId, s₁, hsend, hrun⟩ := (run_bind_eq_ok_iff _).1 hrun
  cases hrun
  obtain ⟨_, -, hdata⟩ := bind_eq_ok hdata
  obtain ⟨_, -, hdata⟩ := bind_eq_ok hdata
  exact sent_of_row (List.cons_ne_nil _ _) (names_clientMove s.clientId channelId) hdata hsend

theorem sent_changeNickname {nickname : Bytes} {s s' : Session}
    (hrun : Session.changeNickname env nickname s = .ok () s') :
    Sent env s (nicknameCommand nickname) s' := by
  unfold Session.changeNickname at hrun
  rw [run_get_bind, run_lift_bind_eq_ok_iff] at hrun
  obtain ⟨_, -, hrun⟩ := hrun
  rw [run_lift_bind_eq_ok_iff] at hrun
  obtain ⟨data, hdata, hrun⟩ := hrun
  obtain ⟨packetId, s₁, hsend, hrun⟩ := (run_bind_eq_ok_iff _).1 hrun
  cases hrun
  obtain ⟨_, -, hdata⟩ := bind_eq_ok hdata
  exact sent_of_row (List.cons_ne_nil _ _) (names_clientUpdate nickname) hdata hsend

/-- What becomes of an action that is processed: one command, for what it asks, and nothing to tell
the user; or no command, when there is nothing that it asks for. -/
def Processed (env : Environment) (s : Session) (action : UserAction) (events : List ActionEvent)
    (s' : Session) : Prop :=
  (events = [] ∧ ∃ command, Asks s action command ∧ Sent env s command s') ∨
    (s' = s ∧ ∀ command, ¬ Asks s action command)

theorem processed_of_send {action : UserAction} {command : Command} {m : Session.Program Unit}
    {events : List ActionEvent} {s s' : Session} (hasks : Asks s action command)
    (hsent : ∀ {s₁}, m s = .ok () s₁ → Sent env s command s₁)
    (hrun : (do m; return [] : Session.Program (List ActionEvent)) s = .ok events s') :
    Processed env s action events s' := by
  obtain ⟨_, s₁, hsend, hrun⟩ := (run_bind_eq_ok_iff _).1 hrun
  cases hrun
  exact .inl ⟨rfl, command, hasks, hsent hsend⟩

theorem state_of_lift {α : Type} {x : Except Failure α} {a : α} {s s' : Session}
    (hrun : (Exec.lift x : Session.Program α) s = .ok a s') : s' = s := by
  cases x with
  | ok a => cases hrun; rfl
  | error e => cases hrun

theorem processAction_processed {action : UserAction} {events : List ActionEvent} {s s' : Session}
    (hrun : ActionProcessor.processAction env processSettings action s = .ok events s') :
    Processed env s action events s' := by
  unfold ActionProcessor.processAction at hrun
  rw [run_get_bind] at hrun
  cases action with
  | sendCurrentChannelMessage text =>
    dsimp only at hrun
    rw [run_ite] at hrun
    split_ifs at hrun with hunknown
    · cases hrun
      refine .inr ⟨rfl, ?_⟩
      intro _ hasks
      cases hasks with
      | currentChannel hne hknown => simp [hne, hknown] at hunknown
    · rw [not_or, Bool.not_eq_true, Bool.not_eq_false'] at hunknown
      exact processed_of_send (.currentChannel hunknown.1 hunknown.2) sent_sendTextMessage hrun
  | sendPrivateMessage target text =>
    dsimp only at hrun
    cases hresolve : TargetResolver.resolvePrivate (ActionProcessor.clientCandidates s.clients) target with
    | none =>
      rw [hresolve] at hrun
      cases hrun
      refine .inr ⟨rfl, ?_⟩
      intro _ hasks
      cases hasks with
      | client hmeans => exact TargetResolver.not_means_of_resolve hresolve _ hmeans
    | some candidate =>
      rw [hresolve] at hrun
      exact processed_of_send (.client (TargetResolver.means_of_resolve hresolve)) sent_sendTextMessage
        hrun
  | sendTextMessage target text => exact processed_of_send .target sent_sendTextMessage hrun
  | joinChannel channel =>
    dsimp only at hrun
    rw [run_lift_bind_eq_ok_iff] at hrun
    obtain ⟨candidates, hcandidates, hrun⟩ := hrun
    cases hresolve : TargetResolver.resolveChannel candidates channel with
    | none =>
      rw [hresolve] at hrun
      cases hrun
      refine .inr ⟨rfl, ?_⟩
      intro _ hasks
      cases hasks with
      | channel hcandidates' hmeans =>
        obtain rfl := Except.ok.inj (hcandidates.symm.trans hcandidates')
        exact TargetResolver.not_means_of_resolve hresolve _ hmeans
    | some candidate =>
      rw [hresolve] at hrun
      exact processed_of_send (.channel hcandidates (TargetResolver.means_of_resolve hresolve))
        sent_moveToChannel hrun
  | moveToChannel channelId =>
    dsimp only at hrun
    rw [run_ite] at hrun
    split_ifs at hrun with hunknown
    · cases hrun
      refine .inr ⟨rfl, ?_⟩
      intro _ hasks
      cases hasks with
      | channelId hknown => simp [hknown] at hunknown
    · rw [Bool.not_eq_true, Bool.not_eq_false'] at hunknown
      exact processed_of_send (.channelId hunknown) sent_moveToChannel hrun
  | changeNickname nickname => exact processed_of_send .nickname sent_changeNickname hrun
  | listTree | userSettings | setUserAudio =>
    refine .inr ⟨state_of_lift hrun, ?_⟩
    intro _ hasks
    cases hasks

/-! ## The terminal and the network thread -/

/-- An action that the network thread took: the session before and after, and what it told. -/
structure TakenAction where
  action : UserAction
  before : Session
  events : List ActionEvent
  after : Session

/-- The terminal with the network thread. -/
structure Console where
  /-- `m_ReplyTarget`. -/
  replyTarget : Option TextMessageTarget := none
  /-- `m_ActionQueue`. -/
  actions : List UserAction := []
  closed : Bool := false
  session : Session
  taken : List TakenAction := []
  /-- The action that threw. -/
  failed : Option UserAction := none

namespace Console

/-- A call of one of the threads. -/
inductive Call
  /-- The terminal shows an event. -/
  | observe (event : RuntimeEvent)
  /-- The terminal takes a line. -/
  | handleLine (line : Bytes)
  /-- The connection processed packets. -/
  | received (session : Session)
  /-- The network thread tries to take an action, and processes it. -/
  | processAction
  /-- The network thread ends. -/
  | close

variable (env : Environment) (processSettings : UserAction → Session → Except Failure (List ActionEvent))

/-- `ActionQueue::Push`. -/
def push (c : Console) (action : UserAction) : Console :=
  if c.closed then c else { c with actions := c.actions ++ [action] }

/-- The loop body of `ProcessActions`. An action that throws ends the thread, which closes the
queue. -/
def takeAction (c : Console) : Console :=
  if c.closed then c
  else
    match c.actions with
    | [] => c
    | action :: actions =>
      match ActionProcessor.processAction env processSettings action c.session with
      | .ok events session =>
        { c with
          actions, session
          taken := c.taken ++ [{ action, before := c.session, events, after := session }] }
      | .error _ session => { c with actions, session, closed := true, failed := some action }

/-- A call. -/
def step (c : Console) : Call → Console
  | .observe event => { c with replyTarget := CommandHandler.observe c.replyTarget event }
  | .handleLine line =>
    match (CommandHandler.handleLine c.replyTarget line).action with
    | none => c
    | some action => c.push action
  | .received session => if c.closed then c else { c with session }
  | .processAction => c.takeAction env processSettings
  | .close => { c with closed := true }

/-- Calls of both threads, in some order. -/
def run (session : Session) (calls : List Call) : Console :=
  calls.foldl (step env processSettings) { session }

/-! ### What the lines say -/

/-- Whom a reply would go to behind a call: the sender of a private message. -/
def Call.sender : Call → Option TextMessageTarget
  | .observe (.protocol (.textMessage event)) =>
    event.replyTarget.filter fun target => target.mode = .privateChat
  | _ => none

/-- The sender of the last private message that was shown. -/
def lastSender (calls : List Call) : Option TextMessageTarget := (calls.filterMap Call.sender).getLast?

/-- The action that a call says behind other calls. -/
def spoken (before : List Call) : Call → Option UserAction
  | .handleLine line => (CommandHandler.handleLine (lastSender before) line).action
  | _ => none

/-- The actions that the calls say, until the network thread ends. -/
def said (session : Session) (before : List Call) : List Call → List UserAction
  | [] => []
  | call :: calls =>
    (if (run env processSettings session before).closed then [] else (spoken before call).toList) ++
      said session (before ++ [call]) calls

variable {env processSettings}

theorem run_concat (session : Session) (calls : List Call) (call : Call) :
    run env processSettings session (calls ++ [call]) =
      step env processSettings (run env processSettings session calls) call := by
  unfold run
  rw [List.foldl_append]
  rfl

theorem said_concat (session : Session) (before calls : List Call) (call : Call) :
    said env processSettings session before (calls ++ [call]) =
      said env processSettings session before calls ++
        (if (run env processSettings session (before ++ calls)).closed then []
          else (spoken (before ++ calls) call).toList) := by
  induction calls generalizing before with
  | nil =>
    rw [List.append_nil]
    exact List.append_nil _
  | cons first calls ih =>
    rw [List.cons_append, said, said, ih, List.append_assoc, List.append_assoc]
    rfl

theorem observe_eq (replyTarget : Option TextMessageTarget) (event : RuntimeEvent) :
    CommandHandler.observe replyTarget event = (Call.observe event).sender.or replyTarget := by
  cases event with
  | protocol event =>
    cases event with
    | textMessage event =>
      dsimp only [CommandHandler.observe, Call.sender]
      cases event.replyTarget with
      | none => rfl
      | some target =>
        by_cases hprivate : target.mode = .privateChat
        · simp [Option.filter, hprivate]
        · simp [Option.filter, hprivate]
    | clientPresence | commandError | voice | poke => rfl
  | action | currentChannelChanged | currentNicknameChanged | disconnected | serverSnapshot
  | talkState => rfl

theorem lastSender_concat (calls : List Call) (call : Call) :
    lastSender (calls ++ [call]) = call.sender.or (lastSender calls) := by
  unfold lastSender
  rw [List.filterMap_append, List.getLast?_append]
  cases hsender : call.sender with
  | none => simp [hsender]
  | some target => simp [hsender]

/-- What holds of the console behind calls that said these actions. -/
structure Accounted (env : Environment) (said : List UserAction) (c : Console) : Prop where
  inOrder : c.taken.map TakenAction.action ++ c.failed.toList ++ c.actions = said
  ended : c.closed = false → c.failed = none
  processed : ∀ taken ∈ c.taken, Processed env taken.before taken.action taken.events taken.after

theorem push_cases (c : Console) (action : UserAction) :
    (c.closed = true ∧ c.push action = c) ∨
      (c.closed = false ∧ c.push action = { c with actions := c.actions ++ [action] }) := by
  unfold push
  cases hclosed : c.closed with
  | true => exact .inl ⟨rfl, if_pos rfl⟩
  | false => exact .inr ⟨rfl, if_neg Bool.false_ne_true⟩

/-- What `TryPop` and `Process` can do. -/
theorem takeAction_cases (c : Console) :
    c.takeAction env processSettings = c ∨
    ∃ action actions, c.closed = false ∧ c.actions = action :: actions ∧
      ((∃ events session,
        ActionProcessor.processAction env processSettings action c.session = .ok events session ∧
        c.takeAction env processSettings = { c with
          actions, session
          taken := c.taken ++ [{ action, before := c.session, events, after := session }] }) ∨
      ∃ session, c.takeAction env processSettings =
        { c with actions, session, closed := true, failed := some action }) := by
  unfold takeAction
  cases hclosed : c.closed with
  | true => exact .inl (if_pos rfl)
  | false =>
    rw [if_neg Bool.false_ne_true]
    cases hactions : c.actions with
    | nil => exact .inl rfl
    | cons action actions =>
      refine .inr ⟨action, actions, rfl, rfl, ?_⟩
      dsimp only
      cases hprocess : ActionProcessor.processAction env processSettings action c.session with
      | ok events session => exact .inl ⟨events, session, rfl, rfl⟩
      | error e session => exact .inr ⟨session, rfl⟩

theorem replyTarget_step (c : Console) (call : Call) :
    (step env processSettings c call).replyTarget = call.sender.or c.replyTarget := by
  cases call with
  | observe event => exact observe_eq c.replyTarget event
  | handleLine line =>
    dsimp only [step]
    split
    · rfl
    · next action _ =>
      rcases c.push_cases action with ⟨-, hpush⟩ | ⟨-, hpush⟩
      · rw [hpush]
        rfl
      · rw [hpush]
        rfl
  | received session =>
    dsimp only [step]
    split_ifs
    · rfl
    · rfl
  | processAction =>
    show (c.takeAction env processSettings).replyTarget = _
    rcases takeAction_cases c with h | ⟨action, actions, -, -, ⟨events, session, -, h⟩ | ⟨session, h⟩⟩
    · rw [h]
      rfl
    · rw [h]
      rfl
    · rw [h]
      rfl
  | close => rfl

theorem replyTarget_run (session : Session) (calls : List Call) :
    (run env processSettings session calls).replyTarget = lastSender calls := by
  induction calls using List.reverseRecOn with
  | nil => rfl
  | append_singleton calls call ih => rw [run_concat, replyTarget_step, ih, lastSender_concat]

/-- A call, with what it says. -/
theorem accounted_step {list : List UserAction} {c : Console} {before : List Call}
    (h : Accounted env list c) (hreply : c.replyTarget = lastSender before) (call : Call) :
    Accounted env (list ++ (if c.closed then [] else (spoken before call).toList))
      (step env processSettings c call) := by
  cases call with
  | observe event =>
    have hnothing : (if c.closed = true then [] else (spoken before (.observe event)).toList) = [] :=
      ite_self []
    rw [hnothing, List.append_nil]
    exact ⟨h.inOrder, h.ended, h.processed⟩
  | received session =>
    have hnothing : (if c.closed = true then [] else (spoken before (.received session)).toList) = [] :=
      ite_self []
    rw [hnothing, List.append_nil]
    dsimp only [step]
    split_ifs
    · exact h
    · exact ⟨h.inOrder, h.ended, h.processed⟩
  | close =>
    have hnothing : (if c.closed = true then [] else (spoken before .close).toList) = [] :=
      ite_self []
    rw [hnothing, List.append_nil]
    exact ⟨h.inOrder, nofun, h.processed⟩
  | handleLine line =>
    dsimp only [step, spoken]
    rw [← hreply]
    cases haction : (CommandHandler.handleLine c.replyTarget line).action with
    | none =>
      rw [Option.toList_none, ite_self, List.append_nil]
      exact h
    | some action =>
      rcases c.push_cases action with ⟨hclosed, hpush⟩ | ⟨hclosed, hpush⟩
      · dsimp only
        rw [hpush, hclosed, if_pos rfl, List.append_nil]
        exact h
      · dsimp only
        rw [hpush, hclosed, if_neg Bool.false_ne_true]
        refine ⟨?_, fun _ => h.ended hclosed, h.processed⟩
        rw [← h.inOrder, List.append_assoc _ c.actions]
        rfl
  | processAction =>
    have hnothing : (if c.closed = true then [] else (spoken before .processAction).toList) = [] :=
      ite_self []
    rw [hnothing, List.append_nil]
    show Accounted env list (c.takeAction env processSettings)
    rcases takeAction_cases c with
      htake | ⟨action, actions, hopen, hactions, ⟨events, session, hprocess, htake⟩ | ⟨session, htake⟩⟩
    · rw [htake]
      exact h
    · have hfailed := h.ended hopen
      have horder := h.inOrder
      rw [hfailed, hactions] at horder
      rw [htake]
      refine ⟨?_, fun _ => hfailed, ?_⟩
      · rw [← horder]
        simp [hfailed]
      · intro taken htaken
        rcases List.mem_append.1 htaken with htaken | htaken
        · exact h.processed taken htaken
        · rw [List.mem_singleton.1 htaken]
          exact processAction_processed hprocess
    · have hfailed := h.ended hopen
      have horder := h.inOrder
      rw [hfailed, hactions] at horder
      rw [htake]
      refine ⟨?_, nofun, h.processed⟩
      rw [← horder]
      simp

theorem accounted_run (session : Session) (calls : List Call) :
    Accounted env (said env processSettings session [] calls)
      (run env processSettings session calls) := by
  induction calls using List.reverseRecOn with
  | nil => exact ⟨rfl, fun _ => rfl, fun _ h => absurd h List.not_mem_nil⟩
  | append_singleton calls call ih =>
    rw [run_concat, said_concat, List.nil_append]
    exact accounted_step ih (replyTarget_run session calls) call

/-- **What is typed is what is sent.** However the calls of the two threads interleave, the actions
that were taken, the one that threw and those that wait are what the lines said until the network
thread ended, each once and in order; a reply goes to the sender of the last private message that
was shown. For an action that was taken, one command was sent that the parser of commands reads as
what the action asks for, or none, when it asks for nothing that there is. -/
theorem conversation (session : Session) (calls : List Call) :
    let c := run env processSettings session calls
    c.taken.map TakenAction.action ++ c.failed.toList ++ c.actions =
        said env processSettings session [] calls ∧
      c.replyTarget = lastSender calls ∧
      ∀ taken ∈ c.taken, Processed env taken.before taken.action taken.events taken.after := by
  have h := @accounted_run env processSettings session calls
  exact ⟨h.inOrder, replyTarget_run session calls, h.processed⟩

end Console

end TsCli
