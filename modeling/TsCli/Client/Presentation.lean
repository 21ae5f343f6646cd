import TsCli.Audio.NotificationSynthesizer
import TsCli.Client.LiveState
import TsCli.Lib.TerminalStream

/-!
# What the terminal shows

The terminal front end prints a line for each event, with names and texts that come from other
users. It writes them with a blank in the place of each control character, between styles of its
own when it writes to a terminal.

Whatever the events hold, a terminal reads the output as the lines that the events say, each on a
line of its own, with the styles or without (`print_shows`); and it never acts on a control or a
sequence that is not one of the client's own.
-/

namespace TsCli

open Ascii TerminalStream

/-! ## Styles -/

/-- `TerminalColor`. -/
inductive TerminalColor
  | brightBlack
  | red
  | green
  | yellow
  | magenta
  | cyan
  deriving DecidableEq, Repr

/-- `AnsiColorCode`. -/
def ansiColorCode : TerminalColor → Bytes
  | .brightBlack => ascii "90"
  | .red => ascii "31"
  | .green => ascii "32"
  | .yellow => ascii "33"
  | .magenta => ascii "35"
  | .cyan => ascii "36"

/-- A sequence that begins with `"\x1b["`. -/
def controlSequence (parameters : Bytes) (final : UInt8) : Bytes :=
  TerminalStream.escape :: bracket :: parameters ++ [final]

/-- The final bytes of the sequences. -/
def styleFinal : UInt8 := 0x6d
def eraseLineFinal : UInt8 := 0x4b
def eraseScreenFinal : UInt8 := 0x4a
def upFinal : UInt8 := 0x41

/-- `ApplyTerminalStyle`. -/
def applyTerminalStyle (color : TerminalColor) (italic : Bool) : Bytes :=
  controlSequence (ansiColorCode color ++ if italic then ascii ";3" else []) styleFinal

/-- `ResetTerminalStyle`. -/
def resetTerminalStyle : Bytes := controlSequence (ascii "0") styleFinal

/-- `ClearCurrentLine`. -/
def clearCurrentLine : Bytes := carriageReturn :: controlSequence (ascii "2") eraseLineFinal

/-- `ClearPreviousLine`. -/
def clearPreviousLine : Bytes := controlSequence (ascii "1") upFinal ++ clearCurrentLine

/-- `ClearScreen`. -/
def clearScreen : Bytes := controlSequence (ascii "2") eraseScreenFinal

/-! ## The presentation -/

/-- `Presentation`, with what it wrote and the notifications that it asked for. -/
structure Presentation where
  useColor : Bool
  currentChannel : Bytes := []
  currentNickname : Bytes := []
  output : Bytes := []
  notified : List NotificationType := []
  deriving DecidableEq

namespace Presentation

/-- `m_Output << text`. -/
def write (text : Bytes) (p : Presentation) : Presentation := { p with output := p.output ++ text }

/-- `m_Notify`. -/
def notify (type : NotificationType) (p : Presentation) : Presentation :=
  { p with notified := p.notified ++ [type] }

/-- `ApplyTerminalStyle`, if there are colors. -/
def applyStyle (color : TerminalColor) (italic : Bool) (p : Presentation) : Presentation :=
  if p.useColor then p.write (applyTerminalStyle color italic) else p

/-- `ResetTerminalStyle`, if there are colors. -/
def resetStyle (p : Presentation) : Presentation :=
  if p.useColor then p.write resetTerminalStyle else p

/-- The bytes that `WriteSafe` writes. -/
def safe (value : Bytes) : Bytes :=
  value.map fun byte => if byte < 0x20 ∨ byte = 0x7f then space else byte

/-- `WriteSafe`. -/
def writeSafe (value : Bytes) (p : Presentation) : Presentation := p.write (safe value)

/-- `m_Output << std::endl`. -/
def endLine (p : Presentation) : Presentation := p.write [lineFeed]

/-- `SetCurrentChannel`. -/
def setCurrentChannel (channel : Bytes) (p : Presentation) : Presentation :=
  { p with currentChannel := channel }

/-- `SetCurrentNickname`. -/
def setCurrentNickname (nickname : Bytes) (p : Presentation) : Presentation :=
  { p with currentNickname := nickname }

/-- A name, or another text in the place of an empty one. -/
def nameOr (name other : Bytes) : Bytes := if name = [] then other else name

/-- `PrintError`. -/
def printError (message : Bytes) (p : Presentation) : Presentation :=
  p.notify .failure |>.applyStyle .red false |>.write (ascii "[error] ") |>.writeSafe message
    |>.resetStyle |>.endLine

/-- `PrintInfo`. -/
def printInfo (message : Bytes) (p : Presentation) : Presentation :=
  p.applyStyle .cyan true |>.write (ascii "* ") |>.writeSafe message |>.resetStyle |>.endLine

/-- The name of a client that is known by its id alone. -/
def clientName (clientId : ℕ) : Bytes := ascii "client " ++ numberText 10 clientId

/-- `sender` of `PrintTextMessage`. -/
def sender (event : TextMessageEvent) (currentNickname : Bytes) : Bytes :=
  nameOr event.message.invokerName
    (if event.outgoing ∧ currentNickname ≠ [] then currentNickname
    else clientName event.message.invokerId)

/-- `Color`. -/
def color : TextMessageTargetMode → TerminalColor
  | .privateChat => .magenta
  | .channel => .green
  | .server => .yellow

/-- The `switch` of `PrintTextMessage`. -/
def printSender (event : TextMessageEvent) (p : Presentation) : Presentation :=
  let sender := sender event p.currentNickname
  match event.message.targetMode with
  | .privateChat =>
    p.writeSafe (if event.outgoing then ascii "[to " else ascii "[from ")
      |>.writeSafe (nameOr event.privatePeerName sender) |>.writeSafe (ascii "]")
  | .channel =>
    p.write (ascii "[") |>.writeSafe (nameOr event.channelName (nameOr p.currentChannel (ascii "?")))
      |>.write (ascii "] ") |>.writeSafe sender
  | .server => p.write (ascii "[SERVER] ") |>.writeSafe sender

/-- `PrintTextMessage`. -/
def printTextMessage (event : TextMessageEvent) (p : Presentation) : Presentation :=
  (if event.outgoing then p else p.notify .message)
    |>.applyStyle (color event.message.targetMode) false |>.printSender event |>.resetStyle
    |>.write (if event.outgoing then ascii " > " else ascii " < ") |>.writeSafe event.message.text
    |>.endLine

/-- `PrintPresence`. -/
def printPresence (event : ClientPresenceEvent) (p : Presentation) : Presentation :=
  p.applyStyle .cyan true |>.write (ascii "[") |>.writeSafe (nameOr event.channelName (ascii "?"))
    |>.write (ascii "] ") |>.writeSafe event.clientName
    |>.write (ascii ": " ++
      if event.kind = .joined then ascii "joined the channel" else ascii "left the channel")
    |>.notify .message |>.resetStyle |>.endLine

/-- `PrintPoke`. -/
def printPoke (event : ClientPokeEntry) (p : Presentation) : Presentation :=
  p.notify .reminder |>.applyStyle .red true |>.write (ascii "[poke] ")
    |>.writeSafe (nameOr event.invokerName (clientName event.invokerId)) |>.write (ascii ": ")
    |>.writeSafe event.message |>.resetStyle |>.endLine

/-- `PrintCommandError`. -/
def printCommandError (event : CommandErrorEvent) (p : Presentation) : Presentation :=
  p.printError (ascii "server command failed (" ++ numberText 10 event.id ++ ascii "): " ++
    event.message)

/-- The message of `PrintDisconnect`. -/
def disconnectMessage (info : DisconnectInfo) : Bytes :=
  (match info.reason with
  | .serverClosed => ascii "disconnected by the server"
  | .timeout => ascii "connection timed out"
  | .transportError => ascii "connection failed"
  | .localRequest => ascii "disconnected") ++
    if info.message = [] then [] else ascii ": " ++ info.message

/-- `PrintDisconnect`. -/
def printDisconnect (info : DisconnectInfo) (p : Presentation) : Presentation :=
  (p.printError (disconnectMessage info)).notify .failure

/-- `Print`, for an event of the session. -/
def printSessionEvent : SessionEvent → Presentation → Presentation
  | .textMessage event => printTextMessage event
  | .clientPresence event => printPresence event
  | .commandError event => printCommandError event
  | .voice _ => id
  | .poke event => printPoke event

/-- `Print`. -/
def print : RuntimeEvent → Presentation → Presentation
  | .protocol event => printSessionEvent event
  | .action (.actionError message) => printError message
  | .action (.actionInfo message) => printInfo message
  | .currentChannelChanged _ name => fun p =>
    p.setCurrentChannel name |>.printInfo (ascii "now in " ++ name) |>.notify .success
  | .currentNicknameChanged nickname => fun p =>
    p.setCurrentNickname nickname |>.printInfo (ascii "nickname is now " ++ nickname)
  | .disconnected info => printDisconnect info
  | .serverSnapshot _ => id
  | .talkState _ => id

/-- `PrintPrompt`. -/
def printPrompt (p : Presentation) : Presentation :=
  p.applyStyle .green false |>.write (ascii "[") |>.writeSafe (nameOr p.currentChannel (ascii "?"))
    |>.write (ascii "] ") |>.writeSafe (nameOr p.currentNickname (ascii "?")) |>.resetStyle
    |>.write (ascii " > ")

/-- `BreakPromptLine`. -/
def breakPromptLine (p : Presentation) : Presentation :=
  if p.useColor then p.write clearCurrentLine else p.endLine

/-- `ClearSubmittedInputLine`. -/
def clearSubmittedInputLine (p : Presentation) : Presentation :=
  if p.useColor then p.write clearPreviousLine else p

/-- `Clear`. -/
def clear (p : Presentation) : Presentation := p.write clearScreen

/-- The lines of `PrintHelp`. -/
def helpLines : List String := [
  "Commands:",
  "  <text>                         send to the current channel",
  "  /pm <client> <text>            private message; clients only",
  "  /message <client> <text>       alias for /pm",
  "  /r <text>                      reply to the last received private message",
  "  /join <channel>                move to a channel",
  "  /nick <new name>               change nickname",
  "  /list [channel]                show channel/client tree and status",
  "  /user <client>                  show persistent local settings for a client",
  "  /user <client> volume <dB|%>    set that client's playback volume",
  "  /user <client> volume reset     restore normal playback volume",
  "  /user <client> mute|unmute      locally mute or unmute that client",
  "  /audio devices                  list PipeWire input/output devices",
  "  /audio status                   show audio status",
  "  /audio input <default|id|name>  select microphone",
  "  /audio output <default|id|name> select playback device",
  "  /audio filter                   list capture filters",
  "  /audio filter <none|name>       select capture filter",
  "  /audio threshold <-100..0>      set microphone activation threshold in dBFS",
  "  /mute                           mute microphone transmission",
  "  /unmute                         unmute microphone transmission",
  "  /audio transmit <on|off>        aliases for /unmute and /mute",
  "  /clear                          clears the current output buffer",
  "  /help                           show this help",
  "  /quit                           disconnect and exit",
  "Quote client names containing spaces. Use #<client-id> to disambiguate clients."]

/-- `PrintHelp`. -/
def printHelp (p : Presentation) : Presentation :=
  helpLines.foldl (fun p line => (p.write (ascii line)).endLine) p

/-- What the client calls. -/
inductive Operation
  | print (event : RuntimeEvent)
  | printError (message : Bytes)
  | printInfo (message : Bytes)
  | printPrompt
  | breakPromptLine
  | clearSubmittedInputLine
  | clear
  | printHelp

/-- A call. -/
def perform : Operation → Presentation → Presentation
  | .print event => print event
  | .printError message => printError message
  | .printInfo message => printInfo message
  | .printPrompt => printPrompt
  | .breakPromptLine => breakPromptLine
  | .clearSubmittedInputLine => clearSubmittedInputLine
  | .clear => clear
  | .printHelp => printHelp

/-! ## What the events say -/

/-- The text behind the sender of a message. -/
def senderText (channel nickname : Bytes) (event : TextMessageEvent) : Bytes :=
  match event.message.targetMode with
  | .privateChat =>
    (if event.outgoing then ascii "[to " else ascii "[from ") ++
      nameOr event.privatePeerName (sender event nickname) ++ ascii "]"
  | .channel =>
    ascii "[" ++ nameOr event.channelName (nameOr channel (ascii "?")) ++ ascii "] " ++
      sender event nickname
  | .server => ascii "[SERVER] " ++ sender event nickname

/-- The line that an event says in a channel, under a nickname. -/
def eventLine (channel nickname : Bytes) : RuntimeEvent → Option Bytes
  | .protocol (.textMessage event) =>
    some (senderText channel nickname event ++
      (if event.outgoing then ascii " > " else ascii " < ") ++ event.message.text)
  | .protocol (.clientPresence event) =>
    some (ascii "[" ++ nameOr event.channelName (ascii "?") ++ ascii "] " ++ event.clientName ++
      (ascii ": " ++
        if event.kind = .joined then ascii "joined the channel" else ascii "left the channel"))
  | .protocol (.commandError event) =>
    some (ascii "[error] " ++ (ascii "server command failed (" ++ numberText 10 event.id ++
      ascii "): " ++ event.message))
  | .protocol (.voice _) => none
  | .protocol (.poke event) =>
    some (ascii "[poke] " ++ nameOr event.invokerName (clientName event.invokerId) ++ ascii ": " ++
      event.message)
  | .action (.actionError message) => some (ascii "[error] " ++ message)
  | .action (.actionInfo message) => some (ascii "* " ++ message)
  | .currentChannelChanged _ name => some (ascii "* " ++ (ascii "now in " ++ name))
  | .currentNicknameChanged name => some (ascii "* " ++ (ascii "nickname is now " ++ name))
  | .disconnected info => some (ascii "[error] " ++ disconnectMessage info)
  | .serverSnapshot _ => none
  | .talkState _ => none

/-- The channel and the nickname behind an event. -/
def currentNames (names : Bytes × Bytes) : RuntimeEvent → Bytes × Bytes
  | .currentChannelChanged _ name => (name, names.2)
  | .currentNicknameChanged nickname => (names.1, nickname)
  | _ => names

/-- The lines that events say, one after the other. -/
def eventLines (names : Bytes × Bytes) : List RuntimeEvent → List Bytes
  | [] => []
  | event :: events =>
    (eventLine names.1 names.2 event).toList ++ eventLines (currentNames names event) events

/-- A text as it is seen. -/
def textTokens (text : Bytes) : List Token := (safe text).map .character

/-- A line as it is seen. -/
def lineTokens (line : Bytes) : List Token := textTokens line ++ [.control lineFeed]

/-- The tokens that the client writes on its own account, and characters. -/
def Own : Token → Prop
  | .character _ => True
  | .control c => c = lineFeed ∨ c = carriageReturn
  | .sequence parameters final =>
    final = styleFinal ∨ (parameters, final) ∈ [(ascii "2", eraseLineFinal),
      (ascii "1", upFinal), (ascii "2", eraseScreenFinal)]

/-! ## What is written -/

/-- What was written are whole tokens of the client's own, and this is seen of them. -/
def Written (p p' : Presentation) (shown : List Token) : Prop :=
  ∃ bytes tokens, p'.output = p.output ++ bytes ∧ Reads bytes tokens ∧ visible tokens = shown ∧
    ∀ token ∈ tokens, Own token

namespace Written

theorem refl (p : Presentation) : Written p p [] :=
  ⟨[], [], (List.append_nil _).symm, .nil, rfl, nofun⟩

theorem trans {p p' p'' : Presentation} {shown more : List Token} (h : Written p p' shown)
    (h' : Written p' p'' more) : Written p p'' (shown ++ more) := by
  obtain ⟨bytes, tokens, houtput, hreads, hshown, hown⟩ := h
  obtain ⟨bytes', tokens', houtput', hreads', hshown', hown'⟩ := h'
  refine ⟨bytes ++ bytes', tokens ++ tokens', ?_, hreads.append hreads', ?_, ?_⟩
  · rw [houtput', houtput, List.append_assoc]
  · rw [visible_append, hshown, hshown']
  · intro token htoken
    rcases List.mem_append.1 htoken with htoken | htoken
    · exact hown token htoken
    · exact hown' token htoken

end Written

/-- Something was written, and the names are left alone. -/
structure Prints (p p' : Presentation) (shown : List Token) : Prop where
  written : Written p p' shown
  channel : p'.currentChannel = p.currentChannel
  nickname : p'.currentNickname = p.currentNickname

@[simp] theorem safe_append (text rest : Bytes) : safe (text ++ rest) = safe text ++ safe rest :=
  List.map_append

/-- A text without controls is written as it is. -/
theorem safe_eq_self {text : Bytes} (h : ∀ c ∈ text, isControl c = false) : safe text = text := by
  unfold safe
  conv_rhs => rw [← List.map_id text]
  refine List.map_congr_left ?_
  intro c hc
  have hcontrol := h c hc
  simp [isControl] at hcontrol
  simp [hcontrol]

theorem textTokens_append (text rest : Bytes) :
    textTokens (text ++ rest) = textTokens text ++ textTokens rest := by
  unfold textTokens
  rw [safe_append, List.map_append]

namespace Prints

variable {p p' p'' : Presentation} {shown more : List Token}

theorem refl (p : Presentation) : Prints p p [] := ⟨.refl p, rfl, rfl⟩

theorem trans (h : Prints p p' shown) (h' : Prints p' p'' more) : Prints p p'' (shown ++ more) :=
  ⟨h.written.trans h'.written, h'.channel.trans h.channel, h'.nickname.trans h.nickname⟩

theorem notify (h : Prints p p' shown) (type : NotificationType) :
    Prints p (p'.notify type) shown := ⟨h.written, h.channel, h.nickname⟩

theorem tokens {bytes : Bytes} {tokens : List Token} (h : Prints p p' shown)
    (hreads : Reads bytes tokens) (hown : ∀ token ∈ tokens, Own token) :
    Prints p (p'.write bytes) (shown ++ visible tokens) :=
  h.trans ⟨⟨bytes, tokens, rfl, hreads, rfl, hown⟩, rfl, rfl⟩

/-- A text without controls. -/
theorem text {text : Bytes} (h : Prints p p' shown) (htext : ∀ c ∈ text, isControl c = false) :
    Prints p (p'.write text) (shown ++ textTokens text) := by
  have hown : ∀ token ∈ text.map Token.character, Own token := by
    intro token htoken
    obtain ⟨c, -, rfl⟩ := List.mem_map.1 htoken
    trivial
  have h' := h.tokens (.text htext) hown
  unfold textTokens
  rw [safe_eq_self htext]
  rwa [visible_text] at h'

theorem writeSafe (h : Prints p p' shown) (value : Bytes) :
    Prints p (p'.writeSafe value) (shown ++ textTokens value) := by
  have hsafe : ∀ c ∈ safe value, isControl c = false := by
    intro c hc
    obtain ⟨byte, -, rfl⟩ := List.mem_map.1 hc
    split_ifs with hcontrol
    · rfl
    · rw [not_or] at hcontrol
      simp [isControl, hcontrol.1, hcontrol.2]
  have h' := h.text hsafe
  unfold textTokens at h'
  rwa [safe_eq_self hsafe] at h'

theorem endLine (h : Prints p p' shown) : Prints p p'.endLine (shown ++ [.control lineFeed]) := by
  have hown : ∀ token ∈ [Token.control lineFeed], Own token := by
    intro token htoken
    rw [List.mem_singleton.1 htoken]
    exact .inl rfl
  exact h.tokens (.control rfl (by decide)) hown

/-- A style is not seen. -/
theorem style (h : Prints p p' shown) {parameters : Bytes}
    (hparameters : ∀ c ∈ parameters, isFinal c = false) :
    Prints p (p'.write (controlSequence parameters styleFinal)) shown := by
  have hown : ∀ token ∈ [Token.sequence parameters styleFinal], Own token := by
    intro token htoken
    rw [List.mem_singleton.1 htoken]
    exact .inl rfl
  have h' := h.tokens (.sequence hparameters (by decide)) hown
  rwa [visible_sequence, List.append_nil] at h'

theorem applyStyle (h : Prints p p' shown) (color : TerminalColor) (italic : Bool) :
    Prints p (p'.applyStyle color italic) shown := by
  unfold Presentation.applyStyle
  split_ifs
  · refine h.style (List.forall_mem_append.2 ⟨?_, ?_⟩)
    · cases color with
      | brightBlack | red | green | yellow | magenta | cyan => exact forall_ascii (by decide)
    · split_ifs
      · exact forall_ascii (by decide)
      · nofun
  · exact h

theorem resetStyle (h : Prints p p' shown) : Prints p p'.resetStyle shown := by
  unfold Presentation.resetStyle
  split_ifs
  · exact h.style (forall_ascii (by decide))
  · exact h

end Prints

theorem prints_printError (message : Bytes) (p : Presentation) :
    Prints p (p.printError message) (lineTokens (ascii "[error] " ++ message)) := by
  have hliteral : ∀ c ∈ ascii "[error] ", isControl c = false := forall_ascii (by decide)
  unfold lineTokens
  rw [textTokens_append]
  exact ((((((Prints.refl p).notify .failure).applyStyle .red false).text hliteral).writeSafe
    message).resetStyle).endLine

theorem prints_printInfo (message : Bytes) (p : Presentation) :
    Prints p (p.printInfo message) (lineTokens (ascii "* " ++ message)) := by
  have hliteral : ∀ c ∈ ascii "* ", isControl c = false := forall_ascii (by decide)
  unfold lineTokens
  rw [textTokens_append]
  exact (((((Prints.refl p).applyStyle .cyan true).text hliteral).writeSafe message).resetStyle).endLine

theorem prints_printSender {event : TextMessageEvent} {p p' : Presentation} {shown : List Token}
    (h : Prints p p' shown) : Prints p (p'.printSender event)
      (shown ++ textTokens (senderText p.currentChannel p.currentNickname event)) := by
  have hbracket : ∀ c ∈ ascii "[", isControl c = false := forall_ascii (by decide)
  have hclose : ∀ c ∈ ascii "] ", isControl c = false := forall_ascii (by decide)
  have hserver : ∀ c ∈ ascii "[SERVER] ", isControl c = false := forall_ascii (by decide)
  unfold printSender senderText
  rw [h.channel, h.nickname]
  cases event.message.targetMode with
  | privateChat =>
    dsimp only
    rw [textTokens_append, textTokens_append, ← List.append_assoc, ← List.append_assoc]
    exact ((h.writeSafe _).writeSafe _).writeSafe _
  | channel =>
    dsimp only
    rw [textTokens_append, textTokens_append, textTokens_append, ← List.append_assoc,
      ← List.append_assoc, ← List.append_assoc]
    exact (((h.text hbracket).writeSafe _).text hclose).writeSafe _
  | server =>
    dsimp only
    rw [textTokens_append, ← List.append_assoc]
    exact (h.text hserver).writeSafe _

theorem prints_printTextMessage (event : TextMessageEvent) (p : Presentation) :
    Prints p (p.printTextMessage event)
      (lineTokens (senderText p.currentChannel p.currentNickname event ++
        (if event.outgoing then ascii " > " else ascii " < ") ++ event.message.text)) := by
  have harrow : ∀ c ∈ (if event.outgoing then ascii " > " else ascii " < "), isControl c = false := by
    split_ifs
    · exact forall_ascii (by decide)
    · exact forall_ascii (by decide)
  have hnotified : Prints p (if event.outgoing then p else p.notify .message) [] := by
    split_ifs
    · exact .refl p
    · exact (Prints.refl p).notify .message
  have hsender := (prints_printSender (hnotified.applyStyle (color event.message.targetMode) false) :
    Prints p (printSender event _) _)
  unfold lineTokens
  rw [textTokens_append, textTokens_append]
  exact (((hsender.resetStyle).text harrow).writeSafe event.message.text).endLine

theorem prints_printPresence (event : ClientPresenceEvent) (p : Presentation) :
    Prints p (p.printPresence event)
      (lineTokens (ascii "[" ++ nameOr event.channelName (ascii "?") ++ ascii "] " ++
        event.clientName ++ (ascii ": " ++
          if event.kind = .joined then ascii "joined the channel" else ascii "left the channel"))) := by
  have hbracket : ∀ c ∈ ascii "[", isControl c = false := forall_ascii (by decide)
  have hclose : ∀ c ∈ ascii "] ", isControl c = false := forall_ascii (by decide)
  have hkind : ∀ c ∈ ascii ": " ++
      (if event.kind = .joined then ascii "joined the channel" else ascii "left the channel"),
      isControl c = false := by
    refine List.forall_mem_append.2 ⟨forall_ascii (by decide), ?_⟩
    split_ifs
    · exact forall_ascii (by decide)
    · exact forall_ascii (by decide)
  have hstyle := (Prints.refl p).applyStyle .cyan true
  unfold lineTokens
  rw [textTokens_append _ (_ ++ _), textTokens_append, textTokens_append, textTokens_append]
  exact ((((((((hstyle.text hbracket).writeSafe _).text hclose).writeSafe _).text hkind).notify
    .message).resetStyle).endLine)

theorem prints_printPoke (event : ClientPokeEntry) (p : Presentation) :
    Prints p (p.printPoke event)
      (lineTokens (ascii "[poke] " ++ nameOr event.invokerName (clientName event.invokerId) ++
        ascii ": " ++ event.message)) := by
  have hpoke : ∀ c ∈ ascii "[poke] ", isControl c = false := forall_ascii (by decide)
  have hcolon : ∀ c ∈ ascii ": ", isControl c = false := forall_ascii (by decide)
  have hstyle := ((Prints.refl p).notify .reminder).applyStyle .red true
  unfold lineTokens
  rw [textTokens_append, textTokens_append, textTokens_append]
  exact (((((hstyle.text hpoke).writeSafe _).text hcolon).writeSafe _).resetStyle).endLine

/-- What is seen of an event: its line, or nothing. -/
def eventTokens (names : Bytes × Bytes) (event : RuntimeEvent) : List Token :=
  (eventLine names.1 names.2 event).toList.flatMap lineTokens

/-- The names that the presentation uses. -/
def names (p : Presentation) : Bytes × Bytes := (p.currentChannel, p.currentNickname)

theorem Prints.names {p p' : Presentation} {shown : List Token} (h : Prints p p' shown) :
    p'.names = p.names := Prod.ext h.channel h.nickname

/-- A line that is printed. -/
theorem printed_line {p p' : Presentation} {event : RuntimeEvent} {line : Bytes}
    (hline : eventLine p.names.1 p.names.2 event = some line) (h : Prints p p' (lineTokens line)) :
    Written p p' (eventTokens p.names event) ∧ p'.names = p.names := by
  unfold eventTokens
  rw [hline, Option.toList_some, List.flatMap_singleton]
  exact ⟨h.written, h.names⟩

/-- An event. -/
theorem printed (event : RuntimeEvent) (p : Presentation) :
    Written p (p.print event) (eventTokens p.names event) ∧
      (p.print event).names = currentNames p.names event := by
  cases event with
  | protocol event =>
    cases event with
    | textMessage event => exact printed_line rfl (prints_printTextMessage event p)
    | clientPresence event => exact printed_line rfl (prints_printPresence event p)
    | commandError event => exact printed_line rfl (prints_printError _ p)
    | voice frame => exact ⟨.refl p, rfl⟩
    | poke event => exact printed_line rfl (prints_printPoke event p)
  | action event =>
    cases event with
    | actionError message => exact printed_line rfl (prints_printError message p)
    | actionInfo message => exact printed_line rfl (prints_printInfo message p)
  | currentChannelChanged channelId name =>
    have hinfo := prints_printInfo (ascii "now in " ++ name) (p.setCurrentChannel name)
    have hline := @printed_line _ _ (.currentChannelChanged channelId name) _ rfl
      (hinfo.notify .success)
    exact ⟨hline.1, hline.2⟩
  | currentNicknameChanged nickname =>
    have hinfo := prints_printInfo (ascii "nickname is now " ++ nickname) (p.setCurrentNickname nickname)
    have hline := @printed_line _ _ (.currentNicknameChanged nickname) _ rfl hinfo
    exact ⟨hline.1, hline.2⟩
  | disconnected info =>
    exact printed_line rfl ((prints_printError (disconnectMessage info) p).notify .failure)
  | serverSnapshot snapshot => exact ⟨.refl p, rfl⟩
  | talkState talkingClientIds => exact ⟨.refl p, rfl⟩

/-- Events one after the other. -/
theorem printed_events (events : List RuntimeEvent) (p : Presentation) :
    Written p (events.foldl (fun p event => p.print event) p)
      ((eventLines p.names events).flatMap lineTokens) := by
  induction events generalizing p with
  | nil => exact .refl p
  | cons event events ih =>
    obtain ⟨hwritten, hnames⟩ := printed event p
    have hrest := ih (p.print event)
    rw [hnames] at hrest
    rw [eventLines, List.flatMap_append]
    exact hwritten.trans hrest

/-! ## The other calls -/

theorem written_write {p : Presentation} {bytes : Bytes} {tokens : List Token}
    (hreads : Reads bytes tokens) (hown : ∀ token ∈ tokens, Own token) :
    ∃ shown, Written p (p.write bytes) shown :=
  ⟨_, ((Prints.refl p).tokens hreads hown).written⟩

theorem reads_clearCurrentLine :
    Reads clearCurrentLine [.control carriageReturn, .sequence (ascii "2") eraseLineFinal] :=
  (Reads.control rfl (by decide)).append (.sequence (forall_ascii (by decide)) (by decide))

/-- Whatever is called writes whole tokens of its own. -/
theorem written_perform (operation : Operation) (p : Presentation) :
    ∃ shown, Written p (p.perform operation) shown := by
  cases operation with
  | print event => exact ⟨_, (printed event p).1⟩
  | printError message => exact ⟨_, (prints_printError message p).written⟩
  | printInfo message => exact ⟨_, (prints_printInfo message p).written⟩
  | printPrompt =>
    have hbracket : ∀ c ∈ ascii "[", isControl c = false := forall_ascii (by decide)
    have hclose : ∀ c ∈ ascii "] ", isControl c = false := forall_ascii (by decide)
    have hend : ∀ c ∈ ascii " > ", isControl c = false := forall_ascii (by decide)
    have hstyle := (Prints.refl p).applyStyle .green false
    exact ⟨_, (((((hstyle.text hbracket).writeSafe _).text hclose).writeSafe _).resetStyle.text
      hend).written⟩
  | breakPromptLine =>
    show ∃ shown, Written p (if p.useColor then _ else _) shown
    split_ifs
    · refine written_write reads_clearCurrentLine ?_
      simp [Own]
    · exact ⟨_, (Prints.refl p).endLine.written⟩
  | clearSubmittedInputLine =>
    show ∃ shown, Written p (if p.useColor then _ else _) shown
    split_ifs
    · have hup : Reads (controlSequence (ascii "1") upFinal) [.sequence (ascii "1") upFinal] :=
        .sequence (forall_ascii (by decide)) (by decide)
      refine written_write (hup.append reads_clearCurrentLine) ?_
      simp [Own]
    · exact ⟨_, .refl p⟩
  | clear =>
    have hclear : Reads clearScreen [.sequence (ascii "2") eraseScreenFinal] :=
      .sequence (forall_ascii (by decide)) (by decide)
    refine written_write hclear ?_
    simp [Own]
  | printHelp =>
    have hall : (helpLines.all fun line =>
        line.toByteArray.data.toList.all (isControl · = false)) = true := by decide
    have hlines : ∀ line ∈ helpLines, ∀ c ∈ ascii line, isControl c = false := by
      intro line hline
      exact forall_ascii (List.all_eq_true.1 hall line hline)
    show ∃ shown, Written p (helpLines.foldl (fun p line => (p.write (ascii line)).endLine) p) shown
    revert hlines
    generalize helpLines = lines
    intro hlines
    induction lines generalizing p with
    | nil => exact ⟨_, .refl p⟩
    | cons line lines ih =>
      obtain ⟨hline, hrest⟩ := List.forall_mem_cons.1 hlines
      obtain ⟨shown, hwritten⟩ := ih (p.write (ascii line)).endLine hrest
      exact ⟨_, (((Prints.refl p).text hline).endLine.written).trans hwritten⟩

theorem written_operations (operations : List Operation) (p : Presentation) :
    ∃ shown, Written p (operations.foldl (fun p operation => p.perform operation) p) shown := by
  induction operations generalizing p with
  | nil => exact ⟨_, .refl p⟩
  | cons operation operations ih =>
    obtain ⟨shown, hwritten⟩ := written_perform operation p
    obtain ⟨more, hrest⟩ := ih (p.perform operation)
    exact ⟨_, hwritten.trans hrest⟩

end Presentation

end TsCli
