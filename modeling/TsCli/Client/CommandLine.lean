import TsCli.Client.NetworkRuntime
import TsCli.Lib.Binary32

/-!
# The command line

A line that the user types is a message to the channel, or a command behind a slash. The parser
takes names with blanks in them in quotation marks, and numbers as the library reads them.

What a line can say is said by `format`: names in quotation marks and numbers with all their
decimals, so that every command that comes out of the parser comes out again (`expressible_iff`).
-/

namespace TsCli

open Ascii

/-- `AudioCommandKind`. -/
inductive AudioCommandKind
  | devices
  | status
  | input
  | output
  | filter
  | threshold
  | transmit
  deriving DecidableEq, Repr

/-- `InputCommand`. -/
inductive InputCommand
  | sendChannel (text : Bytes)
  | privateMessage (target text : Bytes)
  | reply (text : Bytes)
  | join (channel : Bytes)
  | nick (nickname : Bytes)
  | list (start : Option Bytes)
  | user (target : Bytes) (kind : UserCommandKind) (numberValue : Binary32)
  | audio (kind : AudioCommandKind) (value : Bytes) (numberValue : Binary32)
  | clear
  | help
  | quit
  deriving DecidableEq

namespace Cli

/-! ## The parser -/

def quotationMark : UInt8 := 0x22
def percentSign : UInt8 := 0x25

/-- `std::isspace` on a byte. -/
def isSpace (c : UInt8) : Bool := c = space || (0x09 ≤ c && c ≤ 0x0d)

/-- The characters of `" \t"`. -/
def isSeparator (c : UInt8) : Bool := c = space || c = tab

/-- `CommandParser::Trim`. -/
def trim (value : Bytes) : Bytes := Lines.trim isSpace value

/-- `CommandParser::LowerAscii`. -/
def lowerAscii (value : Bytes) : Bytes := value.map TargetResolver.toLower

/-- The text up to `find_first_of( " \t" )`, and the trimmed text behind it. -/
def cut (value : Bytes) : Bytes × Bytes :=
  match value.findIdx? isSeparator with
  | none => (value, [])
  | some separator => (value.take separator, trim (value.drop (separator + 1)))

/-- `ParsedArgument`. -/
structure ParsedArgument where
  value : Bytes
  remainder : Bytes
  deriving DecidableEq

/-- The loop of `ParseArgument` behind a quotation mark. -/
def readQuoted (escaped : Bool) (result : Bytes) : Bytes → Except Failure ParsedArgument
  | [] => .error (.runtimeError "Unterminated quoted command argument")
  | character :: rest =>
    if escaped then readQuoted false (result ++ [character]) rest
    else if character = backslash then readQuoted true result rest
    else if character = quotationMark then .ok { value := result, remainder := trim rest }
    else readQuoted false (result ++ [character]) rest

/-- `CommandParser::ParseArgument`. -/
def parseArgument (value : Bytes) : Except Failure ParsedArgument :=
  let value := trim value
  if value = [] then .error (.runtimeError "Missing command argument")
  else if value.head? ≠ some quotationMark then
    .ok { value := (cut value).1, remainder := (cut value).2 }
  else readQuoted false [] value.tail

/-- `CommandParser::ParseWholeValue`. -/
def parseWholeValue (value : Bytes) (usage : String) : Except Failure Bytes :=
  let value := trim value
  if value = [] then .error (.runtimeError usage)
  else if value.head? ≠ some quotationMark then .ok value
  else do
    let parsed ← parseArgument value
    throwIf (parsed.remainder ≠ []) usage
    throwIf (parsed.value = []) usage
    return parsed.value

/-- `CommandParser::ParseFloatValue`. -/
def parseFloatValue (value : Bytes) (usage : String) : Except Failure Binary32 :=
  let value := trim value
  if value = [] then .error (.runtimeError usage)
  else match Binary32.fromChars value with
    | none => .error (.runtimeError usage)
    | some (result, rest) => do
      throwIf (rest ≠ [] ∨ ¬ result.isFinite) usage
      return result

/-- `CommandParser::ParsePrivateMessage`. -/
def parsePrivateMessage (arguments : Bytes) : Except Failure InputCommand := do
  throwIf (arguments = []) "Usage: /pm|/message <client> <message>"
  let target ← parseArgument arguments
  throwIf (target.value = [] ∨ target.remainder = []) "Usage: /pm|/message <client> <message>"
  return .privateMessage target.value target.remainder

/-! The bits of the bounds are those of numbers. -/

theorem zero_bits_lt : (0 : ℕ) < 2 ^ 31 := by decide

theorem minVolumeDb_bits_lt : (0x42700000 : ℕ) < 2 ^ 31 := by decide

theorem maxVolumeDb_bits_lt : (0x41400000 : ℕ) < 2 ^ 31 := by decide

theorem maxPercent_bits_lt : (0x43c70000 : ℕ) < 2 ^ 31 := by decide

theorem minThresholdDb_bits_lt : (0x42c80000 : ℕ) < 2 ^ 31 := by decide

/-- `0.0F`. -/
def zero : Binary32 where
  negative := false
  bits := 0
  bits_lt := zero_bits_lt

/-- `-60.0F`. -/
def minVolumeDb : Binary32 where
  negative := true
  bits := 0x42700000
  bits_lt := minVolumeDb_bits_lt

/-- `12.0F`. -/
def maxVolumeDb : Binary32 where
  negative := false
  bits := 0x41400000
  bits_lt := maxVolumeDb_bits_lt

/-- `398.0F`. -/
def maxPercent : Binary32 where
  negative := false
  bits := 0x43c70000
  bits_lt := maxPercent_bits_lt

/-- `-100.0F`. -/
def minThresholdDb : Binary32 where
  negative := true
  bits := 0x42c80000
  bits_lt := minThresholdDb_bits_lt

example : [minVolumeDb, maxVolumeDb, maxPercent, minThresholdDb].map Binary32.units =
    [-60 * 2 ^ 149, 12 * 2 ^ 149, 398 * 2 ^ 149, -100 * 2 ^ 149] := by
  decide +kernel

/-- The branch of `Parse` for a volume. -/
def parseVolume (target remainder : Bytes) : Except Failure InputCommand := do
  let value ← parseWholeValue remainder "Usage: /user <client> volume <dB|percent|reset>"
  if lowerAscii value = ascii "reset" then return .user target .volumeReset zero
  else if value.getLast? = some percentSign then
    let percent ← parseFloatValue value.dropLast "Usage: /user <client> volume <0..398%>"
    throwIf (percent.lt zero ∨ maxPercent.lt percent) "User volume percent must be between 0 and 398"
    return .user target .volumePercent percent
  else
    let volumeDb ← parseFloatValue value "Usage: /user <client> volume <-60..12 dB>"
    throwIf (volumeDb.lt minVolumeDb ∨ maxVolumeDb.lt volumeDb)
      "User volume must be between -60 and +12 dB"
    return .user target .volumeDb volumeDb

/-- The branch of `Parse` for `/user`. -/
def parseUser (arguments : Bytes) : Except Failure InputCommand := do
  let target ← parseArgument arguments
  throwIf (target.value = []) "Usage: /user <client> [volume <dB|percent|reset>|mute|unmute]"
  if target.remainder = [] then return .user target.value .inspect zero
  else
    let operation ← parseArgument target.remainder
    let userCommand := lowerAscii operation.value
    if userCommand = ascii "mute" ∨ userCommand = ascii "unmute" then
      throwIf (operation.remainder ≠ []) "Usage: /user <client> mute|unmute"
      return .user target.value (if userCommand = ascii "mute" then .mute else .unmute) zero
    else if userCommand = ascii "volume" then parseVolume target.value operation.remainder
    else
      .error (.runtimeError "Usage: /user <client> [volume <dB|percent|reset>|mute|unmute]")

/-- The branch of `Parse` for `/audio` behind its first argument. -/
def parseAudioCommand (audioCommand remainder : Bytes) : Except Failure InputCommand :=
  if audioCommand = ascii "devices" then do
    throwIf (remainder ≠ []) "Usage: /audio devices"
    return .audio .devices [] zero
  else if audioCommand = ascii "status" then do
    throwIf (remainder ≠ []) "Usage: /audio status"
    return .audio .status [] zero
  else if audioCommand = ascii "input" then do
    return .audio .input (← parseWholeValue remainder "Usage: /audio input <default|id|name>") zero
  else if audioCommand = ascii "output" then do
    return .audio .output (← parseWholeValue remainder "Usage: /audio output <default|id|name>") zero
  else if audioCommand = ascii "filter" then do
    if remainder = [] then return .audio .filter [] zero
    else
      let value ← parseWholeValue remainder "Usage: /audio filter [none|name]"
      return .audio .filter (lowerAscii value) zero
  else if audioCommand = ascii "threshold" then do
    let threshold ← parseFloatValue remainder "Usage: /audio threshold <-100..0 dBFS>"
    throwIf (threshold.lt minThresholdDb ∨ zero.lt threshold) "Usage: /audio threshold <-100..0 dBFS>"
    return .audio .threshold [] threshold
  else if audioCommand = ascii "transmit" then do
    let value ← parseWholeValue remainder "Usage: /audio transmit <on|off>"
    throwIf (lowerAscii value ≠ ascii "on" ∧ lowerAscii value ≠ ascii "off")
      "Usage: /audio transmit <on|off>"
    return .audio .transmit (lowerAscii value) zero
  else .error (.runtimeError "Unknown /audio command; use /help")

/-- The branch of `Parse` for `/audio`. -/
def parseAudio (arguments : Bytes) : Except Failure InputCommand :=
  if arguments = [] then .ok (.audio .status [] zero)
  else do
    let subcommand ← parseArgument arguments
    parseAudioCommand (lowerAscii subcommand.value) subcommand.remainder

/-- `Parse` behind the name of the command. -/
def parseCommand (command arguments : Bytes) : Except Failure InputCommand :=
  if command = ascii "pm" ∨ command = ascii "message" then parsePrivateMessage arguments
  else if command = ascii "r" then do
    throwIf (arguments = []) "Usage: /r <message>"
    return .reply arguments
  else if command = ascii "join" then do
    return .join (← parseWholeValue arguments "Usage: /join <channel>")
  else if command = ascii "nick" then do
    return .nick (← parseWholeValue arguments "Usage: /nick <new name>")
  else if command = ascii "list" then do
    if arguments = [] then return .list none
    else return .list (some (← parseWholeValue arguments "Usage: /list [channel]"))
  else if command = ascii "user" then parseUser arguments
  else if command = ascii "mute" ∨ command = ascii "unmute" then do
    throwIf (arguments ≠ []) (if command = ascii "mute" then "Usage: /mute" else "Usage: /unmute")
    return .audio .transmit (if command = ascii "unmute" then ascii "on" else ascii "off") zero
  else if command = ascii "audio" then parseAudio arguments
  else if command = ascii "clear" then return .clear
  else if command = ascii "help" then do
    throwIf (arguments ≠ []) "Usage: /help"
    return .help
  else if command = ascii "quit" ∨ command = ascii "exit" then do
    throwIf (arguments ≠ []) "Usage: /quit"
    return .quit
  else .error (.runtimeError ("Unknown command: /" ++ Config.shown command ++ "; use /help"))

/-- `CommandParser::Parse`. -/
def parse (line : Bytes) : Except Failure (Option InputCommand) :=
  let line := trim line
  if line = [] then .ok none
  else if line.head? ≠ some slash then .ok (some (.sendChannel line))
  else do
    let line := trim line.tail
    throwIf (line = []) "Empty command; use /help"
    let command ← parseCommand (lowerAscii (cut line).1) (cut line).2
    return some command

/-! ## What a line can say -/

/-- A text as it is left by `Trim`, with something in it. -/
def IsText (text : Bytes) : Prop := text ≠ [] ∧ trim text = text

/-- A finite number between two others. -/
def Inside (low high value : Binary32) : Prop :=
  value.isFinite = true ∧ value.lt low = false ∧ high.lt value = false

/-- What a line can say. -/
def Expressible : InputCommand → Prop
  | .sendChannel text => IsText text ∧ text.head? ≠ some slash
  | .privateMessage target text => target ≠ [] ∧ IsText text
  | .reply text => IsText text
  | .join channel => channel ≠ []
  | .nick nickname => nickname ≠ []
  | .list start => start ≠ some []
  | .user target kind numberValue =>
    target ≠ [] ∧
      match kind with
      | .volumeDb => Inside minVolumeDb maxVolumeDb numberValue
      | .volumePercent => Inside zero maxPercent numberValue
      | _ => numberValue = zero
  | .audio kind value numberValue =>
    match kind with
    | .devices | .status => value = [] ∧ numberValue = zero
    | .input | .output => value ≠ [] ∧ numberValue = zero
    | .filter => lowerAscii value = value ∧ numberValue = zero
    | .threshold => value = [] ∧ Inside minThresholdDb zero numberValue
    | .transmit => (value = ascii "on" ∨ value = ascii "off") ∧ numberValue = zero
  | .clear | .help | .quit => True

/-- A character between quotation marks. -/
def escape (c : UInt8) : Bytes :=
  if c = backslash ∨ c = quotationMark then [backslash, c] else [c]

/-- A name in quotation marks. -/
def quote (name : Bytes) : Bytes := quotationMark :: name.flatMap escape ++ [quotationMark]

/-- A number with all its decimals. -/
def number (value : Binary32) : Bytes := Binary32.fixedText 149 value

/-- A command with its arguments. -/
def commandText (name arguments : Bytes) : Bytes := slash :: name ++ space :: arguments

/-- The line that says a command. -/
def format : InputCommand → Bytes
  | .sendChannel text => text
  | .privateMessage target text => commandText (ascii "pm") (quote target ++ space :: text)
  | .reply text => commandText (ascii "r") text
  | .join channel => commandText (ascii "join") (quote channel)
  | .nick nickname => commandText (ascii "nick") (quote nickname)
  | .list none => slash :: ascii "list"
  | .list (some start) => commandText (ascii "list") (quote start)
  | .user target kind numberValue =>
    commandText (ascii "user") (quote target ++
      match kind with
      | .inspect => []
      | .volumeDb => space :: ascii "volume" ++ space :: number numberValue
      | .volumePercent => space :: ascii "volume" ++ space :: number numberValue ++ [percentSign]
      | .volumeReset => space :: ascii "volume" ++ space :: ascii "reset"
      | .mute => space :: ascii "mute"
      | .unmute => space :: ascii "unmute")
  | .audio kind value numberValue =>
    commandText (ascii "audio")
      (match kind with
      | .devices => ascii "devices"
      | .status => ascii "status"
      | .input => ascii "input" ++ space :: quote value
      | .output => ascii "output" ++ space :: quote value
      | .filter => ascii "filter" ++ if value = [] then [] else space :: quote value
      | .threshold => ascii "threshold" ++ space :: number numberValue
      | .transmit => ascii "transmit" ++ space :: value)
  | .clear => slash :: ascii "clear"
  | .help => slash :: ascii "help"
  | .quit => slash :: ascii "quit"

/-! ## Texts -/

theorem isText_iff {text : Bytes} : IsText text ↔
    (∃ c ∈ text.head?, isSpace c = false) ∧ ∃ c ∈ text.getLast?, isSpace c = false := by
  unfold IsText trim
  rw [Lines.trim_eq_self_iff]
  cases text with
  | nil => simp
  | cons c text =>
    have hlast : (c :: text).getLast? = some ((c :: text).getLast (List.cons_ne_nil _ _)) :=
      List.getLast?_eq_some_getLast _
    simp [hlast]

/-- Whatever stands between two texts. -/
theorem IsText.append {front text : Bytes} (hfront : IsText front) (htext : IsText text)
    (middle : Bytes) : IsText (front ++ middle ++ text) := by
  rw [isText_iff] at hfront htext ⊢
  obtain ⟨⟨first, hfirst, hfirstSpace⟩, -⟩ := hfront
  obtain ⟨-, ⟨last, hlast, hlastSpace⟩⟩ := htext
  refine ⟨⟨first, ?_, hfirstSpace⟩, last, ?_, hlastSpace⟩
  · rw [List.append_assoc]
    exact List.mem_head?_append_of_mem_head? hfirst
  · exact List.mem_getLast?_append_of_mem_getLast? hlast

/-- A text behind a character. -/
theorem IsText.cons {c : UInt8} (hc : isSpace c = false) {text : Bytes} (htext : IsText text) :
    IsText (c :: text) := by
  have hfront : IsText [c] := isText_iff.2 ⟨⟨c, rfl, hc⟩, c, rfl, hc⟩
  exact hfront.append htext []

theorem trim_space (text : Bytes) : trim (space :: text) = trim text := rfl

/-- What `Trim` leaves is a text, or nothing. -/
theorem isText_trim {text : Bytes} (h : trim text ≠ []) : IsText (trim text) :=
  ⟨h, Lines.trim_trim text⟩

/-- A word ends at the first blank. -/
theorem cut_word {word : Bytes} (hword : ∀ c ∈ word, isSeparator c = false) (text : Bytes) :
    cut (word ++ space :: text) = (word, trim text) := by
  have hnone : word.findIdx? isSeparator = none := List.findIdx?_eq_none_iff.2 hword
  have hfind : (word ++ space :: text).findIdx? isSeparator = some word.length := by
    rw [List.findIdx?_append, hnone, List.findIdx?_cons]
    simp [isSeparator]
  unfold cut
  have hdrop : (word ++ space :: text).drop (word.length + 1) = text := by
    rw [List.append_cons]
    exact List.drop_left' (by simp)
  rw [hfind]
  dsimp only
  rw [List.take_left' rfl, hdrop]

theorem cut_whole {word : Bytes} (hword : ∀ c ∈ word, isSeparator c = false) :
    cut word = (word, []) := by
  unfold cut
  rw [List.findIdx?_eq_none_iff.2 hword]

theorem trim_cut (text : Bytes) : trim (cut text).2 = (cut text).2 := by
  unfold cut
  split
  · rfl
  · exact Lines.trim_trim _

/-! ## Names in quotation marks -/

theorem readQuoted_escaped (front name rest : Bytes) :
    readQuoted false front (name.flatMap escape ++ quotationMark :: rest) =
      .ok { value := front ++ name, remainder := trim rest } := by
  have hne : quotationMark ≠ backslash := by decide
  induction name generalizing front with
  | nil =>
    rw [List.flatMap_nil, List.nil_append, List.append_nil]
    simp [readQuoted, hne]
  | cons c name ih =>
    rw [List.flatMap_cons, List.append_assoc]
    by_cases hspecial : c = backslash ∨ c = quotationMark
    · have hescape : escape c = [backslash, c] := if_pos hspecial
      rw [hescape]
      simp only [List.cons_append, List.nil_append, readQuoted]
      simp [ih]
    · have hescape : escape c = [c] := if_neg hspecial
      rw [not_or] at hspecial
      rw [hescape]
      simp [readQuoted, hspecial.1, hspecial.2, ih]

theorem isText_quote (name : Bytes) : IsText (quote name) := by
  have hmark : isSpace quotationMark = false := by decide
  rw [isText_iff]
  refine ⟨⟨quotationMark, rfl, hmark⟩, quotationMark, ?_, hmark⟩
  unfold quote
  rw [List.getLast?_concat]
  rfl

/-- **A name in quotation marks is read back**, whatever stands behind it. -/
theorem parseArgument_quote {name rest : Bytes} (h : IsText (quote name ++ rest)) :
    parseArgument (quote name ++ rest) = .ok { value := name, remainder := trim rest } := by
  have htail : (quote name ++ rest).tail = name.flatMap escape ++ quotationMark :: rest := by
    unfold quote
    simp
  have hhead : (quote name ++ rest).head? = some quotationMark := rfl
  unfold parseArgument
  dsimp only
  rw [h.2, if_neg h.1, hhead, if_neg (not_not.2 rfl), htail, readQuoted_escaped, List.nil_append]

theorem parseArgument_quote_text (name : Bytes) {text : Bytes} (htext : IsText text) :
    parseArgument (quote name ++ space :: text) = .ok { value := name, remainder := text } := by
  have hwhole : IsText (quote name ++ space :: text) := by
    rw [List.append_cons]
    exact (isText_quote name).append htext [space]
  rw [parseArgument_quote hwhole, trim_space, htext.2]

theorem parseArgument_quote_nil (name : Bytes) :
    parseArgument (quote name) = .ok { value := name, remainder := [] } := by
  have h := isText_quote name
  rw [← List.append_nil (quote name)] at h ⊢
  rw [parseArgument_quote h]
  rfl

/-- A word is read up to the blank behind it. -/
theorem parseArgument_word {word text : Bytes} (hword : ∀ c ∈ word, isSeparator c = false)
    (hhead : word.head? ≠ some quotationMark) (hne : IsText word) (htext : IsText text) :
    parseArgument (word ++ space :: text) = .ok { value := word, remainder := text } := by
  have hwhole : IsText (word ++ space :: text) := by
    rw [List.append_cons]
    exact hne.append htext [space]
  have hfirst : (word ++ space :: text).head? = word.head? := by
    obtain ⟨c, rest, rfl⟩ := List.exists_cons_of_ne_nil hne.1
    rfl
  unfold parseArgument
  dsimp only
  rw [hwhole.2, if_neg hwhole.1, hfirst, if_pos hhead, cut_word hword, htext.2]

theorem parseArgument_word_nil {word : Bytes} (hword : ∀ c ∈ word, isSeparator c = false)
    (hhead : word.head? ≠ some quotationMark) (hne : IsText word) :
    parseArgument word = .ok { value := word, remainder := [] } := by
  unfold parseArgument
  dsimp only
  rw [hne.2, if_neg hne.1, if_pos hhead, cut_whole hword]

theorem parseWholeValue_quote {name : Bytes} (hne : name ≠ []) (usage : String) :
    parseWholeValue (quote name) usage = .ok name := by
  have hquote := isText_quote name
  have hhead : (quote name).head? = some quotationMark := rfl
  unfold parseWholeValue
  dsimp only
  rw [hquote.2, if_neg hquote.1, hhead, if_neg (not_not.2 rfl), parseArgument_quote_nil]
  simp [throwIf, hne, bind, Except.bind, pure, Except.pure]

theorem parseWholeValue_text {text : Bytes} (htext : IsText text)
    (hhead : text.head? ≠ some quotationMark) (usage : String) :
    parseWholeValue text usage = .ok text := by
  unfold parseWholeValue
  dsimp only
  rw [htext.2, if_neg htext.1, if_pos hhead]

/-! ## Numbers -/

theorem mem_number {value : Binary32} (hfinite : value.isFinite = true) {c : UInt8}
    (hc : c ∈ number value) :
    isSpace c = false ∧ c ≠ quotationMark ∧ c ≠ percentSign ∧ TargetResolver.toLower c < 0x61 := by
  have hdigits : ∀ c : UInt8, Decimal.isDigit c = true → isSpace c = false ∧ c ≠ quotationMark ∧
      c ≠ percentSign ∧ TargetResolver.toLower c < 0x61 :=
    forall_byte (by decide +kernel)
  rcases Binary32.mem_fixedText (of_decide_eq_true hfinite) hc with rfl | rfl | hdigit
  · decide
  · decide
  · exact hdigits c hdigit

theorem number_ne_nil {value : Binary32} (hfinite : value.isFinite = true) : number value ≠ [] := by
  unfold number Binary32.fixedText
  rw [if_pos (of_decide_eq_true hfinite)]
  refine List.append_ne_nil_of_right_ne_nil _ (List.append_ne_nil_of_right_ne_nil _ ?_)
  exact List.cons_ne_nil _ _

/-- A text without blanks. -/
theorem isText_of_forall {text : Bytes} (hne : text ≠ []) (h : ∀ c ∈ text, isSpace c = false) :
    IsText text := by
  rw [isText_iff]
  exact ⟨⟨text.head hne, List.head?_eq_some_head hne, h _ (List.head_mem hne)⟩,
    text.getLast hne, List.getLast?_eq_some_getLast hne, h _ (List.getLast_mem hne)⟩

theorem isText_number {value : Binary32} (hfinite : value.isFinite = true) :
    IsText (number value) :=
  isText_of_forall (number_ne_nil hfinite) fun _ hc => (mem_number hfinite hc).1

/-- **A finite number is read back.** -/
theorem parseFloatValue_number {value : Binary32} (hfinite : value.isFinite = true)
    (usage : String) : parseFloatValue (number value) usage = .ok value := by
  have htext := isText_number hfinite
  have hread : Binary32.fromChars (number value) = some (value, []) := Binary32.fromChars_exact hfinite
  unfold parseFloatValue
  dsimp only
  rw [htext.2, if_neg htext.1, hread]
  simp [throwIf, hfinite, bind, Except.bind, pure, Except.pure]

/-! ## The lines of the commands -/

/-- The name of a command: small letters. -/
def IsName (name : Bytes) : Prop := name ≠ [] ∧ ∀ c ∈ name, 0x61 ≤ c ∧ c ≤ 0x7a

theorem isName_ascii {s : String} (h : (!s.toByteArray.data.toList.isEmpty &&
    s.toByteArray.data.toList.all fun c => 0x61 ≤ c ∧ c ≤ 0x7a) = true) : IsName (ascii s) := by
  rw [← ascii_eq, Bool.and_eq_true, List.all_eq_true] at h
  refine ⟨?_, ?_⟩
  · simpa using h.1
  · intro c hc
    exact of_decide_eq_true (h.2 c hc)

theorem IsName.plain {name : Bytes} (h : IsName name) {c : UInt8} (hc : c ∈ name) :
    isSpace c = false ∧ isSeparator c = false ∧ c ≠ quotationMark ∧
      TargetResolver.toLower c = c := by
  have hletters : ∀ c : UInt8, 0x61 ≤ c ∧ c ≤ 0x7a → isSpace c = false ∧ isSeparator c = false ∧
      c ≠ quotationMark ∧ TargetResolver.toLower c = c :=
    forall_byte (by decide +kernel)
  exact hletters c (h.2 c hc)

theorem IsName.isText {name : Bytes} (h : IsName name) : IsText name :=
  isText_of_forall h.1 fun _ hc => (h.plain hc).1

theorem IsName.lowerAscii {name : Bytes} (h : IsName name) : lowerAscii name = name := by
  unfold Cli.lowerAscii
  exact List.map_congr_left (fun c hc => (h.plain hc).2.2.2) |>.trans (List.map_id _)

theorem IsName.head {name : Bytes} (h : IsName name) : name.head? ≠ some quotationMark := by
  intro hhead
  exact (h.plain (List.mem_of_mem_head? hhead)).2.2.1 rfl

/-- The parser behind the slash of a line. -/
theorem parse_slash {text : Bytes} (htext : IsText text) :
    parse (slash :: text) = (some <$> parseCommand (lowerAscii (cut text).1) (cut text).2) := by
  have hline : IsText (slash :: text) := htext.cons (by decide)
  unfold parse
  dsimp only
  rw [hline.2, if_neg hline.1, List.head?_cons, if_neg (not_not.2 rfl), List.tail_cons, htext.2,
    throwIf_bind_of_not htext.1]
  rfl

theorem parse_commandText {name arguments : Bytes} (hname : IsName name) (h : IsText arguments) :
    parse (commandText name arguments) = (some <$> parseCommand name arguments) := by
  have htext : IsText (name ++ space :: arguments) := by
    rw [List.append_cons]
    exact hname.isText.append h [space]
  unfold commandText
  rw [List.cons_append, parse_slash htext, cut_word fun c hc => (hname.plain hc).2.1, h.2,
    hname.lowerAscii]

theorem parse_name {name : Bytes} (hname : IsName name) :
    parse (slash :: name) = (some <$> parseCommand name []) := by
  rw [parse_slash hname.isText, cut_whole fun c hc => (hname.plain hc).2.1, hname.lowerAscii]

theorem ok_bind {α β : Type} (a : α) (f : α → Except Failure β) :
    ((.ok a : Except Failure α) >>= f) = f a := rfl

theorem ok_map {α β : Type} (f : α → β) (a : α) :
    (f <$> (.ok a : Except Failure α)) = .ok (f a) := rfl

theorem parseArgument_name {name text : Bytes} (hname : IsName name) (htext : IsText text) :
    parseArgument (name ++ space :: text) = .ok { value := name, remainder := text } :=
  parseArgument_word (fun _ hc => (hname.plain hc).2.1) hname.head hname.isText htext

theorem parseArgument_name_nil {name : Bytes} (hname : IsName name) :
    parseArgument name = .ok { value := name, remainder := [] } :=
  parseArgument_word_nil (fun _ hc => (hname.plain hc).2.1) hname.head hname.isText

theorem head_number {value : Binary32} (hfinite : value.isFinite = true) :
    (number value).head? ≠ some quotationMark := by
  intro hhead
  exact (mem_number hfinite (List.mem_of_mem_head? hhead)).2.1 rfl

/-- A number is no keyword, since small letters are not in it. -/
theorem lowerAscii_number {value : Binary32} (hfinite : value.isFinite = true) (name : Bytes)
    (hname : IsName name) (text : Bytes) : lowerAscii (number value ++ text) ≠ name := by
  intro h
  obtain ⟨c, rest, hnumber⟩ := List.exists_cons_of_ne_nil (number_ne_nil hfinite)
  have hsmall := (mem_number hfinite (hnumber ▸ List.mem_cons_self : c ∈ number value)).2.2.2
  have hmem : TargetResolver.toLower c ∈ name := by
    rw [← h, hnumber]
    exact List.mem_cons_self
  exact absurd (hname.2 _ hmem).1 (UInt8.not_le.2 hsmall)

theorem parseVolume_db {target : Bytes} {value : Binary32}
    (h : Inside minVolumeDb maxVolumeDb value) :
    parseVolume target (number value) = .ok (.user target .volumeDb value) := by
  have hlast : (number value).getLast? ≠ some percentSign := by
    intro hlast
    exact (mem_number h.1 (List.mem_of_mem_getLast? hlast)).2.2.1 rfl
  have hkeyword := lowerAscii_number h.1 (ascii "reset") (isName_ascii (by decide)) []
  rw [List.append_nil] at hkeyword
  unfold parseVolume
  rw [parseWholeValue_text (isText_number h.1) (head_number h.1), ok_bind, if_neg hkeyword,
    if_neg hlast, parseFloatValue_number h.1, ok_bind]
  simp [throwIf, h.2.1, h.2.2, ok_bind, pure, Except.pure]

theorem isText_percent {value : Binary32} (hfinite : value.isFinite = true) :
    IsText (number value ++ [percentSign]) := by
  have hsign : IsText [percentSign] :=
    isText_of_forall (List.cons_ne_nil _ _) (List.forall_mem_singleton.2 (by decide))
  have h := (isText_number hfinite).append hsign []
  rwa [List.append_nil] at h

theorem parseVolume_percent {target : Bytes} {value : Binary32}
    (h : Inside zero maxPercent value) :
    parseVolume target (number value ++ [percentSign]) = .ok (.user target .volumePercent value) := by
  have hhead : (number value ++ [percentSign]).head? ≠ some quotationMark := by
    intro hhead
    rcases List.mem_append.1 (List.mem_of_mem_head? hhead) with hc | hc
    · exact (mem_number h.1 hc).2.1 rfl
    · revert hc
      decide
  have hkeyword := lowerAscii_number h.1 (ascii "reset") (isName_ascii (by decide)) [percentSign]
  unfold parseVolume
  rw [parseWholeValue_text (isText_percent h.1) hhead, ok_bind, if_neg hkeyword, List.getLast?_concat, if_pos rfl,
    List.dropLast_concat, parseFloatValue_number h.1, ok_bind]
  simp [throwIf, h.2.1, h.2.2, ok_bind, pure, Except.pure]

theorem parse_user {target : Bytes} {operation : Bytes} (hoperation : IsText operation) :
    parse (commandText (ascii "user") (quote target ++ space :: operation)) =
      (some <$> parseUser (quote target ++ space :: operation)) := by
  have harguments : IsText (quote target ++ space :: operation) := by
    rw [List.append_cons]
    exact (isText_quote target).append hoperation [space]
  rw [parse_commandText (isName_ascii (by decide)) harguments]
  simp [parseCommand, ascii_inj]

theorem parse_volume {target text : Bytes} (htarget : target ≠ []) (htext : IsText text) :
    parse (commandText (ascii "user") (quote target ++ space :: (ascii "volume" ++ space :: text))) =
      (some <$> parseVolume target text) := by
  have hvolume : IsName (ascii "volume") := isName_ascii (by decide)
  have hoperation : IsText (ascii "volume" ++ space :: text) := by
    rw [List.append_cons]
    exact hvolume.isText.append htext [space]
  rw [parse_user hoperation]
  simp [parseUser, parseArgument_quote_text target hoperation, parseArgument_name hvolume htext,
    hvolume.lowerAscii, ascii_inj, throwIf, htarget, hoperation.1, ok_bind]

theorem parse_mute {target name : Bytes} (htarget : target ≠ [])
    (hname : name = ascii "mute" ∨ name = ascii "unmute") :
    parse (commandText (ascii "user") (quote target ++ space :: name)) =
      .ok (some (.user target (if name = ascii "mute" then .mute else .unmute) zero)) := by
  have hisName : IsName name := by
    rcases hname with rfl | rfl
    · exact isName_ascii (by decide)
    · exact isName_ascii (by decide)
  rw [parse_user hisName.isText]
  simp [parseUser, parseArgument_quote_text target hisName.isText, parseArgument_name_nil hisName,
    hisName.lowerAscii, hname, throwIf, htarget, hisName.isText.1, ok_bind, pure, Except.pure]

theorem parse_audio {audioCommand : Bytes} (hname : IsName audioCommand) :
    parse (commandText (ascii "audio") audioCommand) =
      (some <$> parseAudioCommand audioCommand []) := by
  rw [parse_commandText (isName_ascii (by decide)) hname.isText]
  simp [parseCommand, ascii_inj, parseAudio, hname.isText.1, parseArgument_name_nil hname,
    hname.lowerAscii, ok_bind]

theorem parse_audio_text {audioCommand text : Bytes} (hname : IsName audioCommand)
    (htext : IsText text) : parse (commandText (ascii "audio") (audioCommand ++ space :: text)) =
      (some <$> parseAudioCommand audioCommand text) := by
  have harguments : IsText (audioCommand ++ space :: text) := by
    rw [List.append_cons]
    exact hname.isText.append htext [space]
  rw [parse_commandText (isName_ascii (by decide)) harguments]
  simp [parseCommand, ascii_inj, parseAudio, parseArgument_name hname htext, hname.lowerAscii,
    ok_bind]

/-- **Every command that can be said is said by its line.** -/
theorem parse_format {command : InputCommand} (h : Expressible command) :
    parse (format command) = .ok (some command) := by
  cases command with
  | sendChannel text =>
    obtain ⟨htext, hhead⟩ := h
    unfold parse
    dsimp only [format]
    rw [htext.2, if_neg htext.1, if_pos hhead]
  | privateMessage target text =>
    obtain ⟨htarget, htext⟩ := h
    have harguments : IsText (quote target ++ space :: text) := by
      rw [List.append_cons]
      exact (isText_quote target).append htext [space]
    unfold format
    rw [parse_commandText (isName_ascii (by decide)) harguments]
    simp [parseCommand, ascii_inj, parsePrivateMessage, parseArgument_quote_text target htext,
      throwIf, harguments.1, htarget, htext.1, ok_bind, pure, Except.pure]
  | reply text =>
    unfold format
    rw [parse_commandText (isName_ascii (by decide)) h]
    simp [parseCommand, ascii_inj, throwIf, h.1, ok_bind, pure, Except.pure]
  | join channel =>
    unfold format
    rw [parse_commandText (isName_ascii (by decide)) (isText_quote channel)]
    simp [parseCommand, ascii_inj, parseWholeValue_quote h, ok_bind, pure, Except.pure]
  | nick nickname =>
    unfold format
    rw [parse_commandText (isName_ascii (by decide)) (isText_quote nickname)]
    simp [parseCommand, ascii_inj, parseWholeValue_quote h, ok_bind, pure, Except.pure]
  | list start =>
    cases start with
    | none =>
      unfold format
      rw [parse_name (isName_ascii (by decide))]
      simp [parseCommand, ascii_inj, pure, Except.pure]
    | some start =>
      have hne : start ≠ [] := fun hnil => h (congrArg some hnil)
      unfold format
      rw [parse_commandText (isName_ascii (by decide)) (isText_quote start)]
      simp [parseCommand, ascii_inj, (isText_quote start).1, parseWholeValue_quote hne, ok_bind,
        pure, Except.pure]
  | user target kind numberValue =>
    obtain ⟨htarget, hkind⟩ := h
    cases kind with
    | inspect =>
      obtain rfl : numberValue = zero := hkind
      dsimp only [format]
      rw [List.append_nil, parse_commandText (isName_ascii (by decide)) (isText_quote target)]
      simp [parseCommand, ascii_inj, parseUser, parseArgument_quote_nil, throwIf, htarget, ok_bind,
        pure, Except.pure]
    | volumeDb =>
      refine (parse_volume htarget (isText_number hkind.1)).trans ?_
      rw [parseVolume_db hkind, ok_map]
    | volumePercent =>
      have hoperation : space :: ascii "volume" ++ space :: number numberValue ++ [percentSign] =
          space :: (ascii "volume" ++ space :: (number numberValue ++ [percentSign])) := by simp
      dsimp only [format]
      rw [hoperation, parse_volume htarget (isText_percent hkind.1), parseVolume_percent hkind, ok_map]
    | volumeReset =>
      obtain rfl : numberValue = zero := hkind
      have hreset : IsName (ascii "reset") := isName_ascii (by decide)
      refine (parse_volume htarget hreset.isText).trans ?_
      simp [parseVolume, parseWholeValue_text hreset.isText hreset.head, hreset.lowerAscii, ok_bind,
        pure, Except.pure]
    | mute =>
      obtain rfl : numberValue = zero := hkind
      refine (parse_mute htarget (.inl rfl)).trans ?_
      rw [if_pos rfl]
    | unmute =>
      obtain rfl : numberValue = zero := hkind
      refine (parse_mute htarget (.inr rfl)).trans ?_
      rw [if_neg (by simp [ascii_inj])]
  | audio kind value numberValue =>
    cases kind with
    | devices | status =>
      obtain ⟨rfl, rfl⟩ := h
      dsimp only [format]
      rw [parse_audio (isName_ascii (by decide))]
      simp [parseAudioCommand, ascii_inj, throwIf, ok_bind, pure, Except.pure]
    | input | output =>
      obtain ⟨hvalue, rfl⟩ := h
      dsimp only [format]
      rw [parse_audio_text (isName_ascii (by decide)) (isText_quote value)]
      simp [parseAudioCommand, ascii_inj, parseWholeValue_quote hvalue, ok_bind, pure, Except.pure]
    | filter =>
      obtain ⟨hlower, rfl⟩ := h
      dsimp only [format]
      by_cases hvalue : value = []
      · rw [if_pos hvalue, List.append_nil, parse_audio (isName_ascii (by decide))]
        simp [parseAudioCommand, ascii_inj, hvalue, pure, Except.pure]
      · rw [if_neg hvalue, parse_audio_text (isName_ascii (by decide)) (isText_quote value)]
        simp [parseAudioCommand, ascii_inj, (isText_quote value).1, parseWholeValue_quote hvalue,
          hlower, ok_bind, pure, Except.pure]
    | threshold =>
      obtain ⟨rfl, hfinite, hlow, hhigh⟩ := h
      dsimp only [format]
      rw [parse_audio_text (isName_ascii (by decide)) (isText_number hfinite)]
      simp [parseAudioCommand, ascii_inj, parseFloatValue_number hfinite, throwIf, hlow, hhigh,
        ok_bind, pure, Except.pure]
    | transmit =>
      obtain ⟨hvalue, rfl⟩ := h
      have hname : IsName value := by
        rcases hvalue with rfl | rfl
        · exact isName_ascii (by decide)
        · exact isName_ascii (by decide)
      dsimp only [format]
      rw [parse_audio_text (isName_ascii (by decide)) hname.isText]
      rcases hvalue with rfl | rfl
      · simp [parseAudioCommand, ascii_inj, parseWholeValue_text hname.isText hname.head,
          hname.lowerAscii, throwIf, ok_bind, pure, Except.pure]
      · simp [parseAudioCommand, ascii_inj, parseWholeValue_text hname.isText hname.head,
          hname.lowerAscii, throwIf, ok_bind, pure, Except.pure]
  | clear | help | quit =>
    unfold format
    rw [parse_name (isName_ascii (by decide))]
    simp [parseCommand, ascii_inj, throwIf, ok_bind, pure, Except.pure]
/-! ## What the parser takes -/

variable {value remainder : Bytes} {usage : String} {command : InputCommand}

theorem readQuoted_remainder {escaped : Bool} {result text : Bytes} {parsed : ParsedArgument}
    (h : readQuoted escaped result text = .ok parsed) : trim parsed.remainder = parsed.remainder := by
  induction text generalizing escaped result with
  | nil => cases h
  | cons c text ih =>
    unfold readQuoted at h
    split_ifs at h
    · exact ih h
    · exact ih h
    · cases h
      exact Lines.trim_trim text
    · exact ih h

theorem parseArgument_remainder {parsed : ParsedArgument} (h : parseArgument value = .ok parsed) :
    trim parsed.remainder = parsed.remainder := by
  unfold parseArgument at h
  dsimp only at h
  split_ifs at h
  · cases h
    exact trim_cut _
  · exact readQuoted_remainder h

theorem parseWholeValue_ne_nil {result : Bytes} (h : parseWholeValue value usage = .ok result) :
    result ≠ [] := by
  unfold parseWholeValue at h
  dsimp only at h
  split_ifs at h with hempty hhead
  · cases h
    exact hempty
  · obtain ⟨parsed, -, h⟩ := bind_eq_ok h
    obtain ⟨_, -, h⟩ := bind_eq_ok h
    obtain ⟨_, hthrow, h⟩ := bind_eq_ok h
    cases h
    exact not_of_throwIf hthrow

theorem parseFloatValue_finite {result : Binary32} (h : parseFloatValue value usage = .ok result) :
    result.isFinite = true := by
  unfold parseFloatValue at h
  dsimp only at h
  split_ifs at h
  cases hread : Binary32.fromChars (trim value) with
  | none =>
    rw [hread] at h
    cases h
  | some read =>
    rw [hread] at h
    obtain ⟨_, hthrow, h⟩ := bind_eq_ok h
    cases h
    have hnot := not_of_throwIf hthrow
    rw [not_or, not_not, not_not] at hnot
    exact hnot.2

/-- A number within limits that were checked. -/
theorem inside_of_parse {low high result : Binary32} {message : String} {u : Unit}
    (h : parseFloatValue value usage = .ok result)
    (hthrow : throwIf (result.lt low ∨ high.lt result) message = .ok u) : Inside low high result := by
  have hnot := not_of_throwIf hthrow
  rw [not_or, Bool.not_eq_true, Bool.not_eq_true] at hnot
  exact ⟨parseFloatValue_finite h, hnot⟩

theorem lowerAscii_lowerAscii (text : Bytes) : lowerAscii (lowerAscii text) = lowerAscii text := by
  have htwice : ∀ c, TargetResolver.toLower (TargetResolver.toLower c) = TargetResolver.toLower c :=
    forall_byte (by decide +kernel)
  unfold lowerAscii
  rw [List.map_map]
  exact List.map_congr_left fun c _ => htwice c

/-- What a line behind a slash can say. -/
def Said (command : InputCommand) : Prop :=
  Expressible command ∧ ∀ text, command ≠ .sendChannel text

theorem said_of_parsePrivateMessage (h : parsePrivateMessage value = .ok command) :
    Said command := by
  obtain ⟨_, -, h⟩ := bind_eq_ok h
  obtain ⟨target, htarget, h⟩ := bind_eq_ok h
  obtain ⟨_, hthrow, h⟩ := bind_eq_ok h
  have hnot := not_of_throwIf hthrow
  rw [not_or] at hnot
  cases h
  exact ⟨⟨hnot.1, hnot.2, parseArgument_remainder htarget⟩, nofun⟩

theorem said_of_parseVolume (hvalue : value ≠ [])
    (h : parseVolume value remainder = .ok command) : Said command := by
  obtain ⟨volume, -, h⟩ := bind_eq_ok h
  split_ifs at h
  · cases h
    exact ⟨⟨hvalue, rfl⟩, nofun⟩
  · obtain ⟨percent, hpercent, h⟩ := bind_eq_ok h
    obtain ⟨_, hthrow, h⟩ := bind_eq_ok h
    cases h
    exact ⟨⟨hvalue, inside_of_parse hpercent hthrow⟩, nofun⟩
  · obtain ⟨volumeDb, hvolumeDb, h⟩ := bind_eq_ok h
    obtain ⟨_, hthrow, h⟩ := bind_eq_ok h
    cases h
    exact ⟨⟨hvalue, inside_of_parse hvolumeDb hthrow⟩, nofun⟩

theorem said_of_parseUser (h : parseUser value = .ok command) : Said command := by
  obtain ⟨target, -, h⟩ := bind_eq_ok h
  obtain ⟨_, hthrow, h⟩ := bind_eq_ok h
  have htarget := not_of_throwIf hthrow
  split_ifs at h
  · cases h
    exact ⟨⟨htarget, rfl⟩, nofun⟩
  · obtain ⟨operation, -, h⟩ := bind_eq_ok h
    dsimp only at h
    split_ifs at h
    · obtain ⟨_, -, h⟩ := bind_eq_ok h
      cases h
      exact ⟨⟨htarget, rfl⟩, nofun⟩
    · obtain ⟨_, -, h⟩ := bind_eq_ok h
      cases h
      exact ⟨⟨htarget, rfl⟩, nofun⟩
    · exact said_of_parseVolume htarget h

theorem said_of_parseAudioCommand (h : parseAudioCommand value remainder = .ok command) :
    Said command := by
  unfold parseAudioCommand at h
  split_ifs at h
  · obtain ⟨_, -, h⟩ := bind_eq_ok h
    cases h
    exact ⟨⟨rfl, rfl⟩, nofun⟩
  · obtain ⟨_, -, h⟩ := bind_eq_ok h
    cases h
    exact ⟨⟨rfl, rfl⟩, nofun⟩
  · obtain ⟨device, hdevice, h⟩ := bind_eq_ok h
    cases h
    exact ⟨⟨parseWholeValue_ne_nil hdevice, rfl⟩, nofun⟩
  · obtain ⟨device, hdevice, h⟩ := bind_eq_ok h
    cases h
    exact ⟨⟨parseWholeValue_ne_nil hdevice, rfl⟩, nofun⟩
  · cases h
    exact ⟨⟨rfl, rfl⟩, nofun⟩
  · obtain ⟨filter, -, h⟩ := bind_eq_ok h
    cases h
    exact ⟨⟨lowerAscii_lowerAscii filter, rfl⟩, nofun⟩
  · obtain ⟨threshold, hthreshold, h⟩ := bind_eq_ok h
    obtain ⟨_, hthrow, h⟩ := bind_eq_ok h
    cases h
    exact ⟨⟨rfl, inside_of_parse hthreshold hthrow⟩, nofun⟩
  · obtain ⟨transmit, -, h⟩ := bind_eq_ok h
    obtain ⟨_, hthrow, h⟩ := bind_eq_ok h
    have hnot := not_of_throwIf hthrow
    rw [not_and_or, not_not, not_not] at hnot
    cases h
    exact ⟨⟨hnot, rfl⟩, nofun⟩

theorem said_of_parseAudio (h : parseAudio value = .ok command) : Said command := by
  unfold parseAudio at h
  split_ifs at h
  · cases h
    exact ⟨⟨rfl, rfl⟩, nofun⟩
  · obtain ⟨subcommand, -, h⟩ := bind_eq_ok h
    exact said_of_parseAudioCommand h

theorem said_of_parseCommand (hvalue : trim value = value)
    (h : parseCommand remainder value = .ok command) : Said command := by
  unfold parseCommand at h
  rcases ite_eq_iff.1 h with ⟨-, h⟩ | ⟨-, h⟩
  · exact said_of_parsePrivateMessage h
  rcases ite_eq_iff.1 h with ⟨-, h⟩ | ⟨-, h⟩
  · obtain ⟨_, hthrow, h⟩ := bind_eq_ok h
    cases h
    exact ⟨⟨not_of_throwIf hthrow, hvalue⟩, nofun⟩
  rcases ite_eq_iff.1 h with ⟨-, h⟩ | ⟨-, h⟩
  · obtain ⟨channel, hchannel, h⟩ := bind_eq_ok h
    cases h
    exact ⟨parseWholeValue_ne_nil hchannel, nofun⟩
  rcases ite_eq_iff.1 h with ⟨-, h⟩ | ⟨-, h⟩
  · obtain ⟨nickname, hnickname, h⟩ := bind_eq_ok h
    cases h
    exact ⟨parseWholeValue_ne_nil hnickname, nofun⟩
  rcases ite_eq_iff.1 h with ⟨-, h⟩ | ⟨-, h⟩
  · rcases ite_eq_iff.1 h with ⟨-, h⟩ | ⟨-, h⟩
    · cases h
      exact ⟨nofun, nofun⟩
    · obtain ⟨start, hstart, h⟩ := bind_eq_ok h
      cases h
      exact ⟨fun hnil => parseWholeValue_ne_nil hstart (Option.some.inj hnil), nofun⟩
  rcases ite_eq_iff.1 h with ⟨-, h⟩ | ⟨-, h⟩
  · exact said_of_parseUser h
  rcases ite_eq_iff.1 h with ⟨-, h⟩ | ⟨-, h⟩
  · obtain ⟨_, -, h⟩ := bind_eq_ok h
    cases h
    refine ⟨⟨?_, rfl⟩, nofun⟩
    split_ifs
    · exact .inl rfl
    · exact .inr rfl
  rcases ite_eq_iff.1 h with ⟨-, h⟩ | ⟨-, h⟩
  · exact said_of_parseAudio h
  rcases ite_eq_iff.1 h with ⟨-, h⟩ | ⟨-, h⟩
  · cases h
    exact ⟨trivial, nofun⟩
  rcases ite_eq_iff.1 h with ⟨-, h⟩ | ⟨-, h⟩
  · obtain ⟨_, -, h⟩ := bind_eq_ok h
    cases h
    exact ⟨trivial, nofun⟩
  rcases ite_eq_iff.1 h with ⟨-, h⟩ | ⟨-, h⟩
  · obtain ⟨_, -, h⟩ := bind_eq_ok h
    cases h
    exact ⟨trivial, nofun⟩
  cases h

theorem parse_cases {line : Bytes} (h : parse line = .ok (some command)) :
    (command = .sendChannel (trim line) ∧ trim line ≠ [] ∧ (trim line).head? ≠ some slash) ∨
      Said command := by
  rcases ite_eq_iff.1 h with ⟨-, h⟩ | ⟨hne, h⟩
  · cases h
  rcases ite_eq_iff.1 h with ⟨hhead, h⟩ | ⟨-, h⟩
  · cases h
    exact .inl ⟨rfl, hne, hhead⟩
  · obtain ⟨_, -, h⟩ := bind_eq_ok h
    obtain ⟨parsed, hparsed, h⟩ := bind_eq_ok h
    cases h
    exact .inr (said_of_parseCommand (trim_cut _) hparsed)

/-- **The commands that come out of the parser** are those that can be said, and each is said by its
line, in which it comes out again. What goes to the channel is the whole line without the blanks
around it, and never begins with a slash. -/
theorem expressible_iff :
    (∀ command, Expressible command ↔ ∃ line, parse line = .ok (some command)) ∧
    (∀ command, Expressible command → parse (format command) = .ok (some command)) ∧
    ∀ line text, parse line = .ok (some (.sendChannel text)) ↔
      text = trim line ∧ text ≠ [] ∧ text.head? ≠ some slash := by
  refine ⟨?_, fun _ => parse_format, ?_⟩
  · intro command
    refine ⟨fun h => ⟨format command, parse_format h⟩, ?_⟩
    rintro ⟨line, h⟩
    rcases parse_cases h with ⟨rfl, hne, hhead⟩ | hsaid
    · exact ⟨isText_trim hne, hhead⟩
    · exact hsaid.1
  · intro line text
    constructor
    · intro h
      rcases parse_cases h with ⟨htext, hne, hhead⟩ | hsaid
      · cases htext
        exact ⟨rfl, hne, hhead⟩
      · exact absurd rfl (hsaid.2 text)
    · rintro ⟨rfl, hne, hhead⟩
      unfold parse
      dsimp only
      rw [if_neg hne, if_pos hhead]

end Cli

end TsCli
