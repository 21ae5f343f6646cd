import TsCli.Lib.Lines
import TsCli.Message.Channel

/-!
# The client configuration

`config.conf` holds one `key=value` pair on a line, between empty lines and remarks. The activation
threshold is a `float`; how its text is written and read is a parameter of the model.
-/

namespace TsCli

open Ascii Lines

namespace Ascii

def numberSign : UInt8 := 0x23
def minus : UInt8 := 0x2d
def zero : UInt8 := 0x30

end Ascii

/-! ## Numbers -/

/-- The value of a digit of `std::from_chars`; what is no digit has a value of no base. -/
def digitValue (c : UInt8) : ℕ :=
  if 0x30 ≤ c ∧ c ≤ 0x39 then c.toNat - 0x30
  else if 0x61 ≤ c ∧ c ≤ 0x7a then c.toNat - 0x61 + 10
  else if 0x41 ≤ c ∧ c ≤ 0x5a then c.toNat - 0x41 + 10
  else 36

/-- `std::from_chars` into 64 bits, which has to use up the text. -/
def fromChars (base : ℕ) (text : Bytes) : Option ℕ :=
  let parsed := text.foldl (fun n c => n * base + digitValue c) 0
  if text ≠ [] ∧ text.all (digitValue · < base) ∧ parsed < 2 ^ 64 then some parsed else none

/-- What a stream writes for an unsigned number. -/
def numberText (base n : ℕ) : Bytes := (Nat.toDigits base n).map fun c => UInt8.ofNat c.toNat

/-- The threshold of the capture filter, a `float`: its text, and the checks on it. -/
structure Threshold (F : Type) where
  /-- `stream << value`. -/
  write : F → Bytes
  /-- `std::from_chars`: the value, and the text behind it. -/
  fromChars : Bytes → Option (F × Bytes)
  /-- `std::isfinite`. -/
  isFinite : F → Bool
  /-- `value < -100.0F`. -/
  below : F → Bool
  /-- `value > 0.0F`. -/
  above : F → Bool
  /-- `-45.0F`. -/
  initial : F

namespace Threshold

variable {F : Type} (io : Threshold F)

/-- A threshold that `SetAudioSettings` accepts. -/
def Accepts (value : F) : Prop :=
  io.isFinite value = true ∧ io.below value = false ∧ io.above value = false

instance (value : F) : Decidable (io.Accepts value) := inferInstanceAs (Decidable (_ ∧ _ ∧ _))

/-- What the standard says about the text of a number: it has digits, a sign, a point and an
exponent, and is read back up to rounding, which does not leave the range of the checks. -/
structure Documented : Prop where
  initial : io.Accepts io.initial
  plain : ∀ value, io.Accepts value →
    ∀ c ∈ io.write value, c ∈ ascii "0123456789+-.e"
  reads : ∀ value, io.Accepts value →
    ∃ read, io.fromChars (io.write value) = some (read, []) ∧ io.Accepts read

end Threshold

/-! ## The configuration -/

/-- `ClientVersionProfile`. -/
structure ClientVersionProfile where
  initVersion : UInt32 := 0
  version : Bytes
  platform : Bytes
  signature : Bytes
  deriving DecidableEq, Repr

/-- `ClientProfile`. -/
structure ClientProfile where
  nickname : Bytes
  version : ClientVersionProfile
  deriving DecidableEq, Repr

/-- `AudioSettings`. -/
structure AudioSettings (F : Type) where
  input : Bytes := ascii "default"
  output : Bytes := ascii "default"
  captureFilter : Bytes := ascii "none"
  activationThresholdDb : F
  deriving DecidableEq, Repr

/-- `Config`, without the path it is saved to. -/
structure Config (F : Type) where
  nickname : Bytes := []
  clientInitVersion : UInt32 := 0
  clientVersion : Bytes := []
  clientPlatform : Bytes := []
  clientVersionSignature : Bytes := []
  audioSettings : AudioSettings F
  lastServer : Bytes := []
  deriving DecidableEq, Repr

namespace Config

variable {F : Type} (io : Threshold F)

/-- `Config::DefaultProfile`. -/
def defaultProfile : ClientProfile where
  nickname := ascii "ts-cli"
  version :=
    { initVersion := 0x142898dd
      version := ascii "3.6.2 [Build: 1695203293]"
      platform := ascii "Linux"
      signature := ascii ("p4iF1jZ3ZOz9MEkKSZ2bvnFtm9WmUcQy9mAP//erFE4PF1sB6K1CSANrr+3X4B0aZR0u" ++
        "+K2pjnv8kiKsWKQCBQ==") }

/-- `Config::Create`. -/
def create (profile : ClientProfile) : Except Failure (Config F) := do
  throwIf (profile.nickname = []) "Client nickname cannot be empty"
  return { nickname := profile.nickname
           clientInitVersion := profile.version.initVersion
           clientVersion := profile.version.version
           clientPlatform := profile.version.platform
           clientVersionSignature := profile.version.signature
           audioSettings := { activationThresholdDb := io.initial } }

/-- `Config::Profile`. -/
def profile (config : Config F) : Except Failure ClientProfile := do
  throwIf (config.nickname = []) "Client nickname cannot be empty"
  return { nickname := config.nickname
           version :=
             { initVersion := config.clientInitVersion
               version := config.clientVersion
               platform := config.clientPlatform
               signature := config.clientVersionSignature } }

/-- `Config::SetAudioSettings`. -/
def setAudioSettings (config : Config F) (settings : AudioSettings F) :
    Except Failure (Config F) := do
  throwIf (¬ io.isFinite settings.activationThresholdDb ∨ io.below settings.activationThresholdDb ∨
    io.above settings.activationThresholdDb)
    "audio_activation_threshold_db must be between -100 and 0"
  throwIf (settings.input = [] ∨ settings.output = [] ∨ settings.captureFilter = [])
    "Audio config values cannot be empty"
  return { config with audioSettings := settings }

/-- `Config::SetNickname`. -/
def setNickname (config : Config F) (nickname : Bytes) : Except Failure (Config F) := do
  throwIf (nickname = []) "Client nickname cannot be empty"
  return { config with nickname }

/-- `Config::SetLastServer`. -/
def setLastServer (config : Config F) (server : Bytes) : Except Failure (Config F) := do
  throwIf (server.any fun c => c = carriageReturn || c = lineFeed)
    "Server address cannot contain line breaks"
  return { config with lastServer := server }

/-! ## Writing -/

/-- What `Save` writes up to a `std::endl`: a key and its value, or a text of its own. -/
inductive Line
  | remark (text : Bytes)
  | entry (key value : Bytes)

def Line.text : Line → Bytes
  | .remark text => text
  | .entry key value => key ++ equals :: value

/-- The lines of `Config::Save`. -/
def saveLines (config : Config F) : List Line :=
  [.remark (ascii "# ts-cli configuration"),
    .remark [],
    .entry (ascii "nickname") config.nickname,
    .remark [],
    .remark (ascii "# TeamSpeak wire client profile."),
    .remark (ascii "# Keep these four fields as one coherent tuple."),
    .entry (ascii "client_init_version")
      (ascii "0x" ++ numberText 16 config.clientInitVersion.toNat),
    .entry (ascii "client_version") config.clientVersion,
    .entry (ascii "client_platform") config.clientPlatform,
    .entry (ascii "client_version_sign") config.clientVersionSignature,
    .remark [],
    .remark (ascii "# Audio settings. Transmission still starts muted each session."),
    .entry (ascii "audio_input") config.audioSettings.input,
    .entry (ascii "audio_output") config.audioSettings.output,
    .entry (ascii "audio_filter") config.audioSettings.captureFilter,
    .entry (ascii "audio_activation_threshold_db")
      (io.write config.audioSettings.activationThresholdDb)] ++
  if config.lastServer = [] then []
  else
    [.remark [],
      .remark (ascii "# The server ts-gtk connected to last."),
      .entry (ascii "last_server") config.lastServer]

/-- The text that `Config::Save` writes. -/
def save (config : Config F) : Bytes := join lineFeed ((saveLines io config).map Line.text)

/-! ## Reading -/

def isBlank (c : UInt8) : Bool := c = space || c = tab

/-- `Config::Trim`. -/
def trim (value : Bytes) : Bytes := Lines.trim isBlank value

/-- `line.remove_suffix( 1 )` when the line ends with a carriage return. -/
def dropCarriageReturn (line : Bytes) : Bytes :=
  if line.getLast? = some carriageReturn then line.dropLast else line

/-- The keys that `Parse` knows. -/
def knownKeys : List Bytes :=
  [ascii "nickname", ascii "client_init_version", ascii "client_version", ascii "client_platform",
    ascii "client_version_sign", ascii "audio_input", ascii "audio_output", ascii "audio_filter",
    ascii "audio_activation_threshold_db", ascii "last_server"]

/-- The `std::map` of the values read so far. -/
abbrev Values := List (Bytes × Bytes)

/-- A key in the text of an error. -/
def shown (name : Bytes) : String := String.ofList (name.map fun c => Char.ofNat c.toNat)

/-- The loop body of `Parse` for a line. -/
def readLine (values : Values) (lineNumber : ℕ) (line : Bytes) : Except Failure Values :=
  let line := trim (dropCarriageReturn line)
  if line = [] ∨ line.head? = some numberSign then .ok values
  else match CommandParser.find equals line with
    | none => .error (.runtimeError s!"Invalid config line {lineNumber}")
    | some separator => do
      let name := trim (line.take separator)
      let value := trim (line.drop (separator + 1))
      throwIf (name = []) s!"Empty config key on line {lineNumber}"
      throwIf (name ∉ knownKeys) ("Unknown config key: " ++ shown name)
      throwIf (values.lookup name).isSome ("Duplicate config key: " ++ shown name)
      return (name, value) :: values

/-- The loop of `Parse` over the lines. -/
def readLines (values : Values) (lineNumber : ℕ) : List Bytes → Except Failure Values
  | [] => .ok values
  | line :: lines => do
    let values ← readLine values (lineNumber + 1) line
    readLines values (lineNumber + 1) lines

/-- `Config::ParseUnsigned`. -/
def parseUnsigned (value : Bytes) (name : String) : Except Failure ℕ := do
  throwIf (value = []) ("Empty unsigned config value: " ++ name)
  let hexadecimal := value.take 2 = ascii "0x" ∨ value.take 2 = ascii "0X"
  let base := if hexadecimal then 16 else 10
  let value := if hexadecimal then value.drop 2 else value
  throwIf (value = []) ("Invalid hexadecimal config value: " ++ name)
  match TsCli.fromChars base value with
  | some parsed => return parsed
  | none => .error (.runtimeError ("Invalid unsigned config value: " ++ name))

/-- `Config::ParseFloat`. -/
def parseFloat (value : Bytes) (name : String) : Except Failure F :=
  match io.fromChars value with
  | none => .error (.runtimeError ("Invalid " ++ name))
  | some (result, rest) => do
    throwIf (rest ≠ [] ∨ ¬ io.isFinite result) ("Invalid " ++ name)
    return result

/-- A value that may be absent but not empty. -/
def nonEmpty? (values : Values) (name message : String) (default : Bytes) :
    Except Failure Bytes :=
  match values.lookup (ascii name) with
  | none => .ok default
  | some value => do
    throwIf (value = []) message
    return value

/-- The value of `client_init_version`. -/
def initVersion? (values : Values) (default : UInt32) : Except Failure UInt32 :=
  match values.lookup (ascii "client_init_version") with
  | none => .ok default
  | some value => do
    let parsed ← parseUnsigned value "client_init_version"
    throwIf (2 ^ 32 - 1 < parsed) "client_init_version is too large"
    return UInt32.ofNat parsed

/-- The value of `audio_activation_threshold_db`. -/
def threshold? (values : Values) (default : F) : Except Failure F :=
  match values.lookup (ascii "audio_activation_threshold_db") with
  | none => .ok default
  | some value => do
    let result ← parseFloat io value "audio_activation_threshold_db"
    throwIf (io.below result ∨ io.above result)
      "audio_activation_threshold_db must be between -100 and 0"
    return result

/-- `Parse` behind its loop: the values become fields, over the defaults. -/
def fromValues (values : Values) : Except Failure (Config F) := do
  let initial : AudioSettings F := { activationThresholdDb := io.initial }
  let version := defaultProfile.version
  let nickname ← nonEmpty? values "nickname" "Client nickname cannot be empty"
    defaultProfile.nickname
  let clientInitVersion ← initVersion? values version.initVersion
  let config : Config F :=
    { nickname
      clientInitVersion
      clientVersion := (values.lookup (ascii "client_version")).getD version.version
      clientPlatform := (values.lookup (ascii "client_platform")).getD version.platform
      clientVersionSignature :=
        (values.lookup (ascii "client_version_sign")).getD version.signature
      audioSettings := initial }
  let _ ← config.profile
  let input ← nonEmpty? values "audio_input" "audio_input cannot be empty" initial.input
  let output ← nonEmpty? values "audio_output" "audio_output cannot be empty" initial.output
  let captureFilter ← nonEmpty? values "audio_filter" "audio_filter cannot be empty"
    initial.captureFilter
  let activationThresholdDb ← threshold? io values initial.activationThresholdDb
  return { config with
    audioSettings := { input, output, captureFilter, activationThresholdDb }
    lastServer := (values.lookup (ascii "last_server")).getD [] }

/-- `Config::Parse`. -/
def parse (data : Bytes) : Except Failure (Config F) := do
  let values ← readLines [] 0 (splitLines lineFeed data)
  fromValues io values

end Config

end TsCli
