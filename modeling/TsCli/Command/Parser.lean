import TsCli.Command.Writer

/-!
# Parsing commands

The parser cuts a text at the first space into name and data, the data at `|` into rows, and a row
at spaces into parameters. A cursor into a `std::string_view` is the part of the text behind it.
-/

namespace TsCli

open Ascii

/-- `CommandParameter`. -/
structure CommandParameter where
  name : Bytes
  value : Bytes := []
  deriving DecidableEq, Repr

/-- `CommandRow`. -/
abbrev CommandRow := List CommandParameter

/-- `Command`. -/
structure Command where
  name : Bytes
  rows : List CommandRow := []
  deriving DecidableEq, Repr

namespace CommandParser

/-- `text.find( c )`; `none` is `npos`. -/
def find (c : UInt8) (text : Bytes) : Option ℕ := text.findIdx? (· = c)

/-- The cases of the `switch` of `DecodeValue`: a letter and what it stands for. -/
def unescapes : List (UInt8 × UInt8) :=
  [(backslash, backslash), (slash, slash), (0x73, space), (0x70, pipe), (0x61, alert),
    (0x62, backspace), (0x66, formFeed), (0x6e, lineFeed), (0x72, carriageReturn), (0x74, tab),
    (0x76, verticalTab)]

/-- The `switch` of `DecodeValue` on the character after a backslash. -/
def decodeEscape (letter : UInt8) : Except Failure UInt8 :=
  match unescapes.lookup letter with
  | some c => .ok c
  | none => .error (.runtimeError "Unknown command escape sequence")

/-- `CommandParser::DecodeValue`. -/
def decodeValue : Bytes → Except Failure Bytes
  | [] => .ok []
  | [c] => if c = backslash then .error (.runtimeError "Incomplete command escape sequence")
    else .ok [c]
  | c :: e :: value =>
    if c = backslash then do
      let decoded ← decodeEscape e
      let rest ← decodeValue value
      return decoded :: rest
    else do
      let rest ← decodeValue (e :: value)
      return c :: rest

/-- One parameter of `ParseRow`. -/
def parseParameter (parameter : Bytes) : Except Failure CommandParameter :=
  match find equals parameter with
  | none => .ok { name := parameter }
  | some separator => do
    let name := parameter.take separator
    let value := parameter.drop (separator + 1)
    throwIf (name = []) "Command parameter has no name"
    let decoded ← decodeValue value
    return { name, value := decoded }

/-- The loop of `ParseRow` from a cursor on. -/
def parseRowLoop : ℕ → Bytes → Except Failure CommandRow
  | 0, _ => .error .outOfFuel
  | fuel + 1, text =>
    match text.dropWhile (· = space) with
    | [] => .ok []
    | c :: text =>
      let text := c :: text
      match find space text with
      | none => do
        let parameter ← parseParameter text
        return [parameter]
      | some parameterEnd => do
        let parameter ← parseParameter (text.take parameterEnd)
        let rest ← parseRowLoop fuel (text.drop (parameterEnd + 1))
        return parameter :: rest

/-- `CommandParser::ParseRow`. Each turn of the loop moves the cursor. -/
def parseRow (text : Bytes) : Except Failure CommandRow := parseRowLoop (text.length + 1) text

/-- The loop of `Parse` over the rows, from `rowStart` on. -/
def parseRows : ℕ → Bytes → Except Failure (List CommandRow)
  | 0, _ => .error .outOfFuel
  | fuel + 1, data =>
    match find pipe data with
    | none => do
      throwIf (data = []) "Command contains empty row"
      let row ← parseRow data
      return [row]
    | some rowEnd => do
      throwIf (data.take rowEnd = []) "Command contains empty row"
      let row ← parseRow (data.take rowEnd)
      let rows ← parseRows fuel (data.drop (rowEnd + 1))
      return row :: rows

/-- The `\r` and `\n` at the end of the text are dropped. -/
def trimLineEnd (text : Bytes) : Bytes :=
  (text.reverse.dropWhile fun c => c = carriageReturn || c = lineFeed).reverse

/-- `CommandParser::Parse( std::string_view )`. -/
def parseText (text : Bytes) : Except Failure Command := do
  let text := trimLineEnd text
  throwIf (text = []) "Cannot parse empty command"
  match find space text with
  | none => return { name := text }
  | some nameEnd =>
    let name := text.take nameEnd
    throwIf (name = []) "Command has no name"
    match (text.drop nameEnd).dropWhile (· = space) with
    | [] => return { name }
    | c :: data =>
      let rows ← parseRows ((c :: data).length + 1) (c :: data)
      return { name, rows }

/-- `CommandParser::Parse( std::span<const std::byte> )`. -/
def parse (data : Bytes) : Except Failure Command := do
  throwIf (data = []) "Cannot parse empty command"
  parseText data

end CommandParser

end TsCli
