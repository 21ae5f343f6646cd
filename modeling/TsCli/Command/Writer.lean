import TsCli.Basic

/-!
# Writing commands

A command is a name and rows of parameters. Rows are separated by `|`, the name and the parameters
of a row by spaces; a parameter is a name, or a name and a value joined by `=`. Names are checked
and values are escaped.
-/

namespace TsCli

/-! ## The characters that the writer and the parser compare with -/

namespace Ascii

def null : UInt8 := 0x00
def alert : UInt8 := 0x07
def backspace : UInt8 := 0x08
def tab : UInt8 := 0x09
def lineFeed : UInt8 := 0x0a
def verticalTab : UInt8 := 0x0b
def formFeed : UInt8 := 0x0c
def carriageReturn : UInt8 := 0x0d
def space : UInt8 := 0x20
def slash : UInt8 := 0x2f
def equals : UInt8 := 0x3d
def backslash : UInt8 := 0x5c
def pipe : UInt8 := 0x7c

end Ascii

open Ascii

/-- `CommandWriter`. -/
structure CommandWriter where
  data : Bytes := []
  firstRow : Bool := true
  rowHasParameter : Bool := false
  deriving DecidableEq, Repr

namespace CommandWriter

/-- `CommandWriter::ValidateName`. -/
def validateName (name : Bytes) : Except Failure Unit :=
  if name = [] then
    .error (.runtimeError "Command name cannot be empty")
  else if name.any fun c => c = null || c = space || c = equals || c = pipe then
    .error (.runtimeError "Invalid command name")
  else
    .ok ()

/-- The cases of the `switch` of `EncodeValue` that append a backslash and a letter. -/
def escapes : List (UInt8 × UInt8) :=
  [(backslash, backslash), (slash, slash), (space, 0x73), (pipe, 0x70), (alert, 0x61),
    (backspace, 0x62), (formFeed, 0x66), (lineFeed, 0x6e), (carriageReturn, 0x72), (tab, 0x74),
    (verticalTab, 0x76)]

/-- The `switch` of `EncodeValue`: what it appends for a character. -/
def encodeCharacter (c : UInt8) : Except Failure Bytes :=
  match escapes.lookup c with
  | some letter => .ok [backslash, letter]
  | none =>
    if c = null then .error (.runtimeError "TeamSpeak command value contains a null byte")
    else .ok [c]

/-- `CommandWriter::EncodeValue`. -/
def encodeValue : Bytes → Except Failure Bytes
  | [] => .ok []
  | c :: value => do
    let encoded ← encodeCharacter c
    let rest ← encodeValue value
    return encoded ++ rest

/-- `CommandWriter::CommandWriter`. -/
def create (name : Bytes) : Except Failure CommandWriter := do
  validateName name
  return { data := name }

/-- `CommandWriter::WritePrefix`. -/
def writePrefix (name : Bytes) : EStateM Failure CommandWriter Unit := do
  Exec.lift (validateName name)
  let w ← get
  if w.firstRow || w.rowHasParameter then
    modify fun w => { w with data := w.data ++ [space] }
  modify fun w => { w with data := w.data ++ name }

/-- `CommandWriter::Write( name )`. -/
def writeFlag (name : Bytes) : EStateM Failure CommandWriter Unit := do
  writePrefix name
  modify fun w => { w with rowHasParameter := true }

/-- `CommandWriter::Write( name, value )`. -/
def write (name value : Bytes) : EStateM Failure CommandWriter Unit := do
  writePrefix name
  modify fun w => { w with data := w.data ++ [equals] }
  let encoded ← Exec.lift (encodeValue value)
  modify fun w => { w with data := w.data ++ encoded, rowHasParameter := true }

/-- `CommandWriter::NextRow`. -/
def nextRow : EStateM Failure CommandWriter Unit := do
  let w ← get
  if !w.rowHasParameter then
    throw (.runtimeError "Cannot create an empty command row")
  else
    set { data := w.data ++ [pipe], firstRow := false, rowHasParameter := false : CommandWriter }

/-- `CommandWriter::Take`. -/
def take (w : CommandWriter) : Except Failure Bytes :=
  if !w.firstRow && !w.rowHasParameter then
    .error (.runtimeError "Command contains a trailing empty row")
  else
    .ok w.data

/-! ## Sequences of operations -/

/-- A call on the writer. -/
inductive Operation
  | writeFlag (name : Bytes)
  | write (name value : Bytes)
  | nextRow
  deriving DecidableEq, Repr

def perform : Operation → EStateM Failure CommandWriter Unit
  | .writeFlag name => CommandWriter.writeFlag name
  | .write name value => CommandWriter.write name value
  | .nextRow => CommandWriter.nextRow

def performAll : List Operation → EStateM Failure CommandWriter Unit
  | [] => pure ()
  | operation :: operations => do
    perform operation
    performAll operations

/-- Construct a writer, call it and take the bytes. A throw ends the sequence. -/
def writeCommand (name : Bytes) (operations : List Operation) : Except Failure Bytes := do
  let w ← create name
  match performAll operations w with
  | .ok _ w' => w'.take
  | .error failure _ => throw failure

end CommandWriter

end TsCli
