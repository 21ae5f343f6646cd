import TsCli.Basic
import TsCli.Lib.BigEndian
import TsCli.Lib.Cursor

/-!
# The license parser

The license of a server is a chain of blocks. `LicenseBlock::Parse` reads one block with a cursor of
its own over the rest of the data, and reports how far it came; `License::Parse` goes on from there.

Every error is a text that the parser throws, but for reads outside of the data and loops without an
end, which a later module excludes.
-/

namespace TsCli

open Exec

/-- `LicenseCursor`. -/
abbrev LicenseCursor := Cursor UInt8

namespace LicenseCursor

/-- The code of a member function. -/
abbrev Member := EStateM Failure LicenseCursor

/-- `Remaining`. -/
def remaining (s : LicenseCursor) : ℕ := s.data.length - s.offset

/-- `Require`. -/
def require (count : ℕ) : Member Unit := do
  let s ← get
  if s.remaining < count then
    throw (.runtimeError "Unexpected end of license data")

/-- `m_Data.subspan( m_Offset, count )`, and `m_Offset += count`. -/
def take (count : ℕ) : Member Bytes := do
  let s ← get
  if h : s.offset + count ≤ s.data.length then
    set { s with offset := s.offset + count, offset_le := h }
    return (s.data.drop s.offset).take count
  else
    throw .outOfBounds

/-- `ReadU8`. -/
def readU8 : Member UInt8 := do
  require 1
  let bytes ← take 1
  return bytes.headD 0

/-- `ReadU32`. -/
def readU32 : Member UInt32 := do
  let a ← readU8
  let b ← readU8
  let c ← readU8
  let d ← readU8
  return (a.toUInt32 <<< 24) ||| (b.toUInt32 <<< 16) ||| (c.toUInt32 <<< 8) ||| d.toUInt32

/-- `ReadBytes`. -/
def readBytes (count : ℕ) : Member Bytes := do
  require count
  take count

/-- The loop of `SkipNullTerminated`. -/
def skipLoop : ℕ → Member Unit
  | 0 => throw .outOfFuel
  | fuel + 1 => do
    let byte ← readU8
    if byte = 0 then return else skipLoop fuel

/-- `SkipNullTerminated`. Every pass of its loop reads a byte. -/
def skipNullTerminated : Member Unit := do
  let s ← get
  skipLoop (s.remaining + 1)

end LicenseCursor

/-- `LicenseBlockType`. -/
inductive LicenseBlockType
  | intermediate
  | website
  | ts3Server
  | code
  | ts5Server
  | ephemeral
  deriving DecidableEq, Repr

namespace LicenseBlockType

/-- The value of the enumeration. -/
def value : LicenseBlockType → UInt8
  | .intermediate => 0x00
  | .website => 0x01
  | .ts3Server => 0x02
  | .code => 0x03
  | .ts5Server => 0x08
  | .ephemeral => 0x20

/-- The switch of `LicenseBlock::Parse` over the type. -/
def ofByte? (byte : UInt8) : Option LicenseBlockType :=
  if byte = 0x00 then some .intermediate
  else if byte = 0x01 then some .website
  else if byte = 0x02 then some .ts3Server
  else if byte = 0x03 then some .code
  else if byte = 0x08 then some .ts5Server
  else if byte = 0x20 then some .ephemeral
  else none

theorem ofByte?_eq_some_iff {byte : UInt8} {type : LicenseBlockType} :
    ofByte? byte = some type ↔ byte = type.value := by
  unfold ofByte?
  constructor
  · intro h
    split_ifs at h with h0 h1 h2 h3 h8 h20 <;> cases h <;> assumption
  · rintro rfl
    cases type <;> rfl

end LicenseBlockType

/-- `LicenseBlock`. -/
structure LicenseBlock where
  type : LicenseBlockType
  publicKey : Bytes
  notValidBefore : UInt64
  notValidAfter : UInt64
  raw : Bytes := []
  deriving DecidableEq, Repr

namespace LicenseBlock

open LicenseCursor

/-- `MinimumBlockSize`. -/
def minimumBlockSize : ℕ := 42

/-- `TimestampOffset`. -/
def timestampOffset : UInt64 := 0x50e22700

/-- The checks of `Parse` on the content of a property. -/
def checkContent (dataType : UInt8) (content : Bytes) : Except Failure Unit :=
  if dataType = 0x00 then
    throwIf (content = [] ∨ content.getLast? ≠ some 0x00) "Invalid license string property"
  else if dataType = 0x01 ∨ dataType = 0x03 then
    throwIf (content.length ≠ 4) "Invalid 32-bit license property"
  else if dataType = 0x02 ∨ dataType = 0x04 then
    throwIf (content.length ≠ 8) "Invalid 64-bit license property"
  else .ok ()

/-- What `Parse` does with a property: `property[1]`, and `property.subspan( 2 )`. -/
def checkProperty : Bytes → Except Failure Unit
  | _ :: dataType :: content => checkContent dataType content
  | _ => .error .outOfBounds

/-- The loop of `Parse` over the properties. -/
def readProperties : ℕ → Member Unit
  | 0 => return
  | count + 1 => do
    let propertyLength ← readU8
    if propertyLength < 2 then
      throw (.runtimeError "Invalid license property length")
    else
      let property ← readBytes propertyLength.toNat
      lift (checkProperty property)
      readProperties count

/-- The switch of `Parse` over the body of a block. -/
def readBody : LicenseBlockType → Member Unit
  | .intermediate => do
    let _ ← readU32
    skipNullTerminated
  | .website | .code => skipNullTerminated
  | .ts3Server => do
    let _ ← readU8
    let _ ← readU32
    skipNullTerminated
  | .ts5Server => do
    let _ ← readU8
    let propertyCount ← readU8
    readProperties propertyCount.toNat
  | .ephemeral => return

/-- What `Parse` does with its reader behind the type of the block. -/
def readDated (publicKey : Bytes) (type : LicenseBlockType) : Member LicenseBlock := do
  let before ← readU32
  let after ← readU32
  let notValidBefore := before.toUInt64 + timestampOffset
  let notValidAfter := after.toUInt64 + timestampOffset
  if notValidAfter < notValidBefore then
    throw (.runtimeError "Invalid license validity range")
  else
    readBody type
    return { type, publicKey, notValidBefore, notValidAfter }

/-- What `Parse` does with its reader. -/
def readFields : Member LicenseBlock := do
  let keyType ← readU8
  if keyType ≠ 0x00 then
    throw (.runtimeError "Unsupported license key type")
  else
    let publicKey ← readBytes 32
    let blockType ← readU8
    match LicenseBlockType.ofByte? blockType with
    | none => throw (.runtimeError "Unsupported license block type")
    | some type => readDated publicKey type

/-- `LicenseBlock::Parse`: the block, and the offset behind it. -/
def parse (data : Bytes) (offset : ℕ) : Except Failure (LicenseBlock × ℕ) := do
  throwIf (data.length < offset ∨ data.length - offset < minimumBlockSize)
    "License block is too short"
  let blockData := data.drop offset
  match readFields { data := blockData, offset_le := Nat.zero_le _ } with
  | .ok block s => .ok ({ block with raw := blockData.take s.offset }, offset + s.offset)
  | .error e _ => .error e

/-- `IsServer`. -/
def isServer (block : LicenseBlock) : Bool := block.type = .ts3Server || block.type = .ts5Server

end LicenseBlock

/-- `License`. -/
structure License where
  version : UInt8
  raw : Bytes
  blocks : List LicenseBlock
  deriving DecidableEq, Repr

namespace License

/-- The check of a block against the bounds of its parent. -/
def checkParent (parent : Option (UInt64 × UInt64)) (block : LicenseBlock) : Except Failure Unit :=
  match parent with
  | none => .ok ()
  | some (parentBefore, parentAfter) =>
    throwIf (block.notValidBefore < parentBefore ∨ parentAfter < block.notValidAfter)
      "License block exceeds parent validity range"

/-- The loop of `License::Parse`. The parent bounds are those of the last block. -/
def parseBlocks (data : Bytes) : ℕ → ℕ → List LicenseBlock → Option (UInt64 × UInt64) →
    Except Failure (List LicenseBlock)
  | 0, _, _, _ => .error .outOfFuel
  | fuel + 1, offset, blocks, parent =>
    if offset < data.length then do
      throwIf (8 ≤ blocks.length) "License contains too many blocks"
      let (block, offset) ← LicenseBlock.parse data offset
      checkParent parent block
      parseBlocks data fuel offset (blocks ++ [block])
        (some (block.notValidBefore, block.notValidAfter))
    else .ok blocks

/-- `License::Parse`. The ninth pass of its loop is the last one. -/
def parse (data : Bytes) : Except Failure License := do
  throwIf (data = []) "License is empty"
  let version := data.headD 0
  throwIf (version ≠ 0 ∧ version ≠ 1) "Unsupported license version"
  let blocks ← parseBlocks data 9 1 [] none
  throwIf (blocks.length < 2) "License contains too few blocks"
  match blocks[blocks.length - 2]?, blocks.getLast? with
  | some serverBlock, some lastBlock =>
    throwIf (¬ serverBlock.isServer) "Penultimate license block is not a server block"
    throwIf (lastBlock.type ≠ .ephemeral) "Final license block is not ephemeral"
    .ok { version, raw := data, blocks }
  | _, _ => .error .outOfBounds

end License

end TsCli
