import TsCli.Basic

/-!
# The QuickLZ decoder

`QuickLz::Decompress` reads a header, checks the two sizes in it against the input and the caller's
limit, and then either copies a stored block or decodes a level-1 stream of literals and
back-references. A back-reference names a 12-bit hash; the decoder resolves it through a table of
positions that it fills from its own output.

Every access to the input, the output and the table goes through a bounds check that fails with
`Failure.outOfBounds`, and the loops carry a budget whose end is `Failure.outOfFuel`: the source has
neither check, so both must be shown never to fire.
-/

namespace TsCli

/-- `std::byte` number `i` of a span. -/
def byteAt (data : Bytes) (i : ℕ) : Except Failure UInt8 :=
  match data[i]? with
  | some b => .ok b
  | none => .error .outOfBounds

/-- The members of `QuickLzDecoder`. The two arrays of 4096 entries are functions of the index. -/
structure QuickLzDecoder where
  data : Bytes
  sourcePosition : ℕ
  destinationPosition : ℕ := 0
  output : Bytes
  hashTable : ℕ → ℕ := fun _ => 0
  hashValid : ℕ → Bool := fun _ => false
  lastHashed : ℤ := -1

namespace QuickLzDecoder

/-- The number of entries of `m_HashTable` and `m_HashValid`. -/
def hashTableSize : ℕ := 4096

/-- A member function of the decoder. -/
abbrev Member := EStateM Failure QuickLzDecoder

/-! ## Memory -/

/-- `m_Data[i]`. -/
def readData (i : ℕ) : Member UInt8 := do
  Exec.lift (byteAt (← get).data i)

/-- `m_Output[i]`. -/
def readOutput (i : ℕ) : Member UInt8 := do
  Exec.lift (byteAt (← get).output i)

/-- `m_Output[i] = value`. -/
def writeOutput (i : ℕ) (value : UInt8) : Member Unit := do
  if i < (← get).output.length then
    modify fun s => { s with output := s.output.set i value }
  else
    throw .outOfBounds

/-- `m_HashValid[hash]`. -/
def readHashValid (hash : ℕ) : Member Bool := do
  if hash < hashTableSize then
    return (← get).hashValid hash
  else
    throw .outOfBounds

/-- `m_HashTable[hash]`. -/
def readHashTable (hash : ℕ) : Member ℕ := do
  if hash < hashTableSize then
    return (← get).hashTable hash
  else
    throw .outOfBounds

/-- `m_HashTable[hash] = position; m_HashValid[hash] = true`. -/
def writeHash (hash position : ℕ) : Member Unit := do
  if hash < hashTableSize then
    modify fun s => { s with
      hashTable := Function.update s.hashTable hash position
      hashValid := Function.update s.hashValid hash true }
  else
    throw .outOfBounds

/-! ## Reading the input -/

/-- `ReadU16Little`. -/
def readU16Little (data : Bytes) (offset : ℕ) : Except Failure UInt16 := do
  if data.length < offset ∨ data.length - offset < 2 then
    throw (.runtimeError "Unexpected end of QuickLZ data")
  let low ← byteAt data offset
  let high ← byteAt data (offset + 1)
  return low.toUInt16 ||| (high.toUInt16 <<< 8)

/-- `ReadU32Little`. -/
def readU32Little (data : Bytes) (offset : ℕ) : Except Failure UInt32 := do
  if data.length < offset ∨ data.length - offset < 4 then
    throw (.runtimeError "Unexpected end of QuickLZ data")
  let b0 ← byteAt data offset
  let b1 ← byteAt data (offset + 1)
  let b2 ← byteAt data (offset + 2)
  let b3 ← byteAt data (offset + 3)
  return b0.toUInt32 ||| (b1.toUInt32 <<< 8) ||| (b2.toUInt32 <<< 16) ||| (b3.toUInt32 <<< 24)

/-- `RequireSource`. -/
def requireSource (count : ℕ) : Member Unit := do
  let s ← get
  if s.data.length < s.sourcePosition ∨ s.data.length - s.sourcePosition < count then
    throw (.runtimeError "Unexpected end of QuickLZ data")

/-- `m_SourcePosition += count`. -/
def skipSource (count : ℕ) : Member Unit :=
  modify fun s => { s with sourcePosition := s.sourcePosition + count }

/-- `ReadControlWord`. -/
def readControlWord : Member UInt32 := do
  requireSource 4
  let s ← get
  let value ← Exec.lift (readU32Little s.data s.sourcePosition)
  skipSource 4
  if value = 0 then
    throw (.runtimeError "Invalid QuickLZ control word")
  return value

/-! ## The hash table -/

/-- `Hash`. -/
def hash (value : UInt32) : ℕ := (((value >>> 12) ^^^ value) &&& 0x0fff).toNat

/-- The loop of `UpdateHashUpto`: `count` positions from `position` on. -/
def hashPositions : ℕ → ℕ → Member Unit
  | 0, _ => return
  | count + 1, position => do
    let b0 ← readOutput position
    let b1 ← readOutput (position + 1)
    let b2 ← readOutput (position + 2)
    let value : UInt32 := b0.toUInt32 ||| (b1.toUInt32 <<< 8) ||| (b2.toUInt32 <<< 16)
    writeHash (hash value) position
    hashPositions count (position + 1)

/-- `UpdateHashUpto`. -/
def updateHashUpto (maximumPosition : ℕ) : Member Unit := do
  let s ← get
  if 3 ≤ s.destinationPosition then
    let availableMaximum := s.destinationPosition - 3
    let maximumPosition := min maximumPosition availableMaximum
    let position := if 0 ≤ s.lastHashed then s.lastHashed.toNat + 1 else 0
    if position ≤ maximumPosition then
      hashPositions (maximumPosition + 1 - position) position
      modify fun s => { s with lastHashed := maximumPosition }

/-! ## The three kinds of output -/

/-- The two copying statements of a literal: one byte of input becomes one byte of output. -/
def copyLiteral : Member Unit := do
  requireSource 1
  let s ← get
  writeOutput s.destinationPosition (← readData s.sourcePosition)
  modify fun s => { s with
    sourcePosition := s.sourcePosition + 1
    destinationPosition := s.destinationPosition + 1 }

/-- `DecodeLiteral`. -/
def decodeLiteral : Member Unit := do
  copyLiteral
  let s ← get
  if 3 ≤ s.destinationPosition then
    updateHashUpto (s.destinationPosition - 3)

/-- `IsTail`. -/
def isTail (s : QuickLzDecoder) : Bool :=
  s.output.length ≤ 10 || s.output.length - 10 ≤ s.destinationPosition

/-- `DecodeTail`. -/
def decodeTail : ℕ → UInt32 → Member Unit
  | 0, _ => throw .outOfFuel
  | fuel + 1, control => do
    let s ← get
    if s.destinationPosition < s.output.length then
      let control ← if control = 1 then do
          -- the control words of the tail are skipped unread
          requireSource 4
          skipSource 4
          pure ((1 : UInt32) <<< 31)
        else pure control
      copyLiteral
      decodeTail fuel (control >>> 1)

/-- The copy loop of `DecodeReference`, byte by byte from `reference + i`. -/
def copyMatch (reference : ℕ) : ℕ → ℕ → Member Unit
  | 0, _ => return
  | count + 1, i => do
    let value ← readOutput (reference + i)
    writeOutput ((← get).destinationPosition + i) value
    copyMatch reference count (i + 1)

/-- The length of a match: four bits of the token, or one more byte when they are zero. -/
def readMatchLength (encoded : UInt16) : Member ℕ := do
  if encoded &&& 0x0f ≠ 0 then
    skipSource 2
    return (encoded &&& 0x0f).toNat + 2
  else
    requireSource 3
    let length ← readData ((← get).sourcePosition + 2)
    skipSource 3
    return length.toNat

/-- `DecodeReference`. -/
def decodeReference : Member Unit := do
  requireSource 2
  let s ← get
  let encoded ← Exec.lift (readU16Little s.data s.sourcePosition)
  let hash := ((encoded >>> 4) &&& 0x0fff).toNat
  let matchLength ← readMatchLength encoded
  if matchLength < 3 then
    throw (.runtimeError "Invalid QuickLZ match length")
  if !(← readHashValid hash) then
    throw (.runtimeError "Invalid QuickLZ hash reference")
  let reference ← readHashTable hash
  let s ← get
  if s.destinationPosition ≤ reference then
    throw (.runtimeError "Invalid QuickLZ reference offset")
  if s.output.length - s.destinationPosition < matchLength then
    throw (.runtimeError "QuickLZ reference exceeds output")
  let matchStart := s.destinationPosition
  copyMatch reference matchLength 0
  modify fun s => { s with destinationPosition := s.destinationPosition + matchLength }
  updateHashUpto matchStart
  modify fun s => { s with lastHashed := (s.destinationPosition : ℤ) - 1 }

/-! ## Decoding -/

/-- The loop of `Run`. -/
def runLoop : ℕ → UInt32 → Member Unit
  | 0, _ => throw .outOfFuel
  | fuel + 1, control => do
    let s ← get
    if s.destinationPosition < s.output.length then
      let control ← if control = 1 then readControlWord else pure control
      if control &&& 0x01 ≠ 0 then
        decodeReference
        runLoop fuel (control >>> 1)
      else if (← get).isTail then
        decodeTail (s.output.length + 1) control
      else
        decodeLiteral
        runLoop fuel (control >>> 1)

/-- `Run`. Each turn of the loop writes a byte, so the output size bounds the number of turns. -/
def run : Member Bytes := do
  runLoop ((← get).output.length + 1) 1
  let s ← get
  if s.destinationPosition ≠ s.output.length then
    throw (.runtimeError "QuickLZ output size mismatch")
  return s.output

end QuickLzDecoder

open QuickLzDecoder

/-- A size in the header: `ReadU32Little( data, long )` or `Value( data[short] )`. -/
def sizeField (data : Bytes) (headerSize long short : ℕ) : Except Failure ℕ :=
  if headerSize = 9 then UInt32.toNat <$> readU32Little data long
  else UInt8.toNat <$> byteAt data short

/-- `QuickLz::Decompress`. -/
def decompress (data : Bytes) (maximumOutputSize : ℕ) : Except Failure Bytes := do
  throwIf (data.length < 3) "QuickLZ data is too small"
  let flags ← byteAt data 0
  let headerSize := if flags &&& 0x02 ≠ 0 then 9 else 3
  throwIf (data.length < headerSize) "QuickLZ header is truncated"
  let level := (flags >>> 2) &&& 0x03
  throwIf (level ≠ 1) "Unsupported QuickLZ compression level"
  let streamingMode := (flags >>> 4) &&& 0x03
  throwIf (streamingMode ≠ 0) "QuickLZ streaming mode is not supported"
  let compressedSize ← sizeField data headerSize 1 1
  let decompressedSize ← sizeField data headerSize 5 2
  throwIf (compressedSize ≠ data.length) "QuickLZ compressed size does not match input"
  throwIf (maximumOutputSize < decompressedSize) "QuickLZ output exceeds maximum command size"
  if flags &&& 0x01 = 0 then
    throwIf (data.length - headerSize ≠ decompressedSize) "Invalid uncompressed QuickLZ size"
    return data.drop headerSize
  else
    throwIf (decompressedSize = 0) "Invalid empty QuickLZ payload"
    match run { data := data, sourcePosition := headerSize,
                output := List.replicate decompressedSize 0 } with
    | .ok output _ => return output
    | .error failure _ => throw failure

end TsCli
