import TsCli.Session.WireReading

/-!
# The messages of the Init1 exchange

Before there is any key, client and server exchange four messages in the clear, each behind a header
with a magic: the client asks for a cookie and sends it back for a puzzle, whose solution it returns
with the puzzle. What the client sends back is, byte for byte, what the server sent
(`getPuzzle_echoes`, `puzzleAnswer_echoes`), so a server can keep its state in its messages.
-/

namespace TsCli

open Exec BinaryReader BinaryWriter

/-- `BinaryReader::ReadU32`. -/
def BinaryReader.readU32 : BinaryReader UInt32 := do
  let bytes ← readBytes 4
  return (bytes.getD 0 0).toUInt32 <<< 24 ||| (bytes.getD 1 0).toUInt32 <<< 16 |||
    (bytes.getD 2 0).toUInt32 <<< 8 ||| (bytes.getD 3 0).toUInt32

namespace InitCodec

def magic : Bytes := [0x54, 0x53, 0x33, 0x49, 0x4e, 0x49, 0x54, 0x31]

/-- `ServerInitHeader`. -/
structure ServerInitHeader where
  packetId : UInt16
  flags : UInt8
  command : UInt8
  deriving DecidableEq, Repr

/-- `InitCodec::ReadServerHeader`. -/
def readServerHeader : BinaryReader ServerInitHeader := do
  let read ← readBytes magic.length
  if read ≠ magic then
    throw (.runtimeError "Invalid Init response magic")
  else
    let packetId ← readU16
    let flags ← readU8
    let command ← readU8
    return { packetId, flags, command }

end InitCodec

/-! ## Messages -/

namespace Init1

def packetId : UInt16 := 101
def initialClientId : UInt16 := 0
def flags : UInt8 := 0x88
def getCookieCommand : UInt8 := 0x00
def setCookieCommand : UInt8 := 0x01
def getPuzzleCommand : UInt8 := 0x02
def puzzleCommand : UInt8 := 0x03
def puzzleAnswerCommand : UInt8 := 0x04
def resetCommand : UInt8 := 0x7f

/-- A reader on a datagram, until it returns. -/
def readDatagram {α : Type} (m : BinaryReader α) (datagram : Bytes) : Except Failure α :=
  match m datagram with
  | .ok a _ => .ok a
  | .error e _ => .error e

/-- `ClientHandshakeMessage::CreateWriter`, with `InitCodec::WriteClientHeader`. -/
def createWriter (command : UInt8) (clientVersion : UInt32) : Bytes :=
  InitCodec.magic ++ writeU16 packetId ++ writeU16 initialClientId ++ [flags] ++
    writeU32 clientVersion ++ [command]

/-- `ServerHandshakeMessage::CreateReader`. -/
def createReader (command : UInt8) : BinaryReader Unit := do
  let header ← InitCodec.readServerHeader
  if header.packetId ≠ packetId then
    throw (.runtimeError "Invalid handshake packet ID")
  else if header.flags ≠ flags then
    throw (.runtimeError "Invalid handshake flags")
  else if header.command ≠ command then
    throw (.runtimeError "Unexpected handshake command")

/-- `SetCookie`. -/
structure SetCookie where
  serverData : Bytes
  randomData : Bytes
  deriving DecidableEq, Repr

/-- `Puzzle`. -/
structure Puzzle where
  x : Bytes
  n : Bytes
  level : UInt32
  serverData : Bytes
  deriving DecidableEq, Repr

/-- `GetCookie::Serialize`, with the clock and the random bytes that it takes. -/
def getCookie (clientVersion unixTime : UInt32) (random : Bytes) : Bytes :=
  createWriter getCookieCommand clientVersion ++ writeU32 unixTime ++ random ++ writeU16 1 ++
    List.replicate 6 0

/-- `SetCookie::Parse`, on a reader. -/
def readSetCookie : BinaryReader SetCookie := do
  createReader setCookieCommand
  let serverData ← readBytes 16
  let randomData ← readBytes 4
  let remaining ← get
  if remaining.length = 3 then
    let _ ← readBytes 3
    return { serverData, randomData }
  else if remaining.length ≠ 0 then
    throw (.runtimeError "Unexpected SET_COOKIE payload size")
  else return { serverData, randomData }

/-- `SetCookie::Parse`. -/
def SetCookie.parse (datagram : Bytes) : Except Failure SetCookie :=
  readDatagram readSetCookie datagram

/-- `GetPuzzle::Serialize`. -/
def getPuzzle (cookie : SetCookie) (clientVersion : UInt32) : Bytes :=
  createWriter getPuzzleCommand clientVersion ++ cookie.serverData ++ cookie.randomData

/-- `Puzzle::Parse`, on a reader. -/
def readPuzzle : BinaryReader Puzzle := do
  createReader puzzleCommand
  let x ← readBytes 64
  let n ← readBytes 64
  let level ← readU32
  let serverData ← readBytes 100
  let remaining ← get
  if remaining.length ≠ 0 then
    throw (.runtimeError "Unexpected trailing puzzle data")
  else return { x, n, level, serverData }

/-- `Puzzle::Parse`. -/
def Puzzle.parse (datagram : Bytes) : Except Failure Puzzle := readDatagram readPuzzle datagram

/-- `PuzzleAnswer::Serialize`. -/
def puzzleAnswer (puzzle : Puzzle) (solution clientInitIv : Bytes) (clientVersion : UInt32) :
    Bytes :=
  createWriter puzzleAnswerCommand clientVersion ++ puzzle.x ++ puzzle.n ++ writeU32 puzzle.level ++
    puzzle.serverData ++ solution ++ clientInitIv

/-! ## What was read -/

theorem readBytes_eq_ok {count : ℕ} {data bytes rest : Bytes}
    (h : readBytes count data = .ok bytes rest) : data = bytes ++ rest ∧ bytes.length = count := by
  unfold readBytes at h
  rw [run_get_bind, run_ite] at h
  split_ifs at h with hshort
  · cases h
  · cases h
    exact ⟨(List.take_append_drop count data).symm,
      List.length_take_of_le (not_lt.1 hshort)⟩

theorem readU8_eq_ok {data rest : Bytes} {value : UInt8} (h : readU8 data = .ok value rest) :
    data = value :: rest := by
  obtain ⟨bytes, rest', hbytes, hvalue⟩ := (run_bind_eq_ok_iff _).1 h
  obtain ⟨hdata, hlength⟩ := readBytes_eq_ok hbytes
  obtain ⟨a, rfl⟩ := List.length_eq_one_iff.1 hlength
  cases hvalue
  exact hdata

theorem exists_four {bytes : Bytes} (h : bytes.length = 4) :
    ∃ a b c d, bytes = [a, b, c, d] := by
  obtain ⟨a, bytes, rfl⟩ := List.exists_cons_of_length_eq_add_one h
  obtain ⟨b, c, d, rfl⟩ := List.length_eq_three.1 (Nat.succ.inj h)
  exact ⟨a, b, c, d, rfl⟩

/-- Behind a check that throws. -/
theorem of_throw_eq_ok {α : Type} {c : Prop} [Decidable c] {e : Failure} {m : BinaryReader α}
    {data rest : Bytes} {a : α} (h : (if c then throw e else m) data = .ok a rest) :
    ¬ c ∧ m data = .ok a rest := by
  rw [run_ite] at h
  by_cases hc : c
  · rw [if_pos hc] at h
    cases h
  · rw [if_neg hc] at h
    exact ⟨hc, h⟩

theorem writeU16_shift (a b : UInt8) : writeU16 (a.toUInt16 <<< 8 ||| b.toUInt16) = [a, b] := by
  simp only [writeU16, List.cons.injEq, and_true]
  refine ⟨?_, ?_⟩ <;> apply UInt8.eq_of_toBitVec_eq <;> ext i hi <;> simp
  all_goals interval_cases i <;> simp

theorem writeU32_shift (a b c d : UInt8) :
    writeU32 (a.toUInt32 <<< 24 ||| b.toUInt32 <<< 16 ||| c.toUInt32 <<< 8 ||| d.toUInt32) =
      [a, b, c, d] := by
  simp only [writeU32, List.cons.injEq, and_true]
  refine ⟨?_, ?_, ?_, ?_⟩ <;> apply UInt8.eq_of_toBitVec_eq <;> ext i hi <;> simp
  all_goals interval_cases i <;> simp

theorem readU16_eq_ok {data rest : Bytes} {value : UInt16} (h : readU16 data = .ok value rest) :
    data = writeU16 value ++ rest := by
  obtain ⟨bytes, rest', hbytes, hvalue⟩ := (run_bind_eq_ok_iff _).1 h
  obtain ⟨hdata, hlength⟩ := readBytes_eq_ok hbytes
  obtain ⟨a, b, rfl⟩ := List.length_eq_two.1 hlength
  cases hvalue
  rw [hdata]
  exact congrArg (· ++ rest) (writeU16_shift a b).symm

theorem readU32_eq_ok {data rest : Bytes} {value : UInt32} (h : readU32 data = .ok value rest) :
    data = writeU32 value ++ rest := by
  obtain ⟨bytes, rest', hbytes, hvalue⟩ := (run_bind_eq_ok_iff _).1 h
  obtain ⟨hdata, hlength⟩ := readBytes_eq_ok hbytes
  obtain ⟨a, b, c, d, rfl⟩ := exists_four hlength
  cases hvalue
  rw [hdata]
  exact congrArg (· ++ rest) (writeU32_shift a b c d).symm

/-- The header of a message of the server. -/
def serverHeader (command : UInt8) : Bytes :=
  InitCodec.magic ++ writeU16 packetId ++ [flags, command]

theorem length_serverHeader (command : UInt8) : (serverHeader command).length = 12 := rfl

theorem readServerHeader_eq_ok {data rest : Bytes} {header : InitCodec.ServerInitHeader}
    (h : InitCodec.readServerHeader data = .ok header rest) :
    data = InitCodec.magic ++ writeU16 header.packetId ++ [header.flags, header.command] ++ rest := by
  obtain ⟨magic, data₁, hmagic, h⟩ := (run_bind_eq_ok_iff _).1 h
  obtain ⟨hwrong, h⟩ := of_throw_eq_ok h
  obtain ⟨packetId, data₂, hpacketId, h⟩ := (run_bind_eq_ok_iff _).1 h
  obtain ⟨flags, data₃, hflags, h⟩ := (run_bind_eq_ok_iff _).1 h
  obtain ⟨command, data₄, hcommand, h⟩ := (run_bind_eq_ok_iff _).1 h
  cases h
  rw [(readBytes_eq_ok hmagic).1, not_not.1 hwrong, readU16_eq_ok hpacketId, readU8_eq_ok hflags,
    readU8_eq_ok hcommand]
  simp

theorem createReader_eq_ok {command : UInt8} {data rest : Bytes}
    (h : createReader command data = .ok () rest) : data = serverHeader command ++ rest := by
  obtain ⟨header, data₁, hheader, h⟩ := (run_bind_eq_ok_iff _).1 h
  obtain ⟨hpacketId, h⟩ := of_throw_eq_ok h
  obtain ⟨hflags, h⟩ := of_throw_eq_ok h
  obtain ⟨hcommand, h⟩ := of_throw_eq_ok h
  cases h
  rw [readServerHeader_eq_ok hheader, not_not.1 hpacketId, not_not.1 hflags, not_not.1 hcommand]
  rfl

theorem readDatagram_eq_ok {α : Type} {m : BinaryReader α} {datagram : Bytes} {a : α}
    (h : readDatagram m datagram = .ok a) : ∃ rest, m datagram = .ok a rest := by
  unfold readDatagram at h
  split at h
  · next a' rest hrun =>
    cases h
    exact ⟨rest, hrun⟩
  · cases h

/-- An accepted cookie has all of its datagram, but for three bytes that some servers append. -/
theorem SetCookie.parse_eq_ok {datagram : Bytes} {cookie : SetCookie}
    (h : SetCookie.parse datagram = .ok cookie) :
    cookie.serverData.length = 16 ∧ cookie.randomData.length = 4 ∧
      ∃ extra, (extra.length = 0 ∨ extra.length = 3) ∧
        datagram = serverHeader setCookieCommand ++ cookie.serverData ++ cookie.randomData ++ extra := by
  obtain ⟨rest, h⟩ := readDatagram_eq_ok h
  obtain ⟨_, data₁, hreader, h⟩ := (run_bind_eq_ok_iff _).1 h
  obtain ⟨serverData, data₂, hserverData, h⟩ := (run_bind_eq_ok_iff _).1 h
  obtain ⟨randomData, data₃, hrandomData, h⟩ := (run_bind_eq_ok_iff _).1 h
  obtain ⟨hsplit, hserver⟩ := readBytes_eq_ok hserverData
  obtain ⟨hsplit', hrandom⟩ := readBytes_eq_ok hrandomData
  have hdatagram : datagram =
      serverHeader setCookieCommand ++ serverData ++ randomData ++ data₃ := by
    rw [createReader_eq_ok hreader, hsplit, hsplit']
    simp
  rw [run_get_bind, run_ite] at h
  by_cases hthree : data₃.length = 3
  · rw [if_pos hthree] at h
    obtain ⟨_, data₄, hskip, h⟩ := (run_bind_eq_ok_iff _).1 h
    cases h
    exact ⟨hserver, hrandom, data₃, .inr hthree, hdatagram⟩
  · rw [if_neg hthree] at h
    obtain ⟨hnone, h⟩ := of_throw_eq_ok h
    cases h
    exact ⟨hserver, hrandom, _, .inl (not_not.1 hnone), hdatagram⟩

/-- An accepted puzzle has all of its datagram. -/
theorem Puzzle.parse_eq_ok {datagram : Bytes} {puzzle : Puzzle}
    (h : Puzzle.parse datagram = .ok puzzle) :
    puzzle.x.length = 64 ∧ puzzle.n.length = 64 ∧ puzzle.serverData.length = 100 ∧
      datagram = serverHeader puzzleCommand ++ puzzle.x ++ puzzle.n ++ writeU32 puzzle.level ++
        puzzle.serverData := by
  obtain ⟨rest, h⟩ := readDatagram_eq_ok h
  obtain ⟨_, data₁, hreader, h⟩ := (run_bind_eq_ok_iff _).1 h
  obtain ⟨x, data₂, hx, h⟩ := (run_bind_eq_ok_iff _).1 h
  obtain ⟨n, data₃, hn, h⟩ := (run_bind_eq_ok_iff _).1 h
  obtain ⟨level, data₄, hlevel, h⟩ := (run_bind_eq_ok_iff _).1 h
  obtain ⟨serverData, data₅, hserverData, h⟩ := (run_bind_eq_ok_iff _).1 h
  rw [run_get_bind] at h
  obtain ⟨hnone, h⟩ := of_throw_eq_ok h
  cases h
  have hend := List.length_eq_zero_iff.1 (not_not.1 hnone)
  obtain ⟨hsplitX, hlengthX⟩ := readBytes_eq_ok hx
  obtain ⟨hsplitN, hlengthN⟩ := readBytes_eq_ok hn
  obtain ⟨hsplit, hlength⟩ := readBytes_eq_ok hserverData
  refine ⟨hlengthX, hlengthN, hlength, ?_⟩
  rw [createReader_eq_ok hreader, hsplitX, hsplitN, readU32_eq_ok hlevel, hsplit, hend]
  simp

/-- **The request for a puzzle sends the cookie back.** -/
theorem getPuzzle_echoes {datagram : Bytes} {cookie : SetCookie}
    (h : SetCookie.parse datagram = .ok cookie) (clientVersion : UInt32) :
    getPuzzle cookie clientVersion =
      createWriter getPuzzleCommand clientVersion ++ (datagram.drop 12).take 20 := by
  obtain ⟨hserver, hrandom, extra, -, hdatagram⟩ := SetCookie.parse_eq_ok h
  rw [hdatagram, List.append_assoc, List.append_assoc,
    List.drop_left' (length_serverHeader _), ← List.append_assoc,
    List.take_left' (by simp [hserver, hrandom]), getPuzzle, List.append_assoc]

/-- **The answer sends the puzzle back**, in front of the solution. -/
theorem puzzleAnswer_echoes {datagram : Bytes} {puzzle : Puzzle}
    (h : Puzzle.parse datagram = .ok puzzle) (solution clientInitIv : Bytes)
    (clientVersion : UInt32) :
    puzzleAnswer puzzle solution clientInitIv clientVersion =
      createWriter puzzleAnswerCommand clientVersion ++ datagram.drop 12 ++ solution ++
        clientInitIv := by
  obtain ⟨-, -, -, hdatagram⟩ := Puzzle.parse_eq_ok h
  have hdrop : datagram.drop 12 =
      puzzle.x ++ puzzle.n ++ writeU32 puzzle.level ++ puzzle.serverData := by
    rw [hdatagram]
    simp only [List.append_assoc]
    exact List.drop_left' (length_serverHeader _)
  rw [hdrop, puzzleAnswer]
  simp

end Init1

end TsCli
