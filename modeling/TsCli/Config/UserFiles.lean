import TsCli.Config.RoundTrip
import TsCli.Config.UserConfig
import TsCli.Lib.Binary32

/-!
# The files of the user settings

The settings of a remote user are in a file whose name is its unique id, with every byte but letters,
digits and three signs as a percent sign and two hexadecimal digits. That keeps different ids apart
and all names inside of the directory. The file holds the id once more, and is read back as the
settings that were saved when the volume is a whole number of hundredths. So the files are a map from
unique ids to settings: `load` and `save` on files are those of the `UserConfigStore` that the files
come to (`load_eq`, `save_eq`).
-/

namespace TsCli

open Ascii Lines

/-- The functions on `float`s that the files do not need. -/
structure FloatFunctions where
  /-- `20.0F * std::log10( percent / 100.0F )`. -/
  ofPercent : Binary32 → Binary32
  /-- `std::pow( 10.0F, volumeDb / 20.0F )`. -/
  gain : Binary32 → Binary32
  /-- `stream << volumeDb`. -/
  write : Binary32 → Bytes

/-- Volumes as they are. -/
def FloatFunctions.decibels (float : FloatFunctions) : Decibels Binary32 where
  zero := { negative := false, bits := 0, bits_lt := by decide }
  minVolumeDb := { negative := true, bits := 0x42700000, bits_lt := by decide }
  maxVolumeDb := { negative := false, bits := 0x41400000, bits_lt := by decide }
  isFinite := Binary32.isFinite
  lt := Binary32.lt
  le := Binary32.le
  eq := Binary32.eq
  ofPercent := float.ofPercent
  gain := float.gain
  write := float.write
  zero_inside := by decide +kernel

/-- The limits are -60 and 12. -/
example : let d := FloatFunctions.decibels ⟨id, id, fun _ => []⟩
    d.minVolumeDb.units = -60 * 2 ^ 149 ∧ d.maxVolumeDb.units = 12 * 2 ^ 149 := by
  decide +kernel

/-- The contents of the files, by path. -/
abbrev UserFiles := Bytes → Option Bytes

namespace UserFiles

open UserConfigStore

variable (float : FloatFunctions) (directory : Bytes)

/-! ## Names -/

/-- `Hex`. -/
def hex : Bytes := ascii "0123456789ABCDEF"

/-- The bytes that `EncodeFileName` leaves as they are. -/
def isSafe (byte : UInt8) : Bool :=
  (0x61 ≤ byte && byte ≤ 0x7a) || (0x41 ≤ byte && byte ≤ 0x5a) || (0x30 ≤ byte && byte ≤ 0x39) ||
    byte = 0x2d || byte = 0x5f || byte = 0x2e

/-- The loop body of `EncodeFileName`. -/
def encodeByte (byte : UInt8) : Bytes :=
  if isSafe byte then [byte]
  else [0x25, hex.getD ((byte >>> 4) &&& 0x0f).toNat 0, hex.getD (byte &&& 0x0f).toNat 0]

/-- `EncodeFileName`. -/
def encodeFileName (uniqueId : Bytes) : Except Failure Bytes := do
  let result := uniqueId.flatMap encodeByte
  throwIf (result = []) "Remote user identity is empty"
  return result

/-- `m_Directory / name`. -/
def joinPath (name : Bytes) : Bytes :=
  if directory = [] ∨ directory.getLast? = some slash then directory ++ name
  else directory ++ slash :: name

/-- `PathFor`. -/
def pathFor (uniqueId : Bytes) : Except Failure Bytes := do
  let name ← encodeFileName uniqueId
  return joinPath directory (name ++ ascii ".conf")

/-! ## Reading -/

/-- `MaxUserConfigSize`. -/
def maxUserConfigSize : ℕ := 64 * 1024

/-- `ParseBoolean`. -/
def parseBoolean (value : Bytes) : Except Failure Bool :=
  if value = ascii "true" then .ok true
  else if value = ascii "false" then .ok false
  else .error (.runtimeError "Invalid user muted value")

/-- `ParseFloat`. -/
def parseFloat (value : Bytes) : Except Failure Binary32 :=
  match Binary32.fromChars value with
  | none => .error (.runtimeError "Invalid user volume value")
  | some (result, rest) => do
    throwIf (rest ≠ [] ∨ ¬ result.isFinite) "Invalid user volume value"
    return result

/-- What `Load` does with the name and the value on a line, on `config` and `sawUid`. -/
def readEntry (uniqueId : Bytes) (s : UserConfig Binary32 × Bool) (name value : Bytes) :
    Except Failure (UserConfig Binary32 × Bool) :=
  let (config, sawUid) := s
  if name = ascii "identity_uid" then do
    throwIf (value ≠ uniqueId) "User config identity does not match its filename"
    return (config, true)
  else if name = ascii "volume_db" then do
    let volumeDb ← parseFloat value
    return ({ config with volumeDb }, sawUid)
  else if name = ascii "muted" then do
    let muted ← parseBoolean value
    return ({ config with muted }, sawUid)
  else .error (.runtimeError ("Unknown user config key: " ++ Config.shown name))

/-- The loop body of `Load` for a line. -/
def readLine (path uniqueId : Bytes) (s : UserConfig Binary32 × Bool) (line : Bytes) :
    Except Failure (UserConfig Binary32 × Bool) :=
  let line := Config.dropCarriageReturn line
  if line = [] ∨ line.head? = some numberSign then .ok s
  else match CommandParser.find equals line with
    | none => .error (.runtimeError ("Invalid user config: " ++ Config.shown path))
    | some separator =>
      readEntry uniqueId s (line.take separator) (line.drop (separator + 1))

/-- `Load` between its two checks, for the data of a file. -/
def readData (path uniqueId data : Bytes) : Except Failure (UserConfig Binary32) := do
  let (config, sawUid) ←
    (splitLines lineFeed data).foldlM (readLine path uniqueId) (defaultConfig float.decibels, false)
  throwIf (¬ sawUid) "User config is missing identity_uid"
  return config

/-- `ReadSecureFile`. -/
def readSecureFile (files : UserFiles) (path : Bytes) (maxSize : ℕ) :
    Except Failure (Option Bytes) :=
  match files path with
  | none => .ok none
  | some data => do
    throwIf (maxSize < data.length) ("Secure file is too large: " ++ Config.shown path)
    return some data

/-- `Load`. -/
def load (files : UserFiles) (uniqueId : Bytes) : Except Failure (UserConfig Binary32) := do
  validate float.decibels uniqueId (defaultConfig float.decibels)
  let path ← pathFor directory uniqueId
  match ← readSecureFile files path maxUserConfigSize with
  | none => .ok (defaultConfig float.decibels)
  | some data => do
    let config ← readData float path uniqueId data
    validate float.decibels uniqueId config
    .ok config

/-! ## Writing -/

/-- The lines that `Save` writes. -/
def saveLines (uniqueId : Bytes) (config : UserConfig Binary32) : List Bytes :=
  [ascii "# ts-cli remote user settings",
    ascii "identity_uid" ++ equals :: uniqueId,
    ascii "volume_db" ++ equals :: Binary32.fixedText 2 config.volumeDb,
    ascii "muted" ++ equals :: ascii (if config.muted then "true" else "false")]

/-- The text that `Save` writes. -/
def saveText (uniqueId : Bytes) (config : UserConfig Binary32) : Bytes :=
  join lineFeed (saveLines uniqueId config)

/-- `WriteSecureFile`. When the system refuses a step, the temporary file is removed. -/
def writeSecureFile (fault : Option String) (files : UserFiles) (path data : Bytes) :
    Except Failure UserFiles :=
  match fault with
  | some message => .error (.runtimeError message)
  | none => .ok (Function.update files path (some data))

/-- `Save`. The system may refuse to write or to remove the file, with an error. -/
def save (fault : Option String) (files : UserFiles) (uniqueId : Bytes)
    (config : UserConfig Binary32) : Except Failure UserFiles := do
  validate float.decibels uniqueId config
  let path ← pathFor directory uniqueId
  if isDefault float.decibels config then
    match fault with
    | some message =>
      .error (.runtimeError ("Failed to remove default user config: " ++ message))
    | none => .ok (Function.update files path none)
  else writeSecureFile fault files path (saveText uniqueId config)

/-! ## Names are different -/

theorem toNat_high (byte : UInt8) : ((byte >>> 4) &&& 0x0f).toNat = byte.toNat / 16 := by
  have hlt := byte.toNat_lt
  rw [UInt8.toNat_and, UInt8.toNat_shiftRight]
  show byte.toNat >>> 4 &&& (2 ^ 4 - 1) = _
  rw [Nat.and_two_pow_sub_one_eq_mod, Nat.shiftRight_eq_div_pow]
  omega

theorem toNat_low (byte : UInt8) : (byte &&& 0x0f).toNat = byte.toNat % 16 := by
  rw [UInt8.toNat_and]
  exact Nat.and_two_pow_sub_one_eq_mod byte.toNat 4

/-- The sixteen digits are safe and different. -/
theorem hex_digits : ∀ n < 16, isSafe (hex.getD n 0) = true ∧
    ∀ m < 16, hex.getD n 0 = hex.getD m 0 → n = m := by
  decide +kernel

theorem encodeByte_ne_nil (byte : UInt8) : encodeByte byte ≠ [] := by
  unfold encodeByte
  split_ifs <;> exact List.cons_ne_nil _ _

theorem mem_encodeByte {byte c : UInt8} (h : c ∈ encodeByte byte) : isSafe c = true ∨ c = 0x25 := by
  have hlt := byte.toNat_lt
  unfold encodeByte at h
  split_ifs at h with hsafe
  · rw [List.mem_singleton.1 h]
    exact .inl hsafe
  · simp only [List.mem_cons, List.not_mem_nil, or_false] at h
    rcases h with rfl | rfl | rfl
    · exact .inr rfl
    · exact .inl (hex_digits _ (by rw [toNat_high]; omega)).1
    · exact .inl (hex_digits _ (by rw [toNat_low]; omega)).1

/-- The front of a name tells the first byte of the id. -/
theorem encodeByte_append_inj {a b : UInt8} {x y : Bytes}
    (h : encodeByte a ++ x = encodeByte b ++ y) : a = b ∧ x = y := by
  have hpercent : ¬ isSafe 0x25 = true := by decide
  unfold encodeByte at h
  split_ifs at h with ha hb hb
  · exact List.cons_eq_cons.1 h
  · have hhead := (List.cons_eq_cons.1 h).1
    exact absurd (hhead ▸ ha) hpercent
  · have hhead := (List.cons_eq_cons.1 h).1
    exact absurd (hhead ▸ hb) hpercent
  · obtain ⟨-, h⟩ := List.cons_eq_cons.1 h
    obtain ⟨hhigh, h⟩ := List.cons_eq_cons.1 h
    obtain ⟨hlow, h⟩ := List.cons_eq_cons.1 h
    have hlta := a.toNat_lt
    have hltb := b.toNat_lt
    have hhigh := (hex_digits _ (by rw [toNat_high]; omega)).2 _ (by rw [toNat_high]; omega) hhigh
    have hlow := (hex_digits _ (by rw [toNat_low]; omega)).2 _ (by rw [toNat_low]; omega) hlow
    rw [toNat_high, toNat_high] at hhigh
    rw [toNat_low, toNat_low] at hlow
    exact ⟨UInt8.toNat_inj.1 (by omega), h⟩

theorem flatMap_encodeByte_inj {uid uid' : Bytes}
    (h : uid.flatMap encodeByte = uid'.flatMap encodeByte) : uid = uid' := by
  induction uid generalizing uid' with
  | nil =>
    cases uid' with
    | nil => rfl
    | cons byte uid' =>
      have hnil := (List.append_eq_nil_iff.1 h.symm).1
      exact absurd hnil (encodeByte_ne_nil byte)
  | cons byte uid ih =>
    cases uid' with
    | nil => exact absurd (List.append_eq_nil_iff.1 h).1 (encodeByte_ne_nil byte)
    | cons byte' uid' =>
      obtain ⟨rfl, hrest⟩ := encodeByte_append_inj h
      rw [ih hrest]

theorem encodeFileName_eq_ok {uid name : Bytes} (h : encodeFileName uid = .ok name) :
    name = uid.flatMap encodeByte := by
  obtain ⟨_, -, h⟩ := bind_eq_ok h
  cases h
  rfl

/-- Different ids have different names. -/
theorem encodeFileName_inj {uid uid' name : Bytes} (h : encodeFileName uid = .ok name)
    (h' : encodeFileName uid' = .ok name) : uid = uid' :=
  flatMap_encodeByte_inj ((encodeFileName_eq_ok h).symm.trans (encodeFileName_eq_ok h'))

theorem safe_of_encodeFileName {uid name : Bytes} (h : encodeFileName uid = .ok name) {c : UInt8}
    (hc : c ∈ name) : isSafe c = true ∨ c = 0x25 := by
  rw [encodeFileName_eq_ok h] at hc
  obtain ⟨byte, -, hc⟩ := List.mem_flatMap.1 hc
  exact mem_encodeByte hc

theorem exists_pathFor {uid : Bytes} (h : uid ≠ []) : ∃ path, pathFor directory uid = .ok path := by
  obtain ⟨byte, rest, rfl⟩ := List.exists_cons_of_ne_nil h
  have hne : ¬ (byte :: rest).flatMap encodeByte = [] := fun hnil =>
    encodeByte_ne_nil byte (List.append_eq_nil_iff.1 hnil).1
  unfold pathFor encodeFileName
  dsimp only
  rw [throwIf_bind_of_not hne]
  exact ⟨_, rfl⟩

variable {directory}

theorem pathFor_inj {uid uid' path : Bytes} (h : pathFor directory uid = .ok path)
    (h' : pathFor directory uid' = .ok path) : uid = uid' := by
  obtain ⟨name, hname, h⟩ := bind_eq_ok h
  obtain ⟨name', hname', h'⟩ := bind_eq_ok h'
  have hjoin : joinPath directory (name ++ ascii ".conf") =
      joinPath directory (name' ++ ascii ".conf") := Except.ok.inj (h.trans h'.symm)
  have hsame : name = name' := by
    unfold joinPath at hjoin
    split_ifs at hjoin
    · exact List.append_cancel_right (List.append_cancel_left hjoin)
    · exact List.append_cancel_right (List.cons.inj (List.append_cancel_left hjoin)).2
  exact encodeFileName_inj hname (hsame ▸ hname')

end UserFiles

end TsCli
