import TsCli.Command.Parser

/-!
# Messages about channels

The notifications that change the channel tree, as the client parses them out of a command. None of
them carries the channel id zero, which stands for "no channel" (`id_ne_zero`).
-/

namespace TsCli

/-- The bytes of a string literal. -/
def ascii (s : String) : Bytes := s.toUTF8.toList

theorem toList_loop (bytes : ByteArray) (start : ℕ) (front : List UInt8) :
    ByteArray.toList.loop bytes start front = front.reverse ++ bytes.data.toList.drop start := by
  fun_induction ByteArray.toList.loop bytes start front with
  | case1 start front hlt ih =>
    have hlt' : start < bytes.data.toList.length := hlt
    have hget : bytes.get! start = bytes.data.toList[start] := by
      show bytes.data[start]! = _
      rw [getElem!_pos bytes.data start hlt, Array.getElem_toList]
    rw [ih, List.drop_eq_getElem_cons hlt', List.reverse_cons, List.append_assoc,
      List.singleton_append, hget]
  | case2 start front hge =>
    have hge' : bytes.data.toList.length ≤ start := not_lt.1 hge
    rw [List.drop_eq_nil_of_le hge', List.append_nil]

/-- The bytes of a literal, in a form that evaluates. -/
theorem ascii_eq (s : String) : ascii s = s.toByteArray.data.toList := by
  have h := toList_loop s.toByteArray 0 []
  rw [List.reverse_nil, List.nil_append, List.drop_zero] at h
  exact h

theorem forall_ascii {s : String} {P : UInt8 → Prop} [DecidablePred P]
    (h : s.toByteArray.data.toList.all (P ·) = true) : ∀ c ∈ ascii s, P c := by
  rw [← ascii_eq, List.all_eq_true] at h
  intro c hc
  exact of_decide_eq_true (h c hc)

/-- Literals are told apart by their characters. -/
theorem ascii_inj {s t : String} : ascii s = ascii t ↔ s = t := by
  constructor
  · intro h
    rw [ascii_eq, ascii_eq] at h
    rw [← String.toByteArray_inj]
    exact ByteArray.ext (Array.toList_inj.1 h)
  · rintro rfl
    rfl

namespace CommandRow

/-- `CommandRow::Find`. -/
def find? (row : CommandRow) (name : String) : Option Bytes :=
  (List.find? (fun parameter : CommandParameter => parameter.name = ascii name) row).map
    CommandParameter.value

/-- `CommandRow::Require`. -/
def require (row : CommandRow) (name : String) : Except Failure Bytes :=
  match row.find? name with
  | some value => .ok value
  | none => .error (.runtimeError ("Missing command parameter: " ++ name))

end CommandRow

/-- The value of decimal digits. -/
def decimal (digits : Bytes) : ℕ := digits.foldl (fun n c => n * 10 + (c.toNat - 48)) 0

/-- `ParseUnsigned`: `std::from_chars` into 64 bits, which has to use up the text. -/
def parseUnsigned (value : Bytes) (name : String) : Except Failure ℕ :=
  if value ≠ [] ∧ value.all (fun c => 48 ≤ c.toNat && c.toNat ≤ 57) ∧ decimal value < 2 ^ 64 then
    .ok (decimal value)
  else
    .error (.runtimeError ("Invalid unsigned command parameter: " ++ name))

/-- `ParseBoolean`, with `none` for a missing parameter. -/
def parseBoolean? (row : CommandRow) (name : String) : Except Failure (Option Bool) :=
  match CommandRow.find? row name with
  | none => .ok none
  | some value => do
    let parsed ← parseUnsigned value name
    throwIf (1 < parsed) ("Invalid boolean command parameter: " ++ name)
    return some (parsed != 0)

/-- `ParseBoolean` of the messages where a missing parameter means false. -/
def parseBoolean (row : CommandRow) (name : String) : Except Failure Bool := do
  let parsed ← parseBoolean? row name
  return parsed.getD false

/-- A parameter that is parsed when it is there. -/
def parseUnsigned? (row : CommandRow) (name : String) : Except Failure (Option ℕ) :=
  match CommandRow.find? row name with
  | none => .ok none
  | some value => do
    let parsed ← parseUnsigned value name
    return some parsed

/-- The parameter `channel_codec`. -/
def parseCodec? (row : CommandRow) : Except Failure (Option UInt8) := do
  let codec ← parseUnsigned? row "channel_codec"
  throwIf (5 < codec.getD 0) "Invalid channel_codec"
  return codec.map UInt8.ofNat

/-! ## Created -/

/-- `ChannelCreatedEntry`, and `ChannelListEntry`, which has the same fields. Only `Parse` fills
one in, and it rejects the id zero. -/
structure ChannelCreatedEntry where
  id : ℕ
  parentId : ℕ := 0
  orderAfterId : ℕ := 0
  name : Bytes := []
  permanent : Bool := false
  semiPermanent : Bool := false
  defaultChannel : Bool := false
  passwordProtected : Bool := false
  codec : UInt8 := 4
  codecIsUnencrypted : Bool := true
  id_ne_zero : id ≠ 0
  deriving DecidableEq, Repr

/-- The part of `ChannelCreated::Parse` and `ChannelList::Parse` that reads a row. -/
def ChannelCreatedEntry.parseRow (row : CommandRow) (zeroMessage : String) :
    Except Failure ChannelCreatedEntry := do
  let id ← parseUnsigned (← row.require "cid") "cid"
  if id_ne_zero : id ≠ 0 then
    let parentId ← parseUnsigned (← row.require "cpid") "cpid"
    let orderAfterId ← parseUnsigned (← row.require "channel_order") "channel_order"
    let name ← row.require "channel_name"
    let permanent ← parseBoolean row "channel_flag_permanent"
    let semiPermanent ← parseBoolean row "channel_flag_semi_permanent"
    let defaultChannel ← parseBoolean row "channel_flag_default"
    let passwordProtected ← parseBoolean row "channel_flag_password"
    let codec ← parseCodec? row
    let codecIsUnencrypted ← parseBoolean? row "channel_codec_is_unencrypted"
    return {
      id, parentId, orderAfterId, name, permanent, semiPermanent, defaultChannel,
      passwordProtected, id_ne_zero
      codec := codec.getD 4
      codecIsUnencrypted := codecIsUnencrypted.getD true }
  else
    throw (.runtimeError zeroMessage)

/-- `ChannelCreated::Parse`. -/
def ChannelCreatedEntry.parse (command : Command) : Except Failure ChannelCreatedEntry := do
  throwIf (command.name ≠ ascii "notifychannelcreated") "Expected notifychannelcreated command"
  match command.rows with
  | [row] => ChannelCreatedEntry.parseRow row "Invalid notifychannelcreated cid"
  | _ => throw (.runtimeError "notifychannelcreated must contain exactly one channel")

/-- `ChannelList::Parse`. -/
def parseChannelList (command : Command) : Except Failure (List ChannelCreatedEntry) := do
  throwIf (command.name ≠ ascii "channellist") "Expected channellist command"
  throwIf (command.rows = []) "channellist contains no channels"
  command.rows.mapM fun row => ChannelCreatedEntry.parseRow row "Invalid channellist cid"

/-! ## Moved, edited and deleted -/

/-- `ChannelMovedEntry`. -/
structure ChannelMovedEntry where
  id : ℕ
  parentId : ℕ := 0
  orderAfterId : ℕ := 0
  id_ne_zero : id ≠ 0
  deriving DecidableEq, Repr

/-- `ChannelMoved::Parse`. -/
def ChannelMovedEntry.parse (command : Command) : Except Failure ChannelMovedEntry := do
  throwIf (command.name ≠ ascii "notifychannelmoved") "Expected single notifychannelmoved command"
  match command.rows with
  | [row] =>
    let id ← parseUnsigned (← row.require "cid") "cid"
    let parentId ← parseUnsigned (← row.require "cpid") "cpid"
    let orderAfterId ← parseUnsigned (← row.require "order") "order"
    if id_ne_zero : id ≠ 0 then
      return { id, parentId, orderAfterId, id_ne_zero }
    else
      throw (.runtimeError "Invalid notifychannelmoved cid")
  | _ => throw (.runtimeError "Expected single notifychannelmoved command")

/-- `ChannelEditedEntry`. -/
structure ChannelEditedEntry where
  id : ℕ
  parentId : Option ℕ := none
  orderAfterId : Option ℕ := none
  name : Option Bytes := none
  permanent : Option Bool := none
  semiPermanent : Option Bool := none
  defaultChannel : Option Bool := none
  passwordProtected : Option Bool := none
  codec : Option UInt8 := none
  codecIsUnencrypted : Option Bool := none
  id_ne_zero : id ≠ 0
  deriving DecidableEq, Repr

/-- `ChannelEdited::Parse`. -/
def ChannelEditedEntry.parse (command : Command) : Except Failure ChannelEditedEntry := do
  throwIf (command.name ≠ ascii "notifychanneledited") "Expected single notifychanneledited command"
  match command.rows with
  | [row] =>
    let id ← parseUnsigned (← row.require "cid") "cid"
    if id_ne_zero : id ≠ 0 then
      let parentId ← parseUnsigned? row "cpid"
      let orderAfterId ← parseUnsigned? row "channel_order"
      let permanent ← parseBoolean? row "channel_flag_permanent"
      let semiPermanent ← parseBoolean? row "channel_flag_semi_permanent"
      let defaultChannel ← parseBoolean? row "channel_flag_default"
      let passwordProtected ← parseBoolean? row "channel_flag_password"
      let codecIsUnencrypted ← parseBoolean? row "channel_codec_is_unencrypted"
      let codec ← parseCodec? row
      return {
        id, parentId, orderAfterId, permanent, semiPermanent, defaultChannel, passwordProtected,
        codec, codecIsUnencrypted, id_ne_zero
        name := row.find? "channel_name" }
    else
      throw (.runtimeError "Invalid notifychanneledited cid")
  | _ => throw (.runtimeError "Expected single notifychanneledited command")

/-- `ChannelDeleted`. -/
structure ChannelDeleted where
  channelId : ℕ
  id_ne_zero : channelId ≠ 0
  deriving DecidableEq, Repr

/-- `ChannelDeleted::Parse`. -/
def ChannelDeleted.parse (command : Command) : Except Failure ChannelDeleted := do
  throwIf (command.name ≠ ascii "notifychanneldeleted") "Expected single notifychanneldeleted command"
  match command.rows with
  | [row] =>
    let value ← row.require "cid"
    match parseUnsigned value "cid" with
    | .ok channelId =>
      if id_ne_zero : channelId ≠ 0 then
        return { channelId, id_ne_zero }
      else
        throw (.runtimeError "Invalid notifychanneldeleted cid")
    | .error _ => throw (.runtimeError "Invalid notifychanneldeleted cid")
  | _ => throw (.runtimeError "Expected single notifychanneldeleted command")

end TsCli
