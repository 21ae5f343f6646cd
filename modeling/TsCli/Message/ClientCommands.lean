import TsCli.Command.Codec
import TsCli.Config.Config
import TsCli.Message.Notification

/-!
# The commands of the user

A text message, a move to another channel and a new nickname are commands of one row, which are
written whenever the checks of their constructors pass and no value holds a null byte. Whatever else
a text holds, it stays one value of the row, so that another client that is notified with the same
row reads the target and the text that were sent (`sendTextMessage_read`).
-/

namespace TsCli

open Ascii CommandWriter CommandParser Exec

/-- `TextMessageTargetMode` as a number. -/
def TextMessageTargetMode.value : TextMessageTargetMode → ℕ
  | .privateChat => 1
  | .channel => 2
  | .server => 3

/-- The calls that write a row. -/
def rowOperations (row : CommandRow) : List Operation :=
  row.map fun parameter => .write parameter.name parameter.value

/-- A command of one row. -/
def rowCommand (name : Bytes) (row : CommandRow) : Except Failure Bytes :=
  writeCommand name (rowOperations row)

/-- What `SendTextMessage::Serialize` writes. -/
def SendTextMessage.row (target : TextMessageTarget) (text : Bytes) : CommandRow :=
  [⟨ascii "targetmode", numberText 10 target.mode.value⟩,
    ⟨ascii "target", numberText 10 target.id⟩,
    ⟨ascii "msg", text⟩]

/-- `SendTextMessage( target, text ).Serialize()`. -/
def SendTextMessage.serialize (target : TextMessageTarget) (text : Bytes) : Except Failure Bytes := do
  throwIf (text = []) "Text message is empty"
  throwIf (target.mode ≠ .server ∧ target.id = 0) "Text message target ID is zero"
  rowCommand (ascii "sendtextmessage") (row target text)

/-- What `ClientMove::Serialize` writes. -/
def ClientMove.row (clientId channelId : ℕ) : CommandRow :=
  [⟨ascii "clid", numberText 10 clientId⟩, ⟨ascii "cid", numberText 10 channelId⟩]

/-- `ClientMove( clientId, channelId ).Serialize()`. -/
def ClientMove.serialize (clientId channelId : ℕ) : Except Failure Bytes := do
  throwIf (clientId = 0) "Client move client ID is zero"
  throwIf (channelId = 0) "Client move channel ID is zero"
  rowCommand (ascii "clientmove") (row clientId channelId)

/-- What `ClientUpdate::Serialize` writes. -/
def ClientUpdate.row (nickname : Bytes) : CommandRow := [⟨ascii "client_nickname", nickname⟩]

/-- `ClientUpdate( nickname ).Serialize()`. -/
def ClientUpdate.serialize (nickname : Bytes) : Except Failure Bytes := do
  throwIf (nickname = []) "Client nickname is empty"
  rowCommand (ascii "clientupdate") (row nickname)

/-! ## Rows that are written -/

/-- A row that can be written: its names are valid, and no value holds a null byte. -/
def Writable (row : CommandRow) : Prop :=
  ∀ parameter ∈ row, validateName parameter.name = .ok () ∧ null ∉ parameter.value

theorem encodeCharacter_isOk {c : UInt8} (h : c ≠ null) : ∃ encoded, encodeCharacter c = .ok encoded := by
  unfold encodeCharacter
  cases escapes.lookup c with
  | some letter => exact ⟨_, rfl⟩
  | none => exact ⟨[c], if_neg h⟩

theorem encodeValue_isOk_iff {value : Bytes} :
    (∃ encoded, encodeValue value = .ok encoded) ↔ null ∉ value := by
  induction value with
  | nil => exact ⟨fun _ => List.not_mem_nil, fun _ => ⟨[], rfl⟩⟩
  | cons c value ih =>
    rw [List.mem_cons, not_or, ← ih]
    constructor
    · rintro ⟨encoded, h⟩
      obtain ⟨first, hfirst, h⟩ := bind_eq_ok h
      obtain ⟨rest, hrest, -⟩ := bind_eq_ok h
      refine ⟨?_, rest, hrest⟩
      rintro rfl
      cases hfirst
    · rintro ⟨hc, rest, hrest⟩
      obtain ⟨first, hfirst⟩ := encodeCharacter_isOk (Ne.symm hc)
      unfold encodeValue
      rw [hfirst, hrest]
      exact ⟨_, rfl⟩

theorem writePrefix_isOk {name : Bytes} (hname : validateName name = .ok ()) (w : CommandWriter) :
    ∃ w', writePrefix name w = .ok () w' ∧ w'.firstRow = w.firstRow := by
  rw [writePrefix, run_lift_bind_ok hname, run_get_bind]
  cases w.firstRow || w.rowHasParameter with
  | false => exact ⟨_, rfl, rfl⟩
  | true => exact ⟨_, rfl, rfl⟩

/-- A value is written under a valid name, unless it holds a null byte. -/
theorem write_isOk {name value : Bytes} (hname : validateName name = .ok ()) (hvalue : null ∉ value)
    (w : CommandWriter) : ∃ w', write name value w = .ok () w' ∧ w'.firstRow = w.firstRow := by
  obtain ⟨encoded, hencoded⟩ := encodeValue_isOk_iff.2 hvalue
  obtain ⟨w₁, hprefix, hfirst⟩ := writePrefix_isOk hname w
  refine ⟨{ w₁ with data := w₁.data ++ [equals] ++ encoded, rowHasParameter := true }, ?_, hfirst⟩
  rw [write, run_bind_eq_ok_iff]
  refine ⟨(), w₁, hprefix, (run_bind_eq_ok_iff _).2 ⟨(), _, rfl, ?_⟩⟩
  rw [run_lift_bind_ok hencoded]
  rfl

theorem of_write {name value : Bytes} {w w' : CommandWriter} (h : write name value w = .ok () w') :
    validateName name = .ok () ∧ null ∉ value := by
  obtain ⟨⟨⟩, w₁, hprefix, h⟩ := (run_bind_eq_ok_iff _).1 h
  obtain ⟨⟨⟩, w₂, -, h⟩ := (run_bind_eq_ok_iff _).1 h
  constructor
  · cases hvalid : validateName name with
    | ok u => rfl
    | error e =>
      rw [writePrefix, hvalid] at hprefix
      cases hprefix
  · rw [← encodeValue_isOk_iff]
    cases hencoded : encodeValue value with
    | ok encoded => exact ⟨encoded, rfl⟩
    | error e =>
      rw [hencoded] at h
      cases h

theorem performAll_isOk {row : CommandRow} (h : Writable row) (w : CommandWriter) :
    ∃ w', performAll (rowOperations row) w = .ok () w' ∧ w'.firstRow = w.firstRow := by
  induction row generalizing w with
  | nil => exact ⟨w, rfl, rfl⟩
  | cons parameter row ih =>
    obtain ⟨hparameter, hrow⟩ := List.forall_mem_cons.1 h
    obtain ⟨w₁, hwrite, hfirst⟩ := write_isOk hparameter.1 hparameter.2 w
    obtain ⟨w₂, hrest, hfirst'⟩ := ih hrow w₁
    exact ⟨w₂, (run_bind_eq_ok_iff _).2 ⟨(), w₁, hwrite, hrest⟩, hfirst'.trans hfirst⟩

theorem of_performAll {row : CommandRow} {w w' : CommandWriter}
    (h : performAll (rowOperations row) w = .ok () w') : Writable row := by
  induction row generalizing w with
  | nil => exact fun _ hmem => absurd hmem List.not_mem_nil
  | cons parameter row ih =>
    obtain ⟨⟨⟩, w₁, hwrite, hrest⟩ := (run_bind_eq_ok_iff _).1 h
    exact List.forall_mem_cons.2 ⟨of_write hwrite, ih hrest⟩

/-- **A row is written exactly when it can be.** -/
theorem rowCommand_isOk_iff {name : Bytes} {row : CommandRow} (hname : validateName name = .ok ()) :
    (∃ bytes, rowCommand name row = .ok bytes) ↔ Writable row := by
  constructor
  · rintro ⟨bytes, h⟩
    obtain ⟨-, w, hperform, -, -⟩ := writeCommand_eq_ok h
    exact of_performAll hperform
  · intro h
    obtain ⟨w, hperform, hfirst⟩ := performAll_isOk h { data := name }
    refine ⟨w.data, ?_⟩
    unfold rowCommand writeCommand create
    rw [hname]
    dsimp only [bind, Except.bind, pure, Except.pure]
    rw [hperform]
    dsimp only
    rw [take, hfirst]
    rfl

theorem namesEnd_rowOperations {row : CommandRow}
    (h : ∀ parameter ∈ row, ¬ EndsInLineEnd parameter.name) : NamesEnd (rowOperations row) := by
  intro operation hoperation name hname
  obtain ⟨parameter, hparameter, rfl⟩ := List.mem_map.1 hoperation
  cases hname
  exact h parameter hparameter

theorem splitRows_rowOperations (row : CommandRow) : splitRows (rowOperations row) = [row] := by
  induction row with
  | nil => rfl
  | cons parameter row ih =>
    show consParameter parameter (splitRows (rowOperations row)) = _
    rw [ih]
    rfl

/-- **A row is read back as it was written**, whatever its values hold. -/
theorem parse_rowCommand {name bytes : Bytes} {row : CommandRow} (hne : row ≠ [])
    (hnames : ∀ parameter ∈ row, ¬ EndsInLineEnd parameter.name)
    (h : rowCommand name row = .ok bytes) :
    CommandParser.parse bytes = .ok { name, rows := [row] } := by
  obtain ⟨hvalid, w, hperform, htake, rfl⟩ := writeCommand_eq_ok h
  obtain ⟨hnil, hspace, -, -⟩ := validateName_eq_ok hvalid
  have hoperations : rowOperations row ≠ [] := by
    unfold rowOperations
    rwa [Ne, List.map_eq_nil_iff]
  obtain ⟨text, hdata, hrows⟩ :=
    (writes_rows (rowOperations row) (namesEnd_rowOperations hnames)).2 rfl (.inl hoperations) hperform htake
  rw [splitRows_rowOperations] at hrows
  rw [hdata]
  simpa using parse_of_text hnil hspace hrows

/-! ## Numbers -/

/-- The code of a digit. -/
theorem toNat_of_isDigit {c : Char} (h : c.isDigit = true) : 48 ≤ c.toNat ∧ c.toNat ≤ 57 :=
  Char.isDigit_iff_toNat.1 h

theorem decimal_map {digits : List Char} (h : ∀ c ∈ digits, c.isDigit = true) (n : ℕ) :
    (digits.map fun c => UInt8.ofNat c.toNat).foldl (fun n c => n * 10 + (c.toNat - 48)) n =
      Nat.ofDigitChars 10 digits n := by
  induction digits generalizing n with
  | nil => rfl
  | cons c digits ih =>
    obtain ⟨hc, hdigits⟩ := List.forall_mem_cons.1 h
    have hlt : c.toNat < 256 := (toNat_of_isDigit hc).2.trans_lt (by decide)
    rw [List.map_cons, List.foldl_cons, ih hdigits, Nat.ofDigitChars_cons,
      UInt8.toNat_ofNat_of_lt' hlt, mul_comm]
    rfl

theorem isDigit_of_mem_toDigits {n : ℕ} {c : Char} (hc : c ∈ Nat.toDigits 10 n) :
    c.isDigit = true := Nat.isDigit_of_mem_toDigits (by decide) (by decide) hc

theorem decimal_numberText (n : ℕ) : decimal (numberText 10 n) = n := by
  unfold decimal numberText
  rw [decimal_map fun c hc => isDigit_of_mem_toDigits hc, Nat.ofDigitChars_ten_toDigits]

theorem mem_numberText {n : ℕ} {c : UInt8} (hc : c ∈ numberText 10 n) :
    48 ≤ c.toNat ∧ c.toNat ≤ 57 := by
  obtain ⟨digit, hdigit, rfl⟩ := List.mem_map.1 hc
  have hcode := toNat_of_isDigit (isDigit_of_mem_toDigits hdigit)
  rwa [UInt8.toNat_ofNat_of_lt' (hcode.2.trans_lt (by decide))]

theorem null_notMem_numberText (n : ℕ) : null ∉ numberText 10 n := by
  intro h
  exact absurd (mem_numberText h).1 (by decide)

theorem numberText_ne_nil (n : ℕ) : numberText 10 n ≠ [] := by
  unfold numberText
  rw [Ne, List.map_eq_nil_iff]
  exact Nat.toDigits_ne_nil

/-- A number of 64 bits is read back. -/
theorem parseNonemptyUnsigned_numberText {n : ℕ} (hn : n < 2 ^ 64) (name : String) :
    parseNonemptyUnsigned (numberText 10 n) name = .ok n := by
  have hdigits : (numberText 10 n).all (fun c => 48 ≤ c.toNat && c.toNat ≤ 57) = true := by
    rw [List.all_eq_true]
    intro c hc
    simp [mem_numberText hc]
  unfold parseNonemptyUnsigned parseUnsigned
  rw [throwIf_bind_of_not (numberText_ne_nil n), decimal_numberText,
    if_pos ⟨numberText_ne_nil n, hdigits, hn⟩]

/-! ## Text messages -/

theorem parseTargetMode_value (mode : TextMessageTargetMode) :
    parseTargetMode (numberText 10 mode.value) = .ok mode := by
  have hlt : mode.value < 2 ^ 64 := by
    cases mode with
    | privateChat | channel | server => decide
  unfold parseTargetMode
  rw [parseNonemptyUnsigned_numberText hlt]
  cases mode with
  | privateChat | channel | server => rfl

theorem names_sendTextMessage (target : TextMessageTarget) (text : Bytes) :
    ∀ parameter ∈ SendTextMessage.row target text, ¬ EndsInLineEnd parameter.name := by
  have hends : ¬ EndsInLineEnd (ascii "targetmode") ∧ ¬ EndsInLineEnd (ascii "target") ∧
      ¬ EndsInLineEnd (ascii "msg") := by
    simp only [ascii_eq]
    decide
  unfold SendTextMessage.row
  simp [hends]

theorem names_clientMove (clientId channelId : ℕ) :
    ∀ parameter ∈ ClientMove.row clientId channelId, ¬ EndsInLineEnd parameter.name := by
  have hends : ¬ EndsInLineEnd (ascii "clid") ∧ ¬ EndsInLineEnd (ascii "cid") := by
    simp only [ascii_eq]
    decide
  unfold ClientMove.row
  simp [hends]

theorem names_clientUpdate (nickname : Bytes) :
    ∀ parameter ∈ ClientUpdate.row nickname, ¬ EndsInLineEnd parameter.name := by
  have hend : ¬ EndsInLineEnd (ascii "client_nickname") := by
    rw [ascii_eq]
    decide
  unfold ClientUpdate.row
  simp [hend]

theorem writable_sendTextMessage {target : TextMessageTarget} {text : Bytes} :
    Writable (SendTextMessage.row target text) ↔ null ∉ text := by
  have hnames : validateName (ascii "targetmode") = .ok () ∧ validateName (ascii "target") = .ok () ∧
      validateName (ascii "msg") = .ok () := by
    simp only [ascii_eq]
    decide
  unfold Writable SendTextMessage.row
  simp [hnames, null_notMem_numberText]

theorem sendTextMessage_isOk_iff {target : TextMessageTarget} {text : Bytes} :
    (∃ bytes, SendTextMessage.serialize target text = .ok bytes) ↔
      text ≠ [] ∧ (target.mode = .server ∨ target.id ≠ 0) ∧ null ∉ text := by
  have hname : validateName (ascii "sendtextmessage") = .ok () := by
    rw [ascii_eq]
    decide
  rw [← @writable_sendTextMessage target text, ← rowCommand_isOk_iff hname]
  constructor
  · rintro ⟨bytes, h⟩
    obtain ⟨_, htext, h⟩ := bind_eq_ok h
    obtain ⟨_, htarget, h⟩ := bind_eq_ok h
    have hsomebody := not_of_throwIf htarget
    rw [not_and_or, not_not] at hsomebody
    exact ⟨not_of_throwIf htext, hsomebody, bytes, h⟩
  · rintro ⟨htext, htarget, bytes, h⟩
    refine ⟨bytes, ?_⟩
    unfold SendTextMessage.serialize
    rw [throwIf_bind_of_not htext, throwIf_bind_of_not, h]
    rw [not_and_or, not_not]
    exact htarget

theorem parseRow_sendTextMessage {target : TextMessageTarget} (hid : target.id < 2 ^ 64)
    (text : Bytes) : TextMessageEntry.parseRow (SendTextMessage.row target text) =
      .ok { targetMode := target.mode, targetId := some target.id, text } := by
  have hmode : CommandRow.find? (SendTextMessage.row target text) "targetmode" =
      some (numberText 10 target.mode.value) := by
    simp [CommandRow.find?, SendTextMessage.row]
  have htarget : CommandRow.find? (SendTextMessage.row target text) "target" =
      some (numberText 10 target.id) := by
    simp [CommandRow.find?, SendTextMessage.row, ascii_inj]
  have htext : CommandRow.find? (SendTextMessage.row target text) "msg" = some text := by
    simp [CommandRow.find?, SendTextMessage.row, ascii_inj]
  have hothers : CommandRow.find? (SendTextMessage.row target text) "invokerid" = none ∧
      CommandRow.find? (SendTextMessage.row target text) "invokername" = none ∧
      CommandRow.find? (SendTextMessage.row target text) "invokeruid" = none := by
    simp [CommandRow.find?, SendTextMessage.row, ascii_inj]
  simp [TextMessageEntry.parseRow, CommandRow.require, parseNonemptyUnsigned?, hmode, htarget, htext,
    hothers, parseTargetMode_value, parseNonemptyUnsigned_numberText hid, throwIf, bind, Except.bind,
    pure, Except.pure]

/-- **A text message is read as it was sent.** It is sent unless its text is empty or holds a null
byte, or its target is nobody; and a client that is notified with the parameters of the command
reads the target and the text, whatever else the text holds. -/
theorem sendTextMessage_read (target : TextMessageTarget) (text : Bytes) :
    ((∃ bytes, SendTextMessage.serialize target text = .ok bytes) ↔
      text ≠ [] ∧ (target.mode = .server ∨ target.id ≠ 0) ∧ null ∉ text) ∧
    ∀ bytes, SendTextMessage.serialize target text = .ok bytes →
      ∃ row, CommandParser.parse bytes = .ok { name := ascii "sendtextmessage", rows := [row] } ∧
        (target.id < 2 ^ 64 → TextMessageEntry.parseRow row =
          .ok { targetMode := target.mode, targetId := some target.id, text }) := by
  refine ⟨sendTextMessage_isOk_iff, ?_⟩
  intro bytes h
  obtain ⟨_, -, h⟩ := bind_eq_ok h
  obtain ⟨_, -, h⟩ := bind_eq_ok h
  have hread := parse_rowCommand (List.cons_ne_nil _ _) (names_sendTextMessage target text) h
  exact ⟨_, hread, fun hid => parseRow_sendTextMessage hid text⟩

end TsCli
