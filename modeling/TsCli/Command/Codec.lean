import TsCli.Command.Parser

/-!
# Commands survive the wire

A text of rows is described by `RowsText`: words joined by spaces into rows, rows joined by `|`,
where a word of a parameter is a text that `parseParameter` reads back and that contains neither
separator (`IsWord`). The writer only produces such texts (`writes_rows`), because the escapes
leave no separator and no line end in a value, and the parser reads each of them back
(`parseRows_of_text`).
-/

namespace TsCli

open Ascii CommandParser CommandWriter

/-! ## What a sequence of operations writes -/

/-- Put a parameter in front of the first row. -/
def consParameter (parameter : CommandParameter) : List CommandRow → List CommandRow
  | [] => [[parameter]]
  | row :: rows => (parameter :: row) :: rows

namespace CommandWriter

/-- The rows that the operations divide into. -/
def splitRows : List Operation → List CommandRow
  | [] => [[]]
  | .writeFlag name :: operations => consParameter { name } (splitRows operations)
  | .write name value :: operations => consParameter { name, value } (splitRows operations)
  | .nextRow :: operations => [] :: splitRows operations

/-- The rows of the command; a command without operations has none. -/
def rowsOf (operations : List Operation) : List CommandRow :=
  if operations = [] then [] else splitRows operations

/-- The name that an operation writes. -/
def Operation.name? : Operation → Option Bytes
  | .writeFlag name => some name
  | .write name _ => some name
  | .nextRow => none

end CommandWriter

/-- The text ends in a character that the parser trims. -/
def EndsInLineEnd (text : Bytes) : Prop :=
  text.getLast? = some carriageReturn ∨ text.getLast? = some lineFeed

instance (text : Bytes) : Decidable (EndsInLineEnd text) := inferInstanceAs (Decidable (_ ∨ _))

theorem endsInLineEnd_append {a b : Bytes} (hb : b ≠ []) :
    EndsInLineEnd (a ++ b) ↔ EndsInLineEnd b := by
  unfold EndsInLineEnd
  rw [List.getLast?_append_of_ne_nil _ hb]

theorem not_endsInLineEnd_of_notMem {text : Bytes} (hr : carriageReturn ∉ text)
    (hl : lineFeed ∉ text) : ¬ EndsInLineEnd text := by
  rintro (h | h)
  · exact hr (List.mem_of_getLast? h)
  · exact hl (List.mem_of_getLast? h)

theorem trimLineEnd_eq {text : Bytes} (h : ¬ EndsInLineEnd text) : trimLineEnd text = text := by
  unfold trimLineEnd
  unfold EndsInLineEnd at h
  rw [List.getLast?_eq_head?_reverse] at h
  cases hrev : text.reverse with
  | nil => rw [List.reverse_eq_nil_iff.1 hrev]; rfl
  | cons c rest =>
    rw [hrev, List.head?_cons, Option.some.injEq, Option.some.injEq] at h
    rw [List.dropWhile_cons_of_neg (by simpa using not_or.1 h), ← hrev, List.reverse_reverse]

/-! ## Searching -/

theorem find_eq_none {c : UInt8} {text : Bytes} (h : c ∉ text) : find c text = none := by
  unfold find
  rw [List.findIdx?_eq_none_iff]
  intro x hx
  simpa using fun he : x = c => h (he ▸ hx)

theorem find_append {c : UInt8} {text rest : Bytes} (h : c ∉ text) :
    find c (text ++ c :: rest) = some text.length := by
  have hnone := find_eq_none h
  unfold find at hnone ⊢
  rw [List.findIdx?_append, hnone, List.findIdx?_cons, if_pos (decide_eq_true rfl)]
  simp

theorem dropWhile_space {text : Bytes} (h : ∀ c, text.head? = some c → c ≠ space) :
    text.dropWhile (· = space) = text := by
  cases text with
  | nil => rfl
  | cons c text => exact List.dropWhile_cons_of_neg (by simpa using h c rfl)

/-! ## Values -/

/-- A character that the parser gives no meaning of its own in a value. -/
def Plain (c : UInt8) : Prop := c ≠ space ∧ c ≠ pipe ∧ c ≠ carriageReturn ∧ c ≠ lineFeed

instance (c : UInt8) : Decidable (Plain c) := inferInstanceAs (Decidable (_ ∧ _ ∧ _ ∧ _))

/-- Each escape of the writer is one of the parser. -/
theorem decodeEscape_of_mem : ∀ escape ∈ escapes,
    decodeEscape escape.2 = .ok escape.1 ∧ Plain escape.2 := by
  intro escape h
  simp only [escapes, List.mem_cons, List.not_mem_nil, or_false] at h
  rcases h with rfl | rfl | rfl | rfl | rfl | rfl | rfl | rfl | rfl | rfl | rfl <;>
    exact ⟨rfl, by decide⟩

/-- What is not escaped needs no escape. -/
theorem plain_of_lookup {c : UInt8} (h : escapes.lookup c = none) : c ≠ backslash ∧ Plain c := by
  rw [List.lookup_eq_none_iff] at h
  have hne : ∀ escape ∈ escapes, c ≠ escape.1 := fun escape hmem => by simpa using h escape hmem
  exact ⟨hne (backslash, backslash) (by decide), hne (space, 0x73) (by decide),
    hne (pipe, 0x70) (by decide), hne (carriageReturn, 0x72) (by decide),
    hne (lineFeed, 0x6e) (by decide)⟩

/-- A character is written as itself, or as a backslash and a letter that stands for it. -/
theorem encodeCharacter_eq_ok {c : UInt8} {encoded : Bytes}
    (h : encodeCharacter c = .ok encoded) :
    (∃ e, encoded = [backslash, e] ∧ decodeEscape e = .ok c ∧ Plain e) ∨
      (encoded = [c] ∧ c ≠ backslash ∧ Plain c) := by
  unfold encodeCharacter at h
  cases hlookup : escapes.lookup c with
  | some e =>
    rw [hlookup] at h
    cases h
    obtain ⟨l₁, l₂, hsplit, -⟩ := List.lookup_eq_some_iff.1 hlookup
    exact .inl ⟨e, rfl, decodeEscape_of_mem (c, e) (by rw [hsplit]; simp)⟩
  | none =>
    rw [hlookup] at h
    dsimp only at h
    split_ifs at h
    cases h
    exact .inr ⟨rfl, plain_of_lookup hlookup⟩

theorem decodeValue_escape {e c : UInt8} {rest value : Bytes} (he : decodeEscape e = .ok c)
    (hrest : decodeValue rest = .ok value) :
    decodeValue (backslash :: e :: rest) = .ok (c :: value) := by
  rw [decodeValue, if_pos rfl, he, hrest]
  rfl

theorem decodeValue_cons {c : UInt8} {rest value : Bytes} (hc : c ≠ backslash)
    (hrest : decodeValue rest = .ok value) : decodeValue (c :: rest) = .ok (c :: value) := by
  cases rest with
  | nil =>
    rw [decodeValue] at hrest
    cases hrest
    rw [decodeValue, if_neg hc]
  | cons e rest =>
    rw [decodeValue, if_neg hc, hrest]
    rfl

/-- An escaped value reads back, and nothing in it has a meaning for the parser. -/
theorem encodeValue_eq_ok : ∀ {value encoded : Bytes}, encodeValue value = .ok encoded →
    decodeValue encoded = .ok value ∧ ∀ c ∈ encoded, Plain c
  | [], _, h => by
    rw [encodeValue] at h
    cases h
    exact ⟨rfl, nofun⟩
  | c :: value, encoded, h => by
    rw [encodeValue] at h
    cases hc : encodeCharacter c with
    | error e => rw [hc] at h; cases h
    | ok first =>
      cases hv : encodeValue value with
      | error e => rw [hc, hv] at h; cases h
      | ok rest =>
        rw [hc, hv] at h
        cases h
        obtain ⟨hdecode, hplain⟩ := encodeValue_eq_ok hv
        rcases encodeCharacter_eq_ok hc with ⟨e, rfl, he, hpe⟩ | ⟨rfl, hne, hpc⟩
        · refine ⟨decodeValue_escape he hdecode, fun x hx => ?_⟩
          rcases List.mem_cons.1 hx with rfl | hx
          · decide
          · rcases List.mem_cons.1 hx with rfl | hx
            · exact hpe
            · exact hplain x hx
        · refine ⟨decodeValue_cons hne hdecode, fun x hx => ?_⟩
          rcases List.mem_cons.1 hx with rfl | hx
          · exact hpc
          · exact hplain x hx

/-! ## Words, rows and texts -/

/-- A text without separators that reads back as the parameter. -/
structure IsWord (parameter : CommandParameter) (word : Bytes) : Prop where
  ne_nil : word ≠ []
  space_notMem : space ∉ word
  pipe_notMem : pipe ∉ word
  not_lineEnd : ¬ EndsInLineEnd word
  parse : parseParameter word = .ok parameter

/-- The texts of a row. -/
inductive RowText : CommandRow → Bytes → Prop
  | single {parameter word} (h : IsWord parameter word) : RowText [parameter] word
  | cons {parameter word row text} (h : IsWord parameter word) (hrow : RowText row text) :
    RowText (parameter :: row) (word ++ space :: text)

/-- The texts of the rows of a command. -/
inductive RowsText : List CommandRow → Bytes → Prop
  | single {row text} (h : RowText row text) : RowsText [row] text
  | cons {row text rows rest} (h : RowText row text) (hrows : RowsText rows rest) :
    RowsText (row :: rows) (text ++ pipe :: rest)

/-- A name that passes `ValidateName`. -/
theorem validateName_eq_ok {name : Bytes} (h : validateName name = .ok ()) :
    name ≠ [] ∧ space ∉ name ∧ equals ∉ name ∧ pipe ∉ name := by
  unfold validateName at h
  split_ifs at h with hnil hany
  refine ⟨hnil, fun hmem => hany ?_, fun hmem => hany ?_, fun hmem => hany ?_⟩
  all_goals exact List.any_eq_true.2 ⟨_, hmem, by decide⟩

theorem isWord_flag {name : Bytes} (h : validateName name = .ok ()) (hend : ¬ EndsInLineEnd name) :
    IsWord { name } name := by
  obtain ⟨hnil, hspace, hequals, hpipe⟩ := validateName_eq_ok h
  refine ⟨hnil, hspace, hpipe, hend, ?_⟩
  unfold parseParameter
  rw [find_eq_none hequals]

theorem isWord_value {name value encoded : Bytes} (h : validateName name = .ok ())
    (hencoded : encodeValue value = .ok encoded) :
    IsWord { name, value } (name ++ equals :: encoded) := by
  obtain ⟨hnil, hspace, hequals, hpipe⟩ := validateName_eq_ok h
  obtain ⟨hdecode, hplain⟩ := encodeValue_eq_ok hencoded
  have hrest : ∀ {c : UInt8}, c ≠ equals → (∀ x, Plain x → x ≠ c) → c ∉ equals :: encoded :=
    fun hne hc hmem => (List.mem_cons.1 hmem).elim hne fun h => hc _ (hplain _ h) rfl
  refine ⟨by simp, ?_, ?_, ?_, ?_⟩
  · exact fun h => (List.mem_append.1 h).elim hspace (hrest (by decide) fun x hx => hx.1)
  · exact fun h => (List.mem_append.1 h).elim hpipe (hrest (by decide) fun x hx => hx.2.1)
  · rw [endsInLineEnd_append (List.cons_ne_nil _ _)]
    exact not_endsInLineEnd_of_notMem (hrest (by decide) fun x hx => hx.2.2.1)
      (hrest (by decide) fun x hx => hx.2.2.2)
  · unfold parseParameter
    rw [find_append hequals]
    have hvalue : (name ++ equals :: encoded).drop (name.length + 1) = encoded := by
      rw [← List.drop_drop, List.drop_left, List.drop_one, List.tail_cons]
    dsimp only
    rw [List.take_left, hvalue, throwIf_bind_of_not hnil, hdecode]
    rfl

/-! ## The writer -/

/-- What a call that writes a parameter appends. -/
theorem perform_parameter {operation : Operation} {w w' : CommandWriter} {name value : Bytes}
    (hop : operation = .writeFlag name ∧ value = [] ∨ operation = .write name value)
    (hend : ¬ EndsInLineEnd name) (h : perform operation w = .ok () w') :
    ∃ word, IsWord { name, value } word ∧ w'.firstRow = w.firstRow ∧ w'.rowHasParameter = true ∧
      w'.data = w.data ++ (if w.firstRow || w.rowHasParameter then [space] else []) ++ word := by
  have hprefix : ∀ {w₁ : CommandWriter}, writePrefix name w = .ok () w₁ →
      validateName name = .ok () ∧ w₁ = { w with
        data := w.data ++ (if w.firstRow || w.rowHasParameter then [space] else []) ++ name } := by
    intro w₁ h₁
    cases hvalid : validateName name with
    | error e =>
      rw [writePrefix, hvalid] at h₁
      cases h₁
    | ok u =>
      rw [writePrefix, Exec.run_lift_bind_ok hvalid, Exec.run_get_bind] at h₁
      refine ⟨rfl, ?_⟩
      cases hsep : w.firstRow || w.rowHasParameter
      · rw [hsep] at h₁
        cases h₁
        simp
      · rw [hsep] at h₁
        cases h₁
        simp
  rcases hop with ⟨rfl, rfl⟩ | rfl
  · obtain ⟨⟨⟩, w₁, h₁, h₂⟩ := (Exec.run_bind_eq_ok_iff _).1 h
    obtain ⟨hvalid, rfl⟩ := hprefix h₁
    cases h₂
    exact ⟨name, isWord_flag hvalid hend, rfl, rfl, rfl⟩
  · obtain ⟨⟨⟩, w₁, h₁, h₂⟩ := (Exec.run_bind_eq_ok_iff _).1 h
    obtain ⟨hvalid, rfl⟩ := hprefix h₁
    obtain ⟨⟨⟩, w₂, h₂, h₃⟩ := (Exec.run_bind_eq_ok_iff _).1 h₂
    cases h₂
    cases hencoded : encodeValue value with
    | error e =>
      rw [hencoded] at h₃
      cases h₃
    | ok encoded =>
      rw [Exec.run_lift_bind_ok hencoded] at h₃
      cases h₃
      exact ⟨_, isWord_value hvalid hencoded, rfl, rfl, by simp⟩

theorem RowsText.consParameter {parameter : CommandParameter} {word text : Bytes}
    {rows : List CommandRow} (hword : IsWord parameter word) (h : RowsText rows text) :
    RowsText (consParameter parameter rows) (word ++ space :: text) := by
  cases h with
  | single h => exact .single (.cons hword h)
  | cons h hrows =>
    rw [← List.cons_append, ← List.append_assoc]
    exact .cons (.cons hword h) hrows

/-- The operation writes this parameter. -/
def CommandWriter.Operation.Writes (operation : Operation) (parameter : CommandParameter) : Prop :=
  operation = .writeFlag parameter.name ∧ parameter.value = [] ∨
    operation = .write parameter.name parameter.value

theorem CommandWriter.Operation.eq_nextRow_or_writes (operation : Operation) :
    operation = .nextRow ∨ ∃ parameter, operation.Writes parameter ∧
      operation.name? = some parameter.name ∧
      ∀ operations, splitRows (operation :: operations) =
        TsCli.consParameter parameter (splitRows operations) := by
  cases operation with
  | writeFlag name => exact .inr ⟨⟨name, []⟩, .inl ⟨rfl, rfl⟩, rfl, fun _ => rfl⟩
  | write name value => exact .inr ⟨⟨name, value⟩, .inr rfl, rfl, fun _ => rfl⟩
  | nextRow => exact .inl rfl

theorem nextRow_eq {w : CommandWriter} (h : w.rowHasParameter = true) :
    nextRow w = .ok () ⟨w.data ++ [pipe], false, false⟩ := by
  rw [nextRow, Exec.run_get_bind, h]
  rfl

/-- The names of the operations do not end in a line end. -/
def NamesEnd (operations : List Operation) : Prop :=
  ∀ operation ∈ operations, ∀ name ∈ operation.name?, ¬ EndsInLineEnd name

instance (operations : List Operation) : Decidable (NamesEnd operations) :=
  inferInstanceAs (Decidable (∀ operation ∈ operations, ∀ name ∈ operation.name?,
    ¬ EndsInLineEnd name))

/-- What the calls append is a text of the rows they write: behind a parameter it continues that
parameter's row, at the start of a row it stands for itself. Both by one induction on the calls,
as `NextRow` leads from the first case to the second and a parameter back. -/
theorem writes_rows (operations : List Operation) (hnames : NamesEnd operations) :
    (∀ {w w' : CommandWriter} {parameter : CommandParameter} {word : Bytes},
      IsWord parameter word → w.rowHasParameter = true →
      performAll operations w = .ok () w' → (w'.firstRow || w'.rowHasParameter) = true →
      ∃ text, w'.data = w.data ++ text ∧
        RowsText (consParameter parameter (splitRows operations)) (word ++ text)) ∧
    (∀ {w w' : CommandWriter}, w.rowHasParameter = false → operations ≠ [] ∨ w.firstRow = false →
      performAll operations w = .ok () w' → (w'.firstRow || w'.rowHasParameter) = true →
      ∃ text, w'.data = w.data ++ (if w.firstRow then [space] else []) ++ text ∧
        RowsText (splitRows operations) text) := by
  induction operations with
  | nil =>
    refine ⟨fun hword _ hrun _ => ?_, fun hrow hstart hrun htake => ?_⟩
    · cases hrun
      exact ⟨[], by simp, by rw [List.append_nil]; exact .single (.single hword)⟩
    · cases hrun
      rw [hrow, hstart.resolve_left (· rfl)] at htake
      cases htake
  | cons operation operations ih =>
    obtain ⟨ihrow, ihstart⟩ := ih fun o ho => hnames o (List.mem_cons_of_mem _ ho)
    refine ⟨fun {w w' parameter word} hword hrow hrun htake => ?_,
      fun {w w'} hrow hstart hrun htake => ?_⟩
    · obtain ⟨⟨⟩, w₁, h₁, hrun⟩ := (Exec.run_bind_eq_ok_iff _).1 hrun
      rcases operation.eq_nextRow_or_writes with rfl | ⟨q, hwrites, hname, hsplit⟩
      · cases (nextRow_eq hrow).symm.trans h₁
        obtain ⟨text, hdata, hrows⟩ := ihstart rfl (.inr rfl) hrun htake
        exact ⟨pipe :: text, by rw [hdata]; simp, .cons (.single hword) hrows⟩
      · obtain ⟨wordq, hwordq, -, hhas, hdata⟩ :=
          perform_parameter hwrites (hnames operation List.mem_cons_self _ hname) h₁
        obtain ⟨text, htext, hrows⟩ := ihrow hwordq hhas hrun htake
        rw [hrow, Bool.or_true, if_pos rfl] at hdata
        refine ⟨space :: (wordq ++ text), by rw [htext, hdata]; simp, ?_⟩
        rw [hsplit]
        exact hrows.consParameter hword
    · obtain ⟨⟨⟩, w₁, h₁, hrun⟩ := (Exec.run_bind_eq_ok_iff _).1 hrun
      rcases operation.eq_nextRow_or_writes with rfl | ⟨q, hwrites, hname, hsplit⟩
      · rw [perform, nextRow, Exec.run_get_bind, hrow] at h₁
        cases h₁
      · obtain ⟨wordq, hwordq, -, hhas, hdata⟩ :=
          perform_parameter hwrites (hnames operation List.mem_cons_self _ hname) h₁
        obtain ⟨text, htext, hrows⟩ := ihrow hwordq hhas hrun htake
        rw [hrow, Bool.or_false] at hdata
        refine ⟨wordq ++ text, by rw [htext, hdata, List.append_assoc], ?_⟩
        rw [hsplit]
        exact hrows

/-! ## The parser -/

theorem IsWord.head_ne {parameter : CommandParameter} {word rest : Bytes}
    (h : IsWord parameter word) : ∀ c, (word ++ rest).head? = some c → c ≠ space := by
  intro c hc he
  obtain ⟨d, word, rfl⟩ := List.exists_cons_of_ne_nil h.ne_nil
  cases hc
  exact h.space_notMem (he ▸ List.mem_cons_self)

theorem RowText.head_ne {row : CommandRow} {text : Bytes} (h : RowText row text) {rest : Bytes} :
    ∀ c, (text ++ rest).head? = some c → c ≠ space := by
  cases h with
  | single h => exact h.head_ne
  | cons h _ => rw [List.append_assoc]; exact h.head_ne

theorem RowText.ne_nil {row : CommandRow} {text : Bytes} (h : RowText row text) : text ≠ [] := by
  cases h with
  | single h => exact h.ne_nil
  | cons _ _ => simp

theorem RowText.pipe_notMem {row : CommandRow} {text : Bytes} (h : RowText row text) :
    pipe ∉ text := by
  induction h with
  | single h => exact h.pipe_notMem
  | cons h _ ih =>
    intro hmem
    rcases List.mem_append.1 hmem with hmem | hmem
    · exact h.pipe_notMem hmem
    · rcases List.mem_cons.1 hmem with he | hmem
      · exact absurd he (by decide)
      · exact ih hmem

theorem RowText.not_lineEnd {row : CommandRow} {text : Bytes} (h : RowText row text) :
    ¬ EndsInLineEnd text := by
  induction h with
  | single h => exact h.not_lineEnd
  | @cons _ word _ text _ hrow ih =>
    rw [List.append_cons, endsInLineEnd_append hrow.ne_nil]
    exact ih

theorem RowsText.not_lineEnd {rows : List CommandRow} {text : Bytes} (h : RowsText rows text) :
    text ≠ [] ∧ ¬ EndsInLineEnd text := by
  induction h with
  | single h => exact ⟨h.ne_nil, h.not_lineEnd⟩
  | cons _ _ ih =>
    refine ⟨by simp, ?_⟩
    rw [List.append_cons, endsInLineEnd_append ih.1]
    exact ih.2

theorem parseRowLoop_last {parameter : CommandParameter} {word : Bytes} (h : IsWord parameter word)
    (fuel : ℕ) : parseRowLoop (fuel + 1) word = .ok [parameter] := by
  have hdrop : word.dropWhile (· = space) = word :=
    dropWhile_space (by simpa using @IsWord.head_ne _ _ [] h)
  rw [parseRowLoop, hdrop]
  obtain ⟨c, word, rfl⟩ := List.exists_cons_of_ne_nil h.ne_nil
  dsimp only
  rw [find_eq_none h.space_notMem, h.parse]
  rfl

theorem parseRowLoop_cons {parameter : CommandParameter} {word text : Bytes}
    (h : IsWord parameter word) {fuel : ℕ} {row : CommandRow}
    (hrest : parseRowLoop fuel text = .ok row) :
    parseRowLoop (fuel + 1) (word ++ space :: text) = .ok (parameter :: row) := by
  have hfind : find space (word ++ space :: text) = some word.length := find_append h.space_notMem
  have htake : (word ++ space :: text).take word.length = word := List.take_left
  have htail : (word ++ space :: text).drop (word.length + 1) = text := by
    rw [← List.drop_drop, List.drop_left, List.drop_one, List.tail_cons]
  rw [parseRowLoop, dropWhile_space h.head_ne]
  obtain ⟨c, rest, hword⟩ : ∃ c rest, word ++ space :: text = c :: rest :=
    List.exists_cons_of_ne_nil (by simp)
  rw [hword] at hfind htake htail ⊢
  dsimp only
  rw [hfind]
  dsimp only
  rw [htake, htail, h.parse, hrest]
  rfl

/-- A row's text parses to the row, one word a turn. -/
theorem parseRow_of_text {row : CommandRow} {text : Bytes} (h : RowText row text) :
    parseRow text = .ok row := by
  suffices hloop : ∀ fuel, text.length < fuel → parseRowLoop fuel text = .ok row from
    hloop _ (Nat.lt_succ_self _)
  induction h with
  | single h =>
    intro fuel hfuel
    obtain ⟨fuel, rfl⟩ := Nat.exists_eq_add_of_lt (Nat.zero_lt_of_lt hfuel)
    rw [Nat.zero_add]
    exact parseRowLoop_last h _
  | cons h _ ih =>
    intro fuel hfuel
    obtain ⟨fuel, rfl⟩ := Nat.exists_eq_add_of_lt (Nat.zero_lt_of_lt hfuel)
    rw [List.length_append, List.length_cons] at hfuel
    rw [Nat.zero_add]
    exact parseRowLoop_cons h (ih fuel (by omega))

/-- A text of rows parses to the rows. -/
theorem parseRows_of_text {rows : List CommandRow} {text : Bytes} (h : RowsText rows text) :
    ∀ {fuel : ℕ}, text.length < fuel → parseRows fuel text = .ok rows := by
  induction h with
  | single h =>
    intro fuel hfuel
    obtain ⟨fuel, rfl⟩ := Nat.exists_eq_add_of_lt (Nat.zero_lt_of_lt hfuel)
    rw [Nat.zero_add, parseRows, find_eq_none h.pipe_notMem]
    dsimp only
    rw [throwIf_bind_of_not h.ne_nil, parseRow_of_text h]
    rfl
  | @cons row text rows rest h _ ih =>
    intro fuel hfuel
    obtain ⟨fuel, rfl⟩ := Nat.exists_eq_add_of_lt (Nat.zero_lt_of_lt hfuel)
    rw [List.length_append, List.length_cons] at hfuel
    have htail : (text ++ pipe :: rest).drop (text.length + 1) = rest := by
      rw [← List.drop_drop, List.drop_left, List.drop_one, List.tail_cons]
    rw [Nat.zero_add, parseRows, find_append h.pipe_notMem]
    dsimp only
    rw [List.take_left, htail, throwIf_bind_of_not h.ne_nil, parseRow_of_text h, ih (by omega)]
    rfl

/-- The text of a command parses to the command. -/
theorem parse_of_text {name text : Bytes} {rows : List CommandRow} (hname : name ≠ [])
    (hspace : space ∉ name) (h : RowsText rows text) :
    parse (name ++ space :: text) = .ok { name, rows } := by
  have hend : trimLineEnd (name ++ space :: text) = name ++ space :: text := by
    refine trimLineEnd_eq ?_
    rw [List.append_cons, endsInLineEnd_append h.not_lineEnd.1]
    exact h.not_lineEnd.2
  have hhead : ∀ c, text.head? = some c → c ≠ space := by
    cases h with
    | single h => simpa using @RowText.head_ne _ _ h []
    | cons h _ => exact h.head_ne
  have hrows := parseRows_of_text h (Nat.lt_succ_self text.length)
  have hdata : ((name ++ space :: text).drop name.length).dropWhile (· = space) = text := by
    rw [List.drop_left, List.dropWhile_cons_of_pos (by decide), dropWhile_space hhead]
  obtain ⟨c, rest, rfl⟩ := List.exists_cons_of_ne_nil h.not_lineEnd.1
  unfold parse parseText
  rw [throwIf_bind_of_not (by simp), hend, throwIf_bind_of_not (by simp), find_append hspace]
  dsimp only
  rw [List.take_left, throwIf_bind_of_not hname, hdata]
  dsimp only
  rw [hrows]
  rfl

/-- A command without parameters is its name. -/
theorem parse_of_name {name : Bytes} (hname : name ≠ []) (hspace : space ∉ name)
    (hend : ¬ EndsInLineEnd name) : parse name = .ok { name } := by
  unfold parse parseText
  rw [throwIf_bind_of_not hname, trimLineEnd_eq hend, throwIf_bind_of_not hname,
    find_eq_none hspace]
  rfl

/-- The sequences of calls that end in a `Take`. -/
theorem writeCommand_eq_ok {name bytes : Bytes} {operations : List Operation}
    (h : writeCommand name operations = .ok bytes) :
    validateName name = .ok () ∧ ∃ w, performAll operations { data := name } = .ok () w ∧
      (w.firstRow || w.rowHasParameter) = true ∧ w.data = bytes := by
  unfold writeCommand create at h
  cases hvalid : validateName name with
  | error e => rw [hvalid] at h; cases h
  | ok u =>
    rw [hvalid] at h
    refine ⟨rfl, ?_⟩
    dsimp only [bind, Except.bind, pure, Except.pure] at h
    cases hrun : performAll operations { data := name } with
    | error e w => rw [hrun] at h; cases h
    | ok u w =>
      rw [hrun] at h
      dsimp only at h
      unfold take at h
      split_ifs at h with htake
      cases h
      exact ⟨w, rfl, by simpa [or_iff_not_imp_left] using htake, rfl⟩

/-- **Commands survive the wire.** The bytes of every sequence of calls that ends in a `Take` parse
to the name, the rows and, in each row, the parameters that the calls wrote, whatever the values
contain. -/
theorem parse_writeCommand (name : Bytes) (operations : List Operation) (bytes : Bytes)
    (hwrite : writeCommand name operations = .ok bytes) (hname : ¬ EndsInLineEnd name)
    (hnames : NamesEnd operations) : parse bytes = .ok { name, rows := rowsOf operations } := by
  obtain ⟨hvalid, w, hrun, htake, rfl⟩ := writeCommand_eq_ok hwrite
  obtain ⟨hnil, hspace, -, -⟩ := validateName_eq_ok hvalid
  by_cases hops : operations = []
  · subst hops
    cases hrun
    exact parse_of_name hnil hspace hname
  · obtain ⟨text, hdata, hrows⟩ := (writes_rows operations hnames).2 rfl (.inl hops) hrun htake
    rw [hdata, rowsOf, if_neg hops]
    simpa using parse_of_text hnil hspace hrows

/-- A value that spells a row of its own, `x |y=\n`, reads back as a value. -/
theorem parse_writeCommand_injection :
    let operations : List Operation :=
      [.write [0x61] [0x78, space, pipe, 0x79, equals, lineFeed], .writeFlag [0x62], .nextRow,
        .write [0x63] []]
    parse [0x6d, 0x20, 0x61, 0x3d, 0x78, 0x5c, 0x73, 0x5c, 0x70, 0x79, 0x3d, 0x5c, 0x6e, 0x20,
      0x62, 0x7c, 0x63, 0x3d] = .ok { name := [0x6d], rows := rowsOf operations } := by
  intro operations
  exact parse_writeCommand [0x6d] operations _ (by decide +kernel) (by decide) (by decide)

end TsCli
