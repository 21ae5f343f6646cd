import Mathlib.Data.FinEnum
import Mathlib.Data.List.TakeWhile
import TsCli.Command.Codec

/-!
# What the parser accepts

The rows of an accepted text are the parts of its data between the `|`, parsed one by one, and each
parameter is a stretch of its row between spaces (`parseRows_eq_ok`, `parseRowLoop_eq_ok`). So names
hold no separator, and there is one row more than there are separators. An empty part is refused,
but a part of spaces has no parameter and is not: such texts are the only ones that the parser
accepts with a row that is empty.
-/

namespace TsCli.CommandParser

open Ascii

/-! ## Parts of a text -/

theorem find_eq_some {c : UInt8} {text : Bytes} {i : ℕ} (h : find c text = some i) :
    c ∉ text.take i ∧ text = text.take i ++ c :: text.drop (i + 1) := by
  unfold find at h
  obtain ⟨hlt, hc, hbefore⟩ := List.findIdx?_eq_some_iff_getElem.1 h
  have hc : text[i] = c := by simpa using hc
  constructor
  · intro hmem
    obtain ⟨j, hj, hget⟩ := List.mem_take_iff_getElem.1 hmem
    exact absurd hget (by simpa using hbefore j (by omega))
  · rw [← hc, List.cons_getElem_drop_succ, List.take_append_drop]

theorem notMem_of_find {c : UInt8} {text : Bytes} (h : find c text = none) : c ∉ text := by
  unfold find at h
  rw [List.findIdx?_eq_none_iff] at h
  exact fun hmem => absurd (h c hmem) (by simp)

/-- The parts between the `|`. -/
def parts (data : Bytes) : List Bytes := data.splitOn pipe

theorem length_parts (data : Bytes) : (parts data).length = data.count pipe + 1 := by
  unfold parts
  induction data with
  | nil => rfl
  | cons c data ih =>
    rw [List.splitOn_cons_eq_if_modifyHead, List.count_cons]
    split_ifs <;> simp [ih]

/-! ## Rows -/

/-- The name of a parameter is not empty and holds no separator. -/
structure NameAccepted (parameter : CommandParameter) : Prop where
  ne_nil : parameter.name ≠ []
  space_notMem : space ∉ parameter.name
  pipe_notMem : pipe ∉ parameter.name
  equals_notMem : equals ∉ parameter.name

theorem parseParameter_eq_ok {word : Bytes} {parameter : CommandParameter} (hne : word ≠ [])
    (h : parseParameter word = .ok parameter) :
    parameter.name ≠ [] ∧ equals ∉ parameter.name ∧ parameter.name ⊆ word := by
  unfold parseParameter at h
  cases hfind : find equals word with
  | none =>
    rw [hfind] at h
    cases h
    exact ⟨hne, notMem_of_find hfind, fun _ hc => hc⟩
  | some separator =>
    rw [hfind] at h
    obtain ⟨u, hname, h⟩ := bind_eq_ok h
    obtain ⟨value, -, h⟩ := bind_eq_ok h
    cases h
    exact ⟨not_of_throwIf hname, (find_eq_some hfind).1, List.take_subset _ _⟩

/-- A word of a row that holds no `|`. -/
theorem nameAccepted_of_word {word text : Bytes} {parameter : CommandParameter} (hne : word ≠ [])
    (hspace : space ∉ word) (hpipe : pipe ∉ text) (hsub : word ⊆ text)
    (h : parseParameter word = .ok parameter) : NameAccepted parameter := by
  obtain ⟨hname, hequals, hword⟩ := parseParameter_eq_ok hne h
  exact ⟨hname, fun hmem => hspace (hword hmem), fun hmem => hpipe (hsub (hword hmem)), hequals⟩

/-- A row has a parameter unless its text is all spaces. -/
theorem parseRowLoop_eq_ok {text : Bytes} (hpipe : pipe ∉ text) {fuel : ℕ} {row : CommandRow}
    (h : parseRowLoop fuel text = .ok row) :
    (row = [] ↔ ∀ c ∈ text, c = space) ∧ ∀ parameter ∈ row, NameAccepted parameter := by
  induction fuel generalizing text row with
  | zero => cases h
  | succ fuel ih =>
    rw [parseRowLoop] at h
    have hsub : text.dropWhile (· = space) ⊆ text := List.dropWhile_sublist _ |>.subset
    cases hrest : text.dropWhile (· = space) with
    | nil =>
      rw [hrest] at h
      cases h
      refine ⟨iff_of_true rfl fun c hc => ?_, List.forall_mem_nil _⟩
      simpa using List.dropWhile_eq_nil_iff.1 hrest c hc
    | cons c rest =>
      rw [hrest] at h hsub
      have hc : c ≠ space := by
        have hhead := List.head_dropWhile_not (· = space) (l := text) (by simp [hrest])
        simpa [hrest] using hhead
      have hblank : ¬ ∀ c ∈ text, c = space := fun hall => hc (hall c (hsub List.mem_cons_self))
      dsimp only at h
      cases hfind : find space (c :: rest) with
      | none =>
        rw [hfind] at h
        obtain ⟨parameter, hparameter, h⟩ := bind_eq_ok h
        cases h
        refine ⟨iff_of_false (List.cons_ne_nil _ _) hblank, fun p hp => ?_⟩
        rw [List.mem_singleton.1 hp]
        exact nameAccepted_of_word (List.cons_ne_nil _ _) (notMem_of_find hfind) hpipe hsub hparameter
      | some parameterEnd =>
        rw [hfind] at h
        obtain ⟨parameter, hparameter, h⟩ := bind_eq_ok h
        obtain ⟨row', hrow, h⟩ := bind_eq_ok h
        cases h
        obtain ⟨hspace, hsplit⟩ := find_eq_some hfind
        have hpipe' : pipe ∉ (c :: rest).drop (parameterEnd + 1) := fun hmem =>
          hpipe (hsub (List.drop_subset _ _ hmem))
        have hne : (c :: rest).take parameterEnd ≠ [] := fun hnil => by
          rw [hnil, List.nil_append, List.cons.injEq] at hsplit
          exact hc hsplit.1
        refine ⟨iff_of_false (List.cons_ne_nil _ _) hblank, List.forall_mem_cons.2 ⟨?_, ?_⟩⟩
        · exact nameAccepted_of_word hne hspace hpipe
            (fun _ hmem => hsub (List.take_subset _ _ hmem)) hparameter
        · exact (ih hpipe' hrow).2

/-- The rows are the parts, parsed one by one, and no part is empty. -/
theorem parseRows_eq_ok {data : Bytes} {fuel : ℕ} {rows : List CommandRow}
    (h : parseRows fuel data = .ok rows) :
    List.Forall₂ (fun part row => part ≠ [] ∧ pipe ∉ part ∧ parseRow part = .ok row)
      (parts data) rows := by
  induction fuel generalizing data rows with
  | zero => cases h
  | succ fuel ih =>
    rw [parseRows] at h
    cases hfind : find pipe data with
    | none =>
      rw [hfind] at h
      obtain ⟨u, hne, h⟩ := bind_eq_ok h
      obtain ⟨row, hrow, h⟩ := bind_eq_ok h
      cases h
      have hpipe := notMem_of_find hfind
      rw [parts, List.splitOn_eq_singleton hpipe]
      exact .cons ⟨not_of_throwIf hne, hpipe, hrow⟩ .nil
    | some rowEnd =>
      rw [hfind] at h
      obtain ⟨u, hne, h⟩ := bind_eq_ok h
      obtain ⟨row, hrow, h⟩ := bind_eq_ok h
      obtain ⟨rows', hrows, h⟩ := bind_eq_ok h
      cases h
      obtain ⟨hpipe, hsplit⟩ := find_eq_some hfind
      rw [hsplit, parts, List.splitOn_append_cons_self, List.splitOn_eq_singleton hpipe]
      exact .cons ⟨not_of_throwIf hne, hpipe, hrow⟩ (ih hrows)

/-! ## Commands -/

/-- What follows the name, when the line end is dropped. -/
def behindName (text : Bytes) : Bytes := (trimLineEnd text).dropWhile (· ≠ space)

/-- The data of the rows. -/
def rowData (text : Bytes) : Bytes := (behindName text).dropWhile (· = space)

/-- The part is not empty, and nothing but spaces. -/
def Blank (part : Bytes) : Prop := part ≠ [] ∧ ∀ c ∈ part, c = space

instance : DecidablePred Blank := fun _ => inferInstanceAs (Decidable (_ ∧ _))

/-- What the readers of a command rely on: names without separators, no row without a parameter, and
as many rows as there are parts. -/
structure NoEmptyRow (text : Bytes) (command : Command) : Prop where
  name_ne_nil : command.name ≠ []
  space_notMem_name : space ∉ command.name
  rows_ne_nil : ∀ row ∈ command.rows, row ≠ []
  parameters : ∀ row ∈ command.rows, ∀ parameter ∈ row, NameAccepted parameter
  length_rows : command.rows.length =
    if ∀ c ∈ behindName text, c = space then 0 else (behindName text).count pipe + 1

theorem rowData_eq_nil_iff {text : Bytes} :
    rowData text = [] ↔ ∀ c ∈ behindName text, c = space := by
  unfold rowData
  rw [List.dropWhile_eq_nil_iff]
  simp

theorem count_rowData (text : Bytes) : (rowData text).count pipe = (behindName text).count pipe := by
  unfold rowData
  have hfront : pipe ∉ (behindName text).takeWhile (· = space) := fun hmem => by
    have hspace := List.mem_takeWhile_imp hmem
    exact absurd hspace (by decide)
  conv_rhs => rw [← List.takeWhile_append_dropWhile (p := (· = space)) (l := behindName text)]
  rw [List.count_append, List.count_eq_zero.2 hfront, Nat.zero_add]

theorem dropWhile_of_find {c : UInt8} {text : Bytes} {i : ℕ} (h : find c text = some i) :
    text.dropWhile (· ≠ c) = text.drop i := by
  obtain ⟨hnot, hsplit⟩ := find_eq_some h
  have hlen : (text.take i).length = i := by
    have hlt := (List.findIdx?_eq_some_iff_getElem.1 h).1
    rw [List.length_take]
    omega
  conv_lhs => rw [hsplit]
  rw [List.dropWhile_append_of_pos fun x hx => by simpa using fun heq : x = c => hnot (heq ▸ hx),
    List.dropWhile_cons_of_neg (by simp)]
  conv_rhs => rw [hsplit, List.drop_append_of_le_length hlen.ge, List.drop_eq_nil_of_le hlen.le]
  rfl

theorem dropWhile_of_notMem {c : UInt8} {text : Bytes} (h : c ∉ text) :
    text.dropWhile (· ≠ c) = [] := by
  rw [List.dropWhile_eq_nil_iff]
  exact fun x hx => by simpa using fun heq : x = c => h (heq ▸ hx)

/-- What an accepted text is made of: a name, and the data of its rows. -/
theorem parseText_eq_ok {text : Bytes} {command : Command} (h : parseText text = .ok command) :
    command.name ≠ [] ∧ space ∉ command.name ∧
      (rowData text = [] ∧ command.rows = [] ∨ rowData text ≠ [] ∧
        List.Forall₂ (fun part row => part ≠ [] ∧ pipe ∉ part ∧ parseRow part = .ok row)
          (parts (rowData text)) command.rows) := by
  unfold parseText at h
  obtain ⟨u, hne, h⟩ := bind_eq_ok h
  have hne := not_of_throwIf hne
  cases hfind : find space (trimLineEnd text) with
  | none =>
    rw [hfind] at h
    cases h
    have hspace := notMem_of_find hfind
    refine ⟨hne, hspace, .inl ⟨?_, rfl⟩⟩
    unfold rowData behindName
    rw [dropWhile_of_notMem hspace]
    rfl
  | some nameEnd =>
    rw [hfind] at h
    obtain ⟨u, hname, h⟩ := bind_eq_ok h
    have hname := not_of_throwIf hname
    have hspace := (find_eq_some hfind).1
    have hdata : rowData text = ((trimLineEnd text).drop nameEnd).dropWhile (· = space) := by
      unfold rowData behindName
      rw [dropWhile_of_find hfind]
    rw [← hdata] at h
    cases hrows : rowData text with
    | nil =>
      rw [hrows] at h
      cases h
      exact ⟨hname, hspace, .inl ⟨rfl, rfl⟩⟩
    | cons c data =>
      rw [hrows] at h
      obtain ⟨rows, hparse, h⟩ := bind_eq_ok h
      cases h
      exact ⟨hname, hspace, .inr ⟨List.cons_ne_nil _ _, parseRows_eq_ok hparse⟩⟩

/-- What holds of the pairs of two lists carries a predicate from one to the other. -/
theorem forall_mem_iff_of_forall₂ {α β : Type*} {R : α → β → Prop} {P : α → Prop} {Q : β → Prop}
    {as : List α} {bs : List β} (h : List.Forall₂ R as bs) (hiff : ∀ a b, R a b → (Q b ↔ P a)) :
    (∀ b ∈ bs, Q b) ↔ ∀ a ∈ as, P a := by
  induction h with
  | nil => exact iff_of_true nofun nofun
  | cons hab _ ih => rw [List.forall_mem_cons, List.forall_mem_cons, hiff _ _ hab, ih]

/-- **No empty row, unless a row is blank.** An accepted command is as its readers expect exactly
when no part of its text between two `|` consists of spaces. -/
theorem noEmptyRow_iff {text : Bytes} {command : Command} (h : parseText text = .ok command) :
    NoEmptyRow text command ↔ ∀ part ∈ parts (rowData text), ¬ Blank part := by
  obtain ⟨hname, hspace, ⟨hnil, hrows⟩ | ⟨hne, hrows⟩⟩ := parseText_eq_ok h
  · refine iff_of_true ⟨hname, hspace, ?_, ?_, ?_⟩ ?_
    · rw [hrows]; exact nofun
    · rw [hrows]; exact nofun
    · rw [if_pos (rowData_eq_nil_iff.1 hnil), hrows]
      rfl
    · rw [hnil]
      exact fun part hpart hblank => hblank.1 (List.mem_singleton.1 hpart)
  · have hlength : command.rows.length = (behindName text).count pipe + 1 := by
      rw [← hrows.length_eq, length_parts, count_rowData]
    have hempty : (∀ row ∈ command.rows, row ≠ []) ↔ ∀ part ∈ parts (rowData text), ¬ Blank part :=
      forall_mem_iff_of_forall₂ hrows fun part row ⟨hpart, hpipe, hrow⟩ => by
        rw [ne_eq, (parseRowLoop_eq_ok hpipe hrow).1, Blank, and_iff_right hpart]
    have hnames : ∀ row ∈ command.rows, ∀ parameter ∈ row, NameAccepted parameter :=
      (forall_mem_iff_of_forall₂ (P := fun _ => True) hrows fun part row ⟨_, hpipe, hrow⟩ =>
        iff_of_true (parseRowLoop_eq_ok hpipe hrow).2 trivial).2 fun _ _ => trivial
    constructor
    · exact fun hwell => hempty.1 hwell.rows_ne_nil
    · intro hparts
      refine ⟨hname, hspace, hempty.2 hparts, hnames, ?_⟩
      rw [if_neg (mt rowData_eq_nil_iff.2 hne), hlength]

/-- `test a=1| |b=2`: the second row is a space. -/
def blankSecondRow : Bytes := "test a=1| |b=2".toUTF8.toList

/-- The text is accepted, with a row that has no parameter. -/
theorem blankRow_accepted : ∃ command, parseText blankSecondRow = .ok command ∧
    ¬ NoEmptyRow blankSecondRow command := by
  let command : Command := {
    name := "test".toUTF8.toList
    rows := [[⟨"a".toUTF8.toList, "1".toUTF8.toList⟩], [], [⟨"b".toUTF8.toList, "2".toUTF8.toList⟩]] }
  exact ⟨command, by decide +kernel, fun h => h.rows_ne_nil [] (by decide) rfl⟩

/-- `test a=1 | b=2` has no blank row, spaces around the separator or not. -/
theorem noEmptyRow_spaces : ∃ command,
    parseText "test a=1 | b=2".toUTF8.toList = .ok command ∧
      NoEmptyRow "test a=1 | b=2".toUTF8.toList command := by
  let command : Command := {
    name := "test".toUTF8.toList
    rows := [[⟨"a".toUTF8.toList, "1".toUTF8.toList⟩], [⟨"b".toUTF8.toList, "2".toUTF8.toList⟩]] }
  have hparse : parseText "test a=1 | b=2".toUTF8.toList = .ok command := by decide +kernel
  exact ⟨command, hparse, (noEmptyRow_iff hparse).2 (by decide +kernel)⟩

end TsCli.CommandParser
