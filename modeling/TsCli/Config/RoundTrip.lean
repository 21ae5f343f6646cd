import TsCli.Command.Codec
import TsCli.Config.Config

/-!
# Saving and loading the configuration

`Save` writes values as they are; `Parse` cuts at line feeds, drops a carriage return at the end of
a line and blanks around a value. A value on a line of its own is read back as `readBack` of it, so
a configuration survives exactly when its texts hold no line feed and are their own `readBack`.
-/

namespace TsCli

open Ascii Lines

namespace Config

variable {F : Type} {io : Threshold F}

/-! ## One line -/

/-- What `Parse` reads for a value on a line of its own. -/
def readBack (value : Bytes) : Bytes := trim ((dropCarriageReturn value).rdropWhile isBlank)

/-- A text that the format can carry. -/
def Storable (value : Bytes) : Prop :=
  lineFeed ∉ value ∧ (∀ c ∈ value.head?, isBlank c = false) ∧
    ∀ c ∈ value.getLast?, isBlank c = false ∧ c ≠ carriageReturn

theorem dropCarriageReturn_sublist (line : Bytes) : (dropCarriageReturn line).Sublist line := by
  unfold dropCarriageReturn
  split_ifs
  · exact List.dropLast_sublist line
  · exact List.Sublist.refl line

theorem dropCarriageReturn_eq_self_iff {line : Bytes} :
    dropCarriageReturn line = line ↔ ∀ c ∈ line.getLast?, c ≠ carriageReturn := by
  unfold dropCarriageReturn
  constructor
  · rintro h c hc rfl
    rw [if_pos (show line.getLast? = some carriageReturn from hc)] at h
    obtain ⟨hne, -⟩ := List.mem_getLast?_eq_getLast hc
    have hlength := congrArg List.length h
    have hpos := List.length_pos_iff.2 hne
    rw [List.length_dropLast] at hlength
    omega
  · intro h
    exact if_neg fun hlast => h carriageReturn hlast rfl

theorem dropCarriageReturn_entry (key value : Bytes) :
    dropCarriageReturn (key ++ equals :: value) = key ++ equals :: dropCarriageReturn value := by
  unfold dropCarriageReturn
  cases value with
  | nil => simp [show equals ≠ carriageReturn by decide]
  | cons c value =>
    simp only [List.getLast?_append, List.getLast?_cons]
    split_ifs with h1 h2 h2 <;> simp_all

theorem readBack_eq_self_iff {value : Bytes} :
    readBack value = value ↔ (∀ c ∈ value.head?, isBlank c = false) ∧
      ∀ c ∈ value.getLast?, isBlank c = false ∧ c ≠ carriageReturn := by
  constructor
  · intro h
    have hread := (trim_sublist (p := isBlank)
      ((dropCarriageReturn value).rdropWhile isBlank)).length_le
    have hblank := (List.rdropWhile_prefix isBlank (dropCarriageReturn value)).length_le
    have hdrop : dropCarriageReturn value = value := by
      refine (dropCarriageReturn_sublist value).eq_of_length_le ?_
      rw [show Lines.trim isBlank _ = value from h] at hread
      exact hread.trans hblank
    have hrdrop : value.rdropWhile isBlank = value := by
      refine (List.rdropWhile_prefix isBlank value).sublist.eq_of_length_le ?_
      rw [show Lines.trim isBlank _ = value from h, hdrop] at hread
      exact hread
    have htrim : Lines.trim isBlank value = value := by
      have h' := h
      unfold readBack trim at h'
      rwa [hdrop, hrdrop] at h'
    obtain ⟨hhead, hlast⟩ := trim_eq_self_iff.1 htrim
    exact ⟨hhead, fun c hc => ⟨hlast c hc, dropCarriageReturn_eq_self_iff.1 hdrop c hc⟩⟩
  · rintro ⟨hhead, hlast⟩
    have hrdrop : value.rdropWhile isBlank = value :=
      List.rdropWhile_eq_self_iff.2 fun hne => by
        simp [hlast _ (List.getLast?_eq_some_getLast hne)]
    unfold readBack trim
    rw [dropCarriageReturn_eq_self_iff.2 fun c hc => (hlast c hc).2, hrdrop]
    exact trim_eq_self_iff.2 ⟨hhead, fun c hc => (hlast c hc).1⟩

theorem storable_iff {value : Bytes} :
    Storable value ↔ lineFeed ∉ value ∧ readBack value = value :=
  and_congr_right fun _ => readBack_eq_self_iff.symm

/-- What the reader needs of a key: no blank, no `=`, no `#` in front. -/
def IsKey (key : Bytes) : Prop :=
  key ≠ [] ∧ key.head? ≠ some numberSign ∧ key.all fun c => c ≠ equals && !isBlank c

instance (key : Bytes) : Decidable (IsKey key) := inferInstanceAs (Decidable (_ ∧ _ ∧ _))

theorem isKey_of_mem {key : Bytes} (h : key ∈ knownKeys) : IsKey key := by
  have hall : knownKeys.all (IsKey ·) = true := by
    simp only [knownKeys, ascii_eq]
    decide
  simpa using List.all_eq_true.1 hall key h

theorem readLine_entry {key value : Bytes} {values : Values} (hkey : key ∈ knownKeys)
    (hnew : values.lookup key = none) (lineNumber : ℕ) :
    readLine values lineNumber (key ++ equals :: value) =
      .ok ((key, readBack value) :: values) := by
  obtain ⟨hne, hsign, hplain⟩ := isKey_of_mem hkey
  have hblank : ∀ c ∈ key, isBlank c = false := fun c hc => by
    simpa using (Bool.and_eq_true_iff.1 (List.all_eq_true.1 hplain c hc)).2
  have hequals : ∀ c ∈ key, c ≠ equals := fun c hc => by
    simpa using (Bool.and_eq_true_iff.1 (List.all_eq_true.1 hplain c hc)).1
  have hkeyTrim : trim key = key := by
    refine trim_eq_self_iff.2 ⟨fun c hc => hblank c (List.mem_of_mem_head? hc), fun c hc => ?_⟩
    exact hblank c (List.mem_of_mem_getLast? hc)
  have hline : trim (dropCarriageReturn (key ++ equals :: value)) =
      key ++ equals :: (dropCarriageReturn value).rdropWhile isBlank := by
    obtain ⟨c, rest, rfl⟩ := List.exists_cons_of_ne_nil hne
    rw [dropCarriageReturn_entry]
    show ((c :: (rest ++ _)).dropWhile isBlank).rdropWhile isBlank = _
    rw [List.dropWhile_cons_of_neg (by simp [hblank c List.mem_cons_self])]
    exact rdropWhile_append_cons (by decide) (c :: rest) _
  obtain ⟨c, rest, rfl⟩ := List.exists_cons_of_ne_nil hne
  have hhead : (c :: rest ++ equals :: (dropCarriageReturn value).rdropWhile isBlank).head? ≠
      some numberSign := hsign
  have hdrop : (c :: rest ++ equals :: (dropCarriageReturn value).rdropWhile isBlank).drop
      ((c :: rest).length + 1) = (dropCarriageReturn value).rdropWhile isBlank := by
    rw [← List.drop_drop, List.drop_left, List.drop_one, List.tail_cons]
  unfold readLine
  simp only [hline]
  rw [if_neg (not_or.2 ⟨by simp, hhead⟩), find_append fun h => hequals _ h rfl]
  dsimp only
  rw [List.take_left, hdrop, hkeyTrim, throwIf_bind_of_not hne,
    throwIf_bind_of_not (not_not.2 hkey), throwIf_bind_of_not (by simp [hnew])]
  rfl

/-- A line that `Parse` skips. -/
def IsRemark (text : Bytes) : Prop :=
  trim (dropCarriageReturn text) = [] ∨
    (trim (dropCarriageReturn text)).head? = some numberSign

instance (text : Bytes) : Decidable (IsRemark text) := inferInstanceAs (Decidable (_ ∨ _))

theorem readLine_remark {text : Bytes} (h : IsRemark text) (values : Values) (lineNumber : ℕ) :
    readLine values lineNumber text = .ok values := by
  unfold readLine
  exact if_pos h

/-! ## All lines -/

/-- The entries that the lines write, as they are read back. -/
def entries (lines : List Line) : Values :=
  lines.filterMap fun
    | .remark _ => none
    | .entry key value => some (key, readBack value)

/-- The lines that `Parse` reads into their entries: remarks, and entries with known keys. -/
def Line.Reads : Line → Prop
  | .remark text => IsRemark text
  | .entry key _ => key ∈ knownKeys

theorem lookup_of_mem {values : Values} (hnodup : (values.map Prod.fst).Nodup) {key value : Bytes}
    (h : (key, value) ∈ values) : values.lookup key = some value := by
  induction values with
  | nil => simp at h
  | cons entry values ih =>
    obtain ⟨hentry, hnodup⟩ := List.nodup_cons.1 (List.map_cons ▸ hnodup)
    rcases List.mem_cons.1 h with rfl | h
    · simp
    · have hne : key ≠ entry.1 := fun he => hentry (he ▸ List.mem_map_of_mem h)
      rw [List.lookup_cons, beq_false_of_ne hne]
      exact ih hnodup h

theorem lookup_eq_none {values : Values} {key : Bytes} (h : key ∉ values.map Prod.fst) :
    values.lookup key = none := by
  rw [List.lookup_eq_none_iff]
  intro entry hentry
  exact bne_iff_ne.2 fun he => h (he ▸ List.mem_map_of_mem hentry)

/-- Lines with different known keys are read into their entries. -/
theorem readLines_lines {lines : List Line} {values : Values} (lineNumber : ℕ)
    (hlines : ∀ line ∈ lines, line.Reads)
    (hnodup : ((entries lines).map Prod.fst ++ values.map Prod.fst).Nodup) :
    readLines values lineNumber (lines.map Line.text) =
      .ok ((entries lines).reverse ++ values) := by
  induction lines generalizing values lineNumber with
  | nil => rfl
  | cons line lines ih =>
    obtain ⟨hline, htail⟩ := List.forall_mem_cons.1 hlines
    cases line with
    | remark text =>
      show (readLine values (lineNumber + 1) text >>= fun values =>
        readLines values (lineNumber + 1) (lines.map Line.text)) = _
      rw [readLine_remark hline]
      exact ih (lineNumber + 1) htail hnodup
    | entry key value =>
      have hnew : key ∉ values.map Prod.fst := fun h => by
        have hcons : (key :: ((entries lines).map Prod.fst ++ values.map Prod.fst)).Nodup := hnodup
        exact (List.nodup_cons.1 hcons).1 (List.mem_append_right _ h)
      show (readLine values (lineNumber + 1) (key ++ equals :: value) >>= fun values =>
        readLines values (lineNumber + 1) (lines.map Line.text)) = _
      rw [readLine_entry hline (lookup_eq_none hnew)]
      have hmoved : ((entries lines).map Prod.fst ++
          (((key, readBack value) :: values).map Prod.fst)).Nodup :=
        (List.perm_middle.nodup_iff).2 hnodup
      refine (ih (lineNumber + 1) htail hmoved).trans ?_
      show _ = Except.ok (((key, readBack value) :: entries lines).reverse ++ values)
      rw [List.reverse_cons, List.append_assoc, List.singleton_append]

/-! ## The lines of a saved configuration -/

section Saved

variable (io) (config : Config F)

/-- The entries of a saved configuration. -/
def savedValues : Values := (entries (saveLines io config)).reverse

theorem reads_saveLines : ∀ line ∈ saveLines io config, line.Reads := by
  unfold saveLines
  split_ifs <;>
    simp only [List.append_nil, List.cons_append, List.nil_append, List.forall_mem_cons,
      Line.Reads] <;>
    (repeat' apply And.intro) <;> first | decide +kernel | simp

theorem keys_saveLines : (entries (saveLines io config)).map Prod.fst =
    if config.lastServer = [] then knownKeys.dropLast else knownKeys := by
  unfold saveLines
  split_ifs <;> rfl

theorem nodup_keys_saveLines : ((entries (saveLines io config)).map Prod.fst).Nodup := by
  have hknown : knownKeys.Nodup := by simp [knownKeys, ascii_inj]
  rw [keys_saveLines]
  split_ifs
  · exact hknown.sublist (List.dropLast_sublist _)
  · exact hknown

/-- Every entry that is written is found as it is read back. -/
theorem lookup_savedValues {key value : Bytes} (h : .entry key value ∈ saveLines io config) :
    (savedValues io config).lookup key = some (readBack value) := by
  refine lookup_of_mem ?_ ?_
  · rw [savedValues, List.map_reverse, List.nodup_reverse]
    exact nodup_keys_saveLines io config
  · exact List.mem_reverse.2 (List.mem_filterMap.2 ⟨_, h, rfl⟩)

theorem lookup_lastServer :
    ((savedValues io config).lookup (ascii "last_server")).getD [] =
      readBack config.lastServer := by
  by_cases h : config.lastServer = []
  · rw [h, lookup_eq_none]
    · rfl
    · rw [savedValues, List.map_reverse, List.mem_reverse, keys_saveLines, if_pos h]
      simp [knownKeys, ascii_inj]
  · have hwritten : .entry (ascii "last_server") config.lastServer ∈ saveLines io config := by
      simp [saveLines, h]
    rw [lookup_savedValues io config hwritten]
    rfl

/-- A saved configuration without line feeds is read into its entries. -/
theorem readLines_save (h : ∀ line ∈ saveLines io config, lineFeed ∉ line.text) :
    readLines [] 0 (splitLines lineFeed (save io config)) = .ok (savedValues io config) := by
  unfold save
  rw [splitLines_join (by simpa using h), readLines_lines 0 (reads_saveLines io config)
    (by simpa using nodup_keys_saveLines io config)]
  exact congrArg Except.ok (List.append_nil _)

end Saved

/-! ## What `Parse` returns -/

/-- What is read never holds a line feed. -/
theorem readLine_plain {values values' : Values} {lineNumber : ℕ} {line : Bytes}
    (h : readLine values lineNumber line = .ok values') (hline : lineFeed ∉ line)
    (hvalues : ∀ entry ∈ values, lineFeed ∉ entry.2) : ∀ entry ∈ values', lineFeed ∉ entry.2 := by
  unfold readLine at h
  dsimp only at h
  split_ifs at h with hskip
  · cases h
    exact hvalues
  cases hfind : CommandParser.find equals (trim (dropCarriageReturn line)) with
  | none => rw [hfind] at h; cases h
  | some separator =>
    rw [hfind] at h
    obtain ⟨-, -, h⟩ := bind_eq_ok h
    obtain ⟨-, -, h⟩ := bind_eq_ok h
    obtain ⟨-, -, h⟩ := bind_eq_ok h
    cases h
    refine List.forall_mem_cons.2 ⟨fun hmem => hline ?_, hvalues⟩
    exact ((trim_sublist _).trans ((List.drop_sublist _ _).trans
      ((trim_sublist _).trans (dropCarriageReturn_sublist line)))).subset hmem

theorem readLines_plain {values values' : Values} {lineNumber : ℕ} {lines : List Bytes}
    (h : readLines values lineNumber lines = .ok values') (hlines : ∀ line ∈ lines, lineFeed ∉ line)
    (hvalues : ∀ entry ∈ values, lineFeed ∉ entry.2) : ∀ entry ∈ values', lineFeed ∉ entry.2 := by
  induction lines generalizing values lineNumber with
  | nil =>
    cases h
    exact hvalues
  | cons line lines ih =>
    obtain ⟨hline, htail⟩ := List.forall_mem_cons.1 hlines
    obtain ⟨next, hnext, h⟩ := bind_eq_ok h
    exact ih h htail (readLine_plain hnext hline hvalues)

theorem nonEmpty?_eq_ok {values : Values} {name message : String} {default value : Bytes}
    (h : nonEmpty? values name message default = .ok value) :
    value = (values.lookup (ascii name)).getD default := by
  unfold nonEmpty? at h
  cases hlookup : values.lookup (ascii name) with
  | none => rw [hlookup] at h; cases h; rfl
  | some found =>
    rw [hlookup] at h
    obtain ⟨-, -, h⟩ := bind_eq_ok h
    cases h
    rfl

/-- The texts of a configuration that the user or the server chose, with the key of each. -/
def texts (config : Config F) : List (Bytes × Bytes) :=
  [(ascii "nickname", config.nickname), (ascii "audio_input", config.audioSettings.input),
    (ascii "audio_output", config.audioSettings.output),
    (ascii "audio_filter", config.audioSettings.captureFilter),
    (ascii "last_server", config.lastServer)]

/-- Every text that is read is the value of its key, or a default without line feeds. -/
theorem texts_of_fromValues {values : Values} {config : Config F}
    (h : fromValues io values = .ok config) : ∀ text ∈ config.texts,
      ∃ default, lineFeed ∉ default ∧ text.2 = (values.lookup text.1).getD default := by
  obtain ⟨nickname, hnickname, h⟩ := bind_eq_ok h
  obtain ⟨initVersion, -, h⟩ := bind_eq_ok h
  obtain ⟨-, -, h⟩ := bind_eq_ok h
  obtain ⟨input, hinput, h⟩ := bind_eq_ok h
  obtain ⟨output, houtput, h⟩ := bind_eq_ok h
  obtain ⟨captureFilter, hcaptureFilter, h⟩ := bind_eq_ok h
  obtain ⟨threshold, -, h⟩ := bind_eq_ok h
  cases h
  simp only [texts, List.forall_mem_cons]
  refine ⟨⟨ascii "ts-cli", ?_, nonEmpty?_eq_ok hnickname⟩,
    ⟨ascii "default", ?_, nonEmpty?_eq_ok hinput⟩,
    ⟨ascii "default", ?_, nonEmpty?_eq_ok houtput⟩,
    ⟨ascii "none", ?_, nonEmpty?_eq_ok hcaptureFilter⟩, ⟨[], by simp, rfl⟩, by simp⟩ <;>
    (rw [ascii_eq]; decide)

/-- **No text that is read holds a line feed.** -/
theorem plain_of_parse {data : Bytes} {config : Config F} (h : parse io data = .ok config) :
    ∀ text ∈ config.texts, lineFeed ∉ text.2 := by
  obtain ⟨values, hvalues, h⟩ := bind_eq_ok h
  intro text htext
  obtain ⟨default, hdefault, htext⟩ := texts_of_fromValues h text htext
  rw [htext]
  cases hlookup : values.lookup text.1 with
  | none => exact hdefault
  | some value =>
    have hmem : (text.1, value) ∈ values := by
      obtain ⟨l₁, l₂, hsplit, -⟩ := List.lookup_eq_some_iff.1 hlookup
      rw [hsplit]
      simp
    exact readLines_plain hvalues (fun _ => notMem_of_mem_splitLines) (by simp) _ hmem

/-! ## The round trip -/

/-- The configurations that `Create` and the setters make out of the default version. -/
inductive Stored (io : Threshold F) : Config F → Prop
  | create {nickname : Bytes} {config : Config F}
      (h : create io { nickname, version := defaultProfile.version } = .ok config) :
      Stored io config
  | setNickname {config config' : Config F} {nickname : Bytes} (hconfig : Stored io config)
      (h : config.setNickname nickname = .ok config') : Stored io config'
  | setAudioSettings {config config' : Config F} {settings : AudioSettings F}
      (hconfig : Stored io config) (h : config.setAudioSettings io settings = .ok config') :
      Stored io config'
  | setLastServer {config config' : Config F} {server : Bytes} (hconfig : Stored io config)
      (h : config.setLastServer server = .ok config') : Stored io config'

/-- What the setters guarantee. -/
structure Checked (io : Threshold F) (config : Config F) : Prop where
  nickname : config.nickname ≠ []
  clientInitVersion : config.clientInitVersion = defaultProfile.version.initVersion
  clientVersion : config.clientVersion = defaultProfile.version.version
  clientPlatform : config.clientPlatform = defaultProfile.version.platform
  clientVersionSignature : config.clientVersionSignature = defaultProfile.version.signature
  input : config.audioSettings.input ≠ []
  output : config.audioSettings.output ≠ []
  captureFilter : config.audioSettings.captureFilter ≠ []
  threshold : io.Accepts config.audioSettings.activationThresholdDb

theorem Stored.checked (hio : io.Documented) {config : Config F} (h : Stored io config) :
    Checked io config := by
  induction h with
  | create h =>
    obtain ⟨_, hnickname, h⟩ := bind_eq_ok h
    cases h
    exact ⟨not_of_throwIf hnickname, rfl, rfl, rfl, rfl,
      show ascii "default" ≠ [] by rw [ascii_eq]; decide,
      show ascii "default" ≠ [] by rw [ascii_eq]; decide,
      show ascii "none" ≠ [] by rw [ascii_eq]; decide, hio.initial⟩
  | setNickname _ h ih =>
    obtain ⟨_, hnickname, h⟩ := bind_eq_ok h
    cases h
    exact { ih with nickname := not_of_throwIf hnickname }
  | setAudioSettings _ h ih =>
    obtain ⟨_, hthreshold, h⟩ := bind_eq_ok h
    obtain ⟨_, htexts, h⟩ := bind_eq_ok h
    cases h
    have hthreshold := not_of_throwIf hthreshold
    obtain ⟨hinput, hrest⟩ := not_or.1 (not_of_throwIf htexts)
    obtain ⟨houtput, hfilter⟩ := not_or.1 hrest
    exact { ih with
      input := hinput
      output := houtput
      captureFilter := hfilter
      threshold := by simpa [Threshold.Accepts] using hthreshold }
  | setLastServer _ h ih =>
    obtain ⟨-, -, h⟩ := bind_eq_ok h
    cases h
    exact { ih with }

/-- The same settings but for the threshold. -/
def SameSettings (a b : Config F) : Prop :=
  { a with audioSettings :=
      { a.audioSettings with
        activationThresholdDb := b.audioSettings.activationThresholdDb } } = b

theorem SameSettings.texts_eq {a b : Config F} (h : a.SameSettings b) : a.texts = b.texts := by
  rw [← h]
  rfl

/-- The text of a number can be stored. -/
theorem storable_of_number {text : Bytes} (h : ∀ c ∈ text, c ∈ ascii "0123456789+-.e") :
    Storable text := by
  have hall : (ascii "0123456789+-.e").all
      (fun c => !isBlank c && c ≠ carriageReturn && c ≠ lineFeed) = true := by
    rw [ascii_eq]
    decide
  have hplain : ∀ c ∈ text, isBlank c = false ∧ c ≠ carriageReturn ∧ c ≠ lineFeed :=
    fun c hc => by simpa [and_assoc] using List.all_eq_true.1 hall c (h c hc)
  refine ⟨fun hmem => (hplain _ hmem).2.2 rfl, fun c hc => ?_, fun c hc => ?_⟩
  · exact (hplain c (List.mem_of_mem_head? hc)).1
  · exact ⟨(hplain c (List.mem_of_mem_getLast? hc)).1, (hplain c (List.mem_of_mem_getLast? hc)).2.1⟩

/-- A text that is not empty has its line. -/
theorem written_of_mem {config : Config F} {text : Bytes × Bytes} (htext : text ∈ config.texts)
    (hne : text.2 ≠ []) : .entry text.1 text.2 ∈ saveLines io config := by
  simp only [texts, List.mem_cons, List.not_mem_nil, or_false] at htext
  rcases htext with rfl | rfl | rfl | rfl | rfl <;> simp [saveLines, hne]

theorem nonEmpty?_of_lookup {values : Values} {name message : String} {default value : Bytes}
    (h : values.lookup (ascii name) = some value) (hne : value ≠ []) :
    nonEmpty? values name message default = .ok value := by
  unfold nonEmpty?
  rw [h]
  exact throwIf_bind_of_not hne _

section Save

variable {config : Config F} (hio : io.Documented) (hconfig : Checked io config)
include hio hconfig

/-- Every line that `Save` writes is one line, when the texts hold no line feed. -/
theorem plain_saveLines (h : ∀ text ∈ config.texts, lineFeed ∉ text.2) :
    ∀ line ∈ saveLines io config, lineFeed ∉ line.text := by
  have hthreshold := (storable_of_number (hio.plain _ hconfig.threshold)).1
  simp only [texts, List.forall_mem_cons] at h
  obtain ⟨hnickname, hinput, houtput, hfilter, hserver, -⟩ := h
  unfold saveLines
  rw [hconfig.clientInitVersion, hconfig.clientVersion, hconfig.clientPlatform,
    hconfig.clientVersionSignature]
  split_ifs <;>
    simp only [List.append_nil, List.cons_append, List.nil_append, List.forall_mem_cons] <;>
    simp only [Line.text, List.mem_append, List.mem_cons, not_or] <;>
    (repeat' apply And.intro) <;> first | assumption | decide +kernel

/-- A configuration of storable texts is read back, with the threshold as it is read. -/
theorem fromValues_savedValues (h : ∀ text ∈ config.texts, Storable text.2) :
    ∃ loaded, fromValues io (savedValues io config) = .ok loaded ∧ loaded.SameSettings config := by
  have hsame : ∀ text ∈ config.texts, readBack text.2 = text.2 := fun text htext =>
    (storable_iff.1 (h text htext)).2
  simp only [texts, List.forall_mem_cons] at hsame
  obtain ⟨hnickname, hinput, houtput, hfilter, hserver, -⟩ := hsame
  have hthreshold := (storable_iff.1 (storable_of_number (hio.plain _ hconfig.threshold))).2
  obtain ⟨read, hread, haccepts⟩ := hio.reads _ hconfig.threshold
  have hlookup : ∀ key value, .entry key value ∈ saveLines io config → readBack value = value →
      (savedValues io config).lookup key = some value := fun key value hmem hback =>
    hback ▸ lookup_savedValues io config hmem
  have hversion : initVersion? (savedValues io config) defaultProfile.version.initVersion =
      .ok config.clientInitVersion := by
    unfold initVersion?
    rw [hlookup _ (ascii "0x" ++ numberText 16 config.clientInitVersion.toNat)
      (by simp [saveLines]) (by rw [hconfig.clientInitVersion]; decide +kernel),
      hconfig.clientInitVersion]
    decide +kernel
  have hfloat : parseFloat io (io.write config.audioSettings.activationThresholdDb)
      "audio_activation_threshold_db" = .ok read := by
    unfold parseFloat
    rw [hread]
    exact throwIf_bind_of_not (by simp [haccepts.1]) _
  have hthreshold? : threshold? io (savedValues io config) io.initial = .ok read := by
    unfold threshold?
    rw [hlookup _ _ (by simp [saveLines]) hthreshold]
    dsimp only
    rw [hfloat]
    exact throwIf_bind_of_not (by simp [haccepts.2]) _
  refine ⟨{ config with audioSettings :=
    { config.audioSettings with activationThresholdDb := read } }, ?_, rfl⟩
  unfold fromValues
  dsimp only
  rw [nonEmpty?_of_lookup (hlookup _ _ (by simp [saveLines]) hnickname) hconfig.nickname, hversion,
    nonEmpty?_of_lookup (hlookup _ _ (by simp [saveLines]) hinput) hconfig.input,
    nonEmpty?_of_lookup (hlookup _ _ (by simp [saveLines]) houtput) hconfig.output,
    nonEmpty?_of_lookup (hlookup _ _ (by simp [saveLines]) hfilter) hconfig.captureFilter,
    hthreshold?, lookup_lastServer, hserver,
    hlookup (ascii "client_version") config.clientVersion (by simp [saveLines])
      (by rw [hconfig.clientVersion]; decide +kernel),
    hlookup (ascii "client_platform") config.clientPlatform (by simp [saveLines])
      (by rw [hconfig.clientPlatform]; decide +kernel),
    hlookup (ascii "client_version_sign") config.clientVersionSignature (by simp [saveLines])
      (by rw [hconfig.clientVersionSignature]; decide +kernel)]
  simp only [bind, Except.bind, pure, Except.pure, profile, throwIf_of_not _ hconfig.nickname,
    Option.getD_some]

end Save

/-- **What survives.** A configuration that `Create` and the setters made is read back with the
same settings exactly when each of its texts holds no line feed, has no blank at an end and does
not end in a carriage return. -/
theorem parse_save_iff (hio : io.Documented) {config : Config F} (h : Stored io config) :
    (∃ loaded, parse io (save io config) = .ok loaded ∧ loaded.SameSettings config) ↔
      ∀ text ∈ config.texts, Storable text.2 := by
  have hconfig := h.checked hio
  constructor
  · rintro ⟨loaded, hloaded, hsame⟩ text htext
    have hplain : ∀ text ∈ config.texts, lineFeed ∉ text.2 :=
      hsame.texts_eq ▸ plain_of_parse hloaded
    refine storable_iff.2 ⟨hplain text htext, ?_⟩
    obtain ⟨values, hvalues, hfrom⟩ := bind_eq_ok hloaded
    rw [readLines_save io config (plain_saveLines hio hconfig hplain)] at hvalues
    cases hvalues
    obtain ⟨default, -, hread⟩ := texts_of_fromValues hfrom text (hsame.texts_eq ▸ htext)
    by_cases hempty : text.2 = []
    · rw [hempty]
      rfl
    · rw [lookup_savedValues io config (written_of_mem htext hempty)] at hread
      exact hread.symm
  · intro hstorable
    obtain ⟨loaded, hloaded, hsame⟩ := fromValues_savedValues hio hconfig hstorable
    refine ⟨loaded, ?_, hsame⟩
    unfold parse
    rw [readLines_save io config
      (plain_saveLines hio hconfig fun text htext => (hstorable text htext).1)]
    exact hloaded

/-! ## Thresholds of whole decibels -/

/-- Thresholds that are whole numbers, with the texts that a stream writes for them. -/
def wholeDecibels : Threshold ℤ where
  write value := if value < 0 then minus :: numberText 10 value.natAbs else numberText 10 value.natAbs
  fromChars
    | [] => none
    | c :: text =>
      if c = minus then (TsCli.fromChars 10 text).map fun n => (-n, [])
      else (TsCli.fromChars 10 (c :: text)).map fun n => (n, [])
  isFinite _ := true
  below value := value < -100
  above value := 0 < value
  initial := -45

theorem documented_wholeDecibels : wholeDecibels.Documented := by
  have hrange : ∀ value, wholeDecibels.Accepts value →
      ∃ n : ℕ, n < 101 ∧ value = -(n : ℤ) := by
    intro value h
    obtain ⟨-, hbelow, habove⟩ := h
    have h1 : ¬ value < -100 := by simpa [wholeDecibels] using hbelow
    have h2 : ¬ 0 < value := by simpa [wholeDecibels] using habove
    exact ⟨value.natAbs, by omega, by omega⟩
  have hplain : ∀ n : ℕ, n < 101 → (wholeDecibels.write (-(n : ℤ))).all
      (· ∈ ascii "0123456789+-.e") = true := by decide +kernel
  have hreads : ∀ n : ℕ, n < 101 → wholeDecibels.fromChars (wholeDecibels.write (-(n : ℤ))) =
      some (-(n : ℤ), []) := by decide +kernel
  refine ⟨by decide, fun value h c hc => ?_, fun value h => ?_⟩
  · obtain ⟨n, hn, rfl⟩ := hrange value h
    simpa using List.all_eq_true.1 (hplain n hn) c hc
  · obtain ⟨n, hn, rfl⟩ := hrange value h
    exact ⟨_, hreads n hn, h⟩

/-- A configuration with a name, devices and a server. -/
def chosen : Config ℤ where
  nickname := ascii "uhinf"
  clientInitVersion := defaultProfile.version.initVersion
  clientVersion := defaultProfile.version.version
  clientPlatform := defaultProfile.version.platform
  clientVersionSignature := defaultProfile.version.signature
  audioSettings :=
    { input := ascii "alsa_input.test"
      output := ascii "alsa_output.test"
      captureFilter := ascii "rnnoise"
      activationThresholdDb := -42 }
  lastServer := ascii "voice.example.net:9987"

theorem stored_chosen : Stored wholeDecibels chosen := by
  have hcreate : create wholeDecibels
      { nickname := ascii "uhinf", version := defaultProfile.version } = .ok { chosen with
        audioSettings := { activationThresholdDb := -45 }, lastServer := [] } := by decide +kernel
  have haudio : setAudioSettings wholeDecibels { chosen with
      audioSettings := { activationThresholdDb := -45 }, lastServer := [] } chosen.audioSettings =
        .ok { chosen with lastServer := [] } := by decide +kernel
  have hserver : setLastServer { chosen with lastServer := [] } chosen.lastServer =
      .ok chosen := by decide +kernel
  exact .setLastServer (.setAudioSettings (.create hcreate) haudio) hserver

/-- A chosen configuration survives. -/
theorem parse_save_chosen : ∃ loaded,
    parse wholeDecibels (save wholeDecibels chosen) = .ok loaded ∧ loaded.SameSettings chosen := by
  refine (parse_save_iff documented_wholeDecibels stored_chosen).2 fun text htext => ?_
  have hall : chosen.texts.all (fun text => lineFeed ∉ text.2 ∧ readBack text.2 = text.2) = true := by
    decide +kernel
  exact storable_iff.2 (by simpa using List.all_eq_true.1 hall text htext)

/-- A server that names the client with a line feed in it leaves a file that `Parse` rejects. -/
theorem parse_save_lineFeed : ¬ ∀ (F : Type) (io : Threshold F), io.Documented →
    ∀ config : Config F, Stored io config →
      ∃ loaded, parse io (save io config) = .ok loaded ∧ loaded.SameSettings config := by
  intro h
  let nickname : Bytes := ascii "uhinf" ++ lineFeed :: ascii "audio_input=none"
  have hrenamed : chosen.setNickname nickname = .ok { chosen with nickname } := by decide +kernel
  have hstored : Stored wholeDecibels { chosen with nickname } :=
    .setNickname stored_chosen hrenamed
  obtain ⟨loaded, hloaded, -⟩ := h ℤ wholeDecibels documented_wholeDecibels _ hstored
  have hrejected : parse wholeDecibels (save wholeDecibels { chosen with nickname }) =
      .error (.runtimeError "Duplicate config key: audio_input") := by decide +kernel
  rw [hrejected] at hloaded
  cases hloaded

end Config

end TsCli
