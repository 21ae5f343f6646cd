import TsCli.Config.UserFiles

/-!
# The settings of different people

A file that `Save` wrote for a volume of whole hundredths is read back as what was saved. With that,
and because paths are different for different ids, every `Load` and every `Save` that returns is one
of the `UserConfigStore` that the files come to, so after any calls the files hold, for every id, the
settings of the last call for it that returned.
-/

namespace TsCli

open Ascii Lines

namespace UserFiles

open UserConfigStore

variable {float : FloatFunctions} {directory : Bytes}

/-! ## One file -/

theorem plain_of_validate {d : Decibels Binary32} {uniqueId : Bytes} {config : UserConfig Binary32}
    (h : validate d uniqueId config = .ok ()) :
    uniqueId ≠ [] ∧ lineFeed ∉ uniqueId ∧ carriageReturn ∉ uniqueId := by
  obtain ⟨_, hempty, h⟩ := bind_eq_ok h
  obtain ⟨_, hbytes, -⟩ := bind_eq_ok h
  obtain ⟨-, hrest⟩ := not_or.1 (not_of_throwIf hbytes)
  exact ⟨not_of_throwIf hempty, not_or.1 hrest⟩

theorem units_minVolumeDb (float : FloatFunctions) :
    float.decibels.minVolumeDb.units = -60 * 2 ^ 149 := by
  show Binary32.units ⟨true, 0x42700000, _⟩ = _
  decide +kernel

theorem units_maxVolumeDb (float : FloatFunctions) :
    float.decibels.maxVolumeDb.units = 12 * 2 ^ 149 := by
  show Binary32.units ⟨false, 0x41400000, _⟩ = _
  decide +kernel

/-- A volume between the limits is finite and of limited magnitude. -/
theorem magnitude_le_of_inside {x : Binary32} (h : float.decibels.outside x = false) :
    x.bits < Binary32.infinity ∧ Binary32.magnitude x.bits ≤ 60 * 2 ^ 149 := by
  have hlimits := h
  simp only [Decibels.outside, Bool.or_eq_false_iff, Bool.not_eq_false'] at hlimits
  obtain ⟨⟨hfinite, hmin⟩, hmax⟩ := hlimits
  have hbits : x.bits < Binary32.infinity := of_decide_eq_true hfinite
  have hordered : Binary32.ordered x float.decibels.minVolumeDb = true ∧
      Binary32.ordered float.decibels.maxVolumeDb x = true := by
    have h1 : float.decibels.minVolumeDb.bits ≤ Binary32.infinity := by
      show 0x42700000 ≤ Binary32.infinity
      decide
    have h2 : float.decibels.maxVolumeDb.bits ≤ Binary32.infinity := by
      show 0x41400000 ≤ Binary32.infinity
      decide
    simp [Binary32.ordered, hbits.le, h1, h2]
  have hmin : ¬ x.units < float.decibels.minVolumeDb.units := fun hlt => by
    have : Binary32.lt x float.decibels.minVolumeDb = true := by simp [Binary32.lt, hordered.1, hlt]
    rw [show float.decibels.lt = Binary32.lt from rfl, this] at hmin
    cases hmin
  have hmax : ¬ float.decibels.maxVolumeDb.units < x.units := fun hlt => by
    have : Binary32.lt float.decibels.maxVolumeDb x = true := by simp [Binary32.lt, hordered.2, hlt]
    rw [show float.decibels.lt = Binary32.lt from rfl, this] at hmax
    cases hmax
  rw [units_minVolumeDb] at hmin
  rw [units_maxVolumeDb] at hmax
  refine ⟨hbits, ?_⟩
  unfold Binary32.units at hmin hmax
  split_ifs at hmin hmax <;> omega

/-- **The text of a volume is read back.** -/
theorem parseFloat_fixedText {x : Binary32} (hinside : float.decibels.outside x = false)
    (hdecimal : x.IsDecimal 2) : parseFloat (Binary32.fixedText 2 x) = .ok x := by
  obtain ⟨hfinite, hmagnitude⟩ := magnitude_le_of_inside hinside
  obtain ⟨n, hn⟩ := hdecimal
  have hplaces : 10 ^ 2 < 2 ^ 149 := by decide
  have hlt : n < 2 ^ 23 := by
    refine Binary32.lt_of_magnitude_lt hplaces ?_
    rw [← hn]
    omega
  unfold parseFloat
  rw [Binary32.fromChars_fixedText hlt hplaces hn hfinite]
  refine throwIf_bind_of_not ?_ _
  simp [Binary32.isFinite, hfinite]

theorem readLine_entry {path uniqueId key value : Bytes} {s : UserConfig Binary32 × Bool}
    (hkey : Config.IsKey key) (hvalue : carriageReturn ∉ value) :
    readLine path uniqueId s (key ++ equals :: value) = readEntry uniqueId s key value := by
  obtain ⟨hne, hsign, hplain⟩ := hkey
  have hequals : equals ∉ key := fun h => by
    simpa using List.all_eq_true.1 hplain equals h
  have hdrop : Config.dropCarriageReturn (key ++ equals :: value) = key ++ equals :: value := by
    rw [Config.dropCarriageReturn_entry, Config.dropCarriageReturn_eq_self_iff.2]
    rintro c hc rfl
    exact hvalue (List.mem_of_mem_getLast? hc)
  obtain ⟨c, rest, rfl⟩ := List.exists_cons_of_ne_nil hne
  have hvalue : (c :: rest ++ equals :: value).drop ((c :: rest).length + 1) = value := by
    rw [← List.drop_drop, List.drop_left, List.drop_one, List.tail_cons]
  have hhead : (c :: rest ++ equals :: value).head? ≠ some numberSign := hsign
  unfold readLine
  simp only [hdrop]
  rw [if_neg (not_or.2 ⟨by simp, hhead⟩), find_append hequals]
  dsimp only
  rw [List.take_left, hvalue]

theorem notMem_fixedText {x : Binary32} (hfinite : x.bits < Binary32.infinity) {c : UInt8}
    (hminus : c ≠ Binary32.minus) (hpoint : c ≠ Decimal.point) (hdigit : Decimal.isDigit c = false) :
    c ∉ Binary32.fixedText 2 x := by
  intro h
  rcases Binary32.mem_fixedText hfinite h with rfl | rfl | h
  · exact hminus rfl
  · exact hpoint rfl
  · rw [hdigit] at h
    cases h

/-- **What `Save` writes is read back as what was saved.** -/
theorem readData_saveText {uniqueId : Bytes} {config : UserConfig Binary32} (path : Bytes)
    (hvalid : validate float.decibels uniqueId config = .ok ()) (hdecimal : config.volumeDb.IsDecimal 2) :
    readData float path uniqueId (saveText uniqueId config) = .ok config := by
  obtain ⟨-, hlineFeed, hreturn⟩ := plain_of_validate hvalid
  have hinside := inside_of_validate hvalid
  have hfinite := (magnitude_le_of_inside hinside).1
  have hplain : ∀ line ∈ saveLines uniqueId config, lineFeed ∉ line := by
    have hvolume : lineFeed ∉ Binary32.fixedText 2 config.volumeDb :=
      notMem_fixedText hfinite (by decide) (by decide) (by decide)
    have hkeys : lineFeed ∉ ascii "# ts-cli remote user settings" ∧
        lineFeed ∉ ascii "identity_uid" ∧ lineFeed ∉ ascii "volume_db" ∧ lineFeed ∉ ascii "muted" ∧
          lineFeed ∉ ascii (if config.muted then "true" else "false") ∧ lineFeed ≠ equals := by
      cases config.muted <;> decide +kernel
    obtain ⟨hremark, huid, hvolumeKey, hmutedKey, hmuted, hequals⟩ := hkeys
    have hentry : ∀ {key value : Bytes}, lineFeed ∉ key → lineFeed ∉ value →
        lineFeed ∉ key ++ equals :: value := fun hkey hvalue hmem =>
      (List.mem_append.1 hmem).elim hkey fun hmem => (List.mem_cons.1 hmem).elim hequals hvalue
    simp only [saveLines, List.forall_mem_cons]
    exact ⟨hremark, hentry huid hlineFeed, hentry hvolumeKey hvolume, hentry hmutedKey hmuted, nofun⟩
  have hremark : ∀ s, readLine path uniqueId s (ascii "# ts-cli remote user settings") = .ok s :=
    fun s => if_pos (.inr (by decide +kernel))
  have huid : ∀ s, readLine path uniqueId s (ascii "identity_uid" ++ equals :: uniqueId) =
      .ok (s.1, true) := fun ⟨config', sawUid⟩ => by
    rw [readLine_entry (by decide +kernel) hreturn]
    unfold readEntry
    dsimp only
    rw [if_pos rfl]
    exact throwIf_bind_of_not (not_not.2 rfl) _
  have hvolume : ∀ s, readLine path uniqueId s
      (ascii "volume_db" ++ equals :: Binary32.fixedText 2 config.volumeDb) =
        .ok ({ s.1 with volumeDb := config.volumeDb }, s.2) := fun ⟨config', sawUid⟩ => by
    rw [readLine_entry (by decide +kernel)
      (notMem_fixedText hfinite (by decide) (by decide) (by decide))]
    unfold readEntry
    dsimp only
    rw [if_neg (by decide +kernel), if_pos rfl, parseFloat_fixedText hinside hdecimal]
    rfl
  have hmuted : ∀ s, readLine path uniqueId s
      (ascii "muted" ++ equals :: ascii (if config.muted then "true" else "false")) =
        .ok ({ s.1 with muted := config.muted }, s.2) := fun ⟨config', sawUid⟩ => by
    have hparse : parseBoolean (ascii (if config.muted then "true" else "false")) =
        .ok config.muted := by
      cases config.muted <;> decide +kernel
    rw [readLine_entry (by decide +kernel) (by cases config.muted <;> decide +kernel)]
    unfold readEntry
    dsimp only
    rw [if_neg (by decide +kernel), if_neg (by decide +kernel), if_pos rfl, hparse]
    rfl
  unfold readData saveText
  rw [splitLines_join hplain]
  unfold saveLines
  rw [List.foldlM_cons, hremark]
  show (List.foldlM _ _ (_ :: _) >>= _) = _
  rw [List.foldlM_cons, huid]
  show (List.foldlM _ _ (_ :: _) >>= _) = _
  rw [List.foldlM_cons, hvolume]
  show (List.foldlM _ _ (_ :: _) >>= _) = _
  rw [List.foldlM_cons, hmuted]
  rfl

/-! ## All files -/

/-- What a file comes to. -/
def parsed (float : FloatFunctions) (path uniqueId data : Bytes) :
    Except Failure (UserConfig Binary32) := do
  throwIf (maxUserConfigSize < data.length) ("Secure file is too large: " ++ Config.shown path)
  readData float path uniqueId data

/-- What the files come to. -/
def contents (float : FloatFunctions) (directory : Bytes) (files : UserFiles) :
    UserConfigStore Binary32 := fun uniqueId =>
  match pathFor directory uniqueId with
  | .error _ => none
  | .ok path => (files path).map (parsed float path uniqueId)

theorem contents_of_pathFor {files : UserFiles} {uniqueId path : Bytes}
    (h : pathFor directory uniqueId = .ok path) :
    contents float directory files uniqueId = (files path).map (parsed float path uniqueId) := by
  unfold contents
  rw [h]

/-- **Loading a file is loading what the files come to.** -/
theorem load_eq (files : UserFiles) (uniqueId : Bytes) : load float directory files uniqueId =
    UserConfigStore.load float.decibels (contents float directory files) uniqueId := by
  unfold load UserConfigStore.load
  cases hvalid : validate float.decibels uniqueId (defaultConfig float.decibels) with
  | error e => rfl
  | ok u =>
    obtain ⟨path, hpath⟩ := exists_pathFor directory (plain_of_validate hvalid).1
    rw [contents_of_pathFor hpath, hpath]
    show (readSecureFile files path maxUserConfigSize >>= _) = _
    unfold readSecureFile
    cases files path with
    | none => rfl
    | some data =>
      rw [Option.map_some]
      unfold parsed
      dsimp only
      by_cases hsize : maxUserConfigSize < data.length
      · rw [throwIf_of_pos _ hsize]
        rfl
      · rw [throwIf_of_not _ hsize]
        rfl

/-- **Saving a file is saving into what the files come to.** -/
theorem save_eq {fault : Option String} {files files' : UserFiles} {uniqueId : Bytes}
    {config : UserConfig Binary32} (hdecimal : config.volumeDb.IsDecimal 2)
    (hshort : (saveText uniqueId config).length ≤ maxUserConfigSize)
    (h : save float directory fault files uniqueId config = .ok files') :
    UserConfigStore.save float.decibels (contents float directory files) uniqueId config =
      .ok (contents float directory files') := by
  obtain ⟨u, hvalid, h⟩ := bind_eq_ok h
  obtain ⟨path, hpath, h⟩ := bind_eq_ok h
  obtain ⟨data?, hfiles, hdata⟩ : ∃ data?, files' = Function.update files path data? ∧
      data?.map (parsed float path uniqueId) =
        if isDefault float.decibels config then none else some (.ok config) := by
    by_cases hdefault : isDefault float.decibels config = true
    · rw [if_pos hdefault] at h
      cases fault with
      | some message => cases h
      | none =>
        cases h
        exact ⟨none, rfl, by rw [if_pos hdefault]; rfl⟩
    · rw [if_neg hdefault] at h
      cases fault with
      | some message => cases h
      | none =>
        cases h
        refine ⟨some (saveText uniqueId config), rfl, ?_⟩
        have hparsed : parsed float path uniqueId (saveText uniqueId config) = .ok config := by
          unfold parsed
          rw [throwIf_bind_of_not (not_lt.2 hshort), readData_saveText path hvalid hdecimal]
        rw [if_neg hdefault, Option.map_some, hparsed]
  have hcontents : contents float directory files' = Function.update
      (contents float directory files) uniqueId
        (if isDefault float.decibels config then none else some (.ok config)) := by
    funext uid
    by_cases huid : uid = uniqueId
    · rw [huid, Function.update_self, contents_of_pathFor hpath, hfiles, Function.update_self, hdata]
    · rw [Function.update_of_ne huid]
      unfold contents
      cases hpath' : pathFor directory uid with
      | error e => rfl
      | ok path' =>
        have hne : path' ≠ path := fun hsame => huid (pathFor_inj hpath' (hsame ▸ hpath))
        show (files' path').map _ = (files path').map _
        rw [hfiles, Function.update_of_ne hne]
  unfold UserConfigStore.save
  rw [hvalid, hcontents]
  rfl

/-! ## Runs -/

/-- A call of `Save` with a volume of whole hundredths and a file that can be read. The system may
refuse what it asks for. -/
structure SaveCall where
  uniqueId : Bytes
  config : UserConfig Binary32
  fault : Option String := none
  hundredths : config.volumeDb.IsDecimal 2
  short : (saveText uniqueId config).length ≤ maxUserConfigSize

/-- The call, on the files and the calls so far that returned. -/
def SaveCall.run (float : FloatFunctions) (directory : Bytes) (s : UserFiles × List SaveCall)
    (call : SaveCall) : UserFiles × List SaveCall :=
  match save float directory call.fault s.1 call.uniqueId call.config with
  | .ok files => (files, s.2 ++ [call])
  | .error _ => s

/-- Calls one after the other: the files, and the calls that returned. -/
def runSaves (float : FloatFunctions) (directory : Bytes) (files : UserFiles)
    (calls : List SaveCall) : UserFiles × List SaveCall :=
  calls.foldl (SaveCall.run float directory) (files, [])

/-- The settings of the last of the calls for an id. -/
def lastSaved? (calls : List SaveCall) (uniqueId : Bytes) : Option (UserConfig Binary32) :=
  (calls.reverse.find? fun call => call.uniqueId = uniqueId).map SaveCall.config

theorem lastSaved?_concat (calls : List SaveCall) (call : SaveCall) :
    lastSaved? (calls ++ [call]) =
      Function.update (lastSaved? calls) call.uniqueId (some call.config) := by
  funext uid
  unfold lastSaved?
  rw [List.reverse_concat, List.find?_cons]
  by_cases huid : uid = call.uniqueId
  · rw [huid, Function.update_self, decide_eq_true rfl]
    rfl
  · rw [Function.update_of_ne huid, decide_eq_false (Ne.symm huid)]

/-- The same settings, as `==` compares them. -/
def Same (a b : UserConfig Binary32) : Prop :=
  Binary32.eq a.volumeDb b.volumeDb = true ∧ a.muted = b.muted

/-- The files come to the settings of the calls that returned, all of which passed the check. -/
structure Holds (float : FloatFunctions) (directory : Bytes) (s : UserFiles × List SaveCall) :
    Prop where
  contents_eq : ∀ uid, contents float directory s.1 uid = match lastSaved? s.2 uid with
    | none => none
    | some config => if isDefault float.decibels config then none else some (.ok config)
  valid : ∀ call ∈ s.2, validate float.decibels call.uniqueId call.config = .ok ()

theorem holds_run {s : UserFiles × List SaveCall} (h : Holds float directory s) (call : SaveCall) :
    Holds float directory (call.run float directory s) := by
  unfold SaveCall.run
  cases hsave : save float directory call.fault s.1 call.uniqueId call.config with
  | error e => exact h
  | ok files =>
    obtain ⟨u, hvalid, hstore⟩ := bind_eq_ok (save_eq call.hundredths call.short hsave)
    have hcontents := Except.ok.inj hstore
    refine ⟨fun uid => ?_, fun call' hcall => ?_⟩
    · show contents float directory files uid = _
      rw [← hcontents, lastSaved?_concat]
      by_cases huid : uid = call.uniqueId
      · rw [huid, Function.update_self, Function.update_self]
      · rw [Function.update_of_ne huid, Function.update_of_ne huid]
        exact h.contents_eq uid
    · rcases List.mem_append.1 hcall with hcall | hcall
      · exact h.valid call' hcall
      · rw [List.mem_singleton.1 hcall]
        exact hvalid

theorem holds_foldl {s : UserFiles × List SaveCall} (h : Holds float directory s)
    (calls : List SaveCall) :
    Holds float directory (calls.foldl (SaveCall.run float directory) s) := by
  induction calls generalizing s with
  | nil => exact h
  | cons call calls ih => exact ih (holds_run h call)

/-- No user has a file yet. -/
def Fresh (directory : Bytes) (files : UserFiles) : Prop :=
  ∀ uid path, pathFor directory uid = .ok path → files path = none

theorem holds_runSaves {files : UserFiles} (h : Fresh directory files) (calls : List SaveCall) :
    Holds float directory (runSaves float directory files calls) := by
  refine holds_foldl ⟨fun uid => ?_, fun _ hcall => absurd hcall List.not_mem_nil⟩ calls
  show contents float directory files uid = none
  unfold contents
  cases hpath : pathFor directory uid with
  | error e => rfl
  | ok path =>
    show (files path).map _ = none
    rw [h uid path hpath]
    rfl

theorem valid_lastSaved {s : UserFiles × List SaveCall} (h : Holds float directory s) {uid : Bytes}
    {config : UserConfig Binary32} (hlast : lastSaved? s.2 uid = some config) :
    validate float.decibels uid config = .ok () := by
  obtain ⟨call, hcall, rfl⟩ := Option.map_eq_some_iff.1 hlast
  have hmem := List.mem_reverse.1 (List.mem_of_find?_eq_some hcall)
  have huid : call.uniqueId = uid := by simpa using List.find?_some hcall
  rw [← huid]
  exact h.valid call hmem

theorem Same.refl_of_inside {config : UserConfig Binary32}
    (h : float.decibels.outside config.volumeDb = false) : Same config config := by
  have hfinite := (magnitude_le_of_inside h).1
  exact ⟨by simp [Binary32.eq, Binary32.ordered, hfinite.le], rfl⟩

/-- Default settings are the ones that `Load` starts with. -/
theorem same_default {config : UserConfig Binary32} (h : isDefault float.decibels config = true) :
    Same (defaultConfig float.decibels) config := by
  obtain ⟨hvolume, hmuted⟩ := Bool.and_eq_true_iff.1 h
  have hvolume : Binary32.eq config.volumeDb float.decibels.zero = true := hvolume
  obtain ⟨hordered, hunits⟩ := Bool.and_eq_true_iff.1 hvolume
  obtain ⟨hleft, hright⟩ := Bool.and_eq_true_iff.1 hordered
  refine ⟨?_, (by simpa using hmuted : config.muted = false).symm⟩
  show Binary32.eq float.decibels.zero config.volumeDb = true
  refine Bool.and_eq_true_iff.2 ⟨Bool.and_eq_true_iff.2 ⟨hright, hleft⟩, ?_⟩
  exact decide_eq_true (of_decide_eq_true hunits).symm

/-- **What is loaded after any calls.** -/
theorem exists_load {s : UserFiles × List SaveCall} (h : Holds float directory s) {uid : Bytes}
    (hvalid : validate float.decibels uid (defaultConfig float.decibels) = .ok ()) :
    ∃ loaded, load float directory s.1 uid = .ok loaded ∧
      Same loaded ((lastSaved? s.2 uid).getD (defaultConfig float.decibels)) := by
  rw [load_eq]
  unfold UserConfigStore.load
  rw [hvalid, h.contents_eq]
  cases hlast : lastSaved? s.2 uid with
  | none =>
    exact ⟨_, rfl, Same.refl_of_inside (inside_of_validate hvalid)⟩
  | some config =>
    have hconfig := valid_lastSaved h hlast
    have hinside := inside_of_validate hconfig
    rw [Option.getD_some]
    dsimp only
    split_ifs with hdefault
    · exact ⟨_, rfl, same_default hdefault⟩
    · refine ⟨config, ?_, Same.refl_of_inside hinside⟩
      show (validate float.decibels uid config >>= _) = _
      rw [hconfig]
      rfl

/-- The characters of file names. -/
def nameCharacters : Bytes :=
  ascii "abcdefghijklmnopqrstuvwxyzABCDEFGHIJKLMNOPQRSTUVWXYZ0123456789-_.%"

theorem mem_nameCharacters {c : UInt8} (h : isSafe c = true ∨ c = 0x25) : c ∈ nameCharacters := by
  have hall : ∀ n < 256, isSafe (UInt8.ofNat n) = true ∨ UInt8.ofNat n = 0x25 →
      UInt8.ofNat n ∈ nameCharacters := by decide +kernel
  have hbyte := hall c.toNat c.toNat_lt
  rw [UInt8.ofNat_toNat] at hbyte
  exact hbyte h

/-- The file of an id is in the directory. -/
theorem inside_directory {uid path : Bytes} (h : pathFor directory uid = .ok path) :
    ∃ name, path = joinPath directory name ∧ slash ∉ name ∧ name ≠ ascii "." ∧ name ≠ ascii ".." := by
  obtain ⟨name, hname, h⟩ := bind_eq_ok h
  cases h
  have hlength : 5 ≤ (name ++ ascii ".conf").length := by
    have hextension : (ascii ".conf").length = 5 := by decide +kernel
    rw [List.length_append]
    omega
  refine ⟨name ++ ascii ".conf", rfl, fun hmem => ?_, fun hdot => ?_, fun hdots => ?_⟩
  · rcases List.mem_append.1 hmem with hmem | hmem
    · exact absurd (mem_nameCharacters (safe_of_encodeFileName hname hmem)) (by decide +kernel)
    · exact absurd hmem (by decide +kernel)
  · rw [hdot] at hlength
    exact absurd hlength (by decide +kernel)
  · rw [hdots] at hlength
    exact absurd hlength (by decide +kernel)

/-- **The settings of different people never collide.** After any calls, `Load` returns for every id
that `Validate` accepts the settings of the last call for exactly this id that returned, or the
defaults; names are different for different ids, of plain characters, and inside of the directory. -/
theorem settings_by_identity (float : FloatFunctions) (directory : Bytes) {files : UserFiles}
    (hfresh : Fresh directory files) (calls : List SaveCall) :
    (∀ uid, validate float.decibels uid (defaultConfig float.decibels) = .ok () →
      ∃ loaded, load float directory (runSaves float directory files calls).1 uid = .ok loaded ∧
        Same loaded ((lastSaved? (runSaves float directory files calls).2 uid).getD
          (defaultConfig float.decibels))) ∧
      (∀ uid uid' name, encodeFileName uid = .ok name → encodeFileName uid' = .ok name →
        uid = uid') ∧
      (∀ uid name, encodeFileName uid = .ok name → ∀ c ∈ name, c ∈ nameCharacters) ∧
      ∀ uid path, pathFor directory uid = .ok path → ∃ name, path = joinPath directory name ∧
        slash ∉ name ∧ name ≠ ascii "." ∧ name ≠ ascii ".." := by
  refine ⟨fun uid hvalid => exists_load (holds_runSaves hfresh calls) hvalid,
    fun uid uid' name hname hname' => encodeFileName_inj hname hname', fun uid name hname c hc => ?_,
    fun uid path hpath => inside_directory hpath⟩
  exact mem_nameCharacters (safe_of_encodeFileName hname hc)

theorem zero_lt_signBit : 0 < 2 ^ 31 := by decide

/-- An id with a separator, and the id that is its file name. -/
def collidingCalls : List SaveCall :=
  [{ uniqueId := ascii "client/id"
     config := { volumeDb := ⟨true, 0x41080000, by decide⟩, muted := true }
     hundredths := ⟨850, by decide +kernel⟩
     short := by decide +kernel },
    { uniqueId := ascii "client%2Fid"
      config := { volumeDb := ⟨false, 0x40500000, by decide⟩ }
      hundredths := ⟨325, by decide +kernel⟩
      short := by decide +kernel },
    { uniqueId := ascii "client/id"
      config := { volumeDb := ⟨false, 0, zero_lt_signBit⟩ }
      fault := some "Permission denied"
      hundredths := ⟨0, by decide +kernel⟩
      short := by decide +kernel }]

/-- Both ids keep their own settings; the refused removal leaves the first ones. -/
theorem settings_by_identity_colliding :
    let float : FloatFunctions := ⟨id, id, fun _ => []⟩
    let files := (runSaves float (ascii "users") (fun _ => none) collidingCalls).1
    (∃ loaded, load float (ascii "users") files (ascii "client/id") = .ok loaded ∧
      Same loaded { volumeDb := ⟨true, 0x41080000, by decide⟩, muted := true }) ∧
      ∃ loaded, load float (ascii "users") files (ascii "client%2Fid") = .ok loaded ∧
        Same loaded { volumeDb := ⟨false, 0x40500000, by decide⟩ } := by
  intro float files
  have hfresh : Fresh (ascii "users") fun _ => none := fun _ _ _ => rfl
  have hload := (settings_by_identity float (ascii "users") hfresh collidingCalls).1
  have hfirst : lastSaved? (runSaves float (ascii "users") (fun _ => none) collidingCalls).2
      (ascii "client/id") = some { volumeDb := ⟨true, 0x41080000, by decide⟩, muted := true } := by
    decide +kernel
  have hsecond : lastSaved? (runSaves float (ascii "users") (fun _ => none) collidingCalls).2
      (ascii "client%2Fid") = some { volumeDb := ⟨false, 0x40500000, by decide⟩ } := by
    decide +kernel
  obtain ⟨loaded, hloaded, hsame⟩ := hload (ascii "client/id") (by decide +kernel)
  obtain ⟨loaded', hloaded', hsame'⟩ := hload (ascii "client%2Fid") (by decide +kernel)
  rw [hfirst] at hsame
  rw [hsecond] at hsame'
  exact ⟨⟨loaded, hloaded, hsame⟩, loaded', hloaded', hsame'⟩

end UserFiles

end TsCli
