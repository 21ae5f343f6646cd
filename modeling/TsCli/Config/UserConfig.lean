import TsCli.Config.Config

/-!
# The settings of remote users

Volumes are `float`s: the operations on them are a parameter. What the settings are for is a map from
unique ids to settings; here each file of it is what parsing it comes to.
-/

namespace TsCli

/-- `float`: the constants of the volume settings, and the operations on them. -/
structure Decibels (F : Type) where
  /-- `0.0F`. -/
  zero : F
  /-- `UserConfigStore::MinVolumeDb`. -/
  minVolumeDb : F
  /-- `UserConfigStore::MaxVolumeDb`. -/
  maxVolumeDb : F
  /-- `std::isfinite`. -/
  isFinite : F → Bool
  /-- `<`. -/
  lt : F → F → Bool
  /-- `<=`. -/
  le : F → F → Bool
  /-- `==`. -/
  eq : F → F → Bool
  /-- `20.0F * std::log10( percent / 100.0F )`. -/
  ofPercent : F → F
  /-- `std::pow( 10.0F, volumeDb / 20.0F )`. -/
  gain : F → F
  /-- `stream << volumeDb`. -/
  write : F → Bytes
  zero_inside : isFinite zero = true ∧ lt zero minVolumeDb = false ∧ lt maxVolumeDb zero = false

namespace Decibels

variable {F : Type} (d : Decibels F)

/-- The check of `Validate` and `SetTalkerSettings`, that a volume is not between the limits. -/
def outside (volumeDb : F) : Bool :=
  !d.isFinite volumeDb || d.lt volumeDb d.minVolumeDb || d.lt d.maxVolumeDb volumeDb

theorem outside_zero : d.outside d.zero = false := by
  obtain ⟨hfinite, hmin, hmax⟩ := d.zero_inside
  simp [outside, hfinite, hmin, hmax]

/-- `std::clamp` between the limits. -/
def clamp (volumeDb : F) : F :=
  if d.lt volumeDb d.minVolumeDb then d.minVolumeDb
  else if d.lt d.maxVolumeDb volumeDb then d.maxVolumeDb
  else volumeDb

end Decibels

/-! ## Saved settings -/

/-- `UserConfig`. -/
structure UserConfig (F : Type) where
  volumeDb : F
  muted : Bool := false
  deriving DecidableEq, Repr

/-- `UserConfigStore`: for each unique id, no file, or what parsing its file comes to. -/
abbrev UserConfigStore (F : Type) := Bytes → Option (Except Failure (UserConfig F))

namespace UserConfigStore

variable {F : Type} (d : Decibels F)

/-- `UserConfig {}`. -/
def defaultConfig : UserConfig F := { volumeDb := d.zero }

/-- `UserConfigStore::IsDefault`. -/
def isDefault (config : UserConfig F) : Bool := d.eq config.volumeDb d.zero && !config.muted

/-- `UserConfigStore::Validate`. -/
def validate (uniqueId : Bytes) (config : UserConfig F) : Except Failure Unit := do
  throwIf (uniqueId = []) "Remote user identity is empty"
  throwIf (0x00 ∈ uniqueId ∨ 0x0a ∈ uniqueId ∨ 0x0d ∈ uniqueId)
    "Remote user identity contains an invalid character"
  throwIf (d.outside config.volumeDb) "User volume must be between -60 and +12 dB"

/-- `UserConfigStore::Load`. -/
def load (store : UserConfigStore F) (uniqueId : Bytes) : Except Failure (UserConfig F) := do
  validate d uniqueId (defaultConfig d)
  match store uniqueId with
  | none => .ok (defaultConfig d)
  | some parsed =>
    let config ← parsed
    validate d uniqueId config
    .ok config

/-- `UserConfigStore::Save`. Default settings have no file. -/
def save (store : UserConfigStore F) (uniqueId : Bytes) (config : UserConfig F) :
    Except Failure (UserConfigStore F) := do
  validate d uniqueId config
  .ok (Function.update store uniqueId (if isDefault d config then none else some (.ok config)))

variable {d} {store store' : UserConfigStore F} {uniqueId : Bytes} {config : UserConfig F}

theorem inside_of_validate (h : validate d uniqueId config = .ok ()) :
    d.outside config.volumeDb = false := by
  obtain ⟨_, -, h⟩ := bind_eq_ok h
  obtain ⟨_, -, h⟩ := bind_eq_ok h
  simpa using not_of_throwIf h

/-- The check of the unique id is the same for all volumes between the limits. -/
theorem validate_of_validate (h : validate d uniqueId config = .ok ()) {config' : UserConfig F}
    (hinside : d.outside config'.volumeDb = false) : validate d uniqueId config' = .ok () := by
  obtain ⟨_, hempty, h⟩ := bind_eq_ok h
  obtain ⟨_, hbytes, -⟩ := bind_eq_ok h
  unfold validate
  rw [throwIf_bind_of_not (not_of_throwIf hempty), throwIf_bind_of_not (not_of_throwIf hbytes),
    throwIf_of_not _ (by simp [hinside])]

theorem inside_of_load (h : store.load d uniqueId = .ok config) :
    d.outside config.volumeDb = false := by
  obtain ⟨_, -, h⟩ := bind_eq_ok h
  cases hfile : store uniqueId with
  | none =>
    rw [hfile] at h
    cases h
    exact d.outside_zero
  | some parsed =>
    rw [hfile] at h
    obtain ⟨config', -, h⟩ := bind_eq_ok h
    obtain ⟨_, hvalid, h⟩ := bind_eq_ok h
    cases h
    exact inside_of_validate hvalid

/-- What was saved is loaded, up to the sign of a volume of zero. -/
theorem load_save (h : store.save d uniqueId config = .ok store') :
    store'.load d uniqueId = .ok (if isDefault d config then defaultConfig d else config) := by
  obtain ⟨_, hvalid, h⟩ := bind_eq_ok h
  cases h
  have hdefault : validate d uniqueId (defaultConfig d) = .ok () :=
    validate_of_validate hvalid d.outside_zero
  unfold load
  rw [hdefault, Function.update_self]
  by_cases hd : isDefault d config = true
  · rw [if_pos hd, if_pos hd]
    rfl
  · rw [if_neg hd, if_neg hd]
    show (do validate d uniqueId config; .ok config) = _
    rw [hvalid]
    rfl

end UserConfigStore

end TsCli
