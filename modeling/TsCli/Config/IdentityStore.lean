import TsCli.Crypto.HashCash
import TsCli.Crypto.PublicKey

/-!
# The identity store

An identity keeps a key offset with the security level that it reaches. `IncreaseSecurityLevel`
goes on from the stored offset. That finds the least offset of the new level only because the
stored one is the least of the old level, below which nothing reaches a higher level either.
-/

namespace TsCli

open Exec

/-- `IdentityStore::MaxSecurityLevel`. -/
def maxSecurityLevel : UInt8 := 32

structure LocalIdentity where
  identity : Identity
  securityLevel : UInt8 := 8
  keyOffset : UInt64 := 0
  deriving DecidableEq

namespace IdentityStore

variable (sha1 : Bytes → Vector UInt8 20)

/-- `IdentityStore::Create`. -/
def create (identity : Identity) (securityLevel : UInt8) : Except Failure LocalIdentity := do
  throwIf (maxSecurityLevel < securityLevel) "Identity security level is too large"
  let publicKey ← identity.publicKey
  let keyOffset ← HashCash.findFirstOffset sha1 securityLevel publicKey
  return { identity, securityLevel, keyOffset }

/-- What a caller passes to `IncreaseSecurityLevel`. -/
structure Increase where
  targetLevel : UInt8
  stop : UInt64 → Bool
  progress : HashCash.ProgressCallback

/-- `IdentityStore::IncreaseSecurityLevel`. -/
def increaseSecurityLevel (call : Increase) : EStateM Failure LocalIdentity Bool := do
  let identity ← get
  if call.targetLevel ≤ identity.securityLevel then
    throw (.runtimeError ("The new security level must be higher than the current one (" ++
      toString identity.securityLevel.toNat ++ ")"))
  else if maxSecurityLevel < call.targetLevel then
    throw (.runtimeError "Identity security level is too large")
  else
    let publicKey ← lift identity.identity.publicKey
    let keyOffset ← lift (HashCash.findOffset sha1 call.targetLevel identity.keyOffset call.stop
      call.progress publicKey)
    match keyOffset with
    | none => return false
    | some keyOffset =>
      set { identity with securityLevel := call.targetLevel, keyOffset }
      return true

/-- Some calls, one after the other, with the identity that each leaves behind. -/
def increaseAll (identity : LocalIdentity) (calls : List Increase) : LocalIdentity :=
  calls.foldl (fun identity call => final (increaseSecurityLevel sha1 call) identity) identity

/-! ## The offset -/

/-- The stored offset is the first one of its level. -/
def Minimal (l : LocalIdentity) : Prop :=
  ∃ publicKey, l.identity.publicKey = .ok publicKey ∧
    IsLeast {offset | HashCash.Reaches sha1 publicKey l.securityLevel offset} l.keyOffset

/-- Where one property implies another, the first value with it is searched for from the first one
with the other. -/
theorem isLeast_resume {α : Type*} [LE α] {P Q : α → Prop} {a b : α} (hPQ : ∀ x, Q x → P x)
    (ha : IsLeast {x | P x} a) (hb : IsLeast {x | a ≤ x ∧ Q x} b) : IsLeast {x | Q x} b :=
  ⟨hb.1.2, fun x hx => hb.2 ⟨ha.2 (hPQ x hx), hx⟩⟩

theorem reaches_of_le {publicKey : Bytes} {level level' : UInt8} (h : level ≤ level')
    {offset : UInt64} (hoffset : HashCash.Reaches sha1 publicKey level' offset) :
    HashCash.Reaches sha1 publicKey level offset := by
  obtain ⟨encoded, hencoded, hlevel⟩ := hoffset
  exact ⟨encoded, hencoded, (UInt8.le_iff_toNat_le.1 h).trans hlevel⟩

theorem minimal_create {identity : Identity} {securityLevel : UInt8} {l : LocalIdentity}
    (h : create sha1 identity securityLevel = .ok l) : Minimal sha1 l ∧ l.identity = identity := by
  obtain ⟨-, -, h⟩ := bind_eq_ok h
  obtain ⟨publicKey, hkey, h⟩ := bind_eq_ok h
  obtain ⟨keyOffset, hoffset, h⟩ := bind_eq_ok h
  cases h
  exact ⟨⟨publicKey, hkey, HashCash.findFirstOffset_spec sha1 securityLevel hoffset⟩, rfl⟩

/-- The identity has the level that was asked for, with the first offset for it from the old one
on. -/
structure Increased (call : Increase) (l l' : LocalIdentity) : Prop where
  identity_eq : l'.identity = l.identity
  level_lt : l.securityLevel < call.targetLevel
  level_eq : l'.securityLevel = call.targetLevel
  offset : ∃ publicKey, l.identity.publicKey = .ok publicKey ∧
    IsLeast {offset | l.keyOffset ≤ offset ∧
      HashCash.Reaches sha1 publicKey call.targetLevel offset} l'.keyOffset

/-- A call that returns false or throws changes nothing. -/
theorem increaseSecurityLevel_spec (call : Increase) (l : LocalIdentity) :
    wp (increaseSecurityLevel sha1 call)
      (fun done l' => (done = false ∧ l' = l) ∨ (done = true ∧ Increased sha1 call l l'))
      (fun _ l' => l' = l) l := by
  unfold increaseSecurityLevel
  simp only [wp_bind, wp_get, wp_ite, wp_throw, wp_lift]
  refine ⟨fun _ => trivial, fun hlevel => ⟨fun _ => trivial, fun _ => ⟨fun publicKey hkey => ?_,
    fun _ _ => trivial⟩⟩⟩
  refine ⟨fun result hresult => ?_, fun _ _ => trivial⟩
  have hspec := HashCash.findOffset_spec sha1 call.targetLevel l.keyOffset call.stop call.progress
    publicKey
  rw [hresult] at hspec
  cases result with
  | none => exact .inl ⟨rfl, rfl⟩
  | some keyOffset => exact .inr ⟨rfl, rfl, UInt8.not_le.1 hlevel, rfl, publicKey, hkey, hspec⟩

theorem increaseSecurityLevel_cases (call : Increase) (l : LocalIdentity) :
    final (increaseSecurityLevel sha1 call) l = l ∨
      (returned? (increaseSecurityLevel sha1 call) l = some true ∧
        Increased sha1 call l (final (increaseSecurityLevel sha1 call) l)) := by
  have hcall := increaseSecurityLevel_spec sha1 call l
  unfold wp at hcall
  unfold final returned?
  cases hrun : increaseSecurityLevel sha1 call l with
  | ok done l' =>
    rw [hrun] at hcall
    rcases hcall with ⟨-, hsame⟩ | ⟨rfl, hincreased⟩
    · exact .inl hsame
    · exact .inr ⟨rfl, hincreased⟩
  | error e l' =>
    rw [hrun] at hcall
    exact .inl hcall

/-- The stored offset stays the first one of its level. -/
theorem Minimal.increase {l l' : LocalIdentity} {call : Increase} (h : Minimal sha1 l)
    (hincreased : Increased sha1 call l l') : Minimal sha1 l' := by
  obtain ⟨publicKey, hkey, hleast⟩ := h
  obtain ⟨publicKey', hkey', hoffset⟩ := hincreased.offset
  rw [hkey] at hkey'
  cases hkey'
  have hle : l.securityLevel ≤ call.targetLevel := UInt8.le_of_lt hincreased.level_lt
  refine ⟨publicKey, hincreased.identity_eq ▸ hkey, ?_⟩
  rw [hincreased.level_eq]
  exact isLeast_resume (fun _ => reaches_of_le sha1 hle) hleast hoffset

theorem minimal_increaseAll {l : LocalIdentity} (h : Minimal sha1 l) (calls : List Increase) :
    Minimal sha1 (increaseAll sha1 l calls) ∧ (increaseAll sha1 l calls).identity = l.identity := by
  induction calls using List.reverseRecOn with
  | nil => exact ⟨h, rfl⟩
  | append_singleton calls call ih =>
    rw [increaseAll, List.foldl_append]
    show Minimal sha1 (final _ (increaseAll sha1 l calls)) ∧
      (final _ (increaseAll sha1 l calls)).identity = _
    rcases increaseSecurityLevel_cases sha1 call (increaseAll sha1 l calls) with
      hsame | ⟨-, hincreased⟩
    · rw [hsame]
      exact ih
    · exact ⟨ih.1.increase sha1 hincreased, hincreased.identity_eq.trans ih.2⟩

/-- **The first sufficient offset.** Without a stop, and with a callback that returns, a search
returns the first offset from its start on that has the level, and throws when there is none. An
identity that was created and then changed by any calls has the first offset of all for its level,
and a call that does not return true changes nothing. -/
theorem first_sufficient_offset :
    (∀ (publicKey : Bytes) (level : UInt8) (start : UInt64) (progress : HashCash.ProgressCallback),
      (∀ report, progress = some report → ∀ offset, report offset = .ok ()) →
      (∀ offset, HashCash.findOffset sha1 level start (fun _ => false) progress publicKey =
          .ok (some offset) ↔
        IsLeast {offset | start ≤ offset ∧ HashCash.Reaches sha1 publicKey level offset} offset) ∧
      ((∃ e, HashCash.findOffset sha1 level start (fun _ => false) progress publicKey = .error e) ↔
        ∀ offset, start ≤ offset → ¬ HashCash.Reaches sha1 publicKey level offset)) ∧
      (∀ (identity : Identity) (level : UInt8) (l : LocalIdentity),
        create sha1 identity level = .ok l → ∀ calls,
          Minimal sha1 (increaseAll sha1 l calls) ∧
            (increaseAll sha1 l calls).identity = identity) ∧
      ∀ (l : LocalIdentity) (call : Increase),
        returned? (increaseSecurityLevel sha1 call) l ≠ some true →
          final (increaseSecurityLevel sha1 call) l = l := by
  refine ⟨fun publicKey level start progress hprogress =>
    HashCash.findOffset_exact sha1 level start hprogress publicKey,
    fun identity level l hcreate calls => ?_, fun l call hreturned => ?_⟩
  · obtain ⟨hminimal, hidentity⟩ := minimal_create sha1 hcreate
    obtain ⟨hall, hkept⟩ := minimal_increaseAll sha1 hminimal calls
    exact ⟨hall, hkept.trans hidentity⟩
  · rcases increaseSecurityLevel_cases sha1 call l with hsame | ⟨htrue, -⟩
    · exact hsame
    · exact absurd htrue hreturned

/-- The generator of P-256. -/
def generator : Identity where
  x := 0x6b17d1f2e12c4247f8bce6e563a440f277037d812deb33a0f4a13945d898c296
  y := 0x4fe342e2fe1a7f9b8ee7eb4a7c0f9e162bce33576b315ececbb6406837bf51f5
  x_lt := by norm_num
  y_lt := by norm_num

/-- The digests for the first offsets of the generator. -/
def recordedDigests : List (Vector UInt8 20) := [
  #v[112, 231, 242, 251, 99, 110, 12, 84, 123, 8, 79, 202, 203, 129, 36, 77, 43, 64, 107,
    68],
  #v[26, 176, 55, 181, 217, 35, 2, 230, 152, 35, 105, 18, 129, 193, 6, 145, 119, 217, 230,
    136],
  #v[75, 2, 224, 113, 43, 231, 141, 161, 29, 137, 190, 233, 90, 123, 251, 94, 16, 109,
    238, 88],
  #v[235, 20, 171, 96, 97, 79, 119, 11, 122, 69, 123, 118, 255, 98, 98, 255, 110, 143, 85,
    255],
  #v[33, 55, 19, 7, 19, 59, 116, 161, 45, 1, 132, 125, 239, 100, 101, 87, 52, 115, 2, 0],
  #v[49, 147, 170, 87, 14, 3, 110, 113, 242, 178, 133, 156, 224, 11, 221, 94, 125, 123,
    18, 254],
  #v[86, 16, 61, 176, 79, 159, 10, 17, 142, 68, 222, 15, 171, 237, 54, 71, 113, 21, 132,
    53],
  #v[253, 85, 103, 128, 36, 92, 138, 166, 60, 140, 70, 54, 237, 214, 66, 141, 120, 89,
    225, 11],
  #v[215, 49, 240, 23, 162, 160, 113, 152, 34, 88, 178, 148, 95, 84, 34, 165, 33, 111, 23,
    192],
  #v[160, 94, 13, 179, 0, 126, 115, 117, 91, 173, 88, 162, 155, 165, 163, 45, 176, 124,
    98, 60]]

def recordedSha1 (data : Bytes) : Vector UInt8 20 :=
  match (do let publicKey ← generator.publicKey; Base64.encode publicKey) with
  | .ok encoded =>
    match (List.range 10).find? fun offset => data = encoded ++ numberText 10 offset with
    | some offset => recordedDigests.getD offset (Vector.replicate 20 0)
    | none => Vector.replicate 20 0
  | .error _ => Vector.replicate 20 0

/-- The generator from level 4 to level 5. -/
theorem first_sufficient_offset_generator :
    let call : Increase := { targetLevel := 5, stop := fun _ => false, progress := none }
    let created : LocalIdentity := { identity := generator, securityLevel := 4, keyOffset := 0 }
    Minimal recordedSha1 (increaseAll recordedSha1 created [call]) ∧
      (increaseAll recordedSha1 created [call]).identity = generator :=
  (first_sufficient_offset recordedSha1).2.1 generator 4 _ (by decide +kernel) _

example : increaseAll recordedSha1 { identity := generator, securityLevel := 4, keyOffset := 0 }
    [{ targetLevel := 5, stop := fun _ => false, progress := none }] =
      { identity := generator, securityLevel := 5, keyOffset := 9 } := by
  decide +kernel

end IdentityStore

end TsCli
