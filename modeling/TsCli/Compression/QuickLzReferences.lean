import TsCli.Compression.QuickLzFormat
import TsCli.Compression.QuickLzSafety

/-!
# References of the QuickLZ decoder

The decoder keeps a table of positions instead of searching. It fills the table from its output, up
to two bytes behind the destination, and after a match it goes on at the match's end. `Pending` says
where that leaves the next position to be hashed: every complete position before it is hashed or
inside a match, and no match reaches beyond it. So each step adds to the table exactly the positions
that the format says are new, in ascending order, and `LatestIndex` does the rest.

`Tracks` relates the decoder to the bytes and matches of the format. It holds at the head of every
turn of the loop, hence at every match token.
-/

namespace TsCli.QuickLzDecoder

open Exec QuickLzFormat LatestIndex

/-! ## The next position -/

/-- The next position to be hashed, behind the bytes decoded so far. -/
structure Pending (next : ℕ) (d : Decoded) : Prop where
  next_le : next ≤ d.bytes.length
  le_next : d.bytes.length ≤ next + 2
  /-- A position passed over is hashed or inside a match. -/
  passed : ∀ p < next, p + 3 ≤ d.bytes.length ∨ ∃ m ∈ d.references, m.Interior p
  ends_le : ∀ m ∈ d.references, m.start + m.length ≤ next

namespace Pending

variable {next : ℕ} {d : Decoded}

theorem initial : Pending 0 {} := ⟨Nat.le_refl 0, Nat.zero_le _, nofun, nofun⟩

theorem not_interior (h : Pending next d) {p : ℕ} (hp : next ≤ p) :
    ∀ m ∈ d.references, ¬ m.Interior p := by
  intro m hm hin
  have := h.ends_le m hm
  have := hin.2
  omega

/-- Nothing hashed lies ahead. -/
theorem lt_of_hashed (h : Pending next d) {p : ℕ} (hp : d.Hashed p) : p < next := by
  have := h.le_next
  have := hp.1
  omega

/-- A position that is not inside a match is complete or lies ahead. -/
theorem hashed_or_le (h : Pending next d) {p : ℕ} (hp : ∀ m ∈ d.references, ¬ m.Interior p) :
    d.Hashed p ∨ next ≤ p := by
  by_cases hlt : p < next
  · obtain hcomplete | ⟨m, hm, hin⟩ := h.passed p hlt
    · exact .inl ⟨hcomplete, hp⟩
    · exact absurd hin (hp m hm)
  · exact .inr (Nat.le_of_not_lt hlt)

/-- A literal completes the position two bytes back, unless it has been passed over. -/
theorem hashed_literal (h : Pending next d) (value : UInt8) (p : ℕ) :
    Decoded.Hashed { d with bytes := d.bytes ++ [value] } p ↔
      d.Hashed p ∨ next ≤ p ∧ p + 2 ≤ d.bytes.length := by
  show p + 3 ≤ (d.bytes ++ [value]).length ∧ (∀ m ∈ d.references, ¬ m.Interior p) ↔ _
  rw [List.length_append, List.length_singleton]
  constructor
  · rintro ⟨hle, hout⟩
    exact (h.hashed_or_le hout).imp_right fun hp => ⟨hp, by omega⟩
  · rintro (⟨hle, hout⟩ | ⟨hp, hle⟩)
    · exact ⟨by omega, hout⟩
    · exact ⟨by omega, h.not_interior hp⟩

theorem literal (h : Pending next d) (value : UInt8) :
    Pending (max next (d.bytes.length - 1)) { d with bytes := d.bytes ++ [value] } := by
  obtain ⟨hle, hle', hpassed, hends⟩ := h
  refine ⟨?_, ?_, fun p hp => ?_, fun m hm => (hends m hm).trans (le_max_left _ _)⟩
  · simp; omega
  · simp; omega
  · simp only [List.length_append, List.length_singleton]
    by_cases hlt : p < next
    · exact (hpassed p hlt).imp_left fun h => by omega
    · exact .inl (by omega)

variable {length : ℕ}

/-- A match completes the positions up to its start. -/
theorem hashed_reference (h : Pending next d) (hlen : 3 ≤ length) (position p : ℕ) :
    Decoded.Hashed { bytes := copy d.bytes position length
                     references := d.references ++ [⟨d.bytes.length, length⟩] } p ↔
      d.Hashed p ∨ next ≤ p ∧ p ≤ d.bytes.length := by
  show p + 3 ≤ (copy d.bytes position length).length ∧
    (∀ m ∈ d.references ++ [⟨d.bytes.length, length⟩], ¬ m.Interior p) ↔ _
  rw [length_copy, List.forall_mem_append, List.forall_mem_singleton]
  constructor
  · rintro ⟨hle, hout, hnew⟩
    refine (h.hashed_or_le hout).imp_right fun hp => ⟨hp, ?_⟩
    by_contra hlt
    exact hnew ⟨Nat.lt_of_not_le hlt, by show p < d.bytes.length + length; omega⟩
  · rintro (⟨hle, hout⟩ | ⟨hp, hle⟩)
    · refine ⟨by omega, hout, fun hin => ?_⟩
      have : d.bytes.length < p := hin.1
      omega
    · refine ⟨by omega, h.not_interior hp, fun hin => ?_⟩
      have : d.bytes.length < p := hin.1
      omega

/-- After a match the decoder goes on at its end. -/
theorem reference (h : Pending next d) (hlen : 3 ≤ length) (position : ℕ) :
    Pending (d.bytes.length + length)
      { bytes := copy d.bytes position length
        references := d.references ++ [⟨d.bytes.length, length⟩] } := by
  refine ⟨?_, ?_, fun p hp => ?_, fun m hm => ?_⟩
  · rw [length_copy]
  · rw [length_copy]; omega
  · rw [length_copy]
    by_cases hlt : p + 3 ≤ d.bytes.length + length
    · exact .inl hlt
    · refine .inr ⟨_, List.mem_append_right _ (List.mem_singleton_self _), ?_, hp⟩
      show d.bytes.length < p
      omega
  · rw [List.mem_append, List.mem_singleton] at hm
    obtain hm | rfl := hm
    · have := h.ends_le m hm
      have := h.next_le
      omega
    · exact Nat.le_refl _

end Pending

/-! ## The hash table -/

/-- What the table holds for a hash. -/
def lookup (s : QuickLzDecoder) (hash : ℕ) : Option ℕ :=
  if s.hashValid hash then some (s.hashTable hash) else none

/-- The next position to be hashed. -/
def nextHashed (s : QuickLzDecoder) : ℕ := (s.lastHashed + 1).toNat

theorem lookup_update (s : QuickLzDecoder) (hash position : ℕ) :
    lookup { s with
      hashTable := Function.update s.hashTable hash position
      hashValid := Function.update s.hashValid hash true } =
    Function.update s.lookup hash (some position) := by
  funext k
  by_cases hk : k = hash
  · subst hk
    simp [lookup]
  · simp [lookup, Function.update_of_ne hk]

section Rules

variable {i : ℕ} {s : QuickLzDecoder} {E : Failure → QuickLzDecoder → Prop}
  {Q : UInt8 → QuickLzDecoder → Prop}

theorem byteAt_eq_getD {data : Bytes} (h : i < data.length) :
    byteAt data i = .ok (data.getD i 0) := by
  rw [byteAt_of_lt h, List.getD_eq_getElem _ _ h]

theorem wp_readData_getD (h : i < s.data.length) (hQ : Q (s.data.getD i 0) s) :
    wp (readData i) Q E s := by
  simp only [readData, wp_bind, wp_get, byteAt_eq_getD h, wp_lift]
  exact ⟨fun b hb => by cases hb; exact hQ, by simp⟩

theorem wp_readOutput_getD (h : i < s.output.length) (hQ : Q (s.output.getD i 0) s) :
    wp (readOutput i) Q E s := by
  simp only [readOutput, wp_bind, wp_get, byteAt_eq_getD h, wp_lift]
  exact ⟨fun b hb => by cases hb; exact hQ, by simp⟩

end Rules

section Hashing

variable {s : QuickLzDecoder} {S : Set ℕ}

/-- The loop of `UpdateHashUpto`, above all positions hashed so far. -/
theorem hashPositions_latest (count position : ℕ) {s : QuickLzDecoder} {S : Set ℕ}
    (h : IsLatest S (hashAt s.output) s.lookup) (hS : ∀ q ∈ S, q < position)
    (hlen : position + count + 2 ≤ s.output.length) :
    wp (hashPositions count position) (fun _ s' => HashOnly s s' ∧
        IsLatest {q | q ∈ S ∨ position ≤ q ∧ q < position + count} (hashAt s.output) s'.lookup)
      (fun _ _ => True) s := by
  induction count generalizing position s S with
  | zero =>
    refine ⟨HashOnly.refl s, ?_⟩
    convert h using 1
    ext q
    simp
  | succ count ih =>
    simp only [hashPositions, wp_bind]
    refine wp_readOutput_getD (by omega) (wp_readOutput_getD (by omega)
      (wp_readOutput_getD (by omega) ?_))
    simp only [writeHash, wp_ite, wp_modify, wp_throw]
    refine ⟨fun _ => ?_, fun h => absurd (hash_lt _) h⟩
    have hadd := h.add hS
    rw [show hashAt s.output position = _ from rfl, hashAt] at hadd
    rw [← lookup_update] at hadd
    refine wp_mono (ih (position + 1) hadd ?_ (by simp only; omega)) (fun _ s' h' => ?_)
      (fun _ _ h => h)
    · rintro q (rfl | hq)
      · exact Nat.lt_succ_self q
      · exact (hS q hq).trans (Nat.lt_succ_self _)
    · refine ⟨⟨h'.1.data_eq, h'.1.source_eq, h'.1.destination_eq, h'.1.output_eq⟩, ?_⟩
      convert h'.2 using 1
      ext q
      by_cases hq : q ∈ S
      · simp [hq]
      · simp only [Set.mem_ofPred_eq, Set.mem_insert_iff, hq, false_or, or_false]
        omega

theorem updateHashUpto_latest (h : IsLatest S (hashAt s.output) s.lookup)
    (hlast : -1 ≤ s.lastHashed) (hS : ∀ q ∈ S, q < s.nextHashed) {maximumPosition : ℕ}
    (hmax : maximumPosition + 3 ≤ s.destinationPosition)
    (hdest : s.destinationPosition ≤ s.output.length) :
    wp (updateHashUpto maximumPosition) (fun _ s' => HashOnly s s' ∧ -1 ≤ s'.lastHashed ∧
        s'.nextHashed = max s.nextHashed (maximumPosition + 1) ∧
        IsLatest {q | q ∈ S ∨ s.nextHashed ≤ q ∧ q ≤ maximumPosition} (hashAt s.output) s'.lookup)
      (fun _ _ => True) s := by
  have hnext : (if 0 ≤ s.lastHashed then s.lastHashed.toNat + 1 else 0) = s.nextHashed := by
    unfold nextHashed
    split_ifs with h0 <;> omega
  simp only [updateHashUpto, wp_bind, wp_get, wp_ite, wp_pure, hnext]
  rw [Nat.min_eq_left (by omega)]
  refine ⟨fun _ => ⟨fun hle => ?_, fun hlt => ?_⟩, fun h3 => absurd (by omega) h3⟩
  · refine wp_mono (hashPositions_latest _ _ h hS (by omega)) (fun _ s' h' => ?_) (fun _ _ h => h)
    rw [wp_modify]
    refine ⟨⟨h'.1.data_eq, h'.1.source_eq, h'.1.destination_eq, h'.1.output_eq⟩, ?_, ?_, ?_⟩
    · show (-1 : ℤ) ≤ maximumPosition
      omega
    · show ((maximumPosition : ℤ) + 1).toNat = _
      omega
    · show IsLatest _ _ s'.lookup
      convert h'.2 using 1
      ext q
      exact or_congr_right (by omega)
  · refine ⟨HashOnly.refl s, hlast, by omega, ?_⟩
    convert h using 1
    ext q
    simp only [Set.mem_ofPred_eq, or_iff_left_iff_imp]
    omega

end Hashing

/-! ## The relation -/

/-- The decoder stands behind the bytes and matches `d` of the format. -/
structure Tracks (s : QuickLzDecoder) (d : Decoded) : Prop where
  destination_le : s.destinationPosition ≤ s.output.length
  bytes_eq : d.bytes = s.output.take s.destinationPosition
  latest : IsLatest {p | d.Hashed p} (hashAt d.bytes) s.lookup
  lastHashed_ge : -1 ≤ s.lastHashed
  pending : Pending s.nextHashed d

namespace Tracks

variable {s : QuickLzDecoder} {d : Decoded}

theorem length_eq (h : Tracks s d) : d.bytes.length = s.destinationPosition := by
  rw [h.bytes_eq, List.length_take]
  exact Nat.min_eq_left h.destination_le

/-- **The table is the search**: the entry of a hash is the greatest hashed position with it. -/
theorem lookup_eq (h : Tracks s d) : s.lookup = d.reference? :=
  h.latest.unique d.isLatest_reference?

theorem initial (data : Bytes) (sourcePosition size : ℕ) :
    Tracks { data := data, sourcePosition := sourcePosition, output := List.replicate size 0 } {} := by
  refine ⟨Nat.zero_le _, rfl, ?_, le_refl _, Pending.initial⟩
  show IsLatest _ _ fun _ => none
  convert isLatest_empty _ using 1
  ext p
  simp [Decoded.Hashed]

/-- A step that wrote its bytes and then brought the table up to date. -/
theorem of_hashOnly {s₁ s₂ : QuickLzDecoder} {d' : Decoded} {S : Set ℕ} (hs : HashOnly s₁ s₂)
    (hdest : s₁.destinationPosition ≤ s₁.output.length)
    (hbytes : d'.bytes = s₁.output.take s₁.destinationPosition)
    (hlatest : IsLatest S (hashAt s₁.output) s₂.lookup) (hS : ∀ p, d'.Hashed p ↔ p ∈ S)
    (hlast : -1 ≤ s₂.lastHashed) (hpending : Pending s₂.nextHashed d') : Tracks s₂ d' := by
  refine ⟨by rwa [hs.destination_eq, hs.output_eq], by rw [hs.destination_eq, hs.output_eq, hbytes],
    ?_, hlast, hpending⟩
  have hset : {p | d'.Hashed p} = S := Set.ext hS
  rw [hset]
  refine hlatest.congr fun q hq => ?_
  have hle := ((hS q).2 hq).1
  rw [hbytes, List.length_take] at hle
  rw [hbytes, hashAt_take (by omega) hdest]

/-- Bytes written at the destination leave the hashed positions as they are. -/
theorem latest_of_append {t : QuickLzDecoder} {more : Bytes} (h : Tracks s d)
    (hlookup : t.lookup = s.lookup) (hdest : t.destinationPosition ≤ t.output.length)
    (hbytes : d.bytes ++ more = t.output.take t.destinationPosition) :
    IsLatest {p | d.Hashed p} (hashAt t.output) t.lookup := by
  rw [hlookup]
  refine h.latest.congr fun q hq => ?_
  have hlen := congrArg List.length hbytes
  have hle := hq.1
  rw [List.length_append, List.length_take] at hlen
  rw [← hashAt_append more hle, hbytes, hashAt_take (by omega) hdest]

end Tracks

/-! ## Literals -/

theorem drop_eq_getD_cons {data : Bytes} {i : ℕ} (h : i < data.length) :
    data.drop i = data.getD i 0 :: data.drop (i + 1) := by
  rw [List.drop_eq_getElem_cons h, List.getD_eq_getElem _ _ h]

theorem take_succ_set {bytes : Bytes} {i : ℕ} (h : i < bytes.length) (value : UInt8) :
    (bytes.set i value).take (i + 1) = bytes.take i ++ [value] := by
  rw [List.take_add_one, List.take_set_of_le (Nat.le_refl i), List.getElem?_set_self h]
  rfl

section Specs

variable {s : QuickLzDecoder} {d : Decoded}

theorem copyLiteral_spec (hlt : s.destinationPosition < s.output.length) :
    wp copyLiteral (fun _ s' => ∃ value,
        s.data.drop s.sourcePosition = value :: s.data.drop (s.sourcePosition + 1) ∧
        s' = { s with
          output := s.output.set s.destinationPosition value
          sourcePosition := s.sourcePosition + 1
          destinationPosition := s.destinationPosition + 1 })
      (fun _ _ => True) s := by
  simp only [copyLiteral, wp_bind, wp_get]
  refine wp_requireSource (fun hsource => ?_) trivial
  refine wp_readData_getD (by omega) (wp_writeOutput hlt ?_)
  rw [wp_modify]
  exact ⟨_, drop_eq_getD_cons (by omega), rfl⟩

/-- A literal of the decoder is a literal of the format. -/
theorem decodeLiteral_tracks (h : Tracks s d) (hlt : s.destinationPosition < s.output.length) :
    wp decodeLiteral (fun _ s' => ∃ value,
        s.data.drop s.sourcePosition = value :: s'.data.drop s'.sourcePosition ∧
        s'.output.length = s.output.length ∧
        s'.destinationPosition = s.destinationPosition + 1 ∧
        Tracks s' { d with bytes := d.bytes ++ [value] })
      (fun _ _ => True) s := by
  simp only [decodeLiteral, wp_bind, wp_get]
  refine wp_mono (copyLiteral_spec hlt) (fun _ s₁ hs₁ => ?_) (fun _ _ h => h)
  obtain ⟨value, hsource, rfl⟩ := hs₁
  have hlen := h.length_eq
  have hbytes : d.bytes ++ [value] =
      (s.output.set s.destinationPosition value).take (s.destinationPosition + 1) := by
    rw [take_succ_set hlt, h.bytes_eq]
  have hdest : s.destinationPosition + 1 ≤ (s.output.set s.destinationPosition value).length := by
    rwa [List.length_set]
  have hlatest := h.latest_of_append (t := { s with
    output := s.output.set s.destinationPosition value
    sourcePosition := s.sourcePosition + 1
    destinationPosition := s.destinationPosition + 1 }) rfl hdest hbytes
  have hpending := h.pending.literal value
  rw [wp_ite, wp_pure]
  refine ⟨fun h3 => ?_, fun h3 => ?_⟩
  · refine wp_mono (updateHashUpto_latest hlatest h.lastHashed_ge
      (fun q hq => h.pending.lt_of_hashed hq) (by simp only at h3 ⊢; omega) hdest)
      (fun _ s₂ hs₂ => ?_) (fun _ _ h => h)
    obtain ⟨honly, hlast, hnext, hlatest₂⟩ := hs₂
    simp only at h3 hnext
    refine ⟨value, ?_, by rw [honly.output_eq]; simp, honly.destination_eq, ?_⟩
    · rw [honly.data_eq, honly.source_eq]
      exact hsource
    · refine .of_hashOnly honly hdest hbytes hlatest₂ (fun p => ?_) hlast ?_
      · rw [h.pending.hashed_literal value]
        refine or_congr_right (and_congr_right fun _ => ?_)
        simp only
        omega
      · rw [hnext]
        convert hpending using 1
        show max s.nextHashed _ = _
        omega
  · simp only at h3
    refine ⟨value, hsource, by simp, rfl, ?_⟩
    refine .of_hashOnly (HashOnly.refl _) hdest hbytes hlatest (fun p => ?_) h.lastHashed_ge ?_
    · rw [h.pending.hashed_literal value]
      simp only [Set.mem_ofPred_eq, or_iff_left_iff_imp]
      omega
    · convert hpending using 1
      show s.nextHashed = _
      omega

/-! ## References -/

/-- The bytes of a copy, written behind the destination one after the other. -/
theorem copyMatch_spec (reference : ℕ) : ∀ (count i : ℕ) {s : QuickLzDecoder},
    reference < s.destinationPosition → s.destinationPosition + i + count ≤ s.output.length →
    wp (copyMatch reference count i) (fun _ s' => ∃ output, s' = { s with output := output } ∧
        output.length = s.output.length ∧
        output.take (s.destinationPosition + i + count) =
          copy (s.output.take (s.destinationPosition + i)) (reference + i) count)
      (fun _ _ => True) s
  | 0, _, s, _, _ => ⟨s.output, rfl, rfl, rfl⟩
  | count + 1, i, s, href, hle => by
    simp only [copyMatch, wp_bind, wp_get]
    refine wp_readOutput_getD (by omega) (wp_writeOutput (by omega) ?_)
    refine wp_mono (copyMatch_spec reference count (i + 1) href (by simp only [List.length_set]; omega))
      (fun _ s' h' => ?_) (fun _ _ h => h)
    obtain ⟨output, rfl, hlen, htake⟩ := h'
    refine ⟨output, rfl, by rw [hlen, List.length_set], ?_⟩
    -- the byte that is copied lies before the destination, so the prefix already has it
    have hget : (s.output.take (s.destinationPosition + i)).getD (reference + i) 0 =
        s.output.getD (reference + i) 0 := by
      rw [List.getD_eq_getElem?_getD, List.getElem?_take_of_lt (by omega),
        ← List.getD_eq_getElem?_getD]
    simp only at htake
    rw [copy, hget, ← take_succ_set (by omega)]
    rw [show s.destinationPosition + i + (count + 1) = s.destinationPosition + (i + 1) + count by omega]
    exact htake

theorem tokenHash_eq (encoded : UInt16) :
    ((encoded >>> 4) &&& 0x0fff).toNat = encoded.toNat / 16 := by
  have := encoded.toNat_lt
  rw [UInt16.toNat_and, UInt16.toNat_shiftRight]
  show encoded.toNat >>> 4 &&& (2 ^ 12 - 1) = _
  rw [Nat.and_two_pow_sub_one_eq_mod, Nat.shiftRight_eq_div_pow]
  omega

theorem tokenLength_eq (encoded : UInt16) : (encoded &&& 0x0f).toNat = encoded.toNat % 16 := by
  rw [UInt16.toNat_and]
  exact Nat.and_two_pow_sub_one_eq_mod _ 4

theorem readU16Little_eq {data : Bytes} {offset : ℕ} (h : offset + 2 ≤ data.length) :
    ∃ v, readU16Little data offset = .ok v ∧
      v.toNat = (data.getD offset 0).toNat + 2 ^ 8 * (data.getD (offset + 1) 0).toNat := by
  unfold readU16Little
  rw [if_neg (by omega), byteAt_eq_getD (by omega), byteAt_eq_getD (by omega)]
  refine ⟨_, rfl, ?_⟩
  generalize data.getD offset 0 = low
  generalize data.getD (offset + 1) 0 = high
  have hlow := low.toNat_lt
  have hhigh := high.toNat_lt
  simp only [UInt16.toNat_or, UInt16.toNat_shiftLeft, UInt8.toNat_toUInt16, Nat.shiftLeft_eq,
    UInt16.reduceToNat, Nat.reduceMod]
  rw [Nat.mod_eq_of_lt (by omega), Nat.or_comm, Nat.mul_comm,
    ← Nat.two_pow_add_eq_or_of_lt (by omega), Nat.add_comm]

theorem readMatchLength_spec {encoded : UInt16} (h2 : s.sourcePosition + 2 ≤ s.data.length)
    (hencoded : encoded.toNat = (s.data.getD s.sourcePosition 0).toNat +
      2 ^ 8 * (s.data.getD (s.sourcePosition + 1) 0).toNat) :
    wp (readMatchLength encoded) (fun length s' => ∃ sourcePosition,
        s' = { s with sourcePosition := sourcePosition } ∧
        readReference (s.data.drop s.sourcePosition) =
          some (encoded.toNat / 16, length, s.data.drop sourcePosition))
      (fun _ _ => True) s := by
  have hshort : encoded &&& 0x0f ≠ 0 ↔ encoded.toNat % 16 ≠ 0 := by
    rw [← tokenLength_eq]
    exact (UInt16.toNat_inj (b := 0)).not.symm
  rw [drop_eq_getD_cons (by omega : s.sourcePosition < s.data.length),
    drop_eq_getD_cons (by omega : s.sourcePosition + 1 < s.data.length)]
  simp only [readReference, ← hencoded]
  simp only [readMatchLength, wp_ite, wp_bind, wp_get, wp_pure, skipSource, wp_modify, hshort]
  refine ⟨fun hne => ⟨_, rfl, ?_⟩, fun hzero => ?_⟩
  · rw [if_pos hne, tokenLength_eq]
  · refine wp_requireSource (fun h3 => ?_) trivial
    refine wp_readData_getD (by omega) ⟨_, rfl, ?_⟩
    rw [if_neg hzero, drop_eq_getD_cons (by omega : s.sourcePosition + 1 + 1 < s.data.length)]

/-- What follows the copy of a match: its start is hashed, its interior is passed over. -/
theorem updateHashUpto_match {length position sourcePosition : ℕ} {output : Bytes}
    (h : Tracks s d) (hlen : 3 ≤ length) (hdest : s.destinationPosition + length ≤ output.length)
    (hbytes : copy d.bytes position length = output.take (s.destinationPosition + length)) :
    wp (do
        updateHashUpto s.destinationPosition
        modify fun s => { s with lastHashed := (s.destinationPosition : ℤ) - 1 })
      (fun _ s' => HashOnly { s with
          sourcePosition := sourcePosition
          output := output
          destinationPosition := s.destinationPosition + length } s' ∧
        Tracks s' { bytes := copy d.bytes position length
                    references := d.references ++ [⟨d.bytes.length, length⟩] })
      (fun _ _ => True)
      { s with
        sourcePosition := sourcePosition
        output := output
        destinationPosition := s.destinationPosition + length } := by
  obtain ⟨more, hmore, -⟩ := copy_eq_append d.bytes position length
  have hlatest := h.latest_of_append (t := { s with
    sourcePosition := sourcePosition
    output := output
    destinationPosition := s.destinationPosition + length }) rfl hdest (hmore ▸ hbytes)
  have hlen' := h.length_eq
  rw [wp_bind]
  refine wp_mono (updateHashUpto_latest hlatest h.lastHashed_ge
    (fun q hq => h.pending.lt_of_hashed hq) (by simp only; omega) hdest)
    (fun _ s₂ hs₂ => ?_) (fun _ _ h => h)
  obtain ⟨honly, -, -, hlatest₂⟩ := hs₂
  have honly' : HashOnly _ { s₂ with lastHashed := (s₂.destinationPosition : ℤ) - 1 } :=
    ⟨honly.data_eq, honly.source_eq, honly.destination_eq, honly.output_eq⟩
  rw [wp_modify]
  refine ⟨honly', .of_hashOnly honly' hdest hbytes hlatest₂ (fun p => ?_) ?_ ?_⟩
  · rw [h.pending.hashed_reference hlen, hlen']
    rfl
  · simp only
    omega
  · convert h.pending.reference hlen position using 1
    show ((s₂.destinationPosition : ℤ) - 1 + 1).toNat = _
    rw [honly.destination_eq, hlen', sub_add_cancel, Int.toNat_natCast]

/-- A match of the decoder is a match of the format, from the position that the search finds. -/
theorem decodeReference_tracks (h : Tracks s d) :
    wp decodeReference (fun _ s' => ∃ hash length d',
        readReference (s.data.drop s.sourcePosition) =
          some (hash, length, s'.data.drop s'.sourcePosition) ∧
        (3 ≤ length ∧ length ≤ s.output.length - s.destinationPosition) ∧
        s'.output.length = s.output.length ∧
        s'.destinationPosition = s.destinationPosition + length ∧
        d.append (.reference hash length) = some d' ∧ Tracks s' d')
      (fun _ _ => True) s := by
  simp only [decodeReference, wp_bind, wp_get]
  refine wp_requireSource (fun h2 => ?_) trivial
  obtain ⟨encoded, hread, hencoded⟩ := readU16Little_eq h2
  rw [wp_lift]
  refine ⟨fun encoded' heq => ?_, fun _ _ => trivial⟩
  rw [hread] at heq
  cases heq
  refine wp_mono (readMatchLength_spec h2 hencoded) (fun length s₀ hs₀ => ?_) (fun _ _ h => h)
  obtain ⟨sourcePosition, rfl, hsource⟩ := hs₀
  simp only [wp_ite, wp_throw, wp_pure, wp_bind, wp_get, readHashValid, readHashTable, tokenHash_eq]
  refine ⟨fun _ => trivial, fun hlen => ⟨fun _ => ⟨fun _ => trivial, fun hvalid =>
    ⟨fun _ => ⟨fun _ => trivial, fun hbehind => ⟨fun _ => trivial, fun hfit => ?_⟩⟩,
      fun _ => trivial⟩⟩, fun _ => trivial⟩⟩
  rw [Bool.not_eq_true', Bool.not_eq_false] at hvalid
  have hdest := h.destination_le
  refine wp_mono (copyMatch_spec _ length 0 (Nat.lt_of_not_le hbehind) (by simp only; omega))
    (fun _ s₁ hs₁ => ?_) (fun _ _ h => h)
  obtain ⟨output, rfl, hlength, hcopy⟩ := hs₁
  simp only [Nat.add_zero, ← h.bytes_eq] at hcopy hlength
  rw [wp_modify]
  have hend : s.destinationPosition + length ≤ output.length := by omega
  refine (wp_bind _ _).1 (wp_mono (updateHashUpto_match h (by omega) hend hcopy.symm)
    (fun _ s' hs' => ?_) (fun _ _ h => h))
  obtain ⟨honly, htracks⟩ := hs'
  refine ⟨encoded.toNat / 16, length, _, ?_, ⟨by omega, by omega⟩, ?_, honly.destination_eq, ?_, htracks⟩
  · rw [honly.data_eq, honly.source_eq]
    exact hsource
  · rw [honly.output_eq]
    exact hlength
  · have hfound : d.reference? (encoded.toNat / 16) = some (s.hashTable (encoded.toNat / 16)) := by
      rw [← h.lookup_eq]
      exact if_pos hvalid
    simp [Decoded.append, hfound]

/-! ## The tail -/

theorem and_one_ne_zero_iff (control : UInt32) : control &&& 0x01 ≠ 0 ↔ control.toNat % 2 = 1 := by
  have hbit : (control &&& 0x01).toNat = control.toNat % 2 := by
    rw [UInt32.toNat_and]
    exact Nat.and_one_is_mod _
  rw [← hbit, ← (UInt32.toNat_inj (b := 0)).ne]
  show (control &&& 0x01).toNat ≠ 0 ↔ _
  omega

theorem eq_one_iff (control : UInt32) : control = 1 ↔ control.toNat = 1 := UInt32.toNat_inj.symm

theorem toNat_shiftRight_one (control : UInt32) : (control >>> 1).toNat = control.toNat / 2 := by
  rw [UInt32.toNat_shiftRight]
  show control.toNat >>> 1 = _
  rw [Nat.shiftRight_eq_div_pow]

/-- The tail, by induction on the budget. -/
theorem decodeTail_spec : ∀ (fuel : ℕ) (control : UInt32) {s : QuickLzDecoder},
    s.destinationPosition ≤ s.output.length →
    wp (decodeTail fuel control) (fun _ s' => ∃ values,
        tail (s.output.length - s.destinationPosition) control.toNat
          (s.data.drop s.sourcePosition) = some values ∧
        s'.output = s.output.take s.destinationPosition ++ values ∧
        s'.destinationPosition = s'.output.length)
      (fun _ _ => True) s
  | 0, _, _, _ => trivial
  | fuel + 1, control, s, hle => by
    -- the rest of a turn, once the control word is at hand
    have hturn : ∀ (control' : UInt32) (sourcePosition remaining : ℕ),
        s.output.length - s.destinationPosition = remaining + 1 →
        (∀ value source, s.data.drop sourcePosition = value :: source →
          tail (remaining + 1) control.toNat (s.data.drop s.sourcePosition) =
            (tail remaining (control' >>> 1).toNat source).map (value :: ·)) →
        wp (do copyLiteral; decodeTail fuel (control' >>> 1)) (fun _ s' => ∃ values,
            tail (s.output.length - s.destinationPosition) control.toNat
              (s.data.drop s.sourcePosition) = some values ∧
            s'.output = s.output.take s.destinationPosition ++ values ∧
            s'.destinationPosition = s'.output.length)
          (fun _ _ => True) { s with sourcePosition := sourcePosition } := by
      intro control' sourcePosition remaining hremaining htail
      have hlt : s.destinationPosition < s.output.length := by omega
      rw [wp_bind]
      refine wp_mono (copyLiteral_spec hlt) (fun _ s₁ hs₁ => ?_) (fun _ _ h => h)
      obtain ⟨value, hsource, rfl⟩ := hs₁
      refine wp_mono (decodeTail_spec fuel (control' >>> 1) (by simp only [List.length_set]; omega))
        (fun _ s' hs' => ?_) (fun _ _ h => h)
      obtain ⟨values, hvalues, houtput, hdest⟩ := hs'
      refine ⟨value :: values, ?_, ?_, hdest⟩
      · simp only [List.length_set] at hvalues
        rw [show s.output.length - (s.destinationPosition + 1) = remaining by omega] at hvalues
        rw [hremaining, htail value _ hsource, hvalues]
        rfl
      · rw [houtput]
        simp only [take_succ_set hlt, List.append_assoc]
        rfl
    simp only [decodeTail, wp_bind, wp_get, wp_ite, wp_pure] at hturn ⊢
    refine ⟨fun hlt => ?_, fun hend => ?_⟩
    · obtain ⟨remaining, hremaining⟩ : ∃ n, s.output.length - s.destinationPosition = n + 1 :=
        ⟨s.output.length - s.destinationPosition - 1, by omega⟩
      refine ⟨fun hone => ?_, fun hone => ?_⟩
      · refine wp_requireSource (fun _ => ?_) trivial
        simp only [skipSource, wp_modify]
        refine hturn _ _ remaining hremaining fun value source hsource => ?_
        rw [(eq_one_iff control).1 hone, toNat_shiftRight_one]
        exact tail_of_word (by rw [List.drop_drop]; exact hsource) remaining
      · refine hturn control s.sourcePosition remaining hremaining fun value source hsource => ?_
        rw [hsource, toNat_shiftRight_one]
        exact tail_of_bits ((eq_one_iff control).not.1 hone) remaining value source
    · have hdest : s.destinationPosition = s.output.length := by omega
      refine ⟨[], ?_, ?_, hdest⟩
      · rw [hdest, Nat.sub_self]
        rfl
      · rw [hdest, List.take_length, List.append_nil]

/-! ## A turn of the loop -/

theorem readControlWord_spec :
    wp readControlWord (fun value s' => ∃ sourcePosition,
        s' = { s with sourcePosition := sourcePosition } ∧
        readWord (s.data.drop s.sourcePosition) = some (value.toNat, s.data.drop sourcePosition))
      (fun _ _ => True) s := by
  simp only [readControlWord, wp_bind, wp_get]
  refine wp_requireSource (fun h4 => ?_) trivial
  obtain ⟨value, hread, hvalue⟩ := readU32Little_eq h4
  simp only [wp_lift, skipSource, wp_modify, wp_ite, wp_pure]
  refine ⟨fun value' heq => ⟨fun _ => trivial, fun hne => ⟨_, rfl, ?_⟩⟩, fun _ _ => trivial⟩
  rw [hread] at heq
  cases heq
  rw [drop_eq_getD_cons (by omega), drop_eq_getD_cons (by omega), drop_eq_getD_cons (by omega),
    drop_eq_getD_cons (by omega)]
  simp only [readWord, ← hvalue]
  have hne' : value.toNat ≠ 0 := fun h => hne (UInt32.toNat_inj.1 h)
  rw [if_neg hne']

/-- The tokens that the decoder has still to read. -/
def stream (s : QuickLzDecoder) (control : UInt32) : Option (List Token) :=
  tokens (s.output.length - s.destinationPosition) control.toNat (s.data.drop s.sourcePosition)

/-- One turn of the loop of `Run`: the next control bits, or nothing after the tail. -/
def turn (control : UInt32) : Member (Option UInt32) := do
  let s ← get
  let control ← if control = 1 then readControlWord else pure control
  if control &&& 0x01 ≠ 0 then
    decodeReference
    return some (control >>> 1)
  else if (← get).isTail then
    decodeTail (s.output.length + 1) control
    return none
  else
    decodeLiteral
    return some (control >>> 1)

/-- The loop of `Run` takes turns until the output is full or the tail is done. -/
theorem runLoop_succ (fuel : ℕ) (control : UInt32) :
    runLoop (fuel + 1) control = do
      let s ← get
      if s.destinationPosition < s.output.length then
        match ← turn control with
        | some control => runLoop fuel control
        | none => return () := by
  funext s
  rw [runLoop, run_get_bind, run_get_bind, run_ite, run_ite]
  by_cases hlt : s.destinationPosition < s.output.length
  swap
  · rw [if_neg hlt, if_neg hlt]
  rw [if_pos hlt, if_pos hlt]
  unfold turn
  rw [bind_assoc, run_get_bind]
  -- once the control bits are at hand, the branches agree one by one
  have hbody : ∀ control : UInt32, (do
      if control &&& 0x01 ≠ 0 then
        decodeReference
        runLoop fuel (control >>> 1)
      else if (← get).isTail then
        decodeTail (s.output.length + 1) control
      else
        decodeLiteral
        runLoop fuel (control >>> 1)) = (do
      if control &&& 0x01 ≠ 0 then
        decodeReference
        return some (control >>> 1)
      else if (← get).isTail then
        decodeTail (s.output.length + 1) control
        return none
      else
        decodeLiteral
        return some (control >>> 1)) >>= fun next => match next with
          | some control => runLoop fuel control
          | none => pure () := by
    intro control
    by_cases hbit : control &&& 0x01 ≠ 0
    · rw [if_pos hbit, if_pos hbit, bind_assoc]
      rfl
    · rw [if_neg hbit, if_neg hbit, bind_assoc]
      refine bind_congr fun st => ?_
      by_cases htail : st.isTail = true
      · rw [if_pos htail, if_pos htail]
        simp
      · rw [if_neg htail, if_neg htail]
        simp
  by_cases hone : control = 1
  · rw [if_pos hone, if_pos hone, bind_assoc]
    exact congrFun (bind_congr hbody) s
  · rw [if_neg hone, if_neg hone]
    exact congrFun (hbody control) s

/-- What a turn leaves of a stream: the rest behind the token it took, or the literals of the tail
as output. -/
def Turned (d : Decoded) (ahead : Option (List Token)) : Option UInt32 → QuickLzDecoder → Prop
  | some control, s => ∃ token d',
      ahead = (s.stream control).map (token :: ·) ∧ d.append token = some d' ∧ Tracks s d'
  | none, s => ∃ values, ahead = some (values.map .literal) ∧
      s.output = d.bytes ++ values ∧ s.destinationPosition = s.output.length

section Branches

-- the control bits are at hand: `bits` and `source` are what they were fetched from
variable {control : UInt32} {bits : ℕ} {source : Bytes} (h : Tracks s d)
  (hfetch : fetch bits source = some (control.toNat, s.data.drop s.sourcePosition))

include h hfetch

theorem decodeReference_turned (hbit : control.toNat % 2 = 1) :
    wp decodeReference
      (fun _ => Turned d (tokens (s.output.length - s.destinationPosition) bits source)
        (some (control >>> 1)))
      (fun _ _ => True) s := by
  refine wp_mono (decodeReference_tracks h) (fun _ s' hs' => ?_) (fun _ _ h => h)
  obtain ⟨hash, length, d', href, hlen, hlength, hdest, happend, hs'⟩ := hs'
  refine ⟨_, d', ?_, happend, hs'⟩
  rw [tokens_of_reference (by omega) hfetch hbit href hlen, stream, toNat_shiftRight_one, hlength,
    hdest, Nat.sub_add_eq]

theorem decodeTail_turned (hlt : s.destinationPosition < s.output.length) (fuel : ℕ)
    (hbit : control.toNat % 2 ≠ 1) (htail : s.isTail = true) :
    wp (decodeTail fuel control)
      (fun _ => Turned d (tokens (s.output.length - s.destinationPosition) bits source) none)
      (fun _ _ => True) s := by
  refine wp_mono (decodeTail_spec fuel control h.destination_le) (fun _ s' hs' => ?_)
    (fun _ _ h => h)
  obtain ⟨values, hvalues, houtput, hdest⟩ := hs'
  refine ⟨values, ?_, by rw [houtput, h.bytes_eq], hdest⟩
  rw [tokens_of_tail (by omega) hfetch hbit (by simp [isTail] at htail; omega), hvalues]
  rfl

theorem decodeLiteral_turned (hlt : s.destinationPosition < s.output.length)
    (hbit : control.toNat % 2 ≠ 1) (htail : ¬ s.isTail = true) :
    wp decodeLiteral
      (fun _ => Turned d (tokens (s.output.length - s.destinationPosition) bits source)
        (some (control >>> 1)))
      (fun _ _ => True) s := by
  refine wp_mono (decodeLiteral_tracks h hlt) (fun _ s' hs' => ?_) (fun _ _ h => h)
  obtain ⟨value, hsource, hlength, hdest, hs'⟩ := hs'
  refine ⟨.literal value, _, ?_, rfl, hs'⟩
  rw [tokens_of_literal (by omega) hfetch hbit (by simp [isTail] at htail; omega) hsource, stream,
    toNat_shiftRight_one, hlength, hdest, Nat.sub_add_eq]

end Branches

/-- **One turn**: the decoder takes the token that the format reads, and stands behind the bytes and
matches of its expansion. -/
theorem turn_tracks (h : Tracks s d) (hlt : s.destinationPosition < s.output.length)
    (control : UInt32) :
    wp (turn control) (Turned d (s.stream control)) (fun _ _ => True) s := by
  -- the rest of the turn, once the control bits are at hand
  have hturn : ∀ (control' : UInt32) (sourcePosition : ℕ),
      fetch control.toNat (s.data.drop s.sourcePosition) =
        some (control'.toNat, s.data.drop sourcePosition) →
      wp (do
          if control' &&& 0x01 ≠ 0 then
            decodeReference
            return some (control' >>> 1)
          else if (← get).isTail then
            decodeTail (s.output.length + 1) control'
            return none
          else
            decodeLiteral
            return some (control' >>> 1))
        (Turned d (s.stream control)) (fun _ _ => True)
        { s with sourcePosition := sourcePosition } := by
    intro control' sourcePosition hfetch
    have ht : Tracks { s with sourcePosition := sourcePosition } d :=
      ⟨h.destination_le, h.bytes_eq, h.latest, h.lastHashed_ge, h.pending⟩
    simp only [wp_ite, wp_bind, wp_get, wp_pure, and_one_ne_zero_iff]
    refine ⟨fun hbit => ?_, fun hbit => ⟨fun htail => ?_, fun htail => ?_⟩⟩
    · exact decodeReference_turned ht hfetch hbit
    · exact decodeTail_turned ht hfetch hlt _ hbit htail
    · exact decodeLiteral_turned ht hfetch hlt hbit htail
  unfold turn
  rw [wp_bind, wp_get, wp_ite]
  refine ⟨fun hone => ?_, fun hone => ?_⟩
  · rw [wp_bind]
    refine wp_mono readControlWord_spec (fun control' s' hs' => ?_) (fun _ _ h => h)
    obtain ⟨sourcePosition, rfl, hword⟩ := hs'
    refine hturn control' sourcePosition ?_
    rw [fetch, if_pos ((eq_one_iff control).1 hone), hword]
  · refine hturn control s.sourcePosition ?_
    rw [fetch, if_neg ((eq_one_iff control).not.1 hone)]

/-- The loop reads the rest of the stream and expands it, by induction on the budget. -/
theorem runLoop_tracks : ∀ (fuel : ℕ) (control : UInt32) {s : QuickLzDecoder} {d : Decoded},
    Tracks s d →
    wp (runLoop fuel control) (fun _ s' => ∃ rest d', s.stream control = some rest ∧
        d.expand rest = some d' ∧ d'.bytes = s'.output)
      (fun _ _ => True) s
  | 0, _, _, _, _ => trivial
  | fuel + 1, control, s, d, h => by
    rw [runLoop_succ, wp_bind, wp_get, wp_ite, wp_bind]
    refine ⟨fun hlt => ?_, fun hend => ?_⟩
    · refine wp_mono (turn_tracks h hlt control) (fun next s' hs' => ?_) (fun _ _ h => h)
      cases next with
      | some control' =>
        obtain ⟨token, d', hstream, happend, hs'⟩ := hs'
        refine wp_mono (runLoop_tracks fuel control' hs') (fun _ s'' hs'' => ?_) (fun _ _ h => h)
        obtain ⟨rest, d'', hrest, hexpand, hbytes⟩ := hs''
        refine ⟨token :: rest, d'', by rw [hstream, hrest]; rfl, ?_, hbytes⟩
        rw [Decoded.expand_cons, happend]
        exact hexpand
      | none =>
        obtain ⟨values, hstream, houtput, -⟩ := hs'
        exact ⟨_, _, hstream, d.expand_literals values, houtput.symm⟩
    · have hdest := h.destination_le
      refine ⟨[], d, ?_, rfl, ?_⟩
      · unfold stream
        rw [tokens, if_pos (by omega)]
      · rw [h.bytes_eq, List.take_of_length_le (by omega)]

end Specs

/-! ## Runs -/

/-- The states at the head of the loop of `Run`, with the control bits at hand. -/
inductive LoopHead (start : QuickLzDecoder) : UInt32 → QuickLzDecoder → Prop
  | first : LoopHead start 1 start
  | next {control control' : UInt32} {s s' : QuickLzDecoder} (head : LoopHead start control s)
      (hlt : s.destinationPosition < s.output.length)
      (hturn : turn control s = .ok (some control') s') : LoopHead start control' s'

/-- At the head of the loop the decoder stands behind the expansion of the tokens before it. -/
theorem LoopHead.tracks {start s : QuickLzDecoder} {control : UInt32} {d₀ : Decoded}
    (h : LoopHead start control s) (hstart : Tracks start d₀) :
    ∃ front d, start.stream 1 = (s.stream control).map (front ++ ·) ∧
      d₀.expand front = some d ∧ Tracks s d := by
  induction h with
  | first =>
    refine ⟨[], d₀, ?_, rfl, hstart⟩
    cases start.stream 1 <;> rfl
  | next head hlt hturn ih =>
    obtain ⟨front, d, hstream, hexpand, htracks⟩ := ih
    have hstep := ok_of_wp (turn_tracks htracks hlt _) hturn
    obtain ⟨token, d', hstream', happend, htracks'⟩ := hstep
    refine ⟨front ++ [token], d', ?_, ?_, htracks'⟩
    · rw [hstream, hstream', Option.map_map]
      congr 1
      funext rest
      simp
    · rw [Decoded.expand_concat, hexpand]
      exact happend

/-! ## The header -/

/-- The length of the header: the second flag chooses the long form. -/
def headerSize (data : Bytes) : ℕ := if data.getD 0 0 &&& 0x02 ≠ 0 then 9 else 3

/-- The decoder that `Decompress` runs on a compressed payload. -/
def start (data : Bytes) : QuickLzDecoder :=
  { data := data, sourcePosition := headerSize data, output := List.replicate (declaredSize data) 0 }

theorem eq_getD_of_byteAt {data : Bytes} {i : ℕ} {b : UInt8} (h : byteAt data i = .ok b) :
    b = data.getD i 0 := by
  unfold byteAt at h
  rw [List.getD_eq_getElem?_getD]
  cases hget : data[i]? with
  | some b' =>
    rw [hget] at h
    cases h
    rfl
  | none =>
    rw [hget] at h
    cases h

theorem length_of_readU32Little {data : Bytes} {offset : ℕ} {v : UInt32}
    (h : readU32Little data offset = .ok v) : offset + 4 ≤ data.length := by
  unfold readU32Little at h
  by_contra hlt
  rw [if_pos (by omega)] at h
  cases h

/-- The size in the header is the declared size. -/
theorem eq_declaredSize {data : Bytes} {size : ℕ}
    (h : sizeField data (headerSize data) 5 2 = .ok size) : size = declaredSize data := by
  unfold sizeField headerSize at h
  unfold declaredSize
  by_cases hlong : data.getD 0 0 &&& 0x02 ≠ 0
  · rw [if_pos hlong, if_pos rfl] at h
    rw [if_pos hlong]
    cases hread : readU32Little data 5 with
    | error e =>
      rw [hread] at h
      cases h
    | ok v =>
      obtain ⟨v', hv', hvalue⟩ := readU32Little_eq (length_of_readU32Little hread)
      rw [hread] at h hv'
      cases hv'
      cases h
      exact hvalue
  · rw [if_neg hlong, if_neg (by decide)] at h
    rw [if_neg hlong]
    cases hread : byteAt data 2 with
    | error e =>
      rw [hread] at h
      cases h
    | ok b =>
      rw [hread] at h
      cases h
      rw [eq_getD_of_byteAt hread]

/-- A compressed payload that is accepted comes out of a run of the decoder. -/
theorem run_of_decompress {data output : Bytes} {maximumOutputSize : ℕ}
    (hcompressed : data.getD 0 0 &&& 0x01 ≠ 0)
    (h : decompress data maximumOutputSize = .ok output) : ∃ s, run (start data) = .ok output s := by
  unfold decompress at h
  obtain ⟨_, -, h⟩ := bind_eq_ok h
  obtain ⟨flags, hflags, h⟩ := bind_eq_ok h
  rw [eq_getD_of_byteAt hflags] at h
  obtain ⟨_, -, h⟩ := bind_eq_ok h
  obtain ⟨_, -, h⟩ := bind_eq_ok h
  obtain ⟨_, -, h⟩ := bind_eq_ok h
  obtain ⟨_, -, h⟩ := bind_eq_ok h
  obtain ⟨size, hsize, h⟩ := bind_eq_ok h
  obtain rfl := eq_declaredSize hsize
  obtain ⟨_, -, h⟩ := bind_eq_ok h
  obtain ⟨_, -, h⟩ := bind_eq_ok h
  rw [if_neg hcompressed] at h
  obtain ⟨_, -, h⟩ := bind_eq_ok h
  cases hrun : run (start data) with
  | ok output' s =>
    unfold start headerSize at hrun
    rw [hrun] at h
    cases h
    exact ⟨s, rfl⟩
  | error e s =>
    unfold start headerSize at hrun
    rw [hrun] at h
    cases h

/-- What a compressed payload stands for, by the definition of the format. -/
def interpretation (data : Bytes) : Option Bytes := do
  let stream ← tokens (declaredSize data) 1 (data.drop (headerSize data))
  let d ← Decoded.expand {} stream
  return d.bytes

/-- **References resolve as the format says.** A compressed payload that the decoder accepts comes
out as its interpretation. And in every turn of the loop, hence at every match token, the table that
is kept in steps answers each hash as the search through everything decoded so far does. -/
theorem decompress_interprets {data output : Bytes} {maximumOutputSize : ℕ}
    (hcompressed : data.getD 0 0 &&& 0x01 ≠ 0)
    (h : decompress data maximumOutputSize = .ok output) :
    interpretation data = some output ∧
      ∀ control s, LoopHead (start data) control s → ∃ front back d,
        tokens (declaredSize data) 1 (data.drop (headerSize data)) = some (front ++ back) ∧
        s.stream control = some back ∧ Decoded.expand {} front = some d ∧
        s.output.take s.destinationPosition = d.bytes ∧ s.lookup = d.reference? := by
  obtain ⟨s', hrun⟩ := run_of_decompress hcompressed h
  have htracks : Tracks (start data) {} := Tracks.initial data _ _
  have hstream : (start data).stream 1 =
      tokens (declaredSize data) 1 (data.drop (headerSize data)) := by
    unfold stream start
    rw [List.length_replicate]
    rfl
  have hresult : wp run (fun output _ => ∃ rest d, (start data).stream 1 = some rest ∧
      Decoded.expand {} rest = some d ∧ d.bytes = output) (fun _ _ => True) (start data) := by
    simp only [run, wp_bind, wp_get, wp_ite, wp_pure]
    refine wp_mono (runLoop_tracks _ 1 htracks) (fun _ s' hs' => ?_) (fun _ _ h => h)
    exact ⟨fun _ => trivial, fun _ => hs'⟩
  obtain ⟨rest, d, hrest, hexpand, hbytes⟩ := ok_of_wp hresult hrun
  constructor
  · unfold interpretation
    rw [← hstream, hrest]
    show (Decoded.expand {} rest).bind _ = _
    rw [hexpand]
    exact congrArg some hbytes
  · intro control s hhead
    obtain ⟨front, d', hfront, hexpand', htracks'⟩ := hhead.tracks htracks
    rw [hrest] at hfront
    obtain ⟨back, hback, hsplit⟩ := Option.map_eq_some_iff.1 hfront.symm
    refine ⟨front, back, d', ?_, hback, hexpand', htracks'.bytes_eq.symm, htracks'.lookup_eq⟩
    rw [← hstream, hrest, hsplit]

/-- The compressed fixture `abcabcabcX0123456789`: a match that overlaps its own output. -/
def overlapping : Bytes :=
  [0x05, 0x17, 0x14, 0x08, 0x00, 0x00, 0x80, 0x61, 0x62, 0x63, 0x74, 0x45, 0x58,
    0x30, 0x31, 0x32, 0x33, 0x34, 0x35, 0x36, 0x37, 0x38, 0x39]

theorem decompress_interprets_overlapping :
    interpretation overlapping = some ("abcabcabcX0123456789".toUTF8.toList) := by
  have hrun : decompress overlapping 64 = .ok "abcabcabcX0123456789".toUTF8.toList := by
    decide +kernel
  exact (decompress_interprets (by decide) hrun).1

end TsCli.QuickLzDecoder
