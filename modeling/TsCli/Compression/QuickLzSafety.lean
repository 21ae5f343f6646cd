import TsCli.Compression.QuickLz

/-!
# Safety of the QuickLZ decoder

The invariant `Sound` says that the two cursors are inside the input and the output, and that every
valid table entry lies at least three bytes behind the destination. It does not mention the control
word, so it holds whatever the stream makes of it: a word without its top marker bit, or one that is
shifted down to zero.

Each member function gets one specification: from a sound state it returns into a sound state or
raises an error of the stream. The destination grows on every turn of every loop, which bounds the
number of turns.
-/

namespace TsCli.QuickLzDecoder

open Exec

/-- The decoder's invariant, for an output of `n` bytes. -/
structure Sound (n : ℕ) (s : QuickLzDecoder) : Prop where
  source_le : s.sourcePosition ≤ s.data.length
  length_eq : s.output.length = n
  destination_le : s.destinationPosition ≤ n
  hashed : ∀ h, s.hashValid h = true → s.hashTable h + 3 ≤ s.destinationPosition

/-- An error that the decoder raises about its input: neither an access out of bounds, nor a loop
without end, nor one of the two checks of the decoder's own state. -/
def Raised (e : Failure) : Prop :=
  ∃ message, e = .runtimeError message ∧ message ≠ "Invalid QuickLZ reference offset" ∧
    message ≠ "QuickLZ output size mismatch"

/-- A step that touches the hash table alone. -/
structure HashOnly (s s' : QuickLzDecoder) : Prop where
  data_eq : s'.data = s.data
  source_eq : s'.sourcePosition = s.sourcePosition
  destination_eq : s'.destinationPosition = s.destinationPosition
  output_eq : s'.output = s.output

theorem HashOnly.refl (s : QuickLzDecoder) : HashOnly s s := ⟨rfl, rfl, rfl, rfl⟩

/-! ## Memory -/

theorem byteAt_of_lt {data : Bytes} {i : ℕ} (h : i < data.length) : byteAt data i = .ok data[i] := by
  unfold byteAt; rw [List.getElem?_eq_getElem h]

section Rules

variable {n i count : ℕ} {s : QuickLzDecoder} {E : Failure → QuickLzDecoder → Prop}

theorem wp_readData {Q : UInt8 → QuickLzDecoder → Prop} (h : i < s.data.length)
    (hQ : ∀ b, Q b s) : wp (readData i) Q E s := by
  simp only [readData, wp_bind, wp_get, byteAt_of_lt h, wp_lift]
  exact ⟨fun b _ => hQ b, by simp⟩

theorem wp_readOutput {Q : UInt8 → QuickLzDecoder → Prop} (h : i < s.output.length)
    (hQ : ∀ b, Q b s) : wp (readOutput i) Q E s := by
  simp only [readOutput, wp_bind, wp_get, byteAt_of_lt h, wp_lift]
  exact ⟨fun b _ => hQ b, by simp⟩

theorem wp_writeOutput {Q : Unit → QuickLzDecoder → Prop} {b : UInt8} (h : i < s.output.length)
    (hQ : Q () { s with output := s.output.set i b }) : wp (writeOutput i b) Q E s := by
  simp only [writeOutput, wp_bind, wp_get, wp_ite, wp_modify]
  exact ⟨fun _ => hQ, fun h' => absurd h h'⟩

theorem wp_requireSource {Q : Unit → QuickLzDecoder → Prop}
    (hQ : s.sourcePosition + count ≤ s.data.length → Q () s)
    (hE : E (.runtimeError "Unexpected end of QuickLZ data") s) :
    wp (requireSource count) Q E s := by
  simp only [requireSource, wp_bind, wp_get, wp_ite, wp_throw, wp_pure]
  exact ⟨fun _ => hE, fun h => hQ (by omega)⟩

end Rules

theorem hash_lt (value : UInt32) : hash value < hashTableSize := by
  unfold hash hashTableSize
  rw [UInt32.toNat_and]
  exact Nat.lt_of_le_of_lt Nat.and_le_right (by decide)

theorem tokenHash_lt (encoded : UInt16) :
    ((encoded >>> 4) &&& 0x0fff).toNat < hashTableSize := by
  unfold hashTableSize
  rw [UInt16.toNat_and]
  exact Nat.lt_of_le_of_lt Nat.and_le_right (by decide)

theorem readU16Little_of_le {data : Bytes} {offset : ℕ} (h : offset + 2 ≤ data.length) :
    ∃ v, readU16Little data offset = .ok v := by
  unfold readU16Little
  rw [if_neg (by omega), byteAt_of_lt (by omega), byteAt_of_lt (by omega)]
  exact ⟨_, rfl⟩

theorem readU32Little_of_le {data : Bytes} {offset : ℕ} (h : offset + 4 ≤ data.length) :
    ∃ v, readU32Little data offset = .ok v := by
  unfold readU32Little
  rw [if_neg (by omega), byteAt_of_lt (by omega), byteAt_of_lt (by omega),
    byteAt_of_lt (by omega), byteAt_of_lt (by omega)]
  exact ⟨_, rfl⟩

/-! ## The hash table -/

section Specs

variable {n : ℕ} {s : QuickLzDecoder}

/-- Hashing positions that end three bytes before the destination. -/
theorem hashPositions_sound : ∀ (count position : ℕ) {s : QuickLzDecoder}, Sound n s →
    (∀ p < position + count, p + 3 ≤ s.destinationPosition) →
    wp (hashPositions count position) (fun _ s' => Sound n s' ∧ HashOnly s s')
      (fun _ _ => False) s
  | 0, position, s, hs, _ => ⟨hs, HashOnly.refl s⟩
  | count + 1, position, s, hs, hp => by
    have hlen := hs.length_eq
    have hdest := hs.destination_le
    have hpos := hp position (by omega)
    simp only [hashPositions, wp_bind]
    refine wp_readOutput (by omega) fun b0 => wp_readOutput (by omega) fun b1 =>
      wp_readOutput (by omega) fun b2 => ?_
    simp only [writeHash, wp_ite, wp_modify, wp_throw]
    refine ⟨fun _ => ?_, fun h => absurd (hash_lt _) h⟩
    refine wp_mono (hashPositions_sound count (position + 1) ⟨hs.source_le, hlen, hdest, ?_⟩
      fun p h => hp p (by omega)) (fun _ s' h => ⟨h.1, h.2.data_eq, h.2.source_eq,
        h.2.destination_eq, h.2.output_eq⟩) (fun _ _ h => h)
    intro h hv
    simp only [Function.update_apply] at hv ⊢
    split_ifs at hv ⊢
    · exact hpos
    · exact hs.hashed h hv

theorem updateHashUpto_sound (hs : Sound n s) (maximumPosition : ℕ) :
    wp (updateHashUpto maximumPosition) (fun _ s' => Sound n s' ∧ HashOnly s s')
      (fun _ _ => False) s := by
  simp only [updateHashUpto, wp_bind, wp_get, wp_ite, wp_pure]
  refine ⟨fun h3 => ⟨fun _ => ?_, fun _ => ⟨hs, HashOnly.refl s⟩⟩, fun _ => ⟨hs, HashOnly.refl s⟩⟩
  refine wp_mono (hashPositions_sound _ _ hs fun p hp => by omega) (fun _ s' h => ?_)
    (fun _ _ h => h)
  rw [wp_modify]
  exact ⟨⟨h.1.source_le, h.1.length_eq, h.1.destination_le, h.1.hashed⟩,
    ⟨h.2.data_eq, h.2.source_eq, h.2.destination_eq, h.2.output_eq⟩⟩

/-! ## Literals -/

/-- What a step that returned has done: the state is sound and the destination moved on. -/
def Progress (n : ℕ) (s s' : QuickLzDecoder) : Prop :=
  Sound n s' ∧ s.destinationPosition < s'.destinationPosition

theorem Progress.of_hashOnly {s t u : QuickLzDecoder} (h : Progress n s t)
    (h' : Sound n u ∧ HashOnly t u) : Progress n s u :=
  ⟨h'.1, by rw [h'.2.destination_eq]; exact h.2⟩

theorem raised_end : Raised (.runtimeError "Unexpected end of QuickLZ data") :=
  ⟨_, rfl, by decide, by decide⟩

theorem copyLiteral_sound (hs : Sound n s) (hlt : s.destinationPosition < n) :
    wp copyLiteral (fun _ s' => Progress n s s') (fun e _ => Raised e) s := by
  simp only [copyLiteral, wp_bind, wp_get]
  refine wp_requireSource (fun h1 => ?_) raised_end
  refine wp_readData (by omega) fun b => wp_writeOutput (by rw [hs.length_eq]; exact hlt) ?_
  rw [wp_modify]
  refine ⟨⟨h1, ?_, hlt, fun h hv => ?_⟩, Nat.lt_succ_self _⟩
  · simpa using hs.length_eq
  · exact (hs.hashed h hv).trans (Nat.le_succ _)

theorem decodeLiteral_sound (hs : Sound n s) (hlt : s.destinationPosition < n) :
    wp decodeLiteral (fun _ s' => Progress n s s') (fun e _ => Raised e) s := by
  simp only [decodeLiteral, wp_bind, wp_get]
  refine wp_mono (copyLiteral_sound hs hlt) (fun _ s' h => ?_) (fun _ _ h => h)
  rw [wp_ite, wp_pure]
  refine ⟨fun _ => ?_, fun _ => h⟩
  exact wp_mono (updateHashUpto_sound h.1 _) (fun _ _ h' => h.of_hashOnly h')
    (fun _ _ h' => h'.elim)

/-- The tail, by induction on the budget: it covers the bytes that are left. -/
theorem decodeTail_sound : ∀ (fuel : ℕ) (control : UInt32) {s : QuickLzDecoder}, Sound n s →
    n < s.destinationPosition + fuel →
    wp (decodeTail fuel control) (fun _ s' => Sound n s' ∧ s'.destinationPosition = n)
      (fun e _ => Raised e) s
  | 0, _, s, hs, hfuel => absurd hs.destination_le (by omega)
  | fuel + 1, control, s, hs, hfuel => by
    have hlen := hs.length_eq
    -- the rest of a turn, once the control word is at hand
    have hturn : ∀ (control : UInt32) {t : QuickLzDecoder}, Sound n t →
        t.destinationPosition = s.destinationPosition → s.destinationPosition < n →
        wp (do copyLiteral; decodeTail fuel (control >>> 1))
          (fun _ s' => Sound n s' ∧ s'.destinationPosition = n) (fun e _ => Raised e) t := by
      intro control t ht hdt hlt
      rw [wp_bind]
      refine wp_mono (copyLiteral_sound ht (by omega)) (fun _ s' h => ?_) (fun _ _ h => h)
      have := h.2
      exact decodeTail_sound fuel _ h.1 (by omega)
    simp only [decodeTail, wp_bind, wp_get, wp_ite, wp_pure] at hturn ⊢
    refine ⟨fun hlt => ⟨fun _ => ?_, fun _ => hturn control hs rfl (by omega)⟩,
      fun h => ⟨hs, ?_⟩⟩
    · refine wp_requireSource (fun h4 => ?_) raised_end
      simp only [skipSource, wp_modify]
      exact hturn _ ⟨h4, hlen, hs.destination_le, hs.hashed⟩ rfl (by omega)
    · have := hs.destination_le; omega

/-! ## References -/

/-- The copy of a match stays inside the output: the reference lies behind the destination. -/
theorem copyMatch_sound (reference : ℕ) : ∀ (count i : ℕ) {s : QuickLzDecoder}, Sound n s →
    reference < s.destinationPosition → s.destinationPosition + i + count ≤ n →
    wp (copyMatch reference count i) (fun _ s' => Sound n s' ∧ s'.data = s.data ∧
        s'.sourcePosition = s.sourcePosition ∧ s'.destinationPosition = s.destinationPosition)
      (fun _ _ => False) s
  | 0, _, s, hs, _, _ => ⟨hs, rfl, rfl, rfl⟩
  | count + 1, i, s, hs, href, hle => by
    have hlen := hs.length_eq
    simp only [copyMatch, wp_bind, wp_get]
    refine wp_readOutput (by omega) fun b => wp_writeOutput (by omega) ?_
    exact copyMatch_sound reference count (i + 1)
      ⟨hs.source_le, by simpa using hlen, hs.destination_le, hs.hashed⟩ href
      (by show s.destinationPosition + (i + 1) + count ≤ n; omega)

theorem readMatchLength_sound (hs : Sound n s) (h2 : s.sourcePosition + 2 ≤ s.data.length)
    (encoded : UInt16) :
    wp (readMatchLength encoded) (fun _ s' => Sound n s' ∧
        s'.destinationPosition = s.destinationPosition) (fun e _ => Raised e) s := by
  simp only [readMatchLength, wp_ite, wp_bind, wp_get, wp_pure, skipSource, wp_modify]
  refine ⟨fun _ => ⟨⟨h2, hs.length_eq, hs.destination_le, hs.hashed⟩, trivial⟩, fun _ => ?_⟩
  refine wp_requireSource (fun h3 => ?_) raised_end
  refine wp_readData (by omega) fun b => ?_
  exact ⟨⟨h3, hs.length_eq, hs.destination_le, hs.hashed⟩, rfl⟩

/-- A back-reference. The table holds only positions behind the destination, so the check on the
reference offset passes. -/
theorem decodeReference_sound (hs : Sound n s) :
    wp decodeReference (fun _ s' => Progress n s s') (fun e _ => Raised e) s := by
  simp only [decodeReference, wp_bind, wp_get]
  refine wp_requireSource (fun h2 => ?_) raised_end
  obtain ⟨encoded, henc⟩ := readU16Little_of_le h2
  rw [wp_lift]
  refine ⟨fun encoded _ => ?_, fun e he => by rw [henc] at he; cases he⟩
  refine wp_mono (readMatchLength_sound hs h2 encoded) (fun matchLength t ht => ?_)
    (fun _ _ h => h)
  obtain ⟨ht, hdest⟩ := ht
  simp only [wp_ite, wp_throw, wp_pure, wp_bind, wp_get, readHashValid, readHashTable]
  have hhash := tokenHash_lt encoded
  refine ⟨fun _ => ⟨_, rfl, by decide, by decide⟩, fun hlen => ⟨fun _ => ⟨?_, ?_⟩,
    fun h => absurd hhash h⟩⟩
  · exact fun _ => ⟨_, rfl, by decide, by decide⟩
  · intro hvalid
    rw [Bool.not_eq_true', Bool.not_eq_false] at hvalid
    have hbehind := ht.hashed _ hvalid
    refine ⟨fun _ => ⟨fun h => ?_, fun _ => ⟨fun _ => ⟨_, rfl, by decide, by decide⟩, fun hfit => ?_⟩⟩,
      fun h => absurd hhash h⟩
    · omega
    · have hle := ht.destination_le
      have hlen' := ht.length_eq
      refine wp_mono (copyMatch_sound _ matchLength 0 ht (by omega) (by omega))
        (fun _ u hu => ?_) (fun _ _ h => h.elim)
      obtain ⟨hu, -, -, hud⟩ := hu
      rw [wp_modify]
      have hu' : Sound n { u with destinationPosition := u.destinationPosition + matchLength } :=
        ⟨hu.source_le, hu.length_eq, by show u.destinationPosition + matchLength ≤ n; omega,
          fun h hv => (hu.hashed h hv).trans (Nat.le_add_right _ _)⟩
      refine wp_mono (updateHashUpto_sound hu' _) (fun _ v hv => ?_) (fun _ _ h => h.elim)
      rw [wp_modify]
      refine ⟨⟨hv.1.source_le, hv.1.length_eq, hv.1.destination_le, hv.1.hashed⟩, ?_⟩
      show s.destinationPosition < v.destinationPosition
      rw [hv.2.destination_eq]
      show s.destinationPosition < u.destinationPosition + matchLength
      omega

/-! ## Runs -/

theorem readControlWord_sound (hs : Sound n s) :
    wp readControlWord (fun _ s' => Sound n s' ∧ s'.destinationPosition = s.destinationPosition)
      (fun e _ => Raised e) s := by
  simp only [readControlWord, wp_bind, wp_get]
  refine wp_requireSource (fun h4 => ?_) raised_end
  obtain ⟨value, hval⟩ := readU32Little_of_le h4
  simp only [wp_lift, skipSource, wp_modify, wp_ite, wp_pure]
  refine ⟨fun v _ => ⟨fun _ => ⟨_, rfl, by decide, by decide⟩, fun _ =>
    ⟨⟨h4, hs.length_eq, hs.destination_le, hs.hashed⟩, trivial⟩⟩, fun e he => ?_⟩
  rw [hval] at he; cases he

/-- The main loop, by induction on the budget. -/
theorem runLoop_sound : ∀ (fuel : ℕ) (control : UInt32) {s : QuickLzDecoder}, Sound n s →
    n < s.destinationPosition + fuel →
    wp (runLoop fuel control) (fun _ s' => Sound n s' ∧ s'.destinationPosition = n)
      (fun e _ => Raised e) s
  | 0, _, s, hs, hfuel => absurd hs.destination_le (by omega)
  | fuel + 1, control, s, hs, hfuel => by
    have hlen := hs.length_eq
    have hle := hs.destination_le
    have hturn : ∀ (control : UInt32) {t : QuickLzDecoder}, Sound n t →
        t.destinationPosition = s.destinationPosition → s.destinationPosition < n →
        wp (if control &&& 0x01 ≠ 0 then do
            decodeReference
            runLoop fuel (control >>> 1)
          else do
            if (← get).isTail then
              decodeTail (s.output.length + 1) control
            else
              decodeLiteral
              runLoop fuel (control >>> 1))
          (fun _ s' => Sound n s' ∧ s'.destinationPosition = n) (fun e _ => Raised e) t := by
      intro control t ht hdt hlt
      simp only [wp_ite, wp_bind, wp_get]
      refine ⟨fun _ => ?_, fun _ => ⟨fun _ => ?_, fun _ => ?_⟩⟩
      · refine wp_mono (decodeReference_sound ht) (fun _ s' h => ?_) (fun _ _ h => h)
        have := h.2
        exact runLoop_sound fuel _ h.1 (by omega)
      · exact decodeTail_sound _ _ ht (by omega)
      · refine wp_mono (decodeLiteral_sound ht (by omega)) (fun _ s' h => ?_) (fun _ _ h => h)
        have := h.2
        exact runLoop_sound fuel _ h.1 (by omega)
    simp only [runLoop, wp_bind, wp_get, wp_ite, wp_pure] at hturn ⊢
    refine ⟨fun hlt => ⟨fun _ => ?_, fun _ => hturn control hs rfl (by omega)⟩,
      fun h => ⟨hs, by omega⟩⟩
    exact wp_mono (readControlWord_sound hs) (fun control t h => hturn control h.1 h.2 (by omega))
      (fun _ _ h => h)

theorem run_sound (hs : Sound n s) :
    wp run (fun output _ => output.length = n) (fun e _ => Raised e) s := by
  have hlen := hs.length_eq
  simp only [run, wp_bind, wp_get, wp_ite, wp_throw, wp_pure]
  refine wp_mono (runLoop_sound _ _ hs (by omega)) (fun _ s' h => ?_) (fun _ _ h => h)
  exact ⟨fun hne => absurd (h.2.trans h.1.length_eq.symm) hne, fun _ => h.1.length_eq⟩

end Specs

/-! ## The header -/

/-- Four bytes in little-endian order. -/
theorem readU32Little_eq {data : Bytes} {offset : ℕ} (h : offset + 4 ≤ data.length) :
    ∃ v, readU32Little data offset = .ok v ∧
      v.toNat = (data.getD offset 0).toNat + 2 ^ 8 * (data.getD (offset + 1) 0).toNat +
        2 ^ 16 * (data.getD (offset + 2) 0).toNat + 2 ^ 24 * (data.getD (offset + 3) 0).toNat := by
  have hget : ∀ i, i < data.length → byteAt data i = .ok (data.getD i 0) := fun i hi => by
    rw [byteAt_of_lt hi, List.getD_eq_getElem?_getD, List.getElem?_eq_getElem hi, Option.getD_some]
  unfold readU32Little
  rw [if_neg (by omega), hget _ (by omega), hget _ (by omega), hget _ (by omega), hget _ (by omega)]
  refine ⟨_, rfl, ?_⟩
  generalize data.getD offset 0 = b0
  generalize data.getD (offset + 1) 0 = b1
  generalize data.getD (offset + 2) 0 = b2
  generalize data.getD (offset + 3) 0 = b3
  have h0 := b0.toNat_lt
  have h1 := b1.toNat_lt
  have h2 := b2.toNat_lt
  have h3 := b3.toNat_lt
  have hor : ∀ {i a b : ℕ}, b < 2 ^ i → b ||| a * 2 ^ i = b + 2 ^ i * a := fun {i a b} hb => by
    rw [Nat.or_comm, Nat.mul_comm, ← Nat.two_pow_add_eq_or_of_lt hb, Nat.add_comm]
  simp only [UInt32.toNat_or, UInt32.toNat_shiftLeft, UInt8.toNat_toUInt32, Nat.shiftLeft_eq,
    UInt32.reduceToNat, Nat.reduceMod]
  rw [Nat.mod_eq_of_lt (by omega), Nat.mod_eq_of_lt (by omega), Nat.mod_eq_of_lt (by omega),
    hor (a := b1.toNat) (by omega), hor (a := b2.toNat) (by omega), hor (a := b3.toNat) (by omega)]

/-- The decompressed size that the header declares: four bytes at 5 in the long form, the byte at
2 in the short form. -/
def declaredSize (data : Bytes) : ℕ :=
  if data.getD 0 0 &&& 0x02 ≠ 0 then
    (data.getD 5 0).toNat + 2 ^ 8 * (data.getD 6 0).toNat + 2 ^ 16 * (data.getD 7 0).toNat +
      2 ^ 24 * (data.getD 8 0).toNat
  else
    (data.getD 2 0).toNat

/-- A computation that returns into `P` or raises an error of the stream. -/
def Settles {α : Type} (P : α → Prop) : Except Failure α → Prop
  | .ok a => P a
  | .error e => Raised e

section Settles

variable {α β : Type} {P : α → Prop}

theorem Settles.bind {P : β → Prop} {x : Except Failure α} {f : α → Except Failure β}
    (h : Settles (fun a => Settles P (f a)) x) : Settles P (x >>= f) := by
  cases x with
  | ok a => exact h
  | error e => exact h

theorem Settles.map {P : β → Prop} {f : α → β} {x : Except Failure α}
    (h : Settles (fun a => P (f a)) x) : Settles P (f <$> x) := by
  cases x with
  | ok a => exact h
  | error e => exact h

theorem settles_throwIf {P : Unit → Prop} {c : Prop} [Decidable c] {message : String}
    (hm : message ≠ "Invalid QuickLZ reference offset" ∧ message ≠ "QuickLZ output size mismatch")
    (h : ¬ c → P ()) : Settles P (throwIf c message) := by
  unfold throwIf
  split_ifs with hc
  · exact ⟨message, rfl, hm⟩
  · exact h hc

theorem settles_byteAt {P : UInt8 → Prop} {data : Bytes} {i : ℕ} (hi : i < data.length)
    (h : P (data.getD i 0)) : Settles P (byteAt data i) := by
  rw [byteAt_of_lt hi]
  rwa [List.getD_eq_getElem?_getD, List.getElem?_eq_getElem hi, Option.getD_some] at h

theorem settles_sizeField {P : ℕ → Prop} {data : Bytes} {headerSize long short : ℕ}
    (hlong : headerSize = 9 → long + 4 ≤ data.length) (hshort : short < data.length)
    (h : ∀ size, (headerSize = 9 → size = (data.getD long 0).toNat +
        2 ^ 8 * (data.getD (long + 1) 0).toNat + 2 ^ 16 * (data.getD (long + 2) 0).toNat +
        2 ^ 24 * (data.getD (long + 3) 0).toNat) →
      (headerSize ≠ 9 → size = (data.getD short 0).toNat) → P size) :
    Settles P (sizeField data headerSize long short) := by
  unfold sizeField
  split_ifs with h9
  · obtain ⟨v, hv, hval⟩ := readU32Little_eq (hlong h9)
    rw [hv]
    exact h v.toNat (fun _ => hval) (fun h' => absurd h9 h')
  · exact Settles.map (settles_byteAt hshort (h _ (fun h' => absurd h' h9) fun _ => rfl))

end Settles

/-- **Safety and totality of the decoder.** On every input and every limit, `QuickLz::Decompress`
comes to an end without an access out of bounds: it returns as many bytes as the header declares,
at most the limit, or it raises an error, and never one of the two errors about its own state. -/
theorem decompress_safe (data : Bytes) (maximumOutputSize : ℕ) :
    (∃ output, decompress data maximumOutputSize = .ok output ∧
      output.length = declaredSize data ∧ output.length ≤ maximumOutputSize) ∨
    (∃ failure, decompress data maximumOutputSize = .error failure ∧ Raised failure) := by
  suffices h : Settles (fun output => output.length = declaredSize data ∧
      output.length ≤ maximumOutputSize) (decompress data maximumOutputSize) by
    cases hrun : decompress data maximumOutputSize with
    | ok output => rw [hrun] at h; exact .inl ⟨output, rfl, h⟩
    | error failure => rw [hrun] at h; exact .inr ⟨failure, rfl, h⟩
  unfold decompress
  refine .bind (settles_throwIf (by decide) fun h3 => .bind (settles_byteAt (by omega) ?_))
  have hheader : (if data.getD 0 0 &&& 0x02 ≠ 0 then 9 else 3) = 9 ∨
      (if data.getD 0 0 &&& 0x02 ≠ 0 then 9 else 3) = 3 := by split_ifs <;> simp
  refine .bind (settles_throwIf (by decide) fun hlen => .bind (settles_throwIf (by decide) fun _ =>
    .bind (settles_throwIf (by decide) fun _ => .bind (settles_sizeField (by omega) (by omega)
      fun compressedSize _ _ => .bind (settles_sizeField (by omega) (by omega)
        fun size hlong hshort => ?_)))))
  have hsize : size = declaredSize data := by
    unfold declaredSize
    split_ifs with h2
    · exact hlong (if_pos h2)
    · exact hshort (by rw [if_neg h2]; decide)
  refine .bind (settles_throwIf (by decide) fun _ => .bind (settles_throwIf (by decide) fun hmax => ?_))
  generalize (if data.getD 0 0 &&& 0x02 ≠ 0 then 9 else 3) = headerSize at hlen
  by_cases hcompressed : data.getD 0 0 &&& 0x01 = 0
  · rw [if_pos hcompressed]
    refine .bind (settles_throwIf (by decide) fun hstored => ?_)
    show (data.drop headerSize).length = declaredSize data ∧ _
    rw [List.length_drop]
    omega
  · rw [if_neg hcompressed]
    refine .bind (settles_throwIf (by decide) fun _ => ?_)
    have hrun := run_sound (n := size)
      (s := { data := data, sourcePosition := headerSize, output := List.replicate size 0 })
      ⟨Nat.le_of_not_lt hlen, List.length_replicate, Nat.zero_le _, nofun⟩
    unfold wp at hrun
    split <;> rename_i heq <;> rw [heq] at hrun
    · exact ⟨hrun.trans hsize, by omega⟩
    · exact hrun

end TsCli.QuickLzDecoder
